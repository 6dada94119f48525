import Hivemind.Fallible
import Hivemind.WorkerReports
import Mathlib.Data.List.AList
import Mathlib.Data.List.Sort
import Mathlib.Data.List.MinMax

/-! The worker of `worker.rs`: the pods it tracks, the control messages it answers and the ways a
pod of its table is failed, stopped and forgotten. What the container runtime, the volumes and the
secret store answer is left open; where the code would stop the process, the model ends in a
`Panic`. -/
namespace Hivemind.Agent

/-! ### The worker's table -/

def heartbeatIntervalTicks : ℕ := 100
def lifecycleRetryMax : ℕ := 3
def lifecycleRetryDelayTicks : ℕ := 25
def stopAttemptMax : ℕ := 3
def stopRetryDelayTicks : ℕ := 25
def maxTrackedPods : ℕ := 4096
def maxTerminalTombstones : ℕ := 1024
def maxStopGraceMs : ℕ := 30000

inductive TrackedPodState where
  | imagePulling | creating | starting | running | stopping
  | stopped (exitCode : Int32)
  | failed (reason : String)
  deriving DecidableEq

/-- `TrackedPodState::Stopped { .. } | TrackedPodState::Failed { .. }`. -/
def TrackedPodState.terminal : TrackedPodState → Bool
  | .stopped _ | .failed _ => true
  | _ => false

structure ImagePullAuth where
  registry : String
  username : String
  password : String

structure PodHandle where
  podId : ℕ
  containerId : String
  deriving DecidableEq

structure TrackedPod where
  podId : ℕ
  deploymentId : ℕ
  image : String
  entrypoint : String
  state : TrackedPodState
  handle : Option PodHandle
  stateChangedAt : ℕ
  gpuCount : ℕ
  cpuMillicores : ℕ
  memoryMegabytes : ℕ
  gracePeriodMs : ℕ
  port : ℕ
  livenessPath : String
  readinessPath : String
  probeIntervalMs : ℕ
  lastProbeTick : ℕ
  consecutiveFailures : ℕ
  envVars : List (String × String)
  juicefsPath : String
  imagePullAuth : Option ImagePullAuth
  lifecycleFailures : ℕ
  lifecycleRetryAfterTick : ℕ

structure Worker where
  nodeName : String
  gpuType : GpuType
  gpuTotal : ℕ
  cpuMillicores : ℕ
  memoryMegabytes : ℕ
  pods : AList fun _ : ℕ => TrackedPod
  pendingFailureReasons : AList fun _ : ℕ => String
  lastHeartbeatTick : ℕ
  registered : Bool
  gpuAllocated : ℕ
  cpuAllocatedMillicores : ℕ
  memoryAllocatedMegabytes : ℕ
  lifecycleConcurrency : ℕ

def Worker.new (nodeName : String) (gpuType : GpuType) (gpuTotal cpuMillicores memoryMegabytes : ℕ) :
    Worker where
  nodeName := nodeName
  gpuType := gpuType
  gpuTotal := gpuTotal
  cpuMillicores := cpuMillicores
  memoryMegabytes := memoryMegabytes
  pods := ∅
  pendingFailureReasons := ∅
  lastHeartbeatTick := 0
  registered := false
  gpuAllocated := 0
  cpuAllocatedMillicores := 0
  memoryAllocatedMegabytes := 0
  lifecycleConcurrency := 4

def Worker.newWithLifecycleConcurrency (nodeName : String) (gpuType : GpuType)
    (gpuTotal cpuMillicores memoryMegabytes lifecycleConcurrency : ℕ) : Worker :=
  { Worker.new nodeName gpuType gpuTotal cpuMillicores memoryMegabytes with
    lifecycleConcurrency := max 1 (min lifecycleConcurrency 32) }

def Worker.onConnectionLost (w : Worker) : Worker := { w with registered := false }

/-! ### The world around it -/

structure BindMount where
  hostPath : String
  containerPath : String

structure PodSpec where
  podId : ℕ
  deploymentId : ℕ
  image : String
  entrypoint : String
  port : ℕ
  gpuCount : ℕ
  gpuType : GpuType
  cpuMillicores : ℕ
  memoryMegabytes : ℕ
  envVars : List (String × String)
  mounts : List BindMount

inductive PodStatus where
  | created | running
  | stopped (exitCode : Int32)
  | unknown

inductive RuntimeError where
  | imagePull (msg : String)
  | containerCreate (msg : String)
  | containerStart (msg : String)
  | containerStop (msg : String)
  | containerNotFound (msg : String)
  | responseTooLarge (msg : String)
  | internal (msg : String)

/-- `Display` of a runtime error. -/
def RuntimeError.text : RuntimeError → String
  | .imagePull msg => "image pull failed: " ++ msg
  | .containerCreate msg => "container create failed: " ++ msg
  | .containerStart msg => "container start failed: " ++ msg
  | .containerStop msg => "container stop failed: " ++ msg
  | .containerNotFound msg => "container not found: " ++ msg
  | .responseTooLarge msg => "response too large: " ++ msg
  | .internal msg => "internal error: " ++ msg

/-- What the worker asks of the runtime, of the host's volumes and of the secret store. -/
inductive Request where
  | pullImage (image : String) (auth : Option ImagePullAuth)
  | createPod (spec : PodSpec)
  | startPod (handle : PodHandle)
  | forwardRun (handle : PodHandle) (port : ℕ) (payload : List UInt8)
  | probePod (handle : PodHandle) (port : ℕ) (path : String)
  | stopPod (handle : PodHandle) (gracePeriodMs : ℕ)
  | podStatus (handle : PodHandle)
  | removePod (handle : PodHandle)
  | mount (podId : ℕ) (subpath : String)
  | unmount (podId : ℕ)
  | secret (name : String)

@[reducible] def Request.Answer : Request → Type
  | .pullImage .. | .startPod .. | .stopPod .. | .removePod .. => Except RuntimeError Unit
  | .createPod .. => Except RuntimeError PodHandle
  | .forwardRun .. => Except RuntimeError (List UInt8)
  | .probePod .. => Except RuntimeError Bool
  | .podStatus .. => Except RuntimeError PodStatus
  | .mount .. | .unmount .. => Except String Unit
  | .secret .. => Option String

/-- The process: whether additions are checked for overflow, and how the outside, in a state of
its own, answers each request. -/
structure Env (σ : Type) where
  overflowChecks : Bool
  answer : (r : Request) → σ → r.Answer × σ

structure Call where
  request : Request
  answer : request.Answer

/-- What the worker takes from its connection (`none` once that is empty), what it sends, what it
asks for, and, unseen outside, what each write makes of it. -/
inductive Obs where
  | received (msg : Option ControlMessage)
  | sent (m : WorkerMessage)
  | called (c : Call)
  | became (w : Worker)

/-- The worker, its history so far, and the outside. -/
structure Scene (σ : Type) where
  worker : Worker
  trace : List Obs
  outside : σ

/-- Why the process stops. -/
inductive Panic where
  | noEntry (podId : ℕ)
  | expect (text : String)
  | unwrapNone
  | assertion (text : String)
  | overflow
  | unreachable (text : String)
  deriving DecidableEq

abbrev Job (σ α : Type) : Type := Fallible (Scene σ) Panic α

variable {σ : Type} (env : Env σ)

namespace Job

def worker : Job σ Worker := do return (← get).worker

def modifyWorker (f : Worker → Worker) : Job σ Unit :=
  modify fun s => { s with worker := f s.worker, trace := s.trace ++ [.became (f s.worker)] }

def observe (o : Obs) : Job σ Unit :=
  modify fun s => { s with trace := s.trace ++ [o] }

def send (m : WorkerMessage) : Job σ Unit := observe (.sent m)

/-- One request and its answer. -/
def call (r : Request) : Job σ r.Answer := do
  let reply := env.answer r (← get).outside
  modify fun s => { s with trace := s.trace ++ [.called ⟨r, reply.1⟩], outside := reply.2 }
  return reply.1

/-- An assertion of the source, with its text. -/
def require (holds : Bool) (text : String) : Job σ Unit :=
  if holds then pure () else throw (.assertion text)

/-- `a + b` in `bits` bits: with checks an overflow stops the process, without them it wraps. -/
def add (bits a b : ℕ) : Job σ ℕ :=
  if a + b < 2 ^ bits then pure (a + b)
  else if env.overflowChecks then throw .overflow
  else pure ((a + b) % 2 ^ bits)

/-- `1u64 << n`. -/
def shiftOne (n : ℕ) : Job σ ℕ :=
  if n < 64 then pure (2 ^ n)
  else if env.overflowChecks then throw .overflow
  else pure (2 ^ (n % 64))

/-- The tracked pod, or a panic for the way it was asked for. -/
def pod (podId : ℕ) (missing : Panic) : Job σ TrackedPod := do
  match (← worker).pods.lookup podId with
  | some pod => pure pod
  | none => throw missing

/-- A write through `get_mut`. -/
def updatePod (podId : ℕ) (missing : Panic) (f : TrackedPod → TrackedPod) : Job σ Unit := do
  let found ← pod podId missing
  modifyWorker fun w => { w with pods := w.pods.insert podId (f found) }

end Job

def saturatingMul (bits a b : ℕ) : ℕ := min (a * b) (2 ^ bits - 1)

open Job

/-! ### Volumes and secrets -/

def mountBase : String := "/tmp/hivemind/mounts"

/-- `mount_juicefs`: the bind mount of the volume. -/
def mountJuicefs (podId : ℕ) (subpath : String) : Job σ (Except String BindMount) :=
  if !subpath.startsWith "/" || subpath.contains (Char.ofNat 0) then
    pure (.error "juicefs subpath must be a valid absolute path")
  else do
    let mounted : Except String Unit ← call env (.mount podId subpath)
    return mounted.map fun _ => ⟨mountBase ++ "/" ++ toString podId ++ "/juicefs", "/data"⟩

def unmountJuicefs (podId : ℕ) : Job σ (Except String Unit) := call env (.unmount podId)

def resolvePlainOrSecret (value : String) (isSecretRef : Bool) : Job σ (Option String) :=
  if isSecretRef then
    if value.isEmpty then pure none else call env (.secret value)
  else pure (some value)

/-- `SecretResolver::resolve`: an entry whose secret has no value is left out. -/
def resolve : List EnvEntry → Job σ (List (String × String))
  | [] => pure []
  | e :: entries => do
    let value : Option String ← if e.isSecretRef then call env (.secret e.value) else pure (some e.value)
    let rest ← resolve entries
    return (value.map fun v => (e.name, v)).toList ++ rest

/-! ### Forgetting and failing pods -/

/-- The order of `(state_changed_at, pod_id)`. -/
def Older (a b : ℕ × ℕ) : Prop := a.1 < b.1 ∨ a.1 = b.1 ∧ a.2 ≤ b.2

instance : DecidableRel Older := fun a b => inferInstanceAs (Decidable (a.1 < b.1 ∨ _))

def Worker.trackedPods (w : Worker) : List TrackedPod := w.pods.entries.map (·.2)

/-- Change time and id of the terminal pods, oldest first. -/
def Worker.terminalPods (w : Worker) : List (ℕ × ℕ) :=
  ((w.trackedPods.filter (·.state.terminal)).map fun pod =>
    (pod.stateChangedAt, pod.podId)).insertionSort Older

def removeTombstone (podId : ℕ) : Job σ Unit := do
  let removed ← pod podId (.expect "terminal pod must exist")
  modifyWorker fun w => { w with pods := w.pods.erase podId }
  require removed.handle.isNone "terminal tombstone cannot own a runtime"
  require ((← worker).pendingFailureReasons.lookup podId).isNone
    "!self.pending_failure_reasons.contains_key(&pod_id)"

def pruneTerminalPodsTo (limit : ℕ) : Job σ Unit := do
  require (decide (limit ≤ maxTerminalTombstones)) "limit <= MAX_TERMINAL_TOMBSTONES"
  let terminal := (← worker).terminalPods
  let removeCount := terminal.length - limit
  (terminal.take removeCount).forM fun entry => removeTombstone entry.2

/-- What is left of a pod's private data. -/
def TrackedPod.scrubbed (pod : TrackedPod) : TrackedPod :=
  { pod with entrypoint := "", envVars := [], juicefsPath := "", imagePullAuth := none }

def scrubTerminalPodData (podId : ℕ) : Job σ Unit := do
  let found ← pod podId (.expect "terminal pod must exist")
  require found.state.terminal "matches!(pod.state, Stopped | Failed)"
  require found.handle.isNone "pod.handle.is_none()"
  modifyWorker fun w => { w with pods := w.pods.insert podId found.scrubbed }

/-- The sums without the requests of one pod. -/
def Worker.without (w : Worker) (pod : TrackedPod) : Worker :=
  { w with
    gpuAllocated := w.gpuAllocated - pod.gpuCount
    cpuAllocatedMillicores := w.cpuAllocatedMillicores - pod.cpuMillicores
    memoryAllocatedMegabytes := w.memoryAllocatedMegabytes - pod.memoryMegabytes }

def releasePodResources (podId : ℕ) : Job σ Unit := do
  match (← worker).pods.lookup podId with
  | none => pure ()
  | some pod => modifyWorker fun w => w.without pod

def rejectStart (podId : ℕ) (reason : String) : Job σ Unit :=
  send (.podStatusEvent ⟨podId, .failed reason⟩)

/-- A pod that failed and still has to be cleaned up. -/
def TrackedPod.failing (now : ℕ) (pod : TrackedPod) : TrackedPod :=
  { pod with state := .stopping, stateChangedAt := now, gracePeriodMs := 0,
             lifecycleFailures := 0, lifecycleRetryAfterTick := 0 }

/-- The branch of `fail_pod` in which the runtime or the volume is still to be cleaned up. -/
def awaitCleanup (podId : ℕ) (reason : String) (now : ℕ) : Job σ Unit := do
  updatePod podId (.expect "failed pod must exist") (TrackedPod.failing now)
  let previous := (← worker).pendingFailureReasons.lookup podId
  modifyWorker fun w =>
    { w with pendingFailureReasons := w.pendingFailureReasons.insert podId reason }
  require previous.isNone "pod failure cleanup may only begin once"
  let w ← worker
  require (decide (w.pendingFailureReasons.keys.length ≤ w.pods.keys.length))
    "self.pending_failure_reasons.len() <= self.pods.len()"

/-- The branch of `fail_pod` in which nothing is left to clean up. -/
def failAtOnce (podId : ℕ) (reason : String) (now : ℕ) : Job σ Unit := do
  updatePod podId (.expect "failed pod must exist") fun pod =>
    { pod with state := .failed reason, stateChangedAt := now }
  releasePodResources podId
  scrubTerminalPodData podId
  pruneTerminalPodsTo maxTerminalTombstones
  send (.podStatusEvent ⟨podId, .failed reason⟩)

def failPod (podId : ℕ) (reason : String) (now : ℕ) : Job σ Unit := do
  let found ← pod podId (.expect "failed pod must exist")
  if found.handle.isSome then awaitCleanup podId reason now
  else
    let volumeCleanup ← unmountJuicefs env podId
    match volumeCleanup with
    | .error _ => awaitCleanup podId reason now
    | .ok () => failAtOnce podId reason now

/-! ### Stopping pods -/

/-- The next attempt to stop a pod, after one that is not verified. -/
def TrackedPod.stopRetried (now : ℕ) (pod : TrackedPod) : TrackedPod :=
  { pod with lifecycleFailures := min (saturatingAdd 8 pod.lifecycleFailures 1) stopAttemptMax,
             lifecycleRetryAfterTick := saturatingAdd 64 now stopRetryDelayTicks }

def scheduleStopRetry (podId now : ℕ) : Job σ Unit := do
  let found ← pod podId (.expect "failed stop pod must remain tracked")
  require (decide (found.state = .stopping)) "pod.state == TrackedPodState::Stopping"
  modifyWorker fun w => { w with pods := w.pods.insert podId (found.stopRetried now) }

/-- The state in which a stopped pod ends. -/
def finalState (failureReason : Option String) (exitCode : Int32) : TrackedPodState :=
  match failureReason with
  | some reason => .failed reason
  | none => .stopped exitCode

/-- The report about it. -/
def finalStatus (failureReason : Option String) (exitCode : Int32) : PodStatusReport :=
  match failureReason with
  | some reason => .failed reason
  | none => .stopped exitCode

/-- The end of `complete_pod_stop`, once the runtime no longer has the pod. -/
def retireStopped (podId : ℕ) (exitCode : Int32) (now : ℕ) : Job σ Unit := do
  let unmounted ← unmountJuicefs env podId
  match unmounted with
  | .error _ => scheduleStopRetry podId now
  | .ok () =>
    let failureReason := (← worker).pendingFailureReasons.lookup podId
    modifyWorker fun w =>
      { w with pendingFailureReasons := w.pendingFailureReasons.erase podId }
    updatePod podId (.expect "stopping pod must exist") fun pod =>
      { pod with state := finalState failureReason exitCode, stateChangedAt := now,
                 lifecycleRetryAfterTick := 0 }
    releasePodResources podId
    scrubTerminalPodData podId
    pruneTerminalPodsTo maxTerminalTombstones
    send (.podStatusEvent ⟨podId, finalStatus failureReason exitCode⟩)

def completePodStop (podId : ℕ) (exitCode : Int32) (now : ℕ) : Job σ Unit := do
  let state := ((← worker).pods.lookup podId).map (·.state)
  require (decide (state = some .stopping)) "only a stopping pod may complete stop"
  let found ← pod podId (.noEntry podId)
  match found.handle with
  | none => retireStopped env podId exitCode now
  | some handle =>
    let removed : Except RuntimeError Unit ← call env (.removePod handle)
    match removed with
    | .error _ => scheduleStopRetry podId now
    | .ok () =>
      updatePod podId (.expect "stopping pod must remain tracked") fun pod =>
        { pod with handle := none }
      retireStopped env podId exitCode now

/-! ### Control messages -/

def trackedPodStatus : TrackedPodState → PodStatusReport
  | .running => .running
  | .stopped exitCode => .stopped exitCode
  | .failed reason => .failed reason
  | .imagePulling => .imagePulling
  | .creating | .starting => .creating
  | .stopping => .running

def runStatusNoRunningPod : ℕ := 7
def runStatusForwardingFailed : ℕ := 6

/-- A pod to which requests of the deployment can be forwarded. -/
def TrackedPod.serves (pod : TrackedPod) (deploymentId : ℕ) : Bool :=
  pod.deploymentId == deploymentId && decide (pod.state = .running) && decide (0 < pod.port) &&
    pod.handle.isSome

def handleRunRequest (cmd : RunRequestCmd) : Job σ Unit := do
  match (← worker).trackedPods.filter (·.serves cmd.deploymentId) |>.argmin TrackedPod.podId with
  | none =>
    send (.runResponse ⟨cmd.requestId, runStatusNoRunningPod,
      utf8 ("no running pod for deployment " ++ toString cmd.deploymentId)⟩)
  | some pod =>
    match pod.handle with
    | none => throw (.expect "running pod handle must exist")
    | some handle =>
      let reply : Except RuntimeError (List UInt8) ←
        call env (.forwardRun handle pod.port cmd.payload)
      match reply with
      | .ok response => send (.runResponse ⟨cmd.requestId, 0, response⟩)
      | .error e =>
        let status := match e with
          | .responseTooLarge _ => runStatusResponseTooLarge
          | _ => runStatusForwardingFailed
        send (.runResponse ⟨cmd.requestId, status, utf8 e.text⟩)

/-- The pod a start command describes. -/
def StartPodCmd.tracked (cmd : StartPodCmd) (envVars : List (String × String))
    (auth : Option ImagePullAuth) (now : ℕ) : TrackedPod where
  podId := cmd.podId
  deploymentId := cmd.deploymentId
  image := cmd.image
  entrypoint := cmd.entrypoint
  state := .imagePulling
  handle := none
  stateChangedAt := now
  gpuCount := cmd.gpuCount
  cpuMillicores := cmd.cpuMillicores
  memoryMegabytes := cmd.memoryMegabytes
  gracePeriodMs := 0
  port := cmd.port
  livenessPath := cmd.livenessPath
  readinessPath := cmd.readinessPath
  probeIntervalMs := 10000
  lastProbeTick := now
  consecutiveFailures := 0
  envVars := envVars
  juicefsPath := cmd.juicefsPath
  imagePullAuth := auth
  lifecycleFailures := 0
  lifecycleRetryAfterTick := 0

/-- Why a pod that is not tracked is refused, in the order of the checks. -/
def Worker.refusal (w : Worker) (cmd : StartPodCmd) : Option String :=
  if 0 < cmd.gpuCount ∧ cmd.gpuType ≠ w.gpuType then
    some "requested GPU type does not match worker GPU type"
  else if w.gpuTotal < saturatingAdd 8 w.gpuAllocated cmd.gpuCount then
    some "insufficient GPU capacity"
  else if w.cpuMillicores < saturatingAdd 32 w.cpuAllocatedMillicores cmd.cpuMillicores then
    some "insufficient CPU capacity"
  else if w.memoryMegabytes < saturatingAdd 32 w.memoryAllocatedMegabytes cmd.memoryMegabytes then
    some "insufficient memory capacity"
  else none

/-- The three additions of `handle_start_pod`. -/
def allocate (cmd : StartPodCmd) : Job σ Unit := do
  let gpu ← add env 8 (← worker).gpuAllocated cmd.gpuCount
  modifyWorker fun w => { w with gpuAllocated := gpu }
  let cpu ← add env 32 (← worker).cpuAllocatedMillicores cmd.cpuMillicores
  modifyWorker fun w => { w with cpuAllocatedMillicores := cpu }
  let memory ← add env 32 (← worker).memoryAllocatedMegabytes cmd.memoryMegabytes
  modifyWorker fun w => { w with memoryAllocatedMegabytes := memory }

def trackPod (cmd : StartPodCmd) (now : ℕ) : Job σ Unit := do
  let envVars ← resolve env cmd.envVars
  let password ← resolvePlainOrSecret env cmd.imagePullPassword cmd.imagePullPasswordIsSecret
  let password := password.getD ""
  let auth := if !cmd.imagePullUsername.isEmpty || !password.isEmpty then
      some ⟨cmd.imagePullRegistry, cmd.imagePullUsername, password⟩
    else none
  modifyWorker fun w =>
    { w with pods := w.pods.insert cmd.podId (cmd.tracked envVars auth now) }
  send (.podStatusEvent ⟨cmd.podId, .imagePulling⟩)

def handleStartPod (cmd : StartPodCmd) (now : ℕ) : Job σ Unit := do
  match (← worker).pods.lookup cmd.podId with
  | some pod => send (.podStatusEvent ⟨cmd.podId, trackedPodStatus pod.state⟩)
  | none =>
    pruneTerminalPodsTo maxTerminalTombstones
    let w ← worker
    if maxTrackedPods ≤ w.pods.keys.length then
      rejectStart cmd.podId "worker tracked-pod capacity exhausted"
    else match w.refusal cmd with
      | some reason => rejectStart cmd.podId reason
      | none =>
        allocate env cmd
        trackPod env cmd now

/-- A pod that a stop command may still stop. -/
def TrackedPodState.stoppable : TrackedPodState → Bool
  | .imagePulling | .creating | .starting | .running => true
  | _ => false

def TrackedPod.halted (gracePeriodMs now : ℕ) (pod : TrackedPod) : TrackedPod :=
  { pod with state := .stopping, stateChangedAt := now, gracePeriodMs := gracePeriodMs,
             lifecycleFailures := 0, lifecycleRetryAfterTick := 0 }

def handleStopPod (cmd : StopPodCmd) (now : ℕ) : Job σ Unit := do
  match (← worker).pods.lookup cmd.podId with
  | none => pure ()
  | some pod =>
    if pod.state.stoppable then
      modifyWorker fun w =>
        { w with pods := w.pods.insert cmd.podId
                           (pod.halted (min cmd.gracePeriodMs maxStopGraceMs) now) }
    else pure ()

def handleProbePod (podId : ℕ) : Job σ Unit := do
  match (← worker).pods.lookup podId with
  | none => pure ()
  | some pod => send (.podStatusEvent ⟨podId, trackedPodStatus pod.state⟩)

def handleMessage (now : ℕ) : ControlMessage → Job σ Unit
  | .startPod cmd => handleStartPod env cmd now
  | .stopPod cmd => handleStopPod cmd now
  | .probePod podId => handleProbePod podId
  | .runRequest cmd => handleRunRequest env cmd

end Hivemind.Agent
