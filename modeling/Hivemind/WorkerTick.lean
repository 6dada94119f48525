import Hivemind.WorkerPods

/-! `tick` of the worker: the walk of `drive_pods` over the tracked pods, which collects one
lifecycle operation per pod, the operations themselves, and what their results do to the table.
The operations of one chunk run on threads of their own; since every answer is left open, they are
asked here one after the other. -/
namespace Hivemind.Agent

open Job

variable {σ : Type} (env : Env σ)

inductive LifecycleOp where
  | pull (podId deploymentId : ℕ) (image : String) (auth : Option ImagePullAuth)
  | create (podId deploymentId : ℕ) (spec : PodSpec)
  | start (podId deploymentId : ℕ) (handle : PodHandle)
  | stop (podId : ℕ) (handle : Option PodHandle) (gracePeriodMs : ℕ) (attemptStop : Bool)

inductive LifecycleResult where
  | pull (result : Except RuntimeError Unit)
  | create (result : Except RuntimeError PodHandle)
  | start (result : Except RuntimeError Unit)
  | stop (result : Except RuntimeError Int32)

/-! ### The walk over the pods -/

/-- The mounts of a pod about to be created. -/
def podMounts (pod : TrackedPod) (podId : ℕ) : Job σ (Except String (List BindMount)) :=
  if pod.juicefsPath.isEmpty then pure (.ok [])
  else do
    let mounted ← mountJuicefs env podId pod.juicefsPath
    return mounted.map fun m => [m]

def TrackedPod.spec (pod : TrackedPod) (podId : ℕ) (gpuType : GpuType) (mounts : List BindMount) :
    PodSpec where
  podId := podId
  deploymentId := pod.deploymentId
  image := pod.image
  entrypoint := pod.entrypoint
  port := pod.port
  gpuCount := pod.gpuCount
  gpuType := gpuType
  cpuMillicores := pod.cpuMillicores
  memoryMegabytes := pod.memoryMegabytes
  envVars := pod.envVars
  mounts := mounts

def visitCreating (podId now : ℕ) : Job σ (Option LifecycleOp) := do
  let found ← pod podId (.noEntry podId)
  if now < found.lifecycleRetryAfterTick then pure none
  else
    let mounts ← podMounts env found podId
    match mounts with
    | .ok mounts =>
      return some (.create podId found.deploymentId
        (found.spec podId (← worker).gpuType mounts))
    | .error error =>
      failPod env podId ("juicefs mount failed: " ++ error) now
      return none

def visitStarting (podId now : ℕ) : Job σ (Option LifecycleOp) := do
  let found ← pod podId (.noEntry podId)
  if now < found.lifecycleRetryAfterTick then pure none
  else return found.handle.map fun handle => .start podId found.deploymentId handle

/-- A running pod that the runtime saw exit. -/
def TrackedPod.exited (now : ℕ) (pod : TrackedPod) : TrackedPod :=
  { pod with state := .stopping, stateChangedAt := now, gracePeriodMs := 0,
             lifecycleFailures := stopAttemptMax, lifecycleRetryAfterTick := 0 }

/-- What a probe says about its pod: the third failure in a row fails it. -/
def recordProbe (podId now : ℕ) : Except RuntimeError Bool → Job σ Unit
  | .ok true => updatePod podId .unwrapNone fun pod => { pod with consecutiveFailures := 0 }
  | .ok false | .error _ => do
    let found ← pod podId .unwrapNone
    let failures := saturatingAdd 8 found.consecutiveFailures 1
    updatePod podId .unwrapNone fun pod => { pod with consecutiveFailures := failures }
    if 3 ≤ failures then failPod env podId "liveness probe failed" now else pure ()

/-- The liveness probe of a pod that is due. -/
def probeLiveness (podId now : ℕ) : Job σ Unit := do
  let found ← pod podId (.noEntry podId)
  match found.handle with
  | none => throw (.expect "running pod must retain its runtime handle")
  | some handle =>
    updatePod podId .unwrapNone fun pod => { pod with lastProbeTick := now }
    let alive : Except RuntimeError Bool ← call env (.probePod handle found.port found.livenessPath)
    recordProbe env podId now alive

/-- `should_probe`. -/
def shouldProbe (podId now : ℕ) : Job σ Bool := do
  let found ← pod podId (.noEntry podId)
  if !found.livenessPath.isEmpty && decide (0 < found.port) then
    let due ← add env 64 found.lastProbeTick found.probeIntervalMs
    return decide (due ≤ now)
  else pure false

def visitRunning (podId now : ℕ) : Job σ Unit := do
  let found ← pod podId (.noEntry podId)
  match found.handle with
  | none => throw (.expect "running pod must retain its runtime handle")
  | some handle =>
    let status : Except RuntimeError PodStatus ← call env (.podStatus handle)
    match status with
    | .ok .running =>
      if ← shouldProbe env podId now then probeLiveness env podId now else pure ()
    | .ok (.stopped exitCode) =>
      updatePod podId .unwrapNone (TrackedPod.exited now)
      completePodStop env podId exitCode now
    | .ok .created | .ok .unknown =>
      failPod env podId "runtime no longer proves pod is running" now
    | .error error =>
      failPod env podId ("runtime status verification failed: " ++ error.text) now

def visitStopping (podId now : ℕ) : Job σ (Option LifecycleOp) := do
  let found ← pod podId (.noEntry podId)
  if now < found.lifecycleRetryAfterTick then pure none
  else return some (.stop podId found.handle found.gracePeriodMs
    (decide (found.lifecycleFailures < stopAttemptMax)))

/-- One round of the walk. -/
def visit (now podId : ℕ) : Job σ (Option LifecycleOp) := do
  let found ← pod podId (.noEntry podId)
  match found.state with
  | .imagePulling =>
    return some (.pull podId found.deploymentId found.image found.imagePullAuth)
  | .creating => visitCreating env podId now
  | .starting => visitStarting podId now
  | .running => do
    visitRunning env podId now
    return none
  | .stopping => visitStopping podId now
  | .stopped _ | .failed _ => pure none

def walk (now : ℕ) : List ℕ → Job σ (List LifecycleOp)
  | [] => pure []
  | podId :: podIds => do
    let op ← visit env now podId
    let ops ← walk now podIds
    return op.toList ++ ops

/-! ### The operations -/

/-- The sort key of an operation: starts go first. -/
def LifecycleOp.key : LifecycleOp → ℕ × ℕ
  | .start podId _ _ => (0, podId)
  | .pull podId _ _ _ | .create podId _ _ | .stop podId _ _ _ => (1, podId)

def phaseConcurrency (lifecycleConcurrency : ℕ) : LifecycleOp → ℕ
  | .start .. => max lifecycleConcurrency 1
  | .pull .. | .create .. | .stop .. => max 1 (min (saturatingMul 64 lifecycleConcurrency 4) 32)

/-- The chunks that run side by side; the first operation of a chunk decides on its length. -/
def chunks (lifecycleConcurrency : ℕ) : ℕ → List LifecycleOp → List (List LifecycleOp)
  | 0, _ => []
  | _ + 1, [] => []
  | fuel + 1, op :: ops =>
    let concurrency := phaseConcurrency lifecycleConcurrency op
    (op :: ops).take concurrency ::
      chunks lifecycleConcurrency fuel ((op :: ops).drop concurrency)

/-- The end of a stop: only the runtime's own word that the pod is stopped counts. -/
def verifyStopped (handle : PodHandle) (stopError : Option RuntimeError) :
    Job σ (Except RuntimeError Int32) := do
  let status : Except RuntimeError PodStatus ← call env (.podStatus handle)
  match status with
  | .ok (.stopped exitCode) => return .ok exitCode
  | .ok .created | .ok .running | .ok .unknown =>
    return .error (stopError.getD (.containerStop "runtime status is not terminal"))
  | .error statusError => return .error (stopError.getD statusError)

def stopPod (handle : PodHandle) (gracePeriodMs : ℕ) (attemptStop : Bool) :
    Job σ (Except RuntimeError Int32) :=
  if attemptStop then do
    let stopped : Except RuntimeError Unit ← call env (.stopPod handle gracePeriodMs)
    match stopped with
    | .ok () => verifyStopped env handle none
    | .error error => verifyStopped env handle (some error)
  else verifyStopped env handle none

/-- One thread. -/
def execute : LifecycleOp → Job σ LifecycleResult
  | .pull _ _ image auth => do
    let result : Except RuntimeError Unit ← call env (.pullImage image auth)
    return .pull result
  | .create _ _ spec => do
    let result : Except RuntimeError PodHandle ← call env (.createPod spec)
    return .create result
  | .start _ _ handle => do
    let result : Except RuntimeError Unit ← call env (.startPod handle)
    return .start result
  | .stop _ (some handle) gracePeriodMs attemptStop => do
    return .stop (← stopPod env handle gracePeriodMs attemptStop)
  | .stop _ none _ _ => return .stop (.ok 0)

/-- The completions of a list of operations, in its order. -/
def executeAll : List LifecycleOp → Job σ (List (LifecycleOp × LifecycleResult))
  | [] => pure []
  | op :: ops => do
    let result ← execute env op
    let rest ← executeAll ops
    return (op, result) :: rest

/-! ### The results -/

/-- `self.pods.get(&pod_id).map(|p| &p.state) == Some(..)`. -/
def podIs (podId : ℕ) (state : TrackedPodState) : Job σ Bool := do
  return decide (((← worker).pods.lookup podId).map (·.state) = some state)

def completePull (podId now : ℕ) : LifecycleResult → Job σ Unit
  | .pull (.ok ()) => do
    updatePod podId .unwrapNone fun pod => { pod with state := .creating, stateChangedAt := now }
    send (.podStatusEvent ⟨podId, .creating⟩)
  | .pull (.error e) => failPod env podId e.text now
  | _ => throw (.unreachable "pull op returned wrong result")

def TrackedPod.created (now : ℕ) (handle : PodHandle) (pod : TrackedPod) : TrackedPod :=
  { pod with handle := some handle, state := .starting, stateChangedAt := now,
             lifecycleRetryAfterTick := 0 }

def completeCreate (podId now : ℕ) : LifecycleResult → Job σ Unit
  | .create (.ok handle) => updatePod podId .unwrapNone (TrackedPod.created now handle)
  | .create (.error e) => failPod env podId e.text now
  | _ => throw (.unreachable "create op returned wrong result")

/-- Whether the pod may be recreated; if so, one more failure is counted. -/
def retryLifecyclePod (podId now : ℕ) : Job σ Bool := do
  match (← worker).pods.lookup podId with
  | none => pure false
  | some found =>
    if lifecycleRetryMax ≤ saturatingAdd 8 found.lifecycleFailures 1 then pure false
    else
      let failures ← add env 8 found.lifecycleFailures 1
      let shift ← shiftOne env failures
      let delay := saturatingMul 64 lifecycleRetryDelayTicks shift
      modifyWorker fun w =>
        { w with pods := w.pods.insert podId
                   { found with lifecycleFailures := failures
                                lifecycleRetryAfterTick := saturatingAdd 64 now delay } }
      pure true

/-- A pod whose start failed and whose container is gone. -/
def TrackedPod.recreated (now : ℕ) (pod : TrackedPod) : TrackedPod :=
  { pod with handle := none, state := .creating, stateChangedAt := now }

def startFailed (podId now : ℕ) (handle : PodHandle) (e : RuntimeError) : Job σ Unit := do
  if ← retryLifecyclePod env podId now then
    let removed : Except RuntimeError Unit ← call env (.removePod handle)
    match removed with
    | .ok () =>
      match (← worker).pods.lookup podId with
      | none => pure ()
      | some found =>
        modifyWorker fun w => { w with pods := w.pods.insert podId (found.recreated now) }
    | .error cleanupError =>
      failPod env podId
        (e.text ++ "; failed start cleanup remains unverified: " ++ cleanupError.text) now
  else failPod env podId e.text now

def TrackedPod.started (now : ℕ) (pod : TrackedPod) : TrackedPod :=
  { pod with state := .running, stateChangedAt := now, lifecycleFailures := 0,
             lifecycleRetryAfterTick := 0 }

def completeStart (podId now : ℕ) (handle : PodHandle) : LifecycleResult → Job σ Unit
  | .start (.ok ()) => do
    updatePod podId .unwrapNone (TrackedPod.started now)
    send (.podStatusEvent ⟨podId, .running⟩)
  | .start (.error e) => startFailed env podId now handle e
  | _ => throw (.unreachable "start op returned wrong result")

def completeStop (podId now : ℕ) : LifecycleResult → Job σ Unit
  | .stop (.ok exitCode) => completePodStop env podId exitCode now
  | .stop (.error _) => scheduleStopRetry podId now
  | _ => throw (.unreachable "stop op returned wrong result")

/-- One completion; a pod that has left the state of its operation is passed over. -/
def complete (now : ℕ) : LifecycleOp × LifecycleResult → Job σ Unit
  | (.pull podId _ _ _, result) => do
    if ← podIs podId .imagePulling then completePull env podId now result else pure ()
  | (.create podId _ _, result) => do
    if ← podIs podId .creating then completeCreate env podId now result else pure ()
  | (.start podId _ handle, result) => do
    if ← podIs podId .starting then completeStart env podId now handle result else pure ()
  | (.stop podId _ _ _, result) => do
    if ← podIs podId .stopping then completeStop env podId now result else pure ()

def drivePods (now : ℕ) : Job σ Unit := do
  let podIds := (← worker).pods.keys.insertionSort (· ≤ ·)
  let ops ← walk env now podIds
  let ops := ops.insertionSort fun a b => Older a.key b.key
  let lifecycleConcurrency := (← worker).lifecycleConcurrency
  let completions ← executeAll env (chunks lifecycleConcurrency ops.length ops).flatten
  completions.forM (complete env now)

/-! ### Ticks -/

def register (now : ℕ) : Job σ Unit := do
  let w ← worker
  if w.registered then pure ()
  else
    send (.nodeRegister ⟨w.nodeName, w.cpuMillicores, w.memoryMegabytes, w.gpuType, w.gpuTotal⟩)
    modifyWorker fun w => { w with registered := true, lastHeartbeatTick := now }

def Worker.activePods (w : Worker) : ℕ :=
  w.trackedPods.countP fun pod => decide (pod.state = .running)

def heartbeat (now : ℕ) : Job σ Unit := do
  let due ← add env 64 (← worker).lastHeartbeatTick heartbeatIntervalTicks
  if due ≤ now then
    let w ← worker
    send (.nodeHeartbeat ⟨now, w.activePods % 2 ^ 32, w.gpuTotal - w.gpuAllocated⟩)
    modifyWorker fun w => { w with lastHeartbeatTick := now }
  else pure ()

/-- The loop over `io.recv()`. -/
def receive (now : ℕ) : List ControlMessage → Job σ Unit
  | [] => observe (.received none)
  | msg :: inbox => do
    observe (.received (some msg))
    handleMessage env now msg
    receive now inbox

/-- A tick at the clock value `now` that finds these messages. -/
def tick (now : ℕ) (inbox : List ControlMessage) : Job σ Unit := do
  register now
  receive env now inbox
  drivePods env now
  heartbeat env now

/-- What the process does with its worker. -/
inductive Event where
  | tick (now : ℕ) (inbox : List ControlMessage)
  | connectionLost

def handleEvent : Event → Job σ Unit
  | .tick now inbox => tick env now inbox
  | .connectionLost => modifyWorker Worker.onConnectionLost

/-- A sequence of events; it returns if none of them stops the process. -/
def run (events : List Event) : Job σ Unit := events.forM (handleEvent env)

end Hivemind.Agent
