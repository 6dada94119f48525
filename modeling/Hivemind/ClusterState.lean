import Hivemind.Stepped
import Hivemind.Framing

/-! The snapshot of a replica for the API: `handleClusterStateRequest` of `connection.zig` against
`parseClusterState` of `client.go`. Every table is within its bounds on every running replica, so
the snapshot fits the buffers of both sides. -/
namespace Hivemind

open Codec Scan

/-! ### The core -/

/-- `@intFromEnum(Status)`. -/
def Status.toNat : Status → ℕ
  | .normal => 0
  | .viewChange => 1
  | .recovering => 2

/-- `@intFromEnum(NodeStatus)`. -/
def NodeStatus.toNat : NodeStatus → ℕ
  | .provisioning => 0
  | .starting => 1
  | .ready => 2
  | .unhealthy => 3
  | .draining => 4
  | .terminating => 5
  | .terminated => 6

/-- `@intFromEnum(GpuType)`. -/
def GpuType.toNat : GpuType → ℕ
  | .none => 0
  | .a100_40 => 1
  | .a100_80 => 2
  | .h100_sxm => 3
  | .h100_pcie => 4
  | .h200 => 5
  | .l40s => 6
  | .a10g => 7
  | .t4 => 8

/-- What the request queue says of itself. -/
structure QueueStats where
  totalDepth : ℕ
  activeInFlightCount : ℕ
  enqueueTotal : ℕ
  dispatchTotal : ℕ
  resolveTotal : ℕ

def flagByte (b : Bool) : List UInt8 := le 1 (if b then 1 else 0)

def nodeRecord (n : Node) : List (List UInt8) :=
  [le 8 n.id, n.name.toList, le 1 n.status.toNat, le 1 n.gpuType.toNat, le 1 n.gpuCount,
    le 1 n.allocatableGpu, le 4 n.cpuMillicores, le 4 n.memoryMegabytes, n.region.toList,
    n.provider.toList]

/-- Of the image only the first 128 bytes are sent. -/
def deploymentRecord (d : Deployment) : List (List UInt8) :=
  [le 8 d.id, d.name.toList, d.image.toList.take 128, le 4 d.replicas, le 4 d.readyReplicas,
    flagByte d.paused, le 4 d.version, le 1 d.gpuType.toNat, le 1 d.gpuCount]

def podRecord (p : Pod) : List (List UInt8) :=
  [le 8 p.id, le 8 p.deploymentId, le 8 p.nodeId, le 1 p.phase.toNat]

def agentRecord (w : WorkerConnection) : List (List UInt8) :=
  [w.hostname.toList, le 8 w.nodeId, flagByte w.connected, leInt 8 w.lastHeartbeatTick,
    le 1 w.gpuType.toNat, le 1 w.gpuCount]

/-- A count and as many records. -/
def countedRecords {α : Type} (f : α → List (List UInt8)) (as : List α) : List (List UInt8) :=
  le 2 as.length :: as.map fun a => (f a).flatten

namespace Replica

variable (s : Replica)

def activeNodes : List Node := s.stateMachine.nodes.filter (·.active)
def activeDeployments : List Deployment := s.stateMachine.deployments.filter (·.active)
def activePods : List Pod := s.stateMachine.pods.filter (·.active)

/-- `replica.workers[0..replica.worker_count]`. -/
def workerTable : List WorkerConnection := (List.range s.workerCount).map s.workers

def stateHeader : List (List UInt8) :=
  [le 1 0x01, le 8 s.viewNumber, le 8 s.commitMin, le 8 s.opNumber, le 1 s.status.toNat,
    flagByte (s.isLeader && s.status == .normal)]

def stateTables : List (List UInt8) :=
  countedRecords nodeRecord s.activeNodes ++ countedRecords deploymentRecord s.activeDeployments ++
    countedRecords podRecord s.activePods ++ countedRecords agentRecord s.workerTable

end Replica

def QueueStats.bytes (q : QueueStats) : List (List UInt8) :=
  [le 8 q.totalDepth, le 8 q.activeInFlightCount, le 8 q.enqueueTotal, le 8 q.dispatchTotal,
    le 8 q.resolveTotal]

/-- What becomes of the request. -/
inductive StateReply where
  | sent (frame : List UInt8)
  | disconnected
  deriving DecidableEq

/-- The length of `state_response_buf`. -/
def stateResponseMax : ℕ := 131072

/-- `handleClusterStateRequest`: the frame is sent or the client is disconnected. Writing past the
end of the buffer stops the process. -/
def Replica.handleClusterStateRequest (s : Replica) (queue : QueueStats) (aead : Aead)
    (key : Option Key) (nonce : Nonce) : Option StateReply :=
  let buf := (s.stateHeader ++ s.stateTables ++ queue.bytes).flatten
  if buf.length > stateResponseMax then none
  else
    match sendFrame aead key.isSome key nonce (versioned 0x25 buf) with
    | .error .lengthOverflow => none
    | .error .encryptionFailed => some .disconnected
    | .ok frame => some (.sent frame)

/-! ### The API -/

namespace Api

structure NodeInfo where
  id : ℕ
  name : List UInt8
  status : ℕ
  gpuType : ℕ
  gpuCount : ℕ
  allocatableGpu : ℕ
  cpu : ℕ
  memory : ℕ
  region : List UInt8
  provider : List UInt8
  deriving DecidableEq

structure DeploymentInfo where
  id : ℕ
  name : List UInt8
  image : List UInt8
  replicas : ℕ
  readyReplicas : ℕ
  paused : Bool
  version : ℕ
  gpuType : ℕ
  gpuCount : ℕ
  deriving DecidableEq

structure PodInfo where
  id : ℕ
  deploymentId : ℕ
  nodeId : ℕ
  phase : ℕ
  deriving DecidableEq

structure WorkerInfo where
  hostname : List UInt8
  nodeId : ℕ
  connected : Bool
  lastHeartbeatTick : ℤ
  gpuType : ℕ
  gpuCount : ℕ
  deriving DecidableEq

structure ClusterState where
  viewNumber : ℕ
  commitMin : ℕ
  opNumber : ℕ
  status : ℕ
  isLeader : Bool
  nodes : List NodeInfo
  deployments : List DeploymentInfo
  pods : List PodInfo
  agents : List WorkerInfo
  queueDepth : ℕ
  inFlight : ℕ
  enqueueTotal : ℕ
  dispatchTotal : ℕ
  resolveTotal : ℕ
  deriving DecidableEq

/-- How the parser ends when it does not return a state. -/
inductive ParseFailure where
  | refused (text : String)
  /-- An index past the end of the data, or the check at the end of the parser. -/
  | panicked
  deriving DecidableEq

instance : ShortError ParseFailure := ⟨.panicked⟩

abbrev StateScan := Scan ParseFailure

def number (n : ℕ) : StateScan ℕ := field (uint n)

def flag : StateScan Bool := do
  let v ← field (uint 1)
  pure (v == 1)

def trimNull (b : List UInt8) : List UInt8 := b.takeWhile (· ≠ 0)

def text (n : ℕ) : StateScan (List UInt8) := do
  let b ← field (bytes n)
  pure (trimNull b.toList)

/-- `int64` of a `uint64`. -/
def toInt64 (v : ℕ) : ℤ := if v < 2 ^ 63 then v else v - 2 ^ 64

/-- `readCount`. -/
def readCount (kind : String) (max recordSize : ℕ) : StateScan ℕ := fun data =>
  if data.length < 2 then .error (.refused ("cluster state truncated before " ++ kind ++ " count"))
  else
    let count := ofLe (data.take 2)
    let rest := data.drop 2
    if count > max then
      .error (.refused ("cluster state " ++ kind ++ " count " ++ toString count ++ " exceeds max " ++
        toString max))
    else if count > rest.length / recordSize then
      .error (.refused ("cluster state truncated " ++ kind ++ " records: count=" ++
        toString count ++ " remaining=" ++ toString rest.length))
    else .ok (count, rest)

def scanRecords {α : Type} (kind : String) (max recordSize : ℕ) (scan : StateScan α) :
    StateScan (List α) := do
  let count ← readCount kind max recordSize
  times scan count

def scanNode : StateScan NodeInfo := do
  let id ← number 8
  let name ← text 64
  let status ← number 1
  let gpuType ← number 1
  let gpuCount ← number 1
  let allocatableGpu ← number 1
  let cpu ← number 4
  let memory ← number 4
  let region ← text 32
  let provider ← text 32
  pure ⟨id, name, status, gpuType, gpuCount, allocatableGpu, cpu, memory, region, provider⟩

def scanDeployment : StateScan DeploymentInfo := do
  let id ← number 8
  let name ← text 64
  let image ← text 128
  let replicas ← number 4
  let readyReplicas ← number 4
  let paused ← flag
  let version ← number 4
  let gpuType ← number 1
  let gpuCount ← number 1
  pure ⟨id, name, image, replicas, readyReplicas, paused, version, gpuType, gpuCount⟩

def scanPod : StateScan PodInfo := do
  let id ← number 8
  let deploymentId ← number 8
  let nodeId ← number 8
  let phase ← number 1
  pure ⟨id, deploymentId, nodeId, phase⟩

def scanAgent : StateScan WorkerInfo := do
  let hostname ← text 64
  let nodeId ← number 8
  let connected ← flag
  let tick ← number 8
  let gpuType ← number 1
  let gpuCount ← number 1
  pure ⟨hostname, nodeId, connected, toInt64 tick, gpuType, gpuCount⟩

/-- What stands before the statistics; they are still to be filled in. -/
def scanTables : StateScan ClusterState := do
  let _ ← number 1
  let viewNumber ← number 8
  let commitMin ← number 8
  let opNumber ← number 8
  let status ← number 1
  let isLeader ← flag
  let nodes ← scanRecords "node" 128 148 scanNode
  let deployments ← scanRecords "deployment" 64 215 scanDeployment
  let pods ← scanRecords "pod" 512 25 scanPod
  let agents ← scanRecords "agent" 128 83 scanAgent
  pure ⟨viewNumber, commitMin, opNumber, status, isLeader, nodes, deployments, pods, agents,
    0, 0, 0, 0, 0⟩

def scanStats (cs : ClusterState) : StateScan ClusterState := do
  let queueDepth ← number 8
  let inFlight ← number 8
  let enqueueTotal ← number 8
  let dispatchTotal ← number 8
  let resolveTotal ← number 8
  pure { cs with
    queueDepth := queueDepth
    inFlight := inFlight
    enqueueTotal := enqueueTotal
    dispatchTotal := dispatchTotal
    resolveTotal := resolveTotal }

def parseClusterState (data : List UInt8) : Except ParseFailure ClusterState :=
  if data.length < 29 then
    .error (.refused ("cluster state too short: " ++ toString data.length))
  else match scanTables.run data with
    | .error e => .error e
    | .ok (cs, rest) =>
      if rest.length ≠ 40 then
        .error (.refused ("cluster state queue stats length " ++ toString rest.length ++ ", want 40"))
      else match (scanStats cs).run rest with
        | .error e => .error e
        | .ok (cs, unread) => if unread.length ≠ 0 then .error .panicked else .ok cs

end Api

/-! ### What a snapshot says -/

/-- The fields of a node that are sent. -/
def Node.info (n : Node) : Api.NodeInfo where
  id := n.id
  name := fixedToSlice n.name
  status := n.status.toNat
  gpuType := n.gpuType.toNat
  gpuCount := n.gpuCount
  allocatableGpu := n.allocatableGpu
  cpu := n.cpuMillicores
  memory := n.memoryMegabytes
  region := fixedToSlice n.region
  provider := fixedToSlice n.provider

/-- The image is cut to what is sent of it, then at the first NUL. -/
def Deployment.info (d : Deployment) : Api.DeploymentInfo where
  id := d.id
  name := fixedToSlice d.name
  image := (d.image.toList.take 128).takeWhile (· ≠ 0)
  replicas := d.replicas
  readyReplicas := d.readyReplicas
  paused := d.paused
  version := d.version
  gpuType := d.gpuType.toNat
  gpuCount := d.gpuCount

def Pod.info (p : Pod) : Api.PodInfo where
  id := p.id
  deploymentId := p.deploymentId
  nodeId := p.nodeId
  phase := p.phase.toNat

def WorkerConnection.info (w : WorkerConnection) : Api.WorkerInfo where
  hostname := fixedToSlice w.hostname
  nodeId := w.nodeId
  connected := w.connected
  lastHeartbeatTick := w.lastHeartbeatTick
  gpuType := w.gpuType.toNat
  gpuCount := w.gpuCount

def Replica.clusterState (s : Replica) (q : QueueStats) : Api.ClusterState where
  viewNumber := s.viewNumber
  commitMin := s.commitMin
  opNumber := s.opNumber
  status := s.status.toNat
  isLeader := s.isLeader && s.status == .normal
  nodes := s.activeNodes.map Node.info
  deployments := s.activeDeployments.map Deployment.info
  pods := s.activePods.map Pod.info
  agents := s.workerTable.map WorkerConnection.info
  queueDepth := q.totalDepth
  inFlight := q.activeInFlightCount
  enqueueTotal := q.enqueueTotal
  dispatchTotal := q.dispatchTotal
  resolveTotal := q.resolveTotal

@[mk_iff]
structure WorkerConnection.Typed (w : WorkerConnection) : Prop where
  node : w.nodeId < 2 ^ 64
  gpu : w.gpuCount < 2 ^ 8
  tick : -2 ^ 63 ≤ w.lastHeartbeatTick ∧ w.lastHeartbeatTick < 2 ^ 63

structure QueueStats.Typed (q : QueueStats) : Prop where
  depth : q.totalDepth < 2 ^ 64
  inFlight : q.activeInFlightCount < 2 ^ 64
  enqueued : q.enqueueTotal < 2 ^ 64
  dispatched : q.dispatchTotal < 2 ^ 64
  resolved : q.resolveTotal < 2 ^ 64

instance : DecidablePred WorkerConnection.Typed :=
  fun w => decidable_of_iff _ (WorkerConnection.typed_iff w).symm

/-- What a snapshot reads is of the types the source gives it. -/
@[mk_iff]
structure Replica.Typed (s : Replica) : Prop where
  view : s.viewNumber < 2 ^ 64
  commit : s.commitMin < 2 ^ 64
  op : s.opNumber < 2 ^ 64
  nodes : ∀ n ∈ s.stateMachine.nodes, n.Typed
  deployments : ∀ d ∈ s.stateMachine.deployments, d.Typed
  pods : ∀ p ∈ s.stateMachine.pods, p.Typed
  workers : ∀ i < s.workerCount, (s.workers i).Typed

instance : DecidablePred Replica.Typed := fun s => decidable_of_iff _ (Replica.typed_iff s).symm

/-! ### The parser reads what the core writes -/

namespace Api

theorem toNat_lt_status (t : Status) : t.toNat < 256 := by cases t <;> decide

theorem toNat_lt_node (t : NodeStatus) : t.toNat < 256 := by cases t <;> decide

theorem toNat_lt_gpu (t : GpuType) : t.toNat < 256 := by cases t <;> decide

theorem toNat_lt_phase (t : PodPhase) : t.toNat < 256 := by cases t <;> decide

theorem reads_number {n v : ℕ} (h : v < 256 ^ n) : Reads (number n) [le n v] v := reads_uint h

theorem reads_flag (b : Bool) : Reads flag [flagByte b] b := by
  cases b with
  | false => exact (reads_uint (by decide)).bind (.nothing false)
  | true => exact (reads_uint (by decide)).bind (.nothing true)

theorem reads_text {n : ℕ} (b : Bytes n) : Reads (text n) [b.toList] (fixedToSlice b) :=
  (reads_bytes b).bind (.nothing _)

theorem reads_image (b : Bytes 256) :
    Reads (text 128) [b.toList.take 128] ((b.toList.take 128).takeWhile (· ≠ 0)) := by
  have hlen : (b.toList.take 128).length = 128 := by
    rw [List.length_take, Vector.length_toList]
    rfl
  have hsame : (strToFixed 128 (b.toList.take 128)).toList = b.toList.take 128 := by
    rw [toList_strToFixed (by rw [hlen]), hlen]
    simp
  have hread := reads_text (strToFixed 128 (b.toList.take 128))
  rw [fixedToSlice, hsame] at hread
  exact hread

theorem reads_tick {v : ℤ} (h : -2 ^ 63 ≤ v ∧ v < 2 ^ 63) :
    ∃ u : ℕ, Reads (number 8) [leInt 8 v] u ∧ toInt64 u = v := by
  refine ⟨(v % 256 ^ 8).toNat, reads_number ?_, ?_⟩
  · omega
  · rw [toInt64]
    split <;> omega

theorem reads_node {n : Node} (h : n.Typed) : Reads scanNode (nodeRecord n) n.info := by
  apply (reads_number h.id).bind
  apply (reads_text _).bind
  apply (reads_number (toNat_lt_node _)).bind
  apply (reads_number (toNat_lt_gpu _)).bind
  apply (reads_number h.gpu).bind
  apply (reads_number h.freeGpu).bind
  apply (reads_number h.cpu).bind
  apply (reads_number h.memory).bind
  apply (reads_text _).bind
  apply (reads_text _).bind
  exact .nothing _

theorem reads_deployment {d : Deployment} (h : d.Typed) :
    Reads scanDeployment (deploymentRecord d) d.info := by
  apply (reads_number h.id).bind
  apply (reads_text _).bind
  apply (reads_image _).bind
  apply (reads_number h.replicas).bind
  apply (reads_number h.ready).bind
  apply (reads_flag _).bind
  apply (reads_number h.version).bind
  apply (reads_number (toNat_lt_gpu _)).bind
  apply (reads_number h.gpu).bind
  exact .nothing _

theorem reads_pod {p : Pod} (h : p.Typed) : Reads scanPod (podRecord p) p.info := by
  apply (reads_number h.id).bind
  apply (reads_number h.deployment).bind
  apply (reads_number h.node).bind
  apply (reads_number (toNat_lt_phase _)).bind
  exact .nothing _

theorem reads_agent {w : WorkerConnection} (h : w.Typed) :
    Reads scanAgent (agentRecord w) w.info := by
  obtain ⟨u, hread, htick⟩ := reads_tick h.tick
  apply (reads_text _).bind
  apply (reads_number h.node).bind
  apply (reads_flag _).bind
  apply hread.bind
  apply (reads_number (toNat_lt_gpu _)).bind
  apply (reads_number h.gpu).bind
  rw [htick]
  exact .nothing _

theorem length_flatten_records {α : Type} {f : α → List (List UInt8)} {size : ℕ}
    (hsize : ∀ a, (f a).flatten.length = size) (as : List α) :
    (as.map fun a => (f a).flatten).flatten.length = as.length * size := by
  induction as with
  | nil => exact (Nat.zero_mul _).symm
  | cons a as ih =>
    rw [List.map_cons, List.flatten_cons, List.length_append, hsize, ih, List.length_cons]
    ring

theorem reads_records {α β : Type} {f : α → List (List UInt8)} {size max : ℕ} {scan : StateScan β}
    {info : α → β} {as : List α} (kind : String) (hsize : ∀ a, (f a).flatten.length = size)
    (hpos : 0 < size) (hroom : as.length ≤ max) (hmax : max < 2 ^ 16)
    (h : ∀ a ∈ as, Reads scan (f a) (info a)) :
    Reads (scanRecords kind max size scan) (countedRecords f as) (as.map info) := by
  have hloop : Reads (times scan as.length) (as.map fun a => (f a).flatten) (as.map info) := by
    apply Reads.times
    rw [List.forall₂_map_right_iff, List.forall₂_same]
    exact fun a ha => (h a ha).join
  intro rest
  have hlen := length_flatten_records hsize as
  have hcount : readCount kind max size ((countedRecords f as).flatten ++ rest) =
      .ok (as.length, (as.map fun a => (f a).flatten).flatten ++ rest) := by
    have htwo : ((countedRecords f as).flatten ++ rest).take 2 = le 2 as.length := by
      exact List.take_left' (length_le 2 _)
    have hdrop : ((countedRecords f as).flatten ++ rest).drop 2 =
        (as.map fun a => (f a).flatten).flatten ++ rest := by
      exact List.drop_left' (length_le 2 _)
    have hlong : ¬ ((countedRecords f as).flatten ++ rest).length < 2 := by
      rw [countedRecords, List.flatten_cons, List.length_append, List.length_append, length_le]
      omega
    have hfits : ¬ as.length > ((as.map fun a => (f a).flatten).flatten ++ rest).length / size := by
      rw [not_lt, Nat.le_div_iff_mul_le hpos, List.length_append, hlen]
      exact Nat.le_add_right _ _
    rw [readCount, if_neg hlong]
    rw [htwo, hdrop, ofLe_le (show as.length < 256 ^ 2 by omega), if_neg (not_lt.mpr hroom),
      if_neg hfits]
  rw [scanRecords, StateT.run_bind, StateT.run, hcount]
  exact hloop rest

end Api

theorem length_nodeRecord (n : Node) : (nodeRecord n).flatten.length = 148 := by
  simp [nodeRecord]

theorem length_deploymentRecord (d : Deployment) : (deploymentRecord d).flatten.length = 215 := by
  simp [deploymentRecord, flagByte]

theorem length_podRecord (p : Pod) : (podRecord p).flatten.length = 25 := by
  simp [podRecord]

theorem length_agentRecord (w : WorkerConnection) : (agentRecord w).flatten.length = 83 := by
  simp [agentRecord, flagByte, leInt]

theorem length_countedRecords {α : Type} {f : α → List (List UInt8)} {size : ℕ}
    (hsize : ∀ a, (f a).flatten.length = size) (as : List α) :
    (countedRecords f as).flatten.length = 2 + as.length * size := by
  rw [countedRecords, List.flatten_cons, List.length_append, length_le,
    Api.length_flatten_records hsize]

/-! ### The number of workers -/

namespace Replica

variable {hash : Hash} {R : Core → Core → Prop} {s s' : Replica}

theorem Posts.workerCount {o : Outcome} (h : Posts s o) :
    o.state.workerCount = s.workerCount := by
  rw [h.frame]

theorem publishCommittedEffect_workerCount (s : Replica) (op : ℕ) :
    (s.publishCommittedEffect op).state.workerCount = s.workerCount := by
  unfold publishCommittedEffect
  split
  · rfl
  next e _ =>
  have hcount := (publishEffect_posts s op e (s.pendingReplyResult (journalSlot op))).workerCount
  cases h : s.publishEffect op e (s.pendingReplyResult (journalSlot op)) with
  | error s' =>
    rw [h] at hcount
    exact hcount
  | ok s' =>
    rw [h] at hcount
    -- the reply to the client concerns no worker
    exact (congrArg (fun side => side.2.1) (publishReply_aside (s := s') op)).trans hcount

theorem onWorkerRegister_workerCount {env : Env} {workerIdx : ℕ} {m : WorkerRegisterMsg}
    (h : s.onWorkerRegister hash env workerIdx m = .ok s') (hroom : s.workerCount ≤ maxWorkers) :
    s'.workerCount ≤ maxWorkers := by
  unfold onWorkerRegister at h
  split at h
  · cases h
    exact hroom
  next hidx =>
  have hnext : (if workerIdx ≥ s.workerCount then workerIdx + 1 else s.workerCount) ≤ maxWorkers := by
    split <;> omega
  by_cases hseq : (if workerIdx < s.workerCount then (s.workers workerIdx).registerSeq else 0) +
      1 ≥ 2 ^ 64
  · rw [if_pos hseq] at h
    cases h
  rw [if_neg hseq] at h
  by_cases hlead : (s.isLeader && s.status == .normal && !s.repairPending) = true
  · rw [if_pos hlead] at h
    cases h
    calc
      _ = _ := congrArg (fun x => x.1.2.1) (onRequest_outward _ _)
      _ ≤ maxWorkers := hnext
  · rw [if_neg hlead] at h
    cases h
    exact hnext

theorem Step.workerCount {ev : WorkerEvent} (h : s.Step hash R ev s')
    (hroom : s.workerCount ≤ maxWorkers) : s'.workerCount ≤ maxWorkers := by
  cases h with
  | protocol _ haside => exact (congrArg (fun side => side.2.1) haside).trans_le hroom
  | register _ hout => exact onWorkerRegister_workerCount hout hroom
  | @disconnect workerIdx =>
    have hsame : (s.onWorkerDisconnect workerIdx).workerCount = s.workerCount := by
      unfold onWorkerDisconnect
      split <;> rfl
    exact hsame.trans_le hroom
  | @heartbeat env workerIdx =>
    exact (onWorkerHeartbeat_tells s env workerIdx).posts.workerCount.trans_le hroom
  | @publish op => exact (publishCommittedEffect_workerCount s op).trans_le hroom

theorem Steps.workerCount (h : s.Steps hash R s') (hroom : s.workerCount ≤ maxWorkers) :
    s'.workerCount ≤ maxWorkers := by
  induction h with
  | refl => exact hroom
  | tail _ hstep ih =>
    obtain ⟨ev, hstep⟩ := hstep
    exact hstep.workerCount ih

end Replica

namespace Replica

variable {s : Replica} {q : QueueStats}

/-- What the tables of a replica hold at most. -/
structure Bounded (s : Replica) : Prop where
  nodes : s.activeNodes.length ≤ 128
  deployments : s.activeDeployments.length ≤ 64
  pods : s.activePods.length ≤ 512
  workers : s.workerTable.length ≤ 128

theorem bounded_of_roomy (h : s.stateMachine.Roomy) (hw : s.workerCount ≤ maxWorkers) :
    s.Bounded where
  nodes := (List.length_filter_le _ _).trans h.nodes
  deployments := (List.length_filter_le _ _).trans h.deployments
  pods := (List.length_filter_le _ _).trans h.pods
  workers := by
    rw [workerTable, List.length_map, List.length_range]
    exact hw

theorem length_stateTables (s : Replica) : s.stateTables.flatten.length =
    8 + s.activeNodes.length * 148 + s.activeDeployments.length * 215 +
      s.activePods.length * 25 + s.workerTable.length * 83 := by
  rw [stateTables, List.flatten_append, List.flatten_append, List.flatten_append,
    List.length_append, List.length_append, List.length_append,
    length_countedRecords length_nodeRecord, length_countedRecords length_deploymentRecord,
    length_countedRecords length_podRecord, length_countedRecords length_agentRecord]
  ring

theorem length_stateHeader (s : Replica) : s.stateHeader.flatten.length = 27 := by
  simp [stateHeader, flagByte]

theorem length_queueStats (q : QueueStats) : q.bytes.flatten.length = 40 := by
  simp [QueueStats.bytes]

theorem reads_tables (ht : s.Typed) (hb : s.Bounded) :
    Reads Api.scanTables (s.stateHeader ++ s.stateTables)
      { s.clusterState q with
        queueDepth := 0, inFlight := 0, enqueueTotal := 0, dispatchTotal := 0
        resolveTotal := 0 } := by
  have hnodes := Api.reads_records "node" length_nodeRecord (by decide) hb.nodes (by decide)
    fun n hn => Api.reads_node (ht.nodes n (List.mem_of_mem_filter hn))
  have hdeployments := Api.reads_records "deployment" length_deploymentRecord (by decide)
    hb.deployments (by decide) fun d hd => Api.reads_deployment (ht.deployments d (List.mem_of_mem_filter hd))
  have hpods := Api.reads_records "pod" length_podRecord (by decide) hb.pods (by decide)
    fun p hp => Api.reads_pod (ht.pods p (List.mem_of_mem_filter hp))
  have hagents := Api.reads_records "agent" length_agentRecord (by decide) hb.workers (by decide)
    fun w hw => by
      obtain ⟨i, hi, rfl⟩ := List.mem_map.mp hw
      exact Api.reads_agent (ht.workers i (List.mem_range.mp hi))
  apply (Api.reads_number (by decide)).bind
  apply (Api.reads_number ht.view).bind
  apply (Api.reads_number ht.commit).bind
  apply (Api.reads_number ht.op).bind
  apply (Api.reads_number (Api.toNat_lt_status _)).bind
  apply (Api.reads_flag _).bind
  rw [stateTables, List.append_assoc, List.append_assoc]
  apply hnodes.append
  apply hdeployments.append
  apply hpods.append
  rw [← List.append_nil (countedRecords _ _)]
  apply hagents.append
  exact .nothing _

theorem reads_stats (h : q.Typed) (cs : Api.ClusterState) :
    Reads (Api.scanStats cs) q.bytes
      { cs with
        queueDepth := q.totalDepth, inFlight := q.activeInFlightCount
        enqueueTotal := q.enqueueTotal, dispatchTotal := q.dispatchTotal
        resolveTotal := q.resolveTotal } := by
  apply (Api.reads_number h.depth).bind
  apply (Api.reads_number h.inFlight).bind
  apply (Api.reads_number h.enqueued).bind
  apply (Api.reads_number h.dispatched).bind
  apply (Api.reads_number h.resolved).bind
  exact .nothing _

theorem parseClusterState_bytes (ht : s.Typed) (hq : q.Typed) (hb : s.Bounded) :
    Api.parseClusterState (s.stateHeader ++ s.stateTables ++ q.bytes).flatten =
      .ok (s.clusterState q) := by
  have hstats := length_queueStats q
  have hlong : ¬ (s.stateHeader ++ s.stateTables ++ q.bytes).flatten.length < 29 := by
    rw [List.flatten_append, List.flatten_append, List.length_append, List.length_append]
    omega
  rw [Api.parseClusterState, if_neg hlong, List.flatten_append, reads_tables (q := q) ht hb]
  dsimp only
  rw [hstats, if_neg (by decide), (reads_stats hq _).run_whole]
  rfl

end Replica

/-- A running replica of some execution. -/
def Replica.Running (s : Replica) : Prop :=
  ∃ (hash : Hash) (n : ℕ) (k : ClusterConfig n) (r : ℕ) (mem : StateMachine) (seed : UInt64)
    (acts : List Action), r < n ∧ (k.cfg r).stateMachine = mem.initInPlace seed ∧
    ((Cluster.run hash (Cluster.start k) acts).procs r).stopped = false ∧
    s = (Cluster.run hash (Cluster.start k) acts).replica r

theorem Replica.Running.bounded {s : Replica} (h : s.Running) : s.Bounded := by
  obtain ⟨hash, n, k, r, mem, seed, acts, hr, hinit, hup, rfl⟩ := h
  obtain ⟨s₀, hopened, hcount, hsteps⟩ := Cluster.stepped k hr hinit acts hup
  apply Replica.bounded_of_roomy (Cluster.logged k hr hinit acts hup).roomy
  exact hsteps.workerCount (by rw [hcount]; exact Nat.zero_le _)

theorem Replica.Bounded.length_snapshot {s : Replica} (hb : s.Bounded) (q : QueueStats) :
    (s.stateHeader ++ s.stateTables ++ q.bytes).flatten.length ≤ 56203 := by
  have hnodes := hb.nodes
  have hdeployments := hb.deployments
  have hpods := hb.pods
  have hagents := hb.workers
  rw [List.flatten_append, List.flatten_append, List.length_append, List.length_append,
    Replica.length_stateHeader, Replica.length_queueStats, Replica.length_stateTables]
  omega

theorem Replica.Bounded.handleClusterStateRequest {s : Replica} (hb : s.Bounded) (q : QueueStats)
    (aead : Aead) (key : Option Key) (nonce : Nonce) :
    ∃ bytes, s.handleClusterStateRequest q aead key nonce = some (.sent bytes) ∧
      sendFrame aead key.isSome key nonce
        (versioned 0x25 (s.stateHeader ++ s.stateTables ++ q.bytes).flatten) = .ok bytes := by
  have hlen := hb.length_snapshot q
  have hinner := length_versioned 0x25 (s.stateHeader ++ s.stateTables ++ q.bytes).flatten
  have hmax : maxFrameBytes = 65536 := rfl
  have hbuf : stateResponseMax = 131072 := rfl
  obtain ⟨bytes, hsend⟩ : ∃ bytes, sendFrame aead key.isSome key nonce
      (versioned 0x25 (s.stateHeader ++ s.stateTables ++ q.bytes).flatten) = .ok bytes :=
    exists_sendFrame (by omega)
  refine ⟨bytes, ?_, hsend⟩
  rw [Replica.handleClusterStateRequest, if_neg (by omega), hsend]

/-- On every running replica of every execution: the snapshot is sent in a frame that is within the
limit of a frame, and the API takes back the active records and the workers in the order of the
tables. -/
theorem cluster_snapshots_decode (hash : Hash) {n : ℕ} (k : ClusterConfig n) (r : ℕ) (hr : r < n)
    (mem : StateMachine) (seed : UInt64) (hinit : (k.cfg r).stateMachine = mem.initInPlace seed)
    (acts : List Action)
    (hup : ((Cluster.run hash (Cluster.start k) acts).procs r).stopped = false)
    (htyped : ((Cluster.run hash (Cluster.start k) acts).replica r).Typed) (q : QueueStats)
    (hq : q.Typed) (aead : Aead) (key : Option Key) (nonce : Nonce) (rest : List UInt8) :
    let s := (Cluster.run hash (Cluster.start k) acts).replica r
    ∃ bytes payload, s.handleClusterStateRequest q aead key nonce = some (.sent bytes) ∧
      bytes.length ≤ maxFrameBytes ∧
      Api.readFrameGeneric aead (bytes ++ rest) 131072 key = .ok (versioned 0x25 payload, rest) ∧
      Api.parseClusterState payload = .ok (s.clusterState q) := by
  intro s
  have hb : s.Bounded :=
    Replica.Running.bounded ⟨hash, n, k, r, mem, seed, acts, hr, hinit, hup, rfl⟩
  have hlen := hb.length_snapshot q
  have hparse := Replica.parseClusterState_bytes htyped hq hb
  obtain ⟨bytes, hsent, hsend⟩ := hb.handleClusterStateRequest q aead key nonce
  generalize (s.stateHeader ++ s.stateTables ++ q.bytes).flatten = buf at hlen hparse hsend
  have hinner := length_versioned 0x25 buf
  have hmax : maxFrameBytes = 65536 := rfl
  have hframe : bytes.length ≤ maxFrameBytes := by
    have hover : frameOverhead key ≤ 40 := by
      rw [frameOverhead]
      split <;> decide
    rw [sendFrame_eq hsend, length_frameOf, declaredLen]
    omega
  refine ⟨bytes, buf, hsent, hframe, ?_, hparse⟩
  rw [sendFrame_eq hsend] at hframe ⊢
  apply Api.readFrameGeneric_frameOf
  · decide
  · omega

/-- A worker has registered and its node is in the table. -/
theorem cluster_snapshots_decode_worker :
    let acts := [Action.call 0 (.workerRegister 0
      { hostname := strToFixed 64 [97], cpuMillicores := 4, gpuCount := 2 }) { now := 1 },
      Action.call 0 .tick { now := 2 }]
    let s := (Cluster.run plainHash (Cluster.start staffed) acts).replica 0
    let q : QueueStats := ⟨0, 0, 3, 3, 3⟩
    ∃ bytes payload, s.handleClusterStateRequest q .bare none (zeroes 24) = some (.sent bytes) ∧
      Api.readFrameGeneric .bare (bytes ++ []) 131072 none = .ok (versioned 0x25 payload, []) ∧
      Api.parseClusterState payload = .ok (s.clusterState q) ∧
      (s.clusterState q).nodes.map (·.name) = [[97]] ∧
      (s.clusterState q).agents.map (·.gpuCount) = [2] := by
  intro acts s q
  have hinit : (staffed.cfg 0).stateMachine = blankStateMachine.initInPlace 1 := rfl
  obtain ⟨bytes, payload, hsent, -, hread, hparse⟩ := cluster_snapshots_decode plainHash staffed 0
    (by decide) blankStateMachine 1 hinit acts (by decide +kernel) (by decide +kernel) q
    ⟨by decide, by decide, by decide, by decide, by decide⟩ .bare none (zeroes 24) []
  exact ⟨bytes, payload, hsent, hread, hparse, by decide +kernel, by decide +kernel⟩

end Hivemind
