import Mathlib.Tactic
import Mathlib.Tactic.DeriveCountable

/-! Identifiers, commands, log entries and peer messages of `message.zig`.
Unsigned integers are naturals; the places where the code compares against the
end of a type's range (the view sentinel, the log size) do so explicitly. -/
namespace Hivemind

/-- A fixed-size byte array `[n]u8`. -/
abbrev Bytes (n : ℕ) := Vector UInt8 n

def zeroes (n : ℕ) : Bytes n := Vector.replicate n 0

/-- `fixedToSlice`: the bytes before the first NUL. -/
def fixedToSlice {n : ℕ} (b : Bytes n) : List UInt8 := b.toList.takeWhile (· ≠ 0)

/-- `strToFixed`: the first `n` bytes, zero padded. -/
def strToFixed (n : ℕ) (s : List UInt8) : Bytes n := Vector.ofFn (fun i => s.getD i.val 0)

instance (n : ℕ) : Countable (Bytes n) :=
  Function.Injective.countable (f := fun b : Bytes n => b.toList.map UInt8.toNat) (by
    intro a b h
    have hl : a.toList = b.toList :=
      (List.map_injective_iff.mpr (fun x y hxy => UInt8.toNat_inj.mp hxy)) h
    exact Vector.toList_inj.mp hl)

def replicaCountMax : ℕ := 11
def logBitsetWords : ℕ := 16
def logBitsetBits : ℕ := logBitsetWords * 64
/-- `LOG_SIZE_MAX`: number of journal slots. -/
def logSizeMax : ℕ := logBitsetBits
def dvcLogMax : ℕ := 8
def svLogMax : ℕ := 8
def bindBatchMax : ℕ := 64

/-- `VIEW_NUMBER_SENTINEL`, the all-ones `u64`. -/
def viewNumberSentinel : ℕ := 2 ^ 64 - 1
def viewNumberMax : ℕ := viewNumberSentinel - 1

/-- The saturating sum of unsigned numbers of `bits` bits. -/
def saturatingAdd (bits a b : ℕ) : ℕ := min (a + b) (2 ^ bits - 1)

inductive Status where
  | normal | viewChange | recovering
  deriving DecidableEq, Repr

inductive GpuType where
  | none | a100_40 | a100_80 | h100_sxm | h100_pcie | h200 | l40s | a10g | t4
  deriving DecidableEq, Countable

inductive NodeStatus where
  | provisioning | starting | ready | unhealthy | draining | terminating | terminated
  deriving DecidableEq, Countable

inductive PodPhase where
  | pending | scheduled | running | succeeded | failed | terminating
  deriving DecidableEq, Countable

/-- `@intFromEnum(PodPhase)`. -/
def PodPhase.toNat : PodPhase → ℕ
  | .pending => 0
  | .scheduled => 1
  | .running => 2
  | .succeeded => 3
  | .failed => 4
  | .terminating => 5

structure EnvEntry where
  name : Bytes 64 := zeroes 64
  value : Bytes 256 := zeroes 256
  isSecretRef : Bool := false
  deriving DecidableEq, Countable

structure TrafficRule where
  version : ℕ := 0
  weight : ℕ := 0
  deriving DecidableEq, Countable

structure ProbeConfig where
  path : Bytes 64 := zeroes 64
  intervalMs : ℕ := 10000
  timeoutMs : ℕ := 5000
  enabled : Bool := false
  deriving DecidableEq, Countable

structure RegisterNodeCmd where
  nodeName : Bytes 64 := zeroes 64
  cpuMillicores : ℕ := 0
  memoryMegabytes : ℕ := 0
  gpuType : GpuType := .none
  gpuCount : ℕ := 0
  provider : Bytes 32 := zeroes 32
  region : Bytes 32 := zeroes 32
  deriving DecidableEq, Countable

structure CreateDeploymentCmd where
  name : Bytes 64 := zeroes 64
  namespaceName : Bytes 64 := zeroes 64
  image : Bytes 256 := zeroes 256
  entrypoint : Bytes 256 := zeroes 256
  port : ℕ := 8080
  replicas : ℕ := 1
  cpuMillicores : ℕ := 0
  memoryMegabytes : ℕ := 0
  gpuType : GpuType := .none
  gpuCount : ℕ := 0
  minReplicas : ℕ := 0
  maxReplicas : ℕ := 10
  scaleToZeroAfterMs : ℕ := 0
  targetQueueDepth : ℕ := 1
  liveness : ProbeConfig := {}
  readiness : ProbeConfig := {}
  startupTimeoutMs : ℕ := 30000
  juicefsPath : Bytes 128 := zeroes 128
  envVars : List EnvEntry := List.replicate 16 {}
  envCount : ℕ := 0
  imagePullRegistry : Bytes 128 := zeroes 128
  imagePullUsername : Bytes 64 := zeroes 64
  imagePullPassword : Bytes 256 := zeroes 256
  imagePullPasswordIsSecret : ℕ := 0
  deriving DecidableEq, Countable

structure PodBinding where
  podId : ℕ := 0
  nodeId : ℕ := 0
  deriving DecidableEq, Countable

structure BindPodsToNodesCmd where
  bindings : List PodBinding := List.replicate bindBatchMax {}
  count : ℕ := 0
  deriving DecidableEq, Countable

structure UpdateDeploymentCmd where
  deploymentId : ℕ := 0
  image : Bytes 256 := zeroes 256
  entrypoint : Bytes 256 := zeroes 256
  port : ℕ := 0
  cpuMillicores : ℕ := 0
  memoryMegabytes : ℕ := 0
  gpuType : GpuType := .none
  gpuCount : ℕ := 0
  envVars : List EnvEntry := List.replicate 16 {}
  envCount : ℕ := 0
  deriving DecidableEq, Countable

structure SetTrafficSplitCmd where
  deploymentId : ℕ := 0
  rules : List TrafficRule := List.replicate 4 {}
  ruleCount : ℕ := 0
  deriving DecidableEq, Countable

/-- Commands replicated through the log, in the order of the source's union. -/
inductive Command where
  | registerNode (cmd : RegisterNodeCmd)
  | deregisterNode (nodeId : ℕ)
  | updateNodeStatus (nodeId : ℕ) (newStatus : NodeStatus)
  | createDeployment (cmd : CreateDeploymentCmd)
  | bindPodToNode (podId : ℕ) (nodeId : ℕ)
  | updatePodStatus (podId : ℕ) (newPhase : PodPhase)
  | scaleDeployment (deploymentId : ℕ) (desiredReplicas : ℕ)
  | unbindPod (podId : ℕ)
  | setKillswitch (nodeId : ℕ) (deploymentId : ℕ) (active : Bool)
  | noop
  | updateDeployment (cmd : UpdateDeploymentCmd)
  | setTrafficSplit (cmd : SetTrafficSplitCmd)
  | rollbackDeployment (deploymentId : ℕ)
  | deleteDeployment (deploymentId : ℕ)
  | pauseDeployment (deploymentId : ℕ)
  | resumeDeployment (deploymentId : ℕ)
  | bindPodsToNodes (cmd : BindPodsToNodesCmd)
  deriving DecidableEq, Countable

inductive ErrorCode where
  | ok | notFound | alreadyExists | capacityExceeded | invalidTransition | notLeader | logFull
  deriving DecidableEq

inductive Result where
  | ok (entityId : ℕ)
  | err (code : ErrorCode)
  deriving DecidableEq

def Result.isOk : Result → Bool
  | .ok _ => true
  | .err _ => false

/-- The fields `LogEntry.computeChecksum` feeds to the hasher, in order. -/
structure HashInput where
  parentChecksum : ℕ
  viewNumber : ℕ
  opNumber : ℕ
  command : Command
  clientId : ℕ
  requestId : ℕ
  deriving DecidableEq, Countable

/-- The 64-bit hash of the standard library is a parameter of the whole model:
collision freedom, where a result needs it, is injectivity of this function. -/
abbrev Hash := HashInput → ℕ

structure LogEntry where
  checksum : ℕ := 0
  parentChecksum : ℕ := 0
  viewNumber : ℕ := 0
  opNumber : ℕ := 0
  command : Command := .noop
  clientId : ℕ := 0
  requestId : ℕ := 0
  deriving DecidableEq

def LogEntry.hashInput (e : LogEntry) : HashInput :=
  ⟨e.parentChecksum, e.viewNumber, e.opNumber, e.command, e.clientId, e.requestId⟩

def LogEntry.computeChecksum (hash : Hash) (e : LogEntry) : ℕ := hash e.hashInput

def LogEntry.valid (hash : Hash) (e : LogEntry) : Bool := e.checksum == e.computeChecksum hash

theorem LogEntry.valid_iff {hash : Hash} {e : LogEntry} :
    e.valid hash = true ↔ e.checksum = hash e.hashInput := by
  rw [LogEntry.valid, beq_iff_eq, computeChecksum]

theorem LogEntry.eq_of_hashInput_eq {a b : LogEntry} (hi : a.hashInput = b.hashInput)
    (h : a.checksum = b.checksum) : a = b := by
  cases a
  cases b
  simp_all [LogEntry.hashInput]

theorem LogEntry.eq_of_checksum_eq {hash : Hash} (hinj : Function.Injective hash)
    {a b : LogEntry} (ha : a.valid hash = true) (hb : b.valid hash = true)
    (h : a.checksum = b.checksum) : a = b := by
  have hi : a.hashInput = b.hashInput :=
    hinj (by rw [← valid_iff.mp ha, ← valid_iff.mp hb, h])
  exact eq_of_hashInput_eq hi h

structure RequestMsg where
  clientId : ℕ := 0
  requestId : ℕ := 0
  command : Command := .noop
  deriving DecidableEq

structure PrepareMsg where
  viewNumber : ℕ := 0
  opNumber : ℕ := 0
  commitMin : ℕ := 0
  retentionFloor : ℕ := 0
  entry : LogEntry := {}
  deriving DecidableEq

structure PrepareOkMsg where
  viewNumber : ℕ := 0
  opNumber : ℕ := 0
  replicaId : ℕ := 0
  commitMin : ℕ := 0
  entryChecksum : ℕ := 0
  commitChecksum : ℕ := 0
  deriving DecidableEq

structure CommitMsg where
  viewNumber : ℕ := 0
  commitMin : ℕ := 0
  commitMax : ℕ := 0
  opNumber : ℕ := 0
  retentionFloor : ℕ := 0
  commitChecksum : ℕ := 0
  deriving DecidableEq

structure ReplyMsg where
  viewNumber : ℕ := 0
  requestId : ℕ := 0
  result : Result := .ok 0
  deriving DecidableEq

structure StartViewChangeMsg where
  viewNumber : ℕ := 0
  replicaId : ℕ := 0
  deriving DecidableEq

/-- `log_entries` is the source's fixed array; only its first `logEntryCount`
elements are meaningful. -/
structure DoViewChangeMsg where
  viewNumber : ℕ := 0
  replicaId : ℕ := 0
  lastNormalView : ℕ := 0
  opNumber : ℕ := 0
  commitMin : ℕ := 0
  retentionFloor : ℕ := 0
  logEntries : List LogEntry := List.replicate dvcLogMax {}
  logEntryCount : ℕ := 0
  presentBitset : BitVec logBitsetBits := 0
  nackBitset : BitVec logBitsetBits := 0
  deriving DecidableEq

def DoViewChangeMsg.entries (m : DoViewChangeMsg) : List LogEntry :=
  m.logEntries.take m.logEntryCount

structure StartViewMsg where
  viewNumber : ℕ := 0
  selectedLastNormalView : ℕ := 0
  opNumber : ℕ := 0
  tipChecksum : ℕ := 0
  commitMin : ℕ := 0
  retentionFloor : ℕ := 0
  logEntries : List LogEntry := List.replicate svLogMax {}
  logEntryCount : ℕ := 0
  deriving DecidableEq

def StartViewMsg.entries (m : StartViewMsg) : List LogEntry :=
  m.logEntries.take m.logEntryCount

structure RequestPrepareMsg where
  viewNumber : ℕ := 0
  opNumber : ℕ := 0
  selectedSource : ℕ := 0
  selectedLastNormalView : ℕ := 0
  selectedTipOp : ℕ := 0
  selectedTipChecksum : ℕ := 0
  selectedCommitBound : ℕ := 0
  expectedEntryChecksum : ℕ := 0
  deriving DecidableEq

structure SendPrepareMsg where
  viewNumber : ℕ := 0
  entry : LogEntry := {}
  selectedSource : ℕ := 0
  selectedLastNormalView : ℕ := 0
  selectedTipOp : ℕ := 0
  selectedTipChecksum : ℕ := 0
  selectedCommitBound : ℕ := 0
  expectedEntryChecksum : ℕ := 0
  deriving DecidableEq

structure SendStatusMsg where
  viewNumber : ℕ := 0
  opNumber : ℕ := 0
  commitMin : ℕ := 0
  tipChecksum : ℕ := 0
  commitChecksum : ℕ := 0
  deriving DecidableEq

inductive Message where
  | request (m : RequestMsg)
  | prepare (m : PrepareMsg)
  | prepareOk (m : PrepareOkMsg)
  | commit (m : CommitMsg)
  | reply (m : ReplyMsg)
  | startViewChange (m : StartViewChangeMsg)
  | doViewChange (m : DoViewChangeMsg)
  | startView (m : StartViewMsg)
  | requestPrepare (m : RequestPrepareMsg)
  | sendPrepare (m : SendPrepareMsg)
  | requestStatus (viewNumber : ℕ)
  | sendStatus (m : SendStatusMsg)
  | requestStartView (viewNumber : ℕ)
  deriving DecidableEq

structure WorkerRegisterMsg where
  hostname : Bytes 64 := zeroes 64
  cpuMillicores : ℕ := 0
  memoryMegabytes : ℕ := 0
  gpuType : GpuType := .none
  gpuCount : ℕ := 0
  provider : Bytes 32 := zeroes 32
  region : Bytes 32 := zeroes 32

structure WorkerPodStatusMsg where
  podId : ℕ := 0
  newPhase : PodPhase := .pending

/-! Stateless gates applied before a handler changes anything. -/

def viewNumberValid (v : ℕ) : Bool := v < viewNumberSentinel

def prepareSemanticsValid (hash : Hash) (m : PrepareMsg) : Bool :=
  viewNumberValid m.viewNumber && !(m.opNumber == 0 || m.opNumber > logSizeMax) &&
    !(m.commitMin > m.opNumber) && m.retentionFloor == 0 &&
    m.entry.opNumber == m.opNumber && m.entry.valid hash

def commitSemanticsValid (m : CommitMsg) : Bool :=
  viewNumberValid m.viewNumber && !(m.opNumber > logSizeMax) && !(m.commitMin > logSizeMax) &&
    !(m.commitMax > logSizeMax) && m.retentionFloor == 0 && !(m.commitMin > m.opNumber) &&
    !(m.commitMax > m.opNumber)

def startViewEntryValid (hash : Hash) (sv : StartViewMsg) (e : LogEntry) : Bool :=
  !(e.opNumber < 1 || e.opNumber > logSizeMax) && e.valid hash && !(e.opNumber > sv.opNumber)

/-- The nested duplicate scan of `startViewEntriesValid`. -/
def startViewOpsDistinct : List LogEntry → Bool
  | [] => true
  | e :: rest => rest.all (fun e' => e'.opNumber != e.opNumber) && startViewOpsDistinct rest

def startViewEntriesValid (hash : Hash) (sv : StartViewMsg) : Bool :=
  viewNumberValid sv.viewNumber && !(sv.commitMin > sv.opNumber || sv.opNumber > logSizeMax) &&
    sv.retentionFloor == 0 && !(sv.selectedLastNormalView > sv.viewNumber) &&
    ((sv.opNumber == 0) == (sv.tipChecksum == 0)) && !(sv.logEntryCount > svLogMax) &&
    sv.entries.all (startViewEntryValid hash sv) && startViewOpsDistinct sv.entries

def peerLogBoundsOk (commitMin opNumber : ℕ) : Bool :=
  commitMin ≤ opNumber && opNumber ≤ logSizeMax

def peerOpInRetainedLog (op : ℕ) : Bool := op ≥ 1 && op ≤ logSizeMax

def peerCommitInRetainedLog (commitMin : ℕ) : Bool := commitMin ≤ logSizeMax

def peerLogEntriesOk (hash : Hash) (entries : List LogEntry) (count maxCount : ℕ) : Bool :=
  !(count > maxCount) &&
    (entries.take count).all (fun e => peerOpInRetainedLog e.opNumber && e.valid hash)

/-! Reading a `DoViewChange` message. -/

def dvcTipSemanticsValid (hash : Hash) (dvc : DoViewChangeMsg) : Bool :=
  if dvc.opNumber == 0 then dvc.logEntryCount == 0
  else
    let tips := dvc.entries.filter (fun e => e.opNumber == dvc.opNumber)
    tips.all (fun e => e.valid hash) && tips.length == 1

def dvcEntryChecksum (hash : Hash) (dvc : DoViewChangeMsg) (op : ℕ) : Option ℕ :=
  if op == 0 then some 0
  else (dvc.entries.find? (fun e => e.opNumber == op && e.valid hash)).map (·.checksum)

def dvcOverlapEqual (a b : DoViewChangeMsg) : Bool :=
  a.entries.all (fun x => b.entries.all (fun y =>
    !(x.opNumber == y.opNumber && x.checksum != y.checksum)))

def dvcTailChainValid (hash : Hash) (dvc : DoViewChangeMsg) : Bool :=
  dvc.entries.all (fun child => child.valid hash && dvc.entries.all (fun parent =>
    !(parent.opNumber + 1 == child.opNumber && child.parentChecksum != parent.checksum)))

end Hivemind
