import Hivemind.Apply
import Hivemind.Disk
import Hivemind.Candidate

/-! State of one replica (`replica.zig`). `Core` holds what the replication protocol
reads and writes; `Replica` adds timers, worker connections and catch-up
bookkeeping. Slot-indexed arrays are functions; an empty slot is an unoccupied one.

Three ghosts are kept beside the source's state: `history`, every message, reply,
sync, installation and commit advance with the state at that moment; `executions`, what
each execution of an entry found and left since the last start; and the op that produced
each client-table result. No branch of the model reads them. -/
namespace Hivemind

def clientTableMax : ℕ := logSizeMax
def maxWorkers : ℕ := 128
def heartbeatInterval : ℤ := 100
def viewChangeTimeout : ℤ := 2000
def recoveredViewChangeTimeout : ℤ := 50
def repairBatchMax : ℕ := 8
def defaultStopGraceMs : ℕ := 30000
def workerDispatchRetryInterval : ℤ := 5000
def maxPendingStops : ℕ := maxPods
def flushBarrierMax : ℕ := 4
def startPodEnvMax : ℕ := 16

/-- What the outside world contributes to one call: the clock, whether allocation
fails, and the faults of the coming disk calls. -/
structure Env where
  now : ℤ := 0
  outOfMemory : Bool := false
  faults : List Bool := []

def journalSlot (op : ℕ) : ℕ := op % logSizeMax

/-- The ops `lo + 1, ..., hi` in order. -/
def opsAbove (lo hi : ℕ) : List ℕ := List.range' (lo + 1) (hi - lo)

theorem mem_opsAbove {lo hi op : ℕ} : op ∈ opsAbove lo hi ↔ lo < op ∧ op ≤ hi := by
  simp only [opsAbove, List.mem_range'_1]
  omega

abbrev ReplicaSet := BitVec 16

/-- `@as(u16, 1) << i`. -/
def replicaBit (i : ℕ) : ReplicaSet := 1#16 <<< i

structure ClientEntry where
  clientId : ℕ
  requestId : ℕ
  result : Result
  active : Bool := true
  op : ℕ

structure StopDispatch where
  workerIdx : ℕ
  podId : ℕ
  gracePeriodMs : ℕ

structure WorkerConnection where
  nodeId : ℕ := 0
  hostname : Bytes 64 := zeroes 64
  connected : Bool := false
  lastHeartbeatTick : ℤ := 0
  lastDispatchRetryTick : ℤ := 0
  gpuType : GpuType := .none
  gpuCount : ℕ := 0
  pendingRegister : Bool := false
  registerSeq : ℕ := 0

/-- An execution of an entry: the tables before and after it, how many stops waited for a barrier
and how many it adds to them. -/
structure Executed where
  op : ℕ
  before : StateMachine
  after : StateMachine
  waiting : ℕ
  stops : ℕ

/-- Frames handed to `worker_send_fn`. -/
inductive WorkerFrame where
  | startPod (podId : ℕ) (deployment : Deployment)
  | stopPod (podId : ℕ) (gracePeriodMs : ℕ)

/-- What a record of the history says happened. -/
inductive Event where
  | sent (dst : ℕ) (m : Message)
  | replied (clientId : ℕ) (requestId : ℕ) (result : Result)
      (origin : Option ℕ)
  | synced
  | installed (target tipOp tipChecksum : ℕ)
  | raised (lo hi : ℕ) (byVotes : Bool)

/-- The state at the moment of an event. -/
structure Snapshot where
  status : Status
  viewNumber : ℕ
  lastNormalView : ℕ
  storageFailed : Bool
  journal : ℕ → Option LogEntry
  durable : ℕ → Option LogEntry
  metadata : Option DiskMetadata
  commitMin : ℕ
  stateMachine : StateMachine

structure Record where
  event : Event
  state : Snapshot

structure Core where
  replicaId : ℕ
  replicaCount : ℕ
  quorumSize : ℕ
  clientReplySet : Bool
  viewChangeCandidate : ViewChangeCandidate
  pendingStartView : PendingStartView
  deferredViewTarget : ℕ
  status : Status
  viewNumber : ℕ
  lastNormalView : ℕ
  opNumber : ℕ
  commitMin : ℕ
  commitMax : ℕ
  replicaCommitMin : ℕ → ℕ
  journal : ℕ → Option LogEntry
  prepareOkCounts : ℕ → ℕ
  prepareOkFrom : ℕ → ReplicaSet
  clientTable : List ClientEntry
  doVcReceived : ℕ → Bool
  doVcMsgs : ℕ → DoViewChangeMsg
  doVcTotal : ℕ
  pendingViewSelection : Bool
  selectedSource : ℕ
  selectedLastNormalView : ℕ
  selectedTipOp : ℕ
  selectedTipChecksum : ℕ
  selectedCommitBound : ℕ
  selectedTargetView : ℕ
  stateMachine : StateMachine
  journalDirty : ℕ → Bool
  metadataDirty : Bool
  disk : Option Disk
  storageFailed : Bool
  pendingPrepareBroadcast : ℕ → Bool
  pendingPrepareOk : ℕ → Bool
  pendingPrepareOkTo : ℕ → ℕ
  pendingReply : ℕ → Bool
  pendingReplyClientId : ℕ → ℕ
  pendingReplyRequestId : ℕ → ℕ
  pendingReplyResult : ℕ → Result
  durablePrepareThrough : ℕ
  durablePrepareOp : ℕ → ℕ
  durablePrepareChecksum : ℕ → ℕ
  history : List Record

structure Replica extends Core where
  startVcCount : ℕ → Bool
  startVcTotal : ℕ
  selectedNextOp : ℕ
  selectedExpectedChecksum : ℕ
  selectedSourcesAttempted : ReplicaSet
  selectedSourcesRequested : ReplicaSet
  scheduler : Prng
  repairPending : Bool
  repairStatusReceived : ℕ → Bool
  repairStatusCount : ℕ
  transferPending : Bool
  transferTargetOp : ℕ
  pendingEffect : ℕ → Bool
  pendingStops : List (ℕ × StopDispatch)
  lastHeartbeat : ℤ
  lastLeaderActivity : ℤ
  recoveredFromDisk : Bool
  workers : ℕ → WorkerConnection
  workerCount : ℕ
  workerSendSet : Bool
  workerFrames : List (ℕ × WorkerFrame)
  executions : List Executed

structure ReplicaConfig where
  replicaId : ℕ
  replicaCount : ℕ
  stateMachine : StateMachine
  disk : Option Disk := none
  clientReplySet : Bool := false
  workerSendSet : Bool := false

/-- A call either returns a state or stops the process: a failed assertion, an
unwrapped `null` or a checked arithmetic overflow. The state in `error` is the one
reached when it stopped. -/
abbrev Outcome := Except Replica Replica

namespace Outcome

def state : Outcome → Replica
  | .ok s => s
  | .error s => s

end Outcome

/-- `std.debug.assert`. -/
def Replica.assert (cond : Bool) (s : Replica) : Outcome := if cond then .ok s else .error s

/-- Run a step of the protocol core; the rest of the replica is unchanged. -/
def Replica.core (s : Replica) (f : Core → Core) : Replica := { s with toCore := f s.toCore }

@[simp] theorem Replica.core_toCore (s : Replica) (f : Core → Core) :
    (s.core f).toCore = f s.toCore := rfl

namespace Core

variable (hash : Hash) (c : Core)

def leaderForView (v : ℕ) : ℕ := v % c.replicaCount

def leader : ℕ := c.leaderForView c.viewNumber

def isLeader : Bool := c.leader == c.replicaId

def snapshot : Snapshot :=
  { status := c.status
    viewNumber := c.viewNumber
    lastNormalView := c.lastNormalView
    storageFailed := c.storageFailed
    journal := c.journal
    durable := (c.disk.getD {}).durable
    metadata := c.disk.bind (·.metadata)
    commitMin := c.commitMin
    stateMachine := c.stateMachine }

def record (ev : Event) : Core := { c with history := c.history ++ [⟨ev, c.snapshot⟩] }

/-! ### Network -/

def sendTo (dst : ℕ) (m : Message) : Core :=
  { c with history :=
      if c.storageFailed then c.history else c.history ++ [⟨.sent dst m, c.snapshot⟩] }

def sendToAll (m : Message) : Core :=
  (List.range c.replicaCount).foldl (fun c i => c.sendTo i m) c

def sendToAllOthers (m : Message) : Core :=
  (List.range c.replicaCount).foldl
    (fun c i => if i = c.replicaId then c else c.sendTo i m) c

/-- Hand a result to `client_reply_fn`; `origin` is the executed op it came from. -/
def replyTo (clientId requestId : ℕ) (result : Result) (origin : Option ℕ) : Core :=
  { c with history :=
      if c.clientReplySet then
        c.history ++ [⟨.replied clientId requestId result origin, c.snapshot⟩]
      else c.history }

/-! ### Journal -/

def journalGet (op : ℕ) : Option LogEntry :=
  if op = 0 then none else (c.journal (journalSlot op)).filter (fun e => e.opNumber == op)

def journalHas (op : ℕ) : Bool := (c.journalGet op).isSome

/-- The current entry's identity was covered by a barrier. -/
def isDurablePrepare (op : ℕ) : Bool :=
  match c.journalGet op with
  | none => false
  | some e => c.durablePrepareOp (journalSlot op) == op &&
      c.durablePrepareChecksum (journalSlot op) == e.checksum

/-- The slot of `e` is free, or holds an entry of its op with its checksum. -/
def slotAgrees (e : LogEntry) : Bool :=
  match c.journal (journalSlot e.opNumber) with
  | none => true
  | some old => old.opNumber == e.opNumber && old.checksum == e.checksum

/-- The slot of `e` holds another entry of the same op that may be replaced: it is not
committed, and durable prepared evidence gives way only to a validated `StartView`. -/
def slotReplaceable (e : LogEntry) (validatedStartView : Bool) : Bool :=
  match c.journal (journalSlot e.opNumber) with
  | none => false
  | some old => old.opNumber == e.opNumber && old.checksum != e.checksum &&
      !(e.opNumber ≤ c.commitMin) && !(c.isDurablePrepare e.opNumber && !validatedStartView)

def putAccepts (e : LogEntry) (validatedStartView : Bool) : Bool :=
  !(e.opNumber == 0 || e.opNumber > logSizeMax) &&
    (c.slotAgrees e || c.slotReplaceable e validatedStartView)

/-- Write an entry and mark its slot dirty; votes and durability of a replaced entry
are forgotten. -/
def journalPutInternal (e : LogEntry) (validatedStartView : Bool) : Core :=
  let slot := journalSlot e.opNumber
  let accepts := c.putAccepts e validatedStartView
  let forgets := accepts && c.slotReplaceable e validatedStartView
  { c with
    journal := if accepts then upd c.journal slot (some e) else c.journal
    journalDirty := if accepts then upd c.journalDirty slot true else c.journalDirty
    prepareOkCounts := if forgets then upd c.prepareOkCounts slot 0 else c.prepareOkCounts
    prepareOkFrom := if forgets then upd c.prepareOkFrom slot 0 else c.prepareOkFrom
    durablePrepareOp := if forgets then upd c.durablePrepareOp slot 0 else c.durablePrepareOp
    durablePrepareChecksum :=
      if forgets then upd c.durablePrepareChecksum slot 0 else c.durablePrepareChecksum }

def journalPut (e : LogEntry) : Core := c.journalPutInternal e false

def journalPutFromValidatedStartView (e : LogEntry) : Core := c.journalPutInternal e true

/-- The slots `truncateAboveInternal` empties. -/
def truncates (limit : ℕ) (validatedStartView : Bool) (i : ℕ) : Bool :=
  match c.journal i with
  | none => false
  | some e => !(e.opNumber ≤ limit || e.opNumber ≤ c.commitMin) &&
      !(c.isDurablePrepare e.opNumber && !validatedStartView)

def truncateAboveInternal (limit : ℕ) (validatedStartView : Bool) : Core :=
  let gone := c.truncates limit validatedStartView
  { c with
    journal := fun i => if gone i then none else c.journal i
    prepareOkCounts := fun i => if gone i then 0 else c.prepareOkCounts i
    prepareOkFrom := fun i => if gone i then 0 else c.prepareOkFrom i
    durablePrepareOp := fun i => if gone i then 0 else c.durablePrepareOp i
    durablePrepareChecksum := fun i => if gone i then 0 else c.durablePrepareChecksum i
    journalDirty := fun i => if gone i then true else c.journalDirty i }

def truncateAbove (limit : ℕ) : Core := c.truncateAboveInternal limit false

def truncateAboveFromValidatedStartView (limit : ℕ) : Core :=
  c.truncateAboveInternal limit true

def logHighOp : ℕ :=
  slots.foldl (fun high i => match c.journal i with
    | none => high
    | some e => if e.opNumber > high then e.opNumber else high) 0

def lastChecksum : ℕ :=
  if c.opNumber ≤ 1 then 0
  else match c.journalGet (c.opNumber - 1) with
    | some e => e.checksum
    | none => 0

def hasLogGaps : Bool := (opsAbove c.commitMin c.opNumber).any (fun op => !c.journalHas op)

def anyJournalDirty : Bool := slots.any c.journalDirty

def entryFitsLog (e : LogEntry) : Bool :=
  e.opNumber != 0 &&
  (match c.journalGet e.opNumber with
    | some existing => existing.checksum == e.checksum
    | none => true) &&
  (if e.opNumber = 1 then e.parentChecksum == 0
    else match c.journalGet (e.opNumber - 1) with
      | some prev => prev.checksum == e.parentChecksum
      | none => true) &&
  (match c.journalGet (e.opNumber + 1) with
    | some next => next.parentChecksum == e.checksum
    | none => true)

/-- `if (op == 0) 0 else journalGet(op).?.checksum`; `none` is the failed unwrap. -/
def checksumAt (op : ℕ) : Option ℕ :=
  if op = 0 then some 0 else (c.journalGet op).map (·.checksum)

/-! ### Watermarks -/

def noteReplicaCommitMin (replicaId theirCommitMin : ℕ) : Core :=
  { c with replicaCommitMin :=
      if replicaId < c.replicaCount ∧ theirCommitMin > c.replicaCommitMin replicaId then
        upd c.replicaCommitMin replicaId theirCommitMin
      else c.replicaCommitMin }

def maxReplicaCommitMin : ℕ :=
  (opsAbove 0 (c.replicaCount - 1)).foldl (fun m i => max m (c.replicaCommitMin i))
    (c.replicaCommitMin 0)

end Core

end Hivemind
