import Hivemind.Process

/-! Start-up: `initInPlace`, recovery of the last synced state, and the inputs a
running replica reacts to. -/
namespace Hivemind

namespace Replica

/-- Fresh state; `history` is the record of earlier runs of the same replica. -/
def freshState (cfg : ReplicaConfig) (history : List Record) : Replica :=
  { replicaId := cfg.replicaId
    replicaCount := cfg.replicaCount
    quorumSize := (cfg.replicaCount - 1) / 2 + 1
    clientReplySet := cfg.clientReplySet
    viewChangeCandidate := {}
    pendingStartView := {}
    deferredViewTarget := 0
    status := .normal
    viewNumber := 0
    lastNormalView := 0
    opNumber := 0
    commitMin := 0
    commitMax := 0
    replicaCommitMin := fun _ => 0
    journal := fun _ => none
    prepareOkCounts := fun _ => 0
    prepareOkFrom := fun _ => 0
    clientTable := []
    doVcReceived := fun _ => false
    doVcMsgs := fun _ => {}
    doVcTotal := 0
    pendingViewSelection := false
    selectedSource := 0
    selectedLastNormalView := 0
    selectedTipOp := 0
    selectedTipChecksum := 0
    selectedCommitBound := 0
    selectedTargetView := 0
    stateMachine := cfg.stateMachine
    journalDirty := fun _ => false
    metadataDirty := false
    disk := cfg.disk
    storageFailed := false
    pendingPrepareBroadcast := fun _ => false
    pendingPrepareOk := fun _ => false
    pendingPrepareOkTo := fun _ => 0
    pendingReply := fun _ => false
    pendingReplyClientId := fun _ => 0
    pendingReplyRequestId := fun _ => 0
    pendingReplyResult := fun _ => .ok 0
    durablePrepareThrough := 0
    durablePrepareOp := fun _ => 0
    durablePrepareChecksum := fun _ => 0
    history
    startVcCount := fun _ => false
    startVcTotal := 0
    selectedNextOp := 0
    selectedExpectedChecksum := 0
    selectedSourcesAttempted := 0
    selectedSourcesRequested := 0
    scheduler := Prng.init (cfg.replicaId.toUInt64 + 0x5C4ED)
    repairPending := false
    repairStatusReceived := fun _ => false
    repairStatusCount := 0
    transferPending := false
    transferTargetOp := 0
    pendingEffect := fun _ => false
    pendingStops := []
    lastHeartbeat := 0
    lastLeaderActivity := 0
    recoveredFromDisk := false
    workers := fun _ => {}
    workerCount := 0
    workerSendSet := cfg.workerSendSet
    workerFrames := []
    executions := [] }

/-- `initInPlace`; `none` is the failed assertion on the cluster size. -/
def initInPlace (cfg : ReplicaConfig) : Option Replica :=
  if cfg.replicaCount ≥ 1 ∧ cfg.replicaCount ≤ replicaCountMax then some (freshState cfg [])
  else none

variable (hash : Hash) (env : Env) (s : Replica)

/-- Replay of the committed ops; `none` is `error.CorruptJournal` (or an overflow in
`apply`, which stops the process just the same). -/
def replay : List ℕ → ℕ → Core → Option Core
  | [], _, c => some c
  | op :: rest, parent, c =>
    match c.journalGet op with
    | none => none
    | some e =>
      if !e.valid hash then none
      else if e.parentChecksum ≠ parent then none
      else match c.stateMachine.apply e.command with
        | none => none
        | some (sm, result) =>
          match ({ c with stateMachine := sm } : Core).updateClientTable
              e.clientId e.requestId result op with
          | none => none
          | some c => replay rest e.checksum c

def rebuildCommittedState (c : Core) (targetCommit : ℕ) : Option Core :=
  replay hash (opsAbove 0 targetCommit) 0
    { c with
      stateMachine := c.stateMachine.initInPlace c.stateMachine.seed
      clientTable := [] }

/-- The metadata checks of `recoverFromDisk`. -/
def metadataSound (m : DiskMetadata) : Bool :=
  viewNumberValid m.viewNumber && !(m.commitMin > m.commitMax) && !(m.commitMax > m.opNumber) &&
    !(m.opNumber > logSizeMax) && !(m.lastNormalView > m.viewNumber)

/-- What recovery reads back from a slot: a valid entry not above the recovered op. -/
def recoveredSlot (d : Disk) (m : DiskMetadata) (i : ℕ) : Option LogEntry :=
  (d.readSlot i).filter (fun e => decide (e.opNumber > 0) && e.valid hash &&
    !decide (e.opNumber > m.opNumber))

/-- Metadata and journal as recovered, before the committed prefix is replayed. -/
def recoveredCore (d : Disk) (m : DiskMetadata) (c : Core) : Core :=
  { c with
    viewNumber := m.viewNumber
    lastNormalView := m.lastNormalView
    opNumber := m.opNumber
    commitMin := m.commitMin
    commitMax := m.commitMax
    replicaCommitMin := upd (fun _ => 0) c.replicaId m.commitMin
    durablePrepareThrough := m.opNumber
    journal := recoveredSlot hash d m
    durablePrepareOp := fun i => ((recoveredSlot hash d m i).map (·.opNumber)).getD 0
    durablePrepareChecksum := fun i => ((recoveredSlot hash d m i).map (·.checksum)).getD 0 }

/-- The flags cleared at the end of recovery. -/
def settleRecovered (c : Core) : Core :=
  { c with
    status := if c.replicaCount > 1 then .viewChange else c.status
    prepareOkCounts := fun _ => 0
    prepareOkFrom := fun _ => 0
    journalDirty := fun _ => false
    metadataDirty := false
    pendingPrepareBroadcast := fun _ => false
    pendingPrepareOk := fun _ => false
    pendingReply := fun _ => false
    doVcReceived := fun _ => false
    doVcTotal := 0
    pendingViewSelection := false }

/-- `recoverFromDisk`: `some false` when there is no durable metadata, `none` when it
returns an error and the replica does not start. -/
def recoverFromDisk : Option (Bool × Replica) :=
  match s.disk with
  | none => some (false, s)
  | some d =>
    match d.readMetadata with
    | none => some (false, s)
    | some m =>
      if !metadataSound m then none
      else match rebuildCommittedState hash (recoveredCore hash d m s.toCore) m.commitMin with
        | none => none
        | some c =>
          some (true, { s with
            toCore := settleRecovered c
            recoveredFromDisk := true
            lastLeaderActivity := if s.replicaCount > 1 then env.now else s.lastLeaderActivity
            pendingEffect := fun _ => false
            pendingStops := []
            repairPending := false
            transferPending := false
            transferTargetOp := 0
            startVcCount := fun _ => false
            startVcTotal := 0 })

/-- A process lost between two calls: unsynced writes and memory are gone, and the
replica starts again on the same disk. -/
def restart : Option Replica :=
  let fresh := freshState
    { replicaId := s.replicaId
      replicaCount := s.replicaCount
      stateMachine := s.stateMachine.initInPlace s.stateMachine.seed
      disk := s.disk.map Disk.crash
      clientReplySet := s.clientReplySet
      workerSendSet := s.workerSendSet } s.history
  (fresh.recoverFromDisk hash env).map (·.2)

end Replica

/-- One call into a running replica. -/
inductive Input where
  | message (src : ℕ) (m : Message)
  | request (m : RequestMsg)
  | tick
  | workerRegister (workerIdx : ℕ) (m : WorkerRegisterMsg)
  | workerDisconnect (workerIdx : ℕ)
  | workerHeartbeat (workerIdx : ℕ)
  | workerPodStatus (workerIdx : ℕ) (m : WorkerPodStatusMsg)
  | route (deploymentId now : ℕ)

/-- Run one call to its end. -/
def Replica.handle (hash : Hash) (env : Env) (inp : Input) (s : Replica) : Outcome :=
  match inp with
  | .message src m => s.onMessage hash env src m
  | .request m => .ok (s.onRequest hash m)
  | .tick => s.tick hash env
  | .workerRegister i m => s.onWorkerRegister hash env i m
  | .workerDisconnect i => .ok (s.onWorkerDisconnect i)
  | .workerHeartbeat i => s.onWorkerHeartbeat env i
  | .workerPodStatus i m => .ok (s.onWorkerPodStatus hash i m)
  | .route deploymentId now =>
    .ok { s with stateMachine := s.stateMachine.touchDeployment deploymentId now }

end Hivemind
