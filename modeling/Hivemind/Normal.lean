import Hivemind.ViewChange

/-! Normal operation: requests, `Prepare`, `PrepareOk` and `Commit`. -/
namespace Hivemind

namespace Core

variable (hash : Hash) (c : Core)

/-- The entry a request becomes at the end of the log. -/
def requestEntry (m : RequestMsg) : LogEntry :=
  let e : LogEntry :=
    { viewNumber := c.viewNumber
      opNumber := c.opNumber
      command := m.command
      clientId := m.clientId
      requestId := m.requestId
      parentChecksum := c.lastChecksum }
  { e with checksum := e.computeChecksum hash }

/-- Append a request: broadcast and self vote wait for the barrier. -/
def appendRequest (m : RequestMsg) : Core :=
  let c := { c with opNumber := c.opNumber + 1 }
  let c := c.journalPut (c.requestEntry hash m)
  let slot := journalSlot c.opNumber
  { c with
    metadataDirty := true
    pendingPrepareBroadcast := upd c.pendingPrepareBroadcast slot true
    prepareOkCounts := upd c.prepareOkCounts slot 0
    prepareOkFrom := upd c.prepareOkFrom slot 0 }

/-- Owe `dst` a `PrepareOk` for `op` once it is durable. -/
def owePrepareOk (op dst : ℕ) : Core :=
  { c with
    pendingPrepareOk := upd c.pendingPrepareOk (journalSlot op) true
    pendingPrepareOkTo := upd c.pendingPrepareOkTo (journalSlot op) dst }

/-- Append a prepared entry that extends the log by one. -/
def acceptEntry (e : LogEntry) (dst : ℕ) : Core :=
  let c := ({ c with opNumber := e.opNumber } : Core).journalPut e
  c.owePrepareOk e.opNumber dst

/-- `PrepareOk` for `op`; `none` is the failed unwrap of the committed entry. -/
def prepareOkFor (op checksum : ℕ) : Option Message :=
  (c.checksumAt c.commitMin).map (fun commitChecksum => .prepareOk
    { viewNumber := c.viewNumber
      opNumber := op
      replicaId := c.replicaId
      commitMin := c.commitMin
      entryChecksum := checksum
      commitChecksum })

/-- Count each replica's acknowledgement once. -/
def countVote (op src : ℕ) : Core :=
  let slot := journalSlot op
  let fresh := c.prepareOkFrom slot &&& replicaBit src == 0
  { c with
    prepareOkFrom := if fresh then
        upd c.prepareOkFrom slot (c.prepareOkFrom slot ||| replicaBit src)
      else c.prepareOkFrom
    prepareOkCounts := if fresh then upd c.prepareOkCounts slot (c.prepareOkCounts slot + 1)
      else c.prepareOkCounts }

/-- The journal holds an entry at `op` with another checksum. -/
def holdsOther (op checksum : ℕ) : Bool :=
  match c.journalGet op with
  | none => false
  | some e => e.checksum != checksum

/-- The sender's watermark is news only if the leader's own entry there agrees. -/
def watermarkOk (src commitMin commitChecksum : ℕ) : Bool :=
  !(commitMin > c.replicaCommitMin src) ||
    (c.journalGet commitMin).map (·.checksum) == some commitChecksum

end Core

namespace Replica

variable (hash : Hash) (env : Env) (s : Replica)

def maybeResumeRepair : Replica :=
  if !s.isLeader then s
  else if s.status ≠ .normal then s
  else if s.repairPending then s
  else if s.maxReplicaCommitMin ≤ s.commitMin then s
  else { s with
    repairPending := true
    repairStatusReceived := fun _ => false
    repairStatusCount := 0 }

def onRequest (m : RequestMsg) : Replica :=
  if s.status ≠ .normal then s
  else if !s.isLeader then s
  else if s.repairPending then s
  else if s.storageFailed then s
  else if s.hasPendingClientReply m.clientId m.requestId then s
  else match (s.findClient m.clientId).filter (fun e => e.requestId ≥ m.requestId) with
    | some e => s.core (fun c => c.replyTo m.clientId m.requestId e.result (some e.op))
    | none =>
      if s.hasPendingRequest m.clientId m.requestId then s
      else if s.opNumber + 1 > logSizeMax then
        s.core (fun c => c.replyTo m.clientId m.requestId (.err .logFull) none)
      else s.core (fun c => c.appendRequest hash m)

/-- Ask for missing ops up to `target`. -/
def wantTransfer (target : ℕ) : Replica :=
  { s with transferPending := true, transferTargetOp := target }

def transferIfGaps (target : ℕ) : Replica :=
  if s.hasLogGaps then s.wantTransfer (max s.transferTargetOp target) else s

/-- The truncation branch of `onPrepare` for an entry that conflicts with the journal. -/
def dropConflict (m : PrepareMsg) : Replica :=
  if m.opNumber ≤ s.opNumber ∧ m.opNumber > s.commitMin then
    match s.journalGet m.opNumber with
    | none => s
    | some existing =>
      if existing.checksum = m.entry.checksum then s
      else
        let s := s.core (fun c => c.truncateAbove (m.opNumber - 1))
        let s := { s with opNumber := max s.logHighOp s.commitMin }
        { s with commitMax := min s.commitMax s.opNumber }
  else s

/-- A prepare for the next op, a known op, or one beyond a gap. -/
def placePrepare (src : ℕ) (m : PrepareMsg) : Outcome :=
  if m.opNumber = s.opNumber + 1 then
    if m.opNumber > logSizeMax then .ok s
    else
      let s := s.core (fun c => { c.acceptEntry m.entry src with metadataDirty := true })
      if s.transferPending && s.opNumber ≥ s.transferTargetOp then
        .ok { s with transferPending := false }
      else .ok s
  else if m.opNumber ≤ s.opNumber ∧ m.opNumber > s.commitMin then
    match (s.journalGet m.opNumber).filter (fun e => e.checksum == m.entry.checksum) with
    | none => .ok s
    | some existing =>
      if s.isDurablePrepare m.opNumber then
        match s.prepareOkFor m.opNumber existing.checksum with
        | none => .error s
        | some ok => .ok (s.core (fun c => c.sendTo src ok))
      else .ok (s.core (fun c => c.owePrepareOk m.opNumber src))
  else if m.opNumber > s.opNumber + 1 then
    if !s.transferPending || m.opNumber > s.transferTargetOp then .ok (s.wantTransfer m.opNumber)
    else .ok s
  else .ok s

/-- A prepare of another identity for an op of the current view. -/
def conflictsInView (m : PrepareMsg) : Bool :=
  m.viewNumber == s.viewNumber && s.holdsOther m.opNumber m.entry.checksum

def onPrepare (src : ℕ) (m : PrepareMsg) : Outcome :=
  if s.status = .recovering then .ok s
  else if src ≠ s.leaderForView m.viewNumber then .ok s
  else if !prepareSemanticsValid hash m then .ok s
  else if s.conflictsInView m then .ok s
  else if m.viewNumber > s.viewNumber then do
    let s ← s.awaitStartView env m.viewNumber
    s.requestStartView m.viewNumber
  else if m.viewNumber ≠ s.viewNumber then .ok s
  else if s.status = .viewChange then s.requestStartView m.viewNumber
  else if s.isLeader then .ok s
  else
    let s := { s with lastLeaderActivity := env.now }
    let s := s.core (fun c => c.noteReplicaCommitMin src m.commitMin)
    let s := s.dropConflict m
    if !s.entryFitsLog m.entry then .ok s
    else do
      let s ← s.placePrepare src m
      .ok (s.transferIfGaps s.opNumber)

def onPrepareOk (src : ℕ) (m : PrepareOkMsg) : Outcome :=
  if s.status ≠ .normal then .ok s
  else if !s.isLeader then .ok s
  else if m.viewNumber ≠ s.viewNumber then .ok s
  else if m.replicaId ≠ src then .ok s
  else if !peerOpInRetainedLog m.opNumber then .ok s
  else match s.journalGet m.opNumber with
    | none => .ok s
    | some e =>
      if m.entryChecksum ≠ e.checksum then .ok s
      else if !peerCommitInRetainedLog m.commitMin then .ok s
      else if !s.watermarkOk src m.commitMin m.commitChecksum then .ok s
      else
        let s := s.core (fun c => c.noteReplicaCommitMin src m.commitMin)
        let s := if m.opNumber > s.commitMin ∧ m.opNumber ≤ s.opNumber then
            s.core (fun c => c.countVote m.opNumber src)
          else s
        s.advanceCommit.map maybeResumeRepair

/-- Execute what the leader announces, or ask for it. -/
def followCommit (m : CommitMsg) (target : ℕ) : Outcome :=
  if target > s.commitMin then
    if s.journalHas target then
      if m.commitChecksum = 0 then .error s else s.commitUpTo target
    else .ok (s.wantTransfer (max s.transferTargetOp target))
  else .ok s

def onCommit (src : ℕ) (m : CommitMsg) : Outcome :=
  let target := max m.commitMin m.commitMax
  let advancing : Bool := target > s.commitMin
  if s.status = .recovering then .ok s
  else if src ≠ s.leaderForView m.viewNumber then .ok s
  else if !commitSemanticsValid m then .ok s
  else if advancing && m.commitChecksum == 0 then .ok s
  else if m.viewNumber > s.viewNumber then do
    let s ← s.awaitStartView env m.viewNumber
    s.requestStartView m.viewNumber
  else if m.viewNumber ≠ s.viewNumber then .ok s
  else if advancing && s.holdsOther target m.commitChecksum then .ok s
  else if s.status = .viewChange then s.requestStartView m.viewNumber
  else if s.isLeader then .ok s
  else do
    let s := { s with lastLeaderActivity := env.now }
    let s := s.core (fun c => c.noteReplicaCommitMin src m.commitMin)
    let s ← s.followCommit m target
    let s := if m.opNumber > s.opNumber ∧
        (!s.transferPending || m.opNumber > s.transferTargetOp) = true then
        s.wantTransfer m.opNumber
      else s
    .ok (s.transferIfGaps (max s.opNumber m.opNumber))

end Replica

end Hivemind
