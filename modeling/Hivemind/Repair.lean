import Hivemind.Normal

/-! Log repair and follower catch-up: `RequestStatus`, `SendStatus`,
`RequestPrepare`, `SendPrepare`, and the leader's and follower's repair ticks. -/
namespace Hivemind

namespace Core

variable (c : Core)

/-- The replica's own status; `none` is a failed unwrap of its tip or committed entry. -/
def statusMessage : Option Message :=
  match c.checksumAt c.opNumber, c.checksumAt c.commitMin with
  | some tipChecksum, some commitChecksum => some (.sendStatus
      { viewNumber := c.viewNumber
        opNumber := c.opNumber
        commitMin := c.commitMin
        tipChecksum
        commitChecksum })
  | _, _ => none

/-- The leader believes a status only if it agrees with the leader's own journal. -/
def statusAgrees (m : SendStatusMsg) : Bool :=
  (m.opNumber == 0 || (c.journalGet m.opNumber).map (·.checksum) == some m.tipChecksum) &&
    (m.commitMin == 0 || (c.journalGet m.commitMin).map (·.checksum) == some m.commitChecksum)

/-- A request bound to a selection is served only if it names the selection this
replica knows: as the leader that started the view, or as the selected source. -/
def servesSelection (src : ℕ) (m : RequestPrepareMsg) : Bool :=
  !(m.selectedCommitBound > m.selectedTipOp) && m.expectedEntryChecksum != 0 &&
    !(m.selectedTipOp == 0 || m.opNumber > m.selectedTipOp) &&
    (if c.isLeader && c.status == .normal && m.viewNumber == c.viewNumber then
      m.selectedSource == c.selectedSource &&
        m.selectedLastNormalView == c.selectedLastNormalView &&
        m.selectedTipOp == c.selectedTipOp && m.selectedTipChecksum == c.selectedTipChecksum &&
        m.selectedCommitBound == c.selectedCommitBound
    else
      !(m.viewNumber > c.viewNumber) && src == c.leaderForView m.viewNumber &&
        (c.replicaId != m.selectedSource ||
          (m.selectedLastNormalView == c.lastNormalView && !(m.selectedTipOp > c.opNumber) &&
            (c.journalGet m.selectedTipOp).map (·.checksum) == some m.selectedTipChecksum)))

def preparedReply (m : RequestPrepareMsg) (e : LogEntry) : Message :=
  .sendPrepare
    { viewNumber := m.viewNumber
      entry := e
      selectedSource := m.selectedSource
      selectedLastNormalView := m.selectedLastNormalView
      selectedTipOp := m.selectedTipOp
      selectedTipChecksum := m.selectedTipChecksum
      selectedCommitBound := m.selectedCommitBound
      expectedEntryChecksum := m.expectedEntryChecksum }

/-- The leader's own entry at the op of `e` is a different one, or missing. -/
def differsFrom (e : LogEntry) : Bool :=
  match c.journalGet e.opNumber with
  | some existing => existing.checksum != e.checksum
  | none => true

/-- The leader takes over an entry a peer has committed right above its own commit. -/
def adoptCommitted (e : LogEntry) : Core :=
  let c := if c.differsFrom e then c.journalPut e else c
  { c with opNumber := max c.opNumber e.opNumber }

def parentMatches (e : LogEntry) : Bool :=
  if e.opNumber > 1 then
    (c.journalGet (e.opNumber - 1)).map (·.checksum) == some e.parentChecksum
  else e.parentChecksum == 0

/-- The leader fills a hole with a peer's entry, which counts as that peer's vote. -/
def fillHole (src : ℕ) (e : LogEntry) : Core :=
  let c := c.journalPut e
  let slot := journalSlot e.opNumber
  { c with
    prepareOkFrom := upd c.prepareOkFrom slot (if src = c.replicaId then 0 else replicaBit src)
    prepareOkCounts := upd c.prepareOkCounts slot (if src = c.replicaId then 0 else 1)
    pendingPrepareBroadcast := upd c.pendingPrepareBroadcast slot true
    metadataDirty := true }

/-- After repair the leader counts one vote for every op nobody has voted for yet. -/
def ackRepaired : List ℕ → Core → Core
  | [], c => c
  | op :: rest, c =>
    ackRepaired rest
      (if c.journalHas op && c.prepareOkCounts (journalSlot op) == 0 then
        { c with prepareOkCounts := upd c.prepareOkCounts (journalSlot op) 1 }
      else c)

/-- Request the ops of the list that are missing, at most `room` of them; the number
is how many were requested. -/
def requestMissing : List ℕ → ℕ → Core → ℕ × Core
  | [], _, c => (0, c)
  | _ :: _, 0, c => (0, c)
  | op :: rest, room + 1, c =>
    if c.journalHas op then requestMissing rest (room + 1) c
    else
      let r := requestMissing rest room
        (c.sendToAllOthers (.requestPrepare { viewNumber := c.viewNumber, opNumber := op }))
      (r.1 + 1, r.2)

end Core

namespace Replica

variable (hash : Hash) (env : Env) (s : Replica)

def onRequestStatus (src v : ℕ) : Outcome :=
  if v ≠ s.viewNumber then .ok s
  else match s.statusMessage with
    | none => .error s
    | some m => .ok (s.core (fun c => c.sendTo src m))

def onSendStatusLeader (src : ℕ) (m : SendStatusMsg) : Replica :=
  if !s.statusAgrees m then s
  else
    let s := s.core (fun c => c.noteReplicaCommitMin src m.commitMin)
    if !s.repairPending then s.maybeResumeRepair
    else if s.repairStatusReceived src then s
    else { s with
      repairStatusReceived := upd s.repairStatusReceived src true
      repairStatusCount := s.repairStatusCount + 1 }

/-- The transfer bookkeeping after a status was followed. -/
def afterStatus (m : SendStatusMsg) : Replica :=
  let s := if m.opNumber > s.opNumber then s.wantTransfer (max s.transferTargetOp m.opNumber) else s
  s.transferIfGaps (max s.opNumber m.opNumber)

def onSendStatusFollower (src : ℕ) (m : SendStatusMsg) : Outcome :=
  let s := { s with lastLeaderActivity := env.now }
  let s := s.core (fun c => c.noteReplicaCommitMin src m.commitMin)
  if m.commitMin > s.commitMin then
    match s.journalGet m.commitMin with
    | some committed =>
      if committed.checksum ≠ m.commitChecksum then .ok s
      else (s.commitUpTo m.commitMin).map (fun s => s.afterStatus m)
    | none => .ok ((s.wantTransfer (max s.transferTargetOp m.commitMin)).afterStatus m)
  else .ok (s.afterStatus m)

def onSendStatus (src : ℕ) (m : SendStatusMsg) : Outcome :=
  if s.status ≠ .normal then .ok s
  else if m.viewNumber ≠ s.viewNumber then .ok s
  else if !peerLogBoundsOk m.commitMin m.opNumber then .ok s
  else if s.isLeader then .ok (s.onSendStatusLeader src m)
  else if src ≠ s.leader then .ok s
  else s.onSendStatusFollower env src m

def onRequestPrepare (src : ℕ) (m : RequestPrepareMsg) : Replica :=
  if m.opNumber = 0 ∨ m.opNumber > logSizeMax then s
  else
    let bound : Bool := m.selectedTipChecksum != 0
    if (if bound then s.servesSelection src m else m.viewNumber == s.viewNumber) = false then s
    else match s.journalGet m.opNumber with
      | none => s
      | some e =>
        if !bound && src != s.leader && m.opNumber > s.commitMin then s
        else if bound && e.checksum != m.expectedEntryChecksum then s
        else s.core (fun c => c.sendTo src (Core.preparedReply m e))

/-- The message answers the entry currently being fetched for the selection. -/
def answersFetch (src : ℕ) (m : SendPrepareMsg) : Bool :=
  m.selectedSource == s.selectedSource &&
    m.selectedLastNormalView == s.selectedLastNormalView &&
    m.selectedTipOp == s.selectedTipOp && m.selectedTipChecksum == s.selectedTipChecksum &&
    m.selectedCommitBound == s.selectedCommitBound && m.entry.opNumber == s.selectedNextOp &&
    m.expectedEntryChecksum == s.selectedExpectedChecksum &&
    (if s.leadsTarget then (s.selectedSourcesRequested &&& replicaBit src) != 0
      else src == s.selectedSource)

def onSelectedPrepare (src : ℕ) (m : SendPrepareMsg) : Outcome :=
  let abort := abortSelectedView hash env
  if !s.answersFetch src m then .ok s
  else if m.entry.checksum ≠ s.selectedExpectedChecksum then s.advanceSelectedView hash abort
  else s.addSelectedEntry hash abort m.entry (fun s =>
    s.forgetSources.advanceSelectedView hash abort)

def onRepairPrepare (src : ℕ) (e : LogEntry) (senderCommitted : Bool) : Outcome :=
  if !s.repairPending then .ok s
  else if senderCommitted then
    if e.opNumber ≠ s.commitMin + 1 then .ok s
    else if !s.parentMatches e then .ok s
    else (s.core (fun c => c.adoptCommitted e)).commitUpTo e.opNumber
  else if s.journalHas e.opNumber then .ok s
  else if e.opNumber ≤ s.commitMin then .ok s
  else if e.opNumber > s.opNumber then .ok s
  else
    let s := s.core (fun c => c.fillHole src e)
    .ok (if s.hasLogGaps then s else { s with repairPending := false })

/-- What a transferred entry leads to once it is in the journal. -/
def afterTransfer : Outcome := do
  let s ← if s.commitMax > s.commitMin then s.commitUpTo s.commitMax else .ok s
  if s.opNumber ≥ s.transferTargetOp && !s.hasLogGaps then .ok { s with transferPending := false }
  else .ok s

def onTransferPrepare (e : LogEntry) : Outcome :=
  if !s.transferPending then .ok s
  else if e.opNumber ≤ s.opNumber then
    if s.journalHas e.opNumber then .ok s
    else
      let s := s.core (fun c => c.journalPut e)
      let s := if e.opNumber > s.commitMin then
          s.core (fun c => c.owePrepareOk e.opNumber c.leader)
        else s
      s.afterTransfer
  else if e.opNumber = s.opNumber + 1 then
    (s.core (fun c => c.acceptEntry e c.leader)).afterTransfer
  else .ok s

def onSendPrepare (src : ℕ) (m : SendPrepareMsg) : Outcome :=
  if m.viewNumber ≠ s.viewNumber then .ok s
  else if !m.entry.valid hash then .ok s
  else if m.entry.opNumber = 0 ∨ m.entry.opNumber > logSizeMax then .ok s
  else if s.status = .viewChange ∧ s.pendingViewSelection = true then
    s.onSelectedPrepare hash env src m
  else if s.status ≠ .normal then .ok s
  else
    let senderCommitted : Bool := m.entry.opNumber ≤ s.replicaCommitMin src
    if !senderCommitted && !s.entryFitsLog m.entry then .ok s
    else if s.isLeader then s.onRepairPrepare src m.entry senderCommitted
    else s.onTransferPrepare m.entry

/-! ### Repair ticks -/

def repairStatusQuorum : ℕ := s.quorumSize - 1

/-- Repair is over: count the repaired ops and see what commits. -/
def finishRepair : Outcome :=
  let s := { s with repairPending := false }
  (s.core (fun c => c.ackRepaired (opsAbove c.commitMin c.opNumber))).advanceCommit

def tickRepair : Outcome :=
  if !s.isLeader || s.status != .normal then .error s
  else
    let s := s.core (fun c => c.sendToAllOthers (.requestStatus c.viewNumber))
    if s.quorumSize = 0 then .error s
    else if s.repairStatusCount < s.repairStatusQuorum then .ok s
    else if s.maxReplicaCommitMin > s.commitMin then
      .ok (s.core (fun c => c.sendToAllOthers
        (.requestPrepare { viewNumber := c.viewNumber, opNumber := c.commitMin + 1 })))
    else
      let r := Core.requestMissing (opsAbove s.commitMin s.opNumber) repairBatchMax s.toCore
      let s := { s with toCore := r.2 }
      if r.1 ≥ repairBatchMax then .ok s
      else if s.hasLogGaps then .ok s
      else s.finishRepair

def tickTransfer : Outcome :=
  if s.isLeader || s.status != .normal || !s.transferPending then .error s
  else
    let r := Core.requestMissing (opsAbove s.commitMin s.opNumber) repairBatchMax s.toCore
    let s := { s with toCore := r.2 }
    if r.1 > 0 then .ok s
    else if s.opNumber < s.transferTargetOp then
      .ok (s.core (fun c => c.sendToAllOthers
        (.requestPrepare { viewNumber := c.viewNumber, opNumber := c.opNumber + 1 })))
    else .ok { s with transferPending := false }

end Replica

end Hivemind
