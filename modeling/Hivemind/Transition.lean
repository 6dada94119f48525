import Hivemind.Requests

/-! What one call can do to the protocol core. Every handler is a sequence of the
transitions below; invariants are proved once per transition. Where the code leaves the
protocol, a transition is possible only if its `Hazard` is allowed. -/
namespace Hivemind

/-- The states of affairs in which the code departs from viewstamped replication. -/
inductive Hazard where
  /-- A leader selects a log again for a view it has already been normal in. -/
  | reselect
  /-- A replica adopts the `StartView` of a view it has already been normal in. -/
  | readopt
  /-- A replica leaves a view while a `Prepare` or `PrepareOk` waits to be published. -/
  | staleFlag
  /-- The end of repair counts a vote nobody cast. -/
  | phantom
  /-- A new leader selects from a quorum that lacks its own, higher commit. -/
  | shrink
  /-- The only replica of a cluster leaves its view. -/
  | solo
  /-- A transferred entry is taken over that does not link to the log. -/
  | unlinked
  /-- A request is appended behind a later one of its client. -/
  | disorder
  /-- A request is answered with the result of a later one of its client. -/
  | overtaken
  deriving DecidableEq

namespace Core

variable (hash : Hash) (c : Core)

/-- Some `Prepare` or `PrepareOk` waits for the next barrier. -/
def Owes : Prop :=
  ∃ i < logSizeMax, c.pendingPrepareBroadcast i = true ∨ c.pendingPrepareOk i = true

/-- The replica may leave its view. -/
def MayLeave (allow : Hazard → Prop) : Prop :=
  (c.Owes → allow .staleFlag) ∧ (c.replicaCount = 1 → allow .solo)

def Clean : Prop := ∀ i, c.journalDirty i = false

/-- The synced metadata has the current op number. -/
def DiskOp : Prop := ∀ d, c.disk = some d → ∃ m, d.metadata = some m ∧ m.opNumber = c.opNumber

/-- The synced metadata is what a barrier would write now. -/
def DiskCurrent : Prop := ∀ d, c.disk = some d → d.metadata = some c.metadataToPersist

/-- The checks of `startViewCandidateReady` on a journal that holds the candidate. -/
structure ReadyOk : Prop where
  tip : c.selectedTipHeld = true
  bound : ¬ (c.leadsTarget = true ∧ c.selectedCommitBound < c.commitMin)
  le : c.selectedCommitBound ≤ c.selectedTipOp
  chain : c.hasSelectedChainGap hash = false
  high : c.logHighOp = c.selectedTipOp

/-- The entry points at its predecessor, if the journal has that. -/
def linkHolds (e : LogEntry) : Bool :=
  if e.opNumber = 1 then e.parentChecksum == 0
  else match c.journalGet (e.opNumber - 1) with
    | some prev => prev.checksum == e.parentChecksum
    | none => true

/-- A selection that is being carried out. -/
structure Selecting : Prop where
  selected : c.pendingViewSelection = true
  idle : c.pendingStartView.active = false
  status : c.status = .viewChange
  target : c.viewNumber = c.selectedTargetView

/-- How the journal comes to hold the selected log. -/
inductive Placed : Core → Prop where
  | installed (checksum : ℕ) (hsum : c.checksumAt c.commitMin = some checksum)
      (hvalid : c.viewChangeCandidate.validate hash c.commitMin checksum = .ok ()) :
      Placed c.installCandidate
  | truncated (hphase : c.viewChangeCandidate.phase = .idle) (htip : c.selectedTipOp = c.commitMin)
      (hheld : c.selectedTipHeld = true) (hchain : c.hasSelectedChainGap hash = false) :
      Placed c.truncateToTip
  | kept (hphase : c.viewChangeCandidate.phase = .candidateComplete)
      (htip : c.selectedTipOp = c.commitMin) : Placed c

/-- `adoptCommitted`, as an update of the fields it touches. -/
abbrev asAdopted (e : LogEntry) : Core :=
  { c with
    journal := (c.adoptCommitted e).journal
    journalDirty := (c.adoptCommitted e).journalDirty
    prepareOkCounts := (c.adoptCommitted e).prepareOkCounts
    prepareOkFrom := (c.adoptCommitted e).prepareOkFrom
    durablePrepareOp := (c.adoptCommitted e).durablePrepareOp
    durablePrepareChecksum := (c.adoptCommitted e).durablePrepareChecksum
    opNumber := max c.opNumber e.opNumber }

theorem adoptCommitted_frame (e : LogEntry) : c.adoptCommitted e = c.asAdopted e := by
  unfold asAdopted adoptCommitted
  split <;> rfl

/-- `settleNormal`, as an update of the fields it touches. -/
abbrev asSettled : Core :=
  { c with
    commitMax := c.commitMin
    replicaCommitMin := c.settleNormal.replicaCommitMin
    prepareOkCounts := c.settleNormal.prepareOkCounts
    prepareOkFrom := c.settleNormal.prepareOkFrom
    pendingPrepareOk := c.settleNormal.pendingPrepareOk
    pendingPrepareOkTo := c.settleNormal.pendingPrepareOkTo
    status := .normal
    metadataDirty := false }

theorem settleNormal_frame : c.settleNormal = c.asSettled := by
  unfold asSettled settleNormal
  dsimp only
  split <;> rfl

/-- A missing entry is written. It is acknowledged unless it is executed already. -/
def fillGap (e : LogEntry) (dst : ℕ) : Core :=
  { c.journalPut e with
    pendingPrepareOk :=
      if e.opNumber > c.commitMin then upd c.pendingPrepareOk (journalSlot e.opNumber) true
      else c.pendingPrepareOk
    pendingPrepareOkTo :=
      if e.opNumber > c.commitMin then upd c.pendingPrepareOkTo (journalSlot e.opNumber) dst
      else c.pendingPrepareOkTo }

theorem fillGap_eq (e : LogEntry) (dst : ℕ) : c.fillGap e dst =
    if e.opNumber > c.commitMin then (c.journalPut e).owePrepareOk e.opNumber dst
    else c.journalPut e := by
  unfold fillGap
  split <;> rfl

end Core

/-- A call that brings no message. -/
def Input.Silent (inp : Input) : Prop := ∀ src m, inp ≠ .message src m

/-- Ticks flush. A disconnect touches nothing of the protocol, and stands for a tick that
submits no request where that is all that matters. -/
def Input.mayFlush : Input → Bool
  | .tick | .workerDisconnect _ => true
  | _ => false

theorem Input.Silent.of_mayFlush {inp : Input} (h : inp.mayFlush = true) : inp.Silent := by
  rintro src m rfl
  cases h

/-- Messages that carry no claim about the log and name no selection. -/
def Message.asks : Message → Bool
  | .requestPrepare m => m.selectedTipChecksum == 0
  | .requestStatus _ | .requestStartView _ => true
  | _ => false

/-- The messages of an election, which a replica also sends to itself. -/
def Message.elects : Message → Bool
  | .startViewChange _ | .doViewChange _ => true
  | _ => false

/-- Outside elections a replica writes to others, or answers the message at hand. -/
def Core.MayAddress (inp : Input) (c : Core) (dst : ℕ) (m : Message) : Prop :=
  m.elects = true ∨ dst ≠ c.replicaId ∨ ∃ m', inp = .message dst m' ∧ m'.elects = false

/-- The request for an entry of the selected log. -/
def Core.fetchRequest (c : Core) (op expectedChecksum : ℕ) : RequestPrepareMsg :=
  { viewNumber := c.selectedTargetView
    opNumber := op
    selectedSource := c.selectedSource
    selectedLastNormalView := c.selectedLastNormalView
    selectedTipOp := c.selectedTipOp
    selectedTipChecksum := c.selectedTipChecksum
    selectedCommitBound := c.selectedCommitBound
    expectedEntryChecksum := expectedChecksum }

/-- The identity the selected log has at an op, as far as it is known: that of the tip, or
the one the entry above points at. -/
def Core.expectedChecksum (c : Core) (op : ℕ) : Option ℕ :=
  if op = c.selectedTipOp then some c.selectedTipChecksum
  else if op ≥ c.selectedTipOp then none
  else if op + 1 < c.viewChangeCandidate.info.baseOp then none
  else (c.viewChangeCandidate.entries.getD (op + 1 - c.viewChangeCandidate.info.baseOp) none).map
    (·.parentChecksum)

section

variable (hash : Hash) (inp : Input)

/-- When a replica may send `m` to `dst`. -/
inductive MaySend (c : Core) : ℕ → Message → Prop where
  | ask {dst : ℕ} {m : Message} (h : m.asks = true) : MaySend c dst m
  | fetch {dst op expected : ℕ} (hsel : c.Selecting) (hexp : c.expectedChecksum op = some expected)
      (hne : expected ≠ 0) (hdst : c.leadsTarget = false → dst = c.selectedSource) :
      MaySend c dst (.requestPrepare (c.fetchRequest op expected))
  | vote {dst : ℕ} (hst : c.status = .viewChange) :
      MaySend c dst (.startViewChange ⟨c.viewNumber, c.replicaId⟩)
  | report (hact : c.pendingStartView.active = false)
      (hval : dvcTipSemanticsValid hash c.dvcMessage = true)
      (hwhy : c.status = .viewChange ∨ ∃ src m, inp = .message src m) :
      MaySend c c.leader (.doViewChange c.dvcMessage)
  | announce {dst : ℕ} (hst : c.status = .normal) (hact : c.pendingStartView.active = true)
      (hrole : c.pendingStartView.role = .leader) :
      MaySend c dst (.startView c.buildStartView)
  | certify {dst : ℕ} (hst : c.status = .normal) (hlead : c.isLeader = true)
      (hact : c.pendingStartView.active = false) : MaySend c dst (.startView c.buildStartView)
  | status {dst : ℕ} {m : Message} (h : c.statusMessage = some m)
      (hact : c.pendingStartView.active = false ∨ c.status = .normal) : MaySend c dst m
  | serve {src : ℕ} {m : RequestPrepareMsg} {e : LogEntry}
      (hinp : inp = .message src (.requestPrepare m)) (hget : c.journalGet m.opNumber = some e)
      (h : (m.selectedTipChecksum ≠ 0 ∧ c.servesSelection src m = true ∧
          e.checksum = m.expectedEntryChecksum) ∨
        (m.selectedTipChecksum = 0 ∧ m.viewNumber = c.viewNumber ∧
          (src = c.leader ∨ m.opNumber ≤ c.commitMin))) :
      MaySend c src (Core.preparedReply m e)
  | reack {src : ℕ} {p : PrepareMsg} {e : LogEntry} {m : Message}
      (hinp : inp = .message src (.prepare p)) (hsrc : src = c.leader)
      (hst : c.status = .normal) (hfol : c.isLeader = false) (hle : p.opNumber ≤ c.opNumber)
      (hget : c.journalGet p.opNumber = some e) (hdur : c.isDurablePrepare p.opNumber = true)
      (hm : c.prepareOkFor p.opNumber e.checksum = some m) : MaySend c src m
  | ack {op : ℕ} {e : LogEntry} {m : Message} (hget : c.journalGet op = some e)
      (hflag : c.pendingPrepareOk (journalSlot op) = true) (hdur : c.isDurablePrepare op = true)
      (hm : c.prepareOkFor op e.checksum = some m) :
      MaySend c (c.pendingPrepareOkTo (journalSlot op)) m
  | resend {dst op : ℕ} {e : LogEntry} (hst : c.status = .normal) (hlead : c.isLeader = true)
      (hget : c.journalGet op = some e) (hdur : c.isDurablePrepare op = true)
      (hle : op ≤ c.opNumber) : MaySend c dst (c.prepareFor op e)
  | broadcast {dst op : ℕ} {e : LogEntry} (hget : c.journalGet op = some e)
      (hflag : c.pendingPrepareBroadcast (journalSlot op) = true)
      (hdur : c.isDurablePrepare op = true) : MaySend c dst (c.prepareFor op e)
  | heartbeat {dst checksum : ℕ} (hst : c.status = .normal) (hlead : c.isLeader = true)
      (hsum : c.checksumAt (max c.commitMin c.commitMax) = some checksum) :
      MaySend c dst (c.commitMessage checksum)

/-- When a replica may hand a result to a client without executing anything. -/
inductive MayReply (c : Core) : ℕ → ℕ → Result → Option ℕ → Prop where
  | replay {clientId requestId : ℕ} {e : ClientEntry} (he : c.findClient clientId = some e)
      (hle : requestId ≤ e.requestId) : MayReply c clientId requestId e.result (some e.op)
  | logFull {clientId requestId : ℕ} : MayReply c clientId requestId (.err .logFull) none

/-- When a peer's commit watermark may be noted. -/
inductive MayNote (c : Core) : ℕ → ℕ → Prop where
  | acknowledged {src : ℕ} {m : PrepareOkMsg} (hinp : inp = .message src (.prepareOk m))
      (hv : m.viewNumber = c.viewNumber) (hst : c.status = .normal) (hlead : c.isLeader = true)
      (h : c.watermarkOk src m.commitMin m.commitChecksum = true) : MayNote c src m.commitMin
  | reported {src : ℕ} {m : SendStatusMsg} (hinp : inp = .message src (.sendStatus m))
      (hv : m.viewNumber = c.viewNumber) (hst : c.status = .normal) (hlead : c.isLeader = true)
      (h : c.statusAgrees m = true) : MayNote c src m.commitMin
  | led {src commitMin : ℕ} (hsrc : src = c.leader) (hst : c.status = .normal)
      (hfol : c.isLeader = false)
      (h : (∃ m : PrepareMsg, inp = .message src (.prepare m) ∧ m.viewNumber = c.viewNumber ∧
            m.commitMin = commitMin) ∨
        (∃ m : CommitMsg, inp = .message src (.commit m) ∧ m.viewNumber = c.viewNumber ∧
            m.commitMin = commitMin) ∨
        (∃ m : SendStatusMsg, inp = .message src (.sendStatus m) ∧ m.viewNumber = c.viewNumber ∧
            m.commitMin = commitMin)) : MayNote c src commitMin

/-- Why a replica may take ops up to `op` to be committed. -/
inductive MayRaise (c : Core) : ℕ → Prop where
  | announced {src : ℕ} {m : CommitMsg} {e : LogEntry} (hinp : inp = .message src (.commit m))
      (hsrc : src = c.leader) (hv : m.viewNumber = c.viewNumber) (hst : c.status = .normal)
      (hfol : c.isLeader = false) (hget : c.journalGet (max m.commitMin m.commitMax) = some e)
      (hsum : e.checksum = m.commitChecksum) : MayRaise c (max m.commitMin m.commitMax)
  | reported {src : ℕ} {m : SendStatusMsg} {e : LogEntry}
      (hinp : inp = .message src (.sendStatus m)) (hsrc : src = c.leader)
      (hv : m.viewNumber = c.viewNumber) (hst : c.status = .normal) (hfol : c.isLeader = false)
      (hget : c.journalGet m.commitMin = some e) (hsum : e.checksum = m.commitChecksum) :
      MayRaise c m.commitMin
  | peer {src : ℕ} {m : SendPrepareMsg} (hinp : inp = .message src (.sendPrepare m))
      (hv : m.viewNumber = c.viewNumber) (hst : c.status = .normal) (hlead : c.isLeader = true)
      (hnext : m.entry.opNumber = c.commitMin + 1)
      (hle : m.entry.opNumber ≤ c.replicaCommitMin src) : MayRaise c m.entry.opNumber
  | known {op : ℕ} (h : op ≤ c.commitMax) : MayRaise c op

/-- Where a follower's next entry may come from, and whom it will acknowledge. -/
inductive MayAccept (c : Core) : LogEntry → ℕ → Prop where
  | prepared {src : ℕ} {m : PrepareMsg} (hinp : inp = .message src (.prepare m))
      (hsrc : src = c.leader) (hv : m.viewNumber = c.viewNumber)
      (hop : m.opNumber = m.entry.opNumber) (hval : m.entry.valid hash = true) :
      MayAccept c m.entry src
  | transferred {src : ℕ} {m : SendPrepareMsg} (hinp : inp = .message src (.sendPrepare m))
      (hv : m.viewNumber = c.viewNumber) (hval : m.entry.valid hash = true)
      (hfit : m.entry.opNumber ≤ c.replicaCommitMin src ∨ c.entryFitsLog m.entry = true) :
      MayAccept c m.entry c.leader

/-- Where an entry of the selected log may come from. -/
inductive MayCollect (c : Core) (e : LogEntry) : Prop where
  | own {op : ℕ} (h : c.journalGet op = some e)
  | report {i : ℕ} (h : e ∈ (c.doVcMsgs i).entries)
  | fetched {src : ℕ} {m : SendPrepareMsg} (hinp : inp = .message src (.sendPrepare m))
      (h : e = m.entry)
  | announced {src : ℕ} {m : StartViewMsg} (hinp : inp = .message src (.startView m))
      (h : e ∈ m.entries)

variable (allow : Hazard → Prop)

/-- Transitions of a view change, up to the pending publication of the new view. -/
inductive ViewAct : Core → Core → Prop where
  | send {c : Core} {dst : ℕ} {m : Message} (h : MaySend hash inp c dst m)
      (hdst : c.MayAddress inp dst m) : ViewAct c (c.sendTo dst m)
  | enter {c : Core} {v : ℕ} (hv : c.viewNumber < v) (hval : viewNumberValid v = true)
      (hact : c.pendingStartView.active = false) (hleave : c.MayLeave allow) :
      ViewAct c (c.enterView v)
  | unselect {c : Core} (hact : c.pendingStartView.active = false) :
      ViewAct c { c with viewChangeCandidate := .reset, pendingViewSelection := false }
  | recordOwn {c : Core} (hlead : c.isLeader = true) (hact : c.pendingStartView.active = false)
      (hval : dvcTipSemanticsValid hash c.dvcMessage = true) :
      ViewAct c (c.recordDvc c.dvcMessage)
  | recordPeer {c : Core} {src : ℕ} {m : DoViewChangeMsg}
      (hinp : inp = .message src (.doViewChange m)) (hsrc : m.replicaId = src)
      (hv : m.viewNumber = c.viewNumber) (hst : c.status = .viewChange)
      (hlead : c.isLeader = true) (hact : c.pendingStartView.active = false)
      (hbounds : peerLogBoundsOk m.commitMin m.opNumber = true)
      (hentries : peerLogEntriesOk hash m.logEntries m.logEntryCount dvcLogMax = true)
      (hval : dvcTipSemanticsValid hash m = true) : ViewAct c (c.recordDvc m)
  | selectDvc {c : Core} {m : DoViewChangeMsg} {tip : ℕ} (hsel : c.pendingViewSelection = false)
      (hact : c.pendingStartView.active = false) (hlead : c.isLeader = true)
      (hq : c.quorumSize ≤ c.doVcTotal) (h : c.chooseDvc hash = some (m, tip))
      (hfresh : c.viewNumber ≤ c.lastNormalView → allow .reselect)
      (hown : c.maxDvcCommit < c.commitMin → allow .shrink) :
      ViewAct c (c.select m.replicaId m.lastNormalView m.opNumber tip c.maxDvcCommit)
  | selectView {c : Core} {src : ℕ} {m : StartViewMsg} (hinp : inp = .message src (.startView m))
      (hsrc : src = c.leader) (hv : m.viewNumber = c.viewNumber) (hst : c.status = .viewChange)
      (hact : c.pendingStartView.active = false) (hsel : c.pendingViewSelection = false)
      (hval : startViewEntriesValid hash m = true) (hle : c.commitMin ≤ m.opNumber)
      (hfresh : c.viewNumber ≤ c.lastNormalView → allow .readopt) :
      ViewAct c (c.select src m.selectedLastNormalView m.opNumber m.tipChecksum m.commitMin)
  | allocate {c : Core} {oom : Bool} {info : CandidateMetadata} {cand : ViewChangeCandidate}
      (hsel : c.pendingViewSelection = true) (hact : c.pendingStartView.active = false)
      (hbase : info.baseOp = c.commitMin + 1) (htip : info.tipOp = c.selectedTipOp)
      (hsum : info.tipChecksum = c.selectedTipChecksum)
      (hbound : info.commitBound = c.selectedCommitBound)
      (h : ViewChangeCandidate.allocate oom info = .ok cand) :
      ViewAct c { c with viewChangeCandidate := cand }
  | collect {c : Core} {e : LogEntry} {cand : ViewChangeCandidate}
      (hact : c.pendingStartView.active = false)
      (h : c.viewChangeCandidate.add hash e = .ok cand) (hfrom : MayCollect inp c e) :
      ViewAct c { c with viewChangeCandidate := cand }
  | place {c c₁ : Core} (hsel : c.Selecting) (h : c.Placed hash c₁) (hno : ¬ c₁.ReadyOk hash) :
      ViewAct c c₁
  | openView {c c₁ : Core} (hsel : c.Selecting) (h : c.Placed hash c₁) (hok : c₁.ReadyOk hash) :
      ViewAct c c₁.openView

/-- Transitions that move the commit point. -/
inductive CommitAct : Core → Core → Prop where
  | votes {c : Core} (hst : c.status = .normal) (hlead : c.isLeader = true)
      (hlt : c.commitMax < c.opNumber) (hhas : c.journalHas (c.commitMax + 1) = true)
      (hq : c.quorumSize ≤ c.prepareOkCounts (journalSlot (c.commitMax + 1))) :
      CommitAct c (c.raiseCommitMax (c.commitMax + 1) true)
  | follow {c : Core} {target : ℕ} (h : MayRaise inp c target) :
      CommitAct c (c.raiseCommitMax (min target c.opNumber) false)
  | execute {c : Core} {e : LogEntry} {sm : StateMachine} {result : Result}
      (hst : c.status = .normal ∨ c.pendingStartView.active = true)
      (hle : c.commitMin + 1 ≤ c.commitMax) (hget : c.journalGet (c.commitMin + 1) = some e)
      (happly : c.stateMachine.apply e.command = some (sm, result)) :
      CommitAct c (c.executed (c.commitMin + 1) e sm result)

/-- A successful barrier: what it staged, wrote and synced. -/
structure Barrier (c : Core) (d : Disk) : Prop where
  run : ∃ d₀ d₁ d₂, c.disk = some d₀ ∧ d₀.stage c.journalDirty c.journal slots = some d₁ ∧
    d₁.writeMetadata c.metadataToPersist = some d₂ ∧ d₂.sync = some d
  chain : c.pendingStartViewChainOk hash = true
  up : c.storageFailed = false

/-- A transition of the protocol core within one call. -/
inductive Act : Core → Core → Prop where
  | view {c c' : Core} (h : ViewAct hash inp allow c c') : Act c c'
  | commit {c c' : Core} (h : CommitAct inp c c') : Act c c'
  | reply {c : Core} {clientId requestId : ℕ} {result : Result} {origin : Option ℕ}
      (hup : c.storageFailed = false) (h : MayReply c clientId requestId result origin)
      (hlate : c.Overtaken { clientId, requestId } → allow .overtaken) :
      Act c (c.replyTo clientId requestId result origin)
  | publishReply {c c₁ : Core} {op : ℕ} (hop : 0 < op) (hle : op ≤ c.commitMin)
      (hflag : c.pendingReply (journalSlot op) = true) (hmeta : c.metadataDirty = false)
      (hup : c.storageFailed = false)
      (h : c.updateClientTable (c.pendingReplyClientId (journalSlot op))
        (c.pendingReplyRequestId (journalSlot op)) (c.pendingReplyResult (journalSlot op)) op =
          some c₁)
      (hfirst : ∀ op' < op, c.journalHas op' = true → c.pendingReply (journalSlot op') = false) :
      Act c { c.replyTo (c.pendingReplyClientId (journalSlot op))
          (c.pendingReplyRequestId (journalSlot op)) (c.pendingReplyResult (journalSlot op))
          (some op) with
        clientTable := c₁.clientTable
        pendingReply := upd c.pendingReply (journalSlot op) false }
  | arm {c : Core} {faults : List Bool} :
      Act c { c with disk := c.disk.map (fun d => { d with faults }) }
  | route {c : Core} {deploymentId now : ℕ} :
      Act c { c with stateMachine := c.stateMachine.touchDeployment deploymentId now }
  | defer {c : Core} {v : ℕ} (hact : c.pendingStartView.active = true) :
      Act c { c with deferredViewTarget := max c.deferredViewTarget v }
  | note {c : Core} {src commitMin : ℕ} (h : MayNote inp c src commitMin) :
      Act c (c.noteReplicaCommitMin src commitMin)
  | append {c : Core} {m : RequestMsg} (hst : c.status = .normal) (hlead : c.isLeader = true)
      (hcap : c.opNumber + 1 ≤ logSizeMax) (hsub : MaySubmit inp m) (hadmits : c.Admits m)
      (horder : c.Behind m → allow .disorder) : Act c (c.appendRequest hash m)
  | accept {c : Core} {e : LogEntry} {dst : ℕ} {dirty : Bool} (hst : c.status = .normal)
      (hfol : c.isLeader = false) (hnext : e.opNumber = c.opNumber + 1)
      (hcap : e.opNumber ≤ logSizeMax) (h : MayAccept hash inp c e dst)
      (hlink : c.linkHolds e = false → allow .unlinked) :
      Act c { c.acceptEntry e dst with metadataDirty := dirty || c.metadataDirty }
  | fillGap {c : Core} {e : LogEntry} {dst : ℕ} (hst : c.status = .normal)
      (hfol : c.isLeader = false) (hpos : 0 < e.opNumber) (hle : e.opNumber ≤ c.opNumber)
      (hno : c.journalHas e.opNumber = false) (h : MayAccept hash inp c e dst) :
      Act c (c.fillGap e dst)
  | owe {c : Core} {src : ℕ} {m : PrepareMsg} (hinp : inp = .message src (.prepare m))
      (hsrc : src = c.leader) (hst : c.status = .normal) (hfol : c.isLeader = false)
      (hhas : c.journalHas m.opNumber = true) (hle : m.opNumber ≤ c.opNumber) :
      Act c (c.owePrepareOk m.opNumber src)
  | adopt {c : Core} {src : ℕ} {m : SendPrepareMsg} (hinp : inp = .message src (.sendPrepare m))
      (hv : m.viewNumber = c.viewNumber) (hval : m.entry.valid hash = true)
      (hst : c.status = .normal) (hlead : c.isLeader = true)
      (hnext : m.entry.opNumber = c.commitMin + 1) (hcap : m.entry.opNumber ≤ logSizeMax)
      (hle : m.entry.opNumber ≤ c.replicaCommitMin src)
      (hpar : c.parentMatches m.entry = true)
      (hlink : c.slotReplaceable m.entry false = true → allow .unlinked) :
      Act c (c.asAdopted m.entry)
  | fillHole {c : Core} {src : ℕ} {m : SendPrepareMsg}
      (hinp : inp = .message src (.sendPrepare m)) (hsrc : src < c.replicaCount)
      (hval : m.entry.valid hash = true) (hst : c.status = .normal) (hlead : c.isLeader = true)
      (hno : c.journalHas m.entry.opNumber = false) (hpos : 0 < m.entry.opNumber)
      (hle : m.entry.opNumber ≤ c.opNumber) : Act c (c.fillHole src m.entry)
  | vote {c : Core} {src : ℕ} {m : PrepareOkMsg} {e : LogEntry}
      (hinp : inp = .message src (.prepareOk m)) (hid : m.replicaId = src)
      (hsrc : src < c.replicaCount) (hst : c.status = .normal) (hlead : c.isLeader = true)
      (hv : m.viewNumber = c.viewNumber) (hget : c.journalGet m.opNumber = some e)
      (hsum : m.entryChecksum = e.checksum) (hgt : c.commitMin < m.opNumber)
      (hle : m.opNumber ≤ c.opNumber) : Act c (c.countVote m.opNumber src)
  | selfVote {c : Core} {op : ℕ} (hhas : c.journalHas op = true)
      (hflag : c.pendingPrepareBroadcast (journalSlot op) = true)
      (hdur : c.isDurablePrepare op = true) :
      Act c { c.countVote op c.replicaId with
        pendingPrepareBroadcast := upd c.pendingPrepareBroadcast (journalSlot op) false }
  | paid {c : Core} {op : ℕ} :
      Act c { c with pendingPrepareOk := upd c.pendingPrepareOk (journalSlot op) false }
  | phantom {c : Core} {op : ℕ} (hallow : allow .phantom) (hst : c.status = .normal)
      (hlead : c.isLeader = true) (hgt : c.commitMin < op) (hle : op ≤ c.opNumber)
      (hzero : c.prepareOkCounts (journalSlot op) = 0) :
      Act c { c with prepareOkCounts := upd c.prepareOkCounts (journalSlot op) 1 }
  | sync {c : Core} {d : Disk} (h : Barrier hash c d) (hinp : inp.mayFlush = true) :
      Act c (c.afterSync d)
  | fail {c : Core} {d₀ d : Disk} {dirty : Bool} (hd : c.disk = some d₀)
      (hdur : d.durable = d₀.durable) (hmeta : d.metadata = d₀.metadata) (hinp : inp.mayFlush = true) :
      Act c { c.markStorageFailed d with metadataDirty := dirty }
  | volatile {c : Core} (hd : c.disk = none) (hup : c.storageFailed = false) :
      Act c { c with journalDirty := fun _ => false, metadataDirty := false }
  | settled {c : Core} (hd : c.disk = none) : Act c { c with metadataDirty := false }
  | mark {c : Core} {through t : ℕ}
      (h : (c.pendingStartView.active = true ∧ c.status = .viewChange) ∨ (c.Clean ∧ c.DiskOp)) :
      Act c { c.markDurable through with durablePrepareThrough := t }
  | begin {c : Core} (hact : c.pendingStartView.active = true)
      (hchain : c.pendingStartViewChainOk hash = true) (hclean : c.Clean)
      (hdisk : c.DiskCurrent) : Act c c.enterPendingView
  | settle {c : Core} (hact : c.pendingStartView.active = true)
      (hv : c.viewNumber = c.pendingStartView.targetView)
      (hlnv : c.lastNormalView = c.pendingStartView.lastNormalView)
      (hop : c.opNumber = c.pendingStartView.opNumber)
      (hcommit : c.commitMin = c.pendingStartView.commitMin) (hdur : c.suffixDurable = true)
      (hclean : c.Clean) (hdisk : c.DiskCurrent) : Act c c.asSettled
  | close {c : Core} (hact : c.pendingStartView.active = true) (hst : c.status = .normal)
      (hv : c.viewNumber = c.pendingStartView.targetView)
      (hlnv : c.lastNormalView = c.pendingStartView.lastNormalView)
      (hop : c.opNumber = c.pendingStartView.opNumber)
      (hcommit : c.commitMin = c.pendingStartView.commitMin)
      (hmax : c.commitMax = c.commitMin) (hclean : c.Clean) (hdisk : c.DiskCurrent) :
      Act c c.closePending

end

theorem MayCollect.candidate {inp : Input} {c : Core} {e : LogEntry} (h : MayCollect inp c e)
    (cand : ViewChangeCandidate) : MayCollect inp { c with viewChangeCandidate := cand } e := by
  cases h with
  | own h => exact .own h
  | report h => exact .report h
  | fetched hinp h => exact .fetched hinp h
  | announced hinp h => exact .announced hinp h

end Hivemind
