import Hivemind.Selection

/-! View change: entering a view, counting `StartViewChange` and `DoViewChange`,
choosing the log of the new view, and adopting a `StartView`. -/
namespace Hivemind

/-- The selection loop of `maybeStartView`: the newest log by last normal view, then
length; `none` where the source gives up. The pair is the index and tip checksum. -/
def selectSource (hash : Hash) (received : ℕ → Bool) (msgs : ℕ → DoViewChangeMsg) :
    List ℕ → Option (ℕ × ℕ) → Option (Option (ℕ × ℕ))
  | [], current => some current
  | i :: rest, current =>
    if !received i then selectSource hash received msgs rest current
    else match dvcEntryChecksum hash (msgs i) (msgs i).opNumber with
      | none => none
      | some tip =>
        match current with
        | none => selectSource hash received msgs rest (some (i, tip))
        | some (j, currentTip) =>
          let a := msgs i
          let b := msgs j
          if a.lastNormalView < b.lastNormalView then selectSource hash received msgs rest current
          else if a.lastNormalView = b.lastNormalView ∧ a.opNumber < b.opNumber then
            selectSource hash received msgs rest current
          else if a.lastNormalView = b.lastNormalView ∧ a.opNumber = b.opNumber then
            if tip ≠ currentTip then none
            else if !dvcOverlapEqual a b then none
            else if a.replicaId > b.replicaId then selectSource hash received msgs rest current
            else selectSource hash received msgs rest (some (i, tip))
          else selectSource hash received msgs rest (some (i, tip))

namespace Core

variable (hash : Hash) (c : Core)

/-- Leave the current view for `v`: nothing collected for another view survives. -/
def enterView (v : ℕ) : Core :=
  { c with
    status := .viewChange
    viewNumber := v
    doVcReceived := fun _ => false
    doVcTotal := 0
    viewChangeCandidate := .reset
    pendingViewSelection := false }

/-- Keep the first `DoViewChange` of each replica. -/
def recordDvc (dvc : DoViewChangeMsg) : Core :=
  let known := c.doVcReceived dvc.replicaId
  { c with
    doVcReceived := if known then c.doVcReceived else upd c.doVcReceived dvc.replicaId true
    doVcMsgs := if known then c.doVcMsgs else upd c.doVcMsgs dvc.replicaId dvc
    doVcTotal := if known then c.doVcTotal else c.doVcTotal + 1 }

def maxDvcCommit : ℕ :=
  (List.range c.replicaCount).foldl (fun m i =>
    if c.doVcReceived i then max m (c.doVcMsgs i).commitMin else m) 0

/-- No entry a quorum member reports as committed conflicts with the selected log. -/
def evidenceAgrees (selected : DoViewChangeMsg) : Bool :=
  (List.range c.replicaCount).all (fun i => !c.doVcReceived i ||
    (c.doVcMsgs i).entries.all (fun e => e.opNumber > (c.doVcMsgs i).commitMin ||
      selected.entries.all (fun e' => !(e'.opNumber == e.opNumber && e'.checksum != e.checksum))))

/-- The source a quorum of `DoViewChange` messages selects, with its tip checksum. -/
def chooseDvc : Option (DoViewChangeMsg × ℕ) :=
  match selectSource hash c.doVcReceived c.doVcMsgs (List.range c.replicaCount) none with
  | some (some (i, tip)) =>
    let selected := c.doVcMsgs i
    if c.maxDvcCommit > selected.opNumber then none
    else if !dvcTailChainValid hash selected then none
    else if !c.evidenceAgrees selected then none
    else some (selected, tip)
  | _ => none

/-- What both selecting a log and accepting a `StartView` write down. -/
def select (source lastNormalView tipOp tipChecksum commitBound : ℕ) : Core :=
  { c with
    pendingViewSelection := true
    selectedSource := source
    selectedLastNormalView := lastNormalView
    selectedTipOp := tipOp
    selectedTipChecksum := tipChecksum
    selectedCommitBound := commitBound
    selectedTargetView := c.viewNumber }

end Core

namespace Replica

variable (hash : Hash) (env : Env) (abort : Replica → Outcome) (s : Replica)

def viewChangeQuorum : ℕ := (s.replicaCount - 1) / 2 + 1

def candidateInfo : CandidateMetadata :=
  { sourceReplica := s.selectedSource
    targetView := s.selectedTargetView
    sourceLastNormalView := s.selectedLastNormalView
    baseOp := s.commitMin + 1
    tipOp := s.selectedTipOp
    tipChecksum := s.selectedTipChecksum
    commitBound := s.selectedCommitBound
    deadlineTick := (max 0 env.now).toNat + (viewChangeTimeout * 2).toNat }

/-- Open a candidate for the selected suffix, seed it with the entries that came with
the message, and advance. -/
def collectCandidate (entries : List LogEntry) : Outcome :=
  if s.selectedTipOp > s.commitMin then
    match ViewChangeCandidate.allocate env.outOfMemory (s.candidateInfo env) with
    | .error _ => abort s
    | .ok cand =>
      match ViewChangeCandidate.addAll hash entries cand with
      | .error _ => abort s
      | .ok cand => ({ s with viewChangeCandidate := cand }).advanceSelectedView hash abort
  else s.advanceSelectedView hash abort

def maybeStartView : Outcome :=
  if s.doVcTotal < s.quorumSize then .ok s
  else if s.pendingViewSelection then s.advanceSelectedView hash abort
  else match s.chooseDvc hash with
    | none => .ok s
    | some (dvc, tip) =>
      let s := s.core (fun c =>
        c.select dvc.replicaId dvc.lastNormalView dvc.opNumber tip c.maxDvcCommit)
      let s := { s with selectedNextOp := s.commitMin + 1 }
      s.collectCandidate hash env abort dvc.entries

def maybeDoViewChange : Outcome :=
  if s.startVcTotal < s.viewChangeQuorum then .ok s
  else match s.buildDvc hash with
    | none => .error s
    | some dvc =>
      let s := s.core (fun c => c.sendTo c.leader (.doViewChange dvc))
      if s.isLeader then (s.core (fun c => c.recordDvc dvc)).maybeStartView hash env abort
      else .ok s

/-- The fields cleared whenever a view is left for `v`. -/
def resetForView (v : ℕ) : Replica :=
  { s.resetSelectedView with
    toCore := s.enterView v
    startVcCount := fun _ => false
    startVcTotal := 0
    lastLeaderActivity := env.now }

def dropCatchUp : Replica :=
  { s with
    repairPending := false
    repairStatusReceived := fun _ => false
    repairStatusCount := 0
    transferPending := false
    transferTargetOp := 0 }

/-- Count one's own `StartViewChange` and send it to everyone. -/
def announceView (v : ℕ) : Replica :=
  ({ s with startVcCount := upd s.startVcCount s.replicaId true, startVcTotal := 1 }).core
    (fun c => c.sendToAll (.startViewChange ⟨v, c.replicaId⟩))

def initiateViewChangeTo (v : ℕ) : Outcome :=
  if !viewNumberValid v then .ok s
  else if !(v > s.viewNumber) || s.pendingStartView.active then .error s
  else ((s.resetForView env v).dropCatchUp.announceView v).maybeDoViewChange hash env abort

def initiateViewChange : Outcome :=
  if s.viewNumber ≥ viewNumberMax then .ok s
  else s.initiateViewChangeTo hash env abort (s.viewNumber + 1)

/-- `abortSelectedView`, to a bounded depth of nested aborts: with three or more
replicas a new view needs messages before it can select, so aborts do not nest. -/
def abortSelectedViewAt : ℕ → Replica → Outcome
  | 0, s => .error s
  | depth + 1, s =>
    let s := s.resetSelectedView
    if s.status = .viewChange then s.initiateViewChange hash env (abortSelectedViewAt depth)
    else .ok s

def abortDepthMax : ℕ := 16

def abortSelectedView : Outcome := abortSelectedViewAt hash env abortDepthMax s

/-- A message of a newer view was seen: wait there for its `StartView`. -/
def awaitStartView (v : ℕ) : Outcome :=
  if !viewNumberValid v || !(v > s.viewNumber) || s.pendingStartView.active then .error s
  else .ok (s.resetForView env v).dropCatchUp

def requestStartView (v : ℕ) : Outcome :=
  if s.status ≠ .viewChange ∨ s.viewNumber ≠ v then .error s
  else .ok (s.core (fun c => c.sendTo (c.leaderForView v) (.requestStartView v)))

def onRequestStartView (src v : ℕ) : Replica :=
  if s.status ≠ .normal then s
  else if !s.isLeader then s
  else if v ≠ s.viewNumber then s
  else s.core (fun c => c.sendTo src (.startView c.buildStartView))

/-- Count a peer's vote for the current view. -/
def countStartVc (replicaId : ℕ) : Replica :=
  let known := s.startVcCount replicaId
  { s with
    startVcCount := if known then s.startVcCount else upd s.startVcCount replicaId true
    startVcTotal := if known then s.startVcTotal else s.startVcTotal + 1 }

def onStartViewChange (src : ℕ) (svc : StartViewChangeMsg) : Outcome :=
  if !viewNumberValid svc.viewNumber then .ok s
  else if svc.replicaId ≠ src then .ok s
  else if svc.viewNumber < s.viewNumber then .ok s
  else
    let s := if svc.viewNumber > s.viewNumber then
        (s.resetForView env svc.viewNumber).announceView svc.viewNumber
      else s
    let s := s.countStartVc svc.replicaId
    ({ s with lastLeaderActivity := env.now }).maybeDoViewChange hash env
      (abortSelectedView hash env)

/-- A repeated message of the selected source must describe the same log. -/
def contradictsSelection (dvc : DoViewChangeMsg) : Bool :=
  s.pendingViewSelection && dvc.replicaId == s.selectedSource &&
    (match dvcEntryChecksum hash dvc dvc.opNumber with
      | none => true
      | some tip => dvc.lastNormalView != s.selectedLastNormalView ||
          dvc.opNumber != s.selectedTipOp || tip != s.selectedTipChecksum ||
          !dvcOverlapEqual dvc (s.doVcMsgs dvc.replicaId))

def dvcAcceptable (src : ℕ) (dvc : DoViewChangeMsg) : Bool :=
  viewNumberValid dvc.viewNumber && s.status == .viewChange && dvc.viewNumber == s.viewNumber &&
    dvc.replicaId == src && peerLogBoundsOk dvc.commitMin dvc.opNumber &&
    dvc.retentionFloor == 0 && peerLogEntriesOk hash dvc.logEntries dvc.logEntryCount dvcLogMax &&
    dvcTipSemanticsValid hash dvc && s.isLeader

def onDoViewChange (src : ℕ) (dvc : DoViewChangeMsg) : Outcome :=
  if !s.dvcAcceptable hash src dvc then .ok s
  else if s.contradictsSelection hash dvc then s.abortSelectedView hash env
  else
    let s := s.core (fun c => c.recordDvc dvc)
    ({ s with lastLeaderActivity := env.now }).maybeStartView hash env (abortSelectedView hash env)

/-- The committed tip the follower keeps must lie on the announced log. -/
def anchorOk (sv : StartViewMsg) : Bool :=
  !(s.commitMin > sv.opNumber) &&
    (if s.commitMin = 0 then !(sv.opNumber == 0 && sv.tipChecksum != 0)
      else match s.journalGet s.commitMin with
        | none => false
        | some anchor => s.isDurablePrepare s.commitMin &&
            !(s.commitMin == sv.opNumber && anchor.checksum != sv.tipChecksum))

/-- Start collecting the log a `StartView` announces. -/
def adoptStartView (src : ℕ) (sv : StartViewMsg) : Outcome :=
  let s := s.resetSelectedView.core (fun c =>
    c.select src sv.selectedLastNormalView sv.opNumber sv.tipChecksum sv.commitMin)
  let s := { s with selectedNextOp := s.commitMin + 1, lastLeaderActivity := env.now }
  s.collectCandidate hash env (abortSelectedView hash env) sv.entries

def matchesSelection (src : ℕ) (sv : StartViewMsg) : Bool :=
  src == s.selectedSource && sv.selectedLastNormalView == s.selectedLastNormalView &&
    sv.opNumber == s.selectedTipOp && sv.tipChecksum == s.selectedTipChecksum &&
    sv.commitMin == s.selectedCommitBound

def onStartView (src : ℕ) (sv : StartViewMsg) : Outcome :=
  if src ≠ s.leaderForView sv.viewNumber then .ok s
  else if sv.viewNumber < s.viewNumber then .ok s
  else if !startViewEntriesValid hash sv then .ok s
  else if !s.anchorOk sv then .ok s
  else do
    let s ← if sv.viewNumber > s.viewNumber then s.awaitStartView env sv.viewNumber else .ok s
    if s.status ≠ .viewChange ∨ sv.viewNumber ≠ s.viewNumber then .ok s
    else if s.pendingViewSelection then
      if s.matchesSelection src sv then .ok s else s.abortSelectedView hash env
    else s.adoptStartView hash env src sv

end Replica

end Hivemind
