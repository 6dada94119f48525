import Hivemind.Commit

/-! Selecting and collecting the log of a new view: the `DoViewChange` and
`StartView` messages a replica builds, the candidate suffix it gathers, and its
installation. Aborting a selection starts the next view change, which in the source
is a recursive call; functions that can abort take that call as the argument `abort`. -/
namespace Hivemind

/-- Up to `room` entries from `op` downwards, skipping missing ones. -/
def tailEntries (get : ℕ → Option LogEntry) : ℕ → ℕ → List LogEntry
  | 0, _ => []
  | _ + 1, 0 => []
  | op + 1, room + 1 =>
    match get (op + 1) with
    | some e => e :: tailEntries get op room
    | none => tailEntries get op (room + 1)

/-- The chain walk of `hasSelectedChainGap` over the given ops. -/
def chainGapFrom (hash : Hash) (get : ℕ → Option LogEntry) : List ℕ → ℕ → Bool
  | [], _ => false
  | op :: rest, parent =>
    match get op with
    | none => true
    | some e => if !e.valid hash || e.parentChecksum != parent then true
        else chainGapFrom hash get rest e.checksum

namespace Core

variable (hash : Hash) (c : Core)

def padEntries (entries : List LogEntry) (size : ℕ) : List LogEntry :=
  entries ++ List.replicate (size - entries.length) ({} : LogEntry)

/-- Bits of the ops up to `opNumber` that satisfy `p`, at their slots. -/
def opBitset (p : ℕ → Bool) : BitVec logBitsetBits :=
  (opsAbove 0 c.opNumber).foldl
    (fun b op => if p op then b ||| (BitVec.ofNat logBitsetBits 1 <<< journalSlot op) else b) 0

def dvcMessage : DoViewChangeMsg :=
  let entries := tailEntries c.journalGet c.opNumber dvcLogMax
  { viewNumber := c.viewNumber
    replicaId := c.replicaId
    lastNormalView := c.lastNormalView
    opNumber := c.opNumber
    commitMin := c.commitMin
    retentionFloor := 0
    logEntries := padEntries entries dvcLogMax
    logEntryCount := entries.length
    presentBitset := c.opBitset c.journalHas
    nackBitset := c.opBitset (fun op => !c.journalHas op) }

/-- `buildDvc`; `none` is its failed assertion. -/
def buildDvc : Option DoViewChangeMsg :=
  if dvcTipSemanticsValid hash c.dvcMessage then some c.dvcMessage else none

def buildStartView : StartViewMsg :=
  let entries := tailEntries c.journalGet c.selectedTipOp svLogMax
  { viewNumber := c.viewNumber
    selectedLastNormalView := c.selectedLastNormalView
    opNumber := c.selectedTipOp
    tipChecksum := c.selectedTipChecksum
    commitMin := c.selectedCommitBound
    retentionFloor := 0
    logEntries := padEntries entries svLogMax
    logEntryCount := entries.length }

def hasSelectedChainGap : Bool :=
  match c.checksumAt c.commitMin with
  | none => true
  | some parent => chainGapFrom hash c.journalGet (opsAbove c.commitMin c.selectedTipOp) parent

def leadsTarget : Bool := c.leaderForView c.selectedTargetView == c.replicaId

/-- The conjunction asserted by `assertPendingStartViewChain`. -/
def pendingStartViewChainOk : Bool :=
  !c.pendingStartView.active ||
    (c.pendingStartView.role != .none && c.status == .viewChange &&
      c.logHighOp == c.pendingStartView.opNumber && c.opNumber == c.pendingStartView.opNumber &&
      !(c.pendingStartView.commitMin < c.commitMin) &&
      c.pendingStartView.commitMin ≤ c.pendingStartView.opNumber &&
      c.checksumAt c.pendingStartView.opNumber ==
        some (if c.pendingStartView.opNumber = 0 then 0 else c.pendingStartView.tipChecksum) &&
      !c.hasSelectedChainGap hash)

/-- Replace the journal above the committed prefix by the validated candidate. -/
def installEntries (entries : List (Option LogEntry)) : Core :=
  entries.foldl (fun c e => match e with
    | some e => c.journalPutFromValidatedStartView e
    | none => c) (c.truncateAboveFromValidatedStartView c.commitMin)

/-- Record an installation for the selected view. -/
def noteInstalled : Core :=
  c.record (.installed c.selectedTargetView c.selectedTipOp c.selectedTipChecksum)

/-- The validated truncate and replace pass of a non-empty candidate. -/
def installCandidate : Core := c.noteInstalled.installEntries c.viewChangeCandidate.entries

/-- The pass of an empty suffix. -/
def truncateToTip : Core := c.noteInstalled.truncateAboveFromValidatedStartView c.selectedTipOp

/-- The commit watermarks a new leader starts from: those of the quorum's messages. -/
def adoptDvcWatermarks : Core :=
  { c with replicaCommitMin := fun i =>
      if i < c.replicaCount then
        if c.doVcReceived i then (c.doVcMsgs i).commitMin else 0
      else c.replicaCommitMin i }

/-- The pending publication opened by `startViewCandidateReady`. -/
def openPendingStartView : Core :=
  { c with
    opNumber := c.selectedTipOp
    pendingPrepareBroadcast := fun _ => false
    pendingPrepareOk := fun _ => false
    prepareOkCounts := fun _ => 0
    prepareOkFrom := fun _ => 0
    pendingStartView :=
      { active := true
        role := if c.leadsTarget then .leader else .follower
        sourceReplica := c.selectedSource
        targetView := c.selectedTargetView
        sourceLastNormalView := c.selectedLastNormalView
        tipChecksum := c.selectedTipChecksum
        opNumber := c.selectedTipOp
        commitMin := max c.commitMin c.selectedCommitBound
        retentionFloor := 0
        lastNormalView := c.selectedTargetView }
    viewChangeCandidate := { c.viewChangeCandidate with phase := .persistingStartView }
    metadataDirty := true }

/-- A new leader also starts from the watermarks of the quorum. -/
def openView : Core :=
  if c.leadsTarget then c.adoptDvcWatermarks.openPendingStartView else c.openPendingStartView

/-- The tip the selection names is the one the journal holds. -/
def selectedTipHeld : Bool :=
  c.selectedTipOp == 0 || ((c.journalGet c.selectedTipOp).map (·.checksum) ==
    some c.selectedTipChecksum)

end Core

namespace Replica

variable (hash : Hash) (env : Env) (abort : Replica → Outcome) (s : Replica)

def resetSelectedView : Replica :=
  { s with
    viewChangeCandidate := .reset
    pendingViewSelection := false
    selectedNextOp := 0
    selectedExpectedChecksum := 0
    selectedSourcesAttempted := 0
    selectedSourcesRequested := 0 }

/-- The end of `startViewCandidateReady`, once the journal holds the selected log. -/
def openSelectedView : Outcome :=
  if s.logHighOp ≠ s.selectedTipOp then .ok s
  else if s.hasSelectedChainGap hash then .error s
  else
    let s := s.core Core.openView
    s.assert (s.pendingStartViewChainOk hash)

def startViewCandidateReady : Outcome :=
  if !s.pendingViewSelection || s.pendingStartView.active then .ok s
  else if !s.selectedTipHeld then .ok s
  else if s.leadsTarget && s.selectedCommitBound < s.commitMin then .ok s
  else if s.selectedCommitBound > s.selectedTipOp then .ok s
  else if s.hasSelectedChainGap hash then .ok s
  else match s.viewChangeCandidate.phase with
    | .idle => (s.core Core.truncateToTip).openSelectedView hash
    -- a non-empty candidate was installed already
    | .candidateComplete => s.openSelectedView hash
    | _ => .error s

def installCompletedCandidate : Outcome :=
  if !s.pendingViewSelection then .ok s
  else if !s.viewChangeCandidate.complete then .ok s
  else match s.checksumAt s.commitMin with
    | none => abort s
    | some committedChecksum =>
      match s.viewChangeCandidate.validate hash s.commitMin committedChecksum with
      | .error _ => abort s
      | .ok () =>
        let s := s.core Core.installCandidate
        let s := { s with selectedNextOp := s.selectedTipOp + 1 }
        s.startViewCandidateReady hash

/-- `addSelectedEntry`, followed by `k` where the source continues on `true`. -/
def addSelectedEntry (e : LogEntry) (k : Replica → Outcome) : Outcome :=
  if !s.pendingViewSelection then .ok s
  else if s.viewChangeCandidate.phase = .idle then .ok s
  else match s.viewChangeCandidate.add hash e with
    | .error _ => abort s
    | .ok cand => k { s with viewChangeCandidate := cand }

def selectedEntryExpectedChecksum (op : ℕ) : Option ℕ :=
  if op = s.selectedTipOp then some s.selectedTipChecksum
  else if op ≥ s.selectedTipOp then none
  else if op + 1 < s.viewChangeCandidate.info.baseOp then none
  else
    (s.viewChangeCandidate.entries.getD (op + 1 - s.viewChangeCandidate.info.baseOp) none).map
      (·.parentChecksum)

def selectionRequest (op expectedChecksum : ℕ) : Message :=
  .requestPrepare
    { viewNumber := s.selectedTargetView
      opNumber := op
      selectedSource := s.selectedSource
      selectedLastNormalView := s.selectedLastNormalView
      selectedTipOp := s.selectedTipOp
      selectedTipChecksum := s.selectedTipChecksum
      selectedCommitBound := s.selectedCommitBound
      expectedEntryChecksum := expectedChecksum }

/-- Peers the leader may still ask: first those whose message hints at the op. -/
def nextSource (op : ℕ) : Option ℕ :=
  let open_ (i : ℕ) : Bool := i != s.replicaId && (s.selectedSourcesAttempted &&& replicaBit i) == 0
  let hinted (i : ℕ) : Bool :=
    s.doVcReceived i && (s.doVcMsgs i).presentBitset.getLsbD (journalSlot op)
  match (List.range s.replicaCount).find? (fun i => open_ i && hinted i) with
  | some i => some i
  | none => (List.range s.replicaCount).find? (fun i => open_ i && !hinted i)

def requestSelectedEntry (op expectedChecksum : ℕ) : Outcome :=
  if expectedChecksum = 0 then .error s
  else if !s.leadsTarget then
    .ok (s.core (fun c => c.sendTo c.selectedSource (s.selectionRequest op expectedChecksum)))
  else match s.nextSource op with
    | none => .ok s
    | some i =>
      let s := { s with
        selectedSourcesAttempted := s.selectedSourcesAttempted ||| replicaBit i
        selectedSourcesRequested := s.selectedSourcesRequested ||| replicaBit i }
      .ok (s.core (fun c => c.sendTo i (s.selectionRequest op expectedChecksum)))

/-- The source replica of the selection fills the candidate from its own journal. -/
def fillFromJournal (k : Replica → Outcome) : List ℕ → Replica → Outcome
  | [], s => k s
  | op :: rest, s =>
    if s.viewChangeCandidate.present (op - s.viewChangeCandidate.info.baseOp) then
      fillFromJournal k rest s
    else match s.journalGet op with
      | none => k s
      | some e => s.addSelectedEntry hash abort e (fillFromJournal k rest)

/-- Remember which entry is being fetched; a new one may be asked of every source. -/
def aimAt (op expectedChecksum : ℕ) : Replica :=
  if s.selectedNextOp ≠ op ∨ s.selectedExpectedChecksum ≠ expectedChecksum then
    { s with
      selectedNextOp := op
      selectedExpectedChecksum := expectedChecksum
      selectedSourcesAttempted := 0
      selectedSourcesRequested := 0 }
  else s

def forgetSources : Replica :=
  { s with selectedSourcesAttempted := 0, selectedSourcesRequested := 0 }

/-- Walk down from the tip: take what the journal already holds with the expected
identity, and ask for the first entry it does not. -/
def fetchMissing : List ℕ → Replica → Outcome
  | [], s => .ok s
  | op :: rest, s =>
    if s.viewChangeCandidate.present (op - s.viewChangeCandidate.info.baseOp) then
      fetchMissing rest s
    else match s.selectedEntryExpectedChecksum op with
      | none => fetchMissing rest s
      | some expected =>
        let s := s.aimAt op expected
        match (s.journalGet op).filter (fun e => e.checksum == expected) with
        | some e => s.addSelectedEntry hash abort e (fun s =>
            let s := s.forgetSources
            if s.viewChangeCandidate.complete then s.installCompletedCandidate hash abort
            else fetchMissing rest s)
        | none => s.requestSelectedEntry op expected

/-- Install a complete candidate, else fetch what it lacks. -/
def completeOrFetch : Outcome :=
  if s.viewChangeCandidate.complete then s.installCompletedCandidate hash abort
  else fetchMissing hash abort
    (opsAbove (s.viewChangeCandidate.info.baseOp - 1) s.selectedTipOp).reverse s

def advanceSelectedView : Outcome :=
  if !s.pendingViewSelection then .ok s
  else if s.status ≠ .viewChange then .ok s
  else if s.viewNumber ≠ s.selectedTargetView then .ok s.resetSelectedView
  else if s.selectedTipOp = s.commitMin then s.startViewCandidateReady hash
  else if s.viewChangeCandidate.phase = .idle then abort s
  else if s.selectedSource = s.replicaId then
    fillFromJournal hash abort (completeOrFetch hash abort)
      (opsAbove (s.viewChangeCandidate.info.baseOp - 1) s.selectedTipOp) s
  else s.completeOrFetch hash abort

end Replica

end Hivemind
