import Hivemind.Install
import Hivemind.Transition

/-! Facts about one replica that hold in every run, whatever messages arrive: slots
hold valid entries of their own op, a pending publication is quiet and belongs to the
current view, and a candidate belongs to the selection. -/
namespace Hivemind

open Relation

namespace Core

variable {hash : Hash} {inp : Input} {allow : Hazard → Prop} {c c₁ c' : Core}

/-- The candidate collects the selected suffix above the commit. -/
def Collects (c : Core) : Prop :=
  c.viewChangeCandidate.info.baseOp = c.commitMin + 1 ∧
  c.viewChangeCandidate.info.baseOp ≤ c.viewChangeCandidate.info.tipOp ∧
  c.viewChangeCandidate.info.tipOp ≤ logSizeMax ∧
  c.viewChangeCandidate.info.tipOp = c.selectedTipOp ∧
  c.viewChangeCandidate.info.tipChecksum = c.selectedTipChecksum ∧
  c.viewChangeCandidate.info.commitBound = c.selectedCommitBound ∧
  c.viewChangeCandidate.entries.length =
    c.viewChangeCandidate.info.tipOp - c.viewChangeCandidate.info.baseOp + 1

structure Sane (hash : Hash) (c : Core) : Prop where
  count : 0 < c.replicaCount
  slots : SlotOk hash c
  dirty : ∀ i, c.journalDirty i = true → i < logSizeMax
  views : c.lastNormalView ≤ c.viewNumber
  pending : c.pendingStartView.active = true →
    c.pendingStartView.targetView = c.viewNumber ∧
      c.pendingStartView.lastNormalView = c.viewNumber
  quiet : c.pendingStartView.active = true → c.status = .viewChange → ¬ c.Owes
  deferred : c.pendingStartView.active = false → c.deferredViewTarget = 0
  idle : c.pendingViewSelection = false → c.viewChangeCandidate.phase = .idle
  empty : c.viewChangeCandidate.phase = .idle → c.viewChangeCandidate.entries = []
  bound : c.status = .viewChange → c.pendingViewSelection = true →
    c.selectedCommitBound ≤ c.selectedTipOp
  collects : c.status = .viewChange → c.pendingStartView.active = false →
    c.pendingViewSelection = true → c.viewChangeCandidate.phase ≠ .idle → c.Collects
  source : c.pendingViewSelection = true → c.leadsTarget = false →
    c.selectedSource = c.leaderForView c.selectedTargetView
  role : c.pendingStartView.active = true → c.pendingStartView.role ≠ .leader →
    c.leader ≠ c.replicaId
  owed : ∀ i, c.pendingPrepareOk i = true → c.pendingPrepareOkTo i ≠ c.replicaId

/-- What `assertPendingStartViewChain` asserts of a pending publication. -/
structure PendingOk (hash : Hash) (c : Core) : Prop where
  role : c.pendingStartView.role ≠ .none
  status : c.status = .viewChange
  high : c.logHighOp = c.pendingStartView.opNumber
  op : c.opNumber = c.pendingStartView.opNumber
  commit : c.commitMin ≤ c.pendingStartView.commitMin
  bound : c.pendingStartView.commitMin ≤ c.pendingStartView.opNumber
  tip : c.checksumAt c.pendingStartView.opNumber =
    some (if c.pendingStartView.opNumber = 0 then 0 else c.pendingStartView.tipChecksum)
  chain : c.hasSelectedChainGap hash = false

theorem pendingOk (hact : c.pendingStartView.active = true)
    (h : c.pendingStartViewChainOk hash = true) : PendingOk hash c := by
  simp only [pendingStartViewChainOk, hact, Bool.not_true, Bool.false_or, Bool.and_eq_true,
    beq_iff_eq, bne_iff_ne, Bool.not_eq_true', decide_eq_false_iff_not, not_lt,
    decide_eq_true_eq] at h
  obtain ⟨⟨⟨⟨⟨⟨⟨h1, h2⟩, h3⟩, h4⟩, h5⟩, h6⟩, h7⟩, h8⟩ := h
  exact ⟨h1, h2, h3, h4, h5, h6, h7, h8⟩

/-! ### Frames -/

theorem installEntries_frame (entries : List (Option LogEntry)) (c : Core) :
    c.installEntries entries = { c with
      journal := (c.installEntries entries).journal
      journalDirty := (c.installEntries entries).journalDirty
      prepareOkCounts := (c.installEntries entries).prepareOkCounts
      prepareOkFrom := (c.installEntries entries).prepareOkFrom
      durablePrepareOp := (c.installEntries entries).durablePrepareOp
      durablePrepareChecksum := (c.installEntries entries).durablePrepareChecksum } := by
  unfold installEntries
  induction entries using List.reverseRecOn with
  | nil => rfl
  | append_singleton l e ih =>
    rw [List.foldl_append, List.foldl_cons, List.foldl_nil]
    cases e with
    | none => exact ih
    | some e =>
      rw [ih]
      rfl

theorem Placed.frame (h : Placed hash c c₁) : c₁ = { c with
    journal := c₁.journal
    journalDirty := c₁.journalDirty
    prepareOkCounts := c₁.prepareOkCounts
    prepareOkFrom := c₁.prepareOkFrom
    durablePrepareOp := c₁.durablePrepareOp
    durablePrepareChecksum := c₁.durablePrepareChecksum
    history := c₁.history } := by
  cases h with
  | installed =>
    unfold installCandidate
    rw [installEntries_frame]
    rfl
  | truncated => rfl
  | kept => rfl

theorem put_dirty {e : LogEntry} {b : Bool} (hd : ∀ i, c.journalDirty i = true → i < logSizeMax)
    (i : ℕ) (hi : (c.journalPutInternal e b).journalDirty i = true) : i < logSizeMax := by
  have hi' : (if c.putAccepts e b then upd c.journalDirty (journalSlot e.opNumber) true
    else c.journalDirty) i = true := hi
  split at hi'
  · rcases upd_true hi' with rfl | h
    · exact journalSlot_lt _
    · exact hd i h
  · exact hd i hi'

theorem truncate_dirty {limit : ℕ} (hs : SlotOk hash c)
    (hd : ∀ i, c.journalDirty i = true → i < logSizeMax) (i : ℕ)
    (hi : (c.truncateAboveFromValidatedStartView limit).journalDirty i = true) :
    i < logSizeMax := by
  have hi' : (if c.truncates limit true i then true else c.journalDirty i) = true := hi
  split at hi'
  · next hg =>
    obtain ⟨e, he, -⟩ := truncates_validated.mp hg
    rw [(hs he).2.1]
    exact journalSlot_lt _
  · exact hd i hi'

theorem installEntries_dirty {entries : List (Option LogEntry)} (hs : SlotOk hash c)
    (hd : ∀ i, c.journalDirty i = true → i < logSizeMax) :
    ∀ i, (c.installEntries entries).journalDirty i = true → i < logSizeMax := by
  unfold installEntries
  induction entries using List.reverseRecOn with
  | nil => exact truncate_dirty hs hd
  | append_singleton l e ih =>
    rw [List.foldl_append, List.foldl_cons, List.foldl_nil]
    cases e with
    | none => exact ih
    | some e => exact put_dirty ih

/-! ### Placing the selected log -/

/-- The journal of `c₁` is the committed prefix of `c` followed by the linked suffix `l`. -/
structure Placement (hash : Hash) (c c₁ : Core) (parent : ℕ) (l : List LogEntry) (tip : ℕ) :
    Prop where
  anchor : c.checksumAt c.commitMin = some parent
  le : c.commitMin ≤ c.selectedTipOp
  cap : c.selectedTipOp ≤ logSizeMax
  length : l.length = c.selectedTipOp - c.commitMin
  suffix : Suffix hash (c.commitMin + 1) parent l tip
  tip : c.selectedTipOp = 0 ∨ tip = c.selectedTipChecksum
  slots : SlotOk hash c₁
  get : ∀ op, c₁.journalGet op =
    if op ≤ c.commitMin then c.journalGet op else l[op - (c.commitMin + 1)]?

theorem checksumAt_le (hs : SlotOk hash c) {op sum : ℕ} (h : c.checksumAt op = some sum) :
    op ≤ logSizeMax := by
  unfold checksumAt at h
  split at h
  · omega
  · obtain ⟨e, he, -⟩ := Option.map_eq_some_iff.mp h
    exact (hs.bounds he).2

theorem checksumAt_congr {op : ℕ} (h : c₁.journalGet op = c.journalGet op) :
    c₁.checksumAt op = c.checksumAt op := by
  unfold checksumAt
  rw [h]

theorem noteInstalled_slots (hs : SlotOk hash c) : SlotOk hash c.noteInstalled := hs

theorem Sane.validated_phase (hs : Sane hash c) {committedOp committedChecksum : ℕ}
    (h : c.viewChangeCandidate.validate hash committedOp committedChecksum = .ok ()) :
    c.viewChangeCandidate.phase ≠ .idle := by
  intro hidle
  have hcomplete : c.viewChangeCandidate.complete = true := by
    unfold ViewChangeCandidate.validate at h
    split at h
    · cases h
    · next hc => simpa using hc
  simp [ViewChangeCandidate.complete, hs.empty hidle] at hcomplete

theorem Placed.placement (hs : Sane hash c) (hsel : c.Selecting) (h : Placed hash c c₁) :
    ∃ parent l tip, Placement hash c c₁ parent l tip := by
  cases h with
  | installed checksum hsum hvalid =>
    obtain ⟨hbase, -, l, hl, hsuf⟩ := ViewChangeCandidate.validate_ok hvalid
    obtain ⟨hb, hle, hcap, htip, hck, -, hlen⟩ :=
      hs.collects hsel.status hsel.idle hsel.selected (hs.validated_phase hvalid)
    have hlen' : l.length = c.selectedTipOp - c.commitMin := by
      rw [hl, List.length_map] at hlen
      omega
    have hparent : (if c.commitMin = 0 then 0 else checksum) = checksum := by
      split
      · next h0 =>
        rw [h0] at hsum
        exact Option.some.inj hsum
      · rfl
    rw [hparent] at hsuf
    obtain ⟨hslots, hget⟩ := journalGet_installEntries (c := c.noteInstalled)
      (noteInstalled_slots hs.slots) (l := l) (show c.commitMin + l.length ≤ logSizeMax by omega)
      hsuf.numbered hsuf.valid
    rw [← hl] at hslots hget
    exact ⟨checksum, l, _, ⟨hsum, by omega, by omega, hlen', hsuf, .inr hck, hslots, hget⟩⟩
  | truncated hphase htip hheld hchain =>
    obtain ⟨parent, hparent⟩ : ∃ parent, c.checksumAt c.commitMin = some parent := by
      unfold hasSelectedChainGap at hchain
      split at hchain
      · cases hchain
      · next parent h => exact ⟨parent, h⟩
    have htipsum : c.selectedTipOp = 0 ∨ parent = c.selectedTipChecksum := by
      rcases Nat.eq_zero_or_pos c.selectedTipOp with h0 | hpos
      · exact .inl h0
      · right
        rw [selectedTipHeld, beq_eq_false_iff_ne.mpr (by omega), Bool.false_or, beq_iff_eq,
          htip] at hheld
        rw [checksumAt, if_neg (by omega), hheld] at hparent
        exact (Option.some.inj hparent).symm
    refine ⟨parent, [], parent, ⟨hparent, htip.ge, htip ▸ checksumAt_le hs.slots hparent, ?_,
      ⟨fun k e hk => by simp at hk, by simp, rfl⟩, htipsum, hs.slots.truncate, fun op => ?_⟩⟩
    · rw [htip, Nat.sub_self, List.length_nil]
    · rw [truncateToTip, journalGet_truncate]
      show (if op ≤ max c.selectedTipOp c.commitMin then c.journalGet op else none) = _
      rw [htip, max_self, List.getElem?_nil]
  | kept hphase htip =>
    obtain ⟨hb, hle, -, ht, -⟩ := hs.collects hsel.status hsel.idle hsel.selected
      (by rw [hphase]; decide)
    omega

namespace Placement

variable {parent tip : ℕ} {l : List LogEntry}

theorem tipHeld (h : Placement hash c c₁ parent l tip) (hf : Placed hash c c₁) :
    c₁.selectedTipHeld = true := by
  have hfr := hf.frame
  have h1 : c₁.selectedTipOp = c.selectedTipOp := by rw [hfr]
  have h2 : c₁.selectedTipChecksum = c.selectedTipChecksum := by rw [hfr]
  rw [selectedTipHeld, h1, h2]
  rcases Nat.eq_zero_or_pos c.selectedTipOp with h0 | hpos
  · simp [h0]
  · have ht := h.tip.resolve_left (by omega)
    have hle := h.le
    rw [Bool.or_eq_true, beq_iff_eq, beq_iff_eq, h.get]
    right
    rcases Nat.eq_or_lt_of_le hle with heq | hlt
    · -- an empty suffix: the tip is the committed entry
      have hnil : l = [] := List.length_eq_zero_iff.mp (by rw [h.length]; omega)
      have hpar : parent = tip := by simpa [hnil] using h.suffix.linked
      have ha := h.anchor
      rw [checksumAt, if_neg (by omega)] at ha
      rw [if_pos (by omega), ← heq, ha, hpar, ht]
    · obtain ⟨l', e, rfl⟩ : ∃ l' e, l = l' ++ [e] := by
        refine ⟨l.dropLast, l.getLast ?_, (List.dropLast_append_getLast _).symm⟩
        rintro rfl
        have := h.length
        simp at this
        omega
      have hlen := h.length
      rw [List.length_append, List.length_singleton] at hlen
      rw [if_neg (by omega), show c.selectedTipOp - (c.commitMin + 1) = l'.length by omega]
      simp only [List.getElem?_concat_length, Option.map_some]
      rw [(HashChain.chain_concat.mp h.suffix.linked).2, ht]

theorem chainOk (h : Placement hash c c₁ parent l tip) (hf : Placed hash c c₁) :
    c₁.hasSelectedChainGap hash = false := by
  have hfr := hf.frame
  have h1 : c₁.selectedTipOp = c.selectedTipOp := by rw [hfr]
  have h2 : c₁.commitMin = c.commitMin := by rw [hfr]
  have hanchor : c₁.checksumAt c.commitMin = some parent := by
    rw [checksumAt_congr (c := c), h.anchor]
    rw [h.get, if_pos le_rfl]
  rw [hasSelectedChainGap, h1, h2, hanchor]
  rw [opsAbove, ← h.length]
  refine chainGapFrom_of_suffix (fun k e hk => ?_) h.suffix.valid h.suffix.linked
  rw [h.get, if_neg (by omega), show c.commitMin + 1 + k - (c.commitMin + 1) = k by omega, hk]

theorem highOp (h : Placement hash c c₁ parent l tip) (hf : Placed hash c c₁) :
    c₁.logHighOp = c₁.selectedTipOp := by
  have h1 : c₁.selectedTipOp = c.selectedTipOp := by rw [hf.frame]
  refine logHighOp_eq h.slots ?_ (fun op hop => ?_)
  · have htip := h.tipHeld hf
    rw [selectedTipHeld, Bool.or_eq_true, beq_iff_eq, beq_iff_eq] at htip
    refine htip.imp id (fun ht => ?_)
    obtain ⟨e, he, -⟩ := Option.map_eq_some_iff.mp ht
    exact journalHas_iff.mpr ⟨e, he⟩
  · have hle := h.le
    have hlen := h.length
    rw [h.get, if_neg (by omega)]
    exact List.getElem?_eq_none (by omega)

end Placement

/-- The checks after an installation pass, unless a new leader is ahead of the quorum
it selected from. -/
theorem Placed.ready (hs : Sane hash c) (hsel : c.Selecting) (h : Placed hash c c₁)
    (hown : ¬ (c.leadsTarget = true ∧ c.selectedCommitBound < c.commitMin)) :
    c₁.ReadyOk hash := by
  obtain ⟨parent, l, tip, hp⟩ := h.placement hs hsel
  have hfr := h.frame
  refine ⟨hp.tipHeld h, ?_, ?_, hp.chainOk h, hp.highOp h⟩
  · rw [hfr]
    exact hown
  · rw [hfr]
    exact hs.bound hsel.status hsel.selected

end Core

/-! ### Transitions keep it -/

namespace ViewChangeCandidate

variable {hash : Hash} {cand cand' : ViewChangeCandidate}

theorem allocate_ok {oom : Bool} {info : CandidateMetadata} (h : allocate oom info = .ok cand) :
    info.baseOp ≤ info.tipOp ∧ info.tipOp ≤ logSizeMax ∧ info.tipChecksum ≠ 0 ∧
      cand = { entries := List.replicate (info.tipOp - info.baseOp + 1) none
               info := info
               phase := .fetchingCandidate
               presentCount := 0 } := by
  unfold allocate at h
  split_ifs at h with h1 h2 h3 h4 h5
  cases h
  exact ⟨by omega, by omega, h4, rfl⟩

theorem add_ok {e : LogEntry} (h : cand.add hash e = .ok cand') :
    cand'.info = cand.info ∧ cand'.entries.length = cand.entries.length ∧
      cand.phase ≠ .idle ∧ cand'.phase ≠ .idle := by
  unfold add at h
  split at h
  · cases h
  next h1 =>
  have hphase : cand.phase ≠ .idle := by
    intro hidle
    simp [hidle] at h1
  split at h
  · cases h
  split at h
  · cases h
  dsimp only at h
  split at h
  · split at h
    · cases h
    · cases h
      exact ⟨rfl, rfl, hphase, hphase⟩
  · cases h
    refine ⟨rfl, by simp, hphase, ?_⟩
    dsimp only
    split
    · decide
    · exact hphase

end ViewChangeCandidate

namespace Core

variable {hash : Hash} {inp : Input} {allow : Hazard → Prop} {c c₁ c' : Core}

/-- What holds of a source that was chosen: the loop found it, and no guard behind it failed. -/
structure Chosen (hash : Hash) (c : Core) (i tip : ℕ) : Prop where
  selected : selectSource hash c.doVcReceived c.doVcMsgs (List.range c.replicaCount) none =
    some (some (i, tip))
  bound : c.maxDvcCommit ≤ (c.doVcMsgs i).opNumber
  chain : dvcTailChainValid hash (c.doVcMsgs i) = true
  evidence : c.evidenceAgrees (c.doVcMsgs i) = true

theorem chooseDvc_cases {m : DoViewChangeMsg} {tip : ℕ} (h : c.chooseDvc hash = some (m, tip)) :
    ∃ i, m = c.doVcMsgs i ∧ Chosen hash c i tip := by
  unfold chooseDvc at h
  split at h
  · next i _ hselected =>
    dsimp only at h
    split_ifs at h with hbound hchain hevidence
    cases h
    exact ⟨i, rfl, hselected, not_lt.mp hbound, by simpa using hchain, by simpa using hevidence⟩
  · cases h

theorem chooseDvc_bound {m : DoViewChangeMsg} {tip : ℕ} (h : c.chooseDvc hash = some (m, tip)) :
    c.maxDvcCommit ≤ m.opNumber := by
  obtain ⟨i, rfl, hchosen⟩ := chooseDvc_cases h
  exact hchosen.bound

theorem chooseDvc_recorded {m : DoViewChangeMsg} {tip : ℕ}
    (h : c.chooseDvc hash = some (m, tip)) : ∃ i, m = c.doVcMsgs i := by
  obtain ⟨i, rfl, -⟩ := chooseDvc_cases h
  exact ⟨i, rfl⟩

theorem startViewEntriesValid_bound {m : StartViewMsg} (h : startViewEntriesValid hash m = true) :
    m.commitMin ≤ m.opNumber ∧ m.opNumber ≤ logSizeMax := by
  simp only [startViewEntriesValid, Bool.and_eq_true, Bool.not_eq_true', Bool.or_eq_false_iff,
    decide_eq_false_iff_not] at h
  omega

theorem Placed.sane (hs : Sane hash c) (hsel : c.Selecting) (h : Placed hash c c₁) :
    Sane hash c₁ := by
  obtain ⟨parent, l, tip, hp⟩ := h.placement hs hsel
  have hdirty : ∀ i, c₁.journalDirty i = true → i < logSizeMax := by
    cases h with
    | installed => exact installEntries_dirty (noteInstalled_slots hs.slots) hs.dirty
    | truncated => exact truncate_dirty (noteInstalled_slots hs.slots) hs.dirty
    | kept => exact hs.dirty
  have hslots := hp.slots
  have hfr := h.frame
  rw [hfr] at hdirty hslots ⊢
  exact { hs with dirty := hdirty, slots := hslots }

theorem openView_sane (hs : Sane hash c) (hsel : c.Selecting) : Sane hash c.openView := by
  have hbase : ∀ c₂ : Core, c₂ = c ∨ c₂ = c.adoptDvcWatermarks →
      Sane hash c₂.openPendingStartView := by
    intro c₂ h₂
    have hfr : c₂ = { c with replicaCommitMin := c₂.replicaCommitMin } := by
      rcases h₂ with rfl | rfl <;> rfl
    rw [hfr]
    refine { hs with
      pending := fun _ => ⟨hsel.target.symm, hsel.target.symm⟩
      deferred := fun h => by cases h
      quiet := ?_
      idle := fun h => ?_
      empty := fun h => ?_
      collects := fun _ h => ?_
      role := fun _ hrole hlead => ?_
      owed := fun i h => by cases h }
    · rintro - - ⟨i, -, h | h⟩ <;> cases h
    · rw [show _ = true from hsel.selected] at h
      cases h
    · cases h
    · cases h
    · have hleads : c.leadsTarget = true := by
        rw [leadsTarget, ← hsel.target]
        exact beq_iff_eq.mpr hlead
      exact hrole (if_pos hleads)
  unfold openView
  split
  · exact hbase _ (.inr rfl)
  · exact hbase _ (.inl rfl)

theorem Placed.selecting (hsel : c.Selecting) (h : Placed hash c c₁) : c₁.Selecting := by
  rw [h.frame]
  exact { hsel with }

end Core

open Core

variable {hash : Hash} {inp : Input} {allow : Hazard → Prop} {c c' : Core}

theorem ViewAct.sane (h : ViewAct hash inp allow c c') (hs : Sane hash c) : Sane hash c' := by
  cases h with
  | send => exact { hs with }
  | enter hv _ hact =>
    exact { hs with
      views := hs.views.trans hv.le
      pending := fun h => absurd (h.symm.trans hact) (by decide)
      quiet := fun h => absurd (h.symm.trans hact) (by decide)
      idle := fun _ => rfl
      empty := fun _ => rfl
      bound := fun _ h => by cases h
      collects := fun _ _ h => by cases h
      source := fun h => by cases h
      role := fun h => absurd (h.symm.trans hact) (by decide) }
  | unselect hact =>
    exact { hs with
      idle := fun _ => rfl
      empty := fun _ => rfl
      bound := fun _ h => by cases h
      collects := fun _ _ h => by cases h
      source := fun h => by cases h }
  | recordOwn => exact { hs with }
  | recordPeer => exact { hs with }
  | selectDvc hsel _ hlead _ h =>
    exact { hs with
      idle := fun h => by cases h
      bound := fun _ _ => chooseDvc_bound h
      collects := fun _ _ _ h => absurd (hs.idle hsel) h
      source := fun _ h => absurd (hlead.symm.trans h) (by decide) }
  | selectView _ hsrc _ _ _ hsel hval =>
    exact { hs with
      idle := fun h => by cases h
      bound := fun _ _ => (startViewEntriesValid_bound hval).1
      collects := fun _ _ _ h => absurd (hs.idle hsel) h
      source := fun _ _ => hsrc }
  | allocate hsel _ hbase htip hsum hbound h =>
    obtain ⟨hle, hcap, -, rfl⟩ := ViewChangeCandidate.allocate_ok h
    exact { hs with
      idle := fun h => absurd (hsel.symm.trans h) (by decide)
      empty := fun h => by cases h
      collects := fun _ _ _ _ =>
        ⟨hbase, hle, hcap, htip, hsum, hbound, List.length_replicate⟩ }
  | collect _ h =>
    obtain ⟨hinfo, hlen, hne, hne'⟩ := ViewChangeCandidate.add_ok h
    exact { hs with
      idle := fun h => absurd (hs.idle h) hne
      empty := fun h => absurd h hne'
      collects := fun hst hact hsel _ => by
        have := hs.collects hst hact hsel hne
        simp only [Collects] at this ⊢
        rwa [hinfo, hlen] }
  | place hsel h => exact h.sane hs hsel
  | openView hsel h => exact openView_sane (h.sane hs hsel) (h.selecting hsel)

theorem CommitAct.sane (h : CommitAct inp c c') (hs : Sane hash c) : Sane hash c' := by
  cases h with
  | votes => exact { hs with }
  | follow => exact { hs with }
  | execute hst =>
    exact { hs with
      collects := fun hst' hact => by
        rcases hst with h | h
        · exact absurd (h.symm.trans hst') (by decide)
        · exact absurd (h.symm.trans hact) (by decide) }

namespace Core

theorem requestEntry_valid (m : RequestMsg) : (c.requestEntry hash m).valid hash = true := by
  simp [LogEntry.valid, requestEntry, LogEntry.computeChecksum, LogEntry.hashInput]

theorem updateClientTable_frame {clientId requestId op : ℕ} {result : Result}
    (h : c.updateClientTable clientId requestId result op = some c') :
    c' = { c with clientTable := c'.clientTable } := by
  unfold updateClientTable at h
  split at h
  · cases h
    rfl
  · split at h
    · cases h
      rfl
    · cases h

theorem leader_ne (h : c.isLeader = false) : c.leader ≠ c.replicaId := beq_eq_false_iff_ne.mp h

theorem Sane.owes (hs : Sane hash c) {op dst : ℕ} (hdst : dst ≠ c.replicaId) :
    ∀ i, (c.owePrepareOk op dst).pendingPrepareOk i = true →
      (c.owePrepareOk op dst).pendingPrepareOkTo i ≠ c.replicaId := by
  intro i hi
  have hi' : upd c.pendingPrepareOk (journalSlot op) true i = true := hi
  show upd c.pendingPrepareOkTo (journalSlot op) dst i ≠ _
  rw [upd_apply] at hi' ⊢
  split at hi'
  · next h => rw [if_pos h]; exact hdst
  · next h => rw [if_neg h]; exact hs.owed i hi'

theorem Sane.owed_settled (hs : Sane hash c) (hact : c.pendingStartView.active = true) :
    ∀ i, c.settleNormal.pendingPrepareOk i = true →
      c.settleNormal.pendingPrepareOkTo i ≠ c.replicaId := by
  unfold settleNormal
  dsimp only
  split
  · exact fun i h => by cases h
  next hrole =>
    intro i h
    have hto : c.settleNormal.pendingPrepareOkTo i = c.leader := by
      unfold settleNormal
      dsimp only
      rw [if_neg hrole]
      exact if_pos h
    unfold settleNormal at hto
    dsimp only at hto
    rw [if_neg hrole] at hto
    rw [hto]
    exact hs.role hact hrole

theorem Sane.put {e : LogEntry} {b : Bool} (hs : Sane hash c) (he : e.valid hash = true) :
    Sane hash (c.journalPutInternal e b) :=
  { hs with slots := hs.slots.put he, dirty := put_dirty hs.dirty }

end Core

theorem MayAccept.valid {e : LogEntry} {dst : ℕ} (h : MayAccept hash inp c e dst) :
    e.valid hash = true := by
  cases h <;> assumption

theorem MayAccept.to_leader {e : LogEntry} {dst : ℕ} (h : MayAccept hash inp c e dst) :
    dst = c.leader := by
  cases h with
  | prepared _ hsrc => exact hsrc
  | transferred => rfl

theorem quiet_of_normal {P : Prop} (hst : c.status = .normal) (h : c.status = .viewChange) : P :=
  absurd (hst.symm.trans h) (by decide)

theorem Act.sane (h : Act hash inp allow c c') (hs : Sane hash c) : Sane hash c' := by
  cases h with
  | view h => exact h.sane hs
  | commit h => exact h.sane hs
  | @append m hst =>
    let c₀ : Core := { c with opNumber := c.opNumber + 1 }
    have hnext : Sane hash c₀ := { hs with }
    have hput := hnext.put (b := false) (requestEntry_valid (c := c₀) m)
    exact { hput with quiet := fun _ h => quiet_of_normal hst h }
  | accept hst hfol _ _ h =>
    have hput := Sane.put (b := false) (c := { c with opNumber := _ }) { hs with } h.valid
    have hdst : _ ≠ c.replicaId := h.to_leader ▸ leader_ne hfol
    exact { hput with quiet := fun _ h => quiet_of_normal hst h, owed := hput.owes hdst }
  | fillGap hst hfol _ _ _ h =>
    have hput := hs.put (b := false) h.valid
    have hdst : _ ≠ c.replicaId := h.to_leader ▸ leader_ne hfol
    rw [fillGap_eq]
    split
    · exact { hput with quiet := fun _ h => quiet_of_normal hst h, owed := hput.owes hdst }
    · exact { hput with }
  | owe _ hsrc hst hfol =>
    have hdst : _ ≠ c.replicaId := hsrc ▸ leader_ne hfol
    exact { hs with quiet := fun _ h => quiet_of_normal hst h, owed := hs.owes hdst }
  | adopt _ _ hval =>
    rw [← adoptCommitted_frame, adoptCommitted]
    split
    · exact { hs.put hval with }
    · exact { hs with }
  | fillHole _ _ hval hst =>
    exact { hs.put hval with quiet := fun _ h => quiet_of_normal hst h }
  | selfVote =>
    refine { hs with quiet := fun hact hst howes => hs.quiet hact hst ?_ }
    obtain ⟨i, hi, h | h⟩ := howes
    · exact ⟨i, hi, .inl (upd_false h)⟩
    · exact ⟨i, hi, .inr h⟩
  | paid =>
    refine { hs with
      quiet := fun hact hst howes => hs.quiet hact hst ?_
      owed := fun i h => hs.owed i (upd_false h) }
    obtain ⟨i, hi, h | h⟩ := howes
    · exact ⟨i, hi, .inl h⟩
    · exact ⟨i, hi, .inr (upd_false h)⟩
  | defer hact => exact { hs with deferred := fun h => absurd (hact.symm.trans h) (by decide) }
  | sync => exact { hs with dirty := fun i h => by cases h }
  | volatile => exact { hs with dirty := fun i h => by cases h }
  | begin hact =>
    obtain ⟨htarget, hlnv⟩ := hs.pending hact
    exact { hs with
      views := hlnv.trans htarget.symm |>.le
      pending := fun _ => ⟨rfl, hlnv.trans htarget.symm⟩
      role := fun _ hrole => by
        show c.leaderForView c.pendingStartView.targetView ≠ c.replicaId
        rw [htarget]
        exact hs.role hact hrole }
  | settle hact =>
    exact { hs with
      quiet := fun _ h => by cases h
      bound := fun h => by cases h
      collects := fun h => by cases h
      owed := hs.owed_settled hact }
  | close =>
    exact { hs with
      deferred := fun _ => rfl
      pending := fun h => by cases h
      quiet := fun h => by cases h
      idle := fun _ => rfl
      empty := fun _ => rfl
      bound := fun _ h => by cases h
      collects := fun _ _ h => by cases h
      source := fun h => by cases h
      role := fun h => by cases h }
  | _ => exact { hs with }

theorem Act.place (h : Act hash inp allow c c') : c'.replicaId = c.replicaId ∧
    c'.replicaCount = c.replicaCount ∧ c'.quorumSize = c.quorumSize := by
  cases h with
  | view h =>
    cases h with
    | place _ h =>
      rw [h.frame]
      exact ⟨rfl, rfl, rfl⟩
    | openView _ h =>
      rw [h.frame]
      unfold Core.openView
      split <;> exact ⟨rfl, rfl, rfl⟩
    | _ => exact ⟨rfl, rfl, rfl⟩
  | commit h => cases h <;> exact ⟨rfl, rfl, rfl⟩
  | _ => exact ⟨rfl, rfl, rfl⟩

theorem acts_place (h : ReflTransGen (Act hash inp allow) c c') : c'.replicaId = c.replicaId ∧
    c'.replicaCount = c.replicaCount ∧ c'.quorumSize = c.quorumSize := by
  induction h with
  | refl => exact ⟨rfl, rfl, rfl⟩
  | tail _ h ih =>
    exact ⟨h.place.1.trans ih.1, h.place.2.1.trans ih.2.1, h.place.2.2.trans ih.2.2⟩

theorem acts_sane (h : ReflTransGen (Act hash inp allow) c c') (hs : Sane hash c) :
    Sane hash c' := by
  induction h with
  | refl => exact hs
  | tail _ h ih => exact h.sane ih

theorem viewActs_sane (h : ReflTransGen (ViewAct hash inp allow) c c') (hs : Sane hash c) :
    Sane hash c' := by
  induction h with
  | refl => exact hs
  | tail _ h ih => exact h.sane ih

end Hivemind
