import Hivemind.ReachRepair
import Hivemind.Workers

/-! The flush as a sequence of transitions: one barrier, the publication of a pending
view, and the messages, votes and replies that waited for it. -/
namespace Hivemind

open Relation Core

variable {hash : Hash} {env : Env} {inp : Input} {allow : Hazard → Prop}

/-- A transition that leaves the disk alone. -/
def PublishAct (hash : Hash) (inp : Input) (allow : Hazard → Prop) (c c' : Core) : Prop :=
  Act hash inp allow c c' ∧ c'.disk = c.disk ∧ c'.storageFailed = c.storageFailed

namespace PublishAct

variable {c c' : Core}

theorem view (h : ViewAct hash inp allow c c') : PublishAct hash inp allow c c' := by
  refine ⟨.view h, ?_⟩
  cases h with
  | place _ h =>
    rw [h.frame]
    exact ⟨rfl, rfl⟩
  | openView _ h =>
    rw [h.frame]
    unfold Core.openView
    split <;> exact ⟨rfl, rfl⟩
  | _ => exact ⟨rfl, rfl⟩

theorem commit (h : CommitAct inp c c') : PublishAct hash inp allow c c' := by
  refine ⟨.commit h, ?_⟩
  rw [h.frame]
  exact ⟨rfl, rfl⟩

end PublishAct

theorem publishActs_still {c c' : Core} (h : ReflTransGen (PublishAct hash inp allow) c c') :
    c'.disk = c.disk ∧ c'.storageFailed = c.storageFailed := by
  induction h with
  | refl => exact ⟨rfl, rfl⟩
  | tail _ h ih => exact ⟨h.2.1.trans ih.1, h.2.2.trans ih.2⟩

theorem publishActs_acts {c c' : Core} (h : ReflTransGen (PublishAct hash inp allow) c c') :
    ReflTransGen (Act hash inp allow) c c' :=
  ReflTransGen.mono (fun _ _ h => h.1) _ _ h

/-! ### Committed effects -/

namespace Replica

variable {s : Replica}

/-- What publishing replies needs and keeps. -/
structure Settled (c : Core) : Prop where
  metadata : c.metadataDirty = false
  up : c.storageFailed = false

/-- The reply of `op` is out; what publishing looks at is otherwise the same. -/
structure Published (op : ℕ) (c c' : Core) : Prop where
  settled : Settled c'
  commitMin : c'.commitMin = c.commitMin
  pendingStartView : c'.pendingStartView = c.pendingStartView
  journal : c'.journal = c.journal
  pendingReply : c'.pendingReply = upd c.pendingReply (journalSlot op) false

theorem Published.journalHas {op op' : ℕ} {c c' : Core} (h : Published op c c') :
    c'.journalHas op' = c.journalHas op' := by
  simp only [Core.journalHas, Core.journalGet, h.journal]

theorem publishReply_reaches {op : ℕ} (h : Settled s.toCore) (hop : 0 < op)
    (hle : op ≤ s.commitMin)
    (hfirst : ∀ op' < op, s.journalHas op' = true → s.pendingReply (journalSlot op') = false) :
    Reaches (PublishAct hash inp allow) s.toCore (s.publishReply op) ∧
      ∀ s', s.publishReply op = .ok s' → Published op s.toCore s'.toCore := by
  unfold publishReply
  dsimp only
  split
  · next hflag =>
    split
    · exact ⟨.error rfl, fun _ h => by cases h⟩
    · next c₁ hc₁ =>
      obtain ⟨table, rfl⟩ : ∃ table, c₁ = { s.toCore with clientTable := table } :=
        ⟨_, updateClientTable_frame hc₁⟩
      have hact := @Act.publishReply hash inp allow _ _ _ hop hle hflag h.metadata h.up hc₁ hfirst
      refine ⟨.single ⟨hact, rfl, rfl⟩, ?_⟩
      intro s' hs'
      cases hs'
      exact ⟨⟨h.metadata, h.up⟩, rfl, rfl, rfl, rfl⟩
  · next hflag =>
    refine ⟨.ok rfl, fun s' hs' => ?_⟩
    cases hs'
    refine ⟨h, rfl, rfl, rfl, ?_⟩
    have hfalse : s.pendingReply (journalSlot op) = false := by simpa using hflag
    rw [← hfalse, upd_eq_self]

theorem publishReply_error {op : ℕ} {s' : Replica} (h : s.publishReply op = .error s') : s' = s := by
  unfold publishReply at h
  dsimp only at h
  split at h
  · split at h
    · exact (Except.error.inj h).symm
    · cases h
  · cases h

variable (hash inp allow) in
theorem publishCommittedEffect_works {op : ℕ} (h : Settled s.toCore) (hop : 0 < op)
    (hle : op ≤ s.commitMin)
    (hfirst : ∀ op' < op, s.journalHas op' = true → s.pendingReply (journalSlot op') = false) :
    Works hash (PublishAct hash inp allow) s (s.publishCommittedEffect op) ∧
      ∀ s', s.publishCommittedEffect op = .ok s' → Published op s.toCore s'.toCore := by
  have hspec : ReflTransGen (PublishAct hash inp allow) s.toCore
        (s.publishCommittedEffect op).state.toCore ∧
      ∀ s', s.publishCommittedEffect op = .ok s' → Published op s.toCore s'.toCore := by
    unfold publishCommittedEffect
    split
    · exact ⟨.refl, fun _ h => by cases h⟩
    next e he =>
    have hkeeps := (publishEffect_posts s op e (s.pendingReplyResult (journalSlot op))).keeps
    cases heff : s.publishEffect op e (s.pendingReplyResult (journalSlot op)) with
    | error s₁ =>
      rw [heff] at hkeeps
      have hcore : s₁.toCore = s.toCore := hkeeps
      refine ⟨?_, fun _ h => by cases h⟩
      show ReflTransGen _ s.toCore s₁.toCore
      rw [hcore]
    | ok s₁ =>
      rw [heff] at hkeeps
      have hcore : s₁.toCore = s.toCore := hkeeps
      rw [← hcore] at h hle hfirst ⊢
      obtain ⟨hreach, hpub⟩ := publishReply_reaches h hop hle hfirst
      refine ⟨?_, hpub⟩
      show ReflTransGen _ s₁.toCore (s₁.publishReply op).state.toCore
      cases hout : s₁.publishReply op with
      | ok s₂ =>
        rw [hout] at hreach
        exact hreach
      | error s₂ =>
        rw [publishReply_error hout]
        exact .refl
  refine ⟨?_, hspec.2⟩
  have hstep : s.Steps hash (PublishAct hash inp allow) (s.publishCommittedEffect op).state :=
    .single ⟨_, .publish hop hle hspec.1⟩
  cases hout : s.publishCommittedEffect op with
  | ok s' =>
    rw [hout] at hstep
    exact hstep
  | error s' =>
    rw [hout] at hstep
    exact .after hstep .error

/-- Replies go out in the order of their ops: what is pending below an op of the list is
in the list. -/
theorem publishCommitEffectsAt_works : ∀ (ops : List ℕ) {s : Replica}, Settled s.toCore →
    ops.Pairwise (· < ·) → (∀ op ∈ ops, 0 < op ∧ op ≤ s.commitMin) →
    (∀ op ∈ ops, ∀ op' < op, s.journalHas op' = true → s.pendingReply (journalSlot op') = true →
      op' ∈ ops) →
      Works hash (PublishAct hash inp allow) s (publishCommitEffectsAt ops s) ∧
        ∀ s', publishCommitEffectsAt ops s = .ok s' → s'.pendingStartView = s.pendingStartView
  | [], s, _, _, _, _ => ⟨.ok, fun s' hs' => by cases hs'; rfl⟩
  | op :: rest, s, h, hsorted, hops, hpending => by
    unfold publishCommitEffectsAt
    obtain ⟨hop, hle⟩ := hops op (by simp)
    obtain ⟨hhead, hsorted⟩ := List.pairwise_cons.mp hsorted
    have hrest : ∀ op' ∈ rest, 0 < op' ∧ op' ≤ s.commitMin := fun op' h' => hops op' (by simp [h'])
    split
    swap
    · next hskip =>
      refine publishCommitEffectsAt_works _ h hsorted hrest fun op₁ h₁ op' hlt hhas hflag => ?_
      rcases List.mem_cons.mp (hpending op₁ (by simp [h₁]) op' hlt hhas hflag) with rfl | hin
      · exact absurd (by simp [hhas, hflag]) hskip
      · exact hin
    have hfirst : ∀ op' < op, s.journalHas op' = true →
        s.pendingReply (journalSlot op') = false := by
      intro op' hlt hhas
      by_contra hflag
      rcases List.mem_cons.mp (hpending op (by simp) op' hlt hhas (by simpa using hflag)) with
        rfl | hin
      · exact absurd hlt (lt_irrefl _)
      · exact absurd (hhead op' hin) (by omega)
    obtain ⟨hworks, hspec⟩ := publishCommittedEffect_works hash inp allow h hop hle hfirst
    cases heff : s.publishCommittedEffect op with
    | error s₁ =>
      rw [heff] at hworks
      exact ⟨hworks, fun _ h => by cases h⟩
    | ok s₁ =>
      rw [heff] at hworks
      have hpub := hspec s₁ heff
      obtain ⟨hrest', hspec'⟩ := publishCommitEffectsAt_works rest (s := s₁) hpub.settled hsorted
        (by rw [hpub.commitMin]; exact hrest) fun op₁ h₁ op' hlt hhas hflag => by
          rw [hpub.journalHas] at hhas
          rw [hpub.pendingReply] at hflag
          rcases List.mem_cons.mp (hpending op₁ (by simp [h₁]) op' hlt hhas (upd_false hflag)) with
            rfl | hin
          · rw [upd_self] at hflag
            cases hflag
          · exact hin
      exact ⟨.after hworks hrest', fun s' hs' => (hspec' s' hs').trans hpub.pendingStartView⟩

theorem publishCommitEffects_works (h : Settled s.toCore) :
    Works hash (PublishAct hash inp allow) s s.publishCommitEffects ∧
      ∀ s', s.publishCommitEffects = .ok s' → s'.pendingStartView = s.pendingStartView := by
  refine publishCommitEffectsAt_works _ h List.pairwise_lt_range' (fun op hop => ?_) ?_
  · have := mem_opsAbove.mp hop
    omega
  · intro op hop op' hlt hhas _
    have := mem_opsAbove.mp hop
    exact mem_opsAbove.mpr ⟨Core.journalHas_pos hhas, by omega⟩

end Replica

/-! ### Publishing a pending view -/

/-- Log, marks and disk are the same. -/
structure SameLog (c c' : Core) : Prop where
  journal : c'.journal = c.journal
  dirty : c'.journalDirty = c.journalDirty
  markOp : c'.durablePrepareOp = c.durablePrepareOp
  markChecksum : c'.durablePrepareChecksum = c.durablePrepareChecksum
  opNumber : c'.opNumber = c.opNumber
  disk : c'.disk = c.disk

theorem SameLog.refl (c : Core) : SameLog c c := ⟨rfl, rfl, rfl, rfl, rfl, rfl⟩

theorem SameLog.trans {c c₁ c₂ : Core} (h : SameLog c c₁) (h' : SameLog c₁ c₂) : SameLog c c₂ :=
  ⟨h'.journal.trans h.journal, h'.dirty.trans h.dirty, h'.markOp.trans h.markOp,
    h'.markChecksum.trans h.markChecksum, h'.opNumber.trans h.opNumber, h'.disk.trans h.disk⟩

theorem SameLog.isDurablePrepare {c c' : Core} {op : ℕ} (h : SameLog c c') :
    c'.isDurablePrepare op = c.isDurablePrepare op := by
  unfold Core.isDurablePrepare Core.journalGet
  rw [h.journal, h.markOp, h.markChecksum]

theorem SameLog.journalGet {c c' : Core} {op : ℕ} (h : SameLog c c') : c'.journalGet op =
  c.journalGet op := by
  unfold Core.journalGet
  rw [h.journal]

/-- A leader selected from a quorum that knows its own commit. -/
def Core.BoundOk (c : Core) : Prop :=
  c.pendingViewSelection = true → c.leadsTarget = true → c.commitMin ≤ c.selectedCommitBound

section

variable {c c' : Core}

theorem openView_frame (c : Core) : c.openView = { c with
    replicaCommitMin := c.openView.replicaCommitMin
    opNumber := c.selectedTipOp
    pendingPrepareBroadcast := fun _ => false
    pendingPrepareOk := fun _ => false
    prepareOkCounts := fun _ => 0
    prepareOkFrom := fun _ => 0
    pendingStartView := c.openPendingStartView.pendingStartView
    viewChangeCandidate := c.openPendingStartView.viewChangeCandidate
    metadataDirty := true } := by
  unfold Core.openView
  split <;> rfl

theorem ViewAct.boundOk (hq : inp.Silent) (hno : ¬ allow .shrink) (h : ViewAct hash inp allow c c')
    (hb : c.BoundOk) : c'.BoundOk := by
  cases h with
  | enter => exact fun h => by cases h
  | unselect => exact fun h => by cases h
  | selectDvc _ _ _ _ _ _ hown =>
    intro _ _
    by_contra hlt
    exact hno (hown (not_le.mp hlt))
  | selectView hinp => exact absurd hinp (hq _ _)
  | place _ h =>
    rw [h.frame]
    exact hb
  | openView _ h =>
    rw [openView_frame, h.frame]
    exact hb
  | _ => exact hb

/-- A publication is pending, and nothing is owed. -/
def Core.Reopened (c : Core) : Prop :=
  (c.pendingStartView.active = true ∧ c.status = .viewChange) ∧ ¬ c.Owes

/-- Such a selection either leaves the log alone or ends in a pending publication that
owes nothing. -/
theorem viewActs_sameLog (hq : inp.Silent) (hno : ¬ allow .shrink)
    (h : ReflTransGen (ViewAct hash inp allow) c c') (hs : Sane hash c) (hb : c.BoundOk) :
    (Sane hash c' ∧ c'.BoundOk) ∧
      (SameLog c c' ∨ c'.Reopened) := by
  induction h with
  | refl => exact ⟨⟨hs, hb⟩, .inl (.refl c)⟩
  | tail _ h ih =>
    obtain ⟨⟨hs₁, hb₁⟩, hlog⟩ := ih
    refine ⟨⟨h.sane hs₁, h.boundOk hq hno hb₁⟩, ?_⟩
    -- every transition but a send starts from an idle replica
    cases h with
    | send => exact hlog.imp (fun h => { h with }) id
    | place hsel h hnot =>
      exact absurd (h.ready hs₁ hsel (fun hl => absurd (hb₁ hsel.selected hl.1) (by omega))) hnot
    | openView hsel h =>
      right
      rw [openView_frame, h.frame]
      exact ⟨⟨rfl, hsel.status⟩, fun ⟨i, _, hi⟩ => by rcases hi with h | h <;> cases h⟩
    | enter _ _ hact | unselect hact | recordOwn _ hact | recordPeer _ _ _ _ _ hact
    | selectDvc _ hact | selectView _ _ _ _ hact | allocate _ hact | collect hact =>
      rcases hlog with h | h
      · exact .inl { h with }
      · exact absurd (hact.symm.trans h.1.1) (by decide)

end

/-- A pending view that has been entered and is on disk. -/
structure Core.Entered (c : Core) : Prop where
  active : c.pendingStartView.active = true
  view : c.viewNumber = c.pendingStartView.targetView
  lastNormalView : c.lastNormalView = c.pendingStartView.lastNormalView
  opNumber : c.opNumber = c.pendingStartView.opNumber
  clean : c.Clean
  disk : c.DiskCurrent

theorem Core.DiskCurrent.of_active {c c' : Core} (h : c.DiskCurrent)
    (hact : c.pendingStartView.active = true) (hp : c'.pendingStartView = c.pendingStartView)
    (hd : c'.disk = c.disk) : c'.DiskCurrent := by
  intro d hd'
  rw [h d (hd ▸ hd')]
  simp only [metadataToPersist, hp, hact, if_true]

namespace Replica

variable {s : Replica}

variable (hash inp allow) in
theorem enterPending_reaches (hact : s.pendingStartView.active = true)
    (hchain : s.pendingStartViewChainOk hash = true) (hclean : s.toCore.Clean)
    (hdisk : s.toCore.DiskCurrent) :
    Reaches (PublishAct hash inp allow) s.toCore s.enterPending ∧
      ∀ s', s.enterPending = .ok s' → s'.toCore.Entered ∧ SameLog s.toCore s'.toCore ∧
        s'.pendingStartView = s.pendingStartView ∧ (s'.Owes → s.Owes) := by
  have hbegin : PublishAct hash inp allow s.toCore s.enterPendingView :=
    ⟨.begin hact hchain hclean hdisk, rfl, rfl⟩
  have hop : s.pendingStartView.opNumber = s.opNumber := (pendingOk hact hchain).op.symm
  have hentered : s.enterPendingView.Entered :=
    ⟨hact, rfl, rfl, rfl, hclean, hdisk.of_active hact rfl rfl⟩
  -- executing entries keeps the entered view
  have hstay : ∀ c', ReflTransGen (CommitAct inp) s.enterPendingView c' →
      c'.Entered ∧ SameLog s.toCore c' ∧ c'.pendingStartView = s.pendingStartView ∧
        (c'.Owes → s.Owes) := by
    intro c' h
    have hf := commitActs_frame h
    rw [hf]
    exact ⟨{ hentered with disk := hentered.disk.of_active hact rfl rfl },
      ⟨rfl, rfl, rfl, rfl, hop, rfl⟩, rfl, id⟩
  unfold enterPending
  dsimp only
  split
  · have hcommit : Reaches (CommitAct inp) s.enterPendingView
        ((s.core enterPendingView).commitUpTo s.pendingStartView.commitMin) :=
      commitUpTo_reaches (s := s.core enterPendingView) (.inr hact) (.known (le_max_right _ _))
    refine ⟨.head hbegin (hcommit.mono .commit), fun s' hs' => ?_⟩
    rw [hs'] at hcommit
    exact hstay _ hcommit
  · refine ⟨.single hbegin, fun s' hs' => ?_⟩
    cases hs'
    exact hstay _ .refl

variable (hash inp allow) in
theorem announceNormal_reaches (hs : Sane hash s.toCore) (hst : s.status = .normal)
    (hact : s.pendingStartView.active = true) :
    Reaches (PublishAct hash inp allow) s.toCore s.announceNormal ∧
      ∀ s', s.announceNormal = .ok s' → s'.toCore = { s.toCore with history := s'.history } := by
  unfold announceNormal
  split
  · next hrole =>
    obtain ⟨hacts, hframe⟩ := sendToAllOthers_acts hash inp allow (c := s.toCore)
      (m := .startView s.buildStartView) (fun _ _ => .announce hst hact hrole)
    refine ⟨ReflTransGen.mono (fun _ _ => PublishAct.view) _ _ hacts, fun s' hs' => ?_⟩
    cases hs'
    exact hframe
  next hrole =>
    split
    · exact ⟨.error rfl, fun _ h => by cases h⟩
    · next m hm =>
      refine ⟨.single (.view (.send (.status hm (.inr hst)) (.inr (.inl (hs.role hact hrole))))),
        fun s' hs' => ?_⟩
      cases hs'
      rfl

theorem settleNormal_owes {c : Core} (hrole : c.pendingStartView.role = .leader)
    (h : c.settleNormal.Owes) : c.Owes := by
  obtain ⟨i, hi, h | h⟩ := h
  · rw [settleNormal_frame] at h
    exact ⟨i, hi, .inl h⟩
  · unfold settleNormal at h
    dsimp only at h
    rw [if_pos hrole] at h
    cases h

variable (hash env inp allow) in
theorem settlePending_reaches (hs : Sane hash s.toCore) (h : s.toCore.Entered) :
    Reaches (PublishAct hash inp allow) s.toCore (s.settlePending env) ∧
      ∀ s', s.settlePending env = .ok s' → SameLog s.toCore s'.toCore ∧
        s'.pendingStartView.active = false ∧ s'.pendingViewSelection = false ∧
        s'.viewNumber = s.pendingStartView.targetView ∧
        (s.pendingStartView.role = .leader → s'.Owes → s.Owes) := by
  unfold settlePending
  by_cases hcommit : s.commitMin = s.pendingStartView.commitMin
  swap
  · rw [if_pos hcommit]
    exact ⟨.error rfl, fun _ h => by cases h⟩
  rw [if_neg (not_not.mpr hcommit)]
  by_cases hdur : s.suffixDurable = true
  swap
  · rw [if_pos (by simpa using hdur)]
    exact ⟨.error rfl, fun _ h => by cases h⟩
  rw [if_neg (by simpa using hdur)]
  have hsettle : PublishAct hash inp allow s.toCore s.settleNormal := by
    rw [settleNormal_frame]
    exact ⟨.settle h.active h.view h.lastNormalView h.opNumber hcommit hdur h.clean h.disk, rfl, rfl⟩
  obtain ⟨hreach, hspec⟩ := announceNormal_reaches hash inp allow
    (s := (s.core settleNormal).resetForNormal env) (hsettle.1.sane hs) (by
      show s.settleNormal.status = .normal
      rw [settleNormal_frame]) (by
      show s.settleNormal.pendingStartView.active = true
      rw [settleNormal_frame]
      exact h.active)
  cases hann : ((s.core settleNormal).resetForNormal env).announceNormal with
  | error s₁ =>
    rw [hann] at hreach
    exact ⟨.head hsettle hreach, fun _ h => by cases h⟩
  | ok s₁ =>
    rw [hann] at hreach
    have hframe : s₁.toCore = { s.settleNormal with history := s₁.history } := hspec s₁ hann
    have hclose : PublishAct hash inp allow s₁.toCore s₁.closePending := by
      refine ⟨?_, rfl, rfl⟩
      rw [hframe, settleNormal_frame]
      exact .close h.active rfl h.view h.lastNormalView h.opNumber hcommit rfl h.clean
        (h.disk.of_active h.active rfl rfl)
    refine ⟨.head hsettle (.trans hreach (.head hclose (.ok rfl))), fun s' hs' => ?_⟩
    cases hs'
    have hjournal : SameLog s.toCore s₁.closePending := by
      rw [hframe, settleNormal_frame]
      exact ⟨rfl, rfl, rfl, rfl, rfl, rfl⟩
    refine ⟨hjournal, rfl, rfl, ?_, fun hrole howes => settleNormal_owes hrole ?_⟩
    · show s₁.viewNumber = _
      rw [hframe, settleNormal_frame]
      exact h.view
    · obtain ⟨i, hlt, hi⟩ := howes
      refine ⟨i, hlt, ?_⟩
      have hi' : s₁.pendingPrepareBroadcast i = true ∨ s₁.pendingPrepareOk i = true := hi
      rw [hframe] at hi'
      exact hi'

end Replica

theorem ViewAct.mono_allow {allow' : Hazard → Prop} {c c' : Core} (ha : ∀ k, allow' k → allow k)
    (h : ViewAct hash inp allow' c c') : ViewAct hash inp allow c c' := by
  cases h with
  | send h hdst => exact .send h hdst
  | enter hv hval hact hleave =>
    exact .enter hv hval hact ⟨fun h => ha _ (hleave.1 h), fun h => ha _ (hleave.2 h)⟩
  | unselect hact => exact .unselect hact
  | recordOwn hlead hact hval => exact .recordOwn hlead hact hval
  | recordPeer hinp hsrc hv hst hlead hact hb he hval =>
    exact .recordPeer hinp hsrc hv hst hlead hact hb he hval
  | selectDvc hsel hact hlead hq h hf ho =>
    exact .selectDvc hsel hact hlead hq h (fun h => ha _ (hf h)) (fun h => ha _ (ho h))
  | selectView hinp hsrc hv hst hact hsel hval hle hf =>
    exact .selectView hinp hsrc hv hst hact hsel hval hle (fun h => ha _ (hf h))
  | allocate hsel hact hb ht hs hbd h => exact .allocate hsel hact hb ht hs hbd h
  | collect hact h hfrom => exact .collect hact h hfrom
  | place hsel h hno => exact .place hsel h hno
  | openView hsel h hok => exact .openView hsel h hok

namespace Replica

variable {s : Replica}

/-- While a publication is pending, a higher view is noted that a follower would enter
with its acknowledgements still owed. -/
def DeferredHazard (c : Core) : Prop :=
  c.pendingStartView.active = true ∧ c.pendingStartView.role ≠ .leader ∧
    c.deferredViewTarget > c.pendingStartView.targetView

/-- The view noted while a publication was pending may be entered after it. -/
def MayDefer (allow : Hazard → Prop) (c : Core) : Prop :=
  (DeferredHazard c → allow .staleFlag) ∧
    (c.pendingStartView.active = true → c.replicaCount = 1 → allow .solo)

variable (hash env allow) in
theorem followDeferred_reaches (hq : inp.Silent) (deferredView : ℕ) (hs : Sane hash s.toCore)
    (hsel : s.pendingViewSelection = false)
    (hleave : deferredView > s.viewNumber → s.MayLeave allow) :
    Reaches (PublishAct hash inp allow) s.toCore (s.followDeferred hash env deferredView) ∧
      ∀ s', s.followDeferred hash env deferredView = .ok s' →
        SameLog s.toCore s'.toCore ∨ s'.toCore.Reopened := by
  unfold followDeferred
  by_cases hdisk : s.diskAgrees hash = true
  swap
  · rw [if_pos (by simpa using hdisk)]
    exact ⟨.error rfl, fun _ h => by cases h⟩
  rw [if_neg (by simpa using hdisk)]
  by_cases hgt : deferredView > s.viewNumber
  · rw [if_pos hgt]
    -- nothing is selected yet, so that only the hazards of leaving can arise
    have hreach : Reaches (ViewAct hash inp (fun k => k ≠ .shrink ∧ allow k))
        s.toCore (s.initiateViewChangeTo hash env (abortSelectedView hash env) deferredView) :=
      initiateViewChangeTo_reaches abortSelectedView_reaches hs
        ⟨fun h => ⟨by decide, (hleave hgt).1 h⟩, fun h => ⟨by decide, (hleave hgt).2 h⟩⟩
    refine ⟨hreach.mono (fun h => .view (h.mono_allow (fun _ h => h.2))), ?_⟩
    intro s' hs'
    rw [hs'] at hreach
    exact (viewActs_sameLog hq (by simp) hreach hs (fun h => by rw [hsel] at h; cases h)).2
  · rw [if_neg hgt]
    refine ⟨.ok rfl, fun s' hs' => ?_⟩
    cases hs'
    exact .inl (.refl _)

variable (hash env allow) in
theorem publishPendingStartView_reaches (hq : inp.Silent) (hs : Sane hash s.toCore)
    (hflushed : s.pendingStartView.active = true → s.toCore.Clean ∧ s.toCore.DiskCurrent)
    (hdef : MayDefer allow s.toCore) :
    Reaches (PublishAct hash inp allow) s.toCore
        (s.publishPendingStartViewAfterBarrier hash env) ∧
      ∀ s', s.publishPendingStartViewAfterBarrier hash env = .ok s' →
        SameLog s.toCore s'.toCore ∨ s'.toCore.Reopened := by
  unfold publishPendingStartViewAfterBarrier
  by_cases hact : s.pendingStartView.active = true
  swap
  · rw [if_pos (by simpa using hact)]
    exact ⟨.ok rfl, fun s' hs' => by cases hs'; exact .inl (.refl _)⟩
  rw [if_neg (by simpa using hact)]
  by_cases hchain : s.pendingStartViewChainOk hash = true
  swap
  · rw [if_pos (by simpa using hchain)]
    exact ⟨.error rfl, fun _ h => by cases h⟩
  rw [if_neg (by simpa using hchain)]
  obtain ⟨henter, hentered⟩ := enterPending_reaches hash inp allow
    hact hchain (hflushed hact).1 (hflushed hact).2
  have hquiet := hs.quiet hact (pendingOk hact hchain).status
  cases h₁ : s.enterPending with
  | error s₁ =>
    rw [h₁] at henter
    exact ⟨henter, fun _ h => by cases h⟩
  | ok s₁ =>
    rw [h₁] at henter
    obtain ⟨hent, hlog₁, hpend, howes₁⟩ := hentered s₁ h₁
    have hs₁ : Sane hash s₁.toCore := acts_sane (publishActs_acts henter) hs
    obtain ⟨hsettle, hsettled⟩ := settlePending_reaches hash env inp allow hs₁ hent
    show Reaches _ _ ((s₁.settlePending env).bind _) ∧ ∀ s', (s₁.settlePending env).bind _ = _ → _
    cases h₂ : s₁.settlePending env with
    | error s₂ =>
      rw [h₂] at hsettle
      exact ⟨.trans henter hsettle, fun _ h => by cases h⟩
    | ok s₂ =>
      rw [h₂] at hsettle
      obtain ⟨hlog₂, hact₂, hsel₂, hview₂, howes₂⟩ := hsettled s₂ h₂
      have hacts : ReflTransGen (PublishAct hash inp allow) s.toCore s₂.toCore :=
        ReflTransGen.trans henter hsettle
      obtain ⟨hfollow, hspec⟩ := followDeferred_reaches hash env allow hq s.deferredViewTarget
        (s := s₂)
        (acts_sane (publishActs_acts hacts) hs) hsel₂ (fun hgt => by
          rw [hview₂, hpend] at hgt
          refine ⟨fun howes => ?_, fun h1 => ?_⟩
          · by_cases hrole : s.pendingStartView.role = .leader
            · exact absurd (howes₁ (howes₂ (hpend ▸ hrole) howes)) hquiet
            · exact hdef.1 ⟨hact, hrole, hgt⟩
          · rw [(acts_place (publishActs_acts hacts)).2.1] at h1
            exact hdef.2 hact h1)
      refine ⟨.trans hacts hfollow, fun s' hs' => ?_⟩
      exact (hspec s' hs').imp (fun h => (hlog₁.trans hlog₂).trans h) id

/-! ### Publishing prepares -/

end Replica

namespace Core

variable {c c' : Core} {op : ℕ} {e : LogEntry}

theorem isDurablePrepare_iff (hget : c.journalGet op = some e) : c.isDurablePrepare op = true ↔
    c.durablePrepareOp (journalSlot op) = op ∧
      c.durablePrepareChecksum (journalSlot op) = e.checksum := by
  simp [isDurablePrepare, hget]

theorem markDurable_isDurable {through : ℕ} (hpos : 0 < op) (hle : op ≤ through)
    (hget : c.journalGet op = some e) : (c.markDurable through).isDurablePrepare op = true := by
  obtain ⟨-, hj, hop⟩ := journalGet_eq_some.mp hget
  rw [isDurablePrepare_iff (c := c.markDurable through) hget]
  have hmarks : ((opsAbove 0 through).any fun op' =>
      journalSlot op' == journalSlot op && c.journalHas op') = true := by
    rw [List.any_eq_true]
    exact ⟨op, mem_opsAbove.mpr ⟨hpos, hle⟩, by simp [journalHas, hget]⟩
  simp only [markDurable, hj, hmarks, if_true]
  exact ⟨hop, trivial⟩

variable (hash inp allow) in
theorem publishPrepare_acts (hget : c.journalGet op = some e)
    (hdur : c.pendingPrepareBroadcast (journalSlot op) = true → c.isDurablePrepare op = true) :
    ReflTransGen (PublishAct hash inp allow) c (c.publishPrepare op e) ∧
      c.publishPrepare op e = { c with
        history := (c.publishPrepare op e).history
        prepareOkFrom := (c.publishPrepare op e).prepareOkFrom
        prepareOkCounts := (c.publishPrepare op e).prepareOkCounts
        pendingPrepareBroadcast := (c.publishPrepare op e).pendingPrepareBroadcast } ∧
      ∀ i, (c.publishPrepare op e).pendingPrepareBroadcast i = true →
        c.pendingPrepareBroadcast i = true := by
  unfold publishPrepare
  dsimp only
  split
  · next hflag =>
    obtain ⟨hacts, hframe⟩ := sendToAllOthers_acts hash inp allow (c := c) (m := c.prepareFor op e)
      (fun _ _ => .broadcast hget hflag (hdur hflag))
    refine ⟨.tail (ReflTransGen.mono (fun _ _ => PublishAct.view) _ _ hacts) ⟨?_, rfl, rfl⟩,
      ?_, ?_⟩
    · rw [hframe]
      exact .selfVote (journalHas_iff.mpr ⟨e, hget⟩) hflag (hdur hflag)
    · rw [hframe]
      rfl
    · intro i hi
      rw [hframe] at hi
      exact upd_false hi
  · exact ⟨.refl, rfl, fun _ h => h⟩

variable (hash inp allow) in
theorem publishPrepareOk_acts (hs : Sane hash c) (hget : c.journalGet op = some e)
    (hdur : c.pendingPrepareOk (journalSlot op) = true → c.isDurablePrepare op = true)
    (h : c.publishPrepareOk op e = some c') :
    ReflTransGen (PublishAct hash inp allow) c c' ∧
      c' = { c with history := c'.history, pendingPrepareOk := c'.pendingPrepareOk } ∧
      ∀ i, c'.pendingPrepareOk i = true → c.pendingPrepareOk i = true := by
  unfold publishPrepareOk at h
  dsimp only at h
  split at h
  · next hflag =>
    obtain ⟨m, hm, rfl⟩ := Option.map_eq_some_iff.mp h
    refine ⟨.head (.view (.send (.ack hget hflag (hdur hflag) hm)
      (.inr (.inl (hs.owed _ hflag))))) (.single ⟨.paid, rfl, rfl⟩), rfl, fun _ => upd_false⟩
  · cases h
    exact ⟨.refl, rfl, fun _ h => h⟩

end Core

namespace Replica

variable {s : Replica}

/-- What is owed for an op is durable. -/
def OwesDurable (c : Core) (op : ℕ) : Prop :=
  ∀ e, c.journalGet op = some e → (c.pendingPrepareBroadcast (journalSlot op) = true ∨
    c.pendingPrepareOk (journalSlot op) = true) → c.isDurablePrepare op = true

variable (hash inp allow) in
theorem publishPrepares_reaches : ∀ (ops : List ℕ) {s : Replica}, Sane hash s.toCore →
    (∀ op ∈ ops, OwesDurable s.toCore op) →
      Reaches (PublishAct hash inp allow) s.toCore (publishPrepares ops s) ∧
      ∀ s', publishPrepares ops s = .ok s' →
        SameLog s.toCore s'.toCore ∧ s'.pendingStartView = s.pendingStartView ∧
          s'.status = s.status
  | [], s, _, _ => ⟨.ok rfl, fun s' hs' => by cases hs'; exact ⟨.refl _, rfl, rfl⟩⟩
  | op :: rest, s, hs, hdur => by
    unfold publishPrepares
    have hrest : ∀ op' ∈ rest, OwesDurable s.toCore op' := fun op' h => hdur op' (by simp [h])
    split
    · exact publishPrepares_reaches _ hs hrest
    · next e he =>
      have hop := hdur op (by simp) e he
      obtain ⟨hacts, hframe, hflags⟩ := publishPrepare_acts hash inp allow he
        (fun h => hop (.inl h))
      split
      · exact ⟨.trans hacts (.error rfl), fun _ h => by cases h⟩
      · next c₂ hc₂ =>
        have hget₁ : (s.publishPrepare op e).journalGet op = some e := by
          rw [hframe]
          exact he
        have hdur₁ : (s.publishPrepare op e).pendingPrepareOk (journalSlot op) = true →
            (s.publishPrepare op e).isDurablePrepare op = true := by
          rw [hframe]
          exact fun h => hop (.inr h)
        have hs₁ := acts_sane (publishActs_acts hacts) hs
        obtain ⟨hacts₂, hframe₂, hflags₂⟩ :=
          publishPrepareOk_acts hash inp allow hs₁ hget₁ hdur₁ hc₂
        have hlog : SameLog s.toCore c₂ := by
          rw [hframe₂, hframe]
          exact ⟨rfl, rfl, rfl, rfl, rfl, rfl⟩
        have hpend : c₂.pendingStartView = s.pendingStartView := by
          rw [hframe₂, hframe]
        have hst : c₂.status = s.status := by
          rw [hframe₂, hframe]
        have hok : ∀ i, c₂.pendingPrepareOk i = true → s.pendingPrepareOk i = true := by
          intro i hi
          have := hflags₂ i hi
          rw [hframe] at this
          exact this
        have hbc : ∀ i, c₂.pendingPrepareBroadcast i = true →
            s.pendingPrepareBroadcast i = true := by
          intro i hi
          rw [hframe₂] at hi
          exact hflags i hi
        obtain ⟨hreach, hspec⟩ := publishPrepares_reaches rest (s := { s with toCore := c₂ })
          (acts_sane (publishActs_acts hacts₂) hs₁) (fun op' hop' e' he' hflag => by
            rw [hlog.isDurablePrepare]
            exact hrest op' hop' e' (hlog.journalGet ▸ he')
              (hflag.imp (hbc _) (hok _)))
        refine ⟨.trans hacts (.trans hacts₂ hreach), fun s' hs' => ?_⟩
        obtain ⟨hlog', hpend', hst'⟩ := hspec s' hs'
        exact ⟨hlog.trans hlog', hpend'.trans hpend, hst'.trans hst⟩

/-! ### Barriers -/

/-- What holds right after a barrier. -/
structure Flushed (hash : Hash) (c : Core) : Prop where
  sane : Sane hash c
  clean : c.Clean
  op : c.DiskOp
  current : c.DiskCurrent
  up : c.storageFailed = false

variable (hash inp allow) in
theorem publishOwed_works {through : ℕ} (hs : Sane hash s.toCore) (hup : s.storageFailed = false)
    (howes : ∀ op ∈ opsAbove 0 through, OwesDurable s.toCore op)
    (hguard : s.toCore.Reopened ∨ (s.toCore.Clean ∧ s.toCore.DiskOp)) :
    Works hash (PublishAct hash inp allow) s (s.publishOwed through) ∧
      ∀ s', s.publishOwed through = .ok s' → s'.pendingStartView = s.pendingStartView := by
  obtain ⟨hprep, hprepSpec⟩ := publishPrepares_reaches hash inp allow _ hs howes
  -- the end of the call publishes replies only from settled metadata
  have hend : ∀ s₄ : Replica, s₄.storageFailed = false →
      Works hash (PublishAct hash inp allow) s₄
        (if s₄.metadataDirty then .ok s₄ else s₄.publishCommitEffects) ∧
      ∀ s', (if s₄.metadataDirty then Except.ok s₄ else s₄.publishCommitEffects) = .ok s' →
        s'.pendingStartView = s₄.pendingStartView := by
    intro s₄ hup₄
    by_cases hmeta : s₄.metadataDirty = true
    · rw [if_pos hmeta]
      exact ⟨.ok, fun s' hs' => by cases hs'; rfl⟩
    · rw [if_neg hmeta]
      exact publishCommitEffects_works ⟨by simpa using hmeta, hup₄⟩
  unfold publishOwed
  have haside := publishPrepares_within .workers (opsAbove 0 through) s
  cases h₂ : publishPrepares (opsAbove 0 through) s with
  | error s₂ =>
    rw [h₂] at hprep haside
    exact ⟨.quiet hprep haside, fun _ h => by cases h⟩
  | ok s₂ =>
    rw [h₂] at hprep haside
    obtain ⟨hlog, hpend, hst⟩ := hprepSpec s₂ h₂
    let s₃ : Replica := s₂.core (fun c => { c with
      durablePrepareOp := (c.markDurable through).durablePrepareOp
      durablePrepareChecksum := (c.markDurable through).durablePrepareChecksum })
    have hguard₂ : (s₂.pendingStartView.active = true ∧ s₂.status = .viewChange) ∨
        (s₂.toCore.Clean ∧ s₂.toCore.DiskOp) := by
      rw [hpend, hst]
      refine hguard.imp (fun h => h.1) (fun h => ⟨fun i => ?_, fun d hd => ?_⟩)
      · rw [hlog.dirty]
        exact h.1 i
      · rw [hlog.opNumber]
        exact h.2 d (hlog.disk ▸ hd)
    have hmark : PublishAct hash inp allow s₂.toCore s₃.toCore :=
      ⟨@Act.mark _ _ _ _ through s₂.durablePrepareThrough hguard₂, rfl, rfl⟩
    have hacts₃ : ReflTransGen (PublishAct hash inp allow) s.toCore s₃.toCore := .tail hprep hmark
    have hsteps₃ : s.Steps hash (PublishAct hash inp allow) s₃ := .protocol hacts₃ haside
    have hup₃ : s₃.storageFailed = false := (publishActs_still hacts₃).2.trans hup
    show Works _ _ _ (if s₃.isLeader && s₃.status == .normal then s₃.advanceCommit.bind _
      else _) ∧ ∀ s', (if s₃.isLeader && s₃.status == .normal then s₃.advanceCommit.bind _
      else _) = _ → _
    by_cases hlead : (s₃.isLeader && s₃.status == .normal) = true
    · rw [if_pos hlead]
      rw [Bool.and_eq_true, beq_iff_eq] at hlead
      have hadv : Reaches (CommitAct inp) s₃.toCore s₃.advanceCommit :=
        advanceCommit_reaches hlead.2 hlead.1
      have hworks₄ : Works hash (PublishAct hash inp allow) s₃ s₃.advanceCommit :=
        .quiet (hadv.mono .commit) (advanceCommit_within .workers)
      cases h₄ : s₃.advanceCommit with
      | error s₄ =>
        rw [h₄] at hworks₄
        exact ⟨.after hsteps₃ hworks₄, fun _ h => by cases h⟩
      | ok s₄ =>
        rw [h₄] at hadv hworks₄
        have hframe := commitActs_frame hadv
        have hup₄ : s₄.storageFailed = false := by
          rw [hframe]
          exact hup₃
        have hpend₄ : s₄.pendingStartView = s.pendingStartView := by
          rw [hframe]
          exact hpend
        exact ⟨.after hsteps₃ (.after hworks₄ (hend s₄ hup₄).1),
          fun s' hs' => ((hend s₄ hup₄).2 s' hs').trans hpend₄⟩
    · rw [if_neg hlead]
      exact ⟨.after hsteps₃ (hend s₃ hup₃).1,
        fun s' hs' => ((hend s₃ hup₃).2 s' hs').trans hpend⟩

theorem publishOwed_after (hq : inp.Silent) {through : ℕ} {s₁ : Replica}
    (h : Flushed hash s.toCore) (hdef : MayDefer allow s.toCore)
    (h₁ : (s.core (fun c => c.markDurable through)).publishPendingStartViewAfterBarrier hash env =
      .ok s₁) :
    s.Steps hash (PublishAct hash inp allow) s₁ ∧
      Works hash (PublishAct hash inp allow) s₁ (s₁.publishOwed through) ∧
      ∀ s', s₁.publishOwed through = .ok s' → s'.pendingStartView = s₁.pendingStartView := by
  let s₀ : Replica := s.core (fun c => c.markDurable through)
  have hmark : PublishAct hash inp allow s.toCore s₀.toCore :=
    ⟨.mark (.inr ⟨h.clean, h.op⟩), rfl, rfl⟩
  obtain ⟨hview, hviewSpec⟩ := publishPendingStartView_reaches hash env allow hq (s := s₀)
    (hmark.1.sane h.sane) (fun _ => ⟨h.clean, h.current⟩) hdef
  have haside := publishPendingStartView_within .workers hash env s₀
  rw [h₁] at hview haside
  have hlog₁ := hviewSpec s₁ h₁
  have hacts₁ : ReflTransGen (PublishAct hash inp allow) s.toCore s₁.toCore := .head hmark hview
  have hup₁ : s₁.storageFailed = false := (publishActs_still hacts₁).2.trans h.up
  have howes : ∀ op ∈ opsAbove 0 through, OwesDurable s₁.toCore op := by
    intro op hop e he hflag
    obtain ⟨hpos, hle⟩ := mem_opsAbove.mp hop
    rcases hlog₁ with hlog | ⟨-, hquiet⟩
    · rw [hlog.isDurablePrepare]
      exact markDurable_isDurable hpos hle (hlog.journalGet ▸ he)
    · exact absurd ⟨_, journalSlot_lt _, hflag⟩ hquiet
  have hguard : s₁.toCore.Reopened ∨ (s₁.toCore.Clean ∧ s₁.toCore.DiskOp) := by
    rcases hlog₁ with hlog | hact
    · refine .inr ⟨fun i => ?_, fun d hd => ?_⟩
      · rw [hlog.dirty]
        exact h.clean i
      · rw [hlog.opNumber]
        exact h.op d (hlog.disk ▸ hd)
    · exact .inl hact
  exact ⟨.protocol hacts₁ haside, publishOwed_works hash inp allow
    (acts_sane (publishActs_acts hacts₁) h.sane) hup₁ howes hguard⟩

variable (env allow) in
theorem publishPendingAfterBarrier_works (hq : inp.Silent) (through : ℕ)
    (h : Flushed hash s.toCore) (hdef : MayDefer allow s.toCore) :
    Works hash (PublishAct hash inp allow) s (s.publishPendingAfterBarrier hash env through) ∧
      (s.pendingStartView.active = false → ∀ s',
        s.publishPendingAfterBarrier hash env through = .ok s' →
          s'.pendingStartView.active = false ∧ s'.storageFailed = false) := by
  let s₀ : Replica := s.core (fun c => c.markDurable through)
  show Works _ _ _ ((s₀.publishPendingStartViewAfterBarrier hash env).bind _) ∧ (_ → ∀ s',
    (s₀.publishPendingStartViewAfterBarrier hash env).bind _ = _ → _)
  cases h₁ : s₀.publishPendingStartViewAfterBarrier hash env with
  | error s₁ =>
    have hmark : PublishAct hash inp allow s.toCore s₀.toCore :=
      ⟨.mark (.inr ⟨h.clean, h.op⟩), rfl, rfl⟩
    have hview := (publishPendingStartView_reaches hash env allow hq (s := s₀)
      (hmark.1.sane h.sane) (fun _ => ⟨h.clean, h.current⟩) hdef).1
    have haside := publishPendingStartView_within .workers hash env s₀
    rw [h₁] at hview haside
    exact ⟨.quiet (.head hmark hview) haside, fun _ _ h => by cases h⟩
  | ok s₁ =>
    obtain ⟨hsteps₁, howed, howedSpec⟩ := publishOwed_after hq h hdef h₁
    refine ⟨.after hsteps₁ howed, fun hact s' hs' => ?_⟩
    have hs₁ : s₁ = s₀ := by
      unfold publishPendingStartViewAfterBarrier at h₁
      rw [if_pos (by simp only [Bool.not_eq_true']; exact hact)] at h₁
      exact (Except.ok.inj h₁).symm
    have hs'' : s₁.publishOwed through = .ok s' := hs'
    have hstill : s.Steps hash (PublishAct hash inp allow) s' := by
      rw [hs''] at howed
      exact ReflTransGen.trans hsteps₁ howed
    refine ⟨?_, (publishActs_still hstill.acts).2.trans h.up⟩
    rw [howedSpec s' hs'', hs₁]
    exact hact

theorem clean_of_not_dirty (hs : Sane hash s.toCore) (h : s.anyJournalDirty = false) :
    s.toCore.Clean := by
  intro i
  by_contra hd
  rw [Bool.not_eq_false] at hd
  have hany : s.anyJournalDirty = true :=
    List.any_eq_true.mpr ⟨i, mem_slots.mpr (hs.dirty i hd), hd⟩
  rw [h] at hany
  cases hany

theorem metadataToPersist_op {c : Core} (h : c.pendingStartViewChainOk hash = true) :
    c.metadataToPersist.opNumber = c.opNumber := by
  unfold metadataToPersist
  split
  · next hact => exact (pendingOk hact h).op.symm
  · rfl

theorem metadataForPersistence_eq {c : Core} {m : DiskMetadata}
    (h : c.metadataForPersistence hash = some m) :
    c.pendingStartViewChainOk hash = true ∧ m = c.metadataToPersist := by
  unfold metadataForPersistence at h
  split at h
  · next hchain => exact ⟨hchain, (Option.some.inj h).symm⟩
  · cases h

theorem stage_fields {d d₁ : Disk} {dirty : ℕ → Bool} {journal : ℕ → Option LogEntry}
    (h : d.stage dirty journal slots = some d₁) :
    d₁.durable = d.durable ∧ d₁.metadata = d.metadata := by
  obtain ⟨rest, rfl⟩ := Disk.stage_spec h
  exact ⟨rfl, rfl⟩

theorem writeMetadata_fields {d d₁ : Disk} {m : DiskMetadata} (h : d.writeMetadata m = some d₁) :
    d₁.durable = d.durable ∧ d₁.metadata = d.metadata := by
  obtain ⟨d₀, hc, rfl⟩ := Option.map_eq_some_iff.mp h
  obtain ⟨rest, rfl⟩ := Disk.call_spec hc
  exact ⟨rfl, rfl⟩

theorem afterSync_flushed {d : Disk} (hs : Sane hash s.toCore) (hup : s.storageFailed = false)
    (hchain : s.pendingStartViewChainOk hash = true)
    (hd : d.metadataEquals s.metadataToPersist = true) :
    Flushed hash (s.afterSync d) := by
  have hmeta : d.metadata = some s.metadataToPersist := by
    simpa [Disk.metadataEquals] using hd
  refine ⟨{ hs with dirty := fun i h => by cases h }, fun i => rfl, ?_, ?_, hup⟩
  · intro d' hd'
    cases hd'
    exact ⟨_, hmeta, metadataToPersist_op hchain⟩
  · intro d' hd'
    cases hd'
    exact hmeta

variable (allow) in
theorem syncPendingStartView_reaches (hflush : inp.mayFlush = true) {d : Disk}
    (hs : Sane hash s.toCore) (hup : s.storageFailed = false) (hdisk : s.disk = some d) :
    match s.syncPendingStartView hash d with
    | .error s' => Reaches (Act hash inp allow) s.toCore (.error s')
    | .ok (ok, s') => ReflTransGen (Act hash inp allow) s.toCore s'.toCore ∧
        (ok = true → Flushed hash s'.toCore ∧ s'.pendingStartView = s.pendingStartView ∧
          s'.deferredViewTarget = s.deferredViewTarget) := by
  unfold syncPendingStartView
  cases hm : s.metadataForPersistence hash with
  | none => exact .error rfl
  | some m =>
    obtain ⟨hchain, rfl⟩ := metadataForPersistence_eq hm
    dsimp only
    by_cases hhigh : s.metadataToPersist.opNumber = s.logHighOp
    swap
    · rw [if_pos hhigh]
      exact .error rfl
    rw [if_neg (not_not.mpr hhigh)]
    cases hst : d.stage s.journalDirty s.journal slots with
    | none => exact ⟨.single (.fail hdisk rfl rfl hflush), fun h => by cases h⟩
    | some d₁ =>
      obtain ⟨hdur₁, hmeta₁⟩ := stage_fields hst
      dsimp only
      cases hw : d₁.writeMetadata s.metadataToPersist with
      | none => exact ⟨.single (.fail hdisk hdur₁ hmeta₁ hflush), fun h => by cases h⟩
      | some d₂ =>
        obtain ⟨hdur₂, hmeta₂⟩ := writeMetadata_fields hw
        dsimp only
        cases hsync : d₂.sync with
        | none =>
          exact ⟨.single (.fail hdisk (hdur₂.trans hdur₁) (hmeta₂.trans hmeta₁) hflush),
            fun h => by cases h⟩
        | some d₃ =>
          have hact : Act hash inp allow s.toCore (s.afterSync d₃) :=
            .sync ⟨⟨d, d₁, d₂, hdisk, hst, hw, hsync⟩, hchain, hup⟩ hflush
          dsimp only
          by_cases heq : d₃.metadataEquals s.metadataToPersist = true
          · rw [if_pos heq]
            exact ⟨.single hact, fun _ => ⟨afterSync_flushed hs hup hchain heq, rfl, rfl⟩⟩
          · rw [if_neg heq]
            exact .head hact (.error rfl)

theorem flushBarrier_works (hflush : inp.mayFlush = true) {d : Disk} {again : Replica → Outcome}
    (hs : Sane hash s.toCore)
    (hup : s.storageFailed = false) (hdisk : s.disk = some d)
    (hact : s.pendingStartView.active = false)
    (hagain : ∀ s' : Replica, Sane hash s'.toCore → s'.storageFailed = false →
      s'.pendingStartView.active = false → Works hash (Act hash inp allow) s' (again s')) :
    Works hash (Act hash inp allow) s (s.flushBarrier hash env again d) := by
  have hq := Input.Silent.of_mayFlush hflush
  have hnodef : ∀ c : Core, c.pendingStartView = s.pendingStartView → MayDefer allow c := by
    intro c hc
    have hidle : ¬ c.pendingStartView.active = true := by rw [hc, hact]; decide
    exact ⟨fun h => absurd h.1 hidle, fun h => absurd h hidle⟩
  unfold flushBarrier
  dsimp only
  cases hst : d.stage s.journalDirty s.journal slots with
  | none => exact .quiet (.single (.fail hdisk rfl rfl hflush)) rfl
  | some d₁ =>
    obtain ⟨hdur₁, hmeta₁⟩ := stage_fields hst
    dsimp only
    cases hm : s.metadataForPersistence hash with
    | none => exact .error
    | some m =>
      obtain ⟨hchain, rfl⟩ := metadataForPersistence_eq hm
      dsimp only
      refine .ite (fun hneed => ?_) (fun _ => ?_)
      · -- nothing changed since the last barrier
        simp only [Bool.not_eq_true', Bool.or_eq_false_iff, Bool.not_eq_false'] at hneed
        obtain ⟨⟨-, hany⟩, heq⟩ := hneed
        have hmeta : d.metadata = some s.metadataToPersist := by
          rw [← hmeta₁]
          simpa [Disk.metadataEquals] using heq
        refine ((publishPendingAfterBarrier_works _ _ hq _
          ⟨hs, clean_of_not_dirty hs hany, ?_, ?_, hup⟩
          (hnodef _ rfl)).1).mono (fun h => h.1)
        · intro d' hd'
          rw [hdisk] at hd'
          cases hd'
          exact ⟨_, hmeta, metadataToPersist_op hchain⟩
        · intro d' hd'
          rw [hdisk] at hd'
          cases hd'
          exact hmeta
      · cases hw : d₁.writeMetadata s.metadataToPersist with
        | none => exact .quiet (.single (.fail hdisk hdur₁ hmeta₁ hflush)) rfl
        | some d₂ =>
          obtain ⟨hdur₂, hmeta₂⟩ := writeMetadata_fields hw
          dsimp only
          cases hsync : d₂.sync with
          | none =>
            exact .quiet (.single (.fail hdisk (hdur₂.trans hdur₁) (hmeta₂.trans hmeta₁) hflush)) rfl
          | some d₃ =>
            have hsyncAct : Act hash inp allow s.toCore (s.afterSync d₃) :=
              .sync ⟨⟨d, d₁, d₂, hdisk, hst, hw, hsync⟩, hchain, hup⟩ hflush
            dsimp only
            refine .head (s.core (fun c => c.afterSync d₃)) hsyncAct rfl
              (.ite (fun _ => .error) (fun heq => ?_))
            have hflushed := afterSync_flushed hs hup hchain (by simpa using heq)
            obtain ⟨hpub, hpubSpec⟩ := publishPendingAfterBarrier_works env _ hq
              s.metadataToPersist.opNumber (s := s.core (fun c => c.afterSync d₃))
              hflushed (hnodef _ rfl)
            show Works _ _ _ (Except.bind _ _)
            refine (hpub.mono (fun h => h.1)).bind (fun s' hs' hsteps => ?_)
            obtain ⟨hact', hup'⟩ := hpubSpec hact s' hs'
            exact .ite (fun _ => .ok)
              (fun _ => hagain s' (acts_sane hsteps.acts hflushed.sane) hup' hact')

theorem flushBarriers_works (hflush : inp.mayFlush = true) :
    ∀ {barriers : ℕ} {s : Replica}, Sane hash s.toCore → s.storageFailed = false →
      s.pendingStartView.active = false →
      Works hash (Act hash inp allow) s (flushBarriers hash env barriers s)
  | 0, s, _, _, _ => .quiet (.assert rfl) (Blind.workers.tolerates.assert _)
  | barriers + 1, s, hs, hup, hact => by
    unfold flushBarriers
    split
    · exact .ok
    · next d hd =>
      exact flushBarrier_works hflush hs hup hd hact
        (fun s' hs' hup' hact' => flushBarriers_works hflush hs' hup' hact')

theorem flushVolatile_works (hq : inp.Silent) (hs : Sane hash s.toCore) (hdisk : s.disk = none)
    (hup : s.storageFailed = false) (hdef : MayDefer allow s.toCore) :
    Works hash (Act hash inp allow) s (s.flushVolatile hash env) := by
  have hvol : Act hash inp allow s.toCore
      { s.toCore with journalDirty := fun _ => false, metadataDirty := false } :=
    .volatile hdisk hup
  have hflushed : Flushed hash
      { s.toCore with journalDirty := fun _ => false, metadataDirty := false } :=
    ⟨hvol.sane hs, fun i => rfl, fun d hd => absurd (hdisk.symm.trans hd) (by simp),
      fun d hd => absurd (hdisk.symm.trans hd) (by simp), hup⟩
  refine .head ({ s with journalDirty := fun _ => false, metadataDirty := false }) hvol rfl ?_
  have hpub := (publishPendingAfterBarrier_works env allow hq
    (if s.pendingStartView.active = true then s.pendingStartView.opNumber else s.opNumber)
      (s := { s with journalDirty := fun _ => false, metadataDirty := false }) hflushed hdef).1
  show Works _ _ _ (Except.bind _ _)
  refine (hpub.mono (fun h => h.1)).bind (fun s' hs' _ => ?_)
  rw [hs'] at hpub
  obtain ⟨hd', hup'⟩ := publishActs_still (Steps.acts hpub)
  refine .head ({ s' with metadataDirty := false }) (.settled (hd'.trans hdisk)) rfl ?_
  exact ((publishCommitEffects_works (s := { s' with metadataDirty := false })
    ⟨rfl, hup'.trans hup⟩).1).mono (fun h => h.1)

theorem flushDurableState_works (hflush : inp.mayFlush = true) (hs : Sane hash s.toCore)
    (hdef : MayDefer allow s.toCore) :
    Works hash (Act hash inp allow) s (s.flushDurableState hash env) := by
  have hq := Input.Silent.of_mayFlush hflush
  refine .ite (fun _ => .ok) fun hup => ?_
  rw [Bool.not_eq_true] at hup
  split
  · next hd => exact flushVolatile_works hq hs hd hup hdef
  · next d hd =>
    refine .ite (fun hact => ?_) (fun hact => flushBarriers_works hflush hs hup
      (by simpa using hact))
    have hsync := syncPendingStartView_reaches allow hflush hs hup hd
    have haside := syncPendingStartView_outward hash s d
    dsimp only
    split
    · next s' h =>
      rw [h] at hsync haside
      exact .quiet hsync (congrArg Prod.fst haside)
    · next s' h =>
      rw [h] at hsync haside
      exact .quiet hsync.1 (congrArg Prod.fst haside)
    · next s' h =>
      rw [h] at hsync haside
      obtain ⟨hacts, hspec⟩ := hsync
      obtain ⟨hflushed, hpend, hdefer⟩ := hspec rfl
      have hdef' : MayDefer allow s'.toCore := by
        unfold MayDefer DeferredHazard
        rw [hpend, hdefer, (acts_place hacts).2.1]
        exact hdef
      exact .after (.protocol hacts (congrArg Prod.fst haside))
        ((publishPendingAfterBarrier_works _ _ hq _ hflushed hdef').1.mono (fun h => h.1))

end Replica

end Hivemind
