import Hivemind.Sane
import Hivemind.Reach

/-! View changes as sequences of transitions: collecting and installing a selected log,
counting votes and reports, and starting the next view when a selection is given up. -/
namespace Hivemind

open Relation Core

variable {hash : Hash} {env : Env} {inp : Input} {allow : Hazard → Prop}

/-- A replica that may still give up its selection and start the next view. -/
structure Core.MayAbort (hash : Hash) (allow : Hazard → Prop) (c : Core) : Prop where
  sane : Sane hash c
  idle : c.pendingStartView.active = false
  leave : c.status = .viewChange → c.MayLeave allow

namespace Core

variable {c c₁ : Core}

theorem Placed.halted (h : Placed hash c c₁) : c.Halted c₁ := by
  cases h with
  | installed =>
    rw [installCandidate, installEntries_frame]
    exact ⟨rfl, rfl, rfl, rfl, rfl, rfl, .inr rfl⟩
  | truncated => exact ⟨rfl, rfl, rfl, rfl, rfl, rfl, .inr rfl⟩
  | kept => exact .refl c

theorem Halted.openView (h : c.Halted c₁) : c.Halted c₁.openView := by
  unfold Core.openView
  split
  · exact { h with }
  · exact { h with }

/-! ### Sending to everyone -/

theorem sendToAll_acts {m : Message} (helects : m.elects = true)
    (h : ∀ (hist : List Record) (dst : ℕ), MaySend hash inp { c with history := hist } dst m) :
    ReflTransGen (ViewAct hash inp allow) c (c.sendToAll m) ∧
      c.sendToAll m = { c with history := (c.sendToAll m).history } := by
  unfold sendToAll
  induction List.range c.replicaCount using List.reverseRecOn with
  | nil => exact ⟨.refl, rfl⟩
  | append_singleton l i ih =>
    rw [List.foldl_append, List.foldl_cons, List.foldl_nil]
    obtain ⟨hacts, heq⟩ := ih
    refine ⟨hacts.tail (.send ?_ (.inl helects)), by rw [heq]; rfl⟩
    rw [heq]
    exact h _ _

variable (hash inp allow) in
theorem sendToAllOthers_acts {m : Message}
    (h : ∀ (hist : List Record) (dst : ℕ), MaySend hash inp { c with history := hist } dst m) :
    ReflTransGen (ViewAct hash inp allow) c (c.sendToAllOthers m) ∧
      c.sendToAllOthers m = { c with history := (c.sendToAllOthers m).history } := by
  unfold sendToAllOthers
  induction List.range c.replicaCount using List.reverseRecOn with
  | nil => exact ⟨.refl, rfl⟩
  | append_singleton l i ih =>
    rw [List.foldl_append, List.foldl_cons, List.foldl_nil]
    obtain ⟨hacts, heq⟩ := ih
    split
    · exact ⟨hacts, heq⟩
    · next hne =>
      refine ⟨hacts.tail (.send ?_ (.inr (.inl hne))), by rw [heq]; rfl⟩
      rw [heq]
      exact h _ _

end Core

namespace Replica

variable {s s₁ : Replica} {c : Core}

/-! ### Installing the selected log -/

theorem openSelectedView_reaches (hsel : c.Selecting) (hp : Placed hash c s₁.toCore)
    (htip : s₁.selectedTipHeld = true)
    (hbound : ¬ (s₁.leadsTarget = true ∧ s₁.selectedCommitBound < s₁.commitMin))
    (hle : s₁.selectedCommitBound ≤ s₁.selectedTipOp) :
    Reaches (ViewAct hash inp allow) c (s₁.openSelectedView hash) := by
  unfold openSelectedView
  split
  · next hhigh => exact .single (.place hsel hp (fun hr => hhigh hr.high))
  · next hhigh =>
    split
    · exact ⟨c, .refl, hp.halted⟩
    · next hgap =>
      unfold Replica.assert
      dsimp only
      split
      · exact .single (.openView hsel hp
          ⟨htip, hbound, hle, by simpa using hgap, by simpa using hhigh⟩)
      · exact ⟨c, .refl, hp.halted.openView⟩

/-- The call for an empty suffix, which truncates first. -/
theorem startViewCandidateReady_reaches (hs : Sane hash s.toCore) (hsel : s.toCore.Selecting)
    (htip : s.selectedTipOp = s.commitMin) :
    Reaches (ViewAct hash inp allow) s.toCore (s.startViewCandidateReady hash) := by
  refine .guard fun _ => ?_
  refine .guard fun hheld => ?_
  refine .guard fun hbound => ?_
  refine .guard fun hle => ?_
  refine .guard fun hgap => ?_
  rw [Bool.not_eq_true, Bool.not_eq_false'] at hheld
  rw [Bool.not_eq_true] at hgap
  have hbound' : ¬ (s.leadsTarget = true ∧ s.selectedCommitBound < s.commitMin) := by
    simpa using hbound
  split
  · next hphase =>
    have hp : Placed hash s.toCore s.truncateToTip := .truncated hphase htip hheld hgap
    obtain ⟨parent, l, tip, hpl⟩ := hp.placement hs hsel
    exact @openSelectedView_reaches _ _ _ (s.core _) _ hsel hp (hpl.tipHeld hp) hbound'
      (show s.selectedCommitBound ≤ s.selectedTipOp by omega)
  · next hphase =>
    exact openSelectedView_reaches hsel (.kept hphase htip) hheld hbound' (by omega)
  · exact .error rfl

/-- The call right after the candidate was installed. -/
theorem startViewCandidateReady_installed {checksum : ℕ} (hs : Sane hash c) (hsel : c.Selecting)
    (hsum : c.checksumAt c.commitMin = some checksum)
    (hvalid : c.viewChangeCandidate.validate hash c.commitMin checksum = .ok ())
    (hs₁ : s₁.toCore = c.installCandidate) :
    Reaches (ViewAct hash inp allow) c (s₁.startViewCandidateReady hash) := by
  have hp : Placed hash c s₁.toCore := hs₁ ▸ .installed checksum hsum hvalid
  have hsel₁ := hp.selecting hsel
  have hphase : s₁.viewChangeCandidate.phase ≠ .idle := by
    rw [hp.frame]
    exact hs.validated_phase hvalid
  -- an early return leaves the journal placed but the view unopened
  have hstay : ¬ s₁.toCore.ReadyOk hash → Reaches (ViewAct hash inp allow) c (.ok s₁) :=
    fun hno => .single (.place hsel hp hno)
  unfold startViewCandidateReady
  split
  · next h => simp [hsel₁.selected, hsel₁.idle] at h
  split
  · next h => exact hstay (fun hr => by simp [hr.tip] at h)
  next hheld =>
  split
  · next h => exact hstay (fun hr => hr.bound (by simpa using h))
  next hbound =>
  split
  · next h => exact hstay (fun hr => absurd hr.le (by omega))
  next hle =>
  split
  · next h => exact hstay (fun hr => by simp [hr.chain] at h)
  split
  · next h => exact absurd h hphase
  · exact openSelectedView_reaches hsel hp (by simpa using hheld) (by simpa using hbound)
      (by omega)
  · exact ⟨c, .refl, hp.halted⟩

/-! ### Collecting the candidate -/

variable {abort : Replica → Outcome}

/-- The way a selection is given up is itself a sequence of transitions. -/
def AbortReaches (hash : Hash) (inp : Input) (allow : Hazard → Prop)
    (abort : Replica → Outcome) : Prop :=
  ∀ s : Replica, s.MayAbort hash allow → Reaches (ViewAct hash inp allow) s.toCore (abort s)

theorem installCompletedCandidate_reaches (habort : AbortReaches hash inp allow abort)
    (h : s.MayAbort hash allow) (hsel : s.toCore.Selecting) :
    Reaches (ViewAct hash inp allow) s.toCore (s.installCompletedCandidate hash abort) := by
  refine .guard fun _ => ?_
  refine .guard fun _ => ?_
  split
  · exact habort s h
  next checksum hsum =>
  split
  · exact habort s h
  next hvalid =>
  exact startViewCandidateReady_installed h.sane hsel hsum hvalid rfl

theorem collect_keeps {e : LogEntry} {cand : ViewChangeCandidate}
    (h : s.MayAbort hash allow) (hsel : s.toCore.Selecting)
    (hadd : s.viewChangeCandidate.add hash e = .ok cand) (hfrom : MayCollect inp s.toCore e) :
    MayAbort hash allow { s.toCore with viewChangeCandidate := cand } ∧
      Selecting { s.toCore with viewChangeCandidate := cand } :=
  ⟨{ h with sane := (@ViewAct.collect _ inp allow _ _ _ h.idle hadd hfrom).sane h.sane },
    { hsel with }⟩

theorem addSelectedEntry_reaches {e : LogEntry} {k : Replica → Outcome}
    (habort : AbortReaches hash inp allow abort) (h : s.MayAbort hash allow)
    (hsel : s.toCore.Selecting) (hfrom : MayCollect inp s.toCore e)
    (hk : ∀ s : Replica, s.MayAbort hash allow → s.toCore.Selecting →
      Reaches (ViewAct hash inp allow) s.toCore (k s)) :
    Reaches (ViewAct hash inp allow) s.toCore (s.addSelectedEntry hash abort e k) := by
  refine .guard fun _ => ?_
  refine .guard fun _ => ?_
  split
  · exact habort s h
  next cand hadd =>
  obtain ⟨h', hsel'⟩ := collect_keeps h hsel hadd hfrom
  exact .head (.collect h.idle hadd hfrom) (hk { s with viewChangeCandidate := cand } h' hsel')

theorem nextSource_ne {op i : ℕ} (h : s.nextSource op = some i) : i ≠ s.replicaId := by
  unfold nextSource at h
  dsimp only at h
  split at h
  · next hfind =>
    cases h
    have := List.find?_some hfind
    simp only [Bool.and_eq_true, bne_iff_ne] at this
    exact this.1.1
  · have := List.find?_some h
    simp only [Bool.and_eq_true, bne_iff_ne] at this
    exact this.1.1

theorem requestSelectedEntry_reaches {op expected : ℕ} (hs : Sane hash s.toCore)
    (hsel : s.toCore.Selecting)
    (hexp : s.toCore.expectedChecksum op = some expected) :
    Reaches (ViewAct hash inp allow) s.toCore (s.requestSelectedEntry op expected) := by
  unfold requestSelectedEntry
  split
  · exact .error rfl
  next hne =>
  split
  · next hleads =>
    have hleads' : s.leadsTarget = false := by simpa using hleads
    have hother : s.selectedSource ≠ s.replicaId := by
      rw [hs.source hsel.selected hleads']
      exact beq_eq_false_iff_ne.mp hleads'
    exact .single (.send (.fetch hsel hexp hne fun _ => rfl) (.inr (.inl hother)))
  next hleads =>
  split
  · exact .ok rfl
  · next i hi =>
    exact .single (.send (.fetch hsel hexp hne fun h => absurd h (by simpa using hleads))
      (.inr (.inl (nextSource_ne hi))))

theorem fillFromJournal_reaches {k : Replica → Outcome} (habort : AbortReaches hash inp allow abort)
    (hk : ∀ s : Replica, s.MayAbort hash allow → s.toCore.Selecting →
      Reaches (ViewAct hash inp allow) s.toCore (k s)) :
    ∀ {ops : List ℕ} {s : Replica}, s.MayAbort hash allow → s.toCore.Selecting →
      Reaches (ViewAct hash inp allow) s.toCore (fillFromJournal hash abort k ops s)
  | [], s, h, hsel => hk s h hsel
  | op :: rest, s, h, hsel => by
    unfold fillFromJournal
    split
    · exact fillFromJournal_reaches habort hk h hsel
    · split
      · exact hk s h hsel
      · next hget =>
        exact addSelectedEntry_reaches habort h hsel (.own hget)
          (fun s h hsel => fillFromJournal_reaches habort hk h hsel)

theorem aimAt_toCore (op expected : ℕ) : (s.aimAt op expected).toCore = s.toCore := by
  unfold aimAt
  split <;> rfl

theorem fetchMissing_reaches (habort : AbortReaches hash inp allow abort) :
    ∀ {ops : List ℕ} {s : Replica}, s.MayAbort hash allow → s.toCore.Selecting →
      Reaches (ViewAct hash inp allow) s.toCore (fetchMissing hash abort ops s)
  | [], s, _, _ => .ok rfl
  | op :: rest, s, h, hsel => by
    unfold fetchMissing
    split
    · exact fetchMissing_reaches habort h hsel
    split
    · exact fetchMissing_reaches habort h hsel
    next expected hexp =>
    have hexp : s.toCore.expectedChecksum op = some expected := hexp
    have haim := aimAt_toCore (s := s) op expected
    rw [← haim] at h hsel hexp ⊢
    dsimp only
    split
    · next hget =>
      refine addSelectedEntry_reaches habort h hsel
        (.own (Option.filter_eq_some_iff.mp hget).1) (fun s h hsel => ?_)
      split
      · exact installCompletedCandidate_reaches (s := s.forgetSources) habort h hsel
      · exact fetchMissing_reaches (s := s.forgetSources) habort h hsel
    · exact requestSelectedEntry_reaches h.sane hsel hexp

theorem completeOrFetch_reaches (habort : AbortReaches hash inp allow abort)
    (h : s.MayAbort hash allow) (hsel : s.toCore.Selecting) :
    Reaches (ViewAct hash inp allow) s.toCore (s.completeOrFetch hash abort) := by
  unfold completeOrFetch
  split
  · exact installCompletedCandidate_reaches habort h hsel
  · exact fetchMissing_reaches habort h hsel

theorem advanceSelectedView_reaches (habort : AbortReaches hash inp allow abort)
    (h : s.MayAbort hash allow) :
    Reaches (ViewAct hash inp allow) s.toCore (s.advanceSelectedView hash abort) := by
  refine .guard fun hselected => ?_
  refine .guard fun hst => ?_
  split
  · exact .single (.unselect h.idle)
  next hview =>
  have hsel : s.toCore.Selecting :=
    ⟨by simpa using hselected, h.idle, by simpa using hst, by simpa using hview⟩
  split
  · next htip => exact startViewCandidateReady_reaches h.sane hsel htip
  split
  · exact habort s h
  split
  · exact fillFromJournal_reaches habort
      (fun s h hsel => completeOrFetch_reaches habort h hsel) h hsel
  · exact completeOrFetch_reaches habort h hsel

variable (inp) in
theorem addAll_reaches : ∀ {entries : List LogEntry} {c : Core} {cand : ViewChangeCandidate},
    c.MayAbort hash allow →
    ViewChangeCandidate.addAll hash entries c.viewChangeCandidate = .ok cand →
    (∀ e ∈ entries, MayCollect inp c e) →
      ReflTransGen (ViewAct hash inp allow) c { c with viewChangeCandidate := cand } ∧
        MayAbort hash allow { c with viewChangeCandidate := cand }
  | [], c, cand, h, hadd, _ => by
    cases hadd
    exact ⟨.refl, h⟩
  | e :: rest, c, cand, h, hadd, hfrom => by
    have hrest : ∀ e ∈ rest, MayCollect inp c e := fun e he => hfrom e (by simp [he])
    unfold ViewChangeCandidate.addAll at hadd
    split at hadd
    · exact addAll_reaches h hadd hrest
    · split at hadd
      · cases hadd
      · next cand₁ hadd₁ =>
        have hact : ViewAct hash inp allow c { c with viewChangeCandidate := cand₁ } :=
          .collect h.idle hadd₁ (hfrom e (by simp))
        obtain ⟨hacts, h'⟩ := addAll_reaches (c := { c with viewChangeCandidate := cand₁ })
          { h with sane := hact.sane h.sane } hadd (fun e he => (hrest e he).candidate cand₁)
        exact ⟨.head hact hacts, h'⟩

theorem collectCandidate_reaches {entries : List LogEntry}
    (habort : AbortReaches hash inp allow abort) (h : s.MayAbort hash allow)
    (hselected : s.pendingViewSelection = true)
    (hfrom : ∀ e ∈ entries, MayCollect inp s.toCore e) :
    Reaches (ViewAct hash inp allow) s.toCore (s.collectCandidate hash env abort entries) := by
  unfold collectCandidate
  split
  · split
    · exact habort s h
    · next cand halloc =>
      have hact : ViewAct hash inp allow s.toCore { s.toCore with viewChangeCandidate := cand } :=
        .allocate hselected h.idle rfl rfl rfl rfl halloc
      have h₁ : MayAbort hash allow { s.toCore with viewChangeCandidate := cand } :=
        { h with sane := hact.sane h.sane }
      split
      · exact habort s h
      · next cand' hadd =>
        obtain ⟨hacts, h₂⟩ := addAll_reaches inp h₁ hadd
          (fun e he => (hfrom e he).candidate cand)
        exact .trans (.head hact hacts)
          (advanceSelectedView_reaches (s := { s with viewChangeCandidate := cand' }) habort h₂)
  · exact advanceSelectedView_reaches habort h

end Replica

/-! ### Votes and reports -/

namespace Core

variable {c : Core}

theorem le_maxDvcCommit {i : ℕ} (hi : i < c.replicaCount) (hr : c.doVcReceived i = true) :
    (c.doVcMsgs i).commitMin ≤ c.maxDvcCommit := by
  have key : ∀ (is : List ℕ) (m₀ : ℕ),
      m₀ ≤ is.foldl (fun m i => if c.doVcReceived i then max m (c.doVcMsgs i).commitMin else m) m₀ ∧
      ∀ i ∈ is, c.doVcReceived i = true → (c.doVcMsgs i).commitMin ≤
        is.foldl (fun m i => if c.doVcReceived i then max m (c.doVcMsgs i).commitMin else m) m₀ :=
          by
    intro is
    induction is with
    | nil => simp
    | cons j is ih =>
      intro m₀
      rw [List.foldl_cons]
      obtain ⟨h1, h2⟩ := ih (if c.doVcReceived j then max m₀ (c.doVcMsgs j).commitMin else m₀)
      refine ⟨le_trans ?_ h1, ?_⟩
      · split
        · exact le_max_left _ _
        · exact le_rfl
      · intro k hk hrk
        rcases List.mem_cons.mp hk with rfl | hk
        · rw [if_pos hrk] at h1 ⊢
          exact (le_max_right _ _).trans h1
        · exact h2 k hk hrk
  exact (key (List.range c.replicaCount) 0).2 i (List.mem_range.mpr hi) hr

theorem isLeader_lt (hcount : 0 < c.replicaCount) (hlead : c.isLeader = true) :
    c.replicaId < c.replicaCount := by
  rw [isLeader, beq_iff_eq] at hlead
  rw [← hlead]
  exact Nat.mod_lt _ hcount

end Core

namespace Replica

variable {s : Replica} {abort : Replica → Outcome}

theorem maybeStartView_reaches (habort : AbortReaches hash inp allow abort)
    (h : s.MayAbort hash allow) (hlead : s.isLeader = true)
    (hfresh : s.viewNumber ≤ s.lastNormalView → allow .reselect)
    (hown : s.quorumSize ≤ s.doVcTotal → s.maxDvcCommit < s.commitMin → allow .shrink) :
    Reaches (ViewAct hash inp allow) s.toCore (s.maybeStartView hash env abort) := by
  refine .guard fun hq => ?_
  split
  · exact advanceSelectedView_reaches habort h
  next hsel =>
  split
  · exact .ok rfl
  next dvc tip hchoose =>
  have hact : ViewAct hash inp allow s.toCore (s.select dvc.replicaId dvc.lastNormalView
      dvc.opNumber tip s.maxDvcCommit) :=
    .selectDvc (by simpa using hsel) h.idle hlead (by omega) hchoose hfresh (hown (by omega))
  obtain ⟨i, rfl⟩ := chooseDvc_recorded hchoose
  exact .head hact (collectCandidate_reaches (s := { s.core _ with selectedNextOp := _ }) habort
    { h with sane := hact.sane h.sane } rfl (fun e he => .report he))

theorem maybeDoViewChange_reaches (habort : AbortReaches hash inp allow abort)
    (h : s.MayAbort hash allow) (hwhy : s.status = .viewChange ∨ ∃ src m, inp = .message src m)
    (hfresh : s.viewChangeQuorum ≤ s.startVcTotal → s.isLeader = true →
      s.viewNumber ≤ s.lastNormalView → allow .reselect)
    (hown : s.viewChangeQuorum ≤ s.startVcTotal → s.isLeader = true →
      s.quorumSize ≤ (s.recordDvc s.dvcMessage).doVcTotal →
        (s.recordDvc s.dvcMessage).maxDvcCommit < s.commitMin → allow .shrink) :
    Reaches (ViewAct hash inp allow) s.toCore (s.maybeDoViewChange hash env abort) := by
  refine .guard fun hq => ?_
  split
  · exact .error rfl
  next dvc hbuild =>
  have hdvc : dvcTipSemanticsValid hash s.dvcMessage = true ∧ dvc = s.dvcMessage := by
    unfold buildDvc at hbuild
    split at hbuild
    · next hval => exact ⟨hval, (Option.some.inj hbuild).symm⟩
    · cases hbuild
  obtain ⟨hval, rfl⟩ := hdvc
  have hsend : ViewAct hash inp allow s.toCore
      (s.sendTo s.leader (.doViewChange s.dvcMessage)) :=
    .send (.report h.idle hval hwhy) (.inl rfl)
  dsimp only
  split
  · next hlead =>
    have hrec : ViewAct hash inp allow (s.sendTo s.leader (.doViewChange s.dvcMessage))
        ((s.sendTo s.leader (.doViewChange s.dvcMessage)).recordDvc s.dvcMessage) :=
      .recordOwn hlead h.idle hval
    refine .head hsend (.head hrec (maybeStartView_reaches (s := (s.core _).core _) habort
      { h with sane := hrec.sane (hsend.sane h.sane) } hlead ?_ ?_))
    · exact hfresh (by omega) hlead
    · exact hown (by omega) hlead
  · exact .single hsend

variable (hash inp allow) in
theorem announceView_acts {v : ℕ} (hst : s.status = .viewChange) (hv : s.viewNumber = v) :
    ReflTransGen (ViewAct hash inp allow) s.toCore (s.announceView v).toCore ∧
      (s.announceView v).toCore = { s.toCore with history := (s.announceView v).history } := by
  subst hv
  exact sendToAll_acts rfl (fun hist dst => .vote hst)

/-- The own report of a fresh view covers the own commit. -/
theorem own_report_covers {c : Core} (hcount : 0 < c.replicaCount)
    (hnone : c.doVcReceived = fun _ => false) (hlead : c.isLeader = true) :
    ¬ (c.recordDvc c.dvcMessage).maxDvcCommit < c.commitMin := by
  have hid : c.replicaId < c.replicaCount := isLeader_lt hcount hlead
  have hknown : c.doVcReceived c.dvcMessage.replicaId = false := by rw [hnone]
  have hr : (c.recordDvc c.dvcMessage).doVcReceived c.replicaId = true := by
    simp only [recordDvc, hknown]
    exact upd_self _ _ _
  have hle := le_maxDvcCommit (c := c.recordDvc c.dvcMessage) hid hr
  have hmsg : (c.recordDvc c.dvcMessage).doVcMsgs c.replicaId = c.dvcMessage := by
    simp only [recordDvc, hknown]
    exact upd_self _ _ _
  rw [hmsg] at hle
  exact not_lt.mpr hle

variable (inp) in
theorem enter_acts (s' : Replica) {v : ℕ} (hs : Sane hash s.toCore)
  (hval : viewNumberValid v = true)
    (hv : s.viewNumber < v) (hact : s.pendingStartView.active = false)
    (hleave : s.MayLeave allow) (hs' : s'.toCore = s.enterView v) :
    ReflTransGen (ViewAct hash inp allow) s.toCore (s'.announceView v).toCore ∧
      (s'.announceView v).MayAbort hash allow ∧
      (s'.announceView v).status = .viewChange ∧ (s'.announceView v).viewNumber = v ∧
      (s'.announceView v).lastNormalView = s.lastNormalView ∧
      (s'.announceView v).doVcReceived = fun _ => false := by
  have henter : ViewAct hash inp allow s.toCore s'.toCore := hs' ▸ .enter hv hval hact hleave
  obtain ⟨hacts, heq⟩ := announceView_acts hash inp allow (s := s') (v := v) (by rw [hs']; rfl)
    (by rw [hs']; rfl)
  rw [hs'] at heq
  refine ⟨.head henter hacts, ⟨viewActs_sane hacts (henter.sane hs), ?_, ?_⟩, ?_, ?_, ?_, ?_⟩
  · rw [heq]
    exact hact
  · rw [heq]
    exact fun _ => hleave
  all_goals rw [heq]; rfl

theorem initiateViewChangeTo_reaches {v : ℕ} (habort : AbortReaches hash inp allow abort)
    (hs : Sane hash s.toCore) (hleave : s.MayLeave allow) :
    Reaches (ViewAct hash inp allow) s.toCore (s.initiateViewChangeTo hash env abort v) := by
  refine .guard fun hval => ?_
  refine .guardError fun hguard => ?_
  simp only [Bool.or_eq_true, Bool.not_eq_true', decide_eq_false_iff_not, not_or, not_not,
    Bool.not_eq_true] at hguard
  obtain ⟨hacts, hmay, hst, hview, hlnv, hnone⟩ := enter_acts inp
    ((s.resetForView env v).dropCatchUp) hs (by simpa using hval) hguard.1 hguard.2 hleave rfl
  refine .trans hacts (maybeDoViewChange_reaches habort hmay (.inl hst) ?_ ?_)
  · intro _ _ hle
    have := hs.views
    omega
  · intro _ hlead _ hlt
    exact absurd hlt (own_report_covers hmay.sane.count hnone hlead)

theorem initiateViewChange_reaches (habort : AbortReaches hash inp allow abort)
    (hs : Sane hash s.toCore) (hleave : s.MayLeave allow) :
    Reaches (ViewAct hash inp allow) s.toCore (s.initiateViewChange hash env abort) := by
  unfold initiateViewChange
  split
  · exact .ok rfl
  · exact initiateViewChangeTo_reaches habort hs hleave

theorem abortSelectedViewAt_reaches :
    ∀ depth, AbortReaches hash inp allow (abortSelectedViewAt hash env depth)
  | 0, s, _ => .error rfl
  | depth + 1, s, h => by
    have hact : ViewAct hash inp allow s.toCore s.resetSelectedView.toCore := .unselect h.idle
    unfold abortSelectedViewAt
    dsimp only
    split
    · next hst =>
      exact .head hact (initiateViewChange_reaches (abortSelectedViewAt_reaches depth)
        (hact.sane h.sane) (h.leave hst))
    · exact .single hact

theorem abortSelectedView_reaches : AbortReaches hash inp allow (abortSelectedView hash env) :=
  abortSelectedViewAt_reaches abortDepthMax

/-! ### Handlers -/

theorem awaitStartView_reaches {v : ℕ} (hleave : s.MayLeave allow) :
    Reaches (ViewAct hash inp allow) s.toCore (s.awaitStartView env v) := by
  refine .guardError fun hguard => ?_
  simp only [Bool.or_eq_true, Bool.not_eq_true', decide_eq_false_iff_not, not_or, not_not,
    Bool.not_eq_true, Bool.not_eq_false] at hguard
  exact .single (.enter hguard.1.2 hguard.1.1 hguard.2 hleave)

theorem requestStartView_reaches {v : ℕ}
    (hdst : ∃ m, inp = .message (s.leaderForView v) m ∧ m.elects = false) :
    Reaches (ViewAct hash inp allow) s.toCore (s.requestStartView v) := by
  unfold requestStartView
  split
  · exact .error rfl
  · exact .single (.send (.ask rfl) (.inr (.inr hdst)))

theorem onRequestStartView_reaches {src v : ℕ}
    (hinp : inp = .message src (.requestStartView v)) (hact : s.pendingStartView.active = false) :
    ReflTransGen (ViewAct hash inp allow) s.toCore (s.onRequestStartView src v).toCore := by
  unfold onRequestStartView
  split
  · exact .refl
  next hst =>
  split
  · exact .refl
  next hlead =>
  split
  · exact .refl
  · exact .single (.send (.certify (by simpa using hst) (by simpa using hlead) hact)
      (.inr (.inr ⟨_, hinp, rfl⟩)))

theorem onStartViewChange_reaches {src : ℕ} {m : StartViewChangeMsg} (hs : Sane hash s.toCore)
    (hinp : inp = .message src (.startViewChange m)) (hact : s.pendingStartView.active = false)
    (hleave : s.status = .viewChange ∨ s.viewNumber < m.viewNumber → s.MayLeave allow)
    (hfresh : m.viewNumber = s.viewNumber → m.replicaId = src →
      s.viewChangeQuorum ≤ (s.countStartVc src).startVcTotal → s.isLeader = true →
        s.viewNumber ≤ s.lastNormalView → allow .reselect)
    (hown : m.viewNumber = s.viewNumber → m.replicaId = src →
      s.viewChangeQuorum ≤ (s.countStartVc src).startVcTotal → s.isLeader = true →
        s.quorumSize ≤ (s.recordDvc s.dvcMessage).doVcTotal →
          (s.recordDvc s.dvcMessage).maxDvcCommit < s.commitMin → allow .shrink) :
    Reaches (ViewAct hash inp allow) s.toCore (s.onStartViewChange hash env src m) := by
  refine .guard fun hval => ?_
  refine .guard fun hid => ?_
  refine .guard fun hge => ?_
  rw [not_not] at hid
  split
  · next hgt =>
    obtain ⟨hacts, hmay, hst, hview, hlnv, hnone⟩ := enter_acts inp
      (s.resetForView env m.viewNumber) hs
      (by simpa using hval) hgt hact
      (hleave (.inr hgt)) rfl
    refine .trans hacts (maybeDoViewChange_reaches
      (s := { countStartVc _ _ with lastLeaderActivity := _ }) abortSelectedView_reaches hmay
      (.inl hst) ?_ ?_)
    · intro _ _ hle
      have hlt : m.viewNumber ≤ s.lastNormalView := by
        rw [← hview, ← hlnv]
        exact hle
      have := hs.views
      omega
    · intro _ hlead _ hlt
      exact absurd hlt (own_report_covers hmay.sane.count hnone hlead)
  · next hle =>
    have hview : m.viewNumber = s.viewNumber := by omega
    exact maybeDoViewChange_reaches (s := { countStartVc _ _ with lastLeaderActivity := _ })
      abortSelectedView_reaches ⟨hs, hact, fun hst => hleave (.inl hst)⟩ (.inr ⟨_, _, hinp⟩)
      (fun hq => hfresh hview hid (hid ▸ hq)) (fun hq => hown hview hid (hid ▸ hq))

theorem onDoViewChange_reaches {src : ℕ} {m : DoViewChangeMsg} (hs : Sane hash s.toCore)
    (hinp : inp = .message src (.doViewChange m)) (hact : s.pendingStartView.active = false)
    (hleave : s.status = .viewChange → s.MayLeave allow)
    (hfresh : s.status = .viewChange → m.viewNumber = s.viewNumber → s.isLeader = true →
      s.viewNumber ≤ s.lastNormalView → allow .reselect)
    (hown : s.status = .viewChange → m.viewNumber = s.viewNumber → s.isLeader = true →
      m.replicaId = src → s.quorumSize ≤ (s.recordDvc m).doVcTotal →
        (s.recordDvc m).maxDvcCommit < s.commitMin → allow .shrink) :
    Reaches (ViewAct hash inp allow) s.toCore (s.onDoViewChange hash env src m) := by
  have hmay : s.MayAbort hash allow := ⟨hs, hact, hleave⟩
  refine .guard fun hok => ?_
  split
  · exact abortSelectedView_reaches s hmay
  simp only [dvcAcceptable, Bool.not_eq_true', Bool.not_eq_false, Bool.and_eq_true,
    beq_iff_eq] at hok
  obtain ⟨⟨⟨⟨⟨⟨⟨⟨-, hst⟩, hv⟩, hsrc⟩, hbounds⟩, -⟩, hentries⟩, htip⟩, hlead⟩ := hok
  have hrec : ViewAct hash inp allow s.toCore (s.recordDvc m) :=
    .recordPeer hinp hsrc hv hst hlead hact hbounds hentries htip
  exact .head hrec (maybeStartView_reaches (s := { s.core _ with lastLeaderActivity := _ })
    abortSelectedView_reaches { hmay with sane := hrec.sane hs } hlead (hfresh hst hv hlead)
    (hown hst hv hlead hsrc))

theorem adoptStartView_reaches {src : ℕ} {m : StartViewMsg} (h : s.MayAbort hash allow)
    (hinp : inp = .message src (.startView m)) (hsrc : src = s.leader)
    (hv : m.viewNumber = s.viewNumber) (hst : s.status = .viewChange)
    (hval : startViewEntriesValid hash m = true) (hle : s.commitMin ≤ m.opNumber)
    (hfresh : s.viewNumber ≤ s.lastNormalView → allow .readopt) :
    Reaches (ViewAct hash inp allow) s.toCore (s.adoptStartView hash env src m) := by
  have hreset : ViewAct hash inp allow s.toCore s.resetSelectedView.toCore := .unselect h.idle
  have hselect : ViewAct hash inp allow s.resetSelectedView.toCore
      (s.resetSelectedView.select src m.selectedLastNormalView m.opNumber m.tipChecksum
        m.commitMin) :=
    .selectView hinp hsrc hv hst h.idle rfl hval hle hfresh
  exact .head hreset (.head hselect (collectCandidate_reaches
    (s := { s.resetSelectedView.core _ with selectedNextOp := _, lastLeaderActivity := _ })
    abortSelectedView_reaches { h with sane := hselect.sane (hreset.sane h.sane) } rfl
    (fun e he => .announced hinp he)))

theorem onStartView_reaches {src : ℕ} {m : StartViewMsg} (hs : Sane hash s.toCore)
    (hinp : inp = .message src (.startView m)) (hact : s.pendingStartView.active = false)
    (hleave : s.status = .viewChange ∨ s.viewNumber < m.viewNumber → s.MayLeave allow)
    (hfresh : s.status = .viewChange → m.viewNumber = s.viewNumber →
      s.viewNumber ≤ s.lastNormalView → allow .readopt) :
    Reaches (ViewAct hash inp allow) s.toCore (s.onStartView hash env src m) := by
  refine .guard fun hsrc => ?_
  refine .guard fun hge => ?_
  refine .guard fun hval => ?_
  refine .guard fun hanchor => ?_
  rw [not_not] at hsrc
  have hval' : startViewEntriesValid hash m = true := by simpa using hval
  have hle : s.commitMin ≤ m.opNumber := by
    simp only [anchorOk, Bool.not_eq_true', Bool.not_eq_false, Bool.and_eq_true,
      decide_eq_false_iff_not] at hanchor
    omega
  -- what happens once the replica waits in the announced view
  have key : ∀ s' : Replica, s'.MayAbort hash allow → s'.commitMin = s.commitMin →
      s'.replicaCount = s.replicaCount →
      (s'.status = .viewChange → m.viewNumber = s'.viewNumber →
        s'.viewNumber ≤ s'.lastNormalView → allow .readopt) →
      Reaches (ViewAct hash inp allow) s'.toCore
        (if s'.status ≠ .viewChange ∨ m.viewNumber ≠ s'.viewNumber then .ok s'
        else if s'.pendingViewSelection then
          if s'.matchesSelection src m then .ok s' else s'.abortSelectedView hash env
        else s'.adoptStartView hash env src m) := by
    intro s' h' hcommit hcount hfresh'
    split
    · exact .ok rfl
    next hguard =>
    rw [not_or, not_not, not_not] at hguard
    split
    · split
      · exact .ok rfl
      · exact abortSelectedView_reaches s' h'
    · refine adoptStartView_reaches h' hinp ?_ hguard.2 hguard.1 hval' (hcommit ▸ hle)
        (hfresh' hguard.1 hguard.2)
      rw [hsrc, leader, leaderForView, leaderForView, hcount, hguard.2]
  split
  · next hgt =>
    refine (awaitStartView_reaches (hleave (.inr hgt))).bind (fun s' ho hacts => ?_)
    have hs' := viewActs_sane hacts hs
    unfold awaitStartView at ho
    split at ho
    · cases ho
    · cases ho
      refine key _ ⟨hs', hact, fun _ => hleave (.inr hgt)⟩ rfl rfl (fun _ _ hle' => ?_)
      have hlt : m.viewNumber ≤ s.lastNormalView := hle'
      have := hs.views
      omega
  · exact key s ⟨hs, hact, fun hst => hleave (.inl hst)⟩ rfl rfl hfresh

end Replica

end Hivemind
