import Hivemind.Net
import Hivemind.Sample

/-! A view change replaces the log as a whole: until the step that installs the selected
log the journal is untouched, and after it the journal is the committed prefix followed by
a linked sequence that ends in the selected tip. -/
namespace Hivemind

open Relation Core

variable {hash : Hash} {env : Env} {inp : Input} {allow : Hazard → Prop} {c₀ c c₁ c' : Core}

/-! ### What the history says about installations -/

def Event.installedTip : Event → Option (ℕ × ℕ)
  | .installed _ tipOp tipChecksum => some (tipOp, tipChecksum)
  | _ => none

/-- The selected tip of the last installation. -/
def lastInstalled (hist : List Record) : Option (ℕ × ℕ) :=
  hist.reverse.findSome? (·.event.installedTip)

theorem lastInstalled_append (hist new : List Record) :
    lastInstalled (hist ++ new) = (lastInstalled new).or (lastInstalled hist) := by
  simp [lastInstalled, List.findSome?_append]

namespace Core

/-- The log above `base` is linked and valid, ends in the entry `tip` with checksum `sum`,
and nothing lies above it. -/
structure EndsIn (hash : Hash) (c : Core) (base tip sum : ℕ) : Prop where
  le : base ≤ tip
  entries : ∀ op, base < op → op ≤ tip → ∃ e, c.journalGet op = some e ∧
    e.valid hash = true ∧ c.checksumAt (op - 1) = some e.parentChecksum
  last : 0 < tip → c.checksumAt tip = some sum
  above : ∀ i e, c.journal i = some e → e.opNumber ≤ tip

/-- The journal and what is recorded about installations stay as they are. -/
structure Untouched (c c' : Core) : Prop where
  journal : c'.journal = c.journal
  commit : c.commitMin ≤ c'.commitMin
  history : ∃ new, c'.history = c.history ++ new ∧ lastInstalled new = none

/-- From `c₀` to `c` the log above the commit was left alone, or replaced as a whole; the
last replacement was made when the commit point was `base`. -/
structure Replaces (hash : Hash) (c₀ c : Core) : Prop where
  history : c₀.history <+: c.history
  commit : c₀.commitMin ≤ c.commitMin
  committed : ∀ op ≤ c₀.commitMin, c.journalGet op = c₀.journalGet op
  log : match lastInstalled (c.history.drop c₀.history.length) with
    | none => c.journal = c₀.journal
    | some (tip, sum) => ∃ base, c₀.commitMin ≤ base ∧ base ≤ c.commitMin ∧
        c.EndsIn hash base tip sum

end Core

/-! ### Linked suffixes, entry by entry -/

theorem Linked.getElem {tip : ℕ} : ∀ {l : List LogEntry} {p k : ℕ} {e : LogEntry},
    Linked p l tip → l[k]? = some e →
      some e.parentChecksum = if k = 0 then some p else (l[k - 1]?).map (·.checksum)
  | a :: l, p, 0, e, h, hk => by
    cases hk
    exact congrArg some h.1
  | a :: l, p, k + 1, e, h, hk => by
    rw [Linked.getElem h.2 (k := k) (by simpa using hk), if_neg (Nat.succ_ne_zero k)]
    cases k with
    | zero => rfl
    | succ k => rfl

namespace Core

theorem Placement.endsIn {parent tip : ℕ} {l : List LogEntry}
    (h : Placement hash c c₁ parent l tip) (hf : Placed hash c c₁) :
    c₁.EndsIn hash c.commitMin c.selectedTipOp c.selectedTipChecksum := by
  have hlen := h.length
  refine ⟨h.le, ?_, ?_, ?_⟩
  · intro op hlt hle
    have hk : op - (c.commitMin + 1) < l.length := by omega
    obtain ⟨e, he⟩ : ∃ e, l[op - (c.commitMin + 1)]? = some e := ⟨_, List.getElem?_eq_getElem hk⟩
    refine ⟨e, ?_, h.suffix.valid e (List.mem_of_getElem? he), ?_⟩
    · rw [h.get, if_neg (by omega), he]
    · rw [Linked.getElem h.suffix.linked he]
      by_cases hfirst : op = c.commitMin + 1
      · -- the first entry of the suffix hangs on the committed one
        have hprev : op - 1 = c.commitMin := by omega
        rw [if_pos (by omega), hprev, checksumAt_congr (c := c), h.anchor]
        rw [h.get, if_pos le_rfl]
      · have hprev : op - 1 - (c.commitMin + 1) = op - (c.commitMin + 1) - 1 := by omega
        rw [if_neg (by omega), checksumAt, if_neg (by omega), h.get, if_neg (by omega), hprev]
  · intro hpos
    have htip := h.tipHeld hf
    have h1 : c₁.selectedTipOp = c.selectedTipOp := by rw [hf.frame]
    have h2 : c₁.selectedTipChecksum = c.selectedTipChecksum := by rw [hf.frame]
    rw [selectedTipHeld, h1, h2, Bool.or_eq_true, beq_iff_eq, beq_iff_eq] at htip
    rw [checksumAt, if_neg (by omega)]
    exact htip.resolve_left (by omega)
  · intro i e he
    have hget := h.slots.journalGet_of_slot he
    rw [h.get] at hget
    split at hget
    · next hle => exact hle.trans h.le
    · have := (List.getElem?_eq_some_iff.mp hget).1
      omega

theorem Placed.noted (hs : Sane hash c) (hsel : c.Selecting) (h : Placed hash c c₁) :
    ∃ r, c₁.history = c.history ++ [r] ∧
      r.event.installedTip = some (c.selectedTipOp, c.selectedTipChecksum) := by
  cases h with
  | installed =>
    rw [installCandidate, installEntries_frame]
    exact ⟨_, rfl, rfl⟩
  | truncated => exact ⟨_, rfl, rfl⟩
  | kept hphase htip =>
    obtain ⟨hb, hle, -, ht, -⟩ := hs.collects hsel.status hsel.idle hsel.selected
      (by rw [hphase]; decide)
    omega

/-! ### One transition -/

namespace Untouched

theorem same (hj : c'.journal = c.journal) (hc : c'.commitMin = c.commitMin)
    (hist : c'.history = c.history) : Untouched c c' :=
  ⟨hj, hc.ge, [], by simpa using hist, rfl⟩

theorem noted {r : Record} (hj : c'.journal = c.journal) (hc : c'.commitMin = c.commitMin)
    (hr : r.event.installedTip = none)
    (hist : c'.history = c.history ∨ c'.history = c.history ++ [r]) : Untouched c c' := by
  rcases hist with hist | hist
  · exact same hj hc hist
  · exact ⟨hj, hc.ge, [r], hist, by simp [lastInstalled, hr]⟩

end Untouched

end Core

/-- The selected log is placed, and the new view perhaps opened. -/
def Installs (hash : Hash) (c c' : Core) : Prop :=
  c.Selecting ∧ ∃ c₁, Placed hash c c₁ ∧ (c' = c₁ ∨ c' = c₁.openView)

theorem ViewAct.replaces (h : ViewAct hash inp allow c c') :
    c.Untouched c' ∨ Installs hash c c' := by
  cases h with
  | send => exact .inl (.noted rfl rfl rfl (ite_eq_or_eq _ _ _))
  | place hsel h => exact .inr ⟨hsel, _, h, .inl rfl⟩
  | openView hsel h => exact .inr ⟨hsel, _, h, .inr rfl⟩
  | _ => exact .inl (.same rfl rfl rfl)

theorem CommitAct.untouched (h : CommitAct inp c c') : c.Untouched c' := by
  cases h with
  | votes | follow => exact .noted rfl rfl rfl (ite_eq_or_eq _ _ _)
  | execute => exact ⟨rfl, Nat.le_succ _, [], (List.append_nil _).symm, rfl⟩

/-- A call without message or request writes to the journal only to install. -/
theorem Act.replaces (h : Act hash inp allow c c') (hq : inp.Silent)
    (hno : ∀ m, ¬ MaySubmit inp m) : c.Untouched c' ∨ Installs hash c c' := by
  have haccept : ∀ {e dst}, ¬ MayAccept hash inp c e dst := by
    rintro e dst (⟨hinp⟩ | ⟨hinp⟩) <;> exact hq _ _ hinp
  cases h with
  | view h => exact h.replaces
  | commit h => exact .inl h.untouched
  | reply => exact .inl (.noted rfl rfl rfl (ite_eq_or_eq _ _ _).symm)
  | publishReply => exact .inl (.noted rfl rfl rfl (ite_eq_or_eq _ _ _).symm)
  | append _ _ _ hsub => exact absurd hsub (hno _)
  | accept _ _ _ _ h => exact absurd h haccept
  | fillGap _ _ _ _ _ h => exact absurd h haccept
  | owe hinp => exact absurd hinp (hq _ _)
  | adopt hinp => exact absurd hinp (hq _ _)
  | fillHole hinp => exact absurd hinp (hq _ _)
  | sync => exact .inl ⟨rfl, le_rfl, _, rfl, rfl⟩
  | begin => exact .inl (.noted rfl rfl rfl (ite_eq_or_eq _ _ _))
  | _ => exact .inl (.same rfl rfl rfl)

/-! ### Whole calls -/

namespace Core

theorem Replaces.refl (c : Core) : Replaces hash c c := by
  refine ⟨List.prefix_rfl, le_rfl, fun _ _ => rfl, ?_⟩
  rw [List.drop_length]
  rfl

theorem Replaces.untouched (h : Replaces hash c₀ c) (hu : c.Untouched c') :
    Replaces hash c₀ c' := by
  obtain ⟨new, hist, hnone⟩ := hu.history
  have hget : ∀ op, c'.journalGet op = c.journalGet op := by
    intro op
    simp only [journalGet, hu.journal]
  have hlast : lastInstalled (c'.history.drop c₀.history.length) =
      lastInstalled (c.history.drop c₀.history.length) := by
    rw [hist, List.drop_append_of_le_length h.history.length_le, lastInstalled_append, hnone]
    rfl
  refine ⟨h.history.trans (hist ▸ List.prefix_append _ _), h.commit.trans hu.commit,
    fun op hop => (hget op).trans (h.committed op hop), ?_⟩
  have hlog := h.log
  rw [hlast]
  split at hlog
  · exact hu.journal.trans hlog
  · obtain ⟨base, hge, hle, hends⟩ := hlog
    refine ⟨base, hge, hle.trans hu.commit, hends.le, ?_, ?_, ?_⟩
    · intro op hlt hop
      obtain ⟨e, he, hval, hpar⟩ := hends.entries op hlt hop
      exact ⟨e, (hget op).trans he, hval, (checksumAt_congr (hget _)).trans hpar⟩
    · exact fun hpos => (checksumAt_congr (hget _)).trans (hends.last hpos)
    · rw [hu.journal]
      exact hends.above

theorem Replaces.installs (h : Replaces hash c₀ c) (hs : Sane hash c) (hi : Installs hash c c') :
    Replaces hash c₀ c' := by
  obtain ⟨hsel, c₁, hplaced, hc'⟩ := hi
  obtain ⟨parent, l, tip, hp⟩ := hplaced.placement hs hsel
  obtain ⟨r, hist, hr⟩ := hplaced.noted hs hsel
  have hends := hp.endsIn hplaced
  have hcommit : c₁.commitMin = c.commitMin := by rw [hplaced.frame]
  have hfirst : Replaces hash c₀ c₁ := by
    refine ⟨h.history.trans (hist ▸ List.prefix_append _ _), hcommit ▸ h.commit, ?_, ?_⟩
    · intro op hop
      rw [hp.get, if_pos (hop.trans h.commit)]
      exact h.committed op hop
    · rw [hist, List.drop_append_of_le_length h.history.length_le, lastInstalled_append]
      simp only [lastInstalled, List.reverse_singleton, List.findSome?_singleton, hr,
        Option.some_or]
      exact ⟨c.commitMin, h.commit, hcommit.ge, hends⟩
  rcases hc' with rfl | rfl
  · exact hfirst
  · refine hfirst.untouched (.same ?_ ?_ ?_)
    all_goals rw [openView_frame]

end Core

theorem viewActs_replace (h : ReflTransGen (ViewAct hash inp allow) c c') (hs : Sane hash c)
    (hr : Replaces hash c₀ c) : Replaces hash c₀ c' := by
  induction h with
  | refl => exact hr
  | tail h₁ h ih =>
    rcases h.replaces with hu | hi
    · exact ih.untouched hu
    · exact ih.installs (viewActs_sane h₁ hs) hi

theorem acts_replace (hq : inp.Silent) (hno : ∀ m, ¬ MaySubmit inp m)
    (h : ReflTransGen (Act hash inp allow) c c') (hs : Sane hash c)
    (hr : Replaces hash c₀ c) : Replaces hash c₀ c' := by
  induction h with
  | refl => exact hr
  | tail h₁ h ih =>
    rcases h.replaces hq hno with hu | hi
    · exact ih.untouched hu
    · exact ih.installs (acts_sane h₁ hs) hi

namespace Replica

variable {s s' : Replica}

/-- The call finds the replica between two views, or makes it leave one. -/
def Changing (env : Env) (inp : Input) (s : Replica) : Prop :=
  s.status = .viewChange ∨ s.Leaves env inp

instance (env : Env) (inp : Input) (s : Replica) : Decidable (s.Changing env inp) :=
  inferInstanceAs (Decidable (_ ∨ _))

/-- Every hazard may arise. -/
abbrev anyHazard : Hazard → Prop := fun _ => True

theorem mayLeave_any (c : Core) : c.MayLeave anyHazard := ⟨fun _ => trivial, fun _ => trivial⟩

theorem dispatch_changing_reaches {src : ℕ} {m : Message} (hs : Sane hash s.toCore)
    (hact : s.pendingStartView.active = false) (h : s.Changing env (.message src m)) :
    Reaches (ViewAct hash (.message src m) anyHazard) s.toCore (s.dispatch hash env src m) := by
  have hnormal : (∀ v ∈ m.entersView, ¬ s.viewNumber < v) → s.status ≠ .normal := by
    intro hno hst
    rcases h with h | ⟨v, hv, hlt⟩ | ⟨h, -⟩
    · exact absurd (hst.symm.trans h) (by decide)
    · exact hno v hv hlt
    · cases h
  have hany := mayLeave_any s.toCore
  cases m with
  | request m =>
    refine .ok ?_
    unfold onRequest
    rw [if_pos (hnormal nofun)]
  | prepare m =>
    show Reaches _ _ (s.onPrepare hash env src m)
    refine .guard fun hrec => .guard fun hsrc => .guard fun _ => .guard fun _ =>
      .ite (fun _ => awaitThenRequest_reaches hany ?_) (fun hge => .guard fun _ =>
        .ite (fun _ => requestStartView_reaches ?_) (fun hst => ?_))
    · exact ⟨_, by rw [← not_not.mp hsrc], rfl⟩
    · exact ⟨_, by rw [← not_not.mp hsrc], rfl⟩
    exact absurd (normal_of_ne hrec hst) (hnormal fun v hv => by cases hv; exact hge)
  | prepareOk m =>
    show Reaches _ _ (s.onPrepareOk src m)
    unfold onPrepareOk
    rw [if_pos (hnormal nofun)]
    exact .ok rfl
  | commit m =>
    show Reaches _ _ (s.onCommit env src m)
    refine .guard fun hrec => .guard fun hsrc => .guard fun _ => .guard fun _ =>
      .ite (fun _ => awaitThenRequest_reaches hany ?_) (fun hge => .guard fun _ => .guard fun _ =>
        .ite (fun _ => requestStartView_reaches ?_) (fun hst => ?_))
    · exact ⟨_, by rw [← not_not.mp hsrc], rfl⟩
    · exact ⟨_, by rw [← not_not.mp hsrc], rfl⟩
    exact absurd (normal_of_ne hrec hst) (hnormal fun v hv => by cases hv; exact hge)
  | reply m => exact .ok rfl
  | startViewChange m =>
    exact onStartViewChange_reaches hs rfl hact (fun _ => hany) (fun _ _ _ _ _ => trivial)
      (fun _ _ _ _ _ _ => trivial)
  | doViewChange m =>
    exact onDoViewChange_reaches hs rfl hact (fun _ => hany) (fun _ _ _ _ => trivial)
      (fun _ _ _ _ _ _ => trivial)
  | startView m =>
    exact onStartView_reaches hs rfl hact (fun _ => hany) (fun _ _ _ => trivial)
  | requestPrepare m => exact onRequestPrepare_reaches rfl
  | sendPrepare m =>
    show Reaches _ _ (s.onSendPrepare hash env src m)
    refine .guard fun _ => .guard fun _ => .guard fun _ => .ite (fun _ => ?_) (fun _ => ?_)
    · exact onSelectedPrepare_reaches ⟨hs, hact, fun _ => hany⟩ rfl
    · rw [if_pos (hnormal nofun)]
      exact .ok rfl
  | requestStatus v => exact onRequestStatus_reaches rfl hact
  | sendStatus m =>
    show Reaches _ _ (s.onSendStatus env src m)
    unfold onSendStatus
    rw [if_pos (hnormal nofun)]
    exact .ok rfl
  | requestStartView v => exact onRequestStartView_reaches rfl hact

theorem onMessage_replaces {src : ℕ} {m : Message} (hs : Sane hash s.toCore)
    (h : s.Changing env (.message src m)) (hr : Replaces hash c₀ s.toCore)
    (hok : s.onMessage hash env src m = .ok s') : Replaces hash c₀ s'.toCore := by
  have hreach : ∀ {o : Outcome}, Reaches (ViewAct hash (.message src m) anyHazard) s.toCore o →
      o = .ok s' → Replaces hash c₀ s'.toCore := by
    rintro o hreach rfl
    exact viewActs_replace hreach hs hr
  unfold onMessage at hok
  split at hok
  · exact hreach (.ok rfl) hok
  split at hok
  · exact hreach (.ok rfl) hok
  dsimp only at hok
  by_cases hact : s.pendingStartView.active = true
  swap
  · split at hok
    · exact hreach (.ok rfl) hok
    split at hok
    · exact hreach (.ok rfl) hok
    exact hreach (dispatch_changing_reaches hs (by simpa using hact) h) hok
  -- the publication is pending: a higher view may be noted, and entries are served
  have hdefer : Replaces hash c₀ (s.deferView hash src m).toCore := by
    rw [deferView_frame]
    exact hr.untouched (.same rfl rfl rfl)
  have hstatus : (s.deferView hash src m).status = s.status := by rw [deferView_frame]
  split at hok
  · cases hok
    exact hdefer
  next hserved =>
  split at hok
  · cases hok
    exact hdefer
  have hserved : servedWhilePending m = true := by simpa [hact] using hserved
  cases m with
  | request m =>
    have hst : s.status ≠ .normal := by
      rcases h with h | ⟨v, hv, -⟩ | ⟨h, -⟩
      · rw [h]
        decide
      · cases hv
      · cases h
    have hsame : (s.deferView hash src (.request m)).onRequest hash m =
        s.deferView hash src (.request m) := by
      unfold onRequest
      rw [if_pos (hstatus ▸ hst)]
    cases hok
    rw [hsame]
    exact hdefer
  | reply m =>
    cases hok
    exact hdefer
  | requestPrepare m =>
    cases hok
    have hserve : ∀ s : Replica, ReflTransGen
        (ViewAct hash (.message src (.requestPrepare m)) anyHazard) s.toCore
          (s.onRequestPrepare src m).toCore := fun _ => onRequestPrepare_reaches rfl
    refine viewActs_replace (hserve _) ?_ hdefer
    exact { hs with deferred := fun h => absurd (hact.symm.trans h) (by decide) }
  | _ => cases hserved

theorem tickProtocol_changing_reaches (hs : Sane hash s.toCore) (h : s.Changing env .tick) :
    Reaches (CalmAct hash inp anyHazard) s.toCore (s.tickProtocol hash env) := by
  refine Reaches.bind (catchUp_reaches (s := s.startTimers env)) fun s₁ hs₁ _ => ?_
  obtain ⟨hacts, -⟩ := catchUp_spec inp hs₁
  have hframe := commitActs_frame hacts
  have hsane : Sane hash s₁.toCore :=
    acts_sane (ReflTransGen.mono (fun _ _ => .commit) _ _ hacts : ReflTransGen
      (Act hash inp anyHazard) _ _) hs
  have hstatus : s₁.status = s.status := by rw [hframe]; rfl
  have hleader : s₁.isLeader = s.isLeader := by rw [hframe]; rfl
  split
  · next hst =>
    refine .ite (fun hlead => ?_) (fun hlead =>
      tickFollower_reaches hsane (by simpa using hlead) fun _ => mayLeave_any _)
    rcases h with h | ⟨v, hv, -⟩ | ⟨-, -, hfol, -⟩
    · exact absurd (h.symm.trans (hstatus.symm.trans hst)) (by decide)
    · cases hv
    · exact absurd (hfol.symm.trans (hleader.symm.trans hlead)) (by decide)
  · exact tickViewChange_reaches hsane (mayLeave_any _)
  · exact .ok rfl

theorem tick_replaces (hs : Sane hash s.toCore) (h : s.Changing env .tick)
    (hr : Replaces hash c₀ s.toCore) (hok : s.tick hash env = .ok s') :
    Replaces hash c₀ s'.toCore := by
  -- nothing of this tick depends on its input, so that one without requests will do
  let quiet : Input := .workerDisconnect 0
  have hq : quiet.Silent := fun _ _ => nofun
  have hno : ∀ m, ¬ MaySubmit quiet m := fun _ => not_maySubmit_disconnect
  unfold tick at hok
  split at hok
  · cases hok
    exact hr
  have harm : Sane hash (s.armFaults env).toCore := { hs with }
  have hcalm : Reaches (CalmAct hash quiet anyHazard) (s.armFaults env).toCore
      ((s.armFaults env).tickProtocol hash env) := tickProtocol_changing_reaches harm h
  have hwhole : Reaches (Act hash quiet anyHazard) (s.armFaults env).toCore
      (((s.armFaults env).tickProtocol hash env).bind (fun s => s.flushDurableState hash env)) :=
    Reaches.bind (hcalm.mono (fun h => h.1)) fun s₁ _ hacts =>
      (flushDurableState_works rfl (acts_sane hacts harm)
        ⟨fun _ => trivial, fun _ _ => trivial⟩).reaches
  rw [hok] at hwhole
  exact acts_replace hq hno hwhole harm (hr.untouched (.same rfl rfl rfl))

theorem handle_replaces (hs : Sane hash s.toCore) (h : s.Changing env inp)
    (hr : Replaces hash c₀ s.toCore) (hok : s.handle hash env inp = .ok s') :
    Replaces hash c₀ s'.toCore := by
  have hst : inp.entersView = none → inp.isTick = false → s.status ≠ .normal := by
    intro hview htick
    rcases h with h | ⟨v, hv, -⟩ | ⟨h, -⟩
    · rw [h]
      decide
    · rw [hview] at hv
      cases hv
    · rw [htick] at h
      cases h
  cases inp with
  | message src m => exact onMessage_replaces hs h hr hok
  | tick => exact tick_replaces hs h hr hok
  | request m =>
    have hsame : s.onRequest hash m = s := if_pos (hst rfl rfl)
    have hok' : Except.ok (s.onRequest hash m) = Except.ok s' := hok
    cases hsame ▸ hok'
    exact hr
  | workerRegister i m =>
    have hkeeps : (s.onWorkerRegister hash env i m).Keeps s.toCore := by
      have hno : ¬ (s.isLeader && s.status == .normal && !s.repairPending) = true := by
        simp [hst rfl rfl]
      unfold onWorkerRegister
      dsimp only
      split_ifs <;> rfl
    have hok' : s.onWorkerRegister hash env i m = .ok s' := hok
    rw [hok'] at hkeeps
    exact (show s'.toCore = s.toCore from hkeeps) ▸ hr
  | workerDisconnect i =>
    cases hok
    unfold onWorkerDisconnect
    split <;> exact hr
  | workerHeartbeat i =>
    have hkeeps : (s.onWorkerHeartbeat env i).Keeps s.toCore := by
      unfold onWorkerHeartbeat
      split
      · rfl
      split
      · rfl
      rw [if_neg (by simp [hst rfl rfl])]
      rfl
    have hok' : s.onWorkerHeartbeat env i = .ok s' := hok
    rw [hok'] at hkeeps
    exact (show s'.toCore = s.toCore from hkeeps) ▸ hr
  | workerPodStatus i m =>
    have hsame : s.onWorkerPodStatus hash i m = s := by
      unfold onWorkerPodStatus
      rw [if_neg (c := (s.isLeader && s.status == .normal && !s.repairPending) = true)
        (by simp [hst rfl rfl])]
      simp
    have hok' : Except.ok (s.onWorkerPodStatus hash i m) = Except.ok s' := hok
    cases hsame ▸ hok'
    exact hr
  | route deploymentId now =>
    cases hok
    exact hr.untouched (.same rfl rfl rfl)

end Replica

/-! ### Whole runs -/

/-- A run of calls, each of which finds the replica between two views or makes it leave
one. -/
def ChangesView (hash : Hash) (p : Process) (cs : List (Input × Env)) : Prop :=
  Execution.Along (fun p x => Process.call hash p x.1 x.2)
    (fun p x => p.replica.Changing x.2 x.1) p cs

instance (hash : Hash) (p : Process) (cs : List (Input × Env)) : Decidable (ChangesView hash p cs) :=
  Execution.Along.decide p cs

theorem calls_replace : ∀ {cs : List (Input × Env)} {p : Process}, p.stopped = false →
    Sane hash p.replica.toCore → Replaces hash c₀ p.replica.toCore → ChangesView hash p cs →
    (p.calls hash cs).stopped = false → Replaces hash c₀ (p.calls hash cs).replica.toCore
  | [], p, _, _, hr, _, _ => hr
  | (inp, env) :: rest, p, hup, hs, hr, hcs, hrun => by
    obtain ⟨hchange, hcs⟩ := hcs
    have hreach : Reaches (Act hash inp (fun _ => True)) p.replica.toCore
        (p.replica.handle hash env inp) := Replica.handle_reaches hs (fun _ _ => trivial)
    cases hout : p.replica.handle hash env inp with
    | error s =>
      have hcall : p.call hash inp env = ⟨s, true⟩ := by simp [Process.call, hup, hout]
      have hstop : (p.calls hash ((inp, env) :: rest)).stopped = true := by
        show ((p.call hash inp env).calls hash rest).stopped = true
        rw [hcall, Process.calls_of_stopped rest rfl]
      exact absurd (hstop.symm.trans hrun) (by decide)
    | ok s =>
      have hcall : p.call hash inp env = ⟨s, false⟩ := by simp [Process.call, hup, hout]
      rw [hout] at hreach
      dsimp only at hcs
      rw [hcall] at hcs
      show Replaces hash c₀ ((p.call hash inp env).calls hash rest).replica.toCore
      rw [show (p.calls hash ((inp, env) :: rest)) = (p.call hash inp env).calls hash rest from rfl,
        hcall] at hrun
      rw [hcall]
      exact calls_replace rfl (acts_sane hreach hs) (Replica.handle_replaces hs hchange hr hout)
        hcs hrun

/-- Whatever has happened to a replica, crashes included: as long as it is between two
views, the log above its commit is as it was, or was replaced in one step by a valid linked
sequence that ends in the selected tip with nothing above; what was committed stays. -/
theorem candidate_install_all_or_nothing (cfg : ReplicaConfig) (s₀ : Replica)
    (hinit : Replica.initInPlace cfg = some s₀) (hblank : ∀ d ∈ cfg.disk, d = {})
    (turns : List Turn) (cs : List (Input × Env))
    (hup : ((Process.mk s₀ false).run hash turns).stopped = false)
    (hcs : ChangesView hash ((Process.mk s₀ false).run hash turns) cs)
    (hrun : (((Process.mk s₀ false).run hash turns).calls hash cs).stopped = false) :
    Replaces hash ((Process.mk s₀ false).run hash turns).replica.toCore
      (((Process.mk s₀ false).run hash turns).calls hash cs).replica.toCore := by
  unfold Replica.initInPlace at hinit
  split at hinit
  swap
  · cases hinit
  next hcount =>
  cases hinit
  obtain ⟨c, hc, hs, -⟩ := (Process.start_runsAs cfg).run (I := DiskOk hash)
    (fun inp c c' hs hd hact => hact.diskOk hs hd)
    (fun c c₀ c' hc₀ hs hd hre => by
      rcases hc₀ with rfl | rfl
      · exact ⟨hre.sane hs hd, hre.diskOk hd⟩
      · exact ⟨hre.sane (noteInstalled_sane hs) (noteInstalled_diskOk hd),
          hre.diskOk (noteInstalled_diskOk hd)⟩)
    turns (Replica.freshState_sane hcount.1) (Process.start_diskOk hblank)
  rw [hc.running hup] at hs
  exact calls_replace hup hs (.refl _) hcs hrun

/-- A follower times out in view 0, and is then told the log of view 1. -/
theorem candidate_install_of_announced_log :
    let e : LogEntry :=
      { checksum := pairingHash ⟨0, 0, 1, .noop, 7, 1⟩, opNumber := 1, clientId := 7, requestId := 1 }
    let sv : StartViewMsg :=
      { viewNumber := 1, opNumber := 1, tipChecksum := e.checksum
        logEntries := Core.padEntries [e] svLogMax, logEntryCount := 1 }
    let cfg := (ClusterConfig.uniform 3 (by decide) true).cfg 2
    let p := (Process.mk (Replica.freshState cfg []) false).run pairingHash
      [.call .tick { now := 1 }, .call .tick { now := 2002 }]
    let q := p.calls pairingHash [(.message 1 (.startView sv), { now := 2003 })]
    p.replica.status = .viewChange ∧ q.replica.journalGet 1 = some e ∧
      Replaces pairingHash p.replica.toCore q.replica.toCore := by
  refine ⟨by decide +kernel, by decide +kernel, ?_⟩
  exact candidate_install_all_or_nothing ((ClusterConfig.uniform 3 (by decide) true).cfg 2) _ rfl
    (ClusterConfig.uniform 3 (by decide) true |>.blank 2) _ _ (by decide +kernel)
    (by decide +kernel) (by decide +kernel)

end Hivemind
