import Hivemind.Live

/-! The journal of one replica over whole runs, whatever messages arrive: the committed
prefix is complete and never changes, and while the replica is normal, or about to
publish a view, the journal ends at the op number. -/
namespace Hivemind

open Relation Core

variable {hash : Hash} {inp : Input} {allow : Hazard → Prop} {c c' : Core} {e : LogEntry}

/-- The log is that of a view: the replica is normal, or a publication is pending. -/
def Core.Settled (c : Core) : Prop := c.status = .normal ∨ c.pendingStartView.active = true

structure Solid (c : Core) : Prop where
  held : ∀ op, 0 < op → op ≤ c.commitMin → c.journalHas op = true
  above : c.Settled → ∀ op, c.opNumber < op → c.journalGet op = none
  full : c.Settled → 1 < c.replicaCount → ∀ op, 0 < op → op ≤ c.opNumber →
    c.journalHas op = true

/-! ### Writing one entry -/

theorem Core.journalHas_put {b : Bool} {op : ℕ} (hs : SlotOk hash c)
    (h : c.journalHas op = true) : (c.journalPutInternal e b).journalHas op = true := by
  rw [journalHas, journalGet_put hs]
  split
  · rfl
  · exact h

theorem Solid.commit_le (hp : Solid c) (hset : c.Settled) : c.commitMin ≤ c.opNumber := by
  by_contra hlt
  have hhas := hp.held c.commitMin (by omega) le_rfl
  rw [journalHas, hp.above hset _ (by omega)] at hhas
  cases hhas

theorem Solid.put (hp : Solid c) (hs : SlotOk hash c) (hle : e.opNumber ≤ c.opNumber) :
    Solid (c.journalPut e) where
  held := fun op hpos h => journalHas_put hs (hp.held op hpos h)
  above := fun hset op hop => by
    have hop' : c.opNumber < op := hop
    rw [journalPut, journalGet_put hs, if_neg (by omega)]
    exact hp.above hset op hop'
  full := fun hset hn op hpos h => journalHas_put hs (hp.full hset hn op hpos h)

theorem Solid.free (hp : Solid c) (hs : SlotOk hash c) (hset : c.Settled)
    (hnext : c.opNumber < e.opNumber) (hcap : e.opNumber ≤ logSizeMax) :
    c.journal (journalSlot e.opNumber) = none := by
  rw [hs.slot_eq_journalGet (by omega) hcap]
  exact hp.above hset _ hnext

theorem Solid.extend (hp : Solid c) (hs : SlotOk hash c) (hset : c.Settled)
    (hnext : e.opNumber = c.opNumber + 1) (hcap : e.opNumber ≤ logSizeMax) :
    Solid (({ c with opNumber := e.opNumber } : Core).journalPut e) := by
  let c₀ : Core := { c with opNumber := e.opNumber }
  have hs₀ : SlotOk hash c₀ := hs
  have haccepts : c₀.putAccepts e false = true :=
    putAccepts_of_free (by omega) hcap (hp.free hs hset (by omega) hcap)
  have hget : ∀ op, (c₀.journalPut e).journalGet op =
      if op = e.opNumber then some e else c.journalGet op := by
    intro op
    rw [journalPut, journalGet_put hs₀]
    simp only [haccepts, true_and]
    rfl
  refine ⟨fun op hpos h => journalHas_put hs₀ (hp.held op hpos h), fun _ op hop => ?_,
    fun _ hn op hpos hop => ?_⟩
  · have hop' : e.opNumber < op := hop
    rw [hget, if_neg (by omega)]
    exact hp.above hset op (by omega)
  · have hop' : op ≤ e.opNumber := hop
    rw [journalHas, hget]
    split
    · rfl
    · exact hp.full hset hn op hpos (by omega)

theorem Solid.adopt (hp : Solid c) (hs : SlotOk hash c) (hset : c.Settled)
    (hnext : e.opNumber = c.commitMin + 1) (hcap : e.opNumber ≤ logSizeMax) :
    Solid (c.asAdopted e) := by
  have hle := hp.commit_le hset
  rw [← adoptCommitted_frame, adoptCommitted]
  by_cases hgt : c.opNumber < e.opNumber
  · have hdiffers : c.differsFrom e = true := by
      rw [differsFrom, hp.above hset _ hgt]
    have hext := hp.extend hs hset (by omega) hcap
    rw [if_pos hdiffers]
    show Solid { c.journalPut e with opNumber := max c.opNumber e.opNumber }
    rw [Nat.max_eq_right hgt.le]
    exact { hext with }
  · split
    · show Solid { c.journalPut e with opNumber := max c.opNumber e.opNumber }
      rw [Nat.max_eq_left (by omega)]
      exact { hp.put hs (by omega) with }
    · show Solid { c with opNumber := max c.opNumber e.opNumber }
      rw [Nat.max_eq_left (by omega)]
      exact { hp with }

/-! ### Transitions -/

theorem Placed.held {c₁ : Core} (hs : Sane hash c) (hsel : c.Selecting)
    (h : c.Placed hash c₁) (hp : Solid c) :
    ∀ op, 0 < op → op ≤ c₁.commitMin → c₁.journalHas op = true := by
  obtain ⟨parent, l, tip, hpl⟩ := h.placement hs hsel
  intro op hpos hop
  rw [h.frame] at hop
  rw [journalHas, hpl.get, if_pos hop]
  exact hp.held op hpos hop

theorem openView_full {c₁ : Core} (hs : Sane hash c) (hsel : c.Selecting) (h : c.Placed hash c₁)
    (hp : Solid c) {op : ℕ} (hpos : 0 < op) (hop : op ≤ c₁.openView.opNumber) :
    c₁.openView.journalHas op = true := by
  obtain ⟨parent, l, tip, hpl⟩ := h.placement hs hsel
  have htip : c₁.selectedTipOp = c.selectedTipOp := by rw [h.frame]
  have hmin : c₁.commitMin = c.commitMin := by rw [h.frame]
  have hlen := hpl.length
  rw [openView_frame] at hop ⊢
  have hop' : op ≤ c₁.selectedTipOp := hop
  by_cases hcommit : op ≤ c₁.commitMin
  · exact Placed.held hs hsel h hp op hpos hcommit
  · show (c₁.journalGet op).isSome = true
    rw [hpl.get, if_neg (by omega), List.getElem?_eq_getElem (by omega)]
    rfl

theorem openView_solid {c₁ : Core} (hs : Sane hash c) (hsel : c.Selecting)
    (h : c.Placed hash c₁) (hp : Solid c) : Solid c₁.openView := by
  obtain ⟨parent, l, tip, hpl⟩ := h.placement hs hsel
  have hheld := Placed.held hs hsel h hp
  have htip : c₁.selectedTipOp = c.selectedTipOp := by rw [h.frame]
  have hlen := hpl.length
  have hle := hpl.le
  have hfull : ∀ op, 0 < op → op ≤ c₁.openView.opNumber → c₁.openView.journalHas op = true :=
    fun _ => openView_full hs hsel h hp
  rw [openView_frame] at hfull ⊢
  refine ⟨hheld, fun _ op hop => ?_, fun _ _ => hfull⟩
  have hop' : c₁.selectedTipOp < op := hop
  show c₁.journalGet op = none
  rw [hpl.get, if_neg (by omega)]
  exact List.getElem?_eq_none (by omega)

theorem Act.solid (h : Act hash inp allow c c') (hs : Sane hash c) (hp : Solid c) : Solid c' := by
  cases h with
  | view h =>
    cases h with
    | @enter v _ _ hact =>
      have hno : ¬ (c.enterView v).Settled := by
        rintro (h | h)
        · cases h
        · exact absurd (hact.symm.trans h) (by decide)
      exact { hp with above := fun h => absurd h hno, full := fun h => absurd h hno }
    | place hsel h =>
      have hheld := Placed.held hs hsel h hp
      have hsel' := h.selecting hsel
      have hno : ¬ c'.Settled := by
        rintro (h | h)
        · exact absurd (h.symm.trans hsel'.status) (by decide)
        · exact absurd (h.symm.trans hsel'.idle) (by decide)
      exact ⟨hheld, fun h => absurd h hno, fun h => absurd h hno⟩
    | openView hsel h => exact openView_solid hs hsel h hp
    | _ => exact { hp with }
  | commit h =>
    cases h with
    | votes => exact { hp with }
    | follow => exact { hp with }
    | execute _ _ hget =>
      refine { hp with held := fun op hpos hop => ?_ }
      rcases Nat.lt_or_eq_of_le hop with hlt | rfl
      · exact hp.held op hpos (Nat.le_of_lt_succ hlt)
      · exact journalHas_iff.mpr ⟨_, hget⟩
  | @append m hst _ hcap =>
    let e := ({ c with opNumber := c.opNumber + 1 } : Core).requestEntry hash m
    exact { hp.extend (e := e) hs.slots (.inl hst) rfl hcap with }
  | accept hst _ hnext hcap => exact { hp.extend hs.slots (.inl hst) hnext hcap with }
  | fillGap _ _ _ hle =>
    have hput := hp.put hs.slots hle
    exact { hput with }
  | adopt _ _ _ hst _ hnext hcap => exact hp.adopt hs.slots (.inl hst) hnext hcap
  | fillHole _ _ _ _ _ _ _ hle => exact { hp.put hs.slots hle with }
  | begin hact hchain =>
    have hop : c.pendingStartView.opNumber = c.opNumber := (pendingOk hact hchain).op.symm
    exact
      { held := hp.held
        above := fun _ op h => hp.above (.inr hact) op (lt_of_eq_of_lt hop.symm h)
        full := fun _ hn op hpos h => hp.full (.inr hact) hn op hpos (h.trans_eq hop) }
  | settle hact =>
    exact { hp with above := fun _ => hp.above (.inr hact), full := fun _ => hp.full (.inr hact) }
  | close hact =>
    exact { hp with above := fun _ => hp.above (.inr hact), full := fun _ => hp.full (.inr hact) }
  | _ => exact { hp with }

/-! ### Restarts -/

theorem Replica.replay_has : ∀ {ops : List ℕ} {parent : ℕ} {c c' : Core},
    replay hash ops parent c = some c' → ∀ op ∈ ops, c.journalHas op = true
  | [], _, _, _, _ => by simp
  | op :: rest, parent, c, c', h => by
    unfold replay at h
    split at h
    · cases h
    next e he =>
    split at h
    · cases h
    split at h
    · cases h
    split at h
    · cases h
    split at h
    · cases h
    next c₁ hc₁ =>
      have ih := replay_has h
      rw [updateClientTable_frame hc₁] at ih
      intro op' hop
      rcases List.mem_cons.mp hop with rfl | hop
      · exact journalHas_iff.mpr ⟨e, he⟩
      · exact ih op' hop

theorem start_solid (cfg : ReplicaConfig) {history : List Record} :
    Solid (Replica.freshState cfg history).toCore :=
  ⟨fun _ hpos h => absurd (Nat.le_zero.mp h) hpos.ne', fun _ _ _ => ite_self _,
    fun _ _ _ hpos h => absurd (Nat.le_zero.mp h) hpos.ne'⟩

theorem Core.Restarts.solid (h : c.Restarts hash c') : Solid c' := by
  cases h with
  | blank => exact start_solid _
  | @recovered d m c₁ hd hm _ h =>
    have hheld := Replica.replay_has h
    rw [Replica.rebuildCommittedState_frame h]
    refine ⟨fun op hpos hop => hheld op (mem_opsAbove.mpr ⟨hpos, hop⟩), fun _ op hop => ?_,
      fun hset hn => ?_⟩
    · rw [Option.eq_none_iff_forall_ne_some]
      intro e he
      obtain ⟨-, hj, heq⟩ := journalGet_eq_some.mp he
      have hop' : m.opNumber < op := hop
      obtain ⟨-, hf⟩ := Option.filter_eq_some_iff.mp
        (show (d.durable (journalSlot op)).filter _ = some e from hj)
      simp only [Bool.and_eq_true, decide_eq_true_eq, Bool.not_eq_true',
        decide_eq_false_iff_not, not_lt] at hf
      omega
    · have hn' : c.replicaCount > 1 := hn
      rcases hset with hst | hact
      · have hst' : (if c.replicaCount > 1 then Status.viewChange else .normal) = .normal := hst
        rw [if_pos hn'] at hst'
        cases hst'
      · cases hact

/-! ### The committed prefix -/

/-- The later state has the committed ops of the earlier one. -/
structure KeepsCommitted (c c' : Core) : Prop where
  le : c.commitMin ≤ c'.commitMin
  get : ∀ op ≤ c.commitMin, c'.journalGet op = c.journalGet op

theorem KeepsCommitted.trans {c₁ : Core} (h : KeepsCommitted c c₁) (h' : KeepsCommitted c₁ c') :
    KeepsCommitted c c' :=
  ⟨h.le.trans h'.le, fun op hop => (h'.get op (hop.trans h.le)).trans (h.get op hop)⟩

theorem keepsCommitted_put (hs : SlotOk hash c) (hgt : c.commitMin < e.opNumber) :
    KeepsCommitted c (c.journalPut e) where
  le := le_rfl
  get := fun op hop => by
    rw [journalPut, journalGet_put hs, if_neg]
    rintro ⟨-, heq⟩
    omega

theorem Solid.uncommitted (hp : Solid c) {op : ℕ} (hpos : 0 < op)
    (hno : c.journalHas op = false) : c.commitMin < op := by
  by_contra hle
  exact absurd ((hp.held op hpos (by omega)).symm.trans hno) (by decide)

theorem Act.keepsCommitted (h : Act hash inp allow c c') (hs : Sane hash c) (hp : Solid c) :
    KeepsCommitted c c' := by
  have hplaced : ∀ {c₁ : Core}, c.Selecting → c.Placed hash c₁ → KeepsCommitted c c₁ := by
    intro c₁ hsel h
    obtain ⟨parent, l, tip, hpl⟩ := h.placement hs hsel
    refine ⟨?_, fun op hop => ?_⟩
    · rw [h.frame]
    · rw [hpl.get, if_pos hop]
  cases h with
  | view h =>
    cases h with
    | place hsel h => exact hplaced hsel h
    | openView hsel h =>
      have := hplaced hsel h
      rw [openView_frame]
      exact ⟨this.le, this.get⟩
    | _ => exact ⟨le_rfl, fun _ _ => rfl⟩
  | commit h =>
    cases h with
    | execute => exact ⟨Nat.le_succ _, fun _ _ => rfl⟩
    | _ => exact ⟨le_rfl, fun _ _ => rfl⟩
  | @append m hst =>
    let c₀ : Core := { c with opNumber := c.opNumber + 1 }
    have hgt : c.commitMin < c.opNumber + 1 := Nat.lt_succ_of_le (hp.commit_le (.inl hst))
    have := keepsCommitted_put (c := c₀) (e := c₀.requestEntry hash m) hs.slots hgt
    exact ⟨this.le, this.get⟩
  | @accept e _ _ hst _ hnext =>
    have hle := hp.commit_le (.inl hst)
    have := keepsCommitted_put (c := c) (e := e) hs.slots (by omega)
    exact ⟨this.le, this.get⟩
  | @fillGap e _ _ _ hpos _ hno =>
    have := keepsCommitted_put (c := c) (e := e) hs.slots (hp.uncommitted hpos hno)
    exact ⟨this.le, this.get⟩
  | @adopt src m _ _ _ _ _ hnext =>
    have := keepsCommitted_put (c := c) (e := m.entry) hs.slots (by omega)
    rw [← adoptCommitted_frame, adoptCommitted]
    split
    · exact ⟨this.le, this.get⟩
    · exact ⟨le_rfl, fun _ _ => rfl⟩
  | @fillHole src m _ _ _ _ _ hno hpos =>
    have := keepsCommitted_put (c := c) (e := m.entry) hs.slots (hp.uncommitted hpos hno)
    exact ⟨this.le, this.get⟩
  | _ => exact ⟨le_rfl, fun _ _ => rfl⟩

end Hivemind
