import Hivemind.Solid
import Hivemind.Net
import Hivemind.Sample

/-! Nothing is published before it is durable: an entry marked durable is on disk, so is
an op number that covers it, and a reply waits for a synced commit. -/
namespace Hivemind

open Relation Core

variable {hash : Hash} {inp : Input} {allow : Hazard → Prop} {c c₁ c' : Core} {e : LogEntry}

/-! ### Rewritten slots -/

/-- What the journal and the marks of durability say of a slot. -/
def Core.slotState (c : Core) (i : ℕ) : Option LogEntry × Bool × ℕ × ℕ :=
  (c.journal i, c.journalDirty i, c.durablePrepareOp i, c.durablePrepareChecksum i)

theorem slotState_eq {i : ℕ} : c'.slotState i = c.slotState i ↔ c'.journal i = c.journal i ∧
    c'.journalDirty i = c.journalDirty i ∧ c'.durablePrepareOp i = c.durablePrepareOp i ∧
      c'.durablePrepareChecksum i = c.durablePrepareChecksum i := by
  simp only [slotState, Prod.mk.injEq]

/-- Every slot is kept, or dirty and no longer marked. -/
def Rewrites (c c' : Core) : Prop :=
  ∀ i, c'.slotState i = c.slotState i ∨ (c'.journalDirty i = true ∧ c'.durablePrepareOp i = 0)

/-- A free slot carries no mark. -/
def Core.FreeUnmarked (c : Core) : Prop := ∀ i, c.journal i = none → c.durablePrepareOp i = 0

theorem Rewrites.refl (c : Core) : Rewrites c c := fun _ => .inl rfl

theorem Rewrites.trans (h : Rewrites c c₁) (h' : Rewrites c₁ c') : Rewrites c c' := by
  intro i
  rcases h' i with hk' | hr'
  · rcases h i with hk | hr
    · exact .inl (hk'.trans hk)
    · obtain ⟨-, hdirty, hmark, -⟩ := slotState_eq.mp hk'
      exact .inr ⟨hdirty.trans hr.1, hmark.trans hr.2⟩
  · exact .inr hr'

theorem Rewrites.free (h : Rewrites c c') (hf : c.FreeUnmarked) : c'.FreeUnmarked := by
  intro i hi
  rcases h i with hk | hr
  · obtain ⟨hjournal, -, hmark, -⟩ := slotState_eq.mp hk
    rw [hmark]
    exact hf i (hjournal ▸ hi)
  · exact hr.2

/-- A clean slot was clean before. -/
theorem Rewrites.clean (h : Rewrites c c') {i : ℕ} (hi : c'.journalDirty i = false) :
    c'.journal i = c.journal i ∧ c.journalDirty i = false := by
  rcases h i with hk | hr
  · obtain ⟨hjournal, hdirty, -⟩ := slotState_eq.mp hk
    exact ⟨hjournal, hdirty ▸ hi⟩
  · exact absurd (hr.1.symm.trans hi) (by decide)

theorem put_rewrites {b : Bool} (h : c.putAccepts e b = true →
    c.durablePrepareOp (journalSlot e.opNumber) = 0 ∨ c.slotAgrees e = false) :
    Rewrites c (c.journalPutInternal e b) := by
  intro i
  by_cases ha : c.putAccepts e b = true
  swap
  · exact .inl (by simp [slotState, journalPutInternal, ha])
  by_cases hi : i = journalSlot e.opNumber
  swap
  · left
    simp only [slotState, journalPutInternal, ha, Bool.true_and, if_true, upd_apply, if_neg hi]
    split <;> simp [upd_apply, hi]
  · subst hi
    refine .inr ⟨?_, ?_⟩ <;> simp only [journalPutInternal, ha, Bool.true_and, if_true]
    · rw [upd_self]
    · split
      · rw [upd_self]
      · next hrep =>
        rcases h ha with h | h
        · exact h
        · simp [putAccepts, h, hrep] at ha

theorem truncate_rewrites {limit : ℕ} {b : Bool} :
    Rewrites c (c.truncateAboveInternal limit b) := by
  intro i
  by_cases hg : c.truncates limit b i = true
  · exact .inr ⟨if_pos hg, if_pos hg⟩
  · exact .inl (slotState_eq.mpr ⟨if_neg hg, if_neg hg, if_neg hg, if_neg hg⟩)

theorem put_rewrites_of_missing {b : Bool} (hs : SlotOk hash c) (hf : c.FreeUnmarked)
    (hno : c.journalGet e.opNumber = none) : Rewrites c (c.journalPutInternal e b) := by
  refine put_rewrites fun ha => .inl (hf _ ?_)
  obtain ⟨hpos, hle⟩ := putAccepts_bounds ha
  rw [hs.slot_eq_journalGet hpos hle, hno]

theorem adopt_rewrites (hs : SlotOk hash c) (hf : c.FreeUnmarked) : Rewrites c (c.asAdopted e) := by
  rw [← adoptCommitted_frame, adoptCommitted]
  split
  swap
  · exact Rewrites.refl c
  next hd =>
    cases hget : c.journalGet e.opNumber with
    | none => exact put_rewrites_of_missing hs hf hget
    | some old =>
      obtain ⟨-, hslot, hop⟩ := journalGet_eq_some.mp hget
      refine put_rewrites (b := false) fun _ => .inr ?_
      rw [differsFrom, hget] at hd
      simpa [slotAgrees, hslot, hop] using hd

theorem installEntries_rewrites (entries : List LogEntry) (hs : SlotOk hash c)
    (hf : c.FreeUnmarked) (hgt : ∀ e ∈ entries, c.commitMin < e.opNumber ∧
      e.opNumber ≤ logSizeMax) : Rewrites c (c.installEntries (entries.map some)) := by
  rw [installEntries_map]
  -- the slots of uncommitted ops are unmarked once the journal is truncated
  have hzero : ∀ op, c.commitMin < op → op ≤ logSizeMax →
      (c.truncateAboveFromValidatedStartView c.commitMin).durablePrepareOp (journalSlot op) = 0 := by
    intro op hop hle
    by_cases hg : c.truncates c.commitMin true (journalSlot op) = true
    · exact if_pos hg
    · refine (if_neg hg).trans (hf _ ?_)
      rw [Option.eq_none_iff_forall_ne_some]
      intro e he
      have heq := journalSlot_inj (hs he).1.1 (hs he).1.2 (by omega) hle (hs he).2.1.symm
      exact hg (truncates_validated.mpr ⟨e, he, by omega, by omega⟩)
  have hputs : ∀ (l : List LogEntry) (c₀ : Core),
      (∀ e ∈ l, c.commitMin < e.opNumber ∧ e.opNumber ≤ logSizeMax) →
      (∀ op, c.commitMin < op → op ≤ logSizeMax → c₀.durablePrepareOp (journalSlot op) = 0) →
      Rewrites c₀ (l.foldl journalPutFromValidatedStartView c₀) := by
    intro l
    induction l with
    | nil => exact fun c₀ _ _ => Rewrites.refl c₀
    | cons e l ih =>
      intro c₀ hl h0
      have hput : Rewrites c₀ (c₀.journalPutFromValidatedStartView e) :=
        put_rewrites fun _ => .inl (h0 _ (hl e (by simp)).1 (hl e (by simp)).2)
      refine hput.trans (ih _ (fun e' he' => hl e' (by simp [he'])) fun op hop hle => ?_)
      rcases hput (journalSlot op) with hk | hr
      · exact (slotState_eq.mp hk).2.2.1.trans (h0 op hop hle)
      · exact hr.2
  exact truncate_rewrites.trans (hputs entries _ hgt hzero)

theorem Placed.rewrites (hs : Sane hash c) (hsel : c.Selecting) (hf : c.FreeUnmarked)
    (h : c.Placed hash c₁) : Rewrites c c₁ := by
  cases h with
  | installed checksum hsum hvalid =>
    obtain ⟨-, -, l, hl, hsuf⟩ := ViewChangeCandidate.validate_ok hvalid
    obtain ⟨hb, hle, hcap, -, -, -, hlen⟩ :=
      hs.collects hsel.status hsel.idle hsel.selected (hs.validated_phase hvalid)
    rw [hl, List.length_map] at hlen
    unfold installCandidate
    rw [hl]
    have hgt : ∀ e ∈ l, c.commitMin < e.opNumber ∧ e.opNumber ≤ logSizeMax := by
      intro e he
      obtain ⟨k, hk, rfl⟩ := List.mem_iff_getElem.mp he
      have := hsuf.numbered k _ (List.getElem?_eq_getElem hk)
      omega
    exact installEntries_rewrites l (noteInstalled_slots hs.slots) hf hgt
  | truncated => exact truncate_rewrites (c := c.noteInstalled)
  | kept => exact Rewrites.refl c

/-! ### Marks -/

/-- No publication is half done. -/
def Core.Steady (c : Core) : Prop :=
  c.status ≠ .viewChange ∨ c.pendingStartView.active = false

theorem steady_of_normal (h : c.status = .normal) : c.Steady := .inl (by rw [h]; decide)

/-- An acknowledgement or a broadcast of `op` waits for a barrier. -/
def Core.OwesFor (c : Core) (op : ℕ) : Prop :=
  c.pendingPrepareBroadcast (journalSlot op) = true ∨ c.pendingPrepareOk (journalSlot op) = true

structure Marked (c : Core) : Prop where
  synced : ∀ d ∈ c.disk, ∀ i e, c.journal i = some e → c.journalDirty i = false →
    d.durable i = some e
  free : c.FreeUnmarked
  flags : ∀ op, 0 < op → op ≤ logSizeMax → c.OwesFor op → op ≤ c.opNumber
  still : c.Steady → ∀ i, c.durablePrepareOp i ≠ 0 → c.journalDirty i = false
  saved : c.Steady → ∀ op, c.isDurablePrepare op = true → op ≤ c.opNumber →
    ∀ d ∈ c.disk, ∃ m, d.metadata = some m ∧ op ≤ m.opNumber

theorem journalSlot_le {a b : ℕ} (ha : a ≤ logSizeMax) (hb : 0 < b)
    (h : journalSlot a = journalSlot b) : a ≤ b := by
  simp only [journalSlot, logSizeMax, logBitsetBits, logBitsetWords] at *
  omega

theorem isDurablePrepare_spec {op : ℕ} (h : c.isDurablePrepare op = true) :
    ∃ e, c.journalGet op = some e ∧ c.durablePrepareOp (journalSlot op) = op ∧
      c.durablePrepareChecksum (journalSlot op) = e.checksum := by
  unfold isDurablePrepare at h
  split at h
  · cases h
  · next e he =>
    simp only [Bool.and_eq_true, beq_iff_eq] at h
    exact ⟨e, he, h.1, h.2⟩

theorem Rewrites.durable (h : Rewrites c c') {op : ℕ} (hd : c'.isDurablePrepare op = true) :
    c.isDurablePrepare op = true := by
  obtain ⟨e, he, hop, hsum⟩ := isDurablePrepare_spec hd
  obtain ⟨hpos, hj, heq⟩ := journalGet_eq_some.mp he
  rcases h (journalSlot op) with hk | hr
  · obtain ⟨hjournal, -, hmark, hchecksum⟩ := slotState_eq.mp hk
    have hget : c.journalGet op = some e :=
      journalGet_eq_some.mpr ⟨hpos, hjournal ▸ hj, heq⟩
    rw [isDurablePrepare_iff hget]
    exact ⟨hmark ▸ hop, hchecksum ▸ hsum⟩
  · omega

theorem Marked.rewrite (hm : Marked c) (h : Rewrites c c') (hdisk : c'.disk = c.disk)
    (hsteady : c'.Steady → c.Steady)
    (hop : ∀ op, c.journalHas op = true → op ≤ c'.opNumber → op ≤ c.opNumber)
    (hflags : ∀ op, 0 < op → op ≤ logSizeMax → c'.OwesFor op → op ≤ c'.opNumber) :
    Marked c' where
  synced := fun d hd i e he hdirty => by
    obtain ⟨hjournal, hclean⟩ := h.clean hdirty
    exact hm.synced d (hdisk ▸ hd) i e (hjournal ▸ he) hclean
  free := h.free hm.free
  flags := hflags
  still := fun hst i hi => by
    rcases h i with hk | hr
    · obtain ⟨-, hdirty, hmark, -⟩ := slotState_eq.mp hk
      rw [hdirty]
      exact hm.still (hsteady hst) i (hmark ▸ hi)
    · exact absurd hr.2 hi
  saved := fun hst op hd hle => by
    rw [hdisk]
    have hd' := h.durable hd
    obtain ⟨e, he, -⟩ := isDurablePrepare_spec hd'
    exact hm.saved (hsteady hst) op hd' (hop op (journalHas_iff.mpr ⟨e, he⟩) hle)

theorem Marked.write (hm : Marked c) (hp : Solid c) (hst : c.status = .normal)
    (h : Rewrites c c') (hdisk : c'.disk = c.disk)
    (hflags : ∀ op, 0 < op → op ≤ logSizeMax → c'.OwesFor op → op ≤ c'.opNumber) :
    Marked c' := by
  refine hm.rewrite h hdisk (fun _ => steady_of_normal hst) (fun op hhas _ => ?_) hflags
  by_contra hlt
  rw [journalHas, hp.above (.inl hst) op (by omega)] at hhas
  cases hhas

theorem Marked.owes_le (hm : Marked c) {target hi : ℕ} (hpos : 0 < target) (hle : target ≤ hi)
    (hmono : c.opNumber ≤ hi) {op : ℕ} (hop : 0 < op) (hcap : op ≤ logSizeMax)
    (h : c.OwesFor op ∨ journalSlot op = journalSlot target) : op ≤ hi := by
  rcases h with h | h
  · exact (hm.flags op hop hcap h).trans hmono
  · exact (journalSlot_le hcap hpos h).trans hle

theorem owesFor_raised {target op : ℕ} (h : Core.OwesFor { c with
      pendingPrepareBroadcast := upd c.pendingPrepareBroadcast (journalSlot target) true } op) :
    c.OwesFor op ∨ journalSlot op = journalSlot target := by
  rcases h with h | h
  · exact (upd_true h).symm.imp_left .inl
  · exact .inl (.inr h)

theorem owesFor_owed {target op : ℕ} (h : Core.OwesFor { c with
      pendingPrepareOk := upd c.pendingPrepareOk (journalSlot target) true } op) :
    c.OwesFor op ∨ journalSlot op = journalSlot target := by
  rcases h with h | h
  · exact .inl (.inl h)
  · exact (upd_true h).symm.imp_left .inr

/-- An entry is written that was missing, and a message for it may wait. -/
theorem Marked.put (hm : Marked c) (hs : Sane hash c) (hp : Solid c) (hst : c.status = .normal)
    (hno : c.journalGet e.opNumber = none) (hslots : c'.slotState = (c.journalPut e).slotState)
    (hdisk : c'.disk = c.disk) (hpos : 0 < e.opNumber) (hle : e.opNumber ≤ c'.opNumber)
    (hmono : c.opNumber ≤ c'.opNumber)
    (howes : ∀ op, c'.OwesFor op → c.OwesFor op ∨ journalSlot op = journalSlot e.opNumber) :
    Marked c' := by
  have hput : Rewrites c (c.journalPut e) := put_rewrites_of_missing hs.slots hm.free hno
  have hre : Rewrites c c' := by
    intro i
    have hi := congrFun hslots i
    obtain ⟨-, hdirty, hmark, -⟩ := slotState_eq.mp hi
    rw [hi, hdirty, hmark]
    exact hput i
  exact hm.write hp hst hre hdisk fun op hop hcap h =>
    hm.owes_le hpos hle hmono hop hcap (howes op h)

theorem markDurable_free {through : ℕ} (hf : c.FreeUnmarked) :
    (c.markDurable through).FreeUnmarked := by
  intro i hi
  have hi' : c.journal i = none := hi
  unfold markDurable
  dsimp only
  rw [hi']
  exact hf i hi'

theorem ViewAct.marked (h : ViewAct hash inp allow c c') (hs : Sane hash c) (hm : Marked c) :
    Marked c' := by
  cases h with
  | enter _ _ hact =>
    exact { hm with still := fun _ => hm.still (.inr hact), saved := fun _ => hm.saved (.inr hact) }
  | place hsel h =>
    have hre := Placed.rewrites hs hsel hm.free h
    rw [h.frame] at hre ⊢
    exact hm.rewrite hre rfl (fun _ => .inr hsel.idle) (fun _ _ hle => hle) hm.flags
  | openView hsel h =>
    have hre := Placed.rewrites hs hsel hm.free h
    rw [openView_frame]
    rw [h.frame] at hre ⊢
    have hno {P : Prop} (h : c.status ≠ .viewChange ∨ true = false) : P := by
      rcases h with hst | hact
      · exact absurd hsel.status hst
      · cases hact
    exact
      { synced := fun d hd i e he hdirty =>
          hm.synced d hd i e ((hre.clean hdirty).1 ▸ he) (hre.clean hdirty).2
        free := hre.free hm.free
        flags := fun op _ _ h => by rcases h with h | h <;> cases h
        still := fun h => hno h
        saved := fun h => hno h }
  | _ => exact { hm with }

theorem Marked.afterSync {d : Disk} (hm : Marked c) (hs : Sane hash c) (hd : DiskOk hash c)
    (h : Barrier hash c d) : Marked (c.afterSync d) := by
  obtain ⟨d₀, hsy⟩ := h.synced hs hd
  refine { hm with
    synced := fun d' hd' i e he _ => ?_
    still := fun _ _ _ => rfl
    saved := fun _ op _ hle d' hd' => ?_ }
  all_goals cases hd'
  · have he' : c.journal i = some e := he
    rw [hsy.durable]
    by_cases hdirty : c.journalDirty i = true
    · rw [if_pos hdirty, he']
    · rw [if_neg hdirty]
      exact hm.synced d₀ hsy.before i e he' (by simpa using hdirty)
  · refine ⟨_, hsy.metadata, ?_⟩
    rw [Replica.metadataToPersist_op h.chain]
    exact hle

theorem Marked.mark {through t : ℕ} (hm : Marked c)
    (h : (c.pendingStartView.active = true ∧ c.status = .viewChange) ∨ (c.Clean ∧ c.DiskOp)) :
    Marked { c.markDurable through with durablePrepareThrough := t } := by
  refine { hm with
    free := markDurable_free hm.free
    still := fun hst i _ => ?_
    saved := fun hst op _ hle d hd => ?_ }
  all_goals
    rcases h with ⟨hact, hvc⟩ | ⟨hclean, hdisk⟩
    · rcases hst with hst | hst
      · exact absurd hvc hst
      · exact absurd (hact.symm.trans hst) (by decide)
  · exact hclean i
  · obtain ⟨m, hmeta, hop⟩ := hdisk d hd
    exact ⟨m, hmeta, hle.trans hop.ge⟩

/-- The acknowledgements of a new view are for ops of its log. -/
theorem Marked.settleFlags (hm : Marked c) {op : ℕ} (hpos : 0 < op) (hcap : op ≤ logSizeMax)
    (h : c.asSettled.OwesFor op) : op ≤ c.opNumber := by
  rcases h with h | h
  · exact hm.flags op hpos hcap (.inl h)
  have hok : c.settleNormal.pendingPrepareOk (journalSlot op) = true := h
  unfold settleNormal at hok
  dsimp only at hok
  split at hok
  · cases hok
  · obtain ⟨op', hmem, hslot⟩ := List.any_eq_true.mp hok
    have hmem' := mem_opsAbove.mp hmem
    exact (journalSlot_le hcap (by omega) (beq_iff_eq.mp hslot).symm).trans hmem'.2

theorem Act.marked (h : Act hash inp allow c c') (hs : Sane hash c) (hd : DiskOk hash c)
    (hp : Solid c) (hm : Marked c) : Marked c' := by
  cases h with
  | view h => exact h.marked hs hm
  | commit h =>
    rw [h.frame]
    exact { hm with }
  | arm =>
    refine { hm with synced := fun d hd => ?_, saved := fun hst op hdur hle d hd => ?_ }
    all_goals obtain ⟨d₀, hd₀, rfl⟩ := Option.map_eq_some_iff.mp hd
    · exact hm.synced d₀ hd₀
    · exact hm.saved hst op hdur hle d₀ hd₀
  | @append m hst =>
    have hno := hp.above (.inl hst) _ (Nat.lt_succ_self _)
    exact hm.put hs hp hst (e := ({ c with opNumber := c.opNumber + 1 } : Core).requestEntry hash m)
      hno rfl rfl (Nat.succ_pos _) le_rfl (Nat.le_succ _) fun op h => owesFor_raised h
  | @accept e dst _ hst _ hnext =>
    have hgt : c.opNumber < e.opNumber := by omega
    exact hm.put hs hp hst (hp.above (.inl hst) _ hgt) rfl rfl (by omega) le_rfl hgt.le
      fun op h => owesFor_owed h
  | fillGap hst _ hpos hle hno =>
    refine hm.put hs hp hst (journalHas_false.mp hno) rfl rfl hpos hle le_rfl fun op h => ?_
    rw [fillGap_eq] at h
    split at h
    · exact owesFor_owed h
    · exact .inl h
  | owe _ _ _ _ hhas hle =>
    obtain ⟨e, he⟩ := journalHas_iff.mp hhas
    exact { hm with
      flags := fun op hpos hcap h =>
        hm.owes_le (hs.slots.bounds he).1 hle le_rfl hpos hcap (owesFor_owed h) }
  | adopt _ _ _ hst =>
    refine hm.write hp hst (adopt_rewrites hs.slots hm.free) rfl fun op hpos hcap h => ?_
    exact (hm.flags op hpos hcap h).trans (le_max_left _ _)
  | fillHole _ _ _ hst _ hno hpos hle =>
    exact hm.put hs hp hst (journalHas_false.mp hno) rfl rfl hpos hle le_rfl
      fun op h => owesFor_raised h
  | selfVote =>
    exact { hm with
      flags := fun op hpos hcap h => hm.flags op hpos hcap (h.imp_left upd_false) }
  | paid =>
    exact { hm with
      flags := fun op hpos hcap h => hm.flags op hpos hcap (h.imp_right upd_false) }
  | sync h => exact hm.afterSync hs hd h
  | fail hd₀ hdur hmeta =>
    refine { hm with synced := fun d' hd' => ?_, saved := fun hst op hdur' hle d' hd' => ?_ }
    all_goals cases hd'
    · rw [hdur]
      exact hm.synced _ hd₀
    · rw [hmeta]
      exact hm.saved hst op hdur' hle _ hd₀
  | volatile hnone =>
    refine { hm with
      synced := fun d hd => by cases hnone.symm.trans hd
      still := fun _ _ _ => rfl }
  | mark h => exact hm.mark h
  | begin hact hchain =>
    have hok := pendingOk hact hchain
    -- until the view is settled nothing is promised of the slots
    have hno : ¬ c.enterPendingView.Steady := by
      rintro (hst | hst)
      · exact hst hok.status
      · exact absurd (hact.symm.trans hst) (by decide)
    exact
      { synced := hm.synced
        free := hm.free
        flags := fun op hpos hcap h => (hm.flags op hpos hcap h).trans hok.op.le
        still := fun h => absurd h hno
        saved := fun h => absurd h hno }
  | settle hact _ _ hop _ _ hclean hdisk =>
    -- the barrier has written every slot and the metadata of the view
    refine { hm with
      flags := fun op => hm.settleFlags
      still := fun _ i _ => hclean i
      saved := fun _ op _ hle d hd => ⟨_, hdisk d hd, ?_⟩ }
    rw [metadataToPersist, if_pos hact]
    exact hle.trans hop.le
  | close _ hst =>
    have hsteady := steady_of_normal hst
    exact { hm with still := fun _ => hm.still hsteady, saved := fun _ => hm.saved hsteady }
  | _ => exact { hm with }

theorem start_marked (cfg : ReplicaConfig) {history : List Record} :
    Marked (Replica.freshState cfg history).toCore where
  synced := fun _ _ _ _ h => by cases h
  free := fun _ _ => rfl
  flags := fun _ _ _ h => by rcases h with h | h <;> cases h
  still := fun _ _ h => absurd rfl h
  saved := fun _ op h => by
    obtain ⟨e, he, -⟩ := isDurablePrepare_spec h
    exact absurd ((journalGet_eq_some.mp he).2.1) (by rintro ⟨⟩)

theorem Core.Restarts.marked (h : c.Restarts hash c') : Marked c' := by
  cases h with
  | blank => exact start_marked _
  | @recovered d m c₁ hd hm _ h =>
    rw [Replica.rebuildCommittedState_frame h]
    have hdisk : ∀ d' ∈ c.disk.map Disk.crash, d' = d.crash := by
      intro d' hd'
      rw [hd] at hd'
      exact (Option.some.inj hd').symm
    refine ⟨fun d' hd' i e he _ => ?_, fun i hi => ?_, fun _ _ _ h => ?_, fun _ _ _ => rfl,
      fun _ op hdur hle d' hd' => ?_⟩
    · rw [hdisk d' hd']
      exact (Option.filter_eq_some_iff.mp
        (show (d.durable i).filter _ = some e from he)).1
    · show ((Replica.recoveredSlot hash d.crash m i).map (·.opNumber)).getD 0 = 0
      rw [show Replica.recoveredSlot hash d.crash m i = none from hi]
      rfl
    · rcases h with h | h <;> cases h
    · rw [hdisk d' hd']
      exact ⟨m, hm, hle⟩

/-! ### Commits -/

/-- The commit a barrier writes. -/
def Core.commitToPersist (c : Core) : ℕ :=
  if c.pendingStartView.active then c.pendingStartView.commitMin else c.commitMin

theorem metadataToPersist_commit (c : Core) : c.metadataToPersist.commitMin = c.commitToPersist := by
  unfold metadataToPersist commitToPersist
  split <;> rfl

/-- Replies wait for the commit they tell of to be synced. -/
structure CommitSaved (c : Core) : Prop where
  commit : c.storageFailed = false → c.metadataDirty = false → 0 < c.commitMin →
    ∀ d ∈ c.disk, ∃ m, d.metadata = some m ∧ c.commitMin ≤ m.commitMin
  bound : ∀ d ∈ c.disk, ∀ m, d.metadata = some m → m.commitMin ≤ c.commitToPersist
  table : ∀ x ∈ c.clientTable, ∀ d ∈ c.disk, ∃ m, d.metadata = some m ∧ x.op ≤ m.commitMin

theorem updateClientTable_mem {clientId requestId op : ℕ} {result : Result}
    (h : c.updateClientTable clientId requestId result op = some c') :
    ∀ x ∈ c'.clientTable, x ∈ c.clientTable ∨ x.op = op := by
  intro x hx
  unfold updateClientTable at h
  split at h
  · next i _ =>
    cases h
    obtain ⟨j, hj⟩ := List.mem_iff_getElem?.mp hx
    rw [List.getElem?_modify] at hj
    obtain ⟨y, hy, rfl⟩ := Option.map_eq_some_iff.mp hj
    split
    · exact .inr rfl
    · exact .inl (List.mem_of_getElem? hy)
  · split at h
    · cases h
      rcases List.mem_append.mp hx with hx | hx
      · exact .inl hx
      · rw [List.mem_singleton.mp hx]
        exact .inr rfl
    · cases h

theorem Replica.replay_table : ∀ {ops : List ℕ} {parent : ℕ} {c c' : Core},
    replay hash ops parent c = some c' →
      ∀ x ∈ c'.clientTable, x ∈ c.clientTable ∨ x.op ∈ ops
  | [], _, _, _, h => by
    cases h
    exact fun x hx => .inl hx
  | op :: rest, parent, c, c', h => by
    unfold replay at h
    split at h
    · cases h
    split at h
    · cases h
    split at h
    · cases h
    split at h
    · cases h
    split at h
    · cases h
    next c₁ hc₁ =>
      intro x hx
      rcases replay_table h x hx with hx | hx
      · rcases updateClientTable_mem hc₁ x hx with hx | hx
        · exact .inl hx
        · exact .inr (hx ▸ List.mem_cons_self)
      · exact .inr (List.mem_cons_of_mem _ hx)

theorem Act.commitSaved (h : Act hash inp allow c c') (hs : Sane hash c) (hd : DiskOk hash c)
    (hc : CommitSaved c) : CommitSaved c' := by
  -- a barrier never lowers the synced commit
  cases h with
  | view h =>
    cases h with
    | place _ h =>
      rw [h.frame]
      exact { hc with }
    | @openView c₁ hsel h =>
      have hmin : c.commitToPersist = c₁.commitMin := by
        rw [commitToPersist, if_neg (by rw [hsel.idle]; decide), h.frame]
      have htable : c₁.clientTable = c.clientTable := by rw [h.frame]
      have hdisk : c₁.disk = c.disk := by rw [h.frame]
      rw [openView_frame]
      refine ⟨(fun _ h => by cases h), fun d hd m hm => ?_, fun x hx d hd => ?_⟩
      · exact ((hc.bound d (hdisk ▸ hd) m hm).trans hmin.le).trans (le_max_left _ _)
      · exact hc.table x (htable ▸ hx) d (hdisk ▸ hd)
    | _ => exact { hc with }
  | commit h =>
    cases h with
    | execute =>
      refine { hc with commit := (fun _ h => by cases h), bound := fun d hd m hm => ?_ }
      refine (hc.bound d hd m hm).trans ?_
      show (if c.pendingStartView.active = true then _ else c.commitMin) ≤
        if c.pendingStartView.active = true then _ else c.commitMin + 1
      split
      · exact le_rfl
      · exact Nat.le_succ _
    | _ => exact { hc with }
  | @publishReply c₁ op hpos hle hflag hmeta hup h =>
    refine { hc with table := fun x hx d hd => ?_ }
    rcases updateClientTable_mem h x hx with hx | hx
    · exact hc.table x hx d hd
    · obtain ⟨m, hm, hcommit⟩ := hc.commit hup hmeta (by omega) d hd
      exact ⟨m, hm, by omega⟩
  | arm =>
    refine ⟨fun hup hmeta hpos d hd => ?_, fun d hd => ?_, fun x hx d hd => ?_⟩
    all_goals obtain ⟨d₀, hd₀, rfl⟩ := Option.map_eq_some_iff.mp hd
    · exact hc.commit hup hmeta hpos d₀ hd₀
    · exact hc.bound d₀ hd₀
    · exact hc.table x hx d₀ hd₀
  | append => exact { hc with commit := fun _ h => by cases h }
  | @accept _ _ dirty =>
    refine { hc with commit := fun hup hmeta => hc.commit hup ?_ }
    exact (Bool.or_eq_false_iff.mp hmeta).2
  | fillHole => exact { hc with commit := fun _ h => by cases h }
  | sync h =>
    obtain ⟨d₀, hsy⟩ := h.synced hs hd
    have hmin : c.commitMin ≤ c.commitToPersist := by
      unfold commitToPersist
      split
      · next hact => exact (pendingOk hact h.chain).commit
      · exact le_rfl
    refine ⟨fun _ _ _ d' hd' => ?_, fun d' hd' m hm => ?_, fun x hx d' hd' => ?_⟩
    all_goals cases hd'
    · exact ⟨_, hsy.metadata, hmin.trans (metadataToPersist_commit c).ge⟩
    · cases hsy.metadata.symm.trans hm
      exact (metadataToPersist_commit c).le
    · obtain ⟨m₀, hm₀, hle⟩ := hc.table x hx d₀ hsy.before
      refine ⟨_, hsy.metadata, (hle.trans (hc.bound d₀ hsy.before m₀ hm₀)).trans ?_⟩
      exact (metadataToPersist_commit c).ge
  | fail hd₀ _ hmeta =>
    refine ⟨(fun h => by cases h), fun d' hd' => ?_, fun x hx d' hd' => ?_⟩
    all_goals
      cases hd'
      rw [hmeta]
    · exact hc.bound _ hd₀
    · exact hc.table x hx _ hd₀
  | volatile hnone => exact { hc with commit := fun _ _ _ d hd => by cases hnone.symm.trans hd }
  | settled hnone => exact { hc with commit := fun _ _ _ d hd => by cases hnone.symm.trans hd }
  | settle hact hv hlnv hop hcommit hdur hclean hdisk =>
    refine { hc with commit := fun _ _ _ d hd => ⟨_, hdisk d hd, ?_⟩ }
    rw [metadataToPersist, if_pos hact]
    exact hcommit.le
  | close hact _ _ _ _ hcommit =>
    refine { hc with bound := fun d hd m hm => ?_ }
    have := hc.bound d hd m hm
    rw [commitToPersist, if_pos hact] at this
    exact this.trans hcommit.ge
  | _ => exact { hc with }

theorem Core.Restarts.commitSaved (h : c.Restarts hash c') : CommitSaved c' := by
  cases h with
  | blank hnone =>
    refine ⟨(fun _ _ h => by cases h), fun d hd m hm => ?_, (fun x hx => by cases hx)⟩
    obtain ⟨d₀, hd₀, rfl⟩ := Option.map_eq_some_iff.mp hd
    cases (hnone d₀ hd₀).symm.trans hm
  | @recovered d m c₁ hd hm _ h =>
    have htable := Replica.replay_table h
    rw [Replica.rebuildCommittedState_frame h]
    have hdisk : ∀ d' ∈ c.disk.map Disk.crash, d'.metadata = some m := by
      intro d' hd'
      rw [hd] at hd'
      cases hd'
      exact hm
    refine ⟨fun _ _ _ d' hd' => ⟨m, hdisk d' hd', le_rfl⟩, fun d' hd' m' hm' => ?_,
      fun x hx d' hd' => ⟨m, hdisk d' hd', ?_⟩⟩
    · cases (hdisk d' hd').symm.trans hm'
      exact le_rfl
    · rcases htable x hx with hx | hx
      · cases hx
      · exact (mem_opsAbove.mp hx).2

/-! ### What is published -/

/-- The synced disk has `e` in the slot of `op`, under an op number that covers it. -/
structure Snapshot.Holds (s : Snapshot) (op : ℕ) (e : LogEntry) : Prop where
  slot : s.durable (journalSlot op) = some e
  number : e.opNumber = op
  covered : ∃ m, s.metadata = some m ∧ op ≤ m.opNumber

/-- What the disk holds at the moment of an event. -/
def PublishedDurably (s : Snapshot) : Event → Prop
  | .sent _ (.prepare m) => s.storageFailed = false ∧ s.Holds m.opNumber m.entry
  | .sent _ (.prepareOk m) =>
    s.storageFailed = false ∧ ∃ e, s.Holds m.opNumber e ∧ e.checksum = m.entryChecksum
  | .sent _ _ => s.storageFailed = false
  | .replied _ _ _ (some op) =>
    s.storageFailed = false ∧ ∃ m, s.metadata = some m ∧ op ≤ m.commitMin
  | .replied _ _ _ none => s.storageFailed = false
  | _ => True

/-- A marked op is on disk. -/
theorem Marked.holds {op : ℕ} (hm : Marked c) (hsteady : c.Steady)
    (hdur : c.isDurablePrepare op = true) (hle : op ≤ c.opNumber)
    (hget : c.journalGet op = some e) {d : Disk} (hd : c.disk = some d) :
    c.snapshot.Holds op e := by
  obtain ⟨hne, hslot, hop⟩ := journalGet_eq_some.mp hget
  have hmark := ((isDurablePrepare_iff hget).mp hdur).1
  have hclean := hm.still hsteady (journalSlot op) (by rw [hmark]; exact hne)
  obtain ⟨m, hmeta, hcover⟩ := hm.saved hsteady op hdur hle d hd
  refine ⟨?_, hop, m, ?_, hcover⟩
  · show ((c.disk.getD {}).durable _) = _
    rw [hd]
    exact hm.synced d hd _ e hslot hclean
  · show c.disk.bind _ = _
    rw [hd]
    exact hmeta

theorem Core.OwesFor.steady {op : ℕ} (h : c.OwesFor op) (hs : Sane hash c) : c.Steady := by
  by_contra hno
  rw [Core.Steady, not_or, not_not, Bool.not_eq_false] at hno
  exact hs.quiet hno.2 hno.1 ⟨_, journalSlot_lt op, h⟩

theorem MaySend.durably {dst : ℕ} {m : Message} {d : Disk} (h : MaySend hash inp c dst m)
    (hup : c.storageFailed = false) (hs : Sane hash c) (hm : Marked c) (hd : c.disk = some d) :
    PublishedDurably c.snapshot (.sent dst m) := by
  have hok : ∀ {op : ℕ} {e : LogEntry} {m : Message}, c.Steady → c.isDurablePrepare op = true →
      op ≤ c.opNumber → c.journalGet op = some e → c.prepareOkFor op e.checksum = some m →
      PublishedDurably c.snapshot (.sent dst m) := by
    intro op e m hsteady hdur hle hget hm'
    obtain ⟨_, -, rfl⟩ := Option.map_eq_some_iff.mp hm'
    exact ⟨hup, e, hm.holds hsteady hdur hle hget hd, rfl⟩
  have hflag : ∀ {op : ℕ} {e : LogEntry}, c.OwesFor op → c.journalGet op = some e →
      op ≤ c.opNumber := fun hf hget =>
    hm.flags _ (hs.slots.bounds hget).1 (hs.slots.bounds hget).2 hf
  cases h with
  | ask h => cases m <;> first | exact hup | cases h
  | status h =>
    unfold statusMessage at h
    split at h
    · cases h
      exact hup
    · cases h
  | reack _ _ hst _ hle hget hdur hm' => exact hok (steady_of_normal hst) hdur hle hget hm'
  | @ack op _ _ hget hf hdur hm' =>
    have howes : c.OwesFor op := .inr hf
    exact hok (howes.steady hs) hdur (hflag howes hget) hget hm'
  | resend hst _ hget hdur hle =>
    exact ⟨hup, hm.holds (steady_of_normal hst) hdur hle hget hd⟩
  | @broadcast _ op _ hget hf hdur =>
    have howes : c.OwesFor op := .inl hf
    exact ⟨hup, hm.holds (howes.steady hs) hdur (hflag howes hget) hget hd⟩
  | _ => exact hup

/-- Slots, marks and metadata agree with what is stored. -/
structure Stored (hash : Hash) (c : Core) : Prop where
  diskOk : DiskOk hash c
  solid : Solid c
  marked : Marked c
  commit : CommitSaved c

/-- The invariant of a replica with a disk. -/
structure Safe (hash : Hash) (c : Core) : Prop extends Stored hash c where
  disk : ∃ d, c.disk = some d
  published : ∀ r ∈ c.history, PublishedDurably r.state r.event

theorem Act.disk (h : Act hash inp allow c c') (hd : ∃ d, c.disk = some d) :
    ∃ d, c'.disk = some d := by
  obtain ⟨d, hd⟩ := hd
  cases h with
  | view h =>
    obtain ⟨-, h1, -⟩ := PublishAct.view h
    exact ⟨d, h1.trans hd⟩
  | commit h =>
    rw [h.frame]
    exact ⟨d, hd⟩
  | arm => exact ⟨_, by rw [hd]; rfl⟩
  | sync => exact ⟨_, rfl⟩
  | fail => exact ⟨_, rfl⟩
  | _ => exact ⟨d, hd⟩

theorem Emits.durably {ev : Event} {snap : Snapshot} (h : Emits hash inp c ev snap)
    (hs : Sane hash c) (hsafe : Safe hash c) : PublishedDurably snap ev := by
  obtain ⟨d, hd⟩ := hsafe.disk
  have hmeta : c.snapshot.metadata = d.metadata := by
    show c.disk.bind _ = _
    rw [hd]
    rfl
  cases h with
  | sent h hup => exact h.durably hup hs hsafe.marked hd
  | replayed h hup =>
    cases h with
    | replay hx =>
      refine ⟨hup, ?_⟩
      rw [hmeta]
      exact hsafe.commit.table _ (List.mem_of_find?_eq_some hx) d hd
    | logFull => exact hup
  | executed hpos hle hdirty hup =>
    obtain ⟨m, hm, hcommit⟩ := hsafe.commit.commit hup hdirty (by omega) d hd
    exact ⟨hup, m, hmeta.trans hm, hle.trans hcommit⟩
  | _ => trivial

theorem Act.stored (h : Act hash inp allow c c') (hs : Sane hash c) (hst : Stored hash c) :
    Stored hash c' where
  diskOk := h.diskOk hs hst.diskOk
  solid := h.solid hs hst.solid
  marked := h.marked hs hst.diskOk hst.solid hst.marked
  commit := h.commitSaved hs hst.diskOk hst.commit

theorem Act.safe (h : Act hash inp allow c c') (hs : Sane hash c) (hsafe : Safe hash c) :
    Safe hash c' where
  toStored := h.stored hs hsafe.toStored
  disk := h.disk hsafe.disk
  published := by
    rcases h.grows with hist | ⟨ev, snap, hist, hem⟩
    · rw [hist]
      exact hsafe.published
    · rw [hist]
      intro r hr
      rcases List.mem_append.mp hr with hr | hr
      · exact hsafe.published r hr
      · rw [List.mem_singleton.mp hr]
        exact hem.durably hs hsafe

theorem noteInstalled_published (h : ∀ r ∈ c.history, PublishedDurably r.state r.event) :
    ∀ r ∈ c.noteInstalled.history, PublishedDurably r.state r.event := by
  intro r hr
  rcases List.mem_append.mp hr with hr | hr
  · exact h r hr
  · rw [List.mem_singleton.mp hr]
    trivial

theorem Core.Restarts.stored (h : c.Restarts hash c') (hok : DiskOk hash c) : Stored hash c' where
  diskOk := h.diskOk hok
  solid := h.solid
  marked := h.marked
  commit := h.commitSaved

theorem Core.Restarts.safe (h : c.Restarts hash c') (hd : ∃ d, c.disk = some d)
    (hok : DiskOk hash c) (hpub : ∀ r ∈ c.history, PublishedDurably r.state r.event) :
    Safe hash c' where
  toStored := h.stored hok
  disk := by
    obtain ⟨d, hd⟩ := hd
    have hre : c.reborn.disk = some d.crash := by
      show c.disk.map _ = _
      rw [hd]
      rfl
    cases h with
    | blank => exact ⟨_, hre⟩
    | recovered _ _ _ h =>
      rw [Replica.rebuildCommittedState_frame h]
      exact ⟨_, hre⟩
  published := by
    rw [h.history]
    exact hpub

theorem start_stored {cfg : ReplicaConfig} (hblank : ∀ d ∈ cfg.disk, d = {}) :
    Stored hash (Replica.freshState cfg []).toCore where
  diskOk := Process.start_diskOk hblank
  solid := start_solid cfg
  marked := start_marked cfg
  commit :=
    { commit := fun _ _ h => by cases h
      bound := fun d hd m hm => by rw [hblank d hd] at hm; cases hm
      table := fun x hx => by cases hx }

theorem start_safe {cfg : ReplicaConfig} (hdisk : cfg.disk = some {}) :
    Safe hash (Replica.freshState cfg []).toCore where
  toStored := start_stored fun d hd => (Option.some.inj (hdisk.symm.trans hd)).symm
  disk := ⟨_, hdisk⟩
  published := fun r hr => by cases hr

/-! ### Fail-stop -/

def Event.isEmission : Event → Bool
  | .sent _ _ | .replied _ _ _ _ => true
  | _ => false

/-- The messages and client replies of a history. -/
def emissions (history : List Record) : List Record := history.filter (·.event.isEmission)

theorem emissions_noteInstalled (c : Core) :
    emissions c.noteInstalled.history = emissions c.history := by
  show List.filter _ (c.history ++ [_]) = _
  simp [emissions, Event.isEmission]

theorem Act.storageFailed (h : Act hash inp allow c c') (hf : c.storageFailed = true) :
    c'.storageFailed = true := by
  cases h with
  | view h =>
    obtain ⟨-, -, h2⟩ := PublishAct.view h
    exact h2.trans hf
  | commit h =>
    rw [h.frame]
    exact hf
  | fail => rfl
  | _ => exact hf

theorem Act.emissions (h : Act hash inp allow c c') (hf : c.storageFailed = true) :
    emissions c'.history = Hivemind.emissions c.history := by
  rcases h.grows with hist | ⟨ev, snap, hist, hem⟩
  · rw [hist]
  · have hsilent : ev.isEmission = false := by
      cases hem with
      | sent _ hup => exact absurd (hup.symm.trans hf) (by decide)
      | replayed _ hup => exact absurd (hup.symm.trans hf) (by decide)
      | executed _ _ _ hup => exact absurd (hup.symm.trans hf) (by decide)
      | _ => rfl
    rw [hist, Hivemind.emissions, List.filter_append]
    simp [Hivemind.emissions, hsilent]

/-- Whatever happens to a replica with a disk, crashes and disk faults included: what it
publishes is on disk when it does, and after a failed barrier it publishes nothing any
more. -/
theorem nothing_published_before_durable (cfg : ReplicaConfig) (s₀ : Replica)
    (hinit : Replica.initInPlace cfg = some s₀) (hdisk : cfg.disk = some {})
    (turns : List Turn) (more : List (Input × Env)) :
    (∀ r ∈ ((Process.mk s₀ false).run hash turns).replica.history,
        PublishedDurably r.state r.event) ∧
      (((Process.mk s₀ false).run hash turns).replica.storageFailed = true →
        emissions (((Process.mk s₀ false).run hash turns).calls hash more).replica.history =
          emissions ((Process.mk s₀ false).run hash turns).replica.history) := by
  unfold Replica.initInPlace at hinit
  split at hinit
  swap
  · cases hinit
  next hcount =>
  cases hinit
  have hstart : Safe hash (Replica.freshState cfg []).toCore := start_safe hdisk
  obtain ⟨c, hc, hs, hsafe⟩ := (Process.start_runsAs cfg).run
    (fun inp c c' hs h hact => hact.safe hs h)
    (fun c c₀ c' hc₀ hs hsafe hre => by
      rcases hc₀ with rfl | rfl
      · exact ⟨hre.sane hs hsafe.diskOk, hre.safe hsafe.disk hsafe.diskOk hsafe.published⟩
      · exact ⟨hre.sane (noteInstalled_sane hs) (noteInstalled_diskOk hsafe.diskOk),
          hre.safe hsafe.disk (noteInstalled_diskOk hsafe.diskOk)
            (noteInstalled_published hsafe.published)⟩)
    turns (Replica.freshState_sane hcount.1) hstart
  refine ⟨?_, fun hfailed => ?_⟩
  · rcases hc.remains.history with h | h
    · exact fun r hr => hsafe.published r (h ▸ hr)
    · exact fun r hr => noteInstalled_published hsafe.published r (h ▸ hr)
  · cases hstop : ((Process.start cfg).run hash turns).stopped with
    | true =>
      -- a stopped process does nothing at all
      exact congrArg emissions (congrArg (·.replica.history) (Process.calls_of_stopped more hstop))
    | false =>
      have hrun := hc.running hstop
      obtain ⟨c', hc', -, -, hemit⟩ := hc.calls
        (I := fun c' => c'.storageFailed = true ∧ emissions c'.history = emissions c.history)
        (fun inp c₁ c₂ _ h hact =>
          ⟨hact.storageFailed h.1, (hact.emissions h.1).trans h.2⟩)
        more hs ⟨hrun ▸ hfailed, rfl⟩
      have hsame : emissions (((Process.start cfg).run hash turns).calls hash more).replica.history =
          emissions c'.history := by
        rcases hc'.remains.history with h | h
        · rw [h]
        · rw [h, emissions_noteInstalled]
      rw [hrun] at hemit
      exact hsame.trans hemit

/-- A replica alone in its cluster answers a request; then a disk write fails. -/
theorem nothing_published_after_failed_write :
    let cfg := (ClusterConfig.uniform 1 (by decide) true).cfg 0
    let ask (id : ℕ) : Input := .request { clientId := 7, requestId := id }
    let p := (Process.mk (Replica.freshState cfg []) false).run pairingHash
      [.call (ask 1) {}, .call .tick {}, .call (ask 2) {}, .call .tick { faults := [true] }]
    (emissions p.replica.history).length = 1 ∧
      emissions (p.calls pairingHash [(.tick, {})]).replica.history =
        emissions p.replica.history :=
  ⟨by decide +kernel,
    (nothing_published_before_durable ((ClusterConfig.uniform 1 (by decide) true).cfg 0) _ rfl rfl
      _ _).2 (by decide +kernel)⟩

end Hivemind
