import Hivemind.Selection

/-! The journal as a partial function from ops to entries: what `journalGet` returns
after each operation on the slots. -/
namespace Hivemind

theorem journalSlot_inj {a b : ℕ} (ha : 0 < a) (ha' : a ≤ logSizeMax) (hb : 0 < b)
    (hb' : b ≤ logSizeMax) (h : journalSlot a = journalSlot b) : a = b := by
  simp only [journalSlot, logSizeMax, logBitsetBits, logBitsetWords] at *
  omega

theorem journalSlot_lt (op : ℕ) : journalSlot op < logSizeMax :=
  Nat.mod_lt _ (by decide)

namespace Core

variable {hash : Hash} {c : Core} {op : ℕ} {e : LogEntry}

theorem journalGet_eq_some :
    c.journalGet op = some e ↔ op ≠ 0 ∧ c.journal (journalSlot op) = some e ∧ e.opNumber = op := by
  unfold journalGet
  split
  · next h => simp [h]
  · next h => simp [Option.filter_eq_some_iff, h]

theorem journalGet_zero : c.journalGet 0 = none := rfl

theorem opNumber_of_journalGet (h : c.journalGet op = some e) : e.opNumber = op :=
  (journalGet_eq_some.mp h).2.2

theorem journalHas_iff : c.journalHas op = true ↔ ∃ e, c.journalGet op = some e :=
  Option.isSome_iff_exists

theorem journalHas_pos (h : c.journalHas op = true) : 0 < op := by
  rcases Nat.eq_zero_or_pos op with rfl | hpos
  · cases h
  · exact hpos

theorem journalHas_false : c.journalHas op = false ↔ c.journalGet op = none := by
  simp [journalHas]

/-- Every occupied slot holds a valid entry of an op that belongs there. -/
def SlotOk (hash : Hash) (c : Core) : Prop :=
  ∀ ⦃i : ℕ⦄ ⦃e : LogEntry⦄, c.journal i = some e →
    (0 < e.opNumber ∧ e.opNumber ≤ logSizeMax) ∧ i = journalSlot e.opNumber ∧ e.valid hash = true

namespace SlotOk

theorem journalGet_of_slot (hs : SlotOk hash c) {i : ℕ} (h : c.journal i = some e) :
    c.journalGet e.opNumber = some e := by
  obtain ⟨⟨hpos, -⟩, hi, -⟩ := hs h
  exact journalGet_eq_some.mpr ⟨by omega, hi ▸ h, rfl⟩

theorem bounds (hs : SlotOk hash c) (h : c.journalGet op = some e) : 0 < op ∧ op ≤ logSizeMax := by
  obtain ⟨-, hj, hop⟩ := journalGet_eq_some.mp h
  exact hop ▸ (hs hj).1

theorem valid (hs : SlotOk hash c) (h : c.journalGet op = some e) : e.valid hash = true :=
  (hs (journalGet_eq_some.mp h).2.1).2.2

theorem slot_eq_journalGet (hs : SlotOk hash c) (hpos : 0 < op) (hle : op ≤ logSizeMax) :
    c.journal (journalSlot op) = c.journalGet op := by
  cases h : c.journal (journalSlot op) with
  | none =>
    symm
    rw [Option.eq_none_iff_forall_ne_some]
    intro e he
    rw [(journalGet_eq_some.mp he).2.1] at h
    cases h
  | some e =>
    obtain ⟨⟨hp, hl⟩, hi, -⟩ := hs h
    have hop : op = e.opNumber := journalSlot_inj hpos hle hp hl hi
    rw [hop]
    exact (journalGet_of_slot hs h).symm

end SlotOk

/-! ### Writing an entry -/

theorem putAccepts_bounds {b : Bool} (h : c.putAccepts e b = true) :
    0 < e.opNumber ∧ e.opNumber ≤ logSizeMax := by
  simp only [putAccepts, Bool.and_eq_true, Bool.not_eq_true', Bool.or_eq_false_iff,
    beq_eq_false_iff_ne, decide_eq_false_iff_not] at h
  omega

theorem putAccepts_of_free {b : Bool} (hpos : 0 < e.opNumber) (hle : e.opNumber ≤ logSizeMax)
    (hfree : c.journal (journalSlot e.opNumber) = none) : c.putAccepts e b = true := by
  have h : c.slotAgrees e = true := by rw [slotAgrees, hfree]
  simp only [putAccepts, h, Bool.true_or, Bool.and_true, Bool.not_eq_true', Bool.or_eq_false_iff,
    beq_eq_false_iff_ne, decide_eq_false_iff_not]
  omega

theorem journal_put {b : Bool} (i : ℕ) : (c.journalPutInternal e b).journal i =
    if c.putAccepts e b = true ∧ i = journalSlot e.opNumber then some e else c.journal i := by
  show (if c.putAccepts e b = true then upd c.journal _ _ else c.journal) i = _
  by_cases h : c.putAccepts e b = true
  · simp [h, upd_apply]
  · simp [h]

theorem SlotOk.put {b : Bool} (hs : SlotOk hash c) (he : e.valid hash = true) :
    SlotOk hash (c.journalPutInternal e b) := by
  intro i e' h
  rw [journal_put] at h
  split at h
  · next ha =>
    cases h
    exact ⟨putAccepts_bounds ha.1, ha.2, he⟩
  · exact hs h

theorem journalGet_put {b : Bool} (hs : SlotOk hash c) : (c.journalPutInternal e b).journalGet op =
    if c.putAccepts e b = true ∧ op = e.opNumber then some e else c.journalGet op := by
  by_cases ha : c.putAccepts e b = true
  · obtain ⟨hpos, hle⟩ := putAccepts_bounds ha
    by_cases hop : op = e.opNumber
    · rw [if_pos ⟨ha, hop⟩, journalGet_eq_some]
      exact ⟨by omega, by rw [journal_put, if_pos ⟨ha, by rw [hop]⟩], hop.symm⟩
    · rw [if_neg (fun h => hop h.2)]
      ext e'
      constructor
      · intro h
        obtain ⟨h0, hj, hop'⟩ := journalGet_eq_some.mp h
        rw [journal_put] at hj
        split at hj
        · cases hj
          exact absurd hop'.symm hop
        · exact journalGet_eq_some.mpr ⟨h0, hj, hop'⟩
      · intro h
        obtain ⟨h0, hj, hop'⟩ := journalGet_eq_some.mp h
        obtain ⟨hb, hb'⟩ := hs.bounds h
        refine journalGet_eq_some.mpr ⟨h0, ?_, hop'⟩
        rw [journal_put, if_neg]
        · exact hj
        · exact fun hh => hop (journalSlot_inj hb hb' hpos hle hh.2)
  · rw [if_neg (fun h => ha h.1)]
    have hj : (c.journalPutInternal e b).journal = c.journal := by
      funext i
      rw [journal_put, if_neg (fun h => ha h.1)]
    unfold journalGet
    rw [hj]

/-! ### Truncation -/

theorem truncates_validated {limit i : ℕ} : c.truncates limit true i = true ↔
    ∃ e, c.journal i = some e ∧ limit < e.opNumber ∧ c.commitMin < e.opNumber := by
  unfold truncates
  cases c.journal i <;> simp

theorem SlotOk.truncate {limit : ℕ} {b : Bool} (hs : SlotOk hash c) :
    SlotOk hash (c.truncateAboveInternal limit b) := by
  intro i e h
  have h' : (if c.truncates limit b i then none else c.journal i) = some e := h
  split at h'
  · cases h'
  · exact hs h'

/-- Truncation from a validated `StartView` keeps exactly the ops up to the limit, and
never a committed one less. -/
theorem journalGet_truncate {limit : ℕ} :
    (c.truncateAboveFromValidatedStartView limit).journalGet op =
      if op ≤ max limit c.commitMin then c.journalGet op else none := by
  ext e
  rw [journalGet_eq_some]
  show op ≠ 0 ∧ (if c.truncates limit true (journalSlot op) then none
    else c.journal (journalSlot op)) = some e ∧ e.opNumber = op ↔ _
  constructor
  · rintro ⟨h0, hj, hop⟩
    split at hj
    · cases hj
    · next hg =>
      have hle : op ≤ max limit c.commitMin := by
        by_contra hlt
        exact hg (truncates_validated.mpr ⟨e, hj, by omega, by omega⟩)
      rw [if_pos hle]
      exact journalGet_eq_some.mpr ⟨h0, hj, hop⟩
  · intro h
    split at h
    · next hle =>
      obtain ⟨h0, hj, hop⟩ := journalGet_eq_some.mp h
      refine ⟨h0, ?_, hop⟩
      rw [if_neg]
      · exact hj
      · intro hg
        obtain ⟨e', he', hlim, hcm⟩ := truncates_validated.mp hg
        rw [hj] at he'
        cases he'
        omega
    · cases h

end Core

end Hivemind
