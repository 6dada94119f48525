import Hivemind.Journal
import Hivemind.HashChain

/-! Installing a validated candidate: the journal becomes the committed prefix followed
by the candidate, a chain without gaps that ends in the selected tip. -/
namespace Hivemind

open HashChain

/-- The entries sit at consecutive ops starting with `op`. -/
def Numbered (op : ℕ) (l : List LogEntry) : Prop := ∀ k e, l[k]? = some e → e.opNumber = op + k

theorem Numbered.tail {op : ℕ} {e : LogEntry} {l : List LogEntry} (h : Numbered op (e :: l)) :
    Numbered (op + 1) l := by
  intro k e' hk
  have := h (k + 1) e' (by simpa using hk)
  omega

theorem Numbered.cons {op : ℕ} {e : LogEntry} {l : List LogEntry} (he : e.opNumber = op)
    (h : Numbered (op + 1) l) : Numbered op (e :: l) := by
  intro k e' hk
  cases k with
  | zero =>
    cases hk
    exact he
  | succ k =>
    have := h k e' (by simpa using hk)
    omega

/-- The entries are linked by their checksums and end in `tip`. -/
abbrev Linked (parent : ℕ) (l : List LogEntry) (tip : ℕ) : Prop :=
  Chain LogEntry.checksum LogEntry.parentChecksum parent l tip

/-- What a candidate that passes `validate` contains. -/
structure Suffix (hash : Hash) (op parent : ℕ) (l : List LogEntry) (tip : ℕ) : Prop where
  numbered : Numbered op l
  valid : ∀ e ∈ l, e.valid hash = true
  linked : Linked parent l tip

namespace ViewChangeCandidate

variable {hash : Hash}

theorem validateFrom_ok : ∀ {entries : List (Option LogEntry)} {op parent tip : ℕ},
    validateFrom hash entries op parent = .ok tip →
      ∃ l, entries = l.map some ∧ Suffix hash op parent l tip
  | [], op, parent, tip, h => by
    cases h
    exact ⟨[], rfl, ⟨fun k e hk => by simp at hk, by simp, rfl⟩⟩
  | none :: rest, op, parent, tip, h => by cases h
  | some e :: rest, op, parent, tip, h => by
    unfold validateFrom at h
    split_ifs at h with hop hval hpar
    obtain ⟨l, rfl, hl⟩ := validateFrom_ok h
    refine ⟨e :: l, rfl, ⟨.cons (not_not.mp hop) hl.numbered, ?_, ⟨not_not.mp hpar, hl.linked⟩⟩⟩
    intro e' he'
    rcases List.mem_cons.mp he' with rfl | he'
    · simpa using hval
    · exact hl.valid e' he'

variable {cand : ViewChangeCandidate} {committedOp committedChecksum : ℕ}

/-- A validated candidate is a linked suffix from the committed entry to its tip. -/
theorem validate_ok (h : cand.validate hash committedOp committedChecksum = .ok ()) :
    cand.info.baseOp = committedOp + 1 ∧ cand.info.commitBound ≤ cand.info.tipOp ∧
      ∃ l, cand.entries = l.map some ∧ Suffix hash (committedOp + 1)
        (if committedOp = 0 then 0 else committedChecksum) l cand.info.tipChecksum := by
  unfold validate at h
  split at h
  · cases h
  split at h
  · cases h
  next hb =>
  split at h
  · cases h
  next hbound =>
  split at h
  · cases h
  next tip hv =>
  split at h
  · cases h
  next ht =>
  rw [not_not] at hb ht
  obtain ⟨l, hl, hs⟩ := validateFrom_ok hv
  rw [ht, hb] at hs
  exact ⟨hb, by omega, l, hl, hs⟩

end ViewChangeCandidate

namespace Core

variable {hash : Hash} {c : Core}

/-! ### The journal after an installation -/

/-- Writing consecutive entries above everything the journal holds. -/
theorem putAll_spec : ∀ {l : List LogEntry} {c : Core} (base : ℕ), SlotOk hash c → 0 < base →
    base + l.length ≤ logSizeMax + 1 → Numbered base l → (∀ e ∈ l, e.valid hash = true) →
    (∀ op, base ≤ op → c.journalGet op = none) →
      SlotOk hash (l.foldl journalPutFromValidatedStartView c) ∧
      ∀ op, (l.foldl journalPutFromValidatedStartView c).journalGet op =
        if op < base then c.journalGet op else l[op - base]?
  | [], c, base, hs, _, _, _, _, hfree => by
    refine ⟨hs, fun op => ?_⟩
    simp only [List.foldl_nil, List.getElem?_nil]
    split
    · rfl
    · next h => exact hfree op (by omega)
  | e :: l, c, base, hs, hpos, hlen, hnum, hval, hfree => by
    have hop : e.opNumber = base := hnum 0 e rfl
    simp only [List.length_cons] at hlen
    have hslot : c.journal (journalSlot e.opNumber) = none := by
      rw [hs.slot_eq_journalGet (by omega) (by omega)]
      exact hfree _ (by omega)
    have hacc : c.putAccepts e true = true := putAccepts_of_free (by omega) (by omega) hslot
    have hget : ∀ op, (c.journalPutFromValidatedStartView e).journalGet op =
        if op = base then some e else c.journalGet op := by
      intro op
      rw [journalPutFromValidatedStartView, journalGet_put hs, hop]
      simp [hacc]
    obtain ⟨hs', hrest⟩ := putAll_spec (c := c.journalPutFromValidatedStartView e) (base + 1)
      (hs.put (hval e (by simp))) (by omega) (by omega) hnum.tail
      (fun e' he' => hval e' (by simp [he'])) (fun op h => by
        rw [hget, if_neg (by omega)]
        exact hfree op (by omega))
    refine ⟨hs', fun op => ?_⟩
    rw [List.foldl_cons, hrest, hget]
    rcases lt_trichotomy op base with h | h | h
    · rw [if_pos (by omega), if_neg (by omega), if_pos h]
    · rw [if_pos (by omega), if_pos h, if_neg (by omega), h]
      simp
    · rw [if_neg (by omega), if_neg (by omega)]
      obtain ⟨k, rfl⟩ : ∃ k, op = base + 1 + k := ⟨op - (base + 1), by omega⟩
      rw [show base + 1 + k - (base + 1) = k by omega, show base + 1 + k - base = k + 1 by omega,
        List.getElem?_cons_succ]

theorem installEntries_map (l : List LogEntry) : c.installEntries (l.map some) =
    l.foldl journalPutFromValidatedStartView
      (c.truncateAboveFromValidatedStartView c.commitMin) := by
  rw [installEntries, List.foldl_map]

/-- The committed prefix stays, and above it the journal holds exactly the candidate. -/
theorem journalGet_installEntries {l : List LogEntry} (hs : SlotOk hash c)
    (hlen : c.commitMin + l.length ≤ logSizeMax) (hnum : Numbered (c.commitMin + 1) l)
    (hval : ∀ e ∈ l, e.valid hash = true) :
    SlotOk hash (c.installEntries (l.map some)) ∧
      ∀ op, (c.installEntries (l.map some)).journalGet op =
        if op ≤ c.commitMin then c.journalGet op else l[op - (c.commitMin + 1)]? := by
  obtain ⟨hs', hget⟩ := putAll_spec (c := c.truncateAboveFromValidatedStartView c.commitMin)
    (c.commitMin + 1) hs.truncate (by omega) (by omega) hnum hval (fun op h => by
      rw [journalGet_truncate, if_neg (by omega)])
  rw [installEntries_map]
  refine ⟨hs', fun op => ?_⟩
  rw [hget, journalGet_truncate]
  by_cases h : op ≤ c.commitMin
  · rw [if_pos (by omega), if_pos (by omega), if_pos h]
  · rw [if_neg (by omega), if_neg h]

/-! ### Chain walk and highest op -/

theorem chainGapFrom_of_suffix : ∀ {l : List LogEntry} {base parent tip : ℕ},
    (∀ k e, l[k]? = some e → c.journalGet (base + k) = some e) →
    (∀ e ∈ l, e.valid hash = true) → Linked parent l tip →
      chainGapFrom hash c.journalGet (List.range' base l.length) parent = false
  | [], _, _, _, _, _, _ => rfl
  | e :: l, base, parent, tip, hget, hval, hlink => by
    have he : c.journalGet base = some e := hget 0 e rfl
    have hv : e.valid hash = true := hval e (by simp)
    rw [List.length_cons, List.range'_succ, chainGapFrom, he]
    simp only [hv, hlink.1, Bool.not_true, bne_self_eq_false, Bool.or_self]
    exact chainGapFrom_of_suffix (fun k e' hk => by
      have := hget (k + 1) e' (by simpa using hk)
      rwa [show base + 1 + k = base + (k + 1) by omega])
      (fun e' he' => hval e' (by simp [he'])) hlink.2

theorem highOp_spec (is : List ℕ) (h₀ : ℕ) :
    let high := is.foldl (fun high i => match c.journal i with
      | none => high
      | some e => if e.opNumber > high then e.opNumber else high) h₀
    h₀ ≤ high ∧ (∀ i ∈ is, ∀ e, c.journal i = some e → e.opNumber ≤ high) ∧
      (high = h₀ ∨ ∃ i ∈ is, ∃ e, c.journal i = some e ∧ e.opNumber = high) := by
  induction is generalizing h₀ with
  | nil => simp
  | cons i is ih =>
    -- what the slot makes of the highest op so far
    obtain ⟨h₁, hstep, hle, hup, hwhich⟩ : ∃ h₁, (match c.journal i with
        | none => h₀
        | some e => if e.opNumber > h₀ then e.opNumber else h₀) = h₁ ∧ h₀ ≤ h₁ ∧
        (∀ e, c.journal i = some e → e.opNumber ≤ h₁) ∧
        (h₁ = h₀ ∨ ∃ e, c.journal i = some e ∧ e.opNumber = h₁) := by
      refine ⟨_, rfl, ?_⟩
      cases c.journal i with
      | none => simp
      | some e =>
        dsimp only
        split
        · next hgt => exact ⟨hgt.le, (by rintro _ ⟨⟩; exact le_rfl), .inr ⟨e, rfl, rfl⟩⟩
        · next hle => exact ⟨le_rfl, (by rintro _ ⟨⟩; omega), .inl rfl⟩
    obtain ⟨h1, h2, h3⟩ := ih h₁
    rw [List.foldl_cons, hstep]
    refine ⟨hle.trans h1, ?_, ?_⟩
    · intro j hjm e he
      rcases List.mem_cons.mp hjm with rfl | hjm
      · exact (hup e he).trans h1
      · exact h2 j hjm e he
    · rcases h3 with h3 | ⟨j, hjm, e, he⟩
      · rw [h3]
        exact hwhich.imp_right fun ⟨e, he⟩ => ⟨i, List.mem_cons_self, e, he⟩
      · exact .inr ⟨j, List.mem_cons_of_mem _ hjm, e, he⟩

theorem le_logHighOp {op : ℕ} (h : c.journalHas op = true) :
    op ≤ c.logHighOp := by
  obtain ⟨e, he⟩ := journalHas_iff.mp h
  obtain ⟨-, hj, hop⟩ := journalGet_eq_some.mp he
  have := (highOp_spec (c := c) slots 0).2.1 (journalSlot op)
    (mem_slots.mpr (journalSlot_lt op)) e hj
  exact hop ▸ this

theorem journalHas_logHighOp (hs : SlotOk hash c) :
    c.logHighOp = 0 ∨ c.journalHas c.logHighOp = true := by
  rcases (highOp_spec (c := c) slots 0).2.2 with h | ⟨i, -, e, he, hop⟩
  · exact .inl h
  · have hget := hs.journalGet_of_slot he
    rw [hop] at hget
    exact .inr (journalHas_iff.mpr ⟨e, hget⟩)

theorem logHighOp_eq (hs : SlotOk hash c) {high : ℕ}
    (hhas : high = 0 ∨ c.journalHas high = true)
    (habove : ∀ op, high < op → c.journalGet op = none) : c.logHighOp = high := by
  apply le_antisymm
  · by_contra hlt
    rcases journalHas_logHighOp hs with h | h
    · omega
    · rw [journalHas, habove _ (by omega)] at h
      cases h
  · rcases hhas with h | h
    · omega
    · exact le_logHighOp h

end Core

end Hivemind
