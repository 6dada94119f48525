import Mathlib

/-! Sums over the values of a table with unique keys, and how the writes to the table change
them. -/
namespace AList

variable {α β : Type} [DecidableEq α] {m : AList fun _ : α => β} {a : α} {b c : β}

/-- The sum of `f` over the values. -/
def total (f : β → ℕ) (m : AList fun _ : α => β) : ℕ := (m.entries.map fun e => f e.2).sum

theorem total_erase (f : β → ℕ) (h : m.lookup a = some b) :
    f b + (m.erase a).total f = m.total f := by
  have hmem : a ∈ m.entries.keys := by
    apply AList.lookup_isSome.mp
    rw [h]
    rfl
  obtain ⟨b', l₁, l₂, hnot, hl, he⟩ := List.exists_of_kerase hmem
  have hb : b' = b := by
    have hin : (⟨a, b'⟩ : Σ _ : α, β) ∈ m.entries := by rw [hl]; simp
    have := (List.mem_dlookup_iff m.nodupKeys).mpr hin
    exact Option.some.inj (this.symm.trans h)
  subst hb
  show f b' + ((m.entries.kerase a).map fun e => f e.2).sum = (m.entries.map fun e => f e.2).sum
  rw [he]
  conv_rhs => rw [hl]
  simp only [List.map_append, List.map_cons, List.sum_append, List.sum_cons]
  omega

theorem total_insert (f : β → ℕ) : (m.insert a b).total f = f b + (m.erase a).total f := by
  show ((List.kinsert a b m.entries).map fun e => f e.2).sum = _
  rfl

theorem erase_of_notMem (h : a ∉ m) : m.erase a = m :=
  AList.ext (List.kerase_of_notMem_keys h)

theorem total_insert_of_lookup (f : β → ℕ) (h : m.lookup a = some b) :
    (m.insert a c).total f + f b = m.total f + f c := by
  rw [total_insert, ← total_erase f h]
  omega

theorem total_insert_of_notMem (f : β → ℕ) (h : a ∉ m) :
    (m.insert a c).total f = f c + m.total f := by
  rw [total_insert, erase_of_notMem h]

omit [DecidableEq α] in
theorem keys_length_le {γ : Type} {n : AList fun _ : α => γ} (h : ∀ a, a ∈ m → a ∈ n) :
    m.keys.length ≤ n.keys.length :=
  (List.subperm_of_subset m.keys_nodup h).length_le

theorem mem_of_lookup (h : m.lookup a = some b) : a ∈ m := by
  apply AList.lookup_isSome.mp
  rw [h]
  rfl

theorem forall_lookup_insert {P : α → β → Prop} (h : ∀ a b, m.lookup a = some b → P a b)
    (hc : P a c) : ∀ a' b, (m.insert a c).lookup a' = some b → P a' b := by
  intro a' b hb
  by_cases heq : a' = a
  · subst heq
    rw [AList.lookup_insert] at hb
    cases hb
    exact hc
  · rw [AList.lookup_insert_ne heq] at hb
    exact h a' b hb

theorem forall_lookup_erase {P : α → β → Prop} (h : ∀ a b, m.lookup a = some b → P a b) :
    ∀ a' b, (m.erase a).lookup a' = some b → P a' b := by
  intro a' b hb
  by_cases heq : a' = a
  · subst heq
    rw [AList.lookup_erase] at hb
    contradiction
  · rw [AList.lookup_erase_ne heq] at hb
    exact h a' b hb

end AList
