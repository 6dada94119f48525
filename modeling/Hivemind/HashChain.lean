import Mathlib.Data.List.Infix
import Mathlib.Tactic

/-! Lists whose elements name their predecessor by a key: `Chain p l t` reads from the
key `p` before the first element to the key `t` of the last one. With distinct keys a
chain is determined by its length and its tip. -/
namespace HashChain

variable {α κ : Type*} (key back : α → κ)

def Chain : κ → List α → κ → Prop
  | p, [], t => p = t
  | p, a :: l, t => back a = p ∧ Chain (key a) l t

variable {key back} {p q t t' : κ} {a : α} {l m : List α}

@[simp] theorem chain_nil : Chain key back p [] t ↔ p = t := Iff.rfl

@[simp] theorem chain_cons : Chain key back p (a :: l) t ↔ back a = p ∧ Chain key back (key a) l t :=
  Iff.rfl

theorem chain_append :
    Chain key back p (l ++ m) t ↔ ∃ q, Chain key back p l q ∧ Chain key back q m t := by
  induction l generalizing p with
  | nil => simp
  | cons a l ih => simp [ih, and_assoc]

theorem chain_concat :
    Chain key back p (l ++ [a]) t ↔ Chain key back p l (back a) ∧ key a = t := by
  rw [chain_append]
  constructor
  · rintro ⟨q, h, rfl, ht⟩
    exact ⟨h, ht⟩
  · rintro ⟨h, ht⟩
    exact ⟨_, h, rfl, ht⟩

theorem Chain.back_head (h : Chain key back p l t) (ha : l[0]? = some a) : back a = p := by
  cases l with
  | nil => cases ha
  | cons b l =>
    cases ha
    exact h.1

theorem Chain.back_succ {b : α} {n : ℕ} (h : Chain key back p l t) (ha : l[n]? = some a)
    (hb : l[n + 1]? = some b) : back b = key a := by
  induction l generalizing p n with
  | nil => cases ha
  | cons c l ih =>
    cases n with
    | zero =>
      cases ha
      exact h.2.back_head hb
    | succ n => exact ih h.2 ha hb

/-- Elements that name the one before them form a chain. -/
theorem exists_chain (hhead : ∀ a, l[0]? = some a → back a = p)
    (hsucc : ∀ n a b, l[n]? = some a → l[n + 1]? = some b → back b = key a) :
    ∃ t, Chain key back p l t := by
  induction l generalizing p with
  | nil => exact ⟨p, rfl⟩
  | cons a l ih =>
    obtain ⟨t, ht⟩ := ih (p := key a) (fun b hb => hsucc 0 a b rfl hb)
      (fun n b c hb hc => hsucc (n + 1) b c hb hc)
    exact ⟨t, hhead a rfl, ht⟩

/-- Chains of one length that end in one key are equal, if the key identifies the
elements that occur. -/
theorem Chain.eq_of_tip {S : α → Prop} (hinj : ∀ a b, S a → S b → key a = key b → a = b)
    (hl : ∀ a ∈ l, S a) (hm : ∀ a ∈ m, S a) (hlen : l.length = m.length)
    (h : Chain key back p l t) (h' : Chain key back q m t) : l = m := by
  induction l using List.reverseRecOn generalizing m t with
  | nil => exact (List.length_eq_zero_iff.mp hlen.symm).symm
  | append_singleton l a ih =>
    obtain ⟨m, b, rfl⟩ : ∃ m' b, m = m' ++ [b] := by
      refine ⟨m.dropLast, m.getLast ?_, (List.dropLast_append_getLast _).symm⟩
      rintro rfl
      simp at hlen
    obtain ⟨hc, ht⟩ := chain_concat.mp h
    obtain ⟨hc', ht'⟩ := chain_concat.mp h'
    have hab : a = b := hinj a b (hl a (by simp)) (hm b (by simp)) (ht.trans ht'.symm)
    subst hab
    rw [ih (fun x hx => hl x (by simp [hx])) (fun x hx => hm x (by simp [hx]))
      (by simpa using hlen) hc hc']

end HashChain
