import Mathlib.Tactic.Common

/-! Commands over a state that may end in an error, and their pre- and postconditions. `wp m Q E`
is what has to hold before `m` so that a run that returns ends in `Q` and one that fails does so
with an error of `E`: with `E` empty it says that `m` returns, with `E` full it says nothing about
a run that does not. -/
namespace Hivemind

abbrev Fallible (σ ε α : Type) : Type := StateT σ (Except ε) α

namespace Fallible

variable {σ ε α β : Type}

def wp (m : Fallible σ ε α) (Q : α → σ → Prop) (E : ε → Prop) (s : σ) : Prop :=
  match m s with
  | .ok (a, s') => Q a s'
  | .error e => E e

variable {Q R : α → σ → Prop} {E F : ε → Prop} {s : σ}

theorem wp_bind (m : Fallible σ ε β) (f : β → Fallible σ ε α) :
    wp (m >>= f) Q E s ↔ wp m (fun b t => wp (f b) Q E t) E s := by
  show (match (m s >>= fun p => f p.1 p.2 : Except ε (α × σ)) with
    | .ok (a, s') => Q a s' | .error e => E e) ↔ _
  cases h : m s <;> simp only [wp, h] <;> rfl

theorem wp_mono {m : Fallible σ ε α} (h : wp m Q E s) (hq : ∀ a t, Q a t → R a t)
    (he : ∀ e, E e → F e) : wp m R F s := by
  simp only [wp] at h ⊢
  split
  · next heq => rw [heq] at h; exact hq _ _ h
  · next heq => rw [heq] at h; exact he _ h

/-- A loop keeps what each of its rounds keeps; the invariant sees what is left of the list. -/
theorem wp_forM {f : β → Fallible σ ε PUnit} (I : List β → σ → Prop)
    (hstep : ∀ x xs t, I (x :: xs) t → wp (f x) (fun _ u => I xs u) E t) :
    ∀ {xs : List β} {s : σ}, I xs s → wp (xs.forM f) (fun _ t => I [] t) E s := by
  intro xs
  induction xs with
  | nil => intro s h; exact h
  | cons x xs ih =>
    intro s h
    show wp (f x >>= fun _ => xs.forM f) _ E s
    rw [wp_bind]
    exact wp_mono (hstep x xs s h) (fun _ t ht => ih ht) fun _ he => he

theorem wp_and {m : Fallible σ ε α} (h : wp m Q E s) (h' : wp m R F s) :
    wp m (fun a t => Q a t ∧ R a t) (fun e => E e ∧ F e) s := by
  simp only [wp] at h h' ⊢
  cases hm : m s <;> rw [hm] at h h' <;> exact ⟨h, h'⟩

theorem returns {m : Fallible σ ε α} (h : wp m Q (fun _ => False) s) :
    ∃ a t, m s = .ok (a, t) ∧ Q a t := by
  simp only [wp] at h
  split at h
  · next a t heq => exact ⟨a, t, heq, h⟩
  · exact h.elim

theorem bind_of_returns {m : Fallible σ ε β} {f : β → Fallible σ ε α} {b : β} {t : σ}
    (h : m s = .ok (b, t)) : (m >>= f) s = f b t := by
  show (m s >>= fun p => f p.1 p.2) = _
  rw [h]
  rfl

theorem wp_of_returns {m : Fallible σ ε α} {a : α} {t : σ} (h : wp m Q E s)
    (hm : m s = .ok (a, t)) : Q a t := by
  simpa only [wp, hm] using h

end Fallible
end Hivemind
