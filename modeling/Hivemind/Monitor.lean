import Mathlib.Tactic.Common

/-! Histories read by an automaton: `step` says what the past amounts to, `ok` which observations
may follow it. -/
namespace Hivemind

variable {σ ω : Type} (step : σ → ω → σ) (ok : σ → ω → Prop)

/-- Each observation may follow the ones before it. -/
def Abides : σ → List ω → Prop
  | _, [] => True
  | s, o :: history => ok s o ∧ Abides (step s o) history

variable {step ok} {s : σ} {history : List ω} {o : ω}

theorem abides_concat : Abides step ok s (history ++ [o]) ↔
    Abides step ok s history ∧ ok (history.foldl step s) o := by
  induction history generalizing s with
  | nil => exact and_comm
  | cons o' history ih => rw [List.cons_append, Abides, Abides, ih, List.foldl_cons, and_assoc]

theorem foldl_concat : (history ++ [o]).foldl step s = step (history.foldl step s) o := by
  rw [List.foldl_append]
  rfl

end Hivemind
