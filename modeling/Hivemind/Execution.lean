import Mathlib.Data.List.Basic

/-! Executions of a deterministic transition system, all of whose steps meet a
condition on the state they start from. -/
namespace Execution

variable {σ α : Type} {step : σ → α → σ} {ok : σ → α → Prop}

/-- Every step of the execution meets the condition. -/
def Along (step : σ → α → σ) (ok : σ → α → Prop) : σ → List α → Prop
  | _, [] => True
  | s, a :: rest => ok s a ∧ Along step ok (step s a) rest

namespace Along

instance decide [∀ s a, Decidable (ok s a)] : ∀ s acts, Decidable (Along step ok s acts)
  | _, [] => isTrue trivial
  | s, a :: rest =>
    have := decide (step s a) rest
    inferInstanceAs (Decidable (ok s a ∧ Along step ok (step s a) rest))

/-- What holds at first and is kept by every allowed step holds at the end. -/
theorem invariant {I : σ → Prop} (hstep : ∀ s a, I s → ok s a → I (step s a)) {acts : List α} :
    ∀ {s : σ}, I s → Along step ok s acts → I (acts.foldl step s) := by
  induction acts with
  | nil => exact fun h _ => h
  | cons a rest ih => exact fun h hok => ih (hstep _ a h hok.1) hok.2

/-- An invariant that the allowed steps keep, and what a step from it meets besides. -/
theorem imp {I : σ → Prop} {ok' : σ → α → Prop}
    (hstep : ∀ s a, I s → ok s a → I (step s a) ∧ ok' s a) {acts : List α} :
    ∀ {s : σ}, I s → Along step ok s acts → Along step ok' s acts := by
  induction acts with
  | nil => exact fun _ _ => trivial
  | cons a rest ih =>
    intro s h hok
    obtain ⟨hnext, hmet⟩ := hstep s a h hok.1
    exact ⟨hmet, ih hnext hok.2⟩

end Along

end Execution
