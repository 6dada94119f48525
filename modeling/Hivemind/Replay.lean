import Mathlib.Data.List.Basic
import Mathlib.Tactic

/-! Replaying a log: its entries are executed one after the other and each yields a result;
an execution that fails ends the replay. -/
namespace Replay

variable {σ ε ρ τ : Type*} {exec : σ → ε → Option (σ × ρ)} {s s' t : σ} {e : ε} {es : List ε}
  {rs : List ρ}

/-- The last state and the results in order. -/
def run (exec : σ → ε → Option (σ × ρ)) : σ → List ε → Option (σ × List ρ)
  | s, [] => some (s, [])
  | s, e :: es => (exec s e).bind fun x => (run exec x.1 es).map fun y => (y.1, x.2 :: y.2)

theorem run_cons : run exec s (e :: es) = some (s', rs) ↔
    ∃ s₁ r rs', exec s e = some (s₁, r) ∧ run exec s₁ es = some (s', rs') ∧ rs = r :: rs' := by
  simp only [run, Option.bind_eq_some_iff, Option.map_eq_some_iff, Prod.exists, Prod.mk.injEq]
  constructor
  · rintro ⟨s₁, r, h, s₂, rs', h', rfl, rfl⟩
    exact ⟨s₁, r, rs', h, h', rfl⟩
  · rintro ⟨s₁, r, rs', h, h', rfl⟩
    exact ⟨s₁, r, h, s', rs', h', rfl, rfl⟩

theorem run_append {es' : List ε} : run exec s (es ++ es') = some (s', rs) ↔
    ∃ s₁ rs₁ rs₂, run exec s es = some (s₁, rs₁) ∧ run exec s₁ es' = some (s', rs₂) ∧
      rs = rs₁ ++ rs₂ := by
  induction es generalizing s rs with
  | nil => simp [run]
  | cons e es ih =>
    rw [List.cons_append, run_cons]
    constructor
    · rintro ⟨s₁, r, rs', h, hrun, rfl⟩
      obtain ⟨s₂, rs₁, rs₂, h₁, h₂, rfl⟩ := ih.mp hrun
      exact ⟨s₂, r :: rs₁, rs₂, run_cons.mpr ⟨s₁, r, rs₁, h, h₁, rfl⟩, h₂, rfl⟩
    · rintro ⟨s₂, rs₁, rs₂, h₁, h₂, rfl⟩
      obtain ⟨s₁, r, rs', h, hrun, rfl⟩ := run_cons.mp h₁
      exact ⟨s₁, r, rs' ++ rs₂, h, ih.mpr ⟨s₂, rs', rs₂, hrun, h₂, rfl⟩, rfl⟩

theorem run_concat {s₁ : σ} {r : ρ} (h : run exec s es = some (s₁, rs))
    (he : exec s₁ e = some (s', r)) : run exec s (es ++ [e]) = some (s', rs ++ [r]) :=
  run_append.mpr ⟨s₁, rs, [r], h, run_cons.mpr ⟨s', r, [], he, rfl, rfl⟩, rfl⟩

theorem run_length (h : run exec s es = some (s', rs)) : rs.length = es.length := by
  induction es generalizing s rs with
  | nil =>
    cases h
    rfl
  | cons e es ih =>
    obtain ⟨s₁, r, rs', -, hrun, rfl⟩ := run_cons.mp h
    simp [ih hrun]

theorem run_take (h : run exec s es = some (s', rs)) (n : ℕ) :
    ∃ s₁, run exec s (es.take n) = some (s₁, rs.take n) := by
  rw [← List.take_append_drop n es] at h
  obtain ⟨s₁, rs₁, rs₂, h₁, h₂, rfl⟩ := run_append.mp h
  refine ⟨s₁, ?_⟩
  have hlen := run_length h₁
  rcases le_total n es.length with hle | hle
  · rw [List.length_take, min_eq_left hle] at hlen
    rw [h₁, ← hlen, List.take_left]
  · rw [List.drop_eq_nil_of_le hle] at h₂
    cases h₂
    rw [List.length_take, min_eq_right hle] at hlen
    rw [h₁, List.append_nil, List.take_of_length_le (by omega)]

theorem run_map {φ : Type*} {f : φ → ε} {xs : List φ} :
    run (fun s x => exec s (f x)) s xs = run exec s (xs.map f) := by
  induction xs generalizing s with
  | nil => rfl
  | cons x xs ih => simp only [List.map_cons, run, ih]

/-- Every execution of the replay starts in a state that is `ok` for its entry. -/
def along (exec : σ → ε → Option (σ × ρ)) (ok : σ → ε → Bool) : σ → List ε → Bool
  | _, [] => true
  | s, e :: es => ok s e && (exec s e).all fun x => along exec ok x.1 es

theorem along_take {ok : σ → ε → Bool} (h : along exec ok s es = true) (n : ℕ) :
    along exec ok s (es.take n) = true := by
  induction es generalizing s n with
  | nil => simp [along]
  | cons e es ih =>
    cases n with
    | zero => rfl
    | succ n =>
      simp only [along, Bool.and_eq_true] at h
      rw [List.take_succ_cons, along, h.1, Bool.true_and]
      cases hexec : exec s e with
      | none => rfl
      | some x =>
        rw [hexec] at h
        exact ih h.2 n

theorem along_at {ok : σ → ε → Bool} {es' : List ε} (h : along exec ok s (es ++ e :: es') = true)
    (hrun : run exec s es = some (s', rs)) : along exec ok s es = true ∧ ok s' e = true := by
  induction es generalizing s rs with
  | nil =>
    cases hrun
    rw [List.nil_append, along, Bool.and_eq_true] at h
    exact ⟨rfl, h.1⟩
  | cons d es ih =>
    obtain ⟨s₁, r, rs', hexec, hrest, rfl⟩ := run_cons.mp hrun
    simp only [List.cons_append, along, Bool.and_eq_true, hexec, Option.all_some] at h ⊢
    obtain ⟨hes, he⟩ := ih h.2 hrest
    exact ⟨⟨h.1, hes⟩, he⟩

/-- The invariant rule: what holds at the start and is kept by every execution holds at the end.
The index counts the entries that were executed. -/
theorem run_invariant {ok : σ → ε → Bool} {I : ℕ → σ → Prop}
    (hstep : ∀ i s e s' r, I i s → ok s e = true → exec s e = some (s', r) → I (i + 1) s')
    {i : ℕ} (hI : I i s) (hok : along exec ok s es = true) (h : run exec s es = some (s', rs)) :
    I (i + es.length) s' := by
  induction es generalizing i s rs with
  | nil =>
    cases h
    exact hI
  | cons e es ih =>
    obtain ⟨s₁, r, rs', hexec, hrun, rfl⟩ := run_cons.mp h
    simp only [along, Bool.and_eq_true, hexec, Option.all_some] at hok
    have hlen : i + (e :: es).length = i + 1 + es.length := by
      rw [List.length_cons]
      omega
    rw [hlen]
    exact ih (hstep i s e s₁ r hI hok.1 hexec) hok.2 hrun

/-- The invariant rule where nothing is asked of the entries. -/
theorem run_keeps {I : σ → Prop} (hstep : ∀ s e s' r, I s → exec s e = some (s', r) → I s')
    (hI : I s) (h : run exec s es = some (s', rs)) : I s' := by
  induction es generalizing s rs with
  | nil =>
    cases h
    exact hI
  | cons e es ih =>
    obtain ⟨s₁, r, rs', hexec, hrun, rfl⟩ := run_cons.mp h
    exact ih (hstep s e s₁ r hI hexec) hrun

section Congr

variable {q : σ → τ} {ok : σ → ε → Bool}
  (hok : ∀ s t e, q s = q t → ok s e = ok t e)
  (hexec : ∀ s t e, q s = q t → ok s e = true →
    (exec s e).map (Prod.map q id) = (exec t e).map (Prod.map q id))
include hexec

/-- Replays from states that are alike to `q` are alike. -/
theorem run_congr (hst : q s = q t) (h : along exec ok s es = true) :
    (run exec s es).map (Prod.map q id) = (run exec t es).map (Prod.map q id) := by
  induction es generalizing s t with
  | nil => simp [run, hst]
  | cons e es ih =>
    simp only [along, Bool.and_eq_true] at h
    have hone := hexec s t e hst h.1
    rw [run, run]
    cases hs : exec s e with
    | none =>
      rw [hs] at hone
      rw [Option.map_eq_none_iff.mp hone.symm]
    | some x =>
      rw [hs] at hone h
      obtain ⟨y, hy, hxy⟩ := Option.map_eq_some_iff.mp hone.symm
      rw [hy, Option.bind_some, Option.bind_some]
      obtain ⟨hq, hr⟩ : q y.1 = q x.1 ∧ y.2 = x.2 := Prod.mk.inj hxy
      have hrest := ih hq.symm h.2
      simp only [Option.map_map] at hrest ⊢
      have hcons := congrArg (Option.map fun z : τ × List ρ => (z.1, x.2 :: z.2)) hrest
      simp only [Option.map_map] at hcons
      rw [hr]
      exact hcons

include hok

theorem along_congr (hst : q s = q t) : along exec ok s es = along exec ok t es := by
  induction es generalizing s t with
  | nil => rfl
  | cons e es ih =>
    rw [along, along, hok s t e hst]
    cases hthis : ok t e with
    | false => rfl
    | true =>
      have hone := hexec s t e hst ((hok s t e hst).trans hthis)
      cases hs : exec s e with
      | none =>
        rw [hs] at hone
        rw [Option.map_eq_none_iff.mp hone.symm]
      | some x =>
        rw [hs] at hone
        obtain ⟨y, hy, hxy⟩ := Option.map_eq_some_iff.mp hone.symm
        rw [hy, Option.all_some, Option.all_some, ih (Prod.mk.inj hxy).1.symm]

end Congr

end Replay
