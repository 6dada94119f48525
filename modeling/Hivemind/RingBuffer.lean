import Mathlib.Data.Nat.ModEq
import Mathlib.Logic.Function.Basic

/-! A bounded first-in first-out queue in a ring of cells: what is in it, in order, is a list, and
the operations are those of the list. -/

/-- The elements stand in `count` cells from `head` on, around a ring of `size` cells. -/
structure RingBuffer (α : Type*) (size : ℕ) where
  cell : ℕ → α
  head : ℕ
  tail : ℕ
  count : ℕ
  wraps : head % size = head
  closes : tail = (head + count) % size

namespace RingBuffer

variable {α : Type*} {size : ℕ} (q : RingBuffer α size)

/-- The elements, oldest first. -/
def toList : List α := (List.range q.count).map fun i => q.cell ((q.head + i) % size)

/-- Write elements into the first cells of a ring; the other cells are blank. -/
def fill (blank : α) (l : List α) : RingBuffer α size where
  cell := fun i => l.getD i blank
  head := 0
  tail := l.length % size
  count := l.length
  wraps := Nat.zero_mod _
  closes := by rw [Nat.zero_add]

/-- Put an element at the end, if there is room. -/
def push? (a : α) : Option (RingBuffer α size) :=
  if q.count ≥ size then none
  else
    some
      { cell := Function.update q.cell q.tail a
        head := q.head
        tail := (q.tail + 1) % size
        count := q.count + 1
        wraps := q.wraps
        closes := by rw [q.closes, Nat.mod_add_mod, Nat.add_assoc] }

/-- Take the oldest element. -/
def pop? : Option (α × RingBuffer α size) :=
  match h : q.count with
  | 0 => none
  | n + 1 =>
    some (q.cell q.head,
      { cell := q.cell
        head := (q.head + 1) % size
        tail := q.tail
        count := n
        wraps := Nat.mod_mod _ _
        closes := by rw [q.closes, h, Nat.mod_add_mod, Nat.add_assoc, Nat.add_comm 1 n] })

@[simp] theorem length_toList : q.toList.length = q.count := by simp [toList]

variable {q} {q' : RingBuffer α size} {a : α}

theorem toList_fill (blank : α) {l : List α} (hle : l.length ≤ size) :
    (fill blank l : RingBuffer α size).toList = l := by
  apply List.ext_getElem
  · simp [fill]
  · intro i hi hi'
    have hlt : (0 + i) % size = i := by
      rw [Nat.zero_add]
      exact Nat.mod_eq_of_lt (by omega)
    simp only [toList, fill, List.getElem_map, List.getElem_range, hlt]
    rw [List.getD_eq_getElem?_getD, List.getElem?_eq_getElem hi', Option.getD_some]

theorem toList_push (h : q.push? a = some q') :
    q'.toList = q.toList ++ [a] ∧ q.count < size := by
  unfold push? at h
  split at h
  · cases h
  next hroom =>
  rw [not_le] at hroom
  cases h
  refine ⟨?_, hroom⟩
  show (List.range (q.count + 1)).map (fun i => Function.update q.cell q.tail a _) = _
  rw [List.range_succ, List.map_append, List.map_singleton, ← q.closes, Function.update_self]
  congr 1
  -- The new element is written to none of the cells in use.
  apply List.map_congr_left
  intro i hi
  have hlt := List.mem_range.mp hi
  apply Function.update_of_ne
  show (q.head + i) % size ≠ q.tail
  rw [q.closes]
  intro heq
  have hcancel : i ≡ q.count [MOD size] := Nat.ModEq.add_left_cancel' q.head heq
  have hsame : i = q.count := Nat.ModEq.eq_of_lt_of_lt hcancel (hlt.trans hroom) hroom
  omega

theorem push_eq_none : q.push? a = none ↔ size ≤ q.count := by
  unfold push?
  split
  · next h => exact ⟨fun _ => h, fun _ => rfl⟩
  · next h => exact ⟨nofun, fun h' => absurd h' h⟩

theorem toList_pop (h : q.pop? = some (a, q')) : q.toList = a :: q'.toList := by
  unfold pop? at h
  split at h
  · cases h
  next n hn =>
  cases h
  simp only [toList, hn, List.range_succ_eq_map, List.map_cons, List.map_map, Nat.add_zero, q.wraps]
  congr 1
  apply List.map_congr_left
  intro i _
  simp only [Function.comp_apply, Nat.mod_add_mod, Nat.succ_eq_add_one]
  congr 2
  omega

end RingBuffer
