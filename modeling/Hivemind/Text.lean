import Mathlib.Data.List.GetD
import Hivemind.Scan
import Hivemind.Message

/-! Texts in fixed fields: zero padding, the cut at the first NUL, and the strings of the worker,
which are UTF-8. -/
namespace Hivemind

/-! ### Zero padding -/

theorem toList_strToFixed {n : ℕ} {s : List UInt8} (h : s.length ≤ n) :
    (strToFixed n s).toList = s ++ List.replicate (n - s.length) 0 := by
  apply List.ext_getElem
  · rw [Vector.length_toList, List.length_append, List.length_replicate]
    omega
  · intro i hi hi'
    have hget : (strToFixed n s).toList[i] = s.getD i 0 := by
      rw [Vector.getElem_toList]
      exact Vector.getElem_ofFn _
    rw [hget, List.getElem_append]
    split
    · next hlt => rw [List.getD_eq_getElem s 0 hlt]
    · next hge =>
      rw [List.getElem_replicate, List.getD_eq_default s 0 (Nat.le_of_not_lt hge)]

theorem takeWhile_append_zeroes {s : List UInt8} (h : 0 ∉ s) (k : ℕ) :
    (s ++ List.replicate k 0).takeWhile (· ≠ 0) = s := by
  have hkeep : ∀ b ∈ s, decide (b ≠ 0) = true := fun b hb =>
    decide_eq_true (ne_of_mem_of_not_mem hb h)
  rw [List.takeWhile_append_of_pos hkeep]
  cases k with
  | zero => rw [List.replicate_zero, List.takeWhile_nil, List.append_nil]
  | succ k =>
    exact List.append_nil s

theorem fixedToSlice_strToFixed {n : ℕ} {s : List UInt8} (hlen : s.length ≤ n) (h : 0 ∉ s) :
    fixedToSlice (strToFixed n s) = s := by
  rw [fixedToSlice, toList_strToFixed hlen, takeWhile_append_zeroes h]

theorem strToFixed_nil (n : ℕ) : strToFixed n [] = zeroes n := by
  apply Vector.ext
  intro i hi
  rw [strToFixed, Vector.getElem_ofFn, zeroes, Vector.getElem_replicate]
  rfl

/-! ### Strings of the worker -/

/-- The bytes of a Rust `str`. -/
def utf8 (s : String) : List UInt8 := s.toByteArray.data.toList

theorem utf8_inj {s t : String} (h : utf8 s = utf8 t) : s = t := by
  apply String.toByteArray_inj.mp
  apply ByteArray.ext
  exact Array.toList_inj.mp h

/-- `String::from_utf8_lossy` of the standard library: valid UTF-8 is decoded as it is. -/
structure FromUtf8Lossy where
  decode : List UInt8 → String
  decode_utf8 : ∀ s, decode (utf8 s) = s

/-- Nothing is known of what the library makes of other bytes; here it is nothing. -/
def FromUtf8Lossy.strict : FromUtf8Lossy where
  decode bs := (String.fromUTF8? ⟨bs.toArray⟩).getD ""
  decode_utf8 s := by
    have hbytes : (⟨(utf8 s).toArray⟩ : ByteArray) = s.toByteArray := by
      rw [utf8, Array.toArray_toList]
    rw [hbytes, String.fromUTF8?, dif_pos s.isValidUTF8]
    rfl

/-- `fixed_to_string`. -/
def fixedToString (lossy : FromUtf8Lossy) {n : ℕ} (b : Bytes n) : String :=
  lossy.decode (fixedToSlice b)

/-- The field holds the string, zero padded, and the string has no NUL. -/
def Spells {n : ℕ} (b : Bytes n) (s : String) : Prop :=
  0 ∉ utf8 s ∧ (utf8 s).length ≤ n ∧ b = strToFixed n (utf8 s)

theorem Spells.fixedToString {n : ℕ} {b : Bytes n} {s : String} (h : Spells b s)
    (lossy : FromUtf8Lossy) : fixedToString lossy b = s := by
  obtain ⟨hnul, hlen, rfl⟩ := h
  rw [Hivemind.fixedToString, fixedToSlice_strToFixed hlen hnul, lossy.decode_utf8]

/-- Zero-padded valid UTF-8 without interior NULs. -/
def IsText {n : ℕ} (b : Bytes n) : Prop := ∃ s, Spells b s

theorem spells_empty_iff {n : ℕ} {b : Bytes n} {s : String} (h : Spells b s) :
    s = "" ↔ b = zeroes n := by
  obtain ⟨hnul, hlen, rfl⟩ := h
  constructor
  · rintro rfl
    exact strToFixed_nil n
  · intro hzero
    -- a first byte would be a NUL
    have hslice := fixedToSlice_strToFixed hlen hnul
    rw [hzero, fixedToSlice, zeroes, Vector.toList_replicate] at hslice
    have hnil : utf8 s = [] := by
      rw [← hslice]
      exact takeWhile_append_zeroes (s := []) List.not_mem_nil n
    exact utf8_inj hnil

end Hivemind
