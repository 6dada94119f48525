import Mathlib.Data.Nat.Bitwise
import Mathlib.Dynamics.PeriodicPts.Lemmas
import Mathlib.Tactic

/-! The period of a map of words that keeps sums. Such a map satisfies a polynomial over the
field of two elements; its powers are computed modulo that polynomial, on the bits of naturals,
and say how long the map takes to return to a word. -/
namespace Orbit

open Function

variable {w : ℕ} {T : BitVec w → BitVec w} {d m p q a b n : ℕ} {u v : BitVec w}

/-- The map keeps sums of words. -/
def Additive (T : BitVec w → BitVec w) : Prop := ∀ u v, T (u ^^^ v) = T u ^^^ T v

theorem Additive.zero (hT : Additive T) : T 0 = 0 := by
  have h := hT 0 0
  rwa [BitVec.xor_self, BitVec.xor_self] at h

theorem Additive.iterate (hT : Additive T) (n : ℕ) : Additive T^[n] := by
  induction n with
  | zero => exact fun _ _ => rfl
  | succ n ih =>
    intro u v
    rw [iterate_succ_apply, iterate_succ_apply, iterate_succ_apply, hT, ih]

@[simp] theorem word_xor_zero (v : BitVec w) : v ^^^ 0 = v := BitVec.xor_zero

@[simp] theorem zero_xor_word (v : BitVec w) : 0 ^^^ v = v := BitVec.zero_xor

theorem xor_xor_xor_comm (a b c e : BitVec w) :
    a ^^^ b ^^^ (c ^^^ e) = a ^^^ c ^^^ (b ^^^ e) := by
  rw [BitVec.xor_assoc, BitVec.xor_assoc, ← BitVec.xor_assoc b, BitVec.xor_comm b c,
    BitVec.xor_assoc c]

/-! ### Polynomials at a map -/

/-- The polynomial whose coefficients are the `n` lowest bits of `p`, at `T`. -/
def value (T : BitVec w → BitVec w) : ℕ → ℕ → BitVec w → BitVec w
  | 0, _, _ => 0
  | n + 1, p, v => T (value T n (p / 2) v) ^^^ (if p % 2 = 1 then v else 0)

theorem value_zero (hT : Additive T) (n : ℕ) (v : BitVec w) : value T n 0 v = 0 := by
  induction n with
  | zero => rfl
  | succ n ih =>
    have hlow : ¬ 0 % 2 = 1 := by decide
    rw [value, Nat.zero_div, ih, hT.zero, if_neg hlow, word_xor_zero]

theorem value_xor (hT : Additive T) (n p q : ℕ) (v : BitVec w) :
    value T n (p ^^^ q) v = value T n p v ^^^ value T n q v := by
  induction n generalizing p q with
  | zero => exact (BitVec.xor_self).symm
  | succ n ih =>
    have hlow : (if (p ^^^ q) % 2 = 1 then v else 0) =
        (if p % 2 = 1 then v else 0) ^^^ (if q % 2 = 1 then v else 0) := by
      rcases Nat.mod_two_eq_zero_or_one p with hp | hp <;>
        rcases Nat.mod_two_eq_zero_or_one q with hq | hq <;>
          simp [Nat.add_mod, hp, hq]
    rw [value, value, value, Nat.xor_div_two, ih, hT, hlow, xor_xor_xor_comm]

theorem value_additive (hT : Additive T) (n p : ℕ) : Additive (value T n p) := by
  induction n generalizing p with
  | zero => exact fun _ _ => (BitVec.xor_self).symm
  | succ n ih =>
    intro u v
    have hlow : (if p % 2 = 1 then u ^^^ v else 0) =
        (if p % 2 = 1 then u else 0) ^^^ (if p % 2 = 1 then v else 0) := by
      split <;> simp
    rw [value, value, value, ih, hT, hlow, xor_xor_xor_comm]

theorem value_two_mul (n p : ℕ) (v : BitVec w) : value T (n + 1) (2 * p) v = T (value T n p v) := by
  have hlow : ¬ 2 * p % 2 = 1 := by omega
  have hhigh : 2 * p / 2 = p := by omega
  rw [value, hhigh, if_neg hlow, word_xor_zero]

theorem value_succ_of_lt (hT : Additive T) (hp : p < 2 ^ n) :
    value T (n + 1) p v = value T n p v := by
  induction n generalizing p with
  | zero =>
    have hzero : p = 0 := by simpa using hp
    rw [hzero, value_zero hT, value_zero hT]
  | succ n ih =>
    have hhalf : p / 2 < 2 ^ n := by
      omega
    rw [value, ih hhalf, value]

theorem value_one (hT : Additive T) : value T (n + 1) 1 v = v := by
  have hhalf : 1 / 2 = 0 := by decide
  rw [value, hhalf, value_zero hT, hT.zero, if_pos rfl, zero_xor_word]

/-! ### Arithmetic modulo a polynomial of degree `d` -/

/-- The unknown times `p`. -/
def timesX (d m p : ℕ) : ℕ := if 2 * p < 2 ^ d then 2 * p else 2 * p ^^^ m

/-- The function at a natural that is computed first. -/
def forced {α : Type*} (f : ℕ → α) : ℕ → α
  | 0 => f 0
  | n + 1 => f (n + 1)

theorem forced_eq {α : Type*} (f : ℕ → α) (n : ℕ) : forced f n = f n := by
  cases n <;> rfl

/-- The product, by the `n` lowest coefficients of the second factor. -/
def times (d m a : ℕ) : ℕ → ℕ → ℕ
  | 0, _ => 0
  | n + 1, b =>
    forced (fun r => timesX d m r ^^^ (if b % 2 = 1 then a else 0)) (times d m a n (b / 2))

/-- The unknown to the power of the `n` lowest bits of the exponent. -/
def power (d m : ℕ) : ℕ → ℕ → ℕ
  | 0, _ => 1
  | n + 1, e =>
    forced (fun r => if e % 2 = 1 then timesX d m (times d m r d r) else times d m r d r)
      (power d m n (e / 2))

section Modulus

variable (hlow : 2 ^ d ≤ m) (hhigh : m < 2 ^ (d + 1))
include hlow hhigh

theorem timesX_lt (hp : p < 2 ^ d) : timesX d m p < 2 ^ d := by
  unfold timesX
  split
  · assumption
  · next hge =>
    have hlow' : 2 ^ d ≤ 2 * p := not_lt.mp hge
    have hhigh' : 2 * p < 2 ^ (d + 1) := by
      omega
    apply Nat.lt_pow_two_of_testBit
    intro i hi
    rw [Nat.testBit_xor]
    rcases Nat.eq_or_lt_of_le hi with rfl | hlt
    · -- the leading coefficients cancel
      rw [Nat.testBit_of_two_pow_le_and_two_pow_add_one_gt hlow hhigh,
        Nat.testBit_of_two_pow_le_and_two_pow_add_one_gt hlow' hhigh']
      rfl
    · have hpow : 2 ^ (d + 1) ≤ 2 ^ i := Nat.pow_le_pow_right (by decide) hlt
      rw [Nat.testBit_lt_two_pow (hhigh.trans_le hpow), Nat.testBit_lt_two_pow (hhigh'.trans_le hpow)]
      rfl

theorem times_lt (ha : a < 2 ^ d) (n b : ℕ) : times d m a n b < 2 ^ d := by
  induction n generalizing b with
  | zero => exact Nat.two_pow_pos d
  | succ n ih =>
    rw [times, forced_eq]
    apply Nat.xor_lt_two_pow (timesX_lt hlow hhigh (ih _))
    split
    · exact ha
    · exact Nat.two_pow_pos d

theorem power_lt (hd : 0 < d) (n e : ℕ) : power d m n e < 2 ^ d := by
  induction n generalizing e with
  | zero => exact Nat.one_lt_two_pow hd.ne'
  | succ n ih =>
    have hsquare := times_lt hlow hhigh (ih (e / 2)) d (power d m n (e / 2))
    rw [power, forced_eq]
    split
    · exact timesX_lt hlow hhigh hsquare
    · exact hsquare

variable (hT : Additive T) (hroot : ∀ v, value T (d + 1) m v = 0)
include hT hroot

theorem value_timesX (hp : p < 2 ^ d) : value T d (timesX d m p) v = T (value T d p v) := by
  have hlt := timesX_lt hlow hhigh hp
  rw [← value_succ_of_lt hT hlt]
  unfold timesX
  split
  · rw [value_two_mul]
  · rw [value_xor hT, value_two_mul, hroot, word_xor_zero]

theorem value_times (ha : a < 2 ^ d) (n b : ℕ) :
    value T d (times d m a n b) v = value T n b (value T d a v) := by
  induction n generalizing b with
  | zero => exact value_zero hT d v
  | succ n ih =>
    have hlt := times_lt hlow hhigh ha n (b / 2)
    have hodd : value T d (if b % 2 = 1 then a else 0) v =
        if b % 2 = 1 then value T d a v else 0 := by
      split
      · rfl
      · exact value_zero hT d v
    rw [times, forced_eq, value_xor hT, value_timesX hlow hhigh hT hroot hlt, ih, hodd, value]

theorem value_power (hd : 0 < d) (n e : ℕ) (he : e < 2 ^ n) :
    value T d (power d m n e) v = T^[e] v := by
  induction n generalizing e v with
  | zero =>
    obtain ⟨d, rfl⟩ := Nat.exists_eq_add_one.mpr hd
    have hzero : e = 0 := by simpa using he
    rw [hzero]
    exact value_one hT
  | succ n ih =>
    have hhalf : e / 2 < 2 ^ n := by
      omega
    have hlt := power_lt hlow hhigh hd n (e / 2)
    have hsquare : value T d (times d m (power d m n (e / 2)) d (power d m n (e / 2))) v =
        T^[e / 2 + e / 2] v := by
      rw [value_times hlow hhigh hT hroot hlt, ih _ hhalf, ih _ hhalf, iterate_add_apply]
    rw [power, forced_eq]
    split
    · rw [value_timesX hlow hhigh hT hroot (times_lt hlow hhigh hlt _ _), hsquare,
        ← iterate_succ_apply' T]
      congr 2
      omega
    · rw [hsquare]
      congr 2
      omega

/-- A power of the map that differs from the identity by an invertible polynomial moves every
word but zero. -/
theorem iterate_ne (hd : 0 < d) {e i : ℕ} (he : e < 2 ^ n) (hi : i < 2 ^ d)
    (hinv : times d m (power d m n e ^^^ 1) d i = 1) (hv : v ≠ 0) : T^[e] v ≠ v := by
  intro hfix
  obtain ⟨d, rfl⟩ := Nat.exists_eq_add_one.mpr hd
  have hpow := value_power hlow hhigh hT hroot hd n e he (v := v)
  have hdiff : value T (d + 1) (power (d + 1) m n e ^^^ 1) v = 0 := by
    rw [value_xor hT, hpow, hfix, value_one hT, BitVec.xor_self]
    rfl
  have hlt : power (d + 1) m n e ^^^ 1 < 2 ^ (d + 1) :=
    Nat.xor_lt_two_pow (power_lt hlow hhigh hd n e) (Nat.one_lt_two_pow hd.ne')
  have hone := value_times hlow hhigh hT hroot hlt (d + 1) i (v := v)
  rw [hinv, value_one hT, hdiff] at hone
  apply hv
  calc v = value T (d + 1) i 0 := hone
    _ = 0 := (value_additive hT (d + 1) i).zero

end Modulus

/-! ### Words from their bits -/

theorem Additive.eq_zero (hT : Additive T) (hbit : ∀ i < w, T (BitVec.twoPow w i) = 0)
    (v : BitVec w) : T v = 0 := by
  have hprefix : ∀ n ≤ w, T (BitVec.ofNat w (v.toNat % 2 ^ n)) = 0 := by
    intro n hn
    induction n with
    | zero =>
      rw [pow_zero, Nat.mod_one]
      exact hT.zero
    | succ n ih =>
      have hsplit : BitVec.ofNat w (v.toNat % 2 ^ (n + 1)) =
          BitVec.ofNat w (v.toNat % 2 ^ n) ^^^ (if v.toNat.testBit n then BitVec.twoPow w n else 0) := by
        apply BitVec.eq_of_getLsbD_eq
        intro i hi
        split
        · next hset =>
          simp only [BitVec.getLsbD_ofNat, BitVec.getLsbD_xor, BitVec.getLsbD_twoPow,
            Nat.testBit_mod_two_pow, hi, decide_true, Bool.true_and]
          rcases lt_trichotomy i n with hlt | rfl | hgt
          · have hne : n ≠ i := by omega
            have hlt' : i < n + 1 := by omega
            simp [hlt, hlt', hne]
          · simp [hset, hi]
          · have hne : n ≠ i := by omega
            have hge : ¬ i < n + 1 := by omega
            have hge' : ¬ i < n := by omega
            simp [hge, hge', hne]
        · next hclear =>
          simp only [word_xor_zero, BitVec.getLsbD_ofNat, Nat.testBit_mod_two_pow, hi, decide_true,
            Bool.true_and]
          rcases lt_trichotomy i n with hlt | rfl | hgt
          · have hlt' : i < n + 1 := by omega
            simp [hlt, hlt']
          · simp [hclear]
          · have hge : ¬ i < n + 1 := by omega
            have hge' : ¬ i < n := by omega
            simp [hge, hge']
      rw [hsplit, hT, ih (by omega), zero_xor_word]
      split
      · exact hbit n (by omega)
      · exact hT.zero
  have hall := hprefix w le_rfl
  rwa [Nat.mod_eq_of_lt v.isLt, BitVec.ofNat_toNat, BitVec.setWidth_eq] at hall

/-! ### Periods -/

/-- A point that returns after `n` steps, and after no `n / p` for a prime `p` of `n`, does not
return before. -/
theorem ne_of_lt_period {α : Type*} {f : α → α} {x : α} {n k : ℕ} (hn : f^[n] x = x)
    (hprimes : ∀ p, p.Prime → p ∣ n → f^[n / p] x ≠ x) (hk : 0 < k) (hkn : k < n) :
    f^[k] x ≠ x := by
  intro hfix
  have hper : minimalPeriod f x ∣ n := IsPeriodicPt.minimalPeriod_dvd hn
  have hle : minimalPeriod f x ≤ k := IsPeriodicPt.minimalPeriod_le hk hfix
  obtain ⟨e, he⟩ := hper
  have hone : e ≠ 1 := by
    rintro rfl
    omega
  obtain ⟨p, hp, c, hc⟩ := Nat.exists_prime_and_dvd hone
  -- a prime of the cofactor gives a shorter return
  have hquot : n / p = minimalPeriod f x * c := by
    rw [he, hc, mul_left_comm]
    exact Nat.mul_div_cancel_left _ hp.pos
  apply hprimes p hp ⟨minimalPeriod f x * c, by rw [he, hc, mul_left_comm]⟩
  rw [hquot]
  exact (isPeriodicPt_minimalPeriod f x).mul_const c

end Orbit
