import Hivemind.Orbit
import Hivemind.StateMachine

/-! The ids the state machine draws: the generator does not return to a state before it has
drawn `2 ^ 64 - 1` ids, so the ids of one table are distinct and none is the zero of an unbound
pod. -/
namespace Hivemind

open Function

namespace Prng

/-- One step of the generator on the bits of its state. -/
def step (x : BitVec 64) : BitVec 64 :=
  let x := x ^^^ (x <<< 13)
  let x := x ^^^ (x >>> 7)
  x ^^^ (x <<< 17)

theorem next_bits (p : Prng) : p.next.2.state.toBitVec = step p.state.toBitVec := by
  unfold next step
  simp

theorem xor_shiftLeft_additive (n : ℕ) : Orbit.Additive fun x : BitVec 64 => x ^^^ (x <<< n) := by
  intro u v
  dsimp only
  rw [BitVec.shiftLeft_xor_distrib, Orbit.xor_xor_xor_comm]

theorem xor_shiftRight_additive (n : ℕ) : Orbit.Additive fun x : BitVec 64 => x ^^^ (x >>> n) := by
  intro u v
  dsimp only
  rw [BitVec.ushiftRight_xor_distrib, Orbit.xor_xor_xor_comm]

theorem step_additive : Orbit.Additive step := by
  intro u v
  have hfirst := xor_shiftLeft_additive 13 u v
  have hsecond := xor_shiftRight_additive 7 (u ^^^ u <<< 13) (v ^^^ v <<< 13)
  dsimp only at hfirst hsecond
  unfold step
  dsimp only
  rw [hfirst, hsecond]
  exact xor_shiftLeft_additive 17 _ _

/-- The polynomial the generator satisfies. -/
def modulus : ℕ := 0x1013ed4a358913201

/-- The primes of the period, each with the inverse that shows no shorter return. -/
def cofactors : List (ℕ × ℕ) :=
  [(3, 0xd742ca58f5d785e2), (5, 0xa3f64d1fb612f669), (17, 0x63f43995a1b49645),
    (257, 0x7d573a75b5260c4d), (641, 0x1ead61508d13286), (65537, 0xed7248a2317d33b1),
    (6700417, 0x483b08aa5d3741b5)]

theorem modulus_root (v : BitVec 64) : Orbit.value step 65 modulus v = 0 := by
  apply (Orbit.value_additive step_additive 65 modulus).eq_zero
  have h : ∀ i : Fin 64, Orbit.value step 65 modulus (BitVec.twoPow 64 i) = 0 := by decide +kernel
  exact fun i hi => h ⟨i, hi⟩

/-- The number of states of the generator. -/
@[irreducible] def period : ℕ := 2 ^ 64 - 1

theorem period_eq : period = 2 ^ 64 - 1 := by
  unfold period
  rfl

theorem power_period : Orbit.power 64 modulus 64 (2 ^ 64 - 1) = 1 := by decide +kernel

theorem cofactors_invert : ∀ x ∈ cofactors,
    Orbit.times 64 modulus (Orbit.power 64 modulus 64 ((2 ^ 64 - 1) / x.1) ^^^ 1) 64 x.2 = 1 := by
  decide +kernel

theorem cofactors_lt : ∀ x ∈ cofactors, (2 ^ 64 - 1) / x.1 < 2 ^ 64 ∧ x.2 < 2 ^ 64 := by decide

theorem prime_of_period {p : ℕ} (hp : p.Prime) (hdvd : p ∣ 2 ^ 64 - 1) :
    p ∈ cofactors.map Prod.fst := by
  have hfactors : 2 ^ 64 - 1 = 3 * (5 * (17 * (257 * (641 * (65537 * 6700417))))) := by norm_num
  have hprimes : Nat.Prime 3 ∧ Nat.Prime 5 ∧ Nat.Prime 17 ∧ Nat.Prime 257 ∧ Nat.Prime 641 ∧
      Nat.Prime 65537 ∧ Nat.Prime 6700417 := by norm_num
  obtain ⟨h3, h5, h17, h257, h641, h65537, h6700417⟩ := hprimes
  rw [hfactors] at hdvd
  simp only [hp.dvd_mul, Nat.prime_dvd_prime_iff_eq hp, h3, h5, h17, h257, h641, h65537,
    h6700417] at hdvd
  rcases hdvd with rfl | rfl | rfl | rfl | rfl | rfl | rfl <;> decide

section Step

variable {v : BitVec 64} {e i : ℕ}

theorem step_iterate_eq (he : e < 2 ^ 64) (hone : Orbit.power 64 modulus 64 e = 1) :
    step^[e] v = v := by
  have hvalue := Orbit.value_power (by decide) (by decide) step_additive modulus_root (by decide)
    64 e he (v := v)
  rw [← hvalue, hone]
  exact Orbit.value_one step_additive

theorem step_iterate_ne (he : e < 2 ^ 64) (hi : i < 2 ^ 64)
    (hinv : Orbit.times 64 modulus (Orbit.power 64 modulus 64 e ^^^ 1) 64 i = 1) (hv : v ≠ 0) :
    step^[e] v ≠ v :=
  Orbit.iterate_ne (by decide) (by decide) step_additive modulus_root (by decide) he hi hinv hv

theorem step_period (v : BitVec 64) : step^[period] v = v := by
  apply step_iterate_eq
  · rw [period_eq]
    decide
  · rw [period_eq]
    exact power_period

/-- The generator takes every state but zero through all of them. -/
theorem step_returns_late {k : ℕ} (hv : v ≠ 0) (hk : 0 < k) (hkn : k < period) :
    step^[k] v ≠ v := by
  refine Orbit.ne_of_lt_period (step_period v) (fun p hp hdvd => ?_) hk hkn
  rw [period_eq] at hdvd
  obtain ⟨x, hmem, rfl⟩ := List.mem_map.mp (prime_of_period hp hdvd)
  obtain ⟨he, hi⟩ := cofactors_lt x hmem
  apply step_iterate_ne _ hi _ hv
  · rw [period_eq]
    exact he
  · rw [period_eq]
    exact cofactors_invert x hmem

end Step

/-! ### Draws -/

/-- The generator after `k` draws. -/
def after (p : Prng) (k : ℕ) : Prng := (fun p : Prng => p.next.2)^[k] p

theorem after_succ (p : Prng) (k : ℕ) : p.after (k + 1) = (p.after k).next.2 :=
  iterate_succ_apply' _ k p

theorem after_add (p : Prng) (j k : ℕ) : p.after (k + j) = (p.after j).after k :=
  iterate_add_apply _ k j p

theorem after_bits (p : Prng) (k : ℕ) : (p.after k).state.toBitVec = step^[k] p.state.toBitVec := by
  induction k with
  | zero => rfl
  | succ k ih => rw [after_succ, next_bits, ih, iterate_succ_apply']

theorem state_toBitVec_ne {p : Prng} (hp : p.state ≠ 0) : p.state.toBitVec ≠ 0 := by
  intro h
  apply hp
  exact UInt64.toBitVec_inj.mp h

theorem init_state_ne (seed : UInt64) : (init seed).state ≠ 0 := by
  unfold init
  split
  · decide
  · assumption

theorem after_state_ne {p : Prng} (hp : p.state ≠ 0) (k : ℕ) : (p.after k).state ≠ 0 := by
  intro hzero
  have hbits : step^[k] p.state.toBitVec = 0 := by
    rw [← after_bits, hzero]
    rfl
  -- the states return, and zero stays zero
  have hreturn : step^[period * k] p.state.toBitVec = p.state.toBitVec := by
    rw [iterate_mul]
    exact iterate_fixed (step_period _) k
  have hpos : 1 ≤ period := by
    rw [period_eq]
    decide
  have hsplit : period * k = (period * k - k) + k :=
    (Nat.sub_add_cancel (Nat.le_mul_of_pos_left k hpos)).symm
  rw [hsplit, iterate_add_apply, hbits, (step_additive.iterate _).zero] at hreturn
  exact state_toBitVec_ne hp hreturn.symm

theorem after_state_inj {p : Prng} (hp : p.state ≠ 0) {i j : ℕ} (hij : i < j)
    (hj : j < i + period) : (p.after i).state ≠ (p.after j).state := by
  intro heq
  have hv := state_toBitVec_ne (after_state_ne hp i)
  obtain ⟨k, rfl⟩ := Nat.exists_eq_add_of_lt hij
  have hne := step_returns_late hv (Nat.succ_pos k) (by omega)
  apply hne
  have hadd : (p.after (i + k + 1)) = (p.after i).after (k + 1) := by
    rw [← after_add]
    congr 1
    omega
  rw [← after_bits, ← hadd, heq]

end Prng

end Hivemind
