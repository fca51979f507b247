import Mathlib.Algebra.BigOperators.Group.Finset.Basic
import MC68000.Proofs.Quotients

set_option autoImplicit false

namespace MC68000.Timing

/-- The remainders of a restoring division by sixteen steps. A step doubles the remainder, brings down the
next bit of the lower half of the dividend, and takes the divisor off where it goes in. -/
def partialRemainder (dividend divisor : Nat) : Nat → Nat
  | 0 => dividend / 0x10000
  | i + 1 =>
      let doubled := 2 * partialRemainder dividend divisor i + (dividend.testBit (15 - i)).toNat
      if divisor ≤ doubled then doubled - divisor else doubled

/-- What a step costs, in half cycles, by the bit of the quotient that it finds and the remainder that it
begins with. -/
def bitCost (dividend divisor i : Nat) : Nat :=
  if (dividend / divisor).testBit (15 - i) then
    if 0x8000 ≤ partialRemainder dividend divisor i then 0 else 1
  else 2

/-- The division of a dividend after a number of steps. -/
def Division.after (dividend : BitVec 32) (divisor : BitVec 16) (i : Nat) : Division :=
  Nat.repeat (Division.step (divisor ++ 0#16)) i ⟨dividend, 38⟩

theorem divu_eq (dividend : BitVec 32) (divisor : BitVec 16) : divu dividend divisor =
    if divisor.toNat ≤ (dividend >>> 16).toNat then 10
    else 2 * (Division.after dividend divisor 15).halfCost := rfl

/-- The bits of a number down to one place are those down to the next place, and one more bit. -/
theorem div_two_pow_succ (n : Nat) {i : Nat} (inside : i < 16) :
    n / 2 ^ (16 - (i + 1)) = 2 * (n / 2 ^ (16 - i)) + (n.testBit (15 - i)).toNat := by
  have place : 16 - i = 15 - i + 1 := by omega
  rw [Nat.toNat_testBit, place, pow_succ, ← Nat.div_div_eq_div_mul,
    show 16 - (i + 1) = 15 - i by omega]
  omega

/-- One more bit of the dividend is one more bit of the quotient. -/
theorem div_mod_of_bit {a v : Nat} (positive : 0 < v) (b : Bool) :
    (2 * a + b.toNat) / v = 2 * (a / v) + (decide (v ≤ 2 * (a % v) + b.toNat)).toNat ∧
      (2 * a + b.toNat) % v =
        if v ≤ 2 * (a % v) + b.toNat then 2 * (a % v) + b.toNat - v else 2 * (a % v) + b.toNat := by
  have whole := Nat.mod_add_div a v
  have small := Nat.mod_lt a positive
  have bit := Bool.toNat_le b
  rw [Nat.div_mod_unique positive, Nat.mul_add, Nat.mul_left_comm]
  by_cases goes : v ≤ 2 * (a % v) + b.toNat
  · simp only [goes, decide_true, Bool.toNat_true, if_true]
    omega
  · simp only [goes, decide_false, Bool.toNat_false, if_false]
    omega

section restoring
variable {dividend divisor i : Nat} (fits : dividend / 0x10000 < divisor)
include fits

/-- The partial remainder is that of the part of the dividend that has been brought down. -/
theorem partialRemainder_eq (inside : i ≤ 16) :
    partialRemainder dividend divisor i = dividend / 2 ^ (16 - i) % divisor := by
  induction i with
  | zero => exact (Nat.mod_eq_of_lt fits).symm
  | succ i ih =>
    have next := (div_mod_of_bit (a := dividend / 2 ^ (16 - i)) (v := divisor) (by omega)
      (dividend.testBit (15 - i))).2
    rw [partialRemainder, ih (by omega), div_two_pow_succ dividend (by omega), next]

theorem partialRemainder_lt (inside : i ≤ 16) : partialRemainder dividend divisor i < divisor := by
  rw [partialRemainder_eq fits inside]
  exact Nat.mod_lt _ (by omega)

theorem testBit_quotient (inside : i < 16) : (dividend / divisor).testBit (15 - i) =
    decide (divisor ≤ 2 * partialRemainder dividend divisor i + (dividend.testBit (15 - i)).toNat) := by
  have next := (div_mod_of_bit (a := dividend / 2 ^ (16 - i)) (v := divisor) (by omega)
    (dividend.testBit (15 - i))).1
  rw [← div_two_pow_succ dividend inside, ← partialRemainder_eq fits (by omega)] at next
  rw [Nat.testBit_eq_decide_div_mod_eq, Nat.div_div_eq_div_mul, Nat.mul_comm, ← Nat.div_div_eq_div_mul,
    show 15 - i = 16 - (i + 1) by omega, next, show 16 - (i + 1) = 15 - i by omega]
  by_cases goes :
      divisor ≤ 2 * partialRemainder dividend divisor i + (dividend.testBit (15 - i)).toNat
  · simp [goes]
  · simp [goes]

end restoring

theorem lower_half_shifted (n : Nat) {i : Nat} (inside : i < 16) :
    2 * (n * 2 ^ i % 0x10000) = (n.testBit (15 - i)).toNat * 0x10000 + n * 2 ^ (i + 1) % 0x10000 := by
  have aligned : n * 2 ^ i / 0x8000 = n / 2 ^ (15 - i) := by
    have place : 0x8000 = 2 ^ (15 - i) * 2 ^ i := by
      rw [← pow_add, show 15 - i + i = 15 by omega]
      rfl
    rw [place, Nat.mul_div_mul_right _ _ (Nat.two_pow_pos i)]
  rw [Nat.toNat_testBit, ← aligned, pow_succ, ← Nat.mul_assoc]
  omega

theorem toNat_aligned (divisor : BitVec 16) : (divisor ++ 0#16).toNat = divisor.toNat * 0x10000 := by
  rw [BitVec.toNat_append, Nat.shiftLeft_eq]
  simp

/-- A step of the loop is a step of restoring division, though the shift may drop the highest bit. -/
theorem step_restores {d : Division} {divisor : BitVec 16} {remainder low below : Nat} {bit : Bool}
    (holds : d.dividend.toNat = remainder * 0x10000 + low)
    (shifts : 2 * low = bit.toNat * 0x10000 + below) (inside : below < 0x10000) (small : remainder < divisor.toNat) :
    (d.step (divisor ++ 0#16)).dividend.toNat =
        (if divisor.toNat ≤ 2 * remainder + bit.toNat then 2 * remainder + bit.toNat - divisor.toNat
          else 2 * remainder + bit.toNat) * 0x10000 + below ∧
      (d.step (divisor ++ 0#16)).halfCost = d.halfCost +
        if divisor.toNat ≤ 2 * remainder + bit.toNat then if 0x8000 ≤ remainder then 0 else 1
        else 2 := by
  have aligned := toNat_aligned divisor
  have bound := divisor.isLt
  have one := Bool.toNat_le bit
  have doubled : (d.dividend <<< 1).toNat = (2 * remainder + bit.toNat) * 0x10000 % 2 ^ 32 + below := by
    rw [BitVec.toNat_shiftLeft, Nat.shiftLeft_eq, holds]
    omega
  have high : d.dividend.msb = decide (0x8000 ≤ remainder) := by
    rw [BitVec.msb_eq_decide, holds, decide_eq_decide]
    omega
  unfold Division.step
  simp only [high, decide_eq_true_iff, BitVec.le_def, aligned, doubled]
  by_cases carry : 0x8000 ≤ remainder
  · have goes : divisor.toNat ≤ 2 * remainder + bit.toNat := by omega
    simp only [carry, goes, if_true, BitVec.toNat_sub, aligned, doubled]
    omega
  · by_cases goes : divisor.toNat ≤ 2 * remainder + bit.toNat
    · simp only [carry, goes, if_true, if_false]
      rw [if_pos (by omega)]
      simp only [BitVec.toNat_sub, aligned, doubled, and_true]
      omega
    · simp only [carry, goes, if_false]
      rw [if_neg (by omega)]
      simp only [doubled, and_true]
      omega

/-- After any number of steps the upper half is the partial remainder, and the time is the sum of what the
steps cost. -/
theorem after_spec {dividend : BitVec 32} {divisor : BitVec 16}
    (fits : dividend.toNat / 0x10000 < divisor.toNat) {i : Nat} (inside : i ≤ 16) :
    (Division.after dividend divisor i).dividend.toNat =
        partialRemainder dividend.toNat divisor.toNat i * 0x10000 + dividend.toNat * 2 ^ i % 0x10000 ∧
      (Division.after dividend divisor i).halfCost =
        38 + ∑ k ∈ Finset.range i, bitCost dividend.toNat divisor.toNat k := by
  -- every step relies on the remainder before it being below the divisor
  induction i with
  | zero =>
    constructor
    · change dividend.toNat = dividend.toNat / 0x10000 * 0x10000 + dividend.toNat * 2 ^ 0 % 0x10000
      omega
    · rfl
  | succ i ih =>
    obtain ⟨holds, spent⟩ := ih (by omega)
    obtain ⟨next, cost⟩ := step_restores holds (lower_half_shifted dividend.toNat (by omega))
      (Nat.mod_lt _ (by decide)) (partialRemainder_lt fits (by omega))
    have taken := testBit_quotient fits (by omega : i < 16)
    constructor
    · exact next
    · rw [Finset.sum_range_succ, ← Nat.add_assoc, ← spent]
      simp only [bitCost, taken, decide_eq_true_eq]
      exact cost

section unsigned
variable {dividend : BitVec 32} {divisor : BitVec 16}

theorem toNat_upper (x : BitVec 32) : (x >>> 16).toNat = x.toNat / 0x10000 := by
  rw [BitVec.toNat_ushiftRight, Nat.shiftRight_eq_div_pow]

theorem divu_of_fits (fits : dividend.toNat / 0x10000 < divisor.toNat) : divu dividend divisor =
    2 * (38 + ∑ i ∈ Finset.range 15, bitCost dividend.toNat divisor.toNat i) := by
  have spent := (after_spec fits (by decide : 15 ≤ 16)).2
  rw [divu_eq, toNat_upper, if_neg (by omega), spent]

theorem upper_after (fits : dividend.toNat / 0x10000 < divisor.toNat) {i : Nat} (inside : i ≤ 15) :
    ((Division.after dividend divisor i).dividend >>> 16).toNat =
      partialRemainder dividend.toNat divisor.toNat i := by
  have holds := (after_spec fits (by omega : i ≤ 16)).1
  rw [toNat_upper, holds]
  omega

theorem fits_iff (nonzero : divisor ≠ 0) :
    dividend.toNat / 0x10000 < divisor.toNat ↔ dividend.toNat / divisor.toNat ≤ 65535 := by
  have positive : 0 < divisor.toNat := by bv_omega
  rw [Nat.div_lt_iff_lt_mul (by decide), ← Nat.lt_succ_iff, Nat.div_lt_iff_lt_mul positive, Nat.mul_comm]

/-- The early exit is taken for the quotients that are too large. -/
theorem divu_eq_ten_iff (nonzero : divisor ≠ 0) :
    divu dividend divisor = 10 ↔ 65535 < dividend.toNat / divisor.toNat := by
  rw [← not_le, ← fits_iff nonzero]
  by_cases fits : dividend.toNat / 0x10000 < divisor.toNat
  · rw [divu_of_fits fits]
    omega
  · rw [divu_eq, toNat_upper, if_pos (by omega)]
    simp [fits]

end unsigned

/-- DIVU sets V for the quotients that are too large, and for no others. -/
theorem execute_divu {World : Type} {source : AddressingMode} {m loaded : Machine World}
    {value : BitVec 32} (read : Exec.loadFrom source .word m = .ok value loaded) (n : Fin 8)
    (nonzero : value.setWidth 16 ≠ 0#16) :
    ∃ m' : Machine World, (Instruction.divu source n).execute m =
        .ok (divu (m.registers.d.get n) (value.setWidth 16) + operand source .word) m' ∧
      (m'.registers.status.has .overflow = true ↔
        65535 < (m.registers.d.get n).toNat / (value.setWidth 16 : BitVec 16).toNat) := by
  cases found : Arithmetic.divideUnsigned? (m.registers.d.get n) (value.setWidth 16) with
  | none =>
    have large : ¬ (m.registers.d.get n).toNat / (value.setWidth 16 : BitVec 16).toNat < 0x10000 := by
      intro small
      rw [Arithmetic.divideUnsigned?, if_pos small] at found
      contradiction
    refine ⟨_, Exec.divide_of_none read n _ divu nonzero found, ?_⟩
    refine iff_of_true (Arithmetic.flags_of_overflow m.registers.status).1 ?_
    omega
  | some q =>
    have small : (m.registers.d.get n).toNat / (value.setWidth 16 : BitVec 16).toNat < 0x10000 := by
      by_contra large
      rw [Arithmetic.divideUnsigned?, if_neg large] at found
      contradiction
    refine ⟨_, Exec.divide_of_some read n _ divu nonzero found, ?_⟩
    have clear := (Arithmetic.flags_of_quotient m.registers.status q.quotient).2.2.1
    refine iff_of_false (ne_true_of_eq_false clear) ?_
    omega

/-- The zeros among bits 1 to 15. -/
def zeros (quotient : Nat) : Nat := (List.range' 1 15).countP fun i => !quotient.testBit i

/-- What the signs add to the time of DIVS. -/
def signCost (dividend divisor : Int) : Int :=
  if divisor < 0 then 0 else if dividend < 0 then 1 else -1

theorem zeros_eq (quotient : Nat) :
    (List.range 15).countP (fun i => !(BitVec.ofNat 16 quotient).getLsbD (15 - i)) = zeros quotient := by
  have places : List.range' 1 15 = ((List.range 15).map (15 - ·)).reverse := rfl
  rw [zeros, places, List.countP_reverse, List.countP_map]
  apply List.countP_congr
  intro i inside
  rw [List.mem_range] at inside
  simp [BitVec.getLsbD_ofNat, show 15 - i < 16 by omega, -BitVec.getLsbD_eq_getElem]

section signed
variable (dividend : BitVec 32) (divisor : BitVec 16)

theorem divs_of_large
    (large : 65536 * divisor.toInt.natAbs ≤ dividend.toInt.natAbs) :
    divs dividend divisor = 2 * (8 + (decide (dividend.toInt < 0)).toNat) := by
  unfold divs
  dsimp only
  rw [if_pos (by omega), BitVec.msb_eq_toInt]
  cases decide (dividend.toInt < 0) <;> rfl

theorem divs_of_fits
    (fits : dividend.toInt.natAbs < 65536 * divisor.toInt.natAbs) :
    (divs dividend divisor : Int) = 2 * (61 + (decide (dividend.toInt < 0)).toNat +
      signCost dividend.toInt divisor.toInt + zeros (dividend.toInt.natAbs / divisor.toInt.natAbs)) := by
  unfold divs signCost
  dsimp only
  rw [if_neg (by omega), zeros_eq, BitVec.msb_eq_toInt, BitVec.msb_eq_toInt]
  by_cases below : dividend.toInt < 0
  · by_cases under : divisor.toInt < 0 <;> simp [below, under]
  · by_cases under : divisor.toInt < 0 <;> simp [below, under]

theorem divs_eq_early_iff :
    divs dividend divisor = 2 * (8 + (decide (dividend.toInt < 0)).toNat) ↔
      65536 * divisor.toInt.natAbs ≤ dividend.toInt.natAbs := by
  constructor
  · intro early
    by_contra fits
    have spent := divs_of_fits dividend divisor (by omega)
    unfold signCost at spent
    split at spent
    · omega
    · split at spent <;> omega
  · exact divs_of_large dividend divisor

end signed

/-- DIVU leaves its loop at once for the quotients above sixteen bits, which are those for which it sets V. For
any other quotient its loop is a restoring division, and its time is the sum of what the fifteen upper bits of
the quotient cost. DIVS exits early where the magnitude of the quotient has more than sixteen bits, and takes
a time that depends on the signs and on the zeros among the fifteen upper bits of that magnitude otherwise. -/
theorem division_timing (dividend : BitVec 32) {divisor : BitVec 16} (nonzero : divisor ≠ 0) :
    (divu dividend divisor = 10 ↔ 65535 < dividend.toNat / divisor.toNat) ∧
    (∀ {World : Type} {source : AddressingMode} {n : Fin 8} {m loaded : Machine World}
        {value : BitVec 32}, Exec.loadFrom source .word m = .ok value loaded →
        m.registers.d.get n = dividend → value.setWidth 16 = divisor →
        ∃ m' : Machine World, (Instruction.divu source n).execute m =
            .ok (divu dividend divisor + operand source .word) m' ∧
          (m'.registers.status.has .overflow = true ↔ divu dividend divisor = 10)) ∧
    (dividend.toNat / divisor.toNat ≤ 65535 →
      (∀ i ≤ 15, ((Division.after dividend divisor i).dividend >>> 16).toNat =
        partialRemainder dividend.toNat divisor.toNat i) ∧
      divu dividend divisor =
        2 * (38 + ∑ i ∈ Finset.range 15, bitCost dividend.toNat divisor.toNat i)) ∧
    (divs dividend divisor = 2 * (8 + (decide (dividend.toInt < 0)).toNat) ↔
      65536 * divisor.toInt.natAbs ≤ dividend.toInt.natAbs) ∧
    (dividend.toInt.natAbs < 65536 * divisor.toInt.natAbs →
      (divs dividend divisor : Int) = 2 * (61 + (decide (dividend.toInt < 0)).toNat +
        signCost dividend.toInt divisor.toInt +
        zeros (dividend.toInt.natAbs / divisor.toInt.natAbs))) := by
  refine ⟨divu_eq_ten_iff nonzero, ?_, ?_, divs_eq_early_iff dividend divisor,
    divs_of_fits dividend divisor⟩
  · intro World source n m loaded value read isDividend isDivisor
    subst isDividend isDivisor
    rw [divu_eq_ten_iff nonzero]
    exact execute_divu read n nonzero
  · intro small
    have fits := (fits_iff nonzero).mpr small
    exact ⟨fun i inside => upper_after fits inside, divu_of_fits fits⟩

/-- One hundred by seven is fourteen: without the last bit, twelve zeros and then three ones. -/
theorem division_timing_hundred :
    (7 : BitVec 16) ≠ 0 ∧ divu 100 7 = 2 * (38 + 12 * 2 + 3) ∧
      (divs (-100) 7 : Int) = 2 * (61 + 1 + 1 + 12) := by
  have seven : (7 : BitVec 16) ≠ 0 := by decide
  have unsigned := ((division_timing 100 seven).2.2.1 (by decide)).2
  have signed := (division_timing (-100) seven).2.2.2.2 (by decide)
  exact ⟨seven, unsigned.trans (by decide), signed.trans (by decide)⟩

end MC68000.Timing
