import Mathlib.Tactic.IntervalCases
import Mathlib.Tactic.Linarith
import Mathlib.Tactic.LinearCombination
import Mathlib.Tactic.Ring
import MC68000.Arithmetic.Binary

set_option autoImplicit false

namespace MC68000.Arithmetic

/-- The number that limbs stand for, the least significant limb first. -/
def limbValue (size : Size) : List (BitVec 32) → Nat
  | [] => 0
  | limb :: rest => (size.truncate limb).toNat + size.modulus * limbValue size rest

/-- Works along limbs from the least significant on, each operation on the status word that the one before
it left. -/
def chain {Operands : Type} (operation : Operands → StatusWord → Outcome) :
    List Operands → StatusWord → List (BitVec 32) × StatusWord
  | [], status => ([], status)
  | operands :: rest, status =>
      let first := operation operands status
      let above := chain operation rest first.2
      (first.1 :: above.1, above.2)

/-- A number below `modulus` read as a signed one: the upper half is negative. -/
def signed (modulus value : Nat) : Int :=
  if modulus ≤ 2 * value then (value : Int) - modulus else value

/-- Whether a number lies in the range of signed numbers below `modulus`. -/
def Representable (modulus : Nat) (x : Int) : Prop := -modulus ≤ 2 * x ∧ 2 * x < modulus

theorem signed_of_high {modulus value : Nat} (high : modulus ≤ 2 * value) :
    signed modulus value = value - modulus := if_pos high

theorem signed_of_low {modulus value : Nat} (low : ¬ modulus ≤ 2 * value) :
    signed modulus value = value := if_neg low

theorem getLsbD_chainFlags (size : Size) (limb : Limb) (status : StatusWord) {i : Nat} (h : i < 16) :
    (limb.chainFlags size status).getLsbD i =
      if i = 0 ∨ i = 4 then limb.carry
      else if i = 1 then limb.overflow
      else if i = 2 then status.getLsbD i && limb.result == 0
      else if i = 3 then size.isNegative limb.result
      else status.getLsbD i := by
  simp only [Limb.chainFlags, StatusWord.getLsbD_setIf _ _ _ h]
  by_cases null : limb.result = 0
  · simp only [null, bne_self_eq_false, Bool.false_eq_true, if_false]
    interval_cases i <;>
      simp [StatusWord.extend, StatusWord.carry, StatusWord.overflow, StatusWord.negative]
  · simp only [bne_iff_ne.mpr null, beq_eq_false_iff_ne.mpr null, if_true,
      StatusWord.getLsbD_clear _ _ h]
    interval_cases i <;>
      simp [StatusWord.extend, StatusWord.carry, StatusWord.overflow, StatusWord.negative,
        StatusWord.zero]

theorem has_carry (status : StatusWord) : status.has .carry = status.getLsbD 0 :=
  status.has_eq_getLsbD rfl (by decide)

theorem has_overflow (status : StatusWord) : status.has .overflow = status.getLsbD 1 :=
  status.has_eq_getLsbD rfl (by decide)

theorem has_zero (status : StatusWord) : status.has .zero = status.getLsbD 2 :=
  status.has_eq_getLsbD rfl (by decide)

theorem has_negative (status : StatusWord) : status.has .negative = status.getLsbD 3 :=
  status.has_eq_getLsbD rfl (by decide)

theorem has_extend (status : StatusWord) : status.has .extend = status.getLsbD 4 :=
  status.has_eq_getLsbD rfl (by decide)

section flags
variable (size : Size) (limb : Limb) (status : StatusWord)

theorem has_extend_chainFlags : (limb.chainFlags size status).has .extend = limb.carry := by
  rw [has_extend, getLsbD_chainFlags _ _ _ (by decide)]
  rfl

theorem has_carry_chainFlags : (limb.chainFlags size status).has .carry = limb.carry := by
  rw [has_carry, getLsbD_chainFlags _ _ _ (by decide)]
  rfl

theorem has_overflow_chainFlags : (limb.chainFlags size status).has .overflow = limb.overflow := by
  rw [has_overflow, getLsbD_chainFlags _ _ _ (by decide)]
  rfl

theorem has_negative_chainFlags :
    (limb.chainFlags size status).has .negative = size.isNegative limb.result := by
  rw [has_negative, getLsbD_chainFlags _ _ _ (by decide)]
  rfl

theorem has_zero_chainFlags :
    (limb.chainFlags size status).has .zero = (status.has .zero && limb.result == 0) := by
  rw [has_zero, has_zero, getLsbD_chainFlags _ _ _ (by decide)]
  rfl

theorem clear_chainFlags :
    (limb.chainFlags size status).clear .conditionCodes = status.clear .conditionCodes := by
  apply BitVec.eq_of_getLsbD_eq
  intro i h
  rw [StatusWord.getLsbD_clear _ _ h, StatusWord.getLsbD_clear _ _ h, getLsbD_chainFlags _ _ _ h]
  interval_cases i <;> simp [StatusWord.conditionCodes]

end flags

theorem modulus_even (size : Size) : size.modulus % 2 = 0 := by
  cases size <;> rfl

theorem modulus_eq (size : Size) : size.modulus = 2 ^ size.bits := by
  cases size <;> rfl

theorem modulus_pow (size : Size) (count : Nat) : size.modulus ^ count = 2 ^ (count * size.bits) := by
  rw [Nat.mul_comm, pow_mul, modulus_eq]

theorem modulus_dvd (size : Size) : size.modulus ∣ 2 ^ 32 := by
  cases size <;> decide

theorem truncate_lt (size : Size) (value : BitVec 32) :
    (size.truncate value).toNat < size.modulus := by
  rw [size.toNat_truncate]
  exact Nat.mod_lt _ (by cases size <;> decide)

theorem truncate_of_lt {size : Size} {value : BitVec 32} (h : value.toNat < size.modulus) :
    size.truncate value = value := by
  apply BitVec.eq_of_toNat_eq
  rw [size.toNat_truncate, Nat.mod_eq_of_lt h]

theorem isNegative_of_lt {size : Size} {value : BitVec 32} (h : value.toNat < size.modulus) :
    size.isNegative value = decide (size.modulus ≤ 2 * value.toNat) := by
  rw [size.isNegative_eq, BitVec.getLsbD, Nat.testBit_eq_decide_div_mod_eq, decide_eq_decide]
  cases size <;> simp only [Size.modulus, Size.bits, Size.bytes] at h ⊢ <;> omega

theorem isNegative_and (size : Size) (x y : BitVec 32) :
    size.isNegative (x &&& y) = (size.isNegative x && size.isNegative y) := by
  simp only [size.isNegative_eq, BitVec.getLsbD_and]

theorem isNegative_xor (size : Size) (x y : BitVec 32) :
    size.isNegative (x ^^^ y) = (size.isNegative x ^^ size.isNegative y) := by
  simp only [size.isNegative_eq, BitVec.getLsbD_xor]

theorem isNegative_not (size : Size) (x : BitVec 32) :
    size.isNegative (~~~x) = !size.isNegative x := by
  have inside : size.bits - 1 < 32 := by cases size <;> decide
  simp only [size.isNegative_eq, BitVec.getLsbD_not, inside, decide_true, Bool.true_and]

/-- A sum of signed numbers leaves their range exactly when operands of one sign give a result of the
other. -/
theorem overflow_of_sum {modulus src dst result carryIn : Nat} {carryOut : Bool}
    (even : modulus % 2 = 0) (s : src < modulus) (d : dst < modulus) (r : result < modulus)
    (bit : carryIn ≤ 1) (exact : result + modulus * carryOut.toNat = src + dst + carryIn) :
    (!(decide (modulus ≤ 2 * src) ^^ decide (modulus ≤ 2 * dst)) &&
        (decide (modulus ≤ 2 * src) ^^ decide (modulus ≤ 2 * result))) = true ↔
      ¬ Representable modulus (signed modulus dst + (signed modulus src + carryIn)) := by
  unfold Representable
  cases carryOut <;> by_cases hs : modulus ≤ 2 * src <;> by_cases hd : modulus ≤ 2 * dst <;>
    by_cases hr : modulus ≤ 2 * result <;>
    simp [hs, hd, hr, signed_of_high, signed_of_low] at exact ⊢ <;> omega

/-- A difference of signed numbers leaves their range exactly when operands of different signs give a
result with the sign of the one subtracted. -/
theorem overflow_of_difference {modulus src dst result borrowIn : Nat} {borrowOut : Bool}
    (even : modulus % 2 = 0) (s : src < modulus) (d : dst < modulus) (r : result < modulus)
    (bit : borrowIn ≤ 1) (exact : result + src + borrowIn = dst + modulus * borrowOut.toNat) :
    ((decide (modulus ≤ 2 * src) ^^ decide (modulus ≤ 2 * dst)) &&
        (decide (modulus ≤ 2 * dst) ^^ decide (modulus ≤ 2 * result))) = true ↔
      ¬ Representable modulus (signed modulus dst - (signed modulus src + borrowIn)) := by
  unfold Representable
  cases borrowOut <;> by_cases hs : modulus ≤ 2 * src <;> by_cases hd : modulus ≤ 2 * dst <;>
    by_cases hr : modulus ≤ 2 * result <;>
    simp [hs, hd, hr, signed_of_high, signed_of_low] at exact ⊢ <;> omega

/-- What one limb of `dst + sign * src` is, given what the limbs below carry into it: `sign` is 1 in a sum
and -1 in a difference. -/
structure Limb.Exact (size : Size) (sign : Int) (src dst : BitVec 32) (carryIn : Bool)
    (limb : Limb) : Prop where
  fits : limb.result.toNat < size.modulus
  value : (limb.result.toNat : Int) + sign * (size.modulus * limb.carry.toNat) =
    (size.truncate dst).toNat + sign * ((size.truncate src).toNat + carryIn.toNat)
  overflow : limb.overflow = true ↔ ¬ Representable size.modulus
    (signed size.modulus (size.truncate dst).toNat +
      sign * (signed size.modulus (size.truncate src).toNat + carryIn.toNat))

theorem toNat_sum (size : Size) (src dst : BitVec 32) (carryIn : Bool) :
    (sum size src dst carryIn).result.toNat +
        size.modulus * (sum size src dst carryIn).carry.toNat =
      (size.truncate src).toNat + (size.truncate dst).toNat + carryIn.toNat := by
  have s := truncate_lt size src
  have d := truncate_lt size dst
  have c := carryIn.toNat_le
  simp only [sum, size.toNat_truncate (BitVec.ofNat 32 _), BitVec.toNat_ofNat,
    Nat.mod_mod_of_dvd _ (modulus_dvd size)]
  have bound : (size.truncate src).toNat + (size.truncate dst).toNat + carryIn.toNat <
      2 * size.modulus := by omega
  generalize (size.truncate src).toNat + (size.truncate dst).toNat + carryIn.toNat = total at *
  by_cases whole : size.modulus ≤ total
  · rw [Nat.mod_eq_sub_mod whole, Nat.mod_eq_of_lt (by omega)]
    simp only [whole, decide_true, Bool.toNat_true]
    omega
  · rw [Nat.mod_eq_of_lt (by omega)]
    simp [whole]

theorem exact_sum (size : Size) (src dst : BitVec 32) (carryIn : Bool) :
    (sum size src dst carryIn).Exact size 1 src dst carryIn := by
  have s := truncate_lt size src
  have d := truncate_lt size dst
  have r : (sum size src dst carryIn).result.toNat < size.modulus := truncate_lt size _
  have total := toNat_sum size src dst carryIn
  constructor
  · exact r
  · rw [one_mul, one_mul]
    exact_mod_cast total.trans (by omega)
  · rw [one_mul, ← overflow_of_sum (modulus_even size) s d r carryIn.toNat_le total,
      ← isNegative_of_lt s, ← isNegative_of_lt d, ← isNegative_of_lt r]
    simp only [sum, isNegative_and, isNegative_not, isNegative_xor]

theorem toNat_difference (size : Size) (src dst : BitVec 32) (borrowIn : Bool) :
    (difference size src dst borrowIn).result.toNat + (size.truncate src).toNat + borrowIn.toNat =
      (size.truncate dst).toNat +
        size.modulus * (difference size src dst borrowIn).carry.toNat := by
  have s := truncate_lt size src
  have d := truncate_lt size dst
  have b := borrowIn.toNat_le
  simp only [difference, size.toNat_truncate (_ - _ - _), BitVec.toNat_sub, BitVec.toNat_ofNat]
  generalize (size.truncate src).toNat = subtrahend at *
  generalize (size.truncate dst).toNat = minuend at *
  by_cases less : minuend < subtrahend + borrowIn.toNat <;>
    cases size <;> simp only [less, decide_true, decide_false, Bool.toNat_true, Bool.toNat_false,
      Size.modulus] at s d ⊢ <;> omega

theorem exact_difference (size : Size) (src dst : BitVec 32) (borrowIn : Bool) :
    (difference size src dst borrowIn).Exact size (-1) src dst borrowIn := by
  have s := truncate_lt size src
  have d := truncate_lt size dst
  have r : (difference size src dst borrowIn).result.toNat < size.modulus := truncate_lt size _
  have total := toNat_difference size src dst borrowIn
  constructor
  · exact r
  · have whole : ((difference size src dst borrowIn).result.toNat : Int) +
        (size.truncate src).toNat + borrowIn.toNat = (size.truncate dst).toNat +
          size.modulus * (difference size src dst borrowIn).carry.toNat := by exact_mod_cast total
    linarith
  · rw [neg_one_mul, ← sub_eq_add_neg,
      ← overflow_of_difference (modulus_even size) s d r borrowIn.toNat_le total,
      ← isNegative_of_lt s, ← isNegative_of_lt d, ← isNegative_of_lt r]
    simp only [difference, isNegative_and, isNegative_xor]

/-- A digit appended below does not move a number to the other half of the range. -/
theorem high_append {low base modulus : Nat} (value : Nat) (fits : low < base)
    (even : modulus % 2 = 0) :
    base * modulus ≤ 2 * (low + base * value) ↔ modulus ≤ 2 * value := by
  constructor
  · intro whole
    by_contra below
    have scaled : base * (2 * value + 2) ≤ base * modulus := Nat.mul_le_mul_left base (by omega)
    linarith
  · intro high
    have scaled : base * modulus ≤ base * (2 * value) := Nat.mul_le_mul_left base high
    linarith

theorem signed_append {low base modulus : Nat} (value : Nat) (fits : low < base)
    (even : modulus % 2 = 0) :
    signed (base * modulus) (low + base * value) = low + base * signed modulus value := by
  unfold signed
  simp only [high_append value fits even]
  split
  · push_cast
    ring
  · push_cast
    rfl

/-- Nor does it move a number out of the signed range or into it. -/
theorem representable_append {low base modulus : Nat} (x : Int) (fits : low < base)
    (even : modulus % 2 = 0) :
    Representable (base * modulus) (low + base * x) ↔ Representable modulus x := by
  obtain ⟨half, rfl⟩ : ∃ half, modulus = 2 * half := ⟨modulus / 2, by omega⟩
  have digit : (low : Int) + 1 ≤ base := by exact_mod_cast fits
  have scale (a b : Int) (h : a ≤ b) : base * a ≤ base * b :=
    mul_le_mul_of_nonneg_left h (Int.natCast_nonneg base)
  unfold Representable
  push_cast
  constructor
  · rintro ⟨lower, upper⟩
    have lower' : -(half : Int) ≤ x := by
      by_contra below
      linarith [scale (x + 1) (-half) (by omega)]
    have upper' : x < half := by
      by_contra above
      linarith [scale half x (by omega)]
    omega
  · rintro ⟨lower, upper⟩
    have lower' := scale (-half) x (by omega)
    have upper' := scale (x + 1) half (by omega)
    constructor <;> linarith

section chain
variable {Operands : Type} {size : Size} {sign : Int} {src dst : Operands → BitVec 32}
  {operation : Operands → StatusWord → Outcome}

/-- The operation computes one limb of `dst + sign * src`, with X carried in, and leaves its flags. -/
def Extends (size : Size) (sign : Int) (src dst : Operands → BitVec 32)
    (operation : Operands → StatusWord → Outcome) : Prop :=
  ∀ operands status, ∃ limb : Limb,
    operation operands status = (limb.result, limb.chainFlags size status) ∧
    limb.Exact size sign (src operands) (dst operands) (status.has .extend)

/-- The operation leaves the flags of one limb, whatever the limb is. -/
def LeavesChainFlags (size : Size) (operation : Operands → StatusWord → Outcome) : Prop :=
  ∀ operands status, ∃ limb : Limb,
    operation operands status = (limb.result, limb.chainFlags size status)

theorem Extends.leaves (step : Extends size sign src dst operation) :
    LeavesChainFlags size operation := by
  intro operands status
  obtain ⟨limb, ran, -⟩ := step operands status
  exact ⟨limb, ran⟩

theorem length_chain (operation : Operands → StatusWord → Outcome) (limbs : List Operands)
    (status : StatusWord) : (chain operation limbs status).1.length = limbs.length := by
  induction limbs generalizing status with
  | nil => rfl
  | cons operands rest ih => simp only [chain, List.length_cons, ih]

theorem fits_chain (step : Extends size sign src dst operation) (limbs : List Operands)
    (status : StatusWord) :
    ∀ limb ∈ (chain operation limbs status).1, limb.toNat < size.modulus := by
  induction limbs generalizing status with
  | nil => simp [chain]
  | cons operands rest ih =>
    obtain ⟨limb, ran, exact⟩ := step operands status
    simp only [chain, ran, List.forall_mem_cons]
    exact ⟨exact.fits, ih _⟩

/-- What is carried out of a chain makes its result exact. -/
theorem value_chain (step : Extends size sign src dst operation) (limbs : List Operands)
    (status : StatusWord) :
    (limbValue size (chain operation limbs status).1 : Int) + sign *
        (size.modulus ^ limbs.length * ((chain operation limbs status).2.has .extend).toNat) =
      limbValue size (limbs.map dst) +
        sign * (limbValue size (limbs.map src) + (status.has .extend).toNat) := by
  induction limbs generalizing status with
  | nil => simp [chain, limbValue]
  | cons operands rest ih =>
    obtain ⟨limb, ran, exact⟩ := step operands status
    have above := ih (limb.chainFlags size status)
    have here := exact.value
    rw [has_extend_chainFlags] at above
    simp only [chain, ran, limbValue, List.map_cons, List.length_cons, truncate_of_lt exact.fits,
      pow_succ, Nat.cast_add, Nat.cast_mul]
    linear_combination here + size.modulus * above

theorem zero_chain (step : LeavesChainFlags size operation) (limbs : List Operands)
    (status : StatusWord) :
    (chain operation limbs status).2.has .zero =
      (status.has .zero && (chain operation limbs status).1.all (· == 0)) := by
  induction limbs generalizing status with
  | nil => simp [chain]
  | cons operands rest ih =>
    obtain ⟨limb, ran⟩ := step operands status
    simp only [chain, ran, ih, has_zero_chainFlags, List.all_cons, Bool.and_assoc]

theorem clear_chain (step : LeavesChainFlags size operation) (limbs : List Operands)
    (status : StatusWord) :
    (chain operation limbs status).2.clear .conditionCodes = status.clear .conditionCodes := by
  induction limbs generalizing status with
  | nil => rfl
  | cons operands rest ih =>
    obtain ⟨limb, ran⟩ := step operands status
    simp only [chain, ran, ih, clear_chainFlags]

theorem carry_chain (step : LeavesChainFlags size operation) {limbs : List Operands}
    (nonempty : limbs ≠ []) (status : StatusWord) :
    (chain operation limbs status).2.has .carry = (chain operation limbs status).2.has .extend := by
  induction limbs generalizing status with
  | nil => contradiction
  | cons operands rest ih =>
    obtain ⟨limb, ran⟩ := step operands status
    by_cases last : rest = []
    · simp only [last, chain, ran, has_carry_chainFlags, has_extend_chainFlags]
    · simpa only [chain, ran] using ih last _

theorem even_pow (size : Size) {limbs : List Operands} (nonempty : limbs ≠ []) :
    size.modulus ^ limbs.length % 2 = 0 := by
  rw [Nat.pow_mod, modulus_even, zero_pow (List.length_pos_iff.mpr nonempty).ne', Nat.zero_mod]

theorem negative_chain (step : Extends size sign src dst operation) {limbs : List Operands}
    (nonempty : limbs ≠ []) (status : StatusWord) :
    (chain operation limbs status).2.has .negative =
      decide (size.modulus ^ limbs.length ≤ 2 * limbValue size (chain operation limbs status).1) := by
  induction limbs generalizing status with
  | nil => contradiction
  | cons operands rest ih =>
    obtain ⟨limb, ran, exact⟩ := step operands status
    by_cases last : rest = []
    · simp only [last, chain, ran, has_negative_chainFlags, isNegative_of_lt exact.fits, limbValue,
        truncate_of_lt exact.fits, List.length_singleton, pow_one, Nat.mul_zero, Nat.add_zero]
    · simp only [chain, ran, limbValue, truncate_of_lt exact.fits, List.length_cons, pow_succ',
        high_append _ exact.fits (even_pow size last)]
      exact ih last _

/-- V is the signed overflow of the whole number. -/
theorem overflow_chain (step : Extends size sign src dst operation) {limbs : List Operands}
    (nonempty : limbs ≠ []) (status : StatusWord) :
    (chain operation limbs status).2.has .overflow = true ↔
      ¬ Representable (size.modulus ^ limbs.length)
        (signed (size.modulus ^ limbs.length) (limbValue size (limbs.map dst)) +
          sign * (signed (size.modulus ^ limbs.length) (limbValue size (limbs.map src)) +
            (status.has .extend).toNat)) := by
  induction limbs generalizing status with
  | nil => contradiction
  | cons operands rest ih =>
    obtain ⟨limb, ran, exact⟩ := step operands status
    by_cases last : rest = []
    · simpa only [last, chain, ran, has_overflow_chainFlags, limbValue, List.map_cons, List.map_nil,
        List.length_singleton, pow_one, Nat.mul_zero, Nat.add_zero] using exact.overflow
    · have even := even_pow size last
      have above := ih last (limb.chainFlags size status)
      have here := exact.value
      rw [has_extend_chainFlags, ← representable_append _ exact.fits even] at above
      simp only [chain, ran, limbValue, List.map_cons, List.length_cons, pow_succ',
        signed_append _ (truncate_lt size _) even, above]
      -- the carry out of this limb is the one into those above
      congr! 2
      linear_combination here

/-- A result of `count` limbs and the status word left with it are those of the number `exact`, or of
`exactSigned` where the operands are read as signed. X says that `exact` itself does not fit: a carry out of a
sum, a borrow into a difference. -/
structure Computes (size : Size) (count : Nat) (exact exactSigned : Int) (before : StatusWord)
    (after : List (BitVec 32) × StatusWord) : Prop where
  length : after.1.length = count
  fits : ∀ limb ∈ after.1, limb.toNat < size.modulus
  value : (limbValue size after.1 : Int) = exact % 2 ^ (count * size.bits)
  extend : after.2.has .extend = true ↔ exact < 0 ∨ 2 ^ (count * size.bits) ≤ exact
  carry : after.2.has .carry = after.2.has .extend
  overflow : after.2.has .overflow = true ↔ ¬ Representable (2 ^ (count * size.bits)) exactSigned
  negative : after.2.has .negative = (limbValue size after.1).testBit (count * size.bits - 1)
  zero : after.2.has .zero = true ↔ before.has .zero = true ∧ ∀ limb ∈ after.1, limb = 0
  others : after.2.clear .conditionCodes = before.clear .conditionCodes

theorem limbValue_lt (size : Size) (limbs : List (BitVec 32)) :
    limbValue size limbs < size.modulus ^ limbs.length := by
  induction limbs with
  | nil => simp [limbValue]
  | cons limb rest ih =>
    have digit := truncate_lt size limb
    have scaled : size.modulus * (limbValue size rest + 1) ≤
        size.modulus * size.modulus ^ rest.length := Nat.mul_le_mul_left _ ih
    simp only [limbValue, List.length_cons, pow_succ']
    linarith

/-- What is carried out of a number below `modulus` tells whether the exact result is such a number. -/
theorem carry_iff {modulus value : Nat} {sign exact : Int} {carryOut : Bool} (fits : value < modulus)
    (unit : sign = 1 ∨ sign = -1) (h : (value : Int) + sign * (modulus * carryOut.toNat) = exact) :
    carryOut = true ↔ exact < 0 ∨ modulus ≤ exact := by
  obtain rfl | rfl := unit <;> cases carryOut <;> simp at h ⊢ <;> omega

theorem value_eq_emod {modulus value : Nat} {sign exact : Int} {carryOut : Bool}
    (fits : value < modulus) (h : (value : Int) + sign * (modulus * carryOut.toNat) = exact) :
    (value : Int) = exact % modulus := by
  rw [← h, mul_left_comm, Int.add_mul_emod_self_left,
    Int.emod_eq_of_lt (Int.natCast_nonneg value) (by exact_mod_cast fits)]

theorem testBit_top {width value : Nat} (positive : 0 < width) (fits : value < 2 ^ width) :
    value.testBit (width - 1) = decide (2 ^ width ≤ 2 * value) := by
  obtain ⟨top, rfl⟩ : ∃ top, width = top + 1 := ⟨width - 1, by omega⟩
  rw [Nat.add_sub_cancel, pow_succ]
  by_cases high : 2 ^ top ≤ value
  · rw [Nat.testBit_of_two_pow_le_and_two_pow_add_one_gt high fits]
    exact (decide_eq_true (by omega)).symm
  · rw [Nat.testBit_lt_two_pow (by omega)]
    exact (decide_eq_false (by omega)).symm

theorem computes_chain (step : Extends size sign src dst operation) (unit : sign = 1 ∨ sign = -1)
    {limbs : List Operands} (nonempty : limbs ≠ []) (status : StatusWord) :
    Computes size limbs.length
      (limbValue size (limbs.map dst) +
        sign * (limbValue size (limbs.map src) + (status.has .extend).toNat))
      (signed (2 ^ (limbs.length * size.bits)) (limbValue size (limbs.map dst)) +
        sign * (signed (2 ^ (limbs.length * size.bits)) (limbValue size (limbs.map src)) +
          (status.has .extend).toNat))
      status (chain operation limbs status) := by
  have value := value_chain step limbs status
  have length := length_chain operation limbs status
  have below := limbValue_lt size (chain operation limbs status).1
  have width : 0 < limbs.length * size.bits :=
    Nat.mul_pos (List.length_pos_iff.mpr nonempty) (by cases size <;> decide)
  have negative := negative_chain step nonempty status
  have overflow := overflow_chain step nonempty status
  rw [length] at below
  rw [← Nat.cast_pow] at value
  simp only [modulus_pow] at value below negative overflow
  constructor
  · exact length
  · exact fits_chain step limbs status
  · exact_mod_cast value_eq_emod below value
  · exact_mod_cast carry_iff below unit value
  · exact carry_chain step.leaves nonempty status
  · exact overflow
  · rw [negative, testBit_top width below]
  · simp [zero_chain step.leaves limbs status]
  · exact clear_chain step.leaves limbs status

end chain

theorem extends_addExtended (size : Size) : Extends size 1 Prod.fst Prod.snd
    (fun limbs => addExtended size limbs.1 limbs.2) :=
  fun limbs _ => ⟨_, rfl, exact_sum size limbs.1 limbs.2 _⟩

theorem extends_subtractExtended (size : Size) : Extends size (-1) Prod.fst Prod.snd
    (fun limbs => subtractExtended size limbs.1 limbs.2) :=
  fun limbs _ => ⟨_, rfl, exact_difference size limbs.1 limbs.2 _⟩

theorem extends_negateExtended (size : Size) :
    Extends size (-1) id (fun _ => 0) (negateExtended size) :=
  fun limb _ => ⟨_, rfl, exact_difference size limb 0 _⟩

theorem limbValue_zeros (size : Size) (limbs : List (BitVec 32)) :
    limbValue size (limbs.map fun _ => 0) = 0 := by
  induction limbs with
  | nil => rfl
  | cons limb rest ih =>
    rw [List.map_cons, limbValue, ih, Nat.mul_zero, size.toNat_truncate, BitVec.ofNat_eq_ofNat,
      BitVec.toNat_zero, Nat.zero_mod]

/-- Chains of ADDX, SUBX and NEGX compute `a + b + X`, `a - b - X` and `0 - a - X` on numbers of any length,
with the flags of the whole result. -/
theorem limb_chains_exact (size : Size) {count : Nat} (positive : 0 < count) {a b : List (BitVec 32)}
    (ha : a.length = count) (hb : b.length = count) (status : StatusWord) :
    let modulus := 2 ^ (count * size.bits)
    let x : Int := (status.has .extend).toNat
    Computes size count (limbValue size a + limbValue size b + x)
      (signed modulus (limbValue size a) + signed modulus (limbValue size b) + x) status
      (chain (fun limbs => addExtended size limbs.1 limbs.2) (b.zip a) status) ∧
    Computes size count (limbValue size a - limbValue size b - x)
      (signed modulus (limbValue size a) - signed modulus (limbValue size b) - x) status
      (chain (fun limbs => subtractExtended size limbs.1 limbs.2) (b.zip a) status) ∧
    Computes size count (0 - limbValue size a - x) (0 - signed modulus (limbValue size a) - x) status
      (chain (negateExtended size) a status) := by
  intro modulus x
  have pairs : (b.zip a).length = count := by simp [ha, hb]
  have pairsSome : b.zip a ≠ [] := List.length_pos_iff.mp (by omega)
  have aSome : a ≠ [] := List.length_pos_iff.mp (by omega)
  have low : (b.zip a).map Prod.fst = b := List.map_fst_zip (by omega)
  have high : (b.zip a).map Prod.snd = a := List.map_snd_zip (by omega)
  have null : signed modulus 0 = 0 := signed_of_low (by simp [modulus])
  have add := computes_chain (extends_addExtended size) (.inl rfl) pairsSome status
  have subtract := computes_chain (extends_subtractExtended size) (.inr rfl) pairsSome status
  have negate := computes_chain (extends_negateExtended size) (.inr rfl) aSome status
  rw [pairs, low, high] at add subtract
  rw [ha, List.map_id, limbValue_zeros, null] at negate
  refine ⟨?_, ?_, ?_⟩
  · convert add using 1 <;> ring
  · convert subtract using 1 <;> ring
  · convert negate using 1 <;> push_cast <;> ring

/-- Two words: `0x7FFFFFFF + 0 + 1` carries through the low word and overflows in the high one. -/
theorem limb_chains_exact_two_words :
    let sum := chain (fun limbs => addExtended .word limbs.1 limbs.2)
      ([0, 0].zip [0xFFFF, 0x7FFF]) 0x0014
    sum = ([0, 0x8000], 0x000A) ∧
      Computes .word 2 (limbValue .word [0xFFFF, 0x7FFF] + limbValue .word [0, 0] + 1)
        (signed (2 ^ 32) (limbValue .word [0xFFFF, 0x7FFF]) +
          signed (2 ^ 32) (limbValue .word [0, 0]) + 1) 0x0014 sum :=
  ⟨by decide,
    (@limb_chains_exact .word 2 (by decide) [0xFFFF, 0x7FFF] [0, 0] rfl rfl 0x0014).1⟩

end MC68000.Arithmetic
