import MC68000.Proofs.LimbChains

set_option autoImplicit false

namespace MC68000.Arithmetic

/-- What a condition tells when `dst` has been compared with `src`. -/
def Tells (size : Size) (src dst : BitVec 32) : Condition → Prop
  | .always => True
  | .never => False
  | .higher => (size.truncate src).toNat < (size.truncate dst).toNat
  | .lowerOrSame => (size.truncate dst).toNat ≤ (size.truncate src).toNat
  | .carryClear => (size.truncate src).toNat ≤ (size.truncate dst).toNat
  | .carrySet => (size.truncate dst).toNat < (size.truncate src).toNat
  | .notEqual => size.truncate dst ≠ size.truncate src
  | .equal => size.truncate dst = size.truncate src
  | .overflowClear =>
      Representable size.modulus ((size.signExtend dst).toInt - (size.signExtend src).toInt)
  | .overflowSet =>
      ¬ Representable size.modulus ((size.signExtend dst).toInt - (size.signExtend src).toInt)
  | .plus => 0 ≤ (size.signExtend (dst - src)).toInt
  | .minus => (size.signExtend (dst - src)).toInt < 0
  | .greaterOrEqual => (size.signExtend src).toInt ≤ (size.signExtend dst).toInt
  | .less => (size.signExtend dst).toInt < (size.signExtend src).toInt
  | .greater => (size.signExtend src).toInt < (size.signExtend dst).toInt
  | .lessOrEqual => (size.signExtend dst).toInt ≤ (size.signExtend src).toInt

theorem getLsbD_compareFlags (size : Size) (limb : Limb) (status : StatusWord) {i : Nat} (h : i < 16) :
    (limb.compareFlags size status).getLsbD i =
      if i = 0 then limb.carry
      else if i = 1 then limb.overflow
      else if i = 2 then size.truncate limb.result == 0
      else if i = 3 then size.isNegative (size.truncate limb.result)
      else status.getLsbD i := by
  simp only [Limb.compareFlags, StatusWord.withSign, StatusWord.getLsbD_setIf _ _ _ h]
  interval_cases i <;>
    simp [StatusWord.carry, StatusWord.overflow, StatusWord.negative, StatusWord.zero]

/-- The flags of a whole result are those of a comparison, and X. -/
theorem getLsbD_wholeFlags (size : Size) (limb : Limb) (status : StatusWord) {i : Nat} (h : i < 16) :
    (limb.wholeFlags size status).getLsbD i =
      if i = 4 then limb.carry else (limb.compareFlags size status).getLsbD i := by
  simp only [Limb.wholeFlags, StatusWord.getLsbD_setIf _ _ _ h]
  interval_cases i <;> simp [StatusWord.extend]

section flags
variable (size : Size) (limb : Limb) (status : StatusWord)

theorem has_carry_compareFlags : (limb.compareFlags size status).has .carry = limb.carry := by
  rw [has_carry, getLsbD_compareFlags _ _ _ (by decide)]
  rfl

theorem has_overflow_compareFlags : (limb.compareFlags size status).has .overflow = limb.overflow := by
  rw [has_overflow, getLsbD_compareFlags _ _ _ (by decide)]
  rfl

theorem has_zero_compareFlags :
    (limb.compareFlags size status).has .zero = (size.truncate limb.result == 0) := by
  rw [has_zero, getLsbD_compareFlags _ _ _ (by decide)]
  rfl

theorem has_negative_compareFlags :
    (limb.compareFlags size status).has .negative = size.isNegative (size.truncate limb.result) := by
  rw [has_negative, getLsbD_compareFlags _ _ _ (by decide)]
  rfl

theorem has_extend_compareFlags :
    (limb.compareFlags size status).has .extend = status.has .extend := by
  rw [has_extend, has_extend, getLsbD_compareFlags _ _ _ (by decide)]
  rfl

theorem has_carry_wholeFlags : (limb.wholeFlags size status).has .carry = limb.carry := by
  rw [has_carry, getLsbD_wholeFlags _ _ _ (by decide), ← has_carry_compareFlags size limb status, has_carry]
  rfl

theorem has_overflow_wholeFlags : (limb.wholeFlags size status).has .overflow = limb.overflow := by
  rw [has_overflow, getLsbD_wholeFlags _ _ _ (by decide), ← has_overflow_compareFlags size limb status,
    has_overflow]
  rfl

theorem has_extend_wholeFlags : (limb.wholeFlags size status).has .extend = limb.carry := by
  rw [has_extend, getLsbD_wholeFlags _ _ _ (by decide)]
  rfl

theorem clear_compareFlags :
    (limb.compareFlags size status).clear .conditionCodes = status.clear .conditionCodes := by
  apply BitVec.eq_of_getLsbD_eq
  intro i h
  rw [StatusWord.getLsbD_clear _ _ h, StatusWord.getLsbD_clear _ _ h, getLsbD_compareFlags _ _ _ h]
  interval_cases i <;> simp [StatusWord.conditionCodes]

theorem clear_wholeFlags :
    (limb.wholeFlags size status).clear .conditionCodes = status.clear .conditionCodes := by
  apply BitVec.eq_of_getLsbD_eq
  intro i h
  rw [StatusWord.getLsbD_clear _ _ h, StatusWord.getLsbD_clear _ _ h, getLsbD_wholeFlags _ _ _ h,
    getLsbD_compareFlags _ _ _ h]
  interval_cases i <;> simp [StatusWord.conditionCodes]

theorem clear_extend_wholeFlags :
    (limb.wholeFlags size status).clear .extend = (limb.compareFlags size status).clear .extend := by
  apply BitVec.eq_of_getLsbD_eq
  intro i h
  rw [StatusWord.getLsbD_clear _ _ h, StatusWord.getLsbD_clear _ _ h, getLsbD_wholeFlags _ _ _ h]
  interval_cases i <;> simp [StatusWord.extend]

end flags

theorem toInt_signExtend (size : Size) (value : BitVec 32) :
    (size.signExtend value).toInt = signed size.modulus (size.truncate value).toNat := by
  rw [size.toNat_truncate, signed]
  cases size with
  | byte =>
    rw [Size.signExtend, BitVec.toInt_signExtend_of_le (by decide), BitVec.toInt_eq_toNat_cond,
      BitVec.toNat_setWidth]
    simp only [Size.modulus]
    omega
  | word =>
    rw [Size.signExtend, BitVec.toInt_signExtend_of_le (by decide), BitVec.toInt_eq_toNat_cond,
      BitVec.toNat_setWidth]
    simp only [Size.modulus]
    omega
  | long =>
    have bound := value.isLt
    rw [Size.signExtend, BitVec.toInt_eq_toNat_cond]
    simp only [Size.modulus]
    omega

/-- A signed difference is negative exactly when the sign of the result and the overflow disagree. -/
theorem less_of_difference {modulus src dst result : Nat} {borrow : Bool} (even : modulus % 2 = 0)
    (s : src < modulus) (d : dst < modulus) (r : result < modulus)
    (exact : result + src = dst + modulus * borrow.toNat) :
    (modulus ≤ 2 * result ↔ Representable modulus (signed modulus dst - signed modulus src)) ↔
      signed modulus dst < signed modulus src := by
  unfold Representable
  cases borrow <;> by_cases hs : modulus ≤ 2 * src <;> by_cases hd : modulus ≤ 2 * dst <;>
    by_cases hr : modulus ≤ 2 * result <;>
    simp [hs, hd, hr, signed_of_high, signed_of_low] at exact ⊢ <;> omega

theorem toInt_signExtend_inj (size : Size) (x y : BitVec 32) :
    (size.signExtend x).toInt = (size.signExtend y).toInt ↔ size.truncate x = size.truncate y := by
  have hx := truncate_lt size x
  have hy := truncate_lt size y
  rw [toInt_signExtend, toInt_signExtend, ← BitVec.toNat_inj]
  unfold signed
  split <;> split <;> omega

/-- N, Z, V and C as the difference `dst - src` leaves them, read as an order. -/
structure Orders (size : Size) (src dst : BitVec 32) (status : StatusWord) : Prop where
  carry : status.has .carry = true ↔ (size.truncate dst).toNat < (size.truncate src).toNat
  zero : status.has .zero = true ↔ size.truncate dst = size.truncate src
  negative : status.has .negative = true ↔ (size.signExtend (dst - src)).toInt < 0
  overflow : status.has .overflow = true ↔
    ¬ Representable size.modulus ((size.signExtend dst).toInt - (size.signExtend src).toInt)
  less : status.has .negative ≠ status.has .overflow ↔
    (size.signExtend dst).toInt < (size.signExtend src).toInt

/-- All sixteen conditions are told by these five facts. -/
theorem Orders.holds_iff {size : Size} {src dst : BitVec 32} {status : StatusWord}
    (h : Orders size src dst status) (condition : Condition) :
    condition.holds status = true ↔ Tells size src dst condition := by
  have unsigned := BitVec.toNat_inj (x := size.truncate dst) (y := size.truncate src)
  have signed := toInt_signExtend_inj size dst src
  cases condition with
  | always => simp [Condition.holds, Tells]
  | never => simp [Condition.holds, Tells]
  | higher =>
    simp only [Condition.holds, Tells, Bool.and_eq_true, Bool.not_eq_true', ← Bool.not_eq_true, h.carry,
      h.zero, ← unsigned]
    omega
  | lowerOrSame =>
    simp only [Condition.holds, Tells, Bool.or_eq_true, h.carry, h.zero, ← unsigned]
    omega
  | carryClear => simp [Condition.holds, Tells, ← Bool.not_eq_true, h.carry]
  | carrySet => exact h.carry
  | notEqual => simp [Condition.holds, Tells, ← Bool.not_eq_true, h.zero]
  | equal => exact h.zero
  | overflowClear => simp [Condition.holds, Tells, ← Bool.not_eq_true, h.overflow]
  | overflowSet => exact h.overflow
  | plus => simp [Condition.holds, Tells, ← Bool.not_eq_true, h.negative]
  | minus => exact h.negative
  | greaterOrEqual =>
    simp only [Condition.holds, Tells, beq_iff_eq]
    rw [← not_lt, ← h.less, not_not]
  | less => exact bne_iff_ne.trans h.less
  | greater =>
    simp only [Condition.holds, Tells, Bool.and_eq_true, Bool.not_eq_true', ← Bool.not_eq_true, beq_iff_eq,
      h.zero, ← signed]
    rw [← not_ne_iff (a := status.has .negative), h.less]
    omega
  | lessOrEqual =>
    simp only [Condition.holds, Tells, Bool.or_eq_true, bne_iff_ne, h.zero, h.less, ← signed]
    omega

theorem result_difference (size : Size) (src dst : BitVec 32) :
    (difference size src dst false).result = size.truncate (dst - src) := by
  have total := toNat_difference size src dst false
  have r : (difference size src dst false).result.toNat < size.modulus := truncate_lt size _
  rw [Bool.toNat_false, size.toNat_truncate, size.toNat_truncate] at total
  apply BitVec.eq_of_toNat_eq
  rw [size.toNat_truncate, BitVec.toNat_sub]
  have s := src.isLt
  have d := dst.isLt
  cases size <;> simp only [Size.modulus] at total r ⊢ <;> omega

/-- The flags of a difference say how its operands are ordered. -/
theorem orders_compareFlags (size : Size) (src dst : BitVec 32) (status : StatusWord) :
    Orders size src dst ((difference size src dst false).compareFlags size status) := by
  have exact := exact_difference size src dst false
  have total := toNat_difference size src dst false
  have s := truncate_lt size src
  have d := truncate_lt size dst
  have same : size.truncate (difference size src dst false).result =
      (difference size src dst false).result := truncate_of_lt exact.fits
  have overflow : (difference size src dst false).overflow = true ↔
      ¬ Representable size.modulus ((size.signExtend dst).toInt - (size.signExtend src).toInt) := by
    rw [exact.overflow, toInt_signExtend, toInt_signExtend, Bool.toNat_false]
    ring_nf
  have negative : size.isNegative (difference size src dst false).result = true ↔
      size.modulus ≤ 2 * (difference size src dst false).result.toNat := by
    rw [isNegative_of_lt exact.fits, decide_eq_true_iff]
  constructor
  · rw [has_carry_compareFlags, difference, decide_eq_true_iff, Bool.toNat_false, Nat.add_zero]
  · rw [has_zero_compareFlags, same, beq_iff_eq, ← BitVec.toNat_inj, ← BitVec.toNat_inj,
      BitVec.ofNat_eq_ofNat, BitVec.toNat_zero]
    have fits := exact.fits
    cases borrow : (difference size src dst false).carry <;> simp [borrow] at total <;> omega
  · rw [has_negative_compareFlags, same, negative, result_difference, toInt_signExtend]
    have r := truncate_lt size (dst - src)
    unfold signed
    split <;> omega
  · rw [has_overflow_compareFlags, overflow]
  · have less := less_of_difference (modulus_even size) s d exact.fits total
    rw [has_negative_compareFlags, has_overflow_compareFlags, same, ne_eq, Bool.eq_iff_iff, negative,
      overflow, toInt_signExtend, toInt_signExtend, ← less, not_iff, not_iff_not]

theorem toNat_subtract (size : Size) (src dst : BitVec 32) (status : StatusWord) :
    ((subtract size src dst status).1.toNat : Int) =
      ((size.truncate dst).toNat - (size.truncate src).toNat : Int) % size.modulus := by
  have exact := exact_difference size src dst false
  rw [subtract, value_eq_emod exact.fits exact.value, Bool.toNat_false]
  ring_nf

theorem toNat_add (size : Size) (src dst : BitVec 32) (status : StatusWord) :
    (add size src dst status).1.toNat =
      ((size.truncate dst).toNat + (size.truncate src).toNat) % size.modulus := by
  have exact := exact_sum size src dst false
  have value := value_eq_emod exact.fits exact.value
  rw [Bool.toNat_false, Nat.cast_zero, add_zero, one_mul] at value
  exact_mod_cast value

theorem has_carry_add (size : Size) (src dst : BitVec 32) (status : StatusWord) :
    (add size src dst status).2.has .carry = true ↔
      size.modulus ≤ (size.truncate dst).toNat + (size.truncate src).toNat := by
  rw [add, has_carry_wholeFlags, sum, decide_eq_true_iff, Bool.toNat_false, Nat.add_zero, Nat.add_comm]

theorem has_overflow_add (size : Size) (src dst : BitVec 32) (status : StatusWord) :
    (add size src dst status).2.has .overflow = true ↔
      ¬ Representable size.modulus ((size.signExtend dst).toInt + (size.signExtend src).toInt) := by
  rw [add, has_overflow_wholeFlags, (exact_sum size src dst false).overflow, Bool.toNat_false,
    Nat.cast_zero, add_zero, one_mul, toInt_signExtend, toInt_signExtend]

/-- After a comparison the conditions order the operands, and X is as before. A subtraction gives the difference and
leaves the same flags with X equal to C. An addition gives the sum, and sets C and V where this does not fit the
size, as an unsigned number and as a signed one. All three keep every bit of the status word but the condition
codes. -/
theorem comparison_tells (size : Size) (src dst : BitVec 32) (status : StatusWord) :
    let s := size.truncate src
    let d := size.truncate dst
    let compared := compare size src dst status
    let subtracted := subtract size src dst status
    let added := add size src dst status
    (∀ condition : Condition, condition.holds compared.2 = true ↔ Tells size src dst condition) ∧
      compared.2.has .extend = status.has .extend ∧
      compared.2.clear .conditionCodes = status.clear .conditionCodes ∧
      (subtracted.1.toNat : Int) = (d.toNat - s.toNat : Int) % size.modulus ∧
      subtracted.2.clear .extend = compared.2.clear .extend ∧
      subtracted.2.has .extend = subtracted.2.has .carry ∧
      subtracted.2.clear .conditionCodes = status.clear .conditionCodes ∧
      added.1.toNat = (d.toNat + s.toNat) % size.modulus ∧
      (added.2.has .carry = true ↔ size.modulus ≤ d.toNat + s.toNat) ∧
      (added.2.has .overflow = true ↔
        ¬ Representable size.modulus ((size.signExtend dst).toInt + (size.signExtend src).toInt)) ∧
      added.2.clear .conditionCodes = status.clear .conditionCodes := by
  refine ⟨(orders_compareFlags size src dst status).holds_iff, ?_, ?_, ?_, ?_, ?_, ?_, ?_, ?_, ?_, ?_⟩
  · exact has_extend_compareFlags size _ status
  · exact clear_compareFlags size _ status
  · exact toNat_subtract size src dst status
  · exact clear_extend_wholeFlags size _ status
  · exact (has_extend_wholeFlags size _ status).trans (has_carry_wholeFlags size _ status).symm
  · exact clear_wholeFlags size _ status
  · exact toNat_add size src dst status
  · exact has_carry_add size src dst status
  · exact has_overflow_add size src dst status
  · exact clear_wholeFlags size _ status

end MC68000.Arithmetic
