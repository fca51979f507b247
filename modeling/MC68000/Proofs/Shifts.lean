import MC68000.Proofs.Shifts.Positions

set_option autoImplicit false

namespace MC68000.Arithmetic

/-- The quantity that a rotation through X leaves: the result, and X above it. -/
def rotatedThroughX (direction : Direction) (size : Size) (value : BitVec 32) (x : Bool)
    (count : Nat) : BitVec (size.bits + 1) :=
  match direction with
  | .left => (size.extended x value).rotateLeft (count % (size.bits + 1))
  | .right => (size.extended x value).rotateRight (count % (size.bits + 1))

/-- The result of a shift by any count. Quotients are rounded down. -/
def shifted (kind : ShiftKind) (direction : Direction) (size : Size) (value : BitVec 32) (x : Bool)
    (count : Nat) : Nat :=
  match kind, direction with
  | .arithmetic, .left | .logical, .left => (size.truncate value).toNat * 2 ^ count % size.modulus
  | .logical, .right => (size.truncate value).toNat / 2 ^ count
  | .arithmetic, .right => ((size.signExtend value).toInt / 2 ^ count % size.modulus).toNat
  | .rotate, .left => ((size.image value).rotateLeft (count % size.bits)).toNat
  | .rotate, .right => ((size.image value).rotateRight (count % size.bits)).toNat
  | .rotateExtended, direction => (rotatedThroughX direction size value x count).toNat % size.modulus

/-- The bit that leaves last, for any count but zero: bit `bits - count` of the operand on the left and bit
`count - 1` on the right, as long as there are such bits. After them zeros leave, or copies of the sign, and
a rotation begins anew. -/
def lastOut (kind : ShiftKind) (direction : Direction) (size : Size) (value : BitVec 32) (x : Bool)
    (count : Nat) : Bool :=
  match kind, direction with
  | .arithmetic, .left | .logical, .left =>
      count ≤ size.bits && (size.image value).getLsbD (size.bits - count)
  | .logical, .right => (size.image value).getLsbD (count - 1)
  | .arithmetic, .right => (size.image value).getLsbD (min (count - 1) (size.bits - 1))
  | .rotate, .left => (size.image value).getLsbD (size.bits - 1 - (count - 1) % size.bits)
  | .rotate, .right => (size.image value).getLsbD ((count - 1) % size.bits)
  | .rotateExtended, direction => (rotatedThroughX direction size value x count).msb

/-- Before any position: no bit has left, and the sign has not changed. -/
def Shifting.start (size : Size) (value : BitVec 32) (x : Bool) : Shifting :=
  ⟨size.truncate value, x, false, false⟩

section leaving
variable (kind : ShiftKind) (direction : Direction) (size : Size) (value : BitVec 32) (x : Bool)

theorem fits_start : (Shifting.start size value x).Fits size := by
  intro i outside
  rw [Shifting.start, getLsbD_truncate, decide_eq_false (by omega), Bool.false_and]

theorem image_start : size.image (Shifting.start size value x).value = size.image value := by
  apply BitVec.eq_of_getLsbD_eq
  intro i inside
  rw [getLsbD_image size _ inside, getLsbD_image size _ inside, Shifting.start, getLsbD_truncate,
    decide_eq_true inside, Bool.true_and]

theorem extended_start : size.extended (Shifting.start size value x).extend
    (Shifting.start size value x).value = size.extended x value := by
  rw [Size.extended, image_start]
  rfl

theorem rotatedThroughX_eq (count : Nat) : rotatedThroughX direction size value x count =
    moved .rotateExtended direction count (size.extended x value) := by
  cases direction with
  | left => exact BitVec.rotateLeft_mod_eq_rotateLeft
  | right => exact BitVec.rotateRight_mod_eq_rotateRight

theorem extended_rotation (count : Nat) :
    let s := (Shifting.start size value x).after .rotateExtended direction size count
    size.extended s.extend s.value = rotatedThroughX direction size value x count := by
  intro s
  rw [rotatedThroughX_eq, ← extended_start size value x]
  exact extended_after direction (fits_start size value x) count

theorem highest_moved (own : kind ≠ .rotateExtended) (count : Nat) :
    (moved kind .left count (size.image value)).getLsbD (size.bits - 1) =
      lastOut kind .left size value x (count + 1) := by
  have positive := bits_pos size
  have shifted : (size.image value <<< count).getLsbD (size.bits - 1) =
      (decide (count + 1 ≤ size.bits) && (size.image value).getLsbD (size.bits - (count + 1))) := by
    rw [BitVec.getLsbD_shiftLeft, show size.bits - 1 - count = size.bits - (count + 1) by omega]
    by_cases inside : count + 1 ≤ size.bits
    · simp [inside, positive, show ¬ size.bits - 1 < count by omega]
    · simp [inside, show size.bits - 1 < count by omega]
  cases kind with
  | arithmetic => exact shifted
  | logical => exact shifted
  | rotateExtended => contradiction
  | rotate =>
    have small := Nat.mod_lt count positive
    rw [moved, getLsbD_rotateLeft_of_lt _ _ (by omega), if_neg (by omega), lastOut, Nat.add_sub_cancel]

theorem lowest_moved (own : kind ≠ .rotateExtended) (count : Nat) :
    (moved kind .right count (size.image value)).getLsbD 0 =
      lastOut kind .right size value x (count + 1) := by
  have positive := bits_pos size
  cases kind with
  | arithmetic =>
    rw [moved, BitVec.getLsbD_sshiftRight, lastOut, Nat.add_sub_cancel, Nat.add_zero]
    by_cases inside : count < size.bits
    · simp [inside, show size.bits ≠ 0 by omega, show min count (size.bits - 1) = count by omega]
    · simp [inside, show size.bits ≠ 0 by omega,
        show min count (size.bits - 1) = size.bits - 1 by omega, BitVec.msb_eq_getLsbD_last]
  | logical => rw [moved, BitVec.getLsbD_ushiftRight, lastOut, Nat.add_sub_cancel, Nat.add_zero]
  | rotateExtended => contradiction
  | rotate =>
    have small := Nat.mod_lt count positive
    rw [moved, getLsbD_rotateRight_of_lt _ _ positive, if_pos (by omega), lastOut,
      Nat.add_sub_cancel, Nat.add_zero]

theorem leaving_after (own : kind ≠ .rotateExtended) (count : Nat) :
    ((Shifting.start size value x).after kind direction size count).leaving direction size =
      lastOut kind direction size value x (count + 1) := by
  have positive := bits_pos size
  have word := image_after direction own (fits_start size value x) count
  rw [image_start] at word
  cases direction with
  | left =>
    rw [← highest_moved kind size value x own, ← word, ← BitVec.msb_eq_getLsbD_last, msb_image]
    rfl
  | right =>
    rw [← lowest_moved kind size value x own, ← word, getLsbD_image size _ positive]
    rfl

/-- The last bit to leave is the carry. -/
theorem carry_after (count : Nat) :
    ((Shifting.start size value x).after kind direction size (count + 1)).carry =
      lastOut kind direction size value x (count + 1) := by
  by_cases own : kind = .rotateExtended
  · subst own
    have quantity := extended_rotation direction size value x (count + 1)
    rw [lastOut, ← quantity, Size.extended, BitVec.msb_cons, after_succ, carry_step, extend_step,
      if_neg (by decide)]
  · rw [after_succ, carry_step, leaving_after kind direction size value x own]

theorem extend_after (count : Nat) :
    ((Shifting.start size value x).after kind direction size count).extend =
      if count = 0 ∨ kind = .rotate then x else lastOut kind direction size value x count := by
  induction count with
  | zero => rfl
  | succ count ih =>
    rw [after_succ, extend_step, ← carry_step, ← after_succ, carry_after]
    by_cases rotate : kind = .rotate
    · simpa [rotate] using ih
    · simp [rotate]

end leaving

theorem toNat_image (size : Size) (value : BitVec 32) :
    (size.image value).toNat = (size.truncate value).toNat := by
  rw [Size.image, BitVec.toNat_setWidth, size.toNat_truncate, modulus_eq]

theorem toInt_image (size : Size) (value : BitVec 32) :
    (size.image value).toInt = (size.signExtend value).toInt := by
  cases size with
  | byte => exact (BitVec.toInt_signExtend_of_le (by decide)).symm
  | word => exact (BitVec.toInt_signExtend_of_le (by decide)).symm
  | long => exact congrArg BitVec.toInt (BitVec.setWidth_eq value)

theorem toNat_sshiftRight {w : Nat} (x : BitVec w) (count : Nat) :
    (x.sshiftRight count).toNat = (x.toInt / 2 ^ count % (2 ^ w : Nat)).toNat := by
  have small := (x.sshiftRight count).isLt
  have floor : x.toInt / 2 ^ count = (x.sshiftRight count).toInt := by
    rw [BitVec.toInt_sshiftRight, Int.shiftRight_eq_div_pow]
    norm_cast
  rw [floor, BitVec.toInt_eq_toNat_bmod, Int.bmod_emod, ← Int.natCast_emod, Nat.mod_eq_of_lt small,
    Int.toNat_natCast]

section value
variable (kind : ShiftKind) (direction : Direction) (size : Size) (value : BitVec 32) (x : Bool)

theorem toNat_moved (own : kind ≠ .rotateExtended) (count : Nat) :
    (moved kind direction count (size.image value)).toNat = shifted kind direction size value x count := by
  have product : (size.image value <<< count).toNat =
      (size.truncate value).toNat * 2 ^ count % size.modulus := by
    rw [BitVec.toNat_shiftLeft, Nat.shiftLeft_eq, toNat_image, modulus_eq]
  cases direction with
  | left =>
    cases kind with
    | arithmetic => exact product
    | logical => exact product
    | rotateExtended => contradiction
    | rotate => rw [moved, shifted, BitVec.rotateLeft_mod_eq_rotateLeft]
  | right =>
    cases kind with
    | arithmetic => rw [moved, shifted, toNat_sshiftRight, toInt_image, modulus_eq]
    | logical => rw [moved, shifted, BitVec.toNat_ushiftRight, Nat.shiftRight_eq_div_pow, toNat_image]
    | rotateExtended => contradiction
    | rotate => rw [moved, shifted, BitVec.rotateRight_mod_eq_rotateRight]

/-- What the loop holds after a number of positions is the closed form. -/
theorem toNat_after (count : Nat) :
    ((Shifting.start size value x).after kind direction size count).value.toNat =
      shifted kind direction size value x count := by
  have fits := fits_after direction kind (fits_start size value x) count
  -- through X the loop rotates a quantity of one bit more, and the result is its low part
  by_cases own : kind = .rotateExtended
  · subst own
    have quantity := extended_rotation direction size value x count
    have bound := truncate_lt size
      ((Shifting.start size value x).after .rotateExtended direction size count).value
    rw [truncate_of_fits fits] at bound
    rw [shifted, ← quantity, Size.extended, BitVec.toNat_cons', toNat_image, truncate_of_fits fits,
      Nat.shiftLeft_eq, ← modulus_eq, Nat.mul_comm, Nat.mul_add_mod, Nat.mod_eq_of_lt bound]
  · rw [← truncate_of_fits fits, ← toNat_image, image_after direction own (fits_start size value x),
      image_start, toNat_moved kind direction size value x own]

end value

theorem overflow_step (kind : ShiftKind) (direction : Direction) (size : Size) (s : Shifting) :
    (s.step kind direction size).overflow = (s.overflow || (decide (kind = .arithmetic) &&
      decide (direction = .left) &&
        size.isNegative (s.step kind direction size).value != size.isNegative s.value)) := rfl

/-- Doubling leaves the signed numbers of a size where they have been left before or the sign changes. -/
theorem representable_double (size : Size) (z : Int) :
    ¬ Representable size.modulus (2 * z) ↔ ¬ Representable size.modulus z ∨
      ¬ (size.modulus ≤ 2 * (2 * z % size.modulus) ↔ size.modulus ≤ 2 * (z % size.modulus)) := by
  unfold Representable
  cases size <;> simp only [Size.modulus] <;> omega

section overflow
variable (kind : ShiftKind) (direction : Direction) (size : Size) (value : BitVec 32) (x : Bool)

theorem overflow_after_of_ne (other : ¬ (kind = .arithmetic ∧ direction = .left)) (count : Nat) :
    ((Shifting.start size value x).after kind direction size count).overflow = false := by
  induction count with
  | zero => rfl
  | succ count ih =>
    rw [after_succ, overflow_step, ih]
    rw [not_and] at other
    by_cases arithmetic : kind = .arithmetic
    · simp [other arithmetic]
    · simp [arithmetic]

/-- The result of an arithmetic left shift is the signed product, reduced. -/
theorem toNat_after_left (count : Nat) :
    (((Shifting.start size value x).after .arithmetic .left size count).value.toNat : Int) =
      (size.signExtend value).toInt * 2 ^ count % size.modulus := by
  have product : ((size.truncate value).toNat * 2 ^ count : Int) % size.modulus =
      (size.signExtend value).toInt * 2 ^ count % size.modulus := by
    rw [Int.mul_emod, toInt_signExtend, Int.mul_emod (signed _ _)]
    congr 2
    unfold signed
    split
    · rw [Int.sub_emod_right]
    · rfl
  rw [toNat_after, shifted, ← product]
  norm_cast

theorem isNegative_after_left (count : Nat) :
    size.isNegative ((Shifting.start size value x).after .arithmetic .left size count).value = true ↔
      (size.modulus : Int) ≤ 2 * ((size.signExtend value).toInt * 2 ^ count % size.modulus) := by
  have fits := fits_after .left .arithmetic (fits_start size value x) count
  have bound := truncate_lt size
    ((Shifting.start size value x).after .arithmetic .left size count).value
  rw [truncate_of_fits fits] at bound
  rw [isNegative_of_lt bound, decide_eq_true_iff, ← toNat_after_left size value x]
  omega

theorem overflow_after_left (count : Nat) :
    ((Shifting.start size value x).after .arithmetic .left size count).overflow = true ↔
      ¬ Representable size.modulus ((size.signExtend value).toInt * 2 ^ count) := by
  induction count with
  | zero =>
    have inside : Representable size.modulus ((size.signExtend value).toInt * 2 ^ 0) := by
      have bound := truncate_lt size value
      rw [pow_zero, mul_one, toInt_signExtend, Representable, signed]
      split <;> omega
    exact iff_of_false Bool.false_ne_true (not_not_intro inside)
  | succ count ih =>
    have double : (size.signExtend value).toInt * 2 ^ (count + 1) =
        2 * ((size.signExtend value).toInt * 2 ^ count) := by
      ring
    have before := isNegative_after_left size value x count
    have after := isNegative_after_left size value x (count + 1)
    rw [double] at after ⊢
    rw [representable_double, ← ih, ← before, ← after, after_succ, overflow_step, Bool.or_eq_true,
      ← after_succ, ← Bool.eq_iff_iff]
    simp

end overflow

section outcome
variable (kind : ShiftKind) (direction : Direction) (size : Size) (value : BitVec 32) (count : Nat)
  (status : StatusWord)

theorem value_shift : (shift kind direction size value count status).1 =
    ((Shifting.start size value (status.has .extend)).after kind direction size count).value := by
  unfold shift
  split <;> rfl

theorem flags_shift :
    let final := (Shifting.start size value (status.has .extend)).after kind direction size count
    let flags := ((status.withSign size final.value).setIf .overflow final.overflow).setIf .carry
      (if count = 0 then kind = .rotateExtended && final.extend else final.carry)
    (shift kind direction size value count status).2 =
      if count = 0 ∨ kind = .rotate then flags else flags.setIf .extend final.extend := by
  intro final flags
  unfold shift
  split
  case isTrue zero =>
    rw [if_pos (.inl zero)]
    simp only [flags, if_pos zero]
    rfl
  case isFalse positive =>
    by_cases rotate : kind = .rotate
    · rw [if_pos (.inr rotate)]
      simp only [flags, if_neg positive, if_pos rotate]
      rfl
    · rw [if_neg (not_or.mpr ⟨positive, rotate⟩)]
      simp only [flags, if_neg positive, if_neg rotate]
      rfl

/-- The status word of a shift by bit. -/
theorem getLsbD_shift {i : Nat} (inside : i < 16) :
    let final := (Shifting.start size value (status.has .extend)).after kind direction size count
    (shift kind direction size value count status).2.getLsbD i =
      if i = 0 then (if count = 0 then kind = .rotateExtended && final.extend else final.carry)
      else if i = 1 then final.overflow
      else if i = 2 then size.truncate final.value == 0
      else if i = 3 then size.isNegative (size.truncate final.value)
      else if i = 4 ∧ ¬ (count = 0 ∨ kind = .rotate) then final.extend
      else status.getLsbD i := by
  intro final
  rw [flags_shift]
  by_cases kept : count = 0 ∨ kind = .rotate
  · simp only [kept, if_true, not_true_eq_false, and_false, if_false, StatusWord.withSign,
      StatusWord.getLsbD_setIf _ _ _ inside]
    interval_cases i <;>
      simp [StatusWord.carry, StatusWord.overflow, StatusWord.negative, StatusWord.zero, final]
  · simp only [kept, if_false, not_false_eq_true, and_true, StatusWord.withSign,
      StatusWord.getLsbD_setIf _ _ _ inside]
    interval_cases i <;>
      simp [StatusWord.carry, StatusWord.overflow, StatusWord.negative, StatusWord.zero,
        StatusWord.extend, final]

theorem has_carry_shift : (shift kind direction size value count status).2.has .carry =
    if count = 0 then kind = .rotateExtended && status.has .extend
    else lastOut kind direction size value (status.has .extend) count := by
  rw [has_carry, getLsbD_shift _ _ _ _ _ _ (by decide)]
  cases count with
  | zero => rfl
  | succ count => exact carry_after kind direction size value _ count

theorem has_extend_shift : (shift kind direction size value count status).2.has .extend =
    if count = 0 ∨ kind = .rotate then status.has .extend
    else lastOut kind direction size value (status.has .extend) count := by
  rw [← extend_after, has_extend, getLsbD_shift _ _ _ _ _ _ (by decide)]
  by_cases kept : count = 0 ∨ kind = .rotate
  · simp [kept, extend_after, has_extend]
  · simp [kept]

theorem has_overflow_shift : (shift kind direction size value count status).2.has .overflow = true ↔
    kind = .arithmetic ∧ direction = .left ∧
      ¬ Representable size.modulus ((size.signExtend value).toInt * 2 ^ count) := by
  rw [has_overflow, getLsbD_shift _ _ _ _ _ _ (by decide)]
  by_cases product : kind = .arithmetic ∧ direction = .left
  · obtain ⟨rfl, rfl⟩ := product
    simpa using overflow_after_left size value (status.has .extend) count
  · have never := overflow_after_of_ne kind direction size value (status.has .extend) product count
    simp only [Nat.one_ne_zero, if_false, if_true, never, Bool.false_eq_true, false_iff]
    exact fun h => product ⟨h.1, h.2.1⟩

theorem isNegative_truncate (size : Size) (value : BitVec 32) :
    size.isNegative (size.truncate value) = true ↔ (size.signExtend value).toInt < 0 := by
  have bound := truncate_lt size value
  rw [isNegative_of_lt bound, decide_eq_true_iff, toInt_signExtend]
  unfold signed
  split <;> omega

theorem has_negative_shift : (shift kind direction size value count status).2.has .negative = true ↔
    (size.signExtend (shift kind direction size value count status).1).toInt < 0 := by
  rw [← isNegative_truncate, has_negative, getLsbD_shift _ _ _ _ _ _ (by decide), value_shift]
  simp

theorem has_zero_shift : (shift kind direction size value count status).2.has .zero = true ↔
    (shift kind direction size value count status).1 = 0 := by
  rw [has_zero, getLsbD_shift _ _ _ _ _ _ (by decide), value_shift,
    truncate_of_fits (fits_after direction kind (fits_start size value _) count)]
  simp

theorem clear_shift : (shift kind direction size value count status).2.clear .conditionCodes =
    status.clear .conditionCodes := by
  apply BitVec.eq_of_getLsbD_eq
  intro i inside
  rw [StatusWord.getLsbD_clear _ _ inside, StatusWord.getLsbD_clear _ _ inside,
    getLsbD_shift _ _ _ _ _ _ inside]
  interval_cases i <;> simp [StatusWord.conditionCodes]

/-- Past the width nothing but zeros leaves a logical shift or one to the left, and nothing but the sign an
arithmetic shift to the right. -/
theorem lastOut_of_past (x : Bool) (past : size.bits < count)
    (plain : kind = .logical ∨ kind = .arithmetic) :
    lastOut kind direction size value x count =
      (kind = .arithmetic && direction = .right && decide ((size.signExtend value).toInt < 0)) := by
  rcases plain with rfl | rfl
  · cases direction with
    | left => simp [lastOut, show ¬ count ≤ size.bits by omega]
    | right => simp [lastOut, BitVec.getLsbD_of_ge _ _ (by omega : size.bits ≤ count - 1)]
  · cases direction with
    | left => simp [lastOut, show ¬ count ≤ size.bits by omega]
    | right =>
      rw [lastOut, show min (count - 1) (size.bits - 1) = size.bits - 1 by omega,
        ← BitVec.msb_eq_getLsbD_last, BitVec.msb_eq_toInt, toInt_image]
      simp

end outcome

/-- A shift is its closed form, for every count. The result is the product by the power of two, reduced to
the size, the quotient by it, or the rotation by the count, which takes X along where it goes through X.
C is the last bit that has left, and so is X, which plain rotations keep; a zero count keeps X, and C is
clear, or equal to X after a rotation through it. Past the width, zeros or copies of the sign leave. V says
that the signed product does not fit the size, and N and Z follow the result. -/
theorem shift_closed (kind : ShiftKind) (direction : Direction) (size : Size) (value : BitVec 32)
    (count : Nat) (status : StatusWord) :
    let x := status.has .extend
    let last := lastOut kind direction size value x count
    let outcome := shift kind direction size value count status
    outcome.1.toNat = shifted kind direction size value x count ∧
      outcome.2.has .carry = (if count = 0 then kind = .rotateExtended && x else last) ∧
      outcome.2.has .extend = (if count = 0 ∨ kind = .rotate then x else last) ∧
      (size.bits < count → kind = .logical ∨ kind = .arithmetic →
        last = (kind = .arithmetic && direction = .right && decide ((size.signExtend value).toInt < 0))) ∧
      (outcome.2.has .overflow = true ↔ kind = .arithmetic ∧ direction = .left ∧
        ¬ Representable size.modulus ((size.signExtend value).toInt * 2 ^ count)) ∧
      (outcome.2.has .negative = true ↔ (size.signExtend outcome.1).toInt < 0) ∧
      (outcome.2.has .zero = true ↔ outcome.1 = 0) ∧
      outcome.2.clear .conditionCodes = status.clear .conditionCodes := by
  intro x last outcome
  refine ⟨?_, ?_, ?_, ?_, ?_, ?_, ?_, ?_⟩
  · rw [show outcome.1 = _ from value_shift kind direction size value count status]
    exact toNat_after kind direction size value x count
  · exact has_carry_shift kind direction size value count status
  · exact has_extend_shift kind direction size value count status
  · exact lastOut_of_past kind direction size value count x
  · exact has_overflow_shift kind direction size value count status
  · exact has_negative_shift kind direction size value count status
  · exact has_zero_shift kind direction size value count status
  · exact clear_shift kind direction size value count status

end MC68000.Arithmetic
