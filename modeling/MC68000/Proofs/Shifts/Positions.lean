import MC68000.Arithmetic.Shift
import MC68000.Proofs.Comparison

set_option autoImplicit false

namespace MC68000

/-- The bits of a value that belong to a size. -/
def Size.image (size : Size) (value : BitVec 32) : BitVec size.bits := value.setWidth size.bits

/-- The bits of a value with X above them. -/
def Size.extended (size : Size) (x : Bool) (value : BitVec 32) : BitVec (size.bits + 1) :=
  BitVec.cons x (size.image value)

namespace Arithmetic

theorem succ_mod {w : Nat} (positive : 0 < w) (n : Nat) :
    (n + 1) % w = if n % w + 1 = w then 0 else n % w + 1 := by
  have inside := Nat.mod_lt n positive
  rw [← Nat.mod_add_mod]
  split
  · rename_i full
    rw [full, Nat.mod_self]
  · exact Nat.mod_eq_of_lt (by omega)

theorem getLsbD_rotateLeft_of_lt {w i : Nat} (x : BitVec w) (n : Nat) (inside : i < w) :
    (x.rotateLeft n).getLsbD i = x.getLsbD (if i < n % w then w - n % w + i else i - n % w) := by
  rw [BitVec.getLsbD_rotateLeft]
  by_cases early : i < n % w <;> simp [early, inside]

theorem getLsbD_rotateRight_of_lt {w i : Nat} (x : BitVec w) (n : Nat) (inside : i < w) :
    (x.rotateRight n).getLsbD i =
      x.getLsbD (if i < w - n % w then n % w + i else i - (w - n % w)) := by
  rw [BitVec.getLsbD_rotateRight]
  by_cases early : i < w - n % w <;> simp [early, inside]

theorem getLsbD_rotateLeft_one {w i : Nat} (x : BitVec w) (inside : i < w) :
    (x.rotateLeft 1).getLsbD i = x.getLsbD (if i = 0 then w - 1 else i - 1) := by
  rw [getLsbD_rotateLeft_of_lt x 1 inside]
  congr 1
  by_cases single : w = 1
  · subst single
    split <;> split <;> omega
  · rw [Nat.mod_eq_of_lt (by omega : 1 < w)]
    split <;> split <;> omega

theorem getLsbD_rotateRight_one {w i : Nat} (x : BitVec w) (inside : i < w) :
    (x.rotateRight 1).getLsbD i = x.getLsbD (if i = w - 1 then 0 else i + 1) := by
  rw [getLsbD_rotateRight_of_lt x 1 inside]
  congr 1
  by_cases single : w = 1
  · subst single
    split <;> split <;> omega
  · rw [Nat.mod_eq_of_lt (by omega : 1 < w)]
    split <;> split <;> omega

theorem rotateLeft_succ {w : Nat} (x : BitVec w) (n : Nat) :
    x.rotateLeft (n + 1) = (x.rotateLeft n).rotateLeft 1 := by
  apply BitVec.eq_of_getLsbD_eq
  intro i inside
  have next := succ_mod (by omega : 0 < w) n
  have small := Nat.mod_lt n (by omega : 0 < w)
  rw [getLsbD_rotateLeft_one _ inside, getLsbD_rotateLeft_of_lt x _ inside,
    getLsbD_rotateLeft_of_lt x _ (by split <;> omega), next]
  congr 1
  grind

theorem rotateRight_succ {w : Nat} (x : BitVec w) (n : Nat) :
    x.rotateRight (n + 1) = (x.rotateRight n).rotateRight 1 := by
  apply BitVec.eq_of_getLsbD_eq
  intro i inside
  have next := succ_mod (by omega : 0 < w) n
  have small := Nat.mod_lt n (by omega : 0 < w)
  rw [getLsbD_rotateRight_one _ inside, getLsbD_rotateRight_of_lt x _ inside,
    getLsbD_rotateRight_of_lt x _ (by split <;> omega), next]
  congr 1
  grind

def Shifting.entering (kind : ShiftKind) (direction : Direction) (size : Size) (s : Shifting) : Bool :=
  match kind, direction with
  | .arithmetic, .left => false
  | .arithmetic, .right => size.isNegative s.value
  | .logical, _ => false
  | .rotateExtended, _ => s.extend
  | .rotate, .left => size.isNegative s.value
  | .rotate, .right => s.value.getLsbD 0

def Shifting.leaving (direction : Direction) (size : Size) (s : Shifting) : Bool :=
  match direction with
  | .left => size.isNegative s.value
  | .right => s.value.getLsbD 0

/-- Nothing lies above the bits of the size. -/
def Shifting.Fits (size : Size) (s : Shifting) : Prop := ∀ i, size.bits ≤ i → s.value.getLsbD i = false

theorem bits_pos (size : Size) : 0 < size.bits := by
  cases size <;> decide

theorem bits_le (size : Size) : size.bits ≤ 32 := by
  cases size <;> decide

theorem getLsbD_truncate (size : Size) (value : BitVec 32) (i : Nat) :
    (size.truncate value).getLsbD i = (decide (i < size.bits) && value.getLsbD i) := by
  rw [BitVec.getLsbD, size.toNat_truncate, modulus_eq, Nat.testBit_mod_two_pow]
  rfl

theorem getLsbD_signBit (size : Size) (i : Nat) :
    size.signBit.getLsbD i = decide (i = size.bits - 1) := by
  have place : size.signBit = BitVec.twoPow 32 (size.bits - 1) := by cases size <;> rfl
  have inside := bits_le size
  have positive := bits_pos size
  rw [place, BitVec.getLsbD_twoPow]
  by_cases top : i = size.bits - 1
  · simp [top]
    omega
  · simp [top, Ne.symm top]

theorem getLsbD_image (size : Size) (value : BitVec 32) {i : Nat} (inside : i < size.bits) :
    (size.image value).getLsbD i = value.getLsbD i := by
  simp [Size.image, inside]

theorem msb_image (size : Size) (value : BitVec 32) :
    (size.image value).msb = size.isNegative value := by
  have positive := bits_pos size
  rw [BitVec.msb_eq_getLsbD_last, getLsbD_image size value (by omega), size.isNegative_eq]

section step
variable {kind : ShiftKind} {direction : Direction} {size : Size} {s : Shifting}

theorem carry_step : (s.step kind direction size).carry = s.leaving direction size := by
  cases direction <;> rfl

theorem extend_step :
    (s.step kind direction size).extend = if kind = .rotate then s.extend else s.leaving direction size := by
  cases direction <;> rfl

theorem value_step_left : (s.step kind .left size).value =
    size.truncate (s.value <<< 1) ||| (if s.entering kind .left size then 1 else 0) := by
  cases kind <;> rfl

theorem value_step_right : (s.step kind .right size).value =
    (s.value >>> 1) ||| (if s.entering kind .right size then size.signBit else 0) := by
  cases kind <;> rfl

theorem getLsbD_step_left {i : Nat} (inside : i < size.bits) :
    (s.step kind .left size).value.getLsbD i =
      if i = 0 then s.entering kind .left size else s.value.getLsbD (i - 1) := by
  have small := bits_le size
  rw [value_step_left, BitVec.getLsbD_or, getLsbD_truncate, BitVec.getLsbD_shiftLeft]
  by_cases first : i = 0
  · cases s.entering kind .left size <;> simp [first]
  · cases s.entering kind .left size <;>
      simp [first, inside, show i < 32 by omega, show ¬ i < 1 by omega]

theorem getLsbD_step_right (fits : s.Fits size) {i : Nat} :
    (s.step kind .right size).value.getLsbD i =
      if i = size.bits - 1 then s.entering kind .right size else s.value.getLsbD (i + 1) := by
  have positive := bits_pos size
  rw [value_step_right, BitVec.getLsbD_or, BitVec.getLsbD_ushiftRight, Nat.add_comm]
  by_cases top : i = size.bits - 1
  · have gone : s.value.getLsbD (size.bits - 1 + 1) = false := fits _ (by omega)
    cases s.entering kind .right size <;> simp [gone, getLsbD_signBit, top]
  · cases s.entering kind .right size <;> simp [getLsbD_signBit, top]

theorem truncate_of_fits (fits : s.Fits size) : size.truncate s.value = s.value := by
  apply BitVec.eq_of_getLsbD_eq
  intro i _
  rw [getLsbD_truncate]
  by_cases inside : i < size.bits
  · simp [inside]
  · simp [fits i (by omega)]

theorem fits_step (fits : s.Fits size) : (s.step kind direction size).Fits size := by
  intro i outside
  have positive := bits_pos size
  cases direction with
  | left =>
    rw [value_step_left, BitVec.getLsbD_or, getLsbD_truncate]
    cases s.entering kind .left size <;>
      simp [BitVec.getLsbD_one, show ¬ i < size.bits by omega, show i ≠ 0 by omega]
  | right =>
    rw [getLsbD_step_right fits, if_neg (by omega)]
    exact fits _ (by omega)

end step

/-- A word moved by a count: multiplied, divided or rotated. -/
def moved (kind : ShiftKind) (direction : Direction) {w : Nat} (count : Nat) (x : BitVec w) : BitVec w :=
  match kind, direction with
  | .arithmetic, .left | .logical, .left => x <<< count
  | .logical, .right => x >>> count
  | .arithmetic, .right => x.sshiftRight count
  | .rotate, .left | .rotateExtended, .left => x.rotateLeft count
  | .rotate, .right | .rotateExtended, .right => x.rotateRight count

theorem moved_zero (kind : ShiftKind) (direction : Direction) {w : Nat} (x : BitVec w) :
    moved kind direction 0 x = x := by
  have left : x.rotateLeft 0 = x := by
    apply BitVec.eq_of_getLsbD_eq
    intro i inside
    simp [getLsbD_rotateLeft_of_lt x 0 inside]
  have right : x.rotateRight 0 = x := by
    apply BitVec.eq_of_getLsbD_eq
    intro i inside
    simp [inside]
  cases kind <;> cases direction <;> simp [moved, left, right]

theorem moved_succ (kind : ShiftKind) (direction : Direction) {w : Nat} (count : Nat) (x : BitVec w) :
    moved kind direction (count + 1) x = moved kind direction 1 (moved kind direction count x) := by
  have leftward : x <<< (count + 1) = x <<< count <<< 1 := BitVec.shiftLeft_add x count 1
  cases direction with
  | left =>
    cases kind with
    | arithmetic => exact leftward
    | logical => exact leftward
    | rotateExtended => exact rotateLeft_succ x count
    | rotate => exact rotateLeft_succ x count
  | right =>
    cases kind with
    | arithmetic => exact BitVec.sshiftRight_add
    | logical => exact BitVec.shiftRight_add x count 1
    | rotateExtended => exact rotateRight_succ x count
    | rotate => exact rotateRight_succ x count

section run
variable {kind : ShiftKind} {direction : Direction} {size : Size} {s : Shifting}

/-- Except through X, a shift by one moves the bits of the size. -/
theorem image_step (own : kind ≠ .rotateExtended) (fits : s.Fits size) :
    size.image (s.step kind direction size).value = moved kind direction 1 (size.image s.value) := by
  have positive := bits_pos size
  apply BitVec.eq_of_getLsbD_eq
  intro i inside
  rw [getLsbD_image size _ inside]
  cases direction with
  | left =>
    rw [getLsbD_step_left inside]
    have shifted : (size.image s.value <<< 1).getLsbD i =
        if i = 0 then false else s.value.getLsbD (i - 1) := by
      rw [BitVec.getLsbD_shiftLeft]
      by_cases first : i = 0
      · simp [first]
      · rw [getLsbD_image size _ (by omega : i - 1 < size.bits)]
        simp [first, inside, show ¬ i < 1 by omega]
    cases kind with
    | arithmetic => exact shifted.symm
    | logical => exact shifted.symm
    | rotateExtended => contradiction
    | rotate =>
      rw [moved, getLsbD_rotateLeft_one _ inside, getLsbD_image size _ (by split <;> omega)]
      simp only [Shifting.entering, size.isNegative_eq]
      split <;> rfl
  | right =>
    rw [getLsbD_step_right fits]
    cases kind with
    | arithmetic =>
      rw [moved, BitVec.getLsbD_sshiftRight, msb_image]
      by_cases top : i = size.bits - 1
      · simp [top, Shifting.entering, positive, show 1 + (size.bits - 1) = size.bits by omega]
      · have next : 1 + i < size.bits := by omega
        rw [getLsbD_image size _ next, Nat.add_comm 1 i]
        simp [top, show ¬ size.bits ≤ i by omega, show i + 1 < size.bits by omega]
    | logical =>
      rw [moved, BitVec.getLsbD_ushiftRight]
      by_cases top : i = size.bits - 1
      · simp [top, Shifting.entering, show 1 + (size.bits - 1) = size.bits by omega]
      · rw [getLsbD_image size _ (by omega : 1 + i < size.bits), Nat.add_comm 1 i, if_neg top]
    | rotateExtended => contradiction
    | rotate =>
      rw [moved, getLsbD_rotateRight_one _ inside, getLsbD_image size _ (by split <;> omega)]
      simp only [Shifting.entering]
      split <;> rfl

theorem getLsbD_extended (size : Size) (x : Bool) (value : BitVec 32) {i : Nat}
    (inside : i < size.bits + 1) :
    (size.extended x value).getLsbD i = if i = size.bits then x else value.getLsbD i := by
  rw [Size.extended, BitVec.getLsbD_cons]
  by_cases top : i = size.bits
  · simp [top]
  · simp [top, getLsbD_image size value (by omega : i < size.bits)]

/-- A rotation through X by one rotates X and the bits of the size. -/
theorem extended_step (fits : s.Fits size) :
    size.extended (s.step .rotateExtended direction size).extend
        (s.step .rotateExtended direction size).value =
      moved .rotateExtended direction 1 (size.extended s.extend s.value) := by
  have positive := bits_pos size
  apply BitVec.eq_of_getLsbD_eq
  intro i inside
  have extend : (s.step .rotateExtended direction size).extend = s.leaving direction size :=
    extend_step.trans (if_neg (by decide))
  rw [getLsbD_extended size _ _ inside, extend]
  cases direction with
  | left =>
    rw [moved, getLsbD_rotateLeft_one _ inside, getLsbD_extended size _ _ (by split <;> omega)]
    by_cases top : i = size.bits
    · simp [top, Shifting.leaving, size.isNegative_eq, show size.bits ≠ 0 by omega,
        show size.bits - 1 ≠ size.bits by omega]
    · rw [if_neg (c := i = size.bits) top, getLsbD_step_left (by omega)]
      by_cases first : i = 0
      · simp [first, Shifting.entering]
      · simp [first, show i - 1 ≠ size.bits by omega]
  | right =>
    rw [moved, getLsbD_rotateRight_one _ inside, getLsbD_extended size _ _ (by split <;> omega)]
    by_cases top : i = size.bits
    · simp [top, Shifting.leaving, show (0 : Nat) ≠ size.bits by omega]
    · rw [if_neg (c := i = size.bits) top, getLsbD_step_right fits]
      by_cases last : i = size.bits - 1
      · simp [last, Shifting.entering, show size.bits - 1 ≠ size.bits by omega,
          show size.bits - 1 + 1 = size.bits by omega]
      · simp [last, top, show i + 1 ≠ size.bits by omega]

end run

/-- A shift in progress after a number of positions. -/
def Shifting.after (kind : ShiftKind) (direction : Direction) (size : Size) (s : Shifting)
    (count : Nat) : Shifting := Nat.repeat (Shifting.step kind direction size) count s

section after
variable {kind : ShiftKind} (direction : Direction) {size : Size} {s : Shifting}

theorem after_succ (kind : ShiftKind) (size : Size) (s : Shifting) (count : Nat) :
    s.after kind direction size (count + 1) = (s.after kind direction size count).step kind direction size :=
  rfl

theorem fits_after (kind : ShiftKind) (fits : s.Fits size) (count : Nat) :
    (s.after kind direction size count).Fits size := by
  induction count with
  | zero => exact fits
  | succ count ih => exact fits_step ih

theorem image_after (own : kind ≠ .rotateExtended) (fits : s.Fits size) (count : Nat) :
    size.image (s.after kind direction size count).value =
      moved kind direction count (size.image s.value) := by
  induction count with
  | zero => exact (moved_zero kind direction _).symm
  | succ count ih =>
    rw [after_succ, image_step own (fits_after direction kind fits count), ih, ← moved_succ]

theorem extended_after (fits : s.Fits size) (count : Nat) :
    size.extended (s.after .rotateExtended direction size count).extend
        (s.after .rotateExtended direction size count).value =
      moved .rotateExtended direction count (size.extended s.extend s.value) := by
  induction count with
  | zero => exact (moved_zero .rotateExtended direction _).symm
  | succ count ih =>
    rw [after_succ, extended_step (fits_after direction .rotateExtended fits count), ih, ← moved_succ]

end after

end Arithmetic

end MC68000
