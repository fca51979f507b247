set_option autoImplicit false

namespace MC68000

/-- There are eight registers of a kind, and eight interrupt levels. -/
instance neZero_eight : @NeZero Nat Zero.ofOfNat0 8 := ⟨by decide⟩

/-- The width of an operation: 8, 16 or 32 bits. -/
inductive Size where
  | byte
  | word
  | long
  deriving DecidableEq

namespace Size

/-- The general two-bit size field: 0, 1 and 2 are byte, word and long, and 3 is no size. -/
def ofField? (field : BitVec 2) : Option Size :=
  match field.toNat with
  | 0 => some byte
  | 1 => some word
  | 2 => some long
  | _ => none

/-- The size field of MOVE: 1, 3 and 2 are byte, word and long, and 0 is no size. -/
def ofMoveField? (field : BitVec 2) : Option Size :=
  match field.toNat with
  | 1 => some byte
  | 2 => some long
  | 3 => some word
  | _ => none

def bytes : Size → Nat
  | byte => 1
  | word => 2
  | long => 4

def bits (size : Size) : Nat := 8 * size.bytes

/-- One more than the largest unsigned value. -/
def modulus : Size → Nat
  | byte => 0x100
  | word => 0x10000
  | long => 0x100000000

/-- The weight of the sign bit. -/
def signBit : Size → BitVec 32
  | byte => 0x80
  | word => 0x8000
  | long => 0x80000000

/-- The low part of a word that a value of this size occupies. -/
def truncate (size : Size) (value : BitVec 32) : BitVec 32 :=
  match size with
  | byte => value &&& 0xFF
  | word => value &&& 0xFFFF
  | long => value

/-- The low part of a word read as a signed number of this size. -/
def signExtend (size : Size) (value : BitVec 32) : BitVec 32 :=
  match size with
  | byte => (value.setWidth 8).signExtend 32
  | word => (value.setWidth 16).signExtend 32
  | long => value

def isNegative (size : Size) (value : BitVec 32) : Bool := value &&& size.signBit != 0

/-- Truncation is reduction modulo a power of two. -/
theorem toNat_truncate (size : Size) (value : BitVec 32) :
    (size.truncate value).toNat = value.toNat % size.modulus := by
  cases size with
  | byte => exact Nat.and_two_pow_sub_one_eq_mod value.toNat 8
  | word => exact Nat.and_two_pow_sub_one_eq_mod value.toNat 16
  | long => exact (Nat.mod_eq_of_lt value.isLt).symm

theorem isNegative_eq (size : Size) (value : BitVec 32) :
    size.isNegative value = value.getLsbD (size.bits - 1) := by
  have single (k : Nat) (h : k < 32) :
      (value &&& BitVec.twoPow 32 k != 0) = value.getLsbD k := by
    rw [BitVec.and_twoPow]
    cases value.getLsbD k with
    | false => rfl
    | true =>
      rw [if_pos rfl, bne_iff_ne]
      intro equal
      have bit := congrArg (fun x : BitVec 32 => x.getLsbD k) equal
      simp only [BitVec.getLsbD_twoPow, h, decide_true, Bool.true_and, BitVec.ofNat_eq_ofNat,
        BitVec.getLsbD_zero, Bool.true_eq_false] at bit
  cases size with
  | byte => exact single 7 (by decide)
  | word => exact single 15 (by decide)
  | long => exact single 31 (by decide)

end Size

end MC68000
