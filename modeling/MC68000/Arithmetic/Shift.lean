import MC68000.Arithmetic.Binary

set_option autoImplicit false

namespace MC68000.Arithmetic

/-- The four families of shifts. `rotateExtended` rotates through X. -/
inductive ShiftKind where
  | arithmetic
  | logical
  | rotateExtended
  | rotate
  deriving DecidableEq

def ShiftKind.ofField (field : BitVec 2) : ShiftKind :=
  match field.toNat with
  | 0 => arithmetic
  | 1 => logical
  | 2 => rotateExtended
  | _ => rotate

inductive Direction where
  | left
  | right
  deriving DecidableEq

/-- A shift in progress: the value, X, the last bit shifted out, and whether the sign has changed. -/
structure Shifting where
  value : BitVec 32
  extend : Bool
  carry : Bool
  overflow : Bool

/-- Shifts by one position. The bit that leaves goes to the carry and, except for plain rotations, to X;
the bit that enters is zero, the sign, X or the bit that left, by family and direction. -/
def Shifting.step (kind : ShiftKind) (direction : Direction) (size : Size) (s : Shifting) : Shifting :=
  let carry := match direction with
    | .left => size.isNegative s.value
    | .right => s.value.getLsbD 0
  let entering := match kind, direction with
    | .arithmetic, .left => false
    | .arithmetic, .right => size.isNegative s.value
    | .logical, _ => false
    | .rotateExtended, _ => s.extend
    | .rotate, _ => carry
  let value := match direction with
    | .left => size.truncate (s.value <<< 1) ||| (if entering then 1 else 0)
    | .right => (s.value >>> 1) ||| (if entering then size.signBit else 0)
  { value
    extend := if kind = .rotate then s.extend else carry
    carry
    overflow := s.overflow ||
      (kind = .arithmetic && direction = .left && size.isNegative value != size.isNegative s.value) }

/-- Shifts or rotates `value` by `count` positions.

N and Z follow the result, and V reports a sign change under an arithmetic left shift. A zero count
leaves X alone and clears C, except that a rotation through X copies X into C; any other count puts the
last bit shifted out into C and, except for plain rotations, into X. -/
def shift (kind : ShiftKind) (direction : Direction) (size : Size) (value : BitVec 32) (count : Nat)
    (status : StatusWord) : Outcome :=
  let start : Shifting := ⟨size.truncate value, status.has .extend, false, false⟩
  let final := Nat.repeat (Shifting.step kind direction size) count start
  let status := (status.withSign size final.value).setIf .overflow final.overflow
  if count = 0 then
    (final.value, status.setIf .carry (kind = .rotateExtended && final.extend))
  else
    let status := status.setIf .carry final.carry
    (final.value, if kind = .rotate then status else status.setIf .extend final.extend)

end MC68000.Arithmetic
