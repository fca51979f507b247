set_option autoImplicit false

namespace MC68000.Arithmetic

def multiplyUnsigned (x y : BitVec 16) : BitVec 32 := x.setWidth 32 * y.setWidth 32

def multiplySigned (x y : BitVec 16) : BitVec 32 := x.signExtend 32 * y.signExtend 32

structure Quotient where
  quotient : BitVec 16
  remainder : BitVec 16

/-- The register image of a division: the quotient below, the remainder above. -/
def Quotient.packed (q : Quotient) : BitVec 32 := q.remainder ++ q.quotient

/-- The unsigned quotient, or nothing where it needs more than 16 bits. -/
def divideUnsigned? (dividend : BitVec 32) (divisor : BitVec 16) : Option Quotient :=
  let quotient := dividend.toNat / divisor.toNat
  if quotient < 0x10000 then
    some ⟨BitVec.ofNat 16 quotient, BitVec.ofNat 16 (dividend.toNat % divisor.toNat)⟩
  else
    none

/-- The signed quotient, rounded toward zero, or nothing where it does not fit 16 bits. The remainder
has the sign of the dividend. -/
def divideSigned? (dividend : BitVec 32) (divisor : BitVec 16) : Option Quotient :=
  let quotient := dividend.toInt.tdiv divisor.toInt
  if -0x8000 ≤ quotient ∧ quotient < 0x8000 then
    some ⟨BitVec.ofInt 16 quotient, BitVec.ofInt 16 (dividend.toInt.tmod divisor.toInt)⟩
  else
    none

end MC68000.Arithmetic
