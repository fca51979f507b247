import MC68000.Status

set_option autoImplicit false

namespace MC68000.Arithmetic

/-- X, N, V and C from one byte of a longer decimal number; Z is only ever cleared. -/
def decimalFlags (result : BitVec 8) (overflow carry : Bool) (status : StatusWord) : StatusWord :=
  let status := if result != 0 then status.clear .zero else status
  (((status.setIf .negative result.msb).setIf .overflow overflow).setIf .carry carry).setIf .extend carry

/-- The decimal sum `dst + src + X`, also of bytes whose nibbles are no digits. Each digit above nine is
corrected by six and carries one; the sum overflows where the corrections set the sign bit that the binary
sum had clear. -/
def addDecimal (src dst : BitVec 8) (status : StatusWord) : BitVec 8 × StatusWord :=
  let extend := (status.has .extend).toNat
  let low := dst.toNat % 16 + src.toNat % 16 + extend
  let lowFix := if 9 < low then 6 else 0
  let binary := dst.toNat + src.toNat + extend
  let carry := decide (9 < dst.toNat / 16 + src.toNat / 16 + (low + lowFix) / 16)
  let result := BitVec.ofNat 8 (binary + lowFix + if carry then 0x60 else 0)
  let overflow := !(BitVec.ofNat 8 binary).msb && result.msb
  (result, decimalFlags result overflow carry status)

/-- The decimal difference `dst - src - X`. Each digit that borrows is corrected by six; the difference
overflows where the corrections clear the sign bit that the binary difference had set. -/
def subtractDecimal (src dst : BitVec 8) (status : StatusWord) : BitVec 8 × StatusWord :=
  let extend := (status.has .extend).toNat
  let binary := dst - src - BitVec.ofNat 8 extend
  let lowBorrow := decide (dst.toNat % 16 < src.toNat % 16 + extend)
  let highBorrow := decide (dst.toNat / 16 < src.toNat / 16 + lowBorrow.toNat)
  let result := binary - (if lowBorrow then 0x06 else 0) - (if highBorrow then 0x60 else 0)
  let borrow := highBorrow || (lowBorrow && decide (binary.toNat < 6))
  let overflow := binary.msb && !result.msb
  (result, decimalFlags result overflow borrow status)

/-- The decimal negation `0 - value - X`. -/
def negateDecimal (value : BitVec 8) (status : StatusWord) : BitVec 8 × StatusWord :=
  subtractDecimal value 0 status

end MC68000.Arithmetic
