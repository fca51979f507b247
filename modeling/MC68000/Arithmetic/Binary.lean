import MC68000.Status

set_option autoImplicit false

namespace MC68000.Arithmetic

/-- A result together with the status word it leaves. -/
abbrev Outcome := BitVec 32 × StatusWord

/-- A truncated sum or difference, its carry or borrow, and whether it overflows as a signed number. -/
structure Limb where
  result : BitVec 32
  carry : Bool
  overflow : Bool

/-- The sum `dst + src + carryIn`. What the operands carry above the size does not matter. It overflows
where operands of one sign give a result of the other. -/
def sum (size : Size) (src dst : BitVec 32) (carryIn : Bool) : Limb :=
  let src := size.truncate src
  let dst := size.truncate dst
  let total := src.toNat + dst.toNat + carryIn.toNat
  let result := size.truncate (BitVec.ofNat 32 total)
  { result
    carry := decide (size.modulus ≤ total)
    overflow := size.isNegative (~~~(src ^^^ dst) &&& (src ^^^ result)) }

/-- The difference `dst - src - borrowIn`. It overflows where operands of different signs give a result
with the sign of `src`. -/
def difference (size : Size) (src dst : BitVec 32) (borrowIn : Bool) : Limb :=
  let src := size.truncate src
  let dst := size.truncate dst
  let result := size.truncate (dst - src - BitVec.ofNat 32 borrowIn.toNat)
  { result
    carry := decide (dst.toNat < src.toNat + borrowIn.toNat)
    overflow := size.isNegative ((src ^^^ dst) &&& (dst ^^^ result)) }

/-- N, Z, V and C from a whole result; X is kept. -/
def Limb.compareFlags (size : Size) (limb : Limb) (status : StatusWord) : StatusWord :=
  ((status.withSign size limb.result).setIf .overflow limb.overflow).setIf .carry limb.carry

/-- X, N, Z, V and C from a whole result. -/
def Limb.wholeFlags (size : Size) (limb : Limb) (status : StatusWord) : StatusWord :=
  (limb.compareFlags size status).setIf .extend limb.carry

/-- X, N, V and C from one limb of a longer number. Z is only ever cleared, so that it reports whether
every limb was zero. -/
def Limb.chainFlags (size : Size) (limb : Limb) (status : StatusWord) : StatusWord :=
  let status := if limb.result != 0 then status.clear .zero else status
  (((status.setIf .negative (size.isNegative limb.result)).setIf .overflow limb.overflow).setIf
    .carry limb.carry).setIf .extend limb.carry

/-- The sum `dst + src`, setting X, N, Z, V and C. -/
def add (size : Size) (src dst : BitVec 32) (status : StatusWord) : Outcome :=
  let limb := sum size src dst false
  (limb.result, limb.wholeFlags size status)

def subtract (size : Size) (src dst : BitVec 32) (status : StatusWord) : Outcome :=
  let limb := difference size src dst false
  (limb.result, limb.wholeFlags size status)

/-- The difference `dst - src`, setting N, Z, V and C and keeping X. -/
def compare (size : Size) (src dst : BitVec 32) (status : StatusWord) : Outcome :=
  let limb := difference size src dst false
  (limb.result, limb.compareFlags size status)

/-- One limb of a longer sum: `dst + src + X`. -/
def addExtended (size : Size) (src dst : BitVec 32) (status : StatusWord) : Outcome :=
  let limb := sum size src dst (status.has .extend)
  (limb.result, limb.chainFlags size status)

/-- One limb of a longer difference: `dst - src - X`. -/
def subtractExtended (size : Size) (src dst : BitVec 32) (status : StatusWord) : Outcome :=
  let limb := difference size src dst (status.has .extend)
  (limb.result, limb.chainFlags size status)

def negate (size : Size) (value : BitVec 32) (status : StatusWord) : Outcome :=
  subtract size value 0 status

/-- One limb of a longer negation: `0 - value - X`. -/
def negateExtended (size : Size) (value : BitVec 32) (status : StatusWord) : Outcome :=
  subtractExtended size value 0 status

def logical (size : Size) (value : BitVec 32) (status : StatusWord) : Outcome :=
  let value := size.truncate value
  (value, status.withLogical size value)

end MC68000.Arithmetic
