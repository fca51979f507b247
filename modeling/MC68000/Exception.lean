import MC68000.Bus.Space

set_option autoImplicit false

namespace MC68000

abbrev VectorNumber := BitVec 8

namespace VectorNumber

def busError : VectorNumber := 2

def addressError : VectorNumber := 3

def illegal : VectorNumber := 4

def zeroDivide : VectorNumber := 5

/-- CHK found its operand out of bounds. -/
def check : VectorNumber := 6

/-- TRAPV found V set. -/
def overflow : VectorNumber := 7

def privilege : VectorNumber := 8

def trace : VectorNumber := 9

/-- An opcode that starts with 1010. -/
def lineA : VectorNumber := 10

/-- An opcode that starts with 1111. -/
def lineF : VectorNumber := 11

def trap (n : Fin 16) : VectorNumber := BitVec.ofNat 8 (32 + n)

/-- The address of the vector's entry. -/
def address (vector : VectorNumber) : BitVec 32 := vector.setWidth 32 * 4

end VectorNumber

/-- A failed access, as a long exception frame records it. -/
structure AccessFault where
  address : BitVec 32
  space : AddressSpace
  write : Bool
  /-- Whether the access was made for an instruction, and not while an exception was processed. -/
  instruction : Bool
  deriving DecidableEq

namespace AccessFault

/-- The frame's status word: bit 4 is set for reads, bit 3 for accesses made while an exception was
processed, and bits 0 to 2 hold the function code. -/
def statusWord (fault : AccessFault) : BitVec 16 :=
  (if fault.write then 0 else 0x10) ||| (if fault.instruction then 0 else 0x08)
    ||| fault.space.functionCode.setWidth 16

end AccessFault

/-- Why an instruction did not complete normally. -/
inductive Exception where
  /-- No region served an access. -/
  | busError (fault : AccessFault)
  /-- A word or long access was made at an odd address. -/
  | addressError (fault : AccessFault)
  /-- The opcode is no instruction. -/
  | illegal
  /-- The instruction is reserved for the supervisor. -/
  | privilege
  /-- The opcode starts with 1010. -/
  | lineA
  /-- The opcode starts with 1111. -/
  | lineF
  /-- The instruction completed and ends in a trap. The frame holds the address of the next instruction,
  and the cost covers both. -/
  | trap (vector : VectorNumber) (cost : Nat)
  deriving DecidableEq

end MC68000
