import MC68000.Size

set_option autoImplicit false

namespace MC68000

/-- Where an operand is found. A mode that names a register carries its number. -/
inductive AddressingMode where
  /-- The data register itself. -/
  | dataRegister (n : Fin 8)
  /-- The address register itself. -/
  | addressRegister (n : Fin 8)
  /-- Memory at the address register. -/
  | indirect (n : Fin 8)
  /-- Memory at the address register, which then moves up by the operand's size. -/
  | postIncrement (n : Fin 8)
  /-- Memory at the address register, after it has moved down by the operand's size. -/
  | preDecrement (n : Fin 8)
  /-- Memory at the address register plus a 16-bit displacement. -/
  | displaced (n : Fin 8)
  /-- Memory at the address register plus an index register and an 8-bit displacement. -/
  | indexed (n : Fin 8)
  /-- Memory at a sign-extended 16-bit address. -/
  | absoluteShort
  /-- Memory at a 32-bit address. -/
  | absoluteLong
  /-- Program memory at the program counter plus a 16-bit displacement. -/
  | programDisplaced
  /-- Program memory at the program counter plus an index register and an 8-bit displacement. -/
  | programIndexed
  /-- The value that follows the opcode. -/
  | immediate
  deriving DecidableEq

namespace AddressingMode

/-- The mode that a mode field and a register field select. Mode 7 has its variant in the register field,
and leaves three values unassigned. -/
def ofFields? (mode register : BitVec 3) : Option AddressingMode :=
  match mode.toNat with
  | 0 => some (.dataRegister register.toFin)
  | 1 => some (.addressRegister register.toFin)
  | 2 => some (.indirect register.toFin)
  | 3 => some (.postIncrement register.toFin)
  | 4 => some (.preDecrement register.toFin)
  | 5 => some (.displaced register.toFin)
  | 6 => some (.indexed register.toFin)
  | _ => match register.toNat with
    | 0 => some .absoluteShort
    | 1 => some .absoluteLong
    | 2 => some .programDisplaced
    | 3 => some .programIndexed
    | 4 => some .immediate
    | _ => none

/-- The mode in the low six bits of an opcode. -/
def ofOpcode? (opcode : BitVec 16) : Option AddressingMode :=
  ofFields? (opcode.extractLsb' 3 3) (opcode.extractLsb' 0 3)

/-- Every mode but an address register. -/
def isData : AddressingMode → Bool
  | addressRegister _ => false
  | _ => true

/-- The modes that are no register. -/
def isMemory : AddressingMode → Bool
  | dataRegister _ | addressRegister _ => false
  | _ => true

/-- The modes that name a fixed address in memory. -/
def isControl : AddressingMode → Bool
  | indirect _ | displaced _ | indexed _ | absoluteShort | absoluteLong | programDisplaced
  | programIndexed => true
  | _ => false

/-- The modes that can be written. -/
def isAlterable : AddressingMode → Bool
  | programDisplaced | programIndexed | immediate => false
  | _ => true

def isDataAlterable (mode : AddressingMode) : Bool := mode.isData && mode.isAlterable

def isMemoryAlterable (mode : AddressingMode) : Bool := mode.isMemory && mode.isAlterable

def isControlAlterable (mode : AddressingMode) : Bool := mode.isControl && mode.isAlterable

/-- The modes whose operand takes no access of its own: a register, or the value after the opcode. -/
def isRegisterOrImmediate : AddressingMode → Bool
  | dataRegister _ | addressRegister _ | immediate => true
  | _ => false

/-- The modes relative to the program counter, which read program memory. -/
def isProgramRelative : AddressingMode → Bool
  | programDisplaced | programIndexed => true
  | _ => false

end AddressingMode

/-- How far an address register moves past an operand. A byte on the stack takes a whole word, so that
A7 stays even. -/
def autoStep (n : Fin 8) (size : Size) : BitVec 32 :=
  if size = .byte ∧ n = 7 then 2 else BitVec.ofNat 32 size.bytes

end MC68000
