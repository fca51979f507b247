import MC68000.AddressingMode
import MC68000.Execution.Access

set_option autoImplicit false

namespace MC68000

variable {World : Type}

/-- An operand that has been located. -/
inductive Operand where
  | dataRegister (n : Fin 8)
  | addressRegister (n : Fin 8)
  | memory (address : BitVec 32)
  /-- Memory in the program space. -/
  | program (address : BitVec 32)
  | value (value : BitVec 32)
  deriving DecidableEq

namespace Exec

/-- The address that an index extension word selects from a base: an 8-bit displacement and an index
register, of which bit 11 takes the whole and otherwise the low word, sign-extended. -/
def indexedAddress (r : Registers) (base : BitVec 32) (extension : BitVec 16) : BitVec 32 :=
  let n : Fin 8 := (extension.extractLsb' 12 3).toFin
  let register := if extension.getLsbD 15 then r.a.get n else r.d.get n
  let index := if extension.getLsbD 11 then register else Size.word.signExtend register
  base + (extension.setWidth 8).signExtend 32 + index

/-- Locates an operand: takes its extension words from the instruction stream and moves the register of an
increment or decrement, once. Addresses relative to the program counter count from the extension word. -/
def locate (mode : AddressingMode) (size : Size) : Exec World Operand := do
  match mode with
  | .dataRegister n => return .dataRegister n
  | .addressRegister n => return .addressRegister n
  | .indirect n => return .memory ((← registers).a.get n)
  | .postIncrement n =>
    let address := (← registers).a.get n
    update (·.setAddress n (address + autoStep n size))
    return .memory address
  | .preDecrement n =>
    let address := (← registers).a.get n - autoStep n size
    update (·.setAddress n address)
    return .memory address
  | .displaced n =>
    let displacement ← fetchDisplacement
    return .memory ((← registers).a.get n + displacement)
  | .indexed n =>
    let extension ← fetchWord
    let r ← registers
    return .memory (indexedAddress r (r.a.get n) extension)
  | .absoluteShort => return .memory (← fetchDisplacement)
  | .absoluteLong => return .memory (← fetchLong)
  | .programDisplaced =>
    let base := (← registers).pc
    return .program (base + (← fetchDisplacement))
  | .programIndexed =>
    let base := (← registers).pc
    let extension ← fetchWord
    return .program (indexedAddress (← registers) base extension)
  | .immediate => return .value (← fetchImmediate size)

def load (operand : Operand) (size : Size) : Exec World (BitVec 32) := do
  match operand with
  | .dataRegister n => return size.truncate ((← registers).d.get n)
  | .addressRegister n => return size.truncate ((← registers).a.get n)
  | .memory address => readData size address
  | .program address => readProgram size address
  | .value value => return value

/-- Stores an operand. A data register keeps what lies above the size, an address register is replaced as
a whole, and the operands that no instruction may write are refused. -/
def store (operand : Operand) (size : Size) (value : BitVec 32) : Exec World Unit := do
  match operand with
  | .dataRegister n => update (·.setDataPart n size value)
  | .addressRegister n => update (·.setAddress n value)
  | .memory address => writeData size address value
  | .program _ | .value _ => throw .illegal

def loadFrom (mode : AddressingMode) (size : Size) : Exec World (BitVec 32) := do
  load (← locate mode size) size

/-- The address that a control mode names. -/
def effectiveAddress (mode : AddressingMode) : Exec World (BitVec 32) := do
  match ← locate mode .long with
  | .memory address | .program address => return address
  | _ => throw .illegal

end Exec

end MC68000
