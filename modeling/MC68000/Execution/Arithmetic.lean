import MC68000.Arithmetic.Decimal
import MC68000.Arithmetic.Division
import MC68000.Execution.Operand
import MC68000.Instruction
import MC68000.Timing

set_option autoImplicit false

namespace MC68000

variable {World : Type}

open Arithmetic (Outcome ShiftKind Direction)

def LogicOperation.apply : LogicOperation → BitVec 32 → BitVec 32 → BitVec 32
  | .or, x, y => x ||| y
  | .and, x, y => x &&& y
  | .exclusiveOr, x, y => x ^^^ y

/-- The result of the operation and the flags it leaves. -/
def SumOperation.apply (operation : SumOperation) (size : Size) (src dst : BitVec 32)
    (status : StatusWord) : Outcome :=
  match operation with
  | .add => Arithmetic.add size src dst status
  | .subtract => Arithmetic.subtract size src dst status

/-- One limb of a longer operation, with X. -/
def SumOperation.applyExtended (operation : SumOperation) (size : Size) (src dst : BitVec 32)
    (status : StatusWord) : Outcome :=
  match operation with
  | .add => Arithmetic.addExtended size src dst status
  | .subtract => Arithmetic.subtractExtended size src dst status

def SumOperation.applyAddress (operation : SumOperation) (src dst : BitVec 32) : BitVec 32 :=
  match operation with
  | .add => dst + src
  | .subtract => dst - src

/-- The operation on packed decimal bytes. -/
def SumOperation.applyDecimal (operation : SumOperation) (src dst : BitVec 8) (status : StatusWord) :
    BitVec 8 × StatusWord :=
  match operation with
  | .add => Arithmetic.addDecimal src dst status
  | .subtract => Arithmetic.subtractDecimal src dst status

/-- The result of the operation and the flags it leaves. A comparison keeps its operand. -/
def ImmediateOperation.apply (operation : ImmediateOperation) (size : Size) (src dst : BitVec 32)
    (status : StatusWord) : Outcome :=
  match operation with
  | .logic operation => Arithmetic.logical size (operation.apply dst src) status
  | .sum operation => operation.apply size src dst status
  | .compare => (dst, (Arithmetic.compare size src dst status).2)

def UnaryOperation.apply (operation : UnaryOperation) (size : Size) (value : BitVec 32)
    (status : StatusWord) : Outcome :=
  match operation with
  | .negateExtended => Arithmetic.negateExtended size value status
  | .clear => Arithmetic.logical size 0 status
  | .negate => Arithmetic.negate size value status
  | .complement => Arithmetic.logical size (~~~value) status

/-- The operation on the bits of a mask. -/
def BitOperation.apply : BitOperation → BitVec 32 → BitVec 32 → BitVec 32
  | .test, _, value => value
  | .change, mask, value => value ^^^ mask
  | .clear, mask, value => value &&& ~~~mask
  | .set, mask, value => value ||| mask

namespace Exec

/-- Loads the destination, computes the result and the flags from it, stores the result and sets the
flags. A store that faults leaves the flags alone. -/
def readModifyWrite (destination : AddressingMode) (size : Size)
    (operation : BitVec 32 → StatusWord → Outcome) : Exec World Unit := do
  let target ← locate destination size
  let value ← load target size
  let (result, flags) := operation value (← status)
  store target size result
  setStatus flags

/-- Computes a result and flags from a source and a data register, stores the result in the register and
sets the flags. -/
def intoRegister (source : AddressingMode) (size : Size) (n : Fin 8)
    (operation : BitVec 32 → BitVec 32 → StatusWord → Outcome) : Exec World Unit := do
  let value ← loadFrom source size
  let r ← registers
  let (result, flags) := operation value (r.d.get n) r.status
  update (·.setDataPart n size result)
  setStatus flags

/-- Computes a result and flags from two predecremented operands, the source first, stores the result in
the destination and sets the flags. -/
def betweenPredecremented (size : Size) (x y : Fin 8)
    (operation : BitVec 32 → BitVec 32 → StatusWord → Outcome) : Exec World Unit := do
  let source ← loadFrom (.preDecrement y) size
  readModifyWrite (.preDecrement x) size (operation source)

/-- ORI, ANDI, EORI, ADDI, SUBI and CMPI. -/
def immediate (operation : ImmediateOperation) (size : Size) (destination : AddressingMode) :
    Exec World Nat := do
  let source ← fetchImmediate size
  let target ← locate destination size
  let value ← load target size
  let (result, flags) := operation.apply size source value (← status)
  unless operation = .compare do store target size result
  setStatus flags
  return if operation = .compare then Timing.readModifyWrite destination size (8, 14) (8, 12)
    else Timing.readModifyWrite destination size (8, 16) (12, 20)

/-- ADD and SUB to a data register. -/
def sumToRegister (operation : SumOperation) (size : Size) (source : AddressingMode) (n : Fin 8) :
    Exec World Nat := do
  intoRegister source size n (operation.apply size)
  return Timing.toRegister source size

/-- ADD and SUB to memory. -/
def sumToMemory (operation : SumOperation) (size : Size) (n : Fin 8) (destination : AddressingMode) :
    Exec World Nat := do
  let target ← locate destination size
  let value ← load target size
  let r ← registers
  let (result, flags) := operation.apply size (r.d.get n) value r.status
  store target size result
  setStatus flags
  return Timing.bySize size 8 12 + Timing.operand destination size

/-- ADDA and SUBA. -/
def sumToAddress (operation : SumOperation) (size : Size) (source : AddressingMode) (n : Fin 8) :
    Exec World Nat := do
  let value := size.signExtend (← loadFrom source size)
  update fun r => r.setAddress n (operation.applyAddress value (r.a.get n))
  return if size = .long then Timing.toRegister source size else 8 + Timing.operand source size

/-- ADDX and SUBX of data registers. -/
def extendedRegisters (operation : SumOperation) (size : Size) (x y : Fin 8) : Exec World Nat := do
  let r ← registers
  let (result, flags) := operation.applyExtended size (r.d.get y) (r.d.get x) r.status
  update (·.setDataPart x size result)
  setStatus flags
  return Timing.bySize size 4 8

/-- ADDX and SUBX of predecremented memory. -/
def extendedMemory (operation : SumOperation) (size : Size) (x y : Fin 8) : Exec World Nat := do
  betweenPredecremented size x y (operation.applyExtended size)
  return Timing.bySize size 18 30

def cmp (size : Size) (source : AddressingMode) (n : Fin 8) : Exec World Nat := do
  let value ← loadFrom source size
  let r ← registers
  setStatus (Arithmetic.compare size value (r.d.get n) r.status).2
  return Timing.bySize size 4 6 + Timing.operand source size

/-- CMPA, which compares whole registers. -/
def cmpa (size : Size) (source : AddressingMode) (n : Fin 8) : Exec World Nat := do
  let value := size.signExtend (← loadFrom source size)
  let r ← registers
  setStatus (Arithmetic.compare .long value (r.a.get n) r.status).2
  return 6 + Timing.operand source size

/-- CMPM, of postincremented operands, the source first. -/
def cmpm (size : Size) (x y : Fin 8) : Exec World Nat := do
  let source ← loadFrom (.postIncrement y) size
  let destination ← loadFrom (.postIncrement x) size
  setStatus (Arithmetic.compare size source destination (← status)).2
  return Timing.bySize size 12 20

/-- ADDQ and SUBQ. An address register takes part as a whole and leaves the flags alone. -/
def quick (operation : SumOperation) (size : Size) (value : BitVec 32) (destination : AddressingMode) :
    Exec World Nat := do
  match destination with
  | .addressRegister n =>
    update fun r => r.setAddress n (operation.applyAddress value (r.a.get n))
    return 8
  | destination =>
    readModifyWrite destination size (operation.apply size value)
    return Timing.readModifyWrite destination size (4, 8) (8, 12)

/-- NEGX, CLR, NEG and NOT. -/
def unary (operation : UnaryOperation) (size : Size) (destination : AddressingMode) :
    Exec World Nat := do
  readModifyWrite destination size (operation.apply size)
  return Timing.readModifyWrite destination size (4, 6) (8, 12)

def tst (size : Size) (source : AddressingMode) : Exec World Nat := do
  let value ← loadFrom source size
  setStatus ((← status).withLogical size value)
  return 4 + Timing.operand source size

/-- OR and AND to a data register. -/
def logicToRegister (operation : LogicOperation) (size : Size) (source : AddressingMode) (n : Fin 8) :
    Exec World Nat := do
  intoRegister source size n fun src dst => Arithmetic.logical size (operation.apply src dst)
  return Timing.toRegister source size

/-- OR and AND to memory. -/
def logicToMemory (operation : LogicOperation) (size : Size) (n : Fin 8)
    (destination : AddressingMode) : Exec World Nat := do
  let target ← locate destination size
  let value ← load target size
  let r ← registers
  let (result, flags) := Arithmetic.logical size (operation.apply value (r.d.get n)) r.status
  store target size result
  setStatus flags
  return Timing.bySize size 8 12 + Timing.operand destination size

def eor (size : Size) (n : Fin 8) (destination : AddressingMode) : Exec World Nat := do
  let target ← locate destination size
  let value ← load target size
  let r ← registers
  let (result, flags) := Arithmetic.logical size (value ^^^ r.d.get n) r.status
  store target size result
  setStatus flags
  return Timing.readModifyWrite destination size (4, 8) (8, 12)

/-- BTST, BCHG, BCLR and BSET. A data register has 32 bits and memory 8, and bit numbers wrap. Z is set
before the result is stored. -/
def bit (operation : BitOperation) (number : BitVec 32) (destination : AddressingMode) :
    Exec World Nat := do
  let isRegister := match destination with
    | .dataRegister _ => true
    | _ => false
  let size := if isRegister then Size.long else .byte
  let mask := 1#32 <<< (number.toNat % size.bits)
  let target ← locate destination size
  let value ← load target size
  setStatus ((← status).setIf .zero (value &&& mask == 0))
  unless operation = .test do store target size (operation.apply mask value)
  return match isRegister, operation with
    | true, .test => 6
    | true, .clear => 10
    | true, _ => 8
    | false, .test => 4 + Timing.operand destination .byte
    | false, _ => 8 + Timing.operand destination .byte

/-- A bit operation with a literal bit number, which follows the opcode. -/
def bitLiteral (operation : BitOperation) (destination : AddressingMode) : Exec World Nat := do
  let number ← fetchImmediate .byte
  return 4 + (← bit operation number destination)

/-- A bit operation with its bit number in a data register. -/
def bitRegister (operation : BitOperation) (n : Fin 8) (destination : AddressingMode) :
    Exec World Nat := do
  bit operation ((← registers).d.get n) destination

/-- TAS: tests a byte and sets its sign bit. The flags are set before the store. -/
def tas (destination : AddressingMode) : Exec World Nat := do
  let target ← locate destination .byte
  let value ← load target .byte
  setStatus ((← status).withLogical .byte value)
  store target .byte (value ||| 0x80)
  return Timing.readModifyWrite destination .byte (4, 4) (10, 10)

def nbcd (destination : AddressingMode) : Exec World Nat := do
  readModifyWrite destination .byte fun value status =>
    let (result, flags) := Arithmetic.negateDecimal (value.setWidth 8) status
    (result.setWidth 32, flags)
  return Timing.readModifyWrite destination .byte (6, 6) (8, 8)

/-- A decimal operation on the low bytes of two words. -/
def decimalOutcome (operation : SumOperation) (src dst : BitVec 32) (status : StatusWord) : Outcome :=
  let (result, flags) := operation.applyDecimal (src.setWidth 8) (dst.setWidth 8) status
  (result.setWidth 32, flags)

/-- ABCD and SBCD of data registers. -/
def decimalRegisters (operation : SumOperation) (x y : Fin 8) : Exec World Nat := do
  let r ← registers
  let (result, flags) := decimalOutcome operation (r.d.get y) (r.d.get x) r.status
  update (·.setDataPart x .byte result)
  setStatus flags
  return 6

/-- ABCD and SBCD of predecremented memory. -/
def decimalMemory (operation : SumOperation) (x y : Fin 8) : Exec World Nat := do
  betweenPredecremented .byte x y (decimalOutcome operation)
  return 18

/-- Replaces a data register and sets the flags from all of it. -/
def setProduct (n : Fin 8) (product : BitVec 32) : Exec World Unit := do
  update (·.setData n product)
  setStatus ((← status).withLogical .long product)

def mulu (source : AddressingMode) (n : Fin 8) : Exec World Nat := do
  let value := (← loadFrom source .word).setWidth 16
  setProduct n (Arithmetic.multiplyUnsigned (((← registers).d.get n).setWidth 16) value)
  return Timing.mulu value + Timing.operand source .word

def muls (source : AddressingMode) (n : Fin 8) : Exec World Nat := do
  let value := (← loadFrom source .word).setWidth 16
  setProduct n (Arithmetic.multiplySigned (((← registers).d.get n).setWidth 16) value)
  return Timing.muls value + Timing.operand source .word

/-- A division. Division by zero clears C and traps; a quotient that does not fit sets V, clears C and
leaves the register alone; any other replaces the register and sets the flags. -/
def divide (source : AddressingMode) (n : Fin 8)
    (quotient? : BitVec 32 → BitVec 16 → Option Arithmetic.Quotient)
    (cost : BitVec 32 → BitVec 16 → Nat) : Exec World Nat := do
  let divisor := (← loadFrom source .word).setWidth 16
  let r ← registers
  let dividend := r.d.get n
  if divisor = 0 then
    setStatus (r.status.clear .carry)
    throw (.trap .zeroDivide (Timing.zeroDivide + Timing.operand source .word))
  else
    match quotient? dividend divisor with
    | none => setStatus ((r.status.clear .carry).setIf .overflow true)
    | some q =>
      update (·.setData n q.packed)
      setStatus (r.status.withLogical .word (q.quotient.setWidth 32))
    return cost dividend divisor + Timing.operand source .word

def divu (source : AddressingMode) (n : Fin 8) : Exec World Nat :=
  divide source n Arithmetic.divideUnsigned? Timing.divu

def divs (source : AddressingMode) (n : Fin 8) : Exec World Nat :=
  divide source n Arithmetic.divideSigned? Timing.divs

/-- CHK: traps where the low word of a data register is negative or above the bound. N is set only by the
trap, from whether the register is negative. -/
def chk (bound : AddressingMode) (n : Fin 8) : Exec World Nat := do
  let limit := ((← loadFrom bound .word).setWidth 16).toInt
  let r ← registers
  let value := ((r.d.get n).setWidth 16).toInt
  let flags := (r.status.clear (.overflow ||| .carry)).setIf .zero (value == 0)
  if value < 0 ∨ limit < value then
    setStatus (flags.setIf .negative (value < 0))
    throw (.trap .check (Timing.checkTrap + Timing.operand bound .word))
  else
    setStatus flags
    return 10 + Timing.operand bound .word

/-- Shifts and rotations of a data register. -/
def shiftRegister (kind : ShiftKind) (direction : Direction) (size : Size) (count : ShiftCount)
    (n : Fin 8) : Exec World Nat := do
  let r ← registers
  let count := match count with
    | .literal count => count
    | .register m => (r.d.get m).toNat % 64
  let (result, flags) := Arithmetic.shift kind direction size (r.d.get n) count r.status
  update (·.setDataPart n size result)
  setStatus flags
  return Timing.bySize size 6 8 + 2 * count

/-- Shifts and rotations of a word in memory, by one. -/
def shiftMemory (kind : ShiftKind) (direction : Direction) (destination : AddressingMode) :
    Exec World Nat := do
  readModifyWrite destination .word fun value => Arithmetic.shift kind direction .word value 1
  return 8 + Timing.operand destination .word

end Exec

end MC68000
