import MC68000.Instruction

set_option autoImplicit false

namespace MC68000

open Arithmetic (ShiftKind Direction)

namespace Decoding

def lowRegister (opcode : BitVec 16) : Fin 8 := (opcode.extractLsb' 0 3).toFin

/-- The register number in bits 9 to 11. -/
def highRegister (opcode : BitVec 16) : Fin 8 := (opcode.extractLsb' 9 3).toFin

/-- The number in bits 9 to 11, where zero stands for eight. -/
def quickValue (opcode : BitVec 16) : Nat :=
  let n := (opcode.extractLsb' 9 3).toNat
  if n = 0 then 8 else n

/-- The number in bits 6 to 8, which many lines use to tell their instructions apart. -/
def opmode (opcode : BitVec 16) : Nat := (opcode.extractLsb' 6 3).toNat

def size? (opcode : BitVec 16) : Option Size := Size.ofField? (opcode.extractLsb' 6 2)

def condition (opcode : BitVec 16) : Condition := .ofField (opcode.extractLsb' 8 4)

/-- An instruction on the operand in the low six bits, which must be of an admitted mode. -/
def withMode (opcode : BitVec 16) (admits : AddressingMode → Bool)
    (instruction : AddressingMode → Instruction) : Instruction :=
  match AddressingMode.ofOpcode? opcode with
  | some mode => if admits mode then instruction mode else .illegal
  | none => .illegal

/-- An instruction with the general size field and an operand of an admitted mode. -/
def withSizeAndMode (opcode : BitVec 16) (admits : Size → AddressingMode → Bool)
    (instruction : Size → AddressingMode → Instruction) : Instruction :=
  match size? opcode with
  | some size => withMode opcode (admits size) (instruction size)
  | none => .illegal

/-- The modes of a source operand: all of them, but an address register has no bytes. -/
def isSource (size : Size) : AddressingMode → Bool
  | .addressRegister _ => size ≠ .byte
  | _ => true

def bitOperation (opcode : BitVec 16) : BitOperation :=
  match (opcode.extractLsb' 6 2).toNat with
  | 0 => .test
  | 1 => .change
  | 2 => .clear
  | _ => .set

/-- The modes on which a bit operation works: a test needs not write. -/
def admitsBit (operation : BitOperation) (mode : AddressingMode) : Bool :=
  if operation = .test then mode.isData else mode.isDataAlterable

/-- An immediate operation, on its operand or, for mode 7 register 4 in byte and word size, on the
condition codes and the status word. -/
def immediate (opcode : BitVec 16) (operation : ImmediateOperation) : Instruction :=
  match operation, (opcode.extractLsb' 0 8).toNat with
  | .logic operation, 0x3C => .logicToCcr operation
  | .logic operation, 0x7C => .logicToSr operation
  | operation, _ =>
    withSizeAndMode opcode (fun _ mode => mode.isDataAlterable) (.immediate operation)

/-- An operation on a bit of literal number. Its number is fetched before an unassigned mode is refused,
unless the mode is immediate. -/
def bitLiteral (opcode : BitVec 16) : Instruction :=
  let operation := bitOperation opcode
  match AddressingMode.ofOpcode? opcode with
  | none => .illegal
  | some mode =>
    if operation = .test ∧ mode = .immediate then .illegal
    else if admitsBit operation mode then .bitLiteral operation mode
    else .illegalExtended

/-- MOVEP: bit 6 is the size, and bit 7 the direction. -/
def movep (opcode : BitVec 16) : Instruction :=
  let size := if opcode.getLsbD 6 then Size.long else .word
  if opcode.getLsbD 7 then .movepStore size (highRegister opcode) (lowRegister opcode)
  else .movepLoad size (highRegister opcode) (lowRegister opcode)

/-- Line 0: immediate operations, operations on single bits, and MOVEP. -/
def immediateLine (opcode : BitVec 16) : Instruction :=
  if opcode.getLsbD 8 then
    if opcode.extractLsb' 3 3 = 1 then movep opcode
    else
      let operation := bitOperation opcode
      withMode opcode (admitsBit operation) (.bitRegister operation (highRegister opcode))
  else match (opcode.extractLsb' 9 3).toNat with
    | 0 => immediate opcode (.logic .or)
    | 1 => immediate opcode (.logic .and)
    | 2 => immediate opcode (.sum .subtract)
    | 3 => immediate opcode (.sum .add)
    | 4 => bitLiteral opcode
    | 5 => immediate opcode (.logic .exclusiveOr)
    | 6 => immediate opcode .compare
    | _ => .illegal

/-- Lines 1 to 3: MOVE and MOVEA. The destination has its register field above its mode field. -/
def moveLine (opcode : BitVec 16) : Instruction :=
  match Size.ofMoveField? (opcode.extractLsb' 12 2), AddressingMode.ofOpcode? opcode,
      AddressingMode.ofFields? (opcode.extractLsb' 6 3) (opcode.extractLsb' 9 3) with
  | some size, some source, some destination =>
    if isSource size source then
      match destination with
      | .addressRegister n => if size = .byte then .illegal else .movea size source n
      | destination => if destination.isDataAlterable then .move size source destination else .illegal
    else .illegal
  | _, _, _ => .illegal

/-- MOVE to SR. Its privilege is checked before its mode is refused. -/
def moveToSr (opcode : BitVec 16) : Instruction :=
  match AddressingMode.ofOpcode? opcode with
  | some mode => if mode.isData then .moveToSr mode else .illegalPrivileged
  | none => .illegalPrivileged

/-- MOVEM. Its register list is fetched before an unassigned mode is refused. -/
def movem (opcode : BitVec 16) (admits : AddressingMode → Bool)
    (instruction : Size → AddressingMode → Instruction) : Instruction :=
  match AddressingMode.ofOpcode? opcode with
  | some mode =>
    if admits mode then instruction (if opcode.getLsbD 6 then .long else .word) mode
    else .illegalExtended
  | none => .illegal

def admitsMovemStore : AddressingMode → Bool
  | .preDecrement _ => true
  | mode => mode.isControlAlterable

def admitsMovemLoad : AddressingMode → Bool
  | .postIncrement _ => true
  | mode => mode.isControl

/-- The opcodes 4E40 to 4E7F: traps, frames, the user stack pointer, and instructions without operands. -/
def control (opcode : BitVec 16) : Instruction :=
  match (opcode.extractLsb' 3 3).toNat with
  | 0 | 1 => .trap (opcode.extractLsb' 0 4).toFin
  | 2 => .link (lowRegister opcode)
  | 3 => .unlk (lowRegister opcode)
  | 4 => .moveToUsp (lowRegister opcode)
  | 5 => .moveFromUsp (lowRegister opcode)
  | 6 => match (opcode.extractLsb' 0 3).toNat with
    | 0 => .reset
    | 1 => .nop
    | 2 => .stop
    | 3 => .rte
    | 5 => .rts
    | 6 => .trapv
    | 7 => .rtr
    | _ => .illegal
  | _ => .illegal

def unary (opcode : BitVec 16) (operation : UnaryOperation) : Instruction :=
  withSizeAndMode opcode (fun _ mode => mode.isDataAlterable) (.unary operation)

/-- The opcodes 4800 to 48FF. -/
def extensionRow (opcode : BitVec 16) : Instruction :=
  let register := opcode.extractLsb' 3 3 = 0
  match (opcode.extractLsb' 6 2).toNat with
  | 0 => withMode opcode (·.isDataAlterable) .nbcd
  | 1 =>
    if register then .swap (lowRegister opcode) else withMode opcode (·.isControl) .pea
  | 2 =>
    if register then .ext .word (lowRegister opcode)
    else movem opcode admitsMovemStore .movemStore
  | _ =>
    if register then .ext .long (lowRegister opcode)
    else movem opcode admitsMovemStore .movemStore

/-- Line 4: everything that fits in no other line. -/
def miscellaneousLine (opcode : BitVec 16) : Instruction :=
  let sized := (size? opcode).isSome
  if opcode.getLsbD 8 then
    match (opcode.extractLsb' 6 2).toNat with
    | 3 => withMode opcode (·.isControl) (.lea · (highRegister opcode))
    | 2 => withMode opcode (·.isData) (.chk · (highRegister opcode))
    | _ => .illegal
  else match (opcode.extractLsb' 9 3).toNat with
    | 0 =>
      if sized then unary opcode .negateExtended
      else withMode opcode (·.isDataAlterable) .moveFromSr
    | 1 => if sized then unary opcode .clear else .illegal
    | 2 => if sized then unary opcode .negate else withMode opcode (·.isData) .moveToCcr
    | 3 => if sized then unary opcode .complement else moveToSr opcode
    | 4 => extensionRow opcode
    | 5 =>
      if sized then withSizeAndMode opcode (fun _ mode => mode.isDataAlterable) .tst
      else withMode opcode (·.isDataAlterable) .tas
    | 6 =>
      if opcode.getLsbD 7 then movem opcode admitsMovemLoad .movemLoad else .illegal
    | _ => match (opcode.extractLsb' 6 2).toNat with
      | 1 => control opcode
      | 2 => withMode opcode (·.isControl) .jsr
      | 3 => withMode opcode (·.isControl) .jmp
      | _ => .illegal

/-- Line 5: ADDQ and SUBQ, and the instructions on a condition where the size field is 3. -/
def quickLine (opcode : BitVec 16) : Instruction :=
  match size? opcode with
  | some size =>
    let operation := if opcode.getLsbD 8 then SumOperation.subtract else .add
    withMode opcode (fun mode => mode.isAlterable && isSource size mode)
      (.quick operation size (BitVec.ofNat 32 (quickValue opcode)))
  | none =>
    if opcode.extractLsb' 3 3 = 1 then .dbcc (condition opcode) (lowRegister opcode)
    else withMode opcode (·.isDataAlterable) (.scc (condition opcode))

/-- Line 6: branches. The condition that never holds is given to BSR. -/
def branchLine (opcode : BitVec 16) : Instruction :=
  match condition opcode with
  | .never => .bsr (opcode.extractLsb' 0 8)
  | condition => .bcc condition (opcode.extractLsb' 0 8)

/-- OR and AND, to a register or, where bit 8 is set, to memory. -/
def logic (opcode : BitVec 16) (operation : LogicOperation) : Instruction :=
  if opcode.getLsbD 8 then
    withSizeAndMode opcode (fun _ mode => mode.isMemoryAlterable)
      fun size mode => .logicToMemory operation size (highRegister opcode) mode
  else
    withSizeAndMode opcode (fun _ mode => mode.isData)
      fun size mode => .logicToRegister operation size mode (highRegister opcode)

/-- ABCD and SBCD, of registers or, where bit 3 is set, of memory. -/
def decimal (opcode : BitVec 16) (operation : SumOperation) : Instruction :=
  if opcode.getLsbD 3 then .decimalMemory operation (highRegister opcode) (lowRegister opcode)
  else .decimalRegisters operation (highRegister opcode) (lowRegister opcode)

/-- Line 8: OR, DIVU, DIVS and SBCD. -/
def orLine (opcode : BitVec 16) : Instruction :=
  match opmode opcode with
  | 3 => withMode opcode (·.isData) (.divu · (highRegister opcode))
  | 7 => withMode opcode (·.isData) (.divs · (highRegister opcode))
  | 4 =>
    if opcode.extractLsb' 4 2 = 0 then decimal opcode .subtract else logic opcode .or
  | _ => logic opcode .or

/-- Line C: AND, MULU, MULS, ABCD and EXG. -/
def andLine (opcode : BitVec 16) : Instruction :=
  let x := highRegister opcode
  let y := lowRegister opcode
  match opmode opcode, (opcode.extractLsb' 3 3).toNat with
  | 3, _ => withMode opcode (·.isData) (.mulu · x)
  | 7, _ => withMode opcode (·.isData) (.muls · x)
  | 4, 0 | 4, 1 => decimal opcode .add
  | 5, 0 => .exg (.data x) (.data y)
  | 5, 1 => .exg (.address x) (.address y)
  | 6, 0 => .illegal
  | 6, 1 => .exg (.data x) (.address y)
  | _, _ => logic opcode .and

/-- Lines 9 and D: SUB and ADD with their forms on address registers and with X. -/
def sumLine (opcode : BitVec 16) (operation : SumOperation) : Instruction :=
  let n := highRegister opcode
  match opmode opcode with
  | 3 => withMode opcode (fun _ => true) (.sumToAddress operation .word · n)
  | 7 => withMode opcode (fun _ => true) (.sumToAddress operation .long · n)
  | 0 | 1 | 2 =>
    withSizeAndMode opcode isSource fun size mode => .sumToRegister operation size mode n
  | _ =>
    withSizeAndMode opcode (fun _ mode => !mode.isMemory || mode.isMemoryAlterable)
      fun size mode => match mode with
        | .dataRegister y => .extendedRegisters operation size n y
        | .addressRegister y => .extendedMemory operation size n y
        | mode => .sumToMemory operation size n mode

/-- Line B: CMP, CMPA, CMPM and EOR. -/
def compareLine (opcode : BitVec 16) : Instruction :=
  let n := highRegister opcode
  match opmode opcode with
  | 3 => withMode opcode (fun _ => true) (.cmpa .word · n)
  | 7 => withMode opcode (fun _ => true) (.cmpa .long · n)
  | 0 | 1 | 2 => withSizeAndMode opcode isSource fun size mode => .cmp size mode n
  | _ =>
    withSizeAndMode opcode (fun _ mode => mode.isAlterable)
      fun size mode => match mode with
        | .addressRegister y => .cmpm size n y
        | mode => .eor size n mode

/-- Line E: shifts and rotations, of memory where the size field is 3. -/
def shiftLine (opcode : BitVec 16) : Instruction :=
  let direction := if opcode.getLsbD 8 then Direction.left else .right
  match size? opcode with
  | some size =>
    let count := if opcode.getLsbD 5 then ShiftCount.register (highRegister opcode)
      else .literal (quickValue opcode)
    .shiftRegister (.ofField (opcode.extractLsb' 3 2)) direction size count (lowRegister opcode)
  | none =>
    withMode opcode (fun mode => !opcode.getLsbD 11 && mode.isMemoryAlterable)
      (.shiftMemory (.ofField (opcode.extractLsb' 9 2)) direction)

end Decoding

/-- The instruction of an opcode. The top four bits select a line, and each line lays out the other bits
in its own way. An opcode that no instruction has, or whose mode its instruction does not admit, is
illegal. -/
def Instruction.decode (opcode : BitVec 16) : Instruction :=
  match (opcode.extractLsb' 12 4).toNat with
  | 0x0 => Decoding.immediateLine opcode
  | 0x1 | 0x2 | 0x3 => Decoding.moveLine opcode
  | 0x4 => Decoding.miscellaneousLine opcode
  | 0x5 => Decoding.quickLine opcode
  | 0x6 => Decoding.branchLine opcode
  | 0x7 =>
    if opcode.getLsbD 8 then .illegal
    else .moveq (opcode.extractLsb' 0 8) (Decoding.highRegister opcode)
  | 0x8 => Decoding.orLine opcode
  | 0x9 => Decoding.sumLine opcode .subtract
  | 0xA => .lineA
  | 0xB => Decoding.compareLine opcode
  | 0xC => Decoding.andLine opcode
  | 0xD => Decoding.sumLine opcode .add
  | 0xE => Decoding.shiftLine opcode
  | _ => .lineF

end MC68000
