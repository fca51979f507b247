import MC68000.AddressingMode
import MC68000.Arithmetic.Shift
import MC68000.Registers

set_option autoImplicit false

namespace MC68000

open Arithmetic (ShiftKind Direction)

inductive LogicOperation where
  | or
  | and
  | exclusiveOr
  deriving DecidableEq

inductive SumOperation where
  | add
  | subtract
  deriving DecidableEq

/-- Operations of an immediate value on an operand. -/
inductive ImmediateOperation where
  | logic (operation : LogicOperation)
  | sum (operation : SumOperation)
  | compare
  deriving DecidableEq

inductive UnaryOperation where
  | negateExtended
  | clear
  | negate
  | complement
  deriving DecidableEq

inductive BitOperation where
  | test
  | change
  | clear
  | set
  deriving DecidableEq

/-- The count of a shift: a number, or the low six bits of a data register. -/
inductive ShiftCount where
  | literal (count : Nat)
  | register (n : Fin 8)
  deriving DecidableEq

/-- A decoded instruction. Operands that follow the opcode in the instruction stream are fetched when it
is executed, and are no part of it. Where two registers `x` and `y` occur, `x` is the destination. -/
inductive Instruction where
  /-- No instruction. -/
  | illegal
  /-- No instruction, but privileged: an unassigned mode of MOVE to SR. -/
  | illegalPrivileged
  /-- No instruction, but its extension word is fetched: an unassigned mode of MOVEM or of the operations
  on a bit of literal number. -/
  | illegalExtended
  /-- Starts with 1010. -/
  | lineA
  /-- Starts with 1111. -/
  | lineF
  /-- ORI, ANDI, EORI, ADDI, SUBI and CMPI. -/
  | immediate (operation : ImmediateOperation) (size : Size) (destination : AddressingMode)
  /-- ORI, ANDI and EORI to CCR. -/
  | logicToCcr (operation : LogicOperation)
  /-- ORI, ANDI and EORI to SR. -/
  | logicToSr (operation : LogicOperation)
  /-- BTST, BCHG, BCLR and BSET of a literal bit number. -/
  | bitLiteral (operation : BitOperation) (destination : AddressingMode)
  /-- BTST, BCHG, BCLR and BSET of a bit number in a data register. -/
  | bitRegister (operation : BitOperation) (n : Fin 8) (destination : AddressingMode)
  /-- MOVEP from a data register to memory. -/
  | movepStore (size : Size) (data address : Fin 8)
  /-- MOVEP from memory to a data register. -/
  | movepLoad (size : Size) (data address : Fin 8)
  | move (size : Size) (source destination : AddressingMode)
  | movea (size : Size) (source : AddressingMode) (n : Fin 8)
  | moveq (value : BitVec 8) (n : Fin 8)
  /-- NEGX, CLR, NEG and NOT. -/
  | unary (operation : UnaryOperation) (size : Size) (destination : AddressingMode)
  | nbcd (destination : AddressingMode)
  | tst (size : Size) (source : AddressingMode)
  | tas (destination : AddressingMode)
  | swap (n : Fin 8)
  /-- EXT to the given size, from the next smaller one. -/
  | ext (size : Size) (n : Fin 8)
  | lea (source : AddressingMode) (n : Fin 8)
  | pea (source : AddressingMode)
  | chk (bound : AddressingMode) (n : Fin 8)
  | jmp (target : AddressingMode)
  | jsr (target : AddressingMode)
  | link (n : Fin 8)
  | unlk (n : Fin 8)
  /-- MOVEM to memory. -/
  | movemStore (size : Size) (destination : AddressingMode)
  /-- MOVEM from memory. -/
  | movemLoad (size : Size) (source : AddressingMode)
  | moveFromSr (destination : AddressingMode)
  | moveToCcr (source : AddressingMode)
  | moveToSr (source : AddressingMode)
  | moveToUsp (n : Fin 8)
  | moveFromUsp (n : Fin 8)
  | trap (n : Fin 16)
  | trapv
  | reset
  | nop
  | stop
  | rte
  | rts
  | rtr
  /-- ADDQ and SUBQ. -/
  | quick (operation : SumOperation) (size : Size) (value : BitVec 32) (destination : AddressingMode)
  | scc (condition : Condition) (destination : AddressingMode)
  | dbcc (condition : Condition) (n : Fin 8)
  /-- Bcc and BRA; a zero displacement stands for the word that follows. -/
  | bcc (condition : Condition) (displacement : BitVec 8)
  /-- BSR; a zero displacement stands for the word that follows. -/
  | bsr (displacement : BitVec 8)
  /-- ADD and SUB to a data register. -/
  | sumToRegister (operation : SumOperation) (size : Size) (source : AddressingMode) (n : Fin 8)
  /-- ADD and SUB to memory. -/
  | sumToMemory (operation : SumOperation) (size : Size) (n : Fin 8) (destination : AddressingMode)
  /-- ADDA and SUBA. -/
  | sumToAddress (operation : SumOperation) (size : Size) (source : AddressingMode) (n : Fin 8)
  /-- ADDX and SUBX of data registers. -/
  | extendedRegisters (operation : SumOperation) (size : Size) (x y : Fin 8)
  /-- ADDX and SUBX of predecremented memory. -/
  | extendedMemory (operation : SumOperation) (size : Size) (x y : Fin 8)
  | cmp (size : Size) (source : AddressingMode) (n : Fin 8)
  | cmpa (size : Size) (source : AddressingMode) (n : Fin 8)
  | cmpm (size : Size) (x y : Fin 8)
  /-- OR and AND to a data register. -/
  | logicToRegister (operation : LogicOperation) (size : Size) (source : AddressingMode) (n : Fin 8)
  /-- OR and AND to memory. -/
  | logicToMemory (operation : LogicOperation) (size : Size) (n : Fin 8) (destination : AddressingMode)
  | eor (size : Size) (n : Fin 8) (destination : AddressingMode)
  | mulu (source : AddressingMode) (n : Fin 8)
  | muls (source : AddressingMode) (n : Fin 8)
  | divu (source : AddressingMode) (n : Fin 8)
  | divs (source : AddressingMode) (n : Fin 8)
  /-- ABCD and SBCD of data registers. -/
  | decimalRegisters (operation : SumOperation) (x y : Fin 8)
  /-- ABCD and SBCD of predecremented memory. -/
  | decimalMemory (operation : SumOperation) (x y : Fin 8)
  | exg (x y : Register)
  /-- Shifts and rotations of a data register. -/
  | shiftRegister (kind : ShiftKind) (direction : Direction) (size : Size) (count : ShiftCount)
      (n : Fin 8)
  /-- Shifts and rotations of a word in memory, by one. -/
  | shiftMemory (kind : ShiftKind) (direction : Direction) (destination : AddressingMode)

end MC68000
