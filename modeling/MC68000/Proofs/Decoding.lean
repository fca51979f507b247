import MC68000.Decoding

set_option autoImplicit false

namespace MC68000

/-- A data or address register, and not a part of the control unit. -/
def Register.IsGeneral : Register → Prop
  | data _ | address _ => True
  | _ => False

namespace AddressingMode

theorem isAlterable_of_isDataAlterable {mode : AddressingMode} (h : mode.isDataAlterable = true) :
    mode.isAlterable = true := (Bool.and_eq_true_iff.mp h).2

theorem isAlterable_of_isMemoryAlterable {mode : AddressingMode}
    (h : mode.isMemoryAlterable = true) : mode.isAlterable = true := (Bool.and_eq_true_iff.mp h).2

theorem isControl_of_isControlAlterable {mode : AddressingMode}
    (h : mode.isControlAlterable = true) : mode.isControl = true := (Bool.and_eq_true_iff.mp h).1

end AddressingMode

open Decoding in
/-- Of a form that instructions with an opcode have: it writes only to modes that can be written, takes the
address only of modes that have one, exchanges only general registers, and counts a literal shift up to
eight. -/
def Instruction.Encodable : Instruction → Prop
  | immediate _ _ destination | move _ _ destination | unary _ _ destination | nbcd destination
  | tas destination | moveFromSr destination | scc _ destination | eor _ _ destination =>
    destination.isDataAlterable = true
  | sumToMemory _ _ _ destination | logicToMemory _ _ _ destination | shiftMemory _ _ destination =>
    destination.isMemoryAlterable = true
  | quick _ _ _ destination => destination.isAlterable = true
  | bitLiteral operation destination | bitRegister operation _ destination =>
    admitsBit operation destination = true
  | lea target _ | pea target | jmp target | jsr target => target.isControl = true
  | movemStore _ destination => admitsMovemStore destination = true
  | movemLoad _ source => admitsMovemLoad source = true
  | exg x y => x.IsGeneral ∧ y.IsGeneral
  | shiftRegister _ _ _ (.literal count) _ => count ≤ 8
  | _ => True

namespace Decoding

theorem encodable_withMode {opcode : BitVec 16} {admits : AddressingMode → Bool}
    {instruction : AddressingMode → Instruction}
    (h : ∀ mode, admits mode = true → (instruction mode).Encodable) :
    (withMode opcode admits instruction).Encodable := by
  unfold withMode
  split
  · split
    next admitted => exact h _ admitted
    next => trivial
  · trivial

theorem encodable_withSizeAndMode {opcode : BitVec 16} {admits : Size → AddressingMode → Bool}
    {instruction : Size → AddressingMode → Instruction}
    (h : ∀ size mode, admits size mode = true → (instruction size mode).Encodable) :
    (withSizeAndMode opcode admits instruction).Encodable := by
  unfold withSizeAndMode
  split
  · exact encodable_withMode (h _)
  · trivial

theorem encodable_immediate (opcode : BitVec 16) (operation : ImmediateOperation) :
    (immediate opcode operation).Encodable := by
  unfold immediate
  split
  · trivial
  · trivial
  · exact encodable_withSizeAndMode fun _ _ admitted => admitted

theorem encodable_movep (opcode : BitVec 16) : (movep opcode).Encodable := by
  unfold movep
  dsimp only
  split <;> trivial

theorem encodable_bitLiteral (opcode : BitVec 16) : (bitLiteral opcode).Encodable := by
  unfold bitLiteral
  dsimp only
  split
  · trivial
  · split
    · trivial
    · split
      next admitted => exact admitted
      next => trivial

theorem encodable_immediateLine (opcode : BitVec 16) : (immediateLine opcode).Encodable := by
  unfold immediateLine
  split
  · split
    · exact encodable_movep opcode
    · exact encodable_withMode fun _ admitted => admitted
  · split
    case h_5 => exact encodable_bitLiteral opcode
    case h_8 => trivial
    all_goals exact encodable_immediate opcode _

theorem encodable_moveLine (opcode : BitVec 16) : (moveLine opcode).Encodable := by
  unfold moveLine
  split
  · split
    · split
      · split <;> trivial
      · split
        next admitted => exact admitted
        next => trivial
    · trivial
  · trivial

theorem encodable_movem {opcode : BitVec 16} {admits : AddressingMode → Bool}
    {instruction : Size → AddressingMode → Instruction}
    (h : ∀ size mode, admits mode = true → (instruction size mode).Encodable) :
    (movem opcode admits instruction).Encodable := by
  unfold movem
  split
  · split
    next admitted => exact h _ _ admitted
    next => trivial
  · trivial

theorem encodable_control (opcode : BitVec 16) : (control opcode).Encodable := by
  unfold control
  split
  case h_7 => split <;> trivial
  all_goals trivial

theorem encodable_extensionRow (opcode : BitVec 16) : (extensionRow opcode).Encodable := by
  unfold extensionRow
  dsimp only
  split
  · exact encodable_withMode fun _ admitted => admitted
  · split
    · trivial
    · exact encodable_withMode fun _ admitted => admitted
  · split
    · trivial
    · exact encodable_movem fun _ _ admitted => admitted
  · split
    · trivial
    · exact encodable_movem fun _ _ admitted => admitted

theorem encodable_moveToSr (opcode : BitVec 16) : (moveToSr opcode).Encodable := by
  unfold moveToSr
  split
  · split <;> trivial
  · trivial

theorem encodable_unary (opcode : BitVec 16) (operation : UnaryOperation) :
    (unary opcode operation).Encodable := encodable_withSizeAndMode fun _ _ admitted => admitted

theorem encodable_miscellaneousLine (opcode : BitVec 16) : (miscellaneousLine opcode).Encodable := by
  unfold miscellaneousLine
  dsimp only
  split
  · split
    · exact encodable_withMode fun _ admitted => admitted
    · exact encodable_withMode fun _ _ => trivial
    · trivial
  · split
    · split
      · exact encodable_unary opcode _
      · exact encodable_withMode fun _ admitted => admitted
    · split
      · exact encodable_unary opcode _
      · trivial
    · split
      · exact encodable_unary opcode _
      · exact encodable_withMode fun _ _ => trivial
    · split
      · exact encodable_unary opcode _
      · exact encodable_moveToSr opcode
    · exact encodable_extensionRow opcode
    · split
      · exact encodable_withSizeAndMode fun _ _ _ => trivial
      · exact encodable_withMode fun _ admitted => admitted
    · split
      · exact encodable_movem fun _ _ admitted => admitted
      · trivial
    · split
      · exact encodable_control opcode
      · exact encodable_withMode fun _ admitted => admitted
      · exact encodable_withMode fun _ admitted => admitted
      · trivial

theorem encodable_quickLine (opcode : BitVec 16) : (quickLine opcode).Encodable := by
  unfold quickLine
  split
  · exact encodable_withMode fun _ admitted => (Bool.and_eq_true_iff.mp admitted).1
  · split
    · trivial
    · exact encodable_withMode fun _ admitted => admitted

theorem encodable_branchLine (opcode : BitVec 16) : (branchLine opcode).Encodable := by
  unfold branchLine
  split <;> trivial

theorem encodable_logic (opcode : BitVec 16) (operation : LogicOperation) :
    (logic opcode operation).Encodable := by
  unfold logic
  split
  · exact encodable_withSizeAndMode fun _ _ admitted => admitted
  · exact encodable_withSizeAndMode fun _ _ _ => trivial

theorem encodable_decimal (opcode : BitVec 16) (operation : SumOperation) :
    (decimal opcode operation).Encodable := by
  unfold decimal
  split <;> trivial

theorem encodable_orLine (opcode : BitVec 16) : (orLine opcode).Encodable := by
  unfold orLine
  split
  · exact encodable_withMode fun _ _ => trivial
  · exact encodable_withMode fun _ _ => trivial
  · split
    · exact encodable_decimal opcode _
    · exact encodable_logic opcode _
  · exact encodable_logic opcode _

theorem encodable_andLine (opcode : BitVec 16) : (andLine opcode).Encodable := by
  unfold andLine
  dsimp only
  split
  · exact encodable_withMode fun _ _ => trivial
  · exact encodable_withMode fun _ _ => trivial
  · exact encodable_decimal opcode _
  · exact encodable_decimal opcode _
  · exact ⟨trivial, trivial⟩
  · exact ⟨trivial, trivial⟩
  · trivial
  · exact ⟨trivial, trivial⟩
  · exact encodable_logic opcode _

/-- The registers that the line of ADD and SUB sets apart are no memory, so that what is left can be
written. -/
theorem encodable_sumLine (opcode : BitVec 16) (operation : SumOperation) :
    (sumLine opcode operation).Encodable := by
  unfold sumLine
  dsimp only
  split
  · exact encodable_withMode fun _ _ => trivial
  · exact encodable_withMode fun _ _ => trivial
  · exact encodable_withSizeAndMode fun _ _ _ => trivial
  · exact encodable_withSizeAndMode fun _ _ _ => trivial
  · exact encodable_withSizeAndMode fun _ _ _ => trivial
  · refine encodable_withSizeAndMode fun _ mode admitted => ?_
    cases mode with
    | dataRegister y => trivial
    | addressRegister y => trivial
    | _ => exact admitted

theorem encodable_compareLine (opcode : BitVec 16) : (compareLine opcode).Encodable := by
  unfold compareLine
  dsimp only
  split
  · exact encodable_withMode fun _ _ => trivial
  · exact encodable_withMode fun _ _ => trivial
  · exact encodable_withSizeAndMode fun _ _ _ => trivial
  · exact encodable_withSizeAndMode fun _ _ _ => trivial
  · exact encodable_withSizeAndMode fun _ _ _ => trivial
  · refine encodable_withSizeAndMode fun _ mode admitted => ?_
    cases mode with
    | addressRegister y => trivial
    | _ => exact admitted

theorem quickValue_le (opcode : BitVec 16) : quickValue opcode ≤ 8 := by
  unfold quickValue
  dsimp only
  split
  · exact Nat.le_refl 8
  · exact Nat.le_of_lt (opcode.extractLsb' 9 3).isLt

theorem encodable_shiftLine (opcode : BitVec 16) : (shiftLine opcode).Encodable := by
  unfold shiftLine
  dsimp only
  split
  · cases opcode.getLsbD 5 with
    | true => trivial
    | false => exact quickValue_le opcode
  · exact encodable_withMode fun _ admitted => (Bool.and_eq_true_iff.mp admitted).2

end Decoding

open Decoding in
/-- Every opcode stands for an instruction of a form that it can have. -/
theorem Instruction.encodable_decode (opcode : BitVec 16) : (decode opcode).Encodable := by
  unfold decode
  split
  · exact encodable_immediateLine opcode
  · exact encodable_moveLine opcode
  · exact encodable_moveLine opcode
  · exact encodable_moveLine opcode
  · exact encodable_miscellaneousLine opcode
  · exact encodable_quickLine opcode
  · exact encodable_branchLine opcode
  · split <;> trivial
  · exact encodable_orLine opcode
  · exact encodable_sumLine opcode _
  · trivial
  · exact encodable_compareLine opcode
  · exact encodable_andLine opcode
  · exact encodable_sumLine opcode _
  · exact encodable_shiftLine opcode
  · trivial

end MC68000
