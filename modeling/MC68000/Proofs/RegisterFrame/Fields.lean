import MC68000.Proofs.RegisterFrame.Actions

set_option autoImplicit false

namespace MC68000

/-- Operands in the mode move or write no register but those of one number. -/
def AddressingMode.Names (mode : AddressingMode) (n : Fin 8) : Prop :=
  ∀ register ∈ mode.moved ++ mode.direct, register = .data n ∨ register = .address n

theorem AddressingMode.Names.eq_of_address {k n : Fin 8} (names : (addressRegister k).Names n) : k = n := by
  rcases names (.address k) List.mem_cons_self with same | same <;> cases same
  rfl

theorem AddressingMode.names_of_ofFields? {mode register : BitVec 3} {found : AddressingMode}
    (h : ofFields? mode register = some found) : found.Names register.toFin := by
  have direct (n : Fin 8) : (dataRegister n).Names n := fun _ listed => .inl (List.mem_singleton.mp listed)
  have address (n : Fin 8) : (addressRegister n).Names n := fun _ listed => .inr (List.mem_singleton.mp listed)
  have up (n : Fin 8) : (postIncrement n).Names n := fun _ listed => .inr (List.mem_singleton.mp listed)
  have down (n : Fin 8) : (preDecrement n).Names n := fun _ listed => .inr (List.mem_singleton.mp listed)
  unfold ofFields? at h
  split at h
  · cases h; exact direct _
  · cases h; exact address _
  · cases h; exact List.forall_mem_nil _
  · cases h; exact up _
  · cases h; exact down _
  · cases h; exact List.forall_mem_nil _
  · cases h; exact List.forall_mem_nil _
  · split at h <;> cases h <;> exact List.forall_mem_nil _

namespace Decoding

/-- A data or address register whose number is in a field of the opcode. -/
def IsField (opcode : BitVec 16) : Register → Prop
  | .data n | .address n => n = lowRegister opcode ∨ n = highRegister opcode
  | _ => False

/-- The instruction writes registers that the opcode names. -/
def Writes (opcode : BitVec 16) (instruction : Instruction) : Prop :=
  ∀ register ∈ instruction.written, IsField opcode register

variable {opcode : BitVec 16}

theorem isField_of_names {mode : AddressingMode} {n : Fin 8} (names : mode.Names n)
    (field : n = lowRegister opcode ∨ n = highRegister opcode) :
    ∀ register ∈ mode.moved ++ mode.direct, IsField opcode register := by
  intro register listed
  rcases names register listed with same | same <;> rw [same] <;> exact field

theorem writes_nothing {instruction : Instruction} (form : instruction.written = []) :
    Writes opcode instruction := by
  rw [Writes, form]
  exact List.forall_mem_nil _

theorem writes_one {instruction : Instruction} {register : Register}
    (form : instruction.written = [register]) (field : IsField opcode register) :
    Writes opcode instruction := by
  rw [Writes, form]
  exact List.forall_mem_singleton.mpr field

theorem writes_two {instruction : Instruction} {x y : Register} (form : instruction.written = [x, y])
    (fieldX : IsField opcode x) (fieldY : IsField opcode y) : Writes opcode instruction := by
  rw [Writes, form]
  exact List.forall_mem_cons.mpr ⟨fieldX, List.forall_mem_singleton.mpr fieldY⟩

theorem writes_operand {instruction : Instruction} {mode : AddressingMode} {written : List Register}
    (form : instruction.written = mode.moved ++ [] ++ written) (names : mode.Names (lowRegister opcode))
    (fields : ∀ register ∈ written, IsField opcode register) : Writes opcode instruction := by
  rw [Writes, form, List.append_nil]
  intro register listed
  rcases List.mem_append.mp listed with moved | result
  · exact isField_of_names names (.inl rfl) register (List.mem_append_left _ moved)
  · exact fields register result

theorem writes_source {instruction : Instruction} {mode : AddressingMode}
    (form : instruction.written = mode.moved ++ [] ++ []) (names : mode.Names (lowRegister opcode)) :
    Writes opcode instruction :=
  writes_operand form names (List.forall_mem_nil _)

theorem writes_target {instruction : Instruction} {mode : AddressingMode}
    (form : instruction.written = mode.moved ++ [] ++ mode.direct)
    (names : mode.Names (lowRegister opcode)) : Writes opcode instruction :=
  writes_operand form names fun register listed =>
    isField_of_names names (.inl rfl) register (List.mem_append_right _ listed)

theorem writes_withMode {admits : AddressingMode → Bool} {instruction : AddressingMode → Instruction}
    (h : ∀ mode, mode.Names (lowRegister opcode) → Writes opcode (instruction mode)) :
    Writes opcode (withMode opcode admits instruction) := by
  unfold withMode
  split
  next found =>
    split
    · exact h _ (AddressingMode.names_of_ofFields? found)
    · exact writes_nothing rfl
  · exact writes_nothing rfl

theorem writes_withSizeAndMode {admits : Size → AddressingMode → Bool}
    {instruction : Size → AddressingMode → Instruction}
    (h : ∀ size mode, mode.Names (lowRegister opcode) → Writes opcode (instruction size mode)) :
    Writes opcode (withSizeAndMode opcode admits instruction) := by
  unfold withSizeAndMode
  split
  · exact writes_withMode (h _)
  · exact writes_nothing rfl

theorem writes_immediate (operation : ImmediateOperation) : Writes opcode (immediate opcode operation) := by
  unfold immediate
  split
  · exact writes_nothing rfl
  · exact writes_nothing rfl
  · exact writes_withSizeAndMode fun _ _ names => writes_target rfl names

theorem writes_bitLiteral : Writes opcode (bitLiteral opcode) := by
  unfold bitLiteral
  dsimp only
  split
  · exact writes_nothing rfl
  next found =>
    split
    · exact writes_nothing rfl
    · split
      · exact writes_target rfl (AddressingMode.names_of_ofFields? found)
      · exact writes_nothing rfl

theorem writes_immediateLine : Writes opcode (immediateLine opcode) := by
  unfold immediateLine
  split
  · split
    · unfold movep
      dsimp only
      split
      · exact writes_nothing rfl
      · exact writes_one rfl (.inr rfl)
    · exact writes_withMode fun _ names => writes_target rfl names
  · split
    case h_5 => exact writes_bitLiteral
    case h_8 => exact writes_nothing rfl
    all_goals exact writes_immediate _

/-- The destination of MOVE has its mode in other bits than the operands of all other instructions. -/
theorem writes_move (size : Size) {source destination : AddressingMode}
    (low : source.Names (lowRegister opcode)) (high : destination.Names (highRegister opcode)) :
    Writes opcode (.move size source destination) := by
  have form : (Instruction.move size source destination).written =
      source.moved ++ (destination.moved ++ []) ++ destination.direct := rfl
  rw [Writes, form, List.append_nil, List.append_assoc]
  intro register listed
  rcases List.mem_append.mp listed with moved | written
  · exact isField_of_names low (.inl rfl) register (List.mem_append_left _ moved)
  · exact isField_of_names high (.inr rfl) register written

theorem writes_moveLine : Writes opcode (moveLine opcode) := by
  unfold moveLine
  split
  next low high =>
    have sourceNames := AddressingMode.names_of_ofFields? low
    have names := AddressingMode.names_of_ofFields? high
    split
    · split
      · split
        · exact writes_nothing rfl
        · exact writes_operand rfl sourceNames (isField_of_names names (.inr rfl))
      · split
        · exact writes_move _ sourceNames names
        · exact writes_nothing rfl
    · exact writes_nothing rfl
  · exact writes_nothing rfl

theorem writes_movem {admits : AddressingMode → Bool} {instruction : Size → AddressingMode → Instruction}
    (form : ∀ size mode, (instruction size mode).written = mode.moved) :
    Writes opcode (movem opcode admits instruction) := by
  unfold movem
  split
  next found =>
    split
    · refine writes_source ?_ (AddressingMode.names_of_ofFields? found)
      rw [form, List.append_nil, List.append_nil]
    · exact writes_nothing rfl
  · exact writes_nothing rfl

theorem writes_control : Writes opcode (control opcode) := by
  unfold control
  split
  case h_3 => exact writes_one rfl (.inl rfl)
  case h_4 => exact writes_one rfl (.inl rfl)
  case h_6 => exact writes_one rfl (.inl rfl)
  case h_7 => split <;> exact writes_nothing rfl
  all_goals exact writes_nothing rfl

theorem writes_extensionRow : Writes opcode (extensionRow opcode) := by
  unfold extensionRow
  dsimp only
  split
  · exact writes_withMode fun _ names => writes_target rfl names
  · split
    · exact writes_one rfl (.inl rfl)
    · exact writes_withMode fun _ _ => writes_nothing rfl
  · split
    · exact writes_one rfl (.inl rfl)
    · exact writes_movem fun _ _ => rfl
  · split
    · exact writes_one rfl (.inl rfl)
    · exact writes_movem fun _ _ => rfl

theorem writes_unary (operation : UnaryOperation) : Writes opcode (unary opcode operation) :=
  writes_withSizeAndMode fun _ _ names => writes_target rfl names

theorem writes_moveToSr : Writes opcode (moveToSr opcode) := by
  unfold moveToSr
  split
  next found =>
    split
    · exact writes_source rfl (AddressingMode.names_of_ofFields? found)
    · exact writes_nothing rfl
  · exact writes_nothing rfl

theorem writes_miscellaneousLine : Writes opcode (miscellaneousLine opcode) := by
  unfold miscellaneousLine
  dsimp only
  split
  · split
    · exact writes_withMode fun _ _ => writes_one rfl (.inr rfl)
    · exact writes_withMode fun _ names => writes_source rfl names
    · exact writes_nothing rfl
  · split
    · split
      · exact writes_unary _
      · exact writes_withMode fun _ names => writes_target rfl names
    · split
      · exact writes_unary _
      · exact writes_nothing rfl
    · split
      · exact writes_unary _
      · exact writes_withMode fun _ names => writes_source rfl names
    · split
      · exact writes_unary _
      · exact writes_moveToSr
    · exact writes_extensionRow
    · split
      · exact writes_withSizeAndMode fun _ _ names => writes_source rfl names
      · exact writes_withMode fun _ names => writes_target rfl names
    · split
      · exact writes_movem fun _ _ => rfl
      · exact writes_nothing rfl
    · split
      · exact writes_control
      · exact writes_withMode fun _ _ => writes_nothing rfl
      · exact writes_withMode fun _ _ => writes_nothing rfl
      · exact writes_nothing rfl

theorem writes_quickLine : Writes opcode (quickLine opcode) := by
  unfold quickLine
  split
  · exact writes_withMode fun _ names => writes_target rfl names
  · split
    · exact writes_one rfl (.inl rfl)
    · exact writes_withMode fun _ names => writes_target rfl names

theorem writes_branchLine : Writes opcode (branchLine opcode) := by
  unfold branchLine
  split <;> exact writes_nothing rfl

/-- An operand in the mode of the lowest six bits, for the register in bits 9 to 11. -/
theorem writes_toRegister {instruction : Instruction} {mode : AddressingMode} {register : Register}
    (form : instruction.written = mode.moved ++ [] ++ [register])
    (names : mode.Names (lowRegister opcode)) (field : IsField opcode register) :
    Writes opcode instruction := writes_operand form names (List.forall_mem_singleton.mpr field)

theorem writes_logic (operation : LogicOperation) : Writes opcode (logic opcode operation) := by
  unfold logic
  split
  · exact writes_withSizeAndMode fun _ _ names => writes_target rfl names
  · exact writes_withSizeAndMode fun _ _ names => writes_toRegister rfl names (.inr rfl)

theorem writes_decimal (operation : SumOperation) : Writes opcode (decimal opcode operation) := by
  unfold decimal
  split
  · exact writes_two rfl (.inl rfl) (.inr rfl)
  · exact writes_one rfl (.inr rfl)

theorem writes_orLine : Writes opcode (orLine opcode) := by
  unfold orLine
  split
  · exact writes_withMode fun _ names => writes_toRegister rfl names (.inr rfl)
  · exact writes_withMode fun _ names => writes_toRegister rfl names (.inr rfl)
  · split
    · exact writes_decimal _
    · exact writes_logic _
  · exact writes_logic _

theorem writes_andLine : Writes opcode (andLine opcode) := by
  unfold andLine
  dsimp only
  split
  · exact writes_withMode fun _ names => writes_toRegister rfl names (.inr rfl)
  · exact writes_withMode fun _ names => writes_toRegister rfl names (.inr rfl)
  · exact writes_decimal _
  · exact writes_decimal _
  · exact writes_two rfl (.inr rfl) (.inl rfl)
  · exact writes_two rfl (.inr rfl) (.inl rfl)
  · exact writes_nothing rfl
  · exact writes_two rfl (.inr rfl) (.inl rfl)
  · exact writes_logic _

theorem writes_sumLine (operation : SumOperation) : Writes opcode (sumLine opcode operation) := by
  unfold sumLine
  dsimp only
  split
  · exact writes_withMode fun _ names => writes_toRegister rfl names (.inr rfl)
  · exact writes_withMode fun _ names => writes_toRegister rfl names (.inr rfl)
  · exact writes_withSizeAndMode fun _ _ names => writes_toRegister rfl names (.inr rfl)
  · exact writes_withSizeAndMode fun _ _ names => writes_toRegister rfl names (.inr rfl)
  · exact writes_withSizeAndMode fun _ _ names => writes_toRegister rfl names (.inr rfl)
  · refine writes_withSizeAndMode fun _ mode names => ?_
    cases mode with
    | dataRegister y => exact writes_one rfl (.inr rfl)
    | addressRegister y => exact writes_two rfl (.inl names.eq_of_address) (.inr rfl)
    | _ => exact writes_target rfl names

theorem writes_compareLine : Writes opcode (compareLine opcode) := by
  unfold compareLine
  dsimp only
  split
  · exact writes_withMode fun _ names => writes_source rfl names
  · exact writes_withMode fun _ names => writes_source rfl names
  · exact writes_withSizeAndMode fun _ _ names => writes_source rfl names
  · exact writes_withSizeAndMode fun _ _ names => writes_source rfl names
  · exact writes_withSizeAndMode fun _ _ names => writes_source rfl names
  · refine writes_withSizeAndMode fun _ mode names => ?_
    cases mode with
    | addressRegister y => exact writes_two rfl (.inl names.eq_of_address) (.inr rfl)
    | _ => exact writes_target rfl names

theorem writes_shiftLine : Writes opcode (shiftLine opcode) := by
  unfold shiftLine
  dsimp only
  split
  · exact writes_one rfl (.inl rfl)
  · exact writes_withMode fun _ names => writes_target rfl names

end Decoding

open Decoding in
/-- Every opcode names the registers that its instruction writes. -/
theorem Instruction.writes_decode (opcode : BitVec 16) : Writes opcode (decode opcode) := by
  unfold decode
  split
  · exact writes_immediateLine
  · exact writes_moveLine
  · exact writes_moveLine
  · exact writes_moveLine
  · exact writes_miscellaneousLine
  · exact writes_quickLine
  · exact writes_branchLine
  · split
    · exact writes_nothing rfl
    · exact writes_one rfl (.inr rfl)
  · exact writes_orLine
  · exact writes_sumLine _
  · exact writes_nothing rfl
  · exact writes_compareLine
  · exact writes_andLine
  · exact writes_sumLine _
  · exact writes_shiftLine
  · exact writes_nothing rfl

end MC68000
