import MC68000.Proofs.Length.Operations

set_option autoImplicit false

namespace MC68000.Exec

variable {World : Type}

theorem takes_immediate (operation : ImmediateOperation) (size : Size) (destination : AddressingMode) :
    Takes (size.cycles + destination.words size)
      (immediate operation size destination : Exec World Nat) := by
  refine (takes_fetchImmediate size).bind fun source => ?_
  refine (takes_locate destination size).andThen fun target => ?_
  refine (takes_load target size).andThen fun value => takes_status.andThen fun old => ?_
  dsimp only
  split
  · exact (takes_setStatus _).giving _
  · refine (takes_store target size _).andThen fun _ => ?_
    exact (takes_setStatus _).giving _

theorem takes_combine (size : Size) (destination : AddressingMode)
    (compute : BitVec 32 → Registers → Arithmetic.Outcome) (cost : Nat) :
    Takes (destination.words size) (do
      let target ← locate destination size
      let value ← load target size
      let r ← registers
      let (result, flags) := compute value r
      store target size result
      setStatus flags
      return cost : Exec World Nat) := by
  refine (takes_locate destination size).andThen fun target => ?_
  refine (takes_load target size).andThen fun _ => takes_registers.andThen fun _ => ?_
  exact (takes_store target size _).andThen fun _ => (takes_setStatus _).giving _

theorem takes_sumToMemory (operation : SumOperation) (size : Size) (n : Fin 8)
    (destination : AddressingMode) :
    Takes (destination.words size) (sumToMemory operation size n destination : Exec World Nat) :=
  takes_combine size destination
    (fun value r => operation.apply size (r.d.get n) value r.status) _

theorem takes_logicToMemory (operation : LogicOperation) (size : Size) (n : Fin 8)
    (destination : AddressingMode) :
    Takes (destination.words size) (logicToMemory operation size n destination : Exec World Nat) :=
  takes_combine size destination
    (fun value r => Arithmetic.logical size (operation.apply value (r.d.get n)) r.status) _

theorem takes_eor (size : Size) (n : Fin 8) (destination : AddressingMode) :
    Takes (destination.words size) (eor size n destination : Exec World Nat) :=
  takes_combine size destination
    (fun value r => Arithmetic.logical size (value ^^^ r.d.get n) r.status) _

theorem takes_sumToAddress (operation : SumOperation) (size : Size) (source : AddressingMode)
    (n : Fin 8) :
    Takes (source.words size) (sumToAddress operation size source n : Exec World Nat) := by
  refine (takes_loadFrom source size).andThen fun _ => ?_
  exact (takes_update (by simp)).giving _

theorem takes_extendedRegisters (operation : SumOperation) (size : Size) (x y : Fin 8) :
    Takes 0 (extendedRegisters operation size x y : Exec World Nat) := by
  refine takes_registers.andThen fun _ => (takes_update (by simp)).andThen fun _ => ?_
  exact (takes_setStatus _).giving _

theorem takes_cmp (size : Size) (source : AddressingMode) (n : Fin 8) :
    Takes (source.words size) (cmp size source n : Exec World Nat) := by
  refine (takes_loadFrom source size).andThen fun _ => takes_registers.andThen fun _ => ?_
  exact (takes_setStatus _).giving _

theorem takes_cmpa (size : Size) (source : AddressingMode) (n : Fin 8) :
    Takes (source.words size) (cmpa size source n : Exec World Nat) := by
  refine (takes_loadFrom source size).andThen fun _ => takes_registers.andThen fun _ => ?_
  exact (takes_setStatus _).giving _

theorem takes_cmpm (size : Size) (x y : Fin 8) :
    Takes 0 (cmpm size x y : Exec World Nat) := by
  refine (takes_loadFrom (.postIncrement y) size).andThen fun _ => ?_
  refine (takes_loadFrom (.postIncrement x) size).andThen fun _ => takes_status.andThen fun _ => ?_
  exact (takes_setStatus _).giving _

theorem takes_quick (operation : SumOperation) (size : Size) (value : BitVec 32)
    (destination : AddressingMode) :
    Takes (destination.words size) (quick operation size value destination : Exec World Nat) := by
  unfold quick
  split
  · exact (takes_update (by simp)).giving _
  · exact (takes_readModifyWrite _ size _).giving _

theorem takes_tst (size : Size) (source : AddressingMode) :
    Takes (source.words size) (tst size source : Exec World Nat) := by
  refine (takes_loadFrom source size).andThen fun _ => takes_status.andThen fun _ => ?_
  exact (takes_setStatus _).giving _

/-- A bit operation works on a long or a byte; the modes that it admits take as many words for either. -/
theorem takes_bit (operation : BitOperation) (number : BitVec 32) (destination : AddressingMode) :
    Takes (destination.words .byte) (bit operation number destination : Exec World Nat) := by
  have located (size : Size) (register : size ≠ .byte → ∃ n, destination = .dataRegister n) :
      Takes (destination.words .byte) (locate destination size : Exec World Operand) := by
    by_cases byte : size = .byte
    · rw [byte]
      exact takes_locate destination .byte
    · obtain ⟨n, rfl⟩ := register byte
      exact takes_locate (.dataRegister n) size
  refine (located _ fun long => ?register).andThen fun target => ?rest
  case register =>
    cases destination with
    | dataRegister n => exact ⟨n, rfl⟩
    | _ => exact absurd rfl long
  case rest =>
    refine (takes_load target _).andThen fun _ => takes_status.andThen fun _ => ?_
    refine (takes_setStatus _).andThen fun _ => ?_
    dsimp only
    split
    · exact takes_pure _
    · exact (takes_store target _ _).giving _

theorem takes_bitLiteral (operation : BitOperation) (destination : AddressingMode) :
    Takes (1 + destination.words .byte) (bitLiteral operation destination : Exec World Nat) := by
  refine (takes_fetchImmediate .byte).bind fun number => ?_
  exact (takes_bit operation number destination).giving _

theorem takes_bitRegister (operation : BitOperation) (n : Fin 8) (destination : AddressingMode) :
    Takes (destination.words .byte) (bitRegister operation n destination : Exec World Nat) :=
  takes_registers.after fun r => takes_bit operation (r.d.get n) destination

theorem takes_tas (destination : AddressingMode) :
    Takes (destination.words .byte) (tas destination : Exec World Nat) := by
  refine (takes_locate destination .byte).andThen fun target => ?_
  refine (takes_load target .byte).andThen fun _ => takes_status.andThen fun _ => ?_
  refine (takes_setStatus _).andThen fun _ => ?_
  exact (takes_store target .byte _).giving _

theorem takes_decimalRegisters (operation : SumOperation) (x y : Fin 8) :
    Takes 0 (decimalRegisters operation x y : Exec World Nat) := by
  refine takes_registers.andThen fun _ => (takes_update (by simp)).andThen fun _ => ?_
  exact (takes_setStatus _).giving _

theorem takes_setProduct (n : Fin 8) (product : BitVec 32) :
    Takes 0 (setProduct n product : Exec World Unit) := by
  refine (takes_update (by simp)).andThen fun _ => takes_status.andThen fun _ => ?_
  exact takes_setStatus _

theorem takes_mulu (source : AddressingMode) (n : Fin 8) :
    Takes (source.words .word) (mulu source n : Exec World Nat) := by
  refine (takes_loadFrom source .word).andThen fun _ => takes_registers.andThen fun _ => ?_
  exact (takes_setProduct n _).giving _

theorem takes_muls (source : AddressingMode) (n : Fin 8) :
    Takes (source.words .word) (muls source n : Exec World Nat) := by
  refine (takes_loadFrom source .word).andThen fun _ => takes_registers.andThen fun _ => ?_
  exact (takes_setProduct n _).giving _

theorem takes_divide (source : AddressingMode) (n : Fin 8)
    (quotient? : BitVec 32 → BitVec 16 → Option Arithmetic.Quotient)
    (cost : BitVec 32 → BitVec 16 → Nat) :
    Takes (source.words .word) (divide source n quotient? cost : Exec World Nat) := by
  refine (takes_loadFrom source .word).andThen fun _ => takes_registers.andThen fun _ => ?_
  dsimp only
  split
  · exact (takes_setStatus _).andThen fun _ => takes_throw _
  · split
    · exact (takes_setStatus _).giving _
    · refine (takes_update (by simp)).andThen fun _ => ?_
      exact (takes_setStatus _).giving _

theorem takes_chk (bound : AddressingMode) (n : Fin 8) :
    Takes (bound.words .word) (chk bound n : Exec World Nat) := by
  refine (takes_loadFrom bound .word).andThen fun _ => takes_registers.andThen fun _ => ?_
  dsimp only
  split
  · exact (takes_setStatus _).andThen fun _ => takes_throw _
  · exact (takes_setStatus _).giving _

theorem takes_shiftRegister (kind : Arithmetic.ShiftKind) (direction : Arithmetic.Direction)
    (size : Size) (count : ShiftCount) (n : Fin 8) :
    Takes 0 (shiftRegister kind direction size count n : Exec World Nat) := by
  refine takes_registers.andThen fun _ => (takes_update (by simp)).andThen fun _ => ?_
  exact (takes_setStatus _).giving _

theorem takes_move (size : Size) (source destination : AddressingMode) :
    Takes (source.words size + destination.words size)
      (move size source destination : Exec World Nat) := by
  refine (takes_loadFrom source size).bind fun _ => ?_
  refine (takes_locate destination size).andThen fun target => ?_
  refine (takes_store target size _).andThen fun _ => takes_status.andThen fun _ => ?_
  exact (takes_setStatus _).giving _

theorem takes_movea (size : Size) (source : AddressingMode) (n : Fin 8) :
    Takes (source.words size) (movea size source n : Exec World Nat) := by
  refine (takes_loadFrom source size).andThen fun _ => ?_
  exact (takes_update (by simp)).giving _

theorem takes_moveq (value : BitVec 8) (n : Fin 8) :
    Takes 0 (moveq value n : Exec World Nat) := by
  refine (takes_update (by simp)).andThen fun _ => takes_status.andThen fun _ => ?_
  exact (takes_setStatus _).giving _

theorem takes_swap (n : Fin 8) : Takes 0 (swap n : Exec World Nat) := by
  refine takes_registers.andThen fun _ => (takes_update (by simp)).andThen fun _ => ?_
  exact takes_status.andThen fun _ => (takes_setStatus _).giving _

theorem takes_ext (size : Size) (n : Fin 8) : Takes 0 (ext size n : Exec World Nat) := by
  refine takes_registers.andThen fun _ => (takes_update (by simp)).andThen fun _ => ?_
  exact takes_status.andThen fun _ => (takes_setStatus _).giving _

theorem takes_exg {x y : Register} (hx : x.IsGeneral) (hy : y.IsGeneral) :
    Takes 0 (exg x y : Exec World Nat) := by
  refine (takes_update fun r => ?_).giving _
  rw [Registers.pc_set _ _ hy, Registers.pc_set _ _ hx]

theorem takes_lea (source : AddressingMode) (n : Fin 8) :
    Takes (source.words .long) (lea source n : Exec World Nat) := by
  refine (takes_effectiveAddress source).andThen fun _ => ?_
  exact (takes_update (by simp)).giving _

theorem takes_pea (source : AddressingMode) :
    Takes (source.words .long) (pea source : Exec World Nat) := by
  refine (takes_effectiveAddress source).andThen fun address => ?_
  exact (takes_push .long address).giving _

theorem takes_link (n : Fin 8) : Takes 1 (link n : Exec World Nat) := by
  refine takes_fetchDisplacement.andThen fun _ => takes_registers.andThen fun _ => ?_
  refine (takes_push .long _).andThen fun _ => (takes_update (by simp)).andThen fun _ => ?_
  exact (takes_update (by simp)).giving _

theorem takes_unlk (n : Fin 8) : Takes 0 (unlk n : Exec World Nat) := by
  refine (takes_update (by simp)).andThen fun _ => (takes_pull .long).andThen fun _ => ?_
  exact (takes_update (by simp)).giving _

theorem takes_storeDown (size : Size) (list : List Register) (address : BitVec 32) :
    Takes 0 (storeDown size list address : Exec World (BitVec 32)) := by
  induction list generalizing address with
  | nil => exact takes_pure _
  | cons register rest ih =>
    exact takes_registers.andThen fun _ => (takes_writeData size _ _).andThen fun _ => ih _

theorem takes_storeUp (size : Size) (list : List Register) (address : BitVec 32) :
    Takes 0 (storeUp size list address : Exec World Unit) := by
  induction list generalizing address with
  | nil => exact takes_pure _
  | cons register rest ih =>
    exact takes_registers.andThen fun _ => (takes_writeData size _ _).andThen fun _ => ih _

/-- A register list names no program counter. -/
theorem takes_loadUp (space : AddressSpace) (size : Size) {list : List Register}
    (general : ∀ register ∈ list, register.IsGeneral) (address : BitVec 32) :
    Takes 0 (loadUp space size list address : Exec World (BitVec 32)) := by
  induction list generalizing address with
  | nil => exact takes_pure _
  | cons register rest ih =>
    have head := general register List.mem_cons_self
    refine (takes_read space size address).andThen fun value => ?_
    refine (takes_update fun r => Registers.pc_set r _ head).andThen fun _ => ?_
    exact ih (fun r member => general r (List.mem_cons_of_mem register member)) _

theorem takes_movemStore (size : Size) (destination : AddressingMode) :
    Takes (1 + destination.words .long) (movemStore size destination : Exec World Nat) := by
  refine takes_fetchWord.bind fun mask => ?_
  dsimp only
  split
  · refine takes_registers.andThen fun _ => (takes_storeDown size _ _).andThen fun _ => ?_
    exact (takes_update (by simp)).giving _
  · refine (takes_effectiveAddress _).andThen fun address => ?_
    exact (takes_storeUp size _ address).giving _

theorem takes_movemLoad (size : Size) (source : AddressingMode) :
    Takes (1 + source.words .long) (movemLoad size source : Exec World Nat) := by
  refine takes_fetchWord.bind fun mask => ?_
  have general : ∀ register ∈ listedUp mask, register.IsGeneral :=
    fun _ member => isGeneral_of_mem_listedUp member
  have space (pick : Machine World → AddressSpace) :
      Takes 0 (fun m => .ok (pick m) m : Exec World AddressSpace) := fun m => takes_pure (pick m) m
  dsimp only
  split
  · refine (space Machine.dataSpace).andThen fun space => takes_registers.andThen fun _ => ?_
    refine (takes_loadUp space size general _).andThen fun _ => ?_
    exact (takes_update (by simp)).giving _
  · refine (takes_effectiveAddress _).andThen fun address => ?_
    split
    · refine (space Machine.programSpace).andThen fun space => ?_
      exact (takes_loadUp space size general address).giving _
    · refine (space Machine.dataSpace).andThen fun space => ?_
      exact (takes_loadUp space size general address).giving _

theorem takes_storeAlternate (bytes : List (BitVec 8)) (address : BitVec 32) :
    Takes 0 (storeAlternate bytes address : Exec World Unit) := by
  induction bytes generalizing address with
  | nil => exact takes_pure _
  | cons byte rest ih => exact (takes_writeData .byte _ _).andThen fun _ => ih _

theorem takes_loadAlternate (count : Nat) (value address : BitVec 32) :
    Takes 0 (loadAlternate count value address : Exec World (BitVec 32)) := by
  induction count generalizing value address with
  | zero => exact takes_pure _
  | succ count ih => exact (takes_readData .byte _).andThen fun _ => ih _ _

theorem takes_movepStore (size : Size) (data address : Fin 8) :
    Takes 1 (movepStore size data address : Exec World Nat) := by
  refine takes_fetchDisplacement.andThen fun _ => takes_registers.andThen fun _ => ?_
  exact (takes_storeAlternate _ _).giving _

theorem takes_movepLoad (size : Size) (data address : Fin 8) :
    Takes 1 (movepLoad size data address : Exec World Nat) := by
  refine takes_fetchDisplacement.andThen fun _ => takes_registers.andThen fun _ => ?_
  refine (takes_loadAlternate _ _ _).andThen fun _ => ?_
  exact (takes_update (by simp)).giving _

theorem takes_logicToCcr (operation : LogicOperation) :
    Takes 1 (logicToCcr operation : Exec World Nat) := by
  refine takes_fetchWord.andThen fun _ => takes_registers.andThen fun _ => ?_
  exact (takes_update (by simp)).giving _

theorem takes_logicToSr (operation : LogicOperation) :
    Takes 1 (logicToSr operation : Exec World Nat) := by
  refine takes_requirePrivilege.after fun _ => takes_fetchWord.andThen fun _ => ?_
  exact takes_status.andThen fun _ => (takes_setStatus _).giving _

theorem takes_moveFromSr (destination : AddressingMode) :
    Takes (destination.words .word) (moveFromSr destination : Exec World Nat) := by
  refine (takes_locate destination .word).andThen fun target => takes_status.andThen fun _ => ?_
  exact (takes_store target .word _).giving _

theorem takes_moveToCcr (source : AddressingMode) :
    Takes (source.words .word) (moveToCcr source : Exec World Nat) := by
  refine (takes_loadFrom source .word).andThen fun _ => ?_
  exact (takes_update (by simp)).giving _

theorem takes_moveToSr (source : AddressingMode) :
    Takes (source.words .word) (moveToSr source : Exec World Nat) := by
  refine takes_requirePrivilege.after fun _ => (takes_loadFrom source .word).andThen fun _ => ?_
  exact (takes_setStatus _).giving _

theorem takes_moveToUsp (n : Fin 8) : Takes 0 (moveToUsp n : Exec World Nat) := by
  refine takes_requirePrivilege.andThen fun _ => ?_
  exact (takes_update (by simp)).giving _

theorem takes_moveFromUsp (n : Fin 8) : Takes 0 (moveFromUsp n : Exec World Nat) := by
  refine takes_requirePrivilege.andThen fun _ => ?_
  exact (takes_update (by simp)).giving _

theorem takes_reset : Takes 0 (reset : Exec World Nat) := by
  have signal : Takes 0 (signalReset : Exec World Unit) := by
    intro m
    unfold signalReset
    cases m.hooks.reset <;> exact takes_pure () _
  exact takes_requirePrivilege.andThen fun _ => signal.giving _

theorem takes_stop : Takes 1 (stop : Exec World Nat) := by
  have await : Takes 0 (awaitInterrupt : Exec World Unit) := fun m => takes_pure () m
  refine takes_requirePrivilege.after fun _ => takes_fetchWord.andThen fun _ => ?_
  exact (takes_setStatus _).andThen fun _ => await.giving _

theorem takes_trapv : Takes 0 (trapv : Exec World Nat) := by
  refine takes_status.andThen fun _ => ?_
  split
  · exact takes_throw _
  · exact takes_pure _

theorem takes_scc (condition : Condition) (destination : AddressingMode) :
    Takes (destination.words .byte) (scc condition destination : Exec World Nat) := by
  refine takes_status.after fun _ => (takes_locate destination .byte).andThen fun target => ?_
  exact (takes_store target .byte _).giving _

end MC68000.Exec
