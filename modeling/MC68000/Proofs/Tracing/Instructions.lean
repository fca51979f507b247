import MC68000.Proofs.AccessErrors
import MC68000.Proofs.Tracing.Arithmetic

set_option autoImplicit false

namespace MC68000

variable {World : Type}

theorem Registers.get_withStatus {register : Register} (general : register.IsGeneral) (r : Registers)
    (status : StatusWord) : Registers.get { r with status } register = r.get register := by
  cases register with
  | data n => rfl
  | address n => rfl
  | _ => exact general.elim

namespace Exec

theorem ignoresTrace_setLogical (size : Size) (value : BitVec 32) (cost : Nat) :
    IgnoresTrace (do setStatus ((← status).withLogical size value); return cost : Exec World Nat) :=
  .status fun _ _ same => .bind (.setStatus (same.withLogical size value)) fun _ => ignoresTrace_pure cost

theorem ignoresTrace_move (size : Size) (source destination : AddressingMode) :
    IgnoresTrace (move size source destination : Exec World Nat) := by
  refine (ignoresTrace_loadFrom source size).bind fun value => ?_
  refine (ignoresTrace_locate destination size).bind fun target => ?_
  exact (ignoresTrace_store target size value).bind fun _ => ignoresTrace_setLogical size value _

theorem ignoresTrace_movea (size : Size) (source : AddressingMode) (n : Fin 8) :
    IgnoresTrace (movea size source n : Exec World Nat) := by
  refine (ignoresTrace_loadFrom source size).bind fun value => ?_
  exact (ignoresTrace_update fun _ _ => rfl).bind fun _ => ignoresTrace_pure _

theorem ignoresTrace_moveq (value : BitVec 8) (n : Fin 8) :
    IgnoresTrace (moveq value n : Exec World Nat) :=
  (ignoresTrace_update fun _ _ => rfl).bind fun _ => ignoresTrace_setLogical .long _ 4

theorem ignoresTrace_swap (n : Fin 8) : IgnoresTrace (swap n : Exec World Nat) := by
  refine ignoresTrace_registers (fun _ _ => rfl) fun r => ?_
  exact (ignoresTrace_update fun _ _ => rfl).bind fun _ => ignoresTrace_setLogical .long _ 4

theorem ignoresTrace_ext (size : Size) (n : Fin 8) : IgnoresTrace (ext size n : Exec World Nat) := by
  refine ignoresTrace_registers (fun _ _ => rfl) fun r => ?_
  exact (ignoresTrace_setDataPart n size _).bind fun _ => ignoresTrace_setLogical size _ 4

theorem ignoresTrace_set {register : Register} (general : register.IsGeneral) (value : BitVec 32) :
    IgnoresTrace (update (·.set register value) : Exec World Unit) := by
  cases register with
  | data n => exact ignoresTrace_update fun _ _ => rfl
  | address n => exact ignoresTrace_update fun _ _ => rfl
  | _ => exact general.elim

theorem ignoresTrace_exg {x y : Register} (hx : x.IsGeneral) (hy : y.IsGeneral) :
    IgnoresTrace (exg x y : Exec World Nat) := by
  refine (ignoresTrace_update fun r status => ?_).bind fun _ => ignoresTrace_pure 6
  cases x with
  | data n => cases y <;> first | rfl | exact hy.elim
  | address n => cases y <;> first | rfl | exact hy.elim
  | _ => exact hx.elim

theorem ignoresTrace_lea (source : AddressingMode) (n : Fin 8) :
    IgnoresTrace (lea source n : Exec World Nat) := by
  refine (ignoresTrace_effectiveAddress source).bind fun address => ?_
  exact (ignoresTrace_update fun _ _ => rfl).bind fun _ => ignoresTrace_pure _

theorem ignoresTrace_pea (source : AddressingMode) : IgnoresTrace (pea source : Exec World Nat) := by
  refine (ignoresTrace_effectiveAddress source).bind fun address => ?_
  exact (ignoresTrace_push .long address).bind fun _ => ignoresTrace_pure _

theorem ignoresTrace_link (n : Fin 8) : IgnoresTrace (link n : Exec World Nat) := by
  refine ignoresTrace_fetchDisplacement.bind fun displacement => ?_
  refine ignoresTrace_registers (fun _ _ => rfl) fun r => ?_
  refine (ignoresTrace_push .long _).bind fun _ => (ignoresTrace_update fun _ _ => rfl).bind fun _ => ?_
  exact (ignoresTrace_update fun _ _ => rfl).bind fun _ => ignoresTrace_pure 16

theorem ignoresTrace_unlk (n : Fin 8) : IgnoresTrace (unlk n : Exec World Nat) := by
  refine (ignoresTrace_update fun _ _ => rfl).bind fun _ => (ignoresTrace_pull .long).bind fun value => ?_
  exact (ignoresTrace_update fun _ _ => rfl).bind fun _ => ignoresTrace_pure 12

theorem ignoresTrace_storeDown (size : Size) {list : List Register}
    (general : ∀ register ∈ list, register.IsGeneral) (address : BitVec 32) :
    IgnoresTrace (storeDown size list address : Exec World (BitVec 32)) := by
  induction list generalizing address with
  | nil => exact ignoresTrace_pure address
  | cons register rest ih =>
    have reads := Registers.get_withStatus (general register List.mem_cons_self)
    refine ignoresTrace_registers (fun r status => by simp only [reads]) fun r => ?_
    refine (ignoresTrace_writeData size _ _).bind fun _ => ?_
    exact ih (fun r member => general r (List.mem_cons_of_mem register member)) _

theorem ignoresTrace_storeUp (size : Size) {list : List Register}
    (general : ∀ register ∈ list, register.IsGeneral) (address : BitVec 32) :
    IgnoresTrace (storeUp size list address : Exec World Unit) := by
  induction list generalizing address with
  | nil => exact ignoresTrace_pure ()
  | cons register rest ih =>
    have reads := Registers.get_withStatus (general register List.mem_cons_self)
    refine ignoresTrace_registers (fun r status => by simp only [reads]) fun r => ?_
    refine (ignoresTrace_writeData size address _).bind fun _ => ?_
    exact ih (fun r member => general r (List.mem_cons_of_mem register member)) _

theorem ignoresTrace_loadUp (space : AddressSpace) (size : Size) {list : List Register}
    (general : ∀ register ∈ list, register.IsGeneral) (address : BitVec 32) :
    IgnoresTrace (loadUp space size list address : Exec World (BitVec 32)) := by
  induction list generalizing address with
  | nil => exact ignoresTrace_pure address
  | cons register rest ih =>
    refine (ignoresTrace_read space size address).bind fun value => ?_
    refine (ignoresTrace_set (general register List.mem_cons_self) _).bind fun _ => ?_
    exact ih (fun r member => general r (List.mem_cons_of_mem register member)) _

theorem isGeneral_of_mem_listedDown {mask : BitVec 16} {register : Register}
    (member : register ∈ listedDown mask) : register.IsGeneral := by
  obtain ⟨i, -, rfl⟩ := List.mem_map.mp member
  exact isGeneral_listedRegister i.rev

theorem ignoresTrace_movemStore (size : Size) (destination : AddressingMode) :
    IgnoresTrace (movemStore size destination : Exec World Nat) := by
  refine ignoresTrace_fetchWord.bind fun mask => ?_
  dsimp only
  split
  · refine ignoresTrace_registers (fun _ _ => rfl) fun r => ?_
    refine (ignoresTrace_storeDown size (fun _ => isGeneral_of_mem_listedDown) _).bind fun address => ?_
    exact (ignoresTrace_update fun _ _ => rfl).bind fun _ => ignoresTrace_pure _
  · refine (ignoresTrace_effectiveAddress _).bind fun address => ?_
    exact (ignoresTrace_storeUp size (fun _ => isGeneral_of_mem_listedUp) address).bind fun _ =>
      ignoresTrace_pure _

theorem ignoresTrace_movemLoad (size : Size) (source : AddressingMode) :
    IgnoresTrace (movemLoad size source : Exec World Nat) := by
  refine ignoresTrace_fetchWord.bind fun mask => ?_
  have loads (space : AddressSpace) (address : BitVec 32) :
      IgnoresTrace (loadUp space size (listedUp mask) address : Exec World (BitVec 32)) :=
    ignoresTrace_loadUp space size (fun _ => isGeneral_of_mem_listedUp) address
  dsimp only
  split
  · refine ignoresTrace_dataSpace.bind fun space => ignoresTrace_registers (fun _ _ => rfl) fun r => ?_
    refine (loads space _).bind fun address => ?_
    exact (ignoresTrace_update fun _ _ => rfl).bind fun _ => ignoresTrace_pure _
  · refine (ignoresTrace_effectiveAddress _).bind fun address => ?_
    split
    · refine ignoresTrace_programSpace.bind fun space => ?_
      exact (loads space address).bind fun _ => ignoresTrace_pure _
    · refine ignoresTrace_dataSpace.bind fun space => ?_
      exact (loads space address).bind fun _ => ignoresTrace_pure _

theorem ignoresTrace_storeAlternate (bytes : List (BitVec 8)) (address : BitVec 32) :
    IgnoresTrace (storeAlternate bytes address : Exec World Unit) := by
  induction bytes generalizing address with
  | nil => exact ignoresTrace_pure ()
  | cons byte rest ih => exact (ignoresTrace_writeData .byte address _).bind fun _ => ih _

theorem ignoresTrace_loadAlternate (count : Nat) (value address : BitVec 32) :
    IgnoresTrace (loadAlternate count value address : Exec World (BitVec 32)) := by
  induction count generalizing value address with
  | zero => exact ignoresTrace_pure value
  | succ count ih => exact (ignoresTrace_readData .byte address).bind fun byte => ih _ _

theorem ignoresTrace_movepStore (size : Size) (data address : Fin 8) :
    IgnoresTrace (movepStore size data address : Exec World Nat) := by
  refine ignoresTrace_fetchDisplacement.bind fun displacement => ?_
  refine ignoresTrace_registers (fun _ _ => rfl) fun r => ?_
  exact (ignoresTrace_storeAlternate _ _).bind fun _ => ignoresTrace_pure _

theorem ignoresTrace_movepLoad (size : Size) (data address : Fin 8) :
    IgnoresTrace (movepLoad size data address : Exec World Nat) := by
  refine ignoresTrace_fetchDisplacement.bind fun displacement => ?_
  refine ignoresTrace_registers (fun _ _ => rfl) fun r => ?_
  refine (ignoresTrace_loadAlternate _ _ _).bind fun value => ?_
  exact (ignoresTrace_setDataPart data size value).bind fun _ => ignoresTrace_pure _

theorem ignoresTrace_goTo (address : BitVec 32) : IgnoresTrace (goTo address : Exec World Unit) :=
  ignoresTrace_update fun _ _ => rfl

theorem ignoresTrace_branchTarget (displacement : BitVec 8) :
    IgnoresTrace (branchTarget displacement : Exec World (BitVec 32)) := by
  refine ignoresTrace_registers (fun _ _ => rfl) fun r => ?_
  split
  · exact ignoresTrace_fetchDisplacement.bind fun _ => ignoresTrace_pure _
  · exact ignoresTrace_pure _

theorem ignoresTrace_bcc (condition : Condition) (displacement : BitVec 8) :
    IgnoresTrace (bcc condition displacement : Exec World Nat) := by
  refine (ignoresTrace_branchTarget displacement).bind fun target => .status fun old old' same => ?_
  rw [condition.holds_of_sameButTrace same]
  split
  · exact (ignoresTrace_goTo target).bind fun _ => ignoresTrace_pure 10
  · exact ignoresTrace_pure _

theorem ignoresTrace_bsr (displacement : BitVec 8) :
    IgnoresTrace (bsr displacement : Exec World Nat) := by
  refine (ignoresTrace_branchTarget displacement).bind fun target => ?_
  refine ignoresTrace_registers (fun _ _ => rfl) fun r => ?_
  refine (ignoresTrace_push .long r.pc).bind fun _ => ?_
  exact (ignoresTrace_goTo target).bind fun _ => ignoresTrace_pure 18

theorem ignoresTrace_dbcc (condition : Condition) (n : Fin 8) :
    IgnoresTrace (dbcc condition n : Exec World Nat) := by
  refine (ignoresTrace_branchTarget 0).bind fun target => .registers ?_
  rintro r _ ⟨status, rfl, same⟩
  dsimp only
  rw [condition.holds_of_sameButTrace same]
  split
  · exact ignoresTrace_pure 12
  · refine (ignoresTrace_setDataPart n .word _).bind fun _ => ?_
    split
    · exact ignoresTrace_pure 14
    · exact (ignoresTrace_goTo target).bind fun _ => ignoresTrace_pure 10

theorem ignoresTrace_scc (condition : Condition) (destination : AddressingMode) :
    IgnoresTrace (scc condition destination : Exec World Nat) := by
  refine .status fun old old' same => ?_
  dsimp only
  rw [condition.holds_of_sameButTrace same]
  refine (ignoresTrace_locate destination .byte).bind fun target => ?_
  exact (ignoresTrace_store target .byte _).bind fun _ => ignoresTrace_pure _

theorem ignoresTrace_jmp (target : AddressingMode) : IgnoresTrace (jmp target : Exec World Nat) := by
  refine (ignoresTrace_effectiveAddress target).bind fun address => ?_
  exact (ignoresTrace_goTo address).bind fun _ => ignoresTrace_pure _

theorem ignoresTrace_jsr (target : AddressingMode) : IgnoresTrace (jsr target : Exec World Nat) := by
  refine (ignoresTrace_effectiveAddress target).bind fun address => ?_
  refine ignoresTrace_registers (fun _ _ => rfl) fun r => ?_
  refine (ignoresTrace_push .long r.pc).bind fun _ => ?_
  exact (ignoresTrace_goTo address).bind fun _ => ignoresTrace_pure _

theorem ignoresTrace_rts : IgnoresTrace (rts : Exec World Nat) :=
  (ignoresTrace_pull .long).bind fun address =>
    (ignoresTrace_goTo address).bind fun _ => ignoresTrace_pure 16

theorem ignoresTrace_setConditionCodes (value : BitVec 8) :
    IgnoresTrace (update (·.setConditionCodes value) : Exec World Unit) :=
  .update fun _ _ alike => alike.setConditionCodes value

theorem ignoresTrace_rtr : IgnoresTrace (rtr : Exec World Nat) := by
  refine (ignoresTrace_pull .word).bind fun flags => (ignoresTrace_pull .long).bind fun pc => ?_
  refine (ignoresTrace_setConditionCodes _).bind fun _ => ?_
  exact (ignoresTrace_goTo pc).bind fun _ => ignoresTrace_pure 20

theorem ignoresTrace_trapv : IgnoresTrace (trapv : Exec World Nat) := by
  refine .status fun old old' same => ?_
  rw [same.has_eq (by decide)]
  split
  · exact ignoresTrace_throw _
  · exact ignoresTrace_pure 4

theorem ignoresTrace_setStatus (value : StatusWord) :
    IgnoresTrace (setStatus value : Exec World Unit) := .setStatus (.refl value)

theorem ignoresTrace_rte : IgnoresTrace (rte : Exec World Nat) := by
  refine ignoresTrace_requirePrivilege.bind fun _ => (ignoresTrace_pull .word).bind fun status => ?_
  refine (ignoresTrace_pull .long).bind fun pc => (ignoresTrace_setStatus _).bind fun _ => ?_
  exact (ignoresTrace_goTo pc).bind fun _ => ignoresTrace_pure 20

/-- The condition codes are computed from the condition codes alone. -/
theorem ignoresTrace_logicToCcr (operation : LogicOperation) :
    IgnoresTrace (logicToCcr operation : Exec World Nat) := by
  refine ignoresTrace_fetchWord.bind fun value => .registers fun r r' alike => ?_
  dsimp only
  rw [alike.status.and_eq (by decide)]
  exact (ignoresTrace_setConditionCodes _).bind fun _ => ignoresTrace_pure 20

theorem sameButTrace_logicOnStatus (operation : LogicOperation) {x y : StatusWord}
    (same : x.SameButTrace y) (value : StatusWord) :
    (logicOnStatus operation x value).SameButTrace (logicOnStatus operation y value) := by
  cases operation with
  | or => exact same.or (.refl value)
  | and => exact same.and (.refl value)
  | exclusiveOr => exact same.xor (.refl value)

/-- T goes into T and nothing else. -/
theorem ignoresTrace_logicToSr (operation : LogicOperation) :
    IgnoresTrace (logicToSr operation : Exec World Nat) := by
  refine ignoresTrace_requirePrivilege.bind fun _ => ignoresTrace_fetchWord.bind fun value => ?_
  refine .status fun old old' same => ?_
  exact .bind (.setStatus (sameButTrace_logicOnStatus operation same value)) fun _ => ignoresTrace_pure 20

theorem ignoresTrace_moveToCcr (source : AddressingMode) :
    IgnoresTrace (moveToCcr source : Exec World Nat) := by
  refine (ignoresTrace_loadFrom source .word).bind fun value => ?_
  exact (ignoresTrace_setConditionCodes _).bind fun _ => ignoresTrace_pure _

theorem ignoresTrace_moveToSr (source : AddressingMode) :
    IgnoresTrace (moveToSr source : Exec World Nat) := by
  refine ignoresTrace_requirePrivilege.bind fun _ => (ignoresTrace_loadFrom source .word).bind fun value => ?_
  exact (ignoresTrace_setStatus _).bind fun _ => ignoresTrace_pure _

theorem ignoresTrace_moveToUsp (n : Fin 8) : IgnoresTrace (moveToUsp n : Exec World Nat) := by
  refine ignoresTrace_requirePrivilege.bind fun _ => ?_
  refine .bind (.update fun r r' alike => ?_) fun _ => ignoresTrace_pure 4
  obtain ⟨_, rfl, _⟩ := id alike
  exact alike.setUserStack (r.a.get n)

theorem ignoresTrace_moveFromUsp (n : Fin 8) : IgnoresTrace (moveFromUsp n : Exec World Nat) := by
  refine ignoresTrace_requirePrivilege.bind fun _ => ?_
  refine .bind (.update fun r r' alike => ?_) fun _ => ignoresTrace_pure 4
  rw [alike.userStack]
  exact alike.map (f := (·.setAddress n r'.userStack)) fun _ _ => rfl

theorem ignoresTrace_signalReset : IgnoresTrace (signalReset : Exec World Unit) := by
  rintro m _ ⟨r, rfl, alike⟩
  unfold signalReset
  dsimp only
  cases m.hooks.reset with
  | none => exact ⟨rfl, r, rfl, alike⟩
  | some hook => exact ⟨rfl, r, rfl, alike⟩

theorem ignoresTrace_reset : IgnoresTrace (reset : Exec World Nat) := by
  refine ignoresTrace_requirePrivilege.bind fun _ => ?_
  exact ignoresTrace_signalReset.bind fun _ => ignoresTrace_pure 132

/-- The status word that the log shows is the new one. -/
theorem ignoresTrace_stop : IgnoresTrace (stop : Exec World Nat) := by
  refine ignoresTrace_requirePrivilege.bind fun _ => ignoresTrace_fetchWord.bind fun value => ?_
  rintro m _ ⟨r, rfl, alike⟩
  have written : (r.setStatus value).status = (m.registers.setStatus value).status := by
    rw [Registers.status_setStatus, Registers.status_setStatus]
  refine ⟨rfl, r.setStatus value, ?_, alike.setStatus (.refl value)⟩
  exact congrArg (fun status => { m.log (.stopped m.instructionAddress status) with
    registers := r.setStatus value, state := .stopped }) written

end Exec

open Exec in
/-- No instruction but MOVE from SR looks at T. -/
theorem Instruction.ignoresTrace_execute {instruction : Instruction}
    (encodable : instruction.Encodable)
    (hides : ∀ destination, instruction ≠ .moveFromSr destination) :
    IgnoresTrace (instruction.execute : Exec World Nat) := by
  cases instruction with
  | illegal => exact ignoresTrace_throw _
  | illegalPrivileged => exact ignoresTrace_requirePrivilege.bind fun _ => ignoresTrace_throw _
  | illegalExtended => exact ignoresTrace_fetchWord.bind fun _ => ignoresTrace_throw _
  | lineA => exact ignoresTrace_throw _
  | lineF => exact ignoresTrace_throw _
  | immediate operation size destination => exact ignoresTrace_immediate operation size destination
  | logicToCcr operation => exact ignoresTrace_logicToCcr operation
  | logicToSr operation => exact ignoresTrace_logicToSr operation
  | bitLiteral operation destination => exact ignoresTrace_bitLiteral operation destination
  | bitRegister operation n destination => exact ignoresTrace_bitRegister operation n destination
  | movepStore size data address => exact ignoresTrace_movepStore size data address
  | movepLoad size data address => exact ignoresTrace_movepLoad size data address
  | move size source destination => exact ignoresTrace_move size source destination
  | movea size source n => exact ignoresTrace_movea size source n
  | moveq value n => exact ignoresTrace_moveq value n
  | unary operation size destination => exact ignoresTrace_unary operation size destination
  | nbcd destination => exact ignoresTrace_nbcd destination
  | tst size source => exact ignoresTrace_tst size source
  | tas destination => exact ignoresTrace_tas destination
  | swap n => exact ignoresTrace_swap n
  | ext size n => exact ignoresTrace_ext size n
  | lea source n => exact ignoresTrace_lea source n
  | pea source => exact ignoresTrace_pea source
  | chk bound n => exact ignoresTrace_chk bound n
  | jmp target => exact ignoresTrace_jmp target
  | jsr target => exact ignoresTrace_jsr target
  | link n => exact ignoresTrace_link n
  | unlk n => exact ignoresTrace_unlk n
  | movemStore size destination => exact ignoresTrace_movemStore size destination
  | movemLoad size source => exact ignoresTrace_movemLoad size source
  | moveFromSr destination => exact absurd rfl (hides destination)
  | moveToCcr source => exact ignoresTrace_moveToCcr source
  | moveToSr source => exact ignoresTrace_moveToSr source
  | moveToUsp n => exact ignoresTrace_moveToUsp n
  | moveFromUsp n => exact ignoresTrace_moveFromUsp n
  | trap n => exact ignoresTrace_throw _
  | trapv => exact ignoresTrace_trapv
  | reset => exact ignoresTrace_reset
  | nop => exact ignoresTrace_pure 4
  | stop => exact ignoresTrace_stop
  | rte => exact ignoresTrace_rte
  | rts => exact ignoresTrace_rts
  | rtr => exact ignoresTrace_rtr
  | quick operation size value destination => exact ignoresTrace_quick operation size value destination
  | scc condition destination => exact ignoresTrace_scc condition destination
  | dbcc condition n => exact ignoresTrace_dbcc condition n
  | bcc condition displacement => exact ignoresTrace_bcc condition displacement
  | bsr displacement => exact ignoresTrace_bsr displacement
  | sumToRegister operation size source n => exact ignoresTrace_sumToRegister operation size source n
  | sumToMemory operation size n destination => exact ignoresTrace_sumToMemory operation size n destination
  | sumToAddress operation size source n => exact ignoresTrace_sumToAddress operation size source n
  | extendedRegisters operation size x y => exact ignoresTrace_extendedRegisters operation size x y
  | extendedMemory operation size x y => exact ignoresTrace_extendedMemory operation size x y
  | cmp size source n => exact ignoresTrace_cmp size source n
  | cmpa size source n => exact ignoresTrace_cmpa size source n
  | cmpm size x y => exact ignoresTrace_cmpm size x y
  | logicToRegister operation size source n => exact ignoresTrace_logicToRegister operation size source n
  | logicToMemory operation size n destination =>
    exact ignoresTrace_logicToMemory operation size n destination
  | eor size n destination => exact ignoresTrace_eor size n destination
  | mulu source n => exact ignoresTrace_mulu source n
  | muls source n => exact ignoresTrace_muls source n
  | divu source n => exact ignoresTrace_divide source n _ _
  | divs source n => exact ignoresTrace_divide source n _ _
  | decimalRegisters operation x y => exact ignoresTrace_decimalRegisters operation x y
  | decimalMemory operation x y => exact ignoresTrace_decimalMemory operation x y
  | exg x y => exact ignoresTrace_exg encodable.1 encodable.2
  | shiftRegister kind direction size count n =>
    exact ignoresTrace_shiftRegister kind direction size count n
  | shiftMemory kind direction destination => exact ignoresTrace_shiftMemory kind direction destination

/-- Machines that are the same but for T fetch the same opcode, and execute it alike. -/
theorem Exec.nextInstruction_sameButTrace {m n : Machine World} (same : m.SameButTrace n)
    (hides : ∀ opcode destination, m.fetched? = some opcode →
      Instruction.decode opcode ≠ .moveFromSr destination) :
    Together Machine.SameButTrace (nextInstruction m) (nextInstruction n) := by
  unfold Machine.fetched? at hides
  obtain ⟨opcode, m', n', left, right, same'⟩ | ⟨e, m', n', left, right, same'⟩ :=
    (ignoresTrace_fetchWord m n same).cases
  · have next : nextInstruction m = (Instruction.decode opcode).execute { m' with opcode } :=
      bind_of_ok left
    have next' : nextInstruction n = (Instruction.decode opcode).execute { n' with opcode } :=
      bind_of_ok right
    rw [left] at hides
    rw [next, next']
    obtain ⟨r, rfl, alike⟩ := same'
    exact Instruction.ignoresTrace_execute (Instruction.encodable_decode opcode)
      (fun destination => hides opcode destination rfl) _ _ ⟨r, rfl, alike⟩
  · have fails : nextInstruction m = .error e m' := bind_of_error left
    have fails' : nextInstruction n = .error e n' := bind_of_error right
    rw [fails, fails']
    exact ⟨rfl, same'⟩

end MC68000
