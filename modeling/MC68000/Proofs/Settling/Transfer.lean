import MC68000.Proofs.Settling
import MC68000.Proofs.Ordinary.Transfer

set_option autoImplicit false

namespace MC68000.Exec

variable {World : Type} {bits : StatusWord} {data : Prop}

theorem settles_move (size : Size) (source destination : AddressingMode) :
    Settles bits data 1 (move size source destination : Exec World Nat) := by
  have loaded := Timing.operand_covers source size
  have stored := Timing.moveDestination_covers destination size
  apply (accesses_loadFrom source size).settles
  intro value
  apply (spares_locate destination size).settles
  intro target located
  apply (commits_store located size value).settles
  intro _
  apply Silent.status
  intro old
  apply Silent.setStatus
  apply Silent.pure
  omega

theorem settles_movea (size : Size) (source : AddressingMode) (n : Fin 8) :
    Settles bits data 1 (movea size source n : Exec World Nat) := by
  have loaded := Timing.operand_covers source size
  apply (accesses_loadFrom source size).settles
  intro value
  apply Silent.settles
  apply Silent.update
  apply Silent.pure
  omega

theorem settles_moveq (value : BitVec 8) (n : Fin 8) :
    Settles bits data 1 (moveq value n : Exec World Nat) := by
  apply Silent.settles
  apply Silent.update
  apply Silent.status
  intro old
  apply Silent.setStatus
  exact .pure (by decide)

theorem settles_swap (n : Fin 8) : Settles bits data 1 (swap n : Exec World Nat) := by
  apply Silent.settles
  apply Silent.registers
  intro r
  apply Silent.update
  apply Silent.status
  intro old
  apply Silent.setStatus
  exact .pure (by decide)

theorem settles_ext (size : Size) (n : Fin 8) :
    Settles bits data 1 (ext size n : Exec World Nat) := by
  apply Silent.settles
  apply Silent.registers
  intro r
  apply Silent.update
  apply Silent.status
  intro old
  apply Silent.setStatus
  exact .pure (by decide)

theorem settles_exg (x y : Register) : Settles bits data 1 (exg x y : Exec World Nat) := by
  apply Silent.settles
  apply Silent.update
  exact .pure (by decide)

theorem settles_lea {source : AddressingMode} (control : source.isControl = true) (n : Fin 8) :
    Settles bits data 1 (lea source n : Exec World Nat) := by
  have cost : 4 * (1 + source.words .long) ≤ Timing.lea source :=
    Timing.control_covers control (by decide) (by decide) (by decide) (by decide) (by decide)
  apply (accesses_effectiveAddress source).settles
  intro address
  apply Silent.settles
  apply Silent.update
  exact .pure cost

theorem settles_pea {source : AddressingMode} (control : source.isControl = true) :
    Settles bits data 1 (pea source : Exec World Nat) := by
  have cost : 4 * (3 + source.words .long) ≤ Timing.pea source :=
    Timing.control_covers control (by decide) (by decide) (by decide) (by decide) (by decide)
  have long : Size.long.cycles = 2 := rfl
  apply (accesses_effectiveAddress source).settles
  intro address
  apply (accesses_push .long address).settles
  intro _
  apply Silent.settles
  apply Silent.pure
  omega

theorem settles_link (n : Fin 8) : Settles bits data 1 (link n : Exec World Nat) := by
  apply accesses_fetchDisplacement.settles
  intro displacement
  apply accesses_registers.settles
  intro r
  apply (accesses_push .long _).settles
  intro _
  apply Silent.settles
  apply Silent.update
  apply Silent.update
  exact .pure (by decide)

theorem settles_unlk (n : Fin 8) : Settles bits data 1 (unlk n : Exec World Nat) := by
  apply (accesses_setAddress 7 fun r => r.a.get n).settles
  intro _
  apply (accesses_pull .long).settles
  intro value
  apply Silent.settles
  apply Silent.update
  exact .pure (by decide)

theorem length_listedDown (mask : BitVec 16) :
    (listedDown mask).length = (listedUp mask).length := by
  rw [listedDown, listedUp, List.length_map, List.length_map]

theorem accesses_storeDown (size : Size) (list : List Register) (address : BitVec 32) :
    Accesses bits data (size.cycles * list.length)
      (storeDown size list address : Exec World (BitVec 32)) := by
  induction list generalizing address with
  | nil => exact .pure trivial
  | cons register rest ih =>
    rw [List.length_cons, Nat.mul_succ, Nat.add_comm]
    apply accesses_registers.first
    intro r
    apply Accesses.andThen (accesses_writeData size _ _)
    exact fun _ => ih _

theorem accesses_storeUp (size : Size) (list : List Register) (address : BitVec 32) :
    Accesses bits data (size.cycles * list.length)
      (storeUp size list address : Exec World Unit) := by
  induction list generalizing address with
  | nil => exact .pure trivial
  | cons register rest ih =>
    rw [List.length_cons, Nat.mul_succ, Nat.add_comm]
    apply accesses_registers.first
    intro r
    exact (accesses_writeData size address _).andThen fun _ => ih _

/-- The data registers change on the way, the status word does not. -/
theorem accesses_loadUp (space : AddressSpace) (size : Size) (list : List Register)
    (general : ∀ register ∈ list, register.IsGeneral) (address : BitVec 32) :
    Accesses bits False (size.cycles * list.length)
      (loadUp space size list address : Exec World (BitVec 32)) := by
  induction list generalizing address with
  | nil => exact .pure trivial
  | cons register rest ih =>
    have tail := ih fun r member => general r (List.mem_cons_of_mem register member)
    have kept (value : BitVec 32) (r : Registers) : r.Kept bits False (r.set register value) := by
      have head := general register List.mem_cons_self
      cases register with
      | data n => exact ⟨rfl, False.elim⟩
      | address n => exact ⟨rfl, False.elim⟩
      | shadow => exact head.elim
      | pc => exact head.elim
      | status => exact head.elim
    rw [List.length_cons, Nat.mul_succ, Nat.add_comm]
    apply (accesses_read space size address).andThen
    intro value
    exact (accesses_update (kept _)).first fun _ => tail _

theorem covers_each (size : Size) (count : Nat) :
    4 * (size.cycles * count) ≤ Timing.bySize size 4 8 * count := by
  have each : 4 * size.cycles ≤ Timing.bySize size 4 8 := by cases size <;> decide
  have all := Nat.mul_le_mul_right count each
  rwa [Nat.mul_assoc] at all

theorem movemStore_covers {mode : AddressingMode} (control : mode.isControl = true) (size : Size)
    (count : Nat) :
    4 * (2 + mode.words .long + size.cycles * count) ≤ Timing.movemStore mode size count := by
  have found : 4 * (2 + mode.words .long) ≤ Timing.control mode 8 12 14 12 16 :=
    Timing.control_covers control (by decide) (by decide) (by decide) (by decide) (by decide)
  have each := covers_each size count
  unfold Timing.movemStore
  omega

theorem settles_movemStore (size : Size) {destination : AddressingMode}
    (admitted : Decoding.admitsMovemStore destination = true) :
    Settles bits data 1 (movemStore size destination : Exec World Nat) := by
  apply accesses_fetchWord.settles
  intro mask
  dsimp only
  split
  · next n =>
    have each := covers_each size (listedUp mask).length
    apply accesses_registers.settles
    intro r
    apply (accesses_storeDown size _ _).settles
    intro address
    apply Silent.settles
    apply Silent.update
    apply Silent.pure
    rw [length_listedDown]
    change 4 * (1 + 1 + 0 + size.cycles * (listedUp mask).length) ≤ 8 + _
    omega
  · next other =>
    have control : destination.isControl = true := by
      unfold Decoding.admitsMovemStore at admitted
      split at admitted
      next n => exact (other n rfl).elim
      next => exact AddressingMode.isControl_of_isControlAlterable admitted
    apply (accesses_effectiveAddress destination).settles
    intro address
    apply (accesses_storeUp size _ address).settles
    intro _
    apply Silent.settles
    apply Silent.pure
    exact movemStore_covers control size _

/-- A failed access leaves the registers that are loaded already. -/
theorem settles_movemLoad (size : Size) {source : AddressingMode}
    (admitted : Decoding.admitsMovemLoad source = true) :
    Settles bits False 1 (movemLoad size source : Exec World Nat) := by
  have general (mask : BitVec 16) : ∀ register ∈ listedUp mask, register.IsGeneral :=
    fun register member => isGeneral_of_mem_listedUp member
  apply accesses_fetchWord.settles
  intro mask
  dsimp only
  split
  · next n =>
    have each := covers_each size (listedUp mask).length
    apply accesses_dataSpace.settles
    intro space
    apply accesses_registers.settles
    intro r
    apply (accesses_loadUp space size _ (general mask) _).settles
    intro address
    apply Silent.settles
    apply Silent.update
    apply Silent.pure
    change 4 * (1 + 1 + 0 + 0 + size.cycles * (listedUp mask).length) ≤ 4 + (8 + _)
    omega
  · next other =>
    have control : source.isControl = true := by
      unfold Decoding.admitsMovemLoad at admitted
      split at admitted
      next n => exact (other n rfl).elim
      next => exact admitted
    have cost := movemStore_covers control size (listedUp mask).length
    apply (accesses_effectiveAddress source).settles
    intro address
    have loaded (space : AddressSpace) : Settles bits False (1 + 1 + source.words .long)
        (do
          let _ ← loadUp space size (listedUp mask) address
          return Timing.movemLoad source size (listedUp mask).length : Exec World Nat) := by
      apply (accesses_loadUp space size _ (general mask) address).settles
      intro _
      apply Silent.settles
      apply Silent.pure
      unfold Timing.movemLoad
      omega
    split
    · apply accesses_programSpace.settles
      exact loaded
    · apply accesses_dataSpace.settles
      exact loaded

theorem accesses_storeAlternate (bytes : List (BitVec 8)) (address : BitVec 32) :
    Accesses bits data bytes.length (storeAlternate bytes address : Exec World Unit) := by
  induction bytes generalizing address with
  | nil => exact .pure trivial
  | cons byte rest ih =>
    rw [List.length_cons, Nat.add_comm]
    exact (accesses_writeData .byte address _).andThen fun _ => ih _

theorem accesses_loadAlternate (count : Nat) (value address : BitVec 32) :
    Accesses bits data count (loadAlternate count value address : Exec World (BitVec 32)) := by
  induction count generalizing value address with
  | zero => exact .pure trivial
  | succ count ih =>
    have whole : Accesses bits data (1 + count)
        (loadAlternate (count + 1) value address : Exec World (BitVec 32)) :=
      (accesses_readData .byte address).andThen fun _ => ih _ _
    rwa [Nat.add_comm 1] at whole

theorem length_bytesOf (size : Size) (value : BitVec 32) :
    (bytesOf size value).length = size.bytes := by
  rw [bytesOf, List.length_map, List.length_reverse, List.length_range]

theorem movep_covers (size : Size) : 4 * (2 + size.bytes) ≤ Timing.bySize size 16 24 := by
  cases size <;> decide

theorem settles_movepStore (size : Size) (from_ address : Fin 8) :
    Settles bits data 1 (movepStore size from_ address : Exec World Nat) := by
  have cost := movep_covers size
  apply accesses_fetchDisplacement.settles
  intro displacement
  apply accesses_registers.settles
  intro r
  apply (accesses_storeAlternate _ _).settles
  intro _
  apply Silent.settles
  apply Silent.pure
  rw [length_bytesOf]
  omega

theorem settles_movepLoad (size : Size) (into address : Fin 8) :
    Settles bits data 1 (movepLoad size into address : Exec World Nat) := by
  have cost := movep_covers size
  apply accesses_fetchDisplacement.settles
  intro displacement
  apply accesses_registers.settles
  intro r
  apply (accesses_loadAlternate size.bytes 0 _).settles
  intro value
  apply Silent.settles
  apply Silent.update
  apply Silent.pure
  omega

theorem accesses_goTo (address : BitVec 32) :
    Accesses bits data 0 (goTo address : Exec World Unit) :=
  accesses_update fun r => r.kept_pc address

/-- The word that a zero displacement stands for is fetched. -/
def branchWords (displacement : BitVec 8) : Nat := if displacement = 0 then 1 else 0

theorem accesses_branchTarget (displacement : BitVec 8) :
    Accesses bits data (branchWords displacement)
      (branchTarget displacement : Exec World (BitVec 32)) := by
  unfold branchTarget branchWords
  apply accesses_registers.first
  intro r
  split
  · exact accesses_fetchDisplacement.last fun _ => .pure trivial
  · exact .pure trivial

theorem settles_bcc (condition : Condition) (displacement : BitVec 8) :
    Settles bits data 1 (bcc condition displacement : Exec World Nat) := by
  apply (accesses_branchTarget displacement).settles
  intro target
  apply accesses_status.settles
  intro old
  split
  · apply (accesses_goTo target).settles
    intro _
    apply Silent.settles
    apply Silent.pure
    unfold branchWords
    split <;> decide
  · apply Silent.settles
    apply Silent.pure
    unfold branchWords
    split <;> decide

theorem settles_bsr (displacement : BitVec 8) :
    Settles bits data 1 (bsr displacement : Exec World Nat) := by
  apply (accesses_branchTarget displacement).settles
  intro target
  apply accesses_registers.settles
  intro r
  apply (accesses_push .long r.pc).settles
  intro _
  apply (accesses_goTo target).settles
  intro _
  apply Silent.settles
  apply Silent.pure
  unfold branchWords
  split <;> decide

theorem settles_dbcc (condition : Condition) (n : Fin 8) :
    Settles bits data 1 (dbcc condition n : Exec World Nat) := by
  apply (accesses_branchTarget 0).settles
  intro target
  apply Silent.settles
  apply Silent.registers
  intro r
  split
  · exact .pure (by decide)
  · apply Silent.update
    split
    · exact .pure (by decide)
    · apply Silent.update
      exact .pure (by decide)

theorem settles_scc (condition : Condition) (destination : AddressingMode) :
    Settles bits data 1 (scc condition destination : Exec World Nat) := by
  have found := Timing.operand_covers destination .byte
  apply accesses_status.settles
  intro old
  apply (spares_locate destination .byte).settles
  intro target located
  apply (commits_store located .byte _).settles
  intro _
  apply Silent.pure
  split
  · split <;> exact Nat.le_of_ble_eq_true rfl
  · omega

theorem settles_jmp {target : AddressingMode} (control : target.isControl = true) :
    Settles bits data 1 (jmp target : Exec World Nat) := by
  have cost : 4 * (1 + target.words .long) ≤ Timing.jmp target :=
    Timing.control_covers control (by decide) (by decide) (by decide) (by decide) (by decide)
  apply (accesses_effectiveAddress target).settles
  intro address
  apply (accesses_goTo address).settles
  intro _
  apply Silent.settles
  exact .pure cost

theorem settles_jsr {target : AddressingMode} (control : target.isControl = true) :
    Settles bits data 1 (jsr target : Exec World Nat) := by
  have cost : 4 * (3 + target.words .long) ≤ Timing.jsr target :=
    Timing.control_covers control (by decide) (by decide) (by decide) (by decide) (by decide)
  have long : Size.long.cycles = 2 := rfl
  apply (accesses_effectiveAddress target).settles
  intro address
  apply accesses_registers.settles
  intro r
  apply (accesses_push .long r.pc).settles
  intro _
  apply (accesses_goTo address).settles
  intro _
  apply Silent.settles
  apply Silent.pure
  omega

theorem settles_rts : Settles bits data 1 (rts : Exec World Nat) := by
  apply (accesses_pull .long).settles
  intro address
  apply (accesses_goTo address).settles
  intro _
  apply Silent.settles
  exact .pure (by decide)

theorem settles_rtr : Settles bits data 1 (rtr : Exec World Nat) := by
  apply (accesses_pull .word).settles
  intro flags
  apply (accesses_pull .long).settles
  intro pc
  apply Silent.settles
  apply Silent.update
  apply Silent.update
  exact .pure (by decide)

theorem settles_trapv : Settles bits data 1 (trapv : Exec World Nat) := by
  apply Silent.settles
  apply Silent.status
  intro old
  split
  · exact .throw id
  · exact .pure (by decide)

theorem settles_logicToCcr (operation : LogicOperation) :
    Settles bits data 1 (logicToCcr operation : Exec World Nat) := by
  apply accesses_fetchWord.settles
  intro value
  apply Silent.settles
  apply Silent.registers
  intro r
  apply Silent.update
  exact .pure (by decide)

theorem settles_logicToSr (operation : LogicOperation) :
    Settles bits data 1 (logicToSr operation : Exec World Nat) := by
  apply accesses_requirePrivilege.settles
  intro _
  apply accesses_fetchWord.settles
  intro value
  apply Silent.settles
  apply Silent.status
  intro old
  apply Silent.setStatus
  exact .pure (by decide)

theorem settles_moveFromSr (destination : AddressingMode) :
    Settles bits data 1 (moveFromSr destination : Exec World Nat) := by
  have cost : 4 * (1 + (destination.words .word + destination.cycles .word) +
      destination.cycles .word) ≤ Timing.readModifyWrite destination .word (6, 6) (8, 8) :=
    Timing.readModifyWrite_covers destination (by decide) (by decide)
  apply (spares_locate destination .word).settles
  intro target located
  apply accesses_status.settles
  intro old
  apply (commits_store located .word _).settles
  intro _
  apply Silent.pure
  omega

theorem settles_moveToCcr (source : AddressingMode) :
    Settles bits data 1 (moveToCcr source : Exec World Nat) := by
  have loaded := Timing.operand_covers source .word
  apply (accesses_loadFrom source .word).settles
  intro value
  apply Silent.settles
  apply Silent.update
  apply Silent.pure
  omega

theorem settles_moveToSr (source : AddressingMode) :
    Settles bits data 1 (moveToSr source : Exec World Nat) := by
  have loaded := Timing.operand_covers source .word
  apply accesses_requirePrivilege.settles
  intro _
  apply (accesses_loadFrom source .word).settles
  intro value
  apply Silent.settles
  apply Silent.setStatus
  apply Silent.pure
  omega

theorem settles_moveToUsp (n : Fin 8) : Settles bits data 1 (moveToUsp n : Exec World Nat) := by
  apply accesses_requirePrivilege.settles
  intro _
  apply Silent.settles
  apply Silent.update
  exact .pure (by decide)

theorem settles_moveFromUsp (n : Fin 8) :
    Settles bits data 1 (moveFromUsp n : Exec World Nat) := by
  apply accesses_requirePrivilege.settles
  intro _
  apply Silent.settles
  apply Silent.update
  exact .pure (by decide)

theorem settles_reset : Settles bits data 1 (reset : Exec World Nat) := by
  have signal : Silent (signalReset : Exec World Unit) fun _ => True := by
    intro m
    unfold signalReset
    cases m.hooks.reset <;> exact ⟨trivial, rfl⟩
  apply accesses_requirePrivilege.settles
  intro _
  apply Silent.settles
  apply signal.bind
  exact fun _ _ => .pure (by decide)

/-- STOP costs what the fetch of its opcode takes, and that of its operand comes on top. -/
theorem settles_stop : Settles bits data 0 (stop : Exec World Nat) := by
  have await : Silent (awaitInterrupt : Exec World Unit) fun _ => True := fun _ => ⟨trivial, rfl⟩
  apply accesses_requirePrivilege.settles
  intro _
  apply accesses_fetchWord.settles
  intro value
  apply Silent.settles
  apply Silent.setStatus
  apply await.bind
  exact fun _ _ => .pure (by decide)

theorem settles_rte : Settles bits data 1 (rte : Exec World Nat) := by
  apply accesses_requirePrivilege.settles
  intro _
  apply (accesses_pull .word).settles
  intro status
  apply (accesses_pull .long).settles
  intro pc
  apply Silent.settles
  apply Silent.setStatus
  apply Silent.update
  exact .pure (by decide)

end MC68000.Exec
