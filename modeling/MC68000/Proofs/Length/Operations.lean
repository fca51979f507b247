import MC68000.Proofs.ReturnAddress
import MC68000.Proofs.Settling

set_option autoImplicit false

namespace MC68000

variable {World : Type}

theorem AddressingMode.extensionBytes_eq (mode : AddressingMode) (size : Size) :
    mode.extensionBytes size = BitVec.ofNat 32 (2 * mode.words size) := by
  cases mode with
  | immediate => cases size <;> rfl
  | _ => rfl

namespace Registers

variable (r : Registers) (n : Fin 8) (value : BitVec 32)

@[simp] theorem pc_setData : (r.setData n value).pc = r.pc := rfl

@[simp] theorem pc_setAddress : (r.setAddress n value).pc = r.pc := rfl

@[simp] theorem pc_setDataPart (size : Size) : (r.setDataPart n size value).pc = r.pc := by
  cases size <;> rfl

@[simp] theorem pc_setConditionCodes (flags : BitVec 8) : (r.setConditionCodes flags).pc = r.pc := rfl

@[simp] theorem pc_setUserStack : (r.setUserStack value).pc = r.pc := by
  unfold setUserStack
  split <;> rfl

/-- The registers of a program are not its program counter. -/
theorem pc_set {register : Register} (general : register.IsGeneral) :
    (r.set register value).pc = r.pc := by
  cases register with
  | data n => rfl
  | address n => rfl
  | _ => exact general.elim

end Registers

namespace Exec

/-- Takes a number of words from the instruction stream, if it completes. -/
def Takes {α : Type} (words : Nat) (x : Exec World α) : Prop :=
  ∀ m, Ends (x m) (fun _ m' => m'.registers.pc = m.registers.pc + BitVec.ofNat 32 (2 * words))
    fun _ _ => True

section rules

variable {α β : Type} {x : Exec World α} {f : α → Exec World β} {words more : Nat}

theorem takes_pure (a : α) : Takes 0 (pure a : Exec World α) :=
  fun m => (BitVec.add_zero m.registers.pc).symm

theorem takes_throw (e : Exception) : Takes words (throw e : Exec World α) := fun _ => trivial

theorem Takes.bind (first : Takes words x) (next : ∀ a, Takes more (f a)) :
    Takes (words + more) (x >>= f) := by
  intro m
  refine (first m).bind fun a m' passed => (next a m').mono (fun _ m'' last => ?_) fun _ _ => id
  rw [last, passed, BitVec.add_assoc, ← BitVec.ofNat_add, Nat.mul_add]

theorem Takes.andThen (first : Takes words x) (next : ∀ a, Takes 0 (f a)) :
    Takes words (x >>= f) := first.bind next

theorem Takes.giving (first : Takes words x) (g : α → β) :
    Takes words (do let a ← x; return g a : Exec World β) := first.andThen fun a => takes_pure (g a)

theorem Takes.after (first : Takes 0 x) (next : ∀ a, Takes words (f a)) :
    Takes words (x >>= f) := by
  have whole : 0 + words = words := Nat.zero_add words
  rw [← whole]
  exact first.bind next

theorem Advances.takes {distance : BitVec 32} (h : Advances distance x)
    (whole : distance = BitVec.ofNat 32 (2 * words)) : Takes words x := by
  intro m
  rw [← whole]
  exact (h m).mono (fun _ _ => id) fun _ _ _ => trivial

end rules

theorem takes_registers : Takes 0 (registers : Exec World Registers) := advances_registers.takes rfl

theorem takes_status : Takes 0 (status : Exec World StatusWord) := advances_status.takes rfl

theorem takes_setStatus (value : StatusWord) : Takes 0 (setStatus value : Exec World Unit) :=
  (advances_setStatus value).takes rfl

theorem takes_update {f : Registers → Registers} (h : ∀ r, (f r).pc = r.pc) :
    Takes 0 (update f : Exec World Unit) :=
  (advances_update fun r => (h r).trans (BitVec.add_zero r.pc).symm).takes rfl

theorem takes_requirePrivilege : Takes 0 (requirePrivilege : Exec World Unit) := by
  intro m
  unfold requirePrivilege
  split
  · exact takes_pure () m
  · exact trivial

theorem takes_fetchWord : Takes 1 (fetchWord : Exec World (BitVec 16)) :=
  advances_fetchWord.takes rfl

theorem takes_fetchDisplacement : Takes 1 (fetchDisplacement : Exec World (BitVec 32)) :=
  advances_fetchDisplacement.takes rfl

theorem takes_fetchImmediate (size : Size) :
    Takes size.cycles (fetchImmediate size : Exec World (BitVec 32)) :=
  (advances_fetchImmediate size).takes (AddressingMode.extensionBytes_eq .immediate size)

theorem takes_read (space : AddressSpace) (size : Size) (address : BitVec 32) :
    Takes 0 (read space size address : Exec World (BitVec 32)) :=
  (advances_read space size address).takes rfl

theorem takes_readData (size : Size) (address : BitVec 32) :
    Takes 0 (readData size address : Exec World (BitVec 32)) :=
  (advances_readData size address).takes rfl

theorem takes_write (space : AddressSpace) (size : Size) (address value : BitVec 32) :
    Takes 0 (write space size address value : Exec World Unit) := by
  have cycle (b : BusCycle) (access : MemoryMap World → Access World Unit) :
      Takes 0 (cycle b.space b.address b.transfer access) := (advances_cycle _ _ _ _).takes rfl
  refine Takes.andThen ((advances_requireAligned _ _ _ _).takes rfl) fun _ => ?_
  cases size with
  | byte => exact cycle ⟨space, address, .writeByte _⟩ _
  | word => exact cycle ⟨space, address, .writeWord _⟩ _
  | long =>
    exact (cycle ⟨space, address, .writeWord _⟩ _).andThen fun _ =>
      cycle ⟨space, address + 2, .writeWord _⟩ _

theorem takes_writeData (size : Size) (address value : BitVec 32) :
    Takes 0 (writeData size address value : Exec World Unit) :=
  fun m => takes_write m.dataSpace size address value m

theorem takes_push (size : Size) (value : BitVec 32) :
    Takes 0 (push size value : Exec World Unit) := by
  refine (takes_update (by simp)).andThen fun _ => takes_registers.andThen fun _ => ?_
  exact takes_writeData size _ value

theorem takes_pull (size : Size) : Takes 0 (pull size : Exec World (BitVec 32)) := by
  refine takes_registers.andThen fun _ => (takes_readData size _).andThen fun _ => ?_
  exact (takes_update (by simp)).giving _

/-- Locating an operand takes its extension words. -/
theorem takes_locate (mode : AddressingMode) (size : Size) :
    Takes (mode.words size) (locate mode size : Exec World Operand) :=
  (advances_locate mode size).takes (mode.extensionBytes_eq size)

theorem takes_load (operand : Operand) (size : Size) :
    Takes 0 (load operand size : Exec World (BitVec 32)) := (advances_load operand size).takes rfl

theorem takes_loadFrom (mode : AddressingMode) (size : Size) :
    Takes (mode.words size) (loadFrom mode size : Exec World (BitVec 32)) :=
  (advances_loadFrom mode size).takes (mode.extensionBytes_eq size)

theorem takes_store (operand : Operand) (size : Size) (value : BitVec 32) :
    Takes 0 (store operand size value : Exec World Unit) := by
  cases operand with
  | dataRegister n => exact takes_update (by simp)
  | addressRegister n => exact takes_update (by simp)
  | memory address => exact takes_writeData size address value
  | program address => exact takes_throw _
  | value _ => exact takes_throw _

theorem takes_effectiveAddress (mode : AddressingMode) :
    Takes (mode.words .long) (effectiveAddress mode : Exec World (BitVec 32)) := by
  refine (takes_locate mode .long).andThen fun target => ?_
  cases target with
  | memory address => exact takes_pure _
  | program address => exact takes_pure _
  | _ => exact takes_throw _

theorem takes_readModifyWrite (destination : AddressingMode) (size : Size)
    (operation : BitVec 32 → StatusWord → Arithmetic.Outcome) :
    Takes (destination.words size) (readModifyWrite destination size operation : Exec World Unit) := by
  refine (takes_locate destination size).andThen fun target => ?_
  refine (takes_load target size).andThen fun _ => takes_status.andThen fun _ => ?_
  exact (takes_store target size _).andThen fun _ => takes_setStatus _

theorem takes_intoRegister (source : AddressingMode) (size : Size) (n : Fin 8)
    (operation : BitVec 32 → BitVec 32 → StatusWord → Arithmetic.Outcome) :
    Takes (source.words size) (intoRegister source size n operation : Exec World Unit) := by
  refine (takes_loadFrom source size).andThen fun _ => takes_registers.andThen fun _ => ?_
  exact (takes_update (by simp)).andThen fun _ => takes_setStatus _

theorem takes_betweenPredecremented (size : Size) (x y : Fin 8)
    (operation : BitVec 32 → BitVec 32 → StatusWord → Arithmetic.Outcome) :
    Takes 0 (betweenPredecremented size x y operation : Exec World Unit) :=
  (takes_loadFrom _ size).andThen fun source => takes_readModifyWrite _ size (operation source)

end Exec

end MC68000
