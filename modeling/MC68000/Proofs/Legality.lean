import MC68000.Proofs.Refusal

set_option autoImplicit false

namespace MC68000

variable {World : Type}

namespace Instruction

variable {instruction : Instruction}

/-- An instruction that stands for no meaning is refused in both modes, and as illegal in supervisor mode. -/
theorem refusal?_of_isIllegal (illegal : instruction.IsIllegal) (supervisor : Bool) :
    ∃ e, instruction.refusal? supervisor = some e ∧ (supervisor = true → e = .illegal) ∧
      (e = .illegal ∨ e = .privilege) := by
  cases instruction with
  | illegal => exact ⟨.illegal, rfl, fun _ => rfl, .inl rfl⟩
  | illegalExtended => exact ⟨.illegal, rfl, fun _ => rfl, .inl rfl⟩
  | illegalPrivileged =>
    cases supervisor with
    | true => exact ⟨.illegal, rfl, fun _ => rfl, .inl rfl⟩
    | false => exact ⟨.privilege, rfl, fun mode => absurd mode Bool.false_ne_true, .inr rfl⟩
  | _ => exact illegal.elim

theorem execute_of_isIllegal (illegal : instruction.IsIllegal) (m : Machine World)
    (fetches : instruction = .illegalExtended → ∃ word after, Exec.fetchWord m = .ok word after) :
    ∃ e after, instruction.execute m = .error e after ∧
      instruction.refusal? m.registers.isSupervisor = some e := by
  cases instruction with
  | illegal => exact ⟨.illegal, m, rfl, rfl⟩
  | illegalExtended =>
    obtain ⟨word, after, fetched⟩ := fetches rfl
    exact ⟨.illegal, after, Exec.bind_of_ok fetched, rfl⟩
  | illegalPrivileged =>
    cases mode : m.registers.isSupervisor with
    | true =>
      have allowed : Exec.requirePrivilege m = .ok () m := if_pos mode
      exact ⟨.illegal, m, Exec.bind_of_ok allowed, rfl⟩
    | false => exact ⟨.privilege, m, Exec.bind_of_error (Exec.requirePrivilege_of_user mode), rfl⟩
  | _ => exact illegal.elim

/-- An opcode that is refused as illegal in one state, of either mode, is refused as illegal in every
supervisor state, and as illegal or for its privilege in every user state, whatever the registers, the
memory map and the world. The forms that take an extension word are refused once that word is fetched. -/
theorem legality_of_opcode {World' : Type} {opcode : BitVec 16} {m m' : Machine World}
    (refused : (decode opcode).execute m = .error .illegal m') (other : Machine World')
    (fetches : decode opcode = .illegalExtended →
      ∃ word after, Exec.fetchWord other = .ok word after) :
    ∃ e after, (decode opcode).execute other = .error e after ∧
      (other.registers.isSupervisor = true → e = .illegal) ∧ (e = .illegal ∨ e = .privilege) := by
  have isRefusal : Exception.illegal.IsRefusal := trivial
  have named := refusal?_of_error (encodable_decode opcode) isRefusal refused
  have illegal : (decode opcode).IsIllegal := isIllegal_of_refusal? named
  obtain ⟨e, after, raised, refusal⟩ := execute_of_isIllegal illegal other fetches
  obtain ⟨e', refusal', inSupervisor, either⟩ :=
    refusal?_of_isIllegal illegal other.registers.isSupervisor
  rw [refusal', Option.some.injEq] at refusal
  rw [← refusal] at raised
  exact ⟨e', after, raised, inSupervisor, either⟩

end Instruction

namespace Machine

/-- Four bytes of program: BSET of a literal bit number with an address register for its operand, which is no
instruction, and the same opcode again at the end. -/
def settingAddressBits (status : StatusWord) (pc : BitVec 32) : Machine Unit :=
  { new .standard ⟨#[#[0x08, 0xC9, 0x08, 0xC9]], .none, ()⟩ fun _ world => world with
    registers := { Registers.initial with status, pc }
    memory := ⟨RegionTable.empty.mapRom ⟨0, 3⟩ 0, RegionTable.empty.mapRom ⟨0, 3⟩ 0, .standard⟩
    state := .running }

end Machine

/-- With a word behind it the opcode is illegal in supervisor mode, and so it is in user mode. -/
theorem Instruction.legality_of_opcode_extended :
    (Machine.settingAddressBits 0x2700 2).registers.isSupervisor = true ∧
      decode 0x08C9 = .illegalExtended ∧
      ∃ e after, (decode 0x08C9).execute (Machine.settingAddressBits 0 2) = .error e after ∧
        (e = .illegal ∨ e = .privilege) := by
  have refused : (decode 0x08C9).execute (Machine.settingAddressBits 0x2700 2) = .error .illegal
      (finalState ((decode 0x08C9).execute (Machine.settingAddressBits 0x2700 2))) := rfl
  have fetched : Exec.fetchWord (Machine.settingAddressBits 0 2) = .ok 0x08C9
      (finalState (Exec.fetchWord (Machine.settingAddressBits 0 2))) := rfl
  obtain ⟨e, after, raised, -, either⟩ :=
    legality_of_opcode refused (Machine.settingAddressBits 0 2) fun _ => ⟨_, _, fetched⟩
  exact ⟨rfl, rfl, e, after, raised, either⟩

/-- At the end of memory the same opcode, which is fetched all the same, ends in a bus error instead, in
supervisor mode and in user mode. -/
theorem Machine.bus_error_for_illegal :
    (∃ fetched, Exec.fetchWord (settingAddressBits 0x2700 0) = .ok 0x08C9 fetched ∧
      fetched.registers.isSupervisor = true ∧
      ∃ after, (Instruction.decode 0x08C9).execute fetched = .error .illegal after) ∧
    (∃ fetched, Exec.fetchWord (settingAddressBits 0x2700 2) = .ok 0x08C9 fetched ∧
      fetched.registers.isSupervisor = true ∧
      ∃ after, (Instruction.decode 0x08C9).execute fetched =
        .error (.busError ⟨4, .supervisorProgram, false, true⟩) after) ∧
    ∃ fetched, Exec.fetchWord (settingAddressBits 0 2) = .ok 0x08C9 fetched ∧
      fetched.registers.isSupervisor = false ∧
      ∃ after, (Instruction.decode 0x08C9).execute fetched =
        .error (.busError ⟨4, .userProgram, false, true⟩) after :=
  ⟨⟨_, rfl, rfl, _, rfl⟩, ⟨_, rfl, rfl, _, rfl⟩, ⟨_, rfl, rfl, _, rfl⟩⟩

end MC68000
