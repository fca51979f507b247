import MC68000.Proofs.RegisterFrame.Fields

set_option autoImplicit false

namespace MC68000

variable {World : Type}

namespace Registers

/-- The registers with A7 and its shadow exchanged, and another status word. -/
def exchanged (r : Registers) (status : StatusWord) : Registers :=
  { r.setAddress 7 r.shadow with shadow := r.a.get 7, status }

theorem setStatus_cases (r : Registers) (value : StatusWord) :
    ((r.setStatus value).isSupervisor = r.isSupervisor ∧ (r.setStatus value).shadow = r.shadow) ∨
      (r.setStatus value).isSupervisor ≠ r.isSupervisor ∧
        r.setStatus value = r.exchanged (value &&& .implemented) := by
  by_cases same : value.has .supervisor = r.isSupervisor
  · refine .inl ⟨(r.isSupervisor_setStatus value).trans same, ?_⟩
    rw [setStatus_of_same same]
  · refine .inr ⟨fun kept => same ((r.isSupervisor_setStatus value).symm.trans kept), ?_⟩
    exact setStatus_of_change (Bool.eq_not_of_ne same)

end Registers

namespace Instruction

variable {instruction : Instruction} {m m' : Machine World} {cost : Nat}

/-- A completed instruction keeps the mode and the shadow stack pointer, or it is MOVE to USP, or it writes the
status word last. -/
theorem stack_pointers (encodable : instruction.Encodable)
    (completes : instruction.execute m = .ok cost m') :
    (m'.registers.isSupervisor = m.registers.isSupervisor ∧ m'.registers.shadow = m.registers.shadow) ∨
    (∃ n, instruction = .moveToUsp n ∧
      m'.registers = { m.registers with shadow := m.registers.a.get n }) ∨
    ∃ before value, m.registers.Advances instruction.written instruction.stackTravel before ∧
      m'.registers = before.setStatus value := by
  have writes (h : Exec.WritesStatus World instruction m.registers) : ∃ before value,
      m.registers.Advances instruction.written instruction.stackTravel before ∧
        m'.registers = before.setStatus value := by
    have ended := h m rfl
    rw [completes] at ended
    obtain ⟨_, _, found⟩ := ended
    exact found
  by_cases supervisory : instruction.IsSupervisory
  · cases instruction with
    | logicToSr operation => exact .inr (.inr (writes (Exec.writesStatus_logicToSr operation)))
    | moveToSr source => exact .inr (.inr (writes (Exec.writesStatus_moveToSr source)))
    | stop => exact .inr (.inr (writes Exec.writesStatus_stop))
    | rte => exact .inr (.inr (writes Exec.writesStatus_rte))
    | moveToUsp n =>
      have ended := Exec.moveToUsp_registers n m
      rw [show Exec.moveToUsp n m = .ok cost m' from completes] at ended
      exact .inr (.inl ⟨n, rfl, ended⟩)
    | reset =>
      have ended := Exec.reset_registers m
      rw [show Exec.reset m = .ok cost m' from completes] at ended
      exact .inl ⟨congrArg Registers.isSupervisor ended, congrArg Registers.shadow ended⟩
    | _ => exact supervisory.elim
  · have ended := (timed_raises m.registers.status.system encodable supervisory).effects m rfl
    rw [completes] at ended
    exact .inl ⟨ended.1.isSupervisor, ended.1.unprivileged.shadow⟩

open Decoding in
/-- Where an instruction completes, a data register has changed only if its number is in a register field of the
opcode or MOVEM has loaded it, and an address register only if besides it is not A7. With the mode the shadow
stack pointer stays, unless MOVE to USP has written it; where the mode changes, A7 and its shadow are exchanged
once, when all other effects of the instruction are there. -/
theorem register_frame {opcode : BitVec 16} {m m' : Machine World} {cost : Nat}
    (completes : (decode opcode).execute m = .ok cost m') :
    (∀ n, n ≠ lowRegister opcode → n ≠ highRegister opcode → .data n ∉ (decode opcode).loaded m →
      m'.registers.d.get n = m.registers.d.get n) ∧
    (∀ n, n ≠ lowRegister opcode → n ≠ highRegister opcode → n ≠ 7 →
      .address n ∉ (decode opcode).loaded m → m'.registers.a.get n = m.registers.a.get n) ∧
    (m'.registers.isSupervisor = m.registers.isSupervisor → (∀ n, decode opcode ≠ moveToUsp n) →
      m'.registers.shadow = m.registers.shadow) ∧
    (∀ n, decode opcode = moveToUsp n →
      m'.registers = { m.registers with shadow := m.registers.a.get n }) ∧
    (m'.registers.isSupervisor ≠ m.registers.isSupervisor → ∃ before status,
      m.registers.Advances (decode opcode).written (decode opcode).stackTravel before ∧
        m'.registers = before.exchanged status) := by
  have encodable := encodable_decode opcode
  have keeps := keepsOthers_execute encodable m
  rw [completes] at keeps
  have outside {register : Register} (field : ¬IsField opcode register)
      (loaded : register ∉ (decode opcode).loaded m) :
      register ∉ (decode opcode).written ++ (decode opcode).loaded m := by
    intro listed
    rcases List.mem_append.mp listed with written | fromMemory
    · exact field (writes_decode opcode register written)
    · exact loaded fromMemory
  have pointers := stack_pointers encodable completes
  refine ⟨fun n low high loaded => keeps.data n (outside ?_ loaded),
    fun n low high other loaded => keeps.address n other (outside ?_ loaded), ?_, ?_, ?_⟩
  · exact fun field => field.elim low high
  · exact fun field => field.elim low high
  · intro mode other
    rcases pointers with ⟨-, same⟩ | ⟨n, usp, -⟩ | ⟨before, value, advances, written⟩
    · exact same
    · exact absurd usp (other n)
    · rcases before.setStatus_cases value with ⟨-, same⟩ | ⟨changed, -⟩
      · rw [written, same, advances.shadow]
      · rw [written, ← advances.isSupervisor] at mode
        exact absurd mode changed
  · intro n usp
    have ended := Exec.moveToUsp_registers n m
    rw [usp] at completes
    rwa [show Exec.moveToUsp n m = .ok cost m' from completes] at ended
  · intro changed
    rcases pointers with ⟨mode, -⟩ | ⟨n, -, usp⟩ | ⟨before, value, advances, written⟩
    · exact absurd mode changed
    · exact absurd (congrArg Registers.isSupervisor usp) changed
    · refine ⟨before, value &&& .implemented, advances, ?_⟩
      rcases before.setStatus_cases value with ⟨mode, -⟩ | ⟨-, exchanged⟩
      · rw [written, mode, advances.isSupervisor] at changed
        exact absurd rfl changed
      · rw [written, exchanged]

/-- MOVE of the word on the stack to the status word, where it is zero: the mode changes, and what has become of
the supervisor's stack pointer includes the increment. -/
theorem register_frame_leaving_supervisor :
    ∃ m', (decode 0x46DF).execute Machine.middleOfStack = .ok 16 m' ∧
      m'.registers.isSupervisor = false ∧ m'.registers.d.get 0 = 0 ∧
      ∃ before status, Machine.middleOfStack.registers.Advances [.address 7] 2 before ∧
        m'.registers = before.exchanged status := by
  have completes : (decode 0x46DF).execute Machine.middleOfStack =
      .ok 16 (finalState ((decode 0x46DF).execute Machine.middleOfStack)) := rfl
  obtain ⟨data, -, -, -, exchanges⟩ := register_frame completes
  refine ⟨_, completes, rfl, data 0 (by decide) (by decide) (by decide), exchanges ?_⟩
  exact fun same => Bool.false_ne_true same

end Instruction

end MC68000
