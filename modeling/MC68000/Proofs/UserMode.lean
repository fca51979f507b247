import MC68000.Proofs.Step

set_option autoImplicit false

namespace MC68000

variable {World : Type}

namespace Machine

def steps : Nat → Machine World → Machine World
  | 0, m => m
  | n + 1, m => (steps n m).step.2

theorem evolves_steps (m : Machine World) (n : Nat) : m.Evolves (steps n m) := by
  induction n with
  | zero => exact .refl m
  | succ n ih => exact ih.trans (evolves_step _)

/-- In user mode an instruction has ordinary effects and no others. -/
theorem execute_effects {m : Machine World} (user : m.registers.isSupervisor = false)
    (opcode : BitVec 16) : m.Effects (finalState ((Instruction.decode opcode).execute m)) := by
  refine ((Instruction.execute_outcome opcode m).mono ?_ fun _ _ after => after.1).final
  rintro _ m' (after | ⟨supervisor, _⟩)
  · exact after
  · rw [user] at supervisor
    cases supervisor

/-- In user mode the prologue of a step leaves the system byte and the supervisor stack pointer alone. -/
theorem unprivileged_prologue {m : Machine World} (user : m.registers.isSupervisor = false) :
    m.registers.Unprivileged m.prologue.machine.registers := by
  obtain ⟨same, _⟩ | ⟨level, _, _, same⟩ | ⟨_, _, same⟩ := m.prologue_cases
  · rw [same]
    exact .refl _
  · rw [same, registers_takeRequest]
    exact .refl _
  · rw [same]
    obtain ⟨_, _, executes, _⟩ | ⟨_, executes | ⟨supervisor, _⟩⟩ :=
      instructionPrologue_cases { m with activity := [] }
    · exact executes.unprivileged
    · exact executes.unprivileged
    · rw [show Registers.isSupervisor _ = false from user] at supervisor
      cases supervisor

end Machine

theorem Entry.isSupervisor_final {entry : Entry} {m : Machine World}
    (unhooked : m.hooks.vectors entry.vector = none) :
    (finalState (entry.action m)).registers.isSupervisor = true := by
  have supervisor := m.isSupervisor_inHandler entry.mask
  exact (Ends.mono (entry.effects unhooked) (fun _ _ after => after.isSupervisor.trans supervisor)
    fun _ _ after => after.1.isSupervisor.trans supervisor).final

namespace Machine

/-- An instruction in user mode leaves the system byte, the supervisor stack pointer, the interrupt lines
and the state of the processor as they are, whether it completes or not. Where no hook is installed, a
step out of user mode processes an exception: the machine is still in user mode when that begins, and the
entry takes it into supervisor mode. -/
theorem user_mode_integrity :
    (∀ (m : Machine World) (opcode : BitVec 16), m.registers.isSupervisor = false →
      let after := finalState ((Instruction.decode opcode).execute m)
      after.registers.status.system = m.registers.status.system ∧
        after.registers.shadow = m.registers.shadow ∧
        after.registers.supervisorStack = m.registers.supervisorStack ∧
        after.interrupts = m.interrupts ∧ after.state = m.state) ∧
    ∀ (m : Machine World) (n : Nat), (∀ vector, m.hooks.vectors vector = none) →
      (steps n m).registers.isSupervisor = false →
      (steps (n + 1) m).registers.isSupervisor = true →
      ∃ cause, (steps n m).prologue.cause = some cause ∧
        let interrupted := (steps n m).prologue.machine
        interrupted.registers.isSupervisor = false ∧
        interrupted.registers.status.system = (steps n m).registers.status.system ∧
        (interrupted.entered cause).registers = interrupted.registers ∧
        (finalState ((interrupted.entry cause).action
          (interrupted.entered cause))).registers.isSupervisor = true ∧
        (steps (n + 1) m).registers = (interrupted.process cause).2.registers := by
  refine ⟨fun m opcode user => ?_, fun m n unhooked before after => ?_⟩
  · have effects := execute_effects user opcode
    have unprivileged := effects.unprivileged
    have frame := effects.frame
    refine ⟨unprivileged.system, unprivileged.shadow, ?_, ?_, ?_⟩
    · rw [Registers.supervisorStack, unprivileged.isSupervisor, user, Registers.supervisorStack, user]
      exact unprivileged.shadow
    · rw [frame]
    · rw [frame]
  · have unprivileged := unprivileged_prologue before
    have still := unprivileged.isSupervisor.trans before
    have step : (steps (n + 1) m).registers = (steps n m).prologue.finish.2.registers := by
      change (steps n m).step.2.registers = _
      rw [step_eq, charge_frame]
    cases found : (steps n m).prologue.cause with
    | none =>
      rw [step, Prologue.finish, found] at after
      rw [still] at after
      cases after
    | some cause =>
      rw [Prologue.finish, found] at step
      refine ⟨cause, rfl, still, unprivileged.system, rfl, ?_, step⟩
      apply Entry.isSupervisor_final
      change (steps n m).prologue.machine.hooks.vectors _ = none
      rw [((evolves_steps m n).trans (evolves_prologue _)).hooks]
      exact unhooked _

/-- A processor in user mode on an open bus, where all words read as FFFF. -/
def userOnOpenBus : Machine Unit :=
  { new ⟨0x00FFFFFF, .openBus 0xFF⟩ ⟨#[], .none, ()⟩ (fun _ world => world) with
    registers := { Registers.initial with status := 0 }
    state := .running }

/-- Its second instruction is refused like the first, but only the first finds it in user mode. -/
theorem user_mode_integrity_on_open_bus :
    userOnOpenBus.registers.isSupervisor = false ∧
      (steps 1 userOnOpenBus).registers.isSupervisor = true ∧
      (finalState ((Instruction.decode 0x4E72).execute userOnOpenBus)).state = .running ∧
      ∃ cause, userOnOpenBus.prologue.cause = some cause ∧
        (userOnOpenBus.prologue.machine.process cause).2.registers.isSupervisor = true := by
  have supervisor : (steps 1 userOnOpenBus).registers.isSupervisor = true := by decide +kernel
  obtain ⟨cause, found, _, _, _, _, registers⟩ :=
    user_mode_integrity.2 userOnOpenBus 0 (fun _ => rfl) rfl supervisor
  refine ⟨rfl, supervisor, (user_mode_integrity.1 userOnOpenBus 0x4E72 rfl).2.2.2.2, cause, found, ?_⟩
  exact (congrArg Registers.isSupervisor registers).symm.trans supervisor

end Machine

end MC68000
