import MC68000.Proofs.Agreement

set_option autoImplicit false

namespace MC68000

variable {World : Type}

/-- Two machines that differ in vector hooks only. -/
def DifferInVectors (hooks : Hooks World) (m n : Machine World) : Prop :=
  m.hooks.reset = hooks.reset ∧ n = m.withHooks hooks

theorem cycle_differInVectors {hooks : Hooks World} {m n : Machine World} {α : Type}
    (h : DifferInVectors hooks m n) (space : AddressSpace) (address : BitVec 32)
    (transfer : BusTransfer) (access : MemoryMap World → Access World α) :
    Together (DifferInVectors hooks) (Exec.cycle space address transfer access m)
      (Exec.cycle space address transfer access n) := by
  obtain ⟨reset, rfl⟩ := h
  have same : access (m.withHooks hooks).memory (m.withHooks hooks).host = access m.memory m.host := rfl
  unfold Exec.cycle
  rw [same]
  cases access m.memory m.host with
  | ok value host => exact ⟨rfl, reset, rfl⟩
  | error fault host => exact ⟨rfl, reset, rfl⟩

theorem agreement_differInVectors (hooks : Hooks World) : Agreement (DifferInVectors hooks) where
  registers h := by rw [h.2]; rfl
  processing h := by rw [h.2]; rfl
  update f h _ := ⟨h.1, by rw [h.2]; rfl⟩
  readByte _ h _ := cycle_differInVectors h _ _ _ _
  readWord _ h _ := cycle_differInVectors h _ _ _ _
  writeByte _ _ h _ := cycle_differInVectors h _ _ _ _
  writeWord _ _ h _ := cycle_differInVectors h _ _ _ _

theorem apply_differInVectors {hooks : Hooks World} (change : SupervisorChange) {m n : Machine World}
    (h : DifferInVectors hooks m n) : DifferInVectors hooks (change.apply m) (change.apply n) := by
  obtain ⟨reset, rfl⟩ := h
  refine ⟨(Machine.evolves_apply m change).hooks ▸ reset, ?_⟩
  cases change with
  | registers f => rfl
  | reset =>
    have same : (m.withHooks hooks).hooks.reset = m.hooks.reset := reset.symm
    unfold SupervisorChange.apply
    dsimp only
    rw [same]
    cases m.hooks.reset <;> rfl
  | stop status => rfl

namespace Machine

theorem takeRequest_withHooks {m : Machine World} {hooks : Hooks World}
    (acknowledge : m.hooks.acknowledge = hooks.acknowledge) (level : Fin 8) :
    (m.withHooks hooks).takeRequest level = (m.takeRequest level).withHooks hooks := by
  unfold takeRequest callAcknowledge
  dsimp only [withHooks]
  rw [← acknowledge]
  cases m.hooks.acknowledge <;> rfl

theorem instructionPrologue_withHooks {m : Machine World} {hooks : Hooks World}
    (reset : m.hooks.reset = hooks.reset) :
    (m.withHooks hooks).instructionPrologue = ⟨m.instructionPrologue.machine.withHooks hooks,
      m.instructionPrologue.cost, m.instructionPrologue.cause⟩ := by
  have together := Exec.nextInstruction_together (agreement_differInVectors hooks)
    (fun _ _ => id) (fun change _ _ => apply_differInVectors change) (fun _ _ _ h => ⟨h.1, by rw [h.2]; rfl⟩)
    (m := { m with instructionAddress := m.registers.pc }) ⟨reset, rfl⟩
  have start : { m.withHooks hooks with instructionAddress := (m.withHooks hooks).registers.pc } =
      withHooks { m with instructionAddress := m.registers.pc } hooks := rfl
  unfold instructionPrologue
  rw [start]
  obtain ⟨cost, after, _, left, right, _, rfl⟩ | ⟨e, after, _, left, right, _, rfl⟩ := together.cases
  · rw [left, right]
    rfl
  · rw [left, right]

/-- Up to where it processes an exception a step does not depend on vector hooks. -/
theorem prologue_withHooks {m : Machine World} {hooks : Hooks World}
    (reset : m.hooks.reset = hooks.reset) (acknowledge : m.hooks.acknowledge = hooks.acknowledge) :
    (m.withHooks hooks).prologue =
      ⟨m.prologue.machine.withHooks hooks, m.prologue.cost, m.prologue.cause⟩ := by
  obtain ⟨same, rest⟩ | ⟨level, found, awake, same⟩ | ⟨running, none, same⟩ := m.prologue_cases
  · rw [same]
    exact prologue_of_rest rest
  · rw [same, prologue_of_interrupt (m := m.withHooks hooks) awake found]
    exact congrArg (Prologue.mk · 0 _)
      (takeRequest_withHooks (m := { m with activity := [] }) acknowledge level)
  · rw [same, prologue_of_instruction (m := m.withHooks hooks) running none]
    exact instructionPrologue_withHooks (m := { m with activity := [] }) reset

/-- A hook takes the place of a short frame. It finds the program counter at the return address, and no bit
of the status word that it leaves is one that does not exist. -/
theorem registers_step_of_hook {m : Machine World} {cause : Cause} {vector : VectorNumber}
    {returnAddress : BitVec 32} {mask : Option (Fin 8)} {hook : VectorHook World}
    (found : m.prologue.cause = some cause)
    (entry : m.prologue.machine.entry cause = .short vector returnAddress mask)
    (present : m.hooks.vectors vector = some hook) :
    let before := m.prologue.machine.log (m.prologue.machine.entryRecord cause)
    let after := (hook vector { before.registers with pc := returnAddress } before.host).1
    m.step.2.registers = { after with status := after.status &&& .implemented } := by
  have kept : (m.prologue.machine.entered cause).hooks.vectors vector = some hook := by
    rw [show (m.prologue.machine.entered cause).hooks = _ from m.evolves_prologue.hooks]
    exact present
  have called : Exec.enterShort vector returnAddress mask (m.prologue.machine.entered cause) = _ :=
    (Entry.action_of_hook kept :
      (Entry.short vector returnAddress mask).action (m.prologue.machine.entered cause) = _)
  unfold entered at called
  rw [step_eq, charge_frame, Prologue.finish, found]
  dsimp only
  rw [process_short entry, processVector, processing, called]
  rfl

end Machine

end MC68000
