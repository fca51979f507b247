import MC68000.Proofs.AccessErrors
import MC68000.Proofs.Purity

set_option autoImplicit false

namespace MC68000

variable {World : Type}

/-- Two machines that have the same context and the same buffers. They may have fetched different opcodes last. -/
structure Machine.Twins (m n : Machine World) : Prop where
  registers : n.registers = m.registers
  memory : n.memory = m.memory
  hooks : n.hooks = m.hooks
  interrupts : n.interrupts = m.interrupts
  state : n.state = m.state
  cycles : n.cycles = m.cycles
  processingException : n.processingException = m.processingException
  ram : m.host.SameRam n.host
  /-- What both call looks at nothing but the buffers. -/
  memoryPure : m.memory.Pure
  hooksPure : m.hooks.Pure

namespace Machine.Twins

variable {m n : Machine World}

theorem withHost (twins : m.Twins n) {host host' : Host World} (ram : host.SameRam host') :
    Twins { m with host } { n with host := host' } := { twins with ram }

theorem withOpcode (twins : m.Twins n) (opcode : BitVec 16) :
    Twins { m with opcode } { n with opcode } := { twins with }

theorem log (twins : m.Twins n) (record record' : LogRecord) :
    (m.log record).Twins (n.log record') := { twins with ram := twins.ram }

theorem withProcessing (twins : m.Twins n) (processingException : Bool) :
    Twins { m with processingException } { n with processingException } :=
  { twins with processingException := rfl }

end Machine.Twins

open Machine (Twins)

theorem cycle_twins {m n : Machine World} (twins : m.Twins n) {α : Type} (space : AddressSpace)
    (address : BitVec 32) (transfer : BusTransfer) (access : MemoryMap World → Access World α)
    (alike : Together Host.SameRam (access m.memory m.host) (access n.memory n.host)) :
    Together Twins (Exec.cycle space address transfer access m)
      (Exec.cycle space address transfer access n) := by
  unfold Exec.cycle
  obtain ⟨a, after, after', left, right, ram⟩ | ⟨fault, after, after', left, right, ram⟩ := alike.cases
  · rw [left, right]
    exact ⟨rfl, { twins with ram }⟩
  · rw [left, right]
    refine ⟨?_, { twins with ram }⟩
    rw [Exec.faultOf, Exec.faultOf, twins.processingException]

theorem agreement_twins : Agreement (Twins : Machine World → Machine World → Prop) where
  registers twins := twins.registers.symm
  processing twins := twins.processingException.symm
  update f twins _ := { twins with registers := congrArg f twins.registers }
  readByte address twins _ := by
    apply cycle_twins twins
    rw [twins.memory]
    exact MemoryMap.readByte_together twins.memoryPure _ address twins.ram
  readWord address twins _ := by
    apply cycle_twins twins
    rw [twins.memory]
    exact MemoryMap.readWord_together twins.memoryPure _ address twins.ram
  writeByte address value twins _ := by
    apply cycle_twins twins
    rw [twins.memory]
    exact MemoryMap.writeByte_together twins.memoryPure _ address twins.ram value
  writeWord address value twins _ := by
    apply cycle_twins twins
    rw [twins.memory]
    exact MemoryMap.writeWord_together twins.memoryPure _ address twins.ram value

/-- What is left to the supervisor makes twins of twins. -/
theorem apply_twins (change : SupervisorChange) {m n : Machine World} (twins : m.Twins n) :
    (change.apply m).Twins (change.apply n) := by
  cases change with
  | registers f => exact { twins with registers := congrArg f twins.registers }
  | reset =>
    have same : n.hooks.reset = m.hooks.reset := congrArg Hooks.reset twins.hooks
    unfold SupervisorChange.apply
    cases found : m.hooks.reset with
    | none =>
      rw [found] at same
      simp only [same]
      exact twins
    | some hook =>
      rw [found] at same
      simp only [same]
      exact twins.withHost (twins.hooksPure.reset hook found _ _ twins.ram).2
  | stop status =>
    exact { twins with
      registers := congrArg (·.setStatus status) twins.registers
      state := rfl
      ram := twins.ram }

namespace Machine

variable {m n : Machine World}

theorem nextInstruction_twins (twins : m.Twins n) :
    Together Twins (Exec.nextInstruction m) (Exec.nextInstruction n) :=
  Exec.nextInstruction_together agreement_twins (fun _ _ => id) (fun change _ _ => apply_twins change)
    (fun opcode _ _ twins => twins.withOpcode opcode) twins

theorem fetched?_twins (twins : m.Twins n) : n.fetched? = m.fetched? := by
  have fetch : Exec.Plain m.registers.status.system (fun _ => False)
      (Exec.fetchWord : Exec World (BitVec 16)) := Exec.plain_fetchWord
  have together := fetch.together agreement_twins twins rfl
  unfold fetched?
  obtain ⟨word, _, _, left, right, _⟩ | ⟨e, _, _, left, right, _⟩ := together.cases
  · rw [left, right]
  · rw [left, right]

theorem beginning_twins (twins : m.Twins n) : m.beginning.Twins n.beginning := { twins with }

theorem opcode?_twins (twins : m.Twins n) : n.opcode? = m.opcode? := by
  unfold opcode?
  rw [twins.state, twins.interrupts, twins.registers, fetched?_twins (beginning_twins twins)]

theorem takeRequest_twins (twins : m.Twins n) (level : Fin 8) :
    (m.takeRequest level).Twins (n.takeRequest level) := by
  have lines : (n.interrupts.acknowledge level).2 = (m.interrupts.acknowledge level).2 := by
    rw [twins.interrupts]
  have same : n.hooks.acknowledge = m.hooks.acknowledge := congrArg Hooks.acknowledge twins.hooks
  unfold takeRequest callAcknowledge
  dsimp only
  cases found : m.hooks.acknowledge with
  | none =>
    rw [found] at same
    simp only [same]
    exact { twins with interrupts := lines, state := rfl, ram := twins.ram }
  | some hook =>
    have called := twins.hooksPure.acknowledge hook found level _ _ twins.ram
    rw [found] at same
    simp only [same]
    exact { twins with interrupts := lines, state := rfl, ram := called.2 }

theorem inHandler_twins (twins : m.Twins n) (mask : Option (Fin 8)) :
    (m.inHandler mask).Twins (n.inHandler mask) := by
  have registers : (n.inHandler mask).registers = (m.inHandler mask).registers :=
    congrArg (fun r : Registers => r.setStatus (r.status.inHandler mask)) twins.registers
  exact { twins with registers, ram := twins.ram }

end Machine

/-- Two steps come to the same, up to where they process an exception. -/
structure Prologue.Twins (p q : Prologue World) : Prop where
  cost : q.cost = p.cost
  cause : q.cause = p.cause
  machine : p.machine.Twins q.machine

namespace Machine

variable {m n : Machine World}

theorem instructionPrologue_twins (twins : m.Twins n) :
    m.instructionPrologue.Twins n.instructionPrologue := by
  have start : Twins { m with instructionAddress := m.registers.pc }
      { n with instructionAddress := n.registers.pc } := { twins with }
  have together := nextInstruction_twins start
  have tracing : n.registers.isTracing = m.registers.isTracing := by rw [twins.registers]
  unfold instructionPrologue
  obtain ⟨cost, after, after', left, right, twins'⟩ | ⟨e, after, after', left, right, twins'⟩ :=
    together.cases
  · rw [left, right]
    dsimp only
    rw [tracing, twins'.state]
    exact ⟨rfl, rfl, twins'⟩
  · rw [left, right]
    exact ⟨rfl, rfl, twins'⟩

theorem prologue_twins (twins : m.Twins n) : m.prologue.Twins n.prologue := by
  have start : Twins { m with activity := [] } { n with activity := [] } := { twins with }
  have quiet : n.interrupts.highestAbove n.registers.interruptMask =
      m.interrupts.highestAbove m.registers.interruptMask := by
    rw [twins.interrupts, twins.registers]
  obtain ⟨same, rest⟩ | ⟨level, found, awake, same⟩ | ⟨running, none, same⟩ := m.prologue_cases
  · rw [← twins.state, ← quiet] at rest
    rw [same, prologue_of_rest rest]
    exact ⟨rfl, rfl, start⟩
  · rw [← twins.state] at awake
    rw [← quiet] at found
    have cause : some (Cause.interrupt level ((n.interrupts.acknowledge level).1.number level)) =
        some (.interrupt level ((m.interrupts.acknowledge level).1.number level)) := by
      rw [twins.interrupts]
    rw [same, prologue_of_interrupt awake found]
    exact ⟨rfl, cause, takeRequest_twins start level⟩
  · rw [← twins.state] at running
    rw [← quiet] at none
    rw [same, prologue_of_instruction running none]
    exact instructionPrologue_twins start

theorem entry_twins (twins : m.Twins n) {cause : Cause} (found : m.prologue.cause = some cause)
    (found' : n.prologue.cause = some cause) :
    n.prologue.machine.entry cause = m.prologue.machine.entry cause := by
  have registers := (prologue_twins twins).machine.registers
  cases cause with
  | trace => exact congrArg (fun r : Registers => Entry.short .trace r.pc none) registers
  | interrupt level vector =>
    exact congrArg (fun r : Registers => Entry.short vector r.pc (some level)) registers
  | exception e =>
    have address : n.prologue.machine.instructionAddress = m.prologue.machine.instructionAddress := by
      rw [instructionAddress_prologue found, instructionAddress_prologue found', twins.registers]
    unfold entry
    rw [address, registers]

/-- Twins enter an exception alike. A long frame shows the last opcode. -/
theorem action_twins (entry : Entry) (twins : m.Twins n)
    (opcodes : ∀ vector fault, entry = .long vector fault → m.hooks.vectors vector = none →
      n.opcode = m.opcode) : Together Twins (entry.action m) (entry.action n) := by
  have same : n.hooks.vectors entry.vector = m.hooks.vectors entry.vector := by rw [twins.hooks]
  cases found : m.hooks.vectors entry.vector with
  | some hook =>
    rw [found] at same
    rw [Entry.action_of_hook found, Entry.action_of_hook same]
    have hooked : (n.mapRegisters entry.hooked).registers = (m.mapRegisters entry.hooked).registers :=
      congrArg entry.hooked twins.registers
    have called := twins.hooksPure.vectors entry.vector hook found
      (m.mapRegisters entry.hooked).registers m.host n.host twins.ram
    unfold Exec.callHook
    rw [hooked]
    exact ⟨rfl, { twins with
      registers := congrArg (fun r : Registers => { r with status := r.status &&& StatusWord.implemented })
        called.1
      ram := called.2 }⟩
  | none =>
    rw [found] at same
    have plain : Exec.Plain (m.inHandler entry.mask).registers.status.system (fun _ => False)
        (entry.stack m.opcode m.registers.status : Exec World Unit) :=
      entry.plain_stack (m.has_supervisor_inHandler entry.mask) _ _
    have stack : (entry.stack n.opcode n.registers.status : Exec World Unit) =
        entry.stack m.opcode m.registers.status := by
      cases entry with
      | short vector returnAddress mask => exact congrArg _ (congrArg Registers.status twins.registers)
      | long vector fault => rw [opcodes vector fault rfl found, twins.registers]
    rw [Entry.action_of_unhooked found, Entry.action_of_unhooked same, stack]
    exact plain.together agreement_twins (inHandler_twins twins entry.mask) rfl

theorem processing_twins {action : Exec World Unit}
    (alike : Together Twins (action { m with processingException := true })
      (action { n with processingException := true })) :
    ∃ raised after after', m.processing action = (raised, after) ∧
      n.processing action = (raised, after') ∧ after.Twins after' := by
  obtain ⟨_, _, _, left, right, after⟩ | ⟨e, _, _, left, right, after⟩ := alike.cases
  · exact ⟨none, _, _, processing_of_ok left, processing_of_ok right, after.withProcessing false⟩
  · exact ⟨some e, _, _, processing_of_error left, processing_of_error right,
      after.withProcessing false⟩

theorem halt_twins (twins : m.Twins n) : m.halt.Twins n.halt := by
  have logged := twins.log (.doubleFault m.instructionAddress) (.doubleFault n.instructionAddress)
  exact { logged with state := rfl, ram := twins.ram }

theorem processFault_twins (twins : m.Twins n) (vector : VectorNumber) (fault : AccessFault)
    (opcodes : m.hooks.vectors vector = none → n.opcode = m.opcode) :
    (n.processFault vector fault).1 = (m.processFault vector fault).1 ∧
      (m.processFault vector fault).2.Twins (n.processFault vector fault).2 := by
  have logged := twins.log (.accessFault vector fault.write fault.address)
    (.accessFault vector fault.write fault.address)
  have alike := action_twins (.long vector fault) (logged.withProcessing true) fun _ _ same => by
    cases same
    exact opcodes
  obtain ⟨raised, framed, framed', left, right, after⟩ := processing_twins alike
  change Machine.processing _ (Exec.enterLong vector fault) = _ at left right
  unfold processFault
  rw [left, right]
  cases raised with
  | none => exact ⟨rfl, after⟩
  | some e => exact ⟨rfl, halt_twins after⟩

/-- An exception with a short frame. The stale opcode shows where stacking it comes to a failed access. -/
theorem processVector_twins (twins : m.Twins n) (vector : VectorNumber) (returnAddress : BitVec 32)
    (mask : Option (Fin 8)) (cost : Nat)
    (opcodes : ∀ e failed, Exec.enterShort vector returnAddress mask
        { m with processingException := true } = .error e failed → e.IsFault →
      m.hooks.vectors (Cause.exception e).vector = none → n.opcode = m.opcode) :
    (n.processVector vector returnAddress mask cost).1 =
        (m.processVector vector returnAddress mask cost).1 ∧
      (m.processVector vector returnAddress mask cost).2.Twins
        (n.processVector vector returnAddress mask cost).2 := by
  have alike := action_twins (.short vector returnAddress mask) (twins.withProcessing true) nofun
  change Together Twins (Exec.enterShort vector returnAddress mask _)
    (Exec.enterShort vector returnAddress mask _) at alike
  unfold processVector
  obtain ⟨_, _, _, left, right, after⟩ | ⟨e, failed, failed', left, right, after⟩ := alike.cases
  · rw [processing_of_ok left, processing_of_ok right]
    exact ⟨rfl, after.withProcessing false⟩
  · have settled := after.withProcessing false
    have raised : (Entry.short vector returnAddress mask).action _ = .error e failed := left
    have raised' : (Entry.short vector returnAddress mask).action _ = .error e failed' := right
    -- what the error shows in turn
    have shown (fault : e.IsFault)
        (unhooked : failed.hooks.vectors (Cause.exception e).vector = none) :
        failed'.opcode = failed.opcode := by
      rw [Entry.frame_of_error raised] at unhooked
      rw [Entry.frame_of_error raised, Entry.frame_of_error raised']
      exact opcodes e failed left fault unhooked
    rw [processing_of_error left, processing_of_error right]
    cases e with
    | busError fault =>
      obtain ⟨spent, after⟩ := processFault_twins settled .busError fault (shown trivial)
      exact ⟨congrArg (cost + ·) spent, after⟩
    | addressError fault =>
      obtain ⟨spent, after⟩ := processFault_twins settled .addressError fault (shown trivial)
      exact ⟨congrArg (cost + ·) spent, after⟩
    | _ => exact ⟨rfl, halt_twins settled⟩

/-- The step comes to a bus or address error, no hook takes its place, and no opcode has been fetched by
then. -/
def FaultsUnfetched (m : Machine World) : Prop :=
  m.opcode? = none ∧ ∃ e stacking began, m.Faults e stacking began ∧ e.IsFault ∧
    m.hooks.vectors (Cause.exception e).vector = none

theorem isShort_of_entry {cause : Cause} {vector : VectorNumber} {returnAddress : BitVec 32}
    {mask : Option (Fin 8)} (entry : m.entry cause = .short vector returnAddress mask) :
    cause.IsShort := by
  cases cause with
  | trace => exact trivial
  | interrupt level vector => exact trivial
  | exception e => cases e <;> first | exact id | cases entry

theorem exists_exception_of_entry {cause : Cause} {vector : VectorNumber} {fault : AccessFault}
    (entry : m.entry cause = .long vector fault) :
    ∃ e, cause = .exception e ∧ e.IsFault ∧ (Cause.exception e).vector = vector := by
  cases cause with
  | trace => cases entry
  | interrupt level vector => cases entry
  | exception e => cases e <;> cases entry <;> exact ⟨_, rfl, trivial, rfl⟩

/-- Twins show the same opcode where they come to a bus or address error. If they differ in the last one,
the next one has to be fetched by then. -/
theorem shownOpcode_twins (twins : m.Twins n) (fresh : n.opcode = m.opcode ∨ ¬m.FaultsUnfetched)
    {e : Exception} {stacking : Bool} {began : Machine World} (faults : m.Faults e stacking began)
    (fault : e.IsFault)
    (unhooked : m.prologue.machine.hooks.vectors (Cause.exception e).vector = none) :
    n.prologue.machine.opcode = m.prologue.machine.opcode := by
  have hooks : m.prologue.machine.hooks = m.hooks := m.evolves_prologue.hooks
  rw [hooks] at unhooked
  rw [opcode_prologue, opcode_prologue, lastOpcode, lastOpcode, opcode?_twins twins]
  cases fetched : m.opcode? with
  | some opcode => rfl
  | none =>
    rcases fresh with same | clean
    · exact same
    · exact absurd ⟨fetched, e, stacking, began, faults, fault, unhooked⟩ clean

/-- Twins end their steps alike, up to the charge. -/
theorem finish_twins (twins : m.Twins n) (fresh : n.opcode = m.opcode ∨ ¬m.FaultsUnfetched) :
    n.prologue.finish.1 = m.prologue.finish.1 ∧ m.prologue.finish.2.Twins n.prologue.finish.2 := by
  obtain ⟨cost, cause, machine⟩ := prologue_twins twins
  cases found : m.prologue.cause with
  | none =>
    rw [found] at cause
    rw [Prologue.finish, Prologue.finish, found, cause]
    exact ⟨cost, machine⟩
  | some why =>
    rw [found] at cause
    have entries := entry_twins twins found cause
    have processed : (n.prologue.machine.process why).1 = (m.prologue.machine.process why).1 ∧
        (m.prologue.machine.process why).2.Twins (n.prologue.machine.process why).2 := by
      cases entry : m.prologue.machine.entry why with
      | short vector returnAddress mask =>
        rw [entry] at entries
        rw [process_short entry, process_short entries]
        apply processVector_twins (machine.log _ _)
        intro e failed raised fault unhooked
        have faults : m.Faults e true { failed with processingException := false } := by
          apply Faults.stacking found (isShort_of_entry entry)
          rw [entry]
          exact raised
        exact shownOpcode_twins twins fresh faults fault unhooked
      | long vector fault =>
        rw [entry] at entries
        rw [process_long entry, process_long entries]
        apply processFault_twins machine
        intro unhooked
        obtain ⟨e, rfl, isFault, rfl⟩ := exists_exception_of_entry entry
        exact shownOpcode_twins twins fresh (.instruction found) isFault unhooked
    rw [Prologue.finish, Prologue.finish, found, cause]
    dsimp only
    rw [cost, processed.1]
    exact ⟨rfl, processed.2⟩

theorem charge_twins (twins : m.Twins n) (cycles : Int) :
    (m.charge cycles).2.Twins (n.charge cycles).2 := by
  unfold charge
  dsimp only
  rw [twins.cycles]
  split
  · exact { twins with cycles := rfl, ram := twins.ram }
  · exact { twins with cycles := rfl, ram := twins.ram }

theorem step_twins (twins : m.Twins n) (fresh : n.opcode = m.opcode ∨ ¬m.FaultsUnfetched) :
    n.step.1 = m.step.1 ∧ m.step.2.Twins n.step.2 := by
  obtain ⟨cost, after⟩ := finish_twins twins fresh
  rw [step_eq, step_eq, cost]
  exact ⟨rfl, charge_twins after _⟩

theorem opcode_step (m : Machine World) : m.step.2.opcode = m.lastOpcode := by
  have processed : m.prologue.machine.Processed m.prologue.finish.2 := by
    unfold Prologue.finish
    split
    · exact .refl _
    · exact processed_process _ _
  rw [← opcode_prologue, step_eq, charge_frame, processed.frame]

end Machine

end MC68000
