import MC68000.Proofs.Entry

set_option autoImplicit false

namespace MC68000

variable {World : Type}

/-- Why an exception is processed. -/
inductive Cause where
  | exception (e : Exception)
  | trace
  | interrupt (level : Fin 8) (vector : VectorNumber)

/-- The cost of processing, but for what a failed access adds. -/
def Cause.cost : Cause → Nat
  | exception (.busError _) | exception (.addressError _) => Timing.accessFault
  | exception (.trap _ cost) => cost
  | exception _ | trace => Timing.exception
  | interrupt _ _ => Timing.interrupt

/-- A step up to where it processes an exception, if it does. -/
structure Prologue (World : Type) where
  machine : Machine World
  cost : Nat
  cause : Option Cause

namespace Machine

/-- How an exception is entered. Refused instructions are returned to, all others returned from. -/
def entry (m : Machine World) : Cause → Entry
  | .exception (.busError fault) => .long .busError fault
  | .exception (.addressError fault) => .long .addressError fault
  | .exception .illegal => .short .illegal m.instructionAddress none
  | .exception .privilege => .short .privilege m.instructionAddress none
  | .exception .lineA => .short .lineA m.instructionAddress none
  | .exception .lineF => .short .lineF m.instructionAddress none
  | .exception (.trap vector _) => .short vector m.registers.pc none
  | .trace => .short .trace m.registers.pc none
  | .interrupt level vector => .short vector m.registers.pc (some level)

def entryRecord (m : Machine World) (cause : Cause) : LogRecord :=
  match cause, m.entry cause with
  | .interrupt level vector, _ => .interrupt level vector
  | _, .short vector _ _ => .exception vector m.instructionAddress
  | _, .long vector fault => .accessFault vector fault.write fault.address

/-- The machine on which the entry of an exception runs. -/
def entered (m : Machine World) (cause : Cause) : Machine World :=
  { m.log (m.entryRecord cause) with processingException := true }

def process (m : Machine World) : Cause → Nat × Machine World
  | .exception e => m.processException e
  | .trace => m.processTrace
  | .interrupt level vector =>
    (m.log (.interrupt level vector)).processVector vector m.registers.pc (some level)
      Timing.interrupt

/-- Takes the request of an interrupt level and wakes up. -/
def takeRequest (m : Machine World) (level : Fin 8) : Machine World :=
  { { m with interrupts := (m.interrupts.acknowledge level).2 }.callAcknowledge level with
    state := .running }

/-- The machine as a step begins an instruction. -/
def beginning (m : Machine World) : Machine World :=
  { m with activity := [], instructionAddress := m.registers.pc }

/-- One instruction, and what it comes to. -/
def instructionPrologue (m : Machine World) : Prologue World :=
  match Exec.nextInstruction { m with instructionAddress := m.registers.pc } with
  | .ok cost after =>
    ⟨after, cost, if m.registers.isTracing ∧ after.state = .running then some .trace else none⟩
  | .error e after => ⟨after, 0, some (.exception e)⟩

/-- A step up to where it processes an exception. -/
def prologue (m : Machine World) : Prologue World :=
  let m := { m with activity := [] }
  match m.state with
  | .poweredOn | .halted => ⟨m, 0, none⟩
  | state =>
    match m.interrupts.highestAbove m.registers.interruptMask with
    | some level =>
      ⟨m.takeRequest level, 0,
        some (.interrupt level ((m.interrupts.acknowledge level).1.number level))⟩
    | none => if state = .running then m.instructionPrologue else ⟨m, 0, none⟩

end Machine

/-- The rest of a step. -/
def Prologue.finish (p : Prologue World) : Nat × Machine World :=
  match p.cause with
  | none => (p.cost, p.machine)
  | some cause => (p.cost + (p.machine.process cause).1, (p.machine.process cause).2)

namespace Machine

theorem runInstruction_eq (m : Machine World) :
    m.runInstruction = m.instructionPrologue.finish := by
  unfold runInstruction instructionPrologue
  cases Exec.nextInstruction { m with instructionAddress := m.registers.pc } with
  | ok cost after =>
    dsimp only
    split <;> rfl
  | error e after => exact Prod.ext (Nat.zero_add _).symm rfl

theorem acceptInterrupt_eq (m : Machine World) (level : Fin 8) :
    m.acceptInterrupt level = Prologue.finish ⟨m.takeRequest level, 0,
      some (.interrupt level ((m.interrupts.acknowledge level).1.number level))⟩ :=
  Prod.ext (Nat.zero_add _).symm rfl

theorem finish_prologue (m : Machine World) :
    m.prologue.finish = advance { m with activity := [] } := by
  unfold advance prologue
  dsimp only
  cases m.state with
  | poweredOn => rfl
  | halted => rfl
  | running =>
    cases m.interrupts.highestAbove m.registers.interruptMask with
    | some level => exact (acceptInterrupt_eq _ level).symm
    | none => exact (runInstruction_eq _).symm
  | stopped =>
    cases m.interrupts.highestAbove m.registers.interruptMask with
    | some level => exact (acceptInterrupt_eq _ level).symm
    | none => rfl

/-- A step is its prologue and the processing of what that comes to, and its cost is charged. -/
theorem step_eq (m : Machine World) :
    m.step = (m.prologue.finish.1, (m.prologue.finish.2.charge m.prologue.finish.1).2) := by
  rw [finish_prologue]
  rfl

theorem process_short {m : Machine World} {cause : Cause} {vector : VectorNumber}
    {returnAddress : BitVec 32} {mask : Option (Fin 8)}
    (h : m.entry cause = .short vector returnAddress mask) :
    m.process cause =
      (m.log (m.entryRecord cause)).processVector vector returnAddress mask cause.cost := by
  cases cause with
  | exception e => cases e <;> cases h <;> rfl
  | trace => cases h; rfl
  | interrupt level vector => cases h; rfl

theorem process_long {m : Machine World} {cause : Cause} {vector : VectorNumber}
    {fault : AccessFault} (h : m.entry cause = .long vector fault) :
    m.process cause = m.processFault vector fault := by
  cases cause with
  | exception e => cases e <;> cases h <;> rfl
  | trace => cases h
  | interrupt level vector => cases h

theorem processed_process (m : Machine World) (cause : Cause) :
    m.Processed (m.process cause).2 := by
  cases entry : m.entry cause with
  | short vector returnAddress mask =>
    rw [process_short entry]
    exact (processed_log m _).trans (processed_processVector _ _ _ _ _)
  | long vector fault =>
    rw [process_long entry]
    exact processed_processFault m vector fault

/-- Ordinary effects on a machine that may have fetched a new opcode. -/
def Executes (m m' : Machine World) : Prop := Effects { m with opcode := m'.opcode } m'

theorem Executes.frame {m m' : Machine World} (h : m.Executes m') :
    m' = { m with
      registers := m'.registers
      opcode := m'.opcode
      host := m'.host
      activity := m'.activity } := Effects.frame h

theorem Executes.evolves {m m' : Machine World} (h : m.Executes m') : m.Evolves m' :=
  ⟨(Effects.evolves h).wiring, (Effects.evolves h).host⟩

theorem Executes.unprivileged {m m' : Machine World} (h : m.Executes m') :
    m.registers.Unprivileged m'.registers :=
  Effects.unprivileged (m := { m with opcode := m'.opcode }) h

theorem Effects.executes {m fetched m' : Machine World} (before : m.Effects fetched)
    {opcode : BitVec 16} (after : Effects { fetched with opcode } m') : m.Executes m' := by
  unfold Executes
  rw [after.opcode]
  exact (before.withOpcode opcode).trans after

theorem nextInstruction_outcome (m : Machine World) :
    Ends (Exec.nextInstruction m)
      (fun _ m' => m.Executes m' ∨ m.registers.isSupervisor = true ∧
        ∃ (before : Machine World) (change : SupervisorChange),
          change.Implemented ∧ m.Executes before ∧ m' = change.apply before)
      fun e m' => m.Executes m' ∧ ((Instruction.decode m'.opcode).MayRaise e ∨ e.IsFault) := by
  unfold Exec.nextInstruction
  refine Ends.bind (?_ : Ends _ (fun _ m' => m.Effects m') _) fun opcode fetched before => ?_
  · apply (Exec.fetchWord_effects m).mono
    · exact fun _ _ => id
    · exact fun _ _ after => ⟨after.1.executes .refl, .inr after.2⟩
  · have supervisor := before.isSupervisor
    refine (Instruction.execute_outcome opcode { fetched with opcode }).mono ?_ ?_
    · rintro _ m' (after | ⟨privileged, last, change, implemented, after, rfl⟩)
      · exact .inl (before.executes after)
      · exact .inr ⟨supervisor.symm.trans privileged, last, change, implemented,
          before.executes after, rfl⟩
    · intro e m' after
      rw [after.1.opcode]
      exact ⟨before.executes after.1, after.2⟩

/-- Where the prologue comes to: nothing, an interrupt, or an instruction. -/
theorem prologue_cases (m : Machine World) :
    m.prologue = ⟨{ m with activity := [] }, 0, none⟩ ∧
        (m.state ≠ .running ∧ m.state ≠ .stopped ∨
          m.state = .stopped ∧ m.interrupts.highestAbove m.registers.interruptMask = none) ∨
      (∃ level, m.interrupts.highestAbove m.registers.interruptMask = some level ∧
        (m.state = .running ∨ m.state = .stopped) ∧
        m.prologue = ⟨takeRequest { m with activity := [] } level, 0,
          some (.interrupt level ((m.interrupts.acknowledge level).1.number level))⟩) ∨
      m.state = .running ∧ m.interrupts.highestAbove m.registers.interruptMask = none ∧
        m.prologue = instructionPrologue { m with activity := [] } := by
  unfold prologue
  dsimp only
  cases m.state with
  | poweredOn => exact .inl ⟨rfl, .inl ⟨nofun, nofun⟩⟩
  | halted => exact .inl ⟨rfl, .inl ⟨nofun, nofun⟩⟩
  | running =>
    cases m.interrupts.highestAbove m.registers.interruptMask with
    | some level => exact .inr (.inl ⟨level, rfl, .inl rfl, rfl⟩)
    | none => exact .inr (.inr ⟨rfl, rfl, rfl⟩)
  | stopped =>
    cases m.interrupts.highestAbove m.registers.interruptMask with
    | some level => exact .inr (.inl ⟨level, rfl, .inr rfl, rfl⟩)
    | none => exact .inl ⟨rfl, .inr ⟨rfl, rfl⟩⟩

theorem prologue_of_rest {m : Machine World} (rest : m.state ≠ .running ∧ m.state ≠ .stopped ∨
    m.state = .stopped ∧ m.interrupts.highestAbove m.registers.interruptMask = none) :
    m.prologue = ⟨{ m with activity := [] }, 0, none⟩ := by
  obtain ⟨same, _⟩ | ⟨level, found, awake, _⟩ | ⟨running, _, _⟩ := m.prologue_cases
  · exact same
  · rcases rest with dead | ⟨_, none⟩
    · exact absurd awake (not_or.mpr dead)
    · rw [none] at found
      cases found
  · rw [running] at rest
    rcases rest with dead | ⟨stopped, _⟩
    · exact absurd rfl dead.1
    · cases stopped

theorem prologue_of_interrupt {m : Machine World} {level : Fin 8}
    (awake : m.state = .running ∨ m.state = .stopped)
    (found : m.interrupts.highestAbove m.registers.interruptMask = some level) :
    m.prologue = ⟨takeRequest { m with activity := [] } level, 0,
      some (.interrupt level ((m.interrupts.acknowledge level).1.number level))⟩ := by
  obtain ⟨_, dead | ⟨_, none⟩⟩ | ⟨other, highest, _, same⟩ | ⟨_, none, _⟩ := m.prologue_cases
  · exact absurd awake (not_or.mpr dead)
  · rw [none] at found
    cases found
  · rw [highest] at found
    cases found
    exact same
  · rw [none] at found
    cases found

theorem prologue_of_instruction {m : Machine World} (running : m.state = .running)
    (none : m.interrupts.highestAbove m.registers.interruptMask = none) :
    m.prologue = instructionPrologue { m with activity := [] } := by
  obtain ⟨_, dead | ⟨stopped, _⟩⟩ | ⟨level, found, _, _⟩ | ⟨_, _, same⟩ := m.prologue_cases
  · exact absurd running dead.1
  · rw [running] at stopped
    cases stopped
  · rw [none] at found
    cases found
  · exact same

/-- How an instruction leaves the machine when it raises an exception, and when it does not. -/
theorem instructionPrologue_cases (m : Machine World) :
    let p := m.instructionPrologue
    let start := { m with instructionAddress := m.registers.pc }
    (∃ e, p.cause = some (.exception e) ∧ start.Executes p.machine ∧
        ((Instruction.decode p.machine.opcode).MayRaise e ∨ e.IsFault)) ∨
      (p.cause = none ∨
        p.cause = some .trace ∧ m.registers.isTracing = true ∧ p.machine.state = .running) ∧
      (start.Executes p.machine ∨ m.registers.isSupervisor = true ∧
        ∃ (before : Machine World) (change : SupervisorChange),
          change.Implemented ∧ start.Executes before ∧ p.machine = change.apply before) := by
  have outcome := nextInstruction_outcome { m with instructionAddress := m.registers.pc }
  unfold instructionPrologue
  cases found : Exec.nextInstruction { m with instructionAddress := m.registers.pc } with
  | ok cost after =>
    rw [found] at outcome
    refine .inr ⟨?_, outcome⟩
    dsimp only
    split
    next traced => exact .inr ⟨rfl, traced⟩
    next => exact .inl rfl
  | error e after =>
    rw [found] at outcome
    exact .inl ⟨e, rfl, outcome⟩

theorem charge_frame (m : Machine World) (cycles : Int) :
    (m.charge cycles).2 = { m with
      cycles := (m.charge cycles).2.cycles
      total := (m.charge cycles).2.total } := by
  unfold charge
  split <;> rfl

theorem charge_of_nonneg (m : Machine World) {cycles : Nat} (small : cycles ≤ 0xFFFFFFFF) :
    m.charge cycles = ((cycles : Int), { m with
      cycles := m.cycles + BitVec.ofNat 32 cycles
      total := m.total.add ⟨cycles⟩ }) := by
  unfold charge
  rw [if_pos (Int.natCast_nonneg cycles), Int.natAbs_natCast, Nat.min_eq_left small]

theorem evolves_charge (m : Machine World) (cycles : Int) : m.Evolves (m.charge cycles).2 := by
  rw [charge_frame]
  exact .inside rfl rfl

/-- Taking a request changes the lines, the state and, where a hook is called, the world. -/
theorem takeRequest_frame (m : Machine World) (level : Fin 8) :
    m.takeRequest level = { m with
      interrupts := (m.interrupts.acknowledge level).2
      state := .running
      host := (m.takeRequest level).host } := by
  unfold takeRequest callAcknowledge
  dsimp only
  split <;> rfl

theorem registers_takeRequest (m : Machine World) (level : Fin 8) :
    (m.takeRequest level).registers = m.registers := by
  rw [takeRequest_frame]

theorem evolves_takeRequest (m : Machine World) (level : Fin 8) :
    m.Evolves (m.takeRequest level) :=
  have taken : m.Evolves { m with interrupts := (m.interrupts.acknowledge level).2 } :=
    .inside rfl rfl
  (taken.trans (evolves_callAcknowledge _ level)).trans (.inside rfl rfl)

theorem evolves_instructionPrologue (m : Machine World) :
    m.Evolves m.instructionPrologue.machine := by
  have start : m.Evolves { m with instructionAddress := m.registers.pc } := .inside rfl rfl
  obtain ⟨_, _, executes, _⟩ | ⟨_, executes | ⟨_, before, change, _, executes, same⟩⟩ :=
    m.instructionPrologue_cases
  · exact start.trans executes.evolves
  · exact start.trans executes.evolves
  · rw [same]
    exact (start.trans executes.evolves).trans (evolves_apply before change)

theorem evolves_prologue (m : Machine World) : m.Evolves m.prologue.machine := by
  have start : m.Evolves { m with activity := [] } := .inside rfl rfl
  obtain ⟨same, _⟩ | ⟨level, _, _, same⟩ | ⟨_, _, same⟩ := m.prologue_cases
  · rw [same]
    exact start
  · rw [same]
    exact start.trans (evolves_takeRequest _ level)
  · rw [same]
    exact start.trans (evolves_instructionPrologue _)

theorem evolves_step (m : Machine World) : m.Evolves m.step.2 := by
  rw [step_eq]
  refine Evolves.trans ?_ (evolves_charge _ _)
  have start := m.evolves_prologue
  unfold Prologue.finish
  split
  next => exact start
  next cause _ => exact start.trans (processed_process _ cause).evolves

theorem state_apply (m : Machine World) (change : SupervisorChange) :
    (change.apply m).state = m.state ∨ (change.apply m).state = .stopped := by
  cases change with
  | registers f => exact .inl rfl
  | reset =>
    unfold SupervisorChange.apply
    cases m.hooks.reset <;> exact .inl rfl
  | stop status => exact .inr rfl

theorem Executes.state {m m' : Machine World} (h : m.Executes m') : m'.state = m.state := by
  rw [h.frame]

/-- What is left to the supervisor changes the registers, the state and the world. -/
theorem apply_frame (m : Machine World) (change : SupervisorChange) :
    change.apply m = { m with
      registers := (change.apply m).registers
      state := (change.apply m).state
      host := (change.apply m).host } := by
  cases change with
  | registers f => rfl
  | reset =>
    unfold SupervisorChange.apply
    cases m.hooks.reset <;> rfl
  | stop status => rfl

theorem interrupts_apply (m : Machine World) (change : SupervisorChange) :
    (change.apply m).interrupts = m.interrupts := by
  rw [apply_frame]

theorem activity_apply (m : Machine World) (change : SupervisorChange) :
    (change.apply m).activity = m.activity := by
  rw [apply_frame]

theorem opcode_apply (m : Machine World) (change : SupervisorChange) :
    (change.apply m).opcode = m.opcode := by
  rw [apply_frame]

theorem Executes.interrupts {m m' : Machine World} (h : m.Executes m') :
    m'.interrupts = m.interrupts := by
  rw [h.frame]

theorem interrupts_instructionPrologue (m : Machine World) :
    m.instructionPrologue.machine.interrupts = m.interrupts := by
  obtain ⟨_, _, executes, _⟩ | ⟨_, executes | ⟨_, before, change, _, executes, same⟩⟩ :=
    m.instructionPrologue_cases
  · exact executes.interrupts
  · exact executes.interrupts
  · rw [same, interrupts_apply]
    exact executes.interrupts

theorem interrupts_takeRequest (m : Machine World) (level : Fin 8) :
    (m.takeRequest level).interrupts = (m.interrupts.acknowledge level).2 := by
  rw [takeRequest_frame]

/-- Up to the processing of an exception a step leaves the wiring, the accounts and the flag for exceptions in
progress alone. -/
theorem prologue_frame (m : Machine World) :
    m.prologue.machine = { m with
      registers := m.prologue.machine.registers
      interrupts := m.prologue.machine.interrupts
      state := m.prologue.machine.state
      opcode := m.prologue.machine.opcode
      instructionAddress := m.prologue.machine.instructionAddress
      activity := m.prologue.machine.activity
      host := m.prologue.machine.host } := by
  obtain ⟨same, _⟩ | ⟨level, _, _, same⟩ | ⟨_, _, same⟩ := m.prologue_cases
  · rw [same]
  · rw [same]
    dsimp only
    rw [takeRequest_frame]
  · rw [same]
    obtain ⟨_, _, executes, _⟩ | ⟨_, executes | ⟨_, before, change, _, executes, same⟩⟩ :=
      instructionPrologue_cases { m with activity := [] }
    · rw [executes.frame]
    · rw [executes.frame]
    · rw [same, apply_frame, executes.frame]

theorem state_step {m : Machine World} (on : m.state ≠ .poweredOn) :
    m.step.2.state ≠ .poweredOn := by
  have before : m.prologue.machine.state ≠ .poweredOn := by
    obtain ⟨same, _⟩ | ⟨level, _, _, same⟩ | ⟨_, _, same⟩ := m.prologue_cases
    · rw [same]
      exact on
    · rw [same]
      exact nofun
    · rw [same]
      obtain ⟨_, _, executes, _⟩ | ⟨_, executes | ⟨_, before, change, _, executes, same⟩⟩ :=
        instructionPrologue_cases { m with activity := [] }
      · rwa [executes.state]
      · rwa [executes.state]
      · rw [same]
        rcases state_apply before change with kept | stopped
        · rwa [kept, executes.state]
        · rw [stopped]
          exact nofun
  have after : m.prologue.finish.2.state ≠ .poweredOn := by
    unfold Prologue.finish
    split
    next => exact before
    next cause _ =>
      rcases (processed_process m.prologue.machine cause).state with kept | halted
      · dsimp only
        rwa [kept]
      · dsimp only
        rw [halted]
        exact nofun
  rw [step_eq, charge_frame]
  exact after

theorem implemented_apply {m : Machine World} {change : SupervisorChange}
    (implemented : change.Implemented) (h : m.registers.status.Implemented) :
    (change.apply m).registers.status.Implemented := by
  cases change with
  | registers f => exact implemented _ h
  | reset =>
    unfold SupervisorChange.apply
    cases m.hooks.reset <;> exact h
  | stop status => exact m.registers.implemented_setStatus status

theorem implemented_prologue {m : Machine World} (h : m.registers.status.Implemented) :
    m.prologue.machine.registers.status.Implemented := by
  obtain ⟨same, _⟩ | ⟨level, _, _, same⟩ | ⟨_, _, same⟩ := m.prologue_cases
  · rw [same]
    exact h
  · rw [same, registers_takeRequest]
    exact h
  · rw [same]
    obtain ⟨_, _, executes, _⟩ | ⟨_, executes | ⟨_, before, change, implemented, executes, same⟩⟩ :=
      instructionPrologue_cases { m with activity := [] }
    · exact executes.unprivileged.implemented h
    · exact executes.unprivileged.implemented h
    · rw [same]
      exact implemented_apply implemented (executes.unprivileged.implemented h)

/-- A failed access is entered, and the processor may halt on the way. -/
theorem processFault_frame (m : Machine World) (vector : VectorNumber) (fault : AccessFault) :
    ∃ state host, (m.processFault vector fault).2 = { finalState ((Entry.long vector fault).action
      { m.log (.accessFault vector fault.write fault.address) with
        processingException := true }) with processingException := false, state, host } := by
  have entered :=
    processing_eq (m.log (.accessFault vector fault.write fault.address)) (Entry.long vector fault).action
  change ((m.log _).processing (Exec.enterLong vector fault)).2 = _ at entered
  unfold processFault
  split
  all_goals
    next found =>
      rw [found] at entered
      dsimp only at entered ⊢
      rw [entered]
      exact ⟨_, _, rfl⟩

theorem registers_processFault (m : Machine World) (vector : VectorNumber) (fault : AccessFault) :
    (m.processFault vector fault).2.registers = (finalState ((Entry.long vector fault).action
      { m.log (.accessFault vector fault.write fault.address) with
        processingException := true })).registers := by
  obtain ⟨_, _, same⟩ := m.processFault_frame vector fault
  rw [same]

theorem activity_processFault (m : Machine World) (vector : VectorNumber) (fault : AccessFault) :
    m.activity <+: (m.processFault vector fault).2.activity := by
  obtain ⟨_, _, same⟩ := m.processFault_frame vector fault
  rw [same]
  exact (Entry.long vector fault).activity
    { m.log (.accessFault vector fault.write fault.address) with processingException := true }

/-- Processing goes on from the entry, which has its bus cycles before all others. -/
theorem activity_processVector (m : Machine World) (vector : VectorNumber)
    (returnAddress : BitVec 32) (mask : Option (Fin 8)) (cost : Nat) :
    (m.processing (Exec.enterShort vector returnAddress mask)).2.activity <+:
      (m.processVector vector returnAddress mask cost).2.activity := by
  obtain ⟨_, same⟩ | ⟨fault, _, v, _, _, same⟩ | ⟨_, _, _, same⟩ :=
    m.processVector_cases vector returnAddress mask cost
  · exact same ▸ List.prefix_refl _
  · exact same ▸ activity_processFault _ v fault
  · exact same ▸ List.prefix_refl _

/-- What holds of the registers once an exception has been entered, and stays so where a failed access is
entered after it, holds after it has been processed. -/
theorem registers_process {m : Machine World} {cause : Cause} {p : Registers → Prop}
    (first : p (finalState ((m.entry cause).action (m.entered cause))).registers)
    (again : ∀ (m' : Machine World) (vector : VectorNumber) (fault : AccessFault), m.Evolves m' →
      p m'.registers → p (finalState ((Entry.long vector fault).action m')).registers) :
    p (m.process cause).2.registers := by
  cases entry : m.entry cause with
  | long vector fault =>
    have record : m.entryRecord cause = .accessFault vector fault.write fault.address := by
      cases cause with
      | exception e => cases e <;> cases entry <;> rfl
      | trace => cases entry
      | interrupt level vector => cases entry
    rw [entry, entered, record] at first
    rw [process_long entry, registers_processFault]
    exact first
  | short vector returnAddress mask =>
    rw [entry] at first
    have entered : p ((m.log (m.entryRecord cause)).processing
        (Exec.enterShort vector returnAddress mask)).2.registers := by
      rw [processing_eq]
      exact first
    have evolves : m.Evolves ((m.log (m.entryRecord cause)).processing
        (Exec.enterShort vector returnAddress mask)).2 :=
      ((processed_log m _).trans (processed_processing _ (.short vector returnAddress mask))).evolves
    rw [process_short entry]
    obtain ⟨_, same⟩ | ⟨fault, _, v, _, _, same⟩ | ⟨_, _, _, same⟩ :=
      (m.log (m.entryRecord cause)).processVector_cases vector returnAddress mask cause.cost
    · rw [same]
      exact entered
    · rw [same]
      dsimp only
      rw [registers_processFault]
      exact again _ v fault ((evolves.trans (evolves_log _ _)).trans (.inside rfl rfl)) entered
    · rw [same]
      exact entered

/-- No step makes a bit of the status word that does not exist. -/
theorem implemented_step {m : Machine World} (h : m.registers.status.Implemented) :
    m.step.2.registers.status.Implemented := by
  rw [step_eq, charge_frame, Prologue.finish]
  cases m.prologue.cause with
  | none => exact implemented_prologue h
  | some cause =>
    exact registers_process (p := fun r => r.status.Implemented) (Entry.implemented_final _ _)
      fun _ _ _ _ _ => Entry.implemented_final _ _

theorem processingException_prologue (m : Machine World) :
    m.prologue.machine.processingException = m.processingException := by
  rw [prologue_frame]

/-- Once an exception has been processed, none is in progress. -/
theorem processingException_process (m : Machine World) (cause : Cause) :
    (m.process cause).2.processingException = false := by
  have processed (m : Machine World) (vector : VectorNumber) (fault : AccessFault) :
      (m.processFault vector fault).2.processingException = false := by
    obtain ⟨_, _, same⟩ := m.processFault_frame vector fault
    rw [same]
  cases entry : m.entry cause with
  | long vector fault =>
    rw [process_long entry]
    exact processed m vector fault
  | short vector returnAddress mask =>
    have entered : ((m.log (m.entryRecord cause)).processing
        (Exec.enterShort vector returnAddress mask)).2.processingException = false := by
      rw [processing_eq]
    rw [process_short entry]
    obtain ⟨_, same⟩ | ⟨fault, _, v, _, _, same⟩ | ⟨_, _, _, same⟩ :=
      (m.log (m.entryRecord cause)).processVector_cases vector returnAddress mask cause.cost
    · rw [same]
      exact entered
    · rw [same]
      exact processed _ v fault
    · rw [same]
      exact entered

/-- No exception is in progress between two steps. -/
theorem processingException_step {m : Machine World} (settled : m.processingException = false) :
    m.step.2.processingException = false := by
  rw [step_eq, charge_frame, Prologue.finish]
  cases m.prologue.cause with
  | none => exact m.processingException_prologue.trans settled
  | some cause => exact processingException_process m.prologue.machine cause

end Machine

end MC68000
