import MC68000.Proofs.Attempts
import MC68000.Proofs.LongFrame

set_option autoImplicit false

namespace MC68000

variable {World : Type}

/-- The machine on which an access has just failed. -/
def Machine.Records (m : Machine World) (e : Exception) : Prop :=
  ∃ (access : MemoryAccess) (before : Machine World), access.Raises before e m

namespace Exec

theorem FailsAtAccess.records {α : Type} {x : Exec World α} {m m' : Machine World} {e : Exception}
    (fails : FailsAtAccess x m e m') : m'.Records e := by
  obtain ⟨access, before, -, failed, -⟩ := fails
  have ends := access.perform_ends before
  rw [failed] at ends
  exact ⟨access, before, ends⟩

/-- Where an instruction ends in a failed access, its exception is the one of that access. -/
theorem nextInstruction_records {m m' : Machine World} {e : Exception}
    (failed : nextInstruction m = .error e m') (fault : e.IsFault) : m'.Records e := by
  rcases nextInstruction_failsAtAccess failed fault with unread | ⟨_, _, _, fails⟩
  · have ends := read_ends m.programSpace .word m.registers.pc m
    rw [unread] at ends
    exact ⟨_, m, ends⟩
  · exact fails.records

end Exec

/-- The opcode that is fetched next, if it can be. -/
def Machine.fetched? (m : Machine World) : Option (BitVec 16) :=
  match Exec.fetchWord m with
  | .ok opcode _ => some opcode
  | .error _ _ => none

/-- Where the fetch fails, the opcode of the last instruction stays in place. -/
theorem Exec.opcode_nextInstruction (m : Machine World) :
    (finalState (nextInstruction m)).opcode = m.fetched?.getD m.opcode := by
  have fetches := fetchWord_effects m
  unfold Machine.fetched?
  cases found : fetchWord m with
  | error e fetched =>
    have fails : nextInstruction m = .error e fetched := bind_of_error found
    rw [found] at fetches
    rw [fails]
    exact fetches.1.opcode
  | ok opcode fetched =>
    have executes : nextInstruction m =
        (Instruction.decode opcode).execute { fetched with opcode } := bind_of_ok found
    have same : Ends ((Instruction.decode opcode).execute { fetched with opcode })
        (fun _ m' => m'.opcode = opcode) fun _ m' => m'.opcode = opcode := by
      apply (Instruction.execute_outcome opcode { fetched with opcode }).mono
      · rintro _ m' (effects | ⟨_, before, change, _, effects, rfl⟩)
        · exact effects.opcode
        · rw [Machine.opcode_apply]
          exact effects.opcode
      · exact fun _ _ after => after.1.opcode
    rw [executes]
    exact same.final

namespace Machine

def opcode? (m : Machine World) : Option (BitVec 16) :=
  if m.state = .running ∧ m.interrupts.highestAbove m.registers.interruptMask = none then
    m.beginning.fetched?
  else
    none

/-- The last opcode that has been fetched when a step comes to the processing of an exception. -/
def lastOpcode (m : Machine World) : BitVec 16 := m.opcode?.getD m.opcode

theorem machine_instructionPrologue (m : Machine World) : m.instructionPrologue.machine =
    finalState (Exec.nextInstruction { m with instructionAddress := m.registers.pc }) := by
  unfold instructionPrologue
  cases Exec.nextInstruction { m with instructionAddress := m.registers.pc } <;> rfl

theorem opcode_prologue (m : Machine World) : m.prologue.machine.opcode = m.lastOpcode := by
  unfold lastOpcode opcode?
  obtain ⟨same, rest⟩ | ⟨level, found, _, same⟩ | ⟨running, quiet, same⟩ := m.prologue_cases
  · have idle : ¬(m.state = .running ∧
        m.interrupts.highestAbove m.registers.interruptMask = none) := by
      rintro ⟨running, _⟩
      rw [running] at rest
      rcases rest with dead | ⟨stopped, _⟩
      · exact dead.1 rfl
      · cases stopped
    rw [if_neg idle, same]
    rfl
  · have busy : ¬(m.state = .running ∧
        m.interrupts.highestAbove m.registers.interruptMask = none) := by
      rintro ⟨_, quiet⟩
      rw [found] at quiet
      cases quiet
    rw [if_neg busy, same]
    dsimp only
    rw [takeRequest_frame]
    rfl
  · rw [if_pos ⟨running, quiet⟩, same, machine_instructionPrologue]
    exact Exec.opcode_nextInstruction m.beginning

end Machine

theorem Entry.records {entry : Entry} {m m' : Machine World} {e : Exception}
    (failed : entry.action m = .error e m') : m'.Records e := by
  cases found : m.hooks.vectors entry.vector with
  | some hook =>
    rw [action_of_hook found] at failed
    cases failed
  | none =>
    have plain : Exec.Plain (m.inHandler entry.mask).registers.status.system (fun _ => False)
        (entry.stack m.opcode m.registers.status : Exec World Unit) :=
      entry.plain_stack (m.has_supervisor_inHandler entry.mask) _ _
    rw [action_of_unhooked found] at failed
    exact ((plain.failsAtAccess _ rfl e m' failed).resolve_left id).records

/-- The record of the access that an exception is raised for. -/
def Exception.accessFault? : Exception → Option AccessFault
  | busError fault | addressError fault => some fault
  | _ => none

/-- The record names the direction and the space of the access, and says whether an exception was being
processed. -/
theorem MemoryAccess.Raises.names {access : MemoryAccess} {m m' : Machine World} {e : Exception}
    {fault : AccessFault} (raises : access.Raises m e m') (named : e.accessFault? = some fault) :
    fault.write = access.written.isSome ∧ fault.space = access.space ∧
      fault.instruction = !m'.processingException := by
  cases raises with
  | addressError _ =>
    cases named
    exact ⟨rfl, rfl, rfl⟩
  | @busError b _ _ aligned made unserved =>
    have kept := unserved.kept
    obtain ⟨space, write⟩ := access.names_of_mem_cycles made
    rw [unserved.names] at named
    cases named
    rw [kept]
    exact ⟨write, space, rfl⟩

namespace Machine.Records

variable {m : Machine World} {e : Exception}

theorem exists_fault (records : m.Records e) : ∃ fault, e.accessFault? = some fault := by
  obtain ⟨access, before, raises⟩ := records
  cases raises with
  | addressError _ => exact ⟨_, rfl⟩
  | busError _ _ unserved =>
    rw [unserved.names]
    exact ⟨_, rfl⟩

theorem unmapped {fault : AccessFault} (records : m.Records (.busError fault)) :
    m.memory.config.unmapped = .busError := by
  obtain ⟨access, before, raises⟩ := records
  cases raises with
  | busError _ _ unserved =>
    rw [unserved.kept]
    exact unserved.unmapped

end Machine.Records

namespace Machine

theorem processing_of_ok {m framed : Machine World} {action : Exec World Unit}
    (done : action { m with processingException := true } = .ok () framed) :
    m.processing action = (none, { framed with processingException := false }) := by
  rw [processing, done]

theorem processing_of_error {m failed : Machine World} {action : Exec World Unit} {e : Exception}
    (raised : action { m with processingException := true } = .error e failed) :
    m.processing action = (some e, { failed with processingException := false }) := by
  rw [processing, raised]

/-- An error that is raised while a short frame is stacked is processed next. -/
theorem process_of_entryError {m failed : Machine World} {cause : Cause} {vector : VectorNumber}
    {returnAddress : BitVec 32} {mask : Option (Fin 8)} {e : Exception} {fault : AccessFault}
    (short : m.entry cause = .short vector returnAddress mask)
    (raised : (m.entry cause).action (m.entered cause) = .error e failed)
    (named : e.accessFault? = some fault) :
    (m.process cause).2 = (process { failed with processingException := false } (.exception e)).2 := by
  rw [short] at raised
  have processing := processing_of_error raised
  change Machine.processing _ (Exec.enterShort _ _ _) = _ at processing
  rw [process_short short, processVector, processing]
  cases e <;> first | rfl | cases named

theorem supervisorStack_inHandler (m : Machine World) (mask : Option (Fin 8)) :
    (m.inHandler mask).registers.supervisorStack = m.registers.supervisorStack :=
  Registers.supervisorStack_setStatus _ _

/-- A step of the first machine comes to process an error on the last. The error is raised by an instruction
or, where the flag is set, while a short frame is stacked for another exception. -/
inductive Faults (m : Machine World) (e : Exception) : Bool → Machine World → Prop
  | instruction (found : m.prologue.cause = some (.exception e)) : Faults m e false m.prologue.machine
  | stacking {cause : Cause} {failed : Machine World} (found : m.prologue.cause = some cause)
      (short : cause.IsShort)
      (raised : (m.prologue.machine.entry cause).action (m.prologue.machine.entered cause) =
        .error e failed) : Faults m e true { failed with processingException := false }

/-- The accesses that a step of this machine attempts: its opcode, those of its instruction and, where the flag is
set, those that stack a short frame and read the entry of its vector. -/
inductive Attempts (m : Machine World) : Bool → MemoryAccess → Machine World → Prop
  | fetch : m.Attempts false ⟨m.programSpace, .word, m.registers.pc, none⟩ m.beginning
  | instruction {opcode : BitVec 16} {fetched before : Machine World} {access : MemoryAccess}
      (found : Exec.fetchWord m.beginning = .ok opcode fetched)
      (attempts : Exec.Attempts (Instruction.decode opcode).execute { fetched with opcode } access before) :
      m.Attempts false access before
  | stacking {cause : Cause} {mask : Option (Fin 8)} {before : Machine World} {access : MemoryAccess}
      (found : m.prologue.cause = some cause)
      (entry : m.prologue.machine.entry cause = .short cause.vector (m.returnAddress cause) mask)
      (part : access ∈
        Exec.shortFrameAccesses m.prologue.machine.registers cause.vector (m.returnAddress cause))
      (attempts : Exec.Attempts (Exec.stackShort cause.vector (m.returnAddress cause)
        m.prologue.machine.registers.status) ((m.prologue.machine.entered cause).inHandler mask)
        access before) :
      m.Attempts true access before

namespace Faults

variable {m began : Machine World} {e : Exception} {fault : AccessFault} {stacking : Bool}

/-- The error is processed in the same step. -/
theorem finish (faults : m.Faults e stacking began) (named : e.accessFault? = some fault) :
    m.prologue.finish.2 = (began.process (.exception e)).2 := by
  cases faults with
  | instruction found => rw [Prologue.finish, found]
  | stacking found short raised =>
    obtain ⟨mask, entry⟩ := entry_prologue found short
    rw [Prologue.finish, found]
    exact process_of_entryError entry raised named

theorem state (faults : m.Faults e stacking began) : began.state = .running := by
  cases faults with
  | instruction found => exact state_prologue found
  | stacking found short raised =>
    rw [Entry.frame_of_error raised]
    exact state_prologue found

theorem opcode (faults : m.Faults e stacking began) : began.opcode = m.lastOpcode := by
  rw [← m.opcode_prologue]
  cases faults with
  | instruction found => rfl
  | stacking found short raised =>
    rw [Entry.frame_of_error raised]
    rfl

theorem hooks (faults : m.Faults e stacking began) : began.hooks = m.hooks := by
  have same : m.prologue.machine.hooks = m.hooks := m.evolves_prologue.hooks
  rw [← same]
  cases faults with
  | instruction found => rfl
  | stacking found short raised =>
    rw [Entry.frame_of_error raised]
    rfl

theorem implemented (faults : m.Faults e stacking began)
    (implemented : m.registers.status.Implemented) : began.registers.status.Implemented := by
  cases faults with
  | instruction found => exact implemented_prologue implemented
  | @stacking cause failed found short raised =>
    have kept := (m.prologue.machine.entry cause).implemented_final (m.prologue.machine.entered cause)
    rw [raised] at kept
    exact kept

/-- The error is raised by an access that the step attempts. -/
theorem attempts (faults : m.Faults e stacking began) (fault : e.IsFault)
    (settled : m.processingException = false) :
    ∃ (access : MemoryAccess) (before : Machine World), m.Attempts stacking access before ∧
      access.perform before = .error e { began with processingException := stacking } ∧
      access.space.isSupervisor = began.registers.isSupervisor := by
  cases faults with
  | instruction found =>
    have failed := (nextInstruction_of_exception found).2
    have idle : ({ m.prologue.machine with processingException := false } : Machine World) =
        m.prologue.machine := by
      rw [← settled, ← m.processingException_prologue]
    rw [idle]
    rcases Exec.nextInstruction_failsAtAccess failed fault with unread | ⟨opcode, fetched, found, fails⟩
    · have ends := Exec.read_ends m.beginning.programSpace .word m.beginning.registers.pc m.beginning
      rw [unread] at ends
      have level : m.programSpace.isSupervisor = m.prologue.machine.registers.isSupervisor := by
        rw [ends.kept]
        exact m.isSupervisor_programSpace
      exact ⟨⟨m.programSpace, .word, m.registers.pc, none⟩, m.beginning, .fetch, unread, level⟩
    · obtain ⟨access, before, attempts, failed, level⟩ := fails
      exact ⟨access, before, .instruction found attempts, failed, level⟩
  | @stacking cause failed found short raised =>
    obtain ⟨mask, entry⟩ := entry_prologue found short
    have busy : ({ { failed with processingException := false } with processingException := true } :
        Machine World) = failed := by
      rw [Entry.frame_of_error raised]
      rfl
    rw [busy]
    rw [entry] at raised
    let frame : Entry := .short cause.vector (m.returnAddress cause) mask
    cases hooked : (m.prologue.machine.entered cause).hooks.vectors frame.vector with
    | some hook =>
      -- a hook always completes
      rw [Entry.action_of_hook hooked] at raised
      cases raised
    | none =>
      have stacked := Entry.action_of_unhooked hooked
      have stack : ((m.prologue.machine.entered cause).inHandler mask).registers.supervisorStack =
          m.prologue.machine.registers.supervisorStack := supervisorStack_inHandler _ mask
      rw [stacked] at raised
      obtain ⟨access, part, before, attempts, fails⟩ := Exec.stackShort_fails
        (r := m.prologue.machine.registers) (isSupervisor_inHandler _ mask) stack raised
      refine ⟨access, before, .stacking found entry part attempts, fails, ?_⟩
      have effects := Entry.effects hooked
      rw [stacked, raised] at effects
      have handling : failed.registers.isSupervisor = true :=
        effects.1.isSupervisor.trans (isSupervisor_inHandler _ mask)
      rw [Exec.isSupervisor_of_mem_shortFrameAccesses part]
      exact handling.symm

end Faults

theorem state_entry (m : Machine World) (cause : Cause) :
    (finalState ((m.entry cause).action (m.entered cause))).state = m.state := by
  rw [Entry.frame]
  rfl

section

variable {m : Machine World} {e : Exception} {fault : AccessFault} (named : e.accessFault? = some fault)
  (unhooked : m.hooks.vectors (Cause.exception e).vector = none)

include named

theorem entry_of_accessFault? :
    m.entry (.exception e) = .long (Cause.exception e).vector fault := by
  cases e <;> cases named <;> rfl

theorem action_of_accessFault? : (m.entry (.exception e)).action (m.entered (.exception e)) =
    Exec.enterLong (Cause.exception e).vector fault
      { m.log (.accessFault (Cause.exception e).vector fault.write fault.address) with
        processingException := true } := by
  cases e <;> cases named <;> rfl

include unhooked

end

section

variable {m began : Machine World} {e : Exception} {fault : AccessFault} {stacking : Bool}
  (faults : m.Faults e stacking began) (named : e.accessFault? = some fault)
  (unhooked : m.hooks.vectors (Cause.exception e).vector = none)

include faults named unhooked

end

end Machine

end MC68000
