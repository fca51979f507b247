import MC68000.Proofs.ContextSwitch
import MC68000.Proofs.RunStates

set_option autoImplicit false

namespace MC68000

variable {World : Type}

/-- The interrupt lines and the accounts of cycles, which no instruction looks at. -/
structure Ledger where
  interrupts : InterruptLines
  cycles : BitVec 32
  total : Ticks

def Machine.withLedger (m : Machine World) (ledger : Ledger) : Machine World :=
  { m with interrupts := ledger.interrupts, cycles := ledger.cycles, total := ledger.total }

/-- Two machines that differ in their lines and accounts only. -/
def DifferInLedger (ledger : Ledger) (m n : Machine World) : Prop := n = m.withLedger ledger

theorem cycle_differInLedger {ledger : Ledger} {m n : Machine World} {α : Type}
    (h : DifferInLedger ledger m n) (space : AddressSpace) (address : BitVec 32)
    (transfer : BusTransfer) (access : MemoryMap World → Access World α) :
    Together (DifferInLedger ledger) (Exec.cycle space address transfer access m)
      (Exec.cycle space address transfer access n) := by
  subst h
  have same : access (m.withLedger ledger).memory (m.withLedger ledger).host =
      access m.memory m.host := rfl
  unfold Exec.cycle
  rw [same]
  cases access m.memory m.host with
  | ok value host => exact ⟨rfl, rfl⟩
  | error fault host => exact ⟨rfl, rfl⟩

theorem agreement_differInLedger (ledger : Ledger) :
    Agreement (DifferInLedger ledger : Machine World → Machine World → Prop) where
  registers h := by rw [h]; rfl
  processing h := by rw [h]; rfl
  update f h _ := by rw [h]; rfl
  readByte _ h _ := cycle_differInLedger h _ _ _ _
  readWord _ h _ := cycle_differInLedger h _ _ _ _
  writeByte _ _ h _ := cycle_differInLedger h _ _ _ _
  writeWord _ _ h _ := cycle_differInLedger h _ _ _ _

theorem apply_differInLedger {ledger : Ledger} (change : SupervisorChange) {m n : Machine World}
    (h : DifferInLedger ledger m n) : DifferInLedger ledger (change.apply m) (change.apply n) := by
  subst h
  cases change with
  | registers f => rfl
  | reset =>
    have same : (m.withLedger ledger).hooks.reset = m.hooks.reset := rfl
    unfold DifferInLedger SupervisorChange.apply
    dsimp only
    rw [same]
    cases m.hooks.reset <;> rfl
  | stop status => rfl

namespace Machine

variable (m : Machine World) (ledger : Ledger)

theorem instructionPrologue_withLedger : (m.withLedger ledger).instructionPrologue =
    ⟨m.instructionPrologue.machine.withLedger ledger, m.instructionPrologue.cost,
      m.instructionPrologue.cause⟩ := by
  have together := Exec.nextInstruction_together (agreement_differInLedger ledger)
    (fun _ _ => id) (fun change _ _ => apply_differInLedger change) (fun _ _ _ h => by rw [h]; rfl)
    (m := { m with instructionAddress := m.registers.pc }) rfl
  have start : { m.withLedger ledger with instructionAddress := (m.withLedger ledger).registers.pc } =
      withLedger { m with instructionAddress := m.registers.pc } ledger := rfl
  unfold instructionPrologue
  rw [start]
  obtain ⟨cost, after, _, left, right, rfl⟩ | ⟨e, after, _, left, right, rfl⟩ := together.cases
  · rw [left, right]
    rfl
  · rw [left, right]

/-- Entering an exception does not look at them either. -/
theorem action_withLedger (entry : Entry) :
    Together (DifferInLedger ledger) (entry.action m) (entry.action (m.withLedger ledger)) := by
  cases found : m.hooks.vectors entry.vector with
  | some hook =>
    have same : (m.withLedger ledger).hooks.vectors entry.vector = some hook := found
    rw [Entry.action_of_hook found, Entry.action_of_hook same]
    exact ⟨rfl, rfl⟩
  | none =>
    have same : (m.withLedger ledger).hooks.vectors entry.vector = none := found
    have plain : Exec.Plain (m.inHandler entry.mask).registers.status.system (fun _ => False)
        (entry.stack m.opcode m.registers.status : Exec World Unit) :=
      entry.plain_stack (m.has_supervisor_inHandler entry.mask) _ _
    rw [Entry.action_of_unhooked found, Entry.action_of_unhooked same]
    exact plain.together (agreement_differInLedger ledger) rfl rfl

theorem processing_withLedger (entry : Entry) : (m.withLedger ledger).processing entry.action =
    ((m.processing entry.action).1, (m.processing entry.action).2.withLedger ledger) := by
  have together := action_withLedger { m with processingException := true } ledger entry
  have start : { m.withLedger ledger with processingException := true } =
      withLedger { m with processingException := true } ledger := rfl
  unfold processing
  rw [start]
  obtain ⟨_, after, _, left, right, rfl⟩ | ⟨e, after, _, left, right, rfl⟩ := together.cases
  · rw [left, right]
    rfl
  · rw [left, right]
    rfl

theorem processFault_withLedger (vector : VectorNumber) (fault : AccessFault) :
    (m.withLedger ledger).processFault vector fault =
      ((m.processFault vector fault).1, (m.processFault vector fault).2.withLedger ledger) := by
  have entered := processing_withLedger (m.log (.accessFault vector fault.write fault.address)) ledger
    (.long vector fault)
  have start : (m.withLedger ledger).log (.accessFault vector fault.write fault.address) =
      (m.log (.accessFault vector fault.write fault.address)).withLedger ledger := rfl
  unfold processFault
  rw [start]
  change processing _ (Exec.enterLong vector fault) = ((processing _ (Exec.enterLong vector fault)).1,
    (processing _ (Exec.enterLong vector fault)).2.withLedger ledger) at entered
  rw [entered]
  obtain ⟨raised, after⟩ := (m.log _).processing (Exec.enterLong vector fault)
  cases raised <;> rfl

theorem processVector_withLedger (vector : VectorNumber) (returnAddress : BitVec 32)
    (mask : Option (Fin 8)) (cost : Nat) :
    (m.withLedger ledger).processVector vector returnAddress mask cost =
      ((m.processVector vector returnAddress mask cost).1,
        (m.processVector vector returnAddress mask cost).2.withLedger ledger) := by
  have entered := processing_withLedger m ledger (.short vector returnAddress mask)
  change processing _ (Exec.enterShort vector returnAddress mask) =
    ((processing _ (Exec.enterShort vector returnAddress mask)).1,
      (processing _ (Exec.enterShort vector returnAddress mask)).2.withLedger ledger) at entered
  unfold processVector
  rw [entered]
  obtain ⟨raised, after⟩ := m.processing (Exec.enterShort vector returnAddress mask)
  cases raised with
  | none => rfl
  | some e =>
    have faults := processFault_withLedger after ledger
    cases e <;> simp only [faults] <;> rfl

theorem process_withLedger (cause : Cause) : (m.withLedger ledger).process cause =
    ((m.process cause).1, (m.process cause).2.withLedger ledger) := by
  have entry : (m.withLedger ledger).entry cause = m.entry cause := by
    cases cause with
    | exception e => cases e <;> rfl
    | trace => rfl
    | interrupt level vector => rfl
  have record : (m.withLedger ledger).entryRecord cause = m.entryRecord cause := by
    unfold entryRecord
    rw [entry]
    rfl
  cases found : m.entry cause with
  | long vector fault =>
    rw [process_long found, process_long (entry.trans found)]
    exact processFault_withLedger m ledger vector fault
  | short vector returnAddress mask =>
    rw [process_short found, process_short (entry.trans found), record]
    exact processVector_withLedger (m.log (m.entryRecord cause)) ledger vector returnAddress mask _

theorem charge_withLedger (cycles : Int) : ∃ later,
    ((m.withLedger ledger).charge cycles).2 = (m.charge cycles).2.withLedger later ∧
      later.interrupts = ledger.interrupts := by
  refine ⟨⟨ledger.interrupts, ((m.withLedger ledger).charge cycles).2.cycles,
    ((m.withLedger ledger).charge cycles).2.total⟩, ?_, rfl⟩
  rw [charge_frame (m.withLedger ledger), charge_frame m]
  rfl

end Machine

namespace InterruptLines

/-- The same levels request, with the same vectors. The vectors of the other levels may differ. -/
structure Alike (lines lines' : InterruptLines) : Prop where
  pending : lines'.pending = lines.pending
  vectors : ∀ level : Fin 8, lines.isPending level = true →
    lines'.vectors.get level = lines.vectors.get level

/-- Nothing requests, so no vector counts. -/
theorem alike_clear (lines lines' : InterruptLines) : lines.clear.Alike lines'.clear where
  pending := rfl
  vectors level pending := by
    rw [isPending_clear] at pending
    cases pending

namespace Alike

variable {lines lines' : InterruptLines} (alike : lines.Alike lines')

include alike

theorem isPending (level : Nat) : lines'.isPending level = lines.isPending level :=
  congrArg (fun pending : BitVec 8 => pending.getLsbD level) alike.pending

theorem highestAbove (mask : Nat) : lines'.highestAbove mask = lines.highestAbove mask := by
  unfold InterruptLines.highestAbove
  simp only [alike.isPending]

theorem acknowledge (level : Fin 8) :
    (lines.acknowledge level).2.Alike (lines'.acknowledge level).2 where
  pending := congrArg (· &&& ~~~(1#8 <<< level.val)) alike.pending
  vectors other pending := by
    rw [isPending_acknowledge, Bool.and_eq_true] at pending
    exact alike.vectors other pending.2

theorem raise (level : Nat) (vector : InterruptVector) :
    (∃ e, lines.raise level vector = .error e ∧ lines'.raise level vector = .error e) ∨
      ∃ previous after after', lines.raise level vector = .ok (previous, after) ∧
        lines'.raise level vector = .ok (previous, after') ∧ after.Alike after' := by
  unfold InterruptLines.raise
  cases checkLevel level with
  | error e => exact .inl ⟨e, rfl, rfl⟩
  | ok n =>
    right
    have previous : (if lines'.isPending n then some (lines'.vectors.get n) else none) =
        if lines.isPending n then some (lines.vectors.get n) else none := by
      rw [alike.isPending]
      split
      next pending => rw [alike.vectors n pending]
      next => rfl
    refine ⟨_, _, _, rfl, congrArg (fun previous => Except.ok (previous, _)) previous, ?_, ?_⟩
    · exact congrArg (· ||| 1#8 <<< n.val) alike.pending
    · intro other pending
      dsimp only at pending ⊢
      rw [get_assigned, get_assigned]
      split
      next => rfl
      next distinct =>
        apply alike.vectors other
        rw [InterruptLines.isPending, BitVec.getLsbD_or, getLsbD_line n.isLt, Bool.or_eq_true,
          decide_eq_true_eq] at pending
        exact pending.resolve_right distinct

theorem lower (level : Nat) :
    (∃ e, lines.lower level = .error e ∧ lines'.lower level = .error e) ∨
      ∃ after after', lines.lower level = .ok after ∧ lines'.lower level = .ok after' ∧
        after.Alike after' := by
  unfold InterruptLines.lower
  cases checkLevel level with
  | error e => exact .inl ⟨e, rfl, rfl⟩
  | ok n => exact .inr ⟨_, _, rfl, rfl, alike.acknowledge n⟩

end Alike

end InterruptLines

namespace Machine

variable {m : Machine World} {ledger : Ledger}

theorem takeRequest_withLedger (m : Machine World) (ledger : Ledger) (level : Fin 8) :
    (m.withLedger ledger).takeRequest level = (m.takeRequest level).withLedger
      { ledger with interrupts := (ledger.interrupts.acknowledge level).2 } := by
  have same : (m.withLedger ledger).hooks.acknowledge = m.hooks.acknowledge := rfl
  unfold takeRequest callAcknowledge
  dsimp only
  rw [same]
  cases m.hooks.acknowledge <;> rfl

section

variable (alike : m.interrupts.Alike ledger.interrupts)

include alike

/-- Up to where it processes an exception, a step looks at the lines only for the highest level that requests,
and for its vector. -/
theorem prologue_withLedger : ∃ later, m.prologue.machine.interrupts.Alike later.interrupts ∧
    (m.withLedger ledger).prologue =
      ⟨m.prologue.machine.withLedger later, m.prologue.cost, m.prologue.cause⟩ := by
  have quiet : (m.withLedger ledger).interrupts.highestAbove (m.withLedger ledger).registers.interruptMask =
      m.interrupts.highestAbove m.registers.interruptMask := alike.highestAbove _
  obtain ⟨same, rest⟩ | ⟨level, found, awake, same⟩ | ⟨running, none, same⟩ := m.prologue_cases
  · rw [← quiet] at rest
    rw [same]
    exact ⟨ledger, alike, prologue_of_rest rest⟩
  · have pending := (InterruptLines.highestAbove_eq_some found).2.1
    have vector : (ledger.interrupts.acknowledge level).1 = (m.interrupts.acknowledge level).1 :=
      alike.vectors level pending
    rw [← quiet] at found
    rw [same, prologue_of_interrupt (m := m.withLedger ledger) awake found]
    refine ⟨{ ledger with interrupts := (ledger.interrupts.acknowledge level).2 }, ?_, ?_⟩
    · rw [interrupts_takeRequest]
      exact alike.acknowledge level
    · change Prologue.mk _ 0 (some (.interrupt level
        ((ledger.interrupts.acknowledge level).1.number level))) = _
      rw [vector]
      exact congrArg (Prologue.mk · 0 _)
        (takeRequest_withLedger { m with activity := [] } ledger level)
  · rw [← quiet] at none
    rw [same, prologue_of_instruction (m := m.withLedger ledger) running none]
    refine ⟨ledger, ?_, instructionPrologue_withLedger { m with activity := [] } ledger⟩
    rw [interrupts_instructionPrologue]
    exact alike

theorem step_withLedger : ∃ later, m.step.2.interrupts.Alike later.interrupts ∧
    (m.withLedger ledger).step = (m.step.1, m.step.2.withLedger later) := by
  obtain ⟨before, alike, prologue⟩ := prologue_withLedger alike
  have finish : m.prologue.finish.2.interrupts.Alike before.interrupts ∧
      (m.withLedger ledger).prologue.finish =
        (m.prologue.finish.1, m.prologue.finish.2.withLedger before) := by
    rw [prologue]
    unfold Prologue.finish
    dsimp only
    cases m.prologue.cause with
    | none => exact ⟨alike, rfl⟩
    | some cause =>
      dsimp only
      rw [process_withLedger, (processed_process m.prologue.machine cause).frame]
      exact ⟨alike, rfl⟩
  obtain ⟨later, charged, same⟩ :=
    charge_withLedger m.prologue.finish.2 before m.prologue.finish.1
  refine ⟨later, ?_, ?_⟩
  · rw [step_eq, charge_frame, same]
    exact finish.1
  · rw [step_eq, step_eq, finish.2, charged]

theorem serve_withLedger (request : Request) :
    ∃ later, (m.serve request).2.interrupts.Alike later.interrupts ∧
      (m.withLedger ledger).serve request =
        ((m.serve request).1, (m.serve request).2.withLedger later) := by
  cases request with
  | raise level vector =>
    have lines : (m.withLedger ledger).interrupts = ledger.interrupts := rfl
    dsimp only [serve]
    rw [raiseInterrupt_eq_of, raiseInterrupt_eq_of, lines]
    obtain ⟨e, left, right⟩ | ⟨previous, after, after', left, right, later⟩ := alike.raise level vector
    · rw [left, right]
      exact ⟨ledger, alike, rfl⟩
    · rw [left, right]
      exact ⟨{ ledger with interrupts := after' }, later, rfl⟩
  | lower level =>
    have lines : (m.withLedger ledger).interrupts = ledger.interrupts := rfl
    dsimp only [serve]
    rw [lowerInterrupt_eq_of, lowerInterrupt_eq_of, lines]
    obtain ⟨e, left, right⟩ | ⟨after, after', left, right, later⟩ := alike.lower level
    · rw [left, right]
      exact ⟨ledger, alike, rfl⟩
    · rw [left, right]
      exact ⟨{ ledger with interrupts := after' }, later, rfl⟩
  | step =>
    obtain ⟨later, alike, stepped⟩ := step_withLedger alike
    exact ⟨later, alike, congrArg (fun r : Nat × Machine World => (Reply.stepped r.1, r.2)) stepped⟩

end

/-- Whatever is asked of it, a machine answers alike with other lines that are alike and with other accounts. -/
theorem serveAll_withLedger (alike : m.interrupts.Alike ledger.interrupts) (requests : List Request) :
    ∃ later, (m.serveAll requests).2.interrupts.Alike later.interrupts ∧
      (m.withLedger ledger).serveAll requests =
        ((m.serveAll requests).1, (m.serveAll requests).2.withLedger later) := by
  induction requests generalizing m ledger with
  | nil => exact ⟨ledger, alike, rfl⟩
  | cons request rest ih =>
    obtain ⟨between, alike, served⟩ := serve_withLedger alike request
    obtain ⟨later, alike, rested⟩ := ih alike
    refine ⟨later, alike, ?_⟩
    simp only [serveAll, served, rested]

end Machine

/-- The long that regions of the program space hold, in buffers with the given contents. -/
def MemoryMap.programLong? (map : MemoryMap World) (address : BitVec 32) (ram : Ram) :
    Option (BitVec 32) :=
  let fetch address := map.supervisor.fetchWord (map.masked address) ram
  (fetch address).bind fun high => (fetch (address + 2)).map fun low => high ++ low

theorem MemoryMap.peekLong_program (map : MemoryMap World) (address : BitVec 32) (host : Host World) :
    map.peekLong .supervisorProgram address host = (map.programLong? address host.ram, host) := by
  have word (address : BitVec 32) : map.peekWord .supervisorProgram address host =
      (map.supervisor.fetchWord (map.masked address) host.ram, host) := rfl
  unfold peekLong programLong?
  rw [word address]
  cases high : map.supervisor.fetchWord (map.masked address) host.ram with
  | none => simp [high]
  | some high' =>
    dsimp only
    rw [word (address + 2)]
    cases map.supervisor.fetchWord (map.masked (address + 2)) host.ram with
    | none => simp [high]
    | some low => simp [high]

namespace Machine

/-- What a successful reset makes of a machine. -/
def started (m : Machine World) (stack pc : BitVec 32) : Machine World :=
  { m with
    registers := { Registers.initial.setAddress 7 stack with pc }
    interrupts := m.interrupts.clear
    state := .running
    opcode := 0
    instructionAddress := pc
    host := { m.host with control := { m.host.control with stop := false } } }

theorem reset_eq (m : Machine World) : m.reset =
    match m.memory.programLong? 0 m.host.ram, m.memory.programLong? 4 m.host.ram with
    | some stack, some pc => (.ok (), (m.started stack pc).log (.reset stack pc))
    | _, _ => (.error .resetVectorUnmapped, m.log .resetVectorUnmapped) := by
  unfold reset
  rw [MemoryMap.peekLong_program]
  cases m.memory.programLong? 0 m.host.ram with
  | none => rfl
  | some stack =>
    dsimp only
    rw [MemoryMap.peekLong_program]
    cases m.memory.programLong? 4 m.host.ram <;> rfl

theorem log_of_reset_error {m m' : Machine World} {e : RequestError} (h : m.reset = (.error e, m')) :
    m' = m.log .resetVectorUnmapped := by
  rw [reset_eq] at h
  split at h
  next => cases h
  next =>
    cases h
    rfl

theorem started_of_reset {m m' : Machine World} (h : m.reset = (.ok (), m')) :
    ∃ stack pc, m.memory.programLong? 0 m.host.ram = some stack ∧
      m.memory.programLong? 4 m.host.ram = some pc ∧ m' = (m.started stack pc).log (.reset stack pc) := by
  rw [reset_eq] at h
  split at h
  next stack pc first second =>
    cases h
    exact ⟨stack, pc, first, second, rfl⟩
  next => cases h

/-- After a reset each of two machines makes a twin of the other, but for its ledger. -/
theorem reset_twins {m n m' n' : Machine World} (memory : n.memory = m.memory) (hooks : n.hooks = m.hooks)
    (ram : n.host.ram = m.host.ram) (memoryPure : m.memory.Pure) (hooksPure : m.hooks.Pure)
    (settled : n.processingException = m.processingException)
    (reset : m.reset = (.ok (), m')) (reset' : n.reset = (.ok (), n')) :
    m'.Twins (n'.withLedger ⟨m'.interrupts, m'.cycles, m'.total⟩) ∧ n'.opcode = m'.opcode ∧
      n'.interrupts.Alike m'.interrupts := by
  obtain ⟨stack, pc, first, second, rfl⟩ := started_of_reset reset
  obtain ⟨stack', pc', first', second', rfl⟩ := started_of_reset reset'
  rw [memory, ram, first] at first'
  rw [memory, ram, second] at second'
  cases first'
  cases second'
  refine ⟨?_, rfl, InterruptLines.alike_clear _ _⟩
  exact {
    registers := rfl
    memory := memory
    hooks := hooks
    interrupts := rfl
    state := rfl
    cycles := rfl
    processingException := settled
    ram := ram
    memoryPure := memoryPure
    hooksPure := hooksPure }

end Machine

/-- What a host can do leaves no exception in progress. -/
theorem Machine.Course.processingException {start m : Machine World} {path : List Transition}
    (h : Course start path m) (settled : start.processingException = false) :
    m.processingException = false := by
  induction h with
  | start => exact settled
  | next _ moves ih =>
    cases moves with
    | step => exact processingException_step ih
    | reset done =>
      obtain ⟨stack, pc, _, _, rfl⟩ := started_of_reset done
      exact ih
    | aside h =>
      cases h with
      | charge cycles =>
        rw [charge_frame]
        exact ih
      | raise done =>
        obtain ⟨_, _, rfl⟩ := raiseInterrupt_eq done
        exact ih
      | lower done =>
        obtain ⟨_, _, rfl⟩ := lowerInterrupt_eq done
        exact ih
      | assign done =>
        obtain ⟨_, _, rfl⟩ := assignInterruptVector_eq done
        exact ih
      | resetRefused refused =>
        rw [log_of_reset_error refused]
        exact ih
      | _ => exact ih

/-- A reset erases the past. Two machines with the same memory, hooks and buffers, and with callbacks that look
at nothing but the buffers, may come from anywhere: once both have been reset, they give the same replies to
any sequence of requests, each step costs the same, and in the end the registers, the state, the levels that
request and the buffers are the same. What is left of their pasts are the vectors of levels that do not
request, and the accounts. A reset that is refused is logged and changes nothing.

Between steps no exception is in progress on either machine. -/
theorem Machine.reset_erases_history {m n : Machine World} (memory : n.memory = m.memory)
    (hooks : n.hooks = m.hooks) (ram : n.host.ram = m.host.ram) (memoryPure : m.memory.Pure)
    (hooksPure : m.hooks.Pure) (settled : m.processingException = false)
    (settled' : n.processingException = false) :
    (∀ m' n', m.reset = (.ok (), m') → n.reset = (.ok (), n') → ∀ requests : List Request,
      let first := m'.serveAll requests
      let second := n'.serveAll requests
      second.1 = first.1 ∧ second.2.registers = first.2.registers ∧ second.2.state = first.2.state ∧
        second.2.interrupts.pending = first.2.interrupts.pending ∧
        second.2.host.ram = first.2.host.ram) ∧
    ∀ e m', m.reset = (.error e, m') → m' = m.log .resetVectorUnmapped := by
  constructor
  · intro m' n' reset reset' requests
    obtain ⟨twins, opcode, alike⟩ := reset_twins memory hooks ram memoryPure hooksPure
      (settled'.trans settled.symm) reset reset'
    obtain ⟨replies, last⟩ :=
      (serveAll_twins twins (.inl opcode) : _ ∧ (m'.serveAll requests).2.Twins _)
    obtain ⟨later, alike, served⟩ :=
      @serveAll_withLedger World n' ⟨m'.interrupts, m'.cycles, m'.total⟩ alike requests
    rw [served] at replies last
    have lines : later.interrupts = (m'.serveAll requests).2.interrupts := last.interrupts
    have pending := alike.pending.symm.trans (congrArg InterruptLines.pending lines)
    exact ⟨replies, last.registers, last.state, pending, last.ram⟩
  · exact fun e m' refused => log_of_reset_error refused

/-- A processor that has just been switched on, with 32 bytes of memory: the reset vectors, and NOP at
address 8. -/
def Machine.rebooting : Machine Unit :=
  { new .standard
      ⟨#[#[0, 0, 0, 32, 0, 0, 0, 8, 0x4E, 0x71, 0x4E, 0x71, 0, 0, 0, 0,
        0, 0, 0, 0, 0, 0, 0, 0, 0, 0, 0, 0, 0, 0, 0, 0]], .none, ()⟩ fun _ world => world with
    memory := (MemoryMap.empty .standard).mapRam ⟨0, 31⟩ 0 }

/-- The same processor after some time, with a request and a vector that it has not had before. -/
def Machine.rebootingLater : Machine Unit :=
  (rebooting.reset.2.serveAll [.step, .raise 3 (.device 64)]).2

/-- Both runs go on alike from their resets. -/
theorem Machine.reset_erases_history_rebooting :
    rebootingLater.opcode ≠ rebooting.opcode ∧
      rebootingLater.interrupts.pending ≠ rebooting.interrupts.pending ∧
      rebootingLater.state ≠ rebooting.state ∧
      (rebootingLater.reset.2.serveAll [.raise 2 .autovector, .step]).1 =
        (rebooting.reset.2.serveAll [.raise 2 .autovector, .step]).1 := by
  have pure : rebooting.memory.Pure := by
    constructor <;> constructor <;>
    · intro region member
      cases List.mem_singleton.mp member
      exact nofun
  have hooks : rebooting.hooks.Pure := ⟨nofun, nofun, nofun⟩
  have reset : rebooting.reset = (.ok (), rebooting.reset.2) := Prod.ext rfl rfl
  have reset' : rebootingLater.reset = (.ok (), rebootingLater.reset.2) := Prod.ext rfl rfl
  have alike := (reset_erases_history (m := rebooting) (n := rebootingLater) rfl rfl rfl pure hooks
    rfl rfl).1 _ _ reset reset' [.raise 2 .autovector, .step]
  exact ⟨by decide +kernel, by decide +kernel, by decide +kernel, alike.1⟩

end MC68000
