import MC68000.Proofs.Accounts
import MC68000.Proofs.AccessErrors
import MC68000.Proofs.BusTraffic
import MC68000.Proofs.Interrupts

set_option autoImplicit false

namespace MC68000

variable {World : Type}

/-- What changes the run state. -/
inductive Transition where
  /-- A reset succeeds. -/
  | reset
  /-- STOP completes in supervisor mode. -/
  | stop
  /-- An interrupt is accepted. -/
  | accept
  /-- An access fails that is made to enter a bus or address error. -/
  | doubleFault
  deriving DecidableEq

namespace RunState

def next? : RunState → Transition → Option RunState
  | _, .reset => some .running
  | .running, .stop => some .stopped
  | .running, .accept | .stopped, .accept => some .running
  | .running, .doubleFault => some .halted
  | _, _ => none

/-- The run state after a sequence of transitions, if each of them is possible where it is made. -/
def follow? (state : RunState) (path : List Transition) : Option RunState :=
  path.foldlM next? state

theorem follow?_append (state : RunState) (path more : List Transition) :
    state.follow? (path ++ more) = (state.follow? path).bind fun mid => mid.follow? more :=
  List.foldlM_append

end RunState

namespace Exec

/-- The run state stays as it is, whether or not the action completes. -/
def KeepsState {α : Type} (x : Exec World α) : Prop :=
  ∀ m, Ends (x m) (fun _ m' => m'.state = m.state) fun _ m' => m'.state = m.state

theorem KeepsState.bind {α β : Type} {x : Exec World α} {f : α → Exec World β}
    (first : KeepsState x) (next : ∀ a, KeepsState (f a)) : KeepsState (x >>= f) := by
  intro m
  apply (first m).bind
  intro a m' same
  exact (next a m').mono (fun _ _ kept => kept.trans same) fun _ _ kept => kept.trans same

theorem keepsState_of_ordinary {α : Type} {x : Exec World α} {post : α → Prop}
    {raises : StatusWord → Exception → Prop} (h : ∀ s, Ordinary s (raises s) x post) :
    KeepsState x := by
  intro m
  have effects := (h m.registers.status.system).effects m rfl
  exact effects.mono (fun _ _ after => after.1.state) fun _ _ after => after.1.state

theorem keepsState_pure {α : Type} (a : α) : KeepsState (pure a : Exec World α) := fun _ => rfl

theorem keepsState_update (f : Registers → Registers) :
    KeepsState (update f : Exec World Unit) := fun _ => rfl

theorem keepsState_requirePrivilege : KeepsState (requirePrivilege : Exec World Unit) := by
  intro m
  unfold requirePrivilege
  split
  · exact rfl
  · exact rfl

theorem keepsState_signalReset : KeepsState (signalReset : Exec World Unit) := by
  intro m
  unfold signalReset
  split
  · exact rfl
  · exact rfl

theorem keepsState_fetchWord : KeepsState (fetchWord : Exec World (BitVec 16)) :=
  keepsState_of_ordinary fun s => (plain_fetchWord : Plain s (fun _ => False) _)

theorem keepsState_pull (size : Size) : KeepsState (pull size : Exec World (BitVec 32)) :=
  keepsState_of_ordinary fun s => (plain_pull size : Plain s (fun _ => False) _)

theorem keepsState_loadFrom (mode : AddressingMode) (size : Size) :
    KeepsState (loadFrom mode size : Exec World (BitVec 32)) :=
  keepsState_of_ordinary fun s => (plain_loadFrom mode size : Plain s (fun _ => False) _)

end Exec

namespace Instruction

open Exec in
/-- Of all instructions only STOP changes the run state. -/
theorem keepsState_execute {instruction : Instruction} (encodable : instruction.Encodable)
    (awake : instruction ≠ .stop) : KeepsState (instruction.execute : Exec World Nat) := by
  -- a guarded action may end in any change of the supervisor, STOP included, so these go one by one
  by_cases supervisory : instruction.IsSupervisory
  · cases instruction with
    | logicToSr operation =>
      refine keepsState_requirePrivilege.bind fun _ => keepsState_fetchWord.bind fun value => ?_
      have old : KeepsState (status : Exec World StatusWord) := fun _ => rfl
      exact old.bind fun _ => (keepsState_update _).bind fun _ => keepsState_pure 20
    | moveToSr source =>
      refine keepsState_requirePrivilege.bind fun _ => (keepsState_loadFrom source .word).bind fun _ => ?_
      exact (keepsState_update _).bind fun _ => keepsState_pure _
    | moveToUsp n =>
      exact keepsState_requirePrivilege.bind fun _ => (keepsState_update _).bind fun _ => keepsState_pure 4
    | reset =>
      exact keepsState_requirePrivilege.bind fun _ => keepsState_signalReset.bind fun _ => keepsState_pure 132
    | stop => exact absurd rfl awake
    | rte =>
      refine keepsState_requirePrivilege.bind fun _ => (keepsState_pull .word).bind fun status => ?_
      refine (keepsState_pull .long).bind fun pc => (keepsState_update _).bind fun _ => ?_
      exact (keepsState_update _).bind fun _ => keepsState_pure 20
    | _ => exact supervisory.elim
  · exact keepsState_of_ordinary fun s => timed_raises s encodable supervisory

end Instruction

namespace Exec

/-- STOP stops the processor in supervisor mode, and where it does not complete it changes nothing. -/
theorem state_stop (m : Machine World) :
    Ends (stop m) (fun _ m' => m.registers.isSupervisor = true ∧ m'.state = .stopped)
      fun _ m' => m'.state = m.state := by
  have privileged : Ends (requirePrivilege m)
      (fun _ m' => m.registers.isSupervisor = true ∧ m' = m) fun _ m' => m' = m := by
    unfold requirePrivilege
    split
    next supervisor => exact ⟨supervisor, rfl⟩
    next => exact rfl
  unfold stop
  apply (privileged.mono (fun _ _ => id) fun _ m' same => congrArg Machine.state same).bind
  rintro _ _ ⟨supervisor, rfl⟩
  apply (keepsState_fetchWord _).bind
  exact fun _ _ _ => ⟨supervisor, rfl⟩

/-- The next instruction stops the processor if it is STOP, in supervisor mode, and it completes. -/
theorem state_nextInstruction (m : Machine World) :
    Ends (nextInstruction m)
      (fun _ m' => m'.state =
        if m.fetched? = some 0x4E72 ∧ m.registers.isSupervisor = true then .stopped else m.state)
      fun _ m' => m'.state = m.state := by
  have fetches := fetchWord_effects m
  unfold Machine.fetched?
  cases found : fetchWord m with
  | error e after =>
    have fails : nextInstruction m = .error e after := bind_of_error found
    rw [found] at fetches
    rw [fails]
    exact fetches.1.state
  | ok opcode after =>
    have executes : nextInstruction m =
        (Instruction.decode opcode).execute { after with opcode } := bind_of_ok found
    rw [found] at fetches
    have state : after.state = m.state := Machine.Effects.state fetches
    have supervisor : after.registers.isSupervisor = m.registers.isSupervisor :=
      Machine.Effects.isSupervisor fetches
    rw [executes]
    by_cases stops : opcode = 0x4E72
    · subst stops
      apply (state_stop { after with opcode := 0x4E72 }).mono
      · rintro _ m' ⟨privileged, stopped⟩
        rw [if_pos ⟨rfl, supervisor.symm.trans privileged⟩]
        exact stopped
      · exact fun _ _ same => same.trans state
    · have awake : Instruction.decode opcode ≠ .stop := fun same => stops (Decoding.decode_stop same)
      have keeps : KeepsState ((Instruction.decode opcode).execute : Exec World Nat) :=
        Instruction.keepsState_execute (Instruction.encodable_decode opcode) awake
      apply (keeps { after with opcode }).mono
      · intro _ m' same
        rw [if_neg fun both => stops (Option.some.inj both.1)]
        exact same.trans state
      · exact fun _ _ same => same.trans state

end Exec

/-- An interrupt that is accepted wakes the processor. -/
def Cause.transitions : Cause → List Transition
  | interrupt _ _ => [.accept]
  | _ => []

namespace Machine

/-- The exception that is raised while another is entered, and the machine that goes on to process it. -/
def entryError? (m : Machine World) (cause : Cause) : Option (Exception × Machine World) :=
  match (m.entry cause).action (m.entered cause) with
  | .ok _ _ => none
  | .error e failed => some (e, { failed with processingException := false })

/-- The bus or address error that processing an exception comes to, and the machine that processes it: the
exception itself or, for any other, an error that is raised while its short frame is stacked. -/
def accessError? (m : Machine World) : Cause → Option (Exception × Machine World)
  | .exception (.busError fault) => some (.busError fault, m)
  | .exception (.addressError fault) => some (.addressError fault, m)
  | cause => m.entryError? cause

/-- Whether processing an exception comes to an error whose long frame cannot be stacked or whose vector
cannot be read. -/
def doubleFaults (m : Machine World) (cause : Cause) : Bool :=
  match m.accessError? cause with
  | none => false
  | some (e, began) => (began.entryError? (.exception e)).isSome

/-- The transitions that a step makes, in order. -/
def transitions (m : Machine World) : List Transition :=
  match m.prologue.cause with
  | none =>
    if m.opcode? = some 0x4E72 ∧ m.registers.isSupervisor = true then [.stop] else []
  | some cause =>
    cause.transitions ++ if m.prologue.machine.doubleFaults cause then [.doubleFault] else []

section

variable {m : Machine World} {cause : Cause}

theorem entryError?_of_ok {framed : Machine World}
    (done : (m.entry cause).action (m.entered cause) = .ok () framed) : m.entryError? cause = none := by
  rw [entryError?, done]

theorem entryError?_of_error {e : Exception} {failed : Machine World}
    (raised : (m.entry cause).action (m.entered cause) = .error e failed) :
    m.entryError? cause = some (e, { failed with processingException := false }) := by
  rw [entryError?, raised]

/-- The processor halts where a bus or address error cannot be entered. -/
theorem state_process_accessFault {e : Exception} {fault : AccessFault}
    (named : e.accessFault? = some fault) : (m.process (.exception e)).2.state =
      if (m.entryError? (.exception e)).isSome = true then .halted else m.state := by
  have state := m.state_entry (.exception e)
  have action := action_of_accessFault? (m := m) named
  rw [process_long (entry_of_accessFault? named), processFault]
  cases entered : (m.entry (.exception e)).action (m.entered (.exception e)) with
  | ok _ framed =>
    rw [entered] at state
    rw [entryError?_of_ok entered, processing_of_ok (action.symm.trans entered)]
    exact state
  | error e' failed =>
    rw [entryError?_of_error entered, processing_of_error (action.symm.trans entered)]
    rfl

/-- The processor halts where processing an exception comes to a double fault. -/
theorem state_process (m : Machine World) (cause : Cause) : (m.process cause).2.state =
    if m.doubleFaults cause = true then .halted else m.state := by
  cases entry : m.entry cause with
  | long vector fault =>
    -- the exception is the access error itself
    obtain ⟨e, rfl, named⟩ : ∃ e, cause = .exception e ∧ e.accessFault? = some fault := by
      cases cause with
      | exception e => cases e <;> cases entry <;> exact ⟨_, rfl, rfl⟩
      | trace => cases entry
      | interrupt level vector => cases entry
    have itself : m.accessError? (.exception e) = some (e, m) := by
      cases e <;> first | rfl | cases named
    rw [state_process_accessFault named, doubleFaults, itself]
  | short vector returnAddress mask =>
    have first : m.accessError? cause = m.entryError? cause := by
      cases cause with
      | exception e => cases e <;> first | rfl | cases entry
      | trace => rfl
      | interrupt level vector => rfl
    have state := m.state_entry cause
    rw [doubleFaults, first]
    cases entered : (m.entry cause).action (m.entered cause) with
    | ok _ framed =>
      rw [entered] at state
      rw [entry] at entered
      have processing := processing_of_ok entered
      change Machine.processing _ (Exec.enterShort _ _ _) = _ at processing
      rw [← entry] at entered
      rw [entryError?_of_ok entered, process_short entry, processVector, processing]
      exact state
    | error e failed =>
      rw [entered] at state
      -- stacking a short frame raises access errors only, and these are entered in turn
      obtain ⟨fault, named⟩ := (Entry.records entered).exists_fault
      rw [entryError?_of_error entered, process_of_entryError entry entered named,
        state_process_accessFault named, show failed.state = m.state from state]

end

theorem running_of_opcode? {m : Machine World} {opcode : BitVec 16} (fetched : m.opcode? = some opcode) :
    m.state = .running := by
  unfold opcode? at fetched
  split at fetched
  next ready => exact ready.1
  next => cases fetched

theorem running_of_trace {m : Machine World} (traced : m.prologue.cause = some .trace) :
    m.state = .running := by
  obtain ⟨same, _⟩ | ⟨level, _, _, same⟩ | ⟨running, _, _⟩ := m.prologue_cases
  · rw [same] at traced
    cases traced
  · rw [same] at traced
    cases traced
  · exact running

theorem cause_of_error {m after : Machine World} {e : Exception}
    (raised : Exec.nextInstruction { m with instructionAddress := m.registers.pc } = .error e after) :
    m.instructionPrologue.cause = some (.exception e) := by
  rw [instructionPrologue, raised]

/-- Where a step comes to no exception, it has stopped the processor or left the run state alone. -/
theorem state_prologue_of_none {m : Machine World} (quiet : m.prologue.cause = none) :
    m.prologue.machine.state =
      if m.opcode? = some 0x4E72 ∧ m.registers.isSupervisor = true then .stopped else m.state := by
  obtain ⟨same, rest⟩ | ⟨level, _, _, same⟩ | ⟨running, unasked, same⟩ := m.prologue_cases
  · -- nothing is fetched at rest
    have nothing : ¬(m.opcode? = some 0x4E72 ∧ m.registers.isSupervisor = true) := by
      rintro ⟨fetched, _⟩
      rw [running_of_opcode? fetched] at rest
      rcases rest with dead | ⟨stopped, _⟩
      · exact dead.1 rfl
      · cases stopped
    rw [same, if_neg nothing]
  · rw [same] at quiet
    cases quiet
  · have fetches : m.opcode? = m.beginning.fetched? := if_pos ⟨running, unasked⟩
    have ends := Exec.state_nextInstruction m.beginning
    rw [fetches]
    cases done : Exec.nextInstruction m.beginning with
    | ok cost after =>
      rw [done] at ends
      have machine : m.prologue.machine = after := by
        rw [same, machine_instructionPrologue]
        exact congrArg finalState done
      rw [machine]
      exact ends
    | error e after =>
      rw [same, cause_of_error done] at quiet
      cases quiet

/-- The run state follows the transitions of a step. -/
theorem follow?_transitions (m : Machine World) :
    m.state.follow? m.transitions = some m.step.2.state := by
  have step : m.step.2.state = m.prologue.finish.2.state := by rw [step_eq, charge_frame]
  rw [step, Prologue.finish, transitions]
  cases found : m.prologue.cause with
  | none =>
    dsimp only
    rw [state_prologue_of_none found]
    by_cases stops : m.opcode? = some 0x4E72 ∧ m.registers.isSupervisor = true
    · rw [if_pos stops, if_pos stops, running_of_opcode? stops.1]
      rfl
    · rw [if_neg stops, if_neg stops]
      rfl
  | some cause =>
    dsimp only
    rw [state_process, state_prologue found]
    cases cause with
    | interrupt level vector =>
      rcases (accepts_iff.mp found).1 with running | stopped
      · rw [running]
        cases m.prologue.machine.doubleFaults (.interrupt level vector) <;> rfl
      · rw [stopped]
        cases m.prologue.machine.doubleFaults (.interrupt level vector) <;> rfl
    | exception e =>
      rw [(nextInstruction_of_exception found).1]
      cases m.prologue.machine.doubleFaults (.exception e) <;> rfl
    | trace =>
      rw [running_of_trace found]
      cases m.prologue.machine.doubleFaults .trace <;> rfl

/-- What a host does to a machine without letting it run and without a successful reset. -/
inductive Aside (m : Machine World) : Machine World → Prop
  | charge (cycles : Int) : Aside m (m.charge cycles).2
  | trip : Aside m m.trip.2
  | raise {m' : Machine World} {level : Nat} {vector : InterruptVector}
      {previous : Option InterruptVector} (done : m.raiseInterrupt level vector = .ok (previous, m')) :
      Aside m m'
  | lower {m' : Machine World} {level : Nat} (done : m.lowerInterrupt level = .ok m') : Aside m m'
  | assign {m' : Machine World} {level : Nat} {vector : InterruptVector}
      (done : m.assignInterruptVector level vector = .ok m') : Aside m m'
  | registers (f : Registers → Registers) : Aside m (m.mapRegisters f)
  | memory (memory : MemoryMap World) : Aside m (m.withMemory memory)
  | hooks (hooks : Hooks World) : Aside m (m.withHooks hooks)
  | peek (space : AddressSpace) (address : BitVec 32) : Aside m (m.peekWord space address).2
  | host (host : Host World) : Aside m { m with host }
  | resetRefused {m' : Machine World} {e : RequestError} (refused : m.reset = (.error e, m')) :
      Aside m m'

theorem Aside.state {m m' : Machine World} (h : m.Aside m') : m'.state = m.state := by
  cases h with
  | charge cycles => rw [charge_frame]
  | raise done =>
    obtain ⟨_, _, rfl⟩ := raiseInterrupt_eq done
    rfl
  | lower done =>
    obtain ⟨_, _, rfl⟩ := lowerInterrupt_eq done
    rfl
  | assign done =>
    obtain ⟨_, _, rfl⟩ := assignInterruptVector_eq done
    rfl
  | resetRefused refused => rw [reset_error refused]
  | _ => rfl

/-- One move of a machine, and the transitions that it makes. -/
inductive Moves (m : Machine World) : List Transition → Machine World → Prop
  | step : Moves m m.transitions m.step.2
  | reset {m' : Machine World} (done : m.reset = (.ok (), m')) : Moves m [.reset] m'
  | aside {m' : Machine World} (h : m.Aside m') : Moves m [] m'

theorem state_of_reset {m m' : Machine World} (h : m.reset = (.ok (), m')) : m'.state = .running := by
  unfold reset at h
  split at h
  next => cases h
  next =>
    split at h
    next => cases h
    next =>
      cases h
      rfl

/-- The run state follows the transitions of a move. -/
theorem Moves.follow? {m m' : Machine World} {taken : List Transition} (h : m.Moves taken m') :
    m.state.follow? taken = some m'.state := by
  cases h with
  | step => exact m.follow?_transitions
  | reset done =>
    rw [state_of_reset done]
    cases m.state <;> rfl
  | aside h => exact congrArg some h.state.symm

/-- What becomes of a machine move by move, where a run is taken apart into its steps, and the transitions
on the way. -/
inductive Course (start : Machine World) : List Transition → Machine World → Prop
  | start : Course start [] start
  | next {path taken : List Transition} {m m' : Machine World} (before : Course start path m)
      (moves : m.Moves taken m') : Course start (path ++ taken) m'

namespace Course

variable {start m m' : Machine World} {path : List Transition}

theorem trans {more : List Transition} (first : Course start path m) (second : Course m more m') :
    Course start (path ++ more) m' := by
  induction second with
  | start =>
    rw [List.append_nil]
    exact first
  | next _ moves ih =>
    rw [← List.append_assoc]
    exact .next ih moves

/-- What a host does on the side is no transition. -/
theorem aside (before : Course start path m) (h : m.Aside m') : Course start path m' := by
  rw [← List.append_nil path]
  exact .next before (.aside h)

theorem step (before : Course start path m) : Course start (path ++ m.transitions) m.step.2 :=
  .next before .step

theorem turn (m : Machine World) : Course m m.transitions m.turn.2.2 := by
  have stepped : Course m ([] ++ m.transitions) m.step.2 := Course.start.step
  -- the adjustment is taken and charged, and then the request to release
  exact ((stepped.aside (.host _)).aside (.charge _)).aside (.host _)

/-- On any course the run state follows the transitions. -/
theorem follow? (h : Course start path m) : start.state.follow? path = some m.state := by
  induction h with
  | start => rfl
  | next _ moves ih =>
    rw [RunState.follow?_append, ih]
    exact moves.follow?

end Course

theorem Slice.course {budget consumed consumed' : Int} {m m' : Machine World} {n : Nat}
    (h : Slice budget consumed m consumed' m' n) : ∃ path, Course m path m' := by
  induction h with
  | ended _ => exact ⟨[], .start⟩
  | wait _ _ => exact ⟨[], Course.start.aside (.charge _)⟩
  | @released _ m _ _ _ => exact ⟨_, .turn m⟩
  | @turn _ _ m _ _ _ _ _ _ ih =>
    obtain ⟨path, rest⟩ := ih
    exact ⟨_, (Course.turn m).trans rest⟩

theorem run?_course {limit : Nat} {m m' : Machine World} {clocks r : BitVec 32}
    (h : m.run? limit clocks = some (r, m')) : ∃ path, Course m path m' := by
  obtain ⟨consumed, after, n, _, slice, rfl, rfl⟩ := exists_slice_of_run? h
  obtain ⟨path, course⟩ := slice.course
  exact ⟨path, course.aside (.host _)⟩

/-- Whatever a host does is a course. -/
theorem Session.course {start m : Machine World} {tripped : Nat} (h : Session start tripped m) :
    ∃ path, Course start path m := by
  induction h with
  | start => exact ⟨[], .start⟩
  | step _ ih => exact ih.elim fun _ before => ⟨_, before.step⟩
  | run _ done ih =>
    obtain ⟨path, before⟩ := ih
    obtain ⟨more, ran⟩ := run?_course done
    exact ⟨path ++ more, before.trans ran⟩
  | runTicks _ done ih =>
    obtain ⟨path, before⟩ := ih
    obtain ⟨_, _, done, _⟩ := runTicks?_eq done
    obtain ⟨more, ran⟩ := run?_course done
    exact ⟨path ++ more, before.trans ran⟩
  | trip _ ih => exact ih.imp fun _ before => before.aside .trip
  | @chargeOrTrip _ m _ clocks ih =>
    refine ih.imp fun _ before => ?_
    unfold Machine.chargeOrTrip
    split
    · exact before.aside .trip
    · exact before.aside (.charge _)
  | charge _ clocks ih => exact ih.imp fun _ before => before.aside (.charge _)
  | refund _ clocks ih => exact ih.imp fun _ before => before.aside (.charge _)
  | @reset _ m _ ih =>
    obtain ⟨path, before⟩ := ih
    cases done : m.reset with
    | mk answer after =>
      cases answer with
      | ok _ => exact ⟨path ++ [.reset], .next before (.reset done)⟩
      | error e => exact ⟨path, before.aside (.resetRefused done)⟩
  | raise _ done ih => exact ih.imp fun _ before => before.aside (.raise done)
  | lower _ done ih => exact ih.imp fun _ before => before.aside (.lower done)
  | assign _ done ih => exact ih.imp fun _ before => before.aside (.assign done)
  | registers _ f ih => exact ih.imp fun _ before => before.aside (.registers f)
  | memory _ memory ih => exact ih.imp fun _ before => before.aside (.memory memory)
  | hooks _ hooks ih => exact ih.imp fun _ before => before.aside (.hooks hooks)
  | peek _ space address ih => exact ih.imp fun _ before => before.aside (.peek space address)
  | host _ host ih => exact ih.imp fun _ before => before.aside (.host host)

/-- Nothing runs and nothing wakes the processor: it is dead, or it is stopped and no request lies above the
mask. -/
def Rests (m : Machine World) : Prop :=
  m.state = .poweredOn ∨ m.state = .halted ∨
    m.state = .stopped ∧ m.interrupts.highestAbove m.registers.interruptMask = none

/-- The machine after some time, in which nothing has happened. -/
def elapse (m : Machine World) (clocks : BitVec 32) : Machine World :=
  { m with cycles := m.cycles + clocks, total := m.total.add (.ofCounter clocks) }

/-- The cycles that a processor at rest waits in a run. One that was never reset does not wait, and neither
does a run that is asked to stop. -/
def waits (m : Machine World) (clocks : BitVec 32) : BitVec 32 :=
  if m.state = .poweredOn ∨ m.host.control.stop = true then 0#32 else clocks

theorem elapse_zero (m : Machine World) : m.elapse 0#32 = m := by
  rw [elapse, BitVec.add_zero]
  rfl

theorem charge_counter (m : Machine World) (clocks : BitVec 32) :
    m.charge clocks.toNat = ((clocks.toNat : Int), m.elapse clocks) := by
  have small : clocks.toNat ≤ 0xFFFFFFFF := by omega
  rw [charge_of_nonneg m small, BitVec.ofNat_toNat, BitVec.setWidth_eq]
  rfl

section

variable {m : Machine World} (rests : m.Rests)

include rests

theorem prologue_of_rests : m.prologue = ⟨{ m with activity := [] }, 0, none⟩ := by
  apply prologue_of_rest
  rcases rests with off | halted | waiting
  · rw [off]
    exact .inl ⟨nofun, nofun⟩
  · rw [halted]
    exact .inl ⟨nofun, nofun⟩
  · exact .inr waiting

/-- A step of a processor at rest costs nothing and makes no bus cycle. -/
theorem step_of_rests : m.step = (0, { m with activity := [] }) := by
  have free := charge_counter { m with activity := [] } 0#32
  rw [elapse_zero] at free
  rw [step_eq, prologue_of_rests rests, Prologue.finish]
  exact congrArg (fun charged => (0, charged.2)) free

theorem isIdle_of_rests (on : m.state ≠ .poweredOn) : m.isIdle = true := by
  rcases rests with off | halted | ⟨stopped, unasked⟩
  · exact absurd off on
  · rw [isIdle, halted]
    rfl
  · rw [isIdle, stopped, unasked]
    rfl

theorem run?_of_rests (limit : Nat) (clocks : BitVec 32) :
    m.run? limit clocks = some (m.waits clocks, (m.elapse (m.waits clocks)).dropStop) := by
  have whole : reported clocks.toNat = clocks := by
    apply BitVec.eq_of_toNat_eq
    rw [toNat_reported]
    omega
  by_cases ended : m.SliceOver clocks.toNat 0
  · have none : m.waits clocks = 0#32 := by
      unfold waits
      split
      next => rfl
      next on =>
        rcases ended with spent | requested
        · apply BitVec.eq_of_toNat_eq
          rw [BitVec.toNat_zero]
          omega
        · exact absurd requested.symm on
    rw [(Slice.ended ended).run?_eq limit, none, elapse_zero]
    rfl
  · have all : m.waits clocks = clocks := if_neg fun dead => ended (.inr dead.symm)
    have idle := isIdle_of_rests rests fun off => ended (.inr (.inr off))
    have slice := Slice.wait ended idle
    rw [Int.sub_zero, charge_counter, Int.zero_add] at slice
    rw [slice.run?_eq limit, all, whole]
    rfl

theorem runTicks?_of_rests (limit : Nat) (budget : Ticks) :
    let waited := m.waits (BitVec.ofNat 32 (min budget.count 0xFFFFFFFF))
    m.runTicks? limit budget = some (.ofCounter waited, (m.elapse waited).dropStop) := by
  rw [runTicks?, run?_of_rests rests]
  rfl

end

/-- Whatever a host does to a machine, without putting a saved context into it, is a course of single moves,
and on any course the run state follows the transitions. So a processor that is off or halted comes to life
by a successful reset only; one that is stopped goes on by a reset or by a step that accepts an interrupt;
one that runs is stopped only by a step that completes STOP and began in supervisor mode; and a processor
halts only in a step in which the entry of a bus or address error failed, maybe after it has woken in the
same step.

At rest a step changes nothing, and a run only waits: time passes unless the processor was never reset, and
the request to stop is taken, as by any run. -/
theorem run_state_of_session {start m : Machine World} {tripped : Nat}
    (session : Session start tripped m) :
    (∃ path, Course start path m) ∧
      (∀ path, Course start path m → start.state.follow? path = some m.state) ∧
      (m.Rests →
        m.step = (0, { m with activity := [] }) ∧
        (∀ (limit : Nat) (clocks : BitVec 32), m.run? limit clocks =
          some (m.waits clocks, (m.elapse (m.waits clocks)).dropStop)) ∧
        ∀ (limit : Nat) (budget : Ticks),
          let waited := m.waits (BitVec.ofNat 32 (min budget.count 0xFFFFFFFF))
          m.runTicks? limit budget = some (.ofCounter waited, (m.elapse waited).dropStop)) := by
  refine ⟨session.course, fun path course => course.follow?, fun rests => ?_⟩
  exact ⟨step_of_rests rests, run?_of_rests rests, runTicks?_of_rests rests⟩

/-- A machine on an open bus with twelve bytes of memory: STOP #$2000 follows a reset vector with an odd
stack pointer. -/
def waking : Machine Unit :=
  fresh ⟨0x00FFFFFF, .openBus 0⟩ ((MemoryMap.empty ⟨0x00FFFFFF, .openBus 0⟩).mapRam ⟨0, 11⟩ 0) .none
    ⟨#[#[0, 0, 0, 0x11, 0, 0, 0, 8, 0x4E, 0x72, 0x20, 0]], .none, ()⟩ fun _ world => world

def wakingRequested : Machine Unit :=
  { waking.reset.2 with
    interrupts := { waking.reset.2.interrupts with
      pending := waking.reset.2.interrupts.pending ||| 2
      vectors := waking.reset.2.interrupts.vectors.setIfInBounds 1 .autovector } }

/-- The request wakes the processor once STOP has lowered the mask, but neither its frame nor that of the
address error can be stacked. -/
theorem run_state_of_session_waking :
    ∃ m, Session waking 0 m ∧ Course waking [.reset, .stop, .accept, .doubleFault] m ∧
      m.state = .halted ∧ m.step = (0, { m with activity := [] }) := by
  have reset : waking.reset = (.ok (), waking.reset.2) := Prod.ext rfl rfl
  have raised : waking.reset.2.raiseInterrupt 1 .autovector = .ok (none, wakingRequested) := rfl
  have stops : wakingRequested.transitions = [.stop] := by decide +kernel
  have wakes : wakingRequested.step.2.transitions = [.accept, .doubleFault] := by decide +kernel
  have session : Session waking 0 wakingRequested.step.2.step.2 :=
    ((Session.start.reset).raise raised).step.step
  have course : Course waking [.reset, .stop, .accept, .doubleFault] wakingRequested.step.2.step.2 := by
    have requested : Course waking ([] ++ [.reset]) wakingRequested :=
      (Course.start.next (.reset reset)).aside (.raise raised)
    have stepped := requested.step.step
    rw [stops, wakes] at stepped
    exact stepped
  obtain ⟨-, follows, rest⟩ := run_state_of_session session
  have halted : wakingRequested.step.2.step.2.state = .halted :=
    (Option.some.inj (follows _ course)).symm
  exact ⟨_, session, course, halted, (rest (.inr (.inl halted))).1⟩

end Machine

end MC68000
