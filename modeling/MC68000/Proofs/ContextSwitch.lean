import MC68000.Proofs.Twins

set_option autoImplicit false

namespace MC68000

variable {World : Type}

/-- What a host asks of a processor. -/
inductive Request where
  | raise (level : Nat) (vector : InterruptVector)
  | lower (level : Nat)
  | step

inductive Reply where
  /-- The vector of the request that was replaced, if one was. -/
  | raised (result : Except RequestError (Option InterruptVector))
  | lowered (result : Except RequestError Unit)
  | stepped (cost : Nat)

namespace Machine

/-- Does what is asked. A request that is refused changes nothing. -/
def serve (m : Machine World) : Request → Reply × Machine World
  | .raise level vector =>
    match m.raiseInterrupt level vector with
    | .ok (previous, after) => (.raised (.ok previous), after)
    | .error e => (.raised (.error e), m)
  | .lower level =>
    match m.lowerInterrupt level with
    | .ok after => (.lowered (.ok ()), after)
    | .error e => (.lowered (.error e), m)
  | .step => (.stepped m.step.1, m.step.2)

def serveAll (m : Machine World) : List Request → List Reply × Machine World
  | [] => ([], m)
  | request :: rest =>
    ((m.serve request).1 :: ((m.serve request).2.serveAll rest).1, ((m.serve request).2.serveAll rest).2)

/-- A long frame is stacked before the first opcode has been fetched. It shows an opcode from before. -/
def ShowsOldOpcode (m : Machine World) : List Request → Prop
  | [] => False
  | request :: rest =>
    request = .step ∧ m.FaultsUnfetched ∨
      (request = .step → m.opcode? = none) ∧ (m.serve request).2.ShowsOldOpcode rest

variable {m n : Machine World}

theorem raiseInterrupt_eq_of (m : Machine World) {level : Nat} {vector : InterruptVector} :
    m.raiseInterrupt level vector = (m.interrupts.raise level vector).map fun raised =>
      (raised.1, { m with interrupts := raised.2 }) := by
  unfold raiseInterrupt
  cases m.interrupts.raise level vector <;> rfl

theorem lowerInterrupt_eq_of (m : Machine World) {level : Nat} :
    m.lowerInterrupt level =
      (m.interrupts.lower level).map fun interrupts => { m with interrupts } := by
  unfold lowerInterrupt
  cases m.interrupts.lower level <;> rfl

theorem opcode_serve {request : Request} (other : request ≠ .step) (m : Machine World) :
    (m.serve request).2.opcode = m.opcode := by
  cases request with
  | step => exact absurd rfl other
  | raise level vector =>
    dsimp only [serve]
    rw [raiseInterrupt_eq_of]
    cases m.interrupts.raise level vector <;> rfl
  | lower level =>
    dsimp only [serve]
    rw [lowerInterrupt_eq_of]
    cases m.interrupts.lower level <;> rfl

theorem serve_twins {request : Request} (twins : m.Twins n)
    (fresh : n.opcode = m.opcode ∨ ¬(request = .step ∧ m.FaultsUnfetched)) :
    (n.serve request).1 = (m.serve request).1 ∧ (m.serve request).2.Twins (n.serve request).2 := by
  cases request with
  | raise level vector =>
    dsimp only [serve]
    rw [raiseInterrupt_eq_of, raiseInterrupt_eq_of, twins.interrupts]
    cases m.interrupts.raise level vector with
    | error e => exact ⟨rfl, twins⟩
    | ok raised => exact ⟨rfl, { twins with interrupts := rfl, ram := twins.ram }⟩
  | lower level =>
    dsimp only [serve]
    rw [lowerInterrupt_eq_of, lowerInterrupt_eq_of, twins.interrupts]
    cases m.interrupts.lower level with
    | error e => exact ⟨rfl, twins⟩
    | ok lowered => exact ⟨rfl, { twins with interrupts := rfl, ram := twins.ram }⟩
  | step =>
    obtain ⟨cost, after⟩ := step_twins twins (fresh.imp_right fun clean faults => clean ⟨rfl, faults⟩)
    exact ⟨congrArg Reply.stepped cost, after⟩

/-- Once an opcode has been fetched, twins agree about the last one. -/
theorem opcode_twins (twins : m.Twins n) {request : Request}
    (known : n.opcode = m.opcode ∨ request = .step ∧ m.opcode? ≠ none) :
    (n.serve request).2.opcode = (m.serve request).2.opcode := by
  by_cases step : request = .step
  · rw [step]
    change n.step.2.opcode = m.step.2.opcode
    rw [opcode_step, opcode_step, lastOpcode, lastOpcode, opcode?_twins twins]
    cases fetched : m.opcode? with
    | some opcode => rfl
    | none =>
      rcases known with same | ⟨_, some⟩
      · exact same
      · exact absurd fetched some
  · rw [opcode_serve step, opcode_serve step]
    rcases known with same | ⟨isStep, _⟩
    · exact same
    · exact absurd isStep step

/-- Twins give the same replies and stay twins, as long as neither shows an opcode from before. -/
theorem serveAll_twins {requests : List Request} (twins : m.Twins n)
    (fresh : n.opcode = m.opcode ∨ ¬m.ShowsOldOpcode requests) :
    (n.serveAll requests).1 = (m.serveAll requests).1 ∧
      (m.serveAll requests).2.Twins (n.serveAll requests).2 := by
  induction requests generalizing m n with
  | nil => exact ⟨rfl, twins⟩
  | cons request rest ih =>
    obtain ⟨reply, served⟩ := serve_twins twins (fresh.imp_right fun clean faults => clean (.inl faults))
    have later : (n.serve request).2.opcode = (m.serve request).2.opcode ∨
        ¬(m.serve request).2.ShowsOldOpcode rest := by
      -- from the first fetch on the twins agree about the last opcode, and none from before can show
      rcases fresh with same | clean
      · exact .inl (opcode_twins twins (.inl same))
      · by_cases fetches : request = .step ∧ m.opcode? ≠ none
        · exact .inl (opcode_twins twins (.inr fetches))
        · right
          intro shows
          have unfetched : request = .step → m.opcode? = none := by
            intro step
            cases found : m.opcode? with
            | none => rfl
            | some opcode =>
              rw [found] at fetches
              exact absurd ⟨step, nofun⟩ fetches
          exact clean (.inr ⟨unfetched, shows⟩)
    obtain ⟨replies, last⟩ := ih served later
    exact ⟨congrArg₂ List.cons reply replies, last⟩

theorem restore_twins {context : Context World} (memory : context.memory.Pure)
    (hooks : context.hooks.Pure) (ram : m.host.SameRam n.host)
    (settled : n.processingException = m.processingException) :
    (m.restore context).Twins (n.restore context) where
  registers := rfl
  memory := rfl
  hooks := rfl
  interrupts := rfl
  state := rfl
  cycles := rfl
  processingException := settled
  ram := ram
  memoryPure := memory
  hooksPure := hooks

end Machine

/-- A context makes a processor, but for the last opcode. Where its callbacks look at nothing but the buffers,
any two machines that it is put into give the same replies to any sequence of requests, if they have the same
buffers: each step costs the same, and in the end the registers, the state, the interrupt lines, the counter
and the buffers are the same. The machines need not have fetched the same opcode last, unless a bus or address
error shows it: that happens where one is stacked before the first opcode has been fetched after the switch.

Between steps no exception is in progress on either machine. -/
theorem Context.runs_alike {context : Context World} (memory : context.memory.Pure)
    (hooks : context.hooks.Pure) {m n : Machine World} (ram : n.host.ram = m.host.ram)
    (settled : m.processingException = false) (settled' : n.processingException = false)
    (requests : List Request)
    (fresh : n.opcode = m.opcode ∨ ¬(m.restore context).ShowsOldOpcode requests) :
    let first := (m.restore context).serveAll requests
    let second := (n.restore context).serveAll requests
    second.1 = first.1 ∧ second.2.registers = first.2.registers ∧ second.2.state = first.2.state ∧
      second.2.interrupts = first.2.interrupts ∧ second.2.cycles = first.2.cycles ∧
      second.2.host.ram = first.2.host.ram := by
  have twins : (m.restore context).Twins (n.restore context) :=
    Machine.restore_twins memory hooks ram (settled'.trans settled.symm)
  obtain ⟨replies, last⟩ := Machine.serveAll_twins twins fresh
  exact ⟨replies, last.registers, last.state, last.interrupts, last.cycles, last.ram⟩

/-- A processor with 32 bytes of memory: NOP at address 0, and the stack at the end. -/
def Machine.switching : Machine Unit :=
  { new .standard
      ⟨#[#[0x4E, 0x71, 0x4E, 0x71, 0, 0, 0, 0, 0, 0, 0, 0, 0, 0, 0, 0,
        0, 0, 0, 0, 0, 0, 0, 0, 0, 0, 0, 0, 0, 0, 0, 0]], .none, ()⟩ fun _ world => world with
    registers := Registers.initial.setAddress 7 32
    memory := (MemoryMap.empty .standard).mapRam ⟨0, 31⟩ 0
    state := .running }

theorem Machine.pure_switching : switching.memory.Pure where
  supervisor := by
    constructor <;>
    · intro region member
      cases List.mem_singleton.mp member
      exact nofun
  user := by
    constructor <;>
    · intro region member
      cases List.mem_singleton.mp member
      exact nofun

theorem Machine.pure_noHooks : (Hooks.none : Hooks Unit).Pure := ⟨nofun, nofun, nofun⟩

/-- Before and after a NOP, which it remembers, the machine runs its own context alike. -/
theorem Context.runs_alike_switching :
    let first := (Machine.switching.restore Machine.switching.context).serveAll
      [.raise 3 .autovector, .step]
    let second := (Machine.switching.step.2.restore Machine.switching.context).serveAll
      [.raise 3 .autovector, .step]
    Machine.switching.step.2.opcode ≠ Machine.switching.opcode ∧ second.1 = first.1 ∧
      second.2.registers = first.2.registers ∧ second.2.host.ram = first.2.host.ram := by
  have fetched : ((Machine.switching.restore Machine.switching.context).serve
      (.raise 3 .autovector)).2.opcode? = some 0x4E71 := rfl
  have clean : ¬(Machine.switching.restore Machine.switching.context).ShowsOldOpcode
      [.raise 3 .autovector, .step] := by
    rintro (⟨raises, _⟩ | ⟨_, ⟨_, none, _⟩ | ⟨none, _⟩⟩)
    · cases raises
    · rw [fetched] at none
      cases none
    · rw [fetched] at none
      cases none rfl
  have ram : Machine.switching.step.2.host.ram = Machine.switching.host.ram := rfl
  have memory : Machine.switching.context.memory.Pure := Machine.pure_switching
  have hooks : Machine.switching.context.hooks.Pure := Machine.pure_noHooks
  have alike := runs_alike memory hooks ram rfl rfl _ (.inr clean)
  exact ⟨by decide +kernel, alike.1, alike.2.1, alike.2.2.2.2.2⟩

/-- The NOP shows in the frame of an address error that comes right after the switch. -/
theorem Context.stale_opcode_in_frame : ∃ (context : Context Unit) (m n : Machine Unit),
    context.memory.Pure ∧ context.hooks.Pure ∧ n.host.ram = m.host.ram ∧
      m.processingException = false ∧ n.processingException = false ∧
      ((n.restore context).serveAll [.step]).2.host.ram ≠
        ((m.restore context).serveAll [.step]).2.host.ram := by
  refine ⟨{ Machine.switching.context with registers := { Machine.switching.registers with pc := 1 } },
    Machine.switching, Machine.switching.step.2, Machine.pure_switching, Machine.pure_noHooks,
    rfl, rfl, rfl, fun same => ?_⟩
  have shown := congrArg (·.byte? 0 24) same
  exact absurd shown (by decide +kernel)

end MC68000
