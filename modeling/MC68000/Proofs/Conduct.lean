import MC68000.Proofs.Slice

set_option autoImplicit false

namespace MC68000

variable {World : Type}

/-- An access to memory that the processor makes. -/
structure MemoryAccess where
  space : AddressSpace
  size : Size
  address : BitVec 32
  /-- What is written, unless the access reads. -/
  written : Option (BitVec 32)

namespace MemoryAccess

/-- Words and longs lie at even addresses. -/
def isAligned (access : MemoryAccess) : Bool := access.size = .byte || !access.address.getLsbD 0

def high (access : MemoryAccess) : BusCycle where
  space := access.space
  address := access.address
  transfer := access.written.elim .readWord fun value => .writeWord (value.extractLsb' 16 16)

def low (access : MemoryAccess) : BusCycle where
  space := access.space
  address := access.address + 2
  transfer := access.written.elim .readWord fun value => .writeWord (value.setWidth 16)

/-- The bus cycles of an access, if all of them complete. -/
def cycles (access : MemoryAccess) : List BusCycle :=
  match access.size with
  | .byte => [⟨access.space, access.address,
      access.written.elim .readByte fun value => .writeByte (value.setWidth 8)⟩]
  | .word => [⟨access.space, access.address,
      access.written.elim .readWord fun value => .writeWord (value.setWidth 16)⟩]
  | .long => [access.high, access.low]

end MemoryAccess

/-- Some bus cycles, and the world that they have led to. -/
structure Traffic (World : Type) where
  cycles : List BusCycle
  host : Host World

/-- Whether an action completes. -/
def completed {ε σ α : Type} : EStateM.Result ε σ α → Bool
  | .ok _ _ => true
  | .error _ _ => false

namespace MemoryMap

/-- Whether a bus cycle completes. -/
def completes (map : MemoryMap World) (b : BusCycle) (host : Host World) : Bool :=
  match b.transfer with
  | .readByte => completed (map.readByte b.space b.address host)
  | .readWord => completed (map.readWord b.space b.address host)
  | .writeByte value => completed (map.writeByte b.space b.address value host)
  | .writeWord value => completed (map.writeWord b.space b.address value host)

/-- Makes bus cycles in order, and none after one that fails. -/
def conduct (map : MemoryMap World) : List BusCycle → Traffic World → Traffic World
  | [], traffic => traffic
  | b :: rest, traffic =>
    let after : Traffic World := ⟨traffic.cycles ++ [b], map.perform b traffic.host⟩
    if map.completes b traffic.host then map.conduct rest after else after

def access (map : MemoryMap World) (access : MemoryAccess) (traffic : Traffic World) : Traffic World :=
  if access.isAligned then map.conduct access.cycles traffic else traffic

end MemoryMap

namespace Machine

/-- The bus cycles of the current step, and the world as they have left it. -/
def traffic (m : Machine World) : Traffic World := ⟨m.activity, m.host⟩

/-- The machine with another record of bus cycles, and in another world. -/
def withTraffic (m : Machine World) (traffic : Traffic World) : Machine World :=
  { m with host := traffic.host, activity := traffic.cycles }

end Machine

namespace Exec

/-- An action that makes bus cycles and nothing else. -/
def Conducts {α : Type} (x : Exec World α) (m : Machine World) (cycles : List BusCycle) : Prop :=
  finalState (x m) = m.withTraffic (m.memory.conduct cycles m.traffic)

theorem cycle_cases {α : Type} {b : BusCycle} {access : MemoryMap World → Access World α}
    {m : Machine World} (performs : finalState (access m.memory m.host) = m.memory.perform b m.host)
    (serves : completed (access m.memory m.host) = m.memory.completes b m.host) :
    let after := m.withTraffic ⟨m.activity ++ [b], m.memory.perform b m.host⟩
    (m.memory.completes b m.host = true ∧ ∃ a, cycle b.space b.address b.transfer access m = .ok a after) ∨
      m.memory.completes b m.host = false ∧ ∃ e, cycle b.space b.address b.transfer access m = .error e after := by
  intro after
  unfold cycle
  cases found : access m.memory m.host with
  | ok value host =>
    rw [found] at performs serves
    have same : host = m.memory.perform b m.host := performs
    rw [same]
    exact .inl ⟨serves.symm, value, rfl⟩
  | error fault host =>
    rw [found] at performs serves
    have same : host = m.memory.perform b m.host := performs
    rw [same]
    exact .inr ⟨serves.symm, _, rfl⟩

theorem conducts_cycle_bind {α β : Type} {b : BusCycle} {access : MemoryMap World → Access World α}
    {next : α → Exec World β} {rest : List BusCycle} {m : Machine World}
    (performs : finalState (access m.memory m.host) = m.memory.perform b m.host)
    (serves : completed (access m.memory m.host) = m.memory.completes b m.host)
    (after : ∀ a m', Conducts (next a) m' rest) :
    Conducts (cycle b.space b.address b.transfer access >>= next) m (b :: rest) := by
  unfold Conducts MemoryMap.conduct
  change finalState (EStateM.bind _ next m) = _
  unfold EStateM.bind
  obtain ⟨completes, a, done⟩ | ⟨fails, e, done⟩ := cycle_cases performs serves
  · have continued := after a (m.withTraffic ⟨m.activity ++ [b], m.memory.perform b m.host⟩)
    unfold Conducts at continued
    rw [done, show m.traffic.host = m.host from rfl, if_pos completes]
    exact continued
  · rw [done, show m.traffic.host = m.host from rfl, if_neg (Bool.eq_false_iff.mp fails)]
    rfl

theorem conducts_pure {α : Type} (a : α) (m : Machine World) :
    Conducts (pure a : Exec World α) m [] := rfl

variable {space : AddressSpace} {address : BitVec 32}

theorem conducts_readByte_bind {β : Type} {next : BitVec 8 → Exec World β} {rest : List BusCycle}
    {m : Machine World} (after : ∀ a m', Conducts (next a) m' rest) :
    Conducts (readByte space address >>= next) m (⟨space, address, .readByte⟩ :: rest) :=
  conducts_cycle_bind (b := ⟨space, address, .readByte⟩) (m.memory.final_readByte space address m.host)
    rfl after

theorem conducts_readWord_bind {β : Type} {next : BitVec 16 → Exec World β} {rest : List BusCycle}
    {m : Machine World} (after : ∀ a m', Conducts (next a) m' rest) :
    Conducts (readWord space address >>= next) m (⟨space, address, .readWord⟩ :: rest) :=
  conducts_cycle_bind (b := ⟨space, address, .readWord⟩) (m.memory.final_readWord space address m.host)
    rfl after

theorem conducts_writeWord_bind {β : Type} {value : BitVec 16} {next : Unit → Exec World β}
    {rest : List BusCycle} {m : Machine World}
    (after : ∀ a m', Conducts (next a) m' rest) :
    Conducts (writeWord space address value >>= next) m (⟨space, address, .writeWord value⟩ :: rest) :=
  conducts_cycle_bind (b := ⟨space, address, .writeWord value⟩)
    (m.memory.final_writeWord space address value m.host) rfl after

theorem conducts_writeWord (value : BitVec 16) (m : Machine World) :
    Conducts (writeWord space address value) m [⟨space, address, .writeWord value⟩] := by
  rw [← bind_pure (writeWord space address value : Exec World Unit)]
  exact conducts_writeWord_bind conducts_pure

theorem conducts_writeByte (value : BitVec 8) (m : Machine World) :
    Conducts (writeByte space address value) m [⟨space, address, .writeByte value⟩] := by
  rw [← bind_pure (writeByte space address value : Exec World Unit)]
  exact conducts_cycle_bind (b := ⟨space, address, .writeByte value⟩)
    (m.memory.final_writeByte space address value m.host) rfl conducts_pure

/-- An access that is not aligned ends before its first bus cycle. -/
theorem conducts_aligned {α : Type} {size : Size} {written : Option (BitVec 32)} {write : Bool}
    {next : Unit → Exec World α} {m : Machine World}
    (after : Conducts (next ()) m (⟨space, size, address, written⟩ : MemoryAccess).cycles) :
    finalState ((requireAligned space size address write >>= next) m) =
      m.withTraffic (m.memory.access ⟨space, size, address, written⟩ m.traffic) := by
  change finalState (EStateM.bind _ next m) = _
  unfold EStateM.bind requireAligned MemoryMap.access MemoryAccess.isAligned
  by_cases refused : size ≠ .byte ∧ address.getLsbD 0 = true
  · rw [if_pos refused]
    simp only [refused.1, refused.2, decide_false, Bool.not_true, Bool.or_false, Bool.false_eq_true, if_false]
    rfl
  · have aligned : (decide (size = .byte) || !address.getLsbD 0) = true := by
      rw [Bool.or_eq_true, decide_eq_true_eq, Bool.not_eq_true']
      by_cases byte : size = .byte
      · exact .inl byte
      · exact .inr (Bool.eq_false_iff.mpr fun odd => refused ⟨byte, odd⟩)
    rw [if_neg refused, if_pos aligned]
    exact after

theorem final_read (space : AddressSpace) (size : Size) (address : BitVec 32) (m : Machine World) :
    finalState (read space size address m) =
      m.withTraffic (m.memory.access ⟨space, size, address, none⟩ m.traffic) := by
  refine conducts_aligned ?_
  cases size with
  | byte => exact conducts_readByte_bind fun _ => conducts_pure _
  | word => exact conducts_readWord_bind fun _ => conducts_pure _
  | long =>
    exact conducts_readWord_bind fun _ _ => conducts_readWord_bind fun _ => conducts_pure _

theorem final_write (space : AddressSpace) (size : Size) (address value : BitVec 32) (m : Machine World) :
    finalState (write space size address value m) =
      m.withTraffic (m.memory.access ⟨space, size, address, some value⟩ m.traffic) := by
  refine conducts_aligned ?_
  cases size with
  | byte => exact conducts_writeByte _ m
  | word => exact conducts_writeWord _ m
  | long => exact conducts_writeWord_bind fun _ => conducts_writeWord _

end Exec

/-- One thing that a machine does to the world, with the bus cycles that it makes. The requests to the run loop
are the only part of the world that a machine changes by itself. -/
inductive Wiring.Act (wiring : Wiring World) (traffic : Traffic World) : Traffic World → Prop
  | access (access : MemoryAccess) : Act wiring traffic (wiring.memory.access access traffic)
  | record (record : LogRecord) : Act wiring traffic
      { traffic with
        host := { traffic.host with world := wiring.logger record traffic.host.world } }
  | reset {hook : Host World → Host World} (present : wiring.hooks.reset = some hook) :
      Act wiring traffic { traffic with host := hook traffic.host }
  | acknowledge {hook : Fin 8 → Host World → Host World}
      (present : wiring.hooks.acknowledge = some hook) (level : Fin 8) :
      Act wiring traffic { traffic with host := hook level traffic.host }
  | vector {hook : VectorHook World} {vector : VectorNumber}
      (present : wiring.hooks.vectors vector = some hook) (r : Registers) :
      Act wiring traffic { traffic with host := (hook vector r traffic.host).2 }
  | control (control : Control) :
      Act wiring traffic { traffic with host := { traffic.host with control } }

namespace Machine

/-- One machine is what another becomes by acts. -/
structure Acts (m m' : Machine World) : Prop where
  wiring : m'.wiring = m.wiring
  traffic : Relation.ReflTransGen m.wiring.Act m.traffic m'.traffic

theorem Acts.refl (m : Machine World) : m.Acts m := ⟨rfl, .refl⟩

theorem Acts.trans {m m' m'' : Machine World} (first : m.Acts m') (second : m'.Acts m'') : m.Acts m'' := by
  refine ⟨second.wiring.trans first.wiring, first.traffic.trans ?_⟩
  rw [← first.wiring]
  exact second.traffic

theorem Acts.inside {m m' : Machine World} (wiring : m'.wiring = m.wiring)
    (traffic : m'.traffic = m.traffic) : m.Acts m' := ⟨wiring, traffic ▸ .refl⟩

theorem acts_access (m : Machine World) (access : MemoryAccess) :
    m.Acts (m.withTraffic (m.memory.access access m.traffic)) := ⟨rfl, .single (.access access)⟩

theorem acts_log (m : Machine World) (record : LogRecord) : m.Acts (m.log record) :=
  ⟨rfl, .single (.record record)⟩

theorem acts_mapRegisters (m : Machine World) (f : Registers → Registers) : m.Acts (m.mapRegisters f) :=
  .inside rfl rfl

theorem acts_mapControl (m : Machine World) (f : Control → Control) : m.Acts (m.mapControl f) :=
  ⟨rfl, .single (.control (f m.host.control))⟩

theorem acts_apply (m : Machine World) (change : SupervisorChange) : m.Acts (change.apply m) := by
  cases change with
  | registers f => exact m.acts_mapRegisters f
  | reset =>
    unfold SupervisorChange.apply
    cases found : m.hooks.reset with
    | none => exact .refl m
    | some hook => exact ⟨rfl, .single (.reset found)⟩
  | stop status =>
    exact ((m.acts_mapRegisters _).trans (acts_log _ _)).trans (.inside rfl rfl)

end Machine

namespace Exec

theorem acts_bind {α β : Type} {x : Exec World α} {f : α → Exec World β} {m : Machine World}
    (first : m.Acts (finalState (x m)))
    (next : ∀ a m', x m = .ok a m' → m'.Acts (finalState (f a m'))) :
    m.Acts (finalState ((x >>= f) m)) := by
  change m.Acts (finalState (EStateM.bind x f m))
  unfold EStateM.bind
  cases found : x m with
  | ok a m' =>
    rw [found] at first
    exact first.trans (next a m' found)
  | error e m' =>
    rw [found] at first
    exact first

theorem Ordinary.acts {s : StatusWord} {raises : Exception → Prop} {α : Type} {x : Exec World α}
    {post : α → Prop} (h : Ordinary s raises x post) :
    ∀ m : Machine World, m.registers.status.system = s → m.Acts (finalState (x m)) := by
  induction h with
  | pure _ => exact fun m _ => .refl m
  | bind before _ first next =>
    intro m same
    refine acts_bind (first m same) fun a m' found => ?_
    have effects := before.effects m same
    rw [found] at effects
    exact next a effects.2 m' (effects.1.unprivileged.system.trans same)
  | throw _ => exact fun m _ => .refl m
  | registers => exact fun m _ => .refl m
  | update _ => exact fun m _ => m.acts_mapRegisters _
  | dataSpace => exact fun m _ => .refl m
  | programSpace => exact fun m _ => .refl m
  | read size address _ =>
    intro m _
    rw [final_read]
    exact m.acts_access _
  | write size address value _ =>
    intro m _
    rw [final_write]
    exact m.acts_access _
  | requirePrivilege _ =>
    intro m _
    unfold Exec.requirePrivilege
    split <;> exact .refl m

/-- The change that is left to the supervisor may call the hook for RESET, or be logged. -/
theorem Guarded.acts {s : StatusWord} {raises : Exception → Prop} {x : Exec World Nat}
    (h : Guarded s raises x) (m : Machine World) (same : m.registers.status.system = s) :
    m.Acts (finalState (x m)) := by
  induction h generalizing m with
  | ordinary h => exact h.acts m same
  | bind first _ next =>
    refine acts_bind (first.acts m same) fun a m' found => ?_
    have effects := first.effects m same
    rw [found] at effects
    exact next a effects.2 m' (effects.1.unprivileged.system.trans same)
  | change change cost _ _ _ act =>
    rw [act]
    exact m.acts_apply change

theorem acts_nextInstruction (m : Machine World) : m.Acts (finalState (nextInstruction m)) := by
  have fetch : Plain m.registers.status.system (fun _ => False) (fetchWord : Exec World (BitVec 16)) :=
    plain_fetchWord
  refine acts_bind (fetch.acts m rfl) fun opcode fetched _ => ?_
  refine acts_bind (.inside rfl rfl) fun _ m' _ => ?_
  exact (Instruction.guarded_execute _ (Instruction.encodable_decode opcode)).acts m' rfl

end Exec

/-- An entry stacks its frame by accesses to memory. A hook in its place is called once. -/
theorem Entry.acts (entry : Entry) (m : Machine World) : m.Acts (finalState (entry.action m)) := by
  cases found : m.hooks.vectors entry.vector with
  | none =>
    have stack : Exec.Plain (m.inHandler entry.mask).registers.status.system (fun _ => False)
        (entry.stack m.opcode m.registers.status : Exec World Unit) :=
      entry.plain_stack (m.has_supervisor_inHandler entry.mask) _ _
    rw [action_of_unhooked found]
    exact (m.acts_mapRegisters _).trans (stack.acts _ rfl)
  | some hook =>
    rw [action_of_hook found]
    exact ⟨rfl, .single (.vector found (entry.hooked m.registers))⟩

namespace Machine

theorem acts_processing (m : Machine World) (entry : Entry) : m.Acts (m.processing entry.action).2 := by
  have entered := entry.acts { m with processingException := true }
  rw [processing_eq]
  exact ⟨entered.wiring, entered.traffic⟩

theorem acts_halt (m : Machine World) : m.Acts m.halt := (m.acts_log _).trans (.inside rfl rfl)

theorem acts_processFault (m : Machine World) (vector : VectorNumber) (fault : AccessFault) :
    m.Acts (m.processFault vector fault).2 := by
  have entered := acts_processing (m.log (.accessFault vector fault.write fault.address))
    (.long vector fault)
  have start := (m.acts_log (.accessFault vector fault.write fault.address)).trans entered
  unfold processFault
  change m.Acts ((m.log (.accessFault vector fault.write fault.address)).processing
    (Exec.enterLong vector fault)).2 at start
  split
  next found =>
    rw [found] at start
    exact start
  next found =>
    rw [found] at start
    exact start.trans (acts_halt _)

theorem acts_processVector (m : Machine World) (vector : VectorNumber) (returnAddress : BitVec 32)
    (mask : Option (Fin 8)) (cost : Nat) :
    m.Acts (m.processVector vector returnAddress mask cost).2 := by
  have entered : m.Acts (m.processing (Exec.enterShort vector returnAddress mask)).2 :=
    m.acts_processing (.short vector returnAddress mask)
  obtain ⟨_, same⟩ | ⟨fault, _, v, _, _, same⟩ | ⟨_, _, _, same⟩ :=
    m.processVector_cases vector returnAddress mask cost
  · rw [same]
    exact entered
  · rw [same]
    exact entered.trans (acts_processFault _ v fault)
  · rw [same]
    exact entered.trans (acts_halt _)

theorem acts_process (m : Machine World) (cause : Cause) : m.Acts (m.process cause).2 := by
  cases entry : m.entry cause with
  | short vector returnAddress mask =>
    rw [process_short entry]
    exact (m.acts_log _).trans (acts_processVector _ _ _ _ _)
  | long vector fault =>
    rw [process_long entry]
    exact m.acts_processFault vector fault

theorem acts_takeRequest (m : Machine World) (level : Fin 8) : m.Acts (m.takeRequest level) := by
  have taken : m.Acts (callAcknowledge { m with interrupts := (m.interrupts.acknowledge level).2 } level) := by
    unfold callAcknowledge
    split
    next hook found => exact ⟨rfl, .single (.acknowledge found level)⟩
    next => exact .inside rfl rfl
  exact taken.trans (.inside rfl rfl)

theorem acts_instructionPrologue (m : Machine World) : m.Acts m.instructionPrologue.machine := by
  have next := Exec.acts_nextInstruction { m with instructionAddress := m.registers.pc }
  have same : m.instructionPrologue.machine =
      finalState (Exec.nextInstruction { m with instructionAddress := m.registers.pc }) := by
    unfold instructionPrologue finalState
    cases Exec.nextInstruction { m with instructionAddress := m.registers.pc } <;> rfl
  rw [same]
  exact ⟨next.wiring, next.traffic⟩

theorem acts_step (m : Machine World) : Acts { m with activity := [] } m.step.2 := by
  have prologue : Acts { m with activity := [] } m.prologue.machine := by
    obtain ⟨same, _⟩ | ⟨level, _, _, same⟩ | ⟨_, _, same⟩ := m.prologue_cases
    · rw [same]
      exact .refl _
    · rw [same]
      exact acts_takeRequest _ level
    · rw [same]
      exact acts_instructionPrologue _
  have finish : Acts { m with activity := [] } m.prologue.finish.2 := by
    unfold Prologue.finish
    split
    next => exact prologue
    next cause _ => exact prologue.trans (acts_process _ cause)
  rw [step_eq, charge_frame]
  exact finish.trans (.inside rfl rfl)

/-- A turn of the run loop acts as its step does, and takes the requests of devices. -/
theorem acts_turn (m : Machine World) : Acts { m with activity := [] } m.turn.2.2 := by
  have taken := m.step.2.acts_mapControl fun control => { control with release := false, adjust := 0 }
  rw [turn_frame]
  exact m.acts_step.trans ⟨taken.wiring, taken.traffic⟩

end Machine

end MC68000
