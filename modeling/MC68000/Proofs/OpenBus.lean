import MC68000.Proofs.RunStates

set_option autoImplicit false

namespace MC68000

variable {World : Type}

/-- Unmapped addresses read as a fill byte, and writes to them are dropped. -/
def MemoryMap.IsOpenBus (map : MemoryMap World) : Prop := ∃ fill, map.config.unmapped = .openBus fill

theorem MemoryMap.IsOpenBus.ne_busError {map : MemoryMap World} (h : map.IsOpenBus) :
    map.config.unmapped ≠ .busError := by
  obtain ⟨fill, shows⟩ := h
  rw [shows]
  exact nofun

namespace Exec

variable {m : Machine World} {space : AddressSpace} {address : BitVec 32}

/-- The action completes and leaves registers and memory map alone. -/
def Passes {α : Type} (x : Exec World α) (m : Machine World) : Prop :=
  Ends (x m) (fun _ m' => m'.registers = m.registers ∧ m'.memory = m.memory) fun _ _ => False

theorem passes_cycle {α : Type} {transfer : BusTransfer} {access : MemoryMap World → Access World α}
    (openBus : m.memory.IsOpenBus)
    (names : ∀ fault after, access m.memory m.host = .error fault after →
      m.memory.config.unmapped = .busError) : Passes (cycle space address transfer access) m := by
  unfold Passes cycle
  cases done : access m.memory m.host with
  | ok value after => exact ⟨rfl, rfl⟩
  | error fault after => exact openBus.ne_busError (names fault after done)

theorem passes_readWord (openBus : m.memory.IsOpenBus) : Passes (readWord space address) m :=
  passes_cycle openBus fun _ _ fails => (MemoryMap.readWord_error fails).1

theorem passes_writeWord (openBus : m.memory.IsOpenBus) (value : BitVec 16) :
    Passes (writeWord space address value) m :=
  passes_cycle openBus fun _ _ fails => (MemoryMap.writeWord_error fails).1

theorem passes_read_long (openBus : m.memory.IsOpenBus) (even : address.getLsbD 0 = false) :
    Passes (read space .long address) m := by
  unfold Passes read
  rw [bind_of_ok (requireAligned_of_even m space .long even false)]
  apply (passes_readWord openBus).bind
  rintro high m₁ ⟨registers, memory⟩
  apply (passes_readWord (memory ▸ openBus)).bind
  rintro low m₂ ⟨registers', memory'⟩
  exact ⟨registers'.trans registers, memory'.trans memory⟩

theorem passes_write {size : Size} (value : BitVec 32) (openBus : m.memory.IsOpenBus) (whole : size ≠ .byte)
    (even : address.getLsbD 0 = false) : Passes (write space size address value) m := by
  unfold Passes write
  rw [bind_of_ok (requireAligned_of_even m space size even true)]
  cases size with
  | byte => contradiction
  | word => exact passes_writeWord openBus _
  | long =>
    apply (passes_writeWord openBus _).bind
    rintro _ m₁ ⟨registers, memory⟩
    apply (passes_writeWord (memory ▸ openBus) _).mono
    · rintro _ m₂ ⟨registers', memory'⟩
      exact ⟨registers'.trans registers, memory'.trans memory⟩
    · exact fun _ _ => id

/-- What a frame can be stacked on: an open bus and an even stack pointer. -/
def Stackable (m : Machine World) : Prop :=
  m.memory.IsOpenBus ∧ (m.registers.a.get 7).getLsbD 0 = false

theorem even_bytes {size : Size} (whole : size ≠ .byte) :
    (-BitVec.ofNat 32 size.bytes).getLsbD 0 = false := by
  cases size with
  | byte => contradiction
  | word => rfl
  | long => rfl

theorem push_of_stackable (size : Size) (value : BitVec 32) (whole : size ≠ .byte) (h : Stackable m) :
    Ends (push size value m) (fun _ m' => Stackable m') fun _ _ => False := by
  have below : (m.registers.a.get 7 - BitVec.ofNat 32 size.bytes).getLsbD 0 = false :=
    even_sub h.2 (even_bytes whole)
  rw [push_eq]
  apply (passes_write value (m := m.mapRegisters _) h.1 whole below).mono
  · rintro _ m' ⟨registers, memory⟩
    constructor
    · rw [memory]
      exact h.1
    · rw [registers]
      change ((m.registers.setAddress 7 _).a.get 7).getLsbD 0 = false
      rw [Registers.get_setAddress]
      exact below
  · exact fun _ _ => id

theorem enterHandler_of_stackable (vector : VectorNumber) (h : Stackable m) :
    Ends (enterHandler vector m) (fun _ _ => True) fun _ _ => False := by
  unfold enterHandler
  apply (passes_read_long h.1 vector.even_address).bind
  exact fun _ _ _ => trivial

theorem stackShort_of_stackable (vector : VectorNumber) (returnAddress : BitVec 32) (old : StatusWord)
    (h : Stackable m) :
    Ends (stackShort vector returnAddress old m) (fun _ _ => True) fun _ _ => False := by
  unfold stackShort
  apply (push_of_stackable .long returnAddress nofun h).bind
  intro _ m₁ h
  apply (push_of_stackable .word _ nofun h).bind
  exact fun _ m₂ h => enterHandler_of_stackable vector h

theorem stackLong_of_stackable (vector : VectorNumber) (fault : AccessFault) (opcode : BitVec 16)
    (old : StatusWord) (h : Stackable m) :
    Ends (stackLong vector fault opcode old m) (fun _ _ => True) fun _ _ => False := by
  unfold stackLong
  rw [bind_registers]
  apply (push_of_stackable .long m.registers.pc nofun h).bind
  intro _ m₁ h
  apply (push_of_stackable .word _ nofun h).bind
  intro _ m₂ h
  apply (push_of_stackable .word _ nofun h).bind
  intro _ m₃ h
  apply (push_of_stackable .long fault.address nofun h).bind
  intro _ m₄ h
  apply (push_of_stackable .word _ nofun h).bind
  exact fun _ m₅ h => enterHandler_of_stackable vector h

/-- On an odd stack the first push fails, and the stack pointer stays odd. -/
theorem push_of_odd (size : Size) (value : BitVec 32) (whole : size ≠ .byte)
    (odd : (m.registers.a.get 7).getLsbD 0 = true) :
    ∃ fault a, push size value m = .error (.addressError fault)
        { m with registers := m.registers.setAddress 7 a } ∧ a.getLsbD 0 = true := by
  have below : (m.registers.a.get 7 - BitVec.ofNat 32 size.bytes).getLsbD 0 = true := by
    rw [BitVec.sub_eq_add_neg, BitVec.getLsbD_add (by decide), odd, even_bytes whole,
      BitVec.carry_zero]
    rfl
  let a := m.registers.a.get 7 - BitVec.ofNat 32 size.bytes
  refine ⟨faultOf m m.dataSpace a true, a, ?_, below⟩
  rw [push_eq]
  unfold write
  apply bind_of_error
  rw [requireAligned, if_pos ⟨whole, below⟩]
  rfl

end Exec

namespace Entry

variable {m : Machine World} {entry : Entry} (unhooked : m.hooks.vectors entry.vector = none)

include unhooked

theorem action_of_even (openBus : m.memory.IsOpenBus)
    (even : m.registers.supervisorStack.getLsbD 0 = false) :
    Ends (entry.action m) (fun _ _ => True) fun _ _ => False := by
  have stack := m.supervisorStack_inHandler entry.mask
  have supervisor := m.isSupervisor_inHandler entry.mask
  rw [← Registers.stack_of_supervisor supervisor] at stack
  have stackable : Exec.Stackable (m.inHandler entry.mask) := ⟨openBus, stack ▸ even⟩
  rw [action_of_unhooked unhooked]
  cases entry with
  | short vector returnAddress mask => exact Exec.stackShort_of_stackable vector returnAddress _ stackable
  | long vector fault => exact Exec.stackLong_of_stackable vector fault _ _ stackable

/-- On an odd stack that raises an address error, and the stack is odd again. -/
theorem action_of_odd (odd : m.registers.supervisorStack.getLsbD 0 = true) :
    ∃ fault failed, entry.action m = .error (.addressError fault) failed ∧
      failed.registers.supervisorStack.getLsbD 0 = true := by
  have stack := m.supervisorStack_inHandler entry.mask
  have supervisor := m.isSupervisor_inHandler entry.mask
  rw [← Registers.stack_of_supervisor supervisor] at stack
  have odd : ((m.inHandler entry.mask).registers.a.get 7).getLsbD 0 = true := stack ▸ odd
  have pushed (a : BitVec 32) (stays : a.getLsbD 0 = true) :
      ((m.inHandler entry.mask).registers.setAddress 7 a).supervisorStack.getLsbD 0 = true := by
    rw [← Registers.stack_of_supervisor (by exact supervisor), Registers.get_setAddress]
    exact stays
  rw [action_of_unhooked unhooked]
  cases entry with
  | short vector returnAddress mask =>
    obtain ⟨fault, a, fails, stays⟩ := Exec.push_of_odd .long returnAddress nofun odd
    exact ⟨fault, _, Exec.bind_of_error fails, pushed a stays⟩
  | long vector fault =>
    obtain ⟨error, a, fails, stays⟩ := Exec.push_of_odd .long (m.inHandler none).registers.pc nofun odd
    have raises : Exec.stackLong vector fault m.opcode m.registers.status (m.inHandler none) = _ :=
      (Exec.bind_registers _ _).trans (Exec.bind_of_error fails)
    exact ⟨error, _, raises, pushed a stays⟩

end Entry

namespace Machine

theorem accessError?_cases (m : Machine World) (cause : Cause) :
    (∃ e, cause = .exception e ∧ m.accessError? cause = some (e, m)) ∨
      m.accessError? cause = m.entryError? cause := by
  cases cause with
  | exception e =>
    cases e with
    | busError fault => exact .inl ⟨_, rfl, rfl⟩
    | addressError fault => exact .inl ⟨_, rfl, rfl⟩
    | _ => exact .inr rfl
  | trace => exact .inr rfl
  | interrupt level vector => exact .inr rfl

/-- A machine on an open bus whose exceptions are all left to their handlers. -/
structure OnOpenBus (m : Machine World) : Prop where
  openBus : m.memory.IsOpenBus
  unhooked : ∀ vector, m.hooks.vectors vector = none

namespace OnOpenBus

variable {m : Machine World} (h : m.OnOpenBus)

include h

/-- Nothing that the processor does changes that. -/
theorem of_evolves {m' : Machine World} (evolves : m.Evolves m') : m'.OnOpenBus := by
  constructor
  · rw [evolves.memory]
    exact h.openBus
  · rw [evolves.hooks]
    exact h.unhooked

theorem entryError?_of_even (cause : Cause) (even : m.registers.supervisorStack.getLsbD 0 = false) :
    m.entryError? cause = none := by
  have ends := Entry.action_of_even (m := m.entered cause) (h.unhooked (m.entry cause).vector)
    h.openBus even
  cases done : (m.entry cause).action (m.entered cause) with
  | ok _ framed => exact entryError?_of_ok done
  | error e failed =>
    rw [done] at ends
    exact ends.elim

/-- On an odd stack an exception comes to an address error, with a stack that is odd again. -/
theorem entryError?_of_odd (cause : Cause) (odd : m.registers.supervisorStack.getLsbD 0 = true) :
    ∃ fault began, m.entryError? cause = some (.addressError fault, began) ∧ began.OnOpenBus ∧
      began.registers.supervisorStack.getLsbD 0 = true := by
  obtain ⟨fault, failed, raised, stays⟩ :=
    Entry.action_of_odd (m := m.entered cause) (h.unhooked (m.entry cause).vector) odd
  have kept := Entry.frame_of_error raised
  refine ⟨fault, _, entryError?_of_error raised, ⟨?_, ?_⟩, stays⟩
  · rw [kept]
    exact h.openBus
  · rw [kept]
    exact h.unhooked

/-- Processing an exception ends in a double fault exactly on an odd stack. -/
theorem doubleFaults_eq (cause : Cause) :
    m.doubleFaults cause = m.registers.supervisorStack.getLsbD 0 := by
  cases stack : m.registers.supervisorStack.getLsbD 0 with
  | false =>
    obtain ⟨e, rfl, itself⟩ | entry := m.accessError?_cases cause
    · rw [doubleFaults, itself]
      exact congrArg Option.isSome (h.entryError?_of_even _ stack)
    · rw [doubleFaults, entry, h.entryError?_of_even cause stack]
  | true =>
    obtain ⟨e, rfl, itself⟩ | entry := m.accessError?_cases cause
    · obtain ⟨fault, began, raised, -, -⟩ := h.entryError?_of_odd (.exception e) stack
      rw [doubleFaults, itself]
      exact congrArg Option.isSome raised
    · -- the address error finds the stack as it was left, odd again
      obtain ⟨fault, began, raised, openBus, odd⟩ := h.entryError?_of_odd cause stack
      obtain ⟨_, _, again, -, -⟩ := openBus.entryError?_of_odd (.exception (.addressError fault)) odd
      rw [doubleFaults, entry, raised]
      exact congrArg Option.isSome again

/-- No error that a step comes to is a bus error. -/
theorem not_faults_busError (fault : AccessFault) (stacking : Bool) (began : Machine World) :
    ¬m.Faults (.busError fault) stacking began := by
  have start := h.of_evolves m.evolves_prologue
  intro faults
  cases faults with
  | instruction found =>
    have records := Exec.nextInstruction_records (nextInstruction_of_exception found).2 trivial
    exact start.openBus.ne_busError records.unmapped
  | @stacking cause failed found short raised =>
    have kept := Entry.frame_of_error raised
    have memory : failed.memory = m.prologue.machine.memory := by
      rw [kept]
      rfl
    exact start.openBus.ne_busError (memory ▸ (Entry.records raised).unmapped)

/-- The processor halts where a step comes to an exception on an odd stack. -/
theorem state_step_iff (awake : m.state = .running ∨ m.state = .stopped) :
    m.step.2.state = .halted ↔ ∃ cause, m.prologue.cause = some cause ∧
      m.prologue.machine.registers.supervisorStack.getLsbD 0 = true := by
  have step : m.step.2.state = m.prologue.finish.2.state := by rw [step_eq, charge_frame]
  rw [step, Prologue.finish]
  cases found : m.prologue.cause with
  | none =>
    have alive : m.prologue.machine.state ≠ .halted := by
      rw [state_prologue_of_none found]
      rcases awake with running | stopped <;> split <;> simp [*]
    simp [alive]
  | some cause =>
    have double := (h.of_evolves m.evolves_prologue).doubleFaults_eq cause
    dsimp only
    rw [state_process, double, state_prologue found]
    simp

end OnOpenBus

/-- On an open bus and without hooks for vectors, no step comes to a bus error, be it from an instruction or
while a frame is stacked. A step of a processor that runs or waits ends in a halt exactly when it processes
an exception, a trace or an interrupt and the supervisor stack is odd when the processing begins. No step
changes the bus or the hooks. -/
theorem halts_iff_of_openBus {m : Machine World} (h : m.OnOpenBus)
    (awake : m.state = .running ∨ m.state = .stopped) :
    (∀ fault stacking began, ¬m.Faults (.busError fault) stacking began) ∧
      (m.step.2.state = .halted ↔ ∃ cause, m.prologue.cause = some cause ∧
        m.prologue.machine.registers.supervisorStack.getLsbD 0 = true) ∧
      m.step.2.OnOpenBus :=
  ⟨h.not_faults_busError, h.state_step_iff awake, h.of_evolves m.evolves_step⟩

/-- A processor without any memory on a bus where all words read as TRAP #14, with an odd stack. -/
def floating : Machine Unit :=
  { new ⟨0x00FFFFFF, .openBus 0x4E⟩ ⟨#[], .none, ()⟩ fun _ world => world with
    registers := Registers.initial.setAddress 7 0x1001
    state := .running }

theorem halts_iff_of_openBus_floating :
    floating.prologue.cause = some (.exception (.trap (.trap 14) Timing.exception)) ∧
      floating.step.2.state = .halted := by
  have h : floating.OnOpenBus := ⟨⟨0x4E, rfl⟩, fun _ => rfl⟩
  have found : floating.prologue.cause = some (.exception (.trap (.trap 14) Timing.exception)) := rfl
  exact ⟨found, (halts_iff_of_openBus h (.inl rfl)).2.1.mpr ⟨_, found, rfl⟩⟩

end Machine

end MC68000
