import MC68000.Proofs.Evolution

set_option autoImplicit false

namespace MC68000

variable {World : Type}

/-- How an exception is entered: by a short frame or, after a failed access, by a long one. A hook takes
the place of both. -/
inductive Entry where
  | short (vector : VectorNumber) (returnAddress : BitVec 32) (mask : Option (Fin 8))
  | long (vector : VectorNumber) (fault : AccessFault)

namespace Entry

def vector : Entry → VectorNumber
  | short vector _ _ | long vector _ => vector

def mask : Entry → Option (Fin 8)
  | short _ _ mask => mask
  | long _ _ => none

def action : Entry → Exec World Unit
  | short vector returnAddress mask => Exec.enterShort vector returnAddress mask
  | long vector fault => Exec.enterLong vector fault

end Entry

def StatusWord.inHandler (old : StatusWord) (mask : Option (Fin 8)) : StatusWord :=
  match mask with
  | some level => ((old ||| supervisor).clear trace).withInterruptMask level
  | none => (old ||| supervisor).clear trace

namespace Machine

/-- The machine in supervisor mode, before the frame is stacked. -/
def inHandler (m : Machine World) (mask : Option (Fin 8)) : Machine World :=
  m.mapRegisters (·.setStatus (m.registers.status.inHandler mask))

end Machine

namespace StatusWord

theorem has_supervisor_clear_trace (status : StatusWord) :
    (status.clear trace).has supervisor = status.has supervisor := by
  rw [has_supervisor, has_supervisor, getLsbD_clear _ _ (by decide)]
  exact Bool.and_true _

theorem getLsbD_withInterruptMask (status : StatusWord) (level : Fin 8) {i : Nat} (small : i < 16)
    (outside : interruptField.getLsbD i = false) :
    (status.withInterruptMask level).getLsbD i = status.getLsbD i := by
  have inside : ∀ level : Fin 8, ∀ k < 16, interruptField.getLsbD k = false →
      (BitVec.ofNat 16 level <<< 8).getLsbD k = false := by decide
  rw [withInterruptMask, BitVec.getLsbD_or, getLsbD_clear _ _ small, outside,
    inside level i small outside, Bool.or_false]
  exact Bool.and_true _

theorem has_supervisor_withInterruptMask (status : StatusWord) (level : Fin 8) :
    (status.withInterruptMask level).has supervisor = status.has supervisor := by
  rw [has_supervisor, has_supervisor, getLsbD_withInterruptMask _ _ (by decide) (by decide)]

theorem has_supervisor_inHandler (old : StatusWord) (mask : Option (Fin 8)) :
    (old.inHandler mask).has supervisor = true := by
  have entered : ((old ||| supervisor).clear trace).has supervisor = true := by
    rw [has_supervisor_clear_trace, has_supervisor, BitVec.getLsbD_or]
    exact Bool.or_true _
  cases mask with
  | none => exact entered
  | some level => exact (has_supervisor_withInterruptMask _ level).trans entered

theorem interruptMask_withInterruptMask (status : StatusWord) (level : Fin 8) :
    (status.withInterruptMask level).interruptMask = level := by
  have inside : ∀ level : Fin 8,
      ((BitVec.ofNat 16 level <<< 8 &&& interruptField) >>> 8).toNat = level := by decide
  have cleared : status.clear interruptField &&& interruptField = 0#16 := by
    rw [clear, BitVec.and_assoc, BitVec.not_and_self]
    exact BitVec.and_zero
  rw [interruptMask, withInterruptMask, BitVec.and_or_distrib_right, cleared, BitVec.zero_or]
  exact inside level

/-- A handler runs at its own mask, or at the mask of what it interrupts. -/
theorem interruptMask_inHandler (old : StatusWord) (mask : Option (Fin 8)) :
    (old.inHandler mask).interruptMask = mask.elim old.interruptMask Fin.val := by
  cases mask with
  | some level => exact interruptMask_withInterruptMask _ level
  | none =>
    have outside : supervisor &&& interruptField = 0 := rfl
    have kept : ~~~trace &&& interruptField = interruptField := rfl
    rw [inHandler, interruptMask, clear, BitVec.and_assoc, kept, BitVec.and_or_distrib_right, outside]
    exact congrArg (fun field : StatusWord => (field >>> 8).toNat) BitVec.or_zero

theorem interruptMask_implemented (status : StatusWord) :
    interruptMask (status &&& implemented) = status.interruptMask :=
  interruptMask_of_system status.system_implemented

end StatusWord

namespace Registers

theorem status_setStatus (r : Registers) (value : StatusWord) :
    (r.setStatus value).status = value &&& .implemented := by
  unfold setStatus
  dsimp only
  split <;> rfl

theorem interruptMask_setStatus (r : Registers) (value : StatusWord) :
    (r.setStatus value).interruptMask = value.interruptMask := by
  rw [interruptMask, status_setStatus, StatusWord.interruptMask_implemented]

end Registers

namespace Machine

theorem opcode_mapRegisters (m : Machine World) (f : Registers → Registers) :
    (m.mapRegisters f).opcode = m.opcode := rfl

theorem opcode_inHandler (m : Machine World) (mask : Option (Fin 8)) :
    (m.inHandler mask).opcode = m.opcode := m.opcode_mapRegisters _

theorem isSupervisor_inHandler (m : Machine World) (mask : Option (Fin 8)) :
    (m.inHandler mask).registers.isSupervisor = true :=
  (Registers.isSupervisor_setStatus _ _).trans (StatusWord.has_supervisor_inHandler _ mask)

theorem has_supervisor_inHandler (m : Machine World) (mask : Option (Fin 8)) :
    (m.inHandler mask).registers.status.system.has .supervisor = true :=
  (StatusWord.has_supervisor_system _).trans (m.isSupervisor_inHandler mask)

theorem interruptMask_inHandler (m : Machine World) (mask : Option (Fin 8)) :
    (m.inHandler mask).registers.interruptMask = mask.elim m.registers.interruptMask Fin.val :=
  (Registers.interruptMask_setStatus _ _).trans (StatusWord.interruptMask_inHandler _ mask)

end Machine

namespace Exec

variable {s : StatusWord} {raises : Exception → Prop}

theorem enterSupervisor_eq (mask : Option (Fin 8)) (m : Machine World) :
    enterSupervisor mask m = .ok m.registers.status (m.inHandler mask) := by
  cases mask <;> rfl

theorem plain_readVector (supervisor : s.has .supervisor = true) (vector : VectorNumber) :
    Plain s raises (readVector vector : Exec World (BitVec 32)) :=
  .read .long vector.address supervisor.symm

/-- Stacks a short frame and goes to the handler, in supervisor mode. -/
def stackShort (vector : VectorNumber) (returnAddress : BitVec 32) (old : StatusWord) :
    Exec World Unit := do
  push .long returnAddress
  push .word (old.setWidth 32)
  let handler ← readVector vector
  update fun r => { r with pc := handler }

/-- Stacks a long frame and goes to the handler, in supervisor mode. -/
def stackLong (vector : VectorNumber) (fault : AccessFault) (opcode : BitVec 16)
    (old : StatusWord) : Exec World Unit := do
  push .long (← registers).pc
  push .word (old.setWidth 32)
  push .word (opcode.setWidth 32)
  push .long fault.address
  push .word (fault.statusWord.setWidth 32)
  let handler ← readVector vector
  update fun r => { r with pc := handler }

theorem plain_stackShort (supervisor : s.has .supervisor = true) (vector : VectorNumber)
    (returnAddress : BitVec 32) (old : StatusWord) :
    Plain s raises (stackShort vector returnAddress old : Exec World Unit) := by
  refine (plain_push .long returnAddress).andThen fun _ => (plain_push .word _).andThen fun _ => ?_
  exact (plain_readVector supervisor vector).andThen fun _ => plain_update fun r => r.unprivileged_pc _

theorem plain_stackLong (supervisor : s.has .supervisor = true) (vector : VectorNumber)
    (fault : AccessFault) (opcode : BitVec 16) (old : StatusWord) :
    Plain s raises (stackLong vector fault opcode old : Exec World Unit) := by
  refine .bind .registers fun r _ => (plain_push .long r.pc).andThen fun _ => ?_
  refine (plain_push .word _).andThen fun _ => (plain_push .word _).andThen fun _ => ?_
  refine (plain_push .long _).andThen fun _ => (plain_push .word _).andThen fun _ => ?_
  exact (plain_readVector supervisor vector).andThen fun _ => plain_update fun r => r.unprivileged_pc _

theorem opcode_push {size : Size} {value : BitVec 32} {m m' : Machine World}
    (h : push size value m = .ok () m') : m'.opcode = m.opcode := by
  have plain : Plain m.registers.status.system (fun _ => False) (push size value : Exec World Unit) :=
    plain_push size value
  have pushed := plain.effects m rfl
  rw [h] at pushed
  exact pushed.1.opcode

end Exec

namespace Entry

def stack (entry : Entry) (opcode : BitVec 16) (old : StatusWord) : Exec World Unit :=
  match entry with
  | short vector returnAddress _ => Exec.stackShort vector returnAddress old
  | long vector fault => Exec.stackLong vector fault opcode old

theorem plain_stack {s : StatusWord} {raises : Exception → Prop}
    (supervisor : s.has .supervisor = true) (entry : Entry) (opcode : BitVec 16) (old : StatusWord) :
    Exec.Plain s raises (entry.stack opcode old : Exec World Unit) := by
  cases entry with
  | short vector returnAddress mask => exact Exec.plain_stackShort supervisor _ _ _
  | long vector fault => exact Exec.plain_stackLong supervisor _ _ _ _

/-- The registers as a hook finds them. -/
def hooked (entry : Entry) (r : Registers) : Registers :=
  match entry with
  | short _ returnAddress _ => { r with pc := returnAddress }
  | long _ _ => r

theorem action_of_unhooked {entry : Entry} {m : Machine World}
    (unhooked : m.hooks.vectors entry.vector = none) :
    entry.action m = entry.stack m.opcode m.registers.status (m.inHandler entry.mask) := by
  cases entry with
  | short vector returnAddress mask =>
    change m.hooks.vectors vector = none at unhooked
    change Exec.enterShort vector returnAddress mask m = _
    simp only [Exec.enterShort, bind, EStateM.bind, Exec.hook?, unhooked, Exec.enterSupervisor_eq]
    rfl
  | long vector fault =>
    change m.hooks.vectors vector = none at unhooked
    change Exec.enterLong vector fault m = _
    simp only [Exec.enterLong, stack, Exec.stackLong, bind, EStateM.bind, Exec.hook?, unhooked,
      Exec.enterSupervisor_eq, Exec.registers, Exec.opcode, mask]
    cases pc : Exec.push .long (m.inHandler none).registers.pc (m.inHandler none) with
    | error e m₁ => rfl
    | ok _ m₁ =>
      dsimp only
      cases status : Exec.push .word (m.registers.status.setWidth 32) m₁ with
      | error e m₂ => rfl
      | ok _ m₂ =>
        have same : m₂.opcode = m.opcode :=
          ((Exec.opcode_push status).trans (Exec.opcode_push pc)).trans (m.opcode_inHandler none)
        dsimp only
        rw [same]

theorem action_of_hook {entry : Entry} {m : Machine World} {hook : VectorHook World}
    (present : m.hooks.vectors entry.vector = some hook) :
    entry.action m = Exec.callHook hook entry.vector (m.mapRegisters entry.hooked) := by
  cases entry with
  | short vector returnAddress mask =>
    change m.hooks.vectors vector = some hook at present
    change Exec.enterShort vector returnAddress mask m = _
    simp only [Exec.enterShort, bind, EStateM.bind, Exec.hook?, present]
    rfl
  | long vector fault =>
    change m.hooks.vectors vector = some hook at present
    change Exec.enterLong vector fault m = _
    simp only [Exec.enterLong, bind, EStateM.bind, Exec.hook?, present]
    rfl

/-- Without a hook, an entry is the change of mode and effects after it, and only an access can fail. -/
theorem effects {entry : Entry} {m : Machine World}
    (unhooked : m.hooks.vectors entry.vector = none) :
    Ends (entry.action m) (fun _ m' => (m.inHandler entry.mask).Effects m')
      fun e m' => (m.inHandler entry.mask).Effects m' ∧ e.IsFault := by
  have plain : Exec.Plain (m.inHandler entry.mask).registers.status.system (fun _ => False)
      (entry.stack m.opcode m.registers.status : Exec World Unit) :=
    entry.plain_stack (m.has_supervisor_inHandler entry.mask) _ _
  rw [action_of_unhooked unhooked]
  exact (plain.effects _ rfl).mono (fun _ _ after => after.1)
    fun _ _ after => ⟨after.1, after.2.resolve_left id⟩

/-- However an exception is entered, all bits of the status word exist afterwards. -/
theorem implemented_final (entry : Entry) (m : Machine World) :
    (finalState (entry.action m)).registers.status.Implemented := by
  cases found : m.hooks.vectors entry.vector with
  | none =>
    have start : (m.inHandler entry.mask).registers.status.Implemented :=
      Registers.implemented_setStatus _ _
    exact ((effects found).mono (fun _ _ after => after.unprivileged.implemented start)
      fun _ _ after => after.1.unprivileged.implemented start).final
  | some hook =>
    rw [action_of_hook found]
    exact StatusWord.implemented_and _

theorem evolves (entry : Entry) (m : Machine World) : m.Evolves (finalState (entry.action m)) := by
  cases found : m.hooks.vectors entry.vector with
  | none =>
    have changed : m.Evolves (m.inHandler entry.mask) := .inside rfl rfl
    exact ((effects found).mono (fun _ _ after => changed.trans after.evolves)
      fun _ _ after => changed.trans after.1.evolves).final
  | some hook =>
    rw [action_of_hook found]
    exact ⟨rfl, .single (.vector found (entry.hooked m.registers))⟩

theorem activity (entry : Entry) (m : Machine World) :
    m.activity <+: (finalState (entry.action m)).activity := by
  cases found : m.hooks.vectors entry.vector with
  | none =>
    exact ((effects found).mono (fun _ _ after => after.activity_grows)
      fun _ _ after => after.1.activity_grows).final
  | some hook =>
    rw [action_of_hook found]
    exact List.prefix_refl m.activity

theorem frame (entry : Entry) (m : Machine World) :
    finalState (entry.action m) = { m with
      registers := (finalState (entry.action m)).registers
      host := (finalState (entry.action m)).host
      activity := (finalState (entry.action m)).activity } := by
  cases found : m.hooks.vectors entry.vector with
  | none =>
    let framed (m' : Machine World) : Prop := m' = { m with
      registers := m'.registers
      host := m'.host
      activity := m'.activity }
    have ends : Ends (entry.action m) (fun _ m' => framed m') fun _ m' => framed m' :=
      (effects found).mono (fun _ _ after => after.frame) fun _ _ after => after.1.frame
    exact ends.final
  | some hook =>
    rw [action_of_hook found]
    rfl

theorem frame_of_error {entry : Entry} {m failed : Machine World} {e : Exception}
    (raised : entry.action m = .error e failed) :
    failed = { m with
      registers := failed.registers
      host := failed.host
      activity := failed.activity } := by
  have frame := entry.frame m
  rw [raised] at frame
  exact frame

end Entry

namespace Machine

/-- What processing an exception does to a machine. The processor may halt. -/
structure Processed (m m' : Machine World) : Prop where
  evolves : m.Evolves m'
  frame : m' = { m with
    registers := m'.registers
    state := m'.state
    processingException := m'.processingException
    activity := m'.activity
    host := m'.host }
  state : m'.state = m.state ∨ m'.state = .halted

theorem Processed.refl (m : Machine World) : m.Processed m := ⟨.refl m, rfl, .inl rfl⟩

theorem Processed.trans {m m' m'' : Machine World} (first : m.Processed m')
    (second : m'.Processed m'') : m.Processed m'' := by
  refine ⟨first.evolves.trans second.evolves, ?_, ?_⟩
  · rw [second.frame, first.frame]
  · rcases second.state with same | halted
    · rw [same]
      exact first.state
    · exact .inr halted

theorem processed_log (m : Machine World) (record : LogRecord) : m.Processed (m.log record) :=
  ⟨evolves_log m record, rfl, .inl rfl⟩

theorem processed_halt (m : Machine World) : m.Processed m.halt :=
  (processed_log m _).trans ⟨.inside rfl rfl, rfl, .inr rfl⟩

theorem processing_eq (m : Machine World) (action : Exec World Unit) :
    (m.processing action).2 =
      { finalState (action { m with processingException := true }) with
        processingException := false } := by
  unfold processing finalState
  cases action { m with processingException := true } <;> rfl

theorem processed_processing (m : Machine World) (entry : Entry) :
    m.Processed (m.processing entry.action).2 := by
  rw [processing_eq]
  have evolves := entry.evolves { m with processingException := true }
  have frame := entry.frame { m with processingException := true }
  refine ⟨⟨evolves.wiring, evolves.host⟩, ?_, .inl ?_⟩
  · rw [frame]
  · rw [frame]

theorem processed_processFault (m : Machine World) (vector : VectorNumber) (fault : AccessFault) :
    m.Processed (m.processFault vector fault).2 := by
  have entered := processed_processing (m.log (.accessFault vector fault.write fault.address))
    (.long vector fault)
  have start := (processed_log m (.accessFault vector fault.write fault.address)).trans entered
  unfold processFault
  change m.Processed ((m.log (.accessFault vector fault.write fault.address)).processing
    (Exec.enterLong vector fault)).2 at start
  split
  next found =>
    rw [found] at start
    exact start
  next found =>
    rw [found] at start
    exact start.trans (processed_halt _)

/-- How the processing of an exception other than a bus or address error goes on from its entry. -/
theorem processVector_cases (m : Machine World) (vector : VectorNumber)
    (returnAddress : BitVec 32) (mask : Option (Fin 8)) (cost : Nat) :
    let entered := m.processing (Exec.enterShort vector returnAddress mask)
    let processed := m.processVector vector returnAddress mask cost
    entered.1 = none ∧ processed = (cost, entered.2) ∨
      (∃ (fault : AccessFault) (e : Exception) (v : VectorNumber), entered.1 = some e ∧ e.IsFault ∧
        processed = (cost + (entered.2.processFault v fault).1, (entered.2.processFault v fault).2)) ∨
      ∃ e, entered.1 = some e ∧ ¬e.IsFault ∧ processed = (cost, entered.2.halt) := by
  dsimp only
  unfold processVector
  cases m.processing (Exec.enterShort vector returnAddress mask) with
  | mk raised after =>
    cases raised with
    | none => exact .inl ⟨rfl, rfl⟩
    | some e =>
      cases e with
      | busError fault => exact .inr (.inl ⟨fault, _, .busError, rfl, trivial, rfl⟩)
      | addressError fault => exact .inr (.inl ⟨fault, _, .addressError, rfl, trivial, rfl⟩)
      | illegal => exact .inr (.inr ⟨_, rfl, id, rfl⟩)
      | privilege => exact .inr (.inr ⟨_, rfl, id, rfl⟩)
      | lineA => exact .inr (.inr ⟨_, rfl, id, rfl⟩)
      | lineF => exact .inr (.inr ⟨_, rfl, id, rfl⟩)
      | trap v c => exact .inr (.inr ⟨_, rfl, id, rfl⟩)

theorem processed_processVector (m : Machine World) (vector : VectorNumber)
    (returnAddress : BitVec 32) (mask : Option (Fin 8)) (cost : Nat) :
    m.Processed (m.processVector vector returnAddress mask cost).2 := by
  have entered : m.Processed (m.processing (Exec.enterShort vector returnAddress mask)).2 :=
    processed_processing m (.short vector returnAddress mask)
  obtain ⟨_, same⟩ | ⟨fault, _, v, _, _, same⟩ | ⟨_, _, _, same⟩ :=
    m.processVector_cases vector returnAddress mask cost
  · rw [same]
    exact entered
  · rw [same]
    exact entered.trans (processed_processFault _ v fault)
  · rw [same]
    exact entered.trans (processed_halt _)

end Machine

end MC68000
