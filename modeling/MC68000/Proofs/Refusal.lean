import MC68000.Proofs.Frame
import MC68000.Proofs.ReturnAddress

set_option autoImplicit false

namespace MC68000

variable {World : Type}

theorem Exception.IsFault.not_isRefusal {e : Exception} (fault : e.IsFault) : ¬e.IsRefusal := by
  intro refused
  cases e <;> first | exact fault | exact refused

namespace Instruction

/-- The instructions that stand for opcodes without a meaning. -/
def IsIllegal : Instruction → Prop
  | illegal | illegalPrivileged | illegalExtended => True
  | _ => False

variable {instruction : Instruction} {m m' : Machine World} {e : Exception}

theorem Traps.not_isRefusal (traps : instruction.Traps e) : ¬e.IsRefusal := by
  intro refused
  unfold Traps at traps
  split at traps
  case h_6 => exact traps
  all_goals
    rw [traps] at refused
    exact refused

theorem isIllegal_of_refusal? {supervisor : Bool}
    (refused : instruction.refusal? supervisor = some .illegal) : instruction.IsIllegal := by
  cases supervisor <;> cases instruction <;> first | trivial | cases refused

/-- An instruction that ends in a refusal is one that is refused in the current mode. -/
theorem refusal?_of_error (encodable : instruction.Encodable) (refused : e.IsRefusal)
    (raised : instruction.execute m = .error e m') :
    instruction.refusal? m.registers.isSupervisor = some e := by
  have outcome := (guarded_raises m.registers.status.system encodable).outcome m rfl
  rw [raised, Exec.has_supervisor_of_same m rfl] at outcome
  rcases outcome.2 with (named | traps) | fault
  · exact named
  · exact absurd refused traps.not_isRefusal
  · exact absurd refused fault.not_isRefusal

end Instruction

theorem MemoryMap.perform_program (map : MemoryMap World) {space : AddressSpace}
    (program : space.isProgram = true) (address : BitVec 32) (host : Host World) :
    map.perform ⟨space, address, .readWord⟩ host = host := by
  unfold perform peekWord
  dsimp only
  rw [if_pos program]

/-- One machine comes from another by looking at words of the program. The program counter may have
passed over them, all else is as it was. -/
structure Machine.Untouched (m m' : Machine World) : Prop where
  registers : m'.registers = { m.registers with pc := m'.registers.pc }
  state : m'.state = m.state
  interrupts : m'.interrupts = m.interrupts
  host : m'.host = m.host
  fetches : ∃ words : List BusCycle, m'.activity = m.activity ++ words ∧
    m'.registers.pc = m.registers.pc + BitVec.ofNat 32 (2 * words.length) ∧
    ∀ b ∈ words, b.space = m.programSpace ∧ b.transfer = .readWord

namespace Machine.Untouched

variable {m m' m'' : Machine World}

theorem refl (m : Machine World) : m.Untouched m :=
  ⟨rfl, rfl, rfl, rfl, [], (List.append_nil _).symm, (BitVec.add_zero _).symm, nofun⟩

theorem programSpace (h : m.Untouched m') : m'.programSpace = m.programSpace := by
  rw [Machine.programSpace, h.registers]
  rfl

theorem status (h : m.Untouched m') : m'.registers.status = m.registers.status := by rw [h.registers]

theorem supervisorStack (h : m.Untouched m') :
    m'.registers.supervisorStack = m.registers.supervisorStack := by
  rw [h.registers]
  rfl

theorem trans (first : m.Untouched m') (second : m'.Untouched m'') : m.Untouched m'' := by
  obtain ⟨words, recorded, passed, read⟩ := first.fetches
  obtain ⟨more, recorded', passed', read'⟩ := second.fetches
  refine ⟨?_, second.state.trans first.state, second.interrupts.trans first.interrupts,
    second.host.trans first.host, words ++ more, ?_, ?_, fun b found => ?_⟩
  · rw [second.registers, first.registers]
  · rw [recorded', recorded, List.append_assoc]
  · rw [passed', passed, BitVec.add_assoc, ← BitVec.ofNat_add, ← Nat.mul_add, List.length_append]
  · rcases List.mem_append.mp found with earlier | later
    · exact read b earlier
    · rw [← first.programSpace]
      exact read' b later

end Machine.Untouched

namespace Exec

variable {m m' : Machine World} {e : Exception}

theorem readWord_program {space : AddressSpace} (program : space.isProgram = true)
    (address : BitVec 32) (m : Machine World) :
    Ends (readWord space address m)
      (fun _ m' => m' = { m with activity := m.activity ++ [⟨space, address, .readWord⟩] })
      fun e _ => e.IsFault := by
  have final := m.memory.final_readWord space address m.host
  rw [MemoryMap.perform_program _ program] at final
  unfold readWord cycle
  dsimp only
  cases found : m.memory.readWord space address m.host with
  | ok word host =>
    rw [found] at final
    have same : host = m.host := final
    rw [same]
    exact rfl
  | error fault host => exact trivial

theorem read_word_program {space : AddressSpace} (program : space.isProgram = true)
    (address : BitVec 32) (m : Machine World) :
    Ends (read space .word address m)
      (fun _ m' => m' = { m with activity := m.activity ++ [⟨space, address, .readWord⟩] })
      fun e _ => e.IsFault := by
  refine Ends.bind ((requireAligned_effects space .word address false m).mono (fun _ _ => And.left)
    fun _ _ => And.right) ?_
  rintro _ _ rfl
  exact (readWord_program program address _).bind fun _ _ read => read

theorem read_long_program {space : AddressSpace} (program : space.isProgram = true)
    (address : BitVec 32) (m : Machine World) :
    Ends (read space .long address m) (fun _ m' => m' = { m with activity := m'.activity })
      fun e _ => e.IsFault := by
  refine Ends.bind ((requireAligned_effects space .long address false m).mono (fun _ _ => And.left)
    fun _ _ => And.right) ?_
  rintro _ _ rfl
  refine (readWord_program program address _).bind ?_
  rintro _ _ rfl
  refine (readWord_program program (address + 2) _).bind ?_
  rintro _ _ rfl
  exact rfl

theorem fetchWord_untouched (m : Machine World) :
    Ends (fetchWord m) (fun _ m' => m.Untouched m') fun e _ => e.IsFault := by
  have program : m.programSpace.isProgram = true := by
    unfold Machine.programSpace
    cases m.registers.isSupervisor <;> rfl
  have read : Ends (readProgram .word m.registers.pc m) _ _ :=
    read_word_program program m.registers.pc m
  refine Ends.bind (?_ : Ends _ (fun r m' => r = m.registers ∧ m' = m) _) ?_
  · exact ⟨rfl, rfl⟩
  rintro _ _ ⟨rfl, rfl⟩
  refine read.bind ?_
  rintro word _ rfl
  refine ⟨rfl, rfl, rfl, rfl, [⟨_, _, .readWord⟩], rfl, rfl, fun b found => ?_⟩
  rw [List.mem_singleton.mp found]
  exact ⟨rfl, rfl⟩

theorem branchTarget_untouched (displacement : BitVec 8) (m : Machine World) :
    Ends (branchTarget displacement m) (fun _ m' => m.Untouched m') fun _ _ => True := by
  unfold branchTarget
  rw [bind_registers]
  dsimp only
  split
  · refine Ends.bind ?_ fun _ _ => id
    exact ((fetchWord_untouched m).mono (fun _ _ => id) fun _ _ _ => trivial).bind fun _ _ => id
  · exact .refl m

theorem requirePrivilege_of_user (user : m.registers.isSupervisor = false) :
    requirePrivilege m = .error .privilege m := by
  unfold requirePrivilege
  rw [user]
  rfl

end Exec

/-- An instruction that is refused leaves the machine untouched. -/
theorem Instruction.untouched_of_refusal? {instruction : Instruction} {m : Machine World}
    {e : Exception} (refused : instruction.refusal? m.registers.isSupervisor = some e) :
    Ends (instruction.execute m) (fun _ _ => True) fun e' m' => e'.IsFault ∨ m.Untouched m' := by
  have privileged {f : Unit → Exec World Nat}
      (named : (if m.registers.isSupervisor then none else some Exception.privilege) = some e) :
      Ends ((Exec.requirePrivilege >>= f) m) (fun _ _ => True)
        fun e' m' => e'.IsFault ∨ m.Untouched m' := by
    split at named
    next => cases named
    next user =>
      rw [Exec.bind_of_error (Exec.requirePrivilege_of_user (Bool.eq_false_iff.mpr user))]
      exact .inr (.refl m)
  cases instruction with
  | illegal | lineA | lineF => exact .inr (.refl m)
  | illegalExtended =>
    refine ((Exec.fetchWord_untouched m).mono (fun _ _ => id) fun _ _ => .inl).bind ?_
    exact fun _ _ untouched => .inr untouched
  | illegalPrivileged =>
    refine Ends.bind (?_ : Ends _ (fun _ m' => m' = m) _) ?_
    · unfold Exec.requirePrivilege
      split
      · exact rfl
      · exact .inr (.refl m)
    · rintro _ _ rfl
      exact .inr (.refl _)
  | logicToSr _ | moveToSr _ | moveToUsp _ | moveFromUsp _ | reset | stop | rte =>
    exact privileged refused
  | _ => cases refused

/-- The next instruction leaves the machine untouched where it is refused. -/
theorem Exec.nextInstruction_untouched (m : Machine World) :
    Ends (Exec.nextInstruction m) (fun _ _ => True) fun e m' => e.IsRefusal → m.Untouched m' := by
  unfold Exec.nextInstruction
  refine ((Exec.fetchWord_untouched m).mono (fun _ _ => id) ?_).bind fun opcode fetched untouched => ?_
  · exact fun _ _ fault refused => absurd refused fault.not_isRefusal
  · change Ends ((Instruction.decode opcode).execute { fetched with opcode }) _ _
    cases found : (Instruction.decode opcode).execute { fetched with opcode } with
    | ok cost after => exact trivial
    | error e after =>
      intro refused
      have ends := Instruction.untouched_of_refusal?
        (Instruction.refusal?_of_error (Instruction.encodable_decode opcode) refused found)
      rw [found] at ends
      have start : fetched.Untouched { fetched with opcode } :=
        ⟨rfl, rfl, rfl, rfl, (Machine.Untouched.refl fetched).fetches⟩
      exact (untouched.trans start).trans (ends.resolve_left (·.not_isRefusal refused))

namespace Machine

variable {m framed : Machine World} {cause : Cause} {vector : VectorNumber}
  {returnAddress : BitVec 32}

/-- The machine that stacks the frame of an exception, with the registers of the handler already. -/
def stacking (m : Machine World) (cause : Cause) : Machine World :=
  (m.prologue.machine.entered cause).inHandler none

theorem isSupervisor_stacking (m : Machine World) (cause : Cause) :
    (m.stacking cause).registers.isSupervisor = true := isSupervisor_inHandler _ none

/-- A short frame below the supervisor's stack pointer, once a step has stacked it. -/
structure HasFrame (m framed : Machine World) (vector : VectorNumber) (returnAddress : BitVec 32)
    (old : StatusWord) : Prop where
  /-- Its words go over the bus before all that the step does after them. -/
  writes : m.prologue.machine.activity ++ frameWrites m.registers.supervisorStack returnAddress old <+:
    m.step.2.activity
  /-- Where memory keeps them, they are there. -/
  holds : ∀ cells, KeepsFrame m m.registers.supervisorStack cells →
    framed.host.ram.wordAt cells.status = some old ∧
      framed.host.ram.wordAt cells.high = some (returnAddress.extractLsb' 16 16) ∧
      framed.host.ram.wordAt cells.low = some (returnAddress.setWidth 16)
  /-- The handler finds the world in this state. -/
  enters : ∀ handler after, Exec.readVector vector framed = .ok handler after →
    m.step.2.host = framed.host ∧ m.step.2.registers.pc = handler

section stacked

variable (found : m.prologue.cause = some cause)
  (entry : m.prologue.machine.entry cause = .short vector returnAddress none)
  (unhooked : m.hooks.vectors vector = none)
  (stacked : Exec.stackFrame returnAddress m.prologue.machine.registers.status (m.stacking cause) =
    .ok () framed)

theorem supervisorStack_stacking (m : Machine World) (cause : Cause) :
    (m.stacking cause).registers.supervisorStack = m.prologue.machine.registers.supervisorStack :=
  Registers.supervisorStack_setStatus _ _

include stacked

theorem record_stacking : m.prologue.machine.registers.supervisorStack.getLsbD 0 = false ∧
    framed = { m.stacking cause with
      registers := (m.stacking cause).registers.setAddress 7
        (m.prologue.machine.registers.supervisorStack - 6)
      host := framed.host
      activity := m.prologue.machine.activity ++
        frameWrites m.prologue.machine.registers.supervisorStack returnAddress
          m.prologue.machine.registers.status } := by
  have record := Exec.stackFrame_record (m.isSupervisor_stacking cause) returnAddress
    m.prologue.machine.registers.status
  rw [stacked, supervisorStack_stacking] at record
  exact record

theorem wordAt_framed {cells : FrameCells}
    (keeps : KeepsFrame m.prologue.machine m.prologue.machine.registers.supervisorStack cells) :
    framed.host.ram.wordAt cells.status = some m.prologue.machine.registers.status ∧
      framed.host.ram.wordAt cells.high = some (returnAddress.extractLsb' 16 16) ∧
      framed.host.ram.wordAt cells.low = some (returnAddress.setWidth 16) := by
  have inside : KeepsFrame (m.stacking cause) (m.stacking cause).registers.supervisorStack cells := by
    rw [supervisorStack_stacking]
    exact keeps.congr rfl rfl
  have even := (record_stacking stacked).1
  rw [← m.supervisorStack_stacking cause] at even
  obtain ⟨other, same, becomes⟩ := Exec.stackFrame_of_keeps inside even
    (m.isSupervisor_stacking cause) returnAddress m.prologue.machine.registers.status
  rw [stacked] at same
  cases same
  rw [becomes.host_ram]
  exact Ram.wordAt_withFrame inside.holds inside.distinct _ _

include unhooked

/-- What is left to do then is to go to the handler. -/
theorem enterShort_stacking : Exec.enterShort vector returnAddress none
    (m.prologue.machine.entered cause) = Exec.enterHandler vector framed := by
  have hooks : (m.prologue.machine.entered cause).hooks = m.hooks := m.evolves_prologue.hooks
  refine Exec.enterShort_of_stacked ?_ stacked
  rw [hooks]
  exact unhooked

include found entry

/-- The words of the frame go over the bus. -/
theorem frameWrites_step : m.prologue.machine.activity ++
    frameWrites m.prologue.machine.registers.supervisorStack returnAddress
      m.prologue.machine.registers.status <+: m.step.2.activity := by
  have framedBy := (record_stacking stacked).2
  have supervisor : framed.registers.status.system.has .supervisor = true := by
    rw [framedBy]
    exact (StatusWord.has_supervisor_system _).trans (m.isSupervisor_stacking cause)
  have plain : Exec.Plain framed.registers.status.system (fun _ => False)
      (Exec.enterHandler vector : Exec World Unit) := Exec.plain_enterHandler supervisor vector
  have handled := plain.activity_grows rfl
  have growth := activity_processVector (m.prologue.machine.log (m.prologue.machine.entryRecord cause))
    vector returnAddress none cause.cost
  rw [processing_eq] at growth
  rw [step_eq, charge_frame, Prologue.finish, found]
  dsimp only
  rw [process_short entry]
  refine .trans ?_ growth
  change _ <+: (finalState (Exec.enterShort vector returnAddress none
    (m.prologue.machine.entered cause))).activity
  rw [enterShort_stacking unhooked stacked]
  rw [framedBy] at handled ⊢
  exact handled

/-- The handler is entered in the world that holds the frame. -/
theorem host_step_of_handler {handler : BitVec 32} {after : Machine World}
    (read : Exec.readVector vector framed = .ok handler after) :
    m.step.2.host = framed.host ∧ m.step.2.registers.pc = handler := by
  have unchanged : after = { framed with activity := after.activity } := by
    have program : Ends (Exec.readVector vector framed) _ _ :=
      Exec.read_long_program rfl vector.address framed
    rw [read] at program
    exact program
  have goes : Exec.enterShort vector returnAddress none (m.prologue.machine.entered cause) =
      .ok () (after.mapRegisters fun r => { r with pc := handler }) := by
    rw [enterShort_stacking unhooked stacked, Exec.enterHandler, Exec.bind_of_ok read]
    rfl
  unfold entered at goes
  rw [step_eq, charge_frame, Prologue.finish, found]
  dsimp only
  rw [process_short entry, processVector, processing, goes, unchanged]
  exact ⟨rfl, rfl⟩

end stacked

/-- A step that stacks a short frame with the registers as they were. -/
theorem hasFrame (found : m.prologue.cause = some cause)
    (untouched : Untouched { m with activity := [] } m.prologue.machine)
    (entry : m.prologue.machine.entry cause = .short vector returnAddress none)
    (unhooked : m.hooks.vectors vector = none)
    (stacked : Exec.stackFrame returnAddress m.registers.status (m.stacking cause) = .ok () framed) :
    m.HasFrame framed vector returnAddress m.registers.status := by
  have stack : m.prologue.machine.registers.supervisorStack = m.registers.supervisorStack :=
    untouched.supervisorStack
  have status : m.prologue.machine.registers.status = m.registers.status := untouched.status
  rw [← status] at stacked
  constructor
  case writes =>
    rw [← stack, ← status]
    exact frameWrites_step found entry unhooked stacked
  case holds =>
    intro cells keeps
    rw [← stack] at keeps
    rw [← status]
    exact wordAt_framed stacked
      (keeps.congr m.evolves_prologue.memory (congrArg Host.ram untouched.host))
  case enters => exact fun _ _ read => host_step_of_handler found entry unhooked stacked read

theorem entry_of_refused {e : Exception} (refused : e.IsRefusal) (m : Machine World) :
    m.entry (.exception e) = .short (Cause.exception e).vector m.instructionAddress none := by
  cases e <;> first | rfl | exact refused.elim

theorem untouched_prologue {e : Exception} (refused : e.IsRefusal)
    (found : m.prologue.cause = some (.exception e)) :
    Untouched { m with activity := [] } m.prologue.machine := by
  have raised := (nextInstruction_of_exception found).2
  have ends := Exec.nextInstruction_untouched m.beginning
  rw [raised] at ends
  have untouched := ends refused
  exact ⟨untouched.registers, untouched.state, untouched.interrupts, untouched.host,
    untouched.fetches⟩

/-- An instruction that is refused has no effect. When it ends in its refusal, for whatever opcode, the
machine is as it was but for the program counter, which may have passed words of the program. No other
words were looked at, so that no device and no hook has been called. An opcode without a meaning is the only
reason for the refusal of an instruction as illegal: the operands that instructions find by themselves are
never refused.

The exception of a step then stacks the status word as it was and the address of the opcode, unless a hook
takes its place. -/
theorem refused_without_effect {e : Exception} (refused : e.IsRefusal) :
    (∀ (opcode : BitVec 16) (m m' : Machine World),
      (Instruction.decode opcode).execute m = .error e m' →
        m.Untouched m' ∧ (e = .illegal → (Instruction.decode opcode).IsIllegal)) ∧
    ∀ m : Machine World, m.prologue.cause = some (.exception e) →
      Untouched { m with activity := [] } m.prologue.machine ∧
      (m.hooks.vectors (Cause.exception e).vector = none → ∀ framed,
        Exec.stackFrame m.registers.pc m.registers.status (m.stacking (.exception e)) = .ok () framed →
          m.HasFrame framed (Cause.exception e).vector m.registers.pc m.registers.status) := by
  refine ⟨fun opcode m m' raised => ?_, fun m found => ?_⟩
  · have named := Instruction.refusal?_of_error (Instruction.encodable_decode opcode) refused raised
    refine ⟨?_, fun illegal => ?_⟩
    · have ends := Instruction.untouched_of_refusal? named
      rw [raised] at ends
      exact ends.resolve_left (·.not_isRefusal refused)
    · rw [illegal] at named
      exact Instruction.isIllegal_of_refusal? named
  · have untouched := untouched_prologue refused found
    refine ⟨untouched, fun unhooked framed stacked => ?_⟩
    have entry := entry_of_refused refused m.prologue.machine
    rw [instructionAddress_prologue found] at entry
    exact hasFrame found untouched entry unhooked stacked

/-- A processor in user mode with Z and C set, on an open bus with 32 bytes of memory: STOP at address 8, and
the supervisor stack at the end. -/
def refusing : Machine Unit :=
  { new ⟨0x00FFFFFF, .openBus 0⟩
      ⟨#[#[0, 0, 0, 0, 0, 0, 0, 0, 0x4E, 0x72, 0x27, 0, 0, 0, 0, 0,
        0, 0, 0, 0, 0, 0, 0, 0, 0, 0, 0, 0, 0, 0, 0, 0]], .none, ()⟩ fun _ world => world with
    registers := { Registers.initial with shadow := 32, pc := 8, status := 5 }
    memory := (MemoryMap.empty ⟨0x00FFFFFF, .openBus 0⟩).mapRam ⟨0, 31⟩ 0
    state := .running }

def refusingCells : FrameCells := ⟨⟨0, 26⟩, ⟨0, 28⟩, ⟨0, 30⟩⟩

theorem keepsFrame_refusing : KeepsFrame refusing refusing.registers.supervisorStack refusingCells where
  status := ⟨rfl, rfl, rfl⟩
  high := ⟨rfl, rfl, rfl⟩
  low := ⟨rfl, rfl, rfl⟩
  holds := by decide +kernel
  distinct := by decide +kernel

/-- STOP is refused in user mode, and the frame holds its address and the flags. -/
theorem refused_without_effect_stop :
    Exception.IsRefusal .privilege ∧ refusing.prologue.cause = some (.exception .privilege) ∧
      refusing.prologue.machine.registers = { refusing.registers with pc := 10 } ∧
      refusing.step.2.host.ram.wordAt ⟨0, 26⟩ = some 5 ∧
      refusing.step.2.host.ram.wordAt ⟨0, 28⟩ = some 0 ∧
      refusing.step.2.host.ram.wordAt ⟨0, 30⟩ = some 8 := by
  have refused : Exception.IsRefusal .privilege := trivial
  have found : refusing.prologue.cause = some (.exception .privilege) := rfl
  obtain ⟨untouched, frame⟩ := (refused_without_effect refused).2 refusing found
  obtain ⟨framed, stacked, becomes⟩ := Exec.stackFrame_of_keeps
    (m := refusing.stacking (.exception .privilege)) (keepsFrame_refusing.congr rfl rfl) rfl rfl 8 5
  have inFrame := frame rfl framed stacked
  -- the vector lies where the open bus shows zeros
  have shown {address : BitVec 32} (outside : refusing.memory.readWord .supervisorProgram address framed.host =
      .ok 0 framed.host) : framed.memory.readWord .supervisorProgram address framed.host =
        .ok 0 framed.host := by
    rw [becomes.memory]
    exact outside
  obtain ⟨after, read, _⟩ :=
    Exec.read_long_of_found VectorNumber.privilege.even_address (shown rfl) (shown rfl)
  rw [(inFrame.enters _ after read).1]
  exact ⟨refused, found, untouched.registers, inFrame.holds refusingCells keepsFrame_refusing⟩

end Machine

end MC68000
