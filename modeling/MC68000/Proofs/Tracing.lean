import MC68000.Proofs.RamViews
import MC68000.Proofs.RunStates
import MC68000.Proofs.Tracing.Instructions

set_option autoImplicit false

namespace MC68000

variable {World : Type}

/-- The bytes of a short frame. -/
def FrameCells.bytes (cells : FrameCells) : List ByteCell :=
  cells.all.flatMap fun c => [⟨c.buffer, c.offset⟩, ⟨c.buffer, c.offset + 1⟩]

namespace Ram

theorem byteAt_putWord_of_ne {c : Cell} {b : ByteCell} (high : b ≠ ⟨c.buffer, c.offset⟩)
    (low : b ≠ ⟨c.buffer, c.offset + 1⟩) (ram : Ram) (value : BitVec 16) :
    (ram.putWord c value).byteAt b = ram.byteAt b := by
  unfold putWord storeWord
  split
  · exact byteAt_putHalves_of_ne high low ram value
  · rfl

theorem byteAt_withFrame_of_outside {cells : FrameCells} {b : ByteCell} (outside : b ∉ cells.bytes)
    (ram : Ram) (old : StatusWord) (returnAddress : BitVec 32) :
    (ram.withFrame cells old returnAddress).byteAt b = ram.byteAt b := by
  have apart (c : Cell) (member : c ∈ cells.all) (ram : Ram) (value : BitVec 16) :
      (ram.putWord c value).byteAt b = ram.byteAt b := by
    have bytes (d : ByteCell) (inside : d ∈ [⟨c.buffer, c.offset⟩, ⟨c.buffer, c.offset + 1⟩]) :
        b ≠ d :=
      fun same => outside (List.mem_flatMap.mpr ⟨c, member, same ▸ inside⟩)
    exact byteAt_putWord_of_ne (bytes _ List.mem_cons_self)
      (bytes _ (List.mem_cons_of_mem _ List.mem_cons_self)) ram value
  obtain ⟨status, high, low⟩ := cells.mem_all
  rw [withFrame, apart _ status, apart _ low, apart _ high]

end Ram

namespace Machine

def traced (m : Machine World) : Machine World :=
  m.mapRegisters fun r => { r with status := r.status ||| .trace }

variable {m : Machine World} {opcode : BitVec 16} {handler : BitVec 32} {cells : FrameCells}

theorem isTracing_traced (m : Machine World) : m.traced.registers.isTracing = true := by
  change (m.registers.status ||| StatusWord.trace).has StatusWord.trace = true
  rw [StatusWord.has_trace, BitVec.getLsbD_or]
  exact Bool.or_true _

theorem implemented_traced (h : m.registers.status.Implemented) :
    m.traced.registers.status.Implemented := by
  have kept : m.registers.status &&& StatusWord.implemented = m.registers.status := h
  change (m.registers.status ||| StatusWord.trace) &&& StatusWord.implemented = _ ||| _
  rw [BitVec.and_or_distrib_right, kept]
  rfl

theorem sameButTrace_beginning (m : Machine World) : m.beginning.SameButTrace m.traced.beginning :=
  ⟨_, rfl, _, rfl, m.registers.status.sameButTrace_or_trace⟩

/-- An opcode is fetched by a running machine that has no interrupt to accept. -/
theorem ready_of_opcode? (fetched : m.opcode? = some opcode) :
    m.state = .running ∧ m.interrupts.highestAbove m.registers.interruptMask = none ∧
      m.beginning.fetched? = some opcode := by
  unfold opcode? at fetched
  split at fetched
  next ready => exact ⟨ready.1, ready.2, fetched⟩
  next => cases fetched

theorem nextInstruction_of_completes (fetched : m.opcode? = some opcode)
    (completes : m.prologue.cause = none) :
    Exec.nextInstruction m.beginning = .ok m.prologue.cost m.prologue.machine := by
  obtain ⟨running, quiet, _⟩ := ready_of_opcode? fetched
  rw [prologue_of_instruction running quiet] at completes ⊢
  unfold instructionPrologue at completes ⊢
  unfold beginning
  split at completes
  next done => rw [done]
  next => cases completes

/-- With T set, an instruction does what it does otherwise, and the step then comes to the trace exception. -/
theorem prologue_traced (fetched : m.opcode? = some opcode)
    (awake : Instruction.decode opcode ≠ .stop)
    (hides : ∀ destination, Instruction.decode opcode ≠ .moveFromSr destination)
    (completes : m.prologue.cause = none) :
    ∃ n, m.prologue.machine.SameButTrace n ∧ m.traced.prologue = ⟨n, m.prologue.cost, some .trace⟩ := by
  obtain ⟨running, quiet, found⟩ := ready_of_opcode? fetched
  have alike := Exec.nextInstruction_sameButTrace m.sameButTrace_beginning fun word destination same => by
    rw [found] at same
    cases same
    exact hides destination
  -- the instruction completes with T set as well
  rw [nextInstruction_of_completes fetched completes] at alike
  obtain ⟨cost, _, n, left, right, same⟩ | ⟨_, _, _, left, _⟩ := alike.cases
  · cases left
    have goesOn : n.state = .running := by
      have stays := state_prologue_of_none completes
      rw [if_neg fun stops => awake (by rw [Option.some.inj (fetched.symm.trans stops.1)]; rfl)] at stays
      obtain ⟨_, rfl, _⟩ := same
      exact stays.trans running
    have mask : m.traced.registers.interruptMask = m.registers.interruptMask :=
      m.registers.status.sameButTrace_or_trace.interruptMask.symm
    refine ⟨n, same, ?_⟩
    unfold beginning at right
    rw [prologue_of_instruction (m := m.traced) running (by rw [mask]; exact quiet),
      instructionPrologue, right]
    dsimp only
    rw [isTracing_traced, if_pos ⟨rfl, goesOn⟩]
  · cases left

/-- A trace exception whose handler is an RTE. Two steps after the instruction began, the registers are what the
instruction has made them, and so are the buffers but for the frame. -/
theorem trace_returns (implemented : m.registers.status.Implemented)
    (found : m.prologue.cause = some .trace) (unhooked : m.hooks.vectors .trace = none)
    (room : FrameRoom m.prologue.machine .trace handler cells)
    (quiet : m.interrupts.highestAbove m.prologue.machine.registers.interruptMask = none) :
    m.step.1 = m.prologue.cost + Timing.exception ∧
      m.step.2.step.2.registers = m.prologue.machine.registers ∧
      m.step.2.step.2.host.ram = m.prologue.machine.host.ram.withFrame cells
        m.prologue.machine.registers.status m.prologue.machine.registers.pc := by
  have entry : m.prologue.machine.entry .trace =
      .short .trace m.prologue.machine.registers.pc none := rfl
  obtain ⟨registers, memory, ram, running⟩ := step_of_short found entry unhooked room
  obtain ⟨framed, finished, _⟩ := finish_of_short found entry unhooked room
  have cost : m.step.1 = m.prologue.cost + Timing.exception := by
    rw [step_eq, finished]
    rfl
  have lines : m.step.2.interrupts = m.interrupts := by
    rw [interrupts_step, found]
  have mask : m.step.2.registers.interruptMask = m.prologue.machine.registers.interruptMask := by
    rw [registers]
    exact interruptMask_inHandler (m.prologue.machine.entered .trace) none
  obtain ⟨returned, kept⟩ := (room_inHandler room .trace none).step_rte (isSupervisor_inHandler _ none)
    (isTracing_inHandler _ none) registers memory ram running (by rw [lines, mask]; exact quiet)
  have undone := Registers.setStatus_setStatus (implemented_prologue implemented)
    (StatusWord.has_supervisor_inHandler m.prologue.machine.registers.status none)
  refine ⟨cost, ?_, kept.trans ram⟩
  rw [returned]
  exact congrArg (fun r : Registers => { r with pc := m.prologue.machine.registers.pc }) undone

/-- Tracing is transparent. On a machine that is about to execute an instruction other than STOP and MOVE from
SR, and on which that instruction completes and is not traced, setting T first has these effects if the handler
of the trace exception is an RTE that is not hooked, there is room for the frame when the instruction is done,
and no interrupt can then be accepted: the step takes 34 cycles more, and after the RTE all registers but T are
what they are after the untraced step, as are the memory map and all bytes of the buffers outside of the frame.

An opcode is fetched only where the machine is running and has no interrupt to accept. The status word has no
bits that do not exist, which neither a step nor the host makes. -/
theorem traced_step_returns (implemented : m.registers.status.Implemented)
    (fetched : m.opcode? = some opcode) (awake : Instruction.decode opcode ≠ .stop)
    (hides : ∀ destination, Instruction.decode opcode ≠ .moveFromSr destination)
    (completes : m.prologue.cause = none) (unhooked : m.hooks.vectors .trace = none)
    (room : FrameRoom m.step.2 .trace handler cells)
    (quiet : m.step.2.interrupts.highestAbove m.step.2.registers.interruptMask = none) :
    let after := m.traced.step.2.step.2
    m.traced.step.1 = m.step.1 + 34 ∧ m.step.2.registers.SameButTrace after.registers ∧
      after.memory = m.step.2.memory ∧
      ∀ b, b ∉ cells.bytes → after.host.ram.byteAt b = m.step.2.host.ram.byteAt b := by
  intro after
  obtain ⟨n, same, prologue⟩ := prologue_traced fetched awake hides completes
  -- the untraced step is the instruction and its charge
  have untraced : m.step = (m.prologue.cost, (m.prologue.machine.charge m.prologue.cost).2) := by
    rw [step_eq, Prologue.finish, completes]
  have lines : m.step.2.interrupts = m.interrupts := by
    rw [interrupts_step, completes]
  rw [lines, untraced, charge_frame] at quiet
  rw [untraced, charge_frame] at room
  have room' : FrameRoom m.traced.prologue.machine .trace handler cells := by
    rw [prologue]
    obtain ⟨_, rfl, alike⟩ := same
    exact room.congr alike.supervisorStack.symm rfl rfl
  have quiet' : m.traced.interrupts.highestAbove m.traced.prologue.machine.registers.interruptMask =
      none := by
    rw [prologue]
    obtain ⟨_, rfl, alike⟩ := same
    exact alike.interruptMask ▸ quiet
  obtain ⟨cost, registers, ram⟩ :=
    trace_returns (implemented_traced implemented) (by rw [prologue]) unhooked room' quiet'
  rw [prologue] at cost registers ram
  have memory : after.memory = m.step.2.memory :=
    ((evolves_step _).trans (evolves_step _)).memory.trans m.evolves_step.memory.symm
  refine ⟨?_, ?_, memory, fun b outside => ?_⟩
  · rw [cost, untraced]
    rfl
  · rw [registers, untraced, charge_frame]
    obtain ⟨_, rfl, alike⟩ := same
    exact alike
  · rw [ram, Ram.byteAt_withFrame_of_outside outside, untraced, charge_frame]
    obtain ⟨_, rfl, _⟩ := same
    rfl

/-- A processor in user mode on an open bus with 64 bytes of memory: RTE at address 0, where all vectors lead,
MOVEQ #-1,D0 at address 8, and the supervisor stack at the end. -/
def counting : Machine Unit :=
  { new ⟨0x00FFFFFF, .openBus 0⟩
      ⟨#[#[0x4E, 0x73, 0, 0, 0, 0, 0, 0, 0x70, 0xFF] ++ Array.replicate 54 0], .none, ()⟩
      fun _ world => world with
    registers := { Registers.initial with shadow := 64, pc := 8, status := 0 }
    memory := (MemoryMap.empty ⟨0x00FFFFFF, .openBus 0⟩).mapRam ⟨0, 63⟩ 0
    state := .running }

def countingCells : FrameCells := ⟨⟨0, 58⟩, ⟨0, 60⟩, ⟨0, 62⟩⟩

theorem room_counting : FrameRoom counting.step.2 .trace 0 countingCells where
  even := by decide +kernel
  status := ⟨rfl, rfl, rfl⟩
  high := ⟨rfl, rfl, rfl⟩
  low := ⟨rfl, rfl, rfl⟩
  holds := by decide +kernel
  distinct := by decide +kernel
  entry := rfl
  handlerEven := rfl
  rte := rfl
  apart := by
    intro address near c found
    rcases near with _ | ⟨_, _ | ⟨_, _ | ⟨_, none⟩⟩⟩
    · cases found
      decide +kernel
    · cases found
      decide +kernel
    · cases found
      decide +kernel
    · cases none

/-- The instruction costs 4 untraced and 38 traced, and D0 holds its result both ways. -/
theorem traced_step_returns_counting :
    counting.opcode? = some 0x70FF ∧ counting.prologue.cause = none ∧
      counting.traced.step.1 = 38 ∧
      counting.traced.step.2.step.2.registers.d = counting.step.2.registers.d ∧
      counting.traced.step.2.step.2.host.ram.byteAt ⟨0, 9⟩ = some 0xFF := by
  have fetched : counting.opcode? = some 0x70FF := rfl
  have completes : counting.prologue.cause = none := rfl
  have implemented : counting.registers.status.Implemented := rfl
  obtain ⟨cost, ⟨_, registers, _⟩, _, bytes⟩ := traced_step_returns implemented fetched nofun nofun
    completes rfl room_counting (by decide +kernel)
  refine ⟨fetched, completes, cost, ?_, ?_⟩
  · rw [registers]
  · rw [bytes ⟨0, 9⟩ (by decide)]
    rfl

end Machine

end MC68000
