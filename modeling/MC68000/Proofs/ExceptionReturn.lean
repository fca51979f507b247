import MC68000.Proofs.Frame
import MC68000.Proofs.Interception
import MC68000.Proofs.ReturnAddress

set_option autoImplicit false

namespace MC68000

variable {World : Type}

namespace Registers

/-- Writing the old status word back undoes the change into supervisor mode. -/
theorem setStatus_setStatus {r : Registers} (implemented : r.status.Implemented)
    {value : StatusWord} (supervisor : value.has .supervisor = true) :
    (r.setStatus value).setStatus r.status = r := by
  have kept : r.status &&& StatusWord.implemented = r.status := implemented
  cases mode : r.isSupervisor with
  | true =>
    rw [setStatus_of_same (supervisor.trans mode.symm)]
    rw [setStatus_of_same, kept]
    exact mode.trans (value.has_supervisor_masked.trans supervisor).symm
  | false =>
    rw [setStatus_of_change (r := r) (by rw [supervisor, mode]; rfl)]
    rw [setStatus_of_change, kept]
    · have stack : (r.setAddress 7 r.shadow).a.get 7 = r.shadow := r.get_setAddress 7 r.shadow
      have back : ((r.setAddress 7 r.shadow).setAddress 7 (r.a.get 7)).a = r.a := by
        rw [setAddress_setAddress, setAddress_self]
      exact congrArg₂ (fun a shadow => Registers.mk r.d a shadow r.pc r.status) back stack
    · exact mode.trans (congrArg (!·) (value.has_supervisor_masked.trans supervisor)).symm

end Registers

namespace Exec

variable {m : Machine World}

theorem requirePrivilege_of_supervisor (supervisor : m.registers.isSupervisor = true) :
    requirePrivilege m = .ok () m := by
  unfold requirePrivilege
  rw [if_pos supervisor]

theorem add_two_add_two (address : BitVec 32) : address + 2 + 2 = address + 4 := by bv_omega

theorem add_two_add_four (address : BitVec 32) : address + 2 + 4 = address + 6 := by bv_omega

theorem rte_of_frame {cells : FrameCells} {old : StatusWord} {high low : BitVec 16}
    (supervisor : m.registers.isSupervisor = true) (even : (m.registers.a.get 7).getLsbD 0 = false)
    (status : m.memory.IsRam .supervisorData (m.registers.a.get 7) cells.status)
    (foundStatus : m.host.ram.wordAt cells.status = some old)
    (ramHigh : m.memory.IsRam .supervisorData (m.registers.a.get 7 + 2) cells.high)
    (foundHigh : m.host.ram.wordAt cells.high = some high)
    (ramLow : m.memory.IsRam .supervisorData (m.registers.a.get 7 + 4) cells.low)
    (foundLow : m.host.ram.wordAt cells.low = some low) :
    ∃ m', rte m = .ok 20 m' ∧ m.Becomes
      { (m.registers.setAddress 7 (m.registers.a.get 7 + 6)).setStatus old with pc := high ++ low }
      m.host.ram m' := by
  have space := dataSpace_of_supervisor supervisor
  obtain ⟨m₁, pulled₁, becomes₁⟩ := pull_word_of_isRam even (by rw [space]; exact status) foundStatus
  have stack₁ : m₁.registers.a.get 7 = m.registers.a.get 7 + 2 := by
    rw [becomes₁.registers, Registers.get_setAddress]
  have space₁ : m₁.dataSpace = .supervisorData := (becomes₁.dataSpace rfl).trans space
  obtain ⟨m₂, pulled₂, becomes₂⟩ := pull_long_of_isRam
    (by rw [stack₁]; exact even_add even rfl)
    (by rw [stack₁, space₁, becomes₁.memory]; exact ramHigh)
    (by rw [becomes₁.host_ram]; exact foundHigh)
    (by rw [stack₁, space₁, becomes₁.memory, add_two_add_two]; exact ramLow)
    (by rw [becomes₁.host_ram]; exact foundLow)
  have becomes : m.Becomes (m.registers.setAddress 7 (m.registers.a.get 7 + 6)) m.host.ram m₂ := by
    rw [stack₁, becomes₁.registers, becomes₁.host_ram, Registers.setAddress_setAddress,
      add_two_add_four] at becomes₂
    exact becomes₁.trans becomes₂
  have whole : (old.setWidth 32).setWidth 16 = old := BitVec.setWidth_setWidth_of_le old (by decide)
  refine ⟨m₂.mapRegisters fun r => { r.setStatus old with pc := high ++ low }, ?_, ?_⟩
  · unfold rte
    rw [bind_of_ok (requirePrivilege_of_supervisor supervisor), bind_of_ok pulled₁,
      bind_of_ok pulled₂, whole]
    rfl
  · exact becomes.setRegisters fun r => { r.setStatus old with pc := high ++ low }

theorem nextInstruction_of_found {word : BitVec 16} (even : m.registers.pc.getLsbD 0 = false)
    (found : m.memory.readWord m.programSpace m.registers.pc m.host = .ok word m.host) :
    ∃ m', nextInstruction m = (Instruction.decode word).execute { m' with opcode := word } ∧
      m.Becomes { m.registers with pc := m.registers.pc + 2 } m.host.ram m' := by
  obtain ⟨m', fetched, becomes⟩ := fetchWord_of_found even found
  refine ⟨m', ?_, becomes⟩
  unfold nextInstruction
  rw [bind_of_ok fetched]
  rfl

end Exec

theorem decode_rte : Instruction.decode 0x4E73 = .rte := rfl

namespace Machine

theorem step_of_instruction {m m' : Machine World} {cost : Nat} (running : m.state = .running)
    (quiet : m.interrupts.highestAbove m.registers.interruptMask = none)
    (untraced : m.registers.isTracing = false)
    (completes : Exec.nextInstruction m.beginning = .ok cost m') :
    m.step = (cost, (m'.charge cost).2) := by
  have prologue : m.prologue = ⟨m', cost, none⟩ := by
    unfold beginning at completes
    rw [prologue_of_instruction running quiet, instructionPrologue, completes]
    dsimp only
    rw [untraced, if_neg fun traced => Bool.false_ne_true traced.1]
  rw [step_eq, Prologue.finish, prologue]

end Machine

theorem sub_six_add_two (address : BitVec 32) : address - 6 + 2 = address - 4 := by bv_omega

theorem sub_six_add_four (address : BitVec 32) : address - 6 + 4 = address - 2 := by bv_omega

theorem sub_six_add_six (address : BitVec 32) : address - 6 + 6 = address := by bv_omega

theorem high_append_low (address : BitVec 32) :
    address.extractLsb' 16 16 ++ address.setWidth 16 = address := by
  apply BitVec.eq_of_getLsbD_eq
  intro i small
  rw [BitVec.getLsbD_append, BitVec.getLsbD_extractLsb', BitVec.getLsbD_setWidth]
  by_cases low : i < 16
  · rw [if_pos low, decide_eq_true low, Bool.true_and]
  · rw [if_neg low, decide_eq_true (by omega), Bool.true_and, Nat.add_sub_cancel' (by omega)]

/-- RTE takes off a frame that lies below where the supervisor stack pointer was. -/
theorem KeepsFrame.rte {m m' : Machine World} {cells : FrameCells} {old : StatusWord}
    {pc returnAddress : BitVec 32} (keeps : KeepsFrame m m.registers.supervisorStack cells)
    (even : m.registers.supervisorStack.getLsbD 0 = false)
    (supervisor : m.registers.isSupervisor = true)
    (registers : m'.registers =
      { m.registers.setAddress 7 (m.registers.supervisorStack - 6) with pc })
    (memory : m'.memory = m.memory) (status : m'.host.ram.wordAt cells.status = some old)
    (high : m'.host.ram.wordAt cells.high = some (returnAddress.extractLsb' 16 16))
    (low : m'.host.ram.wordAt cells.low = some (returnAddress.setWidth 16)) :
    ∃ m'', Exec.rte m' = .ok 20 m'' ∧
      m'.Becomes { m.registers.setStatus old with pc := returnAddress } m'.host.ram m'' := by
  have stack : m'.registers.a.get 7 = m.registers.supervisorStack - 6 := by
    rw [registers]
    exact Registers.get_setAddress ..
  obtain ⟨m'', returned, becomes⟩ := Exec.rte_of_frame
    (by rw [registers]; exact supervisor)
    (by rw [stack]; exact Exec.even_sub even (by decide))
    (by rw [stack, memory]; exact keeps.status) status
    (by rw [stack, memory, sub_six_add_two]; exact keeps.high) high
    (by rw [stack, memory, sub_six_add_four]; exact keeps.low) low
  refine ⟨m'', returned, ?_⟩
  -- the stack pointer is back where it was before the frame
  have restored : m'.registers.setAddress 7 (m'.registers.a.get 7 + 6) = { m.registers with pc } := by
    rw [stack, sub_six_add_six, registers, ← Registers.stack_of_supervisor supervisor]
    exact congrArg (fun r : Registers => { r with pc })
      ((Registers.setAddress_setAddress _ _ _ _).trans (m.registers.setAddress_self 7))
  rwa [restored, Registers.setStatus_pc, high_append_low] at becomes

namespace FrameRoom

variable {m m' : Machine World} {vector : VectorNumber} {handler : BitVec 32} {cells : FrameCells}
  {old : StatusWord} {returnAddress : BitVec 32}

/-- RTE takes off a frame that was stacked in supervisor mode. -/
theorem rte_withFrame (room : FrameRoom m vector handler cells)
    (supervisor : m.registers.isSupervisor = true) {pc : BitVec 32}
    (registers : m'.registers =
      { m.registers.setAddress 7 (m.registers.supervisorStack - 6) with pc })
    (memory : m'.memory = m.memory)
    (ram : m'.host.ram = m.host.ram.withFrame cells old returnAddress) :
    ∃ m'', Exec.rte m' = .ok 20 m'' ∧
      m'.Becomes { m.registers.setStatus old with pc := returnAddress } m'.host.ram m'' := by
  obtain ⟨status, high, low⟩ := Ram.wordAt_withFrame room.holds room.distinct old returnAddress
  rw [← ram] at status high low
  exact room.keeps.rte room.even supervisor registers memory status high low

theorem step_rte (room : FrameRoom m vector handler cells)
    (supervisor : m.registers.isSupervisor = true) (untraced : m.registers.isTracing = false)
    (registers : m'.registers =
      { m.registers.setAddress 7 (m.registers.supervisorStack - 6) with pc := handler })
    (memory : m'.memory = m.memory)
    (ram : m'.host.ram = m.host.ram.withFrame cells old returnAddress)
    (running : m'.state = .running)
    (quiet : m'.interrupts.highestAbove m'.registers.interruptMask = none) :
    m'.step.2.registers = { m.registers.setStatus old with pc := returnAddress } ∧
      m'.step.2.host.ram = m'.host.ram := by
  have space : m'.programSpace = .supervisorProgram := by
    rw [Machine.programSpace, registers]
    exact congrArg (AddressSpace.ofFlags · true) supervisor
  have opcode : m'.memory.readWord m'.programSpace m'.registers.pc m'.host = .ok 0x4E73 m'.host := by
    rw [space, memory, registers]
    exact room.readWord_withFrame
      (List.mem_cons_of_mem _ (List.mem_cons_of_mem _ List.mem_cons_self)) old returnAddress room.rte ram
  obtain ⟨m₁, next, becomes⟩ := Exec.nextInstruction_of_found
    (m := { m' with activity := [], instructionAddress := m'.registers.pc })
    (by rw [registers]; exact room.handlerEven) opcode
  have registers₁ : Machine.registers { m₁ with opcode := 0x4E73 } =
      { m.registers.setAddress 7 (m.registers.supervisorStack - 6) with pc := handler + 2 } := by
    rw [becomes.registers, registers]
  obtain ⟨m₂, returned, becomes₂⟩ := room.rte_withFrame supervisor registers₁
    (becomes.memory.trans memory) (becomes.host_ram.trans ram)
  rw [decode_rte] at next
  rw [Machine.step_of_instruction running quiet _ (next.trans returned), Machine.charge_frame]
  · exact ⟨becomes₂.registers, becomes₂.host_ram.trans becomes.host_ram⟩
  · rw [registers]
    exact untraced

theorem registers_step (room : FrameRoom m vector handler cells)
    (supervisor : m.registers.isSupervisor = true) (untraced : m.registers.isTracing = false)
    (registers : m'.registers =
      { m.registers.setAddress 7 (m.registers.supervisorStack - 6) with pc := handler })
    (memory : m'.memory = m.memory)
    (ram : m'.host.ram = m.host.ram.withFrame cells old returnAddress)
    (running : m'.state = .running)
    (quiet : m'.interrupts.highestAbove m'.registers.interruptMask = none) :
    m'.step.2.registers = { m.registers.setStatus old with pc := returnAddress } :=
  (room.step_rte supervisor untraced registers memory ram running quiet).1

end FrameRoom

namespace StatusWord

theorem has_trace (status : StatusWord) : status.has trace = status.getLsbD 15 :=
  status.has_eq_getLsbD rfl (by decide)

theorem has_trace_withInterruptMask (status : StatusWord) (level : Fin 8) :
    (status.withInterruptMask level).has trace = status.has trace := by
  rw [has_trace, has_trace, getLsbD_withInterruptMask _ _ (by decide) (by decide)]

theorem has_trace_inHandler (old : StatusWord) (mask : Option (Fin 8)) :
    (old.inHandler mask).has trace = false := by
  have cleared : ((old ||| supervisor).clear trace).has trace = false := by
    rw [has_trace, getLsbD_clear _ _ (by decide)]
    exact Bool.and_false _
  cases mask with
  | none => exact cleared
  | some level => exact (has_trace_withInterruptMask _ level).trans cleared

end StatusWord

namespace Machine

theorem isTracing_inHandler (m : Machine World) (mask : Option (Fin 8)) :
    (m.inHandler mask).registers.isTracing = false := by
  have status : (m.inHandler mask).registers.status = _ := Registers.status_setStatus _ _
  rw [Registers.isTracing, status, StatusWord.has_trace, BitVec.getLsbD_and, ← StatusWord.has_trace,
    StatusWord.has_trace_inHandler, Bool.false_and]

variable {m : Machine World} {cause : Cause} {vector : VectorNumber} {handler returnAddress : BitVec 32}
  {mask : Option (Fin 8)} {cells : FrameCells}

theorem room_inHandler (room : FrameRoom m vector handler cells) (cause : Cause)
    (mask : Option (Fin 8)) : FrameRoom ((m.entered cause).inHandler mask) vector handler cells :=
  room.congr (Registers.supervisorStack_setStatus _ _) rfl rfl

/-- The frame is stacked, and the handler entered, at the cost of the exception. -/
theorem finish_of_short (found : m.prologue.cause = some cause)
    (entry : m.prologue.machine.entry cause = .short vector returnAddress mask)
    (unhooked : m.hooks.vectors vector = none)
    (room : FrameRoom m.prologue.machine vector handler cells) :
    let inside := (m.prologue.machine.entered cause).inHandler mask
    ∃ framed,
      m.prologue.finish = (m.prologue.cost + cause.cost, { framed with processingException := false }) ∧
      inside.Becomes
        { inside.registers.setAddress 7 (inside.registers.supervisorStack - 6) with pc := handler }
        (inside.host.ram.withFrame cells m.prologue.machine.registers.status returnAddress) framed := by
  have kept : (m.prologue.machine.entered cause).hooks.vectors vector = none := by
    rw [show (m.prologue.machine.entered cause).hooks = _ from m.evolves_prologue.hooks]
    exact unhooked
  obtain ⟨framed, stacked, becomes⟩ := (room_inHandler room cause mask).stackShort
    (isSupervisor_inHandler _ mask) returnAddress m.prologue.machine.registers.status
  refine ⟨framed, ?_, becomes⟩
  -- the frame is stacked by the action that the entry stands for
  have action : Exec.enterShort vector returnAddress mask (m.prologue.machine.entered cause) =
      .ok () framed :=
    (Entry.action_of_unhooked kept :
      (Entry.short vector returnAddress mask).action (m.prologue.machine.entered cause) = _).trans stacked
  unfold entered at action
  rw [Prologue.finish, found]
  dsimp only
  rw [process_short entry, processVector, processing, action]

theorem step_of_short (found : m.prologue.cause = some cause)
    (entry : m.prologue.machine.entry cause = .short vector returnAddress mask)
    (unhooked : m.hooks.vectors vector = none)
    (room : FrameRoom m.prologue.machine vector handler cells) :
    let inside := (m.prologue.machine.entered cause).inHandler mask
    m.step.2.registers =
        { inside.registers.setAddress 7 (inside.registers.supervisorStack - 6) with pc := handler } ∧
      m.step.2.memory = inside.memory ∧
      m.step.2.host.ram =
        inside.host.ram.withFrame cells m.prologue.machine.registers.status returnAddress ∧
      m.step.2.state = .running := by
  obtain ⟨framed, finished, becomes⟩ := finish_of_short found entry unhooked room
  have running : framed.state = .running := by
    rw [becomes]
    exact state_prologue found
  rw [step_eq, charge_frame, finished]
  exact ⟨becomes.registers, becomes.memory, becomes.host_ram, running⟩

/-- The step in which a hook that leaves the registers alone takes the place of the handler. -/
theorem registers_step_intercept {hook : VectorHook World}
    (found : m.prologue.cause = some cause)
    (entry : m.prologue.machine.entry cause = .short vector returnAddress mask)
    (implemented : m.prologue.machine.registers.status.Implemented)
    (keeps : ∀ r host, (hook vector r host).1 = r) :
    (m.withHooks (m.hooks.intercept vector hook)).step.2.registers =
      { m.prologue.machine.registers with pc := returnAddress } := by
  have same : (m.withHooks (m.hooks.intercept vector hook)).prologue = _ :=
    prologue_withHooks rfl rfl
  have found' : (m.withHooks (m.hooks.intercept vector hook)).prologue.cause = some cause := by
    rw [same]
    exact found
  have entry' : (m.withHooks (m.hooks.intercept vector hook)).prologue.machine.entry cause =
      .short vector returnAddress mask := by
    rw [same]
    exact entry
  have stepped := registers_step_of_hook found' entry' (if_pos rfl)
  dsimp only at stepped
  rw [keeps, same] at stepped
  rw [stepped]
  exact congrArg (fun status => { m.prologue.machine.registers with pc := returnAddress, status })
    implemented

/-- A handler that is an RTE undoes the entry of an exception with a short frame. After two steps the
registers are what they were when its processing began, but for the program counter, which is at the
return address. With a hook in place of the handler that leaves the registers alone they are the same
after one step.

The status word has no bits that do not exist: none is set when the machine is switched on, and neither a
step nor the host makes one. -/
theorem registers_restored {hook : VectorHook World} (implemented : m.registers.status.Implemented)
    (found : m.prologue.cause = some cause) (short : cause.IsShort)
    (unhooked : m.hooks.vectors cause.vector = none)
    (room : FrameRoom m.prologue.machine cause.vector handler cells)
    (quiet : m.step.2.interrupts.highestAbove m.step.2.registers.interruptMask = none)
    (keeps : ∀ r host, (hook cause.vector r host).1 = r) :
    let restored := { m.prologue.machine.registers with pc := m.returnAddress cause }
    m.step.2.step.2.registers = restored ∧
      (m.withHooks (m.hooks.intercept cause.vector hook)).step.2.registers = restored := by
  obtain ⟨mask, entry⟩ := entry_prologue found short
  have kept := implemented_prologue implemented
  refine ⟨?_, registers_step_intercept found entry kept keeps⟩
  obtain ⟨registers, memory, ram, running⟩ := step_of_short found entry unhooked room
  have undone := Registers.setStatus_setStatus kept
    (StatusWord.has_supervisor_inHandler m.prologue.machine.registers.status mask)
  rw [(room_inHandler room cause mask).registers_step (isSupervisor_inHandler _ mask)
    (isTracing_inHandler _ mask) registers memory ram running quiet]
  exact congrArg (fun r : Registers => { r with pc := m.returnAddress cause }) undone

/-- A processor in user mode on an open bus with 32 bytes of memory: RTE at address 0, where all vectors
lead, TRAP #0 at address 8, and the supervisor stack at the end. -/
def trapping : Machine Unit :=
  { new ⟨0x00FFFFFF, .openBus 0⟩
      ⟨#[#[0x4E, 0x73, 0, 0, 0, 0, 0, 0, 0x4E, 0x40, 0, 0, 0, 0, 0, 0,
        0, 0, 0, 0, 0, 0, 0, 0, 0, 0, 0, 0, 0, 0, 0, 0]], .none, ()⟩ fun _ world => world with
    registers := { Registers.initial with shadow := 32, pc := 8, status := 0 }
    memory := (MemoryMap.empty ⟨0x00FFFFFF, .openBus 0⟩).mapRam ⟨0, 31⟩ 0
    state := .running }

def trappingCells : FrameCells := ⟨⟨0, 26⟩, ⟨0, 28⟩, ⟨0, 30⟩⟩

theorem room_trapping : FrameRoom trapping.prologue.machine (.trap 0) 0 trappingCells where
  even := by decide +kernel
  status := ⟨rfl, rfl, rfl⟩
  high := ⟨rfl, rfl, rfl⟩
  low := ⟨rfl, rfl, rfl⟩
  holds := by decide +kernel
  distinct := by decide +kernel
  entry := rfl
  handlerEven := rfl
  rte := rfl
  apart := by
    intro address near c found
    rcases near with _ | ⟨_, _ | ⟨_, _ | ⟨_, none⟩⟩⟩
    · cases found
    · cases found
    · cases found
      decide +kernel
    · cases none

/-- The trap and the return, and the trap with a hook in place of the handler. -/
theorem registers_restored_trapping :
    trapping.registers.status.Implemented ∧
      trapping.prologue.cause = some (.exception (.trap (.trap 0) Timing.exception)) ∧
      trapping.step.2.step.2.registers = { trapping.registers with pc := 10 } ∧
      (trapping.withHooks (trapping.hooks.intercept (.trap 0) fun _ r host => (r, host))).step.2.registers
        = { trapping.registers with pc := 10 } := by
  have found : trapping.prologue.cause = some (.exception (.trap (.trap 0) Timing.exception)) := rfl
  have implemented : trapping.registers.status.Implemented := rfl
  exact ⟨implemented, found, registers_restored implemented found id rfl room_trapping
    (by decide +kernel) fun _ _ => rfl⟩

end Machine

end MC68000
