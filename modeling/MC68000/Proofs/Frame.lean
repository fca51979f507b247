import MC68000.Proofs.Entry
import MC68000.Proofs.Stack

set_option autoImplicit false

namespace MC68000

variable {World : Type}

namespace Registers

theorem setAddress_setAddress (r : Registers) (n : Fin 8) (x y : BitVec 32) :
    (r.setAddress n x).setAddress n y = r.setAddress n y := by
  simp only [setAddress, Vector.setIfInBounds_setIfInBounds]

theorem setAddress_self (r : Registers) (n : Fin 8) : r.setAddress n (r.a.get n) = r := by
  have same : r.a.setIfInBounds n (r.a.get n) = r.a := by
    apply Vector.ext
    intro i inside
    rw [Vector.getElem_setIfInBounds]
    split
    next found =>
      subst found
      rfl
    next => rfl
  exact congrArg (fun a => { r with a }) same

theorem stack_of_supervisor {r : Registers} (supervisor : r.isSupervisor = true) :
    r.a.get 7 = r.supervisorStack := by
  rw [supervisorStack, if_pos supervisor]

end Registers

theorem VectorNumber.even_address (vector : VectorNumber) : vector.address.getLsbD 0 = false := by
  have four : BitVec.toNat (4 : BitVec 32) = 4 := rfl
  rw [address, BitVec.getLsbD, BitVec.toNat_mul, four, Nat.testBit_zero, decide_eq_false_iff_not]
  omega

/-- The cells of a short frame: the status word, and the two halves of the return address. -/
structure FrameCells where
  status : Cell
  high : Cell
  low : Cell

def FrameCells.all (cells : FrameCells) : List Cell := [cells.status, cells.high, cells.low]

theorem FrameCells.mem_all (cells : FrameCells) :
    cells.status ∈ cells.all ∧ cells.high ∈ cells.all ∧ cells.low ∈ cells.all :=
  ⟨List.mem_cons_self, List.mem_cons_of_mem _ List.mem_cons_self,
    List.mem_cons_of_mem _ (List.mem_cons_of_mem _ List.mem_cons_self)⟩

/-- The words of memory that are read to enter a handler and to execute its first instruction. -/
def handlerWords (vector : VectorNumber) (handler : BitVec 32) : List (BitVec 32) :=
  [vector.address, vector.address + 2, handler]

/-- Room for a short frame, and a handler that is an RTE. The words below the supervisor stack pointer keep
what is written to them, in cells without common bytes, and no word of the vector's entry or of the handler
lies in them. The entry holds an even address, and at that address there is an RTE. -/
structure FrameRoom (m : Machine World) (vector : VectorNumber) (handler : BitVec 32)
    (cells : FrameCells) : Prop where
  even : m.registers.supervisorStack.getLsbD 0 = false
  status : m.memory.IsRam .supervisorData (m.registers.supervisorStack - 6) cells.status
  high : m.memory.IsRam .supervisorData (m.registers.supervisorStack - 4) cells.high
  low : m.memory.IsRam .supervisorData (m.registers.supervisorStack - 2) cells.low
  holds : ∀ c ∈ cells.all, m.host.ram.Holds c
  distinct : cells.all.Pairwise Cell.Apart
  entry : m.memory.readLong .supervisorProgram vector.address m.host = .ok handler m.host
  handlerEven : handler.getLsbD 0 = false
  rte : m.memory.readWord .supervisorProgram handler m.host = .ok 0x4E73 m.host
  apart : ∀ address ∈ handlerWords vector handler, ∀ c,
    m.memory.supervisor.fetchCell? (m.memory.masked address) = some c →
    ∀ frame ∈ cells.all, frame.Apart c

def Ram.withFrame (ram : Ram) (cells : FrameCells) (old : StatusWord) (returnAddress : BitVec 32) : Ram :=
  ((ram.putWord cells.high (returnAddress.extractLsb' 16 16)).putWord cells.low
    (returnAddress.setWidth 16)).putWord cells.status old

/-- Memory that keeps a short frame: the words below a stack pointer of the supervisor are read from where
they are written to, in cells without common bytes. -/
structure KeepsFrame (m : Machine World) (stack : BitVec 32) (cells : FrameCells) : Prop where
  status : m.memory.IsRam .supervisorData (stack - 6) cells.status
  high : m.memory.IsRam .supervisorData (stack - 4) cells.high
  low : m.memory.IsRam .supervisorData (stack - 2) cells.low
  holds : ∀ c ∈ cells.all, m.host.ram.Holds c
  distinct : cells.all.Pairwise Cell.Apart

/-- The memory map and the buffers decide whether a frame is kept. -/
theorem KeepsFrame.congr {m m' : Machine World} {stack : BitVec 32} {cells : FrameCells}
    (keeps : KeepsFrame m stack cells) (memory : m'.memory = m.memory)
    (ram : m'.host.ram = m.host.ram) : KeepsFrame m' stack cells := by
  obtain ⟨status, high, low, holds, distinct⟩ := keeps
  rw [← memory] at status high low
  rw [← ram] at holds
  exact ⟨status, high, low, holds, distinct⟩

theorem Ram.wordAt_withFrame {ram : Ram} {cells : FrameCells} (holds : ∀ c ∈ cells.all, ram.Holds c)
    (distinct : cells.all.Pairwise Cell.Apart) (old : StatusWord) (returnAddress : BitVec 32) :
    let framed := ram.withFrame cells old returnAddress
    framed.wordAt cells.status = some old ∧
      framed.wordAt cells.high = some (returnAddress.extractLsb' 16 16) ∧
      framed.wordAt cells.low = some (returnAddress.setWidth 16) := by
  obtain ⟨inStatus, inHigh, inLow⟩ := cells.mem_all
  have status := holds _ inStatus
  have high := holds _ inHigh
  have low := holds _ inLow
  obtain ⟨first, second⟩ := List.pairwise_cons.mp distinct
  have statusHigh := first _ List.mem_cons_self
  have statusLow := first _ (List.mem_cons_of_mem _ List.mem_cons_self)
  have highLow := (List.pairwise_cons.mp second).1 _ List.mem_cons_self
  refine ⟨?_, ?_, ?_⟩
  · refine Ram.wordAt_putWord_self ?_ old
    rwa [Ram.holds_putWord, Ram.holds_putWord]
  · rw [Ram.withFrame, Ram.wordAt_putWord_of_apart statusHigh,
      Ram.wordAt_putWord_of_apart highLow.symm]
    exact Ram.wordAt_putWord_self high _
  · rw [Ram.withFrame, Ram.wordAt_putWord_of_apart statusLow]
    refine Ram.wordAt_putWord_self ?_ _
    rwa [Ram.holds_putWord]

/-- The writes that stack a short frame below a stack pointer of the supervisor. -/
def frameWrites (stack returnAddress : BitVec 32) (old : StatusWord) : List BusCycle :=
  [⟨.supervisorData, stack - 4, .writeWord (returnAddress.extractLsb' 16 16)⟩,
    ⟨.supervisorData, stack - 2, .writeWord (returnAddress.setWidth 16)⟩,
    ⟨.supervisorData, stack - 6, .writeWord old⟩]

namespace Exec

def stackFrame (returnAddress : BitVec 32) (old : StatusWord) : Exec World Unit := do
  push .long returnAddress
  push .word (old.setWidth 32)

def enterHandler (vector : VectorNumber) : Exec World Unit := do
  let handler ← readVector vector
  update fun r => { r with pc := handler }

theorem stackShort_eq (vector : VectorNumber) (returnAddress : BitVec 32) (old : StatusWord) :
    (stackShort vector returnAddress old : Exec World Unit) =
      stackFrame returnAddress old >>= fun _ => enterHandler vector :=
  (bind_assoc _ _ _).symm

theorem dataSpace_of_supervisor {m : Machine World} (supervisor : m.registers.isSupervisor = true) :
    m.dataSpace = .supervisorData := by
  rw [Machine.dataSpace, supervisor]
  rfl

theorem sub_four_sub_two (address : BitVec 32) : address - 4 - 2 = address - 6 := by bv_omega

theorem stackFrame_of_keeps {m : Machine World} {cells : FrameCells}
    (keeps : KeepsFrame m m.registers.supervisorStack cells)
    (even : m.registers.supervisorStack.getLsbD 0 = false)
    (supervisor : m.registers.isSupervisor = true) (returnAddress : BitVec 32) (old : StatusWord) :
    ∃ m', stackFrame returnAddress old m = .ok () m' ∧
      m.Becomes (m.registers.setAddress 7 (m.registers.supervisorStack - 6))
        (m.host.ram.withFrame cells old returnAddress) m' := by
  have stack := Registers.stack_of_supervisor supervisor
  have space := dataSpace_of_supervisor supervisor
  obtain ⟨inStatus, inHigh, inLow⟩ := cells.mem_all
  -- the return address
  obtain ⟨m₁, pushed₁, becomes₁⟩ := push_long_of_isRam (by rw [stack]; exact even)
    (by rw [stack, space]; exact keeps.high) (keeps.holds _ inHigh)
    (by rw [stack, space]; exact keeps.low) (keeps.holds _ inLow) returnAddress
  have stack₁ : m₁.registers.a.get 7 = m.registers.supervisorStack - 4 := by
    rw [becomes₁.registers, Registers.get_setAddress, stack]
  have space₁ : m₁.dataSpace = .supervisorData := (becomes₁.dataSpace rfl).trans space
  -- the status word
  obtain ⟨m₂, pushed₂, becomes₂⟩ := push_word_of_isRam
    (by rw [stack₁]; exact even_sub even (by decide))
    (by rw [stack₁, space₁, becomes₁.memory, sub_four_sub_two]; exact keeps.status)
    (by rw [becomes₁.host_ram, Ram.holds_putWord, Ram.holds_putWord]; exact keeps.holds _ inStatus)
    (old.setWidth 32)
  have framed := becomes₁.trans becomes₂
  rw [stack₁, becomes₁.registers, becomes₁.host_ram, Registers.setAddress_setAddress,
    sub_four_sub_two, BitVec.setWidth_setWidth_of_le old (by decide)] at framed
  refine ⟨m₂, ?_, framed⟩
  unfold stackFrame
  rw [bind_of_ok pushed₁]
  exact pushed₂

/-- A frame that has been stacked went over the bus, and the stack pointer was even. -/
theorem stackFrame_record {m : Machine World} (supervisor : m.registers.isSupervisor = true)
    (returnAddress : BitVec 32) (old : StatusWord) :
    Ends (stackFrame returnAddress old m)
      (fun _ m' => m.registers.supervisorStack.getLsbD 0 = false ∧ m' = { m with
        registers := m.registers.setAddress 7 (m.registers.supervisorStack - 6)
        host := m'.host
        activity := m.activity ++ frameWrites m.registers.supervisorStack returnAddress old })
      fun _ _ => True := by
  have stack := Registers.stack_of_supervisor supervisor
  have space := dataSpace_of_supervisor supervisor
  refine (push_long_record returnAddress m).bind ?_
  rintro _ m₁ ⟨even, address⟩
  rw [stack] at even address
  refine (push_word_record (old.setWidth 32) m₁).mono (fun _ m₂ status => ⟨?_, ?_⟩) fun _ _ => id
  · rw [← BitVec.sub_add_cancel m.registers.supervisorStack 4]
    exact even_add even rfl
  · have stack₁ : m₁.registers.a.get 7 = m.registers.supervisorStack - 4 := by
      rw [address]
      exact Registers.get_setAddress ..
    have space₁ : m₁.dataSpace = .supervisorData := by
      rw [address]
      exact space
    rw [stack₁, space₁, sub_four_sub_two, BitVec.setWidth_setWidth_of_le old (by decide)] at status
    rw [status, address, space]
    dsimp only
    rw [Registers.setAddress_setAddress, List.append_assoc]
    rfl

theorem plain_enterHandler {s : StatusWord} {raises : Exception → Prop}
    (supervisor : s.has .supervisor = true) (vector : VectorNumber) :
    Plain s raises (enterHandler vector : Exec World Unit) :=
  (plain_readVector supervisor vector).andThen fun _ => plain_update fun r => r.unprivileged_pc _

/-- Where no hook takes its place, an exception goes on from its frame to its handler. -/
theorem enterShort_of_stacked {vector : VectorNumber} {returnAddress : BitVec 32}
    {m framed : Machine World} (unhooked : m.hooks.vectors vector = none)
    (stacked : stackFrame returnAddress m.registers.status (m.inHandler none) = .ok () framed) :
    enterShort vector returnAddress none m = enterHandler vector framed := by
  have entered : enterShort vector returnAddress none m =
      stackShort vector returnAddress m.registers.status (m.inHandler none) :=
    (Entry.action_of_unhooked unhooked : (Entry.short vector returnAddress none).action m = _)
  rw [entered, stackShort_eq, bind_of_ok stacked]

end Exec

namespace FrameRoom

variable {m m' : Machine World} {vector : VectorNumber} {handler : BitVec 32} {cells : FrameCells}

/-- The frame leaves the program as it was, as far as the exception needs it. -/
theorem readWord_withFrame (room : FrameRoom m vector handler cells) {address : BitVec 32}
    (near : address ∈ handlerWords vector handler) (old : StatusWord) (returnAddress : BitVec 32)
    {word : BitVec 16} {host host' : Host World}
    (found : m.memory.readWord .supervisorProgram address m.host = .ok word host)
    (ram : host'.ram = m.host.ram.withFrame cells old returnAddress) :
    m.memory.readWord .supervisorProgram address host' = .ok word host' := by
  refine MemoryMap.readWord_program_of_kept rfl found fun c cell => ?_
  have apart := room.apart address near c cell
  obtain ⟨status, high, low⟩ := cells.mem_all
  rw [ram, Ram.withFrame, Ram.wordAt_putWord_of_apart (apart _ status),
    Ram.wordAt_putWord_of_apart (apart _ low), Ram.wordAt_putWord_of_apart (apart _ high)]

theorem keeps (room : FrameRoom m vector handler cells) :
    KeepsFrame m m.registers.supervisorStack cells :=
  ⟨room.status, room.high, room.low, room.holds, room.distinct⟩

/-- The entry of the vector, word by word. -/
theorem entry_words (room : FrameRoom m vector handler cells) :
    ∃ high low, m.memory.readWord .supervisorProgram vector.address m.host = .ok high m.host ∧
      m.memory.readWord .supervisorProgram (vector.address + 2) m.host = .ok low m.host ∧
      handler = high ++ low := MemoryMap.readLong_program_words rfl room.entry

theorem congr (room : FrameRoom m vector handler cells)
    (stack : m'.registers.supervisorStack = m.registers.supervisorStack)
    (memory : m'.memory = m.memory) (ram : m'.host.ram = m.host.ram) :
    FrameRoom m' vector handler cells := by
  obtain ⟨high, low, readHigh, readLow, same⟩ := room.entry_words
  have kept {address : BitVec 32} {word : BitVec 16}
      (found : m.memory.readWord .supervisorProgram address m.host = .ok word m.host) :
      m'.memory.readWord .supervisorProgram address m'.host = .ok word m'.host := by
    rw [memory]
    exact MemoryMap.readWord_program_of_kept rfl found fun c _ => by rw [ram]
  constructor
  · rw [stack]
    exact room.even
  · rw [stack, memory]
    exact room.status
  · rw [stack, memory]
    exact room.high
  · rw [stack, memory]
    exact room.low
  · rw [ram]
    exact room.holds
  · exact room.distinct
  · rw [same]
    exact MemoryMap.readLong_of_words (kept readHigh) (kept readLow)
  · exact room.handlerEven
  · exact kept room.rte
  · rw [memory]
    exact room.apart

theorem stackShort (room : FrameRoom m vector handler cells)
    (supervisor : m.registers.isSupervisor = true) (returnAddress : BitVec 32) (old : StatusWord) :
    ∃ m', Exec.stackShort vector returnAddress old m = .ok () m' ∧
      m.Becomes { m.registers.setAddress 7 (m.registers.supervisorStack - 6) with pc := handler }
        (m.host.ram.withFrame cells old returnAddress) m' := by
  obtain ⟨high, low, readHigh, readLow, rfl⟩ := room.entry_words
  obtain ⟨m₁, stacked, framed⟩ :=
    Exec.stackFrame_of_keeps room.keeps room.even supervisor returnAddress old
  -- the vector's entry
  have kept {address : BitVec 32} {word : BitVec 16} (near : address ∈ handlerWords vector (high ++ low))
      (found : m.memory.readWord .supervisorProgram address m.host = .ok word m.host) :
      m₁.memory.readWord .supervisorProgram address m₁.host = .ok word m₁.host := by
    rw [framed.memory]
    exact room.readWord_withFrame near old returnAddress found framed.host_ram
  obtain ⟨m₂, read, becomes⟩ := Exec.read_long_of_found vector.even_address
    (kept List.mem_cons_self readHigh) (kept (List.mem_cons_of_mem _ List.mem_cons_self) readLow)
  have entered := (framed.trans becomes).setRegisters fun r => { r with pc := high ++ low }
  rw [framed.registers, framed.host_ram] at entered
  refine ⟨m₂.mapRegisters fun r => { r with pc := high ++ low }, ?_, entered⟩
  rw [Exec.stackShort_eq, Exec.bind_of_ok stacked]
  unfold Exec.enterHandler
  rw [Exec.bind_of_ok (show Exec.readVector vector m₁ = _ from read)]
  rfl

end FrameRoom

end MC68000
