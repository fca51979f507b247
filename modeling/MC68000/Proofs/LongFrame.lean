import MC68000.Proofs.ExceptionReturn

set_option autoImplicit false

namespace MC68000

variable {World : Type}

namespace Ram

/-- Replaces the words in some cells, one after the other. -/
def putWords (ram : Ram) (words : List (Cell × BitVec 16)) : Ram :=
  words.foldl (fun ram word => ram.putWord word.1 word.2) ram

theorem wordAt_putWords_of_apart {words : List (Cell × BitVec 16)} {c : Cell}
    (apart : ∀ word ∈ words, word.1.Apart c) (ram : Ram) :
    (ram.putWords words).wordAt c = ram.wordAt c := by
  induction words generalizing ram with
  | nil => rfl
  | cons word rest ih =>
    have head := apart word List.mem_cons_self
    have tail := ih fun other member => apart other (List.mem_cons_of_mem word member)
    exact (tail _).trans (wordAt_putWord_of_apart head ram word.2)

theorem wordAt_putWords {words : List (Cell × BitVec 16)} {ram : Ram}
    (holds : ∀ word ∈ words, ram.Holds word.1)
    (distinct : words.Pairwise fun word other => word.1.Apart other.1) :
    ∀ word ∈ words, (ram.putWords words).wordAt word.1 = some word.2 := by
  induction words generalizing ram with
  | nil => exact nofun
  | cons first rest ih =>
    obtain ⟨apart, distinct⟩ := List.pairwise_cons.mp distinct
    intro word member
    rcases List.mem_cons.mp member with rfl | later
    · have kept : ∀ other ∈ rest, other.1.Apart word.1 := fun other found => (apart other found).symm
      have written : (ram.putWord word.1 word.2).wordAt word.1 = some word.2 :=
        wordAt_putWord_self (holds word List.mem_cons_self) word.2
      exact (wordAt_putWords_of_apart kept _).trans written
    · apply ih _ distinct word later
      intro other found
      rw [holds_putWord]
      exact holds other (List.mem_cons_of_mem first found)

end Ram

namespace Machine

/-- The words of data in supervisor mode from an address on are kept in these cells. -/
def KeepsWords (m : Machine World) (address : BitVec 32) : List Cell → Prop
  | [] => True
  | c :: rest => m.memory.IsRam .supervisorData address c ∧ m.KeepsWords (address + 2) rest

variable {m m' : Machine World} {address : BitVec 32}

theorem KeepsWords.congr {cells : List Cell} (keeps : m.KeepsWords address cells)
    (memory : m'.memory = m.memory) : m'.KeepsWords address cells := by
  induction cells generalizing address with
  | nil => exact trivial
  | cons c rest ih =>
    constructor
    · rw [memory]
      exact keeps.1
    · exact ih keeps.2

end Machine

/-- One machine is another after its supervisor stack has grown by `depth` bytes. -/
def Machine.Stacked (m : Machine World) (depth : BitVec 32) (ram : Ram) (m' : Machine World) : Prop :=
  m.Becomes (m.registers.setAddress 7 (m.registers.supervisorStack - depth)) ram m'

namespace Machine.Stacked

open Exec

variable {m m' : Machine World} {depth : BitVec 32} {ram : Ram} {c high low : Cell}

theorem refl (supervisor : m.registers.isSupervisor = true) : m.Stacked 0 m.host.ram m := by
  have empty : m.registers.supervisorStack - (0 : BitVec 32) = m.registers.a.get 7 :=
    (BitVec.sub_zero _).trans (Registers.stack_of_supervisor supervisor).symm
  unfold Machine.Stacked
  rw [empty, Registers.setAddress_self]
  exact .refl m

theorem stack (h : m.Stacked depth ram m') :
    m'.registers.a.get 7 = m.registers.supervisorStack - depth := by
  rw [Becomes.registers h]
  exact Registers.get_setAddress ..

theorem dataSpace (h : m.Stacked depth ram m') (supervisor : m.registers.isSupervisor = true) :
    m'.dataSpace = .supervisorData :=
  (Becomes.dataSpace h rfl).trans (dataSpace_of_supervisor supervisor)

theorem sub_sub (x y z : BitVec 32) : x - y - z = x - (y + z) := by bv_omega

theorem push_word (h : m.Stacked depth ram m') (supervisor : m.registers.isSupervisor = true)
    (even : (m.registers.supervisorStack - depth).getLsbD 0 = false)
    (isRam : m.memory.IsRam .supervisorData (m.registers.supervisorStack - (depth + 2)) c)
    (holds : ram.Holds c) (value : BitVec 32) :
    ∃ m'', push .word value m' = .ok () m'' ∧
      m.Stacked (depth + 2) (ram.putWord c (value.setWidth 16)) m'' := by
  rw [← h.stack] at even
  rw [← sub_sub, ← h.stack, ← h.dataSpace supervisor, ← Becomes.memory h] at isRam
  rw [← Becomes.host_ram h] at holds
  obtain ⟨m'', pushed, becomes⟩ := push_word_of_isRam even isRam holds value
  refine ⟨m'', pushed, ?_⟩
  have stacked := Becomes.trans h becomes
  rwa [h.stack, Becomes.registers h, Becomes.host_ram h, Registers.setAddress_setAddress,
    sub_sub] at stacked

theorem push_long (h : m.Stacked depth ram m') (supervisor : m.registers.isSupervisor = true)
    (even : (m.registers.supervisorStack - depth).getLsbD 0 = false)
    (isRamHigh : m.memory.IsRam .supervisorData (m.registers.supervisorStack - (depth + 4)) high)
    (holdsHigh : ram.Holds high)
    (isRamLow : m.memory.IsRam .supervisorData (m.registers.supervisorStack - (depth + 2)) low)
    (holdsLow : ram.Holds low) (value : BitVec 32) :
    ∃ m'', push .long value m' = .ok () m'' ∧
      m.Stacked (depth + 4)
        ((ram.putWord high (value.extractLsb' 16 16)).putWord low (value.setWidth 16)) m'' := by
  rw [← h.stack] at even
  rw [← sub_sub, ← h.stack, ← h.dataSpace supervisor, ← Becomes.memory h] at isRamHigh isRamLow
  rw [← Becomes.host_ram h] at holdsHigh holdsLow
  obtain ⟨m'', pushed, becomes⟩ :=
    push_long_of_isRam even isRamHigh holdsHigh isRamLow holdsLow value
  refine ⟨m'', pushed, ?_⟩
  have stacked := Becomes.trans h becomes
  rwa [h.stack, Becomes.registers h, Becomes.host_ram h, Registers.setAddress_setAddress,
    sub_sub] at stacked

end Machine.Stacked

/-- The cells of a long frame: the status word of the access, the two halves of its address, the opcode, the
processor's status word, and the two halves of the program counter. -/
structure LongFrameCells where
  access : Cell
  addressHigh : Cell
  addressLow : Cell
  opcode : Cell
  status : Cell
  high : Cell
  low : Cell

namespace LongFrameCells

variable (cells : LongFrameCells)

def short : FrameCells := ⟨cells.status, cells.high, cells.low⟩

/-- All cells, in the order in which they are written. -/
def all : List Cell :=
  [cells.high, cells.low, cells.status, cells.opcode, cells.addressHigh, cells.addressLow, cells.access]

/-- All cells from the low end of the frame on. -/
def upward : List Cell :=
  [cells.access, cells.addressHigh, cells.addressLow, cells.opcode, cells.status, cells.high, cells.low]

end LongFrameCells

/-- The words of a long frame and their cells, in the order in which they are written. -/
def LongFrameCells.written (cells : LongFrameCells) (fault : AccessFault) (opcode : BitVec 16)
    (old : StatusWord) (pc : BitVec 32) : List (Cell × BitVec 16) :=
  [(cells.high, pc.extractLsb' 16 16), (cells.low, pc.setWidth 16), (cells.status, old),
    (cells.opcode, opcode), (cells.addressHigh, fault.address.extractLsb' 16 16),
    (cells.addressLow, fault.address.setWidth 16), (cells.access, fault.statusWord)]

def Ram.withLongFrame (ram : Ram) (cells : LongFrameCells) (fault : AccessFault) (opcode : BitVec 16)
    (old : StatusWord) (pc : BitVec 32) : Ram :=
  ram.putWords (cells.written fault opcode old pc)

/-- Room for a long frame. The words below the supervisor stack pointer keep what is written to them, in
cells without common bytes, and no word of the vector's entry lies in them. The entry can be read. -/
structure LongFrameRoom (m : Machine World) (vector : VectorNumber) (handler : BitVec 32)
    (cells : LongFrameCells) : Prop where
  even : m.registers.supervisorStack.getLsbD 0 = false
  keeps : m.KeepsWords (m.registers.supervisorStack - 14) cells.upward
  holds : ∀ c ∈ cells.all, m.host.ram.Holds c
  distinct : cells.all.Pairwise Cell.Apart
  entry : m.memory.readLong .supervisorProgram vector.address m.host = .ok handler m.host
  apart : ∀ address ∈ [vector.address, vector.address + 2], ∀ c,
    m.memory.supervisor.fetchCell? (m.memory.masked address) = some c →
    ∀ frame ∈ cells.all, frame.Apart c

namespace LongFrameRoom

variable {m m' : Machine World} {vector : VectorNumber} {handler : BitVec 32} {cells : LongFrameCells}

theorem sub_add (address x y : BitVec 32) : address - x + y = address - (x - y) := by bv_omega

theorem congr (room : LongFrameRoom m vector handler cells)
    (stack : m'.registers.supervisorStack = m.registers.supervisorStack)
    (memory : m'.memory = m.memory) (ram : m'.host.ram = m.host.ram) :
    LongFrameRoom m' vector handler cells := by
  obtain ⟨high, low, readHigh, readLow, same⟩ := MemoryMap.readLong_program_words rfl room.entry
  have kept {address : BitVec 32} {word : BitVec 16}
      (found : m.memory.readWord .supervisorProgram address m.host = .ok word m.host) :
      m'.memory.readWord .supervisorProgram address m'.host = .ok word m'.host := by
    rw [memory]
    exact MemoryMap.readWord_program_of_kept rfl found fun c _ => by rw [ram]
  constructor
  · rw [stack]
    exact room.even
  · rw [stack]
    exact room.keeps.congr memory
  · rw [ram]
    exact room.holds
  · exact room.distinct
  · rw [same]
    exact MemoryMap.readLong_of_words (kept readHigh) (kept readLow)
  · rw [memory]
    exact room.apart

/-- The frame leaves the entry of the vector as it was. -/
theorem entry_withLongFrame (room : LongFrameRoom m vector handler cells) (fault : AccessFault)
    (opcode : BitVec 16) (old : StatusWord) (pc : BitVec 32) {host : Host World}
    (ram : host.ram = m.host.ram.withLongFrame cells fault opcode old pc) :
    ∃ high low, m.memory.readWord .supervisorProgram vector.address host = .ok high host ∧
      m.memory.readWord .supervisorProgram (vector.address + 2) host = .ok low host ∧
      handler = high ++ low := by
  have kept {address : BitVec 32} (near : address ∈ [vector.address, vector.address + 2])
      {word : BitVec 16} (found : m.memory.readWord .supervisorProgram address m.host = .ok word m.host) :
      m.memory.readWord .supervisorProgram address host = .ok word host := by
    apply MemoryMap.readWord_program_of_kept rfl found
    intro c cell
    have apart := room.apart address near c cell
    rw [ram]
    apply Ram.wordAt_putWords_of_apart
    intro word member
    exact apart word.1 (List.mem_map_of_mem (f := Prod.fst) member)
  obtain ⟨high, low, readHigh, readLow, same⟩ := MemoryMap.readLong_program_words rfl room.entry
  exact ⟨high, low, kept List.mem_cons_self readHigh,
    kept (List.mem_cons_of_mem _ List.mem_cons_self) readLow, same⟩

theorem stackLong (room : LongFrameRoom m vector handler cells)
    (supervisor : m.registers.isSupervisor = true) (fault : AccessFault) (opcode : BitVec 16)
    (old : StatusWord) :
    ∃ m', Exec.stackLong vector fault opcode old m = .ok () m' ∧
      m.Becomes { m.registers.setAddress 7 (m.registers.supervisorStack - 14) with pc := handler }
        (m.host.ram.withLongFrame cells fault opcode old m.registers.pc) m' := by
  have even (depth : BitVec 32) (whole : (-depth).getLsbD 0 = false) :
      (m.registers.supervisorStack - depth).getLsbD 0 = false := Exec.even_sub room.even whole
  have keeps := room.keeps
  simp only [LongFrameCells.upward, Machine.KeepsWords, sub_add, BitVec.reduceSub] at keeps
  obtain ⟨access, addressHigh, addressLow, opcodeWord, status, high, low, -⟩ := keeps
  have holds : ∀ c ∈ cells.all, m.host.ram.Holds c := room.holds
  simp only [LongFrameCells.all, List.forall_mem_cons] at holds
  obtain ⟨inHigh, inLow, inStatus, inOpcode, inAddressHigh, inAddressLow, inAccess, -⟩ := holds
  obtain ⟨m₁, pushed₁, stacked₁⟩ := (Machine.Stacked.refl supervisor).push_long supervisor
    (even 0 rfl) high inHigh low inLow m.registers.pc
  obtain ⟨m₂, pushed₂, stacked₂⟩ := stacked₁.push_word supervisor (even 4 rfl) status
    (by simpa only [Ram.holds_putWord] using inStatus) (old.setWidth 32)
  obtain ⟨m₃, pushed₃, stacked₃⟩ := stacked₂.push_word supervisor (even 6 rfl) opcodeWord
    (by simpa only [Ram.holds_putWord] using inOpcode) (opcode.setWidth 32)
  obtain ⟨m₄, pushed₄, stacked₄⟩ := stacked₃.push_long supervisor (even 8 rfl)
    addressHigh (by simpa only [Ram.holds_putWord] using inAddressHigh)
    addressLow (by simpa only [Ram.holds_putWord] using inAddressLow) fault.address
  obtain ⟨m₅, pushed₅, stacked₅⟩ := stacked₄.push_word supervisor (even 12 rfl) access
    (by simpa only [Ram.holds_putWord] using inAccess) (fault.statusWord.setWidth 32)
  have whole (word : BitVec 16) : (word.setWidth 32).setWidth 16 = word :=
    BitVec.setWidth_setWidth_of_le word (by decide)
  rw [whole, whole, whole] at stacked₅
  have framed : m.Stacked 14 (m.host.ram.withLongFrame cells fault opcode old m.registers.pc) m₅ :=
    stacked₅
  -- the vector's entry
  obtain ⟨entryHigh, entryLow, readHigh, readLow, rfl⟩ := room.entry_withLongFrame fault opcode old
    m.registers.pc framed.host_ram
  rw [← framed.memory] at readHigh readLow
  obtain ⟨m₆, read, becomes⟩ := Exec.read_long_of_found vector.even_address readHigh readLow
  have entered := (framed.trans becomes).setRegisters fun r => { r with pc := entryHigh ++ entryLow }
  rw [framed.registers, framed.host_ram] at entered
  refine ⟨m₆.mapRegisters fun r => { r with pc := entryHigh ++ entryLow }, ?_, entered⟩
  unfold Exec.stackLong
  rw [Exec.bind_of_ok (rfl : Exec.registers m = .ok m.registers m), Exec.bind_of_ok pushed₁,
    Exec.bind_of_ok pushed₂, Exec.bind_of_ok pushed₃, Exec.bind_of_ok pushed₄,
    Exec.bind_of_ok pushed₅, Exec.bind_of_ok (show Exec.readVector vector m₅ = _ from read)]
  rfl

end LongFrameRoom

end MC68000
