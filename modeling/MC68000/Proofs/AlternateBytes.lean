import MC68000.Proofs.FailedAccess
import MC68000.Proofs.InstructionLength
import MC68000.Proofs.RegisterParts
import MC68000.Proofs.Shifts.Positions

set_option autoImplicit false

namespace MC68000

variable {World : Type}

namespace RegionTable

/-- The cell that byte reads of an address lead to, if they lead to a buffer. -/
def readByteCell? (table : RegionTable World) (address : BitVec 32) : Option ByteCell :=
  match Region.find? table.readByte address with
  | some ⟨range, .buffer id⟩ => some ⟨id, range.offset address⟩
  | _ => none

def writeByteCell? (table : RegionTable World) (address : BitVec 32) : Option ByteCell :=
  match Region.find? table.writeByte address with
  | some ⟨range, .buffer id⟩ => some ⟨id, range.offset address⟩
  | _ => none

variable {table : RegionTable World} {address : BitVec 32} {c : ByteCell}

theorem dataByte_of_readByteCell? (h : table.readByteCell? address = some c) (host : Host World) :
    table.dataByte address host = (host.ram.byteAt c, host) := by
  unfold readByteCell? at h
  unfold dataByte
  split at h
  next range id found =>
    cases h
    rw [found]
    rfl
  next => cases h

theorem putByte_of_writeByteCell? (h : table.writeByteCell? address = some c) {host : Host World}
    (has : host.ram.HasByte c) (value : BitVec 8) :
    table.putByte address value host = (true, { host with ram := host.ram.putByte c value }) := by
  unfold writeByteCell? at h
  unfold putByte
  split at h
  next range id found =>
    cases h
    have inside : range.offset address < host.ram.length id := has
    rw [found]
    simp only [Host.storeByte, Ram.storeByte, if_pos inside]
    rfl
  next => cases h

end RegionTable

namespace MemoryMap

/-- The byte at an address is read from a cell and written to the same cell. -/
structure IsByteRam (map : MemoryMap World) (space : AddressSpace) (address : BitVec 32) (c : ByteCell) :
    Prop where
  data : space.isProgram = false
  reads : (map.table space).readByteCell? (map.masked address) = some c
  writes : (map.table space).writeByteCell? (map.masked address) = some c

variable {map : MemoryMap World} {space : AddressSpace} {address : BitVec 32} {c : ByteCell}

theorem readByte_of_isByteRam (h : map.IsByteRam space address c) {host : Host World} {byte : BitVec 8}
    (found : host.ram.byteAt c = some byte) : map.readByte space address host = .ok byte host := by
  simp only [readByte, peekByte, h.data, Bool.false_eq_true, if_false,
    RegionTable.dataByte_of_readByteCell? h.reads, found]

theorem writeByte_of_isByteRam (h : map.IsByteRam space address c) {host : Host World}
    (has : host.ram.HasByte c) (value : BitVec 8) : map.writeByte space address value host =
      .ok () { host with ram := host.ram.putByte c value } := by
  simp only [writeByte, RegionTable.putByte_of_writeByteCell? h.writes has]

/-- The bytes at every other address from one on are read from these cells and written to them. -/
def KeepsBytes (map : MemoryMap World) (space : AddressSpace) (address : BitVec 32) :
    List ByteCell → Prop
  | [] => True
  | c :: rest => map.IsByteRam space address c ∧ map.KeepsBytes space (address + 2) rest

end MemoryMap

namespace Ram

instance (ram : Ram) (c : ByteCell) : Decidable (ram.HasByte c) := inferInstanceAs (Decidable (_ < _))

def putBytes (ram : Ram) (bytes : List (ByteCell × BitVec 8)) : Ram :=
  bytes.foldl (fun ram byte => ram.putByte byte.1 byte.2) ram

variable {bytes : List (ByteCell × BitVec 8)}

theorem byteAt_putBytes_of_outside {c : ByteCell} (outside : c ∉ bytes.map Prod.fst) (ram : Ram) :
    (ram.putBytes bytes).byteAt c = ram.byteAt c := by
  induction bytes generalizing ram with
  | nil => rfl
  | cons byte rest ih =>
    obtain ⟨other, outside⟩ := not_or.mp (mt List.mem_cons.mpr outside)
    exact (ih outside _).trans (byteAt_putByte_of_ne other ram byte.2)

theorem byteAt_putBytes {ram : Ram} (has : ∀ c ∈ bytes.map Prod.fst, ram.HasByte c)
    (distinct : (bytes.map Prod.fst).Nodup) :
    ∀ byte ∈ bytes, (ram.putBytes bytes).byteAt byte.1 = some byte.2 := by
  induction bytes generalizing ram with
  | nil => exact fun _ none => absurd none List.not_mem_nil
  | cons first rest ih =>
    obtain ⟨fresh, distinct⟩ := List.nodup_cons.mp distinct
    intro byte member
    rcases List.mem_cons.mp member with rfl | later
    · have stored := byteAt_putByte_self (has byte.1 List.mem_cons_self) byte.2
      exact (byteAt_putBytes_of_outside fresh _).trans stored
    · refine ih (fun c inside => ?_) distinct byte later
      exact (hasByte_putByte first.2).mpr (has c (List.mem_cons_of_mem _ inside))

end Ram

namespace Exec

/-- A value shifted up to make room for the bytes that are collected below it. -/
def collected (value : BitVec 32) (bytes : List (BitVec 8)) : BitVec 32 :=
  bytes.foldl (fun value byte => (value <<< 8) ||| byte.setWidth 32) value

/-- The next byte of a value, below those above it. -/
theorem shift_or_byte (value : BitVec 32) (k : Nat) :
    (value >>> (8 * (k + 1))) <<< 8 ||| (value.extractLsb' (8 * k) 8).setWidth 32 =
      value >>> (8 * k) := by
  apply BitVec.eq_of_getLsbD_eq
  intro i inside
  simp only [BitVec.getLsbD_or, BitVec.getLsbD_shiftLeft, BitVec.getLsbD_ushiftRight,
    BitVec.getLsbD_setWidth, BitVec.getLsbD_extractLsb', inside, decide_true, Bool.true_and]
  by_cases low : i < 8
  · simp only [low, decide_true, Bool.not_true, Bool.false_and, Bool.false_or, Bool.true_and]
  · have place : 8 * (k + 1) + (i - 8) = 8 * k + i := by omega
    simp only [low, decide_false, Bool.not_false, Bool.true_and, Bool.false_and, Bool.or_false, place]

/-- All bytes of a value below what lies above them give the value. -/
theorem collected_shifted (value : BitVec 32) (n : Nat) :
    collected (value >>> (8 * n)) ((List.range n).reverse.map fun i => value.extractLsb' (8 * i) 8) =
      value := by
  induction n with
  | zero => exact BitVec.ushiftRight_zero value
  | succ n ih =>
    rw [List.range_succ, List.reverse_append, List.reverse_singleton, List.singleton_append,
      List.map_cons, collected, List.foldl_cons, shift_or_byte]
    exact ih

theorem bytesOf_truncate (size : Size) (value : BitVec 32) :
    bytesOf size (size.truncate value) = bytesOf size value := by
  apply List.map_congr_left
  intro i listed
  have inside := List.mem_range.mp (List.mem_reverse.mp listed)
  apply BitVec.eq_of_getLsbD_eq
  intro j small
  have place : 8 * i + j < size.bits := by
    unfold Size.bits
    omega
  simp only [BitVec.getLsbD_extractLsb', Arithmetic.getLsbD_truncate, place, decide_true, Bool.true_and]

theorem collected_bytesOf (size : Size) (value : BitVec 32) :
    collected 0 (bytesOf size value) = size.truncate value := by
  have above : size.truncate value >>> (8 * size.bytes) = 0 := by
    apply BitVec.eq_of_getLsbD_eq
    intro i _
    have past : ¬size.bits + i < size.bits := by omega
    rw [BitVec.getLsbD_ushiftRight, Arithmetic.getLsbD_truncate, ← Size.bits, decide_eq_false past, Bool.false_and]
    exact BitVec.getLsbD_zero.symm
  have whole := collected_shifted (size.truncate value) size.bytes
  rw [above] at whole
  rw [← bytesOf_truncate]
  exact whole

theorem getElem?_bytesOf (size : Size) (value : BitVec 32) {i : Nat} (inside : i < size.bytes) :
    (bytesOf size value)[i]? = some (value.extractLsb' (8 * (size.bytes - 1 - i)) 8) := by
  rw [bytesOf, List.getElem?_map, List.getElem?_reverse (by rwa [List.length_range]), List.length_range,
    List.getElem?_range (by omega)]
  rfl

variable {m : Machine World} {address : BitVec 32}

theorem readData_byte {c : ByteCell} {byte : BitVec 8} (ram : m.memory.IsByteRam m.dataSpace address c)
    (found : m.host.ram.byteAt c = some byte) :
    ∃ m', readData .byte address m = .ok (byte.setWidth 32) m' ∧
      m.Becomes m.registers m.host.ram m' := by
  have read : readByte m.dataSpace address m = .ok byte _ :=
    cycle_of_ok (MemoryMap.readByte_of_isByteRam ram found)
  exact ⟨_, bind_of_ok read, rfl⟩

theorem writeData_byte {c : ByteCell} (ram : m.memory.IsByteRam m.dataSpace address c)
    (has : m.host.ram.HasByte c) (byte : BitVec 8) :
    ∃ m', writeData .byte address (byte.setWidth 32) m = .ok () m' ∧
      m.Becomes m.registers (m.host.ram.putByte c byte) m' := by
  have written : writeByte m.dataSpace address byte m = .ok () _ :=
    cycle_of_ok (MemoryMap.writeByte_of_isByteRam ram has byte)
  have narrowed : writeData .byte address (byte.setWidth 32) m = writeByte m.dataSpace address byte m := by
    change writeByte m.dataSpace address ((byte.setWidth 32).setWidth 8) m = _
    rw [BitVec.setWidth_setWidth_of_le byte (by decide), BitVec.setWidth_eq]
  exact ⟨_, narrowed.trans written, rfl⟩

/-- Bytes that are stored come to their cells, and nothing else is written. -/
theorem storeAlternate_putBytes (stored : List (ByteCell × BitVec 8))
    (keeps : m.memory.KeepsBytes m.dataSpace address (stored.map Prod.fst))
    (has : ∀ c ∈ stored.map Prod.fst, m.host.ram.HasByte c) :
    ∃ m', storeAlternate (stored.map Prod.snd) address m = .ok () m' ∧
      m.Becomes m.registers (m.host.ram.putBytes stored) m' := by
  induction stored generalizing m address with
  | nil => exact ⟨m, rfl, .refl m⟩
  | cons first rest ih =>
    obtain ⟨ram, above⟩ := keeps
    obtain ⟨m₁, written, becomes⟩ := writeData_byte ram (has first.1 List.mem_cons_self) first.2
    obtain ⟨m₂, finished, after⟩ := @ih m₁ (address + 2)
      (by rw [becomes.memory, becomes.dataSpace rfl]; exact above)
      (by
        intro c member
        rw [becomes.host_ram]
        exact (Ram.hasByte_putByte first.2).mpr (has c (List.mem_cons_of_mem _ member)))
    refine ⟨m₂, ?_, ?_⟩
    · rw [List.map_cons, storeAlternate, bind_of_ok written]
      exact finished
    · rw [becomes.registers, becomes.host_ram] at after
      exact becomes.trans after

/-- Bytes that are loaded are collected below what has been collected before. -/
theorem loadAlternate_collected (loaded : List (ByteCell × BitVec 8)) (value : BitVec 32)
    (keeps : m.memory.KeepsBytes m.dataSpace address (loaded.map Prod.fst))
    (found : ∀ byte ∈ loaded, m.host.ram.byteAt byte.1 = some byte.2) :
    ∃ m', loadAlternate loaded.length value address m =
        .ok (collected value (loaded.map Prod.snd)) m' ∧
      m.Becomes m.registers m.host.ram m' := by
  induction loaded generalizing m address value with
  | nil => exact ⟨m, rfl, .refl m⟩
  | cons first rest ih =>
    obtain ⟨ram, above⟩ := keeps
    obtain ⟨m₁, read, becomes⟩ := readData_byte ram (found first List.mem_cons_self)
    obtain ⟨m₂, finished, after⟩ := @ih m₁ (address + 2) ((value <<< 8) ||| first.2.setWidth 32)
      (by rw [becomes.memory, becomes.dataSpace rfl]; exact above)
      (by
        intro byte member
        rw [becomes.host_ram]
        exact found byte (List.mem_cons_of_mem _ member))
    refine ⟨m₂, ?_, ?_⟩
    · rw [List.length_cons, loadAlternate, bind_of_ok read]
      exact finished
    · rw [becomes.registers, becomes.host_ram] at after
      exact becomes.trans after

end Exec

/-- Room at every other address for the bytes of a size: memory that keeps what is written to it, in cells of
their own. -/
structure Machine.AlternateArea (m : Machine World) (size : Size) (address : BitVec 32)
    (cells : List ByteCell) : Prop where
  count : cells.length = size.bytes
  keeps : m.memory.KeepsBytes m.dataSpace address cells
  has : ∀ c ∈ cells, m.host.ram.HasByte c
  distinct : cells.Nodup

namespace Exec

variable {m : Machine World} {opcode displacement : BitVec 16} {size : Size} {data base : Fin 8}
  {cells : List ByteCell}

theorem movep_store (decodes : Instruction.decode opcode = .movepStore size data base)
    (fetches : m.Fetches opcode displacement)
    (area : m.AlternateArea size (m.registers.a.get base + displacement.signExtend 32) cells) :
    ∃ m', nextInstruction m = .ok (Timing.bySize size 16 24) m' ∧
      Machine.Becomes { m with opcode } { m.registers with pc := m.registers.pc + 4 }
        (m.host.ram.putBytes (cells.zip (bytesOf size (m.registers.d.get data)))) m' := by
  obtain ⟨m₁, m₂, next, fetched, begun⟩ := nextInstruction_of_fetches fetches
  have count : cells.length = (bytesOf size (m.registers.d.get data)).length :=
    area.count.trans (length_bytesOf size _).symm
  have firsts := List.map_fst_zip count.le
  have seconds := List.map_snd_zip count.ge
  obtain ⟨m₃, stored, after⟩ := storeAlternate_putBytes (m := m₂)
    (cells.zip (bytesOf size (m.registers.d.get data)))
    (by rw [begun.memory, begun.dataSpace rfl, firsts]; exact area.keeps)
    (by rw [begun.host_ram, firsts]; exact area.has)
  rw [seconds] at stored
  rw [begun.registers, begun.host_ram] at after
  have done : movepStore size data base m₁ = .ok (Timing.bySize size 16 24) m₃ := by
    unfold movepStore
    rw [bind_of_ok (fetchDisplacement_of_fetchWord fetched), bind_registers, begun.registers,
      bind_of_ok stored]
    rfl
  rw [decodes] at next
  exact ⟨m₃, next.trans done, begun.trans after⟩

theorem movep_load (decodes : Instruction.decode opcode = .movepLoad size data base)
    (fetches : m.Fetches opcode displacement) (value : BitVec 32) (count : cells.length = size.bytes)
    (keeps : m.memory.KeepsBytes m.dataSpace
      (m.registers.a.get base + displacement.signExtend 32) cells)
    (found : ∀ byte ∈ cells.zip (bytesOf size value), m.host.ram.byteAt byte.1 = some byte.2) :
    ∃ m', nextInstruction m = .ok (Timing.bySize size 16 24) m' ∧
      Machine.Becomes { m with opcode }
        { m.registers.setDataPart data size value with pc := m.registers.pc + 4 } m.host.ram m' := by
  obtain ⟨m₁, m₂, next, fetched, begun⟩ := nextInstruction_of_fetches fetches
  have same : cells.length = (bytesOf size value).length := count.trans (length_bytesOf size _).symm
  have firsts := List.map_fst_zip same.le
  have seconds := List.map_snd_zip same.ge
  obtain ⟨m₃, loaded, after⟩ := loadAlternate_collected (m := m₂) (cells.zip (bytesOf size value)) 0
    (by rw [begun.memory, begun.dataSpace rfl, firsts]; exact keeps)
    (by rw [begun.host_ram]; exact found)
  rw [seconds, collected_bytesOf, List.length_zip, ← same, Nat.min_self, count] at loaded
  rw [begun.registers, begun.host_ram] at after
  have done : movepLoad size data base m₁ = .ok (Timing.bySize size 16 24)
      (m₃.mapRegisters (·.setDataPart data size (size.truncate value))) := by
    unfold movepLoad
    rw [bind_of_ok (fetchDisplacement_of_fetchWord fetched), bind_registers, begun.registers,
      bind_of_ok loaded]
    rfl
  have becomes := (begun.trans after).setRegisters (·.setDataPart data size (size.truncate value))
  rw [Registers.setDataPart_truncate] at becomes
  rw [decodes] at next
  refine ⟨_, next.trans done, ?_⟩
  cases size <;> exact becomes

/-- MOVEP from memory changes no data register and no flag where an access fails. -/
theorem movep_load_fails (decodes : Instruction.decode opcode = .movepLoad size data base)
    (fetched : m.fetched? = some opcode) {e : Exception} {m' : Machine World}
    (fails : nextInstruction m = .error e m') :
    m'.registers.d = m.registers.d ∧ m'.registers.status = m.registers.status := by
  obtain ⟨at', executes, registers⟩ := nextInstruction_of_fetched fetched
  have kept := Instruction.kept_execute opcode at'
  rw [executes] at fails
  rw [fails, decodes, registers] at kept
  -- nothing is raised but for a failed access
  have timed : Timed at'.registers.status.system (fun _ => False) (movepLoad size data base : Exec World Nat) :=
    timed_movepLoad size data base
  have raised := timed.effects at' rfl
  rw [decodes] at fails
  change movepLoad size data base at' = _ at fails
  rw [fails] at raised
  have kept := kept (raised.2.resolve_left id)
  exact ⟨kept.d trivial, kept.status_eq⟩

/-- MOVEP to memory and back. Storing leaves the bytes of the data register at every other address, the most
significant first, and changes no other byte. Whatever has happened since, as long as these bytes are what
they were and the addresses lead to them, a load from there brings back the register: the whole of it, or
its low word below the high word that the other register had. Neither changes anything else but the program
counter, and a load that fails changes no data register and no flag. -/
theorem movep_restores (decodes : Instruction.decode opcode = .movepStore size data base)
    (fetches : m.Fetches opcode displacement)
    (area : m.AlternateArea size (m.registers.a.get base + displacement.signExtend 32) cells) :
    let value := m.registers.d.get data
    let address := m.registers.a.get base + displacement.signExtend 32
    (∃ m₁, nextInstruction m = .ok (Timing.bySize size 16 24) m₁ ∧
      Machine.Becomes { m with opcode } { m.registers with pc := m.registers.pc + 4 } m₁.host.ram m₁ ∧
      (∀ i c, cells[i]? = some c →
        m₁.host.ram.byteAt c = some (value.extractLsb' (8 * (size.bytes - 1 - i)) 8)) ∧
      (∀ c ∉ cells, m₁.host.ram.byteAt c = m.host.ram.byteAt c) ∧
      ∀ (m₂ : Machine World) (opcode' displacement' : BitVec 16) (data' base' : Fin 8),
        Instruction.decode opcode' = .movepLoad size data' base' → m₂.Fetches opcode' displacement' →
        m₂.registers.a.get base' + displacement'.signExtend 32 = address →
        m₂.memory.KeepsBytes m₂.dataSpace address cells →
        (∀ c ∈ cells, m₂.host.ram.byteAt c = m₁.host.ram.byteAt c) →
        ∃ m₃, nextInstruction m₂ = .ok (Timing.bySize size 16 24) m₃ ∧
          Machine.Becomes { m₂ with opcode := opcode' }
            { m₂.registers.setDataPart data' size value with pc := m₂.registers.pc + 4 } m₂.host.ram m₃ ∧
          m₃.registers.status = m₂.registers.status ∧
          (size = .long → m₃.registers.d.get data' = value) ∧
          (size = .word → (m₃.registers.d.get data').setWidth 16 = value.setWidth 16 ∧
            (m₃.registers.d.get data').extractLsb' 16 16 =
              (m₂.registers.d.get data').extractLsb' 16 16)) ∧
    ∀ (other : Machine World) (opcode' : BitVec 16) (size' : Size) (data' base' : Fin 8) (e : Exception)
      (failed : Machine World), Instruction.decode opcode' = .movepLoad size' data' base' →
      other.fetched? = some opcode' → nextInstruction other = .error e failed →
      failed.registers.d = other.registers.d ∧ failed.registers.status = other.registers.status := by
  intro value address
  refine ⟨?_, fun _ _ _ _ _ _ _ decodes fetched fails => movep_load_fails decodes fetched fails⟩
  have count : cells.length = (bytesOf size value).length :=
    area.count.trans (length_bytesOf size value).symm
  have firsts := List.map_fst_zip count.le
  obtain ⟨m₁, stored, becomes⟩ := movep_store decodes fetches area
  have found : ∀ byte ∈ cells.zip (bytesOf size value), m₁.host.ram.byteAt byte.1 = some byte.2 := by
    rw [becomes.host_ram]
    apply Ram.byteAt_putBytes
    · rw [firsts]
      exact area.has
    · rw [firsts]
      exact area.distinct
  refine ⟨m₁, stored, ?_, ?places, ?outside, ?loads⟩
  · rw [becomes.host_ram]
    exact becomes
  case places =>
    intro i c listed
    have inside : i < size.bytes := by
      rw [← area.count]
      exact (List.getElem?_eq_some_iff.mp listed).1
    apply found (c, _)
    apply List.mem_of_getElem? (i := i)
    rw [List.getElem?_zip_eq_some]
    exact ⟨listed, getElem?_bytesOf size value inside⟩
  case outside =>
    intro c outside
    rw [becomes.host_ram]
    apply Ram.byteAt_putBytes_of_outside
    rwa [firsts]
  case loads =>
    intro m₂ opcode' displacement' data' base' decodes' fetches' same keeps kept
    obtain ⟨m₃, loaded, after⟩ := movep_load decodes' fetches' value area.count
      (by rw [same]; exact keeps)
      (fun byte member => (kept byte.1 (List.of_mem_zip member).1).trans (found byte member))
    have whole : m₃.registers.d.get data' = (m₂.registers.setDataPart data' size value).d.get data' := by
      rw [after.registers]
    refine ⟨m₃, loaded, after, ?status, ?long, ?word⟩
    case status =>
      rw [after.registers]
      cases size <;> rfl
    case long =>
      rintro rfl
      exact whole.trans (Registers.get_setData ..)
    case word =>
      rintro rfl
      rw [whole]
      exact ⟨Registers.low_setDataPart_word .., Registers.high_setDataPart_word ..⟩

/-- A processor that is about to store D0 from an odd address on, and then to load D1 from there. -/
def alternating : Machine Unit :=
  { Machine.new ⟨0x00FFFFFF, .openBus 0⟩
      ⟨#[#[0x01, 0xC8, 0x00, 0x03, 0x03, 0x48, 0x00, 0x03] ++ Array.replicate 24 0xEE], .none, ()⟩
      fun _ world => world with
    registers := (Registers.initial.setData 0 0x11223344).setAddress 0 16
    memory := (MemoryMap.empty ⟨0x00FFFFFF, .openBus 0⟩).mapRam ⟨0, 31⟩ 0
    state := .running }

def alternatingCells : List ByteCell :=
  [⟨0, 19⟩, ⟨0, 21⟩, ⟨0, 23⟩, ⟨0, 25⟩]

def alternatingLater : Machine Unit :=
  match nextInstruction alternating with
  | .ok _ m | .error _ m => m

theorem movep_restores_odd :
    Instruction.decode 0x01C8 = .movepStore .long 0 0 ∧ alternating.Fetches 0x01C8 3 ∧
      alternating.AlternateArea .long 19 alternatingCells ∧
      alternatingLater.host.ram.byteAt ⟨0, 19⟩ = some 0x11 ∧
      alternatingLater.host.ram.byteAt ⟨0, 20⟩ = some 0xEE ∧
      alternatingLater.Fetches 0x0348 3 ∧
      ∃ m : Machine Unit, nextInstruction alternatingLater = .ok 24 m ∧
        m.registers.d.get 1 = 0x11223344 := by
  have decodes : Instruction.decode 0x01C8 = .movepStore .long 0 0 := rfl
  have fetches : alternating.Fetches 0x01C8 3 := ⟨rfl, rfl, rfl⟩
  have area : alternating.AlternateArea .long 19 alternatingCells := by
    constructor
    · rfl
    · exact ⟨⟨rfl, rfl, rfl⟩, ⟨rfl, rfl, rfl⟩, ⟨rfl, rfl, rfl⟩, ⟨rfl, rfl, rfl⟩, trivial⟩
    · decide
    · decide
  have facts : alternatingLater.registers.pc.getLsbD 0 = false ∧
      alternatingLater.programSpace.isProgram = true ∧
      ((alternatingLater.memory.table alternatingLater.programSpace).fetchCell?
        (alternatingLater.memory.masked alternatingLater.registers.pc)).bind
          alternatingLater.host.ram.wordAt = some 0x0348 ∧
      ((alternatingLater.memory.table alternatingLater.programSpace).fetchCell?
        (alternatingLater.memory.masked (alternatingLater.registers.pc + 2))).bind
          alternatingLater.host.ram.wordAt = some 3 := by
    decide +kernel
  obtain ⟨even, program, opcode, extension⟩ := facts
  have later : alternatingLater.Fetches 0x0348 3 := by
    constructor
    · exact even
    · rw [MemoryMap.readWord_program program, opcode]
    · rw [MemoryMap.readWord_program program, extension]
  obtain ⟨⟨m₁, stored, becomes, places, outside, loads⟩, -⟩ := movep_restores decodes fetches area
  have same : alternatingLater = m₁ := by
    rw [alternatingLater, stored]
  have between : m₁.host.ram.byteAt ⟨0, 20⟩ = some 0xEE :=
    (outside ⟨0, 20⟩ (by decide)).trans (by rfl)
  obtain ⟨m, loaded, -, -, whole, -⟩ := loads alternatingLater 0x0348 3 1 0 rfl later
    (by
      rw [same, becomes.registers])
    (by
      rw [same, becomes.dataSpace rfl, becomes.memory]
      exact area.keeps)
    (by
      intro c _
      rw [same])
  rw [← same] at places between
  exact ⟨decodes, fetches, area, places 0 _ rfl, between, later, m, loaded, whole rfl⟩

end Exec

end MC68000
