import MC68000.Proofs.Effects

set_option autoImplicit false

namespace MC68000

variable {World : Type}

/-- The place of a word: its buffer, and the offset of its first byte. -/
structure Cell where
  buffer : Nat
  offset : Nat

/-- Two cells have no byte in common. -/
def Cell.Apart (c d : Cell) : Prop :=
  c.buffer ≠ d.buffer ∨ c.offset + 1 < d.offset ∨ d.offset + 1 < c.offset

instance (c d : Cell) : Decidable (c.Apart d) := inferInstanceAs (Decidable (_ ∨ _))

theorem Cell.Apart.symm {c d : Cell} (h : c.Apart d) : d.Apart c := by
  rcases h with buffers | before | after
  · exact .inl buffers.symm
  · exact .inr (.inr before)
  · exact .inr (.inl after)

namespace Ram

def wordAt (ram : Ram) (c : Cell) : Option (BitVec 16) := ram.word? c.buffer c.offset

def putWord (ram : Ram) (c : Cell) (value : BitVec 16) : Ram :=
  (ram.storeWord c.buffer c.offset value).2

/-- Both bytes of a cell lie in its buffer. -/
def Holds (ram : Ram) (c : Cell) : Prop := c.offset + 1 < ram.length c.buffer

instance (ram : Ram) (c : Cell) : Decidable (ram.Holds c) := inferInstanceAs (Decidable (_ < _))

theorem storeWord_of_holds {ram : Ram} {c : Cell} (h : ram.Holds c) (value : BitVec 16) :
    ram.storeWord c.buffer c.offset value = (true, ram.putWord c value) := by
  have holds : c.offset + 1 < ram.length c.buffer := h
  unfold putWord storeWord
  rw [if_pos holds]

theorem holds_putWord (ram : Ram) (c d : Cell) (value : BitVec 16) :
    (ram.putWord c value).Holds d ↔ ram.Holds d := by
  unfold Holds putWord storeWord
  split
  · rw [length_put, length_put]
  · rfl

theorem wordAt_putWord_self {ram : Ram} {c : Cell} (h : ram.Holds c) (value : BitVec 16) :
    (ram.putWord c value).wordAt c = some value := word?_storeWord (storeWord_of_holds h value)

/-- A word that is written to a cell leaves the cells apart from it. -/
theorem wordAt_putWord_of_apart {c d : Cell} (apart : c.Apart d) (ram : Ram) (value : BitVec 16) :
    (ram.putWord c value).wordAt d = ram.wordAt d := by
  unfold putWord storeWord
  split
  · have byte (offset : Nat) (low : d.offset ≤ offset) (high : offset ≤ d.offset + 1) (at' : Nat)
        (inside : at' = c.offset ∨ at' = c.offset + 1) : d.buffer ≠ c.buffer ∨ offset ≠ at' := by
      rcases apart with buffers | before | after
      · exact .inl buffers.symm
      · exact .inr (by omega)
      · exact .inr (by omega)
    simp only [wordAt, word?]
    rw [byte?_put_of_ne _ (byte d.offset (by omega) (by omega) _ (.inr rfl)),
      byte?_put_of_ne _ (byte d.offset (by omega) (by omega) _ (.inl rfl)),
      byte?_put_of_ne _ (byte (d.offset + 1) (by omega) (by omega) _ (.inr rfl)),
      byte?_put_of_ne _ (byte (d.offset + 1) (by omega) (by omega) _ (.inl rfl))]
  · rfl

end Ram

namespace RegionTable

/-- The cell that word reads of an address lead to, if they lead to a buffer. -/
def readCell? (table : RegionTable World) (address : BitVec 32) : Option Cell :=
  match Region.find? table.readWord address with
  | some ⟨range, .buffer id⟩ => some ⟨id, range.offset address⟩
  | _ => none

def writeCell? (table : RegionTable World) (address : BitVec 32) : Option Cell :=
  match Region.find? table.writeWord address with
  | some ⟨range, .buffer id⟩ => some ⟨id, range.offset address⟩
  | _ => none

def fetchCell? (table : RegionTable World) (address : BitVec 32) : Option Cell :=
  (table.fetch.find? fun region => region.range.contains address).map fun region =>
    ⟨region.buffer, region.range.offset address⟩

variable {table : RegionTable World} {address : BitVec 32} {c : Cell}

theorem dataWord_of_readCell? (h : table.readCell? address = some c) (host : Host World) :
    table.dataWord address host = (host.ram.wordAt c, host) := by
  unfold readCell? at h
  unfold dataWord
  split at h
  next range id found =>
    cases h
    rw [found]
    rfl
  next => cases h

theorem putWord_of_writeCell? (h : table.writeCell? address = some c) {host : Host World}
    (holds : host.ram.Holds c) (value : BitVec 16) :
    table.putWord address value host = (true, { host with ram := host.ram.putWord c value }) := by
  unfold writeCell? at h
  unfold putWord
  split at h
  next range id found =>
    cases h
    rw [found]
    dsimp only
    unfold Host.storeWord
    rw [show host.ram.storeWord id (range.offset address) value = _ from
      Ram.storeWord_of_holds holds value]
  next => cases h

theorem fetchWord_eq (table : RegionTable World) (address : BitVec 32) (ram : Ram) :
    table.fetchWord address ram = (table.fetchCell? address).bind ram.wordAt := by
  unfold fetchWord fetchCell?
  cases table.fetch.find? fun region => region.range.contains address <;> rfl

end RegionTable

namespace MemoryMap

/-- The words at an address are read from a cell and written to the same cell. -/
structure IsRam (map : MemoryMap World) (space : AddressSpace) (address : BitVec 32) (c : Cell) :
    Prop where
  data : space.isProgram = false
  reads : (map.table space).readCell? (map.masked address) = some c
  writes : (map.table space).writeCell? (map.masked address) = some c

variable {map : MemoryMap World} {space : AddressSpace} {address : BitVec 32} {c : Cell}

theorem readWord_of_isRam (h : map.IsRam space address c) {host : Host World} {word : BitVec 16}
    (found : host.ram.wordAt c = some word) : map.readWord space address host = .ok word host := by
  unfold readWord peekWord
  dsimp only
  rw [h.data, if_neg Bool.false_ne_true, RegionTable.dataWord_of_readCell? h.reads, found]

theorem writeWord_of_isRam (h : map.IsRam space address c) {host : Host World}
    (holds : host.ram.Holds c) (value : BitVec 16) : map.writeWord space address value host =
      .ok () { host with ram := host.ram.putWord c value } := by
  unfold writeWord
  rw [RegionTable.putWord_of_writeCell? h.writes holds]

theorem readWord_program (program : space.isProgram = true) (host : Host World) :
    map.readWord space address host =
      match ((map.table space).fetchCell? (map.masked address)).bind host.ram.wordAt with
      | some word => .ok word host
      | none => map.miss space address false (fun fill => fill ++ fill) host := by
  unfold readWord peekWord
  dsimp only
  rw [program, if_pos rfl, RegionTable.fetchWord_eq]
  cases ((map.table space).fetchCell? (map.masked address)).bind host.ram.wordAt <;> rfl

/-- A word of the program stays what it is where its cell is not written to. -/
theorem readWord_program_of_kept (program : space.isProgram = true) {host host' : Host World}
    {word : BitVec 16} {after : Host World} (found : map.readWord space address host = .ok word after)
    (kept : ∀ c, (map.table space).fetchCell? (map.masked address) = some c →
      host'.ram.wordAt c = host.ram.wordAt c) :
    map.readWord space address host' = .ok word host' := by
  have same : ((map.table space).fetchCell? (map.masked address)).bind host'.ram.wordAt =
      ((map.table space).fetchCell? (map.masked address)).bind host.ram.wordAt := by
    cases cell : (map.table space).fetchCell? (map.masked address) with
    | none => rfl
    | some c => exact kept c cell
  rw [readWord_program program] at found ⊢
  rw [same]
  cases read : ((map.table space).fetchCell? (map.masked address)).bind host.ram.wordAt with
  | some w =>
    rw [read] at found
    cases found
    rfl
  | none =>
    rw [read] at found
    dsimp only at found ⊢
    unfold miss at found ⊢
    cases unmapped : map.config.unmapped with
    | busError =>
      rw [unmapped] at found
      cases found
    | openBus fill =>
      rw [unmapped] at found
      cases found
      rfl

theorem readLong_of_words {host middle after : Host World} {high low : BitVec 16}
    (first : map.readWord space address host = .ok high middle)
    (second : map.readWord space (address + 2) middle = .ok low after) :
    map.readLong space address host = .ok (high ++ low) after := by
  change EStateM.bind (map.readWord space address) _ host = _
  unfold EStateM.bind
  rw [first]
  change EStateM.bind (map.readWord space (address + 2)) _ middle = _
  unfold EStateM.bind
  rw [second]
  rfl

theorem readLong_words {host after : Host World} {value : BitVec 32}
    (h : map.readLong space address host = .ok value after) :
    ∃ high low middle, map.readWord space address host = .ok high middle ∧
      map.readWord space (address + 2) middle = .ok low after ∧ value = high ++ low := by
  change EStateM.bind (map.readWord space address) _ host = _ at h
  unfold EStateM.bind at h
  cases first : map.readWord space address host with
  | error e middle =>
    rw [first] at h
    cases h
  | ok high middle =>
    rw [first] at h
    change EStateM.bind (map.readWord space (address + 2)) _ middle = _ at h
    unfold EStateM.bind at h
    cases second : map.readWord space (address + 2) middle with
    | error e last =>
      rw [second] at h
      cases h
    | ok low last =>
      rw [second] at h
      cases h
      exact ⟨high, low, middle, rfl, second, rfl⟩

theorem readLong_program_words (program : space.isProgram = true) {host after : Host World}
    {value : BitVec 32} (h : map.readLong space address host = .ok value after) :
    ∃ high low, map.readWord space address host = .ok high host ∧
      map.readWord space (address + 2) host = .ok low host ∧ value = high ++ low := by
  obtain ⟨high, low, middle, readHigh, readLow, same⟩ := readLong_words h
  have first : map.readWord space address host = .ok high host :=
    readWord_program_of_kept program readHigh fun _ _ => rfl
  have middle : middle = host := by
    rw [readHigh] at first
    cases first
    rfl
  rw [middle] at readLow
  have second : map.readWord space (address + 2) host = .ok low host :=
    readWord_program_of_kept program readLow fun _ _ => rfl
  exact ⟨high, low, first, second, same⟩

end MemoryMap

end MC68000
