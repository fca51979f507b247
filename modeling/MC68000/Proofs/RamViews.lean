import MC68000.Proofs.Cells

set_option autoImplicit false

namespace MC68000

variable {World : Type}

/-- A byte of a buffer. -/
structure ByteCell where
  buffer : Nat
  offset : Nat
  deriving DecidableEq

def ByteCell.next (c : ByteCell) : ByteCell := ⟨c.buffer, c.offset + 1⟩

theorem ByteCell.next_ne (c : ByteCell) : c.next ≠ c := by
  intro same
  have offsets : c.offset + 1 = c.offset := congrArg ByteCell.offset same
  omega

namespace Ram

def byteAt (ram : Ram) (c : ByteCell) : Option (BitVec 8) := ram.byte? c.buffer c.offset

def putByte (ram : Ram) (c : ByteCell) (value : BitVec 8) : Ram := ram.put c.buffer c.offset value

/-- Replaces the bytes of a word, the high one in a cell and the low one in the next. -/
def putHalves (ram : Ram) (c : ByteCell) (value : BitVec 16) : Ram :=
  (ram.putByte c (value.extractLsb' 8 8)).putByte c.next (value.extractLsb' 0 8)

def HasByte (ram : Ram) (c : ByteCell) : Prop := c.offset < ram.length c.buffer

variable {ram : Ram} {c d : ByteCell}

@[simp] theorem hasByte_putByte (value : BitVec 8) :
    (ram.putByte c value).HasByte d ↔ ram.HasByte d := by
  simp only [HasByte, putByte, length_put]

theorem byteAt_putByte_self (h : ram.HasByte c) (value : BitVec 8) :
    (ram.putByte c value).byteAt c = some value := byte?_put_self value h

theorem byteAt_putByte_of_ne (h : d ≠ c) (ram : Ram) (value : BitVec 8) :
    (ram.putByte c value).byteAt d = ram.byteAt d := by
  apply byte?_put_of_ne
  by_cases same : d.buffer = c.buffer
  · refine .inr fun offsets => h ?_
    cases d
    cases c
    simp_all only
  · exact .inl same

theorem byteAt_putHalves_high (h : ram.HasByte c.next) (value : BitVec 16) :
    (ram.putHalves c value).byteAt c = some (value.extractLsb' 8 8) := by
  have inside : ram.HasByte c := Nat.lt_of_succ_lt h
  rw [putHalves, byteAt_putByte_of_ne c.next_ne.symm, byteAt_putByte_self inside]

theorem byteAt_putHalves_low (h : ram.HasByte c.next) (value : BitVec 16) :
    (ram.putHalves c value).byteAt c.next = some (value.extractLsb' 0 8) := by
  rw [putHalves, byteAt_putByte_self (by rwa [hasByte_putByte])]

theorem byteAt_putHalves_of_ne (high : d ≠ c) (low : d ≠ c.next) (ram : Ram) (value : BitVec 16) :
    (ram.putHalves c value).byteAt d = ram.byteAt d := by
  rw [putHalves, byteAt_putByte_of_ne low, byteAt_putByte_of_ne high]

theorem word?_eq_bytes (ram : Ram) (c : ByteCell) : ram.word? c.buffer c.offset =
    match ram.byteAt c, ram.byteAt c.next with
    | some high, some low => some (high ++ low)
    | _, _ => none := rfl

end Ram

theorem append_halves {n : Nat} (value : BitVec (n + n)) :
    value.extractLsb' n n ++ value.extractLsb' 0 n = value := by
  rw [BitVec.extractLsb'_append_extractLsb'_eq_extractLsb' (by simp)]
  simp

/-- A region begins at an even address and ends at an odd one. -/
def AddressRange.IsAligned (range : AddressRange) : Prop :=
  range.low.getLsbD 0 = false ∧ range.high.getLsbD 0 = true

instance (range : AddressRange) : Decidable range.IsAligned := inferInstanceAs (Decidable (_ ∧ _))

theorem getLsbD_zero_eq (address : BitVec 32) :
    address.getLsbD 0 = decide (address.toNat % 2 = 1) := Nat.testBit_zero address.toNat

theorem toNat_add_one {address : BitVec 32} (even : address.getLsbD 0 = false) :
    (address + 1).toNat = address.toNat + 1 := by
  rw [getLsbD_zero_eq, decide_eq_false_iff_not] at even
  have := address.isLt
  rw [BitVec.toNat_add, show (1 : BitVec 32).toNat = 1 from rfl]
  omega

namespace AddressRange

variable {range : AddressRange} {address : BitVec 32}

theorem contains_iff : range.contains address = true ↔
    range.low.toNat ≤ address.toNat ∧ address.toNat ≤ range.high.toNat := by
  simp only [contains, Bool.and_eq_true, decide_eq_true_eq, BitVec.le_def]

/-- The bytes of an aligned word lie in the same regions. -/
theorem contains_add_one (aligned : range.IsAligned) (even : address.getLsbD 0 = false) :
    range.contains (address + 1) = range.contains address := by
  obtain ⟨low, high⟩ := aligned
  have next := toNat_add_one even
  rw [getLsbD_zero_eq, decide_eq_false_iff_not] at even low
  rw [getLsbD_zero_eq, decide_eq_true_eq] at high
  rw [Bool.eq_iff_iff, contains_iff, contains_iff, next]
  omega

theorem offset_add_one (even : address.getLsbD 0 = false) (inside : range.contains address = true) :
    range.offset (address + 1) = range.offset address + 1 := by
  have next := toNat_add_one even
  obtain ⟨low, high⟩ := contains_iff.mp inside
  have := address.isLt
  have := range.high.isLt
  simp only [offset, BitVec.toNat_sub, next]
  omega

end AddressRange

namespace ProgramRegion

/-- The byte that an address leads to: its distance from the low end of the first region that covers it. -/
def cell? (regions : List ProgramRegion) (address : BitVec 32) : Option ByteCell :=
  (regions.find? fun region => region.range.contains address).map fun region =>
    ⟨region.buffer, region.range.offset address⟩

theorem cell?_add_one {regions : List ProgramRegion} {address : BitVec 32}
    (aligned : ∀ region ∈ regions, region.range.IsAligned) (even : address.getLsbD 0 = false) :
    cell? regions (address + 1) = (cell? regions address).map ByteCell.next := by
  induction regions with
  | nil => rfl
  | cons region rest ih =>
    have same := AddressRange.contains_add_one (aligned region List.mem_cons_self) even
    by_cases inside : region.range.contains address = true
    · simp only [cell?, List.find?_cons, same, inside, Option.map_some, ByteCell.next,
        AddressRange.offset_add_one even inside]
    · have later := ih fun r member => aligned r (List.mem_cons_of_mem _ member)
      rw [Bool.not_eq_true] at inside
      simpa only [cell?, List.find?_cons, same, inside] using later

def data {Device : Type} (region : ProgramRegion) : Region Device :=
  ⟨region.range, .buffer region.buffer⟩

end ProgramRegion

namespace RegionTable

/-- The table in which all kinds of access find the same buffers. -/
def ofBuffers (regions : List ProgramRegion) : RegionTable World :=
  ⟨regions, regions.map ProgramRegion.data, regions.map ProgramRegion.data, regions.map ProgramRegion.data,
    regions.map ProgramRegion.data⟩

theorem mapRam_ofBuffers (regions : List ProgramRegion) (range : AddressRange) (buffer : Nat) :
    (ofBuffers regions : RegionTable World).mapRam range buffer =
      ofBuffers (regions ++ [⟨range, buffer⟩]) := by
  simp only [ofBuffers, mapRam, mapRom, List.map_append, List.map_cons, List.map_nil,
    ProgramRegion.data]

end RegionTable

theorem Region.find?_data {Device : Type} (regions : List ProgramRegion) (address : BitVec 32) :
    Region.find? (regions.map ProgramRegion.data : List (Region Device)) address =
      (regions.find? fun region => region.range.contains address).map ProgramRegion.data := by
  rw [Region.find?, List.find?_map]
  rfl

namespace RegionTable

open ProgramRegion

variable (regions : List ProgramRegion) (address : BitVec 32) (host : Host World)

theorem fetchByte_ofBuffers (ram : Ram) :
    (ofBuffers regions : RegionTable World).fetchByte address ram =
      (cell? regions address).bind ram.byteAt := by
  simp only [fetchByte, ofBuffers, cell?]
  cases regions.find? fun region => region.range.contains address <;> rfl

theorem fetchWord_ofBuffers (ram : Ram) :
    (ofBuffers regions : RegionTable World).fetchWord address ram =
      (cell? regions address).bind fun c => ram.word? c.buffer c.offset := by
  simp only [fetchWord, ofBuffers, cell?]
  cases regions.find? fun region => region.range.contains address <;> rfl

theorem dataByte_ofBuffers : (ofBuffers regions).dataByte address host =
    ((cell? regions address).bind host.ram.byteAt, host) := by
  simp only [dataByte, ofBuffers, Region.find?_data, cell?]
  cases regions.find? fun region => region.range.contains address <;> rfl

theorem dataWord_ofBuffers : (ofBuffers regions).dataWord address host =
    ((cell? regions address).bind fun c => host.ram.word? c.buffer c.offset, host) := by
  simp only [dataWord, ofBuffers, Region.find?_data, cell?]
  cases regions.find? fun region => region.range.contains address <;> rfl

theorem putByte_ofBuffers (value : BitVec 8) : (ofBuffers regions).putByte address value host =
    match cell? regions address with
    | none => (false, host)
    | some c => host.storeByte c.buffer c.offset value := by
  simp only [putByte, ofBuffers, Region.find?_data, cell?]
  cases regions.find? fun region => region.range.contains address <;> rfl

theorem putWord_ofBuffers (value : BitVec 16) : (ofBuffers regions).putWord address value host =
    match cell? regions address with
    | none => (false, host)
    | some c => host.storeWord c.buffer c.offset value := by
  simp only [putWord, ofBuffers, Region.find?_data, cell?]
  cases regions.find? fun region => region.range.contains address <;> rfl

end RegionTable

namespace MemoryMap

/-- Maps buffers into both privilege levels, one region after the other. -/
def mapBuffers (map : MemoryMap World) (regions : List ProgramRegion) : MemoryMap World :=
  regions.foldl (fun map region => map.mapRam region.range region.buffer) map

/-- Each region goes to the end of all ten lists. -/
theorem mapBuffers_ofBuffers (before regions : List ProgramRegion) (config : BusConfig) :
    (⟨.ofBuffers before, .ofBuffers before, config⟩ : MemoryMap World).mapBuffers regions =
      ⟨.ofBuffers (before ++ regions), .ofBuffers (before ++ regions), config⟩ := by
  induction regions generalizing before with
  | nil => simp only [mapBuffers, List.foldl_nil, List.append_nil]
  | cons region rest ih =>
    have rest := ih (before ++ [region])
    simp only [mapBuffers, List.foldl_cons, mapRam, RegionTable.mapRam_ofBuffers] at rest ⊢
    rw [rest, List.append_assoc, List.singleton_append]

/-- The memory that consists of these buffers. -/
def ofBuffers (config : BusConfig) (regions : List ProgramRegion) : MemoryMap World :=
  (empty config).mapBuffers regions

theorem ofBuffers_eq (config : BusConfig) (regions : List ProgramRegion) :
    (ofBuffers config regions : MemoryMap World) =
      ⟨.ofBuffers regions, .ofBuffers regions, config⟩ := mapBuffers_ofBuffers [] regions config

end MemoryMap

/-- Buffers on a bus that has at least two address lines and on which unmapped accesses fail. Every region
begins at an even address and ends at an odd one. -/
structure RamLayout (config : BusConfig) (regions : List ProgramRegion) : Prop where
  unmapped : config.unmapped = .busError
  lines : ∃ k, 2 ≤ k ∧ config.addressMask.toNat + 1 = 1 <<< k
  aligned : ∀ region ∈ regions, region.range.IsAligned

namespace RamLayout

variable {config : BusConfig} {regions : List ProgramRegion} {address : BitVec 32}

theorem mask_odd (layout : RamLayout config regions) : config.addressMask.getLsbD 0 = true := by
  obtain ⟨k, two, mask⟩ := layout.lines
  obtain ⟨j, rfl⟩ := Nat.exists_eq_add_of_le two
  rw [Nat.shiftLeft_eq, Nat.one_mul, Nat.pow_add] at mask
  rw [getLsbD_zero_eq, decide_eq_true_eq]
  omega

theorem masked_even (even : address.getLsbD 0 = false) :
    (address &&& config.addressMask).getLsbD 0 = false := by
  rw [BitVec.getLsbD_and, even, Bool.false_and]

theorem masked_add_one (layout : RamLayout config regions) (even : address.getLsbD 0 = false) :
    (address + 1) &&& config.addressMask = (address &&& config.addressMask) + 1 := by
  have next (x : BitVec 32) (even : x.getLsbD 0 = false) : x + 1 = x ||| 1 := by
    apply BitVec.add_eq_or_of_and_eq_zero
    apply BitVec.eq_of_getLsbD_eq
    intro i _
    by_cases lowest : i = 0
    · rw [lowest, BitVec.getLsbD_and, even, Bool.false_and, BitVec.getLsbD_zero]
    · simp [lowest]
  rw [next address even, next _ (masked_even even)]
  apply BitVec.eq_of_getLsbD_eq
  intro i _
  by_cases lowest : i = 0
  · simp [lowest, layout.mask_odd]
  · simp [lowest]

end RamLayout

/-- The byte that an address leads to, once the lines that do not exist are masked off. -/
def BusConfig.cell? (config : BusConfig) (regions : List ProgramRegion) (address : BitVec 32) :
    Option ByteCell := ProgramRegion.cell? regions (address &&& config.addressMask)

theorem RamLayout.cell?_add_one {config : BusConfig} {regions : List ProgramRegion}
    {address : BitVec 32} (layout : RamLayout config regions) (even : address.getLsbD 0 = false) :
    config.cell? regions (address + 1) = (config.cell? regions address).map ByteCell.next := by
  simp only [BusConfig.cell?, layout.masked_add_one even]
  exact ProgramRegion.cell?_add_one layout.aligned (masked_even even)

namespace MemoryMap

variable {config : BusConfig} {regions : List ProgramRegion} {address : BitVec 32} {host : Host World}

theorem table_ofBuffers (space : AddressSpace) :
    (ofBuffers config regions : MemoryMap World).table space = .ofBuffers regions := by
  rw [ofBuffers_eq]
  cases space <;> rfl

theorem masked_ofBuffers :
    (ofBuffers config regions : MemoryMap World).masked address = address &&& config.addressMask := by
  rw [ofBuffers_eq]
  rfl

theorem miss_ofBuffers {α : Type} (layout : RamLayout config regions) (space : AddressSpace)
    (write : Bool) (shown : BitVec 8 → α) :
    (ofBuffers config regions).miss space address write shown host =
      .error ⟨address &&& config.addressMask, space, write⟩ host := by
  rw [ofBuffers_eq, miss]
  simp only [layout.unmapped]
  rfl

theorem peekByte_ofBuffers (space : AddressSpace) :
    (ofBuffers config regions).peekByte space address host =
      ((config.cell? regions address).bind host.ram.byteAt, host) := by
  simp only [peekByte, table_ofBuffers, masked_ofBuffers, RegionTable.fetchByte_ofBuffers,
    RegionTable.dataByte_ofBuffers, ite_self, BusConfig.cell?]

theorem peekWord_ofBuffers (space : AddressSpace) :
    (ofBuffers config regions).peekWord space address host =
      ((config.cell? regions address).bind fun c => host.ram.word? c.buffer c.offset, host) := by
  simp only [peekWord, table_ofBuffers, masked_ofBuffers, RegionTable.fetchWord_ofBuffers,
    RegionTable.dataWord_ofBuffers, ite_self, BusConfig.cell?]

theorem readByte_of_peekByte {map : MemoryMap World} {space : AddressSpace} {value : BitVec 8}
    (h : map.peekByte space address host = (some value, host)) :
    map.readByte space address host = .ok value host := by
  simp only [readByte, h]

theorem readWord_of_peekWord {map : MemoryMap World} {space : AddressSpace} {value : BitVec 16}
    (h : map.peekWord space address host = (some value, host)) :
    map.readWord space address host = .ok value host := by
  simp only [readWord, h]

/-- A byte is stored in the cell of its address, or the write fails and changes nothing. -/
theorem writeByte_cases (layout : RamLayout config regions) (space : AddressSpace)
    (address : BitVec 32) (value : BitVec 8) (host : Host World) :
    (∃ c, config.cell? regions address = some c ∧ host.ram.HasByte c ∧
      (ofBuffers config regions).writeByte space address value host =
        .ok () { host with ram := host.ram.putByte c value }) ∨
    (ofBuffers config regions).writeByte space address value host =
      .error ⟨address &&& config.addressMask, space, true⟩ host := by
  simp only [writeByte, table_ofBuffers, masked_ofBuffers, RegionTable.putByte_ofBuffers,
    BusConfig.cell?]
  cases ProgramRegion.cell? regions (address &&& config.addressMask) with
  | none => exact .inr (miss_ofBuffers layout ..)
  | some c =>
    by_cases inside : c.offset < host.ram.length c.buffer
    · refine .inl ⟨c, rfl, inside, ?_⟩
      simp only [Host.storeByte, Ram.storeByte, if_pos inside]
      rfl
    · refine .inr ?_
      simp only [Host.storeByte, Ram.storeByte, if_neg inside]
      exact miss_ofBuffers layout ..

/-- A word is stored in the cell of its address and the next one, or the write fails and changes nothing. -/
theorem writeWord_cases (layout : RamLayout config regions) (space : AddressSpace)
    (address : BitVec 32) (value : BitVec 16) (host : Host World) :
    (∃ c, config.cell? regions address = some c ∧ host.ram.HasByte c.next ∧
      (ofBuffers config regions).writeWord space address value host =
        .ok () { host with ram := host.ram.putHalves c value }) ∨
    (ofBuffers config regions).writeWord space address value host =
      .error ⟨address &&& config.addressMask, space, true⟩ host := by
  simp only [writeWord, table_ofBuffers, masked_ofBuffers, RegionTable.putWord_ofBuffers,
    BusConfig.cell?]
  cases ProgramRegion.cell? regions (address &&& config.addressMask) with
  | none => exact .inr (miss_ofBuffers layout ..)
  | some c =>
    by_cases inside : c.offset + 1 < host.ram.length c.buffer
    · refine .inl ⟨c, rfl, inside, ?_⟩
      simp only [Host.storeWord, Ram.storeWord, if_pos inside]
      rfl
    · refine .inr ?_
      simp only [Host.storeWord, Ram.storeWord, if_neg inside]
      exact miss_ofBuffers layout ..

/-- All views show a byte at an address. Where a word can be read or looked at that the byte is part of, it has
the byte in it. -/
structure ShowsByte (map : MemoryMap World) (address : BitVec 32) (value : BitVec 8)
    (host : Host World) : Prop where
  read : ∀ space, map.readByte space address host = .ok value host
  high : address.getLsbD 0 = false → ∀ space word after,
    map.readWord space address host = .ok word after → word.extractLsb' 8 8 = value
  low : address.getLsbD 0 = true → ∀ space word after,
    map.readWord space (address - 1) host = .ok word after → word.extractLsb' 0 8 = value
  peekHigh : address.getLsbD 0 = false → ∀ space word after,
    map.peekWord space address host = (some word, after) → word.extractLsb' 8 8 = value
  peekLow : address.getLsbD 0 = true → ∀ space word after,
    map.peekWord space (address - 1) host = (some word, after) → word.extractLsb' 0 8 = value

/-- All views show a word at an address. -/
structure ShowsWord (map : MemoryMap World) (address : BitVec 32) (value : BitVec 16)
    (host : Host World) : Prop where
  read : ∀ space, map.readWord space address host = .ok value host
  peek : ∀ space, map.peekWord space address host = (some value, host)
  high : ∀ space, map.readByte space address host = .ok (value.extractLsb' 8 8) host
  low : ∀ space, map.readByte space (address + 1) host = .ok (value.extractLsb' 0 8) host

/-- All views show a long at an address. -/
structure ShowsLong (map : MemoryMap World) (address : BitVec 32) (value : BitVec 32)
    (host : Host World) : Prop where
  read : ∀ space, map.readLong space address host = .ok value host
  peek : ∀ space, map.peekLong space address host = (some value, host)
  high : map.ShowsWord address (value.extractLsb' 16 16) host
  low : map.ShowsWord (address + 2) (value.extractLsb' 0 16) host

variable {space : AddressSpace} {value : BitVec 16} {c : ByteCell}

/-- The two bytes of a word decide what all views of it show. -/
theorem showsWord_of_bytes (layout : RamLayout config regions) (even : address.getLsbD 0 = false)
    (found : config.cell? regions address = some c)
    (high : host.ram.byteAt c = some (value.extractLsb' 8 8))
    (low : host.ram.byteAt c.next = some (value.extractLsb' 0 8)) :
    (ofBuffers config regions).ShowsWord address value host := by
  have next : config.cell? regions (address + 1) = some c.next := by
    rw [layout.cell?_add_one even, found, Option.map_some]
  have word : host.ram.word? c.buffer c.offset = some value := by
    simp only [Ram.word?_eq_bytes, high, low]
    exact congrArg some (append_halves (n := 8) value)
  have peek (space : AddressSpace) :
      (ofBuffers config regions).peekWord space address host = (some value, host) := by
    rw [peekWord_ofBuffers, found, Option.bind_some, word]
  constructor
  case peek => exact peek
  case read => exact fun space => readWord_of_peekWord (peek space)
  case high =>
    intro space
    apply readByte_of_peekByte
    rw [peekByte_ofBuffers, found, Option.bind_some, high]
  case low =>
    intro space
    apply readByte_of_peekByte
    rw [peekByte_ofBuffers, next, Option.bind_some, low]

/-- A word that can be looked at is made of the bytes in two neighbouring cells. -/
theorem bytes_of_peekWord {after : Host World}
    (h : (ofBuffers config regions).peekWord space address host = (some value, after)) :
    ∃ c, config.cell? regions address = some c ∧
      host.ram.byteAt c = some (value.extractLsb' 8 8) ∧
      host.ram.byteAt c.next = some (value.extractLsb' 0 8) := by
  rw [peekWord_ofBuffers] at h
  cases found : config.cell? regions address with
  | none =>
    rw [found] at h
    cases h
  | some c =>
    refine ⟨c, rfl, ?_⟩
    simp only [found, Option.bind_some, Ram.word?_eq_bytes] at h
    cases high : host.ram.byteAt c with
    | none =>
      simp only [high] at h
      cases h
    | some x =>
      cases low : host.ram.byteAt c.next with
      | none =>
        simp only [high, low] at h
        cases h
      | some y =>
        simp only [high, low] at h
        cases h
        rw [BitVec.extractLsb'_append_eq_left, BitVec.extractLsb'_append_eq_right]
        exact ⟨rfl, rfl⟩

/-- Reading a word succeeds only where it can be looked at. -/
theorem peekWord_of_readWord (layout : RamLayout config regions) {after : Host World}
    (h : (ofBuffers config regions).readWord space address host = .ok value after) :
    (ofBuffers config regions).peekWord space address host = (some value, after) := by
  unfold readWord at h
  split at h
  next shown =>
    cases h
    exact shown
  next =>
    rw [miss_ofBuffers layout] at h
    cases h

theorem showsByte_of_byte (layout : RamLayout config regions) {value : BitVec 8}
    (found : config.cell? regions address = some c) (byte : host.ram.byteAt c = some value) :
    (ofBuffers config regions).ShowsByte address value host := by
  have high (space : AddressSpace) (word : BitVec 16) (after : Host World)
      (shown : (ofBuffers config regions).peekWord space address host = (some word, after)) :
      word.extractLsb' 8 8 = value := by
    obtain ⟨d, same, high, _⟩ := bytes_of_peekWord shown
    rw [found, Option.some.injEq] at same
    rw [same, high, Option.some.injEq] at byte
    exact byte
  have low (odd : address.getLsbD 0 = true) (space : AddressSpace) (word : BitVec 16)
      (after : Host World)
      (shown : (ofBuffers config regions).peekWord space (address - 1) host = (some word, after)) :
      word.extractLsb' 0 8 = value := by
    obtain ⟨d, before, _, low⟩ := bytes_of_peekWord shown
    have even : (address - 1).getLsbD 0 = false := by
      rw [getLsbD_zero_eq, decide_eq_true_eq] at odd
      rw [getLsbD_zero_eq, decide_eq_false_iff_not]
      bv_omega
    have same := layout.cell?_add_one even
    rw [BitVec.sub_add_cancel, found, before, Option.map_some, Option.some.injEq] at same
    rw [same, low, Option.some.injEq] at byte
    exact byte
  constructor
  case read =>
    intro space
    apply readByte_of_peekByte
    rw [peekByte_ofBuffers, found, Option.bind_some, byte]
  case peekHigh => exact fun _ => high
  case peekLow => exact low
  case high => exact fun _ _ _ _ read => high _ _ _ (peekWord_of_readWord layout read)
  case low => exact fun odd _ _ _ read => low odd _ _ _ (peekWord_of_readWord layout read)

theorem showsLong_of_words {value : BitVec 32}
    (high : (ofBuffers config regions).ShowsWord address (value.extractLsb' 16 16) host)
    (low : (ofBuffers config regions).ShowsWord (address + 2) (value.extractLsb' 0 16) host) :
    (ofBuffers config regions).ShowsLong address value host := by
  have whole : value.extractLsb' 16 16 ++ value.extractLsb' 0 16 = value :=
    append_halves (n := 16) value
  constructor
  case high => exact high
  case low => exact low
  case read =>
    intro space
    rw [readLong_of_words (high.read space) (low.read space), whole]
  case peek =>
    intro space
    simp only [peekLong, high.peek space, low.peek space, whole]

theorem writeLong_words {map : MemoryMap World} {value : BitVec 32} {after : Host World}
    (h : map.writeLong space address value host = .ok () after) :
    ∃ middle, map.writeWord space address (value.extractLsb' 16 16) host = .ok () middle ∧
      map.writeWord space (address + 2) (value.extractLsb' 0 16) middle = .ok () after := by
  change EStateM.bind (map.writeWord space address _) _ host = _ at h
  unfold EStateM.bind at h
  cases first : map.writeWord space address (value.extractLsb' 16 16) host with
  | error fault failed =>
    rw [first] at h
    cases h
  | ok _ middle =>
    rw [first] at h
    exact ⟨middle, rfl, h⟩

end MemoryMap

/-- The bytes that addresses lead to. -/
def BusConfig.cells (config : BusConfig) (regions : List ProgramRegion)
    (addresses : List (BitVec 32)) : List ByteCell := addresses.filterMap (config.cell? regions)

/-- No byte differs between two hosts but those in the cells, and nothing else of the hosts differs. -/
structure Host.ChangedOnly (cells : List ByteCell) (before after : Host World) : Prop where
  bytes : ∀ c, c ∉ cells → after.ram.byteAt c = before.ram.byteAt c
  control : after.control = before.control
  world : after.world = before.world

namespace RamLayout

open MemoryMap (ofBuffers)

variable {config : BusConfig} {regions : List ProgramRegion} {address : BitVec 32}
  {space : AddressSpace} {host after : Host World}

/-- A byte that is written is shown by all views, and it is the only one that changes. -/
theorem writeByte_shown (layout : RamLayout config regions) {value : BitVec 8}
    (h : (ofBuffers config regions).writeByte space address value host = .ok () after) :
    (ofBuffers config regions).ShowsByte address value after ∧
      Host.ChangedOnly (config.cells regions [address]) host after := by
  rcases MemoryMap.writeByte_cases layout space address value host with
    ⟨c, found, inside, written⟩ | failed
  case inr =>
    rw [failed] at h
    cases h
  case inl =>
    rw [written] at h
    cases h
    constructor
    · exact MemoryMap.showsByte_of_byte layout found (Ram.byteAt_putByte_self inside value)
    · refine ⟨fun d elsewhere => ?_, rfl, rfl⟩
      simp only [BusConfig.cells, List.filterMap_cons, found, List.filterMap_nil,
        List.mem_singleton] at elsewhere
      exact Ram.byteAt_putByte_of_ne elsewhere host.ram value

/-- What a word write that succeeds does, at an even address. -/
theorem writeWord_stored (layout : RamLayout config regions) (even : address.getLsbD 0 = false)
    {value : BitVec 16}
    (h : (ofBuffers config regions).writeWord space address value host = .ok () after) :
    ∃ c, config.cell? regions address = some c ∧ config.cell? regions (address + 1) = some c.next ∧
      host.ram.HasByte c.next ∧ after = { host with ram := host.ram.putHalves c value } := by
  rcases MemoryMap.writeWord_cases layout space address value host with
    ⟨c, found, inside, written⟩ | failed
  case inr =>
    rw [failed] at h
    cases h
  case inl =>
    rw [written] at h
    cases h
    have next := layout.cell?_add_one even
    rw [found, Option.map_some] at next
    exact ⟨c, found, next, inside, rfl⟩

/-- A word that is written is shown by all views, and its bytes are the only ones that change. -/
theorem writeWord_shown (layout : RamLayout config regions) (even : address.getLsbD 0 = false)
    {value : BitVec 16}
    (h : (ofBuffers config regions).writeWord space address value host = .ok () after) :
    (ofBuffers config regions).ShowsWord address value after ∧
      Host.ChangedOnly (config.cells regions [address, address + 1]) host after := by
  obtain ⟨c, found, next, inside, rfl⟩ := layout.writeWord_stored even h
  constructor
  · exact MemoryMap.showsWord_of_bytes layout even found (Ram.byteAt_putHalves_high inside value)
      (Ram.byteAt_putHalves_low inside value)
  · refine ⟨fun d elsewhere => ?_, rfl, rfl⟩
    simp only [BusConfig.cells, List.filterMap_cons, found, next, List.filterMap_nil,
      List.mem_cons, List.not_mem_nil, or_false, not_or] at elsewhere
    exact Ram.byteAt_putHalves_of_ne elsewhere.1 elsewhere.2 host.ram value

/-- A long that is written is shown by all views, unless its halves share a byte, and its bytes are the only
ones that change. -/
theorem writeLong_shown (layout : RamLayout config regions) (even : address.getLsbD 0 = false)
    {value : BitVec 32}
    (h : (ofBuffers config regions).writeLong space address value host = .ok () after)
    (distinct : (config.cells regions [address, address + 1, address + 2, address + 3]).Nodup) :
    (ofBuffers config regions).ShowsLong address value after ∧
      Host.ChangedOnly (config.cells regions [address, address + 1, address + 2, address + 3])
        host after := by
  have even' : (address + 2).getLsbD 0 = false := Exec.even_add even rfl
  obtain ⟨middle, first, second⟩ := MemoryMap.writeLong_words h
  obtain ⟨c, foundHigh, nextHigh, insideHigh, rfl⟩ := layout.writeWord_stored even first
  obtain ⟨d, foundLow, nextLow, insideLow, rfl⟩ := layout.writeWord_stored even' second
  rw [show address + 2 + 1 = address + 3 by bv_omega] at nextLow
  have cells : config.cells regions [address, address + 1, address + 2, address + 3] =
      [c, c.next, d, d.next] := by
    simp only [BusConfig.cells, List.filterMap_cons, foundHigh, nextHigh, foundLow, nextLow,
      List.filterMap_nil]
  rw [cells] at distinct ⊢
  simp only [List.nodup_cons, List.mem_cons, List.not_mem_nil, or_false, not_or] at distinct
  obtain ⟨⟨-, high, highNext⟩, ⟨low, lowNext⟩, -⟩ := distinct
  constructor
  · apply MemoryMap.showsLong_of_words
    · apply MemoryMap.showsWord_of_bytes layout even foundHigh
      · rw [Ram.byteAt_putHalves_of_ne high highNext, Ram.byteAt_putHalves_high insideHigh]
      · rw [Ram.byteAt_putHalves_of_ne low lowNext, Ram.byteAt_putHalves_low insideHigh]
    · exact MemoryMap.showsWord_of_bytes layout even' foundLow
        (Ram.byteAt_putHalves_high insideLow _) (Ram.byteAt_putHalves_low insideLow _)
  · refine ⟨fun e elsewhere => ?_, rfl, rfl⟩
    simp only [List.mem_cons, List.not_mem_nil, or_false, not_or] at elsewhere
    obtain ⟨first, second, third, fourth⟩ := elsewhere
    rw [Ram.byteAt_putHalves_of_ne third fourth, Ram.byteAt_putHalves_of_ne first second]

/-- All views of buffers agree. What a write of a word to an even address, of a byte to any address, or of a
long to an even address stores, words, bytes and longs show in all four spaces, and no other byte changes. A
word or byte write that fails changes nothing. The bytes of the long have to be four different ones. -/
theorem views_agree (layout : RamLayout config regions) (even : address.getLsbD 0 = false)
    (space : AddressSpace) (host : Host World) :
    let map : MemoryMap World := ofBuffers config regions
    (∀ value after, map.writeWord space address value host = .ok () after →
      map.ShowsWord address value after ∧
        Host.ChangedOnly (config.cells regions [address, address + 1]) host after) ∧
    (∀ value fault after, map.writeWord space address value host = .error fault after →
      after = host) ∧
    (∀ place value after, map.writeByte space place value host = .ok () after →
      map.ShowsByte place value after ∧
        Host.ChangedOnly (config.cells regions [place]) host after) ∧
    (∀ place value fault after, map.writeByte space place value host = .error fault after →
      after = host) ∧
    (∀ value after, map.writeLong space address value host = .ok () after →
      (config.cells regions [address, address + 1, address + 2, address + 3]).Nodup →
      map.ShowsLong address value after ∧
        Host.ChangedOnly (config.cells regions [address, address + 1, address + 2, address + 3])
          host after) := by
  intro map
  refine ⟨?word, ?wordFailed, ?byte, ?byteFailed, ?long⟩
  case word => exact fun _ _ written => layout.writeWord_shown even written
  case byte => exact fun _ _ _ written => layout.writeByte_shown written
  case long => exact fun _ _ written distinct => layout.writeLong_shown even written distinct
  case wordFailed =>
    intro value fault after failed
    rcases MemoryMap.writeWord_cases layout space address value host with ⟨_, _, _, ok⟩ | same
    · rw [ok] at failed
      cases failed
    · rw [same] at failed
      cases failed
      rfl
  case byteFailed =>
    intro place value fault after failed
    rcases MemoryMap.writeByte_cases layout space place value host with ⟨_, _, _, ok⟩ | same
    · rw [ok] at failed
      cases failed
    · rw [same] at failed
      cases failed
      rfl

/-- Two overlapping regions: the first one, whose buffer has four bytes, hides the start of the second. -/
theorem views_agree_overlapping :
    let regions : List ProgramRegion := [⟨⟨0x1000, 0x10FF⟩, 0⟩, ⟨⟨0x1000, 0x11FF⟩, 1⟩]
    let map : MemoryMap Unit := ofBuffers .standard regions
    let host : Host Unit := ⟨#[#[1, 2, 3, 4], #[5, 6, 7, 8]], .none, ()⟩
    let word : Host Unit := ⟨#[#[1, 2, 0xAB, 0xCD], #[5, 6, 7, 8]], .none, ()⟩
    let long : Host Unit := ⟨#[#[0x12, 0x34, 0x56, 0x78], #[5, 6, 7, 8]], .none, ()⟩
    RamLayout .standard regions ∧
      map.writeWord .userData 0x1002 0xABCD host = .ok () word ∧
      map.ShowsWord 0x1002 0xABCD word ∧ Host.ChangedOnly [⟨0, 2⟩, ⟨0, 3⟩] host word ∧
      map.writeLong .userData 0x1000 0x12345678 host = .ok () long ∧
      map.ShowsLong 0x1000 0x12345678 long := by
  intro regions map host word long
  have layout : RamLayout .standard regions := ⟨rfl, ⟨24, by decide, by decide⟩, by decide⟩
  have first : (0x1002 : BitVec 32).getLsbD 0 = false := by decide
  have second : (0x1000 : BitVec 32).getLsbD 0 = false := by decide
  obtain ⟨words, -⟩ := layout.views_agree first .userData host
  obtain ⟨-, -, -, -, longs⟩ := layout.views_agree second .userData host
  have wordWritten : map.writeWord .userData 0x1002 0xABCD host = .ok () word := by cbv
  have longWritten : map.writeLong .userData 0x1000 0x12345678 host = .ok () long := by cbv
  obtain ⟨shown, changed⟩ := words 0xABCD word wordWritten
  obtain ⟨shownLong, -⟩ := longs 0x12345678 long longWritten (by decide)
  exact ⟨layout, wordWritten, shown, changed, longWritten, shownLong⟩

end RamLayout

end MC68000
