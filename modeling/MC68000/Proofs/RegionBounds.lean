import MC68000.Proofs.RamViews

set_option autoImplicit false

namespace MC68000

variable {World : Type}

namespace Ram

variable {ram : Ram} {c : ByteCell}

theorem hasByte_iff : ram.HasByte c ↔ ∃ value, ram.byteAt c = some value := by
  constructor
  · intro inside
    obtain ⟨bytes, found, small⟩ := exists_of_lt_length inside
    refine ⟨bytes[c.offset], ?_⟩
    rw [byteAt, byte?, found, Option.bind_some]
    exact Array.getElem?_eq_getElem small
  · rintro ⟨value, found⟩
    rw [byteAt, byte?] at found
    obtain ⟨bytes, exists', byte⟩ := Option.bind_eq_some_iff.mp found
    obtain ⟨small, -⟩ := Array.getElem?_eq_some_iff.mp byte
    rw [HasByte, length, exists']
    exact small

/-- A word whose second byte lies past the end of its buffer is not there. -/
theorem word?_of_not_hasByte (outside : ¬ram.HasByte c.next) :
    ram.word? c.buffer c.offset = none := by
  have missing : ram.byteAt c.next = none := by
    rw [Option.eq_none_iff_forall_ne_some]
    exact fun value found => outside (hasByte_iff.mpr ⟨value, found⟩)
  rw [word?_eq_bytes, missing]
  cases ram.byteAt c <;> rfl

end Ram

namespace ProgramRegion

/-- The byte that an address in the region leads to. -/
def cell (region : ProgramRegion) (address : BitVec 32) : ByteCell :=
  ⟨region.buffer, region.range.offset address⟩

/-- Some address in the region leads to the byte. -/
def Covers (region : ProgramRegion) (c : ByteCell) : Prop :=
  ∃ address, region.range.contains address = true ∧ region.cell address = c

/-- A word begins at the last address of the region, and the buffer has a byte behind it. -/
def Overhangs (region : ProgramRegion) (address : BitVec 32) (ram : Ram) : Prop :=
  address = region.range.high ∧ ram.HasByte (region.cell address).next

variable {region : ProgramRegion} {address : BitVec 32}

theorem covers_cell (inside : region.range.contains address = true) :
    region.Covers (region.cell address) := ⟨address, inside, rfl⟩

/-- The byte behind that of an address in the region is covered, unless the address is the last one. -/
theorem covers_next_iff (inside : region.range.contains address = true) :
    region.Covers (region.cell address).next ↔ address ≠ region.range.high := by
  have bounds := AddressRange.contains_iff.mp inside
  have limit := region.range.high.isLt
  constructor
  · rintro ⟨next, insideNext, leads⟩ last
    have boundsNext := AddressRange.contains_iff.mp insideNext
    have behind : (next - region.range.low).toNat = (address - region.range.low).toNat + 1 :=
      congrArg ByteCell.offset leads
    rw [BitVec.toNat_sub_of_le (BitVec.le_def.mpr boundsNext.1),
      BitVec.toNat_sub_of_le (BitVec.le_def.mpr bounds.1)] at behind
    rw [last] at behind bounds
    omega
  · intro before
    have less : address.toNat < region.range.high.toNat := by
      have differ : address.toNat ≠ region.range.high.toNat :=
        fun same => before (BitVec.eq_of_toNat_eq same)
      omega
    have next : (address + 1).toNat = address.toNat + 1 := by
      rw [BitVec.toNat_add, show (1 : BitVec 32).toNat = 1 from rfl]
      omega
    refine ⟨address + 1, AddressRange.contains_iff.mpr (by omega), ?_⟩
    simp only [cell, ByteCell.next, ByteCell.mk.injEq, true_and, AddressRange.offset]
    rw [BitVec.toNat_sub_of_le (BitVec.le_def.mpr (by omega)),
      BitVec.toNat_sub_of_le (BitVec.le_def.mpr bounds.1)]
    omega

/-- A word that does not overhang lies in the region as soon as its second byte lies in the buffer. -/
theorem covers_next_of_hasByte {ram : Ram} (inside : region.range.contains address = true)
    (fits : ¬region.Overhangs address ram) (stored : ram.HasByte (region.cell address).next) :
    region.Covers (region.cell address).next :=
  (covers_next_iff inside).mpr fun last => fits ⟨last, stored⟩

end ProgramRegion

def Region.buffer? {Device : Type} : Region Device → Option ProgramRegion
  | ⟨range, .buffer id⟩ => some ⟨range, id⟩
  | ⟨_, .device _⟩ => none

theorem Region.eq_data_of_buffer? {Device : Type} {region : Region Device} {buffer : ProgramRegion}
    (h : region.buffer? = some buffer) : region = buffer.data := by
  obtain ⟨range, target⟩ := region
  cases target with
  | buffer id => cases h; rfl
  | device _ => cases h

theorem Region.contains_of_find? {Device : Type} {regions : List (Region Device)}
    {address : BitVec 32} {region : Region Device} (h : find? regions address = some region) :
    region.range.contains address = true :=
  List.find?_some (p := fun r : Region Device => r.range.contains address) h

namespace MemoryMap

/-- The buffer region that serves the words read from a space at an address. -/
def wordSource? (map : MemoryMap World) (space : AddressSpace) (address : BitVec 32) :
    Option ProgramRegion :=
  if space.isProgram then
    (map.table space).fetch.find? fun region => region.range.contains (map.masked address)
  else (Region.find? (map.table space).readWord (map.masked address)).bind Region.buffer?

/-- The buffer region that serves the words written to a space at an address. -/
def wordTarget? (map : MemoryMap World) (space : AddressSpace) (address : BitVec 32) :
    Option ProgramRegion :=
  (Region.find? (map.table space).writeWord (map.masked address)).bind Region.buffer?

/-- A word is read from two bytes that have their addresses in a region. Where the second is none of the
region, or lies past the end of the buffer, the read is one that no region serves. -/
structure ReadsWithin (map : MemoryMap World) (space : AddressSpace) (address : BitVec 32)
    (region : ProgramRegion) (host : Host World) : Prop where
  first : region.Covers (region.cell (map.masked address))
  served : region.Covers (region.cell (map.masked address)).next →
    host.ram.HasByte (region.cell (map.masked address)).next →
    ∃ high low, host.ram.byteAt (region.cell (map.masked address)) = some high ∧
      host.ram.byteAt (region.cell (map.masked address)).next = some low ∧
      map.peekWord space address host = (some (high ++ low), host) ∧
      map.readWord space address host = .ok (high ++ low) host
  missed : ¬(region.Covers (region.cell (map.masked address)).next ∧
      host.ram.HasByte (region.cell (map.masked address)).next) →
    map.peekWord space address host = (none, host) ∧
      map.readWord space address host =
        map.miss space address false (fun fill => fill ++ fill) host

/-- A word is written to two bytes that have their addresses in a region, and to nothing else. Where the
second is none of the region, or lies past the end of the buffer, the write is one that no region serves,
and nothing changes. -/
structure WritesWithin (map : MemoryMap World) (space : AddressSpace) (address : BitVec 32)
    (region : ProgramRegion) (value : BitVec 16) (host : Host World) : Prop where
  first : region.Covers (region.cell (map.masked address))
  served : region.Covers (region.cell (map.masked address)).next →
    host.ram.HasByte (region.cell (map.masked address)).next →
    ∃ after, map.writeWord space address value host = .ok () after ∧
      after.ram.byteAt (region.cell (map.masked address)) = some (value.extractLsb' 8 8) ∧
      after.ram.byteAt (region.cell (map.masked address)).next = some (value.extractLsb' 0 8) ∧
      Host.ChangedOnly [region.cell (map.masked address), (region.cell (map.masked address)).next]
        host after
  missed : ¬(region.Covers (region.cell (map.masked address)).next ∧
      host.ram.HasByte (region.cell (map.masked address)).next) →
    map.writeWord space address value host = map.miss space address true (fun _ => ()) host ∧
      finalState (map.writeWord space address value host) = host

variable {map : MemoryMap World} {space : AddressSpace} {address : BitVec 32}
  {region : ProgramRegion} {host : Host World}

theorem contains_of_wordSource? (h : map.wordSource? space address = some region) :
    region.range.contains (map.masked address) = true := by
  unfold wordSource? at h
  split at h
  · exact List.find?_some (p := fun r : ProgramRegion => r.range.contains (map.masked address)) h
  · obtain ⟨served, found, buffer⟩ := Option.bind_eq_some_iff.mp h
    have inside := Region.contains_of_find? found
    rwa [Region.eq_data_of_buffer? buffer] at inside

theorem contains_of_wordTarget? (h : map.wordTarget? space address = some region) :
    region.range.contains (map.masked address) = true := by
  obtain ⟨served, found, buffer⟩ := Option.bind_eq_some_iff.mp h
  have inside := Region.contains_of_find? found
  rwa [Region.eq_data_of_buffer? buffer] at inside

/-- A word that a buffer region serves is looked up in the buffer, whatever the bounds of the region. -/
theorem peekWord_of_wordSource? (h : map.wordSource? space address = some region)
    (host : Host World) : map.peekWord space address host =
      (host.ram.word? region.buffer (region.range.offset (map.masked address)), host) := by
  unfold wordSource? at h
  unfold peekWord
  dsimp only
  split at h
  next program =>
    rw [if_pos program, RegionTable.fetchWord, h]
  next data =>
    obtain ⟨served, found, buffer⟩ := Option.bind_eq_some_iff.mp h
    rw [if_neg data, RegionTable.dataWord, found, Region.eq_data_of_buffer? buffer]
    rfl

/-- A word that a buffer region serves is stored in the buffer, whatever the bounds of the region. -/
theorem putWord_of_wordTarget? (h : map.wordTarget? space address = some region)
    (value : BitVec 16) (host : Host World) :
    (map.table space).putWord (map.masked address) value host =
      host.storeWord region.buffer (region.range.offset (map.masked address)) value := by
  obtain ⟨served, found, buffer⟩ := Option.bind_eq_some_iff.mp h
  rw [RegionTable.putWord, found, Region.eq_data_of_buffer? buffer]
  rfl

theorem readWord_of_hasByte (h : map.wordSource? space address = some region)
    (stored : host.ram.HasByte (region.cell (map.masked address)).next) :
    ∃ high low, host.ram.byteAt (region.cell (map.masked address)) = some high ∧
      host.ram.byteAt (region.cell (map.masked address)).next = some low ∧
      map.peekWord space address host = (some (high ++ low), host) ∧
      map.readWord space address host = .ok (high ++ low) host := by
  have before : host.ram.HasByte (region.cell (map.masked address)) := Nat.lt_of_succ_lt stored
  obtain ⟨high, first⟩ := Ram.hasByte_iff.mp before
  obtain ⟨low, second⟩ := Ram.hasByte_iff.mp stored
  have word := host.ram.word?_eq_bytes (region.cell (map.masked address))
  simp only [first, second] at word
  have peek : map.peekWord space address host = (some (high ++ low), host) :=
    (peekWord_of_wordSource? h host).trans (congrArg (·, host) word)
  exact ⟨high, low, first, second, peek, readWord_of_peekWord peek⟩

theorem readWord_of_not_hasByte (h : map.wordSource? space address = some region)
    (short : ¬host.ram.HasByte (region.cell (map.masked address)).next) :
    map.peekWord space address host = (none, host) ∧ map.readWord space address host =
      map.miss space address false (fun fill => fill ++ fill) host := by
  have peek : map.peekWord space address host = (none, host) :=
    (peekWord_of_wordSource? h host).trans (congrArg (·, host) (Ram.word?_of_not_hasByte short))
  refine ⟨peek, ?_⟩
  simp only [readWord, peek]

theorem writeWord_of_hasByte (h : map.wordTarget? space address = some region)
    (stored : host.ram.HasByte (region.cell (map.masked address)).next) (value : BitVec 16) :
    ∃ after, map.writeWord space address value host = .ok () after ∧
      after.ram.byteAt (region.cell (map.masked address)) = some (value.extractLsb' 8 8) ∧
      after.ram.byteAt (region.cell (map.masked address)).next = some (value.extractLsb' 0 8) ∧
      Host.ChangedOnly [region.cell (map.masked address), (region.cell (map.masked address)).next]
        host after := by
  have fits : region.range.offset (map.masked address) + 1 < host.ram.length region.buffer := stored
  refine ⟨{ host with ram := host.ram.putHalves (region.cell (map.masked address)) value },
    ?_, Ram.byteAt_putHalves_high stored value, Ram.byteAt_putHalves_low stored value, ?_⟩
  · simp only [writeWord, putWord_of_wordTarget? h, Host.storeWord, Ram.storeWord, if_pos fits]
    rfl
  · refine ⟨fun d elsewhere => ?_, rfl, rfl⟩
    simp only [List.mem_cons, List.not_mem_nil, or_false, not_or] at elsewhere
    exact Ram.byteAt_putHalves_of_ne elsewhere.1 elsewhere.2 host.ram value

theorem writeWord_of_not_hasByte (h : map.wordTarget? space address = some region)
    (short : ¬host.ram.HasByte (region.cell (map.masked address)).next) (value : BitVec 16) :
    map.writeWord space address value host = map.miss space address true (fun _ => ()) host := by
  have misfits : ¬region.range.offset (map.masked address) + 1 < host.ram.length region.buffer :=
    short
  simp only [writeWord, putWord_of_wordTarget? h, Host.storeWord, Ram.storeWord, if_neg misfits]

theorem readsWithin (h : map.wordSource? space address = some region)
    (fits : ¬region.Overhangs (map.masked address) host.ram) :
    map.ReadsWithin space address region host := by
  have inside := contains_of_wordSource? h
  refine ⟨ProgramRegion.covers_cell inside, fun _ stored => readWord_of_hasByte h stored, ?_⟩
  intro missing
  apply readWord_of_not_hasByte h
  exact fun stored => missing ⟨ProgramRegion.covers_next_of_hasByte inside fits stored, stored⟩

theorem writesWithin (h : map.wordTarget? space address = some region)
    (fits : ¬region.Overhangs (map.masked address) host.ram) (value : BitVec 16) :
    map.WritesWithin space address region value host := by
  have inside := contains_of_wordTarget? h
  refine ⟨ProgramRegion.covers_cell inside, fun _ stored => writeWord_of_hasByte h stored value, ?_⟩
  intro missing
  have missed := writeWord_of_not_hasByte h
    (fun stored => missing ⟨ProgramRegion.covers_next_of_hasByte inside fits stored, stored⟩) value
  refine ⟨missed, ?_⟩
  rw [missed, final_miss]

/-- On a bus where unmapped accesses fail, the words that overhang are the only ones that a region reads
from beyond its bounds. -/
theorem readsWithin_iff (h : map.wordSource? space address = some region)
    (unmapped : map.config.unmapped = .busError) :
    map.ReadsWithin space address region host ↔
      ¬region.Overhangs (map.masked address) host.ram := by
  refine ⟨fun within overhangs => ?_, readsWithin h⟩
  obtain ⟨last, stored⟩ := overhangs
  have outside := mt (ProgramRegion.covers_next_iff (contains_of_wordSource? h)).mp
    (not_not_intro last)
  have missed := (within.missed fun both => outside both.1).2
  obtain ⟨high, low, -, -, -, read⟩ := readWord_of_hasByte h stored
  rw [read, miss, unmapped] at missed
  cases missed

/-- On a bus where unmapped accesses fail, the words that overhang are the only ones that a region writes
beyond its bounds. -/
theorem writesWithin_iff (h : map.wordTarget? space address = some region)
    (unmapped : map.config.unmapped = .busError) (value : BitVec 16) :
    map.WritesWithin space address region value host ↔
      ¬region.Overhangs (map.masked address) host.ram := by
  refine ⟨fun within overhangs => ?_, fun fits => writesWithin h fits value⟩
  obtain ⟨last, stored⟩ := overhangs
  have outside := mt (ProgramRegion.covers_next_iff (contains_of_wordTarget? h)).mp
    (not_not_intro last)
  have missed := (within.missed fun both => outside both.1).1
  obtain ⟨after, written, -⟩ := writeWord_of_hasByte h stored value
  rw [written, miss, unmapped] at missed
  cases missed

/-- Whatever the regions, their bounds and the lengths of their buffers, a word that a buffer region serves is
read from, or written to, two bytes that have their addresses in the region, and where the second is
not there the access is one that no region serves and changes nothing. The exception is a word that begins
at the last address of its region where the buffer goes on behind it. -/
theorem words_within_regions (map : MemoryMap World) (space : AddressSpace) (address : BitVec 32)
    (host : Host World) :
    (∀ region, map.wordSource? space address = some region →
      ¬region.Overhangs (map.masked address) host.ram →
        map.ReadsWithin space address region host) ∧
    ∀ region, map.wordTarget? space address = some region →
      ¬region.Overhangs (map.masked address) host.ram → ∀ value,
        map.WritesWithin space address region value host :=
  ⟨fun _ => readsWithin, fun _ => writesWithin⟩

/-- A region of five addresses before a buffer of sixteen bytes. -/
def evenEnd : MemoryMap Unit := (empty .standard).mapRam ⟨0, 4⟩ 0

def sixteenBytes : Host Unit :=
  ⟨#[#[0, 1, 2, 3, 4, 5, 6, 7, 8, 9, 10, 11, 12, 13, 14, 15]], .none, ()⟩

/-- The word at address 2 takes the bytes at 2 and 3, and the region ends behind them. -/
theorem words_within_regions_inner :
    evenEnd.ReadsWithin .userProgram 2 ⟨⟨0, 4⟩, 0⟩ sixteenBytes ∧
      evenEnd.WritesWithin .supervisorData 2 ⟨⟨0, 4⟩, 0⟩ 0xABCD sixteenBytes := by
  have fits : ¬ProgramRegion.Overhangs ⟨⟨0, 4⟩, 0⟩ (evenEnd.masked 2) sixteenBytes.ram :=
    fun overhangs => absurd overhangs.1 (by decide)
  obtain ⟨reads, -⟩ := words_within_regions evenEnd .userProgram 2 sixteenBytes
  obtain ⟨-, writes⟩ := words_within_regions evenEnd .supervisorData 2 sixteenBytes
  exact ⟨reads _ rfl fits, writes _ rfl fits _⟩

/-- The word at the last address is read from, and written to, the byte of the buffer behind the region, where
a byte access fails. -/
theorem word_beyond_region :
    evenEnd.config.addressMask = BusConfig.standard.addressMask ∧
      (4 : BitVec 32).getLsbD 0 = false ∧
      evenEnd.wordSource? .supervisorData 4 = some ⟨⟨0, 4⟩, 0⟩ ∧
      evenEnd.wordTarget? .supervisorData 4 = some ⟨⟨0, 4⟩, 0⟩ ∧
      evenEnd.readWord .supervisorData 4 sixteenBytes = .ok 0x0405 sixteenBytes ∧
      evenEnd.readByte .supervisorData 5 sixteenBytes =
        .error ⟨5, .supervisorData, false⟩ sixteenBytes ∧
      ¬evenEnd.ReadsWithin .supervisorData 4 ⟨⟨0, 4⟩, 0⟩ sixteenBytes ∧
      ∀ value, ¬evenEnd.WritesWithin .supervisorData 4 ⟨⟨0, 4⟩, 0⟩ value sixteenBytes := by
  have source : evenEnd.wordSource? .supervisorData 4 = some ⟨⟨0, 4⟩, 0⟩ := rfl
  have target : evenEnd.wordTarget? .supervisorData 4 = some ⟨⟨0, 4⟩, 0⟩ := rfl
  have overhangs : ProgramRegion.Overhangs ⟨⟨0, 4⟩, 0⟩ (evenEnd.masked 4) sixteenBytes.ram :=
    ⟨by decide, show 5 < 16 by decide⟩
  refine ⟨rfl, by decide, source, target, rfl, rfl, fun reads => ?_, fun value writes => ?_⟩
  · exact (readsWithin_iff source rfl).mp reads overhangs
  · exact (writesWithin_iff target rfl value).mp writes overhangs

end MemoryMap

end MC68000
