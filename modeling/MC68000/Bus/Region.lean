import MC68000.Host
import MC68000.Bus.Space

set_option autoImplicit false

namespace MC68000

variable {World : Type}

/-- An inclusive range of addresses. -/
structure AddressRange where
  low : BitVec 32
  high : BitVec 32
  deriving DecidableEq

namespace AddressRange

def contains (range : AddressRange) (address : BitVec 32) : Bool :=
  range.low ≤ address && address ≤ range.high

/-- The distance from the low end. -/
def offset (range : AddressRange) (address : BitVec 32) : Nat := (address - range.low).toNat

end AddressRange

/-- What serves the accesses to a region. -/
inductive RegionTarget (Device : Type) where
  /-- The buffer of this number. -/
  | buffer (id : Nat)
  | device (device : Device)

/-- A range of addresses and what serves it. -/
structure Region (Device : Type) where
  range : AddressRange
  target : RegionTarget Device

/-- A range of program memory, which is always a buffer. -/
structure ProgramRegion where
  range : AddressRange
  buffer : Nat

/-- A device that answers reads of a given width. -/
abbrev Reader (World : Type) (width : Nat) :=
  BitVec 32 → Host World → BitVec width × Host World

/-- A device that takes writes of a given width. -/
abbrev Writer (World : Type) (width : Nat) :=
  BitVec 32 → BitVec width → Host World → Host World

/-- The regions of one privilege level, by kind of access, in the order of registration: the first one
that covers an address serves the access. An access that this region cannot serve is a miss, whatever
later regions cover. -/
structure RegionTable (World : Type) where
  fetch : List ProgramRegion
  readByte : List (Region (Reader World 8))
  readWord : List (Region (Reader World 16))
  writeByte : List (Region (Writer World 8))
  writeWord : List (Region (Writer World 16))

def Region.find? {Device : Type} (regions : List (Region Device)) (address : BitVec 32) :
    Option (Region Device) :=
  regions.find? fun region => region.range.contains address

namespace RegionTable

def empty : RegionTable World := ⟨[], [], [], [], []⟩

/-- Adds a buffer that can be read and executed. -/
def mapRom (table : RegionTable World) (range : AddressRange) (buffer : Nat) : RegionTable World :=
  { table with
    fetch := table.fetch ++ [⟨range, buffer⟩]
    readByte := table.readByte ++ [⟨range, .buffer buffer⟩]
    readWord := table.readWord ++ [⟨range, .buffer buffer⟩] }

/-- Adds a buffer that can be read, executed and written. -/
def mapRam (table : RegionTable World) (range : AddressRange) (buffer : Nat) : RegionTable World :=
  let table := table.mapRom range buffer
  { table with
    writeByte := table.writeByte ++ [⟨range, .buffer buffer⟩]
    writeWord := table.writeWord ++ [⟨range, .buffer buffer⟩] }

/-- Adds a device that takes all data accesses to a range. -/
def mapDevice (table : RegionTable World) (range : AddressRange) (readByte : Reader World 8)
    (readWord : Reader World 16) (writeByte : Writer World 8) (writeWord : Writer World 16) :
    RegionTable World :=
  { table with
    readByte := table.readByte ++ [⟨range, .device readByte⟩]
    readWord := table.readWord ++ [⟨range, .device readWord⟩]
    writeByte := table.writeByte ++ [⟨range, .device writeByte⟩]
    writeWord := table.writeWord ++ [⟨range, .device writeWord⟩] }

def fetchByte (table : RegionTable World) (address : BitVec 32) (ram : Ram) : Option (BitVec 8) :=
  match table.fetch.find? fun region => region.range.contains address with
  | some region => ram.byte? region.buffer (region.range.offset address)
  | none => none

def fetchWord (table : RegionTable World) (address : BitVec 32) (ram : Ram) : Option (BitVec 16) :=
  match table.fetch.find? fun region => region.range.contains address with
  | some region => ram.word? region.buffer (region.range.offset address)
  | none => none

/-- Reads a byte of data, unless no region can serve it. -/
def dataByte (table : RegionTable World) (address : BitVec 32) (host : Host World) :
    Option (BitVec 8) × Host World :=
  match Region.find? table.readByte address with
  | none => (none, host)
  | some ⟨range, .buffer id⟩ => (host.ram.byte? id (range.offset address), host)
  | some ⟨_, .device read⟩ => let (value, host) := read address host; (some value, host)

/-- Reads a word of data, unless no region can serve it. -/
def dataWord (table : RegionTable World) (address : BitVec 32) (host : Host World) :
    Option (BitVec 16) × Host World :=
  match Region.find? table.readWord address with
  | none => (none, host)
  | some ⟨range, .buffer id⟩ => (host.ram.word? id (range.offset address), host)
  | some ⟨_, .device read⟩ => let (value, host) := read address host; (some value, host)

/-- Writes a byte of data and tells whether some region serves it. -/
def putByte (table : RegionTable World) (address : BitVec 32) (value : BitVec 8)
    (host : Host World) : Bool × Host World :=
  match Region.find? table.writeByte address with
  | none => (false, host)
  | some ⟨range, .buffer id⟩ => host.storeByte id (range.offset address) value
  | some ⟨_, .device write⟩ => (true, write address value host)

/-- Writes a word of data and tells whether some region serves it. -/
def putWord (table : RegionTable World) (address : BitVec 32) (value : BitVec 16)
    (host : Host World) : Bool × Host World :=
  match Region.find? table.writeWord address with
  | none => (false, host)
  | some ⟨range, .buffer id⟩ => host.storeWord id (range.offset address) value
  | some ⟨_, .device write⟩ => (true, write address value host)

/-- The number of regions of each kind in one line of text. -/
def text (table : RegionTable World) : String :=
  "AddressSpaceMap \x7b fetch: " ++ toString table.fetch.length
    ++ ", read_byte: " ++ toString table.readByte.length
    ++ ", read_word: " ++ toString table.readWord.length
    ++ ", write_byte: " ++ toString table.writeByte.length
    ++ ", write_word: " ++ toString table.writeWord.length ++ " \x7d"

end RegionTable

end MC68000
