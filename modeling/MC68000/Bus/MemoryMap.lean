import MC68000.Bus.Region

set_option autoImplicit false

namespace MC68000

variable {World : Type}

/-- What becomes of an access that no region serves. -/
inductive Unmapped where
  /-- The access fails. -/
  | busError
  /-- Reads find the fill byte in every lane, and writes are dropped. -/
  | openBus (fill : BitVec 8)
  deriving DecidableEq

/-- The parts of a memory map that are fixed before any region is added. -/
structure BusConfig where
  /-- The address lines that exist. -/
  addressMask : BitVec 32
  unmapped : Unmapped
  deriving DecidableEq

/-- Twenty-four address lines, and bus errors for unmapped addresses. -/
def BusConfig.standard : BusConfig := ⟨0x00FFFFFF, .busError⟩

/-- A failed access. The address is the one that the tables were searched for. -/
structure BusFault where
  address : BitVec 32
  space : AddressSpace
  write : Bool
  deriving DecidableEq

/-- An access to the outside world that may fail. The world is kept where it fails. -/
abbrev Access (World : Type) := EStateM BusFault (Host World)

/-- The region tables of both privilege levels. Every address is masked before the tables are searched.
The bus is 16 bits wide, so a long access is two word accesses, the high word first. -/
structure MemoryMap (World : Type) where
  supervisor : RegionTable World
  user : RegionTable World
  config : BusConfig

namespace MemoryMap

def empty (config : BusConfig) : MemoryMap World := ⟨.empty, .empty, config⟩

/-- Adds one buffer to both privilege levels. -/
def mapRam (map : MemoryMap World) (range : AddressRange) (buffer : Nat) : MemoryMap World :=
  { map with
    supervisor := map.supervisor.mapRam range buffer
    user := map.user.mapRam range buffer }

/-- The regions that serve a space. -/
def table (map : MemoryMap World) (space : AddressSpace) : RegionTable World :=
  if space.isSupervisor then map.supervisor else map.user

/-- The address on the lines that exist. -/
def masked (map : MemoryMap World) (address : BitVec 32) : BitVec 32 :=
  address &&& map.config.addressMask

/-- An access that no region serves: a fault, or the value that an open bus shows. -/
def miss {α : Type} (map : MemoryMap World) (space : AddressSpace) (address : BitVec 32)
    (write : Bool) (shown : BitVec 8 → α) : Access World α :=
  match map.config.unmapped with
  | .busError => throw ⟨map.masked address, space, write⟩
  | .openBus fill => return shown fill

/-- The byte that a region holds, whatever the policy for the others. -/
def peekByte (map : MemoryMap World) (space : AddressSpace) (address : BitVec 32)
    (host : Host World) : Option (BitVec 8) × Host World :=
  let table := map.table space
  if space.isProgram then (table.fetchByte (map.masked address) host.ram, host)
  else table.dataByte (map.masked address) host

/-- The word that a region holds, whatever the policy for the others. -/
def peekWord (map : MemoryMap World) (space : AddressSpace) (address : BitVec 32)
    (host : Host World) : Option (BitVec 16) × Host World :=
  let table := map.table space
  if space.isProgram then (table.fetchWord (map.masked address) host.ram, host)
  else table.dataWord (map.masked address) host

/-- The long that regions hold. The low word is looked at only where the high word is there. -/
def peekLong (map : MemoryMap World) (space : AddressSpace) (address : BitVec 32)
    (host : Host World) : Option (BitVec 32) × Host World :=
  match map.peekWord space address host with
  | (none, host) => (none, host)
  | (some high, host) =>
    match map.peekWord space (address + 2) host with
    | (none, host) => (none, host)
    | (some low, host) => (some (high ++ low), host)

def readByte (map : MemoryMap World) (space : AddressSpace) (address : BitVec 32) :
    Access World (BitVec 8) := fun host =>
  match map.peekByte space address host with
  | (some value, host) => .ok value host
  | (none, host) => map.miss space address false id host

/-- Reads a word, at any address. -/
def readWord (map : MemoryMap World) (space : AddressSpace) (address : BitVec 32) :
    Access World (BitVec 16) := fun host =>
  match map.peekWord space address host with
  | (some value, host) => .ok value host
  | (none, host) => map.miss space address false (fun fill => fill ++ fill) host

def readLong (map : MemoryMap World) (space : AddressSpace) (address : BitVec 32) :
    Access World (BitVec 32) := do
  let high ← map.readWord space address
  let low ← map.readWord space (address + 2)
  return high ++ low

def writeByte (map : MemoryMap World) (space : AddressSpace) (address : BitVec 32)
    (value : BitVec 8) : Access World Unit := fun host =>
  match (map.table space).putByte (map.masked address) value host with
  | (true, host) => .ok () host
  | (false, host) => map.miss space address true (fun _ => ()) host

/-- Writes a word, at any address. -/
def writeWord (map : MemoryMap World) (space : AddressSpace) (address : BitVec 32)
    (value : BitVec 16) : Access World Unit := fun host =>
  match (map.table space).putWord (map.masked address) value host with
  | (true, host) => .ok () host
  | (false, host) => map.miss space address true (fun _ => ()) host

def writeLong (map : MemoryMap World) (space : AddressSpace) (address : BitVec 32)
    (value : BitVec 32) : Access World Unit := do
  map.writeWord space address (value.extractLsb' 16 16)
  map.writeWord space (address + 2) (value.extractLsb' 0 16)

/-- The sizes of the tables and the configuration in one line of text. -/
def text (map : MemoryMap World) : String :=
  "MemoryMap \x7b supervisor: " ++ map.supervisor.text ++ ", user: " ++ map.user.text
    ++ ", unmapped: " ++ (match map.config.unmapped with
      | .busError => "BusError"
      | .openBus fill => "OpenBus \x7b fill: " ++ toString fill.toNat ++ " \x7d")
    ++ ", address_mask: " ++ toString map.config.addressMask.toNat ++ " \x7d"

end MemoryMap

end MC68000
