import MC68000.Proofs.LongFrame
import MC68000.Proofs.Tracing

set_option autoImplicit false

namespace MC68000

variable {World : Type}

/-- The cells of the halves of a long. -/
structure LongCell where
  high : Cell
  low : Cell

namespace LongCell

def halves (c : LongCell) : List Cell := [c.high, c.low]

def words (c : LongCell) (value : BitVec 32) : List (Cell × BitVec 16) :=
  [(c.high, value.extractLsb' 16 16), (c.low, value.setWidth 16)]

def bytes (c : LongCell) : List ByteCell :=
  c.halves.flatMap fun half => [⟨half.buffer, half.offset⟩, ⟨half.buffer, half.offset + 1⟩]

end LongCell

/-- The longs from an address on are read from these cells and written to them. -/
def MemoryMap.KeepsLongs (map : MemoryMap World) (space : AddressSpace) (address : BitVec 32) :
    List LongCell → Prop
  | [] => True
  | c :: rest =>
    map.IsRam space address c.high ∧ map.IsRam space (address + 2) c.low ∧
      map.KeepsLongs space (address + 4) rest

/-- Registers in their cells: the words that are stored for them. -/
def Registers.image (r : Registers) (saved : List (LongCell × Register)) : List (Cell × BitVec 16) :=
  saved.flatMap fun s => s.1.words (r.get s.2)

namespace Ram

end Ram

namespace Registers
variable {saved : List (LongCell × Register)} (r : Registers)

end Registers

end MC68000
