import MC68000.Execution.Operand
import MC68000.Instruction
import MC68000.Timing

set_option autoImplicit false

namespace MC68000

variable {World : Type}

namespace Exec

/-- MOVE. The source is read before the destination is located. -/
def move (size : Size) (source destination : AddressingMode) : Exec World Nat := do
  let value ← loadFrom source size
  let target ← locate destination size
  store target size value
  setStatus ((← status).withLogical size value)
  return 4 + Timing.operand source size + Timing.moveDestination destination size

/-- MOVEA, which sign-extends words and leaves the flags alone. -/
def movea (size : Size) (source : AddressingMode) (n : Fin 8) : Exec World Nat := do
  let value ← loadFrom source size
  update (·.setAddress n (size.signExtend value))
  return 4 + Timing.operand source size

def moveq (value : BitVec 8) (n : Fin 8) : Exec World Nat := do
  update (·.setData n (value.signExtend 32))
  setStatus ((← status).withLogical .long (value.signExtend 32))
  return 4

/-- SWAP: exchanges the halves of a data register. -/
def swap (n : Fin 8) : Exec World Nat := do
  let value := ((← registers).d.get n).rotateLeft 16
  update (·.setData n value)
  setStatus ((← status).withLogical .long value)
  return 4

/-- EXT: a byte to a word, or a word to a long. -/
def ext (size : Size) (n : Fin 8) : Exec World Nat := do
  let value := (if size = .word then Size.byte else .word).signExtend ((← registers).d.get n)
  update (·.setDataPart n size value)
  setStatus ((← status).withLogical size value)
  return 4

def exg (x y : Register) : Exec World Nat := do
  update fun r => (r.set x (r.get y)).set y (r.get x)
  return 6

def lea (source : AddressingMode) (n : Fin 8) : Exec World Nat := do
  let address ← effectiveAddress source
  update (·.setAddress n address)
  return Timing.lea source

def pea (source : AddressingMode) : Exec World Nat := do
  let address ← effectiveAddress source
  push .long address
  return Timing.pea source

/-- LINK: pushes the register, points it at the stack, and moves the stack pointer by a displacement.
For A7 the value pushed is the stack pointer after the push. -/
def link (n : Fin 8) : Exec World Nat := do
  let displacement ← fetchDisplacement
  let r ← registers
  push .long (if n = 7 then r.a.get 7 - 4 else r.a.get n)
  update fun r => r.setAddress n (r.a.get 7)
  update fun r => r.setAddress 7 (r.a.get 7 + displacement)
  return 16

/-- UNLK: points the stack at the register, and pulls the register. -/
def unlk (n : Fin 8) : Exec World Nat := do
  update fun r => r.setAddress 7 (r.a.get n)
  let value ← pull .long
  update (·.setAddress n value)
  return 12

/-- The register that a bit of a register list names: D0 to D7, then A0 to A7. -/
def listedRegister (i : Fin 16) : Register :=
  if h : i.val < 8 then .data ⟨i, h⟩ else .address ⟨i - 8, by omega⟩

/-- The registers of a list, from bit 0 up. -/
def listedUp (mask : BitVec 16) : List Register :=
  ((List.finRange 16).filter fun (i : Fin 16) => mask.getLsbD i).map listedRegister

/-- The registers of a reversed list, from bit 0 up: bit 0 names A7, and bit 15 D0. -/
def listedDown (mask : BitVec 16) : List Register :=
  ((List.finRange 16).filter fun (i : Fin 16) => mask.getLsbD i).map fun i => listedRegister i.rev

/-- Stores registers downward from an address, and gives the last address. -/
def storeDown (size : Size) : List Register → BitVec 32 → Exec World (BitVec 32)
  | [], address => return address
  | register :: rest, address => do
    let address := address - BitVec.ofNat 32 size.bytes
    writeData size address ((← registers).get register)
    storeDown size rest address

/-- Stores registers upward from an address. -/
def storeUp (size : Size) : List Register → BitVec 32 → Exec World Unit
  | [], _ => return
  | register :: rest, address => do
    writeData size address ((← registers).get register)
    storeUp size rest (address + BitVec.ofNat 32 size.bytes)

/-- Loads registers upward from an address, sign-extending words, and gives the address after the last
one. -/
def loadUp (space : AddressSpace) (size : Size) : List Register → BitVec 32 → Exec World (BitVec 32)
  | [], address => return address
  | register :: rest, address => do
    let value ← read space size address
    update (·.set register (size.signExtend value))
    loadUp space size rest (address + BitVec.ofNat 32 size.bytes)

/-- MOVEM to memory. A predecremented address register is written after all registers are stored. -/
def movemStore (size : Size) (destination : AddressingMode) : Exec World Nat := do
  let mask ← fetchWord
  match destination with
  | .preDecrement n =>
    let address ← storeDown size (listedDown mask) ((← registers).a.get n)
    update (·.setAddress n address)
  | destination => storeUp size (listedUp mask) (← effectiveAddress destination)
  return Timing.movemStore destination size (listedUp mask).length

/-- MOVEM from memory. A postincremented address register is written after all registers are loaded. -/
def movemLoad (size : Size) (source : AddressingMode) : Exec World Nat := do
  let mask ← fetchWord
  match source with
  | .postIncrement n =>
    let address ← loadUp (← dataSpace) size (listedUp mask) ((← registers).a.get n)
    update (·.setAddress n address)
  | source =>
    let address ← effectiveAddress source
    let space ← if source.isProgramRelative then programSpace else dataSpace
    let _ ← loadUp space size (listedUp mask) address
  return Timing.movemLoad source size (listedUp mask).length

/-- The bytes of a value, the most significant first. -/
def bytesOf (size : Size) (value : BitVec 32) : List (BitVec 8) :=
  (List.range size.bytes).reverse.map fun i => value.extractLsb' (8 * i) 8

/-- Stores bytes at every other address. -/
def storeAlternate : List (BitVec 8) → BitVec 32 → Exec World Unit
  | [], _ => return
  | byte :: rest, address => do
    writeData .byte address (byte.setWidth 32)
    storeAlternate rest (address + 2)

/-- Loads bytes from every other address below those of a value. -/
def loadAlternate : Nat → BitVec 32 → BitVec 32 → Exec World (BitVec 32)
  | 0, value, _ => return value
  | count + 1, value, address => do
    let byte ← readData .byte address
    loadAlternate count ((value <<< 8) ||| byte) (address + 2)

/-- MOVEP from a data register to memory. -/
def movepStore (size : Size) (data address : Fin 8) : Exec World Nat := do
  let displacement ← fetchDisplacement
  let r ← registers
  storeAlternate (bytesOf size (r.d.get data)) (r.a.get address + displacement)
  return Timing.bySize size 16 24

/-- MOVEP from memory to a data register. -/
def movepLoad (size : Size) (data address : Fin 8) : Exec World Nat := do
  let displacement ← fetchDisplacement
  let value ← loadAlternate size.bytes 0 ((← registers).a.get address + displacement)
  update (·.setDataPart data size value)
  return Timing.bySize size 16 24

end Exec

end MC68000
