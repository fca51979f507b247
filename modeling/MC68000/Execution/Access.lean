import MC68000.Machine

set_option autoImplicit false

namespace MC68000

variable {World : Type}

/-- An action of the processor. It completes or raises an exception, and keeps the machine as it was at
that moment in both cases. -/
abbrev Exec (World : Type) := EStateM Exception (Machine World)

namespace Exec

def registers : Exec World Registers := fun m => .ok m.registers m

def update (f : Registers → Registers) : Exec World Unit := fun m => .ok () (m.mapRegisters f)

def status : Exec World StatusWord := return (← registers).status

def setStatus (value : StatusWord) : Exec World Unit := update (·.setStatus value)

/-- Raises a privilege violation in user mode. -/
def requirePrivilege : Exec World Unit := fun m =>
  if m.registers.isSupervisor then .ok () m else .error .privilege m

/-- The record of a failed access. -/
def faultOf (m : Machine World) (space : AddressSpace) (address : BitVec 32) (write : Bool) :
    AccessFault :=
  ⟨address, space, write, !m.processingException⟩

/-- Performs one bus cycle. An access that no region serves raises a bus error. -/
def cycle {α : Type} (space : AddressSpace) (address : BitVec 32) (transfer : BusTransfer)
    (access : MemoryMap World → Access World α) : Exec World α := fun m =>
  match access m.memory m.host with
  | .ok value host => .ok value { m with host, activity := m.activity ++ [⟨space, address, transfer⟩] }
  | .error fault host =>
    .error (.busError (faultOf m fault.space fault.address fault.write))
      { m with host, activity := m.activity ++ [⟨space, address, transfer⟩] }

/-- Raises an address error where a word or long is not at an even address. -/
def requireAligned (space : AddressSpace) (size : Size) (address : BitVec 32) (write : Bool) :
    Exec World Unit := fun m =>
  if size ≠ .byte ∧ address.getLsbD 0 then
    .error (.addressError (faultOf m space address write)) m
  else
    .ok () m

def readByte (space : AddressSpace) (address : BitVec 32) : Exec World (BitVec 8) :=
  cycle space address .readByte (·.readByte space address)

/-- Reads a word from an address space, at any address. -/
def readWord (space : AddressSpace) (address : BitVec 32) : Exec World (BitVec 16) :=
  cycle space address .readWord (·.readWord space address)

def writeByte (space : AddressSpace) (address : BitVec 32) (value : BitVec 8) : Exec World Unit :=
  cycle space address (.writeByte value) (·.writeByte space address value)

/-- Writes a word to an address space, at any address. -/
def writeWord (space : AddressSpace) (address : BitVec 32) (value : BitVec 16) : Exec World Unit :=
  cycle space address (.writeWord value) (·.writeWord space address value)

/-- Reads a value from an address space. A long is two words, the high word first. -/
def read (space : AddressSpace) (size : Size) (address : BitVec 32) : Exec World (BitVec 32) := do
  requireAligned space size address false
  match size with
  | .byte => return (← readByte space address).setWidth 32
  | .word => return (← readWord space address).setWidth 32
  | .long =>
    let high ← readWord space address
    let low ← readWord space (address + 2)
    return high ++ low

/-- Writes a value to an address space. A long is two words, the high word first. -/
def write (space : AddressSpace) (size : Size) (address value : BitVec 32) : Exec World Unit := do
  requireAligned space size address true
  match size with
  | .byte => writeByte space address (value.setWidth 8)
  | .word => writeWord space address (value.setWidth 16)
  | .long =>
    writeWord space address (value.extractLsb' 16 16)
    writeWord space (address + 2) (value.setWidth 16)

def dataSpace : Exec World AddressSpace := fun m => .ok m.dataSpace m

def programSpace : Exec World AddressSpace := fun m => .ok m.programSpace m

def readData (size : Size) (address : BitVec 32) : Exec World (BitVec 32) := do
  read (← dataSpace) size address

/-- Reads from the program space of the current privilege level. -/
def readProgram (size : Size) (address : BitVec 32) : Exec World (BitVec 32) := do
  read (← programSpace) size address

def writeData (size : Size) (address value : BitVec 32) : Exec World Unit := do
  write (← dataSpace) size address value

/-- Takes the next word of the instruction stream. -/
def fetchWord : Exec World (BitVec 16) := do
  let word ← readProgram .word (← registers).pc
  update fun r => { r with pc := r.pc + 2 }
  return word.setWidth 16

/-- Takes the next two words of the instruction stream. -/
def fetchLong : Exec World (BitVec 32) := do
  let high ← fetchWord
  let low ← fetchWord
  return high ++ low

/-- Takes the next immediate value of the instruction stream. A byte is the low half of a word. -/
def fetchImmediate : Size → Exec World (BitVec 32)
  | .byte => return (← fetchWord).setWidth 32 &&& 0xFF
  | .word => return (← fetchWord).setWidth 32
  | .long => fetchLong

/-- Takes the next word of the instruction stream as a signed displacement. -/
def fetchDisplacement : Exec World (BitVec 32) := return (← fetchWord).signExtend 32

/-- Pushes a value. The stack pointer moves before the write. -/
def push (size : Size) (value : BitVec 32) : Exec World Unit := do
  update fun r => r.setAddress 7 (r.a.get 7 - BitVec.ofNat 32 size.bytes)
  writeData size ((← registers).a.get 7) value

/-- Pulls a value. The stack pointer moves after the read. -/
def pull (size : Size) : Exec World (BitVec 32) := do
  let value ← readData size ((← registers).a.get 7)
  update fun r => r.setAddress 7 (r.a.get 7 + BitVec.ofNat 32 size.bytes)
  return value

def readVector (vector : VectorNumber) : Exec World (BitVec 32) :=
  read .supervisorProgram .long vector.address

end Exec

end MC68000
