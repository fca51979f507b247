import MC68000.Bus.MemoryMap
import MC68000.Hooks
import MC68000.Interrupt
import MC68000.Log

set_option autoImplicit false

namespace MC68000

/-- A count of clock cycles. Time only runs forward: taking more from a count than it holds leaves zero. -/
structure Ticks where
  /-- The count is not bounded: that a counter of 64 bits could run over is out of scope. -/
  count : Nat
  deriving DecidableEq

namespace Ticks

def zero : Ticks := ⟨0⟩

/-- The count held in a 32-bit cycle counter. -/
def ofCounter (counter : BitVec 32) : Ticks := ⟨counter.toNat⟩

def add (t u : Ticks) : Ticks := ⟨t.count + u.count⟩

/-- What is left of a budget; a budget that is overrun has nothing left. -/
def subtract (t u : Ticks) : Ticks := ⟨t.count - u.count⟩

def compare (t u : Ticks) : Ordering := Ord.compare t.count u.count

end Ticks

/-- What the processor is doing. -/
inductive RunState where
  /-- Built but never reset: nothing runs, and no interrupt is accepted. -/
  | poweredOn
  /-- Executing instructions. -/
  | running
  /-- Waiting for an interrupt after STOP. -/
  | stopped
  /-- Dead until the next reset. -/
  | halted
  deriving DecidableEq

inductive BusTransfer where
  | readByte
  | readWord
  | writeByte (value : BitVec 8)
  | writeWord (value : BitVec 16)
  deriving DecidableEq

structure BusCycle where
  space : AddressSpace
  address : BitVec 32
  transfer : BusTransfer
  deriving DecidableEq

/-- A processor together with all that it is connected to. -/
structure Machine (World : Type) where
  registers : Registers
  memory : MemoryMap World
  hooks : Hooks World
  interrupts : InterruptLines
  state : RunState
  /-- Cycles since the counter was last tripped. -/
  cycles : BitVec 32
  /-- Cycles since the machine was built. -/
  total : Ticks
  /-- The last opcode fetched. -/
  opcode : BitVec 16
  /-- Where the current instruction was fetched from. -/
  instructionAddress : BitVec 32
  /-- Whether an exception frame is being stacked. -/
  processingException : Bool
  /-- The bus cycles of the current step, in order. -/
  activity : List BusCycle
  host : Host World
  /-- What becomes of log records. -/
  logger : LogRecord → World → World

/-- The part of a machine that can be saved and put into another. -/
structure Context (World : Type) where
  registers : Registers
  cycles : BitVec 32
  interrupts : InterruptLines
  state : RunState
  memory : MemoryMap World
  hooks : Hooks World

namespace Machine

variable {World : Type}

/-- A machine that has just been switched on, with an empty memory map. -/
def new (config : BusConfig) (host : Host World) (logger : LogRecord → World → World) :
    Machine World where
  registers := .initial
  memory := .empty config
  hooks := .none
  interrupts := .idle
  state := .poweredOn
  cycles := 0
  total := .zero
  opcode := 0
  instructionAddress := 0
  processingException := false
  activity := []
  host
  logger

def mapRegisters (m : Machine World) (f : Registers → Registers) : Machine World :=
  { m with registers := f m.registers }

def mapControl (m : Machine World) (f : Control → Control) : Machine World :=
  { m with host := { m.host with control := f m.host.control } }

/-- Hands a record to the log. -/
def log (m : Machine World) (record : LogRecord) : Machine World :=
  { m with host := { m.host with world := m.logger record m.host.world } }

def dataSpace (m : Machine World) : AddressSpace := .ofFlags m.registers.isSupervisor false

def programSpace (m : Machine World) : AddressSpace := .ofFlags m.registers.isSupervisor true

def withMemory (m : Machine World) (memory : MemoryMap World) : Machine World := { m with memory }

def withHooks (m : Machine World) (hooks : Hooks World) : Machine World := { m with hooks }

def context (m : Machine World) : Context World where
  registers := m.registers
  cycles := m.cycles
  interrupts := m.interrupts
  state := m.state
  memory := m.memory
  hooks := m.hooks

/-- Puts a saved context in place of the machine's own. -/
def restore (m : Machine World) (context : Context World) : Machine World :=
  { m with
    registers := context.registers
    cycles := context.cycles
    interrupts := context.interrupts
    state := context.state
    memory := context.memory
    hooks := context.hooks }.log (.contextLoaded context.registers.pc context.registers.status)

/-- Looks at a word of memory, outside of any instruction. -/
def peekWord (m : Machine World) (space : AddressSpace) (address : BitVec 32) :
    Option (BitVec 16) × Machine World :=
  let (value, host) := m.memory.peekWord space address m.host
  (value, { m with host })

def raiseInterrupt (m : Machine World) (level : Nat) (vector : InterruptVector) :
    Except RequestError (Option InterruptVector × Machine World) := do
  let (previous, interrupts) ← m.interrupts.raise level vector
  return (previous, { m with interrupts })

def lowerInterrupt (m : Machine World) (level : Nat) : Except RequestError (Machine World) := do
  return { m with interrupts := ← m.interrupts.lower level }

def assignInterruptVector (m : Machine World) (level : Nat) (vector : InterruptVector) :
    Except RequestError (Machine World) := do
  return { m with interrupts := ← m.interrupts.assignVector level vector }

/-- Resets the processor: the stack pointer and the program counter come from the first two longs of
supervisor program memory, and pending interrupts are dropped. Where no region holds those longs nothing
changes; what an open bus shows does not count. -/
def reset (m : Machine World) : Except RequestError Unit × Machine World :=
  match m.memory.peekLong .supervisorProgram 0 m.host with
  | (none, host) => (.error .resetVectorUnmapped, { m with host }.log .resetVectorUnmapped)
  | (some stack, host) =>
    match m.memory.peekLong .supervisorProgram 4 host with
    | (none, host) => (.error .resetVectorUnmapped, { m with host }.log .resetVectorUnmapped)
    | (some pc, host) =>
      let m := { m with
        registers := { Registers.initial.setAddress 7 stack with pc }
        interrupts := m.interrupts.clear
        state := .running
        opcode := 0
        instructionAddress := pc
        host := { host with control := { host.control with stop := false } } }
      (.ok (), m.log (.reset stack pc))

end Machine

end MC68000
