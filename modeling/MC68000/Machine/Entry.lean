import MC68000.Execution.Access
import MC68000.Timing

set_option autoImplicit false

namespace MC68000

variable {World : Type}

namespace Exec

/-- Calls the hook of a vector with the registers. Bits of the status word that do not exist stay zero. -/
def callHook (hook : VectorHook World) (vector : VectorNumber) : Exec World Unit := fun m =>
  let (registers, host) := hook vector m.registers m.host
  .ok () { m with
    registers := { registers with status := registers.status &&& .implemented }
    host }

def hook? (vector : VectorNumber) : Exec World (Option (VectorHook World)) := fun m =>
  .ok (m.hooks.vectors vector) m

/-- Goes on in supervisor mode without tracing, at a new interrupt mask if there is one, and gives the
status word from before. -/
def enterSupervisor (mask : Option (Fin 8)) : Exec World StatusWord := do
  let old ← status
  let entered := (old ||| .supervisor).clear .trace
  setStatus (match mask with
    | some level => entered.withInterruptMask level
    | none => entered)
  return old

/-- Stacks a short frame and goes to the handler of a vector. A hook runs instead, with the program
counter at the return address. -/
def enterShort (vector : VectorNumber) (returnAddress : BitVec 32) (mask : Option (Fin 8)) :
    Exec World Unit := do
  match ← hook? vector with
  | some hook =>
    update fun r => { r with pc := returnAddress }
    callHook hook vector
  | none =>
    let old ← enterSupervisor mask
    push .long returnAddress
    push .word (old.setWidth 32)
    let handler ← readVector vector
    update fun r => { r with pc := handler }

/-- The opcode of the current instruction. -/
def opcode : Exec World (BitVec 16) := fun m => .ok m.opcode m

/-- Stacks a long frame and goes to the handler of a vector. A hook runs instead, with the program
counter where the fault left it. -/
def enterLong (vector : VectorNumber) (fault : AccessFault) : Exec World Unit := do
  match ← hook? vector with
  | some hook => callHook hook vector
  | none =>
    let old ← enterSupervisor none
    push .long (← registers).pc
    push .word (old.setWidth 32)
    push .word ((← opcode).setWidth 32)
    push .long fault.address
    push .word (fault.statusWord.setWidth 32)
    let handler ← readVector vector
    update fun r => { r with pc := handler }

end Exec

namespace Machine

/-- Runs an action while the machine counts as processing an exception. -/
def processing (m : Machine World) (action : Exec World Unit) : Option Exception × Machine World :=
  match action { m with processingException := true } with
  | .ok () m => (none, { m with processingException := false })
  | .error exception m => (some exception, { m with processingException := false })

def halt (m : Machine World) : Machine World :=
  { m.log (.doubleFault m.instructionAddress) with state := .halted }

/-- Processes a bus or address error. A fault while its frame is stacked halts the processor. -/
def processFault (m : Machine World) (vector : VectorNumber) (fault : AccessFault) :
    Nat × Machine World :=
  match (m.log (.accessFault vector fault.write fault.address)).processing
      (Exec.enterLong vector fault) with
  | (none, m) => (Timing.accessFault, m)
  | (some _, m) => (Timing.accessFault, m.halt)

/-- Processes any other exception, at a cost. A bus or address error on the way costs its own on top. -/
def processVector (m : Machine World) (vector : VectorNumber) (returnAddress : BitVec 32)
    (mask : Option (Fin 8)) (cost : Nat) : Nat × Machine World :=
  match m.processing (Exec.enterShort vector returnAddress mask) with
  | (none, m) => (cost, m)
  | (some (.busError fault), m) =>
    let (faultCost, m) := m.processFault .busError fault
    (cost + faultCost, m)
  | (some (.addressError fault), m) =>
    let (faultCost, m) := m.processFault .addressError fault
    (cost + faultCost, m)
  | (some _, m) => (cost, m.halt)

/-- Processes an exception of the program. -/
def processShort (m : Machine World) (vector : VectorNumber) (returnAddress : BitVec 32) (cost : Nat) :
    Nat × Machine World :=
  (m.log (.exception vector m.instructionAddress)).processVector vector returnAddress none cost

/-- Processes an exception. An instruction that was refused is returned to, and one that trapped is
returned from. -/
def processException (m : Machine World) : Exception → Nat × Machine World
  | .busError fault => m.processFault .busError fault
  | .addressError fault => m.processFault .addressError fault
  | .illegal => m.processShort .illegal m.instructionAddress Timing.exception
  | .privilege => m.processShort .privilege m.instructionAddress Timing.exception
  | .lineA => m.processShort .lineA m.instructionAddress Timing.exception
  | .lineF => m.processShort .lineF m.instructionAddress Timing.exception
  | .trap vector cost => m.processShort vector m.registers.pc cost

/-- Processes the exception that follows a traced instruction. -/
def processTrace (m : Machine World) : Nat × Machine World :=
  m.processShort .trace m.registers.pc Timing.exception

def callAcknowledge (m : Machine World) (level : Fin 8) : Machine World :=
  match m.hooks.acknowledge with
  | some hook => { m with host := hook level m.host }
  | none => m

/-- Accepts an interrupt: takes its request, raises the mask to its level, and goes to its handler. -/
def acceptInterrupt (m : Machine World) (level : Fin 8) : Nat × Machine World :=
  let (source, interrupts) := m.interrupts.acknowledge level
  let vector := source.number level
  let m := { m with interrupts }.callAcknowledge level
  let m := { m.log (.interrupt level vector) with state := .running }
  m.processVector vector m.registers.pc (some level) Timing.interrupt

end Machine

end MC68000
