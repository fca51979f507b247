import MC68000.Execution.Operand
import MC68000.Instruction
import MC68000.Timing

set_option autoImplicit false

namespace MC68000

variable {World : Type}

namespace Exec

def goTo (address : BitVec 32) : Exec World Unit := update fun r => { r with pc := address }

/-- The target of a branch: a displacement from the address after the opcode, where zero stands for the
word that follows. -/
def branchTarget (displacement : BitVec 8) : Exec World (BitVec 32) := do
  let base := (← registers).pc
  let offset ← if displacement = 0 then fetchDisplacement else pure (displacement.signExtend 32)
  return base + offset

/-- Bcc and BRA. -/
def bcc (condition : Condition) (displacement : BitVec 8) : Exec World Nat := do
  let target ← branchTarget displacement
  if condition.holds (← status) then
    goTo target
    return 10
  else
    return if displacement = 0 then 12 else 8

def bsr (displacement : BitVec 8) : Exec World Nat := do
  let target ← branchTarget displacement
  push .long (← registers).pc
  goTo target
  return 18

/-- DBcc: unless the condition holds, counts down the low word of a data register and branches until it
has passed zero. -/
def dbcc (condition : Condition) (n : Fin 8) : Exec World Nat := do
  let target ← branchTarget 0
  let r ← registers
  if condition.holds r.status then
    return 12
  else
    let counter := (r.d.get n).setWidth 16 - 1
    update (·.setDataPart n .word (counter.setWidth 32))
    if counter = 0xFFFF then
      return 14
    else
      goTo target
      return 10

/-- Scc: a byte of ones or zeros. -/
def scc (condition : Condition) (destination : AddressingMode) : Exec World Nat := do
  let holds := condition.holds (← status)
  let target ← locate destination .byte
  store target .byte (if holds then 0xFF else 0)
  return match destination with
    | .dataRegister _ => if holds then 6 else 4
    | destination => 8 + Timing.operand destination .byte

def jmp (target : AddressingMode) : Exec World Nat := do
  goTo (← effectiveAddress target)
  return Timing.jmp target

def jsr (target : AddressingMode) : Exec World Nat := do
  let address ← effectiveAddress target
  push .long (← registers).pc
  goTo address
  return Timing.jsr target

def rts : Exec World Nat := do
  goTo (← pull .long)
  return 16

/-- RTR: pulls the condition codes and the program counter. -/
def rtr : Exec World Nat := do
  let flags ← pull .word
  let pc ← pull .long
  update (·.setConditionCodes (flags.setWidth 8))
  goTo pc
  return 20

/-- RTE: pulls the status word and the program counter, both from the stack of the supervisor. -/
def rte : Exec World Nat := do
  requirePrivilege
  let status ← pull .word
  let pc ← pull .long
  setStatus (status.setWidth 16)
  goTo pc
  return 20

def trapv : Exec World Nat := do
  if (← status).has .overflow then throw (.trap .overflow Timing.exception) else return 4

end Exec

end MC68000
