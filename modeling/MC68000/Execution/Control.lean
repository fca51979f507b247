import MC68000.Execution.Operand
import MC68000.Instruction
import MC68000.Timing

set_option autoImplicit false

namespace MC68000

variable {World : Type}

namespace Exec

def logicOnStatus (operation : LogicOperation) (x y : StatusWord) : StatusWord :=
  match operation with
  | .or => x ||| y
  | .and => x &&& y
  | .exclusiveOr => x ^^^ y

/-- ORI, ANDI and EORI to CCR. -/
def logicToCcr (operation : LogicOperation) : Exec World Nat := do
  let value ← fetchWord
  let r ← registers
  let flags := logicOnStatus operation (r.status &&& .conditionCodes) value
  update (·.setConditionCodes (flags.setWidth 8))
  return 20

/-- ORI, ANDI and EORI to SR. -/
def logicToSr (operation : LogicOperation) : Exec World Nat := do
  requirePrivilege
  let value ← fetchWord
  setStatus (logicOnStatus operation (← status) value)
  return 20

/-- MOVE from SR, which is not privileged. -/
def moveFromSr (destination : AddressingMode) : Exec World Nat := do
  let target ← locate destination .word
  store target .word ((← status).setWidth 32)
  return Timing.readModifyWrite destination .word (6, 6) (8, 8)

def moveToCcr (source : AddressingMode) : Exec World Nat := do
  let value ← loadFrom source .word
  update (·.setConditionCodes (value.setWidth 8))
  return 12 + Timing.operand source .word

def moveToSr (source : AddressingMode) : Exec World Nat := do
  requirePrivilege
  let value ← loadFrom source .word
  setStatus (value.setWidth 16)
  return 12 + Timing.operand source .word

def moveToUsp (n : Fin 8) : Exec World Nat := do
  requirePrivilege
  update fun r => r.setUserStack (r.a.get n)
  return 4

def moveFromUsp (n : Fin 8) : Exec World Nat := do
  requirePrivilege
  update fun r => r.setAddress n r.userStack
  return 4

/-- Calls the hook for RESET. -/
def signalReset : Exec World Unit := fun m =>
  match m.hooks.reset with
  | some hook => .ok () { m with host := hook m.host }
  | none => .ok () m

def reset : Exec World Nat := do
  requirePrivilege
  signalReset
  return 132

def awaitInterrupt : Exec World Unit := fun m =>
  .ok () { m.log (.stopped m.instructionAddress m.registers.status) with state := .stopped }

def stop : Exec World Nat := do
  requirePrivilege
  setStatus (← fetchWord)
  awaitInterrupt
  return 4

end Exec

end MC68000
