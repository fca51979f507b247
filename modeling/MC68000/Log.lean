import MC68000.Exception
import MC68000.Observation
import MC68000.Status

set_option autoImplicit false

namespace MC68000

inductive LogLevel where
  | trace
  | debug
  | warn
  deriving DecidableEq

def LogLevel.name : LogLevel → String
  | trace => "TRACE"
  | debug => "DEBUG"
  | warn => "WARN"

/-- An event of the machine. -/
inductive LogRecord where
  /-- A reset failed for want of its vector. -/
  | resetVectorUnmapped
  /-- A reset succeeded. -/
  | reset (stack pc : BitVec 32)
  /-- A context was loaded. -/
  | contextLoaded (pc : BitVec 32) (status : StatusWord)
  /-- STOP completed. -/
  | stopped (address : BitVec 32) (status : StatusWord)
  /-- A fault was raised while a long frame was stacked. -/
  | doubleFault (address : BitVec 32)
  /-- An interrupt was accepted. -/
  | interrupt (level : Nat) (vector : VectorNumber)
  /-- A short frame is about to be stacked. -/
  | exception (vector : VectorNumber) (address : BitVec 32)
  /-- A long frame is about to be stacked. -/
  | accessFault (vector : VectorNumber) (write : Bool) (address : BitVec 32)
  deriving DecidableEq

namespace LogRecord

def level : LogRecord → LogLevel
  | resetVectorUnmapped => .warn
  | reset .. | contextLoaded .. | stopped .. | doubleFault .. => .debug
  | interrupt .. | exception .. | accessFault .. => .trace

def message : LogRecord → String
  | resetVectorUnmapped => "reset vector is not mapped in supervisor program space"
  | reset stack pc => "reset: SSP=" ++ Text.hex stack ++ " PC=" ++ Text.hex pc
  | contextLoaded pc status => "context loaded: PC=" ++ Text.hex pc ++ " SR=" ++ Text.hex status
  | stopped address status => "STOP at " ++ Text.hex address ++ ", SR=" ++ Text.hex status
  | doubleFault address => "double fault at " ++ Text.hex address ++ ", CPU halted"
  | interrupt level vector =>
    "interrupt level " ++ toString level ++ " via vector " ++ toString vector.toNat
  | exception vector address =>
    "exception vector " ++ toString vector.toNat ++ " at " ++ Text.hex address
  | accessFault vector write address =>
    "group 0 exception vector " ++ toString vector.toNat ++ ": "
      ++ (if write then "write" else "read") ++ " " ++ Text.hex address

end LogRecord

end MC68000
