import MC68000.Machine
import MC68000.Observation

set_option autoImplicit false

namespace MC68000.Text

/-- The number that a run of digits denotes after `n`, or nothing where some character is no digit. -/
def digitsFrom? (n : Nat) : List Char → Option Nat
  | [] => some n
  | c :: rest => if c.isDigit then digitsFrom? (10 * n + (c.toNat - 48)) rest else none

def digits? : List Char → Option Nat
  | [] => none
  | cs => (digitsFrom? 0 cs).filter (· < 0x10000000000000000)

/-- Reads an index. -/
def index? : List Char → Option Nat
  | '+' :: cs => digits? cs
  | cs => digits? cs

end MC68000.Text

namespace MC68000

/-- What can be observed of a machine. -/
inductive Observable where
  | data (n : Fin 8)
  | address (n : Fin 8)
  | userStack
  | supervisorStack
  | pc
  | status
  | conditionCodes
  | carry
  | overflow
  | zero
  | negative
  | extend
  | supervisor
  | trace
  | interruptMask
  | halted
  | stopped
  | cycles
  | opcode
  deriving DecidableEq

namespace Observable

def path : Observable → String
  | data n => "d" ++ toString n.val
  | address n => "a" ++ toString n.val
  | userStack => "usp"
  | supervisorStack => "ssp"
  | pc => "pc"
  | status => "sr"
  | conditionCodes => "ccr"
  | carry => "flags.c"
  | overflow => "flags.v"
  | zero => "flags.z"
  | negative => "flags.n"
  | extend => "flags.x"
  | supervisor => "flags.s"
  | trace => "flags.t"
  | interruptMask => "int_mask"
  | halted => "halted"
  | stopped => "stopped"
  | cycles => "cycles"
  | opcode => "opcode"

/-- The observables that are no data or address register. -/
def named : List Observable :=
  [userStack, supervisorStack, pc, status, conditionCodes, carry, overflow, zero, negative, extend,
    supervisor, trace, interruptMask, halted, stopped, cycles, opcode]

/-- Everything that can be observed, in the order in which it is listed. -/
def all : List Observable :=
  (List.finRange 8).map data ++ (List.finRange 8).map address ++ named

/-- The observable that a path names. After the letter of a register file any numeral of a register's
number will do. -/
def ofPath? (path : String) : Option Observable :=
  match path.toList with
  | 'd' :: digits => register? data digits
  | 'a' :: digits => register? address digits
  | _ => named.find? fun observable => observable.path = path
where
  /-- The register of a number below eight. -/
  register? (file : Fin 8 → Observable) (digits : List Char) : Option Observable :=
    match Text.index? digits with
    | some n => if h : n < 8 then some (file ⟨n, h⟩) else none
    | none => none

end Observable

namespace Machine

variable {World : Type}

def observe (m : Machine World) : Observable → Observation
  | .data n => .long (m.registers.d.get n)
  | .address n => .long (m.registers.a.get n)
  | .userStack => .long m.registers.userStack
  | .supervisorStack => .long m.registers.supervisorStack
  | .pc => .long m.registers.pc
  | .status => .word m.registers.status
  | .conditionCodes => .byte m.registers.conditionCodes
  | .carry => .flag (m.registers.status.has .carry)
  | .overflow => .flag (m.registers.status.has .overflow)
  | .zero => .flag (m.registers.status.has .zero)
  | .negative => .flag (m.registers.status.has .negative)
  | .extend => .flag (m.registers.status.has .extend)
  | .supervisor => .flag m.registers.isSupervisor
  | .trace => .flag m.registers.isTracing
  | .interruptMask => .byte (BitVec.ofNat 8 m.registers.interruptMask)
  | .halted => .flag (m.state = .halted)
  | .stopped => .flag (m.state = .stopped)
  | .cycles => .count (BitVec.ofNat 64 m.total.count)
  | .opcode => .word m.opcode

def query (m : Machine World) (path : String) : Option Observation :=
  (Observable.ofPath? path).map m.observe

/-- All values by path. -/
def snapshot (m : Machine World) : Observation :=
  .ofEntries (Observable.all.map fun observable => (observable.path, m.observe observable))

end Machine

end MC68000
