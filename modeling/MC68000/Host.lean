import MC68000.Bus.Ram

set_option autoImplicit false

namespace MC68000

/-- Why a request of the host is refused. -/
inductive RequestError where
  /-- No register has this identifier. -/
  | invalidRegister (id : Nat)
  /-- Interrupt levels run from 1 to 7. -/
  | interruptLevel (level : Int)
  /-- The number is no vector and stands for no way of finding one. -/
  | invalidVector (vector : Int)
  /-- The initial stack pointer and program counter are not in supervisor program memory. -/
  | resetVectorUnmapped
  deriving DecidableEq

namespace RequestError

def message : RequestError → String
  | invalidRegister id => "invalid register identifier " ++ toString id
  | interruptLevel level => "interrupt level " ++ toString level ++ " outside 1..=7"
  | invalidVector vector => "invalid interrupt vector " ++ toString vector
  | resetVectorUnmapped => "reset vector is not mapped in supervisor program space"

/-- The status number of the error for hosts that speak in integers. -/
def code : RequestError → Int
  | invalidRegister _ | interruptLevel _ => -1
  | invalidVector _ => -2
  | resetVectorUnmapped => 2

end RequestError

/-- Requests to the run loop, which looks at them between instructions. -/
structure Control where
  /-- End the current slice after the instruction in flight. -/
  release : Bool
  /-- End the current slice at the next instruction boundary. -/
  stop : Bool
  /-- Cycles to charge, or to give back where negative. That requests could add up to more than 64 bits hold
  is out of scope. -/
  adjust : Int
  deriving DecidableEq

namespace Control

def none : Control := ⟨false, false, 0⟩

/-- Asks for the end of the slice after the instruction in flight. -/
def requestRelease (control : Control) : Control := { control with release := true }

/-- Asks for the end of the slice at the next instruction boundary. -/
def requestStop (control : Control) : Control := { control with stop := true }

def charge (control : Control) (cycles : BitVec 32) : Control :=
  { control with adjust := control.adjust + cycles.toNat }

def refund (control : Control) (cycles : BitVec 32) : Control :=
  { control with adjust := control.adjust - cycles.toNat }

/-- The requests in one line of text. -/
def text (control : Control) : String :=
  "CpuControl \x7b release: " ++ toString control.release ++ ", stop: " ++ toString control.stop
    ++ ", adjust: " ++ toString control.adjust ++ " \x7d"

end Control

/-- The world outside the processor. `world` is the state of the devices and of anyone watching them; a
device is a function on all of this. -/
structure Host (World : Type) where
  ram : Ram
  control : Control
  world : World

namespace Host

variable {World : Type}

/-- Stores a byte in a buffer, if it fits, and tells whether it does. -/
def storeByte (host : Host World) (buffer offset : Nat) (value : BitVec 8) : Bool × Host World :=
  let (stored, ram) := host.ram.storeByte buffer offset value
  (stored, { host with ram })

/-- Stores a word in a buffer, if it fits, and tells whether it does. -/
def storeWord (host : Host World) (buffer offset : Nat) (value : BitVec 16) : Bool × Host World :=
  let (stored, ram) := host.ram.storeWord buffer offset value
  (stored, { host with ram })

end Host

end MC68000
