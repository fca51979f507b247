set_option autoImplicit false

namespace MC68000

/-- An address space: the privilege level that an access is made at, and whether it reads the program or
touches data. -/
inductive AddressSpace where
  | supervisorProgram
  | supervisorData
  | userProgram
  | userData
  deriving DecidableEq

namespace AddressSpace

def ofFlags (supervisor program : Bool) : AddressSpace :=
  match supervisor, program with
  | true, true => supervisorProgram
  | true, false => supervisorData
  | false, true => userProgram
  | false, false => userData

/-- Reads the host's number: 0 and 1 are supervisor program and data, 2 and 3 those of the user. -/
def ofRaw? : Nat → Option AddressSpace
  | 0 => some supervisorProgram
  | 1 => some supervisorData
  | 2 => some userProgram
  | 3 => some userData
  | _ => none

def isSupervisor : AddressSpace → Bool
  | supervisorProgram | supervisorData => true
  | userProgram | userData => false

def isProgram : AddressSpace → Bool
  | supervisorProgram | userProgram => true
  | supervisorData | userData => false

/-- The function code that the processor shows with an access. -/
def functionCode : AddressSpace → BitVec 3
  | userData => 1
  | userProgram => 2
  | supervisorData => 5
  | supervisorProgram => 6

end AddressSpace

end MC68000
