import MC68000.Status
import MC68000.Host

set_option autoImplicit false

namespace MC68000

/-- The programmer's registers. A7 is the stack pointer of the current mode, and the shadow that of the
other mode; changing S exchanges the two, and nothing else does. -/
structure Registers where
  /-- D0 to D7. -/
  d : Vector (BitVec 32) 8
  /-- A0 to A7; A7 is the stack pointer of the current mode. -/
  a : Vector (BitVec 32) 8
  /-- The stack pointer of the other mode. -/
  shadow : BitVec 32
  /-- The program counter. -/
  pc : BitVec 32
  /-- The status word. -/
  status : StatusWord
  deriving DecidableEq

namespace Registers

/-- All zero, in supervisor mode with interrupts masked. -/
def initial : Registers where
  d := Vector.replicate 8 0
  a := Vector.replicate 8 0
  shadow := 0
  pc := 0
  status := 0x2700

def setData (r : Registers) (n : Fin 8) (value : BitVec 32) : Registers :=
  { r with d := r.d.setIfInBounds n value }

def setAddress (r : Registers) (n : Fin 8) (value : BitVec 32) : Registers :=
  { r with a := r.a.setIfInBounds n value }

/-- Replaces the low part of a data register, of the given size, and keeps the rest. -/
def setDataPart (r : Registers) (n : Fin 8) (size : Size) (value : BitVec 32) : Registers :=
  match size with
  | .byte => r.setData n ((r.d.get n &&& 0xFFFFFF00) ||| (value &&& 0xFF))
  | .word => r.setData n ((r.d.get n &&& 0xFFFF0000) ||| (value &&& 0xFFFF))
  | .long => r.setData n value

def isSupervisor (r : Registers) : Bool := r.status.has .supervisor

/-- Whether each instruction is followed by a trace exception. -/
def isTracing (r : Registers) : Bool := r.status.has .trace

/-- The highest interrupt level that is refused. -/
def interruptMask (r : Registers) : Nat := r.status.interruptMask

def conditionCodes (r : Registers) : BitVec 8 := (r.status &&& .conditionCodes).setWidth 8

/-- Writes the status word. Bits that do not exist stay zero, and a change of S exchanges A7 with its
shadow. -/
def setStatus (r : Registers) (value : StatusWord) : Registers :=
  let value := value &&& .implemented
  if (r.status ^^^ value).has .supervisor then
    { r.setAddress 7 r.shadow with shadow := r.a.get 7, status := value }
  else
    { r with status := value }

/-- Writes the condition codes and keeps the rest of the status word. -/
def setConditionCodes (r : Registers) (value : BitVec 8) : Registers :=
  { r with status := r.status.clear .conditionCodes ||| (value.setWidth 16 &&& .conditionCodes) }

/-- The user stack pointer, wherever it is kept. -/
def userStack (r : Registers) : BitVec 32 := if r.isSupervisor then r.shadow else r.a.get 7

/-- The supervisor stack pointer, wherever it is kept. -/
def supervisorStack (r : Registers) : BitVec 32 := if r.isSupervisor then r.a.get 7 else r.shadow

def setUserStack (r : Registers) (value : BitVec 32) : Registers :=
  if r.isSupervisor then { r with shadow := value } else r.setAddress 7 value

def setSupervisorStack (r : Registers) (value : BitVec 32) : Registers :=
  if r.isSupervisor then r.setAddress 7 value else { r with shadow := value }

theorem get_setAddress (r : Registers) (n : Fin 8) (value : BitVec 32) :
    (r.setAddress n value).a.get n = value := Vector.getElem_setIfInBounds_self n.isLt

/-- A status word of the same mode leaves the stack pointers alone. -/
theorem setStatus_of_same {r : Registers} {value : StatusWord}
    (h : value.has .supervisor = r.isSupervisor) :
    r.setStatus value = { r with status := value &&& .implemented } := by
  apply if_neg
  rw [StatusWord.has_supervisor_xor, StatusWord.has_supervisor_masked, h, isSupervisor,
    bne_self_eq_false]
  exact Bool.false_ne_true

/-- A status word of the other mode exchanges A7 with its shadow. -/
theorem setStatus_of_change {r : Registers} {value : StatusWord}
    (h : value.has .supervisor = !r.isSupervisor) :
    r.setStatus value =
      { r.setAddress 7 r.shadow with shadow := r.a.get 7, status := value &&& .implemented } := by
  apply if_pos
  rw [StatusWord.has_supervisor_xor, StatusWord.has_supervisor_masked, h, isSupervisor]
  cases r.status.has .supervisor <;> rfl

theorem d_setStatus (r : Registers) (value : StatusWord) : (r.setStatus value).d = r.d := by
  unfold setStatus
  dsimp only
  split <;> rfl

theorem setStatus_pc (r : Registers) (pc : BitVec 32) (value : StatusWord) :
    { r with pc }.setStatus value = { r.setStatus value with pc } := by
  unfold setStatus
  dsimp only
  split <;> rfl

theorem isSupervisor_setStatus (r : Registers) (value : StatusWord) :
    (r.setStatus value).isSupervisor = value.has .supervisor := by
  cases mode : r.isSupervisor <;> cases new : value.has .supervisor
  · rw [setStatus_of_same (new.trans mode.symm)]
    exact value.has_supervisor_masked.trans new
  · rw [setStatus_of_change (by rw [new, mode]; rfl)]
    exact value.has_supervisor_masked.trans new
  · rw [setStatus_of_change (by rw [new, mode]; rfl)]
    exact value.has_supervisor_masked.trans new
  · rw [setStatus_of_same (new.trans mode.symm)]
    exact value.has_supervisor_masked.trans new

/-- No status word moves the user stack pointer. -/
theorem userStack_setStatus (r : Registers) (value : StatusWord) :
    (r.setStatus value).userStack = r.userStack := by
  rw [userStack, isSupervisor_setStatus, userStack]
  cases mode : r.isSupervisor <;> cases new : value.has .supervisor
  · rw [setStatus_of_same (new.trans mode.symm)]
  · rw [setStatus_of_change (by rw [new, mode]; rfl)]
    rfl
  · rw [setStatus_of_change (by rw [new, mode]; rfl)]
    exact r.get_setAddress 7 r.shadow
  · rw [setStatus_of_same (new.trans mode.symm)]

/-- No status word moves the supervisor stack pointer. -/
theorem supervisorStack_setStatus (r : Registers) (value : StatusWord) :
    (r.setStatus value).supervisorStack = r.supervisorStack := by
  rw [supervisorStack, isSupervisor_setStatus, supervisorStack]
  cases mode : r.isSupervisor <;> cases new : value.has .supervisor
  · rw [setStatus_of_same (new.trans mode.symm)]
  · rw [setStatus_of_change (by rw [new, mode]; rfl)]
    exact r.get_setAddress 7 r.shadow
  · rw [setStatus_of_change (by rw [new, mode]; rfl)]
    rfl
  · rw [setStatus_of_same (new.trans mode.symm)]

end Registers

/-- The registers as the host names them. -/
inductive Register where
  | data (n : Fin 8)
  | address (n : Fin 8)
  | shadow
  | pc
  | status
  deriving DecidableEq

namespace Register

/-- The register of an identifier: 0 to 7 are D0 to D7, 8 to 15 are A0 to A7, and the shadow stack
pointer, the program counter and the status word follow. -/
def ofId (id : Nat) : Except RequestError Register :=
  if h : id < 8 then .ok (.data ⟨id, h⟩)
  else if h : id - 8 < 8 then .ok (.address ⟨id - 8, h⟩)
  else match id with
    | 16 => .ok .shadow
    | 17 => .ok .pc
    | 18 => .ok .status
    | _ => .error (.invalidRegister id)

end Register

namespace Registers

def get (r : Registers) : Register → BitVec 32
  | .data n => r.d.get n
  | .address n => r.a.get n
  | .shadow => r.shadow
  | .pc => r.pc
  | .status => r.status.setWidth 32

/-- Writes a register; the status word takes the low half of the value. -/
def set (r : Registers) (register : Register) (value : BitVec 32) : Registers :=
  match register with
  | .data n => r.setData n value
  | .address n => r.setAddress n value
  | .shadow => { r with shadow := value }
  | .pc => { r with pc := value }
  | .status => r.setStatus (value.setWidth 16)

end Registers

end MC68000
