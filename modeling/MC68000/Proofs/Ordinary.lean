import MC68000.Execution
import MC68000.Proofs.SystemByte
import MC68000.Proofs.Timing

set_option autoImplicit false

namespace MC68000

variable {World : Type}

namespace Exception

/-- The exceptions of an instruction that is refused. -/
def IsRefusal : Exception → Prop
  | illegal | privilege | lineA | lineF => True
  | _ => False

/-- The exceptions of a failed access. -/
def IsFault : Exception → Prop
  | busError _ | addressError _ => True
  | _ => False

end Exception

/-- The operands that a mode locates. -/
def AddressingMode.Locates (mode : AddressingMode) : Operand → Prop
  | .dataRegister n => mode = .dataRegister n
  | .addressRegister n => mode = .addressRegister n
  | .memory _ => mode.isMemoryAlterable = true
  | .program _ => mode.isProgramRelative = true
  | .value _ => mode = .immediate

/-- The operands that instructions may write. -/
def Operand.IsWritable : Operand → Prop
  | program _ | value _ => False
  | _ => True

theorem AddressingMode.Locates.isWritable {mode : AddressingMode} {operand : Operand}
    (located : mode.Locates operand) (alterable : mode.isAlterable = true) : operand.IsWritable := by
  cases operand with
  | program address => cases mode <;> cases located <;> cases alterable
  | value value =>
    rw [show mode = .immediate from located] at alterable
    cases alterable
  | _ => trivial

/-- A change that is left to the supervisor. -/
inductive SupervisorChange where
  /-- Any change of the registers. -/
  | registers (f : Registers → Registers)
  /-- RESET. -/
  | reset
  /-- STOP with a new status word. -/
  | stop (status : StatusWord)

def SupervisorChange.apply (change : SupervisorChange) (m : Machine World) : Machine World :=
  match change with
  | registers f => m.mapRegisters f
  | reset =>
    match m.hooks.reset with
    | some hook => { m with host := hook m.host }
    | none => m
  | stop status =>
    let m := m.mapRegisters (·.setStatus status)
    { m.log (.stopped m.instructionAddress m.registers.status) with state := .stopped }

/-- No change makes a bit of the status word that does not exist. -/
def SupervisorChange.Implemented : SupervisorChange → Prop
  | registers f => ∀ r, r.status.Implemented → (f r).status.Implemented
  | reset | stop _ => True

namespace Exec

/-- Composed of operations that are open to any program, on a machine whose status word has the system
byte `s`. It raises no exceptions but those of failed accesses and those in `raises`, and what it gives
satisfies `post`. What holds of every instruction is proved by induction on this and on `Guarded`, and not
instruction by instruction. -/
inductive Ordinary (s : StatusWord) (raises : Exception → Prop) :
    {α : Type} → Exec World α → (α → Prop) → Prop
  | pure {α : Type} {post : α → Prop} {a : α} (h : post a) : Ordinary s raises (pure a) post
  | bind {α β : Type} {x : Exec World α} {f : α → Exec World β} {mid : α → Prop} {post : β → Prop}
      (first : Ordinary s raises x mid) (next : ∀ a, mid a → Ordinary s raises (f a) post) :
      Ordinary s raises (x >>= f) post
  | throw {α : Type} {post : α → Prop} {e : Exception} (h : raises e) :
      Ordinary s raises (throw e : Exec World α) post
  | registers : Ordinary s raises registers fun r => r.status.system = s
  | update {f : Registers → Registers}
      (h : ∀ r : Registers, r.status.system = s → r.Unprivileged (f r)) :
      Ordinary s raises (update f) fun _ => True
  | dataSpace : Ordinary s raises dataSpace fun space => space.isSupervisor = s.has .supervisor
  | programSpace : Ordinary s raises programSpace fun space => space.isSupervisor = s.has .supervisor
  | read {space : AddressSpace} (size : Size) (address : BitVec 32)
      (level : space.isSupervisor = s.has .supervisor) :
      Ordinary s raises (read space size address) fun _ => True
  | write {space : AddressSpace} (size : Size) (address value : BitVec 32)
      (level : space.isSupervisor = s.has .supervisor) :
      Ordinary s raises (write space size address value) fun _ => True
  | requirePrivilege (h : s.has .supervisor = false → raises .privilege) :
      Ordinary s raises requirePrivilege fun _ => s.has .supervisor = true

/-- Ordinary, whatever it gives. -/
abbrev Plain {α : Type} (s : StatusWord) (raises : Exception → Prop) (x : Exec World α) : Prop :=
  Ordinary s raises x fun _ => True

/-- Ordinary, and gives what an instruction can cost. -/
abbrev Timed (s : StatusWord) (raises : Exception → Prop) (x : Exec World Nat) : Prop :=
  Ordinary s raises x Timing.IsCost

/-- Composed of ordinary operations and, in supervisor mode, of one last change that is not. It gives what an
instruction can cost. -/
inductive Guarded (s : StatusWord) (raises : Exception → Prop) : Exec World Nat → Prop
  | ordinary {x : Exec World Nat} (h : Timed s raises x) : Guarded s raises x
  | bind {α : Type} {x : Exec World α} {f : α → Exec World Nat} {mid : α → Prop}
      (first : Ordinary s raises x mid) (next : ∀ a, mid a → Guarded s raises (f a)) :
      Guarded s raises (x >>= f)
  | change {x : Exec World Nat} (change : SupervisorChange) (cost : Nat)
      (timed : Timing.IsCost cost) (supervisor : s.has .supervisor = true)
      (implemented : change.Implemented) (act : ∀ m, x m = .ok cost (change.apply m)) : Guarded s raises x

variable {s : StatusWord} {raises : Exception → Prop}

theorem Plain.andThen {α β : Type} {x : Exec World α} {f : α → Exec World β} {post : β → Prop}
    (first : Plain s raises x) (next : ∀ a, Ordinary s raises (f a) post) :
    Ordinary s raises (x >>= f) post := Ordinary.bind first fun a _ => next a

theorem Ordinary.imp {α : Type} {x : Exec World α} {post post' : α → Prop}
    (h : Ordinary s raises x post) (weaker : ∀ a, post a → post' a) :
    Ordinary s raises x post' := by
  have same : (x >>= Pure.pure) = x := bind_pure x
  rw [← same]
  exact .bind h fun a given => .pure (weaker a given)

theorem Ordinary.mono {raises' : Exception → Prop} {α : Type} {x : Exec World α} {post : α → Prop}
    (h : Ordinary s raises x post) (more : ∀ e, raises e → raises' e) : Ordinary s raises' x post := by
  induction h with
  | pure h => exact .pure h
  | bind _ _ first next => exact .bind first next
  | throw h => exact .throw (more _ h)
  | registers => exact .registers
  | update h => exact .update h
  | dataSpace => exact .dataSpace
  | programSpace => exact .programSpace
  | read size address level => exact .read size address level
  | write size address value level => exact .write size address value level
  | requirePrivilege h => exact .requirePrivilege fun user => more _ (h user)

theorem Guarded.mono {raises' : Exception → Prop} {x : Exec World Nat} (h : Guarded s raises x)
    (more : ∀ e, raises e → raises' e) : Guarded s raises' x := by
  induction h with
  | ordinary h => exact .ordinary (h.mono more)
  | bind first _ next => exact .bind (first.mono more) next
  | change change cost timed supervisor implemented act =>
    exact .change change cost timed supervisor implemented act

theorem plain_update {f : Registers → Registers} (h : ∀ r : Registers, r.Unprivileged (f r)) :
    Plain s raises (update f : Exec World Unit) := .update fun r _ => h r

theorem ordinary_status :
    Ordinary s raises (status : Exec World StatusWord) fun value => value.system = s :=
  .bind .registers fun _ h => .pure h

theorem plain_setStatus {value : StatusWord} (h : value.system = s) :
    Plain s raises (setStatus value : Exec World Unit) :=
  .update fun _ same => Registers.unprivileged_setStatus (h.trans same.symm)

theorem plain_readData (size : Size) (address : BitVec 32) :
    Plain s raises (readData size address : Exec World (BitVec 32)) :=
  .bind .dataSpace fun _ level => .read size address level

theorem plain_readProgram (size : Size) (address : BitVec 32) :
    Plain s raises (readProgram size address : Exec World (BitVec 32)) :=
  .bind .programSpace fun _ level => .read size address level

theorem plain_writeData (size : Size) (address value : BitVec 32) :
    Plain s raises (writeData size address value : Exec World Unit) :=
  .bind .dataSpace fun _ level => .write size address value level

theorem plain_fetchWord : Plain s raises (fetchWord : Exec World (BitVec 16)) := by
  refine .bind .registers fun r _ => (plain_readProgram .word r.pc).andThen fun word => ?_
  exact (plain_update fun r => r.unprivileged_pc _).andThen fun _ => .pure trivial

theorem plain_fetchLong : Plain s raises (fetchLong : Exec World (BitVec 32)) :=
  plain_fetchWord.andThen fun _ => plain_fetchWord.andThen fun _ => .pure trivial

theorem plain_fetchImmediate (size : Size) :
    Plain s raises (fetchImmediate size : Exec World (BitVec 32)) := by
  cases size with
  | byte => exact plain_fetchWord.andThen fun _ => .pure trivial
  | word => exact plain_fetchWord.andThen fun _ => .pure trivial
  | long => exact plain_fetchLong

theorem plain_fetchDisplacement : Plain s raises (fetchDisplacement : Exec World (BitVec 32)) :=
  plain_fetchWord.andThen fun _ => .pure trivial

theorem plain_push (size : Size) (value : BitVec 32) :
    Plain s raises (push size value : Exec World Unit) := by
  refine (plain_update fun r => r.unprivileged_setAddress 7 _).andThen fun _ => ?_
  exact .bind .registers fun r _ => plain_writeData size (r.a.get 7) value

theorem plain_pull (size : Size) : Plain s raises (pull size : Exec World (BitVec 32)) := by
  refine .bind .registers fun r _ => (plain_readData size (r.a.get 7)).andThen fun value => ?_
  exact (plain_update fun r => r.unprivileged_setAddress 7 _).andThen fun _ => .pure trivial

/-- Locating gives operands of the kind that the mode is for. -/
theorem ordinary_locate (mode : AddressingMode) (size : Size) :
    Ordinary s raises (locate mode size : Exec World Operand) mode.Locates := by
  cases mode with
  | dataRegister n => exact .pure rfl
  | addressRegister n => exact .pure rfl
  | indirect n => exact .bind .registers fun _ _ => .pure rfl
  | postIncrement n =>
    refine .bind .registers fun _ _ => ?_
    exact (plain_update fun r => r.unprivileged_setAddress n _).andThen fun _ => .pure rfl
  | preDecrement n =>
    refine .bind .registers fun _ _ => ?_
    exact (plain_update fun r => r.unprivileged_setAddress n _).andThen fun _ => .pure rfl
  | displaced n =>
    exact plain_fetchDisplacement.andThen fun _ => .bind .registers fun _ _ => .pure rfl
  | indexed n => exact plain_fetchWord.andThen fun _ => .bind .registers fun _ _ => .pure rfl
  | absoluteShort => exact plain_fetchDisplacement.andThen fun _ => .pure rfl
  | absoluteLong => exact plain_fetchLong.andThen fun _ => .pure rfl
  | programDisplaced =>
    exact .bind .registers fun _ _ => plain_fetchDisplacement.andThen fun _ => .pure rfl
  | programIndexed =>
    refine .bind .registers fun _ _ => plain_fetchWord.andThen fun _ => ?_
    exact .bind .registers fun _ _ => .pure rfl
  | immediate => exact (plain_fetchImmediate size).andThen fun _ => .pure rfl

theorem plain_load (operand : Operand) (size : Size) :
    Plain s raises (load operand size : Exec World (BitVec 32)) := by
  cases operand with
  | dataRegister n => exact .bind .registers fun _ _ => .pure trivial
  | addressRegister n => exact .bind .registers fun _ _ => .pure trivial
  | memory address => exact plain_readData size address
  | program address => exact plain_readProgram size address
  | value value => exact .pure trivial

theorem plain_loadFrom (mode : AddressingMode) (size : Size) :
    Plain s raises (loadFrom mode size : Exec World (BitVec 32)) :=
  .bind (ordinary_locate mode size) fun target _ => plain_load target size

theorem plain_store {operand : Operand} (writable : operand.IsWritable) (size : Size)
    (value : BitVec 32) : Plain s raises (store operand size value : Exec World Unit) := by
  cases operand with
  | dataRegister n => exact plain_update fun r => r.unprivileged_setDataPart n size value
  | addressRegister n => exact plain_update fun r => r.unprivileged_setAddress n value
  | memory address => exact plain_writeData size address value
  | program address => exact writable.elim
  | value immediate => exact writable.elim

theorem plain_effectiveAddress {mode : AddressingMode} (control : mode.isControl = true) :
    Plain s raises (effectiveAddress mode : Exec World (BitVec 32)) := by
  refine .bind (ordinary_locate mode .long) fun target located => ?_
  cases target with
  | dataRegister n =>
    rw [show mode = .dataRegister n from located] at control
    cases control
  | addressRegister n =>
    rw [show mode = .addressRegister n from located] at control
    cases control
  | memory address => exact .pure trivial
  | program address => exact .pure trivial
  | value value =>
    rw [show mode = .immediate from located] at control
    cases control

end Exec

end MC68000
