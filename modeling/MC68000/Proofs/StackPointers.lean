import MC68000.Proofs.Operands

set_option autoImplicit false

namespace MC68000

/-- A register file with a stack pointer for each mode. -/
structure SplitRegisters where
  /-- D0 to D7. -/
  data : Fin 8 → BitVec 32
  /-- A0 to A6. -/
  address : Fin 7 → BitVec 32
  userStack : BitVec 32
  supervisorStack : BitVec 32
  pc : BitVec 32
  status : StatusWord

/-- A write to the registers. -/
inductive RegisterWrite where
  /-- By the name that the host has for the register. -/
  | register (register : Register) (value : BitVec 32)
  | status (value : BitVec 16)
  | conditionCodes (value : BitVec 8)
  | userStack (value : BitVec 32)
  | supervisorStack (value : BitVec 32)

/-- Whether the status word is all that is written. -/
def RegisterWrite.IsStatus : RegisterWrite → Prop
  | register .status _ | status _ | conditionCodes _ => True
  | _ => False

namespace SplitRegisters

def initial : SplitRegisters where
  data _ := 0
  address _ := 0
  userStack := 0
  supervisorStack := 0
  pc := 0
  status := 0x2700

def isSupervisor (s : SplitRegisters) : Bool := s.status.has .supervisor

/-- The stack pointer of a mode. -/
def stack (s : SplitRegisters) (supervisor : Bool) : BitVec 32 :=
  if supervisor then s.supervisorStack else s.userStack

def setStack (s : SplitRegisters) (supervisor : Bool) (value : BitVec 32) : SplitRegisters :=
  if supervisor then { s with supervisorStack := value } else { s with userStack := value }

/-- Reads a register. A7 is the stack pointer of the current mode, and the shadow that of the other. -/
def get (s : SplitRegisters) : Register → BitVec 32
  | .data n => s.data n
  | .address n => if general : n.val < 7 then s.address ⟨n, general⟩ else s.stack s.isSupervisor
  | .shadow => s.stack !s.isSupervisor
  | .pc => s.pc
  | .status => s.status.setWidth 32

/-- Writes a register. The status word takes the low half of the value, without bits that do not exist. -/
def set (s : SplitRegisters) (register : Register) (value : BitVec 32) : SplitRegisters :=
  match register with
  | .data n => { s with data := fun k => if n = k then value else s.data k }
  | .address n =>
    if n.val < 7 then
      { s with address := fun k => if n = k.castSucc then value else s.address k }
    else
      s.setStack s.isSupervisor value
  | .shadow => s.setStack (!s.isSupervisor) value
  | .pc => { s with pc := value }
  | .status => { s with status := value.setWidth 16 &&& .implemented }

def write (s : SplitRegisters) : RegisterWrite → SplitRegisters
  | .register register value => s.set register value
  | .status value => { s with status := value &&& .implemented }
  | .conditionCodes value =>
    { s with status := s.status.clear .conditionCodes ||| (value.setWidth 16 &&& .conditionCodes) }
  | .userStack value => { s with userStack := value }
  | .supervisorStack value => { s with supervisorStack := value }

/-- A write of the status word leaves all else in place, both stack pointers included. -/
theorem write_of_isStatus {w : RegisterWrite} (h : w.IsStatus) (s : SplitRegisters) :
    s.write w = { s with status := (s.write w).status } := by
  cases w with
  | register register value =>
    cases register with
    | status => rfl
    | _ => exact h.elim
  | status value => rfl
  | conditionCodes value => rfl
  | userStack value => exact h.elim
  | supervisorStack value => exact h.elim

theorem foldl_write_of_isStatus {writes : List RegisterWrite} (h : ∀ w ∈ writes, w.IsStatus)
    (s : SplitRegisters) :
    writes.foldl write s = { s with status := (writes.foldl write s).status } := by
  induction writes generalizing s with
  | nil => rfl
  | cons w rest ih =>
    have later := ih (fun w member => h w (List.mem_cons_of_mem _ member)) (s.write w)
    rw [List.foldl_cons, later, write_of_isStatus (h w List.mem_cons_self) s]

end SplitRegisters

namespace Registers

def write (r : Registers) : RegisterWrite → Registers
  | .register register value => r.set register value
  | .status value => r.setStatus value
  | .conditionCodes value => r.setConditionCodes value
  | .userStack value => r.setUserStack value
  | .supervisorStack value => r.setSupervisorStack value

/-- The registers, with the stack pointers under the modes that they belong to. -/
def split (r : Registers) : SplitRegisters where
  data n := r.d.get n
  address n := r.a.get n.castSucc
  userStack := r.userStack
  supervisorStack := r.supervisorStack
  pc := r.pc
  status := r.status

theorem split_initial : initial.split = .initial := by
  have zeros (n : Fin 8) : (Vector.replicate 8 (0 : BitVec 32)).get n = 0 :=
    Vector.getElem_replicate n.isLt
  simp only [split, initial, SplitRegisters.initial, zeros]
  rfl

/-- A7 is the stack pointer of the current mode. -/
theorem stack_split (r : Registers) : r.split.stack r.isSupervisor = r.a.get 7 := by
  unfold SplitRegisters.stack split userStack supervisorStack
  cases r.isSupervisor <;> rfl

/-- The shadow is the stack pointer of the other mode. -/
theorem stack_split_other (r : Registers) : r.split.stack (!r.isSupervisor) = r.shadow := by
  unfold SplitRegisters.stack split userStack supervisorStack
  cases r.isSupervisor <;> rfl

theorem get_setAddress_castSucc (r : Registers) (n : Fin 8) (value : BitVec 32) (k : Fin 7) :
    (r.setAddress n value).a.get k.castSucc =
      if n = k.castSucc then value else r.a.get k.castSucc :=
  AddressingMode.get_setIfInBounds r.a n k.castSucc value

theorem split_setAddress_stack (r : Registers) (value : BitVec 32) :
    (r.setAddress 7 value).split = r.split.setStack r.isSupervisor value := by
  have others (k : Fin 7) : (r.setAddress 7 value).a.get k.castSucc = r.a.get k.castSucc :=
    (r.get_setAddress_castSucc 7 value k).trans (if_neg (Fin.ne_of_gt (Fin.castSucc_lt_last k)))
  have mode : (r.setAddress 7 value).isSupervisor = r.isSupervisor := rfl
  unfold split SplitRegisters.setStack
  simp only [others, userStack, supervisorStack, mode, get_setAddress]
  cases r.isSupervisor <;> rfl

theorem split_shadow (r : Registers) (value : BitVec 32) :
    { r with shadow := value }.split = r.split.setStack (!r.isSupervisor) value := by
  have mode : { r with shadow := value }.isSupervisor = r.isSupervisor := rfl
  unfold split SplitRegisters.setStack
  simp only [userStack, supervisorStack, mode]
  cases r.isSupervisor <;> rfl

/-- Whether or not it changes the mode, a status word leaves the stack pointers and all else in place. -/
theorem split_setStatus (r : Registers) (value : StatusWord) :
    (r.setStatus value).split = { r.split with status := value &&& .implemented } := by
  have user := r.userStack_setStatus value
  have supervisor := r.supervisorStack_setStatus value
  have rest : (∀ k : Fin 7, (r.setStatus value).a.get k.castSucc = r.a.get k.castSucc) ∧
      (r.setStatus value).pc = r.pc ∧ (r.setStatus value).status = value &&& .implemented := by
    unfold setStatus
    dsimp only
    split
    next =>
      refine ⟨fun k => ?_, rfl, rfl⟩
      exact (r.get_setAddress_castSucc 7 r.shadow k).trans
        (if_neg (Fin.ne_of_gt (Fin.castSucc_lt_last k)))
    next => exact ⟨fun _ => rfl, rfl, rfl⟩
  unfold split
  simp only [user, supervisor, r.d_setStatus value, rest]

theorem get_split (r : Registers) (register : Register) : r.split.get register = r.get register := by
  cases register with
  | data n => rfl
  | address n =>
    by_cases general : n.val < 7
    · exact dif_pos general
    · obtain rfl : n = 7 := Fin.ext (by omega)
      exact r.stack_split
  | shadow => exact r.stack_split_other
  | pc => rfl
  | status => rfl

theorem split_set (r : Registers) (register : Register) (value : BitVec 32) :
    (r.set register value).split = r.split.set register value := by
  cases register with
  | data n =>
    have written (k : Fin 8) : (r.setData n value).d.get k = if n = k then value else r.d.get k :=
      AddressingMode.get_setIfInBounds r.d n k value
    change (r.setData n value).split = _
    unfold split SplitRegisters.set
    simp only [written]
    rfl
  | address n =>
    change (r.setAddress n value).split = _
    unfold SplitRegisters.set
    dsimp only
    split
    next general =>
      have stack : (r.setAddress n value).a.get 7 = r.a.get 7 :=
        (AddressingMode.get_setIfInBounds r.a n 7 value).trans
          (if_neg fun same => absurd general (by rw [same]; decide))
      have mode : (r.setAddress n value).isSupervisor = r.isSupervisor := rfl
      unfold split userStack supervisorStack
      simp only [get_setAddress_castSucc, stack, mode]
      rfl
    next stack =>
      obtain rfl : n = 7 := Fin.ext (by omega)
      exact r.split_setAddress_stack value
  | shadow => exact r.split_shadow value
  | pc => rfl
  | status => exact r.split_setStatus _

theorem split_setConditionCodes (r : Registers) (value : BitVec 8) :
    (r.setConditionCodes value).split = r.split.write (.conditionCodes value) := by
  have mode := (r.unprivileged_setConditionCodes value).isSupervisor
  unfold split SplitRegisters.write userStack supervisorStack
  rw [mode]
  rfl

theorem split_setUserStack (r : Registers) (value : BitVec 32) :
    (r.setUserStack value).split = { r.split with userStack := value } := by
  unfold setUserStack
  cases mode : r.isSupervisor with
  | true => exact (r.split_shadow value).trans (by rw [mode]; rfl)
  | false => exact (r.split_setAddress_stack value).trans (by rw [mode]; rfl)

theorem split_setSupervisorStack (r : Registers) (value : BitVec 32) :
    (r.setSupervisorStack value).split = { r.split with supervisorStack := value } := by
  unfold setSupervisorStack
  cases mode : r.isSupervisor with
  | true => exact (r.split_setAddress_stack value).trans (by rw [mode]; rfl)
  | false => exact (r.split_shadow value).trans (by rw [mode]; rfl)

/-- Each write to the registers is the same write to those with two stack pointers. -/
theorem split_write (r : Registers) (w : RegisterWrite) : (r.write w).split = r.split.write w := by
  cases w with
  | register register value => exact r.split_set register value
  | status value => exact r.split_setStatus value
  | conditionCodes value => exact r.split_setConditionCodes value
  | userStack value => exact r.split_setUserStack value
  | supervisorStack value => exact r.split_setSupervisorStack value

theorem split_foldl_write (writes : List RegisterWrite) (r : Registers) :
    (writes.foldl write r).split = writes.foldl SplitRegisters.write r.split := by
  induction writes generalizing r with
  | nil => rfl
  | cons w rest ih => rw [List.foldl_cons, List.foldl_cons, ih, split_write]

/-- After any sequence of writes, from when the processor is switched on, the registers are those of a file with a
stack pointer for each mode, to which the same has been written: both stack pointers, every register by its
name, the condition codes and the interrupt mask read alike. There A7 and its shadow only name the two
pointers, so writes of the status word after that, with however many changes of mode, leave each stack pointer
and all other registers in place. -/
theorem stacks_kept_apart (writes : List RegisterWrite) :
    let r := writes.foldl write initial
    let s := writes.foldl SplitRegisters.write SplitRegisters.initial
    r.userStack = s.userStack ∧ r.supervisorStack = s.supervisorStack ∧
      (∀ register, r.get register = s.get register) ∧
      r.conditionCodes = (s.status &&& .conditionCodes).setWidth 8 ∧
      r.interruptMask = s.status.interruptMask ∧
      ∀ switches : List RegisterWrite, (∀ w ∈ switches, w.IsStatus) →
        let switched := switches.foldl write r
        switched.split = { s with status := switched.status } := by
  have same := split_foldl_write writes initial
  rw [split_initial] at same
  intro r s
  have same : r.split = s := same
  refine ⟨congrArg SplitRegisters.userStack same, congrArg SplitRegisters.supervisorStack same,
    fun register => ?_, ?_, ?_, fun switches status => ?_⟩
  · rw [← same, get_split]
  · rw [← same]
    rfl
  · rw [← same]
    rfl
  · intro switched
    have reached : switched.split = switches.foldl SplitRegisters.write s := by
      rw [← same]
      exact split_foldl_write switches r
    have kept := SplitRegisters.foldl_write_of_isStatus status s
    rw [← reached] at kept
    exact kept

/-- The stack pointer of the user is written as the shadow, and again as A7 in user mode. Back in supervisor mode
and in user mode once more, it is what was written last, and the other is what it was at first. -/
theorem stacks_kept_apart_switching :
    let r := [RegisterWrite.register (.address 7) 0x8000, .register .shadow 0x4000, .status 0,
      .register (.address 7) 0x5000].foldl write initial
    let switched :=
      [RegisterWrite.status 0x2700, .conditionCodes 0x1F, .register .status 0x10000].foldl write r
    r.userStack = 0x5000 ∧ r.supervisorStack = 0x8000 ∧ switched.userStack = 0x5000 ∧
      switched.supervisorStack = 0x8000 := by
  obtain ⟨user, supervisor, -, -, -, kept⟩ := stacks_kept_apart
    [.register (.address 7) 0x8000, .register .shadow 0x4000, .status 0, .register (.address 7) 0x5000]
  have switched := kept [.status 0x2700, .conditionCodes 0x1F, .register .status 0x10000]
    (by simp [RegisterWrite.IsStatus])
  exact ⟨user, supervisor, congrArg SplitRegisters.userStack switched,
    congrArg SplitRegisters.supervisorStack switched⟩

end Registers

end MC68000
