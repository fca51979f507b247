import MC68000.Execution.Arithmetic

set_option autoImplicit false

namespace MC68000

namespace StatusWord

/-- T, S and the interrupt mask. -/
def systemBits : StatusWord := 0xA700

def system (status : StatusWord) : StatusWord := status &&& systemBits

/-- A status word without bits that do not exist. -/
def Implemented (status : StatusWord) : Prop := status &&& implemented = status

theorem system_eq_iff (x y : StatusWord) :
    x.system = y.system ↔
      ∀ i, systemBits.getLsbD i = true → x.getLsbD i = y.getLsbD i := by
  constructor
  · intro same i inside
    have bit := congrArg (fun z : StatusWord => z.getLsbD i) same
    simpa only [system, BitVec.getLsbD_and, inside, Bool.and_true] using bit
  · intro same
    apply BitVec.eq_of_getLsbD_eq
    intro i _
    simp only [system, BitVec.getLsbD_and]
    cases inside : systemBits.getLsbD i with
    | false => simp only [Bool.and_false]
    | true => rw [same i inside]

theorem getLsbD_of_system {x y : StatusWord} (same : x.system = y.system) {i : Nat}
    (inside : systemBits.getLsbD i = true) : x.getLsbD i = y.getLsbD i :=
  (system_eq_iff x y).mp same i inside

theorem has_supervisor_of_system {x y : StatusWord} (same : x.system = y.system) :
    x.has .supervisor = y.has .supervisor := by
  rw [has_supervisor, has_supervisor]
  exact getLsbD_of_system same (by decide)

theorem interruptMask_of_system {x y : StatusWord} (same : x.system = y.system) :
    x.interruptMask = y.interruptMask := by
  have inner (z : StatusWord) : z &&& interruptField = z.system &&& interruptField := by
    rw [system, BitVec.and_assoc]
    rfl
  rw [interruptMask, interruptMask, inner x, inner y, same]

@[simp] theorem system_system (status : StatusWord) : system status.system = status.system := by
  rw [system, system, BitVec.and_assoc, BitVec.and_self]

theorem has_supervisor_system (status : StatusWord) :
    status.system.has .supervisor = status.has .supervisor :=
  has_supervisor_of_system status.system_system

@[simp] theorem system_implemented (status : StatusWord) :
    system (status &&& implemented) = status.system := by
  rw [system, system, BitVec.and_assoc]
  rfl

theorem implemented_and (status : StatusWord) : Implemented (status &&& implemented) := by
  rw [Implemented, BitVec.and_assoc, BitVec.and_self]

theorem getLsbD_of_outside {flags : StatusWord} (outside : flags.system = 0) {i : Nat}
    (inside : systemBits.getLsbD i = true) : flags.getLsbD i = false :=
  (getLsbD_of_system (y := 0) (outside.trans (by decide)) inside).trans BitVec.getLsbD_zero

/-- Condition codes are no part of the system byte. -/
theorem system_clear {flags : StatusWord} (outside : flags.system = 0) (status : StatusWord) :
    system (status.clear flags) = status.system := by
  rw [system_eq_iff]
  intro i inside
  rw [getLsbD_clear status flags (BitVec.lt_of_getLsbD inside), getLsbD_of_outside outside inside,
    Bool.not_false, Bool.and_true]

theorem system_or {flags : StatusWord} (outside : flags.system = 0) (status : StatusWord) :
    system (status ||| flags) = status.system := by
  rw [system_eq_iff]
  intro i inside
  rw [BitVec.getLsbD_or, getLsbD_of_outside outside inside, Bool.or_false]

theorem system_setIf {flags : StatusWord} (outside : flags.system = 0) (status : StatusWord)
    (condition : Bool) : system (status.setIf flags condition) = status.system := by
  cases condition with
  | false => exact system_clear outside status
  | true => exact system_or outside status

@[simp] theorem system_setIf_carry (status : StatusWord) (condition : Bool) :
    system (status.setIf .carry condition) = status.system := system_setIf rfl status condition

@[simp] theorem system_setIf_overflow (status : StatusWord) (condition : Bool) :
    system (status.setIf .overflow condition) = status.system := system_setIf rfl status condition

@[simp] theorem system_setIf_zero (status : StatusWord) (condition : Bool) :
    system (status.setIf .zero condition) = status.system := system_setIf rfl status condition

@[simp] theorem system_setIf_negative (status : StatusWord) (condition : Bool) :
    system (status.setIf .negative condition) = status.system := system_setIf rfl status condition

@[simp] theorem system_setIf_extend (status : StatusWord) (condition : Bool) :
    system (status.setIf .extend condition) = status.system := system_setIf rfl status condition

@[simp] theorem system_withSign (status : StatusWord) (size : Size) (value : BitVec 32) :
    system (status.withSign size value) = status.system := by
  simp only [withSign, system_setIf_negative, system_setIf_zero]

@[simp] theorem system_withLogical (status : StatusWord) (size : Size) (value : BitVec 32) :
    system (status.withLogical size value) = status.system := by
  rw [withLogical, system_withSign, system_clear rfl]

end StatusWord

namespace Arithmetic

open StatusWord

/-- An operation that reads a status word and gives one with the same system byte. -/
def KeepsSystem (operation : StatusWord → Outcome) : Prop :=
  ∀ status, (operation status).2.system = status.system

theorem Limb.system_compareFlags (size : Size) (limb : Limb) (status : StatusWord) :
    (limb.compareFlags size status).system = status.system := by
  simp only [compareFlags, system_setIf_carry, system_setIf_overflow, system_withSign]

theorem Limb.system_wholeFlags (size : Size) (limb : Limb) (status : StatusWord) :
    (limb.wholeFlags size status).system = status.system := by
  rw [wholeFlags, system_setIf_extend, system_compareFlags]

theorem Limb.system_chainFlags (size : Size) (limb : Limb) (status : StatusWord) :
    (limb.chainFlags size status).system = status.system := by
  simp only [chainFlags, system_setIf_extend, system_setIf_carry, system_setIf_overflow,
    system_setIf_negative]
  split
  · exact system_clear rfl status
  · rfl

theorem keepsSystem_compare (size : Size) (src dst : BitVec 32) :
    KeepsSystem (compare size src dst) := fun status => Limb.system_compareFlags size _ status

theorem keepsSystem_logical (size : Size) (value : BitVec 32) : KeepsSystem (logical size value) :=
  fun status => system_withLogical status size _

theorem system_decimalFlags (result : BitVec 8) (overflow carry : Bool) (status : StatusWord) :
    (decimalFlags result overflow carry status).system = status.system := by
  simp only [decimalFlags, system_setIf_extend, system_setIf_carry, system_setIf_overflow,
    system_setIf_negative]
  split
  · exact system_clear rfl status
  · rfl

theorem keepsSystem_shift (kind : ShiftKind) (direction : Direction) (size : Size)
    (value : BitVec 32) (count : Nat) : KeepsSystem (shift kind direction size value count) := by
  intro status
  unfold shift
  split
  · simp only [system_setIf_carry, system_setIf_overflow, system_withSign]
  · simp only
    split
    · simp only [system_setIf_carry, system_setIf_overflow, system_withSign]
    · simp only [system_setIf_extend, system_setIf_carry, system_setIf_overflow, system_withSign]

end Arithmetic

open Arithmetic (KeepsSystem)

theorem SumOperation.keepsSystem_apply (operation : SumOperation) (size : Size)
    (src dst : BitVec 32) : KeepsSystem (operation.apply size src dst) := by
  intro status
  cases operation with
  | add => exact Arithmetic.Limb.system_wholeFlags size _ status
  | subtract => exact Arithmetic.Limb.system_wholeFlags size _ status

theorem SumOperation.keepsSystem_applyExtended (operation : SumOperation) (size : Size)
    (src dst : BitVec 32) : KeepsSystem (operation.applyExtended size src dst) := by
  intro status
  cases operation with
  | add => exact Arithmetic.Limb.system_chainFlags size _ status
  | subtract => exact Arithmetic.Limb.system_chainFlags size _ status

theorem keepsSystem_decimalOutcome (operation : SumOperation) (src dst : BitVec 32) :
    KeepsSystem (Exec.decimalOutcome operation src dst) := by
  intro status
  cases operation with
  | add => exact Arithmetic.system_decimalFlags _ _ _ status
  | subtract => exact Arithmetic.system_decimalFlags _ _ _ status

theorem keepsSystem_negateDecimal (value : BitVec 32) :
    KeepsSystem fun status =>
      let (result, flags) := Arithmetic.negateDecimal (value.setWidth 8) status
      (result.setWidth 32, flags) :=
  fun status => Arithmetic.system_decimalFlags _ _ _ status

theorem ImmediateOperation.keepsSystem_apply (operation : ImmediateOperation) (size : Size)
    (src dst : BitVec 32) : KeepsSystem (operation.apply size src dst) := by
  cases operation with
  | logic operation => exact Arithmetic.keepsSystem_logical size _
  | sum operation => exact operation.keepsSystem_apply size src dst
  | compare => exact Arithmetic.keepsSystem_compare size src dst

theorem UnaryOperation.keepsSystem_apply (operation : UnaryOperation) (size : Size)
    (value : BitVec 32) : KeepsSystem (operation.apply size value) := by
  intro status
  cases operation with
  | negateExtended => exact Arithmetic.Limb.system_chainFlags size _ status
  | clear => exact Arithmetic.keepsSystem_logical size 0 status
  | negate => exact Arithmetic.Limb.system_wholeFlags size _ status
  | complement => exact Arithmetic.keepsSystem_logical size (~~~value) status

namespace Registers

/-- A change of the registers that any program may make: the system byte and the shadow stack pointer
stay, and no bit appears in the status word that does not exist. -/
structure Unprivileged (r r' : Registers) : Prop where
  system : r'.status.system = r.status.system
  shadow : r'.shadow = r.shadow
  implemented : r.status.Implemented → r'.status.Implemented

theorem Unprivileged.refl (r : Registers) : r.Unprivileged r := ⟨rfl, rfl, id⟩

theorem Unprivileged.trans {r r' r'' : Registers} (first : r.Unprivileged r')
    (second : r'.Unprivileged r'') : r.Unprivileged r'' :=
  ⟨second.system.trans first.system, second.shadow.trans first.shadow,
    second.implemented ∘ first.implemented⟩

/-- The mode is part of the system byte. -/
theorem Unprivileged.isSupervisor {r r' : Registers} (h : r.Unprivileged r') :
    r'.isSupervisor = r.isSupervisor := StatusWord.has_supervisor_of_system h.system

theorem unprivileged_setData (r : Registers) (n : Fin 8) (value : BitVec 32) :
    r.Unprivileged (r.setData n value) := ⟨rfl, rfl, id⟩

theorem unprivileged_setAddress (r : Registers) (n : Fin 8) (value : BitVec 32) :
    r.Unprivileged (r.setAddress n value) := ⟨rfl, rfl, id⟩

theorem unprivileged_pc (r : Registers) (pc : BitVec 32) : r.Unprivileged { r with pc } :=
  ⟨rfl, rfl, id⟩

theorem unprivileged_setDataPart (r : Registers) (n : Fin 8) (size : Size) (value : BitVec 32) :
    r.Unprivileged (r.setDataPart n size value) := by
  cases size <;> exact unprivileged_setData r n _

/-- A status word of the same system byte leaves the stack pointers alone. -/
theorem unprivileged_setStatus {r : Registers} {value : StatusWord}
    (same : value.system = r.status.system) : r.Unprivileged (r.setStatus value) := by
  rw [setStatus_of_same (StatusWord.has_supervisor_of_system same)]
  exact ⟨value.system_implemented.trans same, rfl, fun _ => value.implemented_and⟩

theorem implemented_setStatus (r : Registers) (value : StatusWord) :
    (r.setStatus value).status.Implemented := by
  unfold setStatus
  dsimp only
  split <;> exact value.implemented_and

theorem implemented_setConditionCodes {r : Registers} (value : BitVec 8)
    (h : r.status.Implemented) : (r.setConditionCodes value).status.Implemented := by
  apply BitVec.eq_of_getLsbD_eq
  intro i small
  have bit := congrArg (fun z : StatusWord => z.getLsbD i) h
  have inside : ∀ k < 16, StatusWord.conditionCodes.getLsbD k = true →
      StatusWord.implemented.getLsbD k = true := by decide
  simp only [BitVec.getLsbD_and] at bit
  simp only [setConditionCodes, BitVec.getLsbD_and, BitVec.getLsbD_or,
    StatusWord.getLsbD_clear _ _ small]
  cases code : StatusWord.conditionCodes.getLsbD i with
  | false => simpa only [Bool.not_false, Bool.and_true, Bool.and_false, Bool.or_false] using bit
  | true => rw [inside i small code, Bool.and_true]

/-- Whatever register the host writes, no bit appears in the status word that does not exist. -/
theorem implemented_set {r : Registers} (h : r.status.Implemented) (register : Register)
    (value : BitVec 32) : (r.set register value).status.Implemented := by
  cases register with
  | data n => exact h
  | address n => exact h
  | shadow => exact h
  | pc => exact h
  | status => exact r.implemented_setStatus _

theorem unprivileged_setConditionCodes (r : Registers) (value : BitVec 8) :
    r.Unprivileged (r.setConditionCodes value) := by
  refine ⟨?_, rfl, implemented_setConditionCodes value⟩
  have outside : StatusWord.system (value.setWidth 16 &&& .conditionCodes) = 0 := by
    rw [StatusWord.system, BitVec.and_assoc]
    exact BitVec.and_zero
  exact (StatusWord.system_or outside _).trans (StatusWord.system_clear rfl r.status)

end Registers

end MC68000
