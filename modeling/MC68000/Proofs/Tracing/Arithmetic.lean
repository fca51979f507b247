import MC68000.Proofs.Tracing.Operations

set_option autoImplicit false

namespace MC68000

variable {World : Type}

namespace Arithmetic

/-- An operation that gives one result whether or not T is set, and flags that are the same but for T. -/
def IgnoresTrace {α : Type} (operation : StatusWord → α × StatusWord) : Prop :=
  ∀ old old' : StatusWord, old.SameButTrace old' →
    (operation old).1 = (operation old').1 ∧ (operation old).2.SameButTrace (operation old').2

variable {old old' : StatusWord} (size : Size)

theorem Limb.sameButTrace_compareFlags (same : old.SameButTrace old') (limb : Limb) :
    (limb.compareFlags size old).SameButTrace (limb.compareFlags size old') :=
  ((same.withSign size limb.result).setIf .overflow limb.overflow).setIf .carry limb.carry

theorem Limb.sameButTrace_wholeFlags (same : old.SameButTrace old') (limb : Limb) :
    (limb.wholeFlags size old).SameButTrace (limb.wholeFlags size old') :=
  (limb.sameButTrace_compareFlags size same).setIf .extend limb.carry

/-- Clearing Z where a result is not zero. -/
theorem sameButTrace_clearZero (same : old.SameButTrace old') (nonzero : Bool) :
    StatusWord.SameButTrace (if nonzero then old.clear .zero else old)
      (if nonzero then old'.clear .zero else old') := by
  split
  · exact same.clear .zero
  · exact same

theorem Limb.sameButTrace_chainFlags (same : old.SameButTrace old') (limb : Limb) :
    (limb.chainFlags size old).SameButTrace (limb.chainFlags size old') :=
  ((((sameButTrace_clearZero same (limb.result != 0)).setIf .negative _).setIf .overflow _).setIf
    .carry _).setIf .extend _

theorem sameButTrace_decimalFlags (same : old.SameButTrace old') (result : BitVec 8)
    (overflow carry : Bool) : (decimalFlags result overflow carry old).SameButTrace
      (decimalFlags result overflow carry old') :=
  ((((sameButTrace_clearZero same (result != 0)).setIf .negative _).setIf .overflow _).setIf
    .carry _).setIf .extend _

theorem ignoresTrace_compare (src dst : BitVec 32) : IgnoresTrace (compare size src dst) :=
  fun _ _ same => ⟨rfl, Limb.sameButTrace_compareFlags size same _⟩

theorem ignoresTrace_subtractExtended (src dst : BitVec 32) :
    IgnoresTrace (subtractExtended size src dst) := by
  intro old old' same
  unfold subtractExtended
  rw [same.has_extend]
  exact ⟨rfl, Limb.sameButTrace_chainFlags size same _⟩

theorem ignoresTrace_addExtended (src dst : BitVec 32) :
    IgnoresTrace (addExtended size src dst) := by
  intro old old' same
  unfold addExtended
  rw [same.has_extend]
  exact ⟨rfl, Limb.sameButTrace_chainFlags size same _⟩

theorem ignoresTrace_logical (value : BitVec 32) : IgnoresTrace (logical size value) :=
  fun _ _ same => ⟨rfl, same.withLogical size _⟩

theorem ignoresTrace_addDecimal (src dst : BitVec 8) : IgnoresTrace (addDecimal src dst) := by
  intro old old' same
  unfold addDecimal
  rw [same.has_extend]
  exact ⟨rfl, sameButTrace_decimalFlags same _ _ _⟩

theorem ignoresTrace_subtractDecimal (src dst : BitVec 8) :
    IgnoresTrace (subtractDecimal src dst) := by
  intro old old' same
  unfold subtractDecimal
  rw [same.has_extend]
  exact ⟨rfl, sameButTrace_decimalFlags same _ _ _⟩

theorem ignoresTrace_shift (kind : ShiftKind) (direction : Direction) (value : BitVec 32)
    (count : Nat) : IgnoresTrace (shift kind direction size value count) := by
  intro old old' same
  unfold shift
  rw [same.has_extend]
  dsimp only
  generalize Nat.repeat _ count _ = final
  have flags := (same.withSign size final.value).setIf .overflow final.overflow
  split
  · exact ⟨rfl, flags.setIf .carry _⟩
  · split
    · exact ⟨rfl, flags.setIf .carry _⟩
    · exact ⟨rfl, (flags.setIf .carry _).setIf .extend _⟩

end Arithmetic

open Arithmetic (ShiftKind Direction)

theorem SumOperation.ignoresTrace_apply (operation : SumOperation) (size : Size)
    (src dst : BitVec 32) : Arithmetic.IgnoresTrace (operation.apply size src dst) := by
  intro old old' same
  cases operation with
  | add => exact ⟨rfl, Arithmetic.Limb.sameButTrace_wholeFlags size same _⟩
  | subtract => exact ⟨rfl, Arithmetic.Limb.sameButTrace_wholeFlags size same _⟩

theorem SumOperation.ignoresTrace_applyExtended (operation : SumOperation) (size : Size)
    (src dst : BitVec 32) : Arithmetic.IgnoresTrace (operation.applyExtended size src dst) := by
  cases operation with
  | add => exact Arithmetic.ignoresTrace_addExtended size src dst
  | subtract => exact Arithmetic.ignoresTrace_subtractExtended size src dst

theorem ignoresTrace_decimalOutcome (operation : SumOperation) (src dst : BitVec 32) :
    Arithmetic.IgnoresTrace (Exec.decimalOutcome operation src dst) := by
  intro old old' same
  cases operation with
  | add =>
    obtain ⟨result, flags⟩ :=
      Arithmetic.ignoresTrace_addDecimal (src.setWidth 8) (dst.setWidth 8) old old' same
    exact ⟨congrArg (BitVec.setWidth 32) result, flags⟩
  | subtract =>
    obtain ⟨result, flags⟩ :=
      Arithmetic.ignoresTrace_subtractDecimal (src.setWidth 8) (dst.setWidth 8) old old' same
    exact ⟨congrArg (BitVec.setWidth 32) result, flags⟩

theorem ImmediateOperation.ignoresTrace_apply (operation : ImmediateOperation) (size : Size)
    (src dst : BitVec 32) : Arithmetic.IgnoresTrace (operation.apply size src dst) := by
  cases operation with
  | logic operation => exact Arithmetic.ignoresTrace_logical size _
  | sum operation => exact operation.ignoresTrace_apply size src dst
  | compare =>
    exact fun old old' same => ⟨rfl, (Arithmetic.ignoresTrace_compare size src dst old old' same).2⟩

theorem UnaryOperation.ignoresTrace_apply (operation : UnaryOperation) (size : Size)
    (value : BitVec 32) : Arithmetic.IgnoresTrace (operation.apply size value) := by
  cases operation with
  | negateExtended => exact Arithmetic.ignoresTrace_subtractExtended size value 0
  | clear => exact Arithmetic.ignoresTrace_logical size 0
  | negate => exact SumOperation.subtract.ignoresTrace_apply size value 0
  | complement => exact Arithmetic.ignoresTrace_logical size (~~~value)

namespace Exec

theorem Alike.store {value value' : BitVec 32} (same : value = value') (operand : Operand)
    (size : Size) : Alike (store operand size value : Exec World Unit) (store operand size value') := by
  rw [same]
  exact ignoresTrace_store operand size value'

theorem Alike.setDataPart {value value' : BitVec 32} (same : value = value') (n : Fin 8)
    (size : Size) : Alike (Exec.update (·.setDataPart n size value) : Exec World Unit)
      (Exec.update (·.setDataPart n size value')) := by
  rw [same]
  exact ignoresTrace_setDataPart n size value'

theorem Alike.storeOutcome {outcome outcome' : Arithmetic.Outcome}
    (alike : outcome.1 = outcome'.1 ∧ outcome.2.SameButTrace outcome'.2) (operand : Operand)
    (size : Size) (cost : Nat) :
    Alike (do Exec.store operand size outcome.1; Exec.setStatus outcome.2; return cost : Exec World Nat)
      (do Exec.store operand size outcome'.1; Exec.setStatus outcome'.2; return cost) := by
  refine .bind (.store alike.1 operand size) fun _ => ?_
  exact .bind (.setStatus alike.2) fun _ => ignoresTrace_pure cost

theorem Alike.setOutcome {outcome outcome' : Arithmetic.Outcome}
    (alike : outcome.1 = outcome'.1 ∧ outcome.2.SameButTrace outcome'.2) (n : Fin 8) (size : Size)
    (cost : Nat) :
    Alike (do Exec.update (·.setDataPart n size outcome.1); Exec.setStatus outcome.2; return cost :
        Exec World Nat)
      (do Exec.update (·.setDataPart n size outcome'.1); Exec.setStatus outcome'.2; return cost) := by
  refine .bind (.setDataPart alike.1 n size) fun _ => ?_
  exact .bind (.setStatus alike.2) fun _ => ignoresTrace_pure cost

theorem ignoresTrace_readModifyWrite (destination : AddressingMode) (size : Size)
    {operation : BitVec 32 → StatusWord → Arithmetic.Outcome}
    (ignores : ∀ value, Arithmetic.IgnoresTrace (operation value)) :
    IgnoresTrace (readModifyWrite destination size operation : Exec World Unit) := by
  refine (ignoresTrace_locate destination size).bind fun target => ?_
  refine (ignoresTrace_load target size).bind fun value => .status fun old old' same => ?_
  obtain ⟨result, flags⟩ := ignores value old old' same
  exact .bind (.store result target size) fun _ => .setStatus flags

theorem ignoresTrace_intoRegister (source : AddressingMode) (size : Size) (n : Fin 8)
    {operation : BitVec 32 → BitVec 32 → StatusWord → Arithmetic.Outcome}
    (ignores : ∀ src dst, Arithmetic.IgnoresTrace (operation src dst)) :
    IgnoresTrace (intoRegister source size n operation : Exec World Unit) := by
  refine (ignoresTrace_loadFrom source size).bind fun value => .registers ?_
  rintro r _ ⟨status, rfl, same⟩
  obtain ⟨result, flags⟩ := ignores value (r.d.get n) r.status status same
  exact .bind (.setDataPart result n size) fun _ => .setStatus flags

theorem ignoresTrace_betweenPredecremented (size : Size) (x y : Fin 8)
    {operation : BitVec 32 → BitVec 32 → StatusWord → Arithmetic.Outcome}
    (ignores : ∀ src dst, Arithmetic.IgnoresTrace (operation src dst)) :
    IgnoresTrace (betweenPredecremented size x y operation : Exec World Unit) :=
  (ignoresTrace_loadFrom _ size).bind fun source => ignoresTrace_readModifyWrite _ size (ignores source)

theorem ignoresTrace_immediate (operation : ImmediateOperation) (size : Size)
    (destination : AddressingMode) :
    IgnoresTrace (immediate operation size destination : Exec World Nat) := by
  refine (ignoresTrace_fetchImmediate size).bind fun source => ?_
  refine (ignoresTrace_locate destination size).bind fun target => ?_
  refine (ignoresTrace_load target size).bind fun value => .status fun old old' same => ?_
  have outcomes := operation.ignoresTrace_apply size source value old old' same
  dsimp only
  split
  · exact .bind (.setStatus outcomes.2) fun _ => ignoresTrace_pure _
  · exact .storeOutcome outcomes target size _

theorem ignoresTrace_sumToRegister (operation : SumOperation) (size : Size) (source : AddressingMode)
    (n : Fin 8) : IgnoresTrace (sumToRegister operation size source n : Exec World Nat) :=
  (ignoresTrace_intoRegister source size n (operation.ignoresTrace_apply size)).bind fun _ =>
    ignoresTrace_pure _

theorem ignoresTrace_sumToMemory (operation : SumOperation) (size : Size) (n : Fin 8)
    (destination : AddressingMode) :
    IgnoresTrace (sumToMemory operation size n destination : Exec World Nat) := by
  refine (ignoresTrace_locate destination size).bind fun target => ?_
  refine (ignoresTrace_load target size).bind fun value => .registers ?_
  rintro r _ ⟨status, rfl, same⟩
  exact .storeOutcome (operation.ignoresTrace_apply size (r.d.get n) value r.status status same)
    target size _

theorem ignoresTrace_sumToAddress (operation : SumOperation) (size : Size) (source : AddressingMode)
    (n : Fin 8) : IgnoresTrace (sumToAddress operation size source n : Exec World Nat) := by
  refine (ignoresTrace_loadFrom source size).bind fun value => ?_
  exact (ignoresTrace_update fun _ _ => rfl).bind fun _ => ignoresTrace_pure _

theorem ignoresTrace_extendedRegisters (operation : SumOperation) (size : Size) (x y : Fin 8) :
    IgnoresTrace (extendedRegisters operation size x y : Exec World Nat) := by
  refine .registers ?_
  rintro r _ ⟨status, rfl, same⟩
  exact .setOutcome (operation.ignoresTrace_applyExtended size (r.d.get y) (r.d.get x) r.status status
    same) x size _

theorem ignoresTrace_extendedMemory (operation : SumOperation) (size : Size) (x y : Fin 8) :
    IgnoresTrace (extendedMemory operation size x y : Exec World Nat) :=
  (ignoresTrace_betweenPredecremented size x y (operation.ignoresTrace_applyExtended size)).bind
    fun _ => ignoresTrace_pure _

theorem ignoresTrace_cmp (size : Size) (source : AddressingMode) (n : Fin 8) :
    IgnoresTrace (cmp size source n : Exec World Nat) := by
  refine (ignoresTrace_loadFrom source size).bind fun value => .registers ?_
  rintro r _ ⟨status, rfl, same⟩
  have flags := (Arithmetic.ignoresTrace_compare size value (r.d.get n) r.status status same).2
  exact .bind (.setStatus flags) fun _ => ignoresTrace_pure _

theorem ignoresTrace_cmpa (size : Size) (source : AddressingMode) (n : Fin 8) :
    IgnoresTrace (cmpa size source n : Exec World Nat) := by
  refine (ignoresTrace_loadFrom source size).bind fun value => .registers ?_
  rintro r _ ⟨status, rfl, same⟩
  have flags := (Arithmetic.ignoresTrace_compare .long (size.signExtend value) (r.a.get n) r.status
    status same).2
  exact .bind (.setStatus flags) fun _ => ignoresTrace_pure _

theorem ignoresTrace_cmpm (size : Size) (x y : Fin 8) :
    IgnoresTrace (cmpm size x y : Exec World Nat) := by
  refine (ignoresTrace_loadFrom _ size).bind fun source => ?_
  refine (ignoresTrace_loadFrom _ size).bind fun destination => .status fun old old' same => ?_
  have flags := (Arithmetic.ignoresTrace_compare size source destination old old' same).2
  exact .bind (.setStatus flags) fun _ => ignoresTrace_pure _

theorem ignoresTrace_quick (operation : SumOperation) (size : Size) (value : BitVec 32)
    (destination : AddressingMode) :
    IgnoresTrace (quick operation size value destination : Exec World Nat) := by
  unfold quick
  split
  · exact (ignoresTrace_update fun _ _ => rfl).bind fun _ => ignoresTrace_pure _
  · exact (ignoresTrace_readModifyWrite _ size (operation.ignoresTrace_apply size value)).bind
      fun _ => ignoresTrace_pure _

theorem ignoresTrace_unary (operation : UnaryOperation) (size : Size) (destination : AddressingMode) :
    IgnoresTrace (unary operation size destination : Exec World Nat) :=
  (ignoresTrace_readModifyWrite destination size (operation.ignoresTrace_apply size)).bind fun _ =>
    ignoresTrace_pure _

theorem ignoresTrace_tst (size : Size) (source : AddressingMode) :
    IgnoresTrace (tst size source : Exec World Nat) := by
  refine (ignoresTrace_loadFrom source size).bind fun value => .status fun old old' same => ?_
  exact .bind (.setStatus (same.withLogical size value)) fun _ => ignoresTrace_pure _

theorem ignoresTrace_logicToRegister (operation : LogicOperation) (size : Size)
    (source : AddressingMode) (n : Fin 8) :
    IgnoresTrace (logicToRegister operation size source n : Exec World Nat) :=
  (ignoresTrace_intoRegister source size n fun _ _ => Arithmetic.ignoresTrace_logical size _).bind
    fun _ => ignoresTrace_pure _

theorem ignoresTrace_logicToMemory (operation : LogicOperation) (size : Size) (n : Fin 8)
    (destination : AddressingMode) :
    IgnoresTrace (logicToMemory operation size n destination : Exec World Nat) := by
  refine (ignoresTrace_locate destination size).bind fun target => ?_
  refine (ignoresTrace_load target size).bind fun value => .registers ?_
  rintro r _ ⟨status, rfl, same⟩
  exact .storeOutcome (Arithmetic.ignoresTrace_logical size _ r.status status same) target size _

theorem ignoresTrace_eor (size : Size) (n : Fin 8) (destination : AddressingMode) :
    IgnoresTrace (eor size n destination : Exec World Nat) := by
  refine (ignoresTrace_locate destination size).bind fun target => ?_
  refine (ignoresTrace_load target size).bind fun value => .registers ?_
  rintro r _ ⟨status, rfl, same⟩
  exact .storeOutcome (Arithmetic.ignoresTrace_logical size _ r.status status same) target size _

theorem ignoresTrace_bit (operation : BitOperation) (number : BitVec 32)
    (destination : AddressingMode) :
    IgnoresTrace (bit operation number destination : Exec World Nat) := by
  unfold bit
  dsimp only
  refine (ignoresTrace_locate destination _).bind fun target => ?_
  refine (ignoresTrace_load target _).bind fun value => .status fun old old' same => ?_
  refine .bind (.setStatus (same.setIf .zero _)) fun _ => ?_
  split
  · exact ignoresTrace_pure _
  · exact (ignoresTrace_store target _ _).bind fun _ => ignoresTrace_pure _

theorem ignoresTrace_bitLiteral (operation : BitOperation) (destination : AddressingMode) :
    IgnoresTrace (bitLiteral operation destination : Exec World Nat) := by
  refine (ignoresTrace_fetchImmediate .byte).bind fun number => ?_
  exact (ignoresTrace_bit operation number destination).bind fun _ => ignoresTrace_pure _

theorem ignoresTrace_bitRegister (operation : BitOperation) (n : Fin 8)
    (destination : AddressingMode) :
    IgnoresTrace (bitRegister operation n destination : Exec World Nat) :=
  ignoresTrace_registers (fun _ _ => rfl) fun r => ignoresTrace_bit operation (r.d.get n) destination

theorem ignoresTrace_tas (destination : AddressingMode) :
    IgnoresTrace (tas destination : Exec World Nat) := by
  refine (ignoresTrace_locate destination .byte).bind fun target => ?_
  refine (ignoresTrace_load target .byte).bind fun value => .status fun old old' same => ?_
  refine .bind (.setStatus (same.withLogical .byte value)) fun _ => ?_
  exact (ignoresTrace_store target .byte _).bind fun _ => ignoresTrace_pure _

theorem ignoresTrace_nbcd (destination : AddressingMode) :
    IgnoresTrace (nbcd destination : Exec World Nat) := by
  refine (ignoresTrace_readModifyWrite destination .byte fun value old old' same => ?_).bind fun _ =>
    ignoresTrace_pure _
  obtain ⟨result, flags⟩ :=
    Arithmetic.ignoresTrace_subtractDecimal (value.setWidth 8) 0 old old' same
  exact ⟨congrArg (BitVec.setWidth 32) result, flags⟩

theorem ignoresTrace_decimalRegisters (operation : SumOperation) (x y : Fin 8) :
    IgnoresTrace (decimalRegisters operation x y : Exec World Nat) := by
  refine .registers ?_
  rintro r _ ⟨status, rfl, same⟩
  exact .setOutcome (ignoresTrace_decimalOutcome operation (r.d.get y) (r.d.get x) r.status status same)
    x .byte 6

theorem ignoresTrace_decimalMemory (operation : SumOperation) (x y : Fin 8) :
    IgnoresTrace (decimalMemory operation x y : Exec World Nat) :=
  (ignoresTrace_betweenPredecremented .byte x y (ignoresTrace_decimalOutcome operation)).bind fun _ =>
    ignoresTrace_pure 18

theorem ignoresTrace_setProduct (n : Fin 8) (product : BitVec 32) :
    IgnoresTrace (setProduct n product : Exec World Unit) := by
  refine (ignoresTrace_update fun _ _ => rfl).bind fun _ => .status fun old old' same => ?_
  exact .setStatus (same.withLogical .long product)

theorem ignoresTrace_mulu (source : AddressingMode) (n : Fin 8) :
    IgnoresTrace (mulu source n : Exec World Nat) := by
  refine (ignoresTrace_loadFrom source .word).bind fun value => ?_
  refine ignoresTrace_registers (fun _ _ => rfl) fun r => ?_
  exact (ignoresTrace_setProduct n _).bind fun _ => ignoresTrace_pure _

theorem ignoresTrace_muls (source : AddressingMode) (n : Fin 8) :
    IgnoresTrace (muls source n : Exec World Nat) := by
  refine (ignoresTrace_loadFrom source .word).bind fun value => ?_
  refine ignoresTrace_registers (fun _ _ => rfl) fun r => ?_
  exact (ignoresTrace_setProduct n _).bind fun _ => ignoresTrace_pure _

theorem ignoresTrace_divide (source : AddressingMode) (n : Fin 8)
    (quotient? : BitVec 32 → BitVec 16 → Option Arithmetic.Quotient)
    (cost : BitVec 32 → BitVec 16 → Nat) :
    IgnoresTrace (divide source n quotient? cost : Exec World Nat) := by
  refine (ignoresTrace_loadFrom source .word).bind fun value => .registers ?_
  rintro r _ ⟨status, rfl, same⟩
  dsimp only
  split
  · exact .bind (.setStatus (same.clear .carry)) fun _ => ignoresTrace_throw _
  · split
    · exact .bind (.setStatus ((same.clear .carry).setIf .overflow true)) fun _ => ignoresTrace_pure _
    next q _ =>
      refine (ignoresTrace_update fun _ _ => rfl).bind fun _ => ?_
      exact .bind (.setStatus (same.withLogical .word (q.quotient.setWidth 32))) fun _ =>
        ignoresTrace_pure _

theorem ignoresTrace_chk (bound : AddressingMode) (n : Fin 8) :
    IgnoresTrace (chk bound n : Exec World Nat) := by
  refine (ignoresTrace_loadFrom bound .word).bind fun value => .registers ?_
  rintro r _ ⟨status, rfl, same⟩
  have flags := (same.clear (.overflow ||| .carry)).setIf .zero (((r.d.get n).setWidth 16).toInt == 0)
  dsimp only
  split
  · exact .bind (.setStatus (flags.setIf .negative _)) fun _ => ignoresTrace_throw _
  · exact .bind (.setStatus flags) fun _ => ignoresTrace_pure _

theorem ignoresTrace_shiftRegister (kind : ShiftKind) (direction : Direction) (size : Size)
    (count : ShiftCount) (n : Fin 8) :
    IgnoresTrace (shiftRegister kind direction size count n : Exec World Nat) := by
  refine .registers ?_
  rintro r _ ⟨status, rfl, same⟩
  exact .setOutcome (Arithmetic.ignoresTrace_shift size kind direction (r.d.get n) _ r.status status
    same) n size _

theorem ignoresTrace_shiftMemory (kind : ShiftKind) (direction : Direction)
    (destination : AddressingMode) :
    IgnoresTrace (shiftMemory kind direction destination : Exec World Nat) :=
  (ignoresTrace_readModifyWrite destination .word fun value =>
    Arithmetic.ignoresTrace_shift .word kind direction value 1).bind fun _ => ignoresTrace_pure _

end Exec

end MC68000
