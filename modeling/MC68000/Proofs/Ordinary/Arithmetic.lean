import MC68000.Proofs.Decoding
import MC68000.Proofs.Ordinary

set_option autoImplicit false

namespace MC68000.Exec

variable {World : Type}

open Arithmetic (KeepsSystem)

variable {s : StatusWord} {raises : Exception → Prop}

theorem plain_readModifyWrite {destination : AddressingMode} (alterable : destination.isAlterable = true)
    (size : Size) {operation : BitVec 32 → StatusWord → Arithmetic.Outcome}
    (keeps : ∀ value, KeepsSystem (operation value)) :
    Plain s raises (readModifyWrite destination size operation : Exec World Unit) := by
  refine .bind (ordinary_locate destination size) fun target located => ?_
  refine (plain_load target size).andThen fun value => ?_
  refine .bind ordinary_status fun old same => ?_
  refine (plain_store (located.isWritable alterable) size _).andThen fun _ => ?_
  exact plain_setStatus ((keeps value old).trans same)

theorem plain_intoRegister (source : AddressingMode) (size : Size) (n : Fin 8)
    {operation : BitVec 32 → BitVec 32 → StatusWord → Arithmetic.Outcome}
    (keeps : ∀ src dst, KeepsSystem (operation src dst)) :
    Plain s raises (intoRegister source size n operation : Exec World Unit) := by
  refine (plain_loadFrom source size).andThen fun value => .bind .registers fun r same => ?_
  refine (plain_update fun r' => r'.unprivileged_setDataPart n size _).andThen fun _ => ?_
  exact plain_setStatus ((keeps value (r.d.get n) r.status).trans same)

theorem plain_betweenPredecremented (size : Size) (x y : Fin 8)
    {operation : BitVec 32 → BitVec 32 → StatusWord → Arithmetic.Outcome}
    (keeps : ∀ src dst, KeepsSystem (operation src dst)) :
    Plain s raises (betweenPredecremented size x y operation : Exec World Unit) :=
  (plain_loadFrom _ size).andThen fun source => plain_readModifyWrite rfl size (keeps source)

theorem timed_immediate (operation : ImmediateOperation) (size : Size)
    {destination : AddressingMode} (alterable : destination.isAlterable = true) :
    Timed s raises (immediate operation size destination : Exec World Nat) := by
  refine (plain_fetchImmediate size).andThen fun source => ?_
  refine .bind (ordinary_locate destination size) fun target located => ?_
  refine (plain_load target size).andThen fun value => ?_
  refine .bind ordinary_status fun old same => ?_
  have flags := (operation.keepsSystem_apply size source value old).trans same
  dsimp only
  split
  · refine (plain_setStatus flags).andThen fun _ => .pure ?_
    exact Timing.within_readModifyWrite (by decide) (by decide) (by decide) (by decide) _ _
  · refine (plain_store (located.isWritable alterable) size _).andThen fun _ => ?_
    refine (plain_setStatus flags).andThen fun _ => .pure ?_
    exact Timing.within_readModifyWrite (by decide) (by decide) (by decide) (by decide) _ _

theorem timed_sumToRegister (operation : SumOperation) (size : Size) (source : AddressingMode)
    (n : Fin 8) : Timed s raises (sumToRegister operation size source n : Exec World Nat) :=
  (plain_intoRegister source size n (operation.keepsSystem_apply size)).andThen
    fun _ => .pure ((Timing.within_toRegister source size).mono (by decide))

theorem timed_sumToMemory (operation : SumOperation) (size : Size) (n : Fin 8)
    {destination : AddressingMode} (alterable : destination.isAlterable = true) :
    Timed s raises (sumToMemory operation size n destination : Exec World Nat) := by
  refine .bind (ordinary_locate destination size) fun target located => ?_
  refine (plain_load target size).andThen fun value => ?_
  refine .bind .registers fun r same => ?_
  refine (plain_store (located.isWritable alterable) size _).andThen fun _ => ?_
  have flags := (operation.keepsSystem_apply size (r.d.get n) value r.status).trans same
  refine (plain_setStatus flags).andThen fun _ => .pure ?_
  exact Timing.Within.add_operand (Timing.within_bySize (by decide) (by decide) size) _ _

theorem timed_sumToAddress (operation : SumOperation) (size : Size) (source : AddressingMode)
    (n : Fin 8) : Timed s raises (sumToAddress operation size source n : Exec World Nat) := by
  refine (plain_loadFrom source size).andThen fun value => ?_
  refine (plain_update fun r => r.unprivileged_setAddress n _).andThen fun _ => .pure ?_
  split
  · exact (Timing.within_toRegister source size).mono (by decide)
  · exact Timing.Within.add_operand (by decide) source size

theorem timed_extendedRegisters (operation : SumOperation) (size : Size) (x y : Fin 8) :
    Timed s raises (extendedRegisters operation size x y : Exec World Nat) := by
  refine .bind .registers fun r same => ?_
  refine (plain_update fun r' => r'.unprivileged_setDataPart x size _).andThen fun _ => ?_
  have flags := (operation.keepsSystem_applyExtended size (r.d.get y) (r.d.get x) r.status).trans same
  exact (plain_setStatus flags).andThen fun _ => .pure (Timing.within_bySize (by decide) (by decide) size)

theorem timed_extendedMemory (operation : SumOperation) (size : Size)
    (x y : Fin 8) : Timed s raises (extendedMemory operation size x y : Exec World Nat) :=
  (plain_betweenPredecremented size x y (operation.keepsSystem_applyExtended size)).andThen
    fun _ => .pure (Timing.within_bySize (by decide) (by decide) size)

theorem timed_cmp (size : Size) (source : AddressingMode) (n : Fin 8) :
    Timed s raises (cmp size source n : Exec World Nat) := by
  refine (plain_loadFrom source size).andThen fun value => .bind .registers fun r same => ?_
  have flags := (Arithmetic.keepsSystem_compare size value (r.d.get n) r.status).trans same
  refine (plain_setStatus flags).andThen fun _ => .pure ?_
  exact Timing.Within.add_operand (Timing.within_bySize (by decide) (by decide) size) _ _

theorem timed_cmpa (size : Size) (source : AddressingMode) (n : Fin 8) :
    Timed s raises (cmpa size source n : Exec World Nat) := by
  refine (plain_loadFrom source size).andThen fun value => .bind .registers fun r same => ?_
  have flags := (Arithmetic.keepsSystem_compare .long (size.signExtend value) (r.a.get n) r.status).trans same
  exact (plain_setStatus flags).andThen fun _ => .pure (Timing.Within.add_operand (by decide) source size)

theorem timed_cmpm (size : Size) (x y : Fin 8) :
    Timed s raises (cmpm size x y : Exec World Nat) := by
  refine (plain_loadFrom _ size).andThen fun source => ?_
  refine (plain_loadFrom _ size).andThen fun destination => ?_
  refine .bind ordinary_status fun old same => ?_
  have flags := (Arithmetic.keepsSystem_compare size source destination old).trans same
  exact (plain_setStatus flags).andThen fun _ => .pure (Timing.within_bySize (by decide) (by decide) size)

theorem timed_quick (operation : SumOperation) (size : Size) (value : BitVec 32)
    {destination : AddressingMode} (alterable : destination.isAlterable = true) :
    Timed s raises (quick operation size value destination : Exec World Nat) := by
  unfold quick
  split
  · exact (plain_update fun r => r.unprivileged_setAddress _ _).andThen fun _ => .pure (by decide)
  · exact (plain_readModifyWrite alterable size (operation.keepsSystem_apply size value)).andThen
      fun _ => .pure (Timing.within_readModifyWrite (by decide) (by decide) (by decide) (by decide) _ _)

theorem timed_unary (operation : UnaryOperation) (size : Size) {destination : AddressingMode}
    (alterable : destination.isAlterable = true) :
    Timed s raises (unary operation size destination : Exec World Nat) :=
  (plain_readModifyWrite alterable size (operation.keepsSystem_apply size)).andThen
    fun _ => .pure (Timing.within_readModifyWrite (by decide) (by decide) (by decide) (by decide) _ _)

theorem timed_tst (size : Size) (source : AddressingMode) :
    Timed s raises (tst size source : Exec World Nat) := by
  refine (plain_loadFrom source size).andThen fun value => .bind ordinary_status fun old same => ?_
  refine (plain_setStatus ((old.system_withLogical size value).trans same)).andThen fun _ => .pure ?_
  exact Timing.Within.add_operand (by decide) source size

theorem timed_logicToRegister (operation : LogicOperation) (size : Size) (source : AddressingMode)
    (n : Fin 8) : Timed s raises (logicToRegister operation size source n : Exec World Nat) :=
  (plain_intoRegister source size n fun _ _ => Arithmetic.keepsSystem_logical size _).andThen
    fun _ => .pure ((Timing.within_toRegister source size).mono (by decide))

theorem timed_logicToMemory (operation : LogicOperation) (size : Size) (n : Fin 8)
    {destination : AddressingMode} (alterable : destination.isAlterable = true) :
    Timed s raises (logicToMemory operation size n destination : Exec World Nat) := by
  refine .bind (ordinary_locate destination size) fun target located => ?_
  refine (plain_load target size).andThen fun value => ?_
  refine .bind .registers fun r same => ?_
  refine (plain_store (located.isWritable alterable) size _).andThen fun _ => ?_
  have flags := (Arithmetic.keepsSystem_logical size (operation.apply value (r.d.get n)) r.status).trans same
  refine (plain_setStatus flags).andThen fun _ => .pure ?_
  exact Timing.Within.add_operand (Timing.within_bySize (by decide) (by decide) size) _ _

theorem timed_eor (size : Size) (n : Fin 8) {destination : AddressingMode}
    (alterable : destination.isAlterable = true) :
    Timed s raises (eor size n destination : Exec World Nat) := by
  refine .bind (ordinary_locate destination size) fun target located => ?_
  refine (plain_load target size).andThen fun value => ?_
  refine .bind .registers fun r same => ?_
  refine (plain_store (located.isWritable alterable) size _).andThen fun _ => ?_
  have flags := (Arithmetic.keepsSystem_logical size (value ^^^ r.d.get n) r.status).trans same
  refine (plain_setStatus flags).andThen fun _ => .pure ?_
  exact Timing.within_readModifyWrite (by decide) (by decide) (by decide) (by decide) _ _

/-- A bit operation costs at most what reading the operand adds to eight cycles, or ten in a register. -/
theorem ordinary_bit {operation : BitOperation} {destination : AddressingMode}
    (admitted : Decoding.admitsBit operation destination = true) (number : BitVec 32) :
    Ordinary s raises (bit operation number destination : Exec World Nat) (Timing.Within 26) := by
  refine .bind (ordinary_locate destination _) fun target located => ?_
  refine (plain_load target _).andThen fun value => .bind ordinary_status fun old same => ?_
  refine (plain_setStatus ((old.system_setIf_zero _).trans same)).andThen fun _ => ?_
  dsimp only
  split
  · refine .pure ?_
    split
    all_goals first | decide | exact Timing.Within.add_operand (by decide) destination .byte
  next writes =>
    have alterable : destination.isDataAlterable = true := by
      rwa [Decoding.admitsBit, if_neg writes] at admitted
    have writable := located.isWritable (AddressingMode.isAlterable_of_isDataAlterable alterable)
    refine (plain_store writable _ _).andThen fun _ => .pure ?_
    split
    all_goals first | decide | exact Timing.Within.add_operand (by decide) destination .byte

theorem timed_bitLiteral {operation : BitOperation} {destination : AddressingMode}
    (admitted : Decoding.admitsBit operation destination = true) :
    Timed s raises (bitLiteral operation destination : Exec World Nat) := by
  refine (plain_fetchImmediate .byte).andThen fun number => ?_
  refine .bind (ordinary_bit admitted number) fun cost within => .pure ?_
  obtain ⟨even, least, most⟩ := within
  exact ⟨by omega, by omega, by omega⟩

theorem timed_bitRegister {operation : BitOperation} {destination : AddressingMode}
    (admitted : Decoding.admitsBit operation destination = true) (n : Fin 8) :
    Timed s raises (bitRegister operation n destination : Exec World Nat) := by
  refine .bind .registers fun r _ => ?_
  exact (ordinary_bit admitted (r.d.get n)).imp fun _ within => within.mono (by decide)

theorem timed_tas {destination : AddressingMode} (alterable : destination.isAlterable = true) :
    Timed s raises (tas destination : Exec World Nat) := by
  refine .bind (ordinary_locate destination .byte) fun target located => ?_
  refine (plain_load target .byte).andThen fun value => ?_
  refine .bind ordinary_status fun old same => ?_
  refine (plain_setStatus ((old.system_withLogical .byte value).trans same)).andThen fun _ => ?_
  refine (plain_store (located.isWritable alterable) .byte _).andThen fun _ => .pure ?_
  exact Timing.within_readModifyWrite (by decide) (by decide) (by decide) (by decide) _ _

theorem timed_nbcd {destination : AddressingMode} (alterable : destination.isAlterable = true) :
    Timed s raises (nbcd destination : Exec World Nat) :=
  (plain_readModifyWrite alterable .byte keepsSystem_negateDecimal).andThen
    fun _ => .pure (Timing.within_readModifyWrite (by decide) (by decide) (by decide) (by decide) _ _)

theorem timed_decimalRegisters (operation : SumOperation) (x y : Fin 8) :
    Timed s raises (decimalRegisters operation x y : Exec World Nat) := by
  refine .bind .registers fun r same => ?_
  refine (plain_update fun r' => r'.unprivileged_setDataPart x .byte _).andThen fun _ => ?_
  have flags := (keepsSystem_decimalOutcome operation (r.d.get y) (r.d.get x) r.status).trans same
  exact (plain_setStatus flags).andThen fun _ => .pure (by decide)

theorem timed_decimalMemory (operation : SumOperation) (x y : Fin 8) :
    Timed s raises (decimalMemory operation x y : Exec World Nat) :=
  (plain_betweenPredecremented .byte x y (keepsSystem_decimalOutcome operation)).andThen
    fun _ => .pure (by decide)

theorem plain_setProduct (n : Fin 8) (product : BitVec 32) :
    Plain s raises (setProduct n product : Exec World Unit) := by
  refine (plain_update fun r => r.unprivileged_setData n product).andThen fun _ => ?_
  exact .bind ordinary_status fun old same =>
    plain_setStatus ((old.system_withLogical .long product).trans same)

theorem timed_mulu (source : AddressingMode) (n : Fin 8) :
    Timed s raises (mulu source n : Exec World Nat) := by
  refine (plain_loadFrom source .word).andThen fun value => .bind .registers fun r _ => ?_
  refine (plain_setProduct n _).andThen fun _ => .pure ?_
  exact ((Timing.within_mulu _).add_word source).mono (by decide)

theorem timed_muls (source : AddressingMode) (n : Fin 8) :
    Timed s raises (muls source n : Exec World Nat) := by
  refine (plain_loadFrom source .word).andThen fun value => .bind .registers fun r _ => ?_
  refine (plain_setProduct n _).andThen fun _ => .pure ?_
  exact ((Timing.within_muls _).add_word source).mono (by decide)

theorem timed_divide (source : AddressingMode) (n : Fin 8)
    (quotient? : BitVec 32 → BitVec 16 → Option Arithmetic.Quotient)
    {cost : BitVec 32 → BitVec 16 → Nat} (within : ∀ x y, Timing.Within 156 (cost x y))
    (traps : raises (.trap .zeroDivide (Timing.zeroDivide + Timing.operand source .word))) :
    Timed s raises (divide source n quotient? cost : Exec World Nat) := by
  refine (plain_loadFrom source .word).andThen fun value => .bind .registers fun r same => ?_
  dsimp only
  split
  · exact (plain_setStatus ((StatusWord.system_clear rfl r.status).trans same)).andThen
      fun _ => .throw traps
  · have spent := (within (r.d.get n) (value.setWidth 16)).add_word source
    split
    · have flags := (StatusWord.system_setIf_overflow (r.status.clear .carry) true).trans
        ((StatusWord.system_clear rfl r.status).trans same)
      exact (plain_setStatus flags).andThen fun _ => .pure spent
    · refine (plain_update fun r' => r'.unprivileged_setData n _).andThen fun _ => ?_
      exact (plain_setStatus ((r.status.system_withLogical .word _).trans same)).andThen
        fun _ => .pure spent

theorem timed_chk (bound : AddressingMode) (n : Fin 8)
    (traps : raises (.trap .check (Timing.checkTrap + Timing.operand bound .word))) :
    Timed s raises (chk bound n : Exec World Nat) := by
  refine (plain_loadFrom bound .word).andThen fun value => .bind .registers fun r same => ?_
  have flags (z : Bool) :
      StatusWord.system ((r.status.clear (.overflow ||| .carry)).setIf .zero z) = s :=
    (StatusWord.system_setIf_zero _ z).trans ((StatusWord.system_clear rfl r.status).trans same)
  dsimp only
  split
  · refine (plain_setStatus ?_).andThen fun _ => .throw traps
    exact (StatusWord.system_setIf_negative _ _).trans (flags _)
  · refine (plain_setStatus (flags _)).andThen fun _ => .pure ?_
    exact Timing.Within.add_operand (by decide) bound .word

theorem timed_shiftRegister (kind : Arithmetic.ShiftKind) (direction : Arithmetic.Direction)
    (size : Size) {count : ShiftCount} (n : Fin 8)
    (encodable : (Instruction.shiftRegister kind direction size count n).Encodable) :
    Timed s raises (shiftRegister kind direction size count n : Exec World Nat) := by
  refine .bind .registers fun r same => ?_
  refine (plain_update fun r' => r'.unprivileged_setDataPart n size _).andThen fun _ => ?_
  have flags (places : Nat) :=
    (Arithmetic.keepsSystem_shift kind direction size (r.d.get n) places r.status).trans same
  refine (plain_setStatus (flags _)).andThen fun _ => .pure ?_
  refine (Timing.within_shift size ?_).mono (by decide)
  cases count with
  | literal count => exact Nat.le_trans encodable (by decide)
  | register m => exact Nat.le_of_lt_succ (Nat.mod_lt _ (by decide))

theorem timed_shiftMemory (kind : Arithmetic.ShiftKind) (direction : Arithmetic.Direction)
    {destination : AddressingMode} (alterable : destination.isAlterable = true) :
    Timed s raises (shiftMemory kind direction destination : Exec World Nat) := by
  have keeps (value : BitVec 32) := Arithmetic.keepsSystem_shift kind direction .word value 1
  refine (plain_readModifyWrite alterable .word keeps).andThen fun _ => .pure ?_
  exact Timing.Within.add_operand (by decide) destination .word

end MC68000.Exec
