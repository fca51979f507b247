import MC68000.Proofs.Settling
import MC68000.Proofs.Entry

set_option autoImplicit false

namespace MC68000

namespace StatusWord

/-- The bits that exist, but for some flags. -/
def besides (flags : StatusWord) : StatusWord := implemented.clear flags

/-- Words that agree in all bits but some flags agree besides these, whatever happens to the bits that do
not exist. -/
theorem besides_eq {flags x y : StatusWord}
    (same : ∀ i < 16, flags.getLsbD i = false → x.getLsbD i = y.getLsbD i) :
    x &&& implemented &&& besides flags = y &&& besides flags := by
  apply BitVec.eq_of_getLsbD_eq
  intro i small
  rw [BitVec.getLsbD_and, BitVec.getLsbD_and, BitVec.getLsbD_and, besides, getLsbD_clear _ _ small]
  cases inside : flags.getLsbD i with
  | true => rw [Bool.not_true, Bool.and_false, Bool.and_false, Bool.and_false]
  | false =>
    rw [same i small inside]
    cases implemented.getLsbD i with
    | true => rw [Bool.and_true]
    | false => rw [Bool.false_and, Bool.and_false, Bool.and_false]

/-- The flags that a moved or logical result sets. -/
def resultFlags : StatusWord := negative ||| zero ||| overflow ||| carry

theorem besides_withLogical (status : StatusWord) (size : Size) (value : BitVec 32) :
    status.withLogical size value &&& implemented &&& besides resultFlags =
      status &&& besides resultFlags := by
  apply besides_eq
  intro i small outside
  have flags : ∀ i < 16, resultFlags.getLsbD i = false →
      negative.getLsbD i = false ∧ zero.getLsbD i = false ∧
        (overflow ||| carry).getLsbD i = false := by decide
  obtain ⟨n, z, vc⟩ := flags i small outside
  rw [withLogical, withSign, getLsbD_setIf _ _ _ small, n, getLsbD_setIf _ _ _ small, z, getLsbD_clear _ _ small, vc,
    Bool.not_false, Bool.and_true]
  rfl

theorem besides_setIf (status flags : StatusWord) (condition : Bool) :
    status.setIf flags condition &&& implemented &&& besides flags = status &&& besides flags := by
  apply besides_eq
  intro i small outside
  rw [getLsbD_setIf _ _ _ small, outside, if_neg Bool.false_ne_true]

end StatusWord

/-- The bits of the status word that an operation on a single bit keeps where its store fails. -/
def BitOperation.kept : BitOperation → StatusWord
  | .test => BitVec.allOnes 16
  | _ => .besides .zero

theorem BitOperation.kept_of_ne {operation : BitOperation} (writes : operation ≠ .test) :
    operation.kept = .besides .zero := by
  cases operation with
  | test => exact absurd rfl writes
  | _ => rfl

namespace Exec

variable {World : Type} {bits : StatusWord} {data : Prop} {spent : Nat}

/-- Flags that are set before an access are not kept where it fails, and all else is. -/
theorem Settles.flags {f : Unit → Exec World Nat} {g : StatusWord → StatusWord}
    (keeps : ∀ old, g old &&& .implemented &&& bits = old &&& bits)
    (next : Settles bits data spent (f ())) :
    Settles bits data spent (status >>= fun old => setStatus (g old) >>= f) := by
  intro m
  have set : m.registers.Kept bits data (m.registers.setStatus (g m.registers.status)) := by
    constructor
    · rw [Registers.status_setStatus]
      exact keeps m.registers.status
    · exact fun _ => m.registers.d_setStatus _
  apply (next (m.mapRegisters fun r => r.setStatus (g m.registers.status))).mono
  · exact fun _ _ => id
  · intro e m' kept fault
    exact set.trans (kept fault)

theorem commits_readModifyWrite (destination : AddressingMode) (size : Size)
    (operation : BitVec 32 → StatusWord → Arithmetic.Outcome) :
    Commits bits data (destination.words size + (destination.cycles size + destination.cycles size))
      (readModifyWrite destination size operation : Exec World Unit) := by
  apply (spares_locate destination size).andCommits
  intro target located
  apply (accesses_load located size).andCommits
  intro value _
  rw [← Nat.zero_add (destination.cycles size)]
  apply accesses_status.andCommits
  intro old _
  apply (commits_store located size _).andSilent
  exact fun _ => silent_setStatus _

theorem commits_intoRegister (source : AddressingMode) (size : Size) (n : Fin 8)
    (operation : BitVec 32 → BitVec 32 → StatusWord → Arithmetic.Outcome) :
    Commits bits data (source.words size + source.cycles size)
      (intoRegister source size n operation : Exec World Unit) := by
  rw [← Nat.add_zero (source.words size + source.cycles size)]
  apply (accesses_loadFrom source size).andCommits
  intro value _
  apply Silent.commits
  apply Silent.registers
  intro r
  apply Silent.update
  exact silent_setStatus _

theorem commits_betweenPredecremented (size : Size) (x y : Fin 8)
    (operation : BitVec 32 → BitVec 32 → StatusWord → Arithmetic.Outcome) :
    Commits bits data (3 * size.cycles)
      (betweenPredecremented size x y operation : Exec World Unit) := by
  have cycles (n : Fin 8) : (AddressingMode.preDecrement n).cycles size = size.cycles := rfl
  have words (n : Fin 8) : (AddressingMode.preDecrement n).words size = 0 := rfl
  have both : Commits bits data _ (betweenPredecremented size x y operation : Exec World Unit) :=
    (accesses_loadFrom (.preDecrement y) size).andCommits fun source _ =>
      commits_readModifyWrite (.preDecrement x) size (operation source)
  apply both.mono
  rw [cycles, cycles, words, words]
  omega

theorem settles_immediate (operation : ImmediateOperation) (size : Size)
    (destination : AddressingMode) :
    Settles bits data 1 (immediate operation size destination : Exec World Nat) := by
  have stores : 4 * (1 + size.cycles + (destination.words size + destination.cycles size) +
      destination.cycles size) ≤ Timing.readModifyWrite destination size (8, 16) (12, 20) := by
    apply Timing.readModifyWrite_covers <;> cases size <;> decide
  have compares : 4 * (1 + size.cycles + (destination.words size + destination.cycles size)) ≤
      Timing.readModifyWrite destination size (8, 14) (8, 12) := by
    apply Timing.readModifyWrite_covers_load <;> cases size <;> decide
  apply (accesses_fetchImmediate size).settles
  intro source
  apply (spares_locate destination size).settles
  intro target located
  apply (accesses_load located size).settles
  intro value
  apply accesses_status.settles
  intro old
  dsimp only
  split
  · apply Silent.settles
    apply Silent.setStatus
    apply Silent.pure
    omega
  · apply (commits_store located size _).settles
    intro _
    apply Silent.setStatus
    apply Silent.pure
    omega

theorem settles_sumToRegister (operation : SumOperation) (size : Size) (source : AddressingMode)
    (n : Fin 8) : Settles bits data 1 (sumToRegister operation size source n : Exec World Nat) := by
  apply (commits_intoRegister source size n _).settles
  exact fun _ => .pure (Timing.toRegister_covers source size)

theorem toMemory_covers (destination : AddressingMode) (size : Size) :
    4 * (1 + destination.words size + destination.cycles size + destination.cycles size) ≤
      Timing.bySize size 8 12 + Timing.operand destination size := by
  have found := Timing.operand_covers destination size
  have again := destination.cycles_le size
  have base : 4 * (1 + size.cycles) ≤ Timing.bySize size 8 12 := by cases size <;> decide
  omega

theorem settles_sumToMemory (operation : SumOperation) (size : Size) (n : Fin 8)
    (destination : AddressingMode) :
    Settles bits data 1 (sumToMemory operation size n destination : Exec World Nat) := by
  apply (spares_locate destination size).settles
  intro target located
  apply (accesses_load located size).settles
  intro value
  apply accesses_registers.settles
  intro r
  apply (commits_store located size _).settles
  intro _
  apply Silent.setStatus
  exact .pure (toMemory_covers destination size)

theorem settles_sumToAddress (operation : SumOperation) (size : Size) (source : AddressingMode)
    (n : Fin 8) : Settles bits data 1 (sumToAddress operation size source n : Exec World Nat) := by
  have loaded := Timing.operand_covers source size
  have short := Timing.toRegister_covers source size
  apply (accesses_loadFrom source size).settles
  intro value
  apply Silent.settles
  apply Silent.update
  apply Silent.pure
  split
  · exact short
  · omega

theorem settles_extendedRegisters (operation : SumOperation) (size : Size) (x y : Fin 8) :
    Settles bits data 1 (extendedRegisters operation size x y : Exec World Nat) := by
  apply Silent.settles
  apply Silent.registers
  intro r
  apply Silent.update
  apply Silent.setStatus
  apply Silent.pure
  cases size <;> decide

theorem settles_extendedMemory (operation : SumOperation) (size : Size) (x y : Fin 8) :
    Settles bits data 1 (extendedMemory operation size x y : Exec World Nat) := by
  apply (commits_betweenPredecremented size x y _).settles
  intro _
  apply Silent.pure
  cases size <;> decide

theorem settles_cmp (size : Size) (source : AddressingMode) (n : Fin 8) :
    Settles bits data 1 (cmp size source n : Exec World Nat) := by
  have loaded := Timing.operand_covers source size
  have base : 4 ≤ Timing.bySize size 4 6 := by cases size <;> decide
  apply (accesses_loadFrom source size).settles
  intro value
  apply Silent.settles
  apply Silent.registers
  intro r
  apply Silent.setStatus
  apply Silent.pure
  omega

theorem settles_cmpa (size : Size) (source : AddressingMode) (n : Fin 8) :
    Settles bits data 1 (cmpa size source n : Exec World Nat) := by
  have loaded := Timing.operand_covers source size
  apply (accesses_loadFrom source size).settles
  intro value
  apply Silent.settles
  apply Silent.registers
  intro r
  apply Silent.setStatus
  apply Silent.pure
  omega

theorem settles_cmpm (size : Size) (x y : Fin 8) :
    Settles bits data 1 (cmpm size x y : Exec World Nat) := by
  apply (accesses_loadFrom (.postIncrement y) size).settles
  intro source
  apply (accesses_loadFrom (.postIncrement x) size).settles
  intro destination
  apply Silent.settles
  apply Silent.status
  intro old
  apply Silent.setStatus
  apply Silent.pure
  cases size <;> exact Nat.le_of_ble_eq_true rfl

theorem settles_quick (operation : SumOperation) (size : Size) (value : BitVec 32)
    (destination : AddressingMode) :
    Settles bits data 1 (quick operation size value destination : Exec World Nat) := by
  unfold quick
  split
  · apply Silent.settles
    apply Silent.update
    exact .pure (by decide)
  · next other =>
    have cost : 4 * (1 + (destination.words size + destination.cycles size) +
        destination.cycles size) ≤ Timing.readModifyWrite destination size (4, 8) (8, 12) := by
      apply Timing.readModifyWrite_covers <;> cases size <;> decide
    apply (commits_readModifyWrite destination size _).settles
    intro _
    apply Silent.pure
    omega

theorem settles_unary (operation : UnaryOperation) (size : Size) (destination : AddressingMode) :
    Settles bits data 1 (unary operation size destination : Exec World Nat) := by
  have cost : 4 * (1 + (destination.words size + destination.cycles size) +
      destination.cycles size) ≤ Timing.readModifyWrite destination size (4, 6) (8, 12) := by
    apply Timing.readModifyWrite_covers <;> cases size <;> decide
  apply (commits_readModifyWrite destination size _).settles
  intro _
  apply Silent.pure
  omega

theorem settles_tst (size : Size) (source : AddressingMode) :
    Settles bits data 1 (tst size source : Exec World Nat) := by
  have loaded := Timing.operand_covers source size
  apply (accesses_loadFrom source size).settles
  intro value
  apply Silent.settles
  apply Silent.status
  intro old
  apply Silent.setStatus
  apply Silent.pure
  omega

theorem settles_logicToRegister (operation : LogicOperation) (size : Size)
    (source : AddressingMode) (n : Fin 8) :
    Settles bits data 1 (logicToRegister operation size source n : Exec World Nat) := by
  apply (commits_intoRegister source size n _).settles
  exact fun _ => .pure (Timing.toRegister_covers source size)

theorem settles_logicToMemory (operation : LogicOperation) (size : Size) (n : Fin 8)
    (destination : AddressingMode) :
    Settles bits data 1 (logicToMemory operation size n destination : Exec World Nat) := by
  apply (spares_locate destination size).settles
  intro target located
  apply (accesses_load located size).settles
  intro value
  apply accesses_registers.settles
  intro r
  apply (commits_store located size _).settles
  intro _
  apply Silent.setStatus
  exact .pure (toMemory_covers destination size)

theorem settles_eor (size : Size) (n : Fin 8) (destination : AddressingMode) :
    Settles bits data 1 (eor size n destination : Exec World Nat) := by
  have cost : 4 * (1 + (destination.words size + destination.cycles size) +
      destination.cycles size) ≤ Timing.readModifyWrite destination size (4, 8) (8, 12) := by
    apply Timing.readModifyWrite_covers <;> cases size <;> decide
  apply (spares_locate destination size).settles
  intro target located
  apply (accesses_load located size).settles
  intro value
  apply accesses_registers.settles
  intro r
  apply (commits_store located size _).settles
  intro _
  apply Silent.setStatus
  apply Silent.pure
  omega

theorem settles_nbcd (destination : AddressingMode) :
    Settles bits data 1 (nbcd destination : Exec World Nat) := by
  have cost : 4 * (1 + (destination.words .byte + destination.cycles .byte) +
      destination.cycles .byte) ≤ Timing.readModifyWrite destination .byte (6, 6) (8, 8) :=
    Timing.readModifyWrite_covers destination (by decide) (by decide)
  apply (commits_readModifyWrite destination .byte _).settles
  intro _
  apply Silent.pure
  omega

theorem settles_decimalRegisters (operation : SumOperation) (x y : Fin 8) :
    Settles bits data 1 (decimalRegisters operation x y : Exec World Nat) := by
  apply Silent.settles
  apply Silent.registers
  intro r
  apply Silent.update
  apply Silent.setStatus
  exact .pure (by decide)

theorem settles_decimalMemory (operation : SumOperation) (x y : Fin 8) :
    Settles bits data 1 (decimalMemory operation x y : Exec World Nat) := by
  apply (commits_betweenPredecremented .byte x y _).settles
  exact fun _ => .pure (by decide)

theorem settles_shiftRegister (kind : Arithmetic.ShiftKind) (direction : Arithmetic.Direction)
    (size : Size) (count : ShiftCount) (n : Fin 8) :
    Settles bits data 1 (shiftRegister kind direction size count n : Exec World Nat) := by
  have base : 4 ≤ Timing.bySize size 6 8 := by cases size <;> decide
  apply Silent.settles
  apply Silent.registers
  intro r
  apply Silent.update
  apply Silent.setStatus
  apply Silent.pure
  omega

theorem settles_shiftMemory (kind : Arithmetic.ShiftKind) (direction : Arithmetic.Direction)
    (destination : AddressingMode) :
    Settles bits data 1 (shiftMemory kind direction destination : Exec World Nat) := by
  have cost := toMemory_covers destination .word
  have base : Timing.bySize .word 8 12 = 8 := rfl
  apply (commits_readModifyWrite destination .word _).settles
  intro _
  apply Silent.pure
  omega

theorem silent_setProduct (n : Fin 8) (product : BitVec 32) :
    Silent (setProduct n product : Exec World Unit) fun _ => True := by
  apply Silent.update
  apply Silent.status
  intro old
  exact silent_setStatus _

theorem settles_mulu (source : AddressingMode) (n : Fin 8) :
    Settles bits data 1 (mulu source n : Exec World Nat) := by
  have loaded := Timing.operand_covers source .word
  apply (accesses_loadFrom source .word).settles
  intro value
  apply Silent.settles
  apply Silent.registers
  intro r
  apply (silent_setProduct n _).bind
  intro _ _
  apply Silent.pure
  have bits := (Timing.within_mulu (value.setWidth 16)).2.1
  omega

theorem settles_muls (source : AddressingMode) (n : Fin 8) :
    Settles bits data 1 (muls source n : Exec World Nat) := by
  have loaded := Timing.operand_covers source .word
  apply (accesses_loadFrom source .word).settles
  intro value
  apply Silent.settles
  apply Silent.registers
  intro r
  apply (silent_setProduct n _).bind
  intro _ _
  apply Silent.pure
  have bits := (Timing.within_muls (value.setWidth 16)).2.1
  omega

theorem settles_divide (source : AddressingMode) (n : Fin 8)
    (quotient? : BitVec 32 → BitVec 16 → Option Arithmetic.Quotient)
    {cost : BitVec 32 → BitVec 16 → Nat} (least : ∀ x y, 4 ≤ cost x y) :
    Settles bits data 1 (divide source n quotient? cost : Exec World Nat) := by
  have loaded := Timing.operand_covers source .word
  apply (accesses_loadFrom source .word).settles
  intro value
  apply Silent.settles
  apply Silent.registers
  intro r
  have fetched := least (r.d.get n) (value.setWidth 16)
  dsimp only
  split
  · apply Silent.setStatus
    exact .throw id
  · split
    · apply Silent.setStatus
      apply Silent.pure
      omega
    · apply Silent.update
      apply Silent.setStatus
      apply Silent.pure
      omega

theorem settles_chk (bound : AddressingMode) (n : Fin 8) :
    Settles bits data 1 (chk bound n : Exec World Nat) := by
  have loaded := Timing.operand_covers bound .word
  apply (accesses_loadFrom bound .word).settles
  intro value
  apply Silent.settles
  apply Silent.registers
  intro r
  dsimp only
  split
  · apply Silent.setStatus
    exact .throw id
  · apply Silent.setStatus
    apply Silent.pure
    omega

theorem settles_tas (destination : AddressingMode) :
    Settles (.besides .resultFlags) data 1 (tas destination : Exec World Nat) := by
  have cost : 4 * (1 + (destination.words .byte + destination.cycles .byte) +
      destination.cycles .byte) ≤ Timing.readModifyWrite destination .byte (4, 4) (10, 10) :=
    Timing.readModifyWrite_covers destination (by decide) (by decide)
  apply (spares_locate destination .byte).settles
  intro target located
  apply (accesses_load located .byte).settles
  intro value
  apply Settles.flags fun old => old.besides_withLogical .byte value
  apply (commits_store located .byte _).settles
  intro _
  apply Silent.pure
  omega

theorem settles_bit (operation : BitOperation) (number : BitVec 32)
    (destination : AddressingMode) :
    Settles operation.kept data 1 (bit operation number destination : Exec World Nat) := by
  apply (spares_locate destination _).settles
  intro target located
  apply (accesses_load located _).settles
  intro value
  by_cases test : operation = .test
  · subst test
    apply Silent.settles
    apply Silent.status
    intro old
    apply Silent.setStatus
    apply Silent.pure
    cases destination <;> exact Nat.le_of_ble_eq_true rfl
  · rw [operation.kept_of_ne test]
    apply Settles.flags fun old => old.besides_setIf .zero _
    rw [if_neg test]
    apply (commits_store located _ _).settles
    intro _
    apply Silent.pure
    cases operation with
    | test => exact absurd rfl test
    | _ => cases destination <;> exact Nat.le_of_ble_eq_true rfl

theorem settles_bitLiteral (operation : BitOperation) (destination : AddressingMode) :
    Settles operation.kept data 1 (bitLiteral operation destination : Exec World Nat) := by
  apply (accesses_fetchImmediate .byte).settles
  intro number
  exact (settles_bit operation number destination).surcharge (by decide)

theorem settles_bitRegister (operation : BitOperation) (n : Fin 8) (destination : AddressingMode) :
    Settles operation.kept data 1 (bitRegister operation n destination : Exec World Nat) := by
  apply accesses_registers.settles
  exact fun r => settles_bit operation (r.d.get n) destination

end Exec

end MC68000
