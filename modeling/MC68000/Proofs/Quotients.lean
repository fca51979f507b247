import MC68000.Proofs.Comparison
import MC68000.Proofs.FailedAccess
import MC68000.Proofs.Stack

set_option autoImplicit false

namespace MC68000

namespace Arithmetic

/-- How a division reads its operands. -/
inductive Signedness where
  | unsigned
  | signed
  deriving DecidableEq

namespace Signedness

/-- The number that bits stand for. -/
def number {w : Nat} (signedness : Signedness) (x : BitVec w) : Int :=
  match signedness with
  | unsigned => x.toNat
  | signed => x.toInt

/-- The numbers of sixteen bits. -/
def Fits : Signedness → Int → Prop
  | unsigned, z => 0 ≤ z ∧ z ≤ 65535
  | signed, z => -32768 ≤ z ∧ z ≤ 32767

instance (signedness : Signedness) (z : Int) : Decidable (signedness.Fits z) :=
  match signedness with
  | unsigned => inferInstanceAs (Decidable (0 ≤ z ∧ z ≤ 65535))
  | signed => inferInstanceAs (Decidable (-32768 ≤ z ∧ z ≤ 32767))

def quotient? : Signedness → BitVec 32 → BitVec 16 → Option Quotient
  | unsigned => divideUnsigned?
  | signed => divideSigned?

/-- DIVU or DIVS. -/
def division (signedness : Signedness) (source : AddressingMode) (n : Fin 8) : Instruction :=
  match signedness with
  | unsigned => .divu source n
  | signed => .divs source n

end Signedness

/-- A quotient that is rounded toward zero, with the remainder that it leaves. -/
structure IsQuotient (dividend divisor quotient remainder : Int) : Prop where
  rounded : quotient = dividend.tdiv divisor
  exact : dividend = quotient * divisor + remainder
  small : remainder.natAbs < divisor.natAbs
  sign : remainder = 0 ∨ remainder.sign = dividend.sign

theorem isQuotient_tdiv {divisor : Int} (nonzero : divisor ≠ 0) (dividend : Int) :
    IsQuotient dividend divisor (dividend.tdiv divisor) (dividend.tmod divisor) := by
  constructor
  · rfl
  · exact (Int.tdiv_mul_add_tmod dividend divisor).symm
  · rw [Int.natAbs_tmod]
    exact Nat.mod_lt _ (Int.natAbs_pos.mpr nonzero)
  · rw [Int.sign_tmod]
    by_cases null : dividend.tmod divisor = 0
    · exact .inl null
    · right
      rw [if_neg]
      rwa [Int.dvd_iff_tmod_eq_zero]

namespace Signedness
variable (signedness : Signedness)

theorem number_eq_zero_iff {w : Nat} (x : BitVec w) : signedness.number x = 0 ↔ x = 0 := by
  cases signedness with
  | unsigned =>
    rw [number, Int.natCast_eq_zero, ← BitVec.toNat_inj]
    rfl
  | signed => rw [number, ← BitVec.toInt_inj, BitVec.ofNat_eq_ofNat, BitVec.toInt_zero]

theorem number_ofInt {z : Int} (fits : signedness.Fits z) :
    signedness.number (BitVec.ofInt 16 z) = z := by
  cases signedness with
  | unsigned =>
    obtain ⟨low, high⟩ := fits
    rw [number, BitVec.toNat_ofInt]
    omega
  | signed =>
    obtain ⟨low, high⟩ := fits
    rw [number, BitVec.toInt_ofInt_eq_self] <;> omega

theorem fits_tmod {divisor : BitVec 16} (nonzero : divisor ≠ 0) (dividend : BitVec 32) :
    signedness.Fits ((signedness.number dividend).tmod (signedness.number divisor)) := by
  have divides := isQuotient_tdiv (mt (signedness.number_eq_zero_iff divisor).mp nonzero)
    (signedness.number dividend)
  have small := divides.small
  cases signedness with
  | unsigned =>
    have nonnegative := Int.tmod_nonneg (divisor.toNat : Int) (Int.natCast_nonneg dividend.toNat)
    have bound := divisor.isLt
    simp only [number, Fits] at small ⊢
    omega
  | signed =>
    have low := BitVec.le_toInt divisor
    have high := BitVec.toInt_lt (x := divisor)
    simp only [number, Fits] at small ⊢
    omega

/-- Both divisions give the rounded quotient and the remainder where the quotient has sixteen bits. -/
theorem quotient?_eq (dividend : BitVec 32) (divisor : BitVec 16) :
    let quotient := (signedness.number dividend).tdiv (signedness.number divisor)
    let remainder := (signedness.number dividend).tmod (signedness.number divisor)
    signedness.quotient? dividend divisor =
      if signedness.Fits quotient then some ⟨BitVec.ofInt 16 quotient, BitVec.ofInt 16 remainder⟩
      else none := by
  intro quotient remainder
  cases signedness with
  | unsigned =>
    have whole : quotient = (dividend.toNat / divisor.toNat : Nat) := (Int.ofNat_tdiv _ _).symm
    have rest : remainder = (dividend.toNat % divisor.toNat : Nat) := (Int.ofNat_tmod _ _).symm
    have bits : dividend.toNat / divisor.toNat < 0x10000 ↔ Fits unsigned quotient := by
      rw [whole, Fits]
      generalize dividend.toNat / divisor.toNat = k
      omega
    rw [quotient?, divideUnsigned?, whole, rest, BitVec.ofInt_natCast, BitVec.ofInt_natCast]
    exact if_congr (by rw [bits, whole]) rfl rfl
  | signed =>
    have bits : -0x8000 ≤ quotient ∧ quotient < 0x8000 ↔ Fits signed quotient := by
      rw [Fits]
      omega
    exact if_congr bits rfl rfl

/-- A quotient of sixteen bits is returned with its remainder, and no other is. -/
theorem quotient?_spec {divisor : BitVec 16} (nonzero : divisor ≠ 0) (dividend : BitVec 32) :
    let exact := (signedness.number dividend).tdiv (signedness.number divisor)
    (signedness.Fits exact → ∃ q, signedness.quotient? dividend divisor = some q ∧
      IsQuotient (signedness.number dividend) (signedness.number divisor)
        (signedness.number q.quotient) (signedness.number q.remainder)) ∧
    (¬ signedness.Fits exact → signedness.quotient? dividend divisor = none) := by
  intro exact
  rw [quotient?_eq]
  constructor
  · intro fits
    refine ⟨_, if_pos fits, ?_⟩
    rw [number_ofInt signedness fits, number_ofInt signedness (fits_tmod signedness nonzero dividend)]
    exact isQuotient_tdiv (mt (signedness.number_eq_zero_iff divisor).mp nonzero) _
  · intro outside
    exact if_neg outside

end Signedness

theorem getLsbD_withLogical (status : StatusWord) (size : Size) (value : BitVec 32) {i : Nat}
    (inside : i < 16) : (status.withLogical size value).getLsbD i =
      if i = 0 ∨ i = 1 then false
      else if i = 2 then size.truncate value == 0
      else if i = 3 then size.isNegative (size.truncate value)
      else status.getLsbD i := by
  simp only [StatusWord.withLogical, StatusWord.withSign, StatusWord.getLsbD_setIf _ _ _ inside,
    StatusWord.getLsbD_clear _ _ inside]
  interval_cases i <;>
    simp [StatusWord.carry, StatusWord.overflow, StatusWord.zero, StatusWord.negative]

section flags
variable (status : StatusWord) (quotient : BitVec 16)

theorem truncate_quotient : Size.truncate .word (quotient.setWidth 32) = quotient.setWidth 32 := by
  apply truncate_of_lt
  have bound := quotient.isLt
  simp only [BitVec.toNat_setWidth, Size.modulus]
  omega

theorem isNegative_quotient : Size.isNegative .word (quotient.setWidth 32) = quotient.msb := by
  rw [Size.isNegative_eq, BitVec.msb_eq_getLsbD_last]
  simp [Size.bits, Size.bytes]

theorem getLsbD_quotientFlags {i : Nat} (inside : i < 16) :
    (status.withLogical .word (quotient.setWidth 32) &&& .implemented).getLsbD i =
      if i = 0 ∨ i = 1 then false
      else if i = 2 then quotient == 0
      else if i = 3 then quotient.msb
      else (status &&& .implemented).getLsbD i := by
  have null : (quotient.setWidth 32 == 0) = (quotient == 0) := by
    rw [Bool.eq_iff_iff, beq_iff_eq, beq_iff_eq]
    bv_omega
  rw [BitVec.getLsbD_and, getLsbD_withLogical _ _ _ inside, truncate_quotient, isNegative_quotient, null,
    BitVec.getLsbD_and]
  interval_cases i <;> simp [StatusWord.implemented]

/-- N and Z follow a quotient, V and C are clear, and the other bits are kept. -/
theorem flags_of_quotient :
    let left := status.withLogical .word (quotient.setWidth 32) &&& .implemented
    left.has .negative = quotient.msb ∧ left.has .zero = (quotient == 0) ∧
      left.has .overflow = false ∧ left.has .carry = false ∧
      left.clear (.negative ||| .zero ||| .overflow ||| .carry) =
        StatusWord.clear (status &&& .implemented) (.negative ||| .zero ||| .overflow ||| .carry) := by
  intro left
  have bit {i : Nat} (inside : i < 16) := getLsbD_quotientFlags status quotient inside
  refine ⟨?_, ?_, ?_, ?_, ?_⟩
  · rw [has_negative, bit (by decide)]
    rfl
  · rw [has_zero, bit (by decide)]
    rfl
  · rw [has_overflow, bit (by decide)]
    rfl
  · rw [has_carry, bit (by decide)]
    rfl
  · apply BitVec.eq_of_getLsbD_eq
    intro i inside
    rw [StatusWord.getLsbD_clear _ _ inside, StatusWord.getLsbD_clear _ _ inside, bit inside]
    interval_cases i <;>
      simp [StatusWord.carry, StatusWord.overflow, StatusWord.zero, StatusWord.negative]

/-- A quotient that is too large sets V, clears C and keeps the other bits. -/
theorem flags_of_overflow :
    let left := (status.clear .carry).setIf .overflow true &&& .implemented
    left.has .overflow = true ∧ left.has .carry = false ∧
      left.clear (.overflow ||| .carry) =
        StatusWord.clear (status &&& .implemented) (.overflow ||| .carry) := by
  intro left
  have bit {i : Nat} (inside : i < 16) : left.getLsbD i =
      if i = 0 then false else if i = 1 then true else (status &&& .implemented).getLsbD i := by
    simp only [left, BitVec.getLsbD_and, StatusWord.getLsbD_setIf _ _ _ inside,
      StatusWord.getLsbD_clear _ _ inside]
    interval_cases i <;> simp [StatusWord.carry, StatusWord.overflow, StatusWord.implemented]
  refine ⟨?_, ?_, ?_⟩
  · rw [has_overflow, bit (by decide)]
    rfl
  · rw [has_carry, bit (by decide)]
    rfl
  · apply BitVec.eq_of_getLsbD_eq
    intro i inside
    rw [StatusWord.getLsbD_clear _ _ inside, StatusWord.getLsbD_clear _ _ inside, bit inside]
    interval_cases i <;> simp [StatusWord.carry, StatusWord.overflow]

end flags

end Arithmetic

variable {World : Type}

def Machine.withResult (m : Machine World) (d : Vector (BitVec 32) 8) (status : StatusWord) :
    Machine World :=
  { m with registers := { m.registers with d, status } }

namespace Exec

theorem kept_of_loadFrom {source : AddressingMode} {size : Size} {m loaded : Machine World}
    {value : BitVec 32} (read : loadFrom source size m = .ok value loaded) :
    loaded.registers.d = m.registers.d ∧ loaded.registers.status = m.registers.status := by
  have access : Accesses (BitVec.allOnes 16) True _ (loadFrom source size : Exec World (BitVec 32)) :=
    accesses_loadFrom source size
  have kept := access m
  rw [read] at kept
  exact ⟨kept.2.2.d trivial, kept.2.2.status_eq⟩

theorem setStatus_withResult (m : Machine World) (d : Vector (BitVec 32) 8) {old new : StatusWord}
    (same : new.system = old.system) :
    setStatus new (m.withResult d old) = .ok () (m.withResult d (new &&& .implemented)) := by
  have mode : new.has .supervisor = (m.withResult d old).registers.isSupervisor :=
    StatusWord.has_supervisor_of_system same
  change EStateM.Result.ok () (Machine.mapRegisters _ _) = _
  rw [Machine.mapRegisters, Registers.setStatus_of_same mode]
  rfl

section divide
variable {source : AddressingMode} {m loaded : Machine World} {value : BitVec 32}
  (read : loadFrom source .word m = .ok value loaded) (n : Fin 8)
  (quotient? : BitVec 32 → BitVec 16 → Option Arithmetic.Quotient)
  (cost : BitVec 32 → BitVec 16 → Nat)
include read

theorem loaded_eq_withResult :
    loaded = loaded.withResult m.registers.d m.registers.status := by
  obtain ⟨d, status⟩ := kept_of_loadFrom read
  rw [← d, ← status]
  rfl

theorem divide_of_zero (null : value.setWidth 16 = 0) :
    divide source n quotient? cost m =
      .error (.trap .zeroDivide (Timing.zeroDivide + Timing.operand source .word))
        (loaded.withResult m.registers.d (m.registers.status.clear .carry &&& .implemented)) := by
  obtain ⟨d, status⟩ := kept_of_loadFrom read
  have same : (m.registers.status.clear .carry).system = m.registers.status.system :=
    StatusWord.system_clear rfl m.registers.status
  have written := setStatus_withResult loaded m.registers.d same
  rw [← loaded_eq_withResult read] at written
  unfold divide
  rw [bind_of_ok read, bind_registers]
  dsimp only
  rw [if_pos null, status, bind_of_ok written]
  rfl

theorem divide_of_none (nonzero : value.setWidth 16 ≠ 0)
    (large : quotient? (m.registers.d.get n) (value.setWidth 16) = none) :
    divide source n quotient? cost m =
      .ok (cost (m.registers.d.get n) (value.setWidth 16) + Timing.operand source .word)
        (loaded.withResult m.registers.d
          ((m.registers.status.clear .carry).setIf .overflow true &&& .implemented)) := by
  obtain ⟨d, status⟩ := kept_of_loadFrom read
  have same : ((m.registers.status.clear .carry).setIf .overflow true).system =
      m.registers.status.system := by
    rw [StatusWord.system_setIf rfl, StatusWord.system_clear rfl]
  have written := setStatus_withResult loaded m.registers.d same
  rw [← loaded_eq_withResult read] at written
  unfold divide
  rw [bind_of_ok read, bind_registers]
  dsimp only
  rw [if_neg nonzero, d, large]
  dsimp only
  rw [status, bind_of_ok written]
  rfl

theorem divide_of_some {q : Arithmetic.Quotient} (nonzero : value.setWidth 16 ≠ 0)
    (found : quotient? (m.registers.d.get n) (value.setWidth 16) = some q) :
    divide source n quotient? cost m =
      .ok (cost (m.registers.d.get n) (value.setWidth 16) + Timing.operand source .word)
        (loaded.withResult (m.registers.setData n q.packed).d
          (m.registers.status.withLogical .word (q.quotient.setWidth 32) &&& .implemented)) := by
  obtain ⟨d, status⟩ := kept_of_loadFrom read
  have stored : update (·.setData n q.packed) loaded =
      .ok () (loaded.withResult (m.registers.setData n q.packed).d m.registers.status) := by
    rw [Registers.setData, ← d, ← status]
    rfl
  have written := setStatus_withResult loaded (m.registers.setData n q.packed).d
    (m.registers.status.system_withLogical .word (q.quotient.setWidth 32))
  unfold divide
  rw [bind_of_ok read, bind_registers]
  dsimp only
  rw [if_neg nonzero, d, found]
  dsimp only
  rw [status, bind_of_ok stored, bind_of_ok written]
  rfl

end divide

end Exec

namespace Instruction

open Arithmetic (Signedness IsQuotient)

theorem execute_division (signedness : Signedness) (source : AddressingMode) (n : Fin 8) :
    ∃ cost, ((signedness.division source n).execute : Exec World Nat) =
      Exec.divide source n signedness.quotient? cost := by
  cases signedness with
  | unsigned => exact ⟨Timing.divu, rfl⟩
  | signed => exact ⟨Timing.divs, rfl⟩

/-- DIVU and DIVS by an operand in any mode that can be read. If the divisor is not zero and the quotient has
sixteen bits, the register receives the quotient and, above it, the remainder; N and Z follow the quotient,
and V and C are clear. Any other quotient sets V, clears C and changes nothing else. Division by zero clears
C and traps through vector 5. -/
theorem division_exact (signedness : Signedness) (source : AddressingMode) (n : Fin 8)
    {m loaded : Machine World} {value : BitVec 32}
    (read : Exec.loadFrom source .word m = .ok value loaded) :
    let dividend := m.registers.d.get n
    let divisor : BitVec 16 := value.setWidth 16
    let exact := (signedness.number dividend).tdiv (signedness.number divisor)
    let before : StatusWord := m.registers.status &&& .implemented
    (divisor ≠ 0 → signedness.Fits exact →
      ∃ (cost : Nat) (quotient remainder : BitVec 16) (status : StatusWord),
        (signedness.division source n).execute m =
          .ok cost (loaded.withResult (m.registers.setData n (remainder ++ quotient)).d status) ∧
        IsQuotient (signedness.number dividend) (signedness.number divisor)
          (signedness.number quotient) (signedness.number remainder) ∧
        status.has .negative = quotient.msb ∧ status.has .zero = (quotient == 0) ∧
        status.has .overflow = false ∧ status.has .carry = false ∧
        status.clear (.negative ||| .zero ||| .overflow ||| .carry) =
          before.clear (.negative ||| .zero ||| .overflow ||| .carry)) ∧
    (divisor ≠ 0 → ¬ signedness.Fits exact →
      ∃ (cost : Nat) (status : StatusWord),
        (signedness.division source n).execute m =
          .ok cost (loaded.withResult m.registers.d status) ∧
        status.has .overflow = true ∧ status.has .carry = false ∧
        status.clear (.overflow ||| .carry) = before.clear (.overflow ||| .carry)) ∧
    (divisor = 0 →
      ∃ cost : Nat, (signedness.division source n).execute m =
        .error (.trap 5 cost) (loaded.withResult m.registers.d (before.clear .carry))) := by
  intro dividend divisor exact before
  obtain ⟨cost, executes⟩ := @execute_division World signedness source n
  rw [executes]
  refine ⟨?_, ?_, ?_⟩
  · intro nonzero fits
    obtain ⟨q, found, divides⟩ := (signedness.quotient?_spec nonzero dividend).1 fits
    refine ⟨_, q.quotient, q.remainder, _,
      Exec.divide_of_some read n signedness.quotient? cost nonzero found, divides, ?_⟩
    exact Arithmetic.flags_of_quotient m.registers.status q.quotient
  · intro nonzero outside
    have large := (signedness.quotient?_spec nonzero dividend).2 outside
    refine ⟨_, _, Exec.divide_of_none read n signedness.quotient? cost nonzero large, ?_⟩
    exact Arithmetic.flags_of_overflow m.registers.status
  · intro null
    have order : m.registers.status.clear .carry &&& .implemented = before.clear .carry := by
      rw [StatusWord.clear, BitVec.and_assoc, BitVec.and_comm (~~~StatusWord.carry), ← BitVec.and_assoc]
      rfl
    rw [← order]
    exact ⟨_, Exec.divide_of_zero read n signedness.quotient? cost null⟩

/-- Dividends of minus one hundred and of minus 2 ^ 31, and divisors of seven, of minus one and of zero. -/
def dividing : Machine Unit :=
  { Machine.new .standard ⟨#[], .none, ()⟩ fun _ world => world with
    registers := ((((Registers.initial.setData 0 0xFFFFFF9C).setData 1 7).setData 2 0x80000000).setData 3
      0xFFFF) }

theorem division_exact_signed :
    Exec.loadFrom (.dataRegister 1) .word dividing = .ok 7 dividing ∧
      Exec.loadFrom (.dataRegister 3) .word dividing = .ok 0xFFFF dividing ∧
      Exec.loadFrom (.dataRegister 4) .word dividing = .ok 0 dividing ∧
      (∃ (cost : Nat) (quotient remainder : BitVec 16) (status : StatusWord),
        (Instruction.divs (.dataRegister 1) 0).execute dividing =
          .ok cost (dividing.withResult (dividing.registers.setData 0 (remainder ++ quotient)).d status) ∧
        IsQuotient (-100) 7 quotient.toInt remainder.toInt) ∧
      (∃ (cost : Nat) (status : StatusWord), (Instruction.divs (.dataRegister 3) 2).execute dividing =
        .ok cost (dividing.withResult dividing.registers.d status) ∧ status.has .overflow = true) ∧
      ∃ cost : Nat, (Instruction.divs (.dataRegister 4) 0).execute dividing =
        .error (.trap 5 cost) (dividing.withResult dividing.registers.d 0x2700) := by
  have seven : Exec.loadFrom (.dataRegister 1) .word dividing = .ok 7 dividing := rfl
  have minusOne : Exec.loadFrom (.dataRegister 3) .word dividing = .ok 0xFFFF dividing := rfl
  have zero : Exec.loadFrom (.dataRegister 4) .word dividing = .ok 0 dividing := rfl
  obtain ⟨cost, quotient, remainder, status, done, divides, _⟩ :=
    (division_exact .signed (.dataRegister 1) 0 seven).1 (by decide) (by decide)
  obtain ⟨cost', status', done', overflow, _⟩ :=
    (division_exact .signed (.dataRegister 3) 2 minusOne).2.1 (by decide) (by decide)
  have trapped := (division_exact .signed (.dataRegister 4) 0 zero).2.2 (by decide)
  exact ⟨seven, minusOne, zero, ⟨cost, quotient, remainder, status, done, divides⟩,
    ⟨cost', status', done', overflow⟩, trapped⟩

end Instruction

end MC68000
