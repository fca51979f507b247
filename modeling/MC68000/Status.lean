import MC68000.Size

set_option autoImplicit false

namespace MC68000

/-- A packed status word, or a set of its bits.

    15  14  13  12  11  10   9   8   7   6   5   4   3   2   1   0
     T   -   S   -   -  I2  I1  I0   -   -   -   X   N   Z   V   C

Operations replace the flags they name and keep all other bits, also those that do not exist. -/
abbrev StatusWord := BitVec 16

namespace StatusWord

def carry : StatusWord := 0x0001

def overflow : StatusWord := 0x0002

def zero : StatusWord := 0x0004

def negative : StatusWord := 0x0008

def extend : StatusWord := 0x0010

/-- The supervisor bit S. -/
def supervisor : StatusWord := 0x2000

/-- The trace bit T. -/
def trace : StatusWord := 0x8000

/-- The interrupt mask field, bits 8 to 10. -/
def interruptField : StatusWord := 0x0700

/-- The five condition codes. -/
def conditionCodes : StatusWord := 0x001F

/-- The bits that exist; the others read as zero. -/
def implemented : StatusWord := 0xA71F

/-- Whether some bit of `flags` is set. -/
def has (status flags : StatusWord) : Bool := status &&& flags != 0

def clear (status flags : StatusWord) : StatusWord := status &&& ~~~flags

/-- Sets `flags` where `condition` holds and clears them where it does not. -/
def setIf (status flags : StatusWord) (condition : Bool) : StatusWord :=
  if condition then status ||| flags else status.clear flags

/-- N and Z from a value of the given size. -/
def withSign (status : StatusWord) (size : Size) (value : BitVec 32) : StatusWord :=
  let value := size.truncate value
  (status.setIf zero (value == 0)).setIf negative (size.isNegative value)

/-- The flags of a moved or logical result: N and Z from the value, V and C clear, X kept. -/
def withLogical (status : StatusWord) (size : Size) (value : BitVec 32) : StatusWord :=
  (status.clear (overflow ||| carry)).withSign size value

/-- The level held in the interrupt mask field. -/
def interruptMask (status : StatusWord) : Nat := ((status &&& interruptField) >>> 8).toNat

/-- Replaces the interrupt mask field. -/
def withInterruptMask (status : StatusWord) (level : Fin 8) : StatusWord :=
  status.clear interruptField ||| (BitVec.ofNat 16 level <<< 8)

theorem getLsbD_clear (status flags : StatusWord) {i : Nat} (h : i < 16) :
    (status.clear flags).getLsbD i = (status.getLsbD i && !flags.getLsbD i) := by
  simp only [clear, BitVec.getLsbD_and, BitVec.getLsbD_not, h, decide_true, Bool.true_and]

/-- Setting flags touches their own bits and no others. -/
theorem getLsbD_setIf (status flags : StatusWord) (condition : Bool) {i : Nat} (h : i < 16) :
    (status.setIf flags condition).getLsbD i =
      if flags.getLsbD i then condition else status.getLsbD i := by
  cases condition with
  | false =>
    rw [setIf, if_neg Bool.false_ne_true, getLsbD_clear status flags h]
    cases flags.getLsbD i <;> simp only [Bool.not_true, Bool.not_false, Bool.and_false,
      Bool.and_true, if_true, if_neg Bool.false_ne_true]
  | true =>
    rw [setIf, if_pos rfl, BitVec.getLsbD_or]
    cases flags.getLsbD i <;> simp only [Bool.or_true, Bool.or_false, if_true,
      if_neg Bool.false_ne_true]

/-- A single flag is a bit of the word. -/
theorem has_eq_getLsbD (status : StatusWord) {flag : StatusWord} {k : Nat}
    (h : flag = BitVec.twoPow 16 k) (inside : k < 16) : status.has flag = status.getLsbD k := by
  subst h
  rw [has, BitVec.and_twoPow]
  cases status.getLsbD k with
  | false => rfl
  | true =>
    rw [if_pos rfl, bne_iff_ne]
    intro equal
    have bit := congrArg (fun x : BitVec 16 => x.getLsbD k) equal
    simp only [BitVec.getLsbD_twoPow, inside, decide_true, Bool.true_and, BitVec.ofNat_eq_ofNat,
      BitVec.getLsbD_zero, Bool.true_eq_false] at bit

theorem has_supervisor (status : StatusWord) : status.has .supervisor = status.getLsbD 13 :=
  status.has_eq_getLsbD rfl (by decide)

theorem has_supervisor_masked (status : StatusWord) :
    StatusWord.has (status &&& .implemented) .supervisor = status.has .supervisor := by
  rw [has_supervisor, has_supervisor, BitVec.getLsbD_and]
  exact Bool.and_true _

theorem has_supervisor_xor (x y : StatusWord) :
    StatusWord.has (x ^^^ y) .supervisor = (x.has .supervisor != y.has .supervisor) := by
  rw [has_supervisor, has_supervisor, has_supervisor, BitVec.getLsbD_xor]

end StatusWord

/-- The sixteen tests on the condition codes that branches, decrementing loops and byte settings use. -/
inductive Condition where
  | always
  | never
  | higher
  | lowerOrSame
  | carryClear
  | carrySet
  | notEqual
  | equal
  | overflowClear
  | overflowSet
  | plus
  | minus
  | greaterOrEqual
  | less
  | greater
  | lessOrEqual
  deriving DecidableEq

namespace Condition

/-- The test that a condition field selects. -/
def ofField (field : BitVec 4) : Condition :=
  match field.toNat with
  | 0 => always
  | 1 => never
  | 2 => higher
  | 3 => lowerOrSame
  | 4 => carryClear
  | 5 => carrySet
  | 6 => notEqual
  | 7 => equal
  | 8 => overflowClear
  | 9 => overflowSet
  | 10 => plus
  | 11 => minus
  | 12 => greaterOrEqual
  | 13 => less
  | 14 => greater
  | _ => lessOrEqual

def holds (condition : Condition) (status : StatusWord) : Bool :=
  let c := status.has .carry
  let v := status.has .overflow
  let z := status.has .zero
  let n := status.has .negative
  match condition with
  | always => true
  | never => false
  | higher => !c && !z
  | lowerOrSame => c || z
  | carryClear => !c
  | carrySet => c
  | notEqual => !z
  | equal => z
  | overflowClear => !v
  | overflowSet => v
  | plus => !n
  | minus => n
  | greaterOrEqual => n == v
  | less => n != v
  | greater => !z && n == v
  | lessOrEqual => z || n != v

end Condition

end MC68000
