import MC68000.Proofs.RegisterLists

set_option autoImplicit false

namespace MC68000

namespace Registers

variable (r : Registers) (n : Fin 8)

theorem get_setData (value : BitVec 32) : (r.setData n value).d.get n = value :=
  get_set_self (show Register.IsGeneral (.data n) from trivial) value

/-- A data register after a part of it has been replaced, bit by bit. -/
theorem getLsbD_setDataPart (size : Size) (value : BitVec 32)
    {i : Nat} (inside : i < 32) : ((r.setDataPart n size value).d.get n).getLsbD i =
      if i < size.bits then value.getLsbD i else (r.d.get n).getLsbD i := by
  have masks : ∀ i < 32, (0xFFFFFF00 : BitVec 32).getLsbD i = !decide (i < 8) ∧
      (0xFF : BitVec 32).getLsbD i = decide (i < 8) ∧
      (0xFFFF0000 : BitVec 32).getLsbD i = !decide (i < 16) ∧
      (0xFFFF : BitVec 32).getLsbD i = decide (i < 16) := by decide
  obtain ⟨aboveByte, byte, aboveWord, word⟩ := masks i inside
  cases size with
  | byte =>
    simp only [setDataPart, get_setData, BitVec.getLsbD_or, BitVec.getLsbD_and, aboveByte, byte]
    by_cases low : i < 8 <;> simp [low, Size.bits, Size.bytes]
  | word =>
    simp only [setDataPart, get_setData, BitVec.getLsbD_or, BitVec.getLsbD_and, aboveWord, word]
    by_cases low : i < 16 <;> simp [low, Size.bits, Size.bytes]
  | long => simp only [setDataPart, get_setData, Size.bits, Size.bytes, inside, if_true]

/-- No more of a value comes into a part of a data register than belongs to the size. -/
theorem setDataPart_truncate (size : Size) (value : BitVec 32) :
    r.setDataPart n size (size.truncate value) = r.setDataPart n size value := by
  cases size with
  | byte => simp only [setDataPart, Size.truncate, BitVec.and_assoc, BitVec.and_self]
  | word => simp only [setDataPart, Size.truncate, BitVec.and_assoc, BitVec.and_self]
  | long => rfl

theorem low_setDataPart_word (value : BitVec 32) :
    ((r.setDataPart n .word value).d.get n).setWidth 16 = value.setWidth 16 := by
  apply BitVec.eq_of_getLsbD_eq
  intro i inside
  have low : i < Size.bits .word := inside
  rw [BitVec.getLsbD_setWidth, BitVec.getLsbD_setWidth, getLsbD_setDataPart r n .word value (by omega),
    if_pos low]

theorem high_setDataPart_word (value : BitVec 32) :
    ((r.setDataPart n .word value).d.get n).extractLsb' 16 16 = (r.d.get n).extractLsb' 16 16 := by
  apply BitVec.eq_of_getLsbD_eq
  intro i inside
  have high : ¬16 + i < Size.bits .word := Nat.not_lt.mpr (Nat.le_add_right 16 i)
  rw [BitVec.getLsbD_extractLsb', BitVec.getLsbD_extractLsb',
    getLsbD_setDataPart r n .word value (by omega), if_neg high]

end Registers

end MC68000
