import MC68000.Timing

set_option autoImplicit false

namespace MC68000.Timing

/-- An even number of clock cycles, from those of an opcode's fetch up to a bound. -/
def Within (bound cost : Nat) : Prop := 2 ∣ cost ∧ 4 ≤ cost ∧ cost ≤ bound

instance (bound cost : Nat) : Decidable (Within bound cost) :=
  inferInstanceAs (Decidable (_ ∧ _ ∧ _))

/-- What an instruction can cost. -/
abbrev IsCost (cost : Nat) : Prop := Within 168 cost

theorem Within.mono {bound bound' cost : Nat} (h : Within bound cost) (le : bound ≤ bound') :
    Within bound' cost := ⟨h.1, h.2.1, Nat.le_trans h.2.2 le⟩

theorem Within.add {bound bound' cost more : Nat} (h : Within bound cost) (even : 2 ∣ more)
    (le : more ≤ bound') : Within (bound + bound') (cost + more) := by
  obtain ⟨whole, least, most⟩ := h
  refine ⟨Nat.dvd_add whole even, ?_, ?_⟩
  · omega
  · omega

theorem even_operand (mode : AddressingMode) (size : Size) : 2 ∣ operand mode size := by
  unfold operand
  cases size <;> split <;> decide

theorem operand_le (mode : AddressingMode) (size : Size) : operand mode size ≤ 16 := by
  unfold operand
  cases size <;> split <;> decide

theorem operand_word_le (mode : AddressingMode) : operand mode .word ≤ 12 := by
  unfold operand
  split <;> decide

theorem Within.add_operand {bound base : Nat} (h : Within bound base) (mode : AddressingMode)
    (size : Size) : Within (bound + 16) (base + operand mode size) :=
  h.add (even_operand mode size) (operand_le mode size)

theorem Within.add_word {bound base : Nat} (h : Within bound base) (mode : AddressingMode) :
    Within (bound + 12) (base + operand mode .word) :=
  h.add (even_operand mode .word) (operand_word_le mode)

/-- Decrementing is free in the destination of MOVE. -/
theorem moveDestination_eq (mode : AddressingMode) (size : Size) :
    ∃ located, moveDestination mode size = operand located size := by
  unfold moveDestination
  split
  · exact ⟨_, rfl⟩
  · exact ⟨mode, rfl⟩

theorem Within.add_moveDestination {bound base : Nat} (h : Within bound base)
    (mode : AddressingMode) (size : Size) :
    Within (bound + 16) (base + moveDestination mode size) := by
  obtain ⟨located, same⟩ := moveDestination_eq mode size
  rw [same]
  exact h.add_operand located size

theorem within_bySize {bound short long : Nat} (whenShort : Within bound short)
    (whenLong : Within bound long) (size : Size) : Within bound (bySize size short long) := by
  unfold bySize
  split
  · exact whenLong
  · exact whenShort

theorem within_toRegister (mode : AddressingMode) (size : Size) : Within 24 (toRegister mode size) := by
  refine Within.add_operand (within_bySize (by decide) ?_ size) mode size
  split <;> decide

theorem within_readModifyWrite {bound : Nat} {register memory : Nat × Nat}
    (registerShort : Within bound register.1) (registerLong : Within bound register.2)
    (memoryShort : Within bound memory.1) (memoryLong : Within bound memory.2)
    (mode : AddressingMode) (size : Size) :
    Within (bound + 16) (readModifyWrite mode size register memory) := by
  unfold readModifyWrite
  split
  · exact (within_bySize registerShort registerLong size).mono (Nat.le_add_right bound 16)
  · exact (within_bySize memoryShort memoryLong size).add_operand mode size

theorem within_control {bound indirect displaced indexed short long : Nat}
    (first : Within bound indirect) (second : Within bound displaced) (third : Within bound indexed)
    (fourth : Within bound short) (fifth : Within bound long) (mode : AddressingMode) :
    Within bound (control mode indirect displaced indexed short long) := by
  unfold control
  split <;> assumption

theorem within_jmp (mode : AddressingMode) : Within 14 (jmp mode) :=
  within_control (by decide) (by decide) (by decide) (by decide) (by decide) mode

theorem within_jsr (mode : AddressingMode) : Within 22 (jsr mode) :=
  within_control (by decide) (by decide) (by decide) (by decide) (by decide) mode

theorem within_lea (mode : AddressingMode) : Within 12 (lea mode) :=
  within_control (by decide) (by decide) (by decide) (by decide) (by decide) mode

theorem within_pea (mode : AddressingMode) : Within 20 (pea mode) :=
  within_control (by decide) (by decide) (by decide) (by decide) (by decide) mode

/-- MOVEM names sixteen registers at most. -/
theorem within_movemStore (mode : AddressingMode) (size : Size) {count : Nat} (few : count ≤ 16) :
    Within 144 (movemStore mode size count) := by
  have found : Within 16 (control mode 8 12 14 12 16) :=
    within_control (by decide) (by decide) (by decide) (by decide) (by decide) mode
  have each : Within 8 (bySize size 4 8) := within_bySize (by decide) (by decide) size
  have most : bySize size 4 8 * count ≤ 8 * 16 := Nat.mul_le_mul each.2.2 few
  exact found.add (Nat.dvd_mul_right_of_dvd each.1 count) most

theorem within_movemLoad (mode : AddressingMode) (size : Size) {count : Nat} (few : count ≤ 16) :
    Within 148 (movemLoad mode size count) := by
  obtain ⟨even, least, most⟩ := within_movemStore mode size few
  unfold movemLoad
  refine ⟨?_, ?_, ?_⟩
  · omega
  · omega
  · omega

theorem ones_le {w : Nat} (x : BitVec w) : ones x ≤ w := by
  have counted : ones x ≤ (List.range w).length := List.countP_le_length
  rwa [List.length_range] at counted

theorem within_mulu (source : BitVec 16) : Within 70 (mulu source) := by
  have few := ones_le source
  unfold mulu
  refine ⟨?_, ?_, ?_⟩
  · omega
  · omega
  · omega

theorem within_muls (source : BitVec 16) : Within 70 (muls source) := by
  have few := ones_le ((source <<< 1) ^^^ source)
  unfold muls
  refine ⟨?_, ?_, ?_⟩
  · omega
  · omega
  · omega

theorem halfCost_step (divisor : BitVec 32) (d : Division) :
    d.halfCost ≤ (d.step divisor).halfCost ∧ (d.step divisor).halfCost ≤ d.halfCost + 2 := by
  unfold Division.step
  dsimp only
  split
  · exact ⟨Nat.le_refl _, Nat.le_add_right _ 2⟩
  · split
    · exact ⟨Nat.le_add_right _ 1, Nat.le_succ _⟩
    · exact ⟨Nat.le_add_right _ 2, Nat.le_refl _⟩

/-- Each bit of an unsigned division takes two half steps at most. -/
theorem halfCost_repeat (divisor : BitVec 32) (d : Division) (n : Nat) :
    d.halfCost ≤ (Nat.repeat (Division.step divisor) n d).halfCost ∧
      (Nat.repeat (Division.step divisor) n d).halfCost ≤ d.halfCost + 2 * n := by
  induction n with
  | zero => exact ⟨Nat.le_refl _, Nat.le_refl _⟩
  | succ n ih =>
    have last := halfCost_step divisor (Nat.repeat (Division.step divisor) n d)
    rw [Nat.repeat]
    omega

theorem within_divu (dividend : BitVec 32) (divisor : BitVec 16) :
    Within 136 (divu dividend divisor) := by
  have bits := halfCost_repeat (divisor ++ 0#16) ⟨dividend, 38⟩ 15
  dsimp only at bits
  unfold divu
  split
  · decide
  · refine ⟨Nat.dvd_mul_right 2 _, ?_, ?_⟩
    · omega
    · omega

theorem within_divs (dividend : BitVec 32) (divisor : BitVec 16) :
    Within 156 (divs dividend divisor) := by
  unfold divs
  dsimp only
  split
  · cases dividend.msb <;> decide
  · have zeros (quotient : BitVec 16) :
        (List.range 15).countP (fun i => !quotient.getLsbD (15 - i)) ≤ 15 := by
      have counted := List.countP_le_length (p := fun i => !quotient.getLsbD (15 - i)) (l := List.range 15)
      rwa [List.length_range] at counted
    have counted := zeros (BitVec.ofNat 16 (dividend.toInt.natAbs / divisor.toInt.natAbs))
    have start : 6 ≤ (if dividend.msb then 7 else 6) ∧ (if dividend.msb then 7 else 6) ≤ 7 := by
      split <;> decide
    have signs : (if divisor.msb then 55 else if dividend.msb then 56 else 54) ≤ 56 := by
      split
      · decide
      · split <;> decide
    refine ⟨Nat.dvd_mul_right 2 _, ?_, ?_⟩
    · omega
    · omega

/-- A shift counts up to 63. -/
theorem within_shift (size : Size) {count : Nat} (few : count ≤ 63) :
    Within 134 (bySize size 6 8 + 2 * count) := by
  have base : Within 8 (bySize size 6 8) := within_bySize (by decide) (by decide) size
  have most : 2 * count ≤ 126 := by omega
  exact base.add (Nat.dvd_mul_right 2 count) most

end MC68000.Timing
