set_option autoImplicit false

namespace MC68000

/-- The byte buffers that back memory, by number, as several regions may share one buffer. Words are
big-endian, and a word lies in a buffer only if both its bytes do. -/
abbrev Ram := Array (Array (BitVec 8))

namespace Ram

/-- The length of a buffer; a buffer that does not exist is empty. -/
def length (ram : Ram) (buffer : Nat) : Nat := ram[buffer]?.elim 0 Array.size

def byte? (ram : Ram) (buffer offset : Nat) : Option (BitVec 8) :=
  ram[buffer]?.bind fun bytes => bytes[offset]?

def word? (ram : Ram) (buffer offset : Nat) : Option (BitVec 16) :=
  match ram.byte? buffer offset, ram.byte? buffer (offset + 1) with
  | some high, some low => some (high ++ low)
  | _, _ => none

/-- Replaces the byte at an offset; an offset past the end changes nothing. -/
def put (ram : Ram) (buffer offset : Nat) (value : BitVec 8) : Ram :=
  ram.modify buffer fun bytes => bytes.setIfInBounds offset value

/-- Stores a byte, if the offset lies in the buffer, and tells whether it does. -/
def storeByte (ram : Ram) (buffer offset : Nat) (value : BitVec 8) : Bool × Ram :=
  if offset < ram.length buffer then (true, ram.put buffer offset value) else (false, ram)

/-- Stores a word, if both its bytes lie in the buffer, and tells whether they do. -/
def storeWord (ram : Ram) (buffer offset : Nat) (value : BitVec 16) : Bool × Ram :=
  if offset + 1 < ram.length buffer then
    (true, (ram.put buffer offset (value.extractLsb' 8 8)).put buffer (offset + 1)
      (value.extractLsb' 0 8))
  else
    (false, ram)

theorem exists_of_lt_length {ram : Ram} {buffer offset : Nat} (h : offset < ram.length buffer) :
    ∃ bytes, ram[buffer]? = some bytes ∧ offset < bytes.size := by
  unfold length at h
  cases found : ram[buffer]? with
  | none => rw [found] at h; exact absurd h (Nat.not_lt_zero offset)
  | some bytes => rw [found] at h; exact ⟨bytes, rfl, h⟩

theorem length_put (ram : Ram) (buffer offset : Nat) (value : BitVec 8) (b : Nat) :
    (ram.put buffer offset value).length b = ram.length b := by
  simp only [put, length, Array.getElem?_modify]
  by_cases same : buffer = b
  · rw [if_pos same]
    cases ram[b]? with
    | none => rfl
    | some bytes => exact Array.size_setIfInBounds
  · rw [if_neg same]

theorem byte?_put_self {ram : Ram} {buffer offset : Nat} (value : BitVec 8)
    (h : offset < ram.length buffer) :
    (ram.put buffer offset value).byte? buffer offset = some value := by
  obtain ⟨bytes, found, inside⟩ := exists_of_lt_length h
  simp only [put, byte?, Array.getElem?_modify, if_true, found, Option.map_some, Option.bind_some]
  exact Array.getElem?_setIfInBounds_self_of_lt inside

theorem byte?_put_of_ne {ram : Ram} {buffer offset b o : Nat} (value : BitVec 8)
    (h : b ≠ buffer ∨ o ≠ offset) : (ram.put buffer offset value).byte? b o = ram.byte? b o := by
  simp only [put, byte?, Array.getElem?_modify]
  by_cases same : buffer = b
  · rw [if_pos same]
    cases ram[b]? with
    | none => rfl
    | some bytes =>
      exact Array.getElem?_setIfInBounds_ne fun equal => h.elim (· same.symm) (· equal.symm)
  · rw [if_neg same]

/-- A word that is stored reads back. -/
theorem word?_storeWord {ram after : Ram} {buffer offset : Nat} {value : BitVec 16}
    (h : ram.storeWord buffer offset value = (true, after)) :
    after.word? buffer offset = some value := by
  unfold storeWord at h
  split at h
  case isFalse => cases h
  case isTrue inside =>
    cases h
    have halves : value.extractLsb' 8 8 ++ value.extractLsb' 0 8 = value := by
      apply BitVec.eq_of_toNat_eq
      have := value.isLt
      rw [BitVec.toNat_append, BitVec.extractLsb'_toNat, BitVec.extractLsb'_toNat,
        ← Nat.shiftLeft_add_eq_or_of_lt (by omega), Nat.shiftLeft_eq, Nat.shiftRight_eq_div_pow]
      simp only [Nat.shiftRight_zero]
      omega
    rw [word?, byte?_put_of_ne _ (.inr (by omega)), byte?_put_self _ (by omega),
      byte?_put_self _ (by rw [length_put]; omega)]
    exact congrArg some halves

end Ram

end MC68000
