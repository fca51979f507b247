import Mathlib.Data.Nat.Digits.Defs
import MC68000.Arithmetic.Decimal
import MC68000.Proofs.LimbChains

set_option autoImplicit false

namespace MC68000.Arithmetic

/-- The nibbles of packed bytes, of the least significant byte first and of each byte the low one first. -/
def nibbles : List (BitVec 8) → List Nat
  | [] => []
  | byte :: rest => byte.toNat % 16 :: byte.toNat / 16 :: nibbles rest

/-- Whether every nibble is a decimal digit. -/
def IsDecimal (bytes : List (BitVec 8)) : Prop := ∀ digit ∈ nibbles bytes, digit ≤ 9

instance (bytes : List (BitVec 8)) : Decidable (IsDecimal bytes) :=
  inferInstanceAs (Decidable (∀ digit ∈ nibbles bytes, digit ≤ 9))

/-- The number that packed bytes stand for, the least significant byte first. -/
def decimalValue (bytes : List (BitVec 8)) : Nat := Nat.ofDigits 10 (nibbles bytes)

/-- Works along bytes from the least significant on, each operation on the status word that the one before
it left. -/
def decimalChain {Operands : Type} (operation : Operands → StatusWord → BitVec 8 × StatusWord) :
    List Operands → StatusWord → List (BitVec 8) × StatusWord
  | [], status => ([], status)
  | operands :: rest, status =>
      let first := operation operands status
      let above := decimalChain operation rest first.2
      (first.1 :: above.1, above.2)

theorem isDecimal_singleton (byte : BitVec 8) :
    IsDecimal [byte] ↔ byte.toNat % 16 ≤ 9 ∧ byte.toNat / 16 ≤ 9 := by
  simp [IsDecimal, nibbles]

theorem decimalValue_singleton (byte : BitVec 8) :
    decimalValue [byte] = byte.toNat % 16 + 10 * (byte.toNat / 16) := by
  simp [decimalValue, nibbles, Nat.ofDigits_cons]

theorem isDecimal_cons (byte : BitVec 8) (rest : List (BitVec 8)) :
    IsDecimal (byte :: rest) ↔ IsDecimal [byte] ∧ IsDecimal rest := by
  rw [isDecimal_singleton, and_assoc]
  simp only [IsDecimal, nibbles, List.forall_mem_cons]

theorem decimalValue_cons (byte : BitVec 8) (rest : List (BitVec 8)) :
    decimalValue (byte :: rest) = decimalValue [byte] + 100 * decimalValue rest := by
  rw [decimalValue_singleton]
  simp only [decimalValue, nibbles, Nat.ofDigits_cons]
  ring

theorem length_nibbles (bytes : List (BitVec 8)) : (nibbles bytes).length = 2 * bytes.length := by
  induction bytes with
  | nil => rfl
  | cons byte rest ih =>
    simp only [nibbles, List.length_cons, ih]
    omega

theorem nibbles_injective {x y : List (BitVec 8)} (same : nibbles x = nibbles y) : x = y := by
  induction x generalizing y with
  | nil =>
    cases y with
    | nil => rfl
    | cons byte rest => simp [nibbles] at same
  | cons first above ih =>
    cases y with
    | nil => simp [nibbles] at same
    | cons byte rest =>
      simp only [nibbles, List.cons.injEq] at same
      obtain ⟨low, high, tail⟩ := same
      have bytes : first = byte := BitVec.eq_of_toNat_eq (by omega)
      rw [bytes, ih tail]

theorem decimalValue_lt {bytes : List (BitVec 8)} (decimal : IsDecimal bytes) :
    decimalValue bytes < 100 ^ bytes.length := by
  have bound : decimalValue bytes < 10 ^ (nibbles bytes).length :=
    Nat.ofDigits_lt_base_pow_length (by decide) fun digit inside => Nat.lt_succ_of_le (decimal digit inside)
  rwa [length_nibbles, pow_mul] at bound

theorem eq_of_decimalValue {x y : List (BitVec 8)} (hx : IsDecimal x) (hy : IsDecimal y)
    (length : x.length = y.length) (value : decimalValue x = decimalValue y) : x = y := by
  refine nibbles_injective (Nat.ofDigits_inj_of_len_eq (by decide : 1 < 10) ?_ ?_ ?_ value)
  · rw [length_nibbles, length_nibbles, length]
  · exact fun digit inside => Nat.lt_succ_of_le (hx digit inside)
  · exact fun digit inside => Nat.lt_succ_of_le (hy digit inside)

theorem setWidth_eq_zero (byte : BitVec 8) : byte.setWidth 32 = 0#32 ↔ byte = 0#8 := by
  rw [← BitVec.toNat_inj, ← BitVec.toNat_inj, BitVec.toNat_setWidth_of_le (by decide)]
  rfl

theorem decimalFlags_eq (result : BitVec 8) (overflow carry : Bool) (status : StatusWord) :
    decimalFlags result overflow carry status =
      Limb.chainFlags .byte ⟨result.setWidth 32, carry, overflow⟩ status := by
  have null : (result.setWidth 32 != 0#32) = (result != 0#8) := by
    rw [Bool.eq_iff_iff, bne_iff_ne, bne_iff_ne, ne_eq, ne_eq, setWidth_eq_zero]
  have sign : Size.byte.isNegative (result.setWidth 32) = result.msb := by
    rw [Size.isNegative_eq, BitVec.msb_eq_getLsbD_last, BitVec.getLsbD_setWidth]
    rfl
  rw [decimalFlags, Limb.chainFlags, sign]
  simp only [BitVec.ofNat_eq_ofNat, null]

/-- The corrected sum of two digits each: six is added where a digit goes past nine, so that it wraps and
carries as a nibble does. -/
theorem digits_of_sum {s d x low high result : Nat} (sLow : s % 16 ≤ 9) (sHigh : s / 16 ≤ 9)
    (dLow : d % 16 ≤ 9) (dHigh : d / 16 ≤ 9) (bit : x ≤ 1)
    (lowCarry : 9 < d % 16 + s % 16 + x ∧ low = 1 ∨ ¬ 9 < d % 16 + s % 16 + x ∧ low = 0)
    (highCarry : 9 < d / 16 + s / 16 + low ∧ high = 1 ∨ ¬ 9 < d / 16 + s / 16 + low ∧ high = 0)
    (corrected : result = (d + s + x + 6 * low + 96 * high) % 256) :
    result % 16 ≤ 9 ∧ result / 16 ≤ 9 ∧
      result % 16 + 10 * (result / 16) + 100 * high =
        d % 16 + 10 * (d / 16) + (s % 16 + 10 * (s / 16) + x) := by
  omega

/-- The corrected difference of two digits each: six is taken away where a digit borrows. -/
theorem digits_of_difference {s d x low high result : Nat} (sLow : s % 16 ≤ 9) (sHigh : s / 16 ≤ 9)
    (dLow : d % 16 ≤ 9) (dHigh : d / 16 ≤ 9) (bit : x ≤ 1) (byte : result < 256)
    (lowBorrow : d % 16 < s % 16 + x ∧ low = 1 ∨ ¬ d % 16 < s % 16 + x ∧ low = 0)
    (highBorrow : d / 16 < s / 16 + low ∧ high = 1 ∨ ¬ d / 16 < s / 16 + low ∧ high = 0)
    (corrected : (result + 6 * low + 96 * high + s + x) % 256 = d) :
    result % 16 ≤ 9 ∧ result / 16 ≤ 9 ∧
      result % 16 + 10 * (result / 16) + (s % 16 + 10 * (s / 16) + x) =
        d % 16 + 10 * (d / 16) + 100 * high := by
  omega

/-- What one byte of `dst + sign * src` is, given what the bytes below carry into it: `sign` is 1 in a sum and
-1 in a difference. -/
structure ByteExact (sign : Int) (src dst : BitVec 8) (carryIn : Bool) (result : BitVec 8)
    (carryOut : Bool) : Prop where
  decimal : IsDecimal [result]
  value : (decimalValue [result] : Int) + sign * (100 * carryOut.toNat) =
    decimalValue [dst] + sign * (decimalValue [src] + carryIn.toNat)

theorem correction_eq (p : Prop) [Decidable p] (n : Nat) :
    (if p then n else 0) = n * (decide p).toNat := by
  by_cases h : p <;> simp [h]

theorem toNat_decide_cases (p : Prop) [Decidable p] :
    p ∧ (decide p).toNat = 1 ∨ ¬ p ∧ (decide p).toNat = 0 := by
  by_cases h : p <;> simp [h]

/-- A byte with the digits of a sum or a difference is exact. -/
theorem ByteExact.of_digits {sign : Int} {src dst result : BitVec 8} {carryIn carryOut : Bool}
    (low : result.toNat % 16 ≤ 9) (high : result.toNat / 16 ≤ 9)
    (value : ((result.toNat % 16 + 10 * (result.toNat / 16) : Nat) : Int) +
        sign * (100 * carryOut.toNat) = (dst.toNat % 16 + 10 * (dst.toNat / 16) : Nat) +
          sign * ((src.toNat % 16 + 10 * (src.toNat / 16) : Nat) + carryIn.toNat)) :
    ByteExact sign src dst carryIn result carryOut := by
  constructor
  · rw [isDecimal_singleton]
    exact ⟨low, high⟩
  · rw [decimalValue_singleton, decimalValue_singleton, decimalValue_singleton]
    exact value

theorem exact_addDecimal (src dst : BitVec 8) (status : StatusWord) (s : IsDecimal [src])
    (d : IsDecimal [dst]) : ∃ result overflow carry,
    addDecimal src dst status = (result, decimalFlags result overflow carry status) ∧
      ByteExact 1 src dst (status.has .extend) result carry := by
  rw [isDecimal_singleton] at s d
  have bit := (status.has .extend).toNat_le
  have low := toNat_decide_cases (9 < dst.toNat % 16 + src.toNat % 16 + (status.has .extend).toNat)
  have carried : (dst.toNat % 16 + src.toNat % 16 + (status.has .extend).toNat +
      6 * (decide (9 < dst.toNat % 16 + src.toNat % 16 + (status.has .extend).toNat)).toNat) / 16 =
      (decide (9 < dst.toNat % 16 + src.toNat % 16 + (status.has .extend).toNat)).toNat := by omega
  refine ⟨_, _, _, rfl, ?_⟩
  simp only [correction_eq, carried, Bool.decide_eq_true]
  generalize (decide (9 < dst.toNat % 16 + src.toNat % 16 + (status.has .extend).toNat)).toNat = fix at *
  have high := toNat_decide_cases (9 < dst.toNat / 16 + src.toNat / 16 + fix)
  obtain ⟨resultLow, resultHigh, value⟩ :=
    digits_of_sum s.1 s.2 d.1 d.2 bit low high (BitVec.toNat_ofNat _ 8)
  refine .of_digits resultLow resultHigh ?_
  rw [one_mul, one_mul]
  exact_mod_cast value

theorem toNat_binary (src dst : BitVec 8) (borrowIn : Bool) :
    ((dst - src - BitVec.ofNat 8 borrowIn.toNat).toNat + src.toNat + borrowIn.toNat) % 256 =
      dst.toNat := by
  have s := src.isLt
  have d := dst.isLt
  have x := borrowIn.toNat_le
  rw [BitVec.toNat_sub, BitVec.toNat_sub, BitVec.toNat_ofNat]
  omega

theorem toNat_corrected (binary : BitVec 8) (lowBorrow highBorrow : Bool) :
    ((binary - (if lowBorrow then 0x06 else 0) - (if highBorrow then 0x60 else 0)).toNat +
      6 * lowBorrow.toNat + 96 * highBorrow.toNat) % 256 = binary.toNat := by
  have bound := binary.isLt
  cases lowBorrow <;> cases highBorrow <;> simp [BitVec.toNat_sub] <;> omega

theorem exact_subtractDecimal (src dst : BitVec 8) (status : StatusWord) (s : IsDecimal [src])
    (d : IsDecimal [dst]) : ∃ result overflow carry,
    subtractDecimal src dst status = (result, decimalFlags result overflow carry status) ∧
      ByteExact (-1) src dst (status.has .extend) result carry := by
  rw [isDecimal_singleton] at s d
  have bit := (status.has .extend).toNat_le
  have low := toNat_decide_cases (dst.toNat % 16 < src.toNat % 16 + (status.has .extend).toNat)
  refine ⟨_, _, _, rfl, ?_⟩
  generalize decide (dst.toNat % 16 < src.toNat % 16 + (status.has .extend).toNat) = lowBorrow at *
  have high := toNat_decide_cases (dst.toNat / 16 < src.toNat / 16 + lowBorrow.toNat)
  generalize decide (dst.toNat / 16 < src.toNat / 16 + lowBorrow.toNat) = highBorrow at *
  have binary := toNat_binary src dst (status.has .extend)
  generalize dst - src - BitVec.ofNat 8 (status.has .extend).toNat = difference at *
  have corrected := toNat_corrected difference lowBorrow highBorrow
  -- a difference that borrows in its low digit alone is no smaller than six
  have borrow : (highBorrow || lowBorrow && decide (difference.toNat < 6)) = highBorrow := by
    have byte := difference.isLt
    cases highBorrow with
    | true => rfl
    | false =>
      cases lowBorrow with
      | false => rfl
      | true =>
        simp at low high ⊢
        omega
  rw [borrow]
  generalize difference - (if lowBorrow then 0x06 else 0) - (if highBorrow then 0x60 else 0) = result at *
  have whole : (result.toNat + 6 * lowBorrow.toNat + 96 * highBorrow.toNat + src.toNat +
      (status.has .extend).toNat) % 256 = dst.toNat := by omega
  obtain ⟨resultLow, resultHigh, value⟩ :=
    digits_of_difference s.1 s.2 d.1 d.2 bit result.isLt low high whole
  refine .of_digits resultLow resultHigh ?_
  omega

section chain
variable {sign : Int} {operation : BitVec 8 × BitVec 8 → StatusWord → BitVec 8 × StatusWord}

/-- The operation leaves the flags of one byte, whatever its nibbles are. -/
def LeavesDecimalFlags (operation : BitVec 8 × BitVec 8 → StatusWord → BitVec 8 × StatusWord) : Prop :=
  ∀ operands status, ∃ result overflow carry,
    operation operands status = (result, decimalFlags result overflow carry status)

/-- The operation computes one byte of `dst + sign * src`, with X carried in, and leaves its flags. -/
def ExtendsDecimal (sign : Int)
    (operation : BitVec 8 × BitVec 8 → StatusWord → BitVec 8 × StatusWord) : Prop :=
  ∀ operands status, IsDecimal [operands.1] → IsDecimal [operands.2] → ∃ result overflow carry,
    operation operands status = (result, decimalFlags result overflow carry status) ∧
      ByteExact sign operands.1 operands.2 (status.has .extend) result carry

def widened (operation : BitVec 8 × BitVec 8 → StatusWord → BitVec 8 × StatusWord)
    (operands : BitVec 8 × BitVec 8) (status : StatusWord) : Outcome :=
  ((operation operands status).1.setWidth 32, (operation operands status).2)

theorem LeavesDecimalFlags.leavesChainFlags (leaves : LeavesDecimalFlags operation) :
    LeavesChainFlags .byte (widened operation) := by
  intro operands status
  obtain ⟨result, overflow, carry, ran⟩ := leaves operands status
  refine ⟨⟨result.setWidth 32, carry, overflow⟩, ?_⟩
  rw [widened, ran, decimalFlags_eq]

theorem chain_widened (operation : BitVec 8 × BitVec 8 → StatusWord → BitVec 8 × StatusWord)
    (pairs : List (BitVec 8 × BitVec 8)) (status : StatusWord) :
    chain (widened operation) pairs status =
      ((decimalChain operation pairs status).1.map (BitVec.setWidth 32),
        (decimalChain operation pairs status).2) := by
  induction pairs generalizing status with
  | nil => rfl
  | cons operands rest ih => simp only [chain, decimalChain, widened, ih, List.map_cons]

theorem length_decimalChain (operation : BitVec 8 × BitVec 8 → StatusWord → BitVec 8 × StatusWord)
    (pairs : List (BitVec 8 × BitVec 8)) (status : StatusWord) :
    (decimalChain operation pairs status).1.length = pairs.length := by
  have length := length_chain (widened operation) pairs status
  rwa [chain_widened, List.length_map] at length

theorem zero_decimalChain (leaves : LeavesDecimalFlags operation) (pairs : List (BitVec 8 × BitVec 8))
    (status : StatusWord) :
    (decimalChain operation pairs status).2.has .zero = true ↔
      status.has .zero = true ∧ ∀ byte ∈ (decimalChain operation pairs status).1, byte = 0 := by
  have zero := zero_chain leaves.leavesChainFlags pairs status
  rw [chain_widened] at zero
  simp [zero, setWidth_eq_zero]

theorem clear_decimalChain (leaves : LeavesDecimalFlags operation) (pairs : List (BitVec 8 × BitVec 8))
    (status : StatusWord) :
    (decimalChain operation pairs status).2.clear .conditionCodes = status.clear .conditionCodes := by
  have clear := clear_chain leaves.leavesChainFlags pairs status
  rwa [chain_widened] at clear

theorem carry_decimalChain (leaves : LeavesDecimalFlags operation) {pairs : List (BitVec 8 × BitVec 8)}
    (nonempty : pairs ≠ []) (status : StatusWord) :
    (decimalChain operation pairs status).2.has .carry =
      (decimalChain operation pairs status).2.has .extend := by
  have carry := carry_chain leaves.leavesChainFlags nonempty status
  rwa [chain_widened] at carry

theorem has_extend_decimalFlags (result : BitVec 8) (overflow carry : Bool) (status : StatusWord) :
    (decimalFlags result overflow carry status).has .extend = carry := by
  rw [decimalFlags_eq, has_extend_chainFlags]

theorem decimal_decimalChain (step : ExtendsDecimal sign operation) {pairs : List (BitVec 8 × BitVec 8)}
    (s : IsDecimal (pairs.map Prod.fst)) (d : IsDecimal (pairs.map Prod.snd)) (status : StatusWord) :
    IsDecimal (decimalChain operation pairs status).1 := by
  induction pairs generalizing status with
  | nil => exact s
  | cons operands rest ih =>
    rw [List.map_cons, isDecimal_cons] at s d
    obtain ⟨result, overflow, carry, ran, exact⟩ := step operands status s.1 d.1
    simp only [decimalChain, ran]
    rw [isDecimal_cons]
    exact ⟨exact.decimal, ih s.2 d.2 _⟩

/-- What is carried out of a chain makes its result exact. -/
theorem value_decimalChain (step : ExtendsDecimal sign operation) {pairs : List (BitVec 8 × BitVec 8)}
    (s : IsDecimal (pairs.map Prod.fst)) (d : IsDecimal (pairs.map Prod.snd)) (status : StatusWord) :
    (decimalValue (decimalChain operation pairs status).1 : Int) + sign *
        (100 ^ pairs.length * ((decimalChain operation pairs status).2.has .extend).toNat) =
      decimalValue (pairs.map Prod.snd) +
        sign * (decimalValue (pairs.map Prod.fst) + (status.has .extend).toNat) := by
  induction pairs generalizing status with
  | nil => simp [decimalChain, decimalValue, nibbles]
  | cons operands rest ih =>
    rw [List.map_cons, isDecimal_cons] at s d
    obtain ⟨result, overflow, carry, ran, exact⟩ := step operands status s.1 d.1
    have above := ih s.2 d.2 (decimalFlags result overflow carry status)
    have here := exact.value
    rw [has_extend_decimalFlags] at above
    simp only [decimalChain, ran, List.map_cons, List.length_cons, pow_succ]
    rw [decimalValue_cons result, decimalValue_cons operands.1, decimalValue_cons operands.2]
    push_cast
    linear_combination here + 100 * above

/-- A result of `count` bytes and the status word left with it are those of the decimal number `exact`. X says
that `exact` itself does not fit: a carry out of a sum, a borrow into a difference. -/
structure ComputesDecimal (count : Nat) (exact : Int) (before : StatusWord)
    (after : List (BitVec 8) × StatusWord) : Prop where
  length : after.1.length = count
  decimal : IsDecimal after.1
  value : (decimalValue after.1 : Int) = exact % 100 ^ count
  extend : after.2.has .extend = true ↔ exact < 0 ∨ 100 ^ count ≤ exact
  carry : after.2.has .carry = after.2.has .extend
  zero : after.2.has .zero = true ↔ before.has .zero = true ∧ ∀ byte ∈ after.1, byte = 0
  others : after.2.clear .conditionCodes = before.clear .conditionCodes

theorem computes_decimalChain (step : ExtendsDecimal sign operation)
    (leaves : LeavesDecimalFlags operation) (unit : sign = 1 ∨ sign = -1)
    {pairs : List (BitVec 8 × BitVec 8)} (nonempty : pairs ≠ []) (s : IsDecimal (pairs.map Prod.fst))
    (d : IsDecimal (pairs.map Prod.snd)) (status : StatusWord) :
    ComputesDecimal pairs.length
      (decimalValue (pairs.map Prod.snd) +
        sign * (decimalValue (pairs.map Prod.fst) + (status.has .extend).toNat))
      status (decimalChain operation pairs status) := by
  have length := length_decimalChain operation pairs status
  have decimal := decimal_decimalChain step s d status
  have value := value_decimalChain step s d status
  have below := decimalValue_lt decimal
  rw [length] at below
  constructor
  · exact length
  · exact decimal
  · exact_mod_cast value_eq_emod below (by exact_mod_cast value)
  · exact_mod_cast carry_iff below unit (by exact_mod_cast value)
  · exact carry_decimalChain leaves nonempty status
  · exact zero_decimalChain leaves pairs status
  · exact clear_decimalChain leaves pairs status

theorem computes_zip (step : ExtendsDecimal sign operation) (leaves : LeavesDecimalFlags operation)
    (unit : sign = 1 ∨ sign = -1) {count : Nat} (positive : 0 < count) {a b : List (BitVec 8)}
    (ha : a.length = count) (hb : b.length = count) (da : IsDecimal a) (db : IsDecimal b)
    (status : StatusWord) :
    ComputesDecimal count (decimalValue a + sign * (decimalValue b + (status.has .extend).toNat)) status
      (decimalChain operation (b.zip a) status) := by
  have pairs : (b.zip a).length = count := by simp [ha, hb]
  have low : (b.zip a).map Prod.fst = b := List.map_fst_zip (by omega)
  have high : (b.zip a).map Prod.snd = a := List.map_snd_zip (by omega)
  have computes := computes_decimalChain step leaves unit (List.length_pos_iff.mp (by omega))
    (low.symm ▸ db) (high.symm ▸ da) status
  rwa [pairs, low, high] at computes

end chain

theorem extends_addDecimal : ExtendsDecimal 1 fun bytes => addDecimal bytes.1 bytes.2 :=
  fun bytes status s d => exact_addDecimal bytes.1 bytes.2 status s d

theorem extends_subtractDecimal : ExtendsDecimal (-1) fun bytes => subtractDecimal bytes.1 bytes.2 :=
  fun bytes status s d => exact_subtractDecimal bytes.1 bytes.2 status s d

theorem leaves_addDecimal : LeavesDecimalFlags fun bytes => addDecimal bytes.1 bytes.2 :=
  fun _ _ => ⟨_, _, _, rfl⟩

theorem leaves_subtractDecimal : LeavesDecimalFlags fun bytes => subtractDecimal bytes.1 bytes.2 :=
  fun _ _ => ⟨_, _, _, rfl⟩

/-- Chains of ABCD and SBCD compute `a + b + X` and `a - b - X` on packed decimal numbers of any length. What
was added with X clear is taken away again by a chain of SBCD. -/
theorem decimal_chains_exact {count : Nat} (positive : 0 < count) {a b : List (BitVec 8)}
    (ha : a.length = count) (hb : b.length = count) (da : IsDecimal a) (db : IsDecimal b)
    (status : StatusWord) :
    let x : Int := (status.has .extend).toNat
    let sum := decimalChain (fun bytes => addDecimal bytes.1 bytes.2) (b.zip a) status
    ComputesDecimal count (decimalValue a + decimalValue b + x) status sum ∧
    ComputesDecimal count (decimalValue a - decimalValue b - x) status
      (decimalChain (fun bytes => subtractDecimal bytes.1 bytes.2) (b.zip a) status) ∧
    (status.has .extend = false → ∀ fresh : StatusWord, fresh.has .extend = false →
      (decimalChain (fun bytes => subtractDecimal bytes.1 bytes.2) (b.zip sum.1) fresh).1 = a) := by
  intro x sum
  have add := computes_zip extends_addDecimal leaves_addDecimal (.inl rfl) positive ha hb da db status
  refine ⟨?_, ?_, ?_⟩
  · convert add using 1
    ring
  · convert computes_zip extends_subtractDecimal leaves_subtractDecimal (.inr rfl) positive ha hb da db
      status using 1
    ring
  · intro clear fresh again
    have back := computes_zip extends_subtractDecimal leaves_subtractDecimal (.inr rfl) positive
      add.length hb add.decimal db fresh
    refine eq_of_decimalValue back.decimal da (back.length.trans ha.symm) ?_
    have below := decimalValue_lt da
    have value := back.value
    rw [ha] at below
    rw [add.value, clear, again, Bool.toNat_false, Nat.cast_zero, add_zero, one_mul, neg_one_mul,
      ← sub_eq_add_neg, Int.emod_sub_emod, add_sub_cancel_right,
      Int.emod_eq_of_lt (Int.natCast_nonneg _) (by exact_mod_cast below)] at value
    exact_mod_cast value

/-- Two bytes: `0999 + 0001` carries through both digits of the low byte and leaves `1000`. -/
theorem decimal_chains_exact_two_bytes :
    let sum := decimalChain (fun bytes => addDecimal bytes.1 bytes.2)
      ([0x01, 0x00].zip [0x99, 0x09]) 0x0004
    sum = ([0x00, 0x10], 0x0000) ∧
      ComputesDecimal 2 (decimalValue [0x99, 0x09] + decimalValue [0x01, 0x00] + 0) 0x0004 sum ∧
      (decimalChain (fun bytes => subtractDecimal bytes.1 bytes.2) ([0x01, 0x00].zip sum.1) 0x0004).1 =
        [0x99, 0x09] :=
  have exact := @decimal_chains_exact 2 (by decide) [0x99, 0x09] [0x01, 0x00] rfl rfl (by decide)
    (by decide) 0x0004
  ⟨by decide, exact.1, exact.2.2 (by decide) 0x0004 (by decide)⟩

end MC68000.Arithmetic
