import MC68000.Host
import MC68000.Size

set_option autoImplicit false

namespace MC68000

/-- How the vector of a request is found. -/
inductive InterruptVector where
  /-- The vector that belongs to the level. -/
  | autovector
  /-- The vector for a request that no device answers. -/
  | spurious
  /-- The number that the device supplies. -/
  | device (number : BitVec 8)
  deriving DecidableEq

namespace InterruptVector

/-- Reads the host's number: -1 is the autovector, -2 the spurious vector, and 0 to 255 a device's. -/
def ofRaw (raw : Int) : Except RequestError InterruptVector :=
  if raw = -1 then .ok .autovector
  else if raw = -2 then .ok .spurious
  else if 0 ≤ raw ∧ raw < 256 then .ok (.device (BitVec.ofInt 8 raw))
  else .error (.invalidVector raw)

def raw : InterruptVector → Int
  | autovector => -1
  | spurious => -2
  | device number => number.toNat

/-- The vector number that a request takes at a level: autovectors lie 24 above the level, and the
spurious vector is 24. -/
def number (vector : InterruptVector) (level : Nat) : BitVec 8 :=
  match vector with
  | autovector => BitVec.ofNat 8 (24 + level)
  | spurious => 24
  | device n => n

end InterruptVector

/-- Pending requests and the vectors of all levels. Level 0 stands for no request and is never pending. -/
structure InterruptLines where
  /-- Bit `n` is set while level `n` requests. -/
  pending : BitVec 8
  vectors : Vector InterruptVector 8
  deriving DecidableEq

namespace InterruptLines

/-- Nothing pending, and every level on its autovector. -/
def idle : InterruptLines where
  pending := 0
  vectors := Vector.replicate 8 .autovector

/-- Accepts the levels 1 to 7. -/
def checkLevel (level : Nat) : Except RequestError (Fin 8) :=
  if h : 1 ≤ level ∧ level < 8 then .ok ⟨level, h.2⟩ else .error (.interruptLevel level)

def isPending (lines : InterruptLines) (level : Nat) : Bool := lines.pending.getLsbD level

/-- Raises a request. A request that was already pending at this level is replaced, and its vector
returned. -/
def raise (lines : InterruptLines) (level : Nat) (vector : InterruptVector) :
    Except RequestError (Option InterruptVector × InterruptLines) := do
  let n ← checkLevel level
  let previous := if lines.isPending n then some (lines.vectors.get n) else none
  return (previous,
    { pending := lines.pending ||| (1#8 <<< n.val), vectors := lines.vectors.setIfInBounds n vector })

def lower (lines : InterruptLines) (level : Nat) : Except RequestError InterruptLines := do
  let n ← checkLevel level
  return { lines with pending := lines.pending &&& ~~~(1#8 <<< n.val) }

/-- The vector of a level, pending or not. -/
def vector (lines : InterruptLines) (level : Nat) : Except RequestError InterruptVector := do
  let n ← checkLevel level
  return lines.vectors.get n

def assignVector (lines : InterruptLines) (level : Nat) (vector : InterruptVector) :
    Except RequestError InterruptLines := do
  let n ← checkLevel level
  return { lines with vectors := lines.vectors.setIfInBounds n vector }

def levels : List (Fin 8) := [7, 6, 5, 4, 3, 2, 1]

/-- The highest pending level above the mask. -/
def highestAbove (lines : InterruptLines) (mask : Nat) : Option (Fin 8) :=
  levels.find? fun level => mask < level && lines.isPending level

/-- Takes the request of a level: its vector, and the lines without it. -/
def acknowledge (lines : InterruptLines) (level : Fin 8) : InterruptVector × InterruptLines :=
  (lines.vectors.get level, { lines with pending := lines.pending &&& ~~~(1#8 <<< level.val) })

/-- Drops every request and keeps the vectors. -/
def clear (lines : InterruptLines) : InterruptLines := { lines with pending := 0 }

theorem getLsbD_line {level : Nat} (h : level < 8) (n : Nat) :
    (1#8 <<< level).getLsbD n = decide (n = level) := by
  rw [← BitVec.twoPow_eq, BitVec.getLsbD_twoPow]
  simp only [h, decide_true, Bool.true_and, eq_comm]

/-- Taking one line out leaves the others. -/
theorem getLsbD_without {level : Nat} (h : level < 8) (pending : BitVec 8) (n : Nat) :
    (pending &&& ~~~(1#8 <<< level)).getLsbD n = (!decide (n = level) && pending.getLsbD n) := by
  rw [BitVec.getLsbD_and, BitVec.getLsbD_not, getLsbD_line h, Bool.and_comm]
  by_cases inside : n < 8
  · simp only [inside, decide_true, Bool.true_and]
  · simp only [BitVec.getLsbD_of_ge pending n (by omega), Bool.and_false]

theorem isPending_raise {lines after : InterruptLines} {level : Nat} {vector : InterruptVector}
    {previous : Option InterruptVector} (h : lines.raise level vector = .ok (previous, after))
    (n : Nat) : after.isPending n = (decide (n = level) || lines.isPending n) := by
  unfold raise checkLevel at h
  split at h
  case isTrue inside =>
    cases h
    rw [isPending, BitVec.getLsbD_or, getLsbD_line inside.2, Bool.or_comm]
    rfl
  case isFalse => cases h

theorem isPending_lower {lines after : InterruptLines} {level : Nat}
    (h : lines.lower level = .ok after) (n : Nat) :
    after.isPending n = (!decide (n = level) && lines.isPending n) := by
  unfold lower checkLevel at h
  split at h
  case isTrue inside =>
    cases h
    exact getLsbD_without inside.2 lines.pending n
  case isFalse => cases h

theorem isPending_acknowledge (lines : InterruptLines) (level : Fin 8) (n : Nat) :
    (lines.acknowledge level).2.isPending n = (!decide (n = level) && lines.isPending n) :=
  getLsbD_without level.isLt lines.pending n

theorem isPending_clear (lines : InterruptLines) (n : Nat) : lines.clear.isPending n = false :=
  BitVec.getLsbD_zero

end InterruptLines

end MC68000
