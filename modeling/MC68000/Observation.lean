set_option autoImplicit false

namespace MC68000.Text

def hexDigit (n : Nat) : Char :=
  if n < 10 then Char.ofNat (48 + n) else Char.ofNat (55 + n)

/-- The last `width` digits of a number, the most significant first. -/
def hexDigits : Nat → Nat → List Char
  | 0, _ => []
  | width + 1, n => hexDigits width (n / 16) ++ [hexDigit (n % 16)]

/-- The numeral of a word whose width is a whole number of digits. -/
def hex {w : Nat} (x : BitVec w) : String := String.ofList (hexDigits (w / 4) x.toNat)

end MC68000.Text

namespace MC68000

/-- A value that an inspection reports. -/
inductive Observation where
  | flag (value : Bool)
  | byte (value : BitVec 8)
  | word (value : BitVec 16)
  | long (value : BitVec 32)
  | count (value : BitVec 64)
  /-- Values by key, in ascending order of the keys. -/
  | map (entries : List (String × Observation))

namespace Observation

/-- Puts a value under a key, replacing the value that the key had. -/
def insert (key : String) (value : Observation) :
    List (String × Observation) → List (String × Observation)
  | [] => [(key, value)]
  | (k, v) :: rest =>
    if key < k then (key, value) :: (k, v) :: rest
    else if key = k then (key, value) :: rest
    else (k, v) :: insert key value rest

/-- The map of a list of entries. Of two entries with one key the later one counts. -/
def ofEntries (entries : List (String × Observation)) : Observation :=
  .map (entries.foldl (fun map entry => insert entry.1 entry.2 map) [])

mutual

def text : Observation → String
  | .flag value => if value then "true" else "false"
  | .byte value => "0x" ++ Text.hex value
  | .word value => "0x" ++ Text.hex value
  | .long value => "0x" ++ Text.hex value
  | .count value => toString value.toNat
  | .map entries => "\x7b" ++ ", ".intercalate (entryTexts entries) ++ "\x7d"

def entryTexts : List (String × Observation) → List String
  | [] => []
  | (key, value) :: rest => (key ++ ": " ++ value.text) :: entryTexts rest

end

mutual

/-- Whether two values are of one kind and equal. -/
def same : Observation → Observation → Bool
  | .flag x, .flag y => x == y
  | .byte x, .byte y => x == y
  | .word x, .word y => x == y
  | .long x, .long y => x == y
  | .count x, .count y => x == y
  | .map xs, .map ys => sameEntries xs ys
  | _, _ => false

/-- Whether two maps have the same keys with the same values. -/
def sameEntries : List (String × Observation) → List (String × Observation) → Bool
  | [], [] => true
  | (k, x) :: xs, (l, y) :: ys => k == l && x.same y && sameEntries xs ys
  | _, _ => false

end

end Observation

end MC68000
