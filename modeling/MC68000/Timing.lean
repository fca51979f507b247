import MC68000.AddressingMode

set_option autoImplicit false

namespace MC68000.Timing

/-- A bus or address error with its frame. -/
def accessFault : Nat := 50

/-- An interrupt with its acknowledgement and frame. -/
def interrupt : Nat := 44

/-- Any other exception with its frame, but for the two that follow. -/
def exception : Nat := 34

/-- The trap of CHK, before its operand. -/
def checkTrap : Nat := 40

/-- The trap of a division by zero, before its operand. -/
def zeroDivide : Nat := 38

/-- A cost that longs exceed. -/
def bySize (size : Size) (short long : Nat) : Nat := if size = .long then long else short

/-- Finding and fetching an operand, on top of a cost that includes the fetch of the opcode. -/
def operand (mode : AddressingMode) (size : Size) : Nat :=
  match mode with
  | .dataRegister _ | .addressRegister _ => 0
  | .indirect _ | .postIncrement _ | .immediate => bySize size 4 8
  | .preDecrement _ => bySize size 6 10
  | .displaced _ | .absoluteShort | .programDisplaced => bySize size 8 12
  | .indexed _ | .programIndexed => bySize size 10 14
  | .absoluteLong => bySize size 12 16

/-- Finding and writing the destination of MOVE, where decrementing costs nothing. -/
def moveDestination (mode : AddressingMode) (size : Size) : Nat :=
  match mode with
  | .preDecrement n => operand (.indirect n) size
  | mode => operand mode size

/-- An operation on a register of its operand: long operands cost more where they take no access. -/
def toRegister (mode : AddressingMode) (size : Size) : Nat :=
  bySize size 4 (if mode.isRegisterOrImmediate then 8 else 6) + operand mode size

/-- An operation that reads, changes and writes its operand: a register at once, memory by another access. -/
def readModifyWrite (mode : AddressingMode) (size : Size) (register memory : Nat × Nat) : Nat :=
  match mode with
  | .dataRegister _ => bySize size register.1 register.2
  | mode => bySize size memory.1 memory.2 + operand mode size

/-- A cost by control mode: register indirect, displaced, indexed and absolute. Modes relative to the
program counter cost what those relative to a register do. -/
def control (mode : AddressingMode) (indirect displaced indexed short long : Nat) : Nat :=
  match mode with
  | .displaced _ | .programDisplaced => displaced
  | .indexed _ | .programIndexed => indexed
  | .absoluteShort => short
  | .absoluteLong => long
  | _ => indirect

def jmp (mode : AddressingMode) : Nat := control mode 8 10 14 10 12

def jsr (mode : AddressingMode) : Nat := control mode 16 18 22 18 20

def lea (mode : AddressingMode) : Nat := control mode 4 8 12 8 12

def pea (mode : AddressingMode) : Nat := control mode 12 16 20 16 20

/-- MOVEM to memory, for a number of registers. -/
def movemStore (mode : AddressingMode) (size : Size) (count : Nat) : Nat :=
  control mode 8 12 14 12 16 + bySize size 4 8 * count

/-- MOVEM from memory, for a number of registers. -/
def movemLoad (mode : AddressingMode) (size : Size) (count : Nat) : Nat :=
  4 + movemStore mode size count

def ones {w : Nat} (x : BitVec w) : Nat := (List.range w).countP fun i => x.getLsbD i

/-- MULU: two cycles for each bit of the source that is set. -/
def mulu (source : BitVec 16) : Nat := 38 + 2 * ones source

/-- MULS: two cycles for each place where neighbouring bits of the source differ, a zero bit below it
included. -/
def muls (source : BitVec 16) : Nat := 38 + 2 * ones ((source <<< 1) ^^^ source)

/-- A division in progress: the shifted dividend, with the partial remainder in its upper half, and the
half cycles spent. -/
structure Division where
  dividend : BitVec 32
  halfCost : Nat

/-- One bit of an unsigned division. A quotient bit of zero costs most, and a one that follows a carry
out of the partial remainder costs nothing. -/
def Division.step (divisor : BitVec 32) (d : Division) : Division :=
  let shifted := d.dividend <<< 1
  if d.dividend.msb then ⟨shifted - divisor, d.halfCost⟩
  else if divisor ≤ shifted then ⟨shifted - divisor, d.halfCost + 1⟩
  else ⟨shifted, d.halfCost + 2⟩

/-- DIVU, before its operand. An overflow is found at once; otherwise the first fifteen bits of the
quotient cost what they are. -/
def divu (dividend : BitVec 32) (divisor : BitVec 16) : Nat :=
  if divisor.toNat ≤ (dividend >>> 16).toNat then 10
  else 2 * (Nat.repeat (Division.step (divisor ++ 0#16)) 15 ⟨dividend, 38⟩).halfCost

/-- DIVS, before its operand. An overflow of the magnitudes is found at once; otherwise each zero among
the upper fifteen bits of the magnitude of the quotient costs a step more, and the signs count. -/
def divs (dividend : BitVec 32) (divisor : BitVec 16) : Nat :=
  let start := if dividend.msb then 7 else 6
  let magnitude := dividend.toInt.natAbs
  let divisorMagnitude := divisor.toInt.natAbs
  if divisorMagnitude ≤ magnitude / 0x10000 then 2 * (start + 2)
  else
    let quotient := BitVec.ofNat 16 (magnitude / divisorMagnitude)
    let zeros := (List.range 15).countP fun i => !quotient.getLsbD (15 - i)
    let signs := if divisor.msb then 55 else if dividend.msb then 56 else 54
    2 * (start + signs + zeros)

end MC68000.Timing
