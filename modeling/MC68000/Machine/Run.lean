import MC68000.Decoding
import MC68000.Execution
import MC68000.Machine.Entry

set_option autoImplicit false

namespace MC68000

variable {World : Type}

/-- Fetches an opcode and executes its instruction. The opcode of the last instruction stays in place where
the fetch fails. -/
def Exec.nextInstruction : Exec World Nat := do
  let opcode ← fetchWord
  modify fun m => { m with opcode }
  (Instruction.decode opcode).execute

namespace Machine

/-- Executes one instruction, and the trace exception that follows it if tracing was on when it began. -/
def runInstruction (m : Machine World) : Nat × Machine World :=
  let tracing := m.registers.isTracing
  match Exec.nextInstruction { m with instructionAddress := m.registers.pc } with
  | .ok cost m =>
    if tracing ∧ m.state = .running then
      let (traceCost, m) := m.processTrace
      (cost + traceCost, m)
    else
      (cost, m)
  | .error exception m => m.processException exception

/-- Enters cycles in both accounts, or takes them back where negative, and gives what was entered. No more
is taken back than the counter holds, and no more than 32 bits are entered at once. -/
def charge (m : Machine World) (cycles : Int) : Int × Machine World :=
  let amount := min cycles.natAbs 0xFFFFFFFF
  if 0 ≤ cycles then
    (amount, { m with
      cycles := m.cycles + BitVec.ofNat 32 amount
      total := m.total.add ⟨amount⟩ })
  else
    let amount := min amount m.cycles.toNat
    (-amount, { m with
      cycles := m.cycles - BitVec.ofNat 32 amount
      total := m.total.subtract ⟨amount⟩ })

/-- What a step does before its cost is charged: nothing where the processor is dead, else the highest
interrupt that can be accepted, else one instruction. -/
def advance (m : Machine World) : Nat × Machine World :=
  match m.state with
  | .poweredOn | .halted => (0, m)
  | state =>
    match m.interrupts.highestAbove m.registers.interruptMask with
    | some level => m.acceptInterrupt level
    | none => if state = .running then m.runInstruction else (0, m)

/-- Takes one step and gives its cost. -/
def step (m : Machine World) : Nat × Machine World :=
  let (cost, m) := { m with activity := [] }.advance
  (cost, (m.charge cost).2)

/-- Applies the cycle adjustment that devices have asked for, and gives what was entered. -/
def settleAdjustment (m : Machine World) : Int × Machine World :=
  (m.mapControl fun control => { control with adjust := 0 }).charge m.host.control.adjust

/-- Takes the request to release the slice. -/
def dropRelease (m : Machine World) : Bool × Machine World :=
  (m.host.control.release, m.mapControl fun control => { control with release := false })

/-- Whether the machine only waits for time to pass: it is halted, or stopped with nothing to accept. -/
def isIdle (m : Machine World) : Bool :=
  m.state = .halted ||
    (m.state = .stopped && (m.interrupts.highestAbove m.registers.interruptMask).isNone)

/-- Runs until a budget is consumed, a request ends the slice, or the machine turns out never to have been
reset. Interrupts, requests and adjustments are looked at between instructions only. An idle machine waits
out the rest of the budget. There is no answer if that takes more than `limit` steps: devices that give
all cycles back can keep the loop going for ever. -/
def runSlice (budget : Int) : Nat → Int → Machine World → Option (Int × Machine World)
  | limit, consumed, m =>
    if budget ≤ consumed ∨ m.host.control.stop ∨ m.state = .poweredOn then some (consumed, m)
    else if m.isIdle then
      let (waited, m) := m.charge (budget - consumed)
      some (consumed + waited, m)
    else match limit with
      | 0 => none
      | limit + 1 =>
        let (cost, m) := m.step
        let (adjusted, m) := m.settleAdjustment
        let (released, m) := m.dropRelease
        let consumed := consumed + cost + adjusted
        if released then some (consumed, m) else runSlice budget limit consumed m

/-- Runs for a budget and gives the cycles consumed, within 32 bits. A request to stop ends the slice and
is then dropped. -/
def run? (limit : Nat) (m : Machine World) (clocks : BitVec 32) :
    Option (BitVec 32 × Machine World) := do
  let (consumed, m) ← m.runSlice clocks.toNat limit 0
  return (BitVec.ofNat 32 (min consumed.toNat 0xFFFFFFFF),
    m.mapControl fun control => { control with stop := false })

/-- Runs for a budget of any length; no more than 32 bits of it are used. -/
def runTicks? (limit : Nat) (m : Machine World) (budget : Ticks) : Option (Ticks × Machine World) := do
  let (consumed, m) ← m.run? limit (BitVec.ofNat 32 (min budget.count 0xFFFFFFFF))
  return (.ofCounter consumed, m)

def trip (m : Machine World) : BitVec 32 × Machine World := (m.cycles, { m with cycles := 0 })

def chargeCycles (m : Machine World) (clocks : BitVec 32) : Machine World :=
  (m.charge clocks.toNat).2

def refundCycles (m : Machine World) (clocks : BitVec 32) : Machine World :=
  (m.charge (-clocks.toNat)).2

/-- Trips the counter for zero clocks; otherwise charges the clocks and reads the counter. -/
def chargeOrTrip (m : Machine World) (clocks : BitVec 32) : BitVec 32 × Machine World :=
  if clocks = 0 then m.trip
  else
    let m := m.chargeCycles clocks
    (m.cycles, m)

end Machine

end MC68000
