import MC68000.Proofs.RegisterParts

set_option autoImplicit false

namespace MC68000

variable {World : Type}

/-- An instruction that has been executed: where it lies, what it cost, and where the program goes on. -/
structure Executed where
  address : BitVec 32
  cost : Nat
  next : BitVec 32

namespace Executed

def total : List Executed → Nat
  | [] => 0
  | e :: rest => e.cost + total rest

theorem total_replicate (count : Nat) (e : Executed) (rest : List Executed) :
    total (List.replicate count e ++ rest) = e.cost * count + total rest := by
  induction count with
  | zero => simp
  | succ count ih =>
    rw [List.replicate_succ, List.cons_append, total, ih, Nat.mul_succ]
    omega

end Executed

namespace Machine

/-- The next step executes an instruction: no interrupt comes before it, and no trace exception after it. -/
structure Undisturbed (m : Machine World) : Prop where
  running : m.state = .running
  quiet : m.interrupts.highestAbove m.registers.interruptMask = none
  untraced : m.registers.isTracing = false

/-- The next step executes an instruction that completes. -/
structure Completes (m : Machine World) : Prop extends m.Undisturbed where
  ends : ∃ (cost : Nat) (m' : Machine World), Exec.nextInstruction m.beginning = .ok cost m'

def executed (m : Machine World) : Executed := ⟨m.registers.pc, m.step.1, m.step.2.registers.pc⟩

/-- Some steps that each complete an instruction. -/
inductive Runs : Machine World → List Executed → Machine World → Prop
  | done (m : Machine World) : Runs m [] m
  | step {m m' : Machine World} {trace : List Executed} (completes : m.Completes)
      (rest : Runs m.step.2 trace m') : Runs m (m.executed :: trace) m'

variable {m m' m'' : Machine World}

theorem Runs.append {first second : List Executed} (run : m.Runs first m') (rest : m'.Runs second m'') :
    m.Runs (first ++ second) m'' := by
  induction run with
  | done m => exact rest
  | step completes _ ih => exact .step completes (ih rest)

theorem Completes.runs {done : Executed} (completes : m.Completes) (executed : m.executed = done) :
    m.Runs [done] m.step.2 := by
  rw [← executed]
  exact .step completes (.done _)

/-- The next step leaves these registers, and changes nothing else but the accounts. -/
def StepsTo (m : Machine World) (r : Registers) : Prop :=
  m.step.2 = { m with
    registers := r
    cycles := m.step.2.cycles
    total := m.step.2.total
    opcode := m.step.2.opcode
    instructionAddress := m.step.2.instructionAddress
    activity := m.step.2.activity }

section steps
variable {r : Registers} (h : m.StepsTo r)
include h

theorem StepsTo.registers : m.step.2.registers = r := by
  rw [StepsTo] at h
  rw [h]

theorem StepsTo.state : m.step.2.state = m.state := by
  rw [StepsTo] at h
  rw [h]

theorem StepsTo.interrupts : m.step.2.interrupts = m.interrupts := by
  rw [StepsTo] at h
  rw [h]

theorem StepsTo.memory : m.step.2.memory = m.memory := by
  rw [StepsTo] at h
  rw [h]

theorem StepsTo.host : m.step.2.host = m.host := by
  rw [StepsTo] at h
  rw [h]

end steps

theorem Undisturbed.stepsTo {opcode : BitVec 16} {r : Registers} {cost : Nat} {after : Machine World}
    (undisturbed : m.Undisturbed) (ends : Exec.nextInstruction m.beginning = .ok cost after)
    (becomes : Becomes { m.beginning with opcode } r m.host.ram after) :
    m.Completes ∧ m.executed = ⟨m.registers.pc, cost, r.pc⟩ ∧ m.StepsTo r := by
  have stepped :=
    step_of_instruction undisturbed.running undisturbed.quiet undisturbed.untraced ends
  have stepsTo : m.StepsTo r := by
    rw [Becomes] at becomes
    rw [StepsTo, stepped, charge_frame, becomes]
    rfl
  refine ⟨⟨undisturbed, cost, after, ends⟩, ?_, stepsTo⟩
  rw [executed, stepsTo.registers, stepped]

end Machine

namespace Registers

variable (r : Registers) (n : Fin 8)

/-- The counter of a loop: the low word of a data register. -/
def counter : BitVec 16 := (r.d.get n).setWidth 16

/-- The registers once the counter has been counted down. -/
def countDown (pc : BitVec 32) : Registers :=
  { r.setDataPart n .word ((r.counter n - 1).setWidth 32) with pc }

/-- What DBcc costs, and the registers that it leaves. -/
def dbcc (condition : Condition) (displacement : BitVec 16) : Nat × Registers :=
  if condition.holds r.status then (12, { r with pc := r.pc + 4 })
  else if r.counter n = 0 then (14, r.countDown n (r.pc + 4))
  else (10, r.countDown n (r.pc + 2 + displacement.signExtend 32))

section outcomes
variable {r n} {condition : Condition} (displacement : BitVec 16)

theorem dbcc_of_holds (holds : condition.holds r.status = true) :
    r.dbcc n condition displacement = (12, { r with pc := r.pc + 4 }) := if_pos holds

theorem dbcc_of_zero (fails : condition.holds r.status = false) (zero : r.counter n = 0) :
    r.dbcc n condition displacement = (14, r.countDown n (r.pc + 4)) := by
  rw [dbcc, fails, if_neg Bool.false_ne_true, if_pos zero]

theorem dbcc_of_nonzero (fails : condition.holds r.status = false) (nonzero : r.counter n ≠ 0) :
    r.dbcc n condition displacement =
      (10, r.countDown n (r.pc + 2 + displacement.signExtend 32)) := by
  rw [dbcc, fails, if_neg Bool.false_ne_true, if_neg nonzero]

end outcomes

theorem counter_countDown (pc : BitVec 32) : (r.countDown n pc).counter n = r.counter n - 1 := by
  have low := r.low_setDataPart_word n ((r.counter n - 1).setWidth 32)
  rw [BitVec.setWidth_setWidth_of_le _ (by decide), BitVec.setWidth_eq] at low
  exact low

theorem high_countDown (pc : BitVec 32) :
    ((r.countDown n pc).d.get n).extractLsb' 16 16 = (r.d.get n).extractLsb' 16 16 :=
  r.high_setDataPart_word n _

end Registers

namespace Exec

variable {m : Machine World} {opcode displacement : BitVec 16}

/-- The target of a loop lies at a distance from the word that holds the distance. -/
theorem branchTarget_of_fetches (fetches : m.Fetches opcode displacement) :
    ∃ m₁ m₂ : Machine World, nextInstruction m = (Instruction.decode opcode).execute m₁ ∧
      branchTarget 0 m₁ = .ok (m.registers.pc + 2 + displacement.signExtend 32) m₂ ∧
      Machine.Becomes { m with opcode } { m.registers with pc := m.registers.pc + 4 } m.host.ram m₂ := by
  obtain ⟨m₁, m₂, next, fetched, becomes⟩ := nextInstruction_of_fetches fetches
  have base : m₁.registers.pc = m.registers.pc + 2 := by
    have advances := advances_fetchWord m₁
    rw [fetched] at advances
    have moved : m₂.registers.pc = m₁.registers.pc + 2 := advances
    rw [becomes.registers] at moved
    change m.registers.pc + 4 = _ at moved
    bv_omega
  refine ⟨m₁, m₂, next, ?_, becomes⟩
  unfold branchTarget
  rw [bind_registers, base]
  exact bind_of_ok (fetchDisplacement_of_fetchWord fetched)

theorem next_dbcc {condition : Condition} {n : Fin 8}
    (decodes : Instruction.decode opcode = .dbcc condition n) (fetches : m.Fetches opcode displacement) :
    ∃ m', nextInstruction m = .ok (m.registers.dbcc n condition displacement).1 m' ∧
      Machine.Becomes { m with opcode } (m.registers.dbcc n condition displacement).2 m.host.ram m' := by
  obtain ⟨m₁, m₂, next, target, becomes⟩ := branchTarget_of_fetches fetches
  rw [decodes] at next
  have begun : dbcc condition n m₁ = _ := bind_of_ok target
  rw [bind_registers, becomes.registers] at begun
  change nextInstruction m = dbcc condition n m₁ at next
  rw [next, begun]
  -- counting down passes zero where the counter is zero
  have passes : m.registers.counter n - 1 = 0xFFFF ↔ m.registers.counter n = 0 := by bv_omega
  unfold Registers.dbcc
  by_cases holds : condition.holds m.registers.status = true
  · rw [if_pos holds, if_pos holds]
    exact ⟨m₂, rfl, becomes⟩
  · rw [if_neg holds, if_neg holds]
    have counted := becomes.setRegisters (·.setDataPart n .word ((m.registers.counter n - 1).setWidth 32))
    have written : update (·.setDataPart n .word ((m.registers.counter n - 1).setWidth 32)) m₂ =
      .ok () (m₂.mapRegisters _) := rfl
    by_cases zero : m.registers.counter n = 0
    · rw [if_pos zero]
      exact ⟨_, (bind_of_ok written).trans (congrFun (if_pos (passes.mpr zero)) _), counted⟩
    · rw [if_neg zero]
      have gone := counted.setRegisters fun r =>
        { r with pc := m.registers.pc + 2 + displacement.signExtend 32 }
      exact ⟨_, (bind_of_ok written).trans (congrFun (if_neg (mt passes.mp zero)) _), gone⟩

end Exec

namespace Machine

/-- The next step executes DBcc at this address, with this distance to its target. -/
structure AtDbcc (m : Machine World) (condition : Condition) (n : Fin 8) (displacement : BitVec 16)
    (address : BitVec 32) : Prop extends m.Undisturbed where
  here : m.registers.pc = address
  fetched : ∃ opcode, Instruction.decode opcode = .dbcc condition n ∧ m.Fetches opcode displacement

variable {m m' : Machine World} {condition : Condition} {n : Fin 8} {displacement : BitVec 16}
  {address : BitVec 32}

theorem AtDbcc.step (at' : m.AtDbcc condition n displacement address) {cost : Nat} {r : Registers}
    (outcome : m.registers.dbcc n condition displacement = (cost, r)) :
    m.Completes ∧ m.executed = ⟨address, cost, r.pc⟩ ∧ m.StepsTo r := by
  obtain ⟨opcode, decodes, fetches⟩ := at'.fetched
  obtain ⟨after, ends, becomes⟩ := Exec.next_dbcc (m := m.beginning) decodes
    ⟨fetches.even, fetches.opcode, fetches.extension⟩
  have begun : m.beginning.registers.dbcc n condition displacement = (cost, r) := outcome
  rw [begun] at ends becomes
  rw [← at'.here]
  exact at'.toUndisturbed.stepsTo ends becomes

theorem AtDbcc.again (at' : m.AtDbcc condition n displacement address) {r : Registers}
    (stepsTo : m.StepsTo r) (status : r.status = m.registers.status) (back : r.pc = address) :
    m.step.2.AtDbcc condition n displacement address := by
  obtain ⟨opcode, decodes, fetches⟩ := at'.fetched
  have space : m.step.2.programSpace = m.programSpace := by
    rw [programSpace, stepsTo.registers, Registers.isSupervisor, status]
    rfl
  have same : m.step.2.registers.pc = m.registers.pc := by rw [stepsTo.registers, back, at'.here]
  refine ⟨⟨?_, ?_, ?_⟩, ?_, opcode, decodes, ?_, ?_, ?_⟩
  · exact stepsTo.state.trans at'.running
  · rw [stepsTo.interrupts, stepsTo.registers, Registers.interruptMask, status]
    exact at'.quiet
  · rw [stepsTo.registers, Registers.isTracing, status]
    exact at'.untraced
  · rw [stepsTo.registers, back]
  · rw [same]
    exact fetches.even
  · rw [stepsTo.memory, space, same, stepsTo.host]
    exact fetches.opcode
  · rw [stepsTo.memory, space, same, stepsTo.host]
    exact fetches.extension

/-- A loop around DBcc. Wherever it arrives at the DBcc the condition fails, and as long as the counter has not come
to zero the body completes: the program goes on from the target to the DBcc again, and finds the counter as it
was. -/
structure CountedLoop (condition : Condition) (n : Fin 8) (displacement : BitVec 16) (address : BitVec 32)
    (arrival : Machine World → Prop) : Prop where
  atDbcc : ∀ m, arrival m → m.AtDbcc condition n displacement address
  fails : ∀ m, arrival m → condition.holds m.registers.status = false
  body : ∀ m, arrival m → m.registers.counter n ≠ 0 → ∃ (trace : List Executed) (m' : Machine World),
    m.step.2.Runs trace m' ∧ (∀ e ∈ trace, e.address ≠ address) ∧ arrival m' ∧
      m'.registers.counter n = m.step.2.registers.counter n

theorem StepsTo.counter {count : Nat} {pc : BitVec 32} (stepsTo : m.StepsTo (m.registers.countDown n pc))
    (before : (m.registers.counter n).toNat = count + 1) :
    (m.step.2.registers.counter n).toNat = count := by
  rw [stepsTo.registers, Registers.counter_countDown]
  bv_omega

/-- The DBcc branches as many times as the counter says, and then finds zero. -/
theorem CountedLoop.counts {arrival : Machine World → Prop}
    (loop : CountedLoop condition n displacement address arrival) (arrived : arrival m) {count : Nat}
    (counter : (m.registers.counter n).toNat = count) :
    ∃ (trace : List Executed) (last : Machine World), m.Runs trace last ∧ arrival last ∧
      last.registers.counter n = 0 ∧ trace.filter (fun e => e.address = address) =
        List.replicate count ⟨address, 10, address + 2 + displacement.signExtend 32⟩ := by
  -- one turn of the loop leads to the next arrival with a counter that is smaller by one
  induction count generalizing m with
  | zero => exact ⟨[], m, .done m, arrived, BitVec.eq_of_toNat_eq counter, rfl⟩
  | succ count ih =>
    have nonzero : m.registers.counter n ≠ 0 := by bv_omega
    have at' := loop.atDbcc m arrived
    obtain ⟨completes, executed, stepsTo⟩ :=
      at'.step (Registers.dbcc_of_nonzero displacement (loop.fails m arrived) nonzero)
    obtain ⟨inner, m₁, ran, outside, back, kept⟩ := loop.body m arrived nonzero
    obtain ⟨trace, last, rest, reached, zero, branches⟩ :=
      ih back (by rw [kept, stepsTo.counter counter])
    refine ⟨m.executed :: (inner ++ trace), last, .step completes (ran.append rest), reached, zero, ?_⟩
    have none : inner.filter (fun e => e.address = address) = [] := by
      rw [List.filter_eq_nil_iff]
      intro e member
      simpa using outside e member
    rw [List.filter_cons, executed, if_pos (by simp), List.filter_append, none, branches, at'.here]
    rfl

/-- The DBcc that finds zero falls through, and the counter has passed zero. -/
theorem AtDbcc.passes (at' : m.AtDbcc condition n displacement address)
    (fails : condition.holds m.registers.status = false) (zero : m.registers.counter n = 0) :
    m.Runs [⟨address, 14, address + 4⟩] m.step.2 ∧ m.step.2.registers.counter n = 0xFFFF ∧
      (m.step.2.registers.d.get n).extractLsb' 16 16 = (m.registers.d.get n).extractLsb' 16 16 := by
  obtain ⟨completes, executed, stepsTo⟩ := at'.step (Registers.dbcc_of_zero displacement fails zero)
  rw [at'.here] at executed
  refine ⟨completes.runs executed, ?_, ?_⟩
  · rw [stepsTo.registers, Registers.counter_countDown, zero]
    rfl
  · rw [stepsTo.registers]
    exact Registers.high_countDown ..

theorem AtDbcc.spins (at' : m.AtDbcc condition n (-2) address)
    (fails : condition.holds m.registers.status = false) {count : Nat}
    (counter : (m.registers.counter n).toNat = count) :
    ∃ m', m.Runs (List.replicate count ⟨address, 10, address⟩ ++ [⟨address, 14, address + 4⟩]) m' ∧
      m'.registers.counter n = 0xFFFF ∧
      (m'.registers.d.get n).extractLsb' 16 16 = (m.registers.d.get n).extractLsb' 16 16 := by
  induction count generalizing m with
  | zero => exact ⟨m.step.2, at'.passes fails (BitVec.eq_of_toNat_eq counter)⟩
  | succ count ih =>
    have nonzero : m.registers.counter n ≠ 0 := by bv_omega
    obtain ⟨completes, executed, stepsTo⟩ := at'.step (Registers.dbcc_of_nonzero (-2) fails nonzero)
    have back : m.registers.pc + 2 + (-2 : BitVec 16).signExtend 32 = address := by
      have none : (2 : BitVec 32) + (-2 : BitVec 16).signExtend 32 = 0 := by decide
      rw [at'.here, BitVec.add_assoc, none]
      exact BitVec.add_zero address
    rw [back] at executed stepsTo
    obtain ⟨m', ran, passed, high⟩ := ih (at'.again stepsTo rfl rfl)
      (by rw [stepsTo.registers]; exact fails) (stepsTo.counter counter)
    refine ⟨m', ?_, passed, ?_⟩
    · have run : m.Runs (m.executed :: _) m' := .step completes ran
      rw [executed] at run
      exact run
    · rw [high, stepsTo.registers]
      exact Registers.high_countDown ..

/-- Loops are counted down. Around a body that comes back to it, a DBcc whose condition fails is executed once more
often than its counter says: it branches that many times, at 10 clock cycles each, and then falls through at 14,
where the low word of the counter is all ones and the high word is what the body has left. Where the condition
holds it falls through at once, at 12 clock cycles, and changes nothing else. If it branches to itself, then
nothing else is executed at all. -/
theorem counted_loops (condition : Condition) (n : Fin 8) (displacement : BitVec 16)
    (address : BitVec 32) :
    (∀ (arrival : Machine World → Prop), CountedLoop condition n displacement address arrival →
      ∀ m, arrival m → ∃ (trace : List Executed) (last m' : Machine World),
        m.Runs trace last ∧ arrival last ∧ last.Runs [⟨address, 14, address + 4⟩] m' ∧
        trace.filter (fun e => e.address = address) = List.replicate (m.registers.counter n).toNat
          ⟨address, 10, address + 2 + displacement.signExtend 32⟩ ∧
        m'.registers.counter n = 0xFFFF ∧
        (m'.registers.d.get n).extractLsb' 16 16 = (last.registers.d.get n).extractLsb' 16 16) ∧
    (∀ m : Machine World, m.AtDbcc condition n displacement address →
      condition.holds m.registers.status = true →
      m.Runs [⟨address, 12, address + 4⟩] m.step.2 ∧
        m.step.2.registers = { m.registers with pc := address + 4 }) ∧
    ∀ m : Machine World, m.AtDbcc condition n (-2) address →
      condition.holds m.registers.status = false →
      ∃ (trace : List Executed) (m' : Machine World), m.Runs trace m' ∧
        trace = List.replicate (m.registers.counter n).toNat ⟨address, 10, address⟩ ++
          [⟨address, 14, address + 4⟩] ∧
        Executed.total trace = 10 * (m.registers.counter n).toNat + 14 ∧
        m'.registers.counter n = 0xFFFF ∧
        (m'.registers.d.get n).extractLsb' 16 16 = (m.registers.d.get n).extractLsb' 16 16 := by
  refine ⟨?counted, ?ended, ?empty⟩
  case counted =>
    intro arrival loop m arrived
    obtain ⟨trace, last, ran, back, zero, branches⟩ := loop.counts arrived rfl
    obtain ⟨falls, passed⟩ := (loop.atDbcc last back).passes (loop.fails last back) zero
    exact ⟨trace, last, last.step.2, ran, back, falls, branches, passed⟩
  case ended =>
    intro m at' holds
    obtain ⟨completes, executed, stepsTo⟩ := at'.step (Registers.dbcc_of_holds displacement holds)
    rw [at'.here] at executed stepsTo
    exact ⟨completes.runs executed, stepsTo.registers⟩
  case empty =>
    intro m at' fails
    obtain ⟨m', ran, passed⟩ := at'.spins fails rfl
    exact ⟨_, m', ran, rfl, Executed.total_replicate _ _ _, passed⟩

/-- A processor that is about to count D0 down, in a loop around NOP. -/
def looping : Machine Unit :=
  { Machine.new ⟨0x00FFFFFF, .openBus 0⟩ ⟨#[#[0x4E, 0x71, 0x51, 0xC8, 0xFF, 0xFC]], .none, ()⟩
      fun _ world => world with
    registers := { Registers.initial.setData 0 0x12340002 with pc := 2 }
    memory := (MemoryMap.empty ⟨0x00FFFFFF, .openBus 0⟩).mapRam ⟨0, 5⟩ 0
    state := .running }

/-- The processor is at an address of the loop. -/
structure InLoop (m : Machine Unit) (address : BitVec 32) : Prop where
  here : m.registers.pc = address
  state : m.state = looping.state
  interrupts : m.interrupts = looping.interrupts
  memory : m.memory = looping.memory
  host : m.host = looping.host
  status : m.registers.status = looping.registers.status

namespace InLoop

variable {m : Machine Unit} {address : BitVec 32}

theorem undisturbed (inside : m.InLoop address) : m.Undisturbed := by
  constructor
  · rw [inside.state]
    rfl
  · rw [inside.interrupts, Registers.interruptMask, inside.status]
    rfl
  · rw [Registers.isTracing, inside.status]
    rfl

theorem readWord (inside : m.InLoop address) (place : BitVec 32) {word : BitVec 16}
    (found : looping.memory.readWord looping.programSpace place looping.host = .ok word looping.host) :
    m.memory.readWord m.programSpace place m.host = .ok word m.host := by
  have space : m.programSpace = looping.programSpace := by
    rw [programSpace, Registers.isSupervisor, inside.status]
    rfl
  rw [inside.memory, space, inside.host]
  exact found

theorem atDbcc (inside : m.InLoop 2) : m.AtDbcc .never 0 0xFFFC 2 := by
  refine ⟨inside.undisturbed, inside.here, 0x51C8, rfl, ?_, ?_, ?_⟩
  · rw [inside.here]
    rfl
  · exact inside.readWord _ (by rw [inside.here]; rfl)
  · exact inside.readWord _ (by rw [inside.here]; rfl)

theorem step (inside : m.InLoop address) {r : Registers} (stepsTo : m.StepsTo r)
    (status : r.status = m.registers.status) : m.step.2.InLoop r.pc := by
  constructor
  · rw [stepsTo.registers]
  · exact stepsTo.state.trans inside.state
  · exact stepsTo.interrupts.trans inside.interrupts
  · exact stepsTo.memory.trans inside.memory
  · exact stepsTo.host.trans inside.host
  · rw [stepsTo.registers, status]
    exact inside.status

theorem nop (inside : m.InLoop 0) : ∃ m', m.Runs [⟨0, 4, 2⟩] m' ∧ m'.InLoop 2 ∧
    m'.registers.d = m.registers.d := by
  have found : m.memory.readWord m.programSpace m.registers.pc m.host = .ok 0x4E71 m.host :=
    inside.readWord _ (by rw [inside.here]; rfl)
  have even : m.registers.pc.getLsbD 0 = false := by
    rw [inside.here]
    rfl
  obtain ⟨after, next, becomes⟩ := Exec.nextInstruction_of_found (m := m.beginning) even found
  have ends : Exec.nextInstruction m.beginning = .ok 4 { after with opcode := 0x4E71 } := next
  have becomes : Becomes { m.beginning with opcode := 0x4E71 }
      { m.registers with pc := m.registers.pc + 2 } m.host.ram { after with opcode := 0x4E71 } := by
    rw [Becomes] at becomes ⊢
    rw [becomes]
    rfl
  obtain ⟨completes, executed, stepsTo⟩ := inside.undisturbed.stepsTo ends becomes
  rw [inside.here] at executed stepsTo
  exact ⟨m.step.2, completes.runs executed, inside.step stepsTo rfl, by rw [stepsTo.registers]⟩

theorem counted : CountedLoop .never 0 0xFFFC 2 fun m => m.InLoop 2 := by
  refine ⟨fun _ inside => inside.atDbcc, fun _ _ => rfl, fun m inside nonzero => ?_⟩
  obtain ⟨-, -, stepsTo⟩ := inside.atDbcc.step (Registers.dbcc_of_nonzero 0xFFFC rfl nonzero)
  rw [inside.here] at stepsTo
  obtain ⟨m', ran, back, same⟩ := (inside.step stepsTo rfl).nop
  refine ⟨_, m', ran, by decide, back, ?_⟩
  rw [Registers.counter, same]
  rfl

end InLoop

/-- The loop is executed three times. -/
theorem counted_loops_three :
    looping.InLoop 2 ∧ CountedLoop .never 0 0xFFFC 2 (fun m => m.InLoop 2) ∧
      ∃ (trace : List Executed) (last m' : Machine Unit), looping.Runs trace last ∧
        last.Runs [⟨2, 14, 6⟩] m' ∧
        trace.filter (fun e => e.address = 2) = [⟨2, 10, 0⟩, ⟨2, 10, 0⟩] ∧
        m'.registers.counter 0 = 0xFFFF := by
  have inside : looping.InLoop 2 := ⟨rfl, rfl, rfl, rfl, rfl, rfl⟩
  obtain ⟨trace, last, m', ran, -, falls, branches, passed, -⟩ :=
    (counted_loops .never 0 0xFFFC 2).1 _ InLoop.counted looping inside
  exact ⟨inside, InLoop.counted, trace, last, m', ran, falls, branches, passed⟩

end Machine

end MC68000
