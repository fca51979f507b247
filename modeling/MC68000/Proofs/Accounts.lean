import MC68000.Proofs.Costs
import MC68000.Proofs.History

set_option autoImplicit false

namespace MC68000

variable {World : Type}

namespace Machine

/-- The accounts of a machine whose counter has been tripped for some cycles in all. -/
structure Balanced (m : Machine World) (tripped : Nat) : Prop where
  congruent : m.total.count % 0x100000000 = (m.cycles.toNat + tripped) % 0x100000000
  covered : m.cycles.toNat ≤ m.total.count

theorem Balanced.congr {m m' : Machine World} {tripped : Nat} (h : m.Balanced tripped)
    (cycles : m'.cycles = m.cycles) (total : m'.total = m.total) : m'.Balanced tripped := by
  constructor
  · rw [cycles, total]
    exact h.congruent
  · rw [cycles, total]
    exact h.covered

theorem Balanced.charge {m : Machine World} {tripped : Nat} (h : m.Balanced tripped) (cycles : Int) :
    (m.charge cycles).2.Balanced tripped := by
  obtain ⟨congruent, covered⟩ := h
  have counter := m.cycles.isLt
  unfold Machine.charge
  dsimp only
  split
  next =>
    have sum : (m.cycles + BitVec.ofNat 32 (min cycles.natAbs 0xFFFFFFFF)).toNat =
        (m.cycles.toNat + min cycles.natAbs 0xFFFFFFFF) % 0x100000000 := by
      rw [BitVec.toNat_add, BitVec.toNat_ofNat]
      omega
    constructor
    · simp only [Ticks.add, sum]
      omega
    · simp only [Ticks.add, sum]
      omega
  next =>
    have difference : (m.cycles - BitVec.ofNat 32 (min (min cycles.natAbs 0xFFFFFFFF) m.cycles.toNat)).toNat =
        m.cycles.toNat - min (min cycles.natAbs 0xFFFFFFFF) m.cycles.toNat := by
      rw [BitVec.toNat_sub, BitVec.toNat_ofNat]
      omega
    constructor
    · simp only [Ticks.subtract, difference]
      omega
    · simp only [Ticks.subtract, difference]
      omega

/-- A charge gives what it has entered in the total. -/
theorem total_charge {m : Machine World} (covered : m.cycles.toNat ≤ m.total.count) (cycles : Int) :
    ((m.charge cycles).2.total.count : Int) = m.total.count + (m.charge cycles).1 := by
  unfold charge
  dsimp only
  split
  next => exact Int.natCast_add _ _
  next =>
    simp only [Ticks.subtract]
    omega

theorem accounts_prologue (m : Machine World) :
    m.prologue.machine.cycles = m.cycles ∧ m.prologue.machine.total = m.total := by
  rw [prologue_frame]
  exact ⟨rfl, rfl⟩

/-- Nothing is entered before a step is charged. -/
theorem accounts_finish (m : Machine World) :
    m.prologue.finish.2.cycles = m.cycles ∧ m.prologue.finish.2.total = m.total := by
  unfold Prologue.finish
  split
  next => exact m.accounts_prologue
  next cause _ =>
    rw [(processed_process m.prologue.machine cause).frame]
    exact m.accounts_prologue

theorem Balanced.step {m : Machine World} {tripped : Nat} (h : m.Balanced tripped) :
    m.step.2.Balanced tripped := by
  rw [step_eq]
  exact (h.congr m.accounts_finish.1 m.accounts_finish.2).charge _

/-- A step enters what it costs. -/
theorem total_step (m : Machine World) : m.step.2.total.count = m.total.count + m.step.1 := by
  have small := m.cost_step_le
  rw [step_eq] at small ⊢
  dsimp only at small ⊢
  rw [charge_of_nonneg _ (by omega), ← m.accounts_finish.2]
  rfl

theorem Balanced.turn {m : Machine World} {tripped : Nat} (h : m.Balanced tripped) :
    m.turn.2.2.Balanced tripped :=
  (((h.step).congr rfl rfl : (m.step.2.mapControl _).Balanced tripped).charge _).congr rfl rfl

theorem total_turn {m : Machine World} {tripped : Nat} (h : m.Balanced tripped) :
    (m.turn.2.2.total.count : Int) = m.total.count + m.turn.2.1 := by
  have step := m.total_step
  have settled := total_charge (m := m.step.2.mapControl fun control => { control with adjust := 0 })
    h.step.covered m.step.2.host.control.adjust
  change (m.turn.2.2.total.count : Int) = m.step.2.total.count + _ at settled
  unfold Machine.turn at settled ⊢
  unfold settleAdjustment at settled ⊢
  dsimp only at settled ⊢
  omega

/-- A slice consumes what it enters, whatever devices add and give back. -/
theorem Slice.accounts {budget consumed consumed' : Int} {m m' : Machine World} {n : Nat}
    (h : Slice budget consumed m consumed' m' n) {tripped : Nat} (balanced : m.Balanced tripped) :
    m'.Balanced tripped ∧ (m'.total.count : Int) - m.total.count = consumed' - consumed := by
  induction h with
  | ended _ => exact ⟨balanced, by omega⟩
  | @wait consumed m _ _ =>
    have entered := total_charge balanced.covered (budget - consumed)
    exact ⟨balanced.charge _, by omega⟩
  | released _ _ _ =>
    have entered := total_turn balanced
    exact ⟨balanced.turn, by omega⟩
  | turn _ _ _ _ ih =>
    have entered := total_turn balanced
    obtain ⟨after, rest⟩ := ih balanced.turn
    exact ⟨after, by omega⟩

/-- A run keeps the accounts balanced and reports what it has entered, as far as 32 bits hold it. -/
theorem run?_accounts {limit : Nat} {m m' : Machine World} {clocks r : BitVec 32} {tripped : Nat}
    (balanced : m.Balanced tripped) (h : m.run? limit clocks = some (r, m')) :
    m'.Balanced tripped ∧
      (r.toNat : Int) = min (max 0 ((m'.total.count : Int) - m.total.count)) 0xFFFFFFFF := by
  obtain ⟨consumed, after, n, _, slice, rfl, rfl⟩ := exists_slice_of_run? h
  obtain ⟨balance, entered⟩ := slice.accounts balanced
  refine ⟨balance.congr rfl rfl, ?_⟩
  change _ = min (max 0 ((after.total.count : Int) - m.total.count)) 0xFFFFFFFF
  rw [toNat_reported]
  omega

theorem runTicks?_eq {limit : Nat} {m m' : Machine World} {budget t : Ticks}
    (h : m.runTicks? limit budget = some (t, m')) :
    ∃ clocks r : BitVec 32, m.run? limit clocks = some (r, m') ∧ t = .ofCounter r := by
  unfold runTicks? at h
  cases found : m.run? limit (BitVec.ofNat 32 (min budget.count 0xFFFFFFFF)) with
  | none =>
    rw [found] at h
    cases h
  | some result =>
    rw [found] at h
    cases h
    exact ⟨_, _, found, rfl⟩

/-- What a host can make of a machine without putting a saved context into it, and the sum of what has been
read from the counter when it was tripped. -/
inductive Session (start : Machine World) : Nat → Machine World → Prop
  | start : Session start 0 start
  | step {tripped : Nat} {m : Machine World} (before : Session start tripped m) :
      Session start tripped m.step.2
  | run {tripped limit : Nat} {m m' : Machine World} {clocks r : BitVec 32}
      (before : Session start tripped m) (done : m.run? limit clocks = some (r, m')) :
      Session start tripped m'
  | runTicks {tripped limit : Nat} {m m' : Machine World} {budget t : Ticks}
      (before : Session start tripped m) (done : m.runTicks? limit budget = some (t, m')) :
      Session start tripped m'
  | trip {tripped : Nat} {m : Machine World} (before : Session start tripped m) :
      Session start (tripped + m.trip.1.toNat) m.trip.2
  /-- Asked to charge no clocks, this trips the counter. -/
  | chargeOrTrip {tripped : Nat} {m : Machine World} (before : Session start tripped m)
      (clocks : BitVec 32) :
      Session start (tripped + if clocks = 0 then (m.chargeOrTrip clocks).1.toNat else 0)
        (m.chargeOrTrip clocks).2
  | charge {tripped : Nat} {m : Machine World} (before : Session start tripped m)
      (clocks : BitVec 32) : Session start tripped (m.chargeCycles clocks)
  | refund {tripped : Nat} {m : Machine World} (before : Session start tripped m)
      (clocks : BitVec 32) : Session start tripped (m.refundCycles clocks)
  /-- Whether or not the reset is refused. -/
  | reset {tripped : Nat} {m : Machine World} (before : Session start tripped m) :
      Session start tripped m.reset.2
  | raise {tripped level : Nat} {m m' : Machine World} {vector : InterruptVector}
      {previous : Option InterruptVector} (before : Session start tripped m)
      (done : m.raiseInterrupt level vector = .ok (previous, m')) : Session start tripped m'
  | lower {tripped level : Nat} {m m' : Machine World} (before : Session start tripped m)
      (done : m.lowerInterrupt level = .ok m') : Session start tripped m'
  | assign {tripped level : Nat} {m m' : Machine World} {vector : InterruptVector}
      (before : Session start tripped m) (done : m.assignInterruptVector level vector = .ok m') :
      Session start tripped m'
  | registers {tripped : Nat} {m : Machine World} (before : Session start tripped m)
      (f : Registers → Registers) : Session start tripped (m.mapRegisters f)
  | memory {tripped : Nat} {m : Machine World} (before : Session start tripped m)
      (memory : MemoryMap World) : Session start tripped (m.withMemory memory)
  | hooks {tripped : Nat} {m : Machine World} (before : Session start tripped m)
      (hooks : Hooks World) : Session start tripped (m.withHooks hooks)
  | peek {tripped : Nat} {m : Machine World} (before : Session start tripped m)
      (space : AddressSpace) (address : BitVec 32) :
      Session start tripped (m.peekWord space address).2
  /-- A change outside the processor: of the buffers, of the devices, or of the requests to the run loop. -/
  | host {tripped : Nat} {m : Machine World} (before : Session start tripped m)
      (host : Host World) : Session start tripped { m with host }

theorem accounts_reset (m : Machine World) :
    m.reset.2.cycles = m.cycles ∧ m.reset.2.total = m.total := by
  unfold reset
  split
  next => exact ⟨rfl, rfl⟩
  next =>
    split
    next => exact ⟨rfl, rfl⟩
    next => exact ⟨rfl, rfl⟩

theorem Balanced.trip {m : Machine World} {tripped : Nat} (h : m.Balanced tripped) :
    m.trip.2.Balanced (tripped + m.trip.1.toNat) := by
  refine ⟨?_, Nat.zero_le _⟩
  change m.total.count % 0x100000000 = (0 + (tripped + m.cycles.toNat)) % 0x100000000
  rw [Nat.zero_add, Nat.add_comm]
  exact h.congruent

theorem Balanced.chargeOrTrip {m : Machine World} {tripped : Nat} (h : m.Balanced tripped)
    (clocks : BitVec 32) : (m.chargeOrTrip clocks).2.Balanced
      (tripped + if clocks = 0 then (m.chargeOrTrip clocks).1.toNat else 0) := by
  unfold Machine.chargeOrTrip
  by_cases none : clocks = 0
  · simp only [if_pos none]
    exact h.trip
  · simp only [if_neg none]
    exact h.charge clocks.toNat

/-- Whatever a host does, the accounts stay balanced. -/
theorem Session.balanced {start m : Machine World} {tripped : Nat} (h : Session start tripped m)
    (balanced : start.Balanced 0) : m.Balanced tripped := by
  induction h with
  | start => exact balanced
  | step _ ih => exact ih.step
  | run _ done ih => exact (run?_accounts ih done).1
  | runTicks _ done ih =>
    obtain ⟨_, _, done, _⟩ := runTicks?_eq done
    exact (run?_accounts ih done).1
  | trip _ ih => exact ih.trip
  | chargeOrTrip _ clocks ih => exact ih.chargeOrTrip clocks
  | charge _ clocks ih => exact ih.charge _
  | refund _ clocks ih => exact ih.charge _
  | @reset _ m _ ih => exact ih.congr m.accounts_reset.1 m.accounts_reset.2
  | raise _ done ih =>
    obtain ⟨_, _, rfl⟩ := raiseInterrupt_eq done
    exact ih.congr rfl rfl
  | lower _ done ih =>
    obtain ⟨_, _, rfl⟩ := lowerInterrupt_eq done
    exact ih.congr rfl rfl
  | assign _ done ih =>
    obtain ⟨_, _, rfl⟩ := assignInterruptVector_eq done
    exact ih.congr rfl rfl
  | registers _ f ih => exact ih.congr rfl rfl
  | memory _ memory ih => exact ih.congr rfl rfl
  | hooks _ hooks ih => exact ih.congr rfl rfl
  | peek _ space address ih => exact ih.congr rfl rfl
  | host _ host ih => exact ih.congr rfl rfl

/-- In any session of a machine that has just been switched on, the total is, up to the wrapping of the
counter, what the counter holds and what was read from it when it was tripped, and the counter never holds
more than the total. Every run reports by how much it has raised the total: nothing where it has lowered it,
and no more than 32 bits hold. -/
theorem cycles_conserved {config : BusConfig} {host : Host World} {logger : LogRecord → World → World}
    {tripped : Nat} {m : Machine World} (session : Session (new config host logger) tripped m) :
    m.total.count % 0x100000000 = (m.cycles.toNat + tripped) % 0x100000000 ∧
      m.cycles.toNat ≤ m.total.count ∧
      (∀ (limit : Nat) (clocks r : BitVec 32) (m' : Machine World),
        m.run? limit clocks = some (r, m') →
        (r.toNat : Int) = min (max 0 ((m'.total.count : Int) - m.total.count)) 0xFFFFFFFF) ∧
      ∀ (limit : Nat) (budget t : Ticks) (m' : Machine World),
        m.runTicks? limit budget = some (t, m') →
        (t.count : Int) = min (max 0 ((m'.total.count : Int) - m.total.count)) 0xFFFFFFFF := by
  have balanced := session.balanced ⟨rfl, Nat.le_refl 0⟩
  refine ⟨balanced.congruent, balanced.covered, ?_, ?_⟩
  · intro limit clocks r m' done
    exact (run?_accounts balanced done).2
  · intro limit budget t m' done
    obtain ⟨_, r, ran, rfl⟩ := runTicks?_eq done
    exact (run?_accounts balanced ran).2

/-- A machine that has just been switched on, with eight bytes of zeros that no region maps yet. -/
def switchedOn : Machine Unit :=
  new ⟨0x00FFFFFF, .openBus 0⟩ ⟨#[#[0, 0, 0, 0, 0, 0, 0, 0]], .none, ()⟩ fun _ world => world

/-- The machine after its reset. Every instruction is ORI.B #0,D0, which takes 8 cycles. -/
def switchedOnAndReset : Machine Unit :=
  (switchedOn.withMemory ((MemoryMap.empty ⟨0x00FFFFFF, .openBus 0⟩).mapRam ⟨0, 7⟩ 0)).reset.2

/-- Two runs of 16 cycles with a trip between them: the counter holds what the second has entered. -/
theorem cycles_conserved_tripped :
    ∃ m₁ m₂ : Machine Unit, switchedOnAndReset.run? 2 10 = some (16, m₁) ∧
      m₁.trip.2.run? 2 10 = some (16, m₂) ∧ Session switchedOn 16 m₂ ∧
      m₂.total.count % 0x100000000 = (m₂.cycles.toNat + 16) % 0x100000000 ∧
      m₂.cycles.toNat ≤ m₂.total.count ∧
      (16 : Int) = min (max 0 ((m₂.total.count : Int) - m₁.trip.2.total.count)) 0xFFFFFFFF := by
  have both : ((switchedOnAndReset.run? 2 10).bind fun p => (p.2.trip.2.run? 2 10).map fun q =>
      (p.1, p.2.trip.1, q.1)) = some (16, 16, 16) := by decide +kernel
  cases first : switchedOnAndReset.run? 2 10 with
  | none =>
    rw [first] at both
    cases both
  | some p =>
    obtain ⟨r₁, m₁⟩ := p
    cases second : m₁.trip.2.run? 2 10 with
    | none =>
      rw [first, Option.bind_some, second] at both
      cases both
    | some q =>
      obtain ⟨r₂, m₂⟩ := q
      rw [first, Option.bind_some, second] at both
      obtain ⟨rfl, both⟩ := Prod.mk.inj (Option.some.inj both)
      obtain ⟨read, rfl⟩ := Prod.mk.inj both
      have tripped : Session switchedOn (0 + m₁.trip.1.toNat) m₁.trip.2 :=
        ((Session.start.memory _).reset.run first).trip
      rw [read] at tripped
      have session : Session switchedOn 16 m₂ := tripped.run second
      have reports := (cycles_conserved tripped).2.2.1 2 10 16 m₂ second
      exact ⟨m₁, m₂, rfl, second, session, (cycles_conserved session).1, (cycles_conserved session).2.1,
        reports⟩

end Machine

end MC68000
