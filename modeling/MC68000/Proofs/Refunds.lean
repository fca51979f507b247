import MC68000.Proofs.Reachability

set_option autoImplicit false

namespace MC68000

variable {World : Type}

namespace Machine

/-- What a negative charge takes back. -/
def refund (m : Machine World) (cycles : Int) : Nat :=
  min (min cycles.natAbs 0xFFFFFFFF) m.cycles.toNat

/-- An amount has been taken off both accounts. -/
structure Refunded (amount : Nat) (m m' : Machine World) : Prop where
  counter : m'.cycles.toNat + amount = m.cycles.toNat
  total : m'.total.count + amount = m.total.count

theorem charge_of_neg (m : Machine World) {cycles : Int} (negative : cycles < 0) :
    m.charge cycles = (-(m.refund cycles : Int), { m with
      cycles := m.cycles - BitVec.ofNat 32 (m.refund cycles)
      total := m.total.subtract ⟨m.refund cycles⟩ }) := by
  unfold charge
  exact if_neg (Int.not_le.mpr negative)

/-- The counter always holds what is taken off it. -/
theorem counter_refund (m : Machine World) (cycles : Int) :
    (m.cycles - BitVec.ofNat 32 (m.refund cycles)).toNat + m.refund cycles = m.cycles.toNat := by
  have counter := m.cycles.isLt
  have held : m.refund cycles ≤ m.cycles.toNat := Nat.min_le_right _ _
  rw [BitVec.toNat_sub, BitVec.toNat_ofNat]
  omega

/-- The total follows the counter exactly where it holds as much. -/
theorem refunded_charge_iff (m : Machine World) {cycles : Int} (negative : cycles < 0) :
    m.Refunded (m.refund cycles) (m.charge cycles).2 ↔ m.refund cycles ≤ m.total.count := by
  rw [charge_of_neg m negative]
  constructor
  · exact fun refunded => refunded.total ▸ Nat.le_add_left _ _
  · exact fun held => ⟨m.counter_refund cycles, Nat.sub_add_cancel held⟩

/-- The counter holds no more than the total. -/
def Covered (m : Machine World) : Prop := m.cycles.toNat ≤ m.total.count

theorem Covered.refunded {m : Machine World} (covered : m.Covered) {cycles : Int} (negative : cycles < 0) :
    m.Refunded (m.refund cycles) (m.charge cycles).2 :=
  (m.refunded_charge_iff negative).mpr (Nat.le_trans (Nat.min_le_right _ _) covered)

/-- Asked to give some clocks back, a machine gives as many as its counter holds. -/
theorem Covered.refunded_refundCycles {m : Machine World} (covered : m.Covered) (clocks : BitVec 32) :
    m.Refunded (min clocks.toNat m.cycles.toNat) (m.refundCycles clocks) := by
  have small := clocks.isLt
  unfold refundCycles
  by_cases none : clocks.toNat = 0
  · rw [none, Nat.zero_min]
    change m.Refunded 0 (m.charge 0).2
    rw [charge_zero]
    exact ⟨rfl, rfl⟩
  · have amount : m.refund (-clocks.toNat) = min clocks.toNat m.cycles.toNat := by
      unfold refund
      omega
    rw [← amount]
    exact covered.refunded (by omega)

/-- Where the counter holds more than the total, giving all of it back leaves the two apart. -/
theorem covered_iff (m : Machine World) : m.Covered ↔
    ∀ clocks : BitVec 32, m.Refunded (min clocks.toNat m.cycles.toNat) (m.refundCycles clocks) := by
  refine ⟨Covered.refunded_refundCycles, fun alike => ?_⟩
  have emptied := (alike m.cycles).total
  rw [Nat.min_self] at emptied
  unfold Covered
  omega

theorem Covered.balanced {m : Machine World} (covered : m.Covered) :
    m.Balanced (m.total.count - m.cycles.toNat) :=
  ⟨by rw [Nat.add_sub_cancel' covered], covered⟩

theorem Covered.turns {m : Machine World} (covered : m.Covered) (k : Nat) : (m.turns k).Covered := by
  induction k generalizing m with
  | zero => exact covered
  | succ k ih => exact ih covered.balanced.turn.covered

theorem Covered.operate {m m' : Machine World} (covered : m.Covered) (operation : m.Operation m') :
    m'.Covered := by
  have balanced := covered.balanced
  cases operation with
  | step => exact balanced.step.covered
  | run done => exact (run?_accounts balanced done).1.covered
  | runTicks done =>
    obtain ⟨_, _, ran, _⟩ := runTicks?_eq done
    exact (run?_accounts balanced ran).1.covered
  | reset => exact (balanced.congr m.accounts_reset.1 m.accounts_reset.2).covered
  | raise done =>
    obtain ⟨_, _, rfl⟩ := raiseInterrupt_eq done
    exact covered
  | lower done =>
    obtain ⟨_, _, rfl⟩ := lowerInterrupt_eq done
    exact covered
  | assign done =>
    obtain ⟨_, _, rfl⟩ := assignInterruptVector_eq done
    exact covered
  | trip => exact balanced.trip.covered
  | chargeOrTrip clocks => exact (balanced.chargeOrTrip clocks).covered
  | charge clocks => exact (balanced.charge clocks.toNat).covered
  | refund clocks => exact (balanced.charge (-clocks.toNat)).covered
  | _ => exact covered

/-- The total of a machine covers the counter that a context brings along. -/
def Covers (m : Machine World) (context : Context World) : Prop := context.cycles.toNat ≤ m.total.count

/-- As long as each context finds a total that covers its counter, every counter stays covered. -/
theorem Reachable.covered {m : Machine World} (h : Reachable Covers m) : m.Covered := by
  induction h with
  | new config host logger => exact Nat.le_refl 0
  | operate _ operation ih => exact ih.operate operation
  | copy _ _ ih _ => exact ih
  | restore _ _ admitted _ _ => exact admitted

/-- A turn in which devices give cycles back consumes what is left of the cost of its step. -/
theorem Covered.refunded_turn {m : Machine World} (covered : m.Covered)
    (negative : m.step.2.host.control.adjust < 0) :
    let amount := m.step.2.refund m.step.2.host.control.adjust
    m.step.2.Refunded amount m.turn.2.2 ∧ m.turn.2.1 = m.step.1 - amount := by
  intro amount
  have stepped : (m.step.2.mapControl fun control => { control with adjust := 0 }).Covered :=
    covered.balanced.step.covered
  have settled := stepped.refunded negative
  refine ⟨⟨settled.counter, settled.total⟩, ?_⟩
  unfold turn settleAdjustment
  dsimp only
  rw [charge_of_neg _ negative]
  rfl

/-- What some turns of the run loop consume. -/
def consumption : Nat → Machine World → Int
  | 0, _ => 0
  | n + 1, m => m.turn.2.1 + consumption n m.turn.2.2

/-- A slice consumes what its turns consume, and what it waits. -/
theorem Slice.consumed_eq {budget consumed consumed' : Int} {m m' : Machine World} {n : Nat}
    (h : Slice budget consumed m consumed' m' n) :
    ∃ wait : Nat, m' = ((m.turns n).charge wait).2 ∧
      consumed' = consumed + m.consumption n + ((m.turns n).charge wait).1 := by
  have at_once (m : Machine World) : m.charge (0 : Nat) = (0, m) := m.charge_zero
  induction h with
  | @ended consumed m _ =>
    refine ⟨0, ?_⟩
    rw [turns, consumption, at_once]
    exact ⟨rfl, by omega⟩
  | @wait consumed m on _ =>
    obtain ⟨left, same⟩ := Int.eq_ofNat_of_zero_le (Int.sub_nonneg_of_le (Int.le_of_lt (left_of_on on)))
    refine ⟨left, ?_⟩
    rw [turns, consumption, same]
    exact ⟨rfl, by omega⟩
  | @released consumed m _ _ _ =>
    refine ⟨0, ?_⟩
    rw [turns, turns, consumption, consumption, at_once]
    exact ⟨rfl, by omega⟩
  | @turn consumed consumed' m m' n _ _ _ _ ih =>
    obtain ⟨wait, last, sum⟩ := ih
    refine ⟨wait, last, ?_⟩
    rw [turns, consumption, sum]
    omega

/-- A negative charge takes off the counter what it gives. The total falls by the same, however many clocks are
given back, exactly where it holds as much as the counter.

It does on all that hosts make of machines that they have switched on, as long as they put contexts only where
the total covers the counter that comes along. There both accounts fall by what is given back, and so they do
in each turn of a run in which devices have given back more cycles than they have added. Such a turn consumes
the cost of its step less this amount, and the run reports what its turns consume and what it waits in the end,
as far as 32 bits hold it. -/
theorem refunds_alike :
    (∀ (m : Machine World) (cycles : Int), cycles < 0 →
      (m.charge cycles).1 = -(m.refund cycles : Int) ∧
        (m.charge cycles).2.cycles.toNat + m.refund cycles = m.cycles.toNat) ∧
    (∀ m : Machine World, m.cycles.toNat ≤ m.total.count ↔
      ∀ clocks : BitVec 32, m.Refunded (min clocks.toNat m.cycles.toNat) (m.refundCycles clocks)) ∧
    ∀ m : Machine World, Reachable Covers m →
      (∀ clocks : BitVec 32, m.Refunded (min clocks.toNat m.cycles.toNat) (m.refundCycles clocks)) ∧
      ∀ (limit : Nat) (clocks r : BitVec 32) (m' : Machine World), m.run? limit clocks = some (r, m') →
        ∃ n ≤ limit, (∀ l, m.run? l clocks = if n ≤ l then some (r, m') else none) ∧
          ∃ wait : Nat, m' = ((m.turns n).charge wait).2.dropStop ∧
          r.toNat = min (m.consumption n + ((m.turns n).charge wait).1).toNat 0xFFFFFFFF ∧
          ∀ k < n,
            let stepped := (m.turns k).step
            let amount := stepped.2.refund stepped.2.host.control.adjust
            stepped.2.host.control.adjust < 0 →
              stepped.2.Refunded amount (m.turns (k + 1)) ∧ (m.turns k).turn.2.1 = stepped.1 - amount := by
  refine ⟨fun m cycles negative => ⟨?_, ?_⟩, covered_iff, fun m h => ⟨h.covered.refunded_refundCycles, ?_⟩⟩
  · rw [charge_of_neg m negative]
  · rw [charge_of_neg m negative]
    exact m.counter_refund cycles
  · intro limit clocks r m' done
    obtain ⟨consumed, after, n, within, slice, rfl, rfl⟩ := exists_slice_of_run? done
    obtain ⟨wait, rfl, sum⟩ := slice.consumed_eq
    refine ⟨n, within, slice.run?_eq, wait, rfl, ?_, fun k _ => ?_⟩
    · rw [toNat_reported, sum, Int.zero_add]
    · intro stepped amount negative
      rw [turns_succ]
      exact (h.covered.turns k).refunded_turn negative

/-- A machine on an open bus where every opcode starts with 1010, after its reset from eight bytes of memory.
The hook for such opcodes gives ten cycles back. -/
def refunding : Machine Unit :=
  (((new ⟨0x00FFFFFF, .openBus 0xAA⟩ ⟨#[#[0, 0, 0, 0, 0, 0, 0, 8]], .none, ()⟩ fun _ world => world).withMemory
      ((MemoryMap.empty ⟨0x00FFFFFF, .openBus 0xAA⟩).mapRam ⟨0, 7⟩ 0)).withHooks
    (Hooks.none.intercept .lineA fun _ r host => (r, { host with control := host.control.refund 10 }))).reset.2

/-- It is charged twelve cycles, and given its own context back. Each of two turns then costs 34 cycles, and
consumes 24. -/
theorem refunds_alike_in_run :
    let m := (refunding.chargeCycles 12).restore (refunding.chargeCycles 12).context
    Reachable Covers m ∧ m.Refunded 5 (m.refundCycles 5) ∧
      ∃ m' : Machine Unit, m.run? 2 40 = some (48, m') ∧ m.step.2.Refunded 10 (m.turns 1) ∧
        m.turn.2.1 = m.step.1 - 10 := by
  intro m
  have reset : Reachable Covers refunding :=
    (((Reachable.new _ _ _).operate (.memory _)).operate (.hooks _)).operate .reset
  have charged := reset.operate (.charge 12)
  have reachable : Reachable Covers m := charged.restore charged (Nat.le_refl 12)
  obtain ⟨refunds, runs⟩ := refunds_alike.2.2 m reachable
  have reports : (m.run? 2 40).map Prod.fst = some 48 := by decide +kernel
  have short : (m.run? 0 40).isNone = true := by decide +kernel
  obtain ⟨⟨r, m'⟩, found, report⟩ := Option.map_eq_some_iff.mp reports
  obtain rfl : r = 48 := report
  obtain ⟨n, -, answers, wait, -, -, turns⟩ := runs 2 40 48 m' found
  have taken : 0 < n := by
    refine Nat.pos_of_ne_zero fun zero => ?_
    rw [answers 0, if_pos (Nat.le_of_eq zero)] at short
    cases short
  have adjust : m.step.2.host.control.adjust = -10 := by decide +kernel
  have amount : m.step.2.refund (-10) = 10 := by decide +kernel
  have turn := turns 0 taken
  change m.step.2.host.control.adjust < 0 →
    m.step.2.Refunded (m.step.2.refund m.step.2.host.control.adjust) (m.turns 1) ∧
      m.turn.2.1 = m.step.1 - m.step.2.refund m.step.2.host.control.adjust at turn
  rw [adjust, amount] at turn
  exact ⟨reachable, refunds 5, m', found, turn (by decide)⟩

/-- A machine that has just been switched on is given the context of one that has been charged twelve cycles.
Then five cycles that are given back come off the counter, and nothing comes off the total, which holds
nothing. -/
theorem total_short_of_refund :
    let m := switchedOn.restore (switchedOn.chargeCycles 12).context
    Reachable (fun _ _ => True) m ∧ (m.refundCycles 5).cycles.toNat + 5 = m.cycles.toNat ∧
      m.total.count = 0 ∧ (m.refundCycles 5).total.count = 0 ∧ ¬m.Refunded 5 (m.refundCycles 5) := by
  intro m
  have on : Reachable (fun _ _ => True) switchedOn := .new _ _ _
  have kept : (m.refundCycles 5).total.count = 0 := by decide +kernel
  refine ⟨on.restore (on.operate (.charge 12)) trivial, by decide +kernel, rfl, kept, fun refunded => ?_⟩
  have total := refunded.total
  rw [kept] at total
  cases total

end Machine

end MC68000
