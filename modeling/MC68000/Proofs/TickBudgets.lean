import MC68000.Proofs.Accounts
import MC68000.Proofs.RunBounds

set_option autoImplicit false

namespace MC68000

variable {World : Type}

/-- What the run loop is given of a budget. -/
def Ticks.granted (budget : Ticks) : Nat := min budget.count 0xFFFFFFFF

namespace Machine

theorem total_charge_of_nonneg (m : Machine World) {cycles : Int} (nonneg : 0 ≤ cycles) :
    ((m.charge cycles).2.total.count : Int) = m.total.count + (m.charge cycles).1 := by
  rw [charge, if_pos nonneg]
  exact Int.natCast_add _ _

theorem Slice.total {budget consumed consumed' : Int} {m m' : Machine World} {n : Nat}
    (h : Slice budget consumed m consumed' m' n) (quiet : m.Quiet) (none : m.host.control = .none) :
    (m'.total.count : Int) = m.total.count + (consumed' - consumed) := by
  induction h with
  | ended _ => omega
  | @wait consumed m on _ =>
    have left := Slice.left_of_on on
    have entered := m.total_charge_of_nonneg (by omega : 0 ≤ budget - consumed)
    omega
  | released _ _ release =>
    rw [quiet.turn_eq none] at release
    cases release
  | @turn consumed consumed' m m' n _ _ _ _ ih =>
    rw [quiet.turn_eq none] at ih
    have step := m.evolves_step
    have entered := m.total_step
    have rest := ih (quiet.evolves step) (quiet.control_evolves step none)
    dsimp only at rest
    omega

/-- A run for a budget of any length is a run for what is granted of it. -/
theorem runTicks?_of_run? {m m' : Machine World} {budget : Ticks} {r : BitVec 32} {n : Nat}
    (runs : ∀ limit, m.run? limit (BitVec.ofNat 32 budget.granted) =
      if n ≤ limit then some (r, m') else none) (limit : Nat) :
    m.runTicks? limit budget = if n ≤ limit then some (.ofCounter r, m') else none := by
  unfold runTicks?
  rw [show min budget.count 0xFFFFFFFF = budget.granted from rfl, runs limit]
  split
  · rfl
  · rfl

/-- Without requests, a run of a machine that has been reset comes to an end for every budget. It enters in
the total what is granted of the budget, or more by less than the cost of a step, and reports what it has
entered as far as 32 bits hold that. So it reports the whole budget exactly where 32 bits hold this, and
what it has entered wherever the last step does not carry this past them. -/
theorem runTicks_spends {m : Machine World} (quiet : m.Quiet) (none : m.host.control = .none)
    (reset : m.state ≠ .poweredOn) (budget : Ticks) :
    ∃ n ≤ (budget.granted + 3) / 4, ∃ (t : Ticks) (m' : Machine World) (spent : Nat),
      (∀ limit, m.runTicks? limit budget = if n ≤ limit then some (t, m') else Option.none) ∧
        m'.total = m.total.add ⟨spent⟩ ∧ budget.granted ≤ spent ∧ spent ≤ budget.granted + 251 ∧
        t.count = min spent 0xFFFFFFFF ∧
        (budget.count ≤ t.count ↔ budget.count ≤ 0xFFFFFFFF) ∧
        (budget.count + 251 ≤ 0xFFFFFFFF → m'.total = m.total.add t) := by
  have most : budget.granted ≤ 0xFFFFFFFF := Nat.min_le_right _ _
  have clocks : (BitVec.ofNat 32 budget.granted).toNat = budget.granted := by
    rw [BitVec.toNat_ofNat]
    omega
  have pending : 0 ≤ m.host.control.adjust := Int.le_of_eq (congrArg Control.adjust none).symm
  have fours : (budget.granted : Int) - 0 ≤ 4 * ((budget.granted + 3) / 4 : Nat) := by omega
  obtain ⟨consumed, m', n, within, slice⟩ := exists_slice _ _ pending quiet.givesNothingBack fours
  have least := slice.consumes quiet none reset (Int.le_refl 0) (by omega)
  have overrun := slice.consumed_le pending quiet.givesNothingBack quiet.addsNothing
  rw [show m.host.control.adjust = 0 from congrArg Control.adjust none] at overrun
  obtain ⟨spent, rfl⟩ := Int.eq_ofNat_of_zero_le (by omega : 0 ≤ consumed)
  have entered : m'.total = m.total.add ⟨spent⟩ := by
    have count := slice.total quiet none
    exact congrArg Ticks.mk (by omega : m'.total.count = m.total.count + spent)
  have report : (reported spent).toNat = min spent 0xFFFFFFFF := toNat_reported spent
  rw [← clocks] at slice
  refine ⟨n, within, .ofCounter (reported spent), m'.dropStop, spent, runTicks?_of_run? slice.run?_eq,
    entered, by omega, by omega, report, ?_, fun small => ?_⟩
  · change budget.count ≤ (reported spent).toNat ↔ _
    unfold Ticks.granted at *
    omega
  · have exact : (reported spent).toNat = spent := by
      unfold Ticks.granted at *
      omega
    exact entered.trans (congrArg (fun count => m.total.add ⟨count⟩) exact.symm)

/-- A budget of 10 cycles is reported whole, in three steps at most. -/
theorem runTicks_spends_on_open_bus :
    zerosOnOpenBus.Quiet ∧ zerosOnOpenBus.host.control = .none ∧ zerosOnOpenBus.state ≠ .poweredOn ∧
      ∃ (t : Ticks) (m' : Machine Unit), zerosOnOpenBus.runTicks? 3 ⟨10⟩ = some (t, m') ∧
        10 ≤ t.count ∧ m'.total = zerosOnOpenBus.total.add t := by
  refine ⟨quiet_zerosOnOpenBus, rfl, nofun, ?_⟩
  obtain ⟨n, within, t, m', _, runs, _, _, _, _, whole, exact⟩ :=
    runTicks_spends quiet_zerosOnOpenBus rfl nofun ⟨10⟩
  exact ⟨t, m', (runs 3).trans (if_pos within), whole.mpr (by decide), exact (by decide)⟩

/-- A halted processor on an open bus. -/
def haltedOnOpenBus : Machine Unit := { zerosOnOpenBus with state := .halted }

/-- It waits out all but one of the cycles of a budget that takes 33 bits. -/
theorem budget_cut_to_counter :
    haltedOnOpenBus.Quiet ∧ haltedOnOpenBus.host.control = .none ∧ haltedOnOpenBus.state = .halted ∧
      ∃ (t : Ticks) (m' : Machine Unit), haltedOnOpenBus.runTicks? 0 ⟨0x100000000⟩ = some (t, m') ∧
        m'.total = haltedOnOpenBus.total.add t ∧ ¬0x100000000 ≤ t.count := by
  have quiet : haltedOnOpenBus.Quiet :=
    ⟨quiet_zerosOnOpenBus.supervisor, quiet_zerosOnOpenBus.user, quiet_zerosOnOpenBus.hooks⟩
  refine ⟨quiet, rfl, rfl, ?_⟩
  have runs : (haltedOnOpenBus.runTicks? 0 ⟨0x100000000⟩).map (fun p => (p.1, p.2.total)) =
      some (⟨0xFFFFFFFF⟩, ⟨0xFFFFFFFF⟩) := by decide +kernel
  obtain ⟨⟨t, m'⟩, found, same⟩ := Option.map_eq_some_iff.mp runs
  dsimp only at same
  obtain ⟨rfl, total⟩ := Prod.mk.inj same
  exact ⟨_, m', found, total, by decide⟩

end Machine

end MC68000
