import MC68000.Proofs.Costs
import MC68000.Proofs.TimeSlicing

set_option autoImplicit false

namespace MC68000

variable {World : Type}

namespace Machine

/-- The machine after a number of turns of the run loop. -/
def turns : Nat → Machine World → Machine World
  | 0, m => m
  | n + 1, m => turns n m.turn.2.2

/-- In no turn do devices give back more cycles than they add. -/
def GivesNothingBack (m : Machine World) : Prop :=
  ∀ k, (m.turns k).host.control.adjust ≤ (m.turns k).step.2.host.control.adjust

/-- In no turn do devices add more cycles than they give back. -/
def AddsNothing (m : Machine World) : Prop :=
  ∀ k, (m.turns k).step.2.host.control.adjust ≤ (m.turns k).host.control.adjust

theorem wiring_turns (m : Machine World) (k : Nat) : (m.turns k).wiring = m.wiring := by
  induction k generalizing m with
  | zero => rfl
  | succ k ih => exact (ih m.turn.2.2).trans m.wiring_turn

theorem adjust_turns {m : Machine World} {R : Int → Int → Prop} (refl : ∀ x, R x x)
    (trans : ∀ {x y z}, R x y → R y z → R x z)
    (touch : ∀ host host', m.wiring.Touch host host' → R host.control.adjust host'.control.adjust)
    (k : Nat) : R (m.turns k).host.control.adjust (m.turns k).step.2.host.control.adjust := by
  have same := m.wiring_turns k
  refine (m.turns k).evolves_step.invariant (p := fun host =>
    R (m.turns k).host.control.adjust host.control.adjust) (fun host host' touched before => ?_) (refl _)
  rw [same] at touched
  exact trans before (touch host host' touched)

/-- Devices none of which ever gives cycles back. -/
theorem givesNothingBack_of_touch {m : Machine World} (touch : ∀ host host',
    m.wiring.Touch host host' → host.control.adjust ≤ host'.control.adjust) : m.GivesNothingBack :=
  adjust_turns Int.le_refl Int.le_trans touch

/-- Devices none of which ever adds cycles. -/
theorem addsNothing_of_touch {m : Machine World} (touch : ∀ host host',
    m.wiring.Touch host host' → host'.control.adjust ≤ host.control.adjust) : m.AddsNothing :=
  adjust_turns (R := fun x y => y ≤ x) Int.le_refl (fun first second => Int.le_trans second first) touch

theorem Quiet.givesNothingBack {m : Machine World} (quiet : m.Quiet) : m.GivesNothingBack :=
  givesNothingBack_of_touch fun _ _ touch =>
    Int.le_of_eq (congrArg Control.adjust (quiet.control_touch touch)).symm

theorem Quiet.addsNothing {m : Machine World} (quiet : m.Quiet) : m.AddsNothing :=
  addsNothing_of_touch fun _ _ touch => Int.le_of_eq (congrArg Control.adjust (quiet.control_touch touch))

/-- A turn settles all adjustments. -/
theorem adjust_turn (m : Machine World) : m.turn.2.2.host.control.adjust = 0 := by
  rw [turn_frame]

/-- A turn consumes what its step costs and what devices have added, within 32 bits. -/
theorem consumed_turn {m : Machine World} (nonneg : 0 ≤ m.step.2.host.control.adjust) :
    m.turn.2.1 = m.step.1 + (min m.step.2.host.control.adjust.natAbs 0xFFFFFFFF : Nat) := by
  unfold turn settleAdjustment
  dsimp only
  rw [charge, if_pos nonneg]

theorem awake_of_on {m : Machine World} {budget consumed : Int} (on : ¬m.SliceOver budget consumed)
    (awake : m.isIdle = false) : m.state = .running ∨
      m.state = .stopped ∧ (m.interrupts.highestAbove m.registers.interruptMask).isSome = true := by
  unfold isIdle at awake
  cases state : m.state with
  | running => exact .inl rfl
  | stopped =>
    rw [state] at awake
    cases found : m.interrupts.highestAbove m.registers.interruptMask with
    | some level => exact .inr ⟨rfl, rfl⟩
    | none =>
      rw [found] at awake
      cases awake
  | poweredOn => exact absurd (.inr (.inr state)) on
  | halted =>
    rw [state] at awake
    cases awake

/-- Devices that give nothing back take nothing from what a turn consumes. -/
theorem le_consumed_turn {m : Machine World} {budget consumed : Int} (pending : 0 ≤ m.host.control.adjust)
    (back : m.GivesNothingBack) (on : ¬m.SliceOver budget consumed) (awake : m.isIdle = false) :
    4 ≤ m.turn.2.1 := by
  have cost := (within_step (awake_of_on on awake)).2.1
  have nonneg : 0 ≤ m.step.2.host.control.adjust := Int.le_trans pending (back 0)
  rw [consumed_turn nonneg]
  omega

/-- Devices that add nothing leave the cost of the step and what was pending before it. -/
theorem consumed_turn_le {m : Machine World} (pending : 0 ≤ m.host.control.adjust)
    (back : m.GivesNothingBack) (more : m.AddsNothing) :
    m.turn.2.1 ≤ 252 + m.host.control.adjust := by
  have cost := m.cost_step_le
  have nonneg : 0 ≤ m.step.2.host.control.adjust := Int.le_trans pending (back 0)
  have kept : m.step.2.host.control.adjust ≤ m.host.control.adjust := more 0
  rw [consumed_turn nonneg]
  omega

/-- A slice takes one turn more than what follows its first turn, where something does. -/
theorem exists_slice_succ {budget consumed : Int} {m : Machine World} {limit : Nat}
    (rest : ¬m.SliceOver budget consumed → m.isIdle = false → m.turn.1 = false →
      ∃ (consumed' : Int) (m' : Machine World), ∃ n ≤ limit,
        Slice budget (consumed + m.turn.2.1) m.turn.2.2 consumed' m' n) :
    ∃ (consumed' : Int) (m' : Machine World), ∃ n ≤ limit + 1, Slice budget consumed m consumed' m' n := by
  by_cases ended : m.SliceOver budget consumed
  · exact ⟨_, _, 0, Nat.zero_le _, .ended ended⟩
  cases awake : m.isIdle with
  | true => exact ⟨_, _, 0, Nat.zero_le _, .wait ended awake⟩
  | false =>
    cases release : m.turn.1 with
    | true => exact ⟨_, _, 1, Nat.le_add_left 1 limit, .released ended awake release⟩
    | false =>
      obtain ⟨consumed', m', n, within, slice⟩ := rest ended awake release
      exact ⟨consumed', m', n + 1, Nat.succ_le_succ within, .turn ended awake release slice⟩

/-- While devices give nothing back, a slice takes no more turns than there are fours in what is left of
its budget. -/
theorem exists_slice (budget : Int) (fuel : Nat) {consumed : Int} {m : Machine World}
    (pending : 0 ≤ m.host.control.adjust) (back : m.GivesNothingBack)
    (left : budget - consumed ≤ 4 * fuel) :
    ∃ (consumed' : Int) (m' : Machine World), ∃ n ≤ fuel, Slice budget consumed m consumed' m' n := by
  induction fuel generalizing consumed m with
  | zero => exact ⟨_, _, 0, Nat.le_refl 0, .ended (.inl (by omega))⟩
  | succ fuel ih =>
    refine exists_slice_succ fun on awake _ => ?_
    have consumes := le_consumed_turn pending back on awake
    have settled : 0 ≤ m.turn.2.2.host.control.adjust := Int.le_of_eq m.adjust_turn.symm
    exact ih settled (fun k => back (k + 1)) (by omega)

namespace Slice

variable {budget consumed consumed' : Int} {m m' : Machine World} {n : Nat}

/-- A slice overruns its budget by less than one step and what was pending at its start. -/
theorem consumed_le (h : Slice budget consumed m consumed' m' n) (pending : 0 ≤ m.host.control.adjust)
    (back : m.GivesNothingBack) (more : m.AddsNothing) :
    consumed' ≤ max consumed (budget + 251 + m.host.control.adjust) := by
  induction h with
  | ended ended => exact Int.le_max_left _ _
  | @wait consumed m on idle =>
    have before := left_of_on on
    have waits : (m.charge (budget - consumed)).1 ≤ budget - consumed := by
      rw [charge, if_pos (by omega)]
      dsimp only
      omega
    omega
  | @released consumed m on awake release =>
    have before := left_of_on on
    have consumes := consumed_turn_le pending back more
    omega
  | @turn consumed consumed' m m' n on awake go rest ih =>
    have before := left_of_on on
    have consumes := consumed_turn_le pending back more
    have settled := m.adjust_turn
    have rest := ih (Int.le_of_eq settled.symm) (fun k => back (k + 1)) fun k => more (k + 1)
    omega

/-- A slice of a machine that has been reset consumes its budget, unless a request ends it. -/
theorem consumes_or_requested (h : Slice budget consumed m consumed' m' n)
    (pending : 0 ≤ m.host.control.adjust) (back : m.GivesNothingBack) (start : 0 ≤ consumed)
    (small : budget ≤ 0xFFFFFFFF) :
    budget ≤ consumed' ∨ m.state = .poweredOn ∨ (m.turns n).host.control.stop = true ∨
      ∃ k, n = k + 1 ∧ (m.turns k).step.2.host.control.release = true := by
  induction h with
  | @ended consumed m ended =>
    rcases ended with enough | stop | off
    · exact .inl enough
    · exact .inr (.inr (.inl stop))
    · exact .inr (.inl off)
  | @wait consumed m on idle =>
    have before := left_of_on on
    have waits : (m.charge (budget - consumed)).1 = budget - consumed := by
      rw [charge, if_pos (by omega)]
      dsimp only
      omega
    exact .inl (by omega)
  | @released consumed m on awake release => exact .inr (.inr (.inr ⟨0, rfl, m.released_turn.symm.trans release⟩))
  | @turn consumed consumed' m m' n on awake go rest ih =>
    have consumes := le_consumed_turn pending back on awake
    have settled : 0 ≤ m.turn.2.2.host.control.adjust := Int.le_of_eq m.adjust_turn.symm
    have reset : m.state ≠ .poweredOn := fun off => on (.inr (.inr off))
    rcases ih settled (fun k => back (k + 1)) (by omega) with enough | off | stop | ⟨k, rfl, release⟩
    · exact .inl enough
    · exact absurd (m.state_turn.symm.trans off) (state_step reset)
    · exact .inr (.inr (.inl stop))
    · exact .inr (.inr (.inr ⟨k + 1, rfl, release⟩))

end Slice

/-- Every step that has something to do costs an even number of cycles from 4 to 252. So a run for some
clocks ends within a quarter of as many steps, rounded up, if no cycles are given back. If none are added
either, it consumes at most 251 cycles more than its budget and the adjustment that was pending. It consumes
the whole budget, unless a request to stop or to release ends it or the processor was never reset. -/
theorem run_bounded :
    (∀ m : Machine World, (m.state = .running ∨ m.state = .stopped ∧
        (m.interrupts.highestAbove m.registers.interruptMask).isSome = true) →
      2 ∣ m.step.1 ∧ 4 ≤ m.step.1 ∧ m.step.1 ≤ 252) ∧
    ∀ (m : Machine World) (clocks : BitVec 32), 0 ≤ m.host.control.adjust → m.GivesNothingBack →
      ∃ (n : Nat) (r : BitVec 32) (m' : Machine World), n ≤ (clocks.toNat + 3) / 4 ∧
        (∀ limit, m.run? limit clocks = if n ≤ limit then some (r, m') else none) ∧
        (m.AddsNothing → (r.toNat : Int) ≤ clocks.toNat + 251 + m.host.control.adjust) ∧
        (clocks.toNat ≤ r.toNat ∨ m.state = .poweredOn ∨ (m.turns n).host.control.stop = true ∨
          ∃ k, n = k + 1 ∧ (m.turns k).step.2.host.control.release = true) := by
  refine ⟨fun m awake => within_step awake, fun m clocks pending back => ?_⟩
  have small := clocks.isLt
  have fours : (clocks.toNat : Int) - 0 ≤ 4 * ((clocks.toNat + 3) / 4 : Nat) := by omega
  obtain ⟨consumed, m', n, within, slice⟩ := exists_slice clocks.toNat _ pending back fours
  refine ⟨n, reported consumed, m'.dropStop, within, slice.run?_eq, fun more => ?_, ?_⟩
  · have most := slice.consumed_le pending back more
    rw [toNat_reported]
    omega
  · have least := slice.consumes_or_requested pending back (Int.le_refl 0) (by omega)
    rw [toNat_reported]
    exact least.imp_left fun enough => by omega

/-- A processor on an open bus of zeros, with an adjustment of 1000 cycles pending. -/
def pendingOnOpenBus : Machine Unit := zerosOnOpenBus.mapControl (·.charge 1000)

theorem touch_pendingOnOpenBus (host host' : Host Unit) (h : pendingOnOpenBus.wiring.Touch host host') :
    host'.control = host.control :=
  have quiet : pendingOnOpenBus.Quiet :=
    ⟨quiet_zerosOnOpenBus.supervisor, quiet_zerosOnOpenBus.user, quiet_zerosOnOpenBus.hooks⟩
  quiet.control_touch h

/-- One turn ends a run for four clocks: it consumes the step and what was pending. -/
theorem run_bounded_pending :
    (2 ∣ pendingOnOpenBus.step.1 ∧ 4 ≤ pendingOnOpenBus.step.1 ∧ pendingOnOpenBus.step.1 ≤ 252) ∧
      ∃ n ≤ 1, ∃ (r : BitVec 32) (m' : Machine Unit),
        (∀ limit, pendingOnOpenBus.run? limit 4 = if n ≤ limit then some (r, m') else none) ∧
        (r.toNat : Int) ≤ 4 + 251 + 1000 ∧
        (4 ≤ r.toNat ∨ pendingOnOpenBus.state = .poweredOn ∨
          (pendingOnOpenBus.turns n).host.control.stop = true ∨
          ∃ k, n = k + 1 ∧ (pendingOnOpenBus.turns k).step.2.host.control.release = true) := by
  refine ⟨run_bounded.1 pendingOnOpenBus (.inl rfl), ?_⟩
  have back := givesNothingBack_of_touch fun host host' touch =>
    Int.le_of_eq (congrArg Control.adjust (touch_pendingOnOpenBus host host' touch)).symm
  have more := addsNothing_of_touch fun host host' touch =>
    Int.le_of_eq (congrArg Control.adjust (touch_pendingOnOpenBus host host' touch))
  obtain ⟨n, r, m', turns, runs, most, least⟩ := run_bounded.2 pendingOnOpenBus 4 (by decide) back
  exact ⟨n, turns, r, m', runs, most more, least⟩

/-- No callback makes a request and nothing is to be given back, and yet a run for four clocks consumes more
than 251 cycles beyond them: those that were pending. -/
theorem overrun_of_pending :
    0 ≤ pendingOnOpenBus.host.control.adjust ∧
      (∀ host host', pendingOnOpenBus.wiring.Touch host host' → host'.control = host.control) ∧
      ∃ (r : BitVec 32) (m' : Machine Unit),
        pendingOnOpenBus.run? 1 4 = some (r, m') ∧ ¬r.toNat ≤ 4 + 251 := by
  refine ⟨by decide, touch_pendingOnOpenBus, ?_⟩
  have reports : (pendingOnOpenBus.run? 1 4).map Prod.fst = some 1008 := by decide +kernel
  cases found : pendingOnOpenBus.run? 1 4 with
  | none =>
    rw [found] at reports
    cases reports
  | some p =>
    obtain ⟨r, m'⟩ := p
    rw [found] at reports
    cases reports
    exact ⟨_, m', rfl, by decide⟩

end Machine

end MC68000
