import MC68000.Proofs.RunBounds

set_option autoImplicit false

namespace MC68000

variable {World : Type}

/-- Whether a request ends the slice at the boundary where it is seen. -/
def Control.EndsSlice (control : Control) : Prop := control.stop = true ∨ control.release = true

namespace Machine

theorem stop_turn (m : Machine World) :
    m.turn.2.2.host.control.stop = m.step.2.host.control.stop := by
  rw [turn_frame]

theorem release_turn (m : Machine World) : m.turn.2.2.host.control.release = false := by
  rw [turn_frame]

theorem turns_succ (m : Machine World) (n : Nat) : m.turns (n + 1) = (m.turns n).turn.2.2 := by
  induction n generalizing m with
  | zero => rfl
  | succ n ih => exact ih m.turn.2.2

theorem release_turns (m : Machine World) {n : Nat} (some : n ≠ 0) :
    (m.turns n).host.control.release = false := by
  obtain ⟨k, rfl⟩ := Nat.exists_eq_succ_of_ne_zero some
  rw [turns_succ]
  exact (m.turns k).release_turn

/-- Whatever its budget, a slice is over once a step has come to a request, if not before. -/
theorem exists_slice_of_request (budget consumed : Int) {m : Machine World} {k : Nat}
    (asks : (m.turns k).step.2.host.control.EndsSlice) :
    ∃ (consumed' : Int) (m' : Machine World), ∃ n ≤ k + 1, Slice budget consumed m consumed' m' n := by
  induction k generalizing consumed m with
  | zero =>
    refine exists_slice_succ fun _ _ go => ?_
    -- the turn goes on, so what its step came to is a request to stop
    have kept : m.step.2.host.control.release = false := m.released_turn.symm.trans go
    have stops : m.step.2.host.control.stop = true := asks.resolve_right (Bool.eq_false_iff.mp kept)
    exact ⟨_, _, 0, Nat.le_refl 0, .ended (.inr (.inl (m.stop_turn.trans stops)))⟩
  | succ k ih => exact exists_slice_succ fun _ _ _ => ih _ asks

namespace Slice

variable {budget consumed consumed' : Int} {m m' : Machine World} {n : Nat}

theorem stop_turns (h : Slice budget consumed m consumed' m' n) {k : Nat} (earlier : k < n) :
    (m.turns k).host.control.stop = false := by
  induction h generalizing k with
  | ended _ => exact absurd earlier (Nat.not_lt_zero k)
  | wait _ _ => exact absurd earlier (Nat.not_lt_zero k)
  | released on _ _ =>
    obtain rfl : k = 0 := Nat.lt_one_iff.mp earlier
    exact Bool.eq_false_iff.mpr fun asked => on (.inr (.inl asked))
  | turn on _ _ _ ih =>
    cases k with
    | zero => exact Bool.eq_false_iff.mpr fun asked => on (.inr (.inl asked))
    | succ k => exact ih (Nat.lt_of_succ_lt_succ earlier)

theorem exists_wait (h : Slice budget consumed m consumed' m' n) :
    ∃ wait : Nat, m' = ((m.turns n).charge wait).2 ∧ (wait = 0 ∨ (m.turns n).isIdle = true) := by
  have at_once (m : Machine World) : m = (m.charge (0 : Nat)).2 := by
    rw [Int.natCast_zero, charge_zero]
  induction h with
  | ended _ => exact ⟨0, at_once _, .inl rfl⟩
  | @wait consumed m on idle =>
    obtain ⟨left, same⟩ := Int.eq_ofNat_of_zero_le (Int.sub_nonneg_of_le (Int.le_of_lt (left_of_on on)))
    exact ⟨left, by rw [same]; rfl, .inr idle⟩
  | released _ _ _ => exact ⟨0, at_once _, .inl rfl⟩
  | turn _ _ _ _ ih => exact ih

/-- A slice of a budget takes no turn exactly where something other than the budget keeps it from one. -/
theorem no_turn_iff (h : Slice budget consumed m consumed' m' n) (left : consumed < budget) :
    n = 0 ↔ m.host.control.stop = true ∨ m.state = .poweredOn ∨ m.isIdle = true := by
  have later (on : ¬m.SliceOver budget consumed) (awake : m.isIdle = false) :
      ¬(m.host.control.stop = true ∨ m.state = .poweredOn ∨ m.isIdle = true) := by
    rintro (stop | off | idle)
    · exact on (.inr (.inl stop))
    · exact on (.inr (.inr off))
    · exact Bool.eq_false_iff.mp awake idle
  cases h with
  | ended ended =>
    refine iff_of_true rfl ?_
    rcases ended with enough | stop | off
    · exact absurd left (Int.not_lt.mpr enough)
    · exact .inl stop
    · exact .inr (.inl off)
  | wait _ idle => exact iff_of_true rfl (.inr (.inr idle))
  | released on awake _ => exact iff_of_false Nat.one_ne_zero (later on awake)
  | turn on awake _ _ => exact iff_of_false (Nat.succ_ne_zero _) (later on awake)

/-- A request to release outlives a slice that takes no turn. -/
theorem release_iff (h : Slice budget consumed m consumed' m' n) :
    m'.host.control.release = true ↔ m.host.control.release = true ∧ n = 0 := by
  obtain ⟨wait, rfl, -⟩ := h.exists_wait
  rw [charge_frame]
  cases n with
  | zero => exact (and_iff_left rfl).symm
  | succ n =>
    have taken := m.release_turns (Nat.succ_ne_zero n)
    exact iff_of_false (Bool.eq_false_iff.mp taken) fun kept => Nat.succ_ne_zero n kept.2

end Slice

/-- A step that comes to a request is the last of its run: the run has its answer then, if not before. So a
run takes its steps one after the other, none from a boundary at which a stop is asked for and none after a
request, and then at most waits. It leaves no request to stop. It leaves a request to release exactly where
this was pending and no step was made: because of a request to stop, or as there was none to make. -/
theorem requests_end_run (m : Machine World) (clocks : BitVec 32) :
    (∀ k, (m.turns k).step.2.host.control.EndsSlice → (m.run? (k + 1) clocks).isSome = true) ∧
    ∀ (limit : Nat) (r : BitVec 32) (m' : Machine World), m.run? limit clocks = some (r, m') →
      ∃ n ≤ limit, (∀ l, m.run? l clocks = if n ≤ l then some (r, m') else none) ∧
        (∃ wait : Nat, m' = ((m.turns n).charge wait).2.dropStop ∧
          (wait = 0 ∨ (m.turns n).isIdle = true)) ∧
        (∀ k < n, (m.turns k).host.control.stop = false ∧
          ((m.turns k).step.2.host.control.EndsSlice → n = k + 1)) ∧
        m'.host.control.stop = false ∧
        (0 < clocks.toNat → (m'.host.control.release = true ↔ m.host.control.release = true ∧
          (m.host.control.stop = true ∨ m.state = .poweredOn ∨ m.isIdle = true))) := by
  have answers : ∀ k, (m.turns k).step.2.host.control.EndsSlice →
      (m.run? (k + 1) clocks).isSome = true := by
    intro k asks
    obtain ⟨consumed, after, n, within, slice⟩ := exists_slice_of_request clocks.toNat 0 asks
    rw [slice.run?_eq, if_pos within]
    rfl
  refine ⟨answers, fun limit r m' h => ?_⟩
  obtain ⟨consumed, after, n, within, slice, rfl, rfl⟩ := exists_slice_of_run? h
  refine ⟨n, within, slice.run?_eq, ?_,
    fun k earlier => ⟨slice.stop_turns earlier, fun asks => ?_⟩, rfl, fun budget => ?_⟩
  · obtain ⟨wait, rfl, idle⟩ := slice.exists_wait
    exact ⟨wait, rfl, idle⟩
  · have enough : n ≤ k + 1 := by
      have answered := answers k asks
      rw [slice.run?_eq] at answered
      split at answered
      · assumption
      · cases answered
    omega
  · rw [← slice.no_turn_iff (Int.natCast_pos.mpr budget)]
    exact slice.release_iff

/-- A processor on an open bus of ones and zeros, where every opcode starts with 1010. The host has asked for
a release, and the hook for such opcodes asks for a stop. -/
def stoppedByHook : Machine Unit :=
  { new ⟨0x00FFFFFF, .openBus 0xAA⟩ ⟨#[], .none, ()⟩ (fun _ world => world) with
    state := .running
    hooks := Hooks.none.intercept .lineA fun _ r host =>
      (r, { host with control := host.control.requestStop }) }.mapControl (·.requestRelease)

/-- The first opcode ends a run, which takes both requests. -/
theorem requests_end_run_by_hook :
    stoppedByHook.step.2.host.control.EndsSlice ∧ 0 < (100#32).toNat ∧
      ∃ (r : BitVec 32) (m' : Machine Unit), stoppedByHook.run? 1 100 = some (r, m') ∧
        m'.host.control.stop = false ∧ m'.host.control.release = false := by
  have stops : stoppedByHook.step.2.host.control.stop = true := by decide +kernel
  refine ⟨.inl stops, by decide, ?_⟩
  obtain ⟨answers, ends⟩ := requests_end_run stoppedByHook 100
  obtain ⟨⟨r, m'⟩, found⟩ := Option.isSome_iff_exists.mp (answers 0 (.inl stops))
  obtain ⟨n, -, -, -, -, stop, release⟩ := ends 1 r m' found
  refine ⟨r, m', found, stop, Bool.eq_false_iff.mpr fun kept => ?_⟩
  obtain ⟨-, kept⟩ := (release (by decide)).mp kept
  exact absurd kept (by decide)

/-- A processor that is stopped until an interrupt, and the host has asked for a release. -/
def releasedWhileStopped : Machine Unit :=
  { zerosOnOpenBus with
    registers := { Registers.initial with status := 0x2000 }
    state := .stopped }.mapControl (·.requestRelease)

/-- A stopped processor waits out a run and leaves the request to release, which shortens a later run: this
ends with the interrupt, where it would consume its budget without the request. -/
theorem release_outlives_wait :
    ∃ (previous : Option InterruptVector) (m₁ m₂ m₃ m₄ : Machine Unit),
      releasedWhileStopped.run? 0 100 = some (100, m₁) ∧ m₁.host.control.release = true ∧
        m₁.raiseInterrupt 7 .autovector = .ok (previous, m₂) ∧ m₂.run? 1 100 = some (44, m₃) ∧
        (m₂.mapControl fun _ => .none).run? 8 100 = some (100, m₄) := by
  have runs : ((releasedWhileStopped.run? 0 100).bind fun first =>
      (first.2.raiseInterrupt 7 .autovector).toOption.bind fun raised =>
        (raised.2.run? 1 100).bind fun second =>
          ((raised.2.mapControl fun _ => .none).run? 8 100).map fun clean =>
            (first.1, first.2.host.control.release, second.1, clean.1)) =
      some (100, true, 44, 100) := by decide +kernel
  obtain ⟨⟨r₁, m₁⟩, first, runs⟩ := Option.bind_eq_some_iff.mp runs
  obtain ⟨⟨previous, m₂⟩, raised, runs⟩ := Option.bind_eq_some_iff.mp runs
  obtain ⟨⟨r₂, m₃⟩, second, runs⟩ := Option.bind_eq_some_iff.mp runs
  obtain ⟨⟨r₃, m₄⟩, clean, runs⟩ := Option.map_eq_some_iff.mp runs
  dsimp only at first raised second clean runs
  simp only [Prod.mk.injEq] at runs
  obtain ⟨rfl, kept, rfl, rfl⟩ := runs
  refine ⟨previous, m₁, m₂, m₃, m₄, first, kept, ?_, second, clean⟩
  cases found : m₁.raiseInterrupt 7 .autovector with
  | error _ =>
    rw [found] at raised
    cases raised
  | ok _ =>
    rw [found] at raised
    cases raised
    rfl

end Machine

end MC68000
