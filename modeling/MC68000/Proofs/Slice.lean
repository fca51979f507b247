import MC68000.Proofs.Step

set_option autoImplicit false

namespace MC68000

variable {World : Type}

namespace Machine

/-- One turn of the run loop: whether a request ends the slice, what was consumed, and the machine. -/
def turn (m : Machine World) : Bool × Int × Machine World :=
  let (cost, m) := m.step
  let (adjusted, m) := m.settleAdjustment
  let (released, m) := m.dropRelease
  (released, cost + adjusted, m)

/-- After its step a turn touches the accounts, and takes the adjustment and the request to release. -/
theorem turn_frame (m : Machine World) :
    m.turn.2.2 = { m.step.2 with
      cycles := m.turn.2.2.cycles
      total := m.turn.2.2.total
      host := { m.step.2.host with
        control := { m.step.2.host.control with release := false, adjust := 0 } } } := by
  unfold turn settleAdjustment dropRelease
  dsimp only
  rw [charge_frame]
  rfl

/-- A turn ends the slice where its step has come to a request to release. -/
theorem released_turn (m : Machine World) : m.turn.1 = m.step.2.host.control.release := by
  unfold turn settleAdjustment dropRelease
  dsimp only
  rw [charge_frame]
  rfl

theorem state_turn (m : Machine World) : m.turn.2.2.state = m.step.2.state := by
  rw [turn_frame]

theorem wiring_turn (m : Machine World) : m.turn.2.2.wiring = m.wiring := by
  rw [turn_frame]
  exact m.evolves_step.wiring

/-- Whether a slice is over at an instruction boundary. -/
def SliceOver (m : Machine World) (budget consumed : Int) : Prop :=
  budget ≤ consumed ∨ m.host.control.stop = true ∨ m.state = .poweredOn

/-- A slice from a machine and an amount consumed to a machine and an amount consumed, and the number of
its turns. The function that runs a slice within a number of turns computes this relation. -/
inductive Slice (budget : Int) : Int → Machine World → Int → Machine World → Nat → Prop
  | ended {consumed : Int} {m : Machine World} (ended : m.SliceOver budget consumed) :
      Slice budget consumed m consumed m 0
  | wait {consumed : Int} {m : Machine World} (on : ¬m.SliceOver budget consumed)
      (idle : m.isIdle = true) :
      Slice budget consumed m (consumed + (m.charge (budget - consumed)).1)
        (m.charge (budget - consumed)).2 0
  | released {consumed : Int} {m : Machine World} (on : ¬m.SliceOver budget consumed)
      (awake : m.isIdle = false) (release : m.turn.1 = true) :
      Slice budget consumed m (consumed + m.turn.2.1) m.turn.2.2 1
  | turn {consumed consumed' : Int} {m m' : Machine World} {n : Nat}
      (on : ¬m.SliceOver budget consumed) (awake : m.isIdle = false) (go : m.turn.1 = false)
      (rest : Slice budget (consumed + m.turn.2.1) m.turn.2.2 consumed' m' n) :
      Slice budget consumed m consumed' m' (n + 1)

section

variable {budget consumed consumed' : Int} {m m' : Machine World}

theorem runSlice_of_over (limit : Nat) (ended : m.SliceOver budget consumed) :
    runSlice budget limit consumed m = some (consumed, m) := by
  unfold runSlice
  exact if_pos ended

theorem runSlice_of_idle (limit : Nat) (on : ¬m.SliceOver budget consumed)
    (idle : m.isIdle = true) : runSlice budget limit consumed m =
      some (consumed + (m.charge (budget - consumed)).1, (m.charge (budget - consumed)).2) := by
  unfold runSlice
  exact (if_neg on).trans (if_pos idle)

theorem runSlice_zero (on : ¬m.SliceOver budget consumed) (awake : m.isIdle = false) :
    runSlice budget 0 consumed m = none := by
  unfold runSlice
  exact (if_neg on).trans (if_neg (Bool.not_eq_true _ ▸ awake))

theorem runSlice_succ (limit : Nat) (on : ¬m.SliceOver budget consumed)
    (awake : m.isIdle = false) : runSlice budget (limit + 1) consumed m =
      if m.turn.1 = true then some (consumed + m.turn.2.1, m.turn.2.2)
      else runSlice budget limit (consumed + m.turn.2.1) m.turn.2.2 := by
  rw [runSlice]
  refine ((if_neg on).trans (if_neg (Bool.not_eq_true _ ▸ awake))).trans ?_
  simp only [turn, Int.add_assoc]
  rfl

theorem slice_of_runSlice {limit : Nat} {consumed : Int} {m : Machine World}
    (h : runSlice budget limit consumed m = some (consumed', m')) :
    ∃ n ≤ limit, Slice budget consumed m consumed' m' n := by
  by_cases ended : m.SliceOver budget consumed
  · rw [runSlice_of_over limit ended] at h
    cases h
    exact ⟨0, Nat.zero_le limit, .ended ended⟩
  cases idle : m.isIdle with
  | true =>
    rw [runSlice_of_idle limit ended idle] at h
    cases h
    exact ⟨0, Nat.zero_le limit, .wait ended idle⟩
  | false =>
    cases limit with
    | zero =>
      rw [runSlice_zero ended idle] at h
      cases h
    | succ limit =>
      rw [runSlice_succ limit ended idle] at h
      cases released : m.turn.1 with
      | true =>
        rw [if_pos released] at h
        cases h
        exact ⟨1, Nat.succ_le_succ (Nat.zero_le limit), .released ended idle released⟩
      | false =>
        rw [if_neg (Bool.not_eq_true _ ▸ released)] at h
        obtain ⟨n, within, rest⟩ := slice_of_runSlice h
        exact ⟨n + 1, Nat.succ_le_succ within, .turn ended idle released rest⟩

/-- A slice of the relation is computed within any larger number of turns. -/
theorem Slice.runSlice {n : Nat} (h : Slice budget consumed m consumed' m' n) {limit : Nat}
    (within : n ≤ limit) : runSlice budget limit consumed m = some (consumed', m') := by
  induction h generalizing limit with
  | ended ended => exact runSlice_of_over limit ended
  | wait on idle => exact runSlice_of_idle limit on idle
  | released on awake release =>
    obtain ⟨limit, rfl⟩ : ∃ k, limit = k + 1 := ⟨limit - 1, by omega⟩
    rw [runSlice_succ limit on awake, if_pos release]
  | turn on awake go rest ih =>
    obtain ⟨limit, rfl⟩ : ∃ k, limit = k + 1 := ⟨limit - 1, by omega⟩
    rw [runSlice_succ limit on awake, if_neg (Bool.not_eq_true _ ▸ go)]
    exact ih (by omega)

/-- A slice of the relation is not completed within fewer turns. -/
theorem Slice.runSlice_eq_none {n : Nat} (h : Slice budget consumed m consumed' m' n) {limit : Nat}
    (short : limit < n) : Machine.runSlice budget limit consumed m = none := by
  induction h generalizing limit with
  | ended ended => exact absurd short (Nat.not_lt_zero limit)
  | wait on idle => exact absurd short (Nat.not_lt_zero limit)
  | released on awake release =>
    obtain rfl : limit = 0 := by omega
    exact runSlice_zero on awake
  | turn on awake go rest ih =>
    cases limit with
    | zero => exact runSlice_zero on awake
    | succ limit =>
      rw [runSlice_succ limit on awake, if_neg (Bool.not_eq_true _ ▸ go)]
      exact ih (by omega)

end

/-- The cycles that a run reports. -/
def reported (consumed : Int) : BitVec 32 := BitVec.ofNat 32 (min consumed.toNat 0xFFFFFFFF)

theorem toNat_reported (consumed : Int) :
    (reported consumed).toNat = min consumed.toNat 0xFFFFFFFF := by
  rw [reported, BitVec.toNat_ofNat]
  omega

def dropStop (m : Machine World) : Machine World :=
  m.mapControl fun control => { control with stop := false }

/-- A run takes as many turns as its slice, and has no answer within fewer. -/
theorem Slice.run?_eq {m m' : Machine World} {clocks : BitVec 32} {consumed : Int} {n : Nat}
    (h : Slice clocks.toNat 0 m consumed m' n) (limit : Nat) :
    m.run? limit clocks = if n ≤ limit then some (reported consumed, m'.dropStop) else none := by
  unfold Machine.run?
  split
  next enough =>
    rw [h.runSlice enough]
    rfl
  next short =>
    rw [h.runSlice_eq_none (Nat.not_le.mp short)]
    rfl

theorem exists_slice_of_run? {limit : Nat} {m m' : Machine World} {clocks r : BitVec 32}
    (h : m.run? limit clocks = some (r, m')) :
    ∃ (consumed : Int) (after : Machine World), ∃ n ≤ limit,
      Slice clocks.toNat 0 m consumed after n ∧ r = reported consumed ∧ m' = after.dropStop := by
  unfold run? at h
  cases found : Machine.runSlice clocks.toNat limit 0 m with
  | none =>
    rw [found] at h
    cases h
  | some result =>
    rw [found] at h
    cases h
    obtain ⟨n, within, slice⟩ := slice_of_runSlice found
    exact ⟨result.1, result.2, n, within, slice, rfl, rfl⟩

end Machine

end MC68000
