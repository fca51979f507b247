import MC68000.Proofs.Slice

set_option autoImplicit false

namespace MC68000

variable {World : Type}

/-- No device of a table makes a request of the run loop. -/
structure RegionTable.Quiet (table : RegionTable World) : Prop where
  readByte : ∀ region ∈ table.readByte, ∀ device, region.target = .device device →
    ∀ address host, (device address host).2.control = host.control
  readWord : ∀ region ∈ table.readWord, ∀ device, region.target = .device device →
    ∀ address host, (device address host).2.control = host.control
  writeByte : ∀ region ∈ table.writeByte, ∀ device, region.target = .device device →
    ∀ address value host, (device address value host).control = host.control
  writeWord : ∀ region ∈ table.writeWord, ∀ device, region.target = .device device →
    ∀ address value host, (device address value host).control = host.control

structure Hooks.Quiet (hooks : Hooks World) : Prop where
  reset : ∀ hook, hooks.reset = some hook → ∀ host, (hook host).control = host.control
  acknowledge : ∀ hook, hooks.acknowledge = some hook →
    ∀ level host, (hook level host).control = host.control
  vectors : ∀ vector hook, hooks.vectors vector = some hook →
    ∀ r host, (hook vector r host).2.control = host.control

/-- Nothing that a machine calls makes a request of the run loop. -/
structure Machine.Quiet (m : Machine World) : Prop where
  supervisor : m.memory.supervisor.Quiet
  user : m.memory.user.Quiet
  hooks : m.hooks.Quiet

namespace RegionTable.Quiet

variable {table : RegionTable World}

theorem control_dataByte (quiet : table.Quiet) (address : BitVec 32) (host : Host World) :
    (table.dataByte address host).2.control = host.control := by
  unfold dataByte
  split
  next => rfl
  next => rfl
  next range device found =>
    exact quiet.readByte _ (List.mem_of_find?_eq_some found) device rfl address host

theorem control_dataWord (quiet : table.Quiet) (address : BitVec 32) (host : Host World) :
    (table.dataWord address host).2.control = host.control := by
  unfold dataWord
  split
  next => rfl
  next => rfl
  next range device found =>
    exact quiet.readWord _ (List.mem_of_find?_eq_some found) device rfl address host

theorem control_putByte (quiet : table.Quiet) (address : BitVec 32) (value : BitVec 8)
    (host : Host World) : (table.putByte address value host).2.control = host.control := by
  unfold putByte
  split
  next => rfl
  next => rfl
  next range device found =>
    exact quiet.writeByte _ (List.mem_of_find?_eq_some found) device rfl address value host

theorem control_putWord (quiet : table.Quiet) (address : BitVec 32) (value : BitVec 16)
    (host : Host World) : (table.putWord address value host).2.control = host.control := by
  unfold putWord
  split
  next => rfl
  next => rfl
  next range device found =>
    exact quiet.writeWord _ (List.mem_of_find?_eq_some found) device rfl address value host

end RegionTable.Quiet

namespace Machine

theorem Quiet.table {m : Machine World} (quiet : m.Quiet) (space : AddressSpace) :
    (m.memory.table space).Quiet := by
  unfold MemoryMap.table
  split
  · exact quiet.supervisor
  · exact quiet.user

theorem Quiet.control_perform {m : Machine World} (quiet : m.Quiet) (b : BusCycle)
    (host : Host World) : (m.memory.perform b host).control = host.control := by
  unfold MemoryMap.perform
  cases b.transfer with
  | readByte =>
    dsimp only
    unfold MemoryMap.peekByte
    dsimp only
    split
    · rfl
    · exact (quiet.table b.space).control_dataByte _ host
  | readWord =>
    dsimp only
    unfold MemoryMap.peekWord
    dsimp only
    split
    · rfl
    · exact (quiet.table b.space).control_dataWord _ host
  | writeByte value => exact (quiet.table b.space).control_putByte _ value host
  | writeWord value => exact (quiet.table b.space).control_putWord _ value host

theorem Quiet.control_touch {m : Machine World} (quiet : m.Quiet) {host after : Host World}
    (h : m.wiring.Touch host after) : after.control = host.control := by
  cases h with
  | cycle b _ => exact quiet.control_perform b host
  | record _ => rfl
  | reset present => exact quiet.hooks.reset _ present host
  | acknowledge present level => exact quiet.hooks.acknowledge _ present level host
  | vector present r => exact quiet.hooks.vectors _ _ present r host

theorem Quiet.evolves {m m' : Machine World} (quiet : m.Quiet) (h : m.Evolves m') : m'.Quiet := by
  refine ⟨?_, ?_, ?_⟩
  · rw [h.memory]
    exact quiet.supervisor
  · rw [h.memory]
    exact quiet.user
  · rw [h.hooks]
    exact quiet.hooks

/-- While nothing makes a request, none is pending. -/
theorem Quiet.control_evolves {m m' : Machine World} (quiet : m.Quiet) (h : m.Evolves m')
    (none : m.host.control = .none) : m'.host.control = .none :=
  h.invariant (p := fun host => host.control = .none)
    (fun _ _ touch same => (quiet.control_touch touch).trans same) none

theorem mapControl_self (m : Machine World) {f : Control → Control}
    (same : f m.host.control = m.host.control) : m.mapControl f = m := by
  unfold mapControl
  rw [same]

theorem charge_zero (m : Machine World) : m.charge 0 = (0, m) := by
  have cycles : m.cycles + BitVec.ofNat 32 0 = m.cycles := BitVec.add_zero _
  unfold charge
  simp only [Int.natAbs_zero, Nat.zero_min, Int.le_refl, if_true, cycles]
  rfl

theorem Quiet.turn_eq {m : Machine World} (quiet : m.Quiet) (none : m.host.control = .none) :
    m.turn = (false, (m.step.1 : Int), m.step.2) := by
  have after := quiet.control_evolves m.evolves_step none
  have settled : m.step.2.settleAdjustment = (0, m.step.2) := by
    unfold settleAdjustment
    rw [mapControl_self _ (by rw [after]; rfl), after]
    exact charge_zero _
  have kept : m.step.2.dropRelease = (false, m.step.2) := by
    unfold dropRelease
    rw [mapControl_self _ (by rw [after]; rfl), after]
    rfl
  unfold turn
  dsimp only
  rw [settled]
  dsimp only
  rw [kept, Int.add_zero]

/-- Waiting in two pieces is waiting in one. -/
theorem charge_charge (m : Machine World) {x y : Nat} (small : x + y ≤ 0xFFFFFFFF) :
    ((m.charge x).2.charge y).2 = (m.charge ((x + y : Nat) : Int)).2 := by
  rw [charge_of_nonneg m (by omega : x ≤ 0xFFFFFFFF), charge_of_nonneg _ (by omega : y ≤ 0xFFFFFFFF),
    charge_of_nonneg m small]
  simp only [BitVec.add_assoc, BitVec.ofNat_add, Ticks.add, Nat.add_assoc]

theorem isIdle_charge (m : Machine World) (cycles : Int) :
    (m.charge cycles).2.isIdle = m.isIdle := by
  rw [charge_frame]
  rfl

theorem on_of_isIdle {m : Machine World} (idle : m.isIdle = true) : m.state ≠ .poweredOn := by
  intro off
  rw [isIdle, off] at idle
  exact Bool.false_ne_true idle

namespace Slice

variable {budget consumed consumed' : Int} {m m' : Machine World} {n : Nat}

theorem left_of_on (on : ¬m.SliceOver budget consumed) : consumed < budget :=
  Int.not_le.mp fun enough => on (.inl enough)

theorem over_shift (budget consumed d : Int) (m : Machine World) :
    m.SliceOver (budget + d) (consumed + d) ↔ m.SliceOver budget consumed := by
  unfold SliceOver
  rw [Int.add_le_add_iff_right]

/-- A slice looks only at what is left of its budget. -/
theorem shift (h : Slice budget consumed m consumed' m' n) (d : Int) :
    Slice (budget + d) (consumed + d) m (consumed' + d) m' n := by
  induction h with
  | ended ended => exact .ended ((over_shift ..).mpr ended)
  | @wait consumed m on idle =>
    have waits := Slice.wait (mt (over_shift budget consumed d m).mp on) idle
    rwa [Int.add_sub_add_right, Int.add_right_comm] at waits
  | @released consumed m on awake release =>
    have ends := Slice.released (mt (over_shift budget consumed d m).mp on) awake release
    rwa [Int.add_right_comm] at ends
  | turn on awake go rest ih =>
    rw [Int.add_right_comm] at ih
    exact .turn (mt (over_shift ..).mp on) awake go ih

theorem evolves (h : Slice budget consumed m consumed' m' n) (quiet : m.Quiet)
    (none : m.host.control = .none) : m.Evolves m' := by
  induction h with
  | ended _ => exact .refl _
  | wait _ _ => exact evolves_charge _ _
  | released _ _ release =>
    rw [quiet.turn_eq none] at release
    cases release
  | @turn _ _ m _ _ _ _ _ _ ih =>
    rw [quiet.turn_eq none] at ih
    have step := m.evolves_step
    exact step.trans (ih (quiet.evolves step) (quiet.control_evolves step none))

theorem grows (h : Slice budget consumed m consumed' m' n) (quiet : m.Quiet)
    (none : m.host.control = .none) : consumed ≤ consumed' := by
  induction h with
  | ended _ => exact Int.le_refl _
  | @wait consumed m on idle =>
    have before := left_of_on on
    obtain ⟨left, same⟩ := Int.eq_ofNat_of_zero_le (show 0 ≤ budget - consumed by omega)
    rw [same, charge, if_pos (Int.natCast_nonneg left)]
    dsimp only
    omega
  | released _ _ release =>
    rw [quiet.turn_eq none] at release
    cases release
  | @turn consumed consumed' m m' n going awake go rest ih =>
    rw [quiet.turn_eq none] at ih
    have step := m.evolves_step
    have more := ih (quiet.evolves step) (quiet.control_evolves step none)
    dsimp only at more
    omega

theorem consumes (h : Slice budget consumed m consumed' m' n) (quiet : m.Quiet)
    (none : m.host.control = .none) (on : m.state ≠ .poweredOn) (start : 0 ≤ consumed)
    (small : budget ≤ 0xFFFFFFFF) : budget ≤ consumed' := by
  induction h with
  | @ended consumed m ended =>
    rcases ended with enough | stop | off
    · exact enough
    · rw [none] at stop
      cases stop
    · exact absurd off on
  | @wait consumed m going idle =>
    have before := left_of_on going
    obtain ⟨left, same⟩ := Int.eq_ofNat_of_zero_le (show 0 ≤ budget - consumed by omega)
    rw [same, charge_of_nonneg m (by omega)]
    dsimp only
    omega
  | released _ _ release =>
    rw [quiet.turn_eq none] at release
    cases release
  | @turn consumed consumed' m m' n going awake go rest ih =>
    rw [quiet.turn_eq none] at ih
    have step := m.evolves_step
    exact ih (quiet.evolves step) (quiet.control_evolves step none) (state_step on) (by dsimp only; omega)

/-- A larger budget that is consumed all the same makes no difference. -/
theorem stretch (h : Slice budget consumed m consumed' m' n) (larger : Int) (quiet : m.Quiet)
    (none : m.host.control = .none) (start : 0 ≤ consumed) (small : budget ≤ 0xFFFFFFFF)
    (more : budget ≤ larger) (within : larger ≤ consumed') :
    Slice larger consumed m consumed' m' n := by
  induction h with
  | ended ended =>
    exact .ended (.inl within)
  | @wait consumed m on idle =>
    have before := left_of_on on
    obtain ⟨left, same⟩ := Int.eq_ofNat_of_zero_le (show 0 ≤ budget - consumed by omega)
    have whole : larger = budget := by
      rw [same, charge_of_nonneg m (by omega)] at within
      dsimp only at within
      omega
    rw [whole]
    exact .wait on idle
  | released _ _ release =>
    rw [quiet.turn_eq none] at release
    cases release
  | @turn consumed consumed' m m' n on awake go rest ih =>
    have before := left_of_on on
    have stillOn : ¬m.SliceOver larger consumed := fun ended =>
      on (ended.imp_left fun enough => by omega)
    refine .turn stillOn awake go ?_
    rw [quiet.turn_eq none] at ih ⊢
    have step := m.evolves_step
    exact ih (quiet.evolves step) (quiet.control_evolves step none) (by dsimp only; omega) within

/-- An idle machine waits in one piece as it waits in two. -/
theorem wait_append {b second : Int} {m₂ : Machine World} {n₂ : Nat}
    (on : ¬m.SliceOver budget consumed) (idle : m.isIdle = true) (start : 0 ≤ consumed)
    (next : Slice b 0 (m.charge (budget - consumed)).2 second m₂ n₂)
    (none : m.host.control = .none) (nonneg : 0 ≤ b) (fits : budget + b ≤ 0xFFFFFFFF) :
    Slice (budget + b) consumed m (budget + second) m₂ n₂ := by
  have before := left_of_on on
  obtain ⟨left, same⟩ := Int.eq_ofNat_of_zero_le (show 0 ≤ budget - consumed by omega)
  obtain ⟨more, rfl⟩ := Int.eq_ofNat_of_zero_le nonneg
  have whole : budget + more - consumed = ((left + more : Nat) : Int) := by omega
  have amount : (m.charge ((left + more : Nat) : Int)).1 = ((left + more : Nat) : Int) := by
    rw [charge_of_nonneg m (by omega)]
  have stillOn : ¬m.SliceOver (budget + more) consumed := fun ended =>
    on (ended.imp_left fun enough => by omega)
  have waits := Slice.wait stillOn idle
  rw [whole, amount] at waits
  rw [same] at next
  have after : (m.charge left).2.isIdle = true := (isIdle_charge m left).trans idle
  cases next with
  | ended ended =>
    have zero : more = 0 := by
      rcases ended with enough | stop | off
      · omega
      · rw [charge_frame] at stop
        rw [show m.host.control.stop = _ from congrArg Control.stop none] at stop
        cases stop
      · exact absurd off (on_of_isIdle after)
    subst zero
    rw [show consumed + ((left + 0 : Nat) : Int) = budget + 0 by omega] at waits
    exact waits
  | wait _ _ =>
    rw [← charge_charge m (by omega)] at waits
    have second : ((m.charge left).2.charge more).1 = (more : Int) := by
      rw [charge_of_nonneg _ (by omega : more ≤ 0xFFFFFFFF)]
    rw [Int.sub_zero, second, show budget + (0 + (more : Int)) = consumed + ((left + more : Nat) : Int)
      by omega]
    exact waits
  | released _ awake _ =>
    rw [after] at awake
    cases awake
  | turn _ awake _ _ =>
    rw [after] at awake
    cases awake

/-- A slice goes on where another has ended. -/
theorem append {b second : Int} {m₂ : Machine World} {n₂ : Nat}
    (h : Slice budget consumed m consumed' m' n) (next : Slice b 0 m' second m₂ n₂)
    (quiet : m.Quiet) (none : m.host.control = .none) (start : 0 ≤ consumed)
    (small : budget ≤ 0xFFFFFFFF) (nonneg : 0 ≤ b) (fits : consumed' + b ≤ 0xFFFFFFFF) :
    Slice (consumed' + b) consumed m (consumed' + second) m₂ (n + n₂) := by
  induction h with
  | @ended consumed m ended =>
    have shifted := next.shift consumed
    rwa [Int.zero_add, Int.add_comm b, Int.add_comm second, ← Nat.zero_add n₂] at shifted
  | @wait consumed m on idle =>
    have before := left_of_on on
    obtain ⟨left, same⟩ := Int.eq_ofNat_of_zero_le (show 0 ≤ budget - consumed by omega)
    have reached : consumed + (m.charge (budget - consumed)).1 = budget := by
      rw [same, charge_of_nonneg m (by omega)]
      dsimp only
      omega
    -- a machine that waits at the end of the first slice waits on in the second
    rw [reached] at fits ⊢
    rw [Nat.zero_add]
    exact wait_append on idle start next none nonneg fits
  | released _ _ release =>
    rw [quiet.turn_eq none] at release
    cases release
  | @turn consumed consumed' m m' n on awake go rest ih =>
    have state : m.state ≠ .poweredOn := fun off => on (.inr (.inr off))
    have before := left_of_on on
    have consumes := (Slice.turn on awake go rest).consumes quiet none state start small
    have stillOn : ¬m.SliceOver (consumed' + b) consumed := fun ended =>
      on (ended.imp_left fun enough => by omega)
    rw [Nat.add_right_comm]
    refine .turn stillOn awake go ?_
    rw [quiet.turn_eq none] at ih ⊢
    have step := m.evolves_step
    exact ih next (quiet.evolves step) (quiet.control_evolves step none) (by dsimp only; omega) fits

end Slice

theorem Quiet.dropStop_eq {m : Machine World} (quiet : m.Quiet) {m' : Machine World}
    (none : m.host.control = .none) (h : m.Evolves m') : m'.dropStop = m' :=
  mapControl_self m' (by rw [quiet.control_evolves h none]; rfl)

theorem slice_of_run? {limit : Nat} {m m' : Machine World} {clocks r : BitVec 32}
    (h : m.run? limit clocks = some (r, m')) (quiet : m.Quiet) (none : m.host.control = .none) :
    ∃ consumed, ∃ n ≤ limit, Slice clocks.toNat 0 m consumed m' n ∧ r = reported consumed := by
  obtain ⟨consumed, after, n, within, slice, rfl, rfl⟩ := exists_slice_of_run? h
  rw [quiet.dropStop_eq none (slice.evolves quiet none)]
  exact ⟨consumed, n, within, slice, rfl⟩

theorem Slice.run? {limit n : Nat} {m m' : Machine World} {clocks : BitVec 32} {consumed : Int}
    (h : Slice clocks.toNat 0 m consumed m' n) (within : n ≤ limit) (quiet : m.Quiet)
    (none : m.host.control = .none) : m.run? limit clocks = some (reported consumed, m') := by
  rw [h.run?_eq, if_pos within, quiet.dropStop_eq none (h.evolves quiet none)]

/-- Two runs one after the other are one run. It takes no more turns than the two together, ends in the
machine in which the second ends, and reports the sum of what they report. A sum beyond 32 bits is reported
as the highest number of 32 bits. -/
theorem run_append {m m₁ m₂ : Machine World} {a b r₁ r₂ : BitVec 32} {l₁ l₂ : Nat}
    (quiet : m.Quiet) (none : m.host.control = .none) (first : m.run? l₁ a = some (r₁, m₁))
    (second : m₁.run? l₂ b = some (r₂, m₂)) (fits : r₁.toNat + b.toNat ≤ 0xFFFFFFFF) (limit : Nat)
    (enough : l₁ + l₂ ≤ limit) :
    (r₁.toNat + r₂.toNat ≤ 0xFFFFFFFF → m.run? limit (r₁ + b) = some (r₁ + r₂, m₂)) ∧
      m.run? limit (r₁ + b) =
        some (BitVec.ofNat 32 (min (r₁.toNat + r₂.toNat) 0xFFFFFFFF), m₂) := by
  suffices whole : m.run? limit (r₁ + b) =
      some (BitVec.ofNat 32 (min (r₁.toNat + r₂.toNat) 0xFFFFFFFF), m₂) by
    refine ⟨fun small => ?_, whole⟩
    rw [whole, Nat.min_eq_left small, BitVec.ofNat_add, BitVec.ofNat_toNat, BitVec.ofNat_toNat,
      BitVec.setWidth_eq, BitVec.setWidth_eq]
  obtain ⟨c₁, n₁, within₁, slice₁, rfl⟩ := slice_of_run? first quiet none
  have evolves := slice₁.evolves quiet none
  have none₁ := quiet.control_evolves evolves none
  obtain ⟨c₂, n₂, within₂, slice₂, rfl⟩ := slice_of_run? second (quiet.evolves evolves) none₁
  have positive₁ := slice₁.grows quiet none
  have positive₂ := slice₂.grows (quiet.evolves evolves) none₁
  have small := a.isLt
  have budget : (reported c₁ + b).toNat = (reported c₁).toNat + b.toNat := by
    rw [BitVec.toNat_add]
    omega
  rw [toNat_reported] at fits budget
  rw [toNat_reported, toNat_reported]
  by_cases exact : c₁ ≤ 0xFFFFFFFF
  · have whole := slice₁.append slice₂ quiet none (Int.le_refl 0) (by omega) (by omega) (by omega)
    rw [show c₁ + (b.toNat : Int) = (reported c₁ + b).toNat by omega] at whole
    rw [whole.run? (by omega) quiet none]
    exact congrArg (fun consumed => some (BitVec.ofNat 32 consumed, m₂)) (by omega)
  · -- the first run already reports all that 32 bits hold, so the second has no budget
    have empty : b.toNat = 0 := by omega
    obtain ⟨rfl, rfl⟩ : c₂ = 0 ∧ m₂ = m₁ := by
      cases slice₂ with
      | ended _ => exact ⟨rfl, rfl⟩
      | wait on _ => exact absurd (.inl (by omega)) on
      | released on _ _ => exact absurd (.inl (by omega)) on
      | turn on _ _ _ => exact absurd (.inl (by omega)) on
    have whole := slice₁.stretch (reported c₁ + b).toNat quiet none (Int.le_refl 0)
      (by omega) (by omega) (by omega)
    rw [whole.run? (by omega) quiet none]
    exact congrArg (fun consumed => some (BitVec.ofNat 32 consumed, m₂)) (by omega)

/-- A processor on an open bus of zeros, where every instruction is ORI.B #0,D0 and takes 8 cycles. -/
def zerosOnOpenBus : Machine Unit :=
  { new ⟨0x00FFFFFF, .openBus 0⟩ ⟨#[], .none, ()⟩ (fun _ world => world) with state := .running }

theorem quiet_zerosOnOpenBus : zerosOnOpenBus.Quiet :=
  ⟨⟨nofun, nofun, nofun, nofun⟩, ⟨nofun, nofun, nofun, nofun⟩, ⟨nofun, nofun, nofun⟩⟩

/-- Budgets of 10 cycles are overrun by 6 each, and so is one of 26. -/
theorem run_append_on_open_bus :
    ∃ m₁ m₂ : Machine Unit, zerosOnOpenBus.run? 2 10 = some (16, m₁) ∧
      m₁.run? 2 10 = some (16, m₂) ∧ zerosOnOpenBus.run? 4 26 = some (32, m₂) := by
  have twice : ((zerosOnOpenBus.run? 2 10).bind fun p => (p.2.run? 2 10).map fun q => (p.1, q.1)) =
      some (16, 16) := by decide +kernel
  cases first : zerosOnOpenBus.run? 2 10 with
  | none =>
    rw [first] at twice
    cases twice
  | some p =>
    obtain ⟨r₁, m₁⟩ := p
    cases second : m₁.run? 2 10 with
    | none =>
      rw [first, Option.bind_some, second] at twice
      cases twice
    | some q =>
      obtain ⟨r₂, m₂⟩ := q
      rw [first, Option.bind_some, second] at twice
      cases twice
      exact ⟨m₁, m₂, rfl, second,
        (run_append quiet_zerosOnOpenBus rfl first second (by decide) 4 (by decide)).1 (by decide)⟩

end Machine

end MC68000
