import MC68000.Proofs.History

set_option autoImplicit false

namespace MC68000

variable {World : Type}

namespace InterruptLines

theorem mem_levels {level : Fin 8} (h : 0 < level.val) : level ∈ levels := by
  revert level
  decide

theorem levels_descending : levels.Pairwise (· > ·) := by decide

theorem isPending_of_ge (lines : InterruptLines) {level : Nat} (h : 8 ≤ level) :
    lines.isPending level = false := BitVec.getLsbD_of_ge _ _ h

/-- The level that is found is pending, lies above the mask, and is the highest that is pending. -/
theorem highestAbove_eq_some {lines : InterruptLines} {mask : Nat} {level : Fin 8}
    (h : lines.highestAbove mask = some level) :
    mask < level ∧ lines.isPending level = true ∧
      ∀ other, lines.isPending other = true → other ≤ level := by
  obtain ⟨accepted, before, after, split, refused⟩ := List.find?_eq_some_iff_append.mp h
  rw [Bool.and_eq_true, decide_eq_true_eq] at accepted
  refine ⟨accepted.1, accepted.2, fun other pending => ?_⟩
  by_cases small : other < 8
  · apply Nat.le_of_not_lt
    intro higher
    have member : (⟨other, small⟩ : Fin 8) ∈ levels := mem_levels (by dsimp only; omega)
    have descending := levels_descending
    rw [split] at member descending
    rcases List.mem_append.mp member with early | late
    · have refusal := refused _ early
      rw [Bool.not_eq_true', Bool.and_eq_false_iff] at refusal
      rcases refusal with masked | clear
      · rw [decide_eq_false_iff_not] at masked
        dsimp only at masked
        omega
      · rw [pending] at clear
        cases clear
    · rcases List.mem_cons.mp late with same | below
      · have equal : other = level.val := congrArg Fin.val same
        omega
      · have lower := (List.pairwise_cons.mp (List.pairwise_append.mp descending).2.1).1 _ below
        have : other < level.val := lower
        omega
  · rw [lines.isPending_of_ge (by omega)] at pending
    cases pending

theorem get_assigned (vectors : Vector InterruptVector 8) (level : Nat) (vector : InterruptVector)
    (n : Fin 8) : (vectors.setIfInBounds level vector).get n =
      if n.val = level then vector else vectors.get n := by
  refine (Vector.getElem_setIfInBounds n.isLt).trans ?_
  by_cases same : n.val = level
  · rw [if_pos same, if_pos same.symm]
  · rw [if_neg same, if_neg (Ne.symm same)]
    rfl

theorem pending_assignVector {lines after : InterruptLines} {level : Nat}
    {vector : InterruptVector} (h : lines.assignVector level vector = .ok after) :
    after.pending = lines.pending := by
  unfold assignVector checkLevel at h
  split at h
  case isTrue inside => cases h; rfl
  case isFalse => cases h

end InterruptLines

namespace Machine

/-- A step accepts an interrupt if the processor is awake or stopped and some request lies above the mask,
and then it accepts the highest request through its vector. -/
theorem accepts_iff {m : Machine World} {level : Fin 8} {vector : VectorNumber} :
    m.Accepts level vector ↔
      (m.state = .running ∨ m.state = .stopped) ∧
      m.interrupts.highestAbove m.registers.interruptMask = some level ∧
      vector = (m.interrupts.vectors.get level).number level := by
  unfold Accepts
  constructor
  · intro accepts
    obtain ⟨same, _⟩ | ⟨found, highest, state, same⟩ | ⟨_, _, same⟩ := m.prologue_cases
    · rw [same] at accepts
      cases accepts
    · rw [same] at accepts
      cases accepts
      exact ⟨state, highest, rfl⟩
    · rw [same] at accepts
      obtain ⟨_, cause, _⟩ | ⟨cause | ⟨cause, _⟩, _⟩ :=
        instructionPrologue_cases { m with activity := [] } <;>
      · rw [cause] at accepts
        cases accepts
  · rintro ⟨state, highest, rfl⟩
    obtain ⟨_, off | ⟨_, none⟩⟩ | ⟨found, other, _, same⟩ | ⟨_, none, _⟩ := m.prologue_cases
    · exact absurd state (not_or.mpr off)
    · rw [none] at highest
      cases highest
    · rw [highest] at other
      cases other
      rw [same]
      rfl
    · rw [none] at highest
      cases highest

theorem interrupts_step (m : Machine World) :
    m.step.2.interrupts = match m.prologue.cause with
      | some (.interrupt level _) => (m.interrupts.acknowledge level).2
      | _ => m.interrupts := by
  have prologue : m.prologue.machine.interrupts = match m.prologue.cause with
      | some (.interrupt level _) => (m.interrupts.acknowledge level).2
      | _ => m.interrupts := by
    obtain ⟨same, _⟩ | ⟨level, _, _, same⟩ | ⟨_, _, same⟩ := m.prologue_cases
    · rw [same]
    · rw [same]
      exact interrupts_takeRequest _ level
    · rw [same, interrupts_instructionPrologue]
      obtain ⟨_, cause, _⟩ | ⟨cause | ⟨cause, _⟩, _⟩ :=
        instructionPrologue_cases { m with activity := [] } <;> rw [cause]
  have finish : m.prologue.finish.2.interrupts = m.prologue.machine.interrupts := by
    unfold Prologue.finish
    split
    next => rfl
    next cause _ =>
      have frame := (processed_process m.prologue.machine cause).frame
      dsimp only
      rw [frame]
  rw [step_eq, charge_frame]
  exact finish.trans prologue

/-- An acceptance takes the request of its level off the lines, and no other step takes any. -/
theorem isPending_step (m : Machine World) (level : Nat) :
    m.step.2.interrupts.isPending level =
      (!m.stepEvent.accepts level && m.interrupts.isPending level) := by
  rw [interrupts_step, stepEvent]
  cases m.prologue.cause with
  | none => rfl
  | some cause =>
    cases cause with
    | exception e => rfl
    | trace => rfl
    | interrupt accepted vector => exact m.interrupts.isPending_acknowledge accepted level

end Machine

namespace Machine

def fresh (config : BusConfig) (memory : MemoryMap World) (hooks : Hooks World) (host : Host World)
    (logger : LogRecord → World → World) : Machine World :=
  ((new config host logger).withMemory memory).withHooks hooks

namespace History

variable {start m : Machine World} {events : List Event}

theorem hooks (h : History start events m) : m.hooks = start.hooks := by
  induction h with
  | start => rfl
  | raise _ done ih =>
    obtain ⟨_, _, rfl⟩ := raiseInterrupt_eq done
    exact ih
  | lower _ done ih =>
    obtain ⟨_, _, rfl⟩ := lowerInterrupt_eq done
    exact ih
  | assign _ done ih =>
    obtain ⟨_, _, rfl⟩ := assignInterruptVector_eq done
    exact ih
  | reset _ done ih => exact (reset_ok done).2.2.trans ih
  | resetRefused _ refused ih =>
    rw [reset_error refused]
    exact ih
  | step _ ih => exact (evolves_step _).hooks.trans ih
  | account _ _ _ _ ih => exact ih

end History

end Machine

end MC68000
