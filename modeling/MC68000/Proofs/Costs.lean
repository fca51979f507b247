import MC68000.Proofs.Step

set_option autoImplicit false

namespace MC68000

variable {World : Type}

open Timing (Within IsCost)

theorem Instruction.Traps.within {instruction : Instruction} {vector : VectorNumber} {cost : Nat}
    (h : instruction.Traps (.trap vector cost)) : Within 52 cost := by
  unfold Instruction.Traps at h
  split at h
  next => cases h; decide
  next => cases h; decide
  next bound _ => cases h; exact Within.add_word (by decide) bound
  next source _ => cases h; exact Within.add_word (by decide) source
  next source _ => cases h; exact Within.add_word (by decide) source
  next => exact h.elim

/-- The exceptions that an instruction can come to have frames of bounded cost. -/
theorem within_exception {instruction : Instruction} {e : Exception}
    (h : instruction.MayRaise e ∨ e.IsFault) : Within 52 (Cause.exception e).cost := by
  have access : Within 52 Timing.accessFault := by decide
  have refused : Within 52 Timing.exception := by decide
  cases e with
  | busError fault => exact access
  | addressError fault => exact access
  | trap vector cost =>
    rcases h with (refusal | traps) | fault
    · exact refusal.elim
    · exact traps.within
    · exact fault.elim
  | _ => exact refused

theorem Exec.isCost_nextInstruction (m : Machine World) :
    Ends (Exec.nextInstruction m) (fun cost _ => IsCost cost) fun _ _ => True := by
  unfold Exec.nextInstruction
  refine Ends.bind ((fetchWord_effects m).mono (fun _ _ => id) fun _ _ _ => trivial) ?_
  intro opcode fetched _
  have guarded : Exec.Guarded fetched.registers.status.system
      (Instruction.decode opcode).MayRaise ((Instruction.decode opcode).execute : Exec World Nat) :=
    Instruction.guarded_execute _ (Instruction.encodable_decode opcode)
  exact guarded.isCost { fetched with opcode } rfl

namespace Machine

/-- A failed access costs the same whether or not its own frame can be stacked. -/
theorem cost_processFault (m : Machine World) (vector : VectorNumber) (fault : AccessFault) :
    (m.processFault vector fault).1 = Timing.accessFault := by
  unfold processFault
  split <;> rfl

theorem cost_process (m : Machine World) (cause : Cause) :
    (m.process cause).1 = cause.cost ∨ (m.process cause).1 = cause.cost + Timing.accessFault := by
  cases entry : m.entry cause with
  | long vector fault =>
    have cost : cause.cost = Timing.accessFault := by
      cases cause with
      | exception e => cases e <;> cases entry <;> rfl
      | trace => cases entry
      | interrupt level vector => cases entry
    rw [process_long entry, cost_processFault, cost]
    exact .inl rfl
  | short vector returnAddress mask =>
    rw [process_short entry]
    obtain ⟨_, same⟩ | ⟨fault, _, v, _, _, same⟩ | ⟨_, _, _, same⟩ :=
      (m.log (m.entryRecord cause)).processVector_cases vector returnAddress mask cause.cost
    · rw [same]
      exact .inl rfl
    · rw [same]
      dsimp only
      rw [cost_processFault]
      exact .inr rfl
    · rw [same]
      exact .inl rfl

theorem within_process (m : Machine World) {cause : Cause} {bound : Nat}
    (h : Within bound cause.cost) : Within (bound + 50) (m.process cause).1 := by
  rcases m.cost_process cause with same | same
  · rw [same]
    exact h.mono (Nat.le_add_right bound 50)
  · rw [same]
    exact h.add (by decide) (by decide)

/-- An instruction either completes at its cost, to be traced or not, or raises an exception before it has
cost anything. -/
theorem instructionPrologue_cost (m : Machine World) :
    let p := m.instructionPrologue
    IsCost p.cost ∧ (p.cause = none ∨ p.cause = some .trace) ∨
      p.cost = 0 ∧ ∃ e, p.cause = some (.exception e) ∧ Within 52 (Cause.exception e).cost := by
  have cost := Exec.isCost_nextInstruction { m with instructionAddress := m.registers.pc }
  have outcome := nextInstruction_outcome { m with instructionAddress := m.registers.pc }
  unfold instructionPrologue
  cases found : Exec.nextInstruction { m with instructionAddress := m.registers.pc } with
  | ok spent after =>
    rw [found] at cost
    refine .inl ⟨cost, ?_⟩
    dsimp only
    split
    · exact .inr rfl
    · exact .inl rfl
  | error e after =>
    rw [found] at outcome
    exact .inr ⟨rfl, e, rfl, within_exception outcome.2⟩

theorem cost_step_of_rest {m : Machine World} (rest : m.state ≠ .running ∧ m.state ≠ .stopped ∨
    m.state = .stopped ∧ m.interrupts.highestAbove m.registers.interruptMask = none) :
    m.step.1 = 0 := by
  rw [step_eq, prologue_of_rest rest]
  rfl

/-- A step of a processor that has something to do costs an even number of cycles, from 4 to 252. -/
theorem within_step {m : Machine World} (awake : m.state = .running ∨
    m.state = .stopped ∧ (m.interrupts.highestAbove m.registers.interruptMask).isSome = true) :
    Within 252 m.step.1 := by
  rw [step_eq]
  dsimp only
  cases found : m.interrupts.highestAbove m.registers.interruptMask with
  | some level =>
    have up : m.state = .running ∨ m.state = .stopped := awake.imp_right And.left
    rw [prologue_of_interrupt up found, Prologue.finish]
    dsimp only
    rw [Nat.zero_add]
    have frame : Within 44 Timing.interrupt := by decide
    exact (within_process _ frame).mono (by decide)
  | none =>
    have running : m.state = .running := by
      rcases awake with running | ⟨_, some⟩
      · exact running
      · rw [found] at some
        cases some
    rw [prologue_of_instruction running found, Prologue.finish]
    rcases instructionPrologue_cost { m with activity := [] } with
      ⟨cost, none | traced⟩ | ⟨zero, e, raised, frame⟩
    · rw [none]
      exact cost.mono (by decide)
    · rw [traced]
      have trace := within_process (instructionPrologue { m with activity := [] }).machine
        (by decide : Within 34 Cause.trace.cost)
      exact cost.add trace.1 trace.2.2
    · rw [raised]
      dsimp only
      rw [zero, Nat.zero_add]
      exact (within_process _ frame).mono (by decide)

/-- Whatever the state of the processor, no step costs more. -/
theorem cost_step_le (m : Machine World) : m.step.1 ≤ 252 := by
  by_cases awake : m.state = .running ∨
      m.state = .stopped ∧ (m.interrupts.highestAbove m.registers.interruptMask).isSome = true
  · exact (within_step awake).2.2
  · have rest : m.state ≠ .running ∧ m.state ≠ .stopped ∨
        m.state = .stopped ∧ m.interrupts.highestAbove m.registers.interruptMask = none := by
      obtain ⟨still, deaf⟩ := not_or.mp awake
      by_cases stopped : m.state = .stopped
      · exact .inr ⟨stopped, Option.not_isSome_iff_eq_none.mp fun some => deaf ⟨stopped, some⟩⟩
      · exact .inl ⟨still, stopped⟩
    rw [cost_step_of_rest rest]
    exact Nat.zero_le 252

end Machine

end MC68000
