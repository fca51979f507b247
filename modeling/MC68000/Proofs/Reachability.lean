import MC68000.Proofs.HostRequests
import MC68000.Proofs.Interrupts
import MC68000.Proofs.ResetErasure
import MC68000.Proofs.StackPointers

set_option autoImplicit false

namespace MC68000

variable {World : Type}

namespace Machine

/-- One thing that a host does with a machine on its own. -/
inductive Operation (m : Machine World) : Machine World → Prop
  | step : Operation m m.step.2
  | run {m' : Machine World} {limit : Nat} {clocks r : BitVec 32}
      (done : m.run? limit clocks = some (r, m')) : Operation m m'
  | runTicks {m' : Machine World} {limit : Nat} {budget t : Ticks}
      (done : m.runTicks? limit budget = some (t, m')) : Operation m m'
  /-- Whether or not the reset is refused. -/
  | reset : Operation m m.reset.2
  | raise {m' : Machine World} {level : Nat} {vector : InterruptVector}
      {previous : Option InterruptVector}
      (done : m.raiseInterrupt level vector = .ok (previous, m')) : Operation m m'
  | lower {m' : Machine World} {level : Nat} (done : m.lowerInterrupt level = .ok m') : Operation m m'
  | assign {m' : Machine World} {level : Nat} {vector : InterruptVector}
      (done : m.assignInterruptVector level vector = .ok m') : Operation m m'
  | write (w : RegisterWrite) : Operation m (m.mapRegisters (·.write w))
  | writePart (n : Fin 8) (size : Size) (value : BitVec 32) :
      Operation m (m.mapRegisters (·.setDataPart n size value))
  | trip : Operation m m.trip.2
  | chargeOrTrip (clocks : BitVec 32) : Operation m (m.chargeOrTrip clocks).2
  | charge (clocks : BitVec 32) : Operation m (m.chargeCycles clocks)
  | refund (clocks : BitVec 32) : Operation m (m.refundCycles clocks)
  | memory (memory : MemoryMap World) : Operation m (m.withMemory memory)
  | hooks (hooks : Hooks World) : Operation m (m.withHooks hooks)
  | peek (space : AddressSpace) (address : BitVec 32) : Operation m (m.peekWord space address).2
  /-- A change outside the processor: of the buffers, of the devices, or of the requests to the run loop. -/
  | host (host : Host World) : Operation m { m with host }

/-- What hosts can make of a machine that has just been switched on, if they put into each machine only the
contexts that it admits. -/
inductive Reachable (admits : Machine World → Context World → Prop) : Machine World → Prop
  | new (config : BusConfig) (host : Host World) (logger : LogRecord → World → World) :
      Reachable admits (new config host logger)
  | operate {m m' : Machine World} (before : Reachable admits m) (operation : m.Operation m') :
      Reachable admits m'
  /-- The registers of another machine, or of one that was made for the purpose. -/
  | copy {m n : Machine World} (before : Reachable admits m) (other : Reachable admits n) :
      Reachable admits (m.mapRegisters fun _ => n.registers)
  /-- The context of another machine, or one that was saved earlier. -/
  | restore {m n : Machine World} (before : Reachable admits m) (other : Reachable admits n)
      (admitted : admits m n.context) : Reachable admits (m.restore n.context)

end Machine

namespace Registers

theorem implemented_initial : initial.status.Implemented :=
  show initial.status &&& .implemented = initial.status from rfl

/-- However the registers are written, no bit appears in the status word that does not exist. -/
theorem implemented_write {r : Registers} (h : r.status.Implemented) (w : RegisterWrite) :
    (r.write w).status.Implemented := by
  cases w with
  | register register value => exact implemented_set h register value
  | status value => exact r.implemented_setStatus value
  | conditionCodes value => exact implemented_setConditionCodes value h
  | userStack value =>
    change (r.setUserStack value).status.Implemented
    unfold setUserStack
    split <;> exact h
  | supervisorStack value =>
    change (r.setSupervisorStack value).status.Implemented
    unfold setSupervisorStack
    split <;> exact h

end Registers

namespace InterruptLines

theorem isPending_zero_raise {lines after : InterruptLines} {level : Nat} {vector : InterruptVector}
    {previous : Option InterruptVector} (h : lines.raise level vector = .ok (previous, after)) :
    after.isPending 0 = lines.isPending 0 := by
  have other : 0 ≠ level := by
    unfold raise checkLevel at h
    split at h
    case isTrue inside => omega
    case isFalse => cases h
  rw [isPending_raise h, decide_eq_false other]
  rfl

end InterruptLines

namespace Machine

/-- What a step relies on at an instruction boundary. -/
structure InOrder (m : Machine World) : Prop where
  implemented : m.registers.status.Implemented
  none : m.interrupts.isPending 0 = false
  settled : m.processingException = false

namespace InOrder

variable {m m' : Machine World}

theorem congr (h : m.InOrder) (status : m'.registers.status = m.registers.status)
    (interrupts : m'.interrupts = m.interrupts)
    (processing : m'.processingException = m.processingException) : m'.InOrder := by
  constructor
  · rw [status]
    exact h.implemented
  · rw [interrupts]
    exact h.none
  · rw [processing]
    exact h.settled

theorem step (h : m.InOrder) : m.step.2.InOrder where
  implemented := implemented_step h.implemented
  none := by rw [isPending_step, h.none, Bool.and_false]
  settled := processingException_step h.settled

theorem charge (h : m.InOrder) (cycles : Int) : (m.charge cycles).2.InOrder := by
  rw [charge_frame]
  exact h.congr rfl rfl rfl

theorem turn (h : m.InOrder) : m.turn.2.2.InOrder := by
  rw [turn_frame]
  exact h.step.congr rfl rfl rfl

theorem turns (h : m.InOrder) (k : Nat) : (m.turns k).InOrder := by
  induction k generalizing m with
  | zero => exact h
  | succ k ih => exact ih h.turn

theorem run (h : m.InOrder) {limit : Nat} {clocks r : BitVec 32}
    (done : m.run? limit clocks = some (r, m')) : m'.InOrder := by
  obtain ⟨consumed, after, n, _, slice, rfl, rfl⟩ := exists_slice_of_run? done
  obtain ⟨wait, rfl, _⟩ := slice.exists_wait
  exact ((h.turns n).charge wait).congr rfl rfl rfl

theorem reset (h : m.InOrder) : m.reset.2.InOrder := by
  cases result : m.reset with
  | mk answer after =>
    cases answer with
    | ok _ =>
      obtain ⟨stack, pc, _, _, rfl⟩ := started_of_reset result
      exact ⟨Registers.implemented_initial, InterruptLines.isPending_clear _ 0, h.settled⟩
    | error e =>
      rw [log_of_reset_error result]
      exact h.congr rfl rfl rfl

theorem operate (h : m.InOrder) (operation : m.Operation m') : m'.InOrder := by
  cases operation with
  | step => exact h.step
  | run done => exact h.run done
  | runTicks done =>
    obtain ⟨_, _, ran, _⟩ := runTicks?_eq done
    exact h.run ran
  | reset => exact h.reset
  | raise done =>
    obtain ⟨lines, raised, rfl⟩ := raiseInterrupt_eq done
    exact ⟨h.implemented, (InterruptLines.isPending_zero_raise raised).trans h.none, h.settled⟩
  | lower done =>
    obtain ⟨lines, lowered, rfl⟩ := lowerInterrupt_eq done
    refine ⟨h.implemented, ?_, h.settled⟩
    rw [InterruptLines.isPending_lower lowered, h.none, Bool.and_false]
  | assign done =>
    obtain ⟨lines, assigned, rfl⟩ := assignInterruptVector_eq done
    refine ⟨h.implemented, ?_, h.settled⟩
    rw [InterruptLines.isPending, InterruptLines.pending_assignVector assigned]
    exact h.none
  | write w => exact ⟨Registers.implemented_write h.implemented w, h.none, h.settled⟩
  | writePart n size value =>
    have part := m.registers.unprivileged_setDataPart n size value
    exact ⟨part.implemented h.implemented, h.none, h.settled⟩
  | trip => exact h.congr rfl rfl rfl
  | chargeOrTrip clocks =>
    unfold Machine.chargeOrTrip
    split
    next => exact h.congr rfl rfl rfl
    next => exact h.charge clocks.toNat
  | charge clocks => exact h.charge clocks.toNat
  | refund clocks => exact h.charge (-clocks.toNat)
  | memory memory => exact h.congr rfl rfl rfl
  | hooks hooks => exact h.congr rfl rfl rfl
  | peek space address => exact h.congr rfl rfl rfl
  | host host => exact h.congr rfl rfl rfl

end InOrder

/-- So every machine that a host can make is in order. What a context brings along comes from a machine that is
in order itself. -/
theorem Reachable.inOrder {admits : Machine World → Context World → Prop} {m : Machine World}
    (h : Reachable admits m) : m.InOrder := by
  -- a context carries the status word and the lines of another machine, which is in order as well
  induction h with
  | new config host logger =>
    exact ⟨Registers.implemented_initial, InterruptLines.isPending_clear .idle 0, rfl⟩
  | operate _ operation ih => exact ih.operate operation
  | copy _ _ ih other => exact ⟨other.implemented, ih.none, ih.settled⟩
  | restore _ _ _ ih other => exact ⟨other.implemented, other.none, ih.settled⟩

/-- A machine in order accepts no level but 1 to 7, so its autovectors are those of these levels. -/
theorem InOrder.level_of_accepts {m : Machine World} (h : m.InOrder) {level : Fin 8} {vector : VectorNumber}
    (accepts : m.Accepts level vector) : 1 ≤ level.val ∧
      (m.interrupts.vectors.get level = .autovector → vector.toNat = 24 + level) := by
  obtain ⟨_, found, rfl⟩ := accepts_iff.mp accepts
  have pending := (InterruptLines.highestAbove_eq_some found).2.1
  constructor
  · refine Nat.one_le_iff_ne_zero.mpr fun zero => ?_
    rw [zero, h.none] at pending
    cases pending
  · intro auto
    rw [auto]
    change (BitVec.ofNat 8 (24 + level.val)).toNat = _
    rw [BitVec.toNat_ofNat]
    omega

/-- Whatever hosts do with machines that they have switched on, and whichever contexts they move between them,
at each instruction boundary of each run the status word has no bit that does not exist, level 0 does not
request, and no exception is in progress. So the level of an interrupt that is accepted there is one of 1 to 7,
and an autovector one of 25 to 31; and the level fits the field that becomes the new mask, with the bits around
the field as they were. -/
theorem Reachable.ordered_boundaries {admits : Machine World → Context World → Prop} {m : Machine World}
    (h : Reachable admits m) (k : Nat) :
    let n := m.turns k
    n.registers.status &&& .implemented = n.registers.status ∧ n.interrupts.isPending 0 = false ∧
      n.processingException = false ∧
      ∀ (level : Fin 8) (vector : VectorNumber), n.Accepts level vector →
        (1 ≤ level.val ∧ level.val ≤ 7) ∧
        (n.interrupts.vectors.get level = .autovector →
          vector.toNat = 24 + level ∧ 25 ≤ vector.toNat ∧ vector.toNat ≤ 31) ∧
        ∀ status : StatusWord, (status.withInterruptMask level).interruptMask = level ∧
          (status.withInterruptMask level).clear .interruptField = status.clear .interruptField := by
  intro n
  have ordered : n.InOrder := h.inOrder.turns k
  refine ⟨ordered.implemented, ordered.none, ordered.settled, fun level vector accepts => ?_⟩
  obtain ⟨least, auto⟩ := ordered.level_of_accepts accepts
  have small := level.isLt
  refine ⟨⟨least, by omega⟩, fun assigned => ?_, fun status => ⟨?_, ?_⟩⟩
  · have number := auto assigned
    omega
  · exact status.interruptMask_withInterruptMask level
  · apply BitVec.eq_of_getLsbD_eq
    intro i inside
    rw [StatusWord.getLsbD_clear _ _ inside, StatusWord.getLsbD_clear _ _ inside]
    cases field : StatusWord.interruptField.getLsbD i with
    | true => simp only [Bool.not_true, Bool.and_false]
    | false => rw [status.getLsbD_withInterruptMask level inside field]

/-- A machine after its reset, with every bit written to the status word but those of the mask and for
tracing. -/
def unmasked : Machine Unit := switchedOnAndReset.mapRegisters (·.write (.status 0x78FF))

def requestingThree : Machine Unit :=
  match unmasked.raiseInterrupt 3 .autovector with
  | .ok (_, raised) => raised
  | .error _ => unmasked

/-- Its context is put into a machine that has just been switched on. The next step accepts the level. -/
theorem Reachable.ordered_boundaries_restored :
    let m := switchedOn.restore requestingThree.context
    Reachable (fun _ _ => True) m ∧ m.Accepts 3 27 ∧
      m.registers.status &&& .implemented = m.registers.status ∧ (27#8).toNat = 24 + 3 ∧
      (m.turns 1).processingException = false := by
  intro m
  have on : Reachable (fun _ _ => True) switchedOn := .new _ _ _
  have reset : Reachable (fun _ _ => True) switchedOnAndReset := (on.operate (.memory _)).operate .reset
  have written : Reachable (fun _ _ => True) unmasked := reset.operate (.write (.status 0x78FF))
  have raised : unmasked.raiseInterrupt 3 .autovector = .ok (none, requestingThree) := rfl
  have requesting : Reachable (fun _ _ => True) requestingThree := written.operate (.raise raised)
  have reachable : Reachable (fun _ _ => True) m := on.restore requesting trivial
  have accepts : m.Accepts 3 27 := accepts_iff.mpr ⟨.inl rfl, by decide +kernel, by decide +kernel⟩
  obtain ⟨implemented, _, _, accepted⟩ := reachable.ordered_boundaries 0
  have auto := (accepted 3 27 accepts).2.1 (by decide +kernel)
  exact ⟨reachable, accepts, implemented, auto.1, (reachable.ordered_boundaries 1).2.2.1⟩

end Machine

end MC68000
