import MC68000.Proofs.Slice

set_option autoImplicit false

namespace MC68000

variable {World : Type}

/-- An event in the life of a machine. -/
inductive Event where
  /-- A request was raised. -/
  | raised (level : Nat) (vector : InterruptVector)
  /-- A request was withdrawn. -/
  | lowered (level : Nat)
  /-- A level was given a vector. -/
  | assigned (level : Nat) (vector : InterruptVector)
  /-- The machine was reset. -/
  | reset
  /-- A step accepted an interrupt. -/
  | accepted (level : Fin 8) (vector : VectorNumber)
  /-- A step processed an exception in place of an instruction that did not complete. -/
  | excepted
  /-- A step executed an instruction, or nothing, and the interrupt mask went from one value to another. -/
  | executed (before after : Nat)

namespace Event

def raises (level : Nat) : Event → Bool
  | raised n _ => level = n
  | _ => false

def accepts (level : Nat) : Event → Bool
  | accepted n _ => level = n
  | _ => false

def isStep : Event → Bool
  | accepted _ _ | excepted | executed _ _ => true
  | _ => false

end Event

/-- Whether a level is requested after some events, the latest first. -/
def requested (level : Nat) : List Event → Bool
  | [] => false
  | .raised n _ :: events => decide (level = n) || requested level events
  | .lowered n :: events => !decide (level = n) && requested level events
  | .accepted n _ :: events => !decide (level = n.val) && requested level events
  | .reset :: _ => false
  | _ :: events => requested level events

namespace Machine

/-- Whether the next step accepts an interrupt. -/
def Accepts (m : Machine World) (level : Fin 8) (vector : VectorNumber) : Prop :=
  m.prologue.cause = some (.interrupt level vector)

/-- The event that the next step is. -/
def stepEvent (m : Machine World) : Event :=
  match m.prologue.cause with
  | some (.interrupt level vector) => .accepted level vector
  | some (.exception _) => .excepted
  | _ => .executed m.registers.interruptMask m.prologue.machine.registers.interruptMask

/-- The events that lead from one machine to another, the latest first. -/
inductive History (start : Machine World) : List Event → Machine World → Prop
  | start : History start [] start
  | raise {events : List Event} {m m' : Machine World} {level : Nat} {vector : InterruptVector}
      {previous : Option InterruptVector} (before : History start events m)
      (done : m.raiseInterrupt level vector = .ok (previous, m')) :
      History start (.raised level vector :: events) m'
  | lower {events : List Event} {m m' : Machine World} {level : Nat}
      (before : History start events m) (done : m.lowerInterrupt level = .ok m') :
      History start (.lowered level :: events) m'
  | assign {events : List Event} {m m' : Machine World} {level : Nat} {vector : InterruptVector}
      (before : History start events m) (done : m.assignInterruptVector level vector = .ok m') :
      History start (.assigned level vector :: events) m'
  | reset {events : List Event} {m m' : Machine World} (before : History start events m)
      (done : m.reset = (.ok (), m')) : History start (.reset :: events) m'
  | resetRefused {events : List Event} {m m' : Machine World} {e : RequestError}
      (before : History start events m) (refused : m.reset = (.error e, m')) :
      History start events m'
  | step {events : List Event} {m : Machine World} (before : History start events m) :
      History start (m.stepEvent :: events) m.step.2
  | account {events : List Event} {m : Machine World} (before : History start events m)
      (cycles : BitVec 32) (total : Ticks) (control : Control) :
      History start events { m with cycles, total, host := { m.host with control } }

namespace History

theorem trans {start m m' : Machine World} {events more : List Event}
    (first : History start events m) (second : History m more m') :
    History start (more ++ events) m' := by
  induction second with
  | start => exact first
  | raise _ done ih => exact .raise ih done
  | lower _ done ih => exact .lower ih done
  | assign _ done ih => exact .assign ih done
  | reset _ done ih => exact .reset ih done
  | resetRefused _ refused ih => exact .resetRefused ih refused
  | step _ ih => exact .step ih
  | account _ cycles total control ih => exact .account ih cycles total control

theorem charge {start m : Machine World} {events : List Event} (h : History start events m)
    (cycles : Int) : History start events (m.charge cycles).2 := by
  rw [charge_frame]
  exact .account h _ _ m.host.control

theorem turn {start m : Machine World} {events : List Event} (h : History start events m) :
    History start (m.stepEvent :: events) m.turn.2.2 := by
  have settled : History start (m.stepEvent :: events) m.step.2.settleAdjustment.2 :=
    (History.account h.step _ _ _).charge _
  exact .account settled _ _ _

end History

theorem raiseInterrupt_eq {m m' : Machine World} {level : Nat} {vector : InterruptVector}
    {previous : Option InterruptVector} (h : m.raiseInterrupt level vector = .ok (previous, m')) :
    ∃ lines, m.interrupts.raise level vector = .ok (previous, lines) ∧
      m' = { m with interrupts := lines } := by
  unfold raiseInterrupt at h
  cases found : m.interrupts.raise level vector with
  | error e =>
    rw [found] at h
    cases h
  | ok result =>
    rw [found] at h
    cases h
    exact ⟨_, rfl, rfl⟩

theorem lowerInterrupt_eq {m m' : Machine World} {level : Nat}
    (h : m.lowerInterrupt level = .ok m') :
    ∃ lines, m.interrupts.lower level = .ok lines ∧ m' = { m with interrupts := lines } := by
  unfold lowerInterrupt at h
  cases found : m.interrupts.lower level with
  | error e =>
    rw [found] at h
    cases h
  | ok lines =>
    rw [found] at h
    cases h
    exact ⟨_, rfl, rfl⟩

theorem assignInterruptVector_eq {m m' : Machine World} {level : Nat} {vector : InterruptVector}
    (h : m.assignInterruptVector level vector = .ok m') :
    ∃ lines, m.interrupts.assignVector level vector = .ok lines ∧
      m' = { m with interrupts := lines } := by
  unfold assignInterruptVector at h
  cases found : m.interrupts.assignVector level vector with
  | error e =>
    rw [found] at h
    cases h
  | ok lines =>
    rw [found] at h
    cases h
    exact ⟨_, rfl, rfl⟩

/-- A reset that succeeds drops all requests and masks all levels but keeps the vectors. -/
theorem reset_ok {m m' : Machine World} (h : m.reset = (.ok (), m')) :
    m'.interrupts = m.interrupts.clear ∧ m'.registers.interruptMask = 7 ∧ m'.hooks = m.hooks := by
  unfold reset at h
  split at h
  next => cases h
  next =>
    split at h
    next => cases h
    next =>
      cases h
      have mask : Registers.initial.interruptMask = 7 := by decide
      exact ⟨rfl, mask, rfl⟩

/-- A reset that is refused touches nothing but the log. -/
theorem reset_error {m m' : Machine World} {e : RequestError} (h : m.reset = (.error e, m')) :
    m' = { m with host := m'.host } := by
  unfold reset at h
  split at h
  next => cases h; rfl
  next =>
    split at h
    next => cases h; rfl
    next => cases h

end Machine

end MC68000
