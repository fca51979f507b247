import MC68000.Proofs.Agreement

set_option autoImplicit false

namespace MC68000

variable {World : Type}

namespace StatusWord

/-- Two status words that are the same but for T. -/
def SameButTrace (x y : StatusWord) : Prop := x.clear trace = y.clear trace

theorem sameButTrace_iff (x y : StatusWord) :
    x.SameButTrace y ↔ ∀ i < 15, x.getLsbD i = y.getLsbD i := by
  have below : ∀ i < 16, trace.getLsbD i = decide (i = 15) := by decide
  constructor
  · intro same i small
    have bit := congrArg (fun z : StatusWord => z.getLsbD i) same
    simpa only [getLsbD_clear _ _ (Nat.lt_succ_of_lt small), below i (Nat.lt_succ_of_lt small),
      decide_eq_false (Nat.ne_of_lt small), Bool.not_false, Bool.and_true] using bit
  · intro same
    apply BitVec.eq_of_getLsbD_eq
    intro i small
    rw [getLsbD_clear _ _ small, getLsbD_clear _ _ small, below i small]
    by_cases top : i = 15
    · rw [decide_eq_true top, Bool.not_true, Bool.and_false, Bool.and_false]
    · rw [same i (by omega)]

theorem sameButTrace_or_trace (status : StatusWord) : status.SameButTrace (status ||| trace) := by
  rw [sameButTrace_iff]
  intro i small
  have outside : ∀ i < 15, trace.getLsbD i = false := by decide
  rw [BitVec.getLsbD_or, outside i small, Bool.or_false]

namespace SameButTrace

variable {x y x' y' : StatusWord}

protected theorem refl (x : StatusWord) : x.SameButTrace x := rfl

protected theorem and (h : x.SameButTrace y) (h' : x'.SameButTrace y') :
    SameButTrace (x &&& x') (y &&& y') := by
  rw [sameButTrace_iff] at h h' ⊢
  intro i small
  rw [BitVec.getLsbD_and, BitVec.getLsbD_and, h i small, h' i small]

protected theorem or (h : x.SameButTrace y) (h' : x'.SameButTrace y') :
    SameButTrace (x ||| x') (y ||| y') := by
  rw [sameButTrace_iff] at h h' ⊢
  intro i small
  rw [BitVec.getLsbD_or, BitVec.getLsbD_or, h i small, h' i small]

protected theorem xor (h : x.SameButTrace y) (h' : x'.SameButTrace y') :
    SameButTrace (x ^^^ x') (y ^^^ y') := by
  rw [sameButTrace_iff] at h h' ⊢
  intro i small
  rw [BitVec.getLsbD_xor, BitVec.getLsbD_xor, h i small, h' i small]

theorem clear (h : x.SameButTrace y) (flags : StatusWord) :
    (x.clear flags).SameButTrace (y.clear flags) := h.and (.refl _)

theorem setIf (h : x.SameButTrace y) (flags : StatusWord) (condition : Bool) :
    (x.setIf flags condition).SameButTrace (y.setIf flags condition) := by
  cases condition with
  | false => exact h.clear flags
  | true => exact h.or (.refl flags)

theorem withSign (h : x.SameButTrace y) (size : Size) (value : BitVec 32) :
    (x.withSign size value).SameButTrace (y.withSign size value) := (h.setIf zero _).setIf negative _

theorem withLogical (h : x.SameButTrace y) (size : Size) (value : BitVec 32) :
    (x.withLogical size value).SameButTrace (y.withLogical size value) :=
  (h.clear (overflow ||| carry)).withSign size value

/-- Without T there is nothing left to differ in. -/
theorem and_eq (h : x.SameButTrace y) {flags : StatusWord} (outside : flags.getLsbD 15 = false) :
    x &&& flags = y &&& flags := by
  rw [sameButTrace_iff] at h
  apply BitVec.eq_of_getLsbD_eq
  intro i small
  rw [BitVec.getLsbD_and, BitVec.getLsbD_and]
  by_cases top : i = 15
  · rw [top, outside, Bool.and_false, Bool.and_false]
  · rw [h i (by omega)]

theorem has_eq (h : x.SameButTrace y) {flags : StatusWord} (outside : flags.getLsbD 15 = false) :
    x.has flags = y.has flags := by
  rw [has, has, h.and_eq outside]

theorem has_supervisor (h : x.SameButTrace y) : x.has supervisor = y.has supervisor :=
  h.has_eq (by decide)

theorem has_extend (h : x.SameButTrace y) : x.has extend = y.has extend := h.has_eq (by decide)

theorem interruptMask (h : x.SameButTrace y) : x.interruptMask = y.interruptMask := by
  rw [StatusWord.interruptMask, StatusWord.interruptMask, h.and_eq (by decide)]

end SameButTrace

end StatusWord

theorem Condition.holds_of_sameButTrace (condition : Condition) {x y : StatusWord}
    (h : x.SameButTrace y) : condition.holds x = condition.holds y := by
  unfold holds
  rw [h.has_eq (by decide), h.has_eq (by decide), h.has_eq (by decide), h.has_eq (by decide)]

def Registers.SameButTrace (r r' : Registers) : Prop :=
  ∃ status, r' = { r with status } ∧ r.status.SameButTrace status

/-- Two machines that are the same but for T. -/
def Machine.SameButTrace (m n : Machine World) : Prop :=
  ∃ r, n = { m with registers := r } ∧ m.registers.SameButTrace r

namespace Registers.SameButTrace

variable {r r' : Registers}

theorem status (h : r.SameButTrace r') : r.status.SameButTrace r'.status := by
  obtain ⟨_, rfl, same⟩ := h
  exact same

theorem isSupervisor (h : r.SameButTrace r') : r.isSupervisor = r'.isSupervisor :=
  h.status.has_supervisor

theorem interruptMask (h : r.SameButTrace r') : r.interruptMask = r'.interruptMask :=
  h.status.interruptMask

theorem supervisorStack (h : r.SameButTrace r') : r.supervisorStack = r'.supervisorStack := by
  rw [Registers.supervisorStack, Registers.supervisorStack, h.isSupervisor]
  obtain ⟨_, rfl, _⟩ := h
  rfl

/-- A change that goes by the other registers alone. -/
theorem map (h : r.SameButTrace r') {f : Registers → Registers}
    (apart : ∀ (r : Registers) (status : StatusWord), f { r with status } = { f r with status }) :
    (f r).SameButTrace (f r') := by
  obtain ⟨status, rfl, same⟩ := h
  have kept : f r = { f r with status := r.status } := apart r r.status
  refine ⟨status, apart r status, ?_⟩
  rw [kept]
  exact same

theorem setStatus (h : r.SameButTrace r') {value value' : StatusWord}
    (same : value.SameButTrace value') : (r.setStatus value).SameButTrace (r'.setStatus value') := by
  have written := same.and (.refl StatusWord.implemented)
  have mode := (h.status.xor written).has_supervisor
  obtain ⟨status, rfl, _⟩ := h
  unfold Registers.setStatus
  dsimp only at mode ⊢
  rw [← mode]
  split
  · exact ⟨_, rfl, written⟩
  · exact ⟨_, rfl, written⟩

theorem setConditionCodes (h : r.SameButTrace r') (value : BitVec 8) :
    (r.setConditionCodes value).SameButTrace (r'.setConditionCodes value) := by
  obtain ⟨status, rfl, same⟩ := h
  exact ⟨_, rfl, (same.clear .conditionCodes).or (.refl _)⟩

theorem userStack (h : r.SameButTrace r') : r.userStack = r'.userStack := by
  rw [Registers.userStack, Registers.userStack, h.isSupervisor]
  obtain ⟨_, rfl, _⟩ := h
  rfl

theorem setUserStack (h : r.SameButTrace r') (value : BitVec 32) :
    (r.setUserStack value).SameButTrace (r'.setUserStack value) := by
  have mode := h.isSupervisor
  obtain ⟨status, rfl, same⟩ := h
  unfold Registers.setUserStack
  rw [← mode]
  split
  · exact ⟨_, rfl, same⟩
  · exact ⟨_, rfl, same⟩

end Registers.SameButTrace

namespace Exec

/-- Two actions that end alike on machines that are the same but for T. -/
def Alike {α : Type} (x y : Exec World α) : Prop :=
  ∀ m n, m.SameButTrace n → Together Machine.SameButTrace (x m) (y n)

/-- An action that does not look at T. -/
abbrev IgnoresTrace {α : Type} (x : Exec World α) : Prop := Alike x x

section rules

variable {α β : Type}

theorem ignoresTrace_pure (a : α) : IgnoresTrace (pure a : Exec World α) := fun _ _ same => ⟨rfl, same⟩

theorem ignoresTrace_throw (e : Exception) : IgnoresTrace (throw e : Exec World α) :=
  fun _ _ same => ⟨rfl, same⟩

theorem Alike.bind {x y : Exec World α} {f g : α → Exec World β} (first : Alike x y)
    (next : ∀ a, Alike (f a) (g a)) : Alike (x >>= f) (y >>= g) := by
  intro m n same
  change Together _ (EStateM.bind x f m) (EStateM.bind y g n)
  unfold EStateM.bind
  obtain ⟨a, m', n', left, right, same'⟩ | ⟨e, m', n', left, right, same'⟩ := (first m n same).cases
  · rw [left, right]
    exact next a m' n' same'
  · rw [left, right]
    exact ⟨rfl, same'⟩

/-- What is computed from all registers may show T. -/
theorem Alike.registers {f g : Registers → Exec World β}
    (next : ∀ r r' : Registers, r.SameButTrace r' → Alike (f r) (g r')) :
    Alike (registers >>= f) (registers >>= g) := by
  intro m n same
  obtain ⟨r, rfl, alike⟩ := same
  exact next m.registers r alike m _ ⟨r, rfl, alike⟩

/-- What is computed from the registers other than the status word does not show T. -/
theorem ignoresTrace_registers {f : Registers → Exec World β}
    (apart : ∀ (r : Registers) (status : StatusWord), f { r with status } = f r)
    (next : ∀ r, IgnoresTrace (f r)) : IgnoresTrace (Exec.registers >>= f) := by
  refine .registers ?_
  rintro r _ ⟨status, rfl, _⟩
  rw [apart r status]
  exact next r

/-- What is computed from the status word may show T. -/
theorem Alike.status {f g : StatusWord → Exec World β}
    (next : ∀ old old' : StatusWord, old.SameButTrace old' → Alike (f old) (g old')) :
    Alike (status >>= f) (status >>= g) := by
  intro m n same
  obtain ⟨r, rfl, alike⟩ := same
  exact next m.registers.status r.status alike.status m _ ⟨r, rfl, alike⟩

end rules

theorem Alike.update {f g : Registers → Registers}
    (h : ∀ r r' : Registers, r.SameButTrace r' → (f r).SameButTrace (g r')) :
    Alike (update f : Exec World Unit) (update g) := by
  rintro m _ ⟨r, rfl, alike⟩
  exact ⟨rfl, _, rfl, h m.registers r alike⟩

theorem Alike.setStatus {value value' : StatusWord} (same : value.SameButTrace value') :
    Alike (setStatus value : Exec World Unit) (setStatus value') :=
  .update fun _ _ alike => alike.setStatus same

theorem ignoresTrace_update {f : Registers → Registers}
    (apart : ∀ (r : Registers) (status : StatusWord), f { r with status } = { f r with status }) :
    IgnoresTrace (update f : Exec World Unit) :=
  .update fun _ _ alike => alike.map apart

theorem ignoresTrace_setDataPart (n : Fin 8) (size : Size) (value : BitVec 32) :
    IgnoresTrace (update (·.setDataPart n size value) : Exec World Unit) :=
  ignoresTrace_update fun _ _ => by cases size <;> rfl

theorem ignoresTrace_requirePrivilege : IgnoresTrace (requirePrivilege : Exec World Unit) := by
  intro m n same
  obtain ⟨r, rfl, alike⟩ := same
  unfold requirePrivilege
  dsimp only
  rw [← alike.isSupervisor]
  split
  · exact ⟨rfl, r, rfl, alike⟩
  · exact ⟨rfl, r, rfl, alike⟩

theorem ignoresTrace_cycle {α : Type} (space : AddressSpace) (address : BitVec 32)
    (transfer : BusTransfer) (access : MemoryMap World → Access World α) :
    IgnoresTrace (cycle space address transfer access) := by
  rintro m _ ⟨r, rfl, alike⟩
  unfold cycle
  dsimp only
  cases access m.memory m.host with
  | ok a host => exact ⟨rfl, r, rfl, alike⟩
  | error fault host => exact ⟨rfl, r, rfl, alike⟩

theorem ignoresTrace_requireAligned (space : AddressSpace) (size : Size) (address : BitVec 32)
    (write : Bool) : IgnoresTrace (requireAligned space size address write : Exec World Unit) := by
  rintro m _ ⟨r, rfl, alike⟩
  unfold requireAligned
  split
  · exact ⟨rfl, r, rfl, alike⟩
  · exact ⟨rfl, r, rfl, alike⟩

theorem ignoresTrace_read (space : AddressSpace) (size : Size) (address : BitVec 32) :
    IgnoresTrace (read space size address : Exec World (BitVec 32)) := by
  refine (ignoresTrace_requireAligned space size address false).bind fun _ => ?_
  cases size with
  | byte => exact (ignoresTrace_cycle _ _ _ _).bind fun _ => ignoresTrace_pure _
  | word => exact (ignoresTrace_cycle _ _ _ _).bind fun _ => ignoresTrace_pure _
  | long =>
    refine (ignoresTrace_cycle _ _ _ _).bind fun high => ?_
    exact (ignoresTrace_cycle _ _ _ _).bind fun low => ignoresTrace_pure _

theorem ignoresTrace_write (space : AddressSpace) (size : Size) (address value : BitVec 32) :
    IgnoresTrace (write space size address value : Exec World Unit) := by
  refine (ignoresTrace_requireAligned space size address true).bind fun _ => ?_
  cases size with
  | byte => exact ignoresTrace_cycle _ _ _ _
  | word => exact ignoresTrace_cycle _ _ _ _
  | long => exact (ignoresTrace_cycle _ _ _ _).bind fun _ => ignoresTrace_cycle _ _ _ _

theorem ignoresTrace_dataSpace : IgnoresTrace (dataSpace : Exec World AddressSpace) := by
  intro m n same
  obtain ⟨r, rfl, alike⟩ := same
  exact ⟨congrArg (AddressSpace.ofFlags · false) alike.isSupervisor, r, rfl, alike⟩

theorem ignoresTrace_programSpace : IgnoresTrace (programSpace : Exec World AddressSpace) := by
  intro m n same
  obtain ⟨r, rfl, alike⟩ := same
  exact ⟨congrArg (AddressSpace.ofFlags · true) alike.isSupervisor, r, rfl, alike⟩

theorem ignoresTrace_readData (size : Size) (address : BitVec 32) :
    IgnoresTrace (readData size address : Exec World (BitVec 32)) :=
  ignoresTrace_dataSpace.bind fun space => ignoresTrace_read space size address

theorem ignoresTrace_readProgram (size : Size) (address : BitVec 32) :
    IgnoresTrace (readProgram size address : Exec World (BitVec 32)) :=
  ignoresTrace_programSpace.bind fun space => ignoresTrace_read space size address

theorem ignoresTrace_writeData (size : Size) (address value : BitVec 32) :
    IgnoresTrace (writeData size address value : Exec World Unit) :=
  ignoresTrace_dataSpace.bind fun space => ignoresTrace_write space size address value

theorem ignoresTrace_fetchWord : IgnoresTrace (fetchWord : Exec World (BitVec 16)) := by
  refine ignoresTrace_registers (fun _ _ => rfl) fun r => ?_
  refine (ignoresTrace_readProgram .word r.pc).bind fun word => ?_
  exact (ignoresTrace_update fun _ _ => rfl).bind fun _ => ignoresTrace_pure _

theorem ignoresTrace_fetchLong : IgnoresTrace (fetchLong : Exec World (BitVec 32)) :=
  ignoresTrace_fetchWord.bind fun _ => ignoresTrace_fetchWord.bind fun _ => ignoresTrace_pure _

theorem ignoresTrace_fetchImmediate (size : Size) :
    IgnoresTrace (fetchImmediate size : Exec World (BitVec 32)) := by
  cases size with
  | byte => exact ignoresTrace_fetchWord.bind fun _ => ignoresTrace_pure _
  | word => exact ignoresTrace_fetchWord.bind fun _ => ignoresTrace_pure _
  | long => exact ignoresTrace_fetchLong

theorem ignoresTrace_fetchDisplacement :
    IgnoresTrace (fetchDisplacement : Exec World (BitVec 32)) :=
  ignoresTrace_fetchWord.bind fun _ => ignoresTrace_pure _

theorem ignoresTrace_push (size : Size) (value : BitVec 32) :
    IgnoresTrace (push size value : Exec World Unit) := by
  refine (ignoresTrace_update fun _ _ => rfl).bind fun _ => ?_
  exact ignoresTrace_registers (fun _ _ => rfl) fun r => ignoresTrace_writeData size (r.a.get 7) value

theorem ignoresTrace_pull (size : Size) : IgnoresTrace (pull size : Exec World (BitVec 32)) := by
  refine ignoresTrace_registers (fun _ _ => rfl) fun r => ?_
  refine (ignoresTrace_readData size (r.a.get 7)).bind fun value => ?_
  exact (ignoresTrace_update fun _ _ => rfl).bind fun _ => ignoresTrace_pure value

theorem ignoresTrace_locate (mode : AddressingMode) (size : Size) :
    IgnoresTrace (locate mode size : Exec World Operand) := by
  cases mode with
  | dataRegister n => exact ignoresTrace_pure _
  | addressRegister n => exact ignoresTrace_pure _
  | indirect n => exact ignoresTrace_registers (fun _ _ => rfl) fun _ => ignoresTrace_pure _
  | postIncrement n =>
    refine ignoresTrace_registers (fun _ _ => rfl) fun _ => ?_
    exact (ignoresTrace_update fun _ _ => rfl).bind fun _ => ignoresTrace_pure _
  | preDecrement n =>
    refine ignoresTrace_registers (fun _ _ => rfl) fun _ => ?_
    exact (ignoresTrace_update fun _ _ => rfl).bind fun _ => ignoresTrace_pure _
  | displaced n =>
    refine ignoresTrace_fetchDisplacement.bind fun displacement => ?_
    exact ignoresTrace_registers (fun _ _ => rfl) fun _ => ignoresTrace_pure _
  | indexed n =>
    refine ignoresTrace_fetchWord.bind fun extension => ?_
    exact ignoresTrace_registers (fun _ _ => rfl) fun _ => ignoresTrace_pure _
  | absoluteShort => exact ignoresTrace_fetchDisplacement.bind fun _ => ignoresTrace_pure _
  | absoluteLong => exact ignoresTrace_fetchLong.bind fun _ => ignoresTrace_pure _
  | programDisplaced =>
    refine ignoresTrace_registers (fun _ _ => rfl) fun _ => ?_
    exact ignoresTrace_fetchDisplacement.bind fun _ => ignoresTrace_pure _
  | programIndexed =>
    refine ignoresTrace_registers (fun _ _ => rfl) fun _ => ?_
    refine ignoresTrace_fetchWord.bind fun extension => ?_
    exact ignoresTrace_registers (fun _ _ => rfl) fun _ => ignoresTrace_pure _
  | immediate => exact (ignoresTrace_fetchImmediate size).bind fun _ => ignoresTrace_pure _

theorem ignoresTrace_load (operand : Operand) (size : Size) :
    IgnoresTrace (load operand size : Exec World (BitVec 32)) := by
  cases operand with
  | dataRegister n => exact ignoresTrace_registers (fun _ _ => rfl) fun _ => ignoresTrace_pure _
  | addressRegister n => exact ignoresTrace_registers (fun _ _ => rfl) fun _ => ignoresTrace_pure _
  | memory address => exact ignoresTrace_readData size address
  | program address => exact ignoresTrace_readProgram size address
  | value value => exact ignoresTrace_pure value

theorem ignoresTrace_store (operand : Operand) (size : Size) (value : BitVec 32) :
    IgnoresTrace (store operand size value : Exec World Unit) := by
  cases operand with
  | dataRegister n => exact ignoresTrace_setDataPart n size value
  | addressRegister n => exact ignoresTrace_update fun _ _ => rfl
  | memory address => exact ignoresTrace_writeData size address value
  | program address => exact ignoresTrace_throw .illegal
  | value immediate => exact ignoresTrace_throw .illegal

theorem ignoresTrace_loadFrom (mode : AddressingMode) (size : Size) :
    IgnoresTrace (loadFrom mode size : Exec World (BitVec 32)) :=
  (ignoresTrace_locate mode size).bind fun target => ignoresTrace_load target size

theorem ignoresTrace_effectiveAddress (mode : AddressingMode) :
    IgnoresTrace (effectiveAddress mode : Exec World (BitVec 32)) := by
  refine (ignoresTrace_locate mode .long).bind fun target => ?_
  cases target with
  | memory address => exact ignoresTrace_pure address
  | program address => exact ignoresTrace_pure address
  | _ => exact ignoresTrace_throw .illegal

end Exec

end MC68000
