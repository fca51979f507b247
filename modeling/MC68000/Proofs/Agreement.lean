import MC68000.Proofs.Step

set_option autoImplicit false

namespace MC68000

variable {World : Type}

/-- Two actions end alike, in related states. -/
def Together {ε σ α : Type} (R : σ → σ → Prop) (x y : EStateM.Result ε σ α) : Prop :=
  match x, y with
  | .ok a m, .ok b n => a = b ∧ R m n
  | .error e m, .error e' n => e = e' ∧ R m n
  | _, _ => False

theorem Together.cases {ε σ α : Type} {R : σ → σ → Prop} {x y : EStateM.Result ε σ α}
    (h : Together R x y) :
    (∃ a m n, x = .ok a m ∧ y = .ok a n ∧ R m n) ∨
      ∃ e m n, x = .error e m ∧ y = .error e n ∧ R m n := by
  cases x with
  | ok a m =>
    cases y with
    | ok b n =>
      obtain ⟨rfl, related⟩ := h
      exact .inl ⟨a, m, n, rfl, rfl, related⟩
    | error e n => exact h.elim
  | error e m =>
    cases y with
    | ok b n => exact h.elim
    | error e' n =>
      obtain ⟨rfl, related⟩ := h
      exact .inr ⟨e, m, n, rfl, rfl, related⟩

theorem Together.mono {ε σ α : Type} {R Q : σ → σ → Prop} {x y : EStateM.Result ε σ α}
    (h : Together R x y) (weaker : ∀ m n, R m n → Q m n) : Together Q x y := by
  obtain ⟨a, m, n, rfl, rfl, related⟩ | ⟨e, m, n, rfl, rfl, related⟩ := h.cases
  · exact ⟨rfl, weaker m n related⟩
  · exact ⟨rfl, weaker m n related⟩

/-- A last action may leave the states in a weaker relation. -/
theorem Together.bindLast {ε σ α β : Type} {R Q : σ → σ → Prop} {x : EStateM ε σ α}
    {f : α → EStateM ε σ β} {m n : σ} (weaker : ∀ m n, R m n → Q m n) (first : Together R (x m) (x n))
    (next : ∀ a m' n', x m = .ok a m' → R m' n' → Together Q (f a m') (f a n')) :
    Together Q ((x >>= f) m) ((x >>= f) n) := by
  change Together Q (EStateM.bind x f m) (EStateM.bind x f n)
  unfold EStateM.bind
  obtain ⟨a, m', n', left, right, related⟩ | ⟨e, m', n', left, right, related⟩ := first.cases
  · rw [left, right]
    exact next a m' n' left related
  · rw [left, right]
    exact ⟨rfl, weaker m' n' related⟩

theorem Together.bind {ε σ α β : Type} {R : σ → σ → Prop} {x : EStateM ε σ α}
    {f : α → EStateM ε σ β} {m n : σ} (first : Together R (x m) (x n))
    (next : ∀ a m' n', x m = .ok a m' → R m' n' → Together R (f a m') (f a n')) :
    Together R ((x >>= f) m) ((x >>= f) n) := bindLast (fun _ _ => id) first next

/-- A relation that the operations of the processor keep, as long as the system byte stays as it is. Whole
instructions then keep it too. -/
structure Agreement (R : Machine World → Machine World → Prop) : Prop where
  registers {m n : Machine World} : R m n → m.registers = n.registers
  processing {m n : Machine World} : R m n → m.processingException = n.processingException
  update {m n : Machine World} (f : Registers → Registers) :
    R m n → m.registers.Unprivileged (f m.registers) → R (m.mapRegisters f) (n.mapRegisters f)
  readByte {m n : Machine World} {space : AddressSpace} (address : BitVec 32) : R m n →
    space.isSupervisor = m.registers.isSupervisor →
    Together R (Exec.readByte space address m) (Exec.readByte space address n)
  readWord {m n : Machine World} {space : AddressSpace} (address : BitVec 32) : R m n →
    space.isSupervisor = m.registers.isSupervisor →
    Together R (Exec.readWord space address m) (Exec.readWord space address n)
  writeByte {m n : Machine World} {space : AddressSpace} (address : BitVec 32) (value : BitVec 8) :
    R m n → space.isSupervisor = m.registers.isSupervisor →
    Together R (Exec.writeByte space address value m) (Exec.writeByte space address value n)
  writeWord {m n : Machine World} {space : AddressSpace} (address : BitVec 32) (value : BitVec 16) :
    R m n → space.isSupervisor = m.registers.isSupervisor →
    Together R (Exec.writeWord space address value m) (Exec.writeWord space address value n)

namespace Exec

variable {R : Machine World → Machine World → Prop} {m n : Machine World}

theorem requireAligned_together (agreement : Agreement R) (related : R m n) (space : AddressSpace)
    (size : Size) (address : BitVec 32) (write : Bool) :
    Together R (requireAligned space size address write m)
      (requireAligned space size address write n) := by
  unfold requireAligned
  split
  · refine ⟨?_, related⟩
    rw [faultOf, faultOf, agreement.processing related]
  · exact ⟨rfl, related⟩

theorem registers_requireAligned {space : AddressSpace} {size : Size} {address : BitVec 32}
    {write : Bool} {m' : Machine World} (h : requireAligned space size address write m = .ok () m') :
    m'.registers = m.registers := by
  unfold requireAligned at h
  split at h <;> cases h
  rfl

theorem registers_cycle {α : Type} {space : AddressSpace} {address : BitVec 32}
    {transfer : BusTransfer} {access : MemoryMap World → Access World α} {a : α}
    {m' : Machine World} (h : cycle space address transfer access m = .ok a m') :
    m'.registers = m.registers := by
  unfold cycle at h
  split at h <;> cases h
  rfl

theorem read_together (agreement : Agreement R) (related : R m n) {space : AddressSpace}
    (size : Size) (address : BitVec 32) (level : space.isSupervisor = m.registers.isSupervisor) :
    Together R (read space size address m) (read space size address n) := by
  unfold read
  refine (requireAligned_together agreement related space size address false).bind ?_
  intro _ m₁ n₁ checked related₁
  rw [← registers_requireAligned checked] at level
  cases size with
  | byte => exact (agreement.readByte address related₁ level).bind fun _ _ _ _ related => ⟨rfl, related⟩
  | word => exact (agreement.readWord address related₁ level).bind fun _ _ _ _ related => ⟨rfl, related⟩
  | long =>
    refine (agreement.readWord address related₁ level).bind fun _ m₂ n₂ high related₂ => ?_
    rw [← registers_cycle high] at level
    exact (agreement.readWord (address + 2) related₂ level).bind fun _ _ _ _ related => ⟨rfl, related⟩

theorem write_together (agreement : Agreement R) (related : R m n) {space : AddressSpace}
    (size : Size) (address value : BitVec 32)
    (level : space.isSupervisor = m.registers.isSupervisor) :
    Together R (write space size address value m) (write space size address value n) := by
  unfold write
  refine (requireAligned_together agreement related space size address true).bind ?_
  intro _ m₁ n₁ checked related₁
  rw [← registers_requireAligned checked] at level
  cases size with
  | byte => exact agreement.writeByte address _ related₁ level
  | word => exact agreement.writeWord address _ related₁ level
  | long =>
    refine (agreement.writeWord address _ related₁ level).bind fun _ m₂ n₂ high related₂ => ?_
    rw [← registers_cycle high] at level
    exact agreement.writeWord (address + 2) _ related₂ level

theorem Ordinary.together {s : StatusWord} {raises : Exception → Prop} {α : Type}
    {x : Exec World α} {post : α → Prop} (h : Ordinary s raises x post) (agreement : Agreement R)
    {m n : Machine World} (related : R m n) (same : m.registers.status.system = s) :
    Together R (x m) (x n) := by
  induction h generalizing m n with
  | pure _ => exact ⟨rfl, related⟩
  | bind first _ ihFirst ihNext =>
    refine (ihFirst related same).bind fun a m' n' done related' => ?_
    have effects := first.effects m same
    rw [done] at effects
    exact ihNext a effects.2 related' (effects.1.unprivileged.system.trans same)
  | throw _ => exact ⟨rfl, related⟩
  | registers => exact ⟨agreement.registers related, related⟩
  | update h => exact ⟨rfl, agreement.update _ related (h m.registers same)⟩
  | dataSpace => exact ⟨by rw [Machine.dataSpace, agreement.registers related]; rfl, related⟩
  | programSpace => exact ⟨by rw [Machine.programSpace, agreement.registers related]; rfl, related⟩
  | read size address level =>
    exact read_together agreement related size address (level.trans (has_supervisor_of_same m same))
  | write size address value level =>
    exact write_together agreement related size address value
      (level.trans (has_supervisor_of_same m same))
  | requirePrivilege _ =>
    unfold Exec.requirePrivilege
    rw [← agreement.registers related]
    split <;> exact ⟨rfl, related⟩

section Guarded

variable {Q : Machine World → Machine World → Prop} (agreement : Agreement R)
  (weaker : ∀ m n, R m n → Q m n)
  (changes : ∀ (change : SupervisorChange) (m n : Machine World), R m n →
    Q (change.apply m) (change.apply n))

include agreement weaker changes

/-- Guarded actions end alike on machines that agree. What is left to the supervisor comes last, and may leave
the machines in a weaker relation. -/
theorem Guarded.together {s : StatusWord} {raises : Exception → Prop} {x : Exec World Nat}
    (h : Guarded s raises x) {m n : Machine World} (related : R m n)
    (same : m.registers.status.system = s) : Together Q (x m) (x n) := by
  induction h generalizing m n with
  | ordinary h => exact (h.together agreement related same).mono weaker
  | bind first _ next =>
    refine .bindLast weaker (first.together agreement related same) fun a m' n' done related' => ?_
    have effects := first.effects m same
    rw [done] at effects
    exact next a effects.2 related' (effects.1.unprivileged.system.trans same)
  | change change cost _ _ _ act =>
    rw [act, act]
    exact ⟨rfl, changes change m n related⟩

/-- Machines that agree execute the same instruction alike. -/
theorem nextInstruction_together
    (opcodes : ∀ (opcode : BitVec 16) (m n : Machine World), R m n →
      R { m with opcode } { n with opcode })
    (related : R m n) : Together Q (nextInstruction m) (nextInstruction n) := by
  have fetch : Plain m.registers.status.system (fun _ => False)
      (fetchWord : Exec World (BitVec 16)) := plain_fetchWord
  unfold nextInstruction
  refine .bindLast weaker (fetch.together agreement related rfl) fun opcode m' n' _ related' => ?_
  have guarded : Guarded m'.registers.status.system (Instruction.decode opcode).MayRaise
      ((Instruction.decode opcode).execute : Exec World Nat) :=
    Instruction.guarded_execute _ (Instruction.encodable_decode opcode)
  exact guarded.together agreement weaker changes (opcodes opcode m' n' related') rfl

end Guarded

end Exec

end MC68000
