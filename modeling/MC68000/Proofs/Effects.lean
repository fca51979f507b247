import Mathlib.Logic.Relation
import MC68000.Proofs.Instructions

set_option autoImplicit false

namespace MC68000

variable {World : Type}

/-- The state in which an action ends, whether or not it completes. -/
def finalState {ε σ α : Type} : EStateM.Result ε σ α → σ
  | .ok _ state | .error _ state => state

/-- An action completes in `ok`, or ends early in `error`. -/
def Ends {ε σ α : Type} (result : EStateM.Result ε σ α) (ok : α → σ → Prop)
    (error : ε → σ → Prop) : Prop :=
  match result with
  | .ok a state => ok a state
  | .error e state => error e state

theorem Ends.mono {ε σ α : Type} {result : EStateM.Result ε σ α} {ok ok' : α → σ → Prop}
    {error error' : ε → σ → Prop} (h : Ends result ok error) (good : ∀ a s, ok a s → ok' a s)
    (bad : ∀ e s, error e s → error' e s) : Ends result ok' error' := by
  cases result with
  | ok a state => exact good a state h
  | error e state => exact bad e state h

theorem Ends.and {ε σ α : Type} {result : EStateM.Result ε σ α} {ok ok' : α → σ → Prop}
    {error error' : ε → σ → Prop} (h : Ends result ok error) (h' : Ends result ok' error') :
    Ends result (fun a s => ok a s ∧ ok' a s) fun e s => error e s ∧ error' e s := by
  cases result with
  | ok a state => exact ⟨h, h'⟩
  | error e state => exact ⟨h, h'⟩

theorem Ends.bind {ε σ α β : Type} {x : EStateM ε σ α} {f : α → EStateM ε σ β} {state : σ}
    {mid : α → σ → Prop} {ok : β → σ → Prop} {error : ε → σ → Prop}
    (first : Ends (x state) mid error) (next : ∀ a s, mid a s → Ends (f a s) ok error) :
    Ends ((x >>= f) state) ok error := by
  change Ends (EStateM.bind x f state) ok error
  unfold EStateM.bind
  cases found : x state with
  | ok a s =>
    rw [found] at first
    exact next a s first
  | error e s =>
    rw [found] at first
    exact first

/-- What holds however an action ends holds of its final state. -/
theorem Ends.final {ε σ α : Type} {result : EStateM.Result ε σ α} {p : σ → Prop}
    (h : Ends result (fun _ s => p s) fun _ s => p s) : p (finalState result) := by
  cases result with
  | ok a state => exact h
  | error e state => exact h

def BusCycle.Aligned (b : BusCycle) : Prop :=
  match b.transfer with
  | .readByte | .writeByte _ => True
  | .readWord | .writeWord _ => b.address.getLsbD 0 = false

namespace MemoryMap

/-- What a bus cycle makes of the world, whether or not some region serves it. -/
def perform (map : MemoryMap World) (b : BusCycle) (host : Host World) : Host World :=
  match b.transfer with
  | .readByte => (map.peekByte b.space b.address host).2
  | .readWord => (map.peekWord b.space b.address host).2
  | .writeByte value => ((map.table b.space).putByte (map.masked b.address) value host).2
  | .writeWord value => ((map.table b.space).putWord (map.masked b.address) value host).2

theorem final_miss {α : Type} (map : MemoryMap World) (space : AddressSpace) (address : BitVec 32)
    (write : Bool) (shown : BitVec 8 → α) (host : Host World) :
    finalState (map.miss space address write shown host) = host := by
  unfold miss
  cases map.config.unmapped <;> rfl

theorem final_readByte (map : MemoryMap World) (space : AddressSpace) (address : BitVec 32)
    (host : Host World) : finalState (map.readByte space address host) =
      map.perform ⟨space, address, .readByte⟩ host := by
  simp only [readByte, perform]
  split
  · next found => rw [found]; rfl
  · next found => rw [found, final_miss]

theorem final_readWord (map : MemoryMap World) (space : AddressSpace) (address : BitVec 32)
    (host : Host World) : finalState (map.readWord space address host) =
      map.perform ⟨space, address, .readWord⟩ host := by
  simp only [readWord, perform]
  split
  · next found => rw [found]; rfl
  · next found => rw [found, final_miss]

theorem final_writeByte (map : MemoryMap World) (space : AddressSpace) (address : BitVec 32)
    (value : BitVec 8) (host : Host World) : finalState (map.writeByte space address value host) =
      map.perform ⟨space, address, .writeByte value⟩ host := by
  simp only [writeByte, perform]
  split
  · next found => rw [found]; rfl
  · next found => rw [found, final_miss]

theorem final_writeWord (map : MemoryMap World) (space : AddressSpace) (address : BitVec 32)
    (value : BitVec 16) (host : Host World) : finalState (map.writeWord space address value host) =
      map.perform ⟨space, address, .writeWord value⟩ host := by
  simp only [writeWord, perform]
  split
  · next found => rw [found]; rfl
  · next found => rw [found, final_miss]

end MemoryMap

namespace Machine

/-- One effect of an ordinary operation: a change of the registers that leaves the system byte alone, or a
bus cycle at the current privilege level and, for words, at an even address. -/
inductive Effect (m : Machine World) : Machine World → Prop
  | registers {r : Registers} (h : m.registers.Unprivileged r) : Effect m { m with registers := r }
  | cycle (b : BusCycle) (aligned : b.Aligned)
      (level : b.space.isSupervisor = m.registers.isSupervisor) :
      Effect m { m with host := m.memory.perform b m.host, activity := m.activity ++ [b] }

/-- A sequence of effects. -/
abbrev Effects (m m' : Machine World) : Prop := Relation.ReflTransGen Effect m m'

theorem Effects.unprivileged {m m' : Machine World} (h : m.Effects m') :
    m.registers.Unprivileged m'.registers := by
  induction h with
  | refl => exact .refl _
  | tail _ last ih =>
    cases last with
    | registers h => exact ih.trans h
    | cycle => exact ih

theorem Effects.isSupervisor {m m' : Machine World} (h : m.Effects m') :
    m'.registers.isSupervisor = m.registers.isSupervisor := h.unprivileged.isSupervisor

/-- The record of bus cycles grows, by cycles at the current privilege level. -/
theorem Effects.activity {m m' : Machine World} (h : m.Effects m') :
    ∃ cycles, m'.activity = m.activity ++ cycles ∧
      ∀ b ∈ cycles, b.space.isSupervisor = m.registers.isSupervisor := by
  induction h with
  | refl => exact ⟨[], (List.append_nil _).symm, nofun⟩
  | tail before last ih =>
    obtain ⟨cycles, grown, levels⟩ := ih
    cases last with
    | registers => exact ⟨cycles, grown, levels⟩
    | cycle b aligned level =>
      refine ⟨cycles ++ [b], ?_, fun c recorded => ?_⟩
      · dsimp only
        rw [grown, List.append_assoc]
      · rcases List.mem_append.mp recorded with earlier | now
        · exact levels c earlier
        · rw [List.mem_singleton.mp now, level]
          exact Effects.isSupervisor before

theorem Effects.activity_grows {m m' : Machine World} (h : m.Effects m') :
    m.activity <+: m'.activity := by
  obtain ⟨cycles, grown, _⟩ := h.activity
  exact ⟨cycles, grown.symm⟩

/-- Nothing changes but the registers, the world and the record of bus cycles. -/
theorem Effects.frame {m m' : Machine World} (h : m.Effects m') :
    m' = { m with registers := m'.registers, host := m'.host, activity := m'.activity } := by
  induction h with
  | refl => rfl
  | tail _ last ih =>
    cases last with
    | registers _ => rw [ih]
    | cycle => rw [ih]

theorem Effects.opcode {m m' : Machine World} (h : m.Effects m') : m'.opcode = m.opcode := by
  have frame := h.frame
  rw [frame]

theorem Effects.state {m m' : Machine World} (h : m.Effects m') : m'.state = m.state := by
  rw [h.frame]

theorem Effects.withOpcode {m m' : Machine World} (h : m.Effects m') (opcode : BitVec 16) :
    Effects { m with opcode } { m' with opcode } := by
  induction h with
  | refl => exact .refl
  | tail _ last ih =>
    refine ih.tail ?_
    cases last with
    | registers unprivileged => exact .registers unprivileged
    | cycle b aligned level => exact .cycle b aligned level

theorem Effects.setRegisters {m : Machine World} {r : Registers} (h : m.registers.Unprivileged r) :
    m.Effects { m with registers := r } := .single (.registers h)

end Machine

namespace Exec

theorem cycle_effects {α : Type} {b : BusCycle} {access : MemoryMap World → Access World α}
    {m : Machine World} (aligned : b.Aligned)
    (level : b.space.isSupervisor = m.registers.isSupervisor)
    (performs : finalState (access m.memory m.host) = m.memory.perform b m.host) :
    Ends (cycle b.space b.address b.transfer access m) (fun _ m' => m.Effects m')
      fun e m' => m.Effects m' ∧ e.IsFault := by
  have single := Relation.ReflTransGen.single (Machine.Effect.cycle (m := m) b aligned level)
  rw [← performs] at single
  unfold cycle
  cases found : access m.memory m.host with
  | ok value host =>
    rw [found] at single
    exact single
  | error fault host =>
    rw [found] at single
    exact ⟨single, trivial⟩

theorem requireAligned_effects (space : AddressSpace) (size : Size) (address : BitVec 32)
    (write : Bool) (m : Machine World) :
    Ends (requireAligned space size address write m)
      (fun _ m' => m' = m ∧ (size = .byte ∨ address.getLsbD 0 = false))
      fun e m' => m.Effects m' ∧ e.IsFault := by
  unfold requireAligned
  split
  next => exact ⟨.refl, trivial⟩
  next h =>
    refine ⟨rfl, ?_⟩
    by_cases size = .byte
    next byte => exact .inl byte
    next other => exact .inr (Bool.eq_false_iff.mpr fun odd => h ⟨other, odd⟩)

theorem cycle_after {α : Type} {b : BusCycle} {access : MemoryMap World → Access World α}
    {m m' : Machine World} (before : m.Effects m') (aligned : b.Aligned)
    (level : b.space.isSupervisor = m.registers.isSupervisor)
    (performs : finalState (access m'.memory m'.host) = m'.memory.perform b m'.host) :
    Ends (cycle b.space b.address b.transfer access m') (fun _ m'' => m.Effects m'')
      fun e m'' => m.Effects m'' ∧ e.IsFault :=
  (cycle_effects aligned (level.trans before.isSupervisor.symm) performs).mono
    (fun _ _ after => before.trans after) fun _ _ after => ⟨before.trans after.1, after.2⟩

theorem even_add {address distance : BitVec 32} (even : address.getLsbD 0 = false)
    (whole : distance.getLsbD 0 = false) : (address + distance).getLsbD 0 = false := by
  rw [BitVec.getLsbD_add (by decide), even, whole, BitVec.carry_zero]
  rfl

theorem readWord_effects {space : AddressSpace} {address : BitVec 32} {m m' : Machine World}
    (before : m.Effects m') (even : address.getLsbD 0 = false)
    (level : space.isSupervisor = m.registers.isSupervisor) :
    Ends (readWord space address m') (fun _ m'' => m.Effects m'')
      fun e m'' => m.Effects m'' ∧ e.IsFault :=
  cycle_after (b := ⟨space, address, .readWord⟩) before even level
    (m'.memory.final_readWord space address m'.host)

theorem writeWord_effects {space : AddressSpace} {address : BitVec 32} {value : BitVec 16}
    {m m' : Machine World} (before : m.Effects m') (even : address.getLsbD 0 = false)
    (level : space.isSupervisor = m.registers.isSupervisor) :
    Ends (writeWord space address value m') (fun _ m'' => m.Effects m'')
      fun e m'' => m.Effects m'' ∧ e.IsFault :=
  cycle_after (b := ⟨space, address, .writeWord value⟩) before even level
    (m'.memory.final_writeWord space address value m'.host)

theorem read_effects {space : AddressSpace} (size : Size) (address : BitVec 32) {m : Machine World}
    (level : space.isSupervisor = m.registers.isSupervisor) :
    Ends (read space size address m) (fun _ m' => m.Effects m')
      fun e m' => m.Effects m' ∧ e.IsFault := by
  refine (requireAligned_effects space size address false m).bind fun _ m' checked => ?_
  obtain ⟨rfl, even⟩ := checked
  cases size with
  | byte =>
    refine Ends.bind (cycle_effects (b := ⟨space, address, .readByte⟩) trivial level
      (m'.memory.final_readByte space address m'.host)) fun _ _ after => ?_
    exact after
  | word =>
    refine Ends.bind (readWord_effects .refl (even.resolve_left nofun) level) fun _ _ after => ?_
    exact after
  | long =>
    have even := even.resolve_left nofun
    refine Ends.bind (readWord_effects .refl even level) fun _ _ after => ?_
    refine Ends.bind (readWord_effects after (even_add even rfl) level) fun _ _ after => ?_
    exact after

theorem write_effects {space : AddressSpace} (size : Size) (address value : BitVec 32)
    {m : Machine World} (level : space.isSupervisor = m.registers.isSupervisor) :
    Ends (write space size address value m) (fun _ m' => m.Effects m')
      fun e m' => m.Effects m' ∧ e.IsFault := by
  refine (requireAligned_effects space size address true m).bind fun _ m' checked => ?_
  obtain ⟨rfl, even⟩ := checked
  cases size with
  | byte =>
    exact cycle_effects (b := ⟨space, address, .writeByte (value.setWidth 8)⟩) trivial level
      (m'.memory.final_writeByte space address _ m'.host)
  | word => exact writeWord_effects .refl (even.resolve_left nofun) level
  | long =>
    have even := even.resolve_left nofun
    refine Ends.bind (writeWord_effects .refl even level) fun _ _ after => ?_
    exact writeWord_effects after (even_add even rfl) level

theorem has_supervisor_of_same {s : StatusWord} (m : Machine World)
    (same : m.registers.status.system = s) : s.has .supervisor = m.registers.isSupervisor := by
  rw [← same, StatusWord.has_supervisor_system]
  rfl

theorem isSupervisor_space {s : StatusWord} (m : Machine World)
    (same : m.registers.status.system = s) (program : Bool) :
    (AddressSpace.ofFlags m.registers.isSupervisor program).isSupervisor = s.has .supervisor := by
  rw [has_supervisor_of_same m same]
  cases m.registers.isSupervisor <;> cases program <;> rfl

/-- An ordinary action has a sequence of effects, and raises only what it may. -/
theorem Ordinary.effects {s : StatusWord} {raises : Exception → Prop} {α : Type}
    {x : Exec World α} {post : α → Prop} (h : Ordinary s raises x post) :
    ∀ m : Machine World, m.registers.status.system = s →
      Ends (x m) (fun a m' => m.Effects m' ∧ post a)
        fun e m' => m.Effects m' ∧ (raises e ∨ e.IsFault) := by
  induction h with
  | pure h => exact fun _ _ => ⟨.refl, h⟩
  | bind _ _ first next =>
    intro m same
    refine (first m same).bind fun a m' reached => ?_
    -- no effect touches the system byte, so the second part begins with the same one
    refine (next a reached.2 m' (reached.1.unprivileged.system.trans same)).mono ?_ ?_
    · exact fun _ _ after => ⟨reached.1.trans after.1, after.2⟩
    · exact fun _ _ after => ⟨reached.1.trans after.1, after.2⟩
  | throw h => exact fun _ _ => ⟨.refl, .inl h⟩
  | registers => exact fun _ same => ⟨.refl, same⟩
  | update h => exact fun m same => ⟨.setRegisters (h m.registers same), trivial⟩
  | dataSpace => exact fun m same => ⟨.refl, isSupervisor_space m same false⟩
  | programSpace => exact fun m same => ⟨.refl, isSupervisor_space m same true⟩
  | read size address level =>
    intro m same
    refine (read_effects size address (level.trans (has_supervisor_of_same m same))).mono ?_ ?_
    · exact fun _ _ after => ⟨after, trivial⟩
    · exact fun _ _ after => ⟨after.1, .inr after.2⟩
  | write size address value level =>
    intro m same
    refine (write_effects size address value (level.trans (has_supervisor_of_same m same))).mono ?_ ?_
    · exact fun _ _ after => ⟨after, trivial⟩
    · exact fun _ _ after => ⟨after.1, .inr after.2⟩
  | requirePrivilege h =>
    intro m same
    unfold Exec.requirePrivilege
    split
    next supervisor => exact ⟨.refl, (has_supervisor_of_same m same).trans supervisor⟩
    next user =>
      have refused := (has_supervisor_of_same m same).trans (Bool.not_eq_true _ ▸ user)
      exact ⟨.refl, .inl (h refused)⟩

theorem Ordinary.activity_grows {s : StatusWord} {raises : Exception → Prop} {α : Type}
    {x : Exec World α} {post : α → Prop} (h : Ordinary s raises x post) {m : Machine World}
    (same : m.registers.status.system = s) : m.activity <+: (finalState (x m)).activity :=
  ((h.effects m same).mono (fun _ _ after => after.1.activity_grows)
    fun _ _ after => after.1.activity_grows).final

/-- An action guarded by the privilege has a sequence of effects. In supervisor mode one change more may
follow, and then the action completes. -/
theorem Guarded.outcome {s : StatusWord} {raises : Exception → Prop} {x : Exec World Nat}
    (h : Guarded s raises x) (m : Machine World) (same : m.registers.status.system = s) :
    Ends (x m)
      (fun _ m' => m.Effects m' ∨ m.registers.isSupervisor = true ∧
        ∃ (before : Machine World) (change : SupervisorChange),
          change.Implemented ∧ m.Effects before ∧ m' = change.apply before)
      fun e m' => m.Effects m' ∧ (raises e ∨ e.IsFault) := by
  induction h generalizing m with
  | ordinary h => exact (h.effects m same).mono (fun _ _ after => .inl after.1) fun _ _ after => after
  | bind first _ next =>
    refine (first.effects m same).bind fun a before reached => ?_
    have unprivileged := reached.1.unprivileged
    refine (next a reached.2 before (unprivileged.system.trans same)).mono ?_ ?_
    · rintro _ m' (after | ⟨supervisor, last, change, implemented, after, rfl⟩)
      · exact .inl (reached.1.trans after)
      · exact .inr ⟨unprivileged.isSupervisor.symm.trans supervisor, last, change, implemented,
          reached.1.trans after, rfl⟩
    · exact fun _ _ after => ⟨reached.1.trans after.1, after.2⟩
  | change change cost _ supervisor implemented act =>
    rw [act]
    exact .inr ⟨(has_supervisor_of_same m same).symm.trans supervisor, m, change, implemented, .refl,
      rfl⟩

theorem Guarded.isCost {s : StatusWord} {raises : Exception → Prop} {x : Exec World Nat}
    (h : Guarded s raises x) (m : Machine World) (same : m.registers.status.system = s) :
    Ends (x m) (fun cost _ => Timing.IsCost cost) fun _ _ => True := by
  induction h generalizing m with
  | ordinary h => exact (h.effects m same).mono (fun _ _ after => after.2) fun _ _ _ => trivial
  | bind first _ next =>
    refine Ends.bind ((first.effects m same).mono (fun _ _ => id) fun _ _ _ => trivial) ?_
    exact fun a before reached => next a reached.2 before (reached.1.unprivileged.system.trans same)
  | change change cost timed _ _ act =>
    rw [act]
    exact timed

theorem fetchWord_effects (m : Machine World) :
    Ends (fetchWord m) (fun _ m' => m.Effects m') fun e m' => m.Effects m' ∧ e.IsFault := by
  have fetch : Plain m.registers.status.system (fun _ => False)
      (fetchWord : Exec World (BitVec 16)) := plain_fetchWord
  apply (fetch.effects m rfl).mono
  · exact fun _ _ after => after.1
  · exact fun _ _ after => ⟨after.1, after.2.resolve_left id⟩

end Exec

/-- What the instruction of an opcode does: a sequence of effects and, in supervisor mode, one change more. -/
theorem Instruction.execute_outcome (opcode : BitVec 16) (m : Machine World) :
    Ends ((decode opcode).execute m)
      (fun _ m' => m.Effects m' ∨ m.registers.isSupervisor = true ∧
        ∃ (before : Machine World) (change : SupervisorChange),
          change.Implemented ∧ m.Effects before ∧ m' = change.apply before)
      fun e m' => m.Effects m' ∧ ((decode opcode).MayRaise e ∨ e.IsFault) :=
  (guarded_execute m.registers.status.system (encodable_decode opcode)).outcome m rfl

end MC68000
