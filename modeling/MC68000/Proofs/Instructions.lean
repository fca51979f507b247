import MC68000.Proofs.Ordinary.Arithmetic
import MC68000.Proofs.Ordinary.Transfer

set_option autoImplicit false

namespace MC68000

variable {World : Type}

namespace Exec

variable {s : StatusWord} {raises : Exception → Prop}

/-- A privileged instruction goes on only in supervisor mode. -/
theorem Guarded.privileged {f : Unit → Exec World Nat}
    (refuses : s.has .supervisor = false → raises .privilege)
    (next : s.has .supervisor = true → Guarded s raises (f ())) :
    Guarded s raises (requirePrivilege >>= f) :=
  .bind (.requirePrivilege refuses) fun _ supervisor => next supervisor

theorem Guarded.andThen {α : Type} {x : Exec World α} {f : α → Exec World Nat}
    (first : Plain s raises x) (next : ∀ a, Guarded s raises (f a)) : Guarded s raises (x >>= f) :=
  .bind first fun a _ => next a

theorem implemented_setStatus (value : StatusWord) :
    (SupervisorChange.registers (·.setStatus value)).Implemented :=
  fun r _ => r.implemented_setStatus value

theorem guarded_logicToSr (refuses : s.has .supervisor = false → raises .privilege)
    (operation : LogicOperation) :
    Guarded s raises (logicToSr operation : Exec World Nat) := by
  refine .privileged refuses fun supervisor => .andThen plain_fetchWord fun value => ?_
  refine .bind ordinary_status fun old _ => ?_
  exact .change (.registers (·.setStatus (logicOnStatus operation old value))) 20 (by decide)
    supervisor (implemented_setStatus _) fun _ => rfl

theorem guarded_moveToSr (refuses : s.has .supervisor = false → raises .privilege)
    (source : AddressingMode) :
    Guarded s raises (moveToSr source : Exec World Nat) := by
  refine .privileged refuses fun supervisor => .andThen (plain_loadFrom source .word) fun value => ?_
  exact .change (.registers (·.setStatus (value.setWidth 16))) _
    (Timing.Within.add_operand (by decide) source .word) supervisor (implemented_setStatus _) fun _ => rfl

theorem guarded_moveToUsp (refuses : s.has .supervisor = false → raises .privilege)
    (n : Fin 8) :
    Guarded s raises (moveToUsp n : Exec World Nat) := by
  refine .privileged refuses fun supervisor => ?_
  refine .change (.registers fun r => r.setUserStack (r.a.get n)) 4 (by decide) supervisor ?_
    fun _ => rfl
  intro r implemented
  dsimp only
  unfold Registers.setUserStack
  split <;> exact implemented

theorem timed_moveFromUsp (refuses : s.has .supervisor = false → raises .privilege)
    (n : Fin 8) :
    Timed s raises (moveFromUsp n : Exec World Nat) := by
  refine .bind (.requirePrivilege refuses) fun _ _ => ?_
  exact (plain_update fun r => r.unprivileged_setAddress n _).andThen fun _ => .pure (by decide)

theorem guarded_reset (refuses : s.has .supervisor = false → raises .privilege) :
    Guarded s raises (reset : Exec World Nat) := by
  refine .privileged refuses fun supervisor => ?_
  refine .change .reset 132 (by decide) supervisor trivial fun m => ?_
  change EStateM.bind signalReset _ m = _
  cases hook : m.hooks.reset with
  | none => simp only [EStateM.bind, signalReset, SupervisorChange.apply, hook]; rfl
  | some f => simp only [EStateM.bind, signalReset, SupervisorChange.apply, hook]; rfl

theorem guarded_stop (refuses : s.has .supervisor = false → raises .privilege) :
    Guarded s raises (stop : Exec World Nat) := by
  refine .privileged refuses fun supervisor => .andThen plain_fetchWord fun value => ?_
  exact .change (.stop value) 4 (by decide) supervisor trivial fun _ => rfl

theorem guarded_rte (refuses : s.has .supervisor = false → raises .privilege) :
    Guarded s raises (rte : Exec World Nat) := by
  refine .privileged refuses fun supervisor => .andThen (plain_pull .word) fun status => ?_
  refine .andThen (plain_pull .long) fun pc => ?_
  refine .change (.registers fun r => { r.setStatus (status.setWidth 16) with pc }) 20 (by decide)
    supervisor ?_ fun _ => rfl
  exact implemented_setStatus _

end Exec

namespace Instruction

/-- The refusal that an instruction ends in, in supervisor mode or in user mode. -/
def refusal? (supervisor : Bool) : Instruction → Option Exception
  | illegal | illegalExtended => some .illegal
  | illegalPrivileged => some (if supervisor then .illegal else .privilege)
  | lineA => some .lineA
  | lineF => some .lineF
  | logicToSr _ | moveToSr _ | moveToUsp _ | moveFromUsp _ | reset | stop | rte =>
    if supervisor then none else some .privilege
  | _ => none

/-- The trap that an instruction is named for. -/
def Traps (instruction : Instruction) (e : Exception) : Prop :=
  match instruction with
  | trap n => e = .trap (.trap n) Timing.exception
  | trapv => e = .trap .overflow Timing.exception
  | chk bound _ => e = .trap .check (Timing.checkTrap + Timing.operand bound .word)
  | divu source _ | divs source _ =>
    e = .trap .zeroDivide (Timing.zeroDivide + Timing.operand source .word)
  | _ => False

/-- The exceptions that an instruction raises by itself in a mode, apart from those of failed accesses. -/
def Raises (instruction : Instruction) (supervisor : Bool) (e : Exception) : Prop :=
  instruction.refusal? supervisor = some e ∨ instruction.Traps e

/-- The exceptions that an instruction raises by itself, apart from those of failed accesses. -/
def MayRaise (instruction : Instruction) (e : Exception) : Prop :=
  e.IsRefusal ∨ instruction.Traps e

theorem MayRaise.not_isFault {instruction : Instruction} {e : Exception}
    (own : instruction.MayRaise e) : ¬e.IsFault := by
  intro fault
  rcases own with refused | traps
  · cases e <;> first | exact fault | exact refused
  · unfold Traps at traps
    split at traps
    case h_6 => exact traps
    all_goals
      rw [traps] at fault
      exact fault

theorem isRefusal_of_refusal? {instruction : Instruction} {supervisor : Bool} {e : Exception}
    (h : instruction.refusal? supervisor = some e) : e.IsRefusal := by
  cases supervisor <;> cases instruction <;> cases h <;> trivial

/-- An instruction that ends in a change which is left to the supervisor. -/
def IsSupervisory : Instruction → Prop
  | logicToSr _ | moveToSr _ | moveToUsp _ | reset | stop | rte => True
  | _ => False

theorem refused_in_user_mode {instruction : Instruction} {s : StatusWord}
    (h : instruction.refusal? false = some .privilege) (user : s.has .supervisor = false) :
    instruction.Raises (s.has .supervisor) .privilege := by
  rw [user]
  exact .inl h

open Exec in
/-- Every other instruction is an ordinary action, whatever the system byte. It is refused where its form
says so, and never for its operand. -/
theorem timed_raises (s : StatusWord) {instruction : Instruction} (encodable : instruction.Encodable)
    (ordinary : ¬instruction.IsSupervisory) :
    Timed s (instruction.Raises (s.has .supervisor)) (instruction.execute : Exec World Nat) := by
  have alterable {mode : AddressingMode} (h : mode.isDataAlterable = true) :
      mode.isAlterable = true := AddressingMode.isAlterable_of_isDataAlterable h
  have inMemory {mode : AddressingMode} (h : mode.isMemoryAlterable = true) :
      mode.isAlterable = true := AddressingMode.isAlterable_of_isMemoryAlterable h
  cases instruction with
  | illegal => exact .throw (.inl rfl)
  | illegalPrivileged =>
    refine .bind (.requirePrivilege fun user => .inl ?_) fun _ supervisor => .throw (.inl ?_)
    · rw [user]
      rfl
    · rw [supervisor]
      rfl
  | illegalExtended => exact plain_fetchWord.andThen fun _ => .throw (.inl rfl)
  | lineA => exact .throw (.inl rfl)
  | lineF => exact .throw (.inl rfl)
  | immediate operation size destination =>
    exact timed_immediate operation size (alterable encodable)
  | logicToCcr operation => exact timed_logicToCcr operation
  | logicToSr operation => exact absurd trivial ordinary
  | bitLiteral operation destination => exact timed_bitLiteral encodable
  | bitRegister operation n destination =>
    exact timed_bitRegister encodable n
  | movepStore size data address => exact timed_movepStore size data address
  | movepLoad size data address => exact timed_movepLoad size data address
  | move size source destination => exact timed_move size source (alterable encodable)
  | movea size source n => exact timed_movea size source n
  | moveq value n => exact timed_moveq value n
  | unary operation size destination => exact timed_unary operation size (alterable encodable)
  | nbcd destination => exact timed_nbcd (alterable encodable)
  | tst size source => exact timed_tst size source
  | tas destination => exact timed_tas (alterable encodable)
  | swap n => exact timed_swap n
  | ext size n => exact timed_ext size n
  | lea source n => exact timed_lea encodable n
  | pea source => exact timed_pea encodable
  | chk bound n => exact timed_chk bound n (.inr rfl)
  | jmp target => exact timed_jmp encodable
  | jsr target => exact timed_jsr encodable
  | link n => exact timed_link n
  | unlk n => exact timed_unlk n
  | movemStore size destination => exact timed_movemStore size encodable
  | movemLoad size source => exact timed_movemLoad size encodable
  | moveFromSr destination => exact timed_moveFromSr (alterable encodable)
  | moveToCcr source => exact timed_moveToCcr source
  | moveToSr source => exact absurd trivial ordinary
  | moveToUsp n => exact absurd trivial ordinary
  | moveFromUsp n => exact timed_moveFromUsp (refused_in_user_mode rfl) n
  | trap n => exact .throw (.inr rfl)
  | trapv => exact timed_trapv (.inr rfl)
  | reset => exact absurd trivial ordinary
  | nop => exact .pure (by decide)
  | stop => exact absurd trivial ordinary
  | rte => exact absurd trivial ordinary
  | rts => exact timed_rts
  | rtr => exact timed_rtr
  | quick operation size value destination =>
    exact timed_quick operation size value encodable
  | scc condition destination => exact timed_scc condition (alterable encodable)
  | dbcc condition n => exact timed_dbcc condition n
  | bcc condition displacement => exact timed_bcc condition displacement
  | bsr displacement => exact timed_bsr displacement
  | sumToRegister operation size source n =>
    exact timed_sumToRegister operation size source n
  | sumToMemory operation size n destination =>
    exact timed_sumToMemory operation size n (inMemory encodable)
  | sumToAddress operation size source n => exact timed_sumToAddress operation size source n
  | extendedRegisters operation size x y =>
    exact timed_extendedRegisters operation size x y
  | extendedMemory operation size x y =>
    exact timed_extendedMemory operation size x y
  | cmp size source n => exact timed_cmp size source n
  | cmpa size source n => exact timed_cmpa size source n
  | cmpm size x y => exact timed_cmpm size x y
  | logicToRegister operation size source n =>
    exact timed_logicToRegister operation size source n
  | logicToMemory operation size n destination =>
    exact timed_logicToMemory operation size n (inMemory encodable)
  | eor size n destination => exact timed_eor size n (alterable encodable)
  | mulu source n => exact timed_mulu source n
  | muls source n => exact timed_muls source n
  | divu source n =>
    have within x y := (Timing.within_divu x y).mono (by decide : 136 ≤ 156)
    exact timed_divide source n _ within (.inr rfl)
  | divs source n => exact timed_divide source n _ Timing.within_divs (.inr rfl)
  | decimalRegisters operation x y => exact timed_decimalRegisters operation x y
  | decimalMemory operation x y => exact timed_decimalMemory operation x y
  | exg x y => exact timed_exg encodable.1 encodable.2
  | shiftRegister kind direction size count n =>
    exact timed_shiftRegister kind direction size n encodable
  | shiftMemory kind direction destination =>
    exact timed_shiftMemory kind direction (inMemory encodable)

open Exec in
/-- Every instruction is a guarded action, whatever the system byte. It is refused where its form says so,
and never for its operand. -/
theorem guarded_raises (s : StatusWord) {instruction : Instruction}
    (encodable : instruction.Encodable) :
    Guarded s (instruction.Raises (s.has .supervisor)) (instruction.execute : Exec World Nat) := by
  by_cases supervisory : instruction.IsSupervisory
  · cases instruction with
    | logicToSr operation => exact guarded_logicToSr (refused_in_user_mode rfl) operation
    | moveToSr source => exact guarded_moveToSr (refused_in_user_mode rfl) source
    | moveToUsp n => exact guarded_moveToUsp (refused_in_user_mode rfl) n
    | reset => exact guarded_reset (refused_in_user_mode rfl)
    | stop => exact guarded_stop (refused_in_user_mode rfl)
    | rte => exact guarded_rte (refused_in_user_mode rfl)
    | _ => exact supervisory.elim
  · exact .ordinary (timed_raises s encodable supervisory)

theorem guarded_execute (s : StatusWord) {instruction : Instruction}
    (encodable : instruction.Encodable) :
    Exec.Guarded s instruction.MayRaise (instruction.execute : Exec World Nat) :=
  (guarded_raises s encodable).mono fun _ raised => raised.imp_left isRefusal_of_refusal?

end Instruction

end MC68000
