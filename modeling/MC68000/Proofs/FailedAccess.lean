import MC68000.Proofs.Attempts
import MC68000.Proofs.ReturnAddress
import MC68000.Proofs.Settling.Execution

set_option autoImplicit false

namespace MC68000

variable {World : Type}

/-- The access that failed is a write. -/
def Exception.failedWrite : Exception → Bool
  | busError fault | addressError fault => fault.write
  | _ => false

/-- An instruction sets its flags after the access that raises the exception. The only ones that come after the
flags are the stores of TAS and of the changes of a single bit. -/
def Instruction.FlagsFollow (e : Exception) : Instruction → Prop
  | tas _ => e.failedWrite = false
  | bitLiteral operation _ | bitRegister operation _ _ => operation = .test ∨ e.failedWrite = false
  | _ => True

namespace Registers

variable {r r' : Registers} {data : Prop}

theorem Kept.status_eq (kept : Kept (BitVec.allOnes 16) data r r') : r'.status = r.status := by
  have same := kept.status
  rwa [BitVec.and_allOnes, BitVec.and_allOnes] at same

theorem Kept.weaken (kept : Kept (BitVec.allOnes 16) True r r') (bits : StatusWord) :
    Kept bits data r r' := by
  constructor
  · rw [kept.status_eq]
  · exact fun _ => kept.d trivial

end Registers

namespace Exec

theorem kept_fetchWord (m : Machine World) :
    Ends (fetchWord m)
      (fun _ m' => m.registers.Kept (BitVec.allOnes 16) True m'.registers)
      fun _ m' => m.registers.Kept (BitVec.allOnes 16) True m'.registers := by
  have access : Accesses (BitVec.allOnes 16) True 1 (fetchWord : Exec World (BitVec 16)) :=
    accesses_fetchWord
  apply (access m).mono
  · exact fun _ _ reached => reached.2.2
  · exact fun _ _ => id

theorem failedWrite_write (space : AddressSpace) (size : Size) (address value : BitVec 32)
    (m : Machine World) :
    Ends (write space size address value m) (fun _ _ => True) fun e _ => e.failedWrite = true := by
  apply (write_ends space size address value m).mono
  · exact fun _ _ _ => trivial
  · intro e m' raises
    cases raises with
    | addressError _ => rfl
    | @busError b _ _ _ made unserved =>
      rw [unserved.names]
      exact (MemoryAccess.names_of_mem_cycles made).2

/-- Where a read fails, an action has not changed the status word. -/
def FlagsAfterReads {α : Type} (x : Exec World α) : Prop :=
  ∀ m : Machine World, Ends (x m) (fun _ _ => True) fun e m' =>
    e.IsFault → e.failedWrite = false → m'.registers.status = m.registers.status

section

variable {α β : Type} {cycles : Nat} {x : Exec World α} {f : α → Exec World β} {post : α → Prop}

theorem FlagsAfterReads.bind
    (first : Spares (BitVec.allOnes 16) True cycles x post)
    (next : ∀ a, post a → FlagsAfterReads (f a)) : FlagsAfterReads (x >>= f) := by
  intro m
  have start : Ends (x m)
      (fun a m' => post a ∧ m.registers.Kept (BitVec.allOnes 16) True m'.registers)
      fun e m' => e.IsFault → e.failedWrite = false → m'.registers.status = m.registers.status :=
    (first m).mono (fun _ _ reached => ⟨reached.1, reached.2.2⟩) fun _ _ kept _ _ => kept.status_eq
  apply start.bind
  rintro a m' ⟨given, kept⟩
  apply (next a given m').mono
  · exact fun _ _ => id
  · exact fun _ _ same fault read => (same fault read).trans kept.status_eq

theorem FlagsAfterReads.andPure {g : α → β} (h : FlagsAfterReads x) :
    FlagsAfterReads (x >>= fun a => (pure (g a) : Exec World β)) := by
  intro m
  exact (h m).bind fun _ _ _ => trivial

theorem FlagsAfterReads.of_failedWrite
    (writes : ∀ m : Machine World, Ends (x m) (fun _ _ => True) fun e _ => e.IsFault → e.failedWrite = true) :
    FlagsAfterReads x := by
  intro m
  apply (writes m).mono
  · exact fun _ _ => id
  · intro e _ write fault read
    rw [write fault] at read
    cases read

end

theorem flagsAfterReads_setStatus_store (value : StatusWord → StatusWord) (target : Operand) (size : Size)
    (result : BitVec 32) (cost : Nat) : FlagsAfterReads (do
      setStatus (value (← status))
      store target size result
      return cost : Exec World Nat) := by
  -- the flags are set by now, so nothing may be read any more
  apply FlagsAfterReads.of_failedWrite
  intro m
  have stores (m : Machine World) : Ends (store target size result m) (fun _ _ => True)
      fun e _ => e.IsFault → e.failedWrite = true := by
    cases target with
    | dataRegister n | addressRegister n => exact trivial
    | memory address =>
      exact (failedWrite_write m.dataSpace size address result m).mono (fun _ _ => id) fun _ _ write _ => write
    | program address | value value => exact False.elim
  exact (stores (m.mapRegisters fun r => r.setStatus (value r.status))).bind fun _ _ _ => trivial

theorem flagsAfterReads_tas (destination : AddressingMode) :
    FlagsAfterReads (tas destination : Exec World Nat) := by
  apply FlagsAfterReads.bind (spares_locate destination .byte)
  intro target located
  apply FlagsAfterReads.bind (accesses_load located .byte)
  intro value _
  exact flagsAfterReads_setStatus_store (fun old => old.withLogical .byte value) target .byte _ _

theorem flagsAfterReads_bit {operation : BitOperation} (change : operation ≠ .test) (number : BitVec 32)
    (destination : AddressingMode) :
    FlagsAfterReads (bit operation number destination : Exec World Nat) := by
  apply FlagsAfterReads.bind (spares_locate destination _)
  intro target located
  apply FlagsAfterReads.bind (accesses_load located _)
  intro value _
  rw [if_neg change]
  exact flagsAfterReads_setStatus_store (fun old => old.setIf .zero _) target _ _ _

theorem flagsAfterReads_bitLiteral {operation : BitOperation} (change : operation ≠ .test)
    (destination : AddressingMode) :
    FlagsAfterReads (bitLiteral operation destination : Exec World Nat) := by
  apply FlagsAfterReads.bind (accesses_fetchImmediate .byte)
  exact fun number _ => (flagsAfterReads_bit change number destination).andPure

theorem flagsAfterReads_bitRegister {operation : BitOperation} (change : operation ≠ .test) (n : Fin 8)
    (destination : AddressingMode) :
    FlagsAfterReads (bitRegister operation n destination : Exec World Nat) := by
  apply FlagsAfterReads.bind accesses_registers
  exact fun r _ => flagsAfterReads_bit change (r.d.get n) destination

end Exec

namespace Instruction

/-- STOP makes its only access before it does anything else. -/
theorem kept_execute (opcode : BitVec 16) (m : Machine World) :
    Ends ((decode opcode).execute m) (fun _ _ => True) fun e m' => e.IsFault →
      m.registers.Kept (decode opcode).keptBits (decode opcode).KeepsData m'.registers := by
  have settles : Exec.Settles (decode opcode).keptBits (decode opcode).KeepsData 0
      ((decode opcode).execute : Exec World Nat) := by
    by_cases stop : decode opcode = .stop
    · rw [stop]
      exact Exec.settles_stop
    · exact (settles_execute (encodable_decode opcode) stop).mono (Nat.zero_le 1)
  apply (settles m).mono
  · exact fun _ _ _ => trivial
  · exact fun _ _ => id

/-- The instruction keeps all of the status word, unless it is one that sets flags before it stores. -/
theorem keptBits_or_flagsAfterReads (World : Type) (instruction : Instruction) :
    instruction.keptBits = BitVec.allOnes 16 ∨
      (∀ e, instruction.FlagsFollow e → e.failedWrite = false) ∧
        Exec.FlagsAfterReads (instruction.execute : Exec World Nat) := by
  have bits {operation : BitOperation} (test : operation = .test) :
      operation.kept = BitVec.allOnes 16 := by
    rw [test]
    rfl
  cases instruction with
  | tas destination => exact .inr ⟨fun _ => id, Exec.flagsAfterReads_tas destination⟩
  | bitLiteral operation destination =>
    by_cases test : operation = .test
    · exact .inl (bits test)
    · refine .inr ⟨?_, Exec.flagsAfterReads_bitLiteral test destination⟩
      exact fun _ follow => follow.resolve_left test
  | bitRegister operation n destination =>
    by_cases test : operation = .test
    · exact .inl (bits test)
    · refine .inr ⟨?_, Exec.flagsAfterReads_bitRegister test n destination⟩
      exact fun _ follow => follow.resolve_left test
  | _ => exact .inl rfl

/-- What an instruction leaves alone where one of its accesses fails. -/
structure Spares (instruction : Instruction) (e : Exception) (r r' : Registers) : Prop where
  status : instruction.FlagsFollow e → r'.status = r.status
  kept : r.Kept instruction.keptBits instruction.KeepsData r'

theorem spares_execute (opcode : BitVec 16) (m : Machine World) :
    Ends ((decode opcode).execute m) (fun _ _ => True) fun e m' => e.IsFault →
      (decode opcode).Spares e m.registers m'.registers := by
  have kept := kept_execute opcode m
  cases done : (decode opcode).execute m with
  | ok cost m' => exact trivial
  | error e m' =>
    rw [done] at kept
    intro fault
    refine ⟨fun follow => ?_, kept fault⟩
    rcases (decode opcode).keptBits_or_flagsAfterReads World with all | ⟨read, after⟩
    · have whole := kept fault
      rw [all] at whole
      exact whole.status_eq
    · have same := after m
      rw [done] at same
      exact same fault (read e follow)

end Instruction

/-- Fetched and executed, an instruction leaves alone what it leaves alone when it is executed. -/
theorem Exec.spares_nextInstruction (m : Machine World) :
    Ends (nextInstruction m) (fun _ _ => True) fun e m' => e.IsFault →
      (Instruction.decode m'.opcode).Spares e m.registers m'.registers := by
  have fetch : Ends (fetchWord m)
      (fun _ m' => m.registers.Kept (BitVec.allOnes 16) True m'.registers) fun e m' => e.IsFault →
        (Instruction.decode m'.opcode).Spares e m.registers m'.registers :=
    (kept_fetchWord m).mono (fun _ _ => id) fun _ _ kept _ =>
      ⟨fun _ => kept.status_eq, kept.weaken _⟩
  unfold nextInstruction
  apply fetch.bind
  intro opcode fetched kept
  have executed := Instruction.spares_execute opcode { fetched with opcode }
  have outcome := Instruction.execute_outcome opcode { fetched with opcode }
  change Ends ((Instruction.decode opcode).execute { fetched with opcode }) _ _
  cases done : (Instruction.decode opcode).execute { fetched with opcode } with
  | ok cost m' => exact trivial
  | error e m' =>
    rw [done] at executed outcome
    intro fault
    have same : m'.opcode = opcode := outcome.1.opcode
    have spares := executed fault
    rw [same]
    exact ⟨fun follow => (spares.status follow).trans kept.status_eq, (kept.weaken _).trans spares.kept⟩

/-- An access that fails finds the condition codes as they were before the instruction, unless it is the store
of TAS, BCHG, BCLR or BSET. These have changed no bits of the status word by then but the flags that they
set. The data registers are as they were, unless several of them are being loaded. In a step, this holds of
the status word and the data registers with which the processing of the bus or address error begins. -/
theorem Machine.flags_kept_by_fault {e : Exception} (fault : e.IsFault) (m : Machine World) :
    (∀ m', Exec.fetchWord m = .error e m' →
      m'.registers.status = m.registers.status ∧ m'.registers.d = m.registers.d) ∧
    (∀ opcode m', (Instruction.decode opcode).execute m = .error e m' →
      ((Instruction.decode opcode).FlagsFollow e → m'.registers.status = m.registers.status) ∧
      m'.registers.status &&& (Instruction.decode opcode).keptBits =
        m.registers.status &&& (Instruction.decode opcode).keptBits ∧
      ((Instruction.decode opcode).KeepsData → m'.registers.d = m.registers.d)) ∧
    let began := m.prologue.machine
    m.prologue.cause = some (.exception e) →
      ((Instruction.decode began.opcode).FlagsFollow e →
        began.registers.status = m.registers.status) ∧
      began.registers.status &&& (Instruction.decode began.opcode).keptBits =
        m.registers.status &&& (Instruction.decode began.opcode).keptBits ∧
      ((Instruction.decode began.opcode).KeepsData → began.registers.d = m.registers.d) := by
  refine ⟨?_, ?_, ?_⟩
  · intro m' fails
    have kept := Exec.kept_fetchWord m
    rw [fails] at kept
    exact ⟨kept.status_eq, kept.d trivial⟩
  · intro opcode m' fails
    have executed := Instruction.spares_execute opcode m
    rw [fails] at executed
    have spares := executed fault
    exact ⟨spares.status, spares.kept.status, spares.kept.d⟩
  · intro began found
    have raised := (nextInstruction_of_exception found).2
    have next := Exec.spares_nextInstruction m.beginning
    rw [raised] at next
    have spares := next fault
    exact ⟨spares.status, spares.kept.status, spares.kept.d⟩

/-- A processor with sixteen bytes of memory that can be read and executed but not written: BSET D0,(A0) at
address 0 and MOVE.B D0,(A0) at address 2, where A0 leads to the end. -/
def Machine.settingInRom : Machine Unit :=
  { new .standard ⟨#[#[0x01, 0xD0, 0x10, 0x80, 0, 0, 0, 0, 0, 0, 0, 0, 0, 0, 0, 0]], .none, ()⟩
      fun _ world => world with
    registers := Registers.initial.setAddress 0 8
    memory := ⟨RegionTable.empty.mapRom ⟨0, 15⟩ 0, .empty, .standard⟩
    state := .running }

/-- MOVE sets its flags after the store that fails. -/
theorem Machine.flags_kept_by_fault_move : ∃ m' : Machine Unit,
    (Instruction.decode 0x1080).execute settingInRom =
        .error (.busError ⟨8, .supervisorData, true, true⟩) m' ∧
      m'.registers.status = 0x2700 := by
  have fails : (Instruction.decode 0x1080).execute settingInRom =
      .error (.busError ⟨8, .supervisorData, true, true⟩)
        (finalState ((Instruction.decode 0x1080).execute settingInRom)) := rfl
  have fault : (Exception.busError ⟨8, .supervisorData, true, true⟩).IsFault := trivial
  have kept := ((flags_kept_by_fault fault settingInRom).2.1 0x1080 _ fails).1 trivial
  exact ⟨_, fails, kept⟩

/-- BSET has set Z for a bit that it could not set. -/
theorem Machine.zero_set_by_failed_bset : ∃ (e : Exception) (m' : Machine Unit), e.IsFault ∧
    (Instruction.decode 0x01D0).execute settingInRom = .error e m' ∧
      settingInRom.registers.status = 0x2700 ∧ m'.registers.status = 0x2704 ∧
      settingInRom.prologue.cause = some (.exception e) ∧
      settingInRom.prologue.machine.registers.status = 0x2704 :=
  ⟨.busError ⟨8, .supervisorData, true, true⟩, _, trivial, rfl, rfl, rfl, rfl, rfl⟩

end MC68000
