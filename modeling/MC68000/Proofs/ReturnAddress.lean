import MC68000.Proofs.Step

set_option autoImplicit false

namespace MC68000

variable {World : Type}

/-- The bytes that the extension words of an addressing mode take. -/
def AddressingMode.extensionBytes (mode : AddressingMode) (size : Size) : BitVec 32 :=
  match mode with
  | dataRegister _ | addressRegister _ | indirect _ | postIncrement _ | preDecrement _ => 0
  | displaced _ | indexed _ | absoluteShort | programDisplaced | programIndexed => 2
  | absoluteLong => 4
  | immediate => if size = .long then 4 else 2

/-- The bytes between the opcode of an instruction that traps and the next instruction. -/
def Instruction.operandBytes : Instruction → BitVec 32
  | chk bound _ => bound.extensionBytes .word
  | divu source _ | divs source _ => source.extensionBytes .word
  | _ => 0

namespace Exec

/-- Moves the program counter by a distance, unless an access fails. -/
def Advances {α : Type} (distance : BitVec 32) (x : Exec World α) : Prop :=
  ∀ m, Ends (x m) (fun _ m' => m'.registers.pc = m.registers.pc + distance) fun e _ => e.IsFault

theorem Advances.pure {α : Type} (a : α) : Advances 0 (pure a : Exec World α) :=
  fun m => (BitVec.add_zero m.registers.pc).symm

theorem Advances.bind {α β : Type} {x : Exec World α} {f : α → Exec World β}
    {distance rest : BitVec 32} (first : Advances distance x) (next : ∀ a, Advances rest (f a)) :
    Advances (distance + rest) (x >>= f) := by
  intro m
  refine (first m).bind fun a m' moved => (next a m').mono (fun _ m'' last => ?_) fun _ _ => id
  rw [last, moved, BitVec.add_assoc]

theorem Advances.andThen {α β : Type} {x : Exec World α} {f : α → Exec World β}
    {distance : BitVec 32} (first : Advances distance x) (next : ∀ a, Advances 0 (f a)) :
    Advances distance (x >>= f) := by
  have whole : distance + 0 = distance := BitVec.add_zero distance
  rw [← whole]
  exact first.bind next

theorem Advances.after {α β : Type} {x : Exec World α} {f : α → Exec World β}
    {distance : BitVec 32} (first : Advances 0 x) (next : ∀ a, Advances distance (f a)) :
    Advances distance (x >>= f) := by
  have whole : 0 + distance = distance := BitVec.zero_add distance
  rw [← whole]
  exact first.bind next

theorem advances_registers : Advances 0 (registers : Exec World Registers) :=
  fun m => (BitVec.add_zero m.registers.pc).symm

theorem advances_update {f : Registers → Registers} {distance : BitVec 32}
    (h : ∀ r, (f r).pc = r.pc + distance) : Advances distance (update f : Exec World Unit) :=
  fun m => h m.registers

theorem advances_setAddress (n : Fin 8) (value : BitVec 32) :
    Advances 0 (update (·.setAddress n value) : Exec World Unit) :=
  advances_update fun r => (BitVec.add_zero r.pc).symm

theorem advances_cycle {α : Type} (space : AddressSpace) (address : BitVec 32)
    (transfer : BusTransfer) (access : MemoryMap World → Access World α) :
    Advances 0 (cycle space address transfer access) := by
  intro m
  unfold cycle
  cases access m.memory m.host with
  | ok value host => exact (BitVec.add_zero m.registers.pc).symm
  | error fault host => exact trivial

theorem advances_requireAligned (space : AddressSpace) (size : Size) (address : BitVec 32)
    (write : Bool) : Advances 0 (requireAligned space size address write : Exec World Unit) := by
  intro m
  unfold requireAligned
  split
  next => exact trivial
  next => exact (BitVec.add_zero m.registers.pc).symm

theorem advances_read (space : AddressSpace) (size : Size) (address : BitVec 32) :
    Advances 0 (read space size address : Exec World (BitVec 32)) := by
  refine (advances_requireAligned _ _ _ _).andThen fun _ => ?_
  cases size with
  | byte => exact (advances_cycle _ _ _ _).andThen fun _ => .pure _
  | word => exact (advances_cycle _ _ _ _).andThen fun _ => .pure _
  | long =>
    refine (advances_cycle _ _ _ _).andThen fun _ => ?_
    exact (advances_cycle _ _ _ _).andThen fun _ => .pure _

theorem advances_readData (size : Size) (address : BitVec 32) :
    Advances 0 (readData size address : Exec World (BitVec 32)) := by
  intro m
  exact advances_read m.dataSpace size address m

theorem advances_readProgram (size : Size) (address : BitVec 32) :
    Advances 0 (readProgram size address : Exec World (BitVec 32)) := by
  intro m
  exact advances_read m.programSpace size address m

theorem advances_fetchWord : Advances 2 (fetchWord : Exec World (BitVec 16)) := by
  refine advances_registers.after fun r => (advances_readProgram .word r.pc).after fun word => ?_
  exact (advances_update fun _ => rfl).andThen fun _ => .pure _

theorem advances_fetchDisplacement : Advances 2 (fetchDisplacement : Exec World (BitVec 32)) :=
  advances_fetchWord.andThen fun _ => .pure _

theorem advances_fetchLong : Advances 4 (fetchLong : Exec World (BitVec 32)) :=
  advances_fetchWord.bind fun _ => advances_fetchWord.andThen fun _ => .pure _

theorem advances_fetchImmediate (size : Size) :
    Advances (AddressingMode.immediate.extensionBytes size)
      (fetchImmediate size : Exec World (BitVec 32)) := by
  cases size with
  | byte => exact advances_fetchWord.andThen fun _ => .pure _
  | word => exact advances_fetchWord.andThen fun _ => .pure _
  | long => exact advances_fetchLong

theorem advances_locate (mode : AddressingMode) (size : Size) :
    Advances (mode.extensionBytes size) (locate mode size : Exec World Operand) := by
  cases mode with
  | dataRegister n => exact .pure _
  | addressRegister n => exact .pure _
  | indirect n => exact advances_registers.andThen fun _ => .pure _
  | postIncrement n =>
    exact advances_registers.andThen fun _ => (advances_setAddress n _).andThen fun _ => .pure _
  | preDecrement n =>
    exact advances_registers.andThen fun _ => (advances_setAddress n _).andThen fun _ => .pure _
  | displaced n =>
    exact advances_fetchDisplacement.andThen fun _ => advances_registers.andThen fun _ => .pure _
  | indexed n => exact advances_fetchWord.andThen fun _ => advances_registers.andThen fun _ => .pure _
  | absoluteShort => exact advances_fetchDisplacement.andThen fun _ => .pure _
  | absoluteLong => exact advances_fetchLong.andThen fun _ => .pure _
  | programDisplaced =>
    exact advances_registers.after fun _ => advances_fetchDisplacement.andThen fun _ => .pure _
  | programIndexed =>
    refine advances_registers.after fun _ => advances_fetchWord.andThen fun _ => ?_
    exact advances_registers.andThen fun _ => .pure _
  | immediate => exact (advances_fetchImmediate size).andThen fun _ => .pure _

theorem advances_load (operand : Operand) (size : Size) :
    Advances 0 (load operand size : Exec World (BitVec 32)) := by
  cases operand with
  | dataRegister n => exact advances_registers.andThen fun _ => .pure _
  | addressRegister n => exact advances_registers.andThen fun _ => .pure _
  | memory address => exact advances_readData size address
  | program address => exact advances_readProgram size address
  | value value => exact .pure _

theorem advances_loadFrom (mode : AddressingMode) (size : Size) :
    Advances (mode.extensionBytes size) (loadFrom mode size : Exec World (BitVec 32)) :=
  (advances_locate mode size).andThen fun target => advances_load target size

/-- Whatever is raised, but for failed accesses, is raised at a distance from the program counter. -/
def RaisesAt {α : Type} (distance : BitVec 32) (x : Exec World α) : Prop :=
  ∀ m, Ends (x m) (fun _ _ => True)
    fun e m' => e.IsFault ∨ m'.registers.pc = m.registers.pc + distance

theorem raisesAt_pure {α : Type} (a : α) : RaisesAt 0 (pure a : Exec World α) := fun _ => trivial

theorem raisesAt_throw {α : Type} (e : Exception) : RaisesAt 0 (throw e : Exec World α) :=
  fun m => .inr (BitVec.add_zero m.registers.pc).symm

/-- What is raised after the program counter has moved and come to rest. -/
theorem Advances.raisesAt {α β : Type} {x : Exec World α} {f : α → Exec World β}
    {distance : BitVec 32} (first : Advances distance x) (next : ∀ a, RaisesAt 0 (f a)) :
    RaisesAt distance (x >>= f) := by
  intro m
  refine ((first m).mono (fun _ _ => id) fun _ _ => .inl).bind fun a m' moved => ?_
  refine (next a m').mono (fun _ _ => id) fun e m'' raised => raised.imp_right fun still => ?_
  rw [still, moved]
  exact BitVec.add_zero _

theorem advances_setStatus (value : StatusWord) : Advances 0 (setStatus value : Exec World Unit) := by
  refine advances_update fun r => ?_
  unfold Registers.setStatus
  dsimp only
  split <;> exact (BitVec.add_zero r.pc).symm

theorem advances_status : Advances 0 (status : Exec World StatusWord) :=
  advances_registers.andThen fun _ => .pure _

theorem raisesAt_trapv : RaisesAt 0 (trapv : Exec World Nat) := by
  refine advances_status.raisesAt fun value => ?_
  split
  · exact raisesAt_throw _
  · exact raisesAt_pure _

theorem raisesAt_chk (bound : AddressingMode) (n : Fin 8) :
    RaisesAt (bound.extensionBytes .word) (chk bound n : Exec World Nat) := by
  refine (advances_loadFrom bound .word).raisesAt fun limit => ?_
  refine advances_registers.raisesAt fun r => ?_
  dsimp only
  split
  · exact (advances_setStatus _).raisesAt fun _ => raisesAt_throw _
  · exact (advances_setStatus _).raisesAt fun _ => raisesAt_pure _

theorem raisesAt_divide (source : AddressingMode) (n : Fin 8)
    (quotient? : BitVec 32 → BitVec 16 → Option Arithmetic.Quotient)
    (cost : BitVec 32 → BitVec 16 → Nat) :
    RaisesAt (source.extensionBytes .word) (divide source n quotient? cost : Exec World Nat) := by
  refine (advances_loadFrom source .word).raisesAt fun divisor => ?_
  refine advances_registers.raisesAt fun r => ?_
  dsimp only
  split
  · exact (advances_setStatus _).raisesAt fun _ => raisesAt_throw _
  · split
    · exact (advances_setStatus _).raisesAt fun _ => raisesAt_pure _
    · refine Advances.raisesAt (advances_update fun r => (BitVec.add_zero r.pc).symm) fun _ => ?_
      exact (advances_setStatus _).raisesAt fun _ => raisesAt_pure _

end Exec

theorem Instruction.traps_of_mayRaise {instruction : Instruction} {vector : VectorNumber} {cost : Nat}
    (h : instruction.MayRaise (.trap vector cost)) :
    (∃ n, instruction = .trap n) ∨ instruction = .trapv ∨ (∃ bound n, instruction = .chk bound n) ∨
      (∃ source n, instruction = .divu source n) ∨ ∃ source n, instruction = .divs source n := by
  rcases h with refusal | named
  · exact refusal.elim
  · unfold Instruction.Traps at named
    split at named
    next n => exact .inl ⟨n, rfl⟩
    next => exact .inr (.inl rfl)
    next bound n => exact .inr (.inr (.inl ⟨bound, n, rfl⟩))
    next source n => exact .inr (.inr (.inr (.inl ⟨source, n, rfl⟩)))
    next source n => exact .inr (.inr (.inr (.inr ⟨source, n, rfl⟩)))
    next => exact named.elim

/-- An instruction that traps has taken all its words by then. -/
theorem Instruction.pc_of_trap {instruction : Instruction} {vector : VectorNumber} {cost : Nat}
    (named : instruction.MayRaise (.trap vector cost)) {m m' : Machine World}
    (traps : instruction.execute m = .error (.trap vector cost) m') :
    m'.registers.pc = m.registers.pc + instruction.operandBytes := by
  have raisesAt : Exec.RaisesAt instruction.operandBytes (instruction.execute : Exec World Nat) := by
    obtain ⟨n, rfl⟩ | rfl | ⟨bound, n, rfl⟩ | ⟨source, n, rfl⟩ | ⟨source, n, rfl⟩ :=
      traps_of_mayRaise named
    · exact Exec.raisesAt_throw _
    · exact Exec.raisesAt_trapv
    · exact Exec.raisesAt_chk bound n
    · exact Exec.raisesAt_divide source n _ _
    · exact Exec.raisesAt_divide source n _ _
  have ends := raisesAt m
  rw [traps] at ends
  exact ends.resolve_left id

/-- The next instruction traps past its last word. -/
theorem Exec.nextInstruction_traps (m : Machine World) :
    Ends (Exec.nextInstruction m) (fun _ _ => True) fun e m' => ∀ vector cost,
      e = .trap vector cost → m'.registers.pc =
        m.registers.pc + 2 + (Instruction.decode m'.opcode).operandBytes := by
  unfold Exec.nextInstruction
  refine ((Exec.advances_fetchWord m).mono (fun _ _ => id) ?_).bind fun opcode fetched moved => ?_
  · rintro _ _ fault vector cost rfl
    exact fault.elim
  · have outcome := Instruction.execute_outcome opcode { fetched with opcode }
    change Ends ((Instruction.decode opcode).execute { fetched with opcode }) _ _
    cases found : (Instruction.decode opcode).execute { fetched with opcode } with
    | ok cost after => exact trivial
    | error e after =>
      rw [found] at outcome
      rintro vector cost rfl
      rw [Instruction.pc_of_trap (outcome.2.resolve_right id) found, outcome.1.opcode]
      exact congrArg (· + _) moved

/-- Why an exception with a short frame is processed. -/
def Cause.IsShort : Cause → Prop
  | .exception e => ¬e.IsFault
  | .trace | .interrupt _ _ => True

def Cause.vector : Cause → VectorNumber
  | .exception (.busError _) => .busError
  | .exception (.addressError _) => .addressError
  | .exception .illegal => .illegal
  | .exception .privilege => .privilege
  | .exception .lineA => .lineA
  | .exception .lineF => .lineF
  | .exception (.trap vector _) => vector
  | .trace => .trace
  | .interrupt _ vector => vector

namespace Machine

/-- Where the program goes on after the exception that a step comes to. -/
def returnAddress (m : Machine World) : Cause → BitVec 32
  | .exception (.trap _ _) =>
    m.registers.pc + 2 + (Instruction.decode m.prologue.machine.opcode).operandBytes
  | .trace => m.prologue.machine.registers.pc
  | _ => m.registers.pc

/-- Where the exception of an instruction comes from. -/
theorem nextInstruction_of_exception {m : Machine World} {e : Exception}
    (found : m.prologue.cause = some (.exception e)) :
    m.state = .running ∧ Exec.nextInstruction m.beginning = .error e m.prologue.machine := by
  obtain ⟨same, _⟩ | ⟨level, _, _, same⟩ | ⟨running, _, same⟩ := m.prologue_cases
  · rw [same] at found
    cases found
  · rw [same] at found
    cases found
  · refine ⟨running, ?_⟩
    rw [same] at found ⊢
    unfold instructionPrologue at found ⊢
    dsimp only at found ⊢
    split at found
    next => split at found <;> cases found
    next raised =>
      cases found
      exact raised

/-- The exception of an instruction is processed at the address of its opcode. -/
theorem instructionAddress_prologue {m : Machine World} {e : Exception}
    (found : m.prologue.cause = some (.exception e)) :
    m.prologue.machine.instructionAddress = m.registers.pc := by
  have outcome := nextInstruction_outcome m.beginning
  rw [(nextInstruction_of_exception found).2] at outcome
  rw [outcome.1.frame]
  rfl

/-- Refused instructions are returned to, and all others returned from. -/
theorem entry_prologue {m : Machine World} {cause : Cause} (found : m.prologue.cause = some cause)
    (short : cause.IsShort) :
    ∃ mask, m.prologue.machine.entry cause = .short cause.vector (m.returnAddress cause) mask := by
  cases cause with
  | trace => exact ⟨none, rfl⟩
  | interrupt level vector =>
    obtain ⟨same, _⟩ | ⟨highest, _, _, same⟩ | ⟨_, _, same⟩ := m.prologue_cases
    · rw [same] at found
      cases found
    · rw [same, entry, registers_takeRequest]
      exact ⟨some level, rfl⟩
    · rw [same] at found
      obtain ⟨_, other, _⟩ | ⟨other | ⟨other, _⟩, _⟩ := instructionPrologue_cases { m with activity := [] }
      all_goals
        rw [other] at found
        cases found
  | exception e =>
    have raised := (nextInstruction_of_exception found).2
    have traps := Exec.nextInstruction_traps m.beginning
    rw [raised] at traps
    have refused := instructionAddress_prologue found
    cases e with
    | busError fault => exact (short trivial).elim
    | addressError fault => exact (short trivial).elim
    | illegal => exact ⟨none, congrArg (Entry.short _ · none) refused⟩
    | privilege => exact ⟨none, congrArg (Entry.short _ · none) refused⟩
    | lineA => exact ⟨none, congrArg (Entry.short _ · none) refused⟩
    | lineF => exact ⟨none, congrArg (Entry.short _ · none) refused⟩
    | trap vector cost => exact ⟨none, congrArg (Entry.short _ · none) (traps vector cost rfl)⟩

theorem state_prologue {m : Machine World} {cause : Cause} (found : m.prologue.cause = some cause) :
    m.prologue.machine.state = .running := by
  obtain ⟨same, _⟩ | ⟨level, _, _, same⟩ | ⟨running, _, same⟩ := m.prologue_cases
  · rw [same] at found
    cases found
  · rw [same]
    rfl
  · rw [same] at found ⊢
    obtain ⟨_, _, executes, _⟩ | ⟨none | ⟨_, _, running⟩, _⟩ :=
      instructionPrologue_cases { m with activity := [] }
    · rw [executes.state]
      exact running
    · rw [none] at found
      cases found
    · exact running

end Machine

end MC68000
