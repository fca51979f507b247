import MC68000.Proofs.AccessErrors
import MC68000.Proofs.Length.Instructions
import MC68000.Proofs.Refusal

set_option autoImplicit false

namespace MC68000

variable {World : Type}

namespace Instruction

/-- The words that follow the opcode. -/
def extensionWords : Instruction → Nat
  | illegalExtended | logicToCcr _ | logicToSr _ | movepStore _ _ _ | movepLoad _ _ _ | link _ | stop
  | dbcc _ _ => 1
  | immediate _ size destination => size.cycles + destination.words size
  | bitLiteral _ destination => 1 + destination.words .byte
  | move size source destination => source.words size + destination.words size
  | movemStore _ mode | movemLoad _ mode => 1 + mode.words .long
  | bcc _ displacement | bsr displacement => if displacement = 0 then 1 else 0
  | bitRegister _ _ mode | nbcd mode | tas mode | scc _ mode => mode.words .byte
  | chk mode _ | moveFromSr mode | moveToCcr mode | moveToSr mode | mulu mode _ | muls mode _
  | divu mode _ | divs mode _ | shiftMemory _ _ mode => mode.words .word
  | lea mode _ | pea mode | jmp mode | jsr mode => mode.words .long
  | movea size mode _ | unary _ size mode | tst size mode | quick _ size _ mode
  | sumToRegister _ size mode _ | sumToMemory _ size _ mode | sumToAddress _ size mode _
  | cmp size mode _ | cmpa size mode _ | logicToRegister _ size mode _ | logicToMemory _ size _ mode
  | eor size _ mode => mode.words size
  | _ => 0

/-- The bytes of the opcode and of the words that follow it. -/
def length (instruction : Instruction) : Nat := 2 * (1 + instruction.extensionWords)

/-- The instruction goes elsewhere than to the next one: to a target, to a caller, or around a loop. -/
def Branches (instruction : Instruction) (r : Registers) : Prop :=
  match instruction with
  | jmp _ | jsr _ | bsr _ | rts | rtr | rte => True
  | bcc condition _ => condition.holds r.status = true
  | dbcc condition n => condition.holds r.status = false ∧ (r.d.get n).setWidth 16 ≠ 0#16
  | _ => False

def IsCall : Instruction → Prop
  | jsr _ | bsr _ => True
  | _ => False

theorem words_le (mode : AddressingMode) (size : Size) : mode.words size ≤ 2 := by
  cases mode <;> cases size <;> simp [AddressingMode.words, Size.cycles]

theorem cycles_le (size : Size) : size.cycles ≤ 2 := words_le .immediate size

/-- No instruction takes more than an immediate long and the address of its destination. -/
theorem extensionWords_le (instruction : Instruction) : instruction.extensionWords ≤ 4 := by
  unfold extensionWords
  split <;> grind [words_le, cycles_le]

/-- The counter of a loop and the flags decide about a branch, and not where the instruction lies. -/
theorem branches_pc (instruction : Instruction) (r : Registers) (pc : BitVec 32) :
    instruction.Branches { r with pc } ↔ instruction.Branches r := by
  cases instruction <;> exact Iff.rfl

end Instruction

namespace Exec

variable {m : Machine World}

theorem takes_branchTarget (displacement : BitVec 8) :
    Takes (if displacement = 0 then 1 else 0)
      (branchTarget displacement : Exec World (BitVec 32)) := by
  refine takes_registers.after fun r => ?_
  dsimp only
  split
  · exact takes_fetchDisplacement.giving _
  · exact takes_pure _

theorem bcc_falls {condition : Condition} (displacement : BitVec 8)
    (fails : ¬condition.holds m.registers.status = true) :
    Ends (bcc condition displacement m) (fun _ m' => m'.registers.pc =
      m.registers.pc + BitVec.ofNat 32 (2 * if displacement = 0 then 1 else 0)) fun _ _ => True := by
  refine ((takes_branchTarget displacement m).and (branchTarget_untouched displacement m)).mono
    (fun _ _ => id) (fun _ _ _ => trivial) |>.bind ?_
  rintro target m' ⟨passed, untouched⟩
  rw [← untouched.status] at fails
  rw [bind_of_ok (show status m' = .ok m'.registers.status m' from rfl), if_neg fails]
  exact passed

theorem dbcc_falls {condition : Condition} {n : Fin 8}
    (ends : ¬(condition.holds m.registers.status = false ∧ (m.registers.d.get n).setWidth 16 ≠ 0#16)) :
    Ends (dbcc condition n m)
      (fun _ m' => m'.registers.pc = m.registers.pc + BitVec.ofNat 32 (2 * 1)) fun _ _ => True := by
  refine ((takes_branchTarget 0 m).and (branchTarget_untouched 0 m)).mono
    (fun _ _ => id) (fun _ _ _ => trivial) |>.bind ?_
  rintro target m' ⟨passed, untouched⟩
  have same : m'.registers.d = m.registers.d := by rw [untouched.registers]
  rw [← untouched.status, ← same] at ends
  rw [bind_registers]
  by_cases holds : condition.holds m'.registers.status = true
  · rw [if_pos holds]
    exact passed
  · rw [if_neg holds]
    rw [Bool.not_eq_true] at holds
    have zero : (m'.registers.d.get n).setWidth 16 = 0#16 :=
      Decidable.byContradiction fun counts => ends ⟨holds, counts⟩
    rw [zero]
    refine (takes_update (by simp) m').bind fun _ m'' still => ?_
    rw [if_pos (by decide)]
    rw [passed, Nat.mul_zero, BitVec.add_zero] at still
    exact still

end Exec

/-- The last two bus cycles pushed a return address, to where the stack pointer points. -/
def Machine.HasPushed (m : Machine World) (returnAddress : BitVec 32) : Prop :=
  [⟨m.dataSpace, m.registers.a.get 7, .writeWord (returnAddress.extractLsb' 16 16)⟩,
    ⟨m.dataSpace, m.registers.a.get 7 + 2, .writeWord (returnAddress.setWidth 16)⟩] <:+ m.activity

namespace Exec

theorem call_pushes {target : Exec World (BitVec 32)} {words : Nat} (takes : Takes words target)
    (cost : Nat) (m : Machine World) :
    Ends ((do
        let address ← target
        push .long (← registers).pc
        goTo address
        return cost : Exec World Nat) m)
      (fun _ m' => m'.HasPushed (m.registers.pc + BitVec.ofNat 32 (2 * words))) fun _ _ => True := by
  refine (takes m).bind fun address m₁ passed => ?_
  rw [bind_registers]
  refine (push_long_record m₁.registers.pc m₁).bind ?_
  rintro _ m₂ ⟨-, pushed⟩
  have stack : m₂.registers.a.get 7 = m₁.registers.a.get 7 - 4 := by
    rw [pushed]
    exact Registers.get_setAddress ..
  have space : m₂.dataSpace = m₁.dataSpace := by
    rw [pushed]
    rfl
  refine ⟨m₁.activity, ?_⟩
  show m₁.activity ++ [⟨m₂.dataSpace, m₂.registers.a.get 7, _⟩,
    ⟨m₂.dataSpace, m₂.registers.a.get 7 + 2, _⟩] = m₂.activity
  rw [space, stack, sub_four_add_two, ← passed, pushed]

end Exec

namespace Instruction

open Exec

theorem passes_words {instruction : Instruction} (encodable : instruction.Encodable)
    {m : Machine World} (straight : ¬instruction.Branches m.registers) :
    Ends (instruction.execute m) (fun _ m' => m'.registers.pc =
      m.registers.pc + BitVec.ofNat 32 (2 * instruction.extensionWords)) fun _ _ => True := by
  cases instruction with
  | jmp _ | jsr _ | bsr _ | rts | rtr | rte => exact absurd trivial straight
  | bcc condition displacement => exact bcc_falls displacement straight
  | dbcc condition n => exact dbcc_falls straight
  | illegal => exact takes_throw .illegal m
  | illegalPrivileged => exact (takes_requirePrivilege.andThen fun _ => takes_throw .illegal) m
  | lineA => exact takes_throw .lineA m
  | lineF => exact takes_throw .lineF m
  | trap n => exact takes_throw (.trap (.trap n) Timing.exception) m
  | illegalExtended => exact (takes_fetchWord.andThen fun _ => takes_throw _) m
  | immediate operation size destination => exact takes_immediate operation size destination m
  | logicToCcr operation => exact takes_logicToCcr operation m
  | logicToSr operation => exact takes_logicToSr operation m
  | bitLiteral operation destination => exact takes_bitLiteral operation destination m
  | bitRegister operation n destination => exact takes_bitRegister operation n destination m
  | movepStore size data address => exact takes_movepStore size data address m
  | movepLoad size data address => exact takes_movepLoad size data address m
  | move size source destination => exact takes_move size source destination m
  | movea size source n => exact takes_movea size source n m
  | moveq value n => exact takes_moveq value n m
  | unary operation size destination => exact (takes_readModifyWrite _ size _).giving _ m
  | nbcd destination => exact (takes_readModifyWrite _ .byte _).giving _ m
  | tst size source => exact takes_tst size source m
  | tas destination => exact takes_tas destination m
  | swap n => exact takes_swap n m
  | ext size n => exact takes_ext size n m
  | lea source n => exact takes_lea source n m
  | pea source => exact takes_pea source m
  | chk bound n => exact takes_chk bound n m
  | link n => exact takes_link n m
  | unlk n => exact takes_unlk n m
  | movemStore size destination => exact takes_movemStore size destination m
  | movemLoad size source => exact takes_movemLoad size source m
  | moveFromSr destination => exact takes_moveFromSr destination m
  | moveToCcr source => exact takes_moveToCcr source m
  | moveToSr source => exact takes_moveToSr source m
  | moveToUsp n => exact takes_moveToUsp n m
  | moveFromUsp n => exact takes_moveFromUsp n m
  | trapv => exact takes_trapv m
  | reset => exact takes_reset m
  | nop => exact takes_pure 4 m
  | stop => exact takes_stop m
  | quick operation size value destination => exact takes_quick operation size value destination m
  | scc condition destination => exact takes_scc condition destination m
  | sumToRegister operation size source n => exact (takes_intoRegister source size n _).giving _ m
  | sumToMemory operation size n destination => exact takes_sumToMemory operation size n destination m
  | sumToAddress operation size source n => exact takes_sumToAddress operation size source n m
  | extendedRegisters operation size x y => exact takes_extendedRegisters operation size x y m
  | extendedMemory operation size x y => exact (takes_betweenPredecremented size x y _).giving _ m
  | cmp size source n => exact takes_cmp size source n m
  | cmpa size source n => exact takes_cmpa size source n m
  | cmpm size x y => exact takes_cmpm size x y m
  | logicToRegister operation size source n => exact (takes_intoRegister source size n _).giving _ m
  | logicToMemory operation size n destination => exact takes_logicToMemory operation size n destination m
  | eor size n destination => exact takes_eor size n destination m
  | mulu source n => exact takes_mulu source n m
  | muls source n => exact takes_muls source n m
  | divu source n => exact takes_divide source n _ _ m
  | divs source n => exact takes_divide source n _ _ m
  | decimalRegisters operation x y => exact takes_decimalRegisters operation x y m
  | decimalMemory operation x y => exact (takes_betweenPredecremented .byte x y _).giving _ m
  | exg x y => exact takes_exg encodable.1 encodable.2 m
  | shiftRegister kind direction size count n => exact takes_shiftRegister kind direction size count n m
  | shiftMemory kind direction destination => exact (takes_readModifyWrite _ .word _).giving _ m

/-- A call returns behind its words. -/
theorem pushes_of_call {instruction : Instruction} (call : instruction.IsCall) (m : Machine World) :
    Ends (instruction.execute m) (fun _ m' => m'.HasPushed
      (m.registers.pc + BitVec.ofNat 32 (2 * instruction.extensionWords))) fun _ _ => True := by
  cases instruction with
  | jsr target => exact call_pushes (takes_effectiveAddress target) (Timing.jsr target) m
  | bsr displacement => exact call_pushes (takes_branchTarget displacement) 18 m
  | _ => exact call.elim

/-- What an instruction traps with lies behind its words as well. -/
theorem operandBytes_eq {instruction : Instruction} {vector : VectorNumber} {cost : Nat}
    (traps : instruction.MayRaise (.trap vector cost)) :
    instruction.operandBytes = BitVec.ofNat 32 (2 * instruction.extensionWords) := by
  obtain ⟨n, rfl⟩ | rfl | ⟨bound, n, rfl⟩ | ⟨source, n, rfl⟩ | ⟨source, n, rfl⟩ :=
    traps_of_mayRaise traps
  · rfl
  · rfl
  · exact bound.extensionBytes_eq .word
  · exact source.extensionBytes_eq .word
  · exact source.extensionBytes_eq .word

theorem add_length (instruction : Instruction) (address : BitVec 32) :
    address + 2 + BitVec.ofNat 32 (2 * instruction.extensionWords) =
      address + BitVec.ofNat 32 instruction.length := by
  rw [BitVec.add_assoc, length, Nat.mul_add, BitVec.ofNat_add]
  rfl

end Instruction

namespace Exec

/-- An opcode that is fetched is executed on the machine as it was, but for the program counter. -/
theorem nextInstruction_of_fetched {m : Machine World} {opcode : BitVec 16}
    (fetched : m.fetched? = some opcode) :
    ∃ at', nextInstruction m = (Instruction.decode opcode).execute at' ∧
      at'.registers = { m.registers with pc := m.registers.pc + 2 } := by
  have passes := (fetchWord_untouched m).and (advances_fetchWord m)
  unfold Machine.fetched? at fetched
  cases found : fetchWord m with
  | error e after =>
    rw [found] at fetched
    cases fetched
  | ok word after =>
    rw [found] at fetched passes
    cases fetched
    obtain ⟨untouched, passed⟩ := passes
    refine ⟨{ after with opcode }, bind_of_ok found, ?_⟩
    rw [untouched.registers, passed]

/-- What the next instruction raises is its own exception, unless an access failed. -/
theorem nextInstruction_mayRaise (m : Machine World) :
    Ends (nextInstruction m) (fun _ _ => True)
      fun e m' => e.IsFault ∨ (Instruction.decode m'.opcode).MayRaise e := by
  unfold nextInstruction
  refine ((advances_fetchWord m).mono (fun _ _ => id) fun _ _ => .inl).bind fun opcode after _ => ?_
  have outcome := Instruction.execute_outcome opcode { after with opcode }
  refine outcome.mono (fun _ _ _ => trivial) fun e m' raised => ?_
  rw [show m'.opcode = opcode from raised.1.opcode]
  exact raised.2.symm

end Exec

namespace Machine

/-- The return address of a trap lies behind the instruction. -/
theorem returnAddress_of_trap {m : Machine World} {opcode : BitVec 16} {vector : VectorNumber} {cost : Nat}
    (fetched : m.opcode? = some opcode)
    (found : m.prologue.cause = some (.exception (.trap vector cost))) :
    m.returnAddress (.exception (.trap vector cost)) =
      m.registers.pc + BitVec.ofNat 32 (Instruction.decode opcode).length := by
  have same : m.prologue.machine.opcode = opcode := by
    rw [opcode_prologue, lastOpcode, fetched]
    rfl
  have raises := Exec.nextInstruction_mayRaise m.beginning
  rw [(nextInstruction_of_exception found).2] at raises
  have traps := raises.resolve_left id
  rw [same] at traps
  rw [returnAddress, same, Instruction.operandBytes_eq traps, Instruction.add_length]

/-- The length of an instruction is given by its opcode: an even number of two to ten bytes. Wherever the opcode
is fetched and the instruction completes without a branch, the program counter has moved by the length.
A call has pushed the address at that distance, and a trap stacks it in its frame, unless a hook takes its
place. -/
theorem length_of_opcode (opcode : BitVec 16) :
    let instruction := Instruction.decode opcode
    (instruction.length % 2 = 0 ∧ 2 ≤ instruction.length ∧ instruction.length ≤ 10) ∧
    (∀ m : Machine World, m.fetched? = some opcode → ∀ cost m', Exec.nextInstruction m = .ok cost m' →
      (¬instruction.Branches m.registers →
        m'.registers.pc = m.registers.pc + BitVec.ofNat 32 instruction.length) ∧
      (instruction.IsCall → m'.HasPushed (m.registers.pc + BitVec.ofNat 32 instruction.length))) ∧
    ∀ m : Machine World, m.opcode? = some opcode → ∀ vector cost,
      m.prologue.cause = some (.exception (.trap vector cost)) →
      let returnAddress := m.registers.pc + BitVec.ofNat 32 instruction.length
      m.prologue.machine.entry (.exception (.trap vector cost)) =
        .short vector returnAddress none ∧
      (m.hooks.vectors vector = none → ∀ framed,
        Exec.stackFrame returnAddress m.prologue.machine.registers.status
          (m.stacking (.exception (.trap vector cost))) = .ok () framed →
        m.prologue.machine.activity ++ frameWrites m.prologue.machine.registers.supervisorStack
          returnAddress m.prologue.machine.registers.status <+: m.step.2.activity) := by
  intro instruction
  refine ⟨?size, ?completes, ?traps⟩
  case size =>
    have words := instruction.extensionWords_le
    unfold Instruction.length
    omega
  case completes =>
    intro m fetched cost m' ended
    obtain ⟨at', executes, registers⟩ := Exec.nextInstruction_of_fetched fetched
    rw [executes] at ended
    have branches : instruction.Branches at'.registers ↔ instruction.Branches m.registers := by
      rw [registers]
      exact instruction.branches_pc m.registers _
    have passed : at'.registers.pc = m.registers.pc + 2 := by rw [registers]
    rw [← instruction.add_length, ← passed]
    constructor
    · intro straight
      have passes := Instruction.passes_words (Instruction.encodable_decode opcode)
        (mt branches.mp straight)
      rw [ended] at passes
      exact passes
    · intro call
      have pushes := Instruction.pushes_of_call call at'
      rw [ended] at pushes
      exact pushes
  case traps =>
    intro m fetched vector cost found
    have same := returnAddress_of_trap fetched found
    obtain ⟨mask, entry⟩ := entry_prologue found id
    rw [same] at entry
    have plain : m.prologue.machine.entry (.exception (.trap vector cost)) =
      .short vector m.prologue.machine.registers.pc none := rfl
    obtain ⟨-, -, rfl⟩ := Entry.short.inj (entry.symm.trans plain)
    exact ⟨entry, fun unhooked framed stacked => frameWrites_step found entry unhooked stacked⟩

/-- A processor with 32 bytes of memory: at address 8 it calls the subroutine at address 16, by a JSR of six
bytes, and at address 14 there is TRAP #1. -/
def calling : Machine Unit :=
  { new .standard
      ⟨#[#[0, 0, 0, 0, 0, 0, 0, 0, 0x4E, 0xB9, 0, 0, 0, 16, 0x4E, 0x41,
        0, 0, 0, 0, 0, 0, 0, 0, 0, 0, 0, 0, 0, 0, 0, 0]], .none, ()⟩ fun _ world => world with
    registers := { Registers.initial.setAddress 7 32 with pc := 8 }
    memory := (MemoryMap.empty .standard).mapRam ⟨0, 31⟩ 0
    state := .running }

def returned : Machine Unit := calling.mapRegisters fun r => { r with pc := 14 }

/-- The call pushes the address of the trap, and the trap that of the subroutine. -/
theorem length_of_opcode_call :
    calling.fetched? = some 0x4EB9 ∧ (∃ m' : Machine Unit, Exec.nextInstruction calling = .ok 20 m' ∧
      m'.registers.pc = 16 ∧ m'.HasPushed 14) ∧
    returned.opcode? = some 0x4E41 ∧
      returned.prologue.machine.entry (.exception (.trap (.trap 1) Timing.exception)) =
        .short (.trap 1) 16 none := by
  have fetched : calling.fetched? = some 0x4EB9 := rfl
  have completes : Exec.nextInstruction calling =
      .ok 20 (finalState (Exec.nextInstruction calling)) := rfl
  have traps : returned.opcode? = some 0x4E41 := by decide +kernel
  have found : returned.prologue.cause = some (.exception (.trap (.trap 1) Timing.exception)) := rfl
  have call := ((length_of_opcode 0x4EB9).2.1 calling fetched _ _ completes).2 trivial
  have trap := ((length_of_opcode 0x4E41).2.2 returned traps _ _ found).1
  exact ⟨fetched, ⟨_, completes, rfl, call⟩, traps, trap⟩

end Machine

end MC68000
