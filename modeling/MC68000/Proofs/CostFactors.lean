import MC68000.Proofs.AccessErrors
import MC68000.Proofs.Refusal
import MC68000.Proofs.Settling

set_option autoImplicit false

namespace MC68000

variable {World : Type}

/-- What the cost of an instruction may depend on, besides the instruction. -/
structure CostFactors where
  /-- The condition holds. -/
  holds : Bool := false
  /-- The counter of a loop is zero. -/
  expired : Bool := false
  /-- The places to shift by, or the number of registers to transfer. -/
  count : Nat := 0
  /-- The multiplier, or the divisor. -/
  source : BitVec 16 := 0
  dividend : BitVec 32 := 0
  deriving DecidableEq

/-- The word that an operand of a mode would be loaded as, if it can be. -/
def Machine.loaded? (m : Machine World) (mode : AddressingMode) : Option (BitVec 16) :=
  match Exec.loadFrom mode .word m with
  | .ok value _ => some (value.setWidth 16)
  | .error _ _ => none

/-- A bit operation without the fetch of a literal bit number. -/
def BitOperation.cost (operation : BitOperation) (destination : AddressingMode) : Nat :=
  match destination, operation with
  | .dataRegister _, .test => 6
  | .dataRegister _, .clear => 10
  | .dataRegister _, _ => 8
  | destination, .test => 4 + Timing.operand destination .byte
  | destination, _ => 8 + Timing.operand destination .byte

namespace Instruction

/-- The factors that an instruction finds in a machine, once its opcode has been fetched. All others stay at
their defaults. -/
def costFactors (instruction : Instruction) (m : Machine World) : CostFactors :=
  match instruction with
  | bcc condition _ | scc condition _ => { holds := condition.holds m.registers.status }
  | dbcc condition n =>
    { holds := condition.holds m.registers.status
      expired := (m.registers.d.get n).setWidth 16 = 0#16 }
  | shiftRegister _ _ _ (.register k) _ => { count := (m.registers.d.get k).toNat % 64 }
  | movemStore _ _ | movemLoad _ _ => { count := Timing.ones (m.fetched?.getD 0) }
  | mulu source _ | muls source _ => { source := (m.loaded? source).getD 0 }
  | divu source n | divs source n =>
    { source := (m.loaded? source).getD 0, dividend := m.registers.d.get n }
  | _ => {}

def cost (instruction : Instruction) (factors : CostFactors) : Nat :=
  match instruction with
  | immediate operation size destination =>
    if operation = .compare then Timing.readModifyWrite destination size (8, 14) (8, 12)
    else Timing.readModifyWrite destination size (8, 16) (12, 20)
  | bitLiteral operation destination => 4 + operation.cost destination
  | bitRegister operation _ destination => operation.cost destination
  | movepStore size _ _ | movepLoad size _ _ => Timing.bySize size 16 24
  | move size source destination =>
    4 + Timing.operand source size + Timing.moveDestination destination size
  | movea size source _ | tst size source => 4 + Timing.operand source size
  | moveq _ _ | swap _ | ext _ _ | moveToUsp _ | moveFromUsp _ | trapv | nop | stop => 4
  | unary _ size destination => Timing.readModifyWrite destination size (4, 6) (8, 12)
  | nbcd destination => Timing.readModifyWrite destination .byte (6, 6) (8, 8)
  | tas destination => Timing.readModifyWrite destination .byte (4, 4) (10, 10)
  | lea source _ => Timing.lea source
  | pea source => Timing.pea source
  | chk bound _ => 10 + Timing.operand bound .word
  | jmp target => Timing.jmp target
  | jsr target => Timing.jsr target
  | unlk _ => 12
  | link _ | rts => 16
  | bsr _ | decimalMemory _ _ _ => 18
  | logicToCcr _ | logicToSr _ | rte | rtr => 20
  | reset => 132
  | decimalRegisters _ _ _ | exg _ _ => 6
  | movemStore size destination => Timing.movemStore destination size factors.count
  | movemLoad size source => Timing.movemLoad source size factors.count
  | moveFromSr destination => Timing.readModifyWrite destination .word (6, 6) (8, 8)
  | moveToCcr source | moveToSr source => 12 + Timing.operand source .word
  | quick _ size _ destination => match destination with
    | .addressRegister _ => 8
    | destination => Timing.readModifyWrite destination size (4, 8) (8, 12)
  | scc _ destination => match destination with
    | .dataRegister _ => if factors.holds then 6 else 4
    | destination => 8 + Timing.operand destination .byte
  | dbcc _ _ => if factors.holds then 12 else if factors.expired then 14 else 10
  | bcc _ displacement => if factors.holds then 10 else if displacement = 0 then 12 else 8
  | sumToRegister _ size source _ | logicToRegister _ size source _ => Timing.toRegister source size
  | sumToMemory _ size _ destination | logicToMemory _ size _ destination =>
    Timing.bySize size 8 12 + Timing.operand destination size
  | sumToAddress _ size source _ =>
    if size = .long then Timing.toRegister source size else 8 + Timing.operand source size
  | extendedRegisters _ size _ _ => Timing.bySize size 4 8
  | extendedMemory _ size _ _ => Timing.bySize size 18 30
  | cmp size source _ => Timing.bySize size 4 6 + Timing.operand source size
  | cmpa size source _ => 6 + Timing.operand source size
  | cmpm size _ _ => Timing.bySize size 12 20
  | eor size _ destination => Timing.readModifyWrite destination size (4, 8) (8, 12)
  | mulu source _ => Timing.mulu factors.source + Timing.operand source .word
  | muls source _ => Timing.muls factors.source + Timing.operand source .word
  | divu source _ => Timing.divu factors.dividend factors.source + Timing.operand source .word
  | divs source _ => Timing.divs factors.dividend factors.source + Timing.operand source .word
  | shiftRegister _ _ size count _ => match count with
    | .literal count => Timing.bySize size 6 8 + 2 * count
    | .register _ => Timing.bySize size 6 8 + 2 * factors.count
  | shiftMemory _ _ destination => 8 + Timing.operand destination .word
  | illegal | illegalPrivileged | illegalExtended | lineA | lineF | trap _ => 0

end Instruction

namespace Exec

/-- Costs a fixed number of cycles, wherever it completes. -/
def Costs (cost : Nat) (x : Exec World Nat) : Prop :=
  ∀ m, Ends (x m) (fun spent _ => spent = cost) fun _ _ => True

variable {cost : Nat}

theorem Costs.pure : Costs cost (pure cost : Exec World Nat) := fun _ => rfl

theorem Costs.throw (e : Exception) : Costs cost (throw e : Exec World Nat) := fun _ => trivial

/-- What comes last names the cost, whatever came before it. -/
theorem Costs.after {α : Type} {x : Exec World α} {f : α → Exec World Nat}
    (last : ∀ a, Costs cost (f a)) : Costs cost (x >>= f) := by
  intro m
  have first : Ends (x m) (fun _ _ => True) fun _ _ => True := by cases x m <;> trivial
  exact first.bind fun a m' _ => last a m'

theorem costs_bit (operation : BitOperation) (number : BitVec 32) (destination : AddressingMode) :
    Costs (operation.cost destination) (bit operation number destination : Exec World Nat) := by
  refine .after fun target => .after fun value => .after fun old => .after fun _ => ?_
  dsimp only
  split
  · cases destination <;> cases operation <;> exact .pure
  · refine .after fun _ => ?_
    cases destination <;> cases operation <;> exact .pure

theorem costs_bitLiteral (operation : BitOperation) (destination : AddressingMode) :
    Costs (4 + operation.cost destination) (bitLiteral operation destination : Exec World Nat) := by
  refine .after fun number m => ?_
  refine (costs_bit operation number destination m).bind fun spent m' same => ?_
  rw [same]
  exact Costs.pure m'

theorem costs_quick (operation : SumOperation) (size : Size) (value : BitVec 32)
    (destination : AddressingMode) :
    Costs (match destination with
        | .addressRegister _ => 8
        | destination => Timing.readModifyWrite destination size (4, 8) (8, 12))
      (quick operation size value destination : Exec World Nat) := by
  cases destination <;> exact .after fun _ => .pure

theorem costs_immediate (operation : ImmediateOperation) (size : Size)
    (destination : AddressingMode) :
    Costs (if operation = .compare then Timing.readModifyWrite destination size (8, 14) (8, 12)
        else Timing.readModifyWrite destination size (8, 16) (12, 20))
      (immediate operation size destination : Exec World Nat) := by
  refine .after fun source => .after fun target => .after fun value => .after fun old => ?_
  dsimp only
  split
  · exact .after fun _ => .pure
  · exact .after fun _ => .after fun _ => .pure

theorem costs_chk (bound : AddressingMode) (n : Fin 8) :
    Costs (10 + Timing.operand bound .word) (chk bound n : Exec World Nat) := by
  refine .after fun limit => .after fun r => ?_
  dsimp only
  split
  · exact .after fun _ => .throw _
  · exact .after fun _ => .pure

theorem costs_trapv : Costs 4 (trapv : Exec World Nat) := by
  refine .after fun old => ?_
  split
  · exact .throw _
  · exact .pure

variable {m : Machine World}

theorem length_listedUp (mask : BitVec 16) : (listedUp mask).length = Timing.ones mask := by
  have places : List.range 16 = (List.finRange 16).map Fin.val := by decide
  rw [listedUp, List.length_map, ← List.countP_eq_length_filter, Timing.ones, places, List.countP_map]
  rfl

theorem listed_of_fetchWord (m : Machine World) :
    Ends (fetchWord m) (fun mask _ => (listedUp mask).length = Timing.ones (m.fetched?.getD 0))
      fun _ _ => True := by
  unfold Machine.fetched?
  cases fetchWord m with
  | ok mask m' => exact length_listedUp mask
  | error e m' => exact trivial

/-- What follows the load of a source knows its value, and finds the data registers as they were. -/
theorem source_of_loadFrom (source : AddressingMode) (m : Machine World) :
    Ends (loadFrom source .word m)
      (fun value m' => value.setWidth 16 = (m.loaded? source).getD 0 ∧ m'.registers.d = m.registers.d)
      fun _ _ => True := by
  have spares : Accesses (BitVec.allOnes 16) True _ (loadFrom source .word : Exec World (BitVec 32)) :=
    accesses_loadFrom source .word
  have kept := spares m
  unfold Machine.loaded?
  cases found : loadFrom source .word m with
  | ok value m' =>
    rw [found] at kept
    exact ⟨rfl, kept.2.2.d trivial⟩
  | error e m' => exact trivial

theorem cost_multiply (source : AddressingMode) (n : Fin 8)
    (multiply : BitVec 16 → BitVec 16 → BitVec 32) (cost : BitVec 16 → Nat) (m : Machine World) :
    Ends ((do
        let value := (← loadFrom source .word).setWidth 16
        setProduct n (multiply (((← registers).d.get n).setWidth 16) value)
        return cost value + Timing.operand source .word : Exec World Nat) m)
      (fun spent _ => spent = cost ((m.loaded? source).getD 0) + Timing.operand source .word)
      fun _ _ => True := by
  refine (source_of_loadFrom source m).bind fun value m' ⟨same, _⟩ => ?_
  rw [← same]
  exact Costs.after (fun r => Costs.after fun _ => Costs.pure) m'

theorem cost_divide (source : AddressingMode) (n : Fin 8)
    (quotient? : BitVec 32 → BitVec 16 → Option Arithmetic.Quotient)
    (cost : BitVec 32 → BitVec 16 → Nat) (m : Machine World) :
    Ends (divide source n quotient? cost m)
      (fun spent _ => spent = cost (m.registers.d.get n) ((m.loaded? source).getD 0) +
        Timing.operand source .word) fun _ _ => True := by
  refine (source_of_loadFrom source m).bind fun value m' ⟨same, kept⟩ => ?_
  rw [bind_registers, ← same, ← kept]
  dsimp only
  split
  · exact Costs.after (fun _ => Costs.throw _) m'
  · cases quotient? (m'.registers.d.get n) (value.setWidth 16) with
    | none => exact Costs.after (fun _ => Costs.pure) m'
    | some q => exact Costs.after (fun _ => Costs.after fun _ => Costs.pure) m'

theorem cost_shiftRegister (kind : Arithmetic.ShiftKind) (direction : Arithmetic.Direction)
    (size : Size) (count : ShiftCount) (n : Fin 8) (m : Machine World) :
    Ends (shiftRegister kind direction size count n m)
      (fun spent _ => spent = Timing.bySize size 6 8 + 2 * match count with
        | .literal count => count
        | .register k => (m.registers.d.get k).toNat % 64) fun _ _ => True := by
  unfold shiftRegister
  rw [bind_registers]
  exact Costs.after (fun _ => Costs.after fun _ => Costs.pure) m

theorem cost_movemStore (size : Size) (destination : AddressingMode) (m : Machine World) :
    Ends (movemStore size destination m)
      (fun spent _ => spent =
        Timing.movemStore destination size (Timing.ones (m.fetched?.getD 0))) fun _ _ => True := by
  refine (listed_of_fetchWord m).bind fun mask m' listed => ?_
  rw [← listed]
  dsimp only
  split
  · exact Costs.after (fun _ => Costs.after fun _ => Costs.after fun _ => Costs.pure) m'
  · exact Costs.after (fun _ => Costs.after fun _ => Costs.pure) m'

theorem cost_movemLoad (size : Size) (source : AddressingMode) (m : Machine World) :
    Ends (movemLoad size source m)
      (fun spent _ => spent =
        Timing.movemLoad source size (Timing.ones (m.fetched?.getD 0))) fun _ _ => True := by
  refine (listed_of_fetchWord m).bind fun mask m' listed => ?_
  rw [← listed]
  dsimp only
  split
  · exact Costs.after (fun _ => Costs.after fun _ => Costs.after fun _ => Costs.after fun _ =>
      Costs.pure) m'
  · refine Costs.after (fun address => ?_) m'
    split
    · exact Costs.after fun _ => Costs.after fun _ => Costs.pure
    · exact Costs.after fun _ => Costs.after fun _ => Costs.pure

theorem cost_bcc (condition : Condition) (displacement : BitVec 8) (m : Machine World) :
    Ends (bcc condition displacement m)
      (fun spent _ => spent = if condition.holds m.registers.status then 10
        else if displacement = 0 then 12 else 8) fun _ _ => True := by
  refine (branchTarget_untouched displacement m).bind fun target m' untouched => ?_
  rw [bind_of_ok (show status m' = .ok m'.registers.status m' from rfl), untouched.status]
  split
  · exact Costs.after (fun _ => Costs.pure) m'
  · exact Costs.pure m'

theorem cost_dbcc (condition : Condition) (n : Fin 8) (m : Machine World) :
    Ends (dbcc condition n m)
      (fun spent _ => spent = if condition.holds m.registers.status then 12
        else if (m.registers.d.get n).setWidth 16 = 0#16 then 14 else 10) fun _ _ => True := by
  refine (branchTarget_untouched 0 m).bind fun target m' untouched => ?_
  have same : m'.registers.d = m.registers.d := by rw [untouched.registers]
  rw [bind_registers, untouched.status, same]
  split
  · exact Costs.pure m'
  · refine Costs.after (fun _ => ?_) m'
    have passed : (m.registers.d.get n).setWidth 16 - 1 = 0xFFFF ↔
        (m.registers.d.get n).setWidth 16 = 0#16 := by bv_omega
    simp only [passed]
    split
    · exact .pure
    · exact .after fun _ => .pure

theorem cost_scc (condition : Condition) (destination : AddressingMode) (m : Machine World) :
    Ends (scc condition destination m)
      (fun spent _ => spent = match destination with
        | .dataRegister _ => if condition.holds m.registers.status then 6 else 4
        | destination => 8 + Timing.operand destination .byte) fun _ _ => True := by
  unfold scc
  rw [bind_of_ok (show status m = .ok m.registers.status m from rfl)]
  exact Costs.after (fun _ => Costs.after fun _ => Costs.pure) m

end Exec

namespace Instruction

open Exec

theorem cost_execute (instruction : Instruction) (m : Machine World) :
    Ends (instruction.execute m)
      (fun spent _ => spent = instruction.cost (instruction.costFactors m)) fun _ _ => True := by
  cases instruction with
  | immediate operation size destination => exact costs_immediate operation size destination m
  | bitLiteral operation destination => exact costs_bitLiteral operation destination m
  | bitRegister operation n destination => exact Costs.after (fun r => costs_bit operation _ _) m
  | chk bound n => exact costs_chk bound n m
  | trapv => exact costs_trapv m
  | movemStore size destination => exact cost_movemStore size destination m
  | movemLoad size source => exact cost_movemLoad size source m
  | quick operation size value destination => exact costs_quick operation size value destination m
  | scc condition destination => exact cost_scc condition destination m
  | dbcc condition n =>
    simp only [cost, costFactors, decide_eq_true_eq]
    exact cost_dbcc condition n m
  | bcc condition displacement => exact cost_bcc condition displacement m
  | mulu source n => exact cost_multiply source n _ _ m
  | muls source n => exact cost_multiply source n _ _ m
  | divu source n => exact cost_divide source n _ _ m
  | divs source n => exact cost_divide source n _ _ m
  | shiftRegister kind direction size count n =>
    cases count with
    | literal count => exact cost_shiftRegister kind direction size (.literal count) n m
    | register k => exact cost_shiftRegister kind direction size (.register k) n m
  | _ =>
    refine (?_ : Costs _ _) m
    repeat refine .after fun _ => ?_
    first | exact .pure | exact .throw _

/-- Timing depends on the opcode and its factors. Two machines with nothing in common but these, neither
registers nor memory nor devices, spend the same on an instruction that both complete. -/
theorem cost_by_factors {World World' : Type} (opcode : BitVec 16) :
    let instruction := decode opcode
    (∀ (m m' : Machine World) spent, instruction.execute m = .ok spent m' →
      spent = instruction.cost (instruction.costFactors m)) ∧
    ∀ (m m' : Machine World) (n n' : Machine World') spent spent',
      instruction.execute m = .ok spent m' → instruction.execute n = .ok spent' n' →
      instruction.costFactors m = instruction.costFactors n → spent = spent' := by
  intro instruction
  have costs {World : Type} (m m' : Machine World) (spent : Nat)
      (completes : instruction.execute m = .ok spent m') :
      spent = instruction.cost (instruction.costFactors m) := by
    have ends := instruction.cost_execute m
    rw [completes] at ends
    exact ends
  refine ⟨costs, ?_⟩
  intro m m' n n' spent spent' first second same
  rw [costs m m' spent first, costs n n' spent' second, same]

/-- A processor on an open bus that shows 0x12 everywhere. -/
def multiplyingOnOpenBus : Machine Unit :=
  .new ⟨0x00FFFFFF, .openBus 0x12⟩ ⟨#[], .none, ()⟩ fun _ world => world

/-- A processor with the word 0x1212 in its memory, and other registers. -/
def multiplyingInRam : Machine Nat :=
  { Machine.new .standard ⟨#[#[0, 0, 0x12, 0x12]], .none, 0⟩ fun _ world => world + 1 with
    registers := (Registers.initial.setAddress 0 2).setData 0 0xFFFFFFFF
    memory := (MemoryMap.empty .standard).mapRam ⟨0, 3⟩ 0 }

/-- MULU (A0),D0 finds the same word in either machine, and costs the same. -/
theorem cost_by_factors_mulu :
    (∃ m', (decode 0xC0D0).execute multiplyingOnOpenBus = .ok 50 m') ∧
    (∃ spent n', (decode 0xC0D0).execute multiplyingInRam = .ok spent n') ∧
    ∀ spent n', (decode 0xC0D0).execute multiplyingInRam = .ok spent n' → spent = 50 := by
  have first : (decode 0xC0D0).execute multiplyingOnOpenBus =
      .ok 50 (finalState ((decode 0xC0D0).execute multiplyingOnOpenBus)) := by rfl
  have second : (decode 0xC0D0).execute multiplyingInRam =
      .ok 50 (finalState ((decode 0xC0D0).execute multiplyingInRam)) := by rfl
  have same : (decode 0xC0D0).costFactors multiplyingInRam =
      (decode 0xC0D0).costFactors multiplyingOnOpenBus := by decide +kernel
  refine ⟨⟨_, first⟩, ⟨_, _, second⟩, fun spent n' completes => ?_⟩
  exact (cost_by_factors 0xC0D0).2 _ _ _ _ _ _ completes first same

end Instruction

end MC68000
