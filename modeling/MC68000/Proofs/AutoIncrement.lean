import MC68000.Proofs.Operands

set_option autoImplicit false

namespace MC68000

variable {World : Type}

def ImmediateOperation.usage (operation : ImmediateOperation) : Usage :=
  if operation = .compare then .load else .modify

def BitOperation.usage (operation : BitOperation) : Usage :=
  if operation = .test then .load else .modify

/-- The size of a bit operation: a data register has 32 bits, and memory 8. -/
def AddressingMode.bitSize : AddressingMode → Size
  | dataRegister _ => .long
  | _ => .byte

namespace Instruction

/-- The operands that an instruction loads, stores or modifies, in the order in which it takes them. The forms
with a mode that are not listed are MOVEM, whose operand is a block of memory, and LEA, PEA, JMP and JSR, which
take no operand but its address. -/
def operands : Instruction → List OperandUse
  | immediate operation size destination => [⟨destination, size, operation.usage⟩]
  | bitLiteral operation destination | bitRegister operation _ destination =>
    [⟨destination, destination.bitSize, operation.usage⟩]
  | move size source destination => [⟨source, size, .load⟩, ⟨destination, size, .store⟩]
  | movea size source _ | tst size source | sumToRegister _ size source _
  | sumToAddress _ size source _ | cmp size source _ | cmpa size source _
  | logicToRegister _ size source _ => [⟨source, size, .load⟩]
  | chk source _ | moveToCcr source | moveToSr source | mulu source _ | muls source _
  | divu source _ | divs source _ => [⟨source, .word, .load⟩]
  | unary _ size destination | quick _ size _ destination | sumToMemory _ size _ destination
  | logicToMemory _ size _ destination | eor size _ destination => [⟨destination, size, .modify⟩]
  | nbcd destination | tas destination => [⟨destination, .byte, .modify⟩]
  | shiftMemory _ _ destination => [⟨destination, .word, .modify⟩]
  | scc _ destination => [⟨destination, .byte, .store⟩]
  | moveFromSr destination => [⟨destination, .word, .store⟩]
  | cmpm size x y => [⟨.postIncrement y, size, .load⟩, ⟨.postIncrement x, size, .load⟩]
  | extendedMemory _ size x y => [⟨.preDecrement y, size, .load⟩, ⟨.preDecrement x, size, .modify⟩]
  | decimalMemory _ x y => [⟨.preDecrement y, .byte, .load⟩, ⟨.preDecrement x, .byte, .modify⟩]
  | _ => []

/-- The register that takes the result of an instruction with operands. -/
def destination : Instruction → List Register
  | immediate _ _ target | bitLiteral _ target | bitRegister _ _ target | move _ _ target
  | unary _ _ target | quick _ _ _ target | sumToMemory _ _ _ target | logicToMemory _ _ _ target
  | eor _ _ target | nbcd target | tas target | scc _ target | moveFromSr target
  | shiftMemory _ _ target => target.direct
  | movea _ _ n | sumToAddress _ _ _ n => [.address n]
  | sumToRegister _ _ _ n | logicToRegister _ _ _ n | mulu _ n | muls _ n | divu _ n
  | divs _ n => [.data n]
  | _ => []

end Instruction

/-- The registers after operands have been taken and a result has gone to `written`: no other data register
has changed, and every other address register has moved with the operands that name it. A change of mode
exchanges the stack pointers, and then nothing is said of A7. -/
structure Registers.Taken (uses : List OperandUse) (written : List Register) (r r' : Registers) :
    Prop where
  data : ∀ n, .data n ∉ written → r'.d.get n = r.d.get n
  address : ∀ n, .address n ∉ written → (n = 7 → r'.isSupervisor = r.isSupervisor) →
    r'.a.get n = (OperandUse.advance uses r.a).get n

/-- The registers that a target writes to are those that its mode stands for. -/
theorem AddressingMode.Finds.direct {mode : AddressingMode} {size : Size} {a : Vector (BitVec 32) 8}
    {target : Operand} (found : mode.Finds size a target) {n : Fin 8} :
    (target = .dataRegister n → .data n ∈ mode.direct) ∧
      (target = .addressRegister n → .address n ∈ mode.direct) := by
  constructor <;> rintro rfl <;> cases mode <;> cases found <;> exact List.mem_cons_self

namespace Registers

variable {r r' r'' : Registers} {uses more : List OperandUse} {written : List Register}

theorem isSupervisor_setDataPart (r : Registers) (n : Fin 8) (size : Size)
    (value : BitVec 32) : (r.setDataPart n size value).isSupervisor = r.isSupervisor :=
  (r.unprivileged_setDataPart n size value).isSupervisor

theorem isSupervisor_setConditionCodes (r : Registers) (value : BitVec 8) :
    (r.setConditionCodes value).isSupervisor = r.isSupervisor :=
  (r.unprivileged_setConditionCodes value).isSupervisor

theorem isSupervisor_stored (target : Operand) (size : Size) (value : BitVec 32)
    (r : Registers) : (target.stored size value r).isSupervisor = r.isSupervisor := by
  cases target with
  | dataRegister n => exact r.isSupervisor_setDataPart n size value
  | _ => rfl

theorem dataSpace_setStatus_of_system {value : StatusWord}
    (same : value.system = r.status.system) : (r.setStatus value).dataSpace = r.dataSpace :=
  congrArg (AddressSpace.ofFlags · false) (unprivileged_setStatus same).isSupervisor

/-- A status word moves no address register but A7, and that only with the mode. -/
theorem get_a_setStatus {value : StatusWord} {n : Fin 8}
    (same : n = 7 → (r.setStatus value).isSupervisor = r.isSupervisor) :
    (r.setStatus value).a.get n = r.a.get n := by
  cases h : value.has .supervisor == r.isSupervisor with
  | true => rw [setStatus_of_same (eq_of_beq h)]
  | false =>
    have other : value.has .supervisor = !r.isSupervisor := by
      cases mode : r.isSupervisor <;> cases new : value.has .supervisor <;> simp_all
    rw [setStatus_of_change other]
    refine (AddressingMode.get_setIfInBounds r.a 7 n _).trans (if_neg fun stack => ?_)
    have kept := same stack.symm
    rw [isSupervisor_setStatus, other] at kept
    exact absurd kept (by cases r.isSupervisor <;> decide)

namespace Taken

/-- The operands have been taken, and no result has been written. -/
theorem of_advance (uses : List OperandUse) (written : List Register) (r : Registers) (pc : BitVec 32) :
    r.Taken uses written { r with a := OperandUse.advance uses r.a, pc } :=
  ⟨fun _ _ => rfl, fun _ _ _ => rfl⟩

theorem refl (written : List Register) (r : Registers) : r.Taken [] written r :=
  of_advance [] written r r.pc

theorem setData (h : r.Taken uses written r') {n : Fin 8} (listed : .data n ∈ written)
    (value : BitVec 32) : r.Taken uses written (r'.setData n value) := by
  refine ⟨fun k outside => Eq.trans ?_ (h.data k outside), h.address⟩
  refine (AddressingMode.get_setIfInBounds r'.d n k _).trans (if_neg fun same => outside ?_)
  rwa [← same]

theorem setDataPart (h : r.Taken uses written r') {n : Fin 8} (listed : .data n ∈ written)
    (size : Size) (value : BitVec 32) : r.Taken uses written (r'.setDataPart n size value) := by
  cases size <;> exact h.setData listed _

theorem setAddress (h : r.Taken uses written r') {n : Fin 8} (listed : .address n ∈ written)
    (value : BitVec 32) : r.Taken uses written (r'.setAddress n value) := by
  refine ⟨h.data, fun k outside mode => Eq.trans ?_ (h.address k outside mode)⟩
  refine (AddressingMode.get_setIfInBounds r'.a n k _).trans (if_neg fun same => outside ?_)
  rwa [← same]

theorem setConditionCodes (h : r.Taken uses written r') (value : BitVec 8) :
    r.Taken uses written (r'.setConditionCodes value) := by
  refine ⟨h.data, fun n outside mode => h.address n outside fun stack => ?_⟩
  exact (r'.isSupervisor_setConditionCodes value).symm.trans (mode stack)

theorem stored (h : r.Taken uses written r') {mode : AddressingMode} {size : Size}
    {a : Vector (BitVec 32) 8} {target : Operand} (found : mode.Finds size a target)
    (listed : ∀ register ∈ mode.direct, register ∈ written) (value : BitVec 32) :
    r.Taken uses written (target.stored size value r') := by
  cases target with
  | dataRegister n => exact h.setDataPart (listed _ (found.direct.1 rfl)) size value
  | addressRegister n => exact h.setAddress (listed _ (found.direct.2 rfl)) value
  | _ => exact h

theorem setStatus (h : r.Taken uses written r') (mode : r'.isSupervisor = r.isSupervisor)
    (value : StatusWord) : r.Taken uses written (r'.setStatus value) := by
  refine ⟨fun n outside => ?_, fun n outside same => ?_⟩
  · rw [d_setStatus, h.data n outside]
  · rw [get_a_setStatus fun stack => (same stack).trans mode.symm, h.address n outside fun _ => mode]

/-- An operand has been taken, and stored where it was found. -/
theorem of_stored (usage : Usage) {mode : AddressingMode} {size : Size} {target : Operand}
    (found : mode.Finds size r.a target) (pc value : BitVec 32) :
    r.Taken [⟨mode, size, usage⟩] mode.direct
      (target.stored size value { r with a := mode.advance size r.a, pc }) :=
  (of_advance [⟨mode, size, usage⟩] mode.direct r pc).stored found (fun _ => id) value

theorem of_stored_setStatus (usage : Usage) {mode : AddressingMode} {size : Size} {target : Operand}
    (found : mode.Finds size r.a target) (pc value : BitVec 32) (flags : StatusWord) :
    r.Taken [⟨mode, size, usage⟩] mode.direct
      ((target.stored size value { r with a := mode.advance size r.a, pc }).setStatus flags) :=
  (of_stored usage found pc value).setStatus (isSupervisor_stored target size value _) flags

end Taken

end Registers

namespace Exec

variable {α : Type} {r : Registers}

/-- The operands have been taken, with their data cycles, and the result has gone to `written`. -/
def Took (uses : List OperandUse) (written : List Register) (r r' : Registers)
    (cycles : List BusCycle) : Prop :=
  r.Taken uses written r' ∧ OperandUse.Perform r.dataSpace uses r.a cycles

theorem took_one {use : OperandUse} {written : List Register} {r' : Registers} {target : Operand}
    (value : BitVec 32) (taken : r.Taken [use] written r')
    (found : use.mode.Finds use.size r.a target) :
    Took [use] written r r' (use.usage.cycles target r.dataSpace use.size value) :=
  ⟨taken, OperandUse.perform_one ⟨target, value, found, rfl⟩⟩

theorem does_loadFrom (mode : AddressingMode) (size : Size) :
    Does r (loadFrom mode size : Exec World (BitVec 32)) fun _ r' cycles =>
      (∃ pc, r' = { r with a := mode.advance size r.a, pc }) ∧
        OperandUse.Accesses ⟨mode, size, .load⟩ r.dataSpace r.a cycles := by
  refine .locate fun target pc found => (does_load target size).imp ?_
  rintro _ _ _ ⟨rfl, rfl⟩
  exact ⟨⟨pc, rfl⟩, target, 0, found, rfl⟩

theorem Took.after {use : OperandUse} {uses : List OperandUse} {written : List Register}
    {r' : Registers} {pc : BitVec 32} {made cycles : List BusCycle}
    (rest : Took uses written { r with a := use.mode.advance use.size r.a, pc } r' cycles)
    (accesses : use.Accesses r.dataSpace r.a made) : Took (use :: uses) written r r' (made ++ cycles) :=
  ⟨⟨rest.1.data, rest.1.address⟩, made, cycles, rfl, accesses, rest.2⟩

section source
variable {β : Type} {mode : AddressingMode} {size : Size} {uses : List OperandUse}
  {written : List Register}

theorem Does.loadFrom {f : BitVec 32 → Exec World β}
    (next : ∀ value r', Does r' (f value) fun _ => Took uses written r') :
    Does r (loadFrom mode size >>= f) fun _ => Took (⟨mode, size, .load⟩ :: uses) written r := by
  refine (does_loadFrom mode size).bind ?_
  rintro value _ made ⟨⟨pc, rfl⟩, accesses⟩
  exact (next value _).imp fun _ _ _ rest => rest.after accesses

theorem Concludes.loadFrom {f : BitVec 32 → Registers → Exec World β}
    (next : ∀ value r', Concludes r' (f value r') (Took uses written r')) :
    Concludes r (loadFrom mode size >>= fun value => registers >>= f value)
      (Took (⟨mode, size, .load⟩ :: uses) written r) := by
  refine .bind (does_loadFrom mode size) ?_
  rintro value _ made ⟨⟨pc, rfl⟩, accesses⟩
  refine .bind does_registers ?_
  rintro _ _ _ ⟨rfl, rfl, rfl⟩
  exact (next value _).imp fun _ _ rest => rest.after accesses

theorem Does.fetch {α : Type} {x : Exec World α} {f : α → Exec World β} (fetches : Fetches r x)
    (next : ∀ value r', Does r' (f value) fun _ => Took uses written r') :
    Does r (x >>= f) fun _ => Took uses written r :=
  fetches.andThen fun value _ => (next value _).imp fun _ _ _ took =>
    ⟨⟨took.1.data, took.1.address⟩, took.2⟩

end source

/-- An operand that is loaded, and stored again where it was found. -/
theorem does_readModifyWrite (destination : AddressingMode) (size : Size)
    (operation : BitVec 32 → StatusWord → Arithmetic.Outcome) :
    Does r (readModifyWrite destination size operation : Exec World Unit) fun _ =>
      Took [⟨destination, size, .modify⟩] destination.direct r := by
  refine .locate fun target pc found => .load fun value => .status (.store ?_)
  refine (does_update _).imp ?_
  rintro _ _ _ ⟨rfl, rfl⟩
  rw [List.append_nil]
  exact took_one _ (.of_stored_setStatus .modify found pc _ _) found

theorem does_intoRegister (source : AddressingMode) (size : Size) (n : Fin 8)
    (operation : BitVec 32 → BitVec 32 → StatusWord → Arithmetic.Outcome) :
    Does r (intoRegister source size n operation : Exec World Unit) fun _ =>
      Took [⟨source, size, .load⟩] [.data n] r := by
  refine .loadFrom fun value r' => .registers (.update ((does_update _).imp ?_))
  rintro _ _ _ ⟨rfl, rfl⟩
  exact ⟨((Registers.Taken.refl _ r').setDataPart List.mem_cons_self size _).setStatus
    (Registers.isSupervisor_setDataPart _ _ _ _) _, rfl⟩

theorem does_immediate (operation : ImmediateOperation) (size : Size) (destination : AddressingMode) :
    Does r (immediate operation size destination : Exec World Nat) fun _ =>
      Took [⟨destination, size, operation.usage⟩] destination.direct r := by
  refine .fetch (fetches_immediate size) fun source r => .locate fun target pc found => ?_
  refine .load fun value => .status ?_
  dsimp only
  split
  next compares =>
    rw [show operation.usage = .load from if_pos compares]
    refine .setStatus (.pure ?_)
    rw [List.append_nil]
    exact took_one 0 ((Registers.Taken.of_advance [⟨destination, size, .load⟩] _ r pc).setStatus rfl _) found
  next stores =>
    rw [show operation.usage = .modify from if_neg stores]
    refine .store (.setStatus (.pure ?_))
    rw [List.append_nil]
    exact took_one _ (.of_stored_setStatus .modify found pc _ _) found

theorem does_modify (destination : AddressingMode) (size : Size)
    (operation : BitVec 32 → Registers → Arithmetic.Outcome) (cost : Nat) :
    Does r (do
      let target ← locate destination size
      let value ← load target size
      let (result, flags) := operation value (← registers)
      store target size result
      setStatus flags
      return cost : Exec World Nat) fun _ =>
      Took [⟨destination, size, .modify⟩] destination.direct r := by
  refine .locate fun target pc found => .load fun value => .registers (.store (.setStatus (.pure ?_)))
  rw [List.append_nil]
  exact took_one _ (.of_stored_setStatus .modify found pc _ _) found

/-- An operand that is tested, and then stored: the flags are set in between. -/
theorem does_testAndStore (destination : AddressingMode) (size : Size)
    (flags : BitVec 32 → StatusWord → StatusWord) (result : BitVec 32 → BitVec 32) (cost : Nat)
    (keeps : ∀ value status, (flags value status).system = status.system) :
    Does r (do
      let target ← locate destination size
      let value ← load target size
      setStatus (flags value (← status))
      store target size (result value)
      return cost : Exec World Nat) fun _ =>
      Took [⟨destination, size, .modify⟩] destination.direct r := by
  refine .locate fun target pc found => .load fun value => .status (.setStatus (.store (.pure ?_)))
  have space : Registers.dataSpace (({ r with a := destination.advance size r.a, pc } : Registers).setStatus
      (flags value r.status)) = r.dataSpace :=
    Registers.dataSpace_setStatus_of_system (keeps value r.status)
  have taken := Registers.Taken.of_advance [⟨destination, size, .modify⟩] destination.direct r pc
  rw [List.append_nil, space]
  exact took_one (result value) ((taken.setStatus rfl _).stored found (fun _ => id) _) found

theorem does_test (destination : AddressingMode) (size : Size)
    (flags : BitVec 32 → StatusWord → StatusWord) (cost : Nat) (written : List Register) :
    Does r (do
      let target ← locate destination size
      let value ← load target size
      setStatus (flags value (← status))
      return cost : Exec World Nat) fun _ =>
      Took [⟨destination, size, .load⟩] written r := by
  refine .locate fun target pc found => .load fun value => .status (.setStatus (.pure ?_))
  rw [List.append_nil]
  exact took_one 0 ((Registers.Taken.of_advance [⟨destination, size, .load⟩] _ r pc).setStatus rfl _) found

theorem does_bit (operation : BitOperation) (number : BitVec 32) (destination : AddressingMode) :
    Does r (bit operation number destination : Exec World Nat) fun _ =>
      Took [⟨destination, destination.bitSize, operation.usage⟩] destination.direct r := by
  cases operation with
  | test => cases destination <;> exact does_test _ _ _ _ _
  | change =>
    cases destination <;> exact does_testAndStore _ _ _ _ _ fun _ status => status.system_setIf_zero _
  | clear =>
    cases destination <;> exact does_testAndStore _ _ _ _ _ fun _ status => status.system_setIf_zero _
  | set =>
    cases destination <;> exact does_testAndStore _ _ _ _ _ fun _ status => status.system_setIf_zero _

theorem does_storeTo (destination : AddressingMode) (size : Size) (value : StatusWord → BitVec 32)
    (cost : Nat) :
    Does r (do
      let target ← locate destination size
      store target size (value (← status))
      return cost : Exec World Nat) fun _ =>
      Took [⟨destination, size, .store⟩] destination.direct r := by
  refine .locate fun target pc found => .status (.store (.pure ?_))
  rw [List.append_nil]
  exact took_one _ (.of_stored .store found pc _) found

theorem does_scc (condition : Condition) (destination : AddressingMode) :
    Does r (scc condition destination : Exec World Nat) fun _ =>
      Took [⟨destination, .byte, .store⟩] destination.direct r := by
  refine .status (.locate fun target pc found => .store (.pure ?_))
  rw [List.append_nil]
  exact took_one _ (.of_stored .store found pc _) found

theorem does_quick (operation : SumOperation) (size : Size) (value : BitVec 32)
    (destination : AddressingMode) :
    Does r (quick operation size value destination : Exec World Nat) fun _ =>
      Took [⟨destination, size, .modify⟩] destination.direct r := by
  cases destination with
  | addressRegister n =>
    refine .update (.pure ⟨?_, OperandUse.perform_one ⟨.addressRegister n, 0, rfl, rfl⟩⟩)
    exact (Registers.Taken.of_advance [⟨.addressRegister n, size, .modify⟩] _ r r.pc).setAddress
      List.mem_cons_self _
  | _ => exact (does_readModifyWrite _ size _).andReturn

theorem does_movea (size : Size) (source : AddressingMode) (n : Fin 8) :
    Does r (movea size source n : Exec World Nat) fun _ =>
      Took [⟨source, size, .load⟩] [.address n] r :=
  .loadFrom fun _ r' => .update (.pure ⟨(Registers.Taken.refl _ r').setAddress List.mem_cons_self _, rfl⟩)

theorem does_sumToAddress (operation : SumOperation) (size : Size) (source : AddressingMode)
    (n : Fin 8) : Does r (sumToAddress operation size source n : Exec World Nat) fun _ =>
      Took [⟨source, size, .load⟩] [.address n] r :=
  .loadFrom fun _ r' => .update (.pure ⟨(Registers.Taken.refl _ r').setAddress List.mem_cons_self _, rfl⟩)

theorem does_tst (size : Size) (source : AddressingMode) :
    Does r (tst size source : Exec World Nat) fun _ => Took [⟨source, size, .load⟩] [] r :=
  .loadFrom fun _ r' => .status (.setStatus (.pure ⟨(Registers.Taken.refl _ r').setStatus rfl _, rfl⟩))

theorem does_cmp (size : Size) (source : AddressingMode) (n : Fin 8) :
    Does r (cmp size source n : Exec World Nat) fun _ => Took [⟨source, size, .load⟩] [] r :=
  .loadFrom fun _ r' => .registers (.setStatus (.pure ⟨(Registers.Taken.refl _ r').setStatus rfl _, rfl⟩))

theorem does_cmpa (size : Size) (source : AddressingMode) (n : Fin 8) :
    Does r (cmpa size source n : Exec World Nat) fun _ => Took [⟨source, size, .load⟩] [] r :=
  .loadFrom fun _ r' => .registers (.setStatus (.pure ⟨(Registers.Taken.refl _ r').setStatus rfl _, rfl⟩))

theorem does_moveToCcr (source : AddressingMode) :
    Does r (moveToCcr source : Exec World Nat) fun _ => Took [⟨source, .word, .load⟩] [] r :=
  .loadFrom fun _ r' => .update (.pure ⟨(Registers.Taken.refl _ r').setConditionCodes _, rfl⟩)

theorem does_moveToSr (source : AddressingMode) :
    Does r (moveToSr source : Exec World Nat) fun _ => Took [⟨source, .word, .load⟩] [] r :=
  .requirePrivilege (.loadFrom fun _ r' =>
    .setStatus (.pure ⟨(Registers.Taken.refl _ r').setStatus rfl _, rfl⟩))

theorem does_multiply (source : AddressingMode) (n : Fin 8)
    (product : BitVec 16 → BitVec 16 → BitVec 32) (cost : BitVec 16 → Nat) :
    Does r (do
      let value := (← loadFrom source .word).setWidth 16
      setProduct n (product (((← registers).d.get n).setWidth 16) value)
      return cost value + Timing.operand source .word : Exec World Nat) fun _ =>
      Took [⟨source, .word, .load⟩] [.data n] r := by
  refine .loadFrom fun value r' => .registers (.andReturn (.update (.status ((does_update _).imp ?_))))
  rintro _ _ _ ⟨rfl, rfl⟩
  exact ⟨((Registers.Taken.refl _ r').setData List.mem_cons_self _).setStatus rfl _, rfl⟩

/-- A comparison with bounds sets the flags, whether or not it ends in a trap. -/
theorem concludes_chk (bound : AddressingMode) (n : Fin 8) :
    Concludes r (chk bound n : Exec World Nat) (Took [⟨bound, .word, .load⟩] [] r) := by
  refine .loadFrom fun limit r' => ?_
  have taken := (Registers.Taken.refl [] r').setStatus rfl
  dsimp only
  split
  · exact .setStatus (.throw ⟨taken _, rfl⟩)
  · exact Does.concludes (.setStatus (.pure ⟨taken _, rfl⟩))

/-- A division by zero has taken its operand when it ends in a trap. -/
theorem concludes_divide (source : AddressingMode) (n : Fin 8)
    (quotient? : BitVec 32 → BitVec 16 → Option Arithmetic.Quotient)
    (cost : BitVec 32 → BitVec 16 → Nat) :
    Concludes r (divide source n quotient? cost : Exec World Nat)
      (Took [⟨source, .word, .load⟩] [.data n] r) := by
  refine .loadFrom fun divisor r' => ?_
  have taken := Registers.Taken.refl [.data n] r'
  dsimp only
  split
  · exact .setStatus (.throw ⟨taken.setStatus rfl _, rfl⟩)
  · split
    · exact Does.concludes (.setStatus (.pure ⟨taken.setStatus rfl _, rfl⟩))
    · refine Does.concludes (.update (.setStatus (.pure ⟨?_, rfl⟩)))
      exact (taken.setData List.mem_cons_self _).setStatus rfl _

theorem does_move (size : Size) (source destination : AddressingMode) :
    Does r (move size source destination : Exec World Nat) fun _ =>
      Took [⟨source, size, .load⟩, ⟨destination, size, .store⟩] destination.direct r := by
  refine .loadFrom fun value r' => .locate fun target pc found => ?_
  refine .store (.status (.setStatus (.pure ?_)))
  rw [List.append_nil]
  exact took_one value (.of_stored_setStatus .store found pc value _) found

theorem does_cmpm (size : Size) (x y : Fin 8) :
    Does r (cmpm size x y : Exec World Nat) fun _ =>
      Took [⟨.postIncrement y, size, .load⟩, ⟨.postIncrement x, size, .load⟩] [] r :=
  .loadFrom fun _ _ => .loadFrom fun _ r' =>
    .status (.setStatus (.pure ⟨(Registers.Taken.refl _ r').setStatus rfl _, rfl⟩))

theorem does_betweenPredecremented (size : Size) (x y : Fin 8)
    (operation : BitVec 32 → BitVec 32 → StatusWord → Arithmetic.Outcome) :
    Does r (betweenPredecremented size x y operation : Exec World Unit) fun _ =>
      Took [⟨.preDecrement y, size, .load⟩, ⟨.preDecrement x, size, .modify⟩] [] r :=
  .loadFrom fun source _ => does_readModifyWrite (.preDecrement x) size (operation source)

end Exec

namespace Instruction

open Exec in
/-- Every instruction with operands takes them, in order. -/
theorem concludes_operands (r : Registers) {instruction : Instruction}
    (takes : instruction.operands ≠ []) :
    Concludes r (instruction.execute : Exec World Nat)
      (Took instruction.operands instruction.destination r) := by
  cases instruction with
  | immediate operation size target => exact (does_immediate operation size target).concludes
  | bitLiteral operation target =>
    exact Does.concludes (.fetch (fetches_immediate .byte) fun number _ =>
      .andReturn (does_bit operation number target))
  | bitRegister operation n target => exact Does.concludes (.registers (does_bit operation _ target))
  | move size source target => exact (does_move size source target).concludes
  | movea size source n => exact (does_movea size source n).concludes
  | unary operation size target => exact (does_readModifyWrite target size _).andReturn.concludes
  | nbcd target => exact (does_readModifyWrite target .byte _).andReturn.concludes
  | tst size source => exact (does_tst size source).concludes
  | tas target =>
    exact (does_testAndStore target .byte _ _ _ fun _ status => status.system_withLogical _ _).concludes
  | chk bound n => exact concludes_chk bound n
  | moveFromSr target => exact (does_storeTo target .word (·.setWidth 32) _).concludes
  | moveToCcr source => exact (does_moveToCcr source).concludes
  | moveToSr source => exact (does_moveToSr source).concludes
  | quick operation size value target => exact (does_quick operation size value target).concludes
  | scc condition target => exact (does_scc condition target).concludes
  | sumToRegister operation size source n => exact (does_intoRegister source size n _).andReturn.concludes
  | sumToMemory operation size n target =>
    exact (does_modify target size (fun value r => operation.apply size (r.d.get n) value r.status) _).concludes
  | sumToAddress operation size source n => exact (does_sumToAddress operation size source n).concludes
  | extendedMemory operation size x y => exact (does_betweenPredecremented size x y _).andReturn.concludes
  | cmp size source n => exact (does_cmp size source n).concludes
  | cmpa size source n => exact (does_cmpa size source n).concludes
  | cmpm size x y => exact (does_cmpm size x y).concludes
  | logicToRegister operation size source n => exact (does_intoRegister source size n _).andReturn.concludes
  | logicToMemory operation size n target =>
    exact (does_modify target size (fun value r =>
      Arithmetic.logical size (operation.apply value (r.d.get n)) r.status) _).concludes
  | eor size n target =>
    exact (does_modify target size (fun value r =>
      Arithmetic.logical size (value ^^^ r.d.get n) r.status) _).concludes
  | mulu source n => exact (does_multiply source n Arithmetic.multiplyUnsigned Timing.mulu).concludes
  | muls source n => exact (does_multiply source n Arithmetic.multiplySigned Timing.muls).concludes
  | divu source n => exact concludes_divide source n _ _
  | divs source n => exact concludes_divide source n _ _
  | decimalMemory operation x y => exact (does_betweenPredecremented .byte x y _).andReturn.concludes
  | shiftMemory kind direction target => exact (does_readModifyWrite target .word _).andReturn.concludes
  | _ => exact absurd rfl takes

/-- The instruction completes in `m'`, and may end in a trap. -/
def Completes (instruction : Instruction) (m m' : Machine World) : Prop :=
  (∃ cost, instruction.execute m = .ok cost m') ∨
    ∃ vector cost, instruction.execute m = .error (.trap vector cost) m'

end Instruction

/-- Sixteen bytes of memory, the stack pointer in the middle of them, and no instruction in flight. -/
def Machine.middleOfStack : Machine Unit :=
  { new .standard ⟨#[Array.replicate 16 0], .none, ()⟩ fun _ world => world with
    registers := Registers.initial.setAddress 7 8
    memory := ⟨RegionTable.empty.mapRam ⟨0, 15⟩ 0, RegionTable.empty.mapRam ⟨0, 15⟩ 0, .standard⟩
    state := .running }

end MC68000
