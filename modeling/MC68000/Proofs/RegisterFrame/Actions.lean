import MC68000.Proofs.AutoIncrement

set_option autoImplicit false

namespace MC68000

variable {World : Type}

/-- The register that taking an operand moves. -/
def AddressingMode.moved : AddressingMode → List Register
  | postIncrement n | preDecrement n => [.address n]
  | _ => []

/-- The registers that an instruction writes, but for the stack pointer and for those that MOVEM loads. -/
def Instruction.written : Instruction → List Register
  | lea _ n | moveFromUsp n | link n | unlk n => [.address n]
  | moveq _ n | swap n | ext _ n | movepLoad _ n _ | dbcc _ n | extendedRegisters _ _ n _
  | decimalRegisters _ n _ | shiftRegister _ _ _ _ n => [.data n]
  | exg x y => [x, y]
  | movemStore _ target | movemLoad _ target => target.moved
  | instruction => instruction.operands.flatMap (·.mode.moved) ++ instruction.destination

/-- How far an instruction that writes the status word moves A7 before it does so. -/
def Instruction.stackTravel : Instruction → BitVec 32
  | rte => 6
  | instruction => OperandUse.travel instruction.operands 7

/-- The registers that MOVEM loads from memory: those on the list that follows the opcode. -/
def Instruction.loaded (instruction : Instruction) (m : Machine World) : List Register :=
  match instruction, Exec.fetchWord m with
  | movemLoad _ _, .ok mask _ => Exec.listedUp mask
  | _, _ => []

namespace Registers

/-- Of the data registers, and of the address registers below the stack pointer, only those written have
changed. -/
structure KeepsOthers (written : List Register) (r r' : Registers) : Prop where
  data : ∀ n, .data n ∉ written → r'.d.get n = r.d.get n
  address : ∀ n, n ≠ 7 → .address n ∉ written → r'.a.get n = r.a.get n

variable {r r' r'' : Registers} {written : List Register}

namespace KeepsOthers

theorem refl (written : List Register) (r : Registers) : r.KeepsOthers written r :=
  ⟨fun _ _ => rfl, fun _ _ _ => rfl⟩

theorem trans (first : r.KeepsOthers written r') (second : r'.KeepsOthers written r'') :
    r.KeepsOthers written r'' :=
  ⟨fun n outside => (second.data n outside).trans (first.data n outside),
    fun n other outside => (second.address n other outside).trans (first.address n other outside)⟩

theorem mono {more : List Register} (h : r.KeepsOthers written r')
    (within : ∀ register ∈ written, register ∈ more) : r.KeepsOthers more r' :=
  ⟨fun n outside => h.data n fun listed => outside (within _ listed),
    fun n other outside => h.address n other fun listed => outside (within _ listed)⟩

end KeepsOthers

theorem Taken.keepsOthers {uses : List OperandUse} (h : r.Taken uses written r') :
    r.KeepsOthers (uses.flatMap (·.mode.moved) ++ written) r' := by
  refine ⟨fun n outside => h.data n fun listed => outside (List.mem_append_right _ listed),
    fun n other outside => ?_⟩
  have still : ∀ use ∈ uses, ¬use.mode.Moves n := by
    intro use member moves
    refine outside (List.mem_append_left _ (List.mem_flatMap.mpr ⟨use, member, ?_⟩))
    rcases moves with mode | mode <;> rw [mode] <;> exact List.mem_cons_self
  rw [h.address n (fun listed => outside (List.mem_append_right _ listed)) fun stack => absurd stack other,
    OperandUse.get_advance, OperandUse.travel_of_not_moves still]
  exact BitVec.add_zero _

theorem keepsOthers_setAddress {n : Fin 8} (listed : n = 7 ∨ .address n ∈ written) (value : BitVec 32) :
    r.KeepsOthers written (r.setAddress n value) := by
  refine ⟨fun _ _ => rfl, fun k other outside => ?_⟩
  refine (AddressingMode.get_setIfInBounds r.a n k _).trans (if_neg fun same => ?_)
  rw [same] at listed
  exact listed.elim other outside

theorem keepsOthers_setData {n : Fin 8} (listed : .data n ∈ written) (value : BitVec 32) :
    r.KeepsOthers written (r.setData n value) := ((Taken.refl _ r).setData listed value).keepsOthers

theorem keepsOthers_setDataPart {n : Fin 8} (listed : .data n ∈ written) (size : Size)
    (value : BitVec 32) : r.KeepsOthers written (r.setDataPart n size value) :=
  ((Taken.refl _ r).setDataPart listed size value).keepsOthers

/-- A status word may exchange A7 with its shadow, and moves no other register. -/
theorem keepsOthers_setStatus (value : StatusWord) : r.KeepsOthers written (r.setStatus value) :=
  ((Taken.refl _ r).setStatus rfl value).keepsOthers

theorem keepsOthers_set {register : Register} (listed : register ∈ written) (value : BitVec 32) :
    r.KeepsOthers written (r.set register value) := by
  cases register with
  | data n => exact keepsOthers_setData listed value
  | address n => exact keepsOthers_setAddress (.inr listed) value
  | shadow => exact ⟨fun _ _ => rfl, fun _ _ _ => rfl⟩
  | pc => exact ⟨fun _ _ => rfl, fun _ _ _ => rfl⟩
  | status => exact keepsOthers_setStatus _

/-- The registers have come to where A7 has moved by `travel` and no other register has changed but those
written. The mode and the shadow stack pointer are as they were. -/
structure Advances (written : List Register) (travel : BitVec 32) (r r' : Registers) : Prop where
  others : r.KeepsOthers written r'
  stack : r'.a.get 7 = r.a.get 7 + travel
  shadow : r'.shadow = r.shadow
  status : r'.status = r.status

section advances
variable {written : List Register} {r r' r'' : Registers} {travel more : BitVec 32}

theorem Advances.trans (first : r.Advances written travel r') (second : r'.Advances written more r'') :
    r.Advances written (travel + more) r'' := by
  refine ⟨first.others.trans second.others, ?_, second.shadow.trans first.shadow,
    second.status.trans first.status⟩
  rw [second.stack, first.stack, BitVec.add_assoc]

theorem Advances.isSupervisor (h : r.Advances written travel r') :
    r'.isSupervisor = r.isSupervisor := congrArg (StatusWord.has · .supervisor) h.status

theorem advances_pc (r : Registers) (pc : BitVec 32) : r.Advances written 0 { r with pc } :=
  ⟨⟨fun _ _ => rfl, fun _ _ _ => rfl⟩, (BitVec.add_zero _).symm, rfl, rfl⟩

theorem advances_stack (r : Registers) (travel : BitVec 32) :
    r.Advances written travel (r.setAddress 7 (r.a.get 7 + travel)) :=
  ⟨keepsOthers_setAddress (.inl rfl) _, r.get_setAddress 7 _, rfl, rfl⟩

end advances

end Registers

namespace Exec

variable {α β : Type} {written : List Register}

/-- Where the action completes, no other register has changed. -/
def Leaves (written : List Register) (x : Exec World α) : Prop :=
  ∀ m : Machine World, Ends (x m) (fun _ m' => m.registers.KeepsOthers written m'.registers) fun _ _ => True

theorem Leaves.pure (value : α) : Leaves written (pure value : Exec World α) :=
  fun m => .refl written m.registers

theorem Leaves.throw (e : Exception) : Leaves written (throw e : Exec World α) := fun _ => trivial

theorem Leaves.bind {x : Exec World α} {f : α → Exec World β} (first : Leaves written x)
    (next : ∀ value, Leaves written (f value)) : Leaves written (x >>= f) :=
  fun m => (first m).bind fun value m' before =>
    (next value m').mono (fun _ _ after => before.trans after) fun _ _ => id

theorem Leaves.update {f : Registers → Registers} (h : ∀ r : Registers, r.KeepsOthers written (f r)) :
    Leaves written (update f : Exec World Unit) := fun m => h m.registers

theorem Does.leaves {x : Exec World α} {post : Registers → α → Registers → List BusCycle → Prop}
    (does : ∀ r, Does r x (post r))
    (keeps : ∀ r value r' cycles, post r value r' cycles → r.KeepsOthers written r') :
    Leaves written x := fun m => (does m.registers m rfl).mono
  (fun value m' ⟨cycles, _, holds⟩ => keeps m.registers value m'.registers cycles holds)
  fun _ _ _ => trivial

theorem leaves_of_same {x : Exec World α}
    (same : ∀ m, Ends (x m) (fun _ m' => m'.registers = m.registers) fun _ _ => True) :
    Leaves written x := by
  refine fun m => (same m).mono (fun _ m' kept => ?_) fun _ _ => id
  rw [kept]
  exact .refl written m.registers

theorem leaves_registers : Leaves written (registers : Exec World Registers) :=
  leaves_of_same fun _ => rfl

theorem leaves_status : Leaves written (status : Exec World StatusWord) := leaves_of_same fun _ => rfl

theorem leaves_setStatus (value : StatusWord) : Leaves written (setStatus value : Exec World Unit) :=
  .update fun _ => Registers.keepsOthers_setStatus value

theorem leaves_requirePrivilege : Leaves written (requirePrivilege : Exec World Unit) := by
  refine leaves_of_same fun m => (ends_requirePrivilege m).mono ?_ fun _ _ _ => trivial
  rintro _ _ ⟨rfl, -⟩
  exact rfl

theorem leaves_read (space : AddressSpace) (size : Size) (address : BitVec 32) :
    Leaves written (read space size address : Exec World (BitVec 32)) :=
  Does.leaves (fun _ => does_read space size address) fun r _ _ _ done => done.1 ▸ .refl written r

theorem leaves_readData (size : Size) (address : BitVec 32) :
    Leaves written (readData size address : Exec World (BitVec 32)) :=
  Does.leaves (fun _ => does_readData size address) fun r _ _ _ done => done.1 ▸ .refl written r

theorem leaves_writeData (size : Size) (address value : BitVec 32) :
    Leaves written (writeData size address value : Exec World Unit) :=
  Does.leaves (fun _ => does_writeData size address value) fun r _ _ _ done => done.1 ▸ .refl written r

theorem leaves_of_fetches {x : Exec World α} (fetches : ∀ r, Fetches r x) : Leaves written x := by
  refine Does.leaves fetches ?_
  rintro r _ _ _ ⟨⟨pc, rfl⟩, -⟩
  exact ⟨fun _ _ => rfl, fun _ _ _ => rfl⟩

theorem leaves_fetchWord : Leaves written (fetchWord : Exec World (BitVec 16)) :=
  leaves_of_fetches fun _ => fetches_word

theorem leaves_fetchDisplacement : Leaves written (fetchDisplacement : Exec World (BitVec 32)) :=
  leaves_of_fetches fun _ => fetches_displacement

theorem leaves_goTo (address : BitVec 32) : Leaves written (goTo address : Exec World Unit) :=
  .update fun _ => ⟨fun _ _ => rfl, fun _ _ _ => rfl⟩

theorem leaves_push (size : Size) (value : BitVec 32) :
    Leaves written (push size value : Exec World Unit) :=
  .bind (.update fun _ => Registers.keepsOthers_setAddress (.inl rfl) _) fun _ =>
    .bind leaves_registers fun _ => leaves_writeData size _ value

theorem leaves_pull (size : Size) : Leaves written (pull size : Exec World (BitVec 32)) :=
  .bind leaves_registers fun _ => .bind (leaves_readData size _) fun _ =>
    .bind (.update fun _ => Registers.keepsOthers_setAddress (.inl rfl) _) fun _ => .pure _

theorem leaves_branchTarget (displacement : BitVec 8) :
    Leaves written (branchTarget displacement : Exec World (BitVec 32)) := by
  refine .bind leaves_registers fun r => ?_
  dsimp only
  split
  · exact .bind leaves_fetchDisplacement fun _ => .pure _
  · exact .pure _

/-- The modes that have an address do not move their register. -/
theorem leaves_effectiveAddress {mode : AddressingMode} (control : mode.isControl = true) :
    Leaves written (effectiveAddress mode : Exec World (BitVec 32)) := by
  refine .bind (Does.leaves (fun _ => does_locate mode .long) ?_) fun target => ?_
  · rintro r _ _ _ ⟨-, ⟨pc, rfl⟩, -⟩
    have still : mode.advance .long r.a = r.a := by cases mode <;> first | rfl | cases control
    rw [still]
    exact ⟨fun _ _ => rfl, fun _ _ _ => rfl⟩
  · cases target <;> first | exact .pure _ | exact .throw _

theorem leaves_storeUp (size : Size) (list : List Register) (address : BitVec 32) :
    Leaves written (storeUp size list address : Exec World Unit) := by
  induction list generalizing address with
  | nil => exact .pure _
  | cons register rest ih =>
    exact .bind leaves_registers fun _ => .bind (leaves_writeData size _ _) fun _ => ih _

theorem leaves_storeDown (size : Size) (list : List Register) (address : BitVec 32) :
    Leaves written (storeDown size list address : Exec World (BitVec 32)) := by
  induction list generalizing address with
  | nil => exact .pure _
  | cons register rest ih =>
    exact .bind leaves_registers fun _ => .bind (leaves_writeData size _ _) fun _ => ih _

/-- A list of registers that is loaded is all that is written. -/
theorem leaves_loadUp (space : AddressSpace) (size : Size) {list : List Register}
    (listed : ∀ register ∈ list, register ∈ written) (address : BitVec 32) :
    Leaves written (loadUp space size list address : Exec World (BitVec 32)) := by
  induction list generalizing address with
  | nil => exact .pure _
  | cons register rest ih =>
    refine .bind (leaves_read space size address) fun value => .bind (.update fun _ => ?_) fun _ => ?_
    · exact Registers.keepsOthers_set (listed register List.mem_cons_self) _
    · exact ih (fun other member => listed other (List.mem_cons_of_mem register member)) _

theorem leaves_storeAlternate (bytes : List (BitVec 8)) (address : BitVec 32) :
    Leaves written (storeAlternate bytes address : Exec World Unit) := by
  induction bytes generalizing address with
  | nil => exact .pure _
  | cons byte rest ih => exact .bind (leaves_writeData .byte address _) fun _ => ih _

theorem leaves_loadAlternate (count : Nat) (value address : BitVec 32) :
    Leaves written (loadAlternate count value address : Exec World (BitVec 32)) := by
  induction count generalizing value address with
  | zero => exact .pure _
  | succ count ih => exact .bind (leaves_readData .byte address) fun _ => ih _ _

theorem leaves_movemStore (size : Size) {target : AddressingMode}
    (admitted : Decoding.admitsMovemStore target = true) :
    Leaves target.moved (movemStore size target : Exec World Nat) := by
  refine .bind leaves_fetchWord fun mask => ?_
  cases target with
  | preDecrement n =>
    refine .bind leaves_registers fun r => .bind (leaves_storeDown size _ _) fun address => ?_
    exact .bind (.update fun _ => Registers.keepsOthers_setAddress (.inr List.mem_cons_self) _) fun _ => .pure _
  | _ =>
    have control := AddressingMode.isControl_of_isControlAlterable admitted
    exact .bind (leaves_effectiveAddress control) fun _ => .bind (leaves_storeUp size _ _) fun _ => .pure _

theorem keepsOthers_movemLoad (size : Size) {source : AddressingMode}
    (admitted : Decoding.admitsMovemLoad source = true) (m : Machine World) :
    Ends (movemLoad size source m) (fun _ m' => m.registers.KeepsOthers
      (source.moved ++ (Instruction.movemLoad size source).loaded m) m'.registers) fun _ _ => True := by
  have fetched : Ends (fetchWord m) (fun mask m₁ =>
      (Instruction.movemLoad size source).loaded m = listedUp mask ∧
        m.registers.KeepsOthers (source.moved ++ listedUp mask) m₁.registers) fun _ _ => True := by
    have before (written : List Register) :=
      (leaves_fetchWord : Leaves written (fetchWord : Exec World (BitVec 16))) m
    unfold Instruction.loaded
    cases found : fetchWord m with
    | ok mask m₁ =>
      have kept := before (source.moved ++ listedUp mask)
      rw [found] at kept
      exact ⟨rfl, kept⟩
    | error e m₁ => trivial
  refine fetched.bind fun mask m₁ ⟨list, before⟩ => ?_
  rw [list]
  have inside : ∀ register ∈ listedUp mask, register ∈ source.moved ++ listedUp mask :=
    fun register => List.mem_append_right source.moved
  suffices rest : Leaves (source.moved ++ listedUp mask) _ from
    (rest m₁).mono (fun _ _ after => before.trans after) fun _ _ => id
  cases source with
  | postIncrement n =>
    refine .bind (leaves_of_same fun _ => rfl) fun space => .bind leaves_registers fun r => ?_
    refine .bind (leaves_loadUp space size inside _) fun address => ?_
    exact .bind (.update fun _ => Registers.keepsOthers_setAddress (.inr List.mem_cons_self) _) fun _ => .pure _
  | _ =>
    refine .bind (leaves_effectiveAddress admitted) fun address => ?_
    refine .bind (leaves_of_same fun _ => rfl) fun space => ?_
    exact .bind (leaves_loadUp space size inside address) fun _ => .pure _

section supervisor
variable {r : Registers}

/-- The instruction has written the status word, after all else. -/
abbrev WritesStatus (World : Type) (instruction : Instruction) (r : Registers) : Prop :=
  Does r (instruction.execute : Exec World Nat) fun _ r' _ => ∃ before value,
    r.Advances instruction.written instruction.stackTravel before ∧ r' = before.setStatus value

theorem writesStatus_logicToSr (operation : LogicOperation) :
    WritesStatus World (.logicToSr operation) r := by
  refine .requirePrivilege (fetches_word.andThen fun value pc => .status (.setStatus (.pure ?_)))
  exact ⟨_, _, r.advances_pc pc, rfl⟩

theorem writesStatus_moveToSr (source : AddressingMode) :
    WritesStatus World (.moveToSr source) r := by
  refine .requirePrivilege ((does_loadFrom source .word).bind ?_)
  rintro value _ made ⟨⟨pc, rfl⟩, -⟩
  have taken := Registers.Taken.of_advance [⟨source, .word, .load⟩] [] r pc
  refine .setStatus (.pure ⟨_, _, ?_, rfl⟩)
  exact ⟨taken.keepsOthers, OperandUse.get_advance [⟨source, .word, .load⟩] r.a 7, rfl, rfl⟩

theorem writesStatus_stop : WritesStatus World .stop r := by
  have awaits {r : Registers} : Does r (awaitInterrupt : Exec World Unit) fun _ r' cycles =>
      r' = r ∧ cycles = [] := by
    rintro m rfl
    exact ⟨[], (List.append_nil _).symm, rfl, rfl⟩
  refine .requirePrivilege (fetches_word.andThen fun value pc => .setStatus (awaits.bind ?_))
  rintro _ _ _ ⟨rfl, rfl⟩
  exact .pure ⟨_, _, r.advances_pc pc, rfl⟩

/-- Pulling a value moves A7 past it. -/
theorem does_pull (size : Size) (written : List Register) :
    Does r (pull size : Exec World (BitVec 32)) fun _ r' _ =>
      r.Advances written (BitVec.ofNat 32 size.bytes) r' := by
  refine .registers ((does_readData size _).bind ?_)
  rintro value _ _ ⟨rfl, rfl⟩
  exact .update (.pure (Registers.advances_stack _ _))

theorem writesStatus_rte : WritesStatus World .rte r := by
  refine .requirePrivilege ((does_pull .word []).bind fun status r₁ _ first => ?_)
  refine (does_pull .long []).bind fun pc r₂ _ second => .setStatus (.update (.pure ?_))
  exact ⟨_, _, (first.trans second).trans (r₂.advances_pc pc), (r₂.setStatus_pc pc _).symm⟩

theorem reset_registers (m : Machine World) :
    Ends (reset m) (fun _ m' => m'.registers = m.registers) fun _ _ => True := by
  have signals : Ends (signalReset m) (fun _ m' => m'.registers = m.registers) fun _ _ => True := by
    unfold signalReset
    split <;> exact rfl
  refine ((ends_requirePrivilege m).mono (fun _ _ => id) fun _ _ _ => trivial).bind ?_
  rintro _ _ ⟨rfl, -⟩
  exact signals.bind fun _ _ same => same

theorem moveToUsp_registers (n : Fin 8) (m : Machine World) :
    Ends (moveToUsp n m) (fun _ m' => m'.registers = { m.registers with shadow := m.registers.a.get n })
      fun _ _ => True := by
  refine ((ends_requirePrivilege m).mono (fun _ _ => id) fun _ _ _ => trivial).bind ?_
  rintro _ _ ⟨rfl, supervisor⟩
  exact if_pos supervisor

/-- What is written last moves no register but A7. -/
theorem WritesStatus.leaves {instruction : Instruction} (writes : ∀ r, WritesStatus World instruction r) :
    Leaves instruction.written (instruction.execute : Exec World Nat) := by
  refine Does.leaves writes ?_
  rintro r _ _ _ ⟨before, value, advances, rfl⟩
  exact advances.others.trans (Registers.keepsOthers_setStatus value)

end supervisor

open Registers

/-- A result and flags, for a data register. -/
theorem leaves_setResult {n : Fin 8} (size : Size) (value : BitVec 32) (flags : StatusWord) (cost : Nat) :
    Leaves [.data n] (do
      update (·.setDataPart n size value)
      setStatus flags
      return cost : Exec World Nat) :=
  .bind (.update fun _ => keepsOthers_setDataPart List.mem_cons_self size value) fun _ =>
    .bind (leaves_setStatus flags) fun _ => .pure cost

theorem leaves_setLogical (size : Size) (value : BitVec 32) (cost : Nat) :
    Leaves written (do
      setStatus ((← status).withLogical size value)
      return cost : Exec World Nat) :=
  .bind leaves_status fun _ => .bind (leaves_setStatus _) fun _ => .pure cost

theorem leaves_logicToCcr (operation : LogicOperation) :
    Leaves [] (logicToCcr operation : Exec World Nat) := by
  refine .bind leaves_fetchWord fun _ => .bind leaves_registers fun _ => ?_
  exact .bind (.update fun r => ((Taken.refl _ r).setConditionCodes _).keepsOthers) fun _ => .pure _

theorem leaves_movepStore (size : Size) (data address : Fin 8) :
    Leaves [] (movepStore size data address : Exec World Nat) := by
  refine .bind leaves_fetchDisplacement fun _ => .bind leaves_registers fun _ => ?_
  exact .bind (leaves_storeAlternate _ _) fun _ => .pure _

theorem leaves_movepLoad (size : Size) (data address : Fin 8) :
    Leaves [.data data] (movepLoad size data address : Exec World Nat) := by
  refine .bind leaves_fetchDisplacement fun _ => .bind leaves_registers fun _ => ?_
  refine .bind (leaves_loadAlternate _ _ _) fun _ => ?_
  exact .bind (.update fun _ => keepsOthers_setDataPart List.mem_cons_self _ _) fun _ => .pure _

theorem leaves_lea {source : AddressingMode} (control : source.isControl = true) (n : Fin 8) :
    Leaves [.address n] (lea source n : Exec World Nat) := by
  refine .bind (leaves_effectiveAddress control) fun _ => ?_
  exact .bind (.update fun _ => keepsOthers_setAddress (.inr List.mem_cons_self) _) fun _ => .pure _

theorem leaves_jsr {target : AddressingMode} (control : target.isControl = true) :
    Leaves [] (jsr target : Exec World Nat) := by
  refine .bind (leaves_effectiveAddress control) fun _ => .bind leaves_registers fun _ => ?_
  exact .bind (leaves_push _ _) fun _ => .bind (leaves_goTo _) fun _ => .pure _

theorem leaves_link (n : Fin 8) : Leaves [.address n] (link n : Exec World Nat) := by
  refine .bind leaves_fetchDisplacement fun _ => .bind leaves_registers fun _ => ?_
  refine .bind (leaves_push _ _) fun _ => ?_
  refine .bind (.update fun _ => keepsOthers_setAddress (.inr List.mem_cons_self) _) fun _ => ?_
  exact .bind (.update fun _ => keepsOthers_setAddress (.inl rfl) _) fun _ => .pure _

theorem leaves_unlk (n : Fin 8) : Leaves [.address n] (unlk n : Exec World Nat) := by
  refine .bind (.update fun _ => keepsOthers_setAddress (.inl rfl) _) fun _ => ?_
  refine .bind (leaves_pull _) fun _ => ?_
  exact .bind (.update fun _ => keepsOthers_setAddress (.inr List.mem_cons_self) _) fun _ => .pure _

theorem leaves_moveFromUsp (n : Fin 8) : Leaves [.address n] (moveFromUsp n : Exec World Nat) := by
  refine .bind leaves_requirePrivilege fun _ => ?_
  exact .bind (.update fun _ => keepsOthers_setAddress (.inr List.mem_cons_self) _) fun _ => .pure _

theorem leaves_moveToUsp (n : Fin 8) : Leaves [] (moveToUsp n : Exec World Nat) := by
  refine fun m => (moveToUsp_registers n m).mono (fun _ m' same => ?_) fun _ _ => id
  rw [same]
  exact ⟨fun _ _ => rfl, fun _ _ _ => rfl⟩

theorem leaves_trapv : Leaves [] (trapv : Exec World Nat) := by
  refine .bind leaves_status fun _ => ?_
  split
  · exact .throw _
  · exact .pure _

theorem leaves_rtr : Leaves [] (rtr : Exec World Nat) := by
  refine .bind (leaves_pull _) fun _ => .bind (leaves_pull _) fun _ => ?_
  refine .bind (.update fun r => ((Taken.refl _ r).setConditionCodes _).keepsOthers) fun _ => ?_
  exact .bind (leaves_goTo _) fun _ => .pure _

theorem leaves_dbcc (condition : Condition) (n : Fin 8) :
    Leaves [.data n] (dbcc condition n : Exec World Nat) := by
  refine .bind (leaves_branchTarget _) fun _ => .bind leaves_registers fun r => ?_
  dsimp only
  split
  · exact .pure _
  · refine .bind (.update fun _ => keepsOthers_setDataPart List.mem_cons_self _ _) fun _ => ?_
    split
    · exact .pure _
    · exact .bind (leaves_goTo _) fun _ => .pure _

theorem leaves_bcc (condition : Condition) (displacement : BitVec 8) :
    Leaves [] (bcc condition displacement : Exec World Nat) := by
  refine .bind (leaves_branchTarget _) fun _ => .bind leaves_status fun _ => ?_
  split
  · exact .bind (leaves_goTo _) fun _ => .pure _
  · exact .pure _

theorem leaves_bsr (displacement : BitVec 8) : Leaves [] (bsr displacement : Exec World Nat) := by
  refine .bind (leaves_branchTarget _) fun _ => .bind leaves_registers fun _ => ?_
  exact .bind (leaves_push _ _) fun _ => .bind (leaves_goTo _) fun _ => .pure _

theorem leaves_exg (x y : Register) : Leaves [x, y] (exg x y : Exec World Nat) :=
  .bind (.update fun _ => (keepsOthers_set List.mem_cons_self _).trans
    (keepsOthers_set (List.mem_cons_of_mem x List.mem_cons_self) _)) fun _ => .pure _

end Exec

namespace Instruction

variable {instruction : Instruction}

open Exec Registers in
/-- An instruction that loads no list of registers leaves all but those it writes and the stack pointers
alone. -/
theorem leaves_execute (encodable : instruction.Encodable)
    (single : ∀ size source, instruction ≠ movemLoad size source) :
    Leaves instruction.written (instruction.execute : Exec World Nat) := by
  by_cases takes : instruction.operands = []
  · cases instruction with
    | illegal | lineA | lineF | trap n => exact .throw _
    | illegalPrivileged => exact .bind leaves_requirePrivilege fun _ => .throw _
    | illegalExtended => exact .bind leaves_fetchWord fun _ => .throw _
    | logicToCcr operation => exact leaves_logicToCcr operation
    | logicToSr operation => exact WritesStatus.leaves fun _ => writesStatus_logicToSr operation
    | movepStore size data address => exact leaves_movepStore size data address
    | movepLoad size data address => exact leaves_movepLoad size data address
    | moveq value n =>
      exact .bind (.update fun _ => keepsOthers_setData List.mem_cons_self _) fun _ => leaves_setLogical _ _ _
    | swap n =>
      exact .bind leaves_registers fun _ =>
        .bind (.update fun _ => keepsOthers_setData List.mem_cons_self _) fun _ => leaves_setLogical _ _ _
    | ext size n =>
      exact .bind leaves_registers fun _ =>
        .bind (.update fun _ => keepsOthers_setDataPart List.mem_cons_self _ _) fun _ => leaves_setLogical _ _ _
    | lea source n => exact leaves_lea encodable n
    | pea source =>
      exact .bind (leaves_effectiveAddress encodable) fun _ => .bind (leaves_push _ _) fun _ => .pure _
    | jmp target =>
      exact .bind (leaves_effectiveAddress encodable) fun _ => .bind (leaves_goTo _) fun _ => .pure _
    | jsr target => exact leaves_jsr encodable
    | link n => exact leaves_link n
    | unlk n => exact leaves_unlk n
    | movemStore size target => exact leaves_movemStore size encodable
    | movemLoad size source => exact absurd rfl (single size source)
    | moveToUsp n => exact leaves_moveToUsp n
    | moveFromUsp n => exact leaves_moveFromUsp n
    | trapv => exact leaves_trapv
    | reset => exact leaves_of_same reset_registers
    | nop => exact .pure _
    | stop => exact WritesStatus.leaves fun _ => writesStatus_stop
    | rte => exact WritesStatus.leaves fun _ => writesStatus_rte
    | rts => exact .bind (leaves_pull _) fun _ => .bind (leaves_goTo _) fun _ => .pure _
    | rtr => exact leaves_rtr
    | dbcc condition n => exact leaves_dbcc condition n
    | bcc condition displacement => exact leaves_bcc condition displacement
    | bsr displacement => exact leaves_bsr displacement
    | extendedRegisters operation size x y => exact .bind leaves_registers fun _ => leaves_setResult _ _ _ _
    | decimalRegisters operation x y => exact .bind leaves_registers fun _ => leaves_setResult _ _ _ _
    | exg x y => exact leaves_exg x y
    | shiftRegister kind direction size count n =>
      exact .bind leaves_registers fun _ => leaves_setResult _ _ _ _
    | _ => cases takes
  · have form : instruction.written =
        instruction.operands.flatMap (·.mode.moved) ++ instruction.destination := by
      cases instruction <;> first | rfl | exact absurd rfl takes
    rw [form]
    refine fun m => (concludes_operands m.registers takes m rfl).mono ?_ fun _ _ _ => trivial
    rintro _ m' ⟨cycles, -, taken, -⟩
    exact taken.keepsOthers

/-- A completed instruction writes what its form says and what MOVEM loads, and leaves all else but the stack
pointers. -/
theorem keepsOthers_execute (encodable : instruction.Encodable) (m : Machine World) :
    Ends (instruction.execute m)
      (fun _ m' => m.registers.KeepsOthers (instruction.written ++ instruction.loaded m) m'.registers)
      fun _ _ => True := by
  have other (single : ∀ size source, instruction ≠ movemLoad size source) :=
    (leaves_execute encodable single m).mono
      (fun _ _ kept => kept.mono fun _ => List.mem_append_left (instruction.loaded m)) fun _ _ => id
  cases instruction with
  | movemLoad size source => exact Exec.keepsOthers_movemLoad size encodable m
  | _ => exact other fun _ _ same => by cases same

end Instruction

end MC68000
