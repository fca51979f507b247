import MC68000.Proofs.Effects

set_option autoImplicit false

namespace MC68000

variable {World : Type}

namespace AddressingMode

/-- Whether taking an operand moves an address register. -/
def Moves (mode : AddressingMode) (n : Fin 8) : Prop := mode = postIncrement n ∨ mode = preDecrement n

/-- How far taking an operand moves an address register. -/
def displacement (mode : AddressingMode) (size : Size) (n : Fin 8) : BitVec 32 :=
  match mode with
  | postIncrement k => if k = n then autoStep k size else 0
  | preDecrement k => if k = n then -autoStep k size else 0
  | _ => 0

/-- The address registers after an operand has been taken. -/
def advance (mode : AddressingMode) (size : Size) (a : Vector (BitVec 32) 8) : Vector (BitVec 32) 8 :=
  match mode with
  | postIncrement n => a.setIfInBounds n (a.get n + autoStep n size)
  | preDecrement n => a.setIfInBounds n (a.get n - autoStep n size)
  | _ => a

/-- Where the modes without extension words find memory: before the increment, and after the decrement. -/
def address? (mode : AddressingMode) (size : Size) (a : Vector (BitVec 32) 8) : Option (BitVec 32) :=
  match mode with
  | indirect n | postIncrement n => some (a.get n)
  | preDecrement n => some (a.get n - autoStep n size)
  | _ => none

/-- The operands that a mode can find, given the address registers. -/
def Finds (mode : AddressingMode) (size : Size) (a : Vector (BitVec 32) 8) (target : Operand) : Prop :=
  match mode.address? size a with
  | some address => target = .memory address
  | none => mode.Locates target

/-- The register that a mode stands for. -/
def direct : AddressingMode → List Register
  | dataRegister n => [.data n]
  | addressRegister n => [.address n]
  | _ => []

theorem get_setIfInBounds (a : Vector (BitVec 32) 8) (k n : Fin 8) (value : BitVec 32) :
    (a.setIfInBounds k value).get n = if k = n then value else a.get n := by
  split
  next same =>
    subst same
    exact Vector.getElem_setIfInBounds_self k.isLt
  next other => exact Vector.getElem_setIfInBounds_ne n.isLt fun same => other (Fin.ext same)

theorem get_advance (mode : AddressingMode) (size : Size) (a : Vector (BitVec 32) 8) (n : Fin 8) :
    (mode.advance size a).get n = a.get n + mode.displacement size n := by
  have stays : a.get n = a.get n + 0 := (BitVec.add_zero _).symm
  cases mode with
  | postIncrement k =>
    rw [advance, displacement, get_setIfInBounds]
    split
    next same => rw [same]
    next => exact stays
  | preDecrement k =>
    rw [advance, displacement, get_setIfInBounds]
    split
    next same => rw [same, BitVec.sub_eq_add_neg]
    next => exact stays
  | _ => exact stays

theorem displacement_of_not_moves {mode : AddressingMode} {n : Fin 8} (still : ¬mode.Moves n)
    (size : Size) : mode.displacement size n = 0 := by
  cases mode with
  | postIncrement k => exact if_neg fun same => still (.inl (congrArg postIncrement same))
  | preDecrement k => exact if_neg fun same => still (.inr (congrArg preDecrement same))
  | _ => rfl

end AddressingMode

def Registers.dataSpace (r : Registers) : AddressSpace := .ofFlags r.isSupervisor false

/-- The bus cycles of the current step that transfer data, and not the program. -/
def Machine.dataCycles (m : Machine World) : List BusCycle :=
  m.activity.filter fun b => !b.space.isProgram

/-- The cycles that read a value. A long takes two. -/
def Size.readCycles (size : Size) (space : AddressSpace) (address : BitVec 32) : List BusCycle :=
  match size with
  | byte => [⟨space, address, .readByte⟩]
  | word => [⟨space, address, .readWord⟩]
  | long => [⟨space, address, .readWord⟩, ⟨space, address + 2, .readWord⟩]

def Size.writeCycles (size : Size) (space : AddressSpace) (address value : BitVec 32) :
    List BusCycle :=
  match size with
  | byte => [⟨space, address, .writeByte (value.setWidth 8)⟩]
  | word => [⟨space, address, .writeWord (value.setWidth 16)⟩]
  | long => [⟨space, address, .writeWord (value.extractLsb' 16 16)⟩,
      ⟨space, address + 2, .writeWord (value.setWidth 16)⟩]

namespace Operand

/-- The data cycles that load an operand. Program memory is read in the program space. -/
def readCycles (target : Operand) (space : AddressSpace) (size : Size) : List BusCycle :=
  match target with
  | memory address => size.readCycles space address
  | _ => []

def writeCycles (target : Operand) (space : AddressSpace) (size : Size) (value : BitVec 32) :
    List BusCycle :=
  match target with
  | memory address => size.writeCycles space address value
  | _ => []

def stored (target : Operand) (size : Size) (value : BitVec 32) (r : Registers) : Registers :=
  match target with
  | dataRegister n => r.setDataPart n size value
  | addressRegister n => r.setAddress n value
  | _ => r

end Operand

/-- What an instruction does with an operand. -/
inductive Usage where
  | load
  | store
  /-- Loads it, and stores the result in its place. -/
  | modify
  deriving DecidableEq

/-- The data cycles of a use. -/
def Usage.cycles (usage : Usage) (target : Operand) (space : AddressSpace) (size : Size)
    (value : BitVec 32) : List BusCycle :=
  match usage with
  | load => target.readCycles space size
  | store => target.writeCycles space size value
  | modify => target.readCycles space size ++ target.writeCycles space size value

structure OperandUse where
  mode : AddressingMode
  size : Size
  usage : Usage
  deriving DecidableEq

namespace OperandUse

/-- The data cycles of a use: all of them are made where its mode finds the operand. -/
def Accesses (use : OperandUse) (space : AddressSpace) (a : Vector (BitVec 32) 8)
    (cycles : List BusCycle) : Prop :=
  ∃ target value, use.mode.Finds use.size a target ∧
    cycles = use.usage.cycles target space use.size value

/-- How far operands together move an address register. -/
def travel : List OperandUse → Fin 8 → BitVec 32
  | [], _ => 0
  | use :: rest, n => use.mode.displacement use.size n + travel rest n

/-- The address registers after operands have been taken. -/
def advance : List OperandUse → Vector (BitVec 32) 8 → Vector (BitVec 32) 8
  | [], a => a
  | use :: rest, a => advance rest (use.mode.advance use.size a)

/-- The data cycles of operands that are taken one after the other. Each finds the address registers as those
before it have left them. -/
def Perform (space : AddressSpace) :
    List OperandUse → Vector (BitVec 32) 8 → List BusCycle → Prop
  | [], _, cycles => cycles = []
  | use :: rest, a, cycles => ∃ own later, cycles = own ++ later ∧ use.Accesses space a own ∧
      Perform space rest (use.mode.advance use.size a) later

variable {space : AddressSpace} {a : Vector (BitVec 32) 8} {cycles : List BusCycle}

theorem get_advance (uses : List OperandUse) (a : Vector (BitVec 32) 8) (n : Fin 8) :
    (advance uses a).get n = a.get n + travel uses n := by
  induction uses generalizing a with
  | nil => exact (BitVec.add_zero _).symm
  | cons use rest ih => rw [advance, ih, use.mode.get_advance, travel, BitVec.add_assoc]

theorem travel_of_not_moves {uses : List OperandUse} {n : Fin 8}
    (still : ∀ use ∈ uses, ¬use.mode.Moves n) : travel uses n = 0 := by
  induction uses with
  | nil => rfl
  | cons use rest ih =>
    rw [travel, AddressingMode.displacement_of_not_moves (still use List.mem_cons_self),
      ih fun other member => still other (List.mem_cons_of_mem use member)]
    rfl

theorem perform_one {use : OperandUse} (own : use.Accesses space a cycles) :
    Perform space [use] a cycles := ⟨cycles, [], (List.append_nil cycles).symm, own, rfl⟩

end OperandUse

/-- The exceptions that follow a completed instruction. -/
def Exception.IsTrap : Exception → Prop
  | trap _ _ => True
  | _ => False

/-- A machine that has come to registers, and has made data cycles, with some property. -/
def Machine.Reaches (m m' : Machine World) (post : Registers → List BusCycle → Prop) : Prop :=
  ∃ cycles, m'.dataCycles = m.dataCycles ++ cycles ∧ post m'.registers cycles

namespace Exec

variable {α β : Type} {r : Registers}

/-- On the registers `r`, the action completes with a value, registers and data cycles that satisfy `post`, or
ends in an exception that is no trap. -/
def Does (r : Registers) (x : Exec World α) (post : α → Registers → List BusCycle → Prop) : Prop :=
  ∀ m : Machine World, m.registers = r →
    Ends (x m) (fun value m' => m.Reaches m' (post value)) fun e _ => ¬e.IsTrap

/-- On the registers `r`, the action comes to registers and data cycles that satisfy `post`, whether it
completes or ends in a trap. -/
def Concludes (r : Registers) (x : Exec World α) (post : Registers → List BusCycle → Prop) : Prop :=
  ∀ m : Machine World, m.registers = r →
    Ends (x m) (fun _ m' => m.Reaches m' post) fun e m' => e.IsTrap → m.Reaches m' post

section rules
variable {post : α → Registers → List BusCycle → Prop} {value : α} {x : Exec World α}

theorem Does.imp {post' : α → Registers → List BusCycle → Prop} (h : Does r x post)
    (weaker : ∀ value r' cycles, post value r' cycles → post' value r' cycles) : Does r x post' :=
  fun m at_r => (h m at_r).mono
    (fun value _ ⟨cycles, grown, holds⟩ => ⟨cycles, grown, weaker value _ cycles holds⟩) fun _ _ => id

theorem Does.pure (h : post value r []) : Does r (pure value : Exec World α) post := by
  rintro m rfl
  exact ⟨[], (List.append_nil _).symm, h⟩

theorem Does.throw {e : Exception} (h : ¬e.IsTrap) : Does r (throw e : Exec World α) post :=
  fun _ _ => h

theorem Does.bind {f : α → Exec World β} {post' : β → Registers → List BusCycle → Prop}
    (first : Does r x post)
    (next : ∀ value r' made, post value r' made →
      Does r' (f value) fun result r'' cycles => post' result r'' (made ++ cycles)) :
    Does r (x >>= f) post' := by
  refine fun m at_r => (first m at_r).bind fun value m' ⟨made, grown, reached⟩ => ?_
  refine (next value m'.registers made reached m' rfl).mono ?_ fun _ _ => id
  rintro result m'' ⟨cycles, grown', holds⟩
  exact ⟨made ++ cycles, by rw [grown', grown, List.append_assoc], holds⟩

theorem Does.andReturn {post : Registers → List BusCycle → Prop} {result : α → β}
    (h : Does r x fun _ => post) :
    Does r (x >>= fun value => Pure.pure (result value)) fun _ => post :=
  h.bind fun _ _ _ holds => .pure (by rwa [List.append_nil])

theorem Does.concludes {post : Registers → List BusCycle → Prop} (h : Does r x fun _ => post) :
    Concludes r x post :=
  fun m at_r => (h m at_r).mono (fun _ _ => id) fun _ _ no trap => absurd trap no

theorem Concludes.imp {post post' : Registers → List BusCycle → Prop} (h : Concludes r x post)
    (weaker : ∀ r' cycles, post r' cycles → post' r' cycles) : Concludes r x post' := by
  have good {m m' : Machine World} (reached : m.Reaches m' post) : m.Reaches m' post' := by
    obtain ⟨cycles, grown, holds⟩ := reached
    exact ⟨cycles, grown, weaker m'.registers cycles holds⟩
  exact fun m at_r => (h m at_r).mono (fun _ _ => good) fun _ _ reached trap => good (reached trap)

theorem Concludes.bind {f : α → Exec World β} {post' : Registers → List BusCycle → Prop}
    (first : Does r x post)
    (next : ∀ value r' made, post value r' made →
      Concludes r' (f value) fun r'' cycles => post' r'' (made ++ cycles)) :
    Concludes r (x >>= f) post' := by
  refine fun m at_r => ((first m at_r).mono (fun _ _ => id) fun _ _ no trap => absurd trap no).bind
    fun value m' ⟨made, grown, reached⟩ => ?_
  have combined {m'' : Machine World}
      (after : m'.Reaches m'' fun r'' cycles => post' r'' (made ++ cycles)) :
      m.Reaches m'' post' := by
    obtain ⟨cycles, grown', holds⟩ := after
    exact ⟨made ++ cycles, by rw [grown', grown, List.append_assoc], holds⟩
  exact (next value m'.registers made reached m' rfl).mono (fun _ _ => combined)
    fun _ _ after trap => combined (after trap)

theorem Concludes.throw {post : Registers → List BusCycle → Prop} {e : Exception} (h : post r []) :
    Concludes r (throw e : Exec World α) post := by
  rintro m rfl _
  exact ⟨[], (List.append_nil _).symm, h⟩

end rules

theorem does_registers : Does r (registers : Exec World Registers) fun value r' cycles =>
    value = r ∧ r' = r ∧ cycles = [] := by
  rintro m rfl
  exact ⟨[], (List.append_nil _).symm, rfl, rfl, rfl⟩

theorem does_update (f : Registers → Registers) :
    Does r (update f : Exec World Unit) fun _ r' cycles => r' = f r ∧ cycles = [] := by
  rintro m rfl
  exact ⟨[], (List.append_nil _).symm, rfl, rfl⟩

theorem ends_requirePrivilege (m : Machine World) :
    Ends (requirePrivilege m) (fun _ m' => m' = m ∧ m.registers.isSupervisor = true)
      fun e _ => e = .privilege := by
  unfold requirePrivilege
  split
  next supervisor => exact ⟨rfl, supervisor⟩
  next => exact rfl

section steps
variable {post : β → Registers → List BusCycle → Prop}

theorem Does.registers {f : Registers → Exec World β} (next : Does r (f r) post) :
    Does r (registers >>= f) post := by
  refine does_registers.bind ?_
  rintro _ _ _ ⟨rfl, rfl, rfl⟩
  exact next

theorem Does.status {f : StatusWord → Exec World β} (next : Does r (f r.status) post) :
    Does r (status >>= f) post := by
  have reads : Does r (Exec.status : Exec World StatusWord) fun value r' cycles =>
      value = r.status ∧ r' = r ∧ cycles = [] := .registers (.pure ⟨rfl, rfl, rfl⟩)
  refine reads.bind ?_
  rintro _ _ _ ⟨rfl, rfl, rfl⟩
  exact next

theorem Does.update {f : Registers → Registers} {g : Unit → Exec World β}
    (next : Does (f r) (g ()) post) : Does r (update f >>= g) post := by
  refine (does_update f).bind ?_
  rintro _ _ _ ⟨rfl, rfl⟩
  exact next

theorem Does.setStatus {value : StatusWord} {g : Unit → Exec World β}
    (next : Does (r.setStatus value) (g ()) post) : Does r (setStatus value >>= g) post :=
  .update next

theorem Concludes.setStatus {post : Registers → List BusCycle → Prop} {value : StatusWord}
    {g : Unit → Exec World β} (next : Concludes (r.setStatus value) (g ()) post) :
    Concludes r (setStatus value >>= g) post := by
  refine .bind (does_update _) ?_
  rintro _ _ _ ⟨rfl, rfl⟩
  exact next

theorem Does.requirePrivilege {g : Unit → Exec World β} (next : Does r (g ()) post) :
    Does r (requirePrivilege >>= g) post := by
  have check : Does r (Exec.requirePrivilege : Exec World Unit) fun _ r' cycles =>
      r' = r ∧ cycles = [] := by
    rintro m rfl
    refine (ends_requirePrivilege m).mono ?_ fun _ _ privilege => privilege ▸ id
    rintro _ _ ⟨rfl, -⟩
    exact ⟨[], (List.append_nil _).symm, rfl, rfl⟩
  refine check.bind ?_
  rintro _ _ _ ⟨rfl, rfl⟩
  exact next

end steps

/-- A cycle is seen on the data bus unless it is made in a program space. -/
theorem does_cycle (space : AddressSpace) (address : BitVec 32) (transfer : BusTransfer)
    (access : MemoryMap World → Access World α) :
    Does r (cycle space address transfer access) fun _ r' cycles => r' = r ∧
      cycles = if space.isProgram then [] else [⟨space, address, transfer⟩] := by
  rintro m rfl
  unfold cycle
  split
  · refine ⟨_, ?_, rfl, rfl⟩
    simp only [Machine.dataCycles, List.filter_append, List.filter_cons, List.filter_nil]
    cases space.isProgram <;> rfl
  · exact id

theorem does_requireAligned (space : AddressSpace) (size : Size) (address : BitVec 32) (write : Bool) :
    Does r (requireAligned space size address write : Exec World Unit) fun _ r' cycles =>
      r' = r ∧ cycles = [] := by
  rintro m rfl
  unfold requireAligned
  split
  · exact id
  · exact ⟨[], (List.append_nil _).symm, rfl, rfl⟩

theorem does_read (space : AddressSpace) (size : Size) (address : BitVec 32) :
    Does r (read space size address : Exec World (BitVec 32)) fun _ r' cycles => r' = r ∧
      cycles = if space.isProgram then [] else size.readCycles space address := by
  refine (does_requireAligned space size address false).bind ?_
  rintro _ _ _ ⟨rfl, rfl⟩
  cases size with
  | byte =>
    refine (does_cycle space address .readByte _).bind ?_
    rintro value _ _ ⟨rfl, rfl⟩
    exact .pure ⟨rfl, List.append_nil _⟩
  | word =>
    refine (does_cycle space address .readWord _).bind ?_
    rintro value _ _ ⟨rfl, rfl⟩
    exact .pure ⟨rfl, List.append_nil _⟩
  | long =>
    refine (does_cycle space address .readWord _).bind ?_
    rintro high _ _ ⟨rfl, rfl⟩
    refine (does_cycle space (address + 2) .readWord _).bind ?_
    rintro low _ _ ⟨rfl, rfl⟩
    refine .pure ⟨rfl, ?_⟩
    cases space.isProgram <;> rfl

theorem does_write (space : AddressSpace) (size : Size) (address value : BitVec 32) :
    Does r (write space size address value : Exec World Unit) fun _ r' cycles => r' = r ∧
      cycles = if space.isProgram then [] else size.writeCycles space address value := by
  refine (does_requireAligned space size address true).bind ?_
  rintro _ _ _ ⟨rfl, rfl⟩
  cases size with
  | byte => exact does_cycle space address (.writeByte (value.setWidth 8)) _
  | word => exact does_cycle space address (.writeWord (value.setWidth 16)) _
  | long =>
    refine (does_cycle space address (.writeWord (value.extractLsb' 16 16)) _).bind ?_
    rintro _ _ _ ⟨rfl, rfl⟩
    refine (does_cycle space (address + 2) (.writeWord (value.setWidth 16)) _).imp ?_
    rintro _ _ _ ⟨rfl, rfl⟩
    refine ⟨rfl, ?_⟩
    cases space.isProgram <;> rfl

theorem isProgram_ofFlags (supervisor program : Bool) :
    (AddressSpace.ofFlags supervisor program).isProgram = program := by
  cases supervisor <;> cases program <;> rfl

theorem does_readData (size : Size) (address : BitVec 32) :
    Does r (readData size address : Exec World (BitVec 32)) fun _ r' cycles => r' = r ∧
      cycles = size.readCycles r.dataSpace address := by
  rintro m rfl
  have found := does_read m.dataSpace size address m rfl
  rw [show m.dataSpace.isProgram = false from isProgram_ofFlags _ _] at found
  exact found

theorem does_writeData (size : Size) (address value : BitVec 32) :
    Does r (writeData size address value : Exec World Unit) fun _ r' cycles => r' = r ∧
      cycles = size.writeCycles r.dataSpace address value := by
  rintro m rfl
  have found := does_write m.dataSpace size address value m rfl
  rw [show m.dataSpace.isProgram = false from isProgram_ofFlags _ _] at found
  exact found

theorem does_readProgram (size : Size) (address : BitVec 32) :
    Does r (readProgram size address : Exec World (BitVec 32)) fun _ r' cycles =>
      r' = r ∧ cycles = [] := by
  rintro m rfl
  have found := does_read m.programSpace size address m rfl
  rw [show m.programSpace.isProgram = true from isProgram_ofFlags _ _] at found
  exact found

/-- An action that takes words of the instruction stream and does nothing else. -/
abbrev Fetches (r : Registers) (x : Exec World α) : Prop :=
  Does r x fun _ r' cycles => (∃ pc, r' = { r with pc }) ∧ cycles = []

theorem fetches_word : Fetches r (fetchWord : Exec World (BitVec 16)) := by
  refine .registers ((does_readProgram .word r.pc).bind ?_)
  rintro word _ _ ⟨rfl, rfl⟩
  exact .update (.pure ⟨⟨_, rfl⟩, rfl⟩)

theorem Fetches.andThen {x : Exec World α} {f : α → Exec World β}
    {post : β → Registers → List BusCycle → Prop} (first : Fetches r x)
    (next : ∀ value pc, Does { r with pc } (f value) post) : Does r (x >>= f) post := by
  refine first.bind ?_
  rintro value _ _ ⟨⟨pc, rfl⟩, rfl⟩
  exact next value pc

theorem fetches_displacement : Fetches r (fetchDisplacement : Exec World (BitVec 32)) :=
  fetches_word.andThen fun _ pc => .pure ⟨⟨pc, rfl⟩, rfl⟩

theorem fetches_long : Fetches r (fetchLong : Exec World (BitVec 32)) :=
  fetches_word.andThen fun _ _ => fetches_word.andThen fun _ pc => .pure ⟨⟨pc, rfl⟩, rfl⟩

theorem fetches_immediate (size : Size) :
    Fetches r (fetchImmediate size : Exec World (BitVec 32)) := by
  cases size with
  | byte => exact fetches_word.andThen fun _ pc => .pure ⟨⟨pc, rfl⟩, rfl⟩
  | word => exact fetches_word.andThen fun _ pc => .pure ⟨⟨pc, rfl⟩, rfl⟩
  | long => exact fetches_long

/-- Locating an operand moves its register, once, and makes no data cycle. -/
theorem does_locate (mode : AddressingMode) (size : Size) :
    Does r (locate mode size : Exec World Operand) fun target r' cycles =>
      mode.Finds size r.a target ∧ (∃ pc, r' = { r with a := mode.advance size r.a, pc }) ∧
        cycles = [] := by
  cases mode with
  | dataRegister n => exact .pure ⟨rfl, ⟨_, rfl⟩, rfl⟩
  | addressRegister n => exact .pure ⟨rfl, ⟨_, rfl⟩, rfl⟩
  | indirect n => exact .registers (.pure ⟨rfl, ⟨_, rfl⟩, rfl⟩)
  | postIncrement n => exact .registers (.update (.pure ⟨rfl, ⟨_, rfl⟩, rfl⟩))
  | preDecrement n => exact .registers (.update (.pure ⟨rfl, ⟨_, rfl⟩, rfl⟩))
  | displaced n =>
    exact fetches_displacement.andThen fun _ pc => .registers (.pure ⟨rfl, ⟨pc, rfl⟩, rfl⟩)
  | indexed n => exact fetches_word.andThen fun _ pc => .registers (.pure ⟨rfl, ⟨pc, rfl⟩, rfl⟩)
  | absoluteShort => exact fetches_displacement.andThen fun _ pc => .pure ⟨rfl, ⟨pc, rfl⟩, rfl⟩
  | absoluteLong => exact fetches_long.andThen fun _ pc => .pure ⟨rfl, ⟨pc, rfl⟩, rfl⟩
  | programDisplaced =>
    exact .registers (fetches_displacement.andThen fun _ pc => .pure ⟨rfl, ⟨pc, rfl⟩, rfl⟩)
  | programIndexed =>
    exact .registers (fetches_word.andThen fun _ pc => .registers (.pure ⟨rfl, ⟨pc, rfl⟩, rfl⟩))
  | immediate => exact (fetches_immediate size).andThen fun _ pc => .pure ⟨rfl, ⟨pc, rfl⟩, rfl⟩

theorem does_load (target : Operand) (size : Size) :
    Does r (load target size : Exec World (BitVec 32)) fun _ r' cycles =>
      r' = r ∧ cycles = target.readCycles r.dataSpace size := by
  cases target with
  | dataRegister n => exact .registers (.pure ⟨rfl, rfl⟩)
  | addressRegister n => exact .registers (.pure ⟨rfl, rfl⟩)
  | memory address => exact does_readData size address
  | program address => exact does_readProgram size address
  | value value => exact .pure ⟨rfl, rfl⟩

theorem does_store (target : Operand) (size : Size) (value : BitVec 32) :
    Does r (store target size value : Exec World Unit) fun _ r' cycles =>
      r' = target.stored size value r ∧ cycles = target.writeCycles r.dataSpace size value := by
  cases target with
  | dataRegister n => exact does_update _
  | addressRegister n => exact does_update _
  | memory address => exact does_writeData size address value
  | program address => exact .throw id
  | value value => exact .throw id

section steps
variable {post : β → Registers → List BusCycle → Prop}

theorem Does.locate {mode : AddressingMode} {size : Size} {f : Operand → Exec World β}
    (next : ∀ target pc, mode.Finds size r.a target →
      Does { r with a := mode.advance size r.a, pc } (f target) post) :
    Does r (locate mode size >>= f) post := by
  refine (does_locate mode size).bind ?_
  rintro target _ _ ⟨found, ⟨pc, rfl⟩, rfl⟩
  exact next target pc found

theorem Does.load {target : Operand} {size : Size} {f : BitVec 32 → Exec World β}
    (next : ∀ value, Does r (f value) fun result r' cycles =>
      post result r' (target.readCycles r.dataSpace size ++ cycles)) :
    Does r (load target size >>= f) post := by
  refine (does_load target size).bind ?_
  rintro value _ _ ⟨rfl, rfl⟩
  exact next value

theorem Does.store {target : Operand} {size : Size} {value : BitVec 32} {f : Unit → Exec World β}
    (next : Does (target.stored size value r) (f ()) fun result r' cycles =>
      post result r' (target.writeCycles r.dataSpace size value ++ cycles)) :
    Does r (store target size value >>= f) post := by
  refine (does_store target size value).bind ?_
  rintro _ _ _ ⟨rfl, rfl⟩
  exact next

end steps

end Exec

end MC68000
