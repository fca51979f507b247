import MC68000.Proofs.InstructionLength
import MC68000.Proofs.RegisterLists

set_option autoImplicit false

namespace MC68000

variable {World : Type}

namespace Machine

/-- From the program counter on this many words of the program can be fetched. -/
structure Streams (m : Machine World) (words : Nat) : Prop where
  even : m.registers.pc.getLsbD 0 = false
  found : ∀ i < words, ∃ word, m.memory.readWord m.programSpace
    (m.registers.pc + BitVec.ofNat 32 (2 * i)) m.host = .ok word m.host

/-- The next instruction has this opcode, and all its words can be fetched. -/
structure FetchesAll (m : Machine World) (opcode : BitVec 16) : Prop where
  fetched : m.memory.readWord m.programSpace m.registers.pc m.host = .ok opcode m.host
  words : m.Streams (1 + (Instruction.decode opcode).extensionWords)

variable {m m' : Machine World} {words more : Nat}

theorem fetchesAll_of_one {opcode : BitVec 16} (one : (Instruction.decode opcode).extensionWords = 0)
    (even : m.registers.pc.getLsbD 0 = false)
    (fetched : m.memory.readWord m.programSpace m.registers.pc m.host = .ok opcode m.host) :
    m.FetchesAll opcode := by
  refine ⟨fetched, even, fun i inside => ⟨opcode, ?_⟩⟩
  have first : i = 0 := by omega
  have here : m.registers.pc + BitVec.ofNat 32 (2 * 0) = m.registers.pc := BitVec.add_zero _
  rw [first, here]
  exact fetched

theorem Becomes.programSpace {r : Registers} (h : m.Becomes r m.host.ram m')
    (same : r.isSupervisor = m.registers.isSupervisor) : m'.programSpace = m.programSpace := by
  rw [Machine.programSpace, h.registers, same]
  rfl

theorem even_add_words {address : BitVec 32} (even : address.getLsbD 0 = false) (words : Nat) :
    (address + BitVec.ofNat 32 (2 * words)).getLsbD 0 = false := by
  rw [getLsbD_zero_eq, decide_eq_false_iff_not] at even ⊢
  rw [BitVec.toNat_add, BitVec.toNat_ofNat]
  omega

theorem Streams.past (h : m.Streams (words + more)) (becomes : m.Becomes
    { m.registers with pc := m.registers.pc + BitVec.ofNat 32 (2 * words) } m.host.ram m') :
    m'.Streams more := by
  constructor
  · rw [becomes.registers]
    exact even_add_words h.even words
  · intro i inside
    obtain ⟨word, found⟩ := h.found (words + i) (Nat.add_lt_add_left inside words)
    refine ⟨word, ?_⟩
    rw [becomes.programSpace rfl, becomes.memory, becomes.host, becomes.registers, BitVec.add_assoc,
      ← BitVec.ofNat_add, ← Nat.mul_add]
    exact found

end Machine

/-- An operand in memory, with an address of its own. -/
def Operand.NamesAddress : Operand → Prop
  | .memory _ | .program _ => True
  | _ => False

namespace Exec

/-- Takes a number of words from the instruction stream wherever they can be fetched, and changes nothing else.
What it gives satisfies `post`. -/
def Reads {α : Type} (words : Nat) (x : Exec World α) (post : α → Prop) : Prop :=
  ∀ m : Machine World, m.Streams words → ∃ (a : α) (m' : Machine World), x m = .ok a m' ∧ post a ∧
    m.Becomes { m.registers with pc := m.registers.pc + BitVec.ofNat 32 (2 * words) } m.host.ram m'

section rules

variable {α β : Type} {x : Exec World α} {f : α → Exec World β} {post : α → Prop} {post' : β → Prop}
  {words more : Nat}

theorem reads_pure {a : α} (holds : post a) : Reads 0 (pure a : Exec World α) post := by
  intro m _
  refine ⟨a, m, rfl, holds, ?_⟩
  rw [BitVec.add_zero]
  exact .refl m

theorem Reads.bind (first : Reads words x post) (next : ∀ a, post a → Reads more (f a) post') :
    Reads (words + more) (x >>= f) post' := by
  intro m streams
  obtain ⟨a, m₁, gives, holds, becomes⟩ := first m ⟨streams.even, fun i inside =>
    streams.found i (Nat.lt_add_right more inside)⟩
  obtain ⟨b, m₂, last, result, after⟩ := next a holds m₁ (streams.past becomes)
  refine ⟨b, m₂, (bind_of_ok gives).trans last, result, ?_⟩
  rw [becomes.registers, becomes.host_ram, BitVec.add_assoc, ← BitVec.ofNat_add, ← Nat.mul_add] at after
  exact becomes.trans after

theorem Reads.andThen (first : Reads words x post) (next : ∀ a, post a → Reads 0 (f a) post') :
    Reads words (x >>= f) post' := first.bind next

theorem Reads.giving (first : Reads words x fun _ => True) {g : α → β} (holds : ∀ a, post' (g a)) :
    Reads words (do let a ← x; return g a : Exec World β) post' :=
  first.andThen fun a _ => reads_pure (holds a)

theorem reads_registers {f : Registers → Exec World β} (next : ∀ r, Reads words (f r) post') :
    Reads words (registers >>= f) post' := by
  intro m streams
  rw [bind_registers]
  exact next m.registers m streams

end rules

theorem reads_fetchWord : Reads 1 (fetchWord : Exec World (BitVec 16)) fun _ => True := by
  intro m streams
  obtain ⟨word, found⟩ := streams.found 0 Nat.one_pos
  have here : m.registers.pc + BitVec.ofNat 32 (2 * 0) = m.registers.pc := BitVec.add_zero _
  rw [here] at found
  obtain ⟨m', fetched, becomes⟩ := fetchWord_of_found streams.even found
  exact ⟨word, m', fetched, trivial, becomes⟩

theorem reads_fetchDisplacement : Reads 1 (fetchDisplacement : Exec World (BitVec 32)) fun _ => True :=
  reads_fetchWord.giving fun _ => trivial

theorem reads_fetchLong : Reads 2 (fetchLong : Exec World (BitVec 32)) fun _ => True :=
  reads_fetchWord.bind fun _ _ => reads_fetchWord.giving fun _ => trivial

theorem reads_locate {mode : AddressingMode} (control : mode.isControl = true) :
    Reads (mode.words .long) (locate mode .long : Exec World Operand) Operand.NamesAddress := by
  cases mode with
  | dataRegister _ | addressRegister _ | postIncrement _ | preDecrement _ | immediate => cases control
  | indirect n => exact reads_registers fun r => reads_pure trivial
  | displaced n =>
    exact reads_fetchDisplacement.andThen fun _ _ => reads_registers fun r => reads_pure trivial
  | indexed n => exact reads_fetchWord.andThen fun _ _ => reads_registers fun r => reads_pure trivial
  | absoluteShort => exact reads_fetchDisplacement.giving fun _ => trivial
  | absoluteLong => exact reads_fetchLong.giving fun _ => trivial
  | programDisplaced => exact reads_registers fun r => reads_fetchDisplacement.giving fun _ => trivial
  | programIndexed =>
    refine reads_registers fun r => reads_fetchWord.andThen fun _ _ => ?_
    exact reads_registers fun r => reads_pure trivial

theorem reads_effectiveAddress {mode : AddressingMode} (control : mode.isControl = true) :
    Reads (mode.words .long) (effectiveAddress mode : Exec World (BitVec 32)) fun _ => True := by
  refine (reads_locate control).andThen fun target names => ?_
  cases target with
  | memory address => exact reads_pure trivial
  | program address => exact reads_pure trivial
  | _ => exact names.elim

theorem reads_branchTarget (displacement : BitVec 8) :
    Reads (if displacement = 0 then 1 else 0) (branchTarget displacement : Exec World (BitVec 32))
      fun _ => True := by
  refine reads_registers fun r => ?_
  split
  · exact reads_fetchDisplacement.giving fun _ => trivial
  · exact reads_pure trivial

/-- An instruction whose words can be fetched, as far as its opcode has been fetched. -/
theorem nextInstruction_of_fetchesAll {m : Machine World} {opcode : BitVec 16}
    (fetches : m.FetchesAll opcode) :
    ∃ m₁ : Machine World, nextInstruction m = (Instruction.decode opcode).execute m₁ ∧
      m₁.Streams (Instruction.decode opcode).extensionWords ∧
      Machine.Becomes { m with opcode } { m.registers with pc := m.registers.pc + 2 } m.host.ram m₁ := by
  obtain ⟨m₁, next, becomes⟩ := nextInstruction_of_found fetches.words.even fetches.fetched
  have streams := fetches.words.past becomes
  refine ⟨{ m₁ with opcode }, next, ⟨streams.even, streams.found⟩, ?_⟩
  rw [Machine.Becomes] at becomes ⊢
  rw [becomes]

end Exec

namespace Machine

/-- Room for a long below the stack pointer: memory that keeps what is written to it. -/
structure StackRoom (m : Machine World) (c : LongCell) : Prop where
  even : (m.registers.a.get 7).getLsbD 0 = false
  keeps : m.memory.KeepsLongs m.dataSpace (m.registers.a.get 7 - 4) [c]
  holds : ∀ half ∈ c.halves, m.host.ram.Holds half
  apart : c.high.Apart c.low

theorem StackRoom.of_becomes {m m' : Machine World} {r : Registers} {c : LongCell}
    (room : m.StackRoom c) (becomes : m.Becomes r m.host.ram m')
    (stack : r.a.get 7 = m.registers.a.get 7) (mode : r.isSupervisor = m.registers.isSupervisor) :
    m'.StackRoom c := by
  constructor
  · rw [becomes.registers, stack]
    exact room.even
  · rw [becomes.registers, stack, becomes.memory, becomes.dataSpace mode]
    exact room.keeps
  · rw [becomes.host_ram]
    exact room.holds
  · exact room.apart

theorem StackRoom.of_begun {m m' : Machine World} {r : Registers} {c : LongCell} {opcode : BitVec 16}
    (room : m.StackRoom c) (begun : Becomes { m with opcode } r m.host.ram m')
    (stack : r.a.get 7 = m.registers.a.get 7) (mode : r.isSupervisor = m.registers.isSupervisor) :
    m'.StackRoom c :=
  of_becomes (m := { m with opcode }) ⟨room.even, room.keeps, room.holds, room.apart⟩ begun stack mode

end Machine

/-- The words of a long that has been written are found in its cells. -/
theorem Ram.wordAt_putWords_long {ram : Ram} {c : LongCell} (holds : ∀ half ∈ c.halves, ram.Holds half)
    (apart : c.high.Apart c.low) (value : BitVec 32) :
    ∀ word ∈ c.words value, (ram.putWords (c.words value)).wordAt word.1 = some word.2 := by
  apply wordAt_putWords
  · intro word member
    apply holds
    exact List.mem_map_of_mem (f := Prod.fst) member
  · exact List.pairwise_pair.mpr apart

namespace Exec

variable {m : Machine World} {c : LongCell}

theorem push_of_room (room : m.StackRoom c) (value : BitVec 32) :
    ∃ m', push .long value m = .ok () m' ∧
      m.Becomes (m.registers.setAddress 7 (m.registers.a.get 7 - 4))
        (m.host.ram.putWords (c.words value)) m' := by
  obtain ⟨high, low, -⟩ := room.keeps
  rw [sub_four_add_two] at low
  exact push_long_of_isRam room.even high (room.holds _ List.mem_cons_self) low
    (room.holds _ (List.mem_cons_of_mem _ List.mem_cons_self)) value

theorem pull_of_found {value : BitVec 32} (even : (m.registers.a.get 7).getLsbD 0 = false)
    (keeps : m.memory.KeepsLongs m.dataSpace (m.registers.a.get 7) [c])
    (found : ∀ word ∈ c.words value, m.host.ram.wordAt word.1 = some word.2) :
    ∃ m', pull .long m = .ok value m' ∧
      m.Becomes (m.registers.setAddress 7 (m.registers.a.get 7 + 4)) m.host.ram m' := by
  obtain ⟨high, low, -⟩ := keeps
  obtain ⟨m', pulled, becomes⟩ := pull_long_of_isRam even high (found _ List.mem_cons_self) low
    (found _ (List.mem_cons_of_mem _ List.mem_cons_self))
  rw [high_append_low] at pulled
  exact ⟨m', pulled, becomes⟩

variable {opcode : BitVec 16}

/-- A call takes the words of its target, pushes the address behind them and goes there. -/
theorem call_of_room {target : Exec World (BitVec 32)} {words : Nat}
    (reads : Reads words target fun _ => True) (cost : Nat) (streams : m.Streams words)
    (room : m.StackRoom c) : ∃ (address : BitVec 32) (m' : Machine World),
      (do
        let address ← target
        push .long (← registers).pc
        goTo address
        return cost : Exec World Nat) m = .ok cost m' ∧
      m.Becomes { m.registers.setAddress 7 (m.registers.a.get 7 - 4) with pc := address }
        (m.host.ram.putWords (c.words (m.registers.pc + BitVec.ofNat 32 (2 * words)))) m' := by
  obtain ⟨address, m₁, found, -, becomes⟩ := reads m streams
  obtain ⟨m₂, pushed, after⟩ := push_of_room (room.of_becomes becomes rfl rfl) m₁.registers.pc
  rw [becomes.registers, becomes.host_ram] at after
  refine ⟨address, m₂.mapRegisters fun r => { r with pc := address }, ?_, ?_⟩
  · rw [bind_of_ok found, bind_registers, bind_of_ok pushed]
    rfl
  · exact (becomes.trans after).setRegisters fun r => { r with pc := address }

theorem next_call (call : (Instruction.decode opcode).IsCall) (fetches : m.FetchesAll opcode)
    (room : m.StackRoom c) : ∃ (cost : Nat) (address : BitVec 32) (m' : Machine World),
      nextInstruction m = .ok cost m' ∧ Machine.Becomes { m with opcode }
        { m.registers.setAddress 7 (m.registers.a.get 7 - 4) with pc := address }
        (m.host.ram.putWords (c.words
          (m.registers.pc + BitVec.ofNat 32 (Instruction.decode opcode).length))) m' := by
  obtain ⟨m₁, next, streams, begun⟩ := nextInstruction_of_fetchesAll fetches
  have room₁ : m₁.StackRoom c := room.of_begun begun rfl rfl
  have encodable := Instruction.encodable_decode opcode
  rw [← Instruction.add_length]
  generalize Instruction.decode opcode = instruction at *
  obtain ⟨cost, address, m₂, called, after⟩ : ∃ (cost : Nat) (address : BitVec 32) (m₂ : Machine World),
      instruction.execute m₁ = .ok cost m₂ ∧
      m₁.Becomes { m₁.registers.setAddress 7 (m₁.registers.a.get 7 - 4) with pc := address }
        (m₁.host.ram.putWords (c.words
          (m₁.registers.pc + BitVec.ofNat 32 (2 * instruction.extensionWords)))) m₂ := by
    cases instruction with
    | jsr target => exact ⟨_, call_of_room (reads_effectiveAddress encodable) _ streams room₁⟩
    | bsr displacement => exact ⟨_, call_of_room (reads_branchTarget displacement) _ streams room₁⟩
    | _ => exact call.elim
  rw [begun.registers, begun.host_ram] at after
  exact ⟨cost, address, m₂, next.trans called, begun.trans after⟩

theorem next_rts {address : BitVec 32} (decodes : Instruction.decode opcode = .rts)
    (fetches : m.FetchesAll opcode) (even : (m.registers.a.get 7).getLsbD 0 = false)
    (keeps : m.memory.KeepsLongs m.dataSpace (m.registers.a.get 7) [c])
    (found : ∀ word ∈ c.words address, m.host.ram.wordAt word.1 = some word.2) :
    ∃ m', nextInstruction m = .ok 16 m' ∧ Machine.Becomes { m with opcode }
      { m.registers.setAddress 7 (m.registers.a.get 7 + 4) with pc := address } m.host.ram m' := by
  obtain ⟨m₁, next, -, begun⟩ := nextInstruction_of_fetchesAll fetches
  rw [← begun.host_ram] at found
  obtain ⟨m₂, pulled, after⟩ := pull_of_found (by rw [begun.registers]; exact even)
    (by rw [begun.registers, begun.memory, begun.dataSpace rfl]; exact keeps) found
  rw [begun.registers, begun.host_ram] at after
  have returned : rts m₁ = .ok 16 (m₂.mapRegisters fun r => { r with pc := address }) := by
    unfold rts
    rw [bind_of_ok pulled]
    rfl
  rw [decodes] at next
  exact ⟨_, next.trans returned, (begun.trans after).setRegisters fun r => { r with pc := address }⟩

/-- The registers after LINK has pushed one of them. -/
theorem linked_registers {n : Fin 8} (other : n ≠ 7) (r : Registers) (low displacement : BitVec 32) :
    let pushed := r.setAddress 7 low
    let pointing := pushed.setAddress n (pushed.a.get 7)
    pointing.setAddress 7 (pointing.a.get 7 + displacement) =
      (pushed.setAddress n low).setAddress 7 (low + displacement) := by
  intro pushed pointing
  have ne : Register.address 7 ≠ .address n := fun same => other (Register.address.inj same).symm
  have top : pushed.a.get 7 = low := r.get_setAddress 7 low
  have still : pointing.a.get 7 = pushed.a.get 7 := Registers.get_setAddress_of_ne ne _
  rw [still, top]
  exact congrArg (fun value => (pushed.setAddress n value).setAddress 7 _) top

theorem next_link {displacement : BitVec 16} {n : Fin 8} (decodes : Instruction.decode opcode = .link n)
    (other : n ≠ 7) (fetches : m.Fetches opcode displacement) (room : m.StackRoom c) :
    let low := m.registers.a.get 7 - 4
    ∃ m', nextInstruction m = .ok 16 m' ∧ Machine.Becomes { m with opcode }
      { ((m.registers.setAddress 7 low).setAddress n low).setAddress 7
          (low + displacement.signExtend 32) with pc := m.registers.pc + 4 }
      (m.host.ram.putWords (c.words (m.registers.a.get n))) m' := by
  intro low
  obtain ⟨m₁, m₂, next, fetched, begun⟩ := nextInstruction_of_fetches fetches
  have room₂ : m₂.StackRoom c := room.of_begun begun rfl rfl
  obtain ⟨m₃, pushed, after⟩ := push_of_room room₂ (m.registers.a.get n)
  have done : link n m₁ = .ok 16 ((m₃.mapRegisters fun r => r.setAddress n (r.a.get 7)).mapRegisters
      fun r => r.setAddress 7 (r.a.get 7 + displacement.signExtend 32)) := by
    unfold link
    rw [bind_of_ok (fetchDisplacement_of_fetchWord fetched), bind_registers, if_neg other, begun.registers,
      bind_of_ok pushed]
    rfl
  rw [begun.registers, begun.host_ram] at after
  have becomes := ((begun.trans after).setRegisters fun r => r.setAddress n (r.a.get 7)).setRegisters
    fun r => r.setAddress 7 (r.a.get 7 + displacement.signExtend 32)
  rw [linked_registers other] at becomes
  rw [decodes] at next
  exact ⟨_, next.trans done, becomes⟩

theorem next_unlk {n : Fin 8} {value : BitVec 32} (decodes : Instruction.decode opcode = .unlk n)
    (fetches : m.FetchesAll opcode) (even : (m.registers.a.get n).getLsbD 0 = false)
    (keeps : m.memory.KeepsLongs m.dataSpace (m.registers.a.get n) [c])
    (found : ∀ word ∈ c.words value, m.host.ram.wordAt word.1 = some word.2) :
    ∃ m', nextInstruction m = .ok 12 m' ∧ Machine.Becomes { m with opcode }
      { (m.registers.setAddress 7 (m.registers.a.get n + 4)).setAddress n value with
        pc := m.registers.pc + 2 } m.host.ram m' := by
  obtain ⟨m₁, next, -, begun⟩ := nextInstruction_of_fetchesAll fetches
  have pointed := begun.setRegisters fun r => r.setAddress 7 (m.registers.a.get n)
  have top : (m₁.mapRegisters fun r => r.setAddress 7 (m.registers.a.get n)).registers.a.get 7 =
      m.registers.a.get n := Registers.get_setAddress ..
  rw [← pointed.host_ram] at found
  obtain ⟨m₂, pulled, after⟩ := pull_of_found (by rw [top]; exact even)
    (by rw [top, pointed.memory, pointed.dataSpace rfl]; exact keeps) found
  rw [top, pointed.registers, pointed.host_ram, Registers.setAddress_setAddress] at after
  have done : unlk n m₁ = .ok 12 (m₂.mapRegisters (·.setAddress n value)) := by
    have moved : update (fun r => r.setAddress 7 (r.a.get n)) m₁ =
        .ok () (m₁.mapRegisters fun r => r.setAddress 7 (m.registers.a.get n)) := by
      rw [← show m₁.registers.a.get n = m.registers.a.get n by rw [begun.registers]]
      rfl
    unfold unlk
    rw [bind_of_ok moved, bind_of_ok pulled]
    rfl
  rw [decodes] at next
  exact ⟨_, next.trans done, (pointed.trans after).setRegisters (·.setAddress n value)⟩

end Exec

namespace Machine

/-- The next instruction is a call, with room for the return address. -/
structure Calls (m : Machine World) (opcode : BitVec 16) (c : LongCell) : Prop where
  call : (Instruction.decode opcode).IsCall
  fetches : m.FetchesAll opcode
  room : m.StackRoom c

/-- The next instruction is RTS, and the stack pointer leads to this long. -/
structure Returns (m : Machine World) (opcode : BitVec 16) (c : LongCell) : Prop where
  decodes : Instruction.decode opcode = .rts
  fetches : m.FetchesAll opcode
  keeps : m.memory.KeepsLongs m.dataSpace (m.registers.a.get 7) [c]

/-- The next instruction is LINK, of a register other than the stack pointer, and there is room for it. -/
structure Links (m : Machine World) (opcode displacement : BitVec 16) (n : Fin 8) (c : LongCell) :
    Prop where
  decodes : Instruction.decode opcode = .link n
  other : n ≠ 7
  fetches : m.Fetches opcode displacement
  room : m.StackRoom c

/-- The next instruction is UNLK, and its register leads to this long. -/
structure Unlinks (m : Machine World) (opcode : BitVec 16) (n : Fin 8) (c : LongCell) : Prop where
  decodes : Instruction.decode opcode = .unlk n
  fetches : m.FetchesAll opcode
  keeps : m.memory.KeepsLongs m.dataSpace (m.registers.a.get n) [c]

/-- The stack pointer is the same, and so are the pointers to some frames and the words of some longs. -/
structure Preserves (m : Machine World) (frames : List (Fin 8)) (longs : List LongCell)
    (m' : Machine World) : Prop where
  stack : m'.registers.a.get 7 = m.registers.a.get 7
  pointers : ∀ n ∈ frames, m'.registers.a.get n = m.registers.a.get n
  words : ∀ half ∈ longs.flatMap LongCell.halves, m'.host.ram.wordAt half = m.host.ram.wordAt half

variable {m m' m'' : Machine World} {frames : List (Fin 8)} {longs : List LongCell}

theorem Preserves.refl (m : Machine World) : m.Preserves frames longs m :=
  ⟨rfl, fun _ _ => rfl, fun _ _ => rfl⟩

theorem Preserves.trans (first : m.Preserves frames longs m') (second : m'.Preserves frames longs m'') :
    m.Preserves frames longs m'' := by
  constructor
  · exact second.stack.trans first.stack
  · intro n member
    exact (second.pointers n member).trans (first.pointers n member)
  · intro half member
    exact (second.words half member).trans (first.words half member)

/-- The long that has been pushed last is among those that are kept. -/
theorem Preserves.top {c : LongCell} (kept : m.Preserves frames (c :: longs) m') :
    ∀ half ∈ c.halves, m'.host.ram.wordAt half = m.host.ram.wordAt half := by
  intro half member
  apply kept.words
  rw [List.flatMap_cons]
  exact List.mem_append_left _ member

theorem Preserves.below {c : LongCell} (kept : m.Preserves frames (c :: longs) m') :
    ∀ half ∈ longs.flatMap LongCell.halves, m'.host.ram.wordAt half = m.host.ram.wordAt half := by
  intro half member
  apply kept.words
  rw [List.flatMap_cons]
  exact List.mem_append_right _ member

end Machine

def LongCell.ApartFrom (c : LongCell) (longs : List LongCell) : Prop :=
  ∀ half ∈ c.halves, ∀ other ∈ longs.flatMap LongCell.halves, half.Apart other

instance (c : LongCell) (longs : List LongCell) : Decidable (c.ApartFrom longs) :=
  inferInstanceAs (Decidable (∀ half ∈ c.halves, _))

theorem Ram.wordAt_putWords_of_apartFrom {c : LongCell} {longs : List LongCell}
    (apart : c.ApartFrom longs) (ram : Ram) (value : BitVec 32) :
    ∀ half ∈ longs.flatMap LongCell.halves,
      (ram.putWords (c.words value)).wordAt half = ram.wordAt half := by
  intro half member
  apply wordAt_putWords_of_apart
  intro word written
  exact apart word.1 (List.mem_map_of_mem (f := Prod.fst) written) half member

theorem Registers.a_setAddress_of_ne {n k : Fin 8} (ne : k ≠ n) (r : Registers) (value : BitVec 32) :
    (r.setAddress n value).a.get k = r.a.get k :=
  get_setAddress_of_ne (fun same => ne (Register.address.inj same)) value

namespace Exec

variable {m : Machine World} {c : LongCell} {opcode : BitVec 16}

/-- The words of a long that has been written, for as long as they are kept. -/
theorem found_of_kept {m m₁ m₂ : Machine World} {value : BitVec 32} (room : m.StackRoom c)
    (written : m₁.host.ram = m.host.ram.putWords (c.words value))
    (kept : ∀ half ∈ c.halves, m₂.host.ram.wordAt half = m₁.host.ram.wordAt half) :
    ∀ word ∈ c.words value, m₂.host.ram.wordAt word.1 = some word.2 := by
  intro word member
  rw [kept word.1 (List.mem_map_of_mem (f := Prod.fst) member), written]
  exact Ram.wordAt_putWords_long room.holds room.apart value word member

/-- A call lowers the stack pointer by a long. RTS goes on behind the call and raises the stack pointer again,
if both the pointer and the long are what the call has left. -/
theorem call_returns (calls : m.Calls opcode c) :
    ∃ (cost : Nat) (address : BitVec 32) (m₁ : Machine World), nextInstruction m = .ok cost m₁ ∧
      Machine.Becomes { m with opcode }
        { m.registers.setAddress 7 (m.registers.a.get 7 - 4) with pc := address }
        (m.host.ram.putWords (c.words
          (m.registers.pc + BitVec.ofNat 32 (Instruction.decode opcode).length))) m₁ ∧
      ∀ (m₂ : Machine World) (opcode' : BitVec 16), m₂.Returns opcode' c →
        m₂.registers.a.get 7 = m₁.registers.a.get 7 →
        (∀ half ∈ c.halves, m₂.host.ram.wordAt half = m₁.host.ram.wordAt half) →
        ∃ m₃, nextInstruction m₂ = .ok 16 m₃ ∧ Machine.Becomes { m₂ with opcode := opcode' }
          { m₂.registers.setAddress 7 (m.registers.a.get 7) with
            pc := m.registers.pc + BitVec.ofNat 32 (Instruction.decode opcode).length }
          m₂.host.ram m₃ := by
  obtain ⟨cost, address, m₁, called, becomes⟩ := next_call calls.call calls.fetches calls.room
  refine ⟨cost, address, m₁, called, becomes, fun m₂ opcode' returns pointer kept => ?_⟩
  have top : m₂.registers.a.get 7 = m.registers.a.get 7 - 4 := by
    rw [pointer, becomes.registers]
    exact Registers.get_setAddress ..
  obtain ⟨m₃, returned, after⟩ := next_rts returns.decodes returns.fetches
    (by rw [top]; exact even_sub calls.room.even (by decide)) returns.keeps
    (found_of_kept calls.room becomes.host_ram kept)
  rw [top, BitVec.sub_add_cancel] at after
  exact ⟨m₃, returned, after⟩

/-- LINK lets its register point to the long that it pushes, and moves the stack pointer on by a displacement.
UNLK brings back both, if the register and the long are what LINK has left. -/
theorem link_unlinks {displacement : BitVec 16} {n : Fin 8} (links : m.Links opcode displacement n c) :
    let low := m.registers.a.get 7 - 4
    ∃ m₁, nextInstruction m = .ok 16 m₁ ∧ Machine.Becomes { m with opcode }
        { ((m.registers.setAddress 7 low).setAddress n low).setAddress 7
            (low + displacement.signExtend 32) with pc := m.registers.pc + 4 }
        (m.host.ram.putWords (c.words (m.registers.a.get n))) m₁ ∧
      ∀ (m₂ : Machine World) (opcode' : BitVec 16), m₂.Unlinks opcode' n c →
        m₂.registers.a.get n = m₁.registers.a.get n →
        (∀ half ∈ c.halves, m₂.host.ram.wordAt half = m₁.host.ram.wordAt half) →
        ∃ m₃, nextInstruction m₂ = .ok 12 m₃ ∧ Machine.Becomes { m₂ with opcode := opcode' }
          { (m₂.registers.setAddress 7 (m.registers.a.get 7)).setAddress n (m.registers.a.get n) with
            pc := m₂.registers.pc + 2 } m₂.host.ram m₃ := by
  intro low
  obtain ⟨m₁, linked, becomes⟩ := next_link links.decodes links.other links.fetches links.room
  refine ⟨m₁, linked, becomes, fun m₂ opcode' unlinks pointer kept => ?_⟩
  have top : m₂.registers.a.get n = low := by
    rw [pointer, becomes.registers]
    exact (Registers.a_setAddress_of_ne links.other _ _).trans (Registers.get_setAddress ..)
  obtain ⟨m₃, unlinked, after⟩ := next_unlk unlinks.decodes unlinks.fetches
    (by rw [top]; exact even_sub links.room.even (by decide)) unlinks.keeps
    (found_of_kept links.room becomes.host_ram kept)
  rw [top, BitVec.sub_add_cancel] at after
  exact ⟨m₃, unlinked, after⟩

/-- A properly bracketed run inside of some frames, with some longs on the stack: calls that return and frames
that are unlinked, with properly bracketed runs in between, and whatever else leaves the stack pointer, the
pointers to the frames and the longs as they are. -/
inductive Bracketed : List (Fin 8) → List LongCell → Machine World → Machine World → Prop
  | done {frames : List (Fin 8)} {longs : List LongCell} (m : Machine World) : Bracketed frames longs m m
  | aside {frames : List (Fin 8)} {longs : List LongCell} {m m₁ m' : Machine World}
      (preserves : m.Preserves frames longs m₁) (rest : Bracketed frames longs m₁ m') :
      Bracketed frames longs m m'
  | call {frames : List (Fin 8)} {longs : List LongCell} {m m₁ m₂ m₃ m' : Machine World}
      {opcode opcode' : BitVec 16} {c : LongCell} {cost cost' : Nat}
      (calls : m.Calls opcode c) (apart : c.ApartFrom longs) (enters : nextInstruction m = .ok cost m₁)
      (body : Bracketed frames (c :: longs) m₁ m₂)
      (returns : m₂.Returns opcode' c) (leaves : nextInstruction m₂ = .ok cost' m₃)
      (rest : Bracketed frames longs m₃ m') : Bracketed frames longs m m'
  | frame {frames : List (Fin 8)} {longs : List LongCell} {m m₁ m₂ m₃ m' : Machine World}
      {opcode displacement opcode' : BitVec 16} {n : Fin 8} {c : LongCell} {cost cost' : Nat}
      (links : m.Links opcode displacement n c) (apart : c.ApartFrom longs)
      (enters : nextInstruction m = .ok cost m₁) (body : Bracketed (n :: frames) (c :: longs) m₁ m₂)
      (unlinks : m₂.Unlinks opcode' n c) (leaves : nextInstruction m₂ = .ok cost' m₃)
      (rest : Bracketed frames longs m₃ m') : Bracketed frames longs m m'

variable {m₁ m₂ m₃ : Machine World} {opcode' : BitVec 16} {cost cost' : Nat} {frames : List (Fin 8)}
  {longs : List LongCell}

/-- A long that is pushed on others and pulled again leaves these as they were, if what comes between does. -/
theorem words_around {value : BitVec 32} (apart : c.ApartFrom longs)
    (pushed : m₁.host.ram = m.host.ram.putWords (c.words value))
    (body : m₁.Preserves frames (c :: longs) m₂) (pulled : m₃.host.ram = m₂.host.ram) :
    ∀ half ∈ longs.flatMap LongCell.halves, m₃.host.ram.wordAt half = m.host.ram.wordAt half := by
  intro half member
  rw [pulled, body.below half member, pushed]
  exact Ram.wordAt_putWords_of_apartFrom apart _ _ half member

/-- A call, what it calls and the return preserve what the subroutine does. -/
theorem preserves_call (calls : m.Calls opcode c) (apart : c.ApartFrom longs)
    (enters : nextInstruction m = .ok cost m₁) (body : m₁.Preserves frames (c :: longs) m₂)
    (returns : m₂.Returns opcode' c) (leaves : nextInstruction m₂ = .ok cost' m₃) :
    m.Preserves frames longs m₃ := by
  obtain ⟨cost₁, address, m₁', called, becomes, back⟩ := call_returns calls
  obtain ⟨rfl, rfl⟩ := EStateM.Result.ok.inj (enters.symm.trans called)
  obtain ⟨m₃', returned, after⟩ := back m₂ opcode' returns body.stack body.top
  obtain ⟨rfl, rfl⟩ := EStateM.Result.ok.inj (leaves.symm.trans returned)
  have stack : m₃.registers.a.get 7 = m.registers.a.get 7 := by
    rw [after.registers]
    exact Registers.get_setAddress ..
  refine ⟨stack, ?pointers, ?words⟩
  case pointers =>
    intro n member
    by_cases same : n = 7
    · rw [same]
      exact stack
    · have before : m₁.registers.a.get n = m.registers.a.get n := by
        rw [becomes.registers]
        exact Registers.a_setAddress_of_ne same ..
      rw [after.registers, ← before, ← body.pointers n member]
      exact Registers.a_setAddress_of_ne same ..
  case words => exact words_around apart becomes.host_ram body after.host_ram

/-- A frame, what lies inside and its end preserve what the inside does, and the register of the frame. -/
theorem preserves_frame {displacement : BitVec 16} {n : Fin 8} (links : m.Links opcode displacement n c)
    (apart : c.ApartFrom longs) (enters : nextInstruction m = .ok cost m₁)
    (body : m₁.Preserves (n :: frames) (c :: longs) m₂)
    (unlinks : m₂.Unlinks opcode' n c) (leaves : nextInstruction m₂ = .ok cost' m₃) :
    m.Preserves (n :: frames) longs m₃ := by
  obtain ⟨m₁', linked, becomes, back⟩ := link_unlinks links
  obtain ⟨rfl, rfl⟩ := EStateM.Result.ok.inj (enters.symm.trans linked)
  obtain ⟨m₃', unlinked, after⟩ := back m₂ opcode' unlinks (body.pointers n List.mem_cons_self) body.top
  obtain ⟨rfl, rfl⟩ := EStateM.Result.ok.inj (leaves.symm.trans unlinked)
  have stack : m₃.registers.a.get 7 = m.registers.a.get 7 := by
    rw [after.registers]
    exact (Registers.a_setAddress_of_ne links.other.symm ..).trans (Registers.get_setAddress ..)
  refine ⟨stack, ?pointers, ?words⟩
  case pointers =>
    intro k member
    by_cases own : k = n
    · rw [own, after.registers]
      exact Registers.get_setAddress ..
    · by_cases same : k = 7
      · rw [same]
        exact stack
      · have before : m₁.registers.a.get k = m.registers.a.get k := by
          rw [becomes.registers]
          exact (Registers.a_setAddress_of_ne same ..).trans
            ((Registers.a_setAddress_of_ne own ..).trans (Registers.a_setAddress_of_ne same ..))
        rw [after.registers, ← before, ← body.pointers k member]
        exact (Registers.a_setAddress_of_ne own ..).trans (Registers.a_setAddress_of_ne same ..)
  case words => exact words_around apart becomes.host_ram body after.host_ram

theorem Bracketed.preserves {m m' : Machine World} (run : Bracketed frames longs m m') :
    m.Preserves frames longs m' := by
  -- a bracket adds its long, and a frame its register, to what the run inside preserves
  induction run with
  | done m => exact .refl m
  | aside preserves _ rest => exact preserves.trans rest
  | call calls apart enters _ returns leaves _ body rest =>
    exact (preserves_call calls apart enters body returns leaves).trans rest
  | frame links apart enters _ unlinks leaves _ body rest =>
    obtain ⟨stack, pointers, words⟩ := preserves_frame links apart enters body unlinks leaves
    exact Machine.Preserves.trans ⟨stack, fun n member => pointers n (List.mem_cons_of_mem _ member), words⟩
      rest

/-- Procedure linkage nests. UNLK brings back the register and the stack pointer that LINK has found, and RTS
goes on behind the call with the stack pointer of the call, whatever has happened since, as long as the pointer
to the long that has been pushed is the same, leads there and finds its words as they were. So a properly
bracketed run of calls and frames, however deep, brings back the stack pointer and the pointers to all frames,
and it leaves the longs on the stack as they were. -/
theorem linkage_nests :
    (∀ (m : Machine World) (opcode displacement : BitVec 16) (n : Fin 8) (c : LongCell),
      m.Links opcode displacement n c →
      let low := m.registers.a.get 7 - 4
      ∃ m₁, nextInstruction m = .ok 16 m₁ ∧ Machine.Becomes { m with opcode }
          { ((m.registers.setAddress 7 low).setAddress n low).setAddress 7
              (low + displacement.signExtend 32) with pc := m.registers.pc + 4 }
          (m.host.ram.putWords (c.words (m.registers.a.get n))) m₁ ∧
        ∀ (m₂ : Machine World) (opcode' : BitVec 16), m₂.Unlinks opcode' n c →
          m₂.registers.a.get n = m₁.registers.a.get n →
          (∀ half ∈ c.halves, m₂.host.ram.wordAt half = m₁.host.ram.wordAt half) →
          ∃ m₃, nextInstruction m₂ = .ok 12 m₃ ∧ Machine.Becomes { m₂ with opcode := opcode' }
            { (m₂.registers.setAddress 7 (m.registers.a.get 7)).setAddress n (m.registers.a.get n) with
              pc := m₂.registers.pc + 2 } m₂.host.ram m₃) ∧
    (∀ (m : Machine World) (opcode : BitVec 16) (c : LongCell), m.Calls opcode c →
      let next := m.registers.pc + BitVec.ofNat 32 (Instruction.decode opcode).length
      ∃ (cost : Nat) (address : BitVec 32) (m₁ : Machine World), nextInstruction m = .ok cost m₁ ∧
        Machine.Becomes { m with opcode }
          { m.registers.setAddress 7 (m.registers.a.get 7 - 4) with pc := address }
          (m.host.ram.putWords (c.words next)) m₁ ∧
        ∀ (m₂ : Machine World) (opcode' : BitVec 16), m₂.Returns opcode' c →
          m₂.registers.a.get 7 = m₁.registers.a.get 7 →
          (∀ half ∈ c.halves, m₂.host.ram.wordAt half = m₁.host.ram.wordAt half) →
          ∃ m₃, nextInstruction m₂ = .ok 16 m₃ ∧ Machine.Becomes { m₂ with opcode := opcode' }
            { m₂.registers.setAddress 7 (m.registers.a.get 7) with pc := next } m₂.host.ram m₃) ∧
    ∀ (frames : List (Fin 8)) (longs : List LongCell) (m m' : Machine World),
      Bracketed frames longs m m' → m.Preserves frames longs m' :=
  ⟨fun _ _ _ _ _ links => link_unlinks links, fun _ _ _ calls => call_returns calls,
    fun _ _ _ _ run => run.preserves⟩

/-- Where longs lie is not changed by an instruction that keeps the mode. -/
theorem keepsLongs_of_becomes {m m' : Machine World} {opcode : BitVec 16} {r : Registers} {ram : Ram}
    (becomes : Machine.Becomes { m with opcode } r ram m') (mode : r.status = m.registers.status)
    {address : BitVec 32} {cells : List LongCell} (keeps : m.memory.KeepsLongs m.dataSpace address cells) :
    m'.memory.KeepsLongs m'.dataSpace address cells := by
  have same : r.isSupervisor = m.registers.isSupervisor := by
    rw [Registers.isSupervisor, mode]
    rfl
  rw [becomes.memory, becomes.dataSpace same]
  exact keeps

/-- A processor that is about to link A6, to call a subroutine by its distance from the stack pointer, and to
unlink A6. The subroutine returns at once. -/
def nesting : Machine Unit :=
  { Machine.new ⟨0x00FFFFFF, .openBus 0⟩
      ⟨#[#[0x4E, 0x56, 0xFF, 0xFC, 0x4E, 0xAF, 0xFF, 0xD4, 0x4E, 0x5E, 0, 0, 0x4E, 0x75] ++
        Array.replicate 50 0], .none, ()⟩
      fun _ world => world with
    registers := (Registers.initial.setAddress 6 0xCAFE0000).setAddress 7 64
    memory := (MemoryMap.empty ⟨0x00FFFFFF, .openBus 0⟩).mapRam ⟨0, 63⟩ 0
    state := .running }

def nestingAfter : Nat → Machine Unit
  | 0 => nesting
  | count + 1 => finalState (nextInstruction (nestingAfter count))

def nestingFrame : LongCell := ⟨⟨0, 60⟩, ⟨0, 62⟩⟩

def nestingReturn : LongCell := ⟨⟨0, 52⟩, ⟨0, 54⟩⟩

def programWord (m : Machine Unit) (address : BitVec 32) : Option (BitVec 16) :=
  ((m.memory.table m.programSpace).fetchCell? (m.memory.masked address)).bind m.host.ram.wordAt

theorem linkage_nests_once :
    nesting.Links 0x4E56 0xFFFC 6 nestingFrame ∧ (nestingAfter 1).Calls 0x4EAF nestingReturn ∧
      (nestingAfter 2).Returns 0x4E75 nestingReturn ∧ (nestingAfter 3).Unlinks 0x4E5E 6 nestingFrame ∧
      Bracketed [6] [] nesting (nestingAfter 4) ∧
      (nestingAfter 4).registers.a.get 6 = 0xCAFE0000 ∧ (nestingAfter 4).registers.a.get 7 = 64 := by
  obtain ⟨frames, calls, nests⟩ := @linkage_nests Unit
  have facts : ((nestingAfter 1).registers.pc = 4 ∧ (nestingAfter 1).programSpace.isProgram = true ∧
        programWord (nestingAfter 1) 4 = some 0x4EAF ∧ programWord (nestingAfter 1) 6 = some 0xFFD4 ∧
        (nestingAfter 1).registers.a.get 7 = 56 ∧
        ∀ half ∈ nestingReturn.halves, (nestingAfter 1).host.ram.Holds half) ∧
      ((nestingAfter 2).registers.pc = 12 ∧ (nestingAfter 2).programSpace.isProgram = true ∧
        programWord (nestingAfter 2) 12 = some 0x4E75 ∧ (nestingAfter 2).registers.a.get 7 = 52) ∧
      (nestingAfter 3).registers.pc = 8 ∧ (nestingAfter 3).programSpace.isProgram = true ∧
        programWord (nestingAfter 3) 8 = some 0x4E5E ∧ (nestingAfter 3).registers.a.get 6 = 60 := by
    decide +kernel
  obtain ⟨⟨pc₁, program₁, opcode₁, extension₁, stack₁, holds₁⟩, ⟨pc₂, program₂, opcode₂, stack₂⟩,
    pc₃, program₃, opcode₃, pointer₃⟩ := facts
  have read {m : Machine Unit} {address : BitVec 32} {word : BitVec 16}
      (program : m.programSpace.isProgram = true) (stored : programWord m address = some word) :
      m.memory.readWord m.programSpace address m.host = .ok word m.host := by
    unfold programWord at stored
    rw [MemoryMap.readWord_program program, stored]
  have frameCells : nesting.memory.KeepsLongs nesting.dataSpace 60 [nestingFrame] :=
    ⟨⟨rfl, rfl, rfl⟩, ⟨rfl, rfl, rfl⟩, trivial⟩
  have returnCells : nesting.memory.KeepsLongs nesting.dataSpace 52 [nestingReturn] :=
    ⟨⟨rfl, rfl, rfl⟩, ⟨rfl, rfl, rfl⟩, trivial⟩
  -- the frame is linked
  have links : nesting.Links 0x4E56 0xFFFC 6 nestingFrame :=
    ⟨rfl, by decide, ⟨rfl, rfl, rfl⟩, ⟨rfl, frameCells, by decide, by decide⟩⟩
  obtain ⟨m₁, linked, becomes₁, unlinks⟩ := frames _ _ _ _ _ links
  have same₁ : nestingAfter 1 = m₁ := by rw [nestingAfter, nestingAfter, linked, finalState]
  rw [same₁] at pc₁ program₁ opcode₁ extension₁ stack₁ holds₁ ⊢
  -- the subroutine is called
  have called : m₁.Calls 0x4EAF nestingReturn := by
    refine ⟨trivial, ⟨by rw [pc₁]; exact read program₁ opcode₁, by rw [pc₁]; rfl, ?_⟩,
      by rw [stack₁]; rfl, ?_, holds₁, by decide⟩
    · intro i inside
      rw [pc₁]
      match i, inside with
      | 0, _ => exact ⟨_, read program₁ opcode₁⟩
      | 1, _ => exact ⟨_, read program₁ extension₁⟩
    · rw [stack₁]
      exact keepsLongs_of_becomes becomes₁ rfl returnCells
  obtain ⟨cost, address, m₂, entered, becomes₂, back⟩ := calls _ _ _ called
  have same₂ : nestingAfter 2 = m₂ := by rw [nestingAfter, same₁, entered, finalState]
  rw [same₂] at pc₂ program₂ opcode₂ stack₂ ⊢
  -- it returns
  have returns : m₂.Returns 0x4E75 nestingReturn := by
    refine ⟨rfl, Machine.fetchesAll_of_one rfl ?_ ?_, ?_⟩
    · rw [pc₂]
      rfl
    · rw [pc₂]
      exact read program₂ opcode₂
    · rw [stack₂]
      exact keepsLongs_of_becomes becomes₂ rfl (keepsLongs_of_becomes becomes₁ rfl returnCells)
  obtain ⟨m₃, left, becomes₃⟩ := back _ _ returns rfl fun _ _ => rfl
  have same₃ : nestingAfter 3 = m₃ := by rw [nestingAfter, same₂, left, finalState]
  rw [same₃] at pc₃ program₃ opcode₃ pointer₃ ⊢
  -- the frame is unlinked
  have ends : m₃.Unlinks 0x4E5E 6 nestingFrame := by
    refine ⟨rfl, Machine.fetchesAll_of_one rfl ?_ ?_, ?_⟩
    · rw [pc₃]
      rfl
    · rw [pc₃]
      exact read program₃ opcode₃
    · rw [pointer₃]
      apply keepsLongs_of_becomes becomes₃ rfl
      exact keepsLongs_of_becomes becomes₂ rfl (keepsLongs_of_becomes becomes₁ rfl frameCells)
  have inside : Bracketed [6, 6] [nestingFrame] m₁ m₃ :=
    .call called (by decide) entered (.done _) returns left (.done _)
  have kept := nests _ _ _ _ inside
  obtain ⟨m₄, unlinked, -⟩ := unlinks _ _ ends (kept.pointers 6 List.mem_cons_self) kept.top
  have same₄ : nestingAfter 4 = m₄ := by rw [nestingAfter, same₃, unlinked, finalState]
  rw [same₄]
  have whole : Bracketed [6] [] nesting m₄ :=
    .frame links (by decide) linked inside ends unlinked (.done _)
  have restored := nests _ _ _ _ whole
  exact ⟨links, called, returns, ends, whole, restored.pointers 6 List.mem_cons_self, restored.stack⟩

end Exec

end MC68000
