import MC68000.Proofs.Effects

set_option autoImplicit false

namespace MC68000

variable {World : Type}

/-- The bus cycles of an access: a long is two words. -/
def Size.cycles : Size → Nat
  | byte | word => 1
  | long => 2

namespace AddressingMode

def words (mode : AddressingMode) (size : Size) : Nat :=
  match mode with
  | dataRegister _ | addressRegister _ | indirect _ | postIncrement _ | preDecrement _ => 0
  | displaced _ | indexed _ | absoluteShort | programDisplaced | programIndexed => 1
  | absoluteLong => 2
  | immediate => size.cycles

/-- The bus cycles of an access to an operand of a mode. -/
def cycles (mode : AddressingMode) (size : Size) : Nat :=
  if mode.isRegisterOrImmediate then 0 else size.cycles

theorem cycles_le (mode : AddressingMode) (size : Size) : mode.cycles size ≤ size.cycles := by
  unfold cycles
  split
  · exact Nat.zero_le _
  · exact Nat.le_refl _

theorem Locates.cycles_memory {mode : AddressingMode} {address : BitVec 32}
    (located : mode.Locates (.memory address)) (size : Size) : mode.cycles size = size.cycles := by
  have memory : mode.isMemoryAlterable = true := located
  cases mode <;> first | rfl | cases memory

theorem Locates.cycles_program {mode : AddressingMode} {address : BitVec 32}
    (located : mode.Locates (.program address)) (size : Size) : mode.cycles size = size.cycles := by
  have program : mode.isProgramRelative = true := located
  cases mode <;> first | rfl | cases program

end AddressingMode

namespace Timing

/-- Four clock cycles for every bus cycle. -/
theorem operand_covers (mode : AddressingMode) (size : Size) :
    4 * (mode.words size + mode.cycles size) ≤ operand mode size := by
  cases size <;> cases mode <;> exact Nat.le_of_ble_eq_true rfl

theorem moveDestination_covers (mode : AddressingMode) (size : Size) :
    4 * (mode.words size + mode.cycles size) ≤ moveDestination mode size := by
  cases size <;> cases mode <;> exact Nat.le_of_ble_eq_true rfl

theorem toRegister_covers (mode : AddressingMode) (size : Size) :
    4 * (1 + (mode.words size + mode.cycles size)) ≤ toRegister mode size := by
  have base : 4 ≤ bySize size 4 (if mode.isRegisterOrImmediate then 8 else 6) := by
    unfold bySize
    cases mode.isRegisterOrImmediate <;> split <;> decide
  have found := operand_covers mode size
  unfold toRegister
  omega

theorem readModifyWrite_covers_load (mode : AddressingMode) {size : Size}
    {register memory : Nat × Nat} {spent : Nat}
    (inRegister : 4 * spent ≤ bySize size register.1 register.2)
    (inMemory : 4 * spent ≤ bySize size memory.1 memory.2) :
    4 * (spent + (mode.words size + mode.cycles size)) ≤
      readModifyWrite mode size register memory := by
  have found := operand_covers mode size
  unfold readModifyWrite
  split
  · exact inRegister
  · omega

/-- Memory is accessed a second time, for which its own column pays. -/
theorem readModifyWrite_covers (mode : AddressingMode) {size : Size} {register memory : Nat × Nat}
    {spent : Nat} (inRegister : 4 * spent ≤ bySize size register.1 register.2)
    (inMemory : 4 * (spent + size.cycles) ≤ bySize size memory.1 memory.2) :
    4 * (spent + (mode.words size + mode.cycles size) + mode.cycles size) ≤
      readModifyWrite mode size register memory := by
  have found := operand_covers mode size
  have again := mode.cycles_le size
  unfold readModifyWrite
  split
  · exact inRegister
  · omega

theorem control_covers {mode : AddressingMode} (isControl : mode.isControl = true)
    {spent indirect displaced indexed short long : Nat} (first : 4 * spent ≤ indirect)
    (second : 4 * (spent + 1) ≤ displaced) (third : 4 * (spent + 1) ≤ indexed)
    (fourth : 4 * (spent + 1) ≤ short) (fifth : 4 * (spent + 2) ≤ long) :
    4 * (spent + mode.words .long) ≤ control mode indirect displaced indexed short long := by
  cases mode <;> first | assumption | cases isControl

end Timing

namespace Registers

/-- The `bits` of the status word are the same and, if `data` holds, so are the data registers. -/
structure Kept (bits : StatusWord) (data : Prop) (r r' : Registers) : Prop where
  status : r'.status &&& bits = r.status &&& bits
  d : data → r'.d = r.d

variable {bits : StatusWord} {data : Prop}

theorem Kept.refl (r : Registers) : Kept bits data r r := ⟨rfl, fun _ => rfl⟩

theorem Kept.trans {r r' r'' : Registers} (first : Kept bits data r r')
    (second : Kept bits data r' r'') : Kept bits data r r'' :=
  ⟨second.status.trans first.status, fun h => (second.d h).trans (first.d h)⟩

theorem kept_setAddress (r : Registers) (n : Fin 8) (value : BitVec 32) :
    Kept bits data r (r.setAddress n value) := ⟨rfl, fun _ => rfl⟩

theorem kept_pc (r : Registers) (pc : BitVec 32) : Kept bits data r { r with pc } :=
  ⟨rfl, fun _ => rfl⟩

end Registers

namespace Exec

/-- However it ends, an action leaves the `bits` of the status word and, if `data` holds, the data registers
as they are. Where it completes it has made `cycles` bus cycles at most, and gives what satisfies
`post`. -/
def Spares {α : Type} (bits : StatusWord) (data : Prop) (cycles : Nat) (x : Exec World α)
    (post : α → Prop) : Prop :=
  ∀ m : Machine World, Ends (x m)
    (fun a m' => post a ∧ m'.activity.length ≤ m.activity.length + cycles ∧
      m.registers.Kept bits data m'.registers)
    fun _ m' => m.registers.Kept bits data m'.registers

abbrev Accesses {α : Type} (bits : StatusWord) (data : Prop) (cycles : Nat) (x : Exec World α) :
    Prop := Spares bits data cycles x fun _ => True

/-- An action makes no bus cycle, and gives what satisfies `post` where it completes. -/
def Silent {α : Type} (x : Exec World α) (post : α → Prop) : Prop :=
  ∀ m : Machine World, Ends (x m)
    (fun a m' => post a ∧ m'.activity.length = m.activity.length) fun e _ => ¬e.IsFault

/-- An action makes `cycles` bus cycles at most, and where an access fails, it leaves the `bits` of the
status word and, if `data` holds, the data registers as they are. It may change them once all
accesses are made. -/
def Commits {α : Type} (bits : StatusWord) (data : Prop) (cycles : Nat) (x : Exec World α) : Prop :=
  ∀ m : Machine World, Ends (x m) (fun _ m' => m'.activity.length ≤ m.activity.length + cycles)
    fun e m' => e.IsFault → m.registers.Kept bits data m'.registers

/-- An instruction that has made `spent` bus cycles already pays for these and for its own, and where an
access fails, it leaves the `bits` of the status word and, if `data` holds, the data registers as they
are. Nearly all instructions make their accesses first and change these registers last. -/
def Settles (bits : StatusWord) (data : Prop) (spent : Nat) (x : Exec World Nat) : Prop :=
  ∀ m : Machine World, Ends (x m)
    (fun cost m' => 4 * (spent + m'.activity.length) ≤ cost + 4 * m.activity.length)
    fun e m' => e.IsFault → m.registers.Kept bits data m'.registers

variable {bits : StatusWord} {data : Prop} {spent cycles : Nat} {α β : Type}

theorem Spares.pure {post : α → Prop} {a : α} (h : post a) :
    Spares bits data 0 (pure a : Exec World α) post := by
  intro m
  exact ⟨h, Nat.le_refl _, .refl _⟩

theorem Spares.bind {more : Nat} {x : Exec World α} {f : α → Exec World β} {mid : α → Prop}
    {post : β → Prop} (first : Spares bits data cycles x mid)
    (next : ∀ a, mid a → Spares bits data more (f a) post) :
    Spares bits data (cycles + more) (x >>= f) post := by
  intro m
  apply (first m).bind
  rintro a m' ⟨given, few, kept⟩
  apply (next a given m').mono
  · rintro b m'' ⟨given', few', kept'⟩
    exact ⟨given', by omega, kept.trans kept'⟩
  · intro e m'' kept'
    exact kept.trans kept'

theorem Accesses.andThen {more : Nat} {x : Exec World α} {f : α → Exec World β} {post : β → Prop}
    (first : Accesses bits data cycles x) (next : ∀ a, Spares bits data more (f a) post) :
    Spares bits data (cycles + more) (x >>= f) post := Spares.bind first fun a _ => next a

theorem Accesses.first {x : Exec World α} {f : α → Exec World β} {post : β → Prop}
    (free : Accesses bits data 0 x) (next : ∀ a, Spares bits data cycles (f a) post) :
    Spares bits data cycles (x >>= f) post := by
  have whole : Spares bits data (0 + cycles) (x >>= f) post := free.andThen next
  rwa [Nat.zero_add] at whole

theorem Accesses.last {x : Exec World α} {f : α → Exec World β} {post : β → Prop}
    (h : Accesses bits data cycles x) (free : ∀ a, Spares bits data 0 (f a) post) :
    Spares bits data cycles (x >>= f) post := h.andThen free

theorem Spares.mono {more : Nat} {x : Exec World α} {post : α → Prop}
    (h : Spares bits data cycles x post) (le : cycles ≤ more) : Spares bits data more x post := by
  intro m
  apply (h m).mono
  · rintro a m' ⟨given, few, kept⟩
    exact ⟨given, by omega, kept⟩
  · exact fun _ _ => id

theorem Silent.pure {post : α → Prop} {a : α} (h : post a) :
    Silent (pure a : Exec World α) post := fun _ => ⟨h, rfl⟩

theorem Silent.throw {post : α → Prop} {e : Exception} (sound : ¬e.IsFault) :
    Silent (throw e : Exec World α) post := fun _ => sound

theorem Silent.bind {x : Exec World α} {f : α → Exec World β} {mid : α → Prop} {post : β → Prop}
    (first : Silent x mid) (next : ∀ a, mid a → Silent (f a) post) : Silent (x >>= f) post := by
  intro m
  apply (first m).bind
  rintro a m' ⟨given, same⟩
  apply (next a given m').mono
  · rintro b m'' ⟨given', same'⟩
    exact ⟨given', same'.trans same⟩
  · exact fun _ _ => id

theorem Silent.registers {f : Registers → Exec World β} {post : β → Prop}
    (next : ∀ r, Silent (f r) post) : Silent (registers >>= f) post := fun m => next m.registers m

theorem Silent.status {f : StatusWord → Exec World β} {post : β → Prop}
    (next : ∀ old, Silent (f old) post) : Silent (status >>= f) post :=
  fun m => next m.registers.status m

theorem Silent.update {f : Unit → Exec World β} {post : β → Prop} (g : Registers → Registers)
    (next : Silent (f ()) post) : Silent (update g >>= f) post := fun m => next (m.mapRegisters g)

theorem silent_setStatus (value : StatusWord) :
    Silent (setStatus value : Exec World Unit) fun _ => True := fun _ => ⟨trivial, rfl⟩

theorem Silent.setStatus {f : Unit → Exec World β} {post : β → Prop} (value : StatusWord)
    (next : Silent (f ()) post) : Silent (setStatus value >>= f) post :=
  .update (fun r => r.setStatus value) next

theorem Silent.commits {x : Exec World α} {post : α → Prop} (h : Silent x post) :
    Commits bits data 0 x := by
  intro m
  apply (h m).mono
  · rintro a m' ⟨_, same⟩
    exact Nat.le_of_eq same
  · exact fun _ _ sound fault => absurd fault sound

theorem Spares.commits {x : Exec World α} {post : α → Prop} (h : Spares bits data cycles x post) :
    Commits bits data cycles x := by
  intro m
  apply (h m).mono
  · exact fun _ _ reached => reached.2.1
  · exact fun _ _ kept _ => kept

theorem Commits.mono {more : Nat} {x : Exec World α} (h : Commits bits data cycles x)
    (le : cycles ≤ more) : Commits bits data more x := by
  intro m
  apply (h m).mono
  · intro a m' few
    omega
  · exact fun _ _ => id

/-- What changes the registers comes after the accesses. -/
theorem Spares.andCommits {more : Nat} {x : Exec World α} {f : α → Exec World β} {post : α → Prop}
    (first : Spares bits data cycles x post)
    (next : ∀ a, post a → Commits bits data more (f a)) :
    Commits bits data (cycles + more) (x >>= f) := by
  intro m
  have start : Ends (x m) _ fun e m' => e.IsFault → m.registers.Kept bits data m'.registers :=
    (first m).mono (fun _ _ => id) fun _ _ kept _ => kept
  apply start.bind
  rintro a m' ⟨given, few, kept⟩
  apply (next a given m').mono
  · intro b m'' few'
    omega
  · intro e m'' kept' fault
    exact kept.trans (kept' fault)

theorem Commits.andSilent {x : Exec World α} {f : α → Exec World β} {post : β → Prop}
    (first : Commits bits data cycles x) (next : ∀ a, Silent (f a) post) :
    Commits bits data cycles (x >>= f) := by
  intro m
  apply (first m).bind
  intro a m' few
  apply (next a m').mono
  · rintro b m'' ⟨_, same⟩
    omega
  · exact fun _ _ sound fault => absurd fault sound

/-- A last part without accesses pays for what has been spent. -/
theorem Commits.settles {x : Exec World α} {f : α → Exec World Nat}
    (first : Commits bits data cycles x)
    (next : ∀ a, Silent (f a) fun cost => 4 * (spent + cycles) ≤ cost) :
    Settles bits data spent (x >>= f) := by
  intro m
  apply (first m).bind
  intro a m' few
  apply (next a m').mono
  · rintro cost m'' ⟨paid, same⟩
    omega
  · exact fun _ _ sound fault => absurd fault sound

theorem Silent.settles {x : Exec World Nat} (h : Silent x fun cost => 4 * spent ≤ cost) :
    Settles bits data spent x := by
  intro m
  apply (h m).mono
  · rintro cost m' ⟨paid, same⟩
    omega
  · exact fun _ _ sound fault => absurd fault sound

/-- What is spent on the way adds up. -/
theorem Spares.settles {x : Exec World α} {f : α → Exec World Nat} {post : α → Prop}
    (first : Spares bits data cycles x post)
    (next : ∀ a, post a → Settles bits data (spent + cycles) (f a)) :
    Settles bits data spent (x >>= f) := by
  intro m
  have start : Ends (x m) _ fun e m' => e.IsFault → m.registers.Kept bits data m'.registers :=
    (first m).mono (fun _ _ => id) fun _ _ kept _ => kept
  apply start.bind
  rintro a m' ⟨given, few, kept⟩
  apply (next a given m').mono
  · intro cost m'' paid
    omega
  · intro e m'' kept' fault
    exact kept.trans (kept' fault)

theorem Accesses.settles {x : Exec World α} {f : α → Exec World Nat}
    (first : Accesses bits data cycles x)
    (next : ∀ a, Settles bits data (spent + cycles) (f a)) :
    Settles bits data spent (x >>= f) := Spares.settles first fun a _ => next a

/-- A cost covers fewer bus cycles as well. -/
theorem Settles.mono {less : Nat} {x : Exec World Nat} (h : Settles bits data spent x)
    (le : less ≤ spent) : Settles bits data less x := by
  intro m
  apply (h m).mono
  · intro cost m' paid
    omega
  · exact fun _ _ => id

/-- A cost that is added pays for cycles that were made before. -/
theorem Settles.surcharge {before more : Nat} {x : Exec World Nat} (h : Settles bits data spent x)
    (enough : 4 * before ≤ more) :
    Settles bits data (spent + before) (x >>= fun cost => Pure.pure (more + cost)) := by
  intro m
  apply (h m).bind
  intro cost m' paid
  change 4 * (spent + before + m'.activity.length) ≤ more + cost + 4 * m.activity.length
  omega

theorem accesses_registers : Accesses bits data 0 (registers : Exec World Registers) := by
  intro m
  exact ⟨trivial, Nat.le_refl _, .refl _⟩

theorem accesses_status : Accesses bits data 0 (status : Exec World StatusWord) :=
  accesses_registers

theorem accesses_dataSpace : Accesses bits data 0 (dataSpace : Exec World AddressSpace) := by
  intro m
  exact ⟨trivial, Nat.le_refl _, .refl _⟩

theorem accesses_programSpace : Accesses bits data 0 (programSpace : Exec World AddressSpace) := by
  intro m
  exact ⟨trivial, Nat.le_refl _, .refl _⟩

theorem accesses_update {f : Registers → Registers} (h : ∀ r : Registers, r.Kept bits data (f r)) :
    Accesses bits data 0 (update f : Exec World Unit) := by
  intro m
  exact ⟨trivial, Nat.le_refl _, h m.registers⟩

theorem accesses_setAddress (n : Fin 8) (value : Registers → BitVec 32) :
    Accesses bits data 0 (update fun r => r.setAddress n (value r) : Exec World Unit) :=
  accesses_update fun r => r.kept_setAddress n (value r)

theorem accesses_requirePrivilege :
    Accesses bits data 0 (requirePrivilege : Exec World Unit) := by
  intro m
  unfold requirePrivilege
  split
  · exact ⟨trivial, Nat.le_refl _, .refl _⟩
  · exact .refl _

theorem accesses_requireAligned (space : AddressSpace) (size : Size) (address : BitVec 32)
    (write : Bool) :
    Accesses bits data 0 (requireAligned space size address write : Exec World Unit) := by
  intro m
  unfold requireAligned
  split
  · exact .refl _
  · exact ⟨trivial, Nat.le_refl _, .refl _⟩

theorem accesses_cycle {space : AddressSpace} {address : BitVec 32} {transfer : BusTransfer}
    {access : MemoryMap World → Access World α} :
    Accesses bits data 1 (cycle space address transfer access) := by
  intro m
  unfold cycle
  cases access m.memory m.host with
  | ok value host =>
    have one : (m.activity ++ [(⟨space, address, transfer⟩ : BusCycle)]).length =
        m.activity.length + 1 := List.length_append
    exact ⟨trivial, Nat.le_of_eq one, .refl _⟩
  | error fault host => exact Registers.Kept.refl m.registers

theorem accesses_read (space : AddressSpace) (size : Size) (address : BitVec 32) :
    Accesses bits data size.cycles (read space size address : Exec World (BitVec 32)) := by
  unfold read
  apply (accesses_requireAligned space size address false).first
  intro _
  have word (address : BitVec 32) :
      Accesses bits data 1 (readWord space address : Exec World (BitVec 16)) := accesses_cycle
  cases size with
  | byte => exact accesses_cycle.last fun _ => .pure trivial
  | word => exact (word address).last fun _ => .pure trivial
  | long => exact (word address).andThen fun _ => (word (address + 2)).last fun _ => .pure trivial

theorem accesses_write (space : AddressSpace) (size : Size) (address value : BitVec 32) :
    Accesses bits data size.cycles (write space size address value : Exec World Unit) := by
  unfold write
  apply (accesses_requireAligned space size address true).first
  intro _
  have word (address : BitVec 32) (value : BitVec 16) :
      Accesses bits data 1 (writeWord space address value : Exec World Unit) := accesses_cycle
  cases size with
  | byte => exact accesses_cycle
  | word => exact word address _
  | long => exact (word address _).andThen fun _ => word (address + 2) _

theorem accesses_readData (size : Size) (address : BitVec 32) :
    Accesses bits data size.cycles (readData size address : Exec World (BitVec 32)) :=
  accesses_dataSpace.first fun space => accesses_read space size address

theorem accesses_readProgram (size : Size) (address : BitVec 32) :
    Accesses bits data size.cycles (readProgram size address : Exec World (BitVec 32)) :=
  accesses_programSpace.first fun space => accesses_read space size address

theorem accesses_writeData (size : Size) (address value : BitVec 32) :
    Accesses bits data size.cycles (writeData size address value : Exec World Unit) :=
  accesses_dataSpace.first fun space => accesses_write space size address value

theorem accesses_fetchWord : Accesses bits data 1 (fetchWord : Exec World (BitVec 16)) := by
  apply accesses_registers.first
  intro r
  apply (accesses_readProgram .word r.pc).last
  intro word
  apply (accesses_update fun r => r.kept_pc (r.pc + 2)).first
  exact fun _ => .pure trivial

theorem accesses_fetchLong : Accesses bits data 2 (fetchLong : Exec World (BitVec 32)) := by
  have low (high : BitVec 16) : Accesses bits data 1
      (do let low ← fetchWord; return high ++ low : Exec World (BitVec 32)) :=
    accesses_fetchWord.last fun _ => .pure trivial
  exact accesses_fetchWord.andThen low

theorem accesses_fetchImmediate (size : Size) :
    Accesses bits data size.cycles (fetchImmediate size : Exec World (BitVec 32)) := by
  cases size with
  | byte => exact accesses_fetchWord.last fun _ => .pure trivial
  | word => exact accesses_fetchWord.last fun _ => .pure trivial
  | long => exact accesses_fetchLong

theorem accesses_fetchDisplacement :
    Accesses bits data 1 (fetchDisplacement : Exec World (BitVec 32)) :=
  accesses_fetchWord.last fun _ => .pure trivial

theorem accesses_push (size : Size) (value : BitVec 32) :
    Accesses bits data size.cycles (push size value : Exec World Unit) := by
  apply (accesses_setAddress 7 fun r => r.a.get 7 - BitVec.ofNat 32 size.bytes).first
  intro _
  apply accesses_registers.first
  exact fun r => accesses_writeData size (r.a.get 7) value

theorem accesses_pull (size : Size) :
    Accesses bits data size.cycles (pull size : Exec World (BitVec 32)) := by
  apply accesses_registers.first
  intro r
  apply (accesses_readData size (r.a.get 7)).last
  intro value
  apply (accesses_setAddress 7 fun r => r.a.get 7 + BitVec.ofNat 32 size.bytes).first
  exact fun _ => .pure trivial

theorem spares_locate (mode : AddressingMode) (size : Size) :
    Spares bits data (mode.words size) (locate mode size : Exec World Operand) mode.Locates := by
  cases mode with
  | dataRegister n => exact .pure rfl
  | addressRegister n => exact .pure rfl
  | indirect n => exact accesses_registers.first fun _ => .pure rfl
  | postIncrement n =>
    apply accesses_registers.first
    intro r
    apply (accesses_setAddress n fun _ => r.a.get n + autoStep n size).first
    exact fun _ => .pure rfl
  | preDecrement n =>
    apply accesses_registers.first
    intro r
    apply (accesses_setAddress n fun _ => r.a.get n - autoStep n size).first
    exact fun _ => .pure rfl
  | displaced n =>
    apply accesses_fetchDisplacement.last
    exact fun _ => accesses_registers.first fun _ => .pure rfl
  | indexed n =>
    apply accesses_fetchWord.last
    exact fun _ => accesses_registers.first fun _ => .pure rfl
  | absoluteShort => exact accesses_fetchDisplacement.last fun _ => .pure rfl
  | absoluteLong => exact accesses_fetchLong.last fun _ => .pure rfl
  | programDisplaced =>
    apply accesses_registers.first
    exact fun _ => accesses_fetchDisplacement.last fun _ => .pure rfl
  | programIndexed =>
    apply accesses_registers.first
    intro r
    apply accesses_fetchWord.last
    exact fun _ => accesses_registers.first fun _ => .pure rfl
  | immediate => exact (accesses_fetchImmediate size).last fun _ => .pure rfl

theorem accesses_load {mode : AddressingMode} {operand : Operand} (located : mode.Locates operand)
    (size : Size) :
    Accesses bits data (mode.cycles size) (load operand size : Exec World (BitVec 32)) := by
  cases operand with
  | dataRegister n =>
    have read : Accesses bits data 0 (load (.dataRegister n) size : Exec World (BitVec 32)) :=
      accesses_registers.first fun _ => .pure trivial
    exact read.mono (Nat.zero_le _)
  | addressRegister n =>
    have read : Accesses bits data 0 (load (.addressRegister n) size : Exec World (BitVec 32)) :=
      accesses_registers.first fun _ => .pure trivial
    exact read.mono (Nat.zero_le _)
  | memory address =>
    rw [located.cycles_memory]
    exact accesses_readData size address
  | program address =>
    rw [located.cycles_program]
    exact accesses_readProgram size address
  | value value => exact (Spares.pure trivial).mono (Nat.zero_le _)

theorem accesses_loadFrom (mode : AddressingMode) (size : Size) :
    Accesses bits data (mode.words size + mode.cycles size)
      (loadFrom mode size : Exec World (BitVec 32)) :=
  (spares_locate mode size).bind fun _ located => accesses_load located size

/-- A control mode names an address, and another mode is refused. -/
theorem accesses_effectiveAddress (mode : AddressingMode) :
    Accesses bits data (mode.words .long) (effectiveAddress mode : Exec World (BitVec 32)) := by
  have refused : Accesses bits data 0 (throw .illegal : Exec World (BitVec 32)) :=
    fun m => Registers.Kept.refl m.registers
  have located : Spares bits data _ (locate mode .long : Exec World Operand) _ :=
    spares_locate mode .long
  unfold effectiveAddress
  rw [← Nat.add_zero (mode.words .long)]
  apply located.bind
  intro target _
  cases target with
  | memory address => exact .pure trivial
  | program address => exact .pure trivial
  | dataRegister n => exact refused
  | addressRegister n => exact refused
  | value value => exact refused

/-- Storing an operand takes the bus cycles of its mode. A register is changed and nothing else is done. -/
theorem commits_store {mode : AddressingMode} {operand : Operand} (located : mode.Locates operand)
    (size : Size) (value : BitVec 32) :
    Commits bits data (mode.cycles size) (store operand size value : Exec World Unit) := by
  have changed (f : Registers → Registers) : Commits bits data 0 (update f : Exec World Unit) :=
    fun m => Nat.le_refl m.activity.length
  have refused : Commits bits data 0 (throw .illegal : Exec World Unit) := fun m fault => fault.elim
  cases operand with
  | dataRegister n => exact (changed _).mono (Nat.zero_le _)
  | addressRegister n => exact (changed _).mono (Nat.zero_le _)
  | memory address =>
    rw [located.cycles_memory]
    exact (accesses_writeData size address value).commits
  | program address => exact refused.mono (Nat.zero_le _)
  | value immediate => exact refused.mono (Nat.zero_le _)

end Exec

end MC68000
