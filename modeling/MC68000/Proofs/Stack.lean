import MC68000.Proofs.Cells

set_option autoImplicit false

namespace MC68000

variable {World : Type}

namespace Machine

/-- One machine is another with new registers and new contents of the buffers, after some bus cycles. -/
def Becomes (m : Machine World) (r : Registers) (ram : Ram) (m' : Machine World) : Prop :=
  m' = { m with registers := r, host := { m.host with ram }, activity := m'.activity }

variable {m m' m'' : Machine World} {r r' : Registers} {ram ram' : Ram}

theorem Becomes.refl (m : Machine World) : m.Becomes m.registers m.host.ram m := rfl

theorem Becomes.trans (first : m.Becomes r ram m') (second : m'.Becomes r' ram' m'') :
    m.Becomes r' ram' m'' := by
  rw [Becomes] at first
  rw [Becomes, second, first]

theorem Becomes.setRegisters (h : m.Becomes r ram m') (f : Registers → Registers) :
    m.Becomes (f r) ram (m'.mapRegisters f) := by
  rw [Becomes] at h
  rw [Becomes, mapRegisters, h]

theorem Becomes.registers (h : m.Becomes r ram m') : m'.registers = r := by
  rw [Becomes] at h
  rw [h]

theorem Becomes.host_ram (h : m.Becomes r ram m') : m'.host.ram = ram := by
  rw [Becomes] at h
  rw [h]

theorem Becomes.memory (h : m.Becomes r ram m') : m'.memory = m.memory := by
  rw [Becomes] at h
  rw [h]

theorem Becomes.host (h : m.Becomes r m.host.ram m') : m'.host = m.host := by
  rw [Becomes] at h
  rw [h]

theorem Becomes.dataSpace (h : m.Becomes r ram m') (same : r.isSupervisor = m.registers.isSupervisor) :
    m'.dataSpace = m.dataSpace := by
  rw [Machine.dataSpace, h.registers, same]
  rfl

end Machine

namespace Exec

variable {m : Machine World} {space : AddressSpace} {address : BitVec 32} {c high low : Cell}

theorem cycle_of_ok {α : Type} {transfer : BusTransfer} {access : MemoryMap World → Access World α}
    {a : α} {host : Host World} (found : access m.memory m.host = .ok a host) :
    cycle space address transfer access m =
      .ok a { m with host, activity := m.activity ++ [⟨space, address, transfer⟩] } := by
  unfold cycle
  rw [found]

/-- A word that is found without touching the world. -/
theorem readWord_of_found {word : BitVec 16}
    (found : m.memory.readWord space address m.host = .ok word m.host) :
    ∃ m', readWord space address m = .ok word m' ∧ m.Becomes m.registers m.host.ram m' :=
  ⟨_, cycle_of_ok found, rfl⟩

theorem writeWord_of_isRam (ram : m.memory.IsRam space address c) (holds : m.host.ram.Holds c)
    (value : BitVec 16) : ∃ m', writeWord space address value m = .ok () m' ∧
      m.Becomes m.registers (m.host.ram.putWord c value) m' :=
  ⟨_, cycle_of_ok (MemoryMap.writeWord_of_isRam ram holds value), rfl⟩

theorem requireAligned_of_even (m : Machine World) (space : AddressSpace) (size : Size)
    {address : BitVec 32} (even : address.getLsbD 0 = false) (write : Bool) :
    requireAligned space size address write m = .ok () m := by
  unfold requireAligned
  rw [if_neg]
  rintro ⟨_, odd⟩
  rw [even] at odd
  cases odd

theorem bind_of_ok {α β : Type} {x : Exec World α} {f : α → Exec World β} {a : α}
    {m m' : Machine World} (first : x m = .ok a m') : (x >>= f) m = f a m' := by
  change EStateM.bind x f m = _
  unfold EStateM.bind
  rw [first]

theorem bind_registers {α : Type} (f : Registers → Exec World α) (m : Machine World) :
    (registers >>= f) m = f m.registers m := bind_of_ok rfl

theorem bind_of_error {α β : Type} {x : Exec World α} {f : α → Exec World β}
    {e : Exception} {m m' : Machine World} (first : x m = .error e m') : (x >>= f) m = .error e m' := by
  change EStateM.bind x f m = _
  unfold EStateM.bind
  rw [first]

theorem read_word_of_found {word : BitVec 16} (even : address.getLsbD 0 = false)
    (found : m.memory.readWord space address m.host = .ok word m.host) :
    ∃ m', read space .word address m = .ok (word.setWidth 32) m' ∧
      m.Becomes m.registers m.host.ram m' := by
  obtain ⟨m', read, becomes⟩ := readWord_of_found found
  refine ⟨m', ?_, becomes⟩
  unfold Exec.read
  rw [bind_of_ok (requireAligned_of_even m space .word even false)]
  dsimp only
  rw [bind_of_ok read]
  rfl

theorem read_long_of_found {high low : BitVec 16} (even : address.getLsbD 0 = false)
    (first : m.memory.readWord space address m.host = .ok high m.host)
    (second : m.memory.readWord space (address + 2) m.host = .ok low m.host) :
    ∃ m', read space .long address m = .ok (high ++ low) m' ∧
      m.Becomes m.registers m.host.ram m' := by
  obtain ⟨m₁, readHigh, becomes₁⟩ := readWord_of_found first
  have second₁ : m₁.memory.readWord space (address + 2) m₁.host = .ok low m₁.host := by
    rw [becomes₁.memory, becomes₁.host]
    exact second
  obtain ⟨m₂, readLow, becomes₂⟩ := readWord_of_found second₁
  rw [becomes₁.registers, becomes₁.host_ram] at becomes₂
  refine ⟨m₂, ?_, becomes₁.trans becomes₂⟩
  unfold Exec.read
  rw [bind_of_ok (requireAligned_of_even m space .long even false)]
  dsimp only
  rw [bind_of_ok readHigh, bind_of_ok readLow]
  rfl

theorem write_word_of_isRam (even : address.getLsbD 0 = false)
    (ram : m.memory.IsRam space address c) (holds : m.host.ram.Holds c) (value : BitVec 32) :
    ∃ m', write space .word address value m = .ok () m' ∧
      m.Becomes m.registers (m.host.ram.putWord c (value.setWidth 16)) m' := by
  obtain ⟨m', written, becomes⟩ := writeWord_of_isRam ram holds (value.setWidth 16)
  refine ⟨m', ?_, becomes⟩
  unfold write
  rw [bind_of_ok (requireAligned_of_even m space .word even true)]
  exact written

theorem write_long_of_isRam (even : address.getLsbD 0 = false)
    (ramHigh : m.memory.IsRam space address high) (holdsHigh : m.host.ram.Holds high)
    (ramLow : m.memory.IsRam space (address + 2) low) (holdsLow : m.host.ram.Holds low)
    (value : BitVec 32) :
    ∃ m', write space .long address value m = .ok () m' ∧
      m.Becomes m.registers ((m.host.ram.putWord high (value.extractLsb' 16 16)).putWord low
        (value.setWidth 16)) m' := by
  obtain ⟨m₁, wroteHigh, becomes₁⟩ := writeWord_of_isRam ramHigh holdsHigh (value.extractLsb' 16 16)
  have ram₁ : m₁.memory.IsRam space (address + 2) low := by
    rw [becomes₁.memory]
    exact ramLow
  have holds₁ : m₁.host.ram.Holds low := by
    rw [becomes₁.host_ram]
    exact (Ram.holds_putWord _ _ _ _).mpr holdsLow
  obtain ⟨m₂, wroteLow, becomes₂⟩ := writeWord_of_isRam ram₁ holds₁ (value.setWidth 16)
  rw [becomes₁.registers, becomes₁.host_ram] at becomes₂
  refine ⟨m₂, ?_, becomes₁.trans becomes₂⟩
  unfold write
  rw [bind_of_ok (requireAligned_of_even m space .long even true)]
  dsimp only
  rw [bind_of_ok wroteHigh]
  exact wroteLow

theorem even_sub {address distance : BitVec 32} (even : address.getLsbD 0 = false)
    (whole : (-distance).getLsbD 0 = false) : (address - distance).getLsbD 0 = false := by
  rw [BitVec.sub_eq_add_neg]
  exact even_add even whole

theorem sub_four_add_two (address : BitVec 32) : address - 4 + 2 = address - 2 := by bv_omega

theorem push_eq (size : Size) (value : BitVec 32) (m : Machine World) :
    push size value m = write m.dataSpace size (m.registers.a.get 7 - BitVec.ofNat 32 size.bytes) value
      (m.mapRegisters fun r => r.setAddress 7 (r.a.get 7 - BitVec.ofNat 32 size.bytes)) := by
  change write m.dataSpace size ((m.registers.setAddress 7 _).a.get 7) value _ = _
  rw [Registers.get_setAddress]

theorem pull_of_read {size : Size} {value : BitVec 32} {m m' : Machine World}
    (read : read m.dataSpace size (m.registers.a.get 7) m = .ok value m') :
    pull size m = .ok value
      (m'.mapRegisters fun r => r.setAddress 7 (r.a.get 7 + BitVec.ofNat 32 size.bytes)) := by
  have found : readData size (m.registers.a.get 7) m = .ok value m' := read
  unfold pull
  rw [bind_of_ok (rfl : registers m = .ok m.registers m), bind_of_ok found]
  rfl

/-- Words that are written go over the bus. -/
theorem writeWord_record (space : AddressSpace) (address : BitVec 32) (value : BitVec 16)
    (m : Machine World) : Ends (writeWord space address value m) (fun _ m' => m' = { m with
      host := m'.host
      activity := m.activity ++ [⟨space, address, .writeWord value⟩] }) fun _ _ => True := by
  unfold writeWord cycle
  dsimp only
  cases m.memory.writeWord space address value m.host with
  | ok _ host => exact rfl
  | error fault host => exact trivial

theorem push_word_record (value : BitVec 32) (m : Machine World) :
    Ends (push .word value m) (fun _ m' => m' = { m with
      registers := m.registers.setAddress 7 (m.registers.a.get 7 - 2)
      host := m'.host
      activity := m.activity ++
        [⟨m.dataSpace, m.registers.a.get 7 - 2, .writeWord (value.setWidth 16)⟩] })
      fun _ _ => True := by
  rw [push_eq]
  refine Ends.bind ((requireAligned_effects _ .word _ true _).mono (fun _ _ => And.left)
    fun _ _ _ => trivial) ?_
  rintro _ _ rfl
  exact writeWord_record _ _ _ _

theorem push_long_record (value : BitVec 32) (m : Machine World) :
    Ends (push .long value m) (fun _ m' => (m.registers.a.get 7 - 4).getLsbD 0 = false ∧ m' = { m with
      registers := m.registers.setAddress 7 (m.registers.a.get 7 - 4)
      host := m'.host
      activity := m.activity ++
        [⟨m.dataSpace, m.registers.a.get 7 - 4, .writeWord (value.extractLsb' 16 16)⟩,
          ⟨m.dataSpace, m.registers.a.get 7 - 2, .writeWord (value.setWidth 16)⟩] })
      fun _ _ => True := by
  rw [push_eq, ← sub_four_add_two (m.registers.a.get 7)]
  refine Ends.bind ((requireAligned_effects _ .long _ true _).mono (fun _ _ => id)
    fun _ _ _ => trivial) ?_
  rintro _ _ ⟨rfl, even⟩
  refine (writeWord_record _ _ _ _).bind fun _ m₁ high => ?_
  refine (writeWord_record _ _ _ m₁).mono (fun _ m₂ low => ⟨even.resolve_left nofun, ?_⟩) fun _ _ => id
  rw [low, high]
  dsimp only [Machine.mapRegisters]
  rw [List.append_assoc]
  rfl

theorem push_word_of_isRam (even : (m.registers.a.get 7).getLsbD 0 = false)
    (ram : m.memory.IsRam m.dataSpace (m.registers.a.get 7 - 2) c) (holds : m.host.ram.Holds c)
    (value : BitVec 32) : ∃ m', push .word value m = .ok () m' ∧
      m.Becomes (m.registers.setAddress 7 (m.registers.a.get 7 - 2))
        (m.host.ram.putWord c (value.setWidth 16)) m' := by
  rw [push_eq]
  exact write_word_of_isRam (m := m.mapRegisters fun r => r.setAddress 7 (r.a.get 7 - 2))
    (even_sub even (by decide)) ram holds value

theorem push_long_of_isRam (even : (m.registers.a.get 7).getLsbD 0 = false)
    (ramHigh : m.memory.IsRam m.dataSpace (m.registers.a.get 7 - 4) high)
    (holdsHigh : m.host.ram.Holds high)
    (ramLow : m.memory.IsRam m.dataSpace (m.registers.a.get 7 - 2) low)
    (holdsLow : m.host.ram.Holds low) (value : BitVec 32) :
    ∃ m', push .long value m = .ok () m' ∧
      m.Becomes (m.registers.setAddress 7 (m.registers.a.get 7 - 4))
        ((m.host.ram.putWord high (value.extractLsb' 16 16)).putWord low (value.setWidth 16)) m' := by
  rw [← sub_four_add_two] at ramLow
  rw [push_eq]
  exact write_long_of_isRam (m := m.mapRegisters fun r => r.setAddress 7 (r.a.get 7 - 4))
    (even_sub even (by decide)) ramHigh holdsHigh ramLow holdsLow value

theorem pull_word_of_isRam {word : BitVec 16} (even : (m.registers.a.get 7).getLsbD 0 = false)
    (ram : m.memory.IsRam m.dataSpace (m.registers.a.get 7) c) (found : m.host.ram.wordAt c = some word) :
    ∃ m', pull .word m = .ok (word.setWidth 32) m' ∧
      m.Becomes (m.registers.setAddress 7 (m.registers.a.get 7 + 2)) m.host.ram m' := by
  obtain ⟨m', read, becomes⟩ := read_word_of_found even (MemoryMap.readWord_of_isRam ram found)
  refine ⟨_, pull_of_read read, ?_⟩
  exact becomes.setRegisters fun r => r.setAddress 7 (r.a.get 7 + 2)

theorem pull_long_of_isRam {first second : BitVec 16} (even : (m.registers.a.get 7).getLsbD 0 = false)
    (ramHigh : m.memory.IsRam m.dataSpace (m.registers.a.get 7) high)
    (foundHigh : m.host.ram.wordAt high = some first)
    (ramLow : m.memory.IsRam m.dataSpace (m.registers.a.get 7 + 2) low)
    (foundLow : m.host.ram.wordAt low = some second) :
    ∃ m', pull .long m = .ok (first ++ second) m' ∧
      m.Becomes (m.registers.setAddress 7 (m.registers.a.get 7 + 4)) m.host.ram m' := by
  obtain ⟨m', read, becomes⟩ := read_long_of_found even
    (MemoryMap.readWord_of_isRam ramHigh foundHigh) (MemoryMap.readWord_of_isRam ramLow foundLow)
  refine ⟨_, pull_of_read read, ?_⟩
  exact becomes.setRegisters fun r => r.setAddress 7 (r.a.get 7 + 4)

theorem fetchWord_of_found {word : BitVec 16} (even : m.registers.pc.getLsbD 0 = false)
    (found : m.memory.readWord m.programSpace m.registers.pc m.host = .ok word m.host) :
    ∃ m', fetchWord m = .ok word m' ∧
      m.Becomes { m.registers with pc := m.registers.pc + 2 } m.host.ram m' := by
  obtain ⟨m', read, becomes⟩ := read_word_of_found even found
  refine ⟨m'.mapRegisters fun r => { r with pc := r.pc + 2 }, ?_,
    becomes.setRegisters fun r => { r with pc := r.pc + 2 }⟩
  have reads : readProgram .word m.registers.pc m = .ok (word.setWidth 32) m' := read
  unfold fetchWord
  rw [bind_of_ok (rfl : registers m = .ok m.registers m), bind_of_ok reads]
  exact congrArg (EStateM.Result.ok · _) (BitVec.setWidth_setWidth_of_le word (by decide))

theorem fetchDisplacement_of_fetchWord {word : BitVec 16} {m' : Machine World}
    (fetched : fetchWord m = .ok word m') :
    fetchDisplacement m = .ok (word.signExtend 32) m' := bind_of_ok fetched

end Exec

end MC68000
