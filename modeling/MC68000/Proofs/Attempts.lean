import MC68000.Proofs.Conduct
import MC68000.Proofs.Frame

set_option autoImplicit false

namespace MC68000

variable {World : Type}

def BusTransfer.isWrite : BusTransfer → Bool
  | readByte | readWord => false
  | writeByte _ | writeWord _ => true

namespace MemoryMap

variable {map : MemoryMap World} {space : AddressSpace} {address : BitVec 32} {fault : BusFault}
  {host after : Host World}

/-- Where an access fails, unmapped addresses are bus errors, and the fault names the access. -/
theorem miss_error {α : Type} {write : Bool} {shown : BitVec 8 → α}
    (fails : map.miss space address write shown host = .error fault after) :
    map.config.unmapped = .busError ∧ fault = ⟨map.masked address, space, write⟩ := by
  unfold miss at fails
  cases unmapped : map.config.unmapped with
  | openBus fill =>
    rw [unmapped] at fails
    cases fails
  | busError =>
    rw [unmapped] at fails
    cases fails
    exact ⟨rfl, rfl⟩

theorem readByte_error (fails : map.readByte space address host = .error fault after) :
    map.config.unmapped = .busError ∧ fault = ⟨map.masked address, space, false⟩ := by
  unfold readByte at fails
  split at fails
  next => cases fails
  next => exact miss_error fails

theorem readWord_error (fails : map.readWord space address host = .error fault after) :
    map.config.unmapped = .busError ∧ fault = ⟨map.masked address, space, false⟩ := by
  unfold readWord at fails
  split at fails
  next => cases fails
  next => exact miss_error fails

theorem writeByte_error {value : BitVec 8}
    (fails : map.writeByte space address value host = .error fault after) :
    map.config.unmapped = .busError ∧ fault = ⟨map.masked address, space, true⟩ := by
  unfold writeByte at fails
  split at fails
  next => cases fails
  next => exact miss_error fails

theorem writeWord_error {value : BitVec 16}
    (fails : map.writeWord space address value host = .error fault after) :
    map.config.unmapped = .busError ∧ fault = ⟨map.masked address, space, true⟩ := by
  unfold writeWord at fails
  split at fails
  next => cases fails
  next => exact miss_error fails

end MemoryMap

theorem Machine.isSupervisor_programSpace (m : Machine World) :
    m.programSpace.isSupervisor = m.registers.isSupervisor := by
  unfold Machine.programSpace
  cases m.registers.isSupervisor <;> rfl

/-- A bus cycle has failed, as no region serves it, and its bus error names it. -/
structure Machine.Unserved (m : Machine World) (b : BusCycle) (e : Exception) (m' : Machine World) :
    Prop where
  unmapped : m.memory.config.unmapped = .busError
  last : m'.activity.getLast? = some b
  kept : m' = m.withTraffic m'.traffic
  names : e = .busError
    ⟨m.memory.masked b.address, b.space, b.transfer.isWrite, !m.processingException⟩

theorem Machine.withTraffic_self (m : Machine World) : m = m.withTraffic m.traffic := rfl

theorem Machine.Unserved.of_withTraffic {m m' : Machine World} {traffic : Traffic World} {b : BusCycle}
    {e : Exception} (h : (m.withTraffic traffic).Unserved b e m') : m.Unserved b e m' :=
  ⟨h.unmapped, h.last, h.kept, h.names⟩

namespace MemoryAccess

/-- Makes the access, and gives the value that has been read or written. -/
def perform (access : MemoryAccess) : Exec World (BitVec 32) :=
  match access.written with
  | none => Exec.read access.space access.size access.address
  | some value => do
    Exec.write access.space access.size access.address value
    return value

/-- What an access raises: an address error if it is not aligned, and else the bus error of one of its cycles.
An address error names the access itself and leaves the machine as it was. -/
inductive Raises (access : MemoryAccess) (m : Machine World) : Exception → Machine World → Prop
  | addressError (odd : access.isAligned = false) : access.Raises m
      (.addressError
        ⟨access.address, access.space, access.written.isSome, !m.processingException⟩) m
  | busError {b : BusCycle} {e : Exception} {m' : Machine World} (aligned : access.isAligned = true)
      (made : b ∈ access.cycles) (unserved : m.Unserved b e m') : access.Raises m e m'

variable {access : MemoryAccess} {m m' : Machine World}

theorem names_of_mem_cycles {b : BusCycle} (made : b ∈ access.cycles) :
    b.space = access.space ∧ b.transfer.isWrite = access.written.isSome := by
  obtain ⟨space, size, address, written⟩ := access
  have listed : b ∈ (⟨space, size, address, written⟩ : MemoryAccess).cycles := made
  cases size <;> cases written <;>
    simp only [cycles, high, low, Option.elim, List.mem_cons, List.not_mem_nil, or_false] at listed
  case long.none | long.some => rcases listed with rfl | rfl <;> exact ⟨rfl, rfl⟩
  all_goals subst listed; exact ⟨rfl, rfl⟩

theorem Raises.kept {e : Exception} (raises : access.Raises m e m') : m' = m.withTraffic m'.traffic := by
  cases raises with
  | addressError _ => rfl
  | busError _ _ unserved => exact unserved.kept

end MemoryAccess

namespace Exec

theorem cycle_ends {α : Type} {b : BusCycle} {access : MemoryMap World → Access World α}
    {m : Machine World} (names : ∀ fault after, access m.memory m.host = .error fault after →
      m.memory.config.unmapped = .busError ∧
        fault = ⟨m.memory.masked b.address, b.space, b.transfer.isWrite⟩) :
    Ends (cycle b.space b.address b.transfer access m)
      (fun _ m' => m' = m.withTraffic m'.traffic) fun e m' => m.Unserved b e m' := by
  unfold cycle
  cases done : access m.memory m.host with
  | ok value after => exact rfl
  | error fault after =>
    obtain ⟨unmapped, rfl⟩ := names fault after done
    exact ⟨unmapped, List.getLast?_concat, rfl, rfl⟩

theorem cycle_after_ends {α : Type} {b : BusCycle} {access : MemoryMap World → Access World α}
    {m m₁ : Machine World} (before : m₁ = m.withTraffic m₁.traffic)
    (names : ∀ fault after, access m₁.memory m₁.host = .error fault after →
      m₁.memory.config.unmapped = .busError ∧
        fault = ⟨m₁.memory.masked b.address, b.space, b.transfer.isWrite⟩) :
    Ends (cycle b.space b.address b.transfer access m₁)
      (fun _ m' => m' = m.withTraffic m'.traffic) fun e m' => m.Unserved b e m' := by
  apply (cycle_ends names).mono
  · intro _ m' served
    rw [before] at served
    exact served
  · intro e m' unserved
    rw [before] at unserved
    exact unserved.of_withTraffic

section

variable {m m₁ : Machine World} (before : m₁ = m.withTraffic m₁.traffic) (space : AddressSpace)
  (address : BitVec 32)
include before

theorem readByte_ends : Ends (readByte space address m₁) (fun _ m' => m' = m.withTraffic m'.traffic)
    fun e m' => m.Unserved ⟨space, address, .readByte⟩ e m' :=
  cycle_after_ends (b := ⟨space, address, .readByte⟩) before fun _ _ => MemoryMap.readByte_error

theorem readWord_ends : Ends (readWord space address m₁) (fun _ m' => m' = m.withTraffic m'.traffic)
    fun e m' => m.Unserved ⟨space, address, .readWord⟩ e m' :=
  cycle_after_ends (b := ⟨space, address, .readWord⟩) before fun _ _ => MemoryMap.readWord_error

theorem writeByte_ends (value : BitVec 8) :
    Ends (writeByte space address value m₁) (fun _ m' => m' = m.withTraffic m'.traffic)
      fun e m' => m.Unserved ⟨space, address, .writeByte value⟩ e m' :=
  cycle_after_ends (b := ⟨space, address, .writeByte value⟩) before fun _ _ => MemoryMap.writeByte_error

theorem writeWord_ends (value : BitVec 16) :
    Ends (writeWord space address value m₁) (fun _ m' => m' = m.withTraffic m'.traffic)
      fun e m' => m.Unserved ⟨space, address, .writeWord value⟩ e m' :=
  cycle_after_ends (b := ⟨space, address, .writeWord value⟩) before fun _ _ => MemoryMap.writeWord_error

end

theorem requireAligned_ends (access : MemoryAccess) (m : Machine World) :
    Ends (requireAligned access.space access.size access.address access.written.isSome m)
      (fun _ m' => m' = m ∧ access.isAligned = true) fun e m' => access.Raises m e m' := by
  unfold requireAligned
  split
  next refused =>
    have odd : access.isAligned = false := by
      simp only [MemoryAccess.isAligned, refused.1, refused.2, decide_false, Bool.not_true, Bool.or_false]
    exact .addressError odd
  next accepted =>
    refine ⟨rfl, ?_⟩
    unfold MemoryAccess.isAligned
    by_cases byte : access.size = .byte
    · simp only [byte, decide_true, Bool.true_or]
    · have even : access.address.getLsbD 0 = false :=
        Bool.eq_false_iff.mpr fun odd => accepted ⟨byte, odd⟩
      simp only [even, Bool.not_false, Bool.or_true]

theorem read_ends (space : AddressSpace) (size : Size) (address : BitVec 32) (m : Machine World) :
    let access : MemoryAccess := ⟨space, size, address, none⟩
    Ends (read space size address m)
      (fun _ m' => access.isAligned = true ∧ m' = m.withTraffic m'.traffic)
      fun e m' => access.Raises m e m' := by
  intro access
  unfold read
  apply (requireAligned_ends access m).bind
  rintro _ m ⟨rfl, aligned⟩
  cases size with
  | byte =>
    have cycle := readByte_ends m.withTraffic_self space address
    apply (cycle.mono (fun _ _ => id) fun _ _ => .busError aligned List.mem_cons_self).bind
    exact fun _ _ served => ⟨aligned, served⟩
  | word =>
    have cycle := readWord_ends m.withTraffic_self space address
    apply (cycle.mono (fun _ _ => id) fun _ _ => .busError aligned List.mem_cons_self).bind
    exact fun _ _ served => ⟨aligned, served⟩
  | long =>
    have second : access.low ∈ access.cycles := List.mem_cons_of_mem _ List.mem_cons_self
    have high := readWord_ends m.withTraffic_self space address
    apply (high.mono (fun _ _ => id) fun _ _ => .busError aligned List.mem_cons_self).bind
    intro _ m₁ served
    have low := readWord_ends served space (address + 2)
    apply (low.mono (fun _ _ => id) fun _ _ => .busError aligned second).bind
    exact fun _ _ served => ⟨aligned, served⟩

theorem write_ends (space : AddressSpace) (size : Size) (address value : BitVec 32) (m : Machine World) :
    let access : MemoryAccess := ⟨space, size, address, some value⟩
    Ends (write space size address value m)
      (fun _ m' => access.isAligned = true ∧ m' = m.withTraffic m'.traffic)
      fun e m' => access.Raises m e m' := by
  intro access
  unfold write
  apply (requireAligned_ends access m).bind
  rintro _ m ⟨rfl, aligned⟩
  cases size with
  | byte =>
    have cycle := writeByte_ends m.withTraffic_self space address (value.setWidth 8)
    exact cycle.mono (fun _ _ => .intro aligned) fun _ _ => .busError aligned List.mem_cons_self
  | word =>
    have cycle := writeWord_ends m.withTraffic_self space address (value.setWidth 16)
    exact cycle.mono (fun _ _ => .intro aligned) fun _ _ => .busError aligned List.mem_cons_self
  | long =>
    have second : access.low ∈ access.cycles := List.mem_cons_of_mem _ List.mem_cons_self
    have high := writeWord_ends m.withTraffic_self space address (value.extractLsb' 16 16)
    apply (high.mono (fun _ _ => id) fun _ _ => .busError aligned List.mem_cons_self).bind
    intro _ m₁ served
    have low := writeWord_ends served space (address + 2) (value.setWidth 16)
    exact low.mono (fun _ _ => .intro aligned) fun _ _ => .busError aligned second

end Exec

/-- An access completes only if it is aligned. Where it fails, its exception names it. -/
theorem MemoryAccess.perform_ends (access : MemoryAccess) (m : Machine World) :
    Ends (access.perform m) (fun _ m' => access.isAligned = true ∧ m' = m.withTraffic m'.traffic)
      fun e m' => access.Raises m e m' := by
  obtain ⟨space, size, address, written⟩ := access
  cases written with
  | none => exact Exec.read_ends space size address m
  | some value => exact (Exec.write_ends space size address value m).bind fun _ _ => id

namespace Exec

/-- A sequence that fails does so in its first part, or in its second from where the first has come to. -/
theorem error_of_bind {α β : Type} {x : Exec World α} {f : α → Exec World β} {m m' : Machine World}
    {e : Exception} (failed : (x >>= f) m = .error e m') :
    x m = .error e m' ∨ ∃ a m₁, x m = .ok a m₁ ∧ f a m₁ = .error e m' := by
  cases done : x m with
  | error e₁ m₁ =>
    rw [bind_of_error done] at failed
    cases failed
    exact .inl rfl
  | ok a m₁ =>
    rw [bind_of_ok done] at failed
    exact .inr ⟨a, m₁, rfl, failed⟩

/-- An action that starts on the first machine comes to an access, which it makes on the second. -/
inductive Attempts : {α : Type} → Exec World α → Machine World → MemoryAccess → Machine World → Prop
  | read (space : AddressSpace) (size : Size) (address : BitVec 32) (m : Machine World) :
      Attempts (read space size address) m ⟨space, size, address, none⟩ m
  | write (space : AddressSpace) (size : Size) (address value : BitVec 32) (m : Machine World) :
      Attempts (write space size address value) m ⟨space, size, address, some value⟩ m
  | first {α β : Type} {x : Exec World α} {f : α → Exec World β} {m before : Machine World}
      {access : MemoryAccess} (attempts : Attempts x m access before) :
      Attempts (x >>= f) m access before
  | later {α β : Type} {x : Exec World α} {f : α → Exec World β} {a : α} {m m' before : Machine World}
      {access : MemoryAccess} (done : x m = .ok a m') (attempts : Attempts (f a) m' access before) :
      Attempts (x >>= f) m access before

/-- An action ends in the exception of an access that it attempts. -/
def FailsAtAccess {α : Type} (x : Exec World α) (m : Machine World) (e : Exception) (m' : Machine World) :
    Prop :=
  ∃ (access : MemoryAccess) (before : Machine World), Attempts x m access before ∧
    access.perform before = .error e m' ∧ access.space.isSupervisor = m'.registers.isSupervisor

section

variable {α β : Type} {x : Exec World α} {f : α → Exec World β} {m m' : Machine World} {e : Exception}

theorem FailsAtAccess.first (fails : FailsAtAccess x m e m') : FailsAtAccess (x >>= f) m e m' := by
  obtain ⟨access, before, attempts, failed⟩ := fails
  exact ⟨access, before, attempts.first, failed⟩

theorem FailsAtAccess.later {a : α} {m₁ : Machine World} (done : x m = .ok a m₁)
    (fails : FailsAtAccess (f a) m₁ e m') : FailsAtAccess (x >>= f) m e m' := by
  obtain ⟨access, before, attempts, failed⟩ := fails
  exact ⟨access, before, attempts.later done, failed⟩

theorem failsAtAccess_read {space : AddressSpace} {size : Size} {address : BitVec 32}
    (level : space.isSupervisor = m.registers.isSupervisor)
    (failed : read space size address m = .error e m') :
    FailsAtAccess (read space size address) m e m' := by
  have ends := read_ends space size address m
  rw [failed] at ends
  refine ⟨_, m, .read space size address m, failed, ?_⟩
  rw [ends.kept]
  exact level

theorem failsAtAccess_write {space : AddressSpace} {size : Size} {address value : BitVec 32}
    (level : space.isSupervisor = m.registers.isSupervisor)
    (failed : write space size address value m = .error e m') :
    FailsAtAccess (write space size address value) m e m' := by
  have ends := write_ends space size address value m
  rw [failed] at ends
  refine ⟨_, m, .write space size address value m, bind_of_error failed, ?_⟩
  rw [ends.kept]
  exact level

end

/-- Whatever an ordinary action raises of its own, its other exceptions are those of accesses that it attempts. -/
theorem Ordinary.failsAtAccess {s : StatusWord} {raises : Exception → Prop} {α : Type}
    {x : Exec World α} {post : α → Prop} (h : Ordinary s raises x post) :
    ∀ m : Machine World, m.registers.status.system = s →
      ∀ e m', x m = .error e m' → raises e ∨ FailsAtAccess x m e m' := by
  induction h with
  | pure _ =>
    intro _ _ _ _ failed
    cases failed
  | bind before _ first next =>
    intro m same e m' failed
    rcases error_of_bind failed with failed | ⟨a, m₁, done, failed⟩
    · exact (first m same e m' failed).imp id .first
    · have effects := before.effects m same
      rw [done] at effects
      -- the mode is the same where the second part begins, so its accesses are made at the same level
      have kept := effects.1.unprivileged.system.trans same
      exact (next a effects.2 m₁ kept e m' failed).imp id (.later done)
  | throw h =>
    intro m _ e m' failed
    cases failed
    exact .inl h
  | registers =>
    intro _ _ _ _ failed
    cases failed
  | update _ =>
    intro _ _ _ _ failed
    cases failed
  | dataSpace =>
    intro _ _ _ _ failed
    cases failed
  | programSpace =>
    intro _ _ _ _ failed
    cases failed
  | read size address level =>
    intro m same e m' failed
    exact .inr (failsAtAccess_read (level.trans (has_supervisor_of_same m same)) failed)
  | write size address value level =>
    intro m same e m' failed
    exact .inr (failsAtAccess_write (level.trans (has_supervisor_of_same m same)) failed)
  | requirePrivilege h =>
    intro m same e m' failed
    have effects := (Ordinary.requirePrivilege h).effects m same
    unfold Exec.requirePrivilege at failed effects
    split at failed
    next => cases failed
    next user =>
      cases failed
      rw [if_neg user] at effects
      exact .inl (effects.2.resolve_right id)

theorem Guarded.failsAtAccess {s : StatusWord} {raises : Exception → Prop} {x : Exec World Nat}
    (h : Guarded s raises x) (m : Machine World) (same : m.registers.status.system = s) {e : Exception}
    {m' : Machine World} (failed : x m = .error e m') : raises e ∨ FailsAtAccess x m e m' := by
  induction h generalizing m with
  | ordinary h => exact h.failsAtAccess m same e m' failed
  | bind first _ next =>
    rcases error_of_bind failed with failed | ⟨a, m₁, done, failed⟩
    · exact (first.failsAtAccess m same e m' failed).imp id .first
    · have effects := first.effects m same
      rw [done] at effects
      exact (next a effects.2 m₁ (effects.1.unprivileged.system.trans same) failed).imp id (.later done)
  | change change cost _ _ _ act =>
    rw [act] at failed
    cases failed

theorem read_of_fetchWord_error {m m' : Machine World} {e : Exception}
    (failed : fetchWord m = .error e m') :
    read m.programSpace .word m.registers.pc m = .error e m' := by
  have fetches : (readProgram .word m.registers.pc >>= fun word => do
      update fun r => { r with pc := r.pc + 2 }
      return word.setWidth 16 : Exec World (BitVec 16)) m = .error e m' := failed
  rcases error_of_bind fetches with unread | ⟨word, m₁, _, rest⟩
  · exact unread
  · cases rest

/-- Where the next instruction ends in a bus or address error, its opcode cannot be fetched or an access fails that
the instruction attempts. -/
theorem nextInstruction_failsAtAccess {m m' : Machine World} {e : Exception}
    (failed : nextInstruction m = .error e m') (fault : e.IsFault) :
    read m.programSpace .word m.registers.pc m = .error e m' ∨
      ∃ opcode fetched, fetchWord m = .ok opcode fetched ∧
        FailsAtAccess (Instruction.decode opcode).execute { fetched with opcode } e m' := by
  rcases error_of_bind (x := fetchWord) failed with unfetched | ⟨opcode, fetched, fetches, failed⟩
  · exact .inl (read_of_fetchWord_error unfetched)
  · have guarded : Guarded fetched.registers.status.system (Instruction.decode opcode).MayRaise
        ((Instruction.decode opcode).execute : Exec World Nat) :=
      Instruction.guarded_execute _ (Instruction.encodable_decode opcode)
    have fails := guarded.failsAtAccess { fetched with opcode } rfl failed
    exact .inr ⟨opcode, fetched, fetches, fails.resolve_left fun own => own.not_isFault fault⟩

theorem push_fails {size : Size} {value : BitVec 32} {m m' : Machine World} {e : Exception}
    (failed : push size value m = .error e m') :
    let access : MemoryAccess :=
      ⟨m.dataSpace, size, m.registers.a.get 7 - BitVec.ofNat 32 size.bytes, some value⟩
    ∃ before, Attempts (push size value) m access before ∧ access.perform before = .error e m' := by
  let lowered := m.mapRegisters fun r => r.setAddress 7 (r.a.get 7 - BitVec.ofNat 32 size.bytes)
  have attempts : Attempts (push size value) m
      ⟨m.dataSpace, size, lowered.registers.a.get 7, some value⟩ lowered :=
    .later rfl (.later rfl (.later rfl (.write _ size _ value lowered)))
  have top : lowered.registers.a.get 7 = m.registers.a.get 7 - BitVec.ofNat 32 size.bytes :=
    Registers.get_setAddress ..
  rw [top] at attempts
  rw [push_eq] at failed
  exact ⟨lowered, attempts, bind_of_error failed⟩

theorem push_keeps {size : Size} {value : BitVec 32} {m m' : Machine World}
    (done : push size value m = .ok () m') :
    m'.registers = m.registers.setAddress 7 (m.registers.a.get 7 - BitVec.ofNat 32 size.bytes) := by
  rw [push_eq] at done
  have ends := write_ends m.dataSpace size (m.registers.a.get 7 - BitVec.ofNat 32 size.bytes) value
    (m.mapRegisters fun r => r.setAddress 7 (r.a.get 7 - BitVec.ofNat 32 size.bytes))
  rw [done] at ends
  rw [ends.2]
  rfl

/-- The accesses that stack a short frame and read the entry of its vector. -/
def shortFrameAccesses (r : Registers) (vector : VectorNumber) (returnAddress : BitVec 32) :
    List MemoryAccess :=
  [⟨.supervisorData, .long, r.supervisorStack - 4, some returnAddress⟩,
    ⟨.supervisorData, .word, r.supervisorStack - 6, some (r.status.setWidth 32)⟩,
    ⟨.supervisorProgram, .long, vector.address, none⟩]

theorem isSupervisor_of_mem_shortFrameAccesses {r : Registers} {vector : VectorNumber}
    {returnAddress : BitVec 32} {access : MemoryAccess}
    (part : access ∈ shortFrameAccesses r vector returnAddress) : access.space.isSupervisor = true := by
  simp only [shortFrameAccesses, List.mem_cons, List.not_mem_nil, or_false] at part
  rcases part with rfl | rfl | rfl <;> rfl

/-- Where a short frame cannot be stacked or its vector cannot be read, one of these accesses fails. -/
theorem stackShort_fails {vector : VectorNumber} {returnAddress : BitVec 32} {r : Registers}
    {m m' : Machine World} {e : Exception} (supervisor : m.registers.isSupervisor = true)
    (stack : m.registers.supervisorStack = r.supervisorStack)
    (failed : stackShort vector returnAddress r.status m = .error e m') :
    ∃ access ∈ shortFrameAccesses r vector returnAddress, ∃ before,
      Attempts (stackShort vector returnAddress r.status) m access before ∧
        access.perform before = .error e m' := by
  have top : m.registers.a.get 7 = r.supervisorStack :=
    (Registers.stack_of_supervisor supervisor).trans stack
  -- each access is reached only where those before it have completed
  rcases error_of_bind failed with first | ⟨_, m₁, first, failed⟩
  · obtain ⟨before, attempts, fails⟩ := push_fails first
    rw [top, dataSpace_of_supervisor supervisor] at attempts fails
    exact ⟨_, List.mem_cons_self, before, attempts.first, fails⟩
  · have registers₁ := push_keeps first
    have supervisor₁ : m₁.registers.isSupervisor = true := by
      rw [registers₁]
      exact supervisor
    have top₁ : m₁.registers.a.get 7 - BitVec.ofNat 32 Size.word.bytes = r.supervisorStack - 6 := by
      rw [registers₁, Registers.get_setAddress, top]
      exact sub_four_sub_two _
    rcases error_of_bind failed with second | ⟨_, m₂, second, failed⟩
    · obtain ⟨before, attempts, fails⟩ := push_fails second
      rw [top₁, dataSpace_of_supervisor supervisor₁] at attempts fails
      exact ⟨_, List.mem_cons_of_mem _ List.mem_cons_self, before, .later first attempts.first, fails⟩
    · rcases error_of_bind failed with third | ⟨handler, m₃, _, entered⟩
      · have attempts : Attempts (readVector vector) m₂ _ m₂ :=
          .read .supervisorProgram .long vector.address m₂
        refine ⟨_, ?_, m₂, .later first (.later second attempts.first), third⟩
        exact List.mem_cons_of_mem _ (List.mem_cons_of_mem _ List.mem_cons_self)
      · cases entered

end Exec

end MC68000
