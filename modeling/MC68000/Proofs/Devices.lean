import MC68000.Proofs.Conduct
import MC68000.Proofs.HostRequests

set_option autoImplicit false

namespace MC68000

variable {World : Type}

/-- What is called of a device in a bus cycle, and the range that the device is mapped to. -/
structure Handler (World : Type) where
  range : AddressRange
  call : BitVec 32 → Host World → Host World

/-- The handler of the region that serves an address, unless that region is a buffer. -/
def Region.handler? {Device : Type} (regions : List (Region Device)) (address : BitVec 32)
    (call : Device → BitVec 32 → Host World → Host World) : Option (Handler World) :=
  match find? regions address with
  | some ⟨range, .device device⟩ => some ⟨range, call device⟩
  | _ => none

/-- The handler that a bus cycle calls. Programs are only fetched from buffers. -/
def MemoryMap.handler? (map : MemoryMap World) (b : BusCycle) : Option (Handler World) :=
  let table := map.table b.space
  let address := map.masked b.address
  match b.transfer with
  | .readByte =>
    if b.space.isProgram then none
    else Region.handler? table.readByte address fun read seen host => (read seen host).2
  | .readWord =>
    if b.space.isProgram then none
    else Region.handler? table.readWord address fun read seen host => (read seen host).2
  | .writeByte value => Region.handler? table.writeByte address fun write seen host => write seen value host
  | .writeWord value => Region.handler? table.writeWord address fun write seen host => write seen value host

namespace Region

variable {Device : Type} {regions : List (Region Device)} {address : BitVec 32}
  {call : Device → BitVec 32 → Host World → Host World} {handler : Handler World}

theorem of_handler? (h : handler? regions address call = some handler) :
    (∃ device, find? regions address = some ⟨handler.range, .device device⟩ ∧ handler.call = call device) ∧
      handler.range.low ≤ address ∧ address ≤ handler.range.high := by
  unfold handler? at h
  split at h
  next range device found =>
    cases h
    have inside := List.find?_some (p := fun r : Region Device => r.range.contains address) found
    rw [AddressRange.contains, Bool.and_eq_true, decide_eq_true_eq, decide_eq_true_eq] at inside
    exact ⟨⟨device, found, rfl⟩, inside⟩
  next => cases h

theorem of_no_handler (h : handler? regions address call = none) :
    find? regions address = none ∨ ∃ range id, find? regions address = some ⟨range, .buffer id⟩ := by
  unfold handler? at h
  split at h
  next => cases h
  next devices =>
    cases found : find? regions address with
    | none => exact .inl rfl
    | some region =>
      obtain ⟨range, target⟩ := region
      cases target with
      | buffer id => exact .inr ⟨range, id, rfl⟩
      | device device => exact absurd found (devices range device)

end Region

namespace MemoryMap

variable {map : MemoryMap World} {b : BusCycle}

/-- The handler of a cycle is mapped to a range with the address that it sees. -/
theorem within_of_handler? {handler : Handler World} (h : map.handler? b = some handler) :
    handler.range.low ≤ map.masked b.address ∧ map.masked b.address ≤ handler.range.high := by
  obtain ⟨space, address, transfer⟩ := b
  unfold handler? at h
  cases transfer with
  | readByte | readWord =>
    dsimp only at h
    split at h
    next => cases h
    next => exact (Region.of_handler? h).2
  | writeByte value | writeWord value => exact (Region.of_handler? h).2

theorem perform_of_handler? {handler : Handler World} (h : map.handler? b = some handler)
    (host : Host World) : map.perform b host = handler.call (map.masked b.address) host := by
  obtain ⟨space, address, transfer⟩ := b
  unfold handler? at h
  unfold perform
  cases transfer with
  | readByte =>
    dsimp only at h ⊢
    split at h
    next => cases h
    next data =>
      obtain ⟨⟨device, found, call⟩, _⟩ := Region.of_handler? h
      rw [peekByte, if_neg data, call, RegionTable.dataByte, found]
  | readWord =>
    dsimp only at h ⊢
    split at h
    next => cases h
    next data =>
      obtain ⟨⟨device, found, call⟩, _⟩ := Region.of_handler? h
      rw [peekWord, if_neg data, call, RegionTable.dataWord, found]
  | writeByte value =>
    obtain ⟨⟨device, found, call⟩, _⟩ := Region.of_handler? h
    dsimp only
    rw [call, RegionTable.putByte, found]
  | writeWord value =>
    obtain ⟨⟨device, found, call⟩, _⟩ := Region.of_handler? h
    dsimp only
    rw [call, RegionTable.putWord, found]

/-- Any other cycle touches the buffers at most. -/
theorem perform_of_no_handler (h : map.handler? b = none) (host : Host World) :
    ∃ ram, map.perform b host = { host with ram } := by
  obtain ⟨space, address, transfer⟩ := b
  unfold handler? at h
  unfold perform
  cases transfer with
  | readByte | readWord =>
    simp only [peekByte, peekWord, RegionTable.dataByte, RegionTable.dataWord] at h ⊢
    split at h
    next program =>
      rw [if_pos program]
      exact ⟨host.ram, rfl⟩
    next data =>
      rw [if_neg data]
      obtain found | ⟨range, id, found⟩ := Region.of_no_handler h <;> rw [found] <;> exact ⟨host.ram, rfl⟩
  | writeByte value | writeWord value =>
    simp only [RegionTable.putByte, RegionTable.putWord]
    obtain found | ⟨range, id, found⟩ := Region.of_no_handler h <;> rw [found]
    · exact ⟨host.ram, rfl⟩
    · exact ⟨_, rfl⟩

/-- A word is even on the lines that exist if it is even. -/
theorem aligned_masked (map : MemoryMap World) (aligned : b.Aligned) :
    BusCycle.Aligned { b with address := map.masked b.address } := by
  obtain ⟨space, address, transfer⟩ := b
  have even (h : address.getLsbD 0 = false) : (map.masked address).getLsbD 0 = false := by
    rw [masked, BitVec.getLsbD_and, h, Bool.false_and]
  cases transfer with
  | readByte | writeByte value => trivial
  | readWord | writeWord value => exact even aligned

/-- A cycle as devices should see it: words lie at even addresses, and a handler is called with an address in the
range that it is mapped to. -/
structure Orderly (map : MemoryMap World) (b : BusCycle) : Prop where
  aligned : b.Aligned
  seen : BusCycle.Aligned { b with address := map.masked b.address }
  called : ∀ handler, map.handler? b = some handler →
    handler.range.low ≤ map.masked b.address ∧ map.masked b.address ≤ handler.range.high ∧
      ∀ host, map.perform b host = handler.call (map.masked b.address) host
  unserved : map.handler? b = none → ∀ host, ∃ ram, map.perform b host = { host with ram }

theorem orderly_of_aligned (map : MemoryMap World) (aligned : b.Aligned) : map.Orderly b where
  aligned := aligned
  seen := map.aligned_masked aligned
  called _ served :=
    ⟨(within_of_handler? served).1, (within_of_handler? served).2, perform_of_handler? served⟩
  unserved := perform_of_no_handler

theorem aligned_of_mem_cycles {access : MemoryAccess} (aligned : access.isAligned = true)
    (member : b ∈ access.cycles) : b.Aligned := by
  obtain ⟨space, size, address, written⟩ := access
  have even (h : size ≠ .byte) : address.getLsbD 0 = false := by
    rw [MemoryAccess.isAligned, Bool.or_eq_true, decide_eq_true_eq, Bool.not_eq_true'] at aligned
    exact aligned.resolve_left h
  cases size with
  | byte =>
    obtain rfl := List.mem_singleton.mp member
    cases written <;> trivial
  | word =>
    obtain rfl := List.mem_singleton.mp member
    cases written <;> exact even (by decide)
  | long =>
    rcases List.mem_cons.mp member with rfl | second
    · cases written <;> exact even (by decide)
    · obtain rfl := List.mem_singleton.mp second
      cases written <;> exact Exec.even_add (even (by decide)) rfl

theorem access_of_odd (map : MemoryMap World) {access : MemoryAccess} (traffic : Traffic World)
    (wide : access.size ≠ .byte) (odd : access.address.getLsbD 0 = true) :
    map.access access traffic = traffic := by
  refine if_neg ?_
  rw [MemoryAccess.isAligned, odd, decide_eq_false wide]
  exact Bool.false_ne_true

/-- The second word of a long follows the first where this completes. -/
theorem access_of_long (map : MemoryMap World) {access : MemoryAccess} (traffic : Traffic World)
    (long : access.size = .long) (even : access.address.getLsbD 0 = false) :
    map.access access traffic =
      if map.completes access.high traffic.host then
        ⟨traffic.cycles ++ [access.high, access.low],
          map.perform access.low (map.perform access.high traffic.host)⟩
      else ⟨traffic.cycles ++ [access.high], map.perform access.high traffic.host⟩ := by
  have aligned : access.isAligned = true := by
    rw [MemoryAccess.isAligned, even, Bool.not_false, Bool.or_true]
  have two : access.cycles = [access.high, access.low] := by
    unfold MemoryAccess.cycles
    rw [long]
  rw [MemoryMap.access, if_pos aligned, two]
  simp only [conduct, ite_self, List.append_assoc, List.cons_append, List.nil_append]

/-- Of the cycles that are due, the first are made. -/
theorem conduct_eq (map : MemoryMap World) (cycles : List BusCycle) (traffic : Traffic World) :
    ∃ made, made <+: cycles ∧ (map.conduct cycles traffic).cycles = traffic.cycles ++ made := by
  induction cycles generalizing traffic with
  | nil => exact ⟨[], List.nil_prefix, (List.append_nil _).symm⟩
  | cons b rest ih =>
    unfold conduct
    dsimp only
    split
    next =>
      obtain ⟨made, first, same⟩ := ih ⟨traffic.cycles ++ [b], map.perform b traffic.host⟩
      refine ⟨b :: made, List.cons_prefix_cons.mpr ⟨rfl, first⟩, ?_⟩
      rw [same, List.append_assoc]
      rfl
    next => exact ⟨[b], List.cons_prefix_cons.mpr ⟨rfl, List.nil_prefix⟩, rfl⟩

/-- What has passed before does not matter. -/
theorem conduct_shift (map : MemoryMap World) (before cycles : List BusCycle) (traffic : Traffic World) :
    map.conduct cycles { traffic with cycles := before ++ traffic.cycles } =
      { map.conduct cycles traffic with cycles := before ++ (map.conduct cycles traffic).cycles } := by
  induction cycles generalizing traffic with
  | nil => rfl
  | cons b rest ih =>
    unfold conduct
    dsimp only
    rw [List.append_assoc]
    split
    next => exact ih ⟨traffic.cycles ++ [b], map.perform b traffic.host⟩
    next => rfl

end MemoryMap

namespace Exec

variable (m : Machine World) (space : AddressSpace) {size : Size} {address : BitVec 32}

theorem read_of_odd (wide : size ≠ .byte) (odd : address.getLsbD 0 = true) :
    read space size address m = .error (.addressError (faultOf m space address false)) m := by
  change EStateM.bind (requireAligned space size address false) _ m = _
  unfold EStateM.bind requireAligned
  rw [if_pos ⟨wide, odd⟩]

theorem write_of_odd (value : BitVec 32) (wide : size ≠ .byte) (odd : address.getLsbD 0 = true) :
    write space size address value m = .error (.addressError (faultOf m space address true)) m := by
  change EStateM.bind (requireAligned space size address true) _ m = _
  unfold EStateM.bind requireAligned
  rw [if_pos ⟨wide, odd⟩]

theorem read_of_words {high low : BitVec 16} {host host' : Host World} (even : address.getLsbD 0 = false)
    (first : m.memory.readWord space address m.host = .ok high host)
    (second : m.memory.readWord space (address + 2) host = .ok low host') :
    ∃ m', read space .long address m = .ok (high ++ low) m' := by
  have aligned : ¬(Size.long ≠ .byte ∧ address.getLsbD 0 = true) := by
    rw [even]
    simp only [Bool.false_eq_true, and_false, not_false_eq_true]
  unfold read requireAligned readWord cycle
  simp only [bind, EStateM.bind, if_neg aligned, first, second]
  exact ⟨_, rfl⟩

end Exec

namespace Wiring.Act

variable {wiring : Wiring World} {traffic traffic' : Traffic World}

/-- Every act makes aligned cycles only. -/
theorem aligned (h : wiring.Act traffic traffic') (before : ∀ b ∈ traffic.cycles, b.Aligned) :
    ∀ b ∈ traffic'.cycles, b.Aligned := by
  cases h with
  | access access =>
    unfold MemoryMap.access
    split
    next aligned =>
      obtain ⟨made, first, same⟩ := wiring.memory.conduct_eq access.cycles traffic
      rw [same]
      intro b member
      rcases List.mem_append.mp member with earlier | now
      · exact before b earlier
      · exact MemoryMap.aligned_of_mem_cycles aligned (first.subset now)
    next => exact before
  | _ => exact before

/-- No act depends on the cycles that have passed before. -/
theorem shift (h : wiring.Act traffic traffic') (before : List BusCycle) :
    wiring.Act { traffic with cycles := before ++ traffic.cycles }
      { traffic' with cycles := before ++ traffic'.cycles } := by
  cases h with
  | access access =>
    have shifted : wiring.memory.access access { traffic with cycles := before ++ traffic.cycles } =
        { wiring.memory.access access traffic with
          cycles := before ++ (wiring.memory.access access traffic).cycles } := by
      unfold MemoryMap.access
      split
      next => exact wiring.memory.conduct_shift before access.cycles traffic
      next => rfl
    rw [← shifted]
    exact .access access
  | record record => exact .record record
  | reset present => exact .reset present
  | acknowledge present level => exact .acknowledge present level
  | vector present r => exact .vector present r
  | control control => exact .control control

end Wiring.Act

theorem Wiring.aligned_of_acts {wiring : Wiring World} {host host' : Host World} {cycles : List BusCycle}
    (h : Relation.ReflTransGen wiring.Act ⟨[], host⟩ ⟨cycles, host'⟩) : ∀ b ∈ cycles, b.Aligned := by
  have along (traffic : Traffic World) (reached : Relation.ReflTransGen wiring.Act ⟨[], host⟩ traffic) :
      ∀ b ∈ traffic.cycles, b.Aligned := by
    induction reached with
    | refl => exact fun b member => absurd member List.not_mem_nil
    | tail _ last ih => exact last.aligned ih
  exact along _ h

namespace Machine

/-- What steps and runs make of a machine, with the bus cycles of all steps. Between two steps anything may be
done with the processor, but for its wiring, and with the requests to the run loop. -/
inductive Journey (start : Machine World) : List BusCycle → Machine World → Prop
  | start : Journey start [] start
  | step {cycles : List BusCycle} {m : Machine World} (before : Journey start cycles m) :
      Journey start (cycles ++ m.step.2.activity) m.step.2
  /-- One turn of the run loop. -/
  | turn {cycles : List BusCycle} {m : Machine World} (before : Journey start cycles m) :
      Journey start (cycles ++ m.step.2.activity) m.turn.2.2
  | aside {cycles : List BusCycle} {m m' : Machine World} (before : Journey start cycles m)
      (control : Control) (wiring : m'.wiring = m.wiring) (host : m'.host = { m.host with control }) :
      Journey start cycles m'

/-- What a machine does from an empty record on, it also does after other cycles. -/
theorem Acts.after {m m' : Machine World} (h : Acts { m with activity := [] } m') (cycles : List BusCycle) :
    Relation.ReflTransGen m.wiring.Act ⟨cycles, m.host⟩ ⟨cycles ++ m'.activity, m'.host⟩ := by
  have path := h.traffic.lift (fun t : Traffic World => { t with cycles := cycles ++ t.cycles })
    fun _ _ act => act.shift cycles
  change Relation.ReflTransGen m.wiring.Act ⟨cycles ++ [], m.host⟩ _ at path
  rw [List.append_nil] at path
  exact path

/-- On a journey the world is changed by acts alone, and these make the cycles of the journey. -/
theorem Journey.acts {start m : Machine World} {cycles : List BusCycle} (h : Journey start cycles m) :
    m.wiring = start.wiring ∧
      Relation.ReflTransGen start.wiring.Act ⟨[], start.host⟩ ⟨cycles, m.host⟩ := by
  induction h with
  | start => exact ⟨rfl, .refl⟩
  | @step cycles m _ ih =>
    have further := m.acts_step.after cycles
    rw [ih.1] at further
    exact ⟨m.acts_step.wiring.trans ih.1, ih.2.trans further⟩
  | @turn cycles m _ ih =>
    have further := m.acts_turn.after cycles
    rw [ih.1, show m.turn.2.2.activity = m.step.2.activity by rw [turn_frame]] at further
    exact ⟨m.acts_turn.wiring.trans ih.1, ih.2.trans further⟩
  | @aside cycles m m' _ control wiring host ih =>
    refine ⟨wiring.trans ih.1, ih.2.tail ?_⟩
    rw [host]
    exact .control control

/-- The bus cycles of some turns of the run loop. -/
def burst (m : Machine World) : Nat → List BusCycle
  | 0 => []
  | n + 1 => m.burst n ++ (m.turns n).step.2.activity

theorem journey_turns (m : Machine World) (n : Nat) : Journey m (m.burst n) (m.turns n) := by
  induction n with
  | zero => exact .start
  | succ n ih =>
    rw [turns_succ]
    exact ih.turn

/-- A run is a journey of turns, after which it may wait. -/
theorem journey_run {limit : Nat} {m m' : Machine World} {clocks r : BitVec 32}
    (h : m.run? limit clocks = some (r, m')) :
    ∃ n ≤ limit, (∀ l, m.run? l clocks = if n ≤ l then some (r, m') else none) ∧ Journey m (m.burst n) m' := by
  obtain ⟨consumed, after, n, within, slice, rfl, rfl⟩ := exists_slice_of_run? h
  obtain ⟨wait, rfl, _⟩ := slice.exists_wait
  refine ⟨n, within, slice.run?_eq,
    (m.journey_turns n).aside { (m.turns n).host.control with stop := false } ?_ ?_⟩
  · rw [charge_frame]
    rfl
  · rw [charge_frame]
    rfl

/-- Devices see none but orderly accesses, on all machines, with all memory maps and all programs.

A read or a write is an access, whatever the machine, and does nothing else. A word or a long at an odd address
passes nothing over the bus, and ends in an address error with the machine as it was. A long passes as a word
at its address and, only where that completes, as a word at the address behind, and is read from these two with
the high word first.

All that steps and runs do to the world are accesses, calls of hooks and records for the log, and the cycles of
the accesses are those of the steps. All of these are orderly: words are transferred at even addresses, and a
device is called with the address on the lines that exist, which lies within its range and is even for words
again. A run is made of turns, whether or not it ends. -/
theorem devices_see_orderly_accesses :
    (∀ (m : Machine World) (space : AddressSpace) (size : Size) (address value : BitVec 32),
      finalState (Exec.read space size address m) =
          m.withTraffic (m.memory.access ⟨space, size, address, none⟩ m.traffic) ∧
        finalState (Exec.write space size address value m) =
          m.withTraffic (m.memory.access ⟨space, size, address, some value⟩ m.traffic)) ∧
    (∀ (m : Machine World) (space : AddressSpace) (size : Size) (address value : BitVec 32),
      size ≠ .byte → address.getLsbD 0 = true →
        Exec.read space size address m = .error (.addressError (Exec.faultOf m space address false)) m ∧
          Exec.write space size address value m =
            .error (.addressError (Exec.faultOf m space address true)) m) ∧
    (∀ (map : MemoryMap World) (access : MemoryAccess) (traffic : Traffic World),
      (access.size ≠ .byte → access.address.getLsbD 0 = true → map.access access traffic = traffic) ∧
        (access.size = .long → access.address.getLsbD 0 = false →
          access.high.address = access.address ∧ access.low.address = access.address + 2 ∧
            map.access access traffic =
              if map.completes access.high traffic.host then
                ⟨traffic.cycles ++ [access.high, access.low],
                  map.perform access.low (map.perform access.high traffic.host)⟩
              else ⟨traffic.cycles ++ [access.high], map.perform access.high traffic.host⟩)) ∧
    (∀ (m : Machine World) (space : AddressSpace) (address : BitVec 32) (high low : BitVec 16)
      (host host' : Host World), address.getLsbD 0 = false →
        m.memory.readWord space address m.host = .ok high host →
        m.memory.readWord space (address + 2) host = .ok low host' →
        ∃ m', Exec.read space .long address m = .ok (high ++ low) m') ∧
    (∀ (m m' : Machine World) (cycles : List BusCycle), Journey m cycles m' →
      Relation.ReflTransGen m.wiring.Act ⟨[], m.host⟩ ⟨cycles, m'.host⟩ ∧
        ∀ b ∈ cycles, m.memory.Orderly b) ∧
    ∀ m : Machine World, (∀ n, Journey m (m.burst n) (m.turns n)) ∧
      ∀ (limit : Nat) (clocks r : BitVec 32) (m' : Machine World), m.run? limit clocks = some (r, m') →
        ∃ n ≤ limit, (∀ l, m.run? l clocks = if n ≤ l then some (r, m') else none) ∧
          Journey m (m.burst n) m' := by
  refine ⟨?_, ?_, ?_, ?_, ?_, fun m => ⟨m.journey_turns, fun _ _ _ _ => journey_run⟩⟩
  · exact fun m space size address value => ⟨Exec.final_read .., Exec.final_write ..⟩
  · exact fun m space size address value wide odd =>
      ⟨Exec.read_of_odd m space wide odd, Exec.write_of_odd m space value wide odd⟩
  · exact fun map access traffic => ⟨map.access_of_odd traffic,
      fun long even => ⟨rfl, rfl, map.access_of_long traffic long even⟩⟩
  · exact fun m space address high low host host' even first second =>
      Exec.read_of_words m space even first second
  · intro m m' cycles journey
    obtain ⟨-, acts⟩ := journey.acts
    refine ⟨acts, fun b member => m.memory.orderly_of_aligned ?_⟩
    exact Wiring.aligned_of_acts acts b member

/-- A machine with MOVE.L (A0),D0 at address 8, and with a device from 0x100 on that notes the addresses at which
words are read from it. A0 holds an address in the device's range but for a line that does not exist. -/
def watched : Machine (List (BitVec 32)) :=
  let memory := (MemoryMap.empty .standard).mapRam ⟨0, 15⟩ 0
  let readWord : Reader (List (BitVec 32)) 16 := fun address host =>
    (0xABCD, { host with world := host.world ++ [address] })
  { new .standard ⟨#[#[0, 0, 0, 0, 0, 0, 0, 0, 0x20, 0x10, 0, 0, 0, 0, 0, 0]], .none, []⟩
      fun _ world => world with
    memory := { memory with
      supervisor := memory.supervisor.mapDevice ⟨0x100, 0x1FF⟩ (fun _ host => (0, host)) readWord
        (fun _ _ host => host) fun _ _ host => host }
    registers := { Registers.initial.setAddress 0 0x01000100 with pc := 8 }
    state := .running }

/-- One step reads the long as two words from the device, which sees no line that does not exist. -/
theorem devices_see_orderly_accesses_watched :
    let b : BusCycle := ⟨.supervisorData, 0x01000102, .readWord⟩
    Journey watched watched.step.2.activity watched.step.2 ∧ b ∈ watched.step.2.activity ∧
      watched.memory.Orderly b ∧ watched.step.2.host.world = [0x100, 0x102] ∧
      Exec.read .supervisorData .long 0x101 watched =
        .error (.addressError (Exec.faultOf watched .supervisorData 0x101 false)) watched ∧
      Exec.write .supervisorData .long 0x101 0 watched =
        .error (.addressError (Exec.faultOf watched .supervisorData 0x101 true)) watched := by
  intro b
  obtain ⟨-, odd, -, -, orderly, -⟩ := @devices_see_orderly_accesses (List (BitVec 32))
  have journey : Journey watched watched.step.2.activity watched.step.2 := Journey.start.step
  have member : b ∈ watched.step.2.activity := by decide +kernel
  obtain ⟨read, write⟩ := odd watched .supervisorData .long 0x101 0 (by decide) (by decide)
  exact ⟨journey, member, (orderly _ _ _ journey).2 b member, by decide +kernel, read, write⟩

end Machine

end MC68000
