import MC68000.Proofs.Agreement

set_option autoImplicit false

namespace MC68000

variable {World : Type}

/-- Two hosts have the same buffers. -/
def Host.SameRam (host host' : Host World) : Prop := host'.ram = host.ram

/-- What a function of the host gives, and what it makes of the buffers, depends on the buffers alone. -/
def Host.Pure {α : Type} (f : Host World → α × Host World) : Prop :=
  ∀ host host', host.SameRam host' → (f host').1 = (f host).1 ∧ (f host).2.SameRam (f host').2

/-- A pure function on two hosts with the same buffers. -/
theorem Host.Pure.cases {α : Type} {f : Host World → α × Host World} (pure : Host.Pure f)
    {host host' : Host World} (same : host.SameRam host') :
    ∃ a after after', f host = (a, after) ∧ f host' = (a, after') ∧ after.SameRam after' := by
  obtain ⟨value, ram⟩ := pure host host' same
  exact ⟨(f host).1, (f host).2, (f host').2, rfl, Prod.ext value rfl, ram⟩

theorem Host.pure_storeByte (buffer offset : Nat) (value : BitVec 8) :
    Host.Pure fun host : Host World => host.storeByte buffer offset value := by
  intro host host' same
  have stored : host'.ram.storeByte buffer offset value = host.ram.storeByte buffer offset value :=
    congrArg (·.storeByte buffer offset value) same
  dsimp only [Host.storeByte, Host.SameRam]
  rw [stored]
  exact ⟨rfl, rfl⟩

theorem Host.pure_storeWord (buffer offset : Nat) (value : BitVec 16) :
    Host.Pure fun host : Host World => host.storeWord buffer offset value := by
  intro host host' same
  have stored : host'.ram.storeWord buffer offset value = host.ram.storeWord buffer offset value :=
    congrArg (·.storeWord buffer offset value) same
  dsimp only [Host.storeWord, Host.SameRam]
  rw [stored]
  exact ⟨rfl, rfl⟩

structure RegionTable.Pure (table : RegionTable World) : Prop where
  readByte : ∀ region ∈ table.readByte, ∀ device, region.target = .device device →
    ∀ address, Host.Pure (device address)
  readWord : ∀ region ∈ table.readWord, ∀ device, region.target = .device device →
    ∀ address, Host.Pure (device address)
  writeByte : ∀ region ∈ table.writeByte, ∀ device, region.target = .device device →
    ∀ address value, Host.Pure fun host => ((), device address value host)
  writeWord : ∀ region ∈ table.writeWord, ∀ device, region.target = .device device →
    ∀ address value, Host.Pure fun host => ((), device address value host)

structure MemoryMap.Pure (map : MemoryMap World) : Prop where
  supervisor : map.supervisor.Pure
  user : map.user.Pure

structure Hooks.Pure (hooks : Hooks World) : Prop where
  reset : ∀ hook, hooks.reset = some hook → Host.Pure fun host => ((), hook host)
  acknowledge : ∀ hook, hooks.acknowledge = some hook →
    ∀ level, Host.Pure fun host => ((), hook level host)
  vectors : ∀ vector hook, hooks.vectors vector = some hook → ∀ r, Host.Pure (hook vector r)

namespace RegionTable

variable {table : RegionTable World} {host host' : Host World}

theorem pure_dataByte (pure : table.Pure) (address : BitVec 32) :
    Host.Pure (table.dataByte address) := by
  intro host host' same
  unfold dataByte
  cases found : Region.find? table.readByte address with
  | none => exact ⟨rfl, same⟩
  | some region =>
    obtain ⟨range, target⟩ := region
    cases target with
    | buffer id => exact ⟨congrArg (·.byte? id (range.offset address)) same, same⟩
    | device read =>
      have member := List.mem_of_find?_eq_some found
      obtain ⟨value, ram⟩ := pure.readByte _ member read rfl address host host' same
      exact ⟨congrArg some value, ram⟩

theorem pure_dataWord (pure : table.Pure) (address : BitVec 32) :
    Host.Pure (table.dataWord address) := by
  intro host host' same
  unfold dataWord
  cases found : Region.find? table.readWord address with
  | none => exact ⟨rfl, same⟩
  | some region =>
    obtain ⟨range, target⟩ := region
    cases target with
    | buffer id => exact ⟨congrArg (·.word? id (range.offset address)) same, same⟩
    | device read =>
      have member := List.mem_of_find?_eq_some found
      obtain ⟨value, ram⟩ := pure.readWord _ member read rfl address host host' same
      exact ⟨congrArg some value, ram⟩

theorem pure_putByte (pure : table.Pure) (address : BitVec 32) (value : BitVec 8) :
    Host.Pure (table.putByte address value) := by
  intro host host' same
  unfold putByte
  cases found : Region.find? table.writeByte address with
  | none => exact ⟨rfl, same⟩
  | some region =>
    obtain ⟨range, target⟩ := region
    cases target with
    | buffer id => exact Host.pure_storeByte id (range.offset address) value host host' same
    | device write =>
      have member := List.mem_of_find?_eq_some found
      exact ⟨rfl, (pure.writeByte _ member write rfl address value host host' same).2⟩

theorem pure_putWord (pure : table.Pure) (address : BitVec 32) (value : BitVec 16) :
    Host.Pure (table.putWord address value) := by
  intro host host' same
  unfold putWord
  cases found : Region.find? table.writeWord address with
  | none => exact ⟨rfl, same⟩
  | some region =>
    obtain ⟨range, target⟩ := region
    cases target with
    | buffer id => exact Host.pure_storeWord id (range.offset address) value host host' same
    | device write =>
      have member := List.mem_of_find?_eq_some found
      exact ⟨rfl, (pure.writeWord _ member write rfl address value host host' same).2⟩

end RegionTable

namespace MemoryMap

variable {map : MemoryMap World} {host host' : Host World}

theorem Pure.table (pure : map.Pure) (space : AddressSpace) : (map.table space).Pure := by
  unfold MemoryMap.table
  split
  · exact pure.supervisor
  · exact pure.user

theorem pure_peekByte (pure : map.Pure) (space : AddressSpace) (address : BitVec 32) :
    Host.Pure (map.peekByte space address) := by
  intro host host' same
  unfold peekByte
  dsimp only
  split
  · exact ⟨congrArg ((map.table space).fetchByte (map.masked address)) same, same⟩
  · exact RegionTable.pure_dataByte (pure.table space) _ host host' same

theorem pure_peekWord (pure : map.Pure) (space : AddressSpace) (address : BitVec 32) :
    Host.Pure (map.peekWord space address) := by
  intro host host' same
  unfold peekWord
  dsimp only
  split
  · exact ⟨congrArg ((map.table space).fetchWord (map.masked address)) same, same⟩
  · exact RegionTable.pure_dataWord (pure.table space) _ host host' same

theorem miss_together {α : Type} (map : MemoryMap World) (space : AddressSpace) (address : BitVec 32)
    (write : Bool) (shown : BitVec 8 → α) (same : host.SameRam host') :
    Together Host.SameRam (map.miss space address write shown host)
      (map.miss space address write shown host') := by
  unfold miss
  cases map.config.unmapped with
  | busError => exact ⟨rfl, same⟩
  | openBus fill => exact ⟨rfl, same⟩

section

variable (pure : map.Pure) (space : AddressSpace) (address : BitVec 32) (same : host.SameRam host')

include pure same

theorem readByte_together :
    Together Host.SameRam (map.readByte space address host) (map.readByte space address host') := by
  obtain ⟨found, after, after', left, right, ram⟩ := (pure_peekByte pure space address).cases same
  unfold readByte
  rw [left, right]
  cases found with
  | some byte => exact ⟨rfl, ram⟩
  | none => exact miss_together map space address false id ram

theorem readWord_together :
    Together Host.SameRam (map.readWord space address host) (map.readWord space address host') := by
  obtain ⟨found, after, after', left, right, ram⟩ := (pure_peekWord pure space address).cases same
  unfold readWord
  rw [left, right]
  cases found with
  | some word => exact ⟨rfl, ram⟩
  | none => exact miss_together map space address false _ ram

theorem writeByte_together (value : BitVec 8) :
    Together Host.SameRam (map.writeByte space address value host)
      (map.writeByte space address value host') := by
  have puts := RegionTable.pure_putByte (pure.table space) (map.masked address) value
  obtain ⟨served, after, after', left, right, ram⟩ := puts.cases same
  unfold writeByte
  rw [left, right]
  cases served with
  | true => exact ⟨rfl, ram⟩
  | false => exact miss_together map space address true _ ram

theorem writeWord_together (value : BitVec 16) :
    Together Host.SameRam (map.writeWord space address value host)
      (map.writeWord space address value host') := by
  have puts := RegionTable.pure_putWord (pure.table space) (map.masked address) value
  obtain ⟨served, after, after', left, right, ram⟩ := puts.cases same
  unfold writeWord
  rw [left, right]
  cases served with
  | true => exact ⟨rfl, ram⟩
  | false => exact miss_together map space address true _ ram

end

end MemoryMap

end MC68000
