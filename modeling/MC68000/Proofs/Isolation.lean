import MC68000.Proofs.Agreement

set_option autoImplicit false

namespace MC68000

variable {World : Type}

namespace MemoryMap

variable {map map' : MemoryMap World} {space : AddressSpace}

section

variable (table : map'.table space = map.table space) (config : map'.config = map.config)

include config

theorem miss_congr {α : Type} (address : BitVec 32) (write : Bool) (shown : BitVec 8 → α) :
    map'.miss space address write shown = map.miss space address write shown := by
  unfold miss masked
  rw [config]

include table

theorem readByte_congr (address : BitVec 32) :
    map'.readByte space address = map.readByte space address := by
  unfold readByte peekByte masked
  rw [table, config, miss_congr config]

theorem readWord_congr (address : BitVec 32) :
    map'.readWord space address = map.readWord space address := by
  unfold readWord peekWord masked
  rw [table, config, miss_congr config]

theorem writeByte_congr (address : BitVec 32) (value : BitVec 8) :
    map'.writeByte space address value = map.writeByte space address value := by
  unfold writeByte masked
  rw [table, config, miss_congr config]

theorem writeWord_congr (address : BitVec 32) (value : BitVec 16) :
    map'.writeWord space address value = map.writeWord space address value := by
  unfold writeWord masked
  rw [table, config, miss_congr config]

end

end MemoryMap

namespace Machine

/-- Two machines that differ, as far as an instruction is concerned, in no more than the memory of the
privilege level that the first is not at. -/
structure Alike (m n : Machine World) : Prop where
  registers : n.registers = m.registers
  /-- The regions of the current privilege level. -/
  table : ∀ space : AddressSpace, space.isSupervisor = m.registers.isSupervisor →
    n.memory.table space = m.memory.table space
  /-- The address mask, and what becomes of accesses that no region serves. -/
  config : n.memory.config = m.memory.config
  /-- One world for both. The regions of the other level may lead to any of its buffers and devices. -/
  host : n.host = m.host
  reset : n.hooks.reset = m.hooks.reset
  logger : n.logger = m.logger
  processingException : n.processingException = m.processingException

/-- Two such machines while they execute an instruction. -/
structure Abreast (m n : Machine World) : Prop extends m.Alike n where
  instructionAddress : n.instructionAddress = m.instructionAddress
  activity : n.activity = m.activity

/-- Two machines that have come to the same registers and have done the same to the world. -/
structure EndAlike (m n : Machine World) : Prop where
  registers : n.registers = m.registers
  host : n.host = m.host
  activity : n.activity = m.activity

theorem Abreast.endAlike {m n : Machine World} (h : m.Abreast n) : m.EndAlike n :=
  ⟨h.registers, h.host, h.activity⟩

end Machine

open Machine (Abreast)

theorem cycle_abreast {m n : Machine World} (h : m.Abreast n) {α : Type} {space : AddressSpace}
    {address : BitVec 32} {transfer : BusTransfer} {access : MemoryMap World → Access World α}
    (same : access n.memory = access m.memory) :
    Together Abreast (Exec.cycle space address transfer access m)
      (Exec.cycle space address transfer access n) := by
  have kept (host : Host World) (b : BusCycle) :
      Abreast { m with host, activity := m.activity ++ [b] }
        { n with host, activity := n.activity ++ [b] } :=
    ⟨⟨h.registers, h.table, h.config, rfl, h.reset, h.logger, h.processingException⟩,
      h.instructionAddress, congrArg (· ++ [b]) h.activity⟩
  unfold Exec.cycle
  rw [same, h.host]
  cases access m.memory m.host with
  | ok value host => exact ⟨rfl, kept host _⟩
  | error fault host =>
    refine ⟨?_, kept host _⟩
    rw [Exec.faultOf, Exec.faultOf, h.processingException]

theorem agreement_abreast : Agreement (Abreast : Machine World → Machine World → Prop) where
  registers h := h.registers.symm
  processing h := h.processingException.symm
  update f h unprivileged := by
    refine ⟨⟨congrArg f h.registers, fun space level => ?_, h.config, h.host, h.reset, h.logger,
      h.processingException⟩, h.instructionAddress, h.activity⟩
    exact h.table space (level.trans unprivileged.isSupervisor)
  readByte address h level :=
    cycle_abreast h (MemoryMap.readByte_congr (h.table _ level) h.config address)
  readWord address h level :=
    cycle_abreast h (MemoryMap.readWord_congr (h.table _ level) h.config address)
  writeByte address value h level :=
    cycle_abreast h (MemoryMap.writeByte_congr (h.table _ level) h.config address value)
  writeWord address value h level :=
    cycle_abreast h (MemoryMap.writeWord_congr (h.table _ level) h.config address value)

/-- What is left to the supervisor takes two machines to the same end. It may take them to the other
level, where their memory differs. -/
theorem apply_abreast (change : SupervisorChange) {m n : Machine World} (h : m.Abreast n) :
    (change.apply m).EndAlike (change.apply n) := by
  cases change with
  | registers f => exact ⟨congrArg f h.registers, h.host, h.activity⟩
  | reset =>
    unfold SupervisorChange.apply
    dsimp only
    rw [h.reset]
    cases m.hooks.reset with
    | none => exact h.endAlike
    | some hook => exact ⟨h.registers, congrArg hook h.host, h.activity⟩
  | stop status =>
    refine ⟨congrArg (·.setStatus status) h.registers, ?_, h.activity⟩
    simp only [SupervisorChange.apply, Machine.log, Machine.mapRegisters, h.host, h.logger,
      h.instructionAddress, h.registers]

namespace Machine

/-- All bus cycles of an instruction are at the privilege level that it begins at. -/
theorem level_of_nextInstruction (m : Machine World) :
    ∀ b ∈ (finalState (Exec.nextInstruction m.beginning)).activity,
      b.space.isSupervisor = m.registers.isSupervisor := by
  have levels {m' : Machine World} (executes : m.beginning.Executes m') :
      ∀ b ∈ m'.activity, b.space.isSupervisor = m.registers.isSupervisor := by
    obtain ⟨cycles, recorded, levels⟩ := Effects.activity executes
    rw [show m'.activity = cycles from recorded]
    exact levels
  refine ((nextInstruction_outcome m.beginning).mono ?_ fun _ _ after => levels after.1).final
  rintro _ _ (executes | ⟨_, before, change, _, executes, rfl⟩)
  · exact levels executes
  · rw [activity_apply]
    exact levels executes

/-- The privilege levels are isolated from each other. An instruction of any opcode, its fetch included, gives
the same cost or raises the same exception on two machines that differ in the memory of the other level. It
leaves the same registers and the same world, after the same bus cycles. None of these is at the other
level, not even where the instruction changes the level. -/
theorem nextInstruction_isolated {m n : Machine World} (alike : m.Alike n) :
    Together EndAlike (Exec.nextInstruction m.beginning) (Exec.nextInstruction n.beginning) ∧
      ∀ b ∈ (finalState (Exec.nextInstruction m.beginning)).activity,
        b.space.isSupervisor = m.registers.isSupervisor := by
  have abreast : m.beginning.Abreast n.beginning :=
    ⟨⟨alike.registers, alike.table, alike.config, alike.host, alike.reset, alike.logger,
      alike.processingException⟩, congrArg Registers.pc alike.registers, rfl⟩
  have fetched (opcode : BitVec 16) (m n : Machine World) (h : m.Abreast n) :
      Abreast { m with opcode } { n with opcode } :=
    ⟨⟨h.registers, h.table, h.config, h.host, h.reset, h.logger, h.processingException⟩,
      h.instructionAddress, h.activity⟩
  exact ⟨Exec.nextInstruction_together agreement_abreast (fun _ _ => Abreast.endAlike)
    (fun change _ _ => apply_abreast change) fetched abreast, m.level_of_nextInstruction⟩

/-- A processor in supervisor mode on an open bus with 16 bytes of memory at its own level: RTE at address 0, and
at address 8 a frame that leads to user mode. -/
def leaving (user : RegionTable Unit) : Machine Unit :=
  { new ⟨0x00FFFFFF, .openBus 0⟩
      ⟨#[#[0x4E, 0x73, 0, 0, 0, 0, 0, 0, 0, 0, 0, 0, 0, 4, 0, 0]], .none, ()⟩ fun _ world => world with
    registers := { Registers.initial.setAddress 7 8 with status := 0x2000 }
    memory := ⟨RegionTable.empty.mapRam ⟨0, 15⟩ 0, user, ⟨0x00FFFFFF, .openBus 0⟩⟩
    state := .running }

/-- RTE takes its frame off the stack of the supervisor, with or without memory at the user level. -/
theorem nextInstruction_isolated_leaving :
    (leaving .empty).Alike (leaving (RegionTable.empty.mapRom ⟨0, 15⟩ 0)) ∧
      Together EndAlike (Exec.nextInstruction (leaving .empty).beginning)
        (Exec.nextInstruction (leaving (RegionTable.empty.mapRom ⟨0, 15⟩ 0)).beginning) ∧
      (finalState (Exec.nextInstruction (leaving .empty).beginning)).registers.isSupervisor = false ∧
      (finalState (Exec.nextInstruction (leaving .empty).beginning)).registers.pc = 4 := by
  have alike : (leaving .empty).Alike (leaving (RegionTable.empty.mapRom ⟨0, 15⟩ 0)) := by
    refine ⟨rfl, fun space level => ?_, rfl, rfl, rfl, rfl, rfl⟩
    cases space with
    | supervisorProgram => rfl
    | supervisorData => rfl
    | userProgram => cases level
    | userData => cases level
  exact ⟨alike, (nextInstruction_isolated alike).1, by decide +kernel, by decide +kernel⟩

end Machine

end MC68000
