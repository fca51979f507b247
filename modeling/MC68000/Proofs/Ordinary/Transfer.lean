import MC68000.Proofs.Decoding
import MC68000.Proofs.Ordinary

set_option autoImplicit false

namespace MC68000

variable {World : Type}

theorem Registers.unprivileged_set {register : Register} (general : register.IsGeneral)
    (r : Registers) (value : BitVec 32) : r.Unprivileged (r.set register value) := by
  cases register with
  | data n => exact r.unprivileged_setData n value
  | address n => exact r.unprivileged_setAddress n value
  | shadow => cases general
  | pc => cases general
  | status => cases general

namespace Exec

variable {s : StatusWord} {raises : Exception → Prop}

theorem timed_move (size : Size) (source : AddressingMode) {destination : AddressingMode}
    (alterable : destination.isAlterable = true) :
    Timed s raises (move size source destination : Exec World Nat) := by
  refine (plain_loadFrom source size).andThen fun value => ?_
  refine .bind (ordinary_locate destination size) fun target located => ?_
  refine (plain_store (located.isWritable alterable) size value).andThen fun _ => ?_
  refine .bind ordinary_status fun old same => ?_
  refine (plain_setStatus ((old.system_withLogical size value).trans same)).andThen fun _ => .pure ?_
  exact ((Timing.Within.add_operand (by decide) source size).add_moveDestination _ size).mono (Nat.le_refl _)

theorem timed_movea (size : Size) (source : AddressingMode) (n : Fin 8) :
    Timed s raises (movea size source n : Exec World Nat) := by
  refine (plain_loadFrom source size).andThen fun value => ?_
  refine (plain_update fun r => r.unprivileged_setAddress n _).andThen fun _ => .pure ?_
  exact Timing.Within.add_operand (by decide) source size

theorem timed_moveq (value : BitVec 8) (n : Fin 8) :
    Timed s raises (moveq value n : Exec World Nat) := by
  refine (plain_update fun r => r.unprivileged_setData n _).andThen fun _ => ?_
  refine .bind ordinary_status fun old same => ?_
  exact (plain_setStatus ((old.system_withLogical .long _).trans same)).andThen fun _ => .pure (by decide)

theorem timed_swap (n : Fin 8) : Timed s raises (swap n : Exec World Nat) := by
  refine .bind .registers fun r _ => ?_
  refine (plain_update fun r' => r'.unprivileged_setData n _).andThen fun _ => ?_
  refine .bind ordinary_status fun old same => ?_
  exact (plain_setStatus ((old.system_withLogical .long _).trans same)).andThen fun _ => .pure (by decide)

theorem timed_ext (size : Size) (n : Fin 8) : Timed s raises (ext size n : Exec World Nat) := by
  refine .bind .registers fun r _ => ?_
  refine (plain_update fun r' => r'.unprivileged_setDataPart n size _).andThen fun _ => ?_
  refine .bind ordinary_status fun old same => ?_
  exact (plain_setStatus ((old.system_withLogical size _).trans same)).andThen fun _ => .pure (by decide)

theorem timed_exg {x y : Register} (hx : x.IsGeneral) (hy : y.IsGeneral) :
    Timed s raises (exg x y : Exec World Nat) := by
  refine (plain_update fun r => ?_).andThen fun _ => .pure (by decide)
  exact (Registers.unprivileged_set hx r _).trans (Registers.unprivileged_set hy _ _)

theorem timed_lea {source : AddressingMode} (control : source.isControl = true) (n : Fin 8) :
    Timed s raises (lea source n : Exec World Nat) := by
  refine (plain_effectiveAddress control).andThen fun address => ?_
  refine (plain_update fun r => r.unprivileged_setAddress n _).andThen fun _ => .pure ?_
  exact (Timing.within_lea source).mono (by decide)

theorem timed_pea {source : AddressingMode} (control : source.isControl = true) :
    Timed s raises (pea source : Exec World Nat) := by
  refine (plain_effectiveAddress control).andThen fun address => ?_
  exact (plain_push .long address).andThen fun _ => .pure ((Timing.within_pea source).mono (by decide))

theorem timed_link (n : Fin 8) : Timed s raises (link n : Exec World Nat) := by
  refine plain_fetchDisplacement.andThen fun displacement => .bind .registers fun r _ => ?_
  refine (plain_push .long _).andThen fun _ => ?_
  refine (plain_update fun r' => r'.unprivileged_setAddress n _).andThen fun _ => ?_
  exact (plain_update fun r' => r'.unprivileged_setAddress 7 _).andThen fun _ => .pure (by decide)

theorem timed_unlk (n : Fin 8) : Timed s raises (unlk n : Exec World Nat) := by
  refine (plain_update fun r => r.unprivileged_setAddress 7 _).andThen fun _ => ?_
  refine (plain_pull .long).andThen fun value => ?_
  exact (plain_update fun r => r.unprivileged_setAddress n _).andThen fun _ => .pure (by decide)

theorem isGeneral_listedRegister (i : Fin 16) : (listedRegister i).IsGeneral := by
  unfold listedRegister
  split <;> trivial

/-- A register list names general registers only. -/
theorem isGeneral_of_mem_listedUp {mask : BitVec 16} {register : Register}
    (member : register ∈ listedUp mask) : register.IsGeneral := by
  obtain ⟨i, -, rfl⟩ := List.mem_map.mp member
  exact isGeneral_listedRegister i

theorem length_listedUp_le (mask : BitVec 16) : (listedUp mask).length ≤ 16 := by
  rw [listedUp, List.length_map]
  exact List.length_filter_le _ _

theorem plain_storeDown (size : Size) (list : List Register) (address : BitVec 32) :
    Plain s raises (storeDown size list address : Exec World (BitVec 32)) := by
  induction list generalizing address with
  | nil => exact .pure trivial
  | cons register rest ih =>
    exact .bind .registers fun r _ => (plain_writeData size _ _).andThen fun _ => ih _

theorem plain_storeUp (size : Size) (list : List Register) (address : BitVec 32) :
    Plain s raises (storeUp size list address : Exec World Unit) := by
  induction list generalizing address with
  | nil => exact .pure trivial
  | cons register rest ih =>
    exact .bind .registers fun r _ => (plain_writeData size _ _).andThen fun _ => ih _

theorem plain_loadUp {space : AddressSpace} (level : space.isSupervisor = s.has .supervisor)
    (size : Size) (list : List Register) (general : ∀ register ∈ list, register.IsGeneral)
    (address : BitVec 32) :
    Plain s raises (loadUp space size list address : Exec World (BitVec 32)) := by
  induction list generalizing address with
  | nil => exact .pure trivial
  | cons register rest ih =>
    have head := general register List.mem_cons_self
    refine Plain.andThen (.read size address level) fun value => ?_
    refine (plain_update fun r => Registers.unprivileged_set head r _).andThen fun _ => ?_
    exact ih (fun r member => general r (List.mem_cons_of_mem register member)) _

theorem timed_movemStore (size : Size) {destination : AddressingMode}
    (admitted : Decoding.admitsMovemStore destination = true) :
    Timed s raises (movemStore size destination : Exec World Nat) := by
  refine plain_fetchWord.andThen fun mask => ?_
  dsimp only
  split
  · refine .bind .registers fun r _ => (plain_storeDown size _ _).andThen fun address => ?_
    refine (plain_update fun r => r.unprivileged_setAddress _ _).andThen fun _ => .pure ?_
    exact (Timing.within_movemStore _ size (length_listedUp_le mask)).mono (by decide)
  next other =>
    have alterable : destination.isControlAlterable = true := by
      unfold Decoding.admitsMovemStore at admitted
      split at admitted
      next n => exact (other n rfl).elim
      next => exact admitted
    have control := AddressingMode.isControl_of_isControlAlterable alterable
    refine (plain_effectiveAddress control).andThen fun address => ?_
    refine (plain_storeUp size _ address).andThen fun _ => .pure ?_
    exact (Timing.within_movemStore _ size (length_listedUp_le mask)).mono (by decide)

theorem timed_movemLoad (size : Size) {source : AddressingMode}
    (admitted : Decoding.admitsMovemLoad source = true) :
    Timed s raises (movemLoad size source : Exec World Nat) := by
  refine plain_fetchWord.andThen fun mask => ?_
  have general : ∀ register ∈ listedUp mask, register.IsGeneral :=
    fun register member => isGeneral_of_mem_listedUp member
  dsimp only
  split
  · refine .bind .dataSpace fun space level => .bind .registers fun r _ => ?_
    refine (plain_loadUp level size _ general _).andThen fun address => ?_
    refine (plain_update fun r => r.unprivileged_setAddress _ _).andThen fun _ => .pure ?_
    exact (Timing.within_movemLoad _ size (length_listedUp_le mask)).mono (by decide)
  next other =>
    have control : source.isControl = true := by
      unfold Decoding.admitsMovemLoad at admitted
      split at admitted
      next n => exact (other n rfl).elim
      next => exact admitted
    refine (plain_effectiveAddress control).andThen fun address => ?_
    split
    · refine .bind .programSpace fun space level => ?_
      refine (plain_loadUp level size _ general address).andThen fun _ => .pure ?_
      exact (Timing.within_movemLoad _ size (length_listedUp_le mask)).mono (by decide)
    · refine .bind .dataSpace fun space level => ?_
      refine (plain_loadUp level size _ general address).andThen fun _ => .pure ?_
      exact (Timing.within_movemLoad _ size (length_listedUp_le mask)).mono (by decide)

theorem plain_storeAlternate (bytes : List (BitVec 8)) (address : BitVec 32) :
    Plain s raises (storeAlternate bytes address : Exec World Unit) := by
  induction bytes generalizing address with
  | nil => exact .pure trivial
  | cons byte rest ih => exact (plain_writeData .byte _ _).andThen fun _ => ih _

theorem plain_loadAlternate (count : Nat) (value address : BitVec 32) :
    Plain s raises (loadAlternate count value address : Exec World (BitVec 32)) := by
  induction count generalizing value address with
  | zero => exact .pure trivial
  | succ count ih => exact (plain_readData .byte _).andThen fun byte => ih _ _

theorem timed_movepStore (size : Size) (data address : Fin 8) :
    Timed s raises (movepStore size data address : Exec World Nat) := by
  refine plain_fetchDisplacement.andThen fun displacement => .bind .registers fun r _ => ?_
  refine (plain_storeAlternate _ _).andThen fun _ => .pure ?_
  exact Timing.within_bySize (by decide) (by decide) size

theorem timed_movepLoad (size : Size) (data address : Fin 8) :
    Timed s raises (movepLoad size data address : Exec World Nat) := by
  refine plain_fetchDisplacement.andThen fun displacement => .bind .registers fun r _ => ?_
  refine (plain_loadAlternate _ _ _).andThen fun value => ?_
  refine (plain_update fun r' => r'.unprivileged_setDataPart data size value).andThen fun _ => .pure ?_
  exact Timing.within_bySize (by decide) (by decide) size

theorem plain_goTo (address : BitVec 32) : Plain s raises (goTo address : Exec World Unit) :=
  plain_update fun r => r.unprivileged_pc address

theorem plain_branchTarget (displacement : BitVec 8) :
    Plain s raises (branchTarget displacement : Exec World (BitVec 32)) := by
  refine .bind .registers fun r _ => ?_
  split
  · exact plain_fetchDisplacement.andThen fun _ => .pure trivial
  · exact .pure trivial

theorem timed_bcc (condition : Condition) (displacement : BitVec 8) :
    Timed s raises (bcc condition displacement : Exec World Nat) := by
  refine (plain_branchTarget displacement).andThen fun target => .bind ordinary_status fun old _ => ?_
  split
  · exact (plain_goTo target).andThen fun _ => .pure (by decide)
  · refine .pure ?_
    split <;> decide

theorem timed_bsr (displacement : BitVec 8) :
    Timed s raises (bsr displacement : Exec World Nat) := by
  refine (plain_branchTarget displacement).andThen fun target => .bind .registers fun r _ => ?_
  exact (plain_push .long r.pc).andThen fun _ => (plain_goTo target).andThen fun _ => .pure (by decide)

theorem timed_dbcc (condition : Condition) (n : Fin 8) :
    Timed s raises (dbcc condition n : Exec World Nat) := by
  refine (plain_branchTarget 0).andThen fun target => .bind .registers fun r _ => ?_
  split
  · exact .pure (by decide)
  · refine (plain_update fun r' => r'.unprivileged_setDataPart n .word _).andThen fun _ => ?_
    split
    · exact .pure (by decide)
    · exact (plain_goTo target).andThen fun _ => .pure (by decide)

theorem timed_scc (condition : Condition) {destination : AddressingMode}
    (alterable : destination.isAlterable = true) :
    Timed s raises (scc condition destination : Exec World Nat) := by
  refine .bind ordinary_status fun old _ => ?_
  refine .bind (ordinary_locate destination .byte) fun target located => ?_
  refine (plain_store (located.isWritable alterable) .byte _).andThen fun _ => .pure ?_
  split
  · split <;> decide
  · exact Timing.Within.add_operand (by decide) _ .byte

theorem timed_jmp {target : AddressingMode} (control : target.isControl = true) :
    Timed s raises (jmp target : Exec World Nat) := by
  refine (plain_effectiveAddress control).andThen fun address => ?_
  exact (plain_goTo address).andThen fun _ => .pure ((Timing.within_jmp target).mono (by decide))

theorem timed_jsr {target : AddressingMode} (control : target.isControl = true) :
    Timed s raises (jsr target : Exec World Nat) := by
  refine (plain_effectiveAddress control).andThen fun address => .bind .registers fun r _ => ?_
  refine (plain_push .long r.pc).andThen fun _ => (plain_goTo address).andThen fun _ => .pure ?_
  exact (Timing.within_jsr target).mono (by decide)

theorem timed_rts : Timed s raises (rts : Exec World Nat) :=
  (plain_pull .long).andThen fun address => (plain_goTo address).andThen fun _ => .pure (by decide)

theorem timed_rtr : Timed s raises (rtr : Exec World Nat) := by
  refine (plain_pull .word).andThen fun flags => (plain_pull .long).andThen fun pc => ?_
  refine (plain_update fun r => r.unprivileged_setConditionCodes _).andThen fun _ => ?_
  exact (plain_goTo pc).andThen fun _ => .pure (by decide)

theorem timed_trapv (traps : raises (.trap .overflow Timing.exception)) :
    Timed s raises (trapv : Exec World Nat) := by
  refine .bind ordinary_status fun old _ => ?_
  split
  · exact .throw traps
  · exact .pure (by decide)

theorem timed_logicToCcr (operation : LogicOperation) :
    Timed s raises (logicToCcr operation : Exec World Nat) := by
  refine plain_fetchWord.andThen fun value => .bind .registers fun r _ => ?_
  exact (plain_update fun r' => r'.unprivileged_setConditionCodes _).andThen fun _ => .pure (by decide)

theorem timed_moveFromSr {destination : AddressingMode} (alterable : destination.isAlterable = true) :
    Timed s raises (moveFromSr destination : Exec World Nat) := by
  refine .bind (ordinary_locate destination .word) fun target located => ?_
  refine .bind ordinary_status fun old _ => ?_
  refine (plain_store (located.isWritable alterable) .word _).andThen fun _ => .pure ?_
  exact Timing.within_readModifyWrite (by decide) (by decide) (by decide) (by decide) _ _

theorem timed_moveToCcr (source : AddressingMode) :
    Timed s raises (moveToCcr source : Exec World Nat) := by
  refine (plain_loadFrom source .word).andThen fun value => ?_
  refine (plain_update fun r => r.unprivileged_setConditionCodes _).andThen fun _ => .pure ?_
  exact Timing.Within.add_operand (by decide) source .word

end Exec

end MC68000
