import Mathlib.Data.Fintype.Basic
import Mathlib.Tactic.FinCases
import MC68000.Proofs.RegisterLists.Images

set_option autoImplicit false

namespace MC68000

variable {World : Type}

namespace Registers

variable {r source : Registers} {register other : Register}

theorem get_set_self (general : register.IsGeneral) (value : BitVec 32) :
    (r.set register value).get register = value := by
  cases register with
  | data n => exact Vector.getElem_setIfInBounds_self n.isLt
  | address n => exact r.get_setAddress n value
  | shadow => exact general.elim
  | pc => exact general.elim
  | status => exact general.elim

theorem get_set_of_ne (general : register.IsGeneral) (ne : other ≠ register) (value : BitVec 32) :
    (r.set register value).get other = r.get other := by
  cases register with
  | data n =>
    cases other with
    | data k =>
      apply Vector.getElem_setIfInBounds_ne
      exact fun same => ne (congrArg Register.data (Fin.ext same.symm))
    | _ => rfl
  | address n =>
    cases other with
    | address k =>
      apply Vector.getElem_setIfInBounds_ne
      exact fun same => ne (congrArg Register.address (Fin.ext same.symm))
    | _ => rfl
  | shadow => exact general.elim
  | pc => exact general.elim
  | status => exact general.elim

theorem get_setAddress_of_ne {n : Fin 8} (ne : other ≠ .address n) (value : BitVec 32) :
    (r.setAddress n value).get other = r.get other :=
  get_set_of_ne (show Register.IsGeneral (.address n) from trivial) ne value

end Registers

namespace Exec

section loops
variable {m : Machine World} {low : BitVec 32}

end loops

end Exec

/-- Where an address register points once it has been lowered by a long for each register of a list. -/
def Registers.lowered (r : Registers) (n : Fin 8) (list : List Register) : BitVec 32 :=
  r.a.get n - BitVec.ofNat 32 (4 * list.length)

namespace Machine

/-- The next instruction has this opcode, and this word follows it. -/
structure Fetches (m : Machine World) (opcode extension : BitVec 16) : Prop where
  even : m.registers.pc.getLsbD 0 = false
  opcode : m.memory.readWord m.programSpace m.registers.pc m.host = .ok opcode m.host
  extension : m.memory.readWord m.programSpace (m.registers.pc + 2) m.host = .ok extension m.host

end Machine

namespace Registers
variable {r r' : Registers} {n : Fin 8} {list : List Register}

end Registers

section zip
variable {cells : List LongCell} {list : List Register} (count : cells.length = list.length)
include count

end zip

namespace Exec

variable {m : Machine World} {n : Fin 8} {mask : BitVec 16} {cells : List LongCell}

theorem nextInstruction_of_fetches {opcode extension : BitVec 16} (fetches : m.Fetches opcode extension) :
    ∃ m₁ m₂ : Machine World, nextInstruction m = (Instruction.decode opcode).execute m₁ ∧
      fetchWord m₁ = .ok extension m₂ ∧
      Machine.Becomes { m with opcode } { m.registers with pc := m.registers.pc + 4 } m.host.ram m₂ := by
  obtain ⟨m₁, next, becomes⟩ := nextInstruction_of_found fetches.even fetches.opcode
  have space : m₁.programSpace = m.programSpace := by
    rw [Machine.programSpace, becomes.registers]
    rfl
  have found : m₁.memory.readWord m₁.programSpace m₁.registers.pc m₁.host = .ok extension m₁.host := by
    rw [space, becomes.memory, becomes.host, becomes.registers]
    exact fetches.extension
  obtain ⟨m₂, fetched, after⟩ := fetchWord_of_found (m := { m₁ with opcode })
    (by rw [becomes.registers]; exact even_add fetches.even rfl) found
  have begun : Machine.Becomes { m with opcode } { m.registers with pc := m.registers.pc + 2 }
      m.host.ram { m₁ with opcode } := by
    rw [Machine.Becomes] at becomes ⊢
    rw [becomes]
  refine ⟨{ m₁ with opcode }, m₂, next, fetched, ?_⟩
  rw [becomes.registers, becomes.host_ram] at after
  rw [← add_two_add_two m.registers.pc]
  exact begun.trans after

end Exec

end MC68000
