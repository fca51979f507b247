import MC68000.Proofs.Settling.Arithmetic
import MC68000.Proofs.Settling.Transfer

set_option autoImplicit false

namespace MC68000

variable {World : Type}

namespace Instruction

/-- The bits of the status word that an instruction leaves alone where one of its accesses fails. -/
def keptBits : Instruction → StatusWord
  | tas _ => .besides .resultFlags
  | bitLiteral operation _ | bitRegister operation _ _ => operation.kept
  | _ => BitVec.allOnes 16

/-- The instruction leaves the data registers alone where one of its accesses fails. -/
def KeepsData : Instruction → Prop
  | movemLoad _ _ => False
  | _ => True

open Exec in
theorem settles_execute {instruction : Instruction} (encodable : instruction.Encodable)
    (running : instruction ≠ .stop) :
    Settles instruction.keptBits instruction.KeepsData 1
      (instruction.execute : Exec World Nat) := by
  cases instruction with
  | illegal => exact Silent.settles (.throw id)
  | illegalPrivileged => exact accesses_requirePrivilege.settles fun _ => Silent.settles (.throw id)
  | illegalExtended => exact accesses_fetchWord.settles fun _ => Silent.settles (.throw id)
  | lineA => exact Silent.settles (.throw id)
  | lineF => exact Silent.settles (.throw id)
  | immediate operation size destination => exact settles_immediate operation size destination
  | logicToCcr operation => exact settles_logicToCcr operation
  | logicToSr operation => exact settles_logicToSr operation
  | bitLiteral operation destination => exact settles_bitLiteral operation destination
  | bitRegister operation n destination => exact settles_bitRegister operation n destination
  | movepStore size n address => exact settles_movepStore size n address
  | movepLoad size n address => exact settles_movepLoad size n address
  | move size source destination => exact settles_move size source destination
  | movea size source n => exact settles_movea size source n
  | moveq value n => exact settles_moveq value n
  | unary operation size destination => exact settles_unary operation size destination
  | nbcd destination => exact settles_nbcd destination
  | tst size source => exact settles_tst size source
  | tas destination => exact settles_tas destination
  | swap n => exact settles_swap n
  | ext size n => exact settles_ext size n
  | lea source n => exact settles_lea encodable n
  | pea source => exact settles_pea encodable
  | chk bound n => exact settles_chk bound n
  | jmp target => exact settles_jmp encodable
  | jsr target => exact settles_jsr encodable
  | link n => exact settles_link n
  | unlk n => exact settles_unlk n
  | movemStore size destination => exact settles_movemStore size encodable
  | movemLoad size source => exact settles_movemLoad size encodable
  | moveFromSr destination => exact settles_moveFromSr destination
  | moveToCcr source => exact settles_moveToCcr source
  | moveToSr source => exact settles_moveToSr source
  | moveToUsp n => exact settles_moveToUsp n
  | moveFromUsp n => exact settles_moveFromUsp n
  | trap n => exact Silent.settles (.throw id)
  | trapv => exact settles_trapv
  | reset => exact settles_reset
  | nop => exact Silent.settles (.pure (by decide))
  | stop => exact absurd rfl running
  | rte => exact settles_rte
  | rts => exact settles_rts
  | rtr => exact settles_rtr
  | quick operation size value destination => exact settles_quick operation size value destination
  | scc condition destination => exact settles_scc condition destination
  | dbcc condition n => exact settles_dbcc condition n
  | bcc condition displacement => exact settles_bcc condition displacement
  | bsr displacement => exact settles_bsr displacement
  | sumToRegister operation size source n => exact settles_sumToRegister operation size source n
  | sumToMemory operation size n destination => exact settles_sumToMemory operation size n destination
  | sumToAddress operation size source n => exact settles_sumToAddress operation size source n
  | extendedRegisters operation size x y => exact settles_extendedRegisters operation size x y
  | extendedMemory operation size x y => exact settles_extendedMemory operation size x y
  | cmp size source n => exact settles_cmp size source n
  | cmpa size source n => exact settles_cmpa size source n
  | cmpm size x y => exact settles_cmpm size x y
  | logicToRegister operation size source n => exact settles_logicToRegister operation size source n
  | logicToMemory operation size n destination =>
    exact settles_logicToMemory operation size n destination
  | eor size n destination => exact settles_eor size n destination
  | mulu source n => exact settles_mulu source n
  | muls source n => exact settles_muls source n
  | divu source n =>
    exact settles_divide source n _ fun x y => (Timing.within_divu x y).2.1
  | divs source n =>
    exact settles_divide source n _ fun x y => (Timing.within_divs x y).2.1
  | decimalRegisters operation x y => exact settles_decimalRegisters operation x y
  | decimalMemory operation x y => exact settles_decimalMemory operation x y
  | exg x y => exact settles_exg x y
  | shiftRegister kind direction size count n =>
    exact settles_shiftRegister kind direction size count n
  | shiftMemory kind direction destination => exact settles_shiftMemory kind direction destination

end Instruction

end MC68000
