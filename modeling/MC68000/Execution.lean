import MC68000.Execution.Arithmetic
import MC68000.Execution.Control
import MC68000.Execution.Flow
import MC68000.Execution.Transfer

set_option autoImplicit false

namespace MC68000

variable {World : Type}

/-- Executes an instruction whose opcode has been fetched, and gives its cost. -/
def Instruction.execute : Instruction → Exec World Nat
  | .illegal => throw .illegal
  | .illegalPrivileged => do Exec.requirePrivilege; throw .illegal
  | .illegalExtended => do let _ ← Exec.fetchWord; throw .illegal
  | .lineA => throw .lineA
  | .lineF => throw .lineF
  | .immediate operation size destination => Exec.immediate operation size destination
  | .logicToCcr operation => Exec.logicToCcr operation
  | .logicToSr operation => Exec.logicToSr operation
  | .bitLiteral operation destination => Exec.bitLiteral operation destination
  | .bitRegister operation n destination => Exec.bitRegister operation n destination
  | .movepStore size data address => Exec.movepStore size data address
  | .movepLoad size data address => Exec.movepLoad size data address
  | .move size source destination => Exec.move size source destination
  | .movea size source n => Exec.movea size source n
  | .moveq value n => Exec.moveq value n
  | .unary operation size destination => Exec.unary operation size destination
  | .nbcd destination => Exec.nbcd destination
  | .tst size source => Exec.tst size source
  | .tas destination => Exec.tas destination
  | .swap n => Exec.swap n
  | .ext size n => Exec.ext size n
  | .lea source n => Exec.lea source n
  | .pea source => Exec.pea source
  | .chk bound n => Exec.chk bound n
  | .jmp target => Exec.jmp target
  | .jsr target => Exec.jsr target
  | .link n => Exec.link n
  | .unlk n => Exec.unlk n
  | .movemStore size destination => Exec.movemStore size destination
  | .movemLoad size source => Exec.movemLoad size source
  | .moveFromSr destination => Exec.moveFromSr destination
  | .moveToCcr source => Exec.moveToCcr source
  | .moveToSr source => Exec.moveToSr source
  | .moveToUsp n => Exec.moveToUsp n
  | .moveFromUsp n => Exec.moveFromUsp n
  | .trap n => throw (.trap (.trap n) Timing.exception)
  | .trapv => Exec.trapv
  | .reset => Exec.reset
  | .nop => return 4
  | .stop => Exec.stop
  | .rte => Exec.rte
  | .rts => Exec.rts
  | .rtr => Exec.rtr
  | .quick operation size value destination => Exec.quick operation size value destination
  | .scc condition destination => Exec.scc condition destination
  | .dbcc condition n => Exec.dbcc condition n
  | .bcc condition displacement => Exec.bcc condition displacement
  | .bsr displacement => Exec.bsr displacement
  | .sumToRegister operation size source n => Exec.sumToRegister operation size source n
  | .sumToMemory operation size n destination => Exec.sumToMemory operation size n destination
  | .sumToAddress operation size source n => Exec.sumToAddress operation size source n
  | .extendedRegisters operation size x y => Exec.extendedRegisters operation size x y
  | .extendedMemory operation size x y => Exec.extendedMemory operation size x y
  | .cmp size source n => Exec.cmp size source n
  | .cmpa size source n => Exec.cmpa size source n
  | .cmpm size x y => Exec.cmpm size x y
  | .logicToRegister operation size source n => Exec.logicToRegister operation size source n
  | .logicToMemory operation size n destination => Exec.logicToMemory operation size n destination
  | .eor size n destination => Exec.eor size n destination
  | .mulu source n => Exec.mulu source n
  | .muls source n => Exec.muls source n
  | .divu source n => Exec.divu source n
  | .divs source n => Exec.divs source n
  | .decimalRegisters operation x y => Exec.decimalRegisters operation x y
  | .decimalMemory operation x y => Exec.decimalMemory operation x y
  | .exg x y => Exec.exg x y
  | .shiftRegister kind direction size count n => Exec.shiftRegister kind direction size count n
  | .shiftMemory kind direction destination => Exec.shiftMemory kind direction destination

end MC68000
