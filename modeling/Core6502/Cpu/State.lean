import Core6502.Opcode
import Core6502.Status
import Core6502.Text

/-! # Processor state

Everything that the processor holds itself, without the bus that it is attached
to.
-/

namespace Core6502

/-- At power-up everything is zero but the program counter. -/
@[ext]
structure CpuState where
  registers : Registers := {}
  pc : Address := Address.loadAddress
  /-- The byte fetched last, which the next execution decodes. -/
  opcode : Byte := 0
  status : Status := {}
  /-- Cycles charged since the last fetch. -/
  cycles : UInt64 := 0
  operandOrder : OperandOrder := .highFirst
deriving DecidableEq

namespace CpuState

def a (state : CpuState) : Byte := state.registers.get .a

def x (state : CpuState) : Byte := state.registers.get .x

def y (state : CpuState) : Byte := state.registers.get .y

def isNegative (state : CpuState) : Bool := state.status.contains Status.negative

def isZero (state : CpuState) : Bool := state.status.contains Status.zero

def isOverflow (state : CpuState) : Bool := state.status.contains Status.overflow

def isCarry (state : CpuState) : Bool := state.status.contains Status.carry

/-- Writes a register. Flags are not touched. -/
def setRegister (state : CpuState) (name : RegisterName) (value : Byte) : CpuState :=
  { state with registers := state.registers.set name value }

/-- The effect of an instruction on its operand: the target register takes the
value, the flags of the value are set, and the cycles are charged. -/
def load (state : CpuState) (instruction : Instruction) (operand : Operand) : CpuState :=
  { state with
    registers := state.registers.set instruction.target operand.value
    status := state.status.insert (.derive operand.value)
    cycles := state.cycles + .ofNat (instruction.cycles operand) }

/-- Registers and counter in decimal, addresses and the opcode in hexadecimal,
the status in binary. -/
def describe (state : CpuState) : String :=
  Text.fields "CPU" [
    ("a", toString state.a.toNat),
    ("x", toString state.x.toNat),
    ("y", toString state.y.toNat),
    ("pc", Text.hexAddress state.pc),
    ("opcode", Text.hexByte state.opcode),
    ("status", Text.binaryByte state.status.bits),
    ("cycles", toString state.cycles.toNat)]

end CpuState

end Core6502
