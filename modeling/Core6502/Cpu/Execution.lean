import Core6502.Activity
import Core6502.Cpu.State

/-! # Fetching and executing instructions

The processor at work, as activities that carry its state. Fetching reads the
opcode at the program counter; executing reads the operand bytes that follow,
then whatever the addressing mode asks for, and loads the target register. An
opcode without a meaning leaves the state as it is.
-/

namespace Core6502

/-- Why an instruction could not be executed. -/
inductive ExecutionError where
  /-- The pending byte encodes no instruction. -/
  | unimplementedOpcode (opcode : Byte)
deriving DecidableEq

namespace ExecutionError

def message : ExecutionError → String
  | .unimplementedOpcode opcode => "Opcode " ++ Text.hexByte opcode ++ " is not implemented"

/-- The text that names the cause, with the opcode in decimal. -/
def describe : ExecutionError → String
  | .unimplementedOpcode opcode => s!"UnimplementedOpcode({opcode.toNat})"

end ExecutionError

/-- Work that changes the processor state and reads the bus on the way. -/
abbrev Execution := StateT CpuState Activity

namespace Execution

def readByte (address : Address) : Execution Byte := fun state =>
  .read address fun byte => .done (byte, state)

def emit (record : LogRecord) : Execution Unit := fun state =>
  .emit record (.done ((), state))

/-- Reads the byte at the program counter and moves past it. -/
def nextByte : Execution Byte := do
  let byte ← readByte (← get).pc
  modify fun state => { state with pc := state.pc + 1 }
  return byte

/-- Reads a two-byte address at the program counter and moves past it. -/
def nextAddress : Execution Address := do
  let first ← nextByte
  let second ← nextByte
  return (← get).operandOrder.combine first second

/-- Reads the operand at an address that no index carried out of its page. -/
def operandAt (address : Address) : Execution Operand := do
  return .atAddress address (← readByte address) false

/-- Reads the operand at an indexed address. The sum wraps at the end of
memory. -/
def operandIndexed (base : Address) (index : Byte) : Execution Operand := do
  let address := base + index.toUInt16
  return .atAddress address (← readByte address) (base.pagesCrossed index)

/-- Reads the operand of an instruction in the given mode. Pointers are single
bytes in page zero: the first indirect mode adds the byte at the operand to the
byte at the index, and the second indexes the address that the byte at the
operand names. -/
def locate (mode : AddressingMode) : Execution Operand := do
  let state ← get
  match mode with
  | .immediate => return .immediate (← nextByte)
  | .zeroPage => operandAt (.zeroPage (← nextByte))
  | .zeroPageX => operandAt (.zeroPage (zeroPageWrap (← nextByte) state.x))
  | .zeroPageY => operandAt (.zeroPage (zeroPageWrap (← nextByte) state.y))
  | .absolute => operandAt (← nextAddress)
  | .absoluteX => operandIndexed (← nextAddress) state.x
  | .absoluteY => operandIndexed (← nextAddress) state.y
  | .indirectX =>
      let pointer ← nextByte
      let atPointer ← readByte (.zeroPage pointer)
      let atIndex ← readByte (.zeroPage state.x)
      operandAt (.zeroPage (zeroPageWrap atPointer atIndex))
  | .indirectY =>
      let pointer ← nextByte
      let base ← readByte (.zeroPage pointer)
      operandIndexed (.zeroPage base) state.y

def resolve (mode : AddressingMode) : Execution Operand := do
  let operand ← locate mode
  emit (.resolved mode operand)
  return operand

/-- Reads the next opcode, which becomes the pending one, and restarts the cycle
counter. -/
def fetch : Execution Byte := do
  let address := (← get).pc
  let opcode ← nextByte
  modify fun state => { state with opcode, cycles := 0 }
  emit (.fetched opcode address)
  return opcode

def execute : Execution (Except ExecutionError Unit) := do
  let state ← get
  match Instruction.ofByte? state.opcode with
  | none =>
      emit (.unimplemented state.opcode state.pc)
      return .error (.unimplementedOpcode state.opcode)
  | some instruction =>
      modify fun state => { state with status := state.status.clear }
      let operand ← resolve instruction.mode
      modify fun state => state.load instruction operand
      let after ← get
      emit (.loaded instruction operand.value after.status after.cycles)
      return .ok ()

/-- Fetches an opcode and executes it. The result is the cycles that the
instruction took. -/
def step : Execution (Except ExecutionError UInt64) := do
  let _ ← fetch
  match ← execute with
  | .ok () => return .ok (← get).cycles
  | .error error => return .error error

end Execution

end Core6502
