import Core6502.Cpu.Execution
import Core6502.Memory.Basic

/-! # The processor on a bus

A processor state together with the bus that its reads go to. The processor
never writes to its bus; only a caller does, through `updateBus`. A machine is a
processor whose bus is a memory and nothing else.
-/

namespace Core6502

structure Cpu (β : Type) extends CpuState where
  bus : β

/-- What an operation of a processor returned, the processor afterwards, and the
bus reads and log records on the way, in order. -/
structure Turn (β α : Type) where
  result : α
  cpu : Cpu β
  reads : List Address
  records : List LogRecord

def Turn.map {α β γ : Type} (convert : α → γ) (turn : Turn β α) : Turn β γ :=
  { turn with result := convert turn.result }

namespace Cpu

variable {α β : Type}

/-- A processor at power-up that starts at the given address. -/
def startAt (bus : β) (pc : Address) : Cpu β := { pc, bus }

def start (bus : β) : Cpu β := startAt bus Address.loadAddress

def setRegister (cpu : Cpu β) (name : RegisterName) (value : Byte) : Cpu β :=
  { cpu with toCpuState := cpu.toCpuState.setRegister name value }

def setPc (cpu : Cpu β) (pc : Address) : Cpu β := { cpu with pc }

def setOperandOrder (cpu : Cpu β) (operandOrder : OperandOrder) : Cpu β :=
  { cpu with operandOrder }

def updateBus (cpu : Cpu β) (update : β → β) : Cpu β := { cpu with bus := update cpu.bus }

section

variable [Bus β]

/-- Lets the processor work against its bus. -/
def act (work : Execution α) (cpu : Cpu β) : Turn β α :=
  let outcome := (work.run cpu.toCpuState).run (Bus.read cpu.bus)
  { result := outcome.result.1
    cpu := { cpu with toCpuState := outcome.result.2 }
    reads := outcome.reads
    records := outcome.records }

def fetch (cpu : Cpu β) : Turn β Byte := cpu.act Execution.fetch

def execute (cpu : Cpu β) : Turn β (Except ExecutionError Unit) := cpu.act Execution.execute

def step (cpu : Cpu β) : Turn β (Except ExecutionError UInt64) := cpu.act Execution.step

/-- The turns of `count` steps in a row, whatever each of them returns. -/
def steps : (count : Nat) → Cpu β → List (Turn β (Except ExecutionError UInt64))
  | 0, _ => []
  | count + 1, cpu =>
      let turn := cpu.step
      turn :: turn.cpu.steps count

@[simp] theorem bus_act (work : Execution α) (cpu : Cpu β) :
    (cpu.act work).cpu.bus = cpu.bus := rfl

end

end Cpu

abbrev Machine := Cpu Memory

namespace Machine

/-- A machine at power-up, with empty memory. -/
def start : Machine := Cpu.start {}

def loadProgram (machine : Machine) (program : List Byte) : Machine :=
  machine.updateBus fun memory => memory.load program

def describe (machine : Machine) : String :=
  Text.fields "Machine" [("cpu", machine.toCpuState.describe)]

end Machine

end Core6502
