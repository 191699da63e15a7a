import Core6502.Cpu.Basic

/-! # Commands

The operations of a processor on a bus, as data. A session is a list of
commands, and its trace is the turn of each command in order.
-/

namespace Core6502

/-- What the owner of a processor can do with it and with its bus. -/
inductive Command where
  | fetch
  | execute
  | step
  | setRegister (name : RegisterName) (value : Byte)
  | setPc (pc : Address)
  | setOperandOrder (order : OperandOrder)
  | read (address : Address)
  | write (address : Address) (value : Byte)
deriving DecidableEq

inductive Answer where
  | nothing
  | byte (value : Byte)
  | executed (result : Except ExecutionError Unit)
  | stepped (result : Except ExecutionError UInt64)

namespace Cpu

variable {β : Type} [Bus β]

/-- A turn that only changes the processor or its bus. -/
def quietly (cpu : Cpu β) : Turn β Answer :=
  { result := .nothing, cpu, reads := [], records := [] }

def perform (cpu : Cpu β) : Command → Turn β Answer
  | .fetch => cpu.fetch.map .byte
  | .execute => cpu.execute.map .executed
  | .step => cpu.step.map .stepped
  | .setRegister name value => (cpu.setRegister name value).quietly
  | .setPc pc => (cpu.setPc pc).quietly
  | .setOperandOrder order => (cpu.setOperandOrder order).quietly
  | .read address =>
      { result := .byte (Bus.read cpu.bus address), cpu, reads := [address], records := [] }
  | .write address value => (cpu.updateBus fun bus => Bus.write bus address value).quietly

def trace : Cpu β → List Command → List (Turn β Answer)
  | _, [] => []
  | cpu, command :: commands =>
      let turn := cpu.perform command
      turn :: turn.cpu.trace commands

def performAll (cpu : Cpu β) (commands : List Command) : Cpu β :=
  commands.foldl (fun cpu command => (cpu.perform command).cpu) cpu

end Cpu

end Core6502
