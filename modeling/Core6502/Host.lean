import Core6502.Cpu.Basic

/-! # Machines for a host

A machine as it is offered to an embedding host, whose integers are 32 bits wide
and whose errors are plain messages. Calls of the host are data, so that a
session is a list of calls.
-/

namespace Core6502

/-- An error as a host sees it. -/
structure HostError where
  message : String
deriving DecidableEq

def ExecutionError.toHostError (error : ExecutionError) : HostError := ⟨error.message⟩

structure HostMachine where
  machine : Machine := .start

namespace HostMachine

variable (host : HostMachine)

def a : Byte := host.machine.a

def x : Byte := host.machine.x

def y : Byte := host.machine.y

def pc : Address := host.machine.pc

def status : Byte := host.machine.status.bits

/-- The low 32 bits of the cycle counter. -/
def cycles : UInt32 := host.machine.cycles.toUInt32

def isNegative : Bool := host.machine.isNegative

def isZero : Bool := host.machine.isZero

def updateMemory (update : Memory → Memory) : HostMachine :=
  ⟨host.machine.updateBus update⟩

def append (value : Byte) : HostMachine := host.updateMemory fun memory => memory.append value

def loadProgram (program : List Byte) : HostMachine :=
  ⟨Machine.loadProgram host.machine program⟩

def read (address : Address) : Byte := host.machine.bus.read address

def write (address : Address) (value : Byte) : HostMachine :=
  host.updateMemory fun memory => memory.write address value

def setX (value : Byte) : HostMachine := ⟨host.machine.setRegister .x value⟩

def setY (value : Byte) : HostMachine := ⟨host.machine.setRegister .y value⟩

def fetch : Byte × HostMachine :=
  let turn := host.machine.fetch
  (turn.result, ⟨turn.cpu⟩)

/-- Whether the pending opcode could be executed. -/
def execute : Bool × HostMachine :=
  let turn := host.machine.execute
  (turn.result.isOk, ⟨turn.cpu⟩)

/-- The cycles of one instruction in 32 bits, or the text of its error. -/
def step : Except HostError UInt32 × HostMachine :=
  let turn := host.machine.step
  let result := match turn.result with
    | .ok cycles => .ok cycles.toUInt32
    | .error error => .error error.toHostError
  (result, ⟨turn.cpu⟩)

end HostMachine

inductive HostCall where
  | append (value : Byte)
  | loadProgram (program : List Byte)
  | read (address : Address)
  | write (address : Address) (value : Byte)
  | fetch
  | execute
  | step
  | setX (value : Byte)
  | setY (value : Byte)

inductive HostReply where
  | nothing
  | byte (value : Byte)
  | executed (success : Bool)
  | stepped (result : Except HostError UInt32)

namespace HostMachine

def call (host : HostMachine) : HostCall → HostReply × HostMachine
  | .append value => (.nothing, host.append value)
  | .loadProgram program => (.nothing, host.loadProgram program)
  | .read address => (.byte (host.read address), host)
  | .write address value => (.nothing, host.write address value)
  | .fetch => host.fetch.map .byte id
  | .execute => host.execute.map .executed id
  | .step => host.step.map .stepped id
  | .setX value => (.nothing, host.setX value)
  | .setY value => (.nothing, host.setY value)

end HostMachine

end Core6502
