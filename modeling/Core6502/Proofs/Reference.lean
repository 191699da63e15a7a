import Core6502.Cpu.Command

/-! # The reference machine

The documented load instructions over natural numbers: an opcode table, a
formula for the value and for the cycles of each addressing mode, and every
wraparound written as a remainder.
-/

namespace Core6502

/-- The state of the reference machine and the bus that it is attached to. -/
structure Reference (β : Type) where
  a : Nat
  x : Nat
  y : Nat
  pc : Nat
  opcode : Nat
  status : Nat
  cycles : Nat
  operandOrder : OperandOrder
  bus : β

namespace Reference

/-- The documented opcodes: the register and the addressing mode of each. -/
def decode : Nat → Option (RegisterName × AddressingMode)
  | 0xA9 => some (.a, .immediate)
  | 0xA5 => some (.a, .zeroPage)
  | 0xB5 => some (.a, .zeroPageX)
  | 0xAD => some (.a, .absolute)
  | 0xBD => some (.a, .absoluteX)
  | 0xB9 => some (.a, .absoluteY)
  | 0xA1 => some (.a, .indirectX)
  | 0xB1 => some (.a, .indirectY)
  | 0xA2 => some (.x, .immediate)
  | 0xA6 => some (.x, .zeroPage)
  | 0xB6 => some (.x, .zeroPageY)
  | 0xAE => some (.x, .absolute)
  | 0xBE => some (.x, .absoluteY)
  | 0xA0 => some (.y, .immediate)
  | 0xA4 => some (.y, .zeroPage)
  | 0xB4 => some (.y, .zeroPageX)
  | 0xAC => some (.y, .absolute)
  | 0xBC => some (.y, .absoluteX)
  | _ => none

def size : AddressingMode → Nat
  | .absolute | .absoluteX | .absoluteY => 3
  | _ => 2

/-- The cycle that an index costs when it carries out of the low byte. -/
def penalty (base index : Nat) : Nat := if 256 ≤ base % 256 + index then 1 else 0

/-- Bit 7 for a value of at least 128, and bit 1 for zero. -/
def flags (value : Nat) : Nat :=
  (if 128 ≤ value then 128 else 0) + (if value = 0 then 2 else 0)

variable {β : Type}

def setRegister (machine : Reference β) (name : RegisterName) (value : Nat) : Reference β :=
  match name with
  | .a => { machine with a := value }
  | .x => { machine with x := value }
  | .y => { machine with y := value }

variable [Bus β] (machine : Reference β)

def mem (address : Nat) : Nat := (Bus.read machine.bus (.ofNat address)).toNat

def first : Nat := machine.mem ((machine.pc + 1) % 65536)

def second : Nat := machine.mem ((machine.pc + 2) % 65536)

/-- The two bytes after the opcode as an address. -/
def word : Nat :=
  match machine.operandOrder with
  | .highFirst => 256 * machine.first + machine.second
  | .lowFirst => 256 * machine.second + machine.first

/-- The byte that an instruction at the program counter loads. -/
def value : AddressingMode → Nat
  | .immediate => machine.first
  | .zeroPage => machine.mem machine.first
  | .zeroPageX => machine.mem ((machine.first + machine.x) % 256)
  | .zeroPageY => machine.mem ((machine.first + machine.y) % 256)
  | .absolute => machine.mem machine.word
  | .absoluteX => machine.mem ((machine.word + machine.x) % 65536)
  | .absoluteY => machine.mem ((machine.word + machine.y) % 65536)
  | .indirectX =>
      machine.mem ((machine.mem machine.first + machine.mem machine.x) % 256)
  | .indirectY => machine.mem (machine.mem machine.first + machine.y)

def cost : AddressingMode → Nat
  | .immediate => 2
  | .zeroPage => 3
  | .zeroPageX | .zeroPageY | .absolute => 4
  | .absoluteX => 4 + penalty machine.word machine.x
  | .absoluteY => 4 + penalty machine.word machine.y
  | .indirectX => 6
  | .indirectY => 5 + penalty (machine.mem machine.first) machine.y

/-- One instruction. The result is the cycles that it took, or the byte at the
program counter when that is no opcode. -/
def step : Except Nat Nat × Reference β :=
  let opcode := machine.mem machine.pc
  match decode opcode with
  | none => (.error opcode, { machine with pc := (machine.pc + 1) % 65536, opcode, cycles := 0 })
  | some (target, mode) =>
      (.ok (machine.cost mode),
        { machine.setRegister target (machine.value mode) with
          pc := (machine.pc + size mode) % 65536
          opcode
          status := flags (machine.value mode)
          cycles := machine.cost mode })

/-- What an owner does with a machine that runs whole instructions. -/
inductive Operation where
  | step
  | setRegister (name : RegisterName) (value : Byte)
  | setPc (pc : Address)
  | setOperandOrder (order : OperandOrder)
  | write (address : Address) (value : Byte)

def Operation.command : Operation → Command
  | .step => .step
  | .setRegister name value => .setRegister name value
  | .setPc pc => .setPc pc
  | .setOperandOrder order => .setOperandOrder order
  | .write address value => .write address value

inductive Report where
  | nothing
  | stepped (result : Except Nat Nat)

def perform : Operation → Report × Reference β
  | .step => (.stepped machine.step.1, machine.step.2)
  | .setRegister name value => (.nothing, machine.setRegister name value.toNat)
  | .setPc pc => (.nothing, { machine with pc := pc.toNat })
  | .setOperandOrder operandOrder => (.nothing, { machine with operandOrder })
  | .write address value => (.nothing, { machine with bus := Bus.write machine.bus address value })

/-- The report of each operation and the machine after it. -/
def trace : Reference β → List Operation → List (Report × Reference β)
  | _, [] => []
  | machine, operation :: operations =>
      let outcome := machine.perform operation
      outcome :: outcome.2.trace operations

end Reference

end Core6502
