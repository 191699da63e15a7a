import Core6502.AddressingMode

/-! # Instruction set

The eighteen load instructions and the byte that encodes each. Decoding is
computed from the list of opcodes, so encoding and decoding cannot disagree;
a byte that encodes none of them has no meaning to the processor.
-/

namespace Core6502

/-- What a decoded byte asks for: one register, loaded in one addressing mode. -/
structure Instruction where
  target : RegisterName
  mode : AddressingMode
deriving DecidableEq

namespace Instruction

/-- `LDA`, `LDX` or `LDY`. -/
def mnemonic (instruction : Instruction) : String := "LD" ++ instruction.target.letter

def baseCycles (instruction : Instruction) : Nat := instruction.mode.baseCycles

/-- The base cycles, and one more for a crossed page. -/
def cycles (instruction : Instruction) (operand : Operand) : Nat :=
  instruction.baseCycles + if operand.pageCrossed then 1 else 0

/-- Bytes of the encoded instruction, opcode included. -/
def size (instruction : Instruction) : Nat := 1 + instruction.mode.operandBytes

end Instruction

inductive Opcode where
  | ldaImmediate
  | ldaZeroPage
  | ldaZeroPageX
  | ldaAbsolute
  | ldaAbsoluteX
  | ldaAbsoluteY
  | ldaIndirectX
  | ldaIndirectY
  | ldxImmediate
  | ldxZeroPage
  | ldxZeroPageY
  | ldxAbsolute
  | ldxAbsoluteY
  | ldyImmediate
  | ldyZeroPage
  | ldyZeroPageX
  | ldyAbsolute
  | ldyAbsoluteX
deriving DecidableEq

namespace Opcode

def all : List Opcode := [
  .ldaImmediate, .ldaZeroPage, .ldaZeroPageX, .ldaAbsolute, .ldaAbsoluteX, .ldaAbsoluteY,
  .ldaIndirectX, .ldaIndirectY,
  .ldxImmediate, .ldxZeroPage, .ldxZeroPageY, .ldxAbsolute, .ldxAbsoluteY,
  .ldyImmediate, .ldyZeroPage, .ldyZeroPageX, .ldyAbsolute, .ldyAbsoluteX]

def byte : Opcode → Byte
  | .ldaImmediate => 0xA9
  | .ldaZeroPage => 0xA5
  | .ldaZeroPageX => 0xB5
  | .ldaAbsolute => 0xAD
  | .ldaAbsoluteX => 0xBD
  | .ldaAbsoluteY => 0xB9
  | .ldaIndirectX => 0xA1
  | .ldaIndirectY => 0xB1
  | .ldxImmediate => 0xA2
  | .ldxZeroPage => 0xA6
  | .ldxZeroPageY => 0xB6
  | .ldxAbsolute => 0xAE
  | .ldxAbsoluteY => 0xBE
  | .ldyImmediate => 0xA0
  | .ldyZeroPage => 0xA4
  | .ldyZeroPageX => 0xB4
  | .ldyAbsolute => 0xAC
  | .ldyAbsoluteX => 0xBC

def instruction : Opcode → Instruction
  | .ldaImmediate => ⟨.a, .immediate⟩
  | .ldaZeroPage => ⟨.a, .zeroPage⟩
  | .ldaZeroPageX => ⟨.a, .zeroPageX⟩
  | .ldaAbsolute => ⟨.a, .absolute⟩
  | .ldaAbsoluteX => ⟨.a, .absoluteX⟩
  | .ldaAbsoluteY => ⟨.a, .absoluteY⟩
  | .ldaIndirectX => ⟨.a, .indirectX⟩
  | .ldaIndirectY => ⟨.a, .indirectY⟩
  | .ldxImmediate => ⟨.x, .immediate⟩
  | .ldxZeroPage => ⟨.x, .zeroPage⟩
  | .ldxZeroPageY => ⟨.x, .zeroPageY⟩
  | .ldxAbsolute => ⟨.x, .absolute⟩
  | .ldxAbsoluteY => ⟨.x, .absoluteY⟩
  | .ldyImmediate => ⟨.y, .immediate⟩
  | .ldyZeroPage => ⟨.y, .zeroPage⟩
  | .ldyZeroPageX => ⟨.y, .zeroPageX⟩
  | .ldyAbsolute => ⟨.y, .absolute⟩
  | .ldyAbsoluteX => ⟨.y, .absoluteX⟩

/-- The opcode that a byte encodes. -/
def ofByte? (byte : Byte) : Option Opcode := all.find? fun opcode => opcode.byte == byte

theorem mem_all (opcode : Opcode) : opcode ∈ all := by
  cases opcode <;> decide

@[simp] theorem ofByte?_byte (opcode : Opcode) : ofByte? opcode.byte = some opcode := by
  cases opcode <;> decide

theorem byte_of_ofByte?_eq_some {byte : Byte} {opcode : Opcode}
    (hopcode : ofByte? byte = some opcode) : opcode.byte = byte := by
  simpa using List.find?_some hopcode

theorem ofByte?_eq_some_iff {byte : Byte} {opcode : Opcode} :
    ofByte? byte = some opcode ↔ opcode.byte = byte :=
  ⟨byte_of_ofByte?_eq_some, fun h => h ▸ ofByte?_byte opcode⟩

theorem byte_injective {first second : Opcode} (h : first.byte = second.byte) :
    first = second := by
  have hfirst := ofByte?_byte first
  rw [h, ofByte?_byte] at hfirst
  exact (Option.some.inj hfirst).symm

end Opcode

namespace Instruction

/-- The instruction that a byte asks for, if it is an opcode. -/
def ofByte? (byte : Byte) : Option Instruction := (Opcode.ofByte? byte).map Opcode.instruction

@[simp] theorem ofByte?_byte (opcode : Opcode) : ofByte? opcode.byte = some opcode.instruction := by
  rw [ofByte?, Opcode.ofByte?_byte, Option.map_some]

theorem ofByte?_eq_some_iff {byte : Byte} {instruction : Instruction} :
    ofByte? byte = some instruction ↔
      ∃ opcode : Opcode, opcode.byte = byte ∧ opcode.instruction = instruction := by
  simp only [ofByte?, Option.map_eq_some_iff, Opcode.ofByte?_eq_some_iff]

theorem ofByte?_eq_none_iff {byte : Byte} :
    ofByte? byte = none ↔ ∀ opcode : Opcode, opcode.byte ≠ byte := by
  rw [ofByte?, Option.map_eq_none_iff, Option.eq_none_iff_forall_ne_some]
  simp only [ne_eq, Opcode.ofByte?_eq_some_iff]

/-- The decoding of every byte, by its value. -/
def table : Vector (Option Instruction) 256 := Vector.ofFn fun index => ofByte? (.ofNat index)

@[simp] theorem table_get (byte : Byte) : table.get byte.toFin = ofByte? byte := by
  have hbyte : byte.toNat < 256 := byte.toNat_lt
  change table[byte.toNat] = _
  simp [table]

end Instruction

end Core6502
