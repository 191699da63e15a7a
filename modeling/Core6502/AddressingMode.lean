import Core6502.Register

/-! # Addressing modes

What the instruction tables declare about each mode: how many operand bytes
follow the opcode, how many cycles a load takes, which register indexes the
address, and whether leaving a page costs a cycle. What a mode yields when an
instruction runs is its operand.
-/

namespace Core6502

/-- Where an instruction finds the byte that it loads. -/
inductive AddressingMode where
  | immediate
  | zeroPage
  | zeroPageX
  | zeroPageY
  | absolute
  | absoluteX
  | absoluteY
  | indirectX
  | indirectY
deriving DecidableEq

namespace AddressingMode

def name : AddressingMode → String
  | .immediate => "Immediate"
  | .zeroPage => "ZeroPage"
  | .zeroPageX => "ZeroPageX"
  | .zeroPageY => "ZeroPageY"
  | .absolute => "Absolute"
  | .absoluteX => "AbsoluteX"
  | .absoluteY => "AbsoluteY"
  | .indirectX => "IndirectX"
  | .indirectY => "IndirectY"

/-- Bytes after the opcode. -/
def operandBytes : AddressingMode → Nat
  | .absolute | .absoluteX | .absoluteY => 2
  | _ => 1

/-- Cycles of a load that stays in its page. -/
def baseCycles : AddressingMode → Nat
  | .immediate => 2
  | .zeroPage => 3
  | .zeroPageX | .zeroPageY => 4
  | .absolute | .absoluteX | .absoluteY => 4
  | .indirectX => 6
  | .indirectY => 5

/-- The only register that the effective address depends on. -/
def indexRegister : AddressingMode → Option RegisterName
  | .zeroPageX | .absoluteX | .indirectX => some .x
  | .zeroPageY | .absoluteY | .indirectY => some .y
  | .immediate | .zeroPage | .absolute => none

/-- A load takes one cycle more when indexing leaves the page of its base. -/
def canCrossPage : AddressingMode → Bool
  | .absoluteX | .absoluteY | .indirectY => true
  | _ => false

end AddressingMode

/-- The byte to load, together with where it was found. -/
inductive Operand where
  /-- The byte followed the opcode. -/
  | immediate (value : Byte)
  /-- The byte was read at an effective address. -/
  | atAddress (address : Address) (value : Byte) (pageCrossed : Bool)
deriving DecidableEq

namespace Operand

def value : Operand → Byte
  | .immediate value => value
  | .atAddress _ value _ => value

def address? : Operand → Option Address
  | .immediate _ => none
  | .atAddress address _ _ => some address

/-- Indexing left the page of its base, in a mode that charges for it. -/
def pageCrossed : Operand → Bool
  | .immediate _ => false
  | .atAddress _ _ pageCrossed => pageCrossed

end Operand

end Core6502
