import Core6502.Opcode
import Core6502.Status
import Core6502.Text

/-! # Log records

What the processor reports about its own work. Every record belongs to a level,
and a reader who asks for a level receives the records of that level and of
those above it.
-/

namespace Core6502

/-- How detailed a log is, the briefest level first. -/
inductive LogLevel where
  | warn
  | debug
  | trace
deriving DecidableEq

namespace LogLevel

def detail : LogLevel → Nat
  | .warn => 0
  | .debug => 1
  | .trace => 2

/-- A log kept at level `maximum` shows records of this level. -/
def shownAt (level maximum : LogLevel) : Bool := level.detail ≤ maximum.detail

end LogLevel

inductive LogRecord where
  | fetched (opcode : Byte) (address : Address)
  /-- An instruction found the byte that it loads. -/
  | resolved (mode : AddressingMode) (operand : Operand)
  /-- An instruction loaded its register, with the status and the cycle counter
  as they are afterwards. -/
  | loaded (instruction : Instruction) (value : Byte) (status : Status) (cycles : UInt64)
  | unimplemented (opcode : Byte) (pc : Address)
deriving DecidableEq

namespace LogRecord

def level : LogRecord → LogLevel
  | .fetched _ _ => .trace
  | .resolved _ _ => .trace
  | .loaded _ _ _ _ => .debug
  | .unimplemented _ _ => .warn

def message : LogRecord → String
  | .fetched opcode address =>
      "fetch " ++ Text.hexByte opcode ++ " at " ++ Text.hexAddress address
  | .resolved mode (.immediate value) =>
      mode.name ++ " operand " ++ Text.hexByte value
  | .resolved mode (.atAddress address value pageCrossed) =>
      mode.name ++ " effective address " ++ Text.hexAddress address ++ " -> " ++
        Text.hexByte value ++ if pageCrossed then " (page crossed)" else ""
  | .loaded instruction value status cycles =>
      instruction.mnemonic ++ " " ++ instruction.mode.name ++ " -> " ++
        instruction.target.letter ++ "=" ++ Text.hexByte value ++ " P=" ++
        Text.hexByte status.bits ++ " cycles=" ++ toString cycles.toNat
  | .unimplemented opcode pc =>
      "unimplemented opcode " ++ Text.hexByte opcode ++ " before " ++ Text.hexAddress pc

/-- The part of a log that a reader at level `maximum` receives, in order. -/
def shown (maximum : LogLevel) (records : List LogRecord) : List LogRecord :=
  records.filter fun record => record.level.shownAt maximum

end LogRecord

end Core6502
