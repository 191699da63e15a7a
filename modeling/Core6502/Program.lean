import Core6502.Opcode

/-! # Programs

A program as a list of items, and the bytes that it is stored as. An item is one
step of the processor: an instruction with exactly the operand bytes that its
mode takes, or a byte that encodes no instruction.
-/

namespace Core6502

inductive Item where
  | instruction (opcode : Opcode) (operand : Vector Byte opcode.instruction.mode.operandBytes)
  | undecoded (byte : Byte) (hbyte : Opcode.ofByte? byte = none)
deriving DecidableEq

namespace Item

/-- The byte that a fetch of the item reads. -/
def lead : Item → Byte
  | .instruction opcode _ => opcode.byte
  | .undecoded byte _ => byte

/-- The bytes that an execution of the item reads from the instruction stream. -/
def operands : Item → List Byte
  | .instruction _ operand => operand.toList
  | .undecoded _ _ => []

def encode (item : Item) : List Byte := item.lead :: item.operands

def size : Item → Nat
  | .instruction opcode _ => opcode.instruction.size
  | .undecoded _ _ => 1

@[simp] theorem length_encode (item : Item) : item.encode.length = item.size := by
  cases item with
  | instruction opcode operand =>
      simp [encode, operands, size, Instruction.size, Nat.add_comm]
  | undecoded byte hbyte => rfl

/-- The lead byte tells the two kinds of items apart. -/
theorem ofByte?_lead (item : Item) :
    Opcode.ofByte? item.lead = match item with
      | .instruction opcode _ => some opcode
      | .undecoded _ _ => none := by
  cases item with
  | instruction opcode operand => exact Opcode.ofByte?_byte opcode
  | undecoded byte hbyte => exact hbyte

end Item

abbrev Program := List Item

namespace Program

def encode (program : Program) : List Byte := program.flatMap Item.encode

def size : Program → Nat
  | [] => 0
  | item :: program => item.size + size program

@[simp] theorem encode_cons (item : Item) (program : Program) :
    encode (item :: program) = item.encode ++ encode program := rfl

@[simp] theorem size_cons (item : Item) (program : Program) :
    size (item :: program) = item.size + size program := rfl

@[simp] theorem length_encode (program : Program) : program.encode.length = program.size := by
  induction program with
  | nil => rfl
  | cons item program ih =>
      rw [encode_cons, List.length_append, Item.length_encode, ih, size_cons]

end Program

end Core6502
