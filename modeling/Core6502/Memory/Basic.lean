import Core6502.Text

/-! # Memory

The processor reaches memory, and whatever else answers to addresses, through a
bus. A read has no effect on the bus and depends only on its present state.

The memory has a byte for every address, and a cursor at which programs are
appended. Cursor and addressed access are independent: reading and writing at an
address leave the cursor where it is, and moving the cursor changes no byte.
-/

namespace Core6502

/-- What answers to addresses. Writing gives the bus in its next state. -/
class Bus (β : Type) where
  read : β → Address → Byte
  write : β → Address → Byte → β

namespace Memory

abbrev size : Nat := 65536

end Memory

/-- The whole address space, zero at power-up. -/
structure Memory where
  bytes : Vector Byte Memory.size := Vector.replicate Memory.size 0
  cursor : Address := Address.loadAddress

namespace Memory

def startingAt (cursor : Address) : Memory := { cursor }

def read (memory : Memory) (address : Address) : Byte := memory.bytes.get address.toFin

def write (memory : Memory) (address : Address) (value : Byte) : Memory :=
  { memory with bytes := memory.bytes.set address.toNat value address.toNat_lt }

instance : Bus Memory where
  read := read
  write := write

def setCursor (memory : Memory) (cursor : Address) : Memory := { memory with cursor }

/-- Stores a byte at the cursor and moves the cursor one address on, from the
last address to the first. -/
def append (memory : Memory) (value : Byte) : Memory :=
  (memory.write memory.cursor value).setCursor (memory.cursor + 1)

/-- Appends the bytes in order. A program longer than the memory overwrites its
own beginning. -/
def load (memory : Memory) (program : List Byte) : Memory := program.foldl append memory

/-- The bytes from one offset up to another one. There are none to give if the offsets
are out of order or lie past the end. -/
def range? (memory : Memory) (first last : Nat) : Option (List Byte) :=
  if first ≤ last ∧ last ≤ size then some (memory.bytes.toArray.extract first last).toList else none

/-- Where a slice ends: as far on as it is long, but not past the last address. The
sum is one of 64-bit words and stays at the largest of them. -/
def sliceEnd (start : Address) (length : Nat) : Nat :=
  min (min (start.toNat + length) (UInt64.size - 1)) size

def slice? (memory : Memory) (start : Address) (length : Nat) : Option (List Byte) :=
  memory.range? start.toNat (sliceEnd start length)

/-- The bytes from `start` on, at most `length` of them and none past the last
address. -/
def slice (memory : Memory) (start : Address) (length : Nat) : List Byte :=
  (memory.slice? start length).getD []

/-- The size and the cursor; the bytes are too many to show. -/
def describe (memory : Memory) : String :=
  Text.fields "Memory" [
    ("size", toString memory.bytes.size),
    ("cursor", Text.hexAddress memory.cursor)]

end Memory

end Core6502
