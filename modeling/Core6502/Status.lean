import Core6502.Address

/-! # Status register

Eight flag bits, of which the load instructions set two: negative is bit 7 of
the loaded value, and zero says that the value is zero.
-/

namespace Core6502

/-- The status byte. At power-up every bit is clear. -/
structure Status where
  bits : Byte := 0
deriving DecidableEq

namespace Status

/-- Bit 7 of the last result. -/
def negative : Byte := 0x80

/-- Signed arithmetic left its range. -/
def overflow : Byte := 0x40

/-- The last interrupt came from a break instruction. -/
def breakCommand : Byte := 0x10

/-- Arithmetic is in binary-coded decimal. -/
def decimal : Byte := 0x08

/-- Interrupt requests are ignored. -/
def interruptDisable : Byte := 0x04

/-- The last result is zero. -/
def zero : Byte := 0x02

/-- Unsigned arithmetic left its range. -/
def carry : Byte := 0x01

def empty : Status := {}

/-- The flags of a loaded value: negative from its bit 7, zero if it is zero,
and no other bit. -/
def derive (value : Byte) : Status :=
  ⟨(if value &&& 0x80 = 0 then 0 else negative) ||| (if value = 0 then zero else 0)⟩

/-- Every bit of `flags` is set. -/
def contains (status : Status) (flags : Byte) : Bool := status.bits &&& flags == flags

/-- Sets the bits of `flags` and leaves the others. -/
def insert (status flags : Status) : Status := ⟨status.bits ||| flags.bits⟩

def clear (_status : Status) : Status := empty

/-- The text `Status(2)`, with the bits in decimal. -/
def describe (status : Status) : String := s!"Status({status.bits.toNat})"

@[simp] theorem insert_clear (status flags : Status) : status.clear.insert flags = flags := by
  obtain ⟨bits⟩ := flags
  simp [clear, empty, insert]

/-- A value is not negative and zero at once. -/
theorem bits_derive (value : Byte) : (derive value).bits = 0x00 ∨
    (derive value).bits = 0x02 ∨ (derive value).bits = 0x80 := by
  by_cases hzero : value = 0
  · subst hzero
    exact .inr (.inl rfl)
  · by_cases hnegative : value &&& 0x80 = 0
    · simp [derive, hzero, hnegative]
    · simp [derive, hzero, hnegative, negative]

end Status

end Core6502
