/-! # Bytes and addresses

Memory is 65536 cells of one byte. The high byte of an address is its page and
the low byte its offset in the page; page zero is the one that a single byte
can address. All address arithmetic wraps, at 256 inside the zero page and at
65536 elsewhere. A two-byte address operand is stored with its page first or with
its offset first, and the processor carries the order as a setting.
-/

namespace Core6502

abbrev Byte := UInt8

abbrev Address := UInt16

namespace Address

def ofBytes (high low : Byte) : Address := high.toUInt16 * 256 + low.toUInt16

def page (address : Address) : Byte := (address >>> 8).toUInt8

def offset (address : Address) : Byte := address.toUInt8

/-- The address in page zero that a byte names. -/
def zeroPage (offset : Byte) : Address := offset.toUInt16

def zeroPageStart : Address := 0x0000

def zeroPageEnd : Address := 0x00FF

/-- Where programs are stored and started unless another place is asked for:
the first address above the zero page and the stack. -/
def loadAddress : Address := 0x0200

/-- Adding an index to a base leaves the base's page. -/
def pagesCrossed (base : Address) (index : Byte) : Bool :=
  page (base + index.toUInt16) != page base

theorem toNat_ofBytes (high low : Byte) :
    (ofBytes high low).toNat = 256 * high.toNat + low.toNat := by
  have hhigh := high.toNat_lt
  have hlow := low.toNat_lt
  simp only [ofBytes, UInt16.toNat_add, UInt16.toNat_mul, UInt8.toNat_toUInt16,
    UInt16.toNat_ofNat]
  omega

theorem toNat_page (address : Address) : (page address).toNat = address.toNat / 256 := by
  have hshift : (address >>> 8).toNat = address.toNat / 256 := by
    simp [Nat.shiftRight_eq_div_pow]
  have haddress := address.toNat_lt
  rw [page, UInt16.toNat_toUInt8, hshift]
  omega

theorem toNat_offset (address : Address) : (offset address).toNat = address.toNat % 256 := by
  simp [offset]

@[simp] theorem page_ofBytes (high low : Byte) : page (ofBytes high low) = high := by
  have hlow := low.toNat_lt
  rw [← UInt8.toNat_inj, toNat_page, toNat_ofBytes]
  omega

@[simp] theorem offset_ofBytes (high low : Byte) : offset (ofBytes high low) = low := by
  have hlow := low.toNat_lt
  rw [← UInt8.toNat_inj, toNat_offset, toNat_ofBytes]
  omega

/-- An address is its page and its offset, and nothing else. -/
@[simp] theorem ofBytes_page_offset (address : Address) :
    ofBytes (page address) (offset address) = address := by
  rw [← UInt16.toNat_inj, toNat_ofBytes, toNat_page, toNat_offset]
  omega

end Address

/-- The sum of two bytes inside the zero page: the carry is lost. -/
def zeroPageWrap (first second : Byte) : Byte := first + second

/-- Which byte of a two-byte address operand comes first in the instruction
stream. A processor starts with the page first. -/
inductive OperandOrder where
  | highFirst
  | lowFirst
deriving DecidableEq

instance : Inhabited OperandOrder := ⟨.highFirst⟩

namespace OperandOrder

/-- The address that two operand bytes denote, in stream order. -/
def combine : OperandOrder → Byte → Byte → Address
  | .highFirst, first, second => .ofBytes first second
  | .lowFirst, first, second => .ofBytes second first

end OperandOrder

end Core6502
