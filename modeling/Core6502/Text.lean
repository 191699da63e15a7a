import Core6502.Address

/-! # Texts

Bytes and addresses are printed with leading zeros, in upper-case hexadecimal
or in binary. A structured value is printed as its name and, in braces, its named
fields.
-/

namespace Core6502.Text

/-- The character of a digit below sixteen. -/
def digit (value : Nat) : Char := "0123456789ABCDEF".toList.getD value '0'

/-- The last `width` digits of a number, the most significant one first. -/
def digits (base : Nat) : (width : Nat) → Nat → List Char
  | 0, _ => []
  | width + 1, number => digits base width (number / base) ++ [digit (number % base)]

/-- The text `0x2A`. -/
def hexByte (byte : Byte) : String := "0x" ++ String.ofList (digits 16 2 byte.toNat)

/-- The text `0x020A`. -/
def hexAddress (address : Address) : String := "0x" ++ String.ofList (digits 16 4 address.toNat)

/-- The text `0b00000010`. -/
def binaryByte (byte : Byte) : String := "0b" ++ String.ofList (digits 2 8 byte.toNat)

def field (entry : String × String) : String := entry.1 ++ ": " ++ entry.2

/-- The name, then the fields between braces, separated by commas. -/
def fields (name : String) (entries : List (String × String)) : String :=
  name ++ " \x7b " ++ ", ".intercalate (entries.map field) ++ " \x7d"

end Core6502.Text
