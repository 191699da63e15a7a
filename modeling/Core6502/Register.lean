import Core6502.Address

/-! # Registers

The accumulator and the two index registers. Each holds one byte.
-/

namespace Core6502

/-- The registers that a program can load. -/
inductive RegisterName where
  | a
  | x
  | y
deriving DecidableEq

namespace RegisterName

def all : List RegisterName := [.a, .x, .y]

/-- The letter that assembly listings use. -/
def letter : RegisterName → String
  | .a => "A"
  | .x => "X"
  | .y => "Y"

end RegisterName

/-- One register, zero at power-up. -/
structure Register where
  value : Byte := 0
deriving DecidableEq

namespace Register

def set (_register : Register) (value : Byte) : Register := ⟨value⟩

/-- The text `Register(2)`, with the value in decimal. -/
def describe (register : Register) : String := s!"Register({register.value.toNat})"

end Register

structure Registers where
  a : Register := {}
  x : Register := {}
  y : Register := {}
deriving DecidableEq

namespace Registers

def register (registers : Registers) : RegisterName → Register
  | .a => registers.a
  | .x => registers.x
  | .y => registers.y

def get (registers : Registers) (name : RegisterName) : Byte := (registers.register name).value

def set (registers : Registers) (name : RegisterName) (value : Byte) : Registers :=
  match name with
  | .a => { registers with a := registers.a.set value }
  | .x => { registers with x := registers.x.set value }
  | .y => { registers with y := registers.y.set value }

@[simp] theorem get_default (name : RegisterName) : ({} : Registers).get name = 0 := by
  cases name <;> rfl

@[simp] theorem get_set_same (registers : Registers) (name : RegisterName) (value : Byte) :
    (registers.set name value).get name = value := by
  cases name <;> rfl

theorem get_set_other (registers : Registers) {name other : RegisterName} (value : Byte)
    (hne : other ≠ name) : (registers.set name value).get other = registers.get other := by
  cases name <;> cases other <;> first | rfl | contradiction

theorem get_set (registers : Registers) (name other : RegisterName) (value : Byte) :
    (registers.set name value).get other = if other = name then value else registers.get other := by
  split
  next heq => rw [heq, get_set_same]
  next hne => exact get_set_other registers value hne

@[simp] theorem set_set (registers : Registers) (name : RegisterName) (value later : Byte) :
    (registers.set name value).set name later = registers.set name later := by
  cases name <;> rfl

/-- Different registers can be written in either order. -/
theorem set_comm (registers : Registers) {name other : RegisterName} (value otherValue : Byte)
    (hne : name ≠ other) : (registers.set name value).set other otherValue =
      (registers.set other otherValue).set name value := by
  cases name <;> cases other <;> first | rfl | contradiction

/-- Registers are determined by the byte that each name reads. -/
theorem ext_get {first second : Registers} (h : ∀ name, first.get name = second.get name) :
    first = second := by
  obtain ⟨⟨a⟩, ⟨x⟩, ⟨y⟩⟩ := first
  obtain ⟨⟨a'⟩, ⟨x'⟩, ⟨y'⟩⟩ := second
  obtain rfl : a = a' := h .a
  obtain rfl : x = x' := h .x
  obtain rfl : y = y' := h .y
  rfl

end Registers

end Core6502
