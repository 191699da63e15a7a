import Core6502.Memory.Basic

/-! # Laws of memory

Reading after writing, and where each operation leaves the cursor. A memory is
determined by what it reads at every address together with its cursor. The
operations that change a memory are also data, so that a history of them is a
list.
-/

namespace Core6502.Memory

@[simp] theorem read_startingAt (cursor address : Address) :
    (startingAt cursor).read address = 0 := by
  have haddress : address.toNat < size := address.toNat_lt
  change (Vector.replicate size (0 : Byte))[address.toNat] = 0
  simp

@[simp] theorem read_write_same (memory : Memory) (address : Address) (value : Byte) :
    (memory.write address value).read address = value := by
  have haddress : address.toNat < size := address.toNat_lt
  change (memory.bytes.set address.toNat value)[address.toNat] = value
  simp

theorem read_write_other (memory : Memory) {address other : Address} (value : Byte)
    (hne : other ≠ address) : (memory.write address value).read other = memory.read other := by
  have haddress : address.toNat < size := address.toNat_lt
  have hother : other.toNat < size := other.toNat_lt
  have hindex : address.toNat ≠ other.toNat := fun h => hne (UInt16.toNat_inj.mp h.symm)
  change (memory.bytes.set address.toNat value)[other.toNat] = memory.bytes[other.toNat]
  simp [Vector.getElem_set_ne, hindex]

theorem read_write (memory : Memory) (address other : Address) (value : Byte) :
    (memory.write address value).read other =
      if other = address then value else memory.read other := by
  split
  next heq => rw [heq, read_write_same]
  next hne => exact read_write_other memory value hne

@[simp] theorem cursor_write (memory : Memory) (address : Address) (value : Byte) :
    (memory.write address value).cursor = memory.cursor := rfl

@[simp] theorem read_setCursor (memory : Memory) (cursor address : Address) :
    (memory.setCursor cursor).read address = memory.read address := rfl

@[simp] theorem cursor_setCursor (memory : Memory) (cursor : Address) :
    (memory.setCursor cursor).cursor = cursor := rfl

theorem read_append (memory : Memory) (value : Byte) (address : Address) :
    (memory.append value).read address =
      if address = memory.cursor then value else memory.read address :=
  read_write memory memory.cursor address value

@[simp] theorem cursor_append (memory : Memory) (value : Byte) :
    (memory.append value).cursor = memory.cursor + 1 := rfl

@[simp] theorem load_nil (memory : Memory) : memory.load [] = memory := rfl

@[simp] theorem load_cons (memory : Memory) (value : Byte) (program : List Byte) :
    memory.load (value :: program) = (memory.append value).load program := rfl

theorem load_append (memory : Memory) (first second : List Byte) :
    memory.load (first ++ second) = (memory.load first).load second :=
  List.foldl_append

theorem cursor_load (memory : Memory) (program : List Byte) :
    (memory.load program).cursor = memory.cursor + .ofNat program.length := by
  induction program generalizing memory with
  | nil => simp
  | cons value program ih =>
      rw [load_cons, ih, cursor_append, List.length_cons, UInt16.ofNat_add]
      ac_rfl

theorem ext_read {first second : Memory}
    (hread : ∀ address, first.read address = second.read address)
    (hcursor : first.cursor = second.cursor) : first = second := by
  obtain ⟨bytes, cursor⟩ := first
  obtain ⟨bytes', cursor'⟩ := second
  obtain rfl : cursor = cursor' := hcursor
  obtain rfl : bytes = bytes' := Vector.ext fun index hindex => hread (.ofNatLT index hindex)
  rfl

inductive Store where
  | write (address : Address) (value : Byte)
  | append (value : Byte)
  | load (program : List Byte)
  | setCursor (cursor : Address)

def store (memory : Memory) : Store → Memory
  | .write address value => memory.write address value
  | .append value => memory.append value
  | .load program => memory.load program
  | .setCursor cursor => memory.setCursor cursor

def storeAll (memory : Memory) (stores : List Store) : Memory := stores.foldl store memory

@[simp] theorem storeAll_nil (memory : Memory) : memory.storeAll [] = memory := rfl

@[simp] theorem storeAll_cons (memory : Memory) (first : Store) (stores : List Store) :
    memory.storeAll (first :: stores) = (memory.store first).storeAll stores := rfl

end Core6502.Memory
