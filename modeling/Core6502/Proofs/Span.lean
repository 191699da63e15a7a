import Core6502.Memory.Basic

/-! # Consecutive addresses

A span is a number of consecutive addresses. Like all address arithmetic it
wraps: the last address is followed by the first. A bus that is to be written down
is the list of its cells, some of them at a span.
-/

namespace Core6502

namespace Address

/-- The first `count` addresses from `start` on. -/
def span (start : Address) (count : Nat) : List Address :=
  (List.range count).map fun offset => start + .ofNat offset

variable (start : Address)

theorem add_ofNat_succ (offset : Nat) :
    start + .ofNat (offset + 1) = start + 1 + .ofNat offset := by
  rw [Nat.add_comm, UInt16.ofNat_add, UInt16.add_assoc]
  rfl

@[simp] theorem length_span (count : Nat) : (start.span count).length = count := by
  simp [span]

@[simp] theorem span_zero : start.span 0 = [] := rfl

theorem span_succ (count : Nat) :
    start.span (count + 1) = start :: (start + 1).span count := by
  simp only [span, List.range_succ_eq_map, List.map_cons, List.map_map, Function.comp_def,
    Nat.succ_eq_add_one, add_ofNat_succ]
  simp

@[simp] theorem span_one : start.span 1 = [start] := by
  rw [span_succ, span_zero]

/-- A span in two parts: the second begins where the first ends. -/
theorem span_add (first second : Nat) :
    start.span (first + second) = start.span first ++ (start + .ofNat first).span second := by
  induction first generalizing start with
  | zero => simp
  | succ first ih =>
      rw [Nat.add_right_comm, span_succ, span_succ, ih, add_ofNat_succ, List.cons_append]

theorem mem_span {address : Address} {count : Nat} :
    address ∈ start.span count ↔ ∃ offset < count, address = start + .ofNat offset := by
  simp [span, eq_comm]

/-- A span that is not longer than the memory does not come back to where it began. -/
theorem not_mem_span_succ {count : Nat} (hcount : count < 65536) :
    start ∉ (start + 1).span count := by
  intro hmem
  obtain ⟨offset, hoffset, hstart⟩ := (mem_span (start + 1)).mp hmem
  -- Coming back would take a whole turn through the address space.
  have hnumber := congrArg UInt16.toNat hstart
  have hlt := start.toNat_lt
  simp only [UInt16.toNat_add, UInt16.toNat_one, UInt16.toNat_ofNat'] at hnumber
  omega

/-- Of two spans in a row that fit into the memory together, the second comes to no
address of the first. -/
theorem not_mem_span_of_mem_span {address : Address} {first second : Nat}
    (hsize : first + second ≤ 65536) (haddress : address ∈ start.span first) :
    address ∉ (start + .ofNat first).span second := by
  intro hmem
  obtain ⟨offset, hoffset, hfirst⟩ := (mem_span start).mp haddress
  obtain ⟨other, hother, hsecond⟩ := (mem_span _).mp hmem
  rw [hfirst, UInt16.add_assoc, ← UInt16.ofNat_add, UInt16.add_right_inj] at hsecond
  have hnumber := congrArg UInt16.toNat hsecond
  rw [UInt16.toNat_ofNat', UInt16.toNat_ofNat'] at hnumber
  omega

/-- The bytes from an address on. -/
def Holds (memory : Address → Byte) (bytes : List Byte) : Prop :=
  (start.span bytes.length).map memory = bytes

variable {start}

theorem holds_cons {memory : Address → Byte} {byte : Byte} {bytes : List Byte} :
    start.Holds memory (byte :: bytes) ↔ memory start = byte ∧ (start + 1).Holds memory bytes := by
  rw [Holds, List.length_cons, span_succ, List.map_cons, List.cons.injEq, Holds]

theorem holds_append {memory : Address → Byte} {first second : List Byte} :
    start.Holds memory (first ++ second) ↔
      start.Holds memory first ∧ (start + .ofNat first.length).Holds memory second := by
  rw [Holds, List.length_append, span_add, List.map_append, Holds, Holds]
  constructor
  · intro h
    exact List.append_inj h (by simp)
  · rintro ⟨hfirst, hsecond⟩
    rw [hfirst, hsecond]

end Address

/-- A bus as its cells, the newest first. Every address that has none reads zero. -/
structure Cells where
  cells : List (Address × Byte)
deriving DecidableEq

namespace Cells

def read (bus : Cells) (address : Address) : Byte := (bus.cells.lookup address).getD 0

def write (bus : Cells) (address : Address) (value : Byte) : Cells :=
  ⟨(address, value) :: bus.cells⟩

instance : Bus Cells where
  read := read
  write := write

/-- The bus with some bytes from an address on. -/
def withBytes (bus : Cells) (start : Address) (bytes : List Byte) : Cells :=
  ⟨(start.span bytes.length).zip bytes ++ bus.cells⟩

theorem read_withBytes_of_not_mem {start address : Address} {bytes : List Byte}
    (bus : Cells) (haddress : address ∉ start.span bytes.length) :
    (bus.withBytes start bytes).read address = bus.read address := by
  have hnone : ((start.span bytes.length).zip bytes).lookup address = none := by
    rw [List.lookup_eq_none_iff]
    intro cell hcell
    rw [bne_iff_ne]
    rintro rfl
    exact haddress (List.of_mem_zip hcell).1
  rw [read, withBytes, List.lookup_append, hnone, Option.none_or, read]

end Cells

end Core6502
