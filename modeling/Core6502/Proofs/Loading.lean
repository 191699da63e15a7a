import Core6502.Memory.Store
import Core6502.Proofs.Span

/-! # Stored bytes

Loading stores the bytes one after the other from the cursor on. Bytes that fit
into the memory all stay where they were stored, also when they wrap past the
last address; nothing else changes. In general what is read after a store is the
last byte that it stored there, or else what was there before.
-/

namespace Core6502.Memory

/-- Loading changes no byte outside the addresses that it stores at. -/
theorem read_load_of_not_mem {memory : Memory} {program : List Byte} {address : Address}
    (haddress : address ∉ memory.cursor.span program.length) :
    (memory.load program).read address = memory.read address := by
  induction program generalizing memory with
  | nil => rfl
  | cons value program ih =>
      rw [List.length_cons, Address.span_succ, List.mem_cons, not_or] at haddress
      have htail : address ∉ (memory.append value).cursor.span program.length := haddress.2
      rw [load_cons, ih htail, read_append, if_neg haddress.1]

/-- A loaded program that fits into the memory is there from the old cursor on. -/
theorem holds_load (memory : Memory) {program : List Byte} (hsize : program.length ≤ size) :
    memory.cursor.Holds (memory.load program).read program := by
  induction program generalizing memory with
  | nil => rfl
  | cons value program ih =>
      rw [List.length_cons] at hsize
      rw [load_cons, Address.holds_cons]
      refine ⟨?_, ih (memory.append value) (by omega)⟩
      -- The rest of the program does not wrap as far as the byte just stored.
      have hkept : memory.cursor ∉ (memory.append value).cursor.span program.length :=
        memory.cursor.not_mem_span_succ hsize
      rw [read_load_of_not_mem hkept]
      exact memory.read_write_same memory.cursor value

/-- What is read after loading is the last of the loaded bytes that came to the address. -/
theorem read_load (memory : Memory) (program : List Byte) (address : Address) :
    (memory.load program).read address =
      (((memory.cursor.span program.length).zip program).reverse.lookup address).getD
        (memory.read address) := by
  induction program generalizing memory with
  | nil => rfl
  | cons value program ih =>
      rw [load_cons, ih, cursor_append, read_append, List.length_cons, Address.span_succ,
        List.zip_cons_cons, List.reverse_cons, List.lookup_append]
      cases (((memory.cursor + 1).span program.length).zip program).reverse.lookup address with
      | some later => rfl
      | none =>
          by_cases hhere : address = memory.cursor
          · simp [hhere]
          · simp [hhere, List.lookup_cons, beq_false_of_ne]

namespace Store

/-- The bytes that a store stores at the cursor, one after the other. -/
def appended : Store → List Byte
  | .append value => [value]
  | .load program => program
  | .write _ _ | .setCursor _ => []

/-- The bytes of a store, each with its address, in the order in which they are stored. -/
def placed (cursor : Address) : Store → List (Address × Byte)
  | .write address value => [(address, value)]
  | store => (cursor.span store.appended.length).zip store.appended

end Store

theorem read_store (memory : Memory) (store : Store) (address : Address) :
    (memory.store store).read address =
      ((store.placed memory.cursor).reverse.lookup address).getD (memory.read address) := by
  cases store with
  | write target value =>
      rw [Memory.store, read_write]
      by_cases htarget : address = target
      · simp [Store.placed, htarget]
      · simp [Store.placed, htarget, List.lookup_cons, beq_false_of_ne]
  | append value => exact read_load memory [value] address
  | load program => exact read_load memory program address
  | setCursor cursor => rfl

/-- The addresses at which a store stores. -/
def storedAt (memory : Memory) (store : Store) : List Address :=
  (store.placed memory.cursor).map Prod.fst

@[simp] theorem storedAt_load (memory : Memory) (program : List Byte) :
    memory.storedAt (.load program) = memory.cursor.span program.length :=
  List.map_fst_zip (Nat.le_of_eq (memory.cursor.length_span program.length))

/-- A store changes no byte but where it stores. -/
theorem read_store_of_not_mem {memory : Memory} {store : Store} {address : Address}
    (haddress : address ∉ memory.storedAt store) :
    (memory.store store).read address = memory.read address := by
  have hnone : (store.placed memory.cursor).reverse.lookup address = none := by
    rw [List.lookup_eq_none_iff]
    intro place hplace
    rw [bne_iff_ne]
    rintro rfl
    exact haddress (List.mem_map_of_mem (List.mem_reverse.mp hplace))
  rw [read_store, hnone, Option.getD_none]

end Core6502.Memory
