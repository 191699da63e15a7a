import Core6502.Proofs.Loading

/-! # Slices

A slice of the memory is what is read at consecutive addresses, as many of them as
were asked for or as there are up to the last one. Its bounds are in range whatever
the length, also when the sum of start and length is too large for a machine word.
-/

namespace Core6502.Memory

/-- Where a slice ends, without the detour through machine words. -/
theorem sliceEnd_eq (start : Address) (length : Nat) :
    sliceEnd start length = start.toNat + min length (size - start.toNat) := by
  have hstart := start.toNat_lt
  unfold sliceEnd
  simp only [size, UInt64.size]
  omega

theorem toNat_add_ofNat {start : Address} {offset : Nat} (hinside : start.toNat + offset < size) :
    (start + .ofNat offset).toNat = start.toNat + offset := by
  rw [UInt16.toNat_add, UInt16.toNat_ofNat']
  simp only [size] at hinside
  omega

variable (memory : Memory)

/-- Before the end of memory, going on from an address is going on in the bytes. -/
theorem getElem_bytes {start : Address} {offset : Nat} (hinside : start.toNat + offset < size) :
    memory.bytes[start.toNat + offset] = memory.read (start + .ofNat offset) := by
  have haddress := (start + .ofNat offset : Address).toNat_lt
  change _ = memory.bytes[(start + .ofNat offset : Address).toNat]
  congr 1
  exact (toNat_add_ofNat hinside).symm

/-- A range that lies in the memory is there to be taken, and it is what is read at its
addresses. -/
theorem range?_eq_some {start : Address} {count : Nat} (hinside : start.toNat + count ≤ size) :
    memory.range? start.toNat (start.toNat + count) =
      some ((start.span count).map memory.read) := by
  unfold range?
  rw [if_pos ⟨Nat.le_add_right _ _, hinside⟩, Option.some.injEq]
  apply List.ext_getElem
  · rw [Array.length_toList, Array.size_extract, Vector.size_toArray, List.length_map,
      Address.length_span]
    omega
  · intro index _ hindex
    rw [List.length_map, Address.length_span] at hindex
    have hbyte := memory.getElem_bytes (show start.toNat + index < size by omega)
    simpa [Address.span] using hbyte

theorem slice?_eq_some (start : Address) (length : Nat) :
    memory.slice? start length =
      some ((start.span (min length (size - start.toNat))).map memory.read) := by
  have hstart := start.toNat_lt
  unfold slice?
  rw [sliceEnd_eq]
  apply range?_eq_some
  simp only [size]
  omega

theorem slice_eq (start : Address) (length : Nat) :
    memory.slice start length = (start.span (min length (size - start.toNat))).map memory.read := by
  rw [slice, slice?_eq_some, Option.getD_some]

/-- A slice that ends in the memory has all the bytes that were asked for. -/
theorem slice_eq_of_le {start : Address} {length : Nat} (hinside : start.toNat + length ≤ size) :
    memory.slice start length = (start.span length).map memory.read := by
  rw [slice_eq, Nat.min_eq_left (by omega)]

/-- Two slices in a row are one. -/
theorem slice_append {start : Address} {first : Nat} (second : Nat)
    (hinside : start.toNat + first < size) :
    memory.slice start first ++ memory.slice (start + .ofNat first) second =
      memory.slice start (first + second) := by
  have hrest : min (first + second) (size - start.toNat) =
      first + min second (size - (start.toNat + first)) := by
    omega
  rw [slice_eq_of_le memory (Nat.le_of_lt hinside), slice_eq, slice_eq, toNat_add_ofNat hinside,
    hrest, Address.span_add, List.map_append]

/-- What the slices of a memory are. -/
structure SlicesInRange : Prop where
  bounds : ∀ start length, start.toNat ≤ sliceEnd start length ∧ sliceEnd start length ≤ size
  taken : ∀ start length, memory.slice? start length = some (memory.slice start length)
  length : ∀ start length,
    (memory.slice start length).length = min length (size - start.toNat)
  bytes : ∀ start length index, index < min length (size - start.toNat) →
    start.toNat + index < size ∧
      (memory.slice start length)[index]? = some (memory.read (.ofNat (start.toNat + index)))
  append : ∀ start first second, start.toNat + first < size →
    memory.slice start first ++ memory.slice (start + .ofNat first) second =
      memory.slice start (first + second)
  loaded : ∀ program, memory.cursor.toNat + program.length ≤ size →
    (memory.load program).slice memory.cursor program.length = program

/-- Every slice of every memory can be taken and is what is read there, from the start on
and not beyond the last address. -/
theorem slicesInRange : memory.SlicesInRange where
  bounds start length := by
    have hstart := start.toNat_lt
    rw [sliceEnd_eq]
    simp only [size]
    omega
  taken start length := by rw [slice_eq, slice?_eq_some]
  length start length := by rw [slice_eq, List.length_map, Address.length_span]
  bytes start length index hindex := by
    have haddress : start + .ofNat index = .ofNat (start.toNat + index) := by
      rw [UInt16.ofNat_add, UInt16.ofNat_toNat]
    refine ⟨by omega, ?_⟩
    rw [slice_eq, Address.span, List.map_map, List.getElem?_map, List.getElem?_range hindex,
      Option.map_some, Function.comp, haddress]
  append start first second := memory.slice_append second
  loaded program hinside := by
    rw [slice_eq_of_le _ hinside]
    exact memory.holds_load (by omega)

end Core6502.Memory
