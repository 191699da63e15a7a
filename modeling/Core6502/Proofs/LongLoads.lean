import Mathlib.Data.List.Induction
import Mathlib.Data.List.Nodup
import Core6502.Proofs.Loading

/-! # Loads of any length

A program may be longer than the memory, so that loading it comes to the same
addresses again and again. What remains at an address is the last byte that came
to it. That byte is as far from the end of the program as the address is from the
last one stored at, going back and round the end of memory.
-/

namespace Core6502

namespace Address

/-- A span that fits into the memory has no address twice. -/
theorem nodup_span (start : Address) {count : Nat} (hcount : count ≤ 65536) :
    (start.span count).Nodup := by
  induction count generalizing start with
  | zero => exact List.nodup_nil
  | succ count ih =>
      rw [span_succ, List.nodup_cons]
      exact ⟨start.not_mem_span_succ hcount, ih (start + 1) (by omega)⟩

end Address

namespace Memory

/-- How far an address lies before the last of the `length` addresses from the
cursor on, going round the end of memory. -/
def distanceBack (cursor : Address) (length : Nat) (address : Address) : Nat :=
  (((cursor.toNat : Int) + length - 1 - address.toNat) % size).toNat

theorem distanceBack_lt (cursor : Address) (length : Nat) (address : Address) :
    distanceBack cursor length address < size := by
  unfold distanceBack
  simp only [size]
  omega

/-- The address that the next byte comes to is the last one afterwards. -/
theorem distanceBack_last (cursor : Address) (length : Nat) :
    distanceBack cursor (length + 1) (cursor + .ofNat length) = 0 := by
  unfold distanceBack
  simp only [size, UInt16.toNat_add, UInt16.toNat_ofNat']
  omega

/-- Every other address is one byte further back than before. -/
theorem distanceBack_succ {cursor address : Address} {length : Nat}
    (hne : address ≠ cursor + .ofNat length) :
    distanceBack cursor (length + 1) address = distanceBack cursor length address + 1 := by
  have hnumber : address.toNat ≠ (cursor.toNat + length) % 65536 := by
    intro heq
    apply hne
    rw [← UInt16.toNat_inj, UInt16.toNat_add, UInt16.toNat_ofNat', heq]
    omega
  have haddress := address.toNat_lt
  unfold distanceBack
  simp only [size]
  omega

/-- What is read after loading, for a program of any length. -/
theorem read_load_distanceBack (memory : Memory) (program : List Byte) (address : Address) :
    (memory.load program).read address =
      (program.reverse[distanceBack memory.cursor program.length address]?).getD
        (memory.read address) := by
  -- On the program from its end: the last byte is at its address whatever came there before.
  induction program using List.reverseRecOn with
  | nil => simp
  | append_singleton program value ih =>
      rw [load_append, load_cons, load_nil, read_append, cursor_load, List.length_append,
        List.length_singleton, List.reverse_concat]
      by_cases hlast : address = memory.cursor + .ofNat program.length
      · rw [if_pos hlast, hlast, distanceBack_last]
        simp
      · rw [if_neg hlast, distanceBack_succ hlast, ih]
        simp

/-- Of what there was before, a load that fills the memory leaves only the cursor. -/
theorem load_eq_load {memory other : Memory} {program : List Byte}
    (hlength : program.length = size) (hcursor : memory.cursor = other.cursor) :
    memory.load program = other.load program := by
  apply ext_read
  · intro address
    have hback := distanceBack_lt other.cursor size address
    have hfound : distanceBack other.cursor size address < program.reverse.length := by
      rw [List.length_reverse, hlength]
      exact hback
    rw [read_load_distanceBack, read_load_distanceBack, hcursor, hlength,
      List.getElem?_eq_getElem hfound, Option.getD_some, Option.getD_some]
  · rw [cursor_load, cursor_load, hcursor]

/-- Of a program that is longer than the memory, only the end remains. -/
theorem load_drop (memory : Memory) {program : List Byte} (hlong : size < program.length) :
    memory.load program =
      (memory.setCursor (.ofNat ((memory.cursor.toNat + program.length - size) % size))).load
        (program.drop (program.length - size)) := by
  have hlength : (program.drop (program.length - size)).length = size := by
    rw [List.length_drop]
    omega
  have htake : (program.take (program.length - size)).length = program.length - size := by
    rw [List.length_take]
    omega
  conv_lhs => rw [← List.take_append_drop (program.length - size) program, load_append]
  apply load_eq_load hlength
  rw [cursor_load, cursor_setCursor, htake, ← UInt16.toNat_inj, UInt16.toNat_add,
    UInt16.toNat_ofNat', UInt16.toNat_ofNat', Nat.add_mod_mod,
    Nat.add_sub_assoc (Nat.le_of_lt hlong)]
  exact (Nat.mod_mod _ size).symm

/-- Addressed writes, one after the other. -/
def writeAll (memory : Memory) (places : List (Address × Byte)) : Memory :=
  places.foldl (fun memory place => memory.write place.1 place.2) memory

@[simp] theorem writeAll_cons (memory : Memory) (place : Address × Byte)
    (places : List (Address × Byte)) :
    memory.writeAll (place :: places) = (memory.write place.1 place.2).writeAll places := rfl

theorem write_comm (memory : Memory) {address other : Address} (value otherValue : Byte)
    (hne : address ≠ other) : (memory.write address value).write other otherValue =
      (memory.write other otherValue).write address value := by
  apply ext_read
  · intro place
    rw [read_write, read_write, read_write, read_write]
    by_cases hplace : place = other
    · rw [if_pos hplace, if_pos hplace, if_neg]
      rintro rfl
      exact hne hplace
    · rw [if_neg hplace, if_neg hplace]
  · rfl

/-- Writes to different addresses can be done in any order. -/
theorem writeAll_perm (memory : Memory) {places others : List (Address × Byte)}
    (hperm : places.Perm others) (hnodup : (others.map Prod.fst).Nodup) :
    memory.writeAll places = memory.writeAll others := by
  apply List.Perm.foldl_eq' hperm
  intro place hplace other hother memory
  have hsame := List.inj_on_of_nodup_map hnodup
  by_cases hne : place.1 = other.1
  · rw [hsame (hperm.subset hplace) (hperm.subset hother) hne]
  · exact memory.write_comm _ _ hne

/-- A load stores what writes to the same addresses store, in the same order. -/
theorem read_writeAll_span (memory other : Memory) (program : List Byte)
    (hread : ∀ address, memory.read address = other.read address) (address : Address) :
    (memory.writeAll ((other.cursor.span program.length).zip program)).read address =
      (other.load program).read address := by
  induction program generalizing memory other with
  | nil => exact hread address
  | cons value program ih =>
      rw [List.length_cons, Address.span_succ, List.zip_cons_cons, writeAll_cons, load_cons]
      apply ih _ (other.append value)
      intro place
      rw [read_write, read_append, hread]

/-- What a load of any length comes to. -/
structure LoadsInClosedForm (memory : Memory) (program : List Byte) : Prop where
  cursor : (memory.load program).cursor.toNat = (memory.cursor.toNat + program.length) % size
  stored : ∀ address, ∀ h : distanceBack memory.cursor program.length address < program.length,
    (memory.load program).read address =
      program[program.length - 1 - distanceBack memory.cursor program.length address]
  kept : ∀ address, program.length ≤ distanceBack memory.cursor program.length address →
    (memory.load program).read address = memory.read address
  append : ∀ rest, memory.load (program ++ rest) = (memory.load program).load rest
  longer : size < program.length → memory.load program =
    (memory.setCursor (.ofNat ((memory.cursor.toNat + program.length - size) % size))).load
      (program.drop (program.length - size))
  anyOrder : program.length ≤ size →
    ∀ places, places.Perm ((memory.cursor.span program.length).zip program) →
      ∀ address, (memory.writeAll places).read address = (memory.load program).read address

/-- Every load has this closed form, however often it comes round to its beginning. -/
theorem loadsInClosedForm (memory : Memory) (program : List Byte) :
    memory.LoadsInClosedForm program where
  cursor := by
    rw [cursor_load, UInt16.toNat_add, UInt16.toNat_ofNat', Nat.add_mod_mod]
  stored address h := by
    rw [read_load_distanceBack, List.getElem?_reverse h, List.getElem?_eq_getElem (by omega),
      Option.getD_some]
  kept address h := by
    rw [read_load_distanceBack, List.getElem?_eq_none (by simpa using h), Option.getD_none]
  append := memory.load_append program
  longer := memory.load_drop
  anyOrder hsize places hperm address := by
    have hnodup : (((memory.cursor.span program.length).zip program).map Prod.fst).Nodup := by
      rw [List.map_fst_zip (Nat.le_of_eq (Address.length_span _ _))]
      exact memory.cursor.nodup_span hsize
    rw [memory.writeAll_perm hperm hnodup]
    exact read_writeAll_span memory memory program (fun _ => rfl) address

end Memory

end Core6502
