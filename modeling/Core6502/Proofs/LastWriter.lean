import Core6502.Proofs.Loading
import Core6502.Proofs.Sessions

/-! # The last writer

What a memory is in terms of its past: at every address the byte that was stored
there last, and a cursor that is where it was last put, moved on by one for every
byte appended since. Nothing but a store makes a difference to a memory, and a
clone and its original have the same past only up to the cloning.
-/

namespace Core6502

namespace Memory

/-- What happened to a memory: it was made with its cursor at an address, and then
it was stored into. -/
inductive Past where
  | made (cursor : Address)
  | stored (past : Past) (store : Store)

namespace Past

/-- Where the cursor was last put. -/
def origin : Past → Address
  | .made cursor => cursor
  | .stored _ (.setCursor cursor) => cursor
  | .stored past _ => past.origin

/-- The number of bytes that were stored at the cursor since it was put there. -/
def advance : Past → Nat
  | .made _ => 0
  | .stored _ (.setCursor _) => 0
  | .stored past store => past.advance + store.appended.length

def cursor (past : Past) : Address := past.origin + .ofNat past.advance

/-- Every byte ever stored, with its address, the newest first. -/
def bytes : Past → List (Address × Byte)
  | .made _ => []
  | .stored past store => (store.placed past.cursor).reverse ++ past.bytes

/-- The byte of the last store at an address, and zero if there was none. -/
def lastByte (past : Past) (address : Address) : Byte := (past.bytes.lookup address).getD 0

variable (past : Past)

theorem lastByte_stored (store : Store) (address : Address) :
    (past.stored store).lastByte address =
      ((store.placed past.cursor).reverse.lookup address).getD (past.lastByte address) := by
  rw [lastByte, bytes, List.lookup_append, lastByte]
  cases (store.placed past.cursor).reverse.lookup address <;> rfl

theorem cursor_append (value : Byte) : (past.stored (.append value)).cursor = past.cursor + 1 := by
  rw [cursor, cursor, UInt16.add_assoc]
  exact congrArg (past.origin + ·) (UInt16.ofNat_add past.advance 1)

theorem cursor_load (program : List Byte) :
    (past.stored (.load program)).cursor = past.cursor + .ofNat program.length := by
  rw [cursor, cursor, UInt16.add_assoc, ← UInt16.ofNat_add]
  rfl

end Past

/-- A memory is what its past made of it. -/
structure Recalls (memory : Memory) (past : Past) : Prop where
  read : ∀ address, memory.read address = past.lastByte address
  cursor : memory.cursor = past.cursor

theorem recalls_startingAt (cursor : Address) : (startingAt cursor).Recalls (.made cursor) where
  read := read_startingAt cursor
  cursor := (UInt16.add_zero cursor).symm

/-- Whatever is stored becomes part of the past. -/
theorem Recalls.store {memory : Memory} {past : Past} (h : memory.Recalls past) (store : Store) :
    (memory.store store).Recalls (past.stored store) where
  read address := by rw [read_store, h.read, h.cursor, past.lastByte_stored]
  cursor := by
    cases store with
    | write target value => exact h.cursor
    | append value => rw [Memory.store, Memory.cursor_append, h.cursor, past.cursor_append]
    | load program => rw [Memory.store, Memory.cursor_load, h.cursor, past.cursor_load]
    | setCursor cursor => exact (UInt16.add_zero cursor).symm

/-- What is done with a memory: it is stored into or looked at, it passes into the
hands of a processor in any state, and the processor works on it. -/
inductive Use where
  | move (work : Move)
  | own (state : CpuState)
  | read (address : Address)
  | slice (start : Address) (length : Nat)

def Use.store? : Use → Option Store
  | .move work => work.store?
  | .own _ | .read _ | .slice _ _ => none

end Memory

open Memory

def Machine.use (machine : Machine) : Use → Machine
  | .move work => machine.move work
  | .own state => { toCpuState := state, bus := machine.bus }
  | .read address => (machine.perform (.read address)).cpu
  | .slice _ _ => machine

/-- Only a store makes a difference to the memory. -/
theorem Machine.bus_use (machine : Machine) (use : Use) :
    (machine.use use).bus = use.store?.elim machine.bus machine.bus.store := by
  cases use with
  | move work =>
      cases work with
      | store store => rfl
      | task task => exact machine.bus_move_task task
  | own state => rfl
  | read address => rfl
  | slice start length => rfl

/-- A memory with the processor that has it, and its past. A memory that no processor
has is one whose processor does nothing. -/
structure Storage where
  machine : Machine
  past : Past

namespace Storage

/-- A memory at power-up. The cursor is at the load address if no other one is given. -/
def make : Option Address → Storage
  | none => { machine := .start, past := .made Address.loadAddress }
  | some cursor => { machine := Cpu.start (startingAt cursor), past := .made cursor }

def clone (storage : Storage) : Storage :=
  { machine := Cpu.start storage.machine.bus, past := storage.past }

def use (storage : Storage) (use : Use) : Storage where
  machine := storage.machine.use use
  past := use.store?.elim storage.past storage.past.stored

def Told (storage : Storage) : Prop := storage.machine.bus.Recalls storage.past

theorem told_make (cursor : Option Address) : (make cursor).Told := by
  cases cursor with
  | none => exact recalls_startingAt Address.loadAddress
  | some cursor => exact recalls_startingAt cursor

theorem Told.use {storage : Storage} (h : storage.Told) (use : Use) : (storage.use use).Told := by
  rw [Told, Storage.use, Machine.bus_use]
  cases use.store? with
  | none => exact h
  | some store => exact h.store store

end Storage

/-- What is done with all the memories that there are, which are numbered in the order
in which they came to be. -/
inductive Deed where
  | make (cursor : Option Address)
  | clone (number : Nat)
  | use (number : Nat) (use : Use)

/-- All the memories that there are. -/
abbrev Stock := List Storage

namespace Stock

def after (stock : Stock) : Deed → Stock
  | .make cursor => stock ++ [.make cursor]
  | .clone number => stock ++ (stock[number]?.map Storage.clone).toList
  | .use number use => stock.modify number fun storage => storage.use use

def afterAll (stock : Stock) (deeds : List Deed) : Stock := deeds.foldl after stock

/-- The stock that begins with nothing. -/
def of (deeds : List Deed) : Stock := afterAll [] deeds

def memories (stock : Stock) : List Memory := stock.map fun storage => storage.machine.bus

variable {stock : Stock}

theorem told_after (hstock : ∀ storage ∈ stock, storage.Told) (deed : Deed) :
    ∀ storage ∈ stock.after deed, storage.Told := by
  intro storage hstorage
  cases deed with
  | make cursor =>
      rw [after, List.mem_append, List.mem_singleton] at hstorage
      rcases hstorage with hold | rfl
      · exact hstock storage hold
      · exact Storage.told_make cursor
  | clone number =>
      rw [after, List.mem_append, Option.mem_toList, Option.map_eq_some_iff] at hstorage
      rcases hstorage with hold | ⟨original, horiginal, rfl⟩
      · exact hstock storage hold
      · exact hstock original (List.mem_of_getElem? horiginal)
  | use number use =>
      obtain ⟨index, hindex⟩ := List.mem_iff_getElem?.mp hstorage
      rw [after, List.getElem?_modify] at hindex
      obtain ⟨original, horiginal, rfl⟩ := Option.map_eq_some_iff.mp hindex
      have htold := hstock original (List.mem_of_getElem? horiginal)
      split
      · exact htold.use use
      · exact htold

theorem told_afterAll (hstock : ∀ storage ∈ stock, storage.Told) (deeds : List Deed) :
    ∀ storage ∈ stock.afterAll deeds, storage.Told := by
  induction deeds generalizing stock with
  | nil => exact hstock
  | cons deed deeds ih => exact ih (told_after hstock deed)

theorem of_concat (deeds : List Deed) (deed : Deed) :
    of (deeds ++ [deed]) = (of deeds).after deed := by
  rw [of, afterAll, List.foldl_append]
  rfl

/-- A use makes a difference to one memory alone, and to that only by a store. -/
theorem getElem?_memories_use (stock : Stock) (number : Nat) (use : Use) (other : Nat) :
    (stock.after (.use number use)).memories[other]? = stock.memories[other]?.map fun memory =>
      if number = other then use.store?.elim memory memory.store else memory := by
  rw [memories, memories, List.getElem?_map, List.getElem?_map, after, List.getElem?_modify]
  cases stock[other]? with
  | none => rfl
  | some storage =>
      by_cases hnumber : number = other
      · simp [hnumber, Storage.use, Machine.bus_use]
      · simp [hnumber]

/-- A clone is a memory more. -/
theorem memories_clone (stock : Stock) (number : Nat) :
    (stock.after (.clone number)).memories = stock.memories ++ stock.memories[number]?.toList := by
  rw [memories, memories, List.getElem?_map, after, List.map_append]
  cases stock[number]? <;> rfl

/-- What the memories are, and what becomes of them by one deed more. -/
structure FollowsPasts (deeds : List Deed) : Prop where
  read : ∀ address, (of deeds).map (fun storage => storage.machine.bus.read address) =
    (of deeds).map fun storage => storage.past.lastByte address
  cursor : (of deeds).map (fun storage => storage.machine.bus.cursor.toNat) =
    (of deeds).map fun storage => (storage.past.origin.toNat + storage.past.advance) % Memory.size
  used : ∀ number use other, (of (deeds ++ [.use number use])).memories[other]? =
    (of deeds).memories[other]?.map fun memory =>
      if number = other then use.store?.elim memory memory.store else memory
  written : ∀ number address value,
    (of (deeds ++ [.use number (.move (.store (.write address value)))])).memories.map
      Memory.cursor = (of deeds).memories.map Memory.cursor
  cloned : ∀ number, (of (deeds ++ [.clone number])).memories =
    (of deeds).memories ++ (of deeds).memories[number]?.toList

/-- Memories are last-writer maps with a cursor of their own, whatever is done with them
and with the processors that have them. -/
theorem followsPasts (deeds : List Deed) : FollowsPasts deeds := by
  have htold : ∀ storage ∈ of deeds, storage.Told := told_afterAll (List.forall_mem_nil _) deeds
  refine {
    read := fun address => List.map_congr_left fun storage h => (htold storage h).read address
    cursor := ?cursor
    used := fun number use other => ?used
    written := fun number address value => ?written
    cloned := fun number => ?cloned }
  case cursor =>
    apply List.map_congr_left
    intro storage hstorage
    rw [(htold storage hstorage).cursor, Past.cursor, UInt16.toNat_add, UInt16.toNat_ofNat',
      Nat.add_mod_mod]
  case used => rw [of_concat, getElem?_memories_use]
  case cloned => rw [of_concat, memories_clone]
  case written =>
    apply List.ext_getElem?
    intro other
    rw [List.getElem?_map, List.getElem?_map, of_concat, getElem?_memories_use, Option.map_map]
    apply Option.map_congr
    intro memory _
    rw [Function.comp]
    split <;> rfl

end Stock

end Core6502
