import Core6502.Proofs.Dependence
import Core6502.Proofs.Listing
import Core6502.Proofs.Sessions

/-! # Stores before tasks

A host that stores into the memory of a running machine can as well have stored
everything beforehand, if it never stores at an address that the processor has
read before: a task sees the memory only at the addresses that it reads, and no
task changes it. So a program can be stored item by item, each just before the
processor comes to it.
-/

namespace Core6502

/-- What a move reads and where it stores. -/
structure Access where
  reads : List Address
  stores : List Address

namespace Machine

def access (machine : Machine) : Move → Access
  | .store store => { reads := [], stores := machine.bus.storedAt store }
  | .task task => { reads := (machine.perform task.command).reads, stores := [] }

end Machine

/-- Stores and tasks in the order in which they happen. -/
abbrev Schedule := List Move

namespace Schedule

/-- The stores alone, in their order. -/
def stores (schedule : Schedule) : List Memory.Store := schedule.filterMap Move.store?

/-- The tasks alone, in their order. -/
def commands (schedule : Schedule) : List Command := schedule.filterMap Move.command?

def after (schedule : Schedule) (machine : Machine) : Machine := schedule.foldl Machine.move machine

/-- The turns of the tasks, each on the memory that the stores before it left. -/
def turns : Schedule → Machine → List (Turn Memory Answer)
  | [], _ => []
  | .store store :: schedule, machine => turns schedule (machine.move (.store store))
  | .task task :: schedule, machine =>
      machine.perform task.command :: turns schedule (machine.move (.task task))

def accesses : Schedule → Machine → List Access
  | [], _ => []
  | move :: schedule, machine => machine.access move :: accesses schedule (machine.move move)

/-- No store stores at an address that a task before it has read. -/
def StoresUnread (schedule : Schedule) (machine : Machine) : Prop :=
  (schedule.accesses machine).Pairwise fun earlier later =>
    ∀ address ∈ earlier.reads, address ∉ later.stores

section

variable (store : Memory.Store) (task : Task) (schedule : Schedule)

@[simp] theorem stores_store : stores (.store store :: schedule) = store :: stores schedule := rfl

@[simp] theorem stores_task : stores (.task task :: schedule) = stores schedule := rfl

@[simp] theorem commands_store : commands (.store store :: schedule) = commands schedule := rfl

@[simp] theorem commands_task :
    commands (.task task :: schedule) = task.command :: commands schedule := rfl

end

/-- A schedule amounts to its tasks alone on a prepared machine: every task returns
the same, reads the same and leaves the same state of the processor, and at the
end the machines are the same. -/
structure RunsAs (schedule : Schedule) (machine prepared : Machine) : Prop where
  results : (schedule.turns machine).map Turn.result =
    (prepared.trace schedule.commands).map Turn.result
  reads : (schedule.turns machine).map Turn.reads =
    (prepared.trace schedule.commands).map Turn.reads
  states : (schedule.turns machine).map (fun turn => turn.cpu.toCpuState) =
    (prepared.trace schedule.commands).map fun turn => turn.cpu.toCpuState
  final : schedule.after machine = prepared.performAll schedule.commands

end Schedule

/-- A task is the same on a bus that agrees on every byte that it reads. -/
theorem Cpu.perform_onBus {β γ : Type} [Bus β] [Bus γ] (cpu : Cpu β) (bus : γ) (task : Task)
    (hagree : ∀ address ∈ (cpu.perform task.command).reads,
      Bus.read cpu.bus address = Bus.read bus address) :
    (cpu.onBus bus).perform task.command = (cpu.perform task.command).onBus bus := by
  cases task with
  | fetch => exact congrArg (Turn.map Answer.byte) (act_onBus Execution.fetch cpu bus hagree)
  | execute =>
      exact congrArg (Turn.map Answer.executed) (act_onBus Execution.execute cpu bus hagree)
  | step => exact congrArg (Turn.map Answer.stepped) (act_onBus Execution.step cpu bus hagree)
  | setRegister name value => rfl
  | setPc pc => rfl
  | setOperandOrder order => rfl

namespace Schedule

/-- The stores of a schedule together change no byte but where one of them stores. -/
theorem read_storeAll_of_not_mem {schedule : Schedule} {machine : Machine} {address : Address}
    (haddress : ∀ access ∈ schedule.accesses machine, address ∉ access.stores) :
    (machine.bus.storeAll schedule.stores).read address = machine.bus.read address := by
  -- On the moves: the cursor moves with the stores alone, since no task changes the memory.
  induction schedule generalizing machine with
  | nil => rfl
  | cons move schedule ih =>
      rw [accesses, List.forall_mem_cons] at haddress
      obtain ⟨hhere, hlater⟩ := haddress
      have hrest := ih hlater
      cases move with
      | store store =>
          rw [stores_store, Memory.storeAll_cons]
          exact hrest.trans (Memory.read_store_of_not_mem hhere)
      | task task =>
          rw [Machine.bus_move_task] at hrest
          exact hrest

/-- Every task of a schedule is the task on the memory as it is after all stores. -/
theorem turns_eq_trace {schedule : Schedule} {machine : Machine}
    (hunread : schedule.StoresUnread machine) :
    (schedule.turns machine).map (Turn.onBus (machine.bus.storeAll schedule.stores)) =
        (machine.onBus (machine.bus.storeAll schedule.stores)).trace schedule.commands ∧
      schedule.after machine =
        (machine.onBus (machine.bus.storeAll schedule.stores)).performAll schedule.commands := by
  induction schedule generalizing machine with
  | nil => exact ⟨rfl, rfl⟩
  | cons move schedule ih =>
      rw [StoresUnread, accesses, List.pairwise_cons] at hunread
      obtain ⟨hhere, hlater⟩ := hunread
      obtain ⟨hturns, hafter⟩ := ih hlater
      cases move with
      | store store => exact ⟨hturns, hafter⟩
      | task task =>
          rw [Machine.bus_move_task] at hturns hafter
          -- What the task reads is not stored at any more.
          have hagree : ∀ address ∈ (machine.perform task.command).reads,
              machine.bus.read address = (machine.bus.storeAll (stores schedule)).read address := by
            intro address haddress
            have hkept := read_storeAll_of_not_mem
              fun access haccess => hhere access haccess address haddress
            rw [Machine.bus_move_task] at hkept
            exact hkept.symm
          have hperform :=
            machine.perform_onBus (machine.bus.storeAll (stores schedule)) task hagree
          rw [stores_task, commands_task, Cpu.trace, hperform, Cpu.performAll_cons, hperform]
          exact ⟨congrArg (_ :: ·) hturns, hafter⟩

/-- A schedule whose stores come to nothing that was read amounts to all its stores,
followed by all its tasks. -/
theorem runsAs_storeAll {schedule : Schedule} {machine : Machine}
    (hunread : schedule.StoresUnread machine) :
    schedule.RunsAs machine
      (machine.updateBus fun memory => memory.storeAll schedule.stores) := by
  obtain ⟨hturns, hafter⟩ := turns_eq_trace hunread
  refine ⟨?_, ?_, ?_, hafter⟩
  · have hresults := congrArg (List.map Turn.result) hturns
    rw [List.map_map] at hresults
    exact hresults
  · have hreads := congrArg (List.map Turn.reads) hturns
    rw [List.map_map] at hreads
    exact hreads
  · have hstates := congrArg (List.map fun turn => turn.cpu.toCpuState) hturns
    rw [List.map_map] at hstates
    exact hstates

end Schedule

namespace Program

open Schedule

/-- Every item is stored just before the processor steps over it. -/
def feeding : Program → Schedule
  | [] => []
  | item :: program => .store (.load item.encode) :: .task .step :: feeding program

/-- When every item is stored just before the step over it, no step reads as data an
address at which a later item is going to be stored. -/
def ReadsNoneAhead : Program → Machine → Prop
  | [], _ => True
  | item :: program, machine =>
      let turn := (Machine.loadProgram machine item.encode).step
      (∀ address ∈ turn.reads.drop item.size, address ∉ turn.cpu.pc.span (size program)) ∧
        ReadsNoneAhead program turn.cpu

theorem storeAll_feeding (program : Program) (memory : Memory) :
    memory.storeAll program.feeding.stores = memory.load program.encode := by
  induction program generalizing memory with
  | nil => rfl
  | cons item program ih =>
      rw [encode_cons, Memory.load_append]
      exact ih (memory.load item.encode)

theorem cursor_load_item (memory : Memory) (item : Item) :
    (memory.load item.encode).cursor = memory.cursor + .ofNat item.size := by
  rw [Memory.cursor_load, Item.length_encode]

/-- The items are stored one after the other from the cursor on. -/
theorem mem_span_of_mem_accesses {program : Program} {machine : Machine} {access : Access}
    {address : Address} (haccess : access ∈ program.feeding.accesses machine)
    (haddress : address ∈ access.stores) : address ∈ machine.bus.cursor.span program.size := by
  induction program generalizing machine with
  | nil => exact absurd haccess List.not_mem_nil
  | cons item program ih =>
      rw [size_cons, Address.span_add, List.mem_append]
      rw [feeding, accesses, accesses, List.mem_cons, List.mem_cons] at haccess
      rcases haccess with rfl | rfl | hlater
      · rw [Machine.access, Memory.storedAt_load, Item.length_encode] at haddress
        exact .inl haddress
      · exact absurd haddress List.not_mem_nil
      · have hrest := ih hlater
        rw [Machine.bus_move_task, Machine.bus_move_store, Memory.store, cursor_load_item] at hrest
        exact .inr hrest

/-- The processor that steps over an item which was just stored ahead of it comes to
where the next item is going to be stored. -/
theorem steppedBy_loadProgram (item : Item) {machine : Machine}
    (hcursor : machine.bus.cursor = machine.pc) (hsize : item.size ≤ Memory.size) :
    item.SteppedBy machine.pc (Machine.loadProgram machine item.encode).step ∧
      (Machine.loadProgram machine item.encode).step.cpu.bus.cursor =
        (Machine.loadProgram machine item.encode).step.cpu.pc := by
  have hlength : item.encode.length ≤ Memory.size := by
    rw [Item.length_encode]
    exact hsize
  have hholds := machine.bus.holds_load hlength
  rw [hcursor] at hholds
  have hstored : (Machine.loadProgram machine item.encode).pc.Holds
      (Bus.read (Machine.loadProgram machine item.encode).bus) item.encode := hholds
  have hstepped : item.SteppedBy machine.pc (Machine.loadProgram machine item.encode).step :=
    Item.steppedBy_step hstored
  refine ⟨hstepped, ?_⟩
  rw [hstepped.pc, ← hcursor]
  exact cursor_load_item machine.bus item

/-- Storing the items just ahead of the processor stores at nothing that was read,
if the data reads look at nothing that is still to come. -/
theorem storesUnread_feeding {program : Program} {machine : Machine}
    (hcursor : machine.bus.cursor = machine.pc) (hsize : program.size ≤ Memory.size)
    (hahead : program.ReadsNoneAhead machine) : program.feeding.StoresUnread machine := by
  induction program generalizing machine with
  | nil => exact List.Pairwise.nil
  | cons item program ih =>
      obtain ⟨hdata, hlater⟩ := hahead
      rw [size_cons] at hsize
      obtain ⟨hstepped, hnext⟩ := steppedBy_loadProgram item hcursor (by omega)
      have hrest := ih hnext (by omega) hlater
      refine List.Pairwise.cons ?_ (List.Pairwise.cons ?_ hrest)
      · intro access _ address haddress
        exact absurd haddress List.not_mem_nil
      · intro access haccess address haddress hstore
        have hspan := mem_span_of_mem_accesses haccess hstore
        change address ∈ (Machine.loadProgram machine item.encode).step.reads at haddress
        change address ∈ Address.span
          (Machine.loadProgram machine item.encode).step.cpu.bus.cursor _ at hspan
        rw [hnext] at hspan
        -- The step reads the item itself, which lies before the later ones, and then its data.
        rw [← List.take_append_drop item.size (Cpu.step _).reads, List.mem_append] at haddress
        rcases haddress with hstream | hread
        · rw [hstepped.stream] at hstream
          rw [hstepped.pc] at hspan
          exact machine.pc.not_mem_span_of_mem_span hsize hstream hspan
        · exact hdata address hread hspan

end Program

/-- Stores that come to nothing that was read before can be done beforehand. In
particular a program can be loaded beforehand instead of being stored just ahead of
the processor. -/
theorem Schedule.runsAs_storesFirst (machine : Machine) :
    (∀ schedule : Schedule, schedule.StoresUnread machine →
      schedule.RunsAs machine
        (machine.updateBus fun memory => memory.storeAll schedule.stores)) ∧
    ∀ program : Program, machine.bus.cursor = machine.pc → program.size ≤ Memory.size →
      program.ReadsNoneAhead machine →
      program.feeding.RunsAs machine (Machine.loadProgram machine program.encode) := by
  refine ⟨fun schedule => runsAs_storeAll, ?_⟩
  intro program hcursor hsize hahead
  have hruns := runsAs_storeAll (program.storesUnread_feeding hcursor hsize hahead)
  have hprepared : (machine.updateBus fun memory => memory.storeAll program.feeding.stores) =
      Machine.loadProgram machine program.encode := by
    rw [Cpu.updateBus, program.storeAll_feeding]
    rfl
  rw [hprepared] at hruns
  exact hruns

namespace Machine

/-- The cursor and the processor are at the last address. -/
def unfed : Machine := Cpu.startAt ((Memory.startingAt 0xFFFF).write 0x0010 0x80) 0xFFFF

/-- A load that is stored across the end of memory, and another one. -/
def fedProgram : Program := [
  .instruction .ldaZeroPage (.singleton 0x10),
  .instruction .ldxImmediate (.singleton 0x07)]

/-- After the first load the memory and the processor change further. -/
def fedSchedule : Schedule := [
  .store (.load [0xA5, 0x10]), .task .step, .store (.setCursor 0x0200),
  .task (.setRegister .x 0x03), .store (.append 0xEA), .store (.write 0x0001 0xA2), .task .step]

def fedCells : Cells := ⟨[(0xFFFF, 0xA5), (0x0000, 0x10), (0x0010, 0x80)]⟩

/-- The processor with the first load, on cells instead of a memory. -/
def fedCpu : Cpu Cells := .startAt fedCells 0xFFFF

/-- The first load reads across the end of memory and comes to the second. -/
theorem step_unfed :
    (loadProgram unfed [0xA5, 0x10]).step.reads = [0xFFFF, 0x0000, 0x0010] ∧
      (loadProgram unfed [0xA5, 0x10]).step.cpu.pc = 0x0001 := by
  have hreads : fedCpu.step.reads = [0xFFFF, 0x0000, 0x0010] := by decide
  have hpc : fedCpu.step.cpu.pc = 0x0001 := by decide
  have hagree : ∀ address ∈ fedCpu.step.reads,
      Bus.read fedCpu.bus address = Bus.read (unfed.bus.load [0xA5, 0x10]) address := by
    rw [hreads]
    simp [fedCpu, fedCells, unfed, Cpu.startAt, Bus.read, Memory.startingAt, Memory.read_append,
      Memory.read_write, Cells.read, List.lookup_cons]
  have hstep : (loadProgram unfed [0xA5, 0x10]).step = fedCpu.step.onBus _ :=
    fedCpu.act_onBus Execution.step (unfed.bus.load [0xA5, 0x10]) hagree
  rw [hstep]
  exact ⟨hreads, hpc⟩

theorem runsAs_fed :
    fedSchedule.StoresUnread unfed ∧
      fedSchedule.RunsAs unfed
        (unfed.updateBus fun memory => memory.storeAll fedSchedule.stores) ∧
      unfed.bus.cursor = unfed.pc ∧ fedProgram.size ≤ Memory.size ∧
      fedProgram.ReadsNoneAhead unfed ∧
      fedProgram.feeding.RunsAs unfed (loadProgram unfed fedProgram.encode) := by
  obtain ⟨hreads, hpc⟩ := step_unfed
  have hunread : fedSchedule.StoresUnread unfed := by
    have hstep : (unfed.move (.store (.load [0xA5, 0x10]))).step.reads = [0xFFFF, 0x0000, 0x0010] :=
      hreads
    -- Only the first step has stores after it.
    simp [Schedule.StoresUnread, fedSchedule, Schedule.accesses, access, Memory.storedAt,
      Memory.Store.placed, Memory.Store.appended, Memory.store, Task.command, Cpu.perform,
      Turn.map, Cpu.quietly, hstep]
  have hcursor : unfed.bus.cursor = unfed.pc := rfl
  have hsize : fedProgram.size ≤ Memory.size := by decide
  have hahead : fedProgram.ReadsNoneAhead unfed := by
    have hencode : Item.encode (.instruction .ldaZeroPage (.singleton 0x10)) = [0xA5, 0x10] := by
      decide
    have hdata : List.drop (Item.size (.instruction .ldaZeroPage (.singleton 0x10)))
        [0xFFFF, 0x0000, 0x0010] = [(0x0010 : Address)] := by
      decide
    refine ⟨?_, ?_, trivial⟩
    · rw [hencode, hreads, hpc, hdata, List.forall_mem_singleton]
      decide
    · intro address _
      exact List.not_mem_nil
  obtain ⟨hschedule, hprogram⟩ := Schedule.runsAs_storesFirst unfed
  exact ⟨hunread, hschedule fedSchedule hunread, hcursor, hsize, hahead,
    hprogram fedProgram hcursor hsize hahead⟩

end Machine

end Core6502
