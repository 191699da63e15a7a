import Core6502.Cpu.Command
import Core6502.Memory.Store
import Core6502.Proofs.Turns

/-! # Sessions

The trace of a session, call by call: each turn starts from the processor that
the commands before it left. A run of steps is the session that repeats the command
to step. The commands that are tasks of the processor alone never change the bus;
with the stores of its owner they make up the moves of a machine.
-/

namespace Core6502

/-- What a processor does, and what its owner does to it, but nothing that its
owner does to the bus. -/
inductive Task where
  | fetch
  | execute
  | step
  | setRegister (name : RegisterName) (value : Byte)
  | setPc (pc : Address)
  | setOperandOrder (order : OperandOrder)
deriving DecidableEq

def Task.command : Task → Command
  | .fetch => .fetch
  | .execute => .execute
  | .step => .step
  | .setRegister name value => .setRegister name value
  | .setPc pc => .setPc pc
  | .setOperandOrder order => .setOperandOrder order

theorem Turn.eq_of_map_stepped_eq {β : Type} {first second : Turn β (Except ExecutionError UInt64)}
    (h : first.map Answer.stepped = second.map Answer.stepped) : first = second := by
  obtain ⟨result, cpu, reads, records⟩ := first
  obtain ⟨result', cpu', reads', records'⟩ := second
  simpa [map] using h

namespace Cpu

variable {β : Type} [Bus β] (cpu : Cpu β)

@[simp] theorem bus_perform_task (task : Task) :
    (cpu.perform task.command).cpu.bus = cpu.bus := by
  cases task <;> rfl

@[simp] theorem performAll_cons (command : Command) (commands : List Command) :
    cpu.performAll (command :: commands) = (cpu.perform command).cpu.performAll commands := rfl

theorem performAll_append (first second : List Command) :
    cpu.performAll (first ++ second) = (cpu.performAll first).performAll second :=
  List.foldl_append

@[simp] theorem length_trace (commands : List Command) :
    (cpu.trace commands).length = commands.length := by
  induction commands generalizing cpu with
  | nil => rfl
  | cons command commands ih => exact congrArg (· + 1) (ih (cpu.perform command).cpu)

/-- The turn of a command is its turn on the processor that the commands before it left. -/
theorem getElem?_trace (commands : List Command) (index : Nat) :
    (cpu.trace commands)[index]? =
      commands[index]?.map (cpu.performAll (commands.take index)).perform := by
  induction commands generalizing cpu index with
  | nil => rfl
  | cons command commands ih =>
      cases index with
      | zero => rfl
      | succ index => exact ih (cpu.perform command).cpu index

theorem performAll_replicate_succ (count : Nat) (command : Command) :
    cpu.performAll (List.replicate (count + 1) command) =
      ((cpu.performAll (List.replicate count command)).perform command).cpu := by
  rw [List.replicate_succ', performAll_append]
  rfl

theorem getElem?_trace_replicate {count index : Nat} (command : Command) (hindex : index < count) :
    (cpu.trace (List.replicate count command))[index]? =
      some ((cpu.performAll (List.replicate index command)).perform command) := by
  rw [getElem?_trace, List.getElem?_replicate, if_pos hindex, List.take_replicate,
    Nat.min_eq_left (Nat.le_of_lt hindex), Option.map_some]

/-- The processor after `count` steps. -/
def after : (count : Nat) → Cpu β → Cpu β
  | 0, cpu => cpu
  | count + 1, cpu => cpu.step.cpu.after count

/-- The turns of a run of steps are those of the session that repeats the step. -/
theorem trace_replicate_step (count : Nat) :
    cpu.trace (List.replicate count .step) = (cpu.steps count).map (Turn.map .stepped) := by
  induction count generalizing cpu with
  | zero => rfl
  | succ count ih => exact congrArg (cpu.perform .step :: ·) (ih cpu.step.cpu)

theorem performAll_replicate_step (count : Nat) :
    cpu.performAll (List.replicate count .step) = cpu.after count := by
  induction count generalizing cpu with
  | zero => rfl
  | succ count ih => exact ih cpu.step.cpu

theorem after_succ (count : Nat) : cpu.after (count + 1) = (cpu.after count).step.cpu := by
  rw [← performAll_replicate_step, performAll_replicate_succ, performAll_replicate_step]
  rfl

@[simp] theorem bus_after (count : Nat) : (cpu.after count).bus = cpu.bus := by
  induction count with
  | zero => rfl
  | succ count ih => rw [after_succ, ← ih]; rfl

/-- A turn of a run is the step of the processor that the turns before it left. -/
theorem getElem?_steps (count index : Nat) :
    (cpu.steps count)[index]? = if index < count then some (cpu.after index).step else none := by
  -- A step's turn is determined by the turn of the command to step.
  rw [← Option.map_inj_right fun _ _ => Turn.eq_of_map_stepped_eq, ← List.getElem?_map,
    ← trace_replicate_step]
  by_cases hindex : index < count
  · rw [cpu.getElem?_trace_replicate _ hindex, performAll_replicate_step, if_pos hindex]
    rfl
  · rw [getElem?_trace, List.getElem?_replicate, if_neg hindex, if_neg hindex]
    rfl

@[simp] theorem length_steps (count : Nat) : (cpu.steps count).length = count := by
  rw [← List.length_map (Turn.map Answer.stepped), ← trace_replicate_step, length_trace,
    List.length_replicate]

variable {turn : Turn β (Except ExecutionError UInt64)} {count index : Nat}

theorem getElem?_steps_eq_some :
    (cpu.steps count)[index]? = some turn ↔ index < count ∧ (cpu.after index).step = turn := by
  rw [getElem?_steps, Option.ite_none_right_eq_some, Option.some.injEq]

theorem mem_take_steps {size : Nat} (hturn : turn ∈ (cpu.steps count).take size) :
    ∃ index < size, (cpu.after index).step = turn := by
  obtain ⟨index, hindex⟩ := List.mem_iff_getElem?.mp hturn
  rw [List.getElem?_take, Option.ite_none_right_eq_some, getElem?_steps_eq_some] at hindex
  exact ⟨index, hindex.1, hindex.2.2⟩

/-- No step changes the bus. -/
theorem bus_of_mem_steps (hturn : turn ∈ cpu.steps count) : turn.cpu.bus = cpu.bus := by
  obtain ⟨index, hindex⟩ := List.mem_iff_getElem?.mp hturn
  obtain ⟨_, rfl⟩ := cpu.getElem?_steps_eq_some.mp hindex
  exact cpu.bus_after index

end Cpu

/-- A store of the host or a task of the processor. -/
inductive Move where
  | store (store : Memory.Store)
  | task (task : Task)

namespace Move

def store? : Move → Option Memory.Store
  | .store entry => some entry
  | .task _ => none

def command? : Move → Option Command
  | .store _ => none
  | .task work => some work.command

end Move

namespace Machine

def move (machine : Machine) : Move → Machine
  | .store store => machine.updateBus fun memory => memory.store store
  | .task task => (machine.perform task.command).cpu

@[simp] theorem bus_move_store (machine : Machine) (store : Memory.Store) :
    (machine.move (.store store)).bus = machine.bus.store store := rfl

@[simp] theorem bus_move_task (machine : Machine) (task : Task) :
    (machine.move (.task task)).bus = machine.bus :=
  machine.bus_perform_task task

end Machine

end Core6502
