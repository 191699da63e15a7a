import Mathlib.Algebra.GroupWithZero.Nat
import Core6502.Cpu.Command
import Core6502.Proofs.Turns

/-! # Histories

What happens to a processor from power-up on, and what there is to remember of
it: the bytes that were fetched, the loads that executions performed, and the
registers that the owner assigned. Everything but the program counter and the
operand order is a function of this record, however its events are interleaved:
a register is the last thing written to it, the status is that of the last load,
and the cycle counter adds up the loads since the last fetch.
-/

namespace Core6502

/-- Something that happens to a processor: a command, or any change that its
owner makes to the bus, of which a write through the bus is one. -/
inductive Action (β : Type) where
  | command (command : Command)
  | updateBus (update : β → β)

/-- An execution that succeeded: its instruction, the byte that it loaded, and
whether indexing left the page of the base in a mode that charges for it. -/
structure Load where
  instruction : Instruction
  value : Byte
  leavesPage : Bool
  canCrossPage : leavesPage = true → instruction.mode.canCrossPage = true

/-- The cycles of a load: those of its mode, and one for a page that was left. -/
def Load.cost (load : Load) : Nat :=
  load.instruction.baseCycles + if load.leavesPage then 1 else 0

inductive Event where
  | fetched (opcode : Byte)
  | loaded (load : Load)
  | assigned (name : RegisterName) (value : Byte)

namespace Event

def fetched? : Event → Option Byte
  | .fetched opcode => some opcode
  | .loaded _ | .assigned _ _ => none

def loaded? : Event → Option Load
  | .loaded load => some load
  | .fetched _ | .assigned _ _ => none

/-- The byte that an event writes to a register. -/
def written? (name : RegisterName) : Event → Option Byte
  | .fetched _ => none
  | .loaded load => if name = load.instruction.target then some load.value else none
  | .assigned target value => if name = target then some value else none

end Event

/-- The events of the past, the oldest first. -/
abbrev History := List Event

namespace History

variable {α : Type}

/-- What the most recent event to tell anything told. -/
def latest? (tells : Event → Option α) (history : History) : Option α :=
  history.reverse.findSome? tells

def pending (history : History) : Byte := (history.latest? Event.fetched?).getD 0

def register (history : History) (name : RegisterName) : Byte :=
  (history.latest? (Event.written? name)).getD 0

def status (history : History) : Status :=
  match history.latest? Event.loaded? with
  | none => .empty
  | some load => .derive load.value

/-- The loads after the last fetch, the newest first. -/
def loadsSinceFetch (history : History) : List Load :=
  (history.reverse.takeWhile fun event => event.fetched?.isNone).filterMap Event.loaded?

def cyclesSinceFetch (history : History) : Nat := (history.loadsSinceFetch.map Load.cost).sum

variable (history : History)

theorem latest?_concat (tells : Event → Option α) (event : Event) :
    latest? tells (history ++ [event]) = (tells event).or (history.latest? tells) := by
  rw [latest?, List.reverse_concat, List.findSome?_cons]
  cases tells event <;> rfl

section

variable (opcode value : Byte) (name target : RegisterName) (load : Load)

@[simp] theorem pending_fetched : pending (history ++ [.fetched opcode]) = opcode := by
  simp [pending, latest?_concat, Event.fetched?]

@[simp] theorem pending_loaded : pending (history ++ [.loaded load]) = history.pending := by
  simp [pending, latest?_concat, Event.fetched?]

@[simp] theorem pending_assigned :
    pending (history ++ [.assigned target value]) = history.pending := by
  simp [pending, latest?_concat, Event.fetched?]

@[simp] theorem register_fetched :
    register (history ++ [.fetched opcode]) name = history.register name := by
  simp [register, latest?_concat, Event.written?]

theorem register_loaded : register (history ++ [.loaded load]) name =
    if name = load.instruction.target then load.value else history.register name := by
  by_cases hname : name = load.instruction.target <;>
    simp [register, latest?_concat, Event.written?, hname]

theorem register_assigned : register (history ++ [.assigned target value]) name =
    if name = target then value else history.register name := by
  by_cases hname : name = target <;> simp [register, latest?_concat, Event.written?, hname]

@[simp] theorem status_fetched : status (history ++ [.fetched opcode]) = history.status := by
  simp [status, latest?_concat, Event.loaded?]

@[simp] theorem status_loaded : status (history ++ [.loaded load]) = .derive load.value := by
  simp [status, latest?_concat, Event.loaded?]

@[simp] theorem status_assigned :
    status (history ++ [.assigned target value]) = history.status := by
  simp [status, latest?_concat, Event.loaded?]

@[simp] theorem loadsSinceFetch_fetched :
    loadsSinceFetch (history ++ [.fetched opcode]) = [] := by
  rw [loadsSinceFetch, List.reverse_concat]
  rfl

@[simp] theorem loadsSinceFetch_loaded :
    loadsSinceFetch (history ++ [.loaded load]) = load :: history.loadsSinceFetch := by
  rw [loadsSinceFetch, List.reverse_concat]
  rfl

@[simp] theorem loadsSinceFetch_assigned :
    loadsSinceFetch (history ++ [.assigned target value]) = history.loadsSinceFetch := by
  rw [loadsSinceFetch, List.reverse_concat]
  rfl

end

end History

/-- The part of the state that a history determines. -/
structure CpuState.Recounted (state : CpuState) (history : History) : Prop where
  register : ∀ name, state.registers.get name = history.register name
  opcode : state.opcode = history.pending
  status : state.status = history.status
  cycles : state.cycles = .ofNat history.cyclesSinceFetch

namespace Cpu

variable {β : Type}

theorem recounted_startAt (bus : β) (pc : Address) : (startAt bus pc).Recounted [] where
  register := Registers.get_default
  opcode := rfl
  status := rfl
  cycles := rfl

variable [Bus β] (cpu : Cpu β)

def loadOf (instruction : Instruction) : Load where
  instruction
  value := instruction.mode.found (Bus.read cpu.bus) cpu.toCpuState
  leavesPage := instruction.mode.leavesPage (Bus.read cpu.bus) cpu.toCpuState
  canCrossPage := AddressingMode.canCrossPage_of_leavesPage _ _

/-- The load that an execution performs, if it succeeds. -/
def load? : Option Load :=
  match cpu.execute.result with
  | .ok () => (Instruction.ofByte? cpu.opcode).map cpu.loadOf
  | .error _ => none

/-- What there is to remember of an action. A step is a fetch and an execution. -/
def events : Action β → History
  | .command .fetch => [.fetched cpu.nextOpcode]
  | .command .execute => (cpu.load?.map Event.loaded).toList
  | .command .step => .fetched cpu.nextOpcode :: (cpu.fetched.load?.map Event.loaded).toList
  | .command (.setRegister name value) => [.assigned name value]
  | .command (.setPc _) | .command (.setOperandOrder _) | .command (.read _)
  | .command (.write _ _) | .updateBus _ => []

def undergo : Action β → Cpu β
  | .command command => (cpu.perform command).cpu
  | .updateBus update => cpu.updateBus update

def undergoAll (cpu : Cpu β) (actions : List (Action β)) : Cpu β := actions.foldl undergo cpu

def history : Cpu β → List (Action β) → History
  | _, [] => []
  | cpu, action :: actions => cpu.events action ++ (cpu.undergo action).history actions

theorem history_append (first second : List (Action β)) :
    cpu.history (first ++ second) = cpu.history first ++ (cpu.undergoAll first).history second := by
  induction first generalizing cpu with
  | nil => rfl
  | cons action first ih =>
      rw [List.cons_append, history, history, ih, List.append_assoc]
      rfl

theorem load?_undecoded (hopcode : Instruction.ofByte? cpu.opcode = none) : cpu.load? = none := by
  rw [load?, cpu.execute_undecoded hopcode]

theorem load?_decoded {instruction : Instruction}
    (hopcode : Instruction.ofByte? cpu.opcode = some instruction) :
    cpu.load? = some (cpu.loadOf instruction) := by
  rw [load?, cpu.execute_decoded hopcode, hopcode]
  rfl

theorem undergo_execute_decoded {instruction : Instruction}
    (hopcode : Instruction.ofByte? cpu.opcode = some instruction) :
    cpu.undergo (.command .execute) = cpu.executed instruction :=
  congrArg Turn.cpu (cpu.execute_decoded hopcode)

theorem events_execute_decoded {instruction : Instruction}
    (hopcode : Instruction.ofByte? cpu.opcode = some instruction) :
    cpu.events (.command .execute) = [.loaded (cpu.loadOf instruction)] := by
  rw [events, cpu.load?_decoded hopcode]
  rfl

theorem cost_loadOf (instruction : Instruction) :
    (cpu.loadOf instruction).cost = instruction.cycles (cpu.operand instruction) := by
  rw [Load.cost, cycles_operand]
  rfl

end Cpu

namespace CpuState.Recounted

variable {β : Type} {cpu : Cpu β} {past : History}

theorem assigned (h : cpu.Recounted past) (target : RegisterName) (value : Byte) :
    (cpu.setRegister target value).Recounted (past ++ [.assigned target value]) where
  register name := by
    rw [History.register_assigned, ← h.register]
    exact Registers.get_set cpu.registers target name value
  opcode := by
    rw [History.pending_assigned]
    exact h.opcode
  status := by
    rw [History.status_assigned]
    exact h.status
  cycles := by
    rw [History.cyclesSinceFetch, History.loadsSinceFetch_assigned]
    exact h.cycles

variable [Bus β]

theorem fetched (h : cpu.Recounted past) :
    cpu.fetched.Recounted (past ++ [.fetched cpu.nextOpcode]) where
  register name := by
    rw [History.register_fetched]
    exact h.register name
  opcode := (past.pending_fetched cpu.nextOpcode).symm
  status := by
    rw [History.status_fetched]
    exact h.status
  cycles := by
    rw [History.cyclesSinceFetch, History.loadsSinceFetch_fetched]
    rfl

theorem executed (h : cpu.Recounted past) (instruction : Instruction) :
    (cpu.executed instruction).Recounted (past ++ [.loaded (cpu.loadOf instruction)]) where
  register name := by
    rw [History.register_loaded, ← h.register, Cpu.registers_executed, Cpu.operand,
      AddressingMode.value_operand]
    exact Registers.get_set cpu.registers instruction.target name _
  opcode := by
    rw [History.pending_loaded, Cpu.opcode_executed]
    exact h.opcode
  status := by
    rw [History.status_loaded, Cpu.status_executed, Cpu.operand, AddressingMode.value_operand]
    rfl
  cycles := by
    rw [Cpu.cycles_executed, h.cycles, ← Cpu.cost_loadOf, ← UInt64.ofNat_add,
      History.cyclesSinceFetch, History.cyclesSinceFetch, History.loadsSinceFetch_loaded,
      List.map_cons, List.sum_cons, Nat.add_comm]

/-- An execution adds the load that it performs to the record, and nothing if it fails. -/
theorem execute (h : cpu.Recounted past) :
    cpu.execute.cpu.Recounted (past ++ (cpu.load?.map Event.loaded).toList) := by
  cases hopcode : Instruction.ofByte? cpu.opcode with
  | none =>
      rw [cpu.execute_undecoded hopcode, cpu.load?_undecoded hopcode, Option.map_none,
        Option.toList_none, List.append_nil]
      exact h
  | some instruction =>
      rw [cpu.execute_decoded hopcode, cpu.load?_decoded hopcode]
      exact h.executed instruction

theorem undergo (h : cpu.Recounted past) (action : Action β) :
    (cpu.undergo action).Recounted (past ++ cpu.events action) := by
  -- Whatever is not a fetch, an execution or an assignment leaves the recounted part alone.
  have hquiet : cpu.Recounted (past ++ []) := by
    rw [List.append_nil]
    exact h
  cases action with
  | updateBus update => exact hquiet
  | command command =>
      cases command with
      | fetch => exact h.fetched
      | execute => exact h.execute
      | step =>
          have hstep := h.fetched.execute
          rw [List.append_assoc] at hstep
          rw [Cpu.undergo, Cpu.perform, Turn.map, Cpu.step_eq]
          exact hstep
      | setRegister name value => exact h.assigned name value
      | setPc _ | setOperandOrder _ =>
          exact ⟨hquiet.register, hquiet.opcode, hquiet.status, hquiet.cycles⟩
      | read address => exact hquiet
      | write address value => exact hquiet

theorem undergoAll (h : cpu.Recounted past) (actions : List (Action β)) :
    (cpu.undergoAll actions).Recounted (past ++ cpu.history actions) := by
  -- On the actions: each one adds its events to the record of the ones before it.
  induction actions generalizing cpu past with
  | nil =>
      rw [Cpu.history, List.append_nil]
      exact h
  | cons action actions ih =>
      rw [Cpu.history, ← List.append_assoc]
      exact ih (h.undergo action)

end CpuState.Recounted

/-- What a record says of the processor that it is the record of. In particular
the status has at most one bit, and that one is the negative or the zero flag. -/
structure Cpu.FollowsHistory {β : Type} [Bus β] (cpu : Cpu β) (past : History) : Prop where
  register : ∀ name, cpu.registers.get name = past.register name
  opcode : cpu.opcode = past.pending
  fails : (∃ error, cpu.execute.result = .error error) ↔
    ∀ opcode : Opcode, opcode.byte ≠ past.pending
  status : cpu.status.bits = match past.latest? Event.loaded? with
    | none => 0
    | some load => (Status.derive load.value).bits
  negative : cpu.isNegative = true ↔
    ∃ load, past.latest? Event.loaded? = some load ∧ 128 ≤ load.value.toNat
  zero : cpu.isZero = true ↔ ∃ load, past.latest? Event.loaded? = some load ∧ load.value = 0
  flags : cpu.status.bits = 0x00 ∨ cpu.status.bits = 0x02 ∨ cpu.status.bits = 0x80
  exclusive : ¬(cpu.isNegative = true ∧ cpu.isZero = true)
  overflow : cpu.isOverflow = false
  carry : cpu.isCarry = false
  others : cpu.status.bits &&& ~~~(Status.negative ||| Status.zero) = 0

theorem History.bits_status (past : History) :
    past.status.bits = 0x00 ∨ past.status.bits = 0x02 ∨ past.status.bits = 0x80 := by
  rw [status]
  cases past.latest? Event.loaded? with
  | none => exact .inl rfl
  | some load => exact Status.bits_derive load.value

/-- The negative flag is bit 7 of the value, and the zero flag says that it is zero. -/
theorem Status.contains_derive (value : Byte) :
    ((derive value).contains negative = true ↔ 128 ≤ value.toNat) ∧
      ((derive value).contains zero = true ↔ value.toNat = 0) := by
  have hall : ∀ number < 256,
      ((derive (.ofNat number)).contains negative = true ↔ 128 ≤ number) ∧
        ((derive (.ofNat number)).contains zero = true ↔ number = 0) := by
    decide +kernel
  have hvalue := hall value.toNat value.toNat_lt
  rwa [UInt8.ofNat_toNat] at hvalue

/-- The flags of a past are those of the value that it loaded last. -/
theorem History.contains_status (past : History) :
    (past.status.contains Status.negative = true ↔
        ∃ load, past.latest? Event.loaded? = some load ∧ 128 ≤ load.value.toNat) ∧
      (past.status.contains Status.zero = true ↔
        ∃ load, past.latest? Event.loaded? = some load ∧ load.value = 0) := by
  rw [status]
  cases past.latest? Event.loaded? with
  | none => simp [Status.contains, Status.empty, Status.negative, Status.zero]
  | some load =>
      obtain ⟨hnegative, hzero⟩ := Status.contains_derive load.value
      simp [hnegative, hzero, ← UInt8.toNat_inj]

/-- Of the status bits that there are, a load can set two, and not both. -/
theorem Status.flags_of_bits {status : Status}
    (hbits : status.bits = 0x00 ∨ status.bits = 0x02 ∨ status.bits = 0x80) :
    ¬(status.contains negative = true ∧ status.contains zero = true) ∧
      status.contains overflow = false ∧ status.contains carry = false ∧
      status.bits &&& ~~~(negative ||| zero) = 0 := by
  rw [← Bool.and_eq_true, contains, contains, contains, contains]
  rcases hbits with hbits | hbits | hbits <;> rw [hbits] <;> decide

namespace Cpu

variable {β : Type} [Bus β]

/-- An execution fails exactly if the pending byte is no opcode. -/
theorem execute_fails_iff (cpu : Cpu β) :
    (∃ error, cpu.execute.result = .error error) ↔
      ∀ opcode : Opcode, opcode.byte ≠ cpu.opcode := by
  rw [← Instruction.ofByte?_eq_none_iff]
  cases hopcode : Instruction.ofByte? cpu.opcode with
  | none => simp [cpu.execute_undecoded hopcode]
  | some instruction => simp [cpu.execute_decoded hopcode]

/-- Registers, flags and the pending byte after any history that begins at power-up. -/
theorem followsHistory (bus : β) (pc : Address) (actions : List (Action β)) :
    ((startAt bus pc).undergoAll actions).FollowsHistory ((startAt bus pc).history actions) := by
  have hrecounted := (recounted_startAt bus pc).undergoAll actions
  rw [List.nil_append] at hrecounted
  have hflags := History.bits_status ((startAt bus pc).history actions)
  rw [← hrecounted.status] at hflags
  obtain ⟨hexclusive, hoverflow, hcarry, hothers⟩ := Status.flags_of_bits hflags
  have hloaded := History.contains_status ((startAt bus pc).history actions)
  rw [← hrecounted.status] at hloaded
  exact {
    register := hrecounted.register
    opcode := hrecounted.opcode
    fails := by
      rw [← hrecounted.opcode]
      exact execute_fails_iff _
    status := by
      rw [hrecounted.status, History.status]
      cases History.latest? Event.loaded? _ <;> rfl
    negative := hloaded.1
    zero := hloaded.2
    flags := hflags
    exclusive := hexclusive
    overflow := hoverflow
    carry := hcarry
    others := hothers }

end Cpu

end Core6502
