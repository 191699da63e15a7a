import Mathlib.Data.List.Forall2
import Core6502.Host
import Core6502.Memory.Store
import Core6502.Proofs.Cycles

/-! # Host sessions

A host reaches the processor through 32-bit numbers and plain messages, and what it
is told is what the processor does: a session of host calls runs alongside the same
session on the processor itself. Nothing is lost on the way but the high half of
the cycle counter, and that half stays zero unless very many executions follow one
fetch.
-/

namespace Core6502

namespace Cpu

variable {β : Type} [Bus β]

/-- The turn of an action. A change to the bus is a quiet one. -/
def turn (cpu : Cpu β) : Action β → Turn β Answer
  | .command command => cpu.perform command
  | .updateBus update => (cpu.updateBus update).quietly

def turns : Cpu β → List (Action β) → List (Turn β Answer)
  | _, [] => []
  | cpu, action :: actions => cpu.turn action :: (cpu.undergo action).turns actions

end Cpu

/-- The call, made to the processor and its memory themselves. -/
def HostCall.action : HostCall → Action Memory
  | .append value => .updateBus fun memory => memory.append value
  | .loadProgram program => .updateBus fun memory => memory.load program
  | .read address => .command (.read address)
  | .write address value => .command (.write address value)
  | .fetch => .command .fetch
  | .execute => .command .execute
  | .step => .command .step
  | .setX value => .command (.setRegister .x value)
  | .setY value => .command (.setRegister .y value)

/-- A reply tells all that the processor answered in its turn. Cycles are told as they
are, and an error by its text, which names the byte that was fetched. -/
def HostReply.Tells (reply : HostReply) (turn : Turn Memory Answer) : Prop :=
  match reply, turn.result with
  | .nothing, .nothing => True
  | .byte shown, .byte value => shown = value
  | .executed success, .executed result => success = true ↔ result = .ok ()
  | .stepped (.ok shown), .stepped (.ok cycles) => shown.toNat = cycles.toNat
  | .stepped (.error shown), .stepped (.error error) =>
      error = .unimplementedOpcode turn.cpu.opcode ∧ shown.message = error.message
  | _, _ => False

namespace HostMachine

/-- With more executions than this after one fetch, the counter could leave 32 bits. -/
def executionLimit : Nat := 715827882

def callAll (host : HostMachine) (calls : List HostCall) : HostMachine :=
  calls.foldl (fun host call => (host.call call).2) host

def replies : HostMachine → List HostCall → List HostReply
  | _, [] => []
  | host, call :: calls => (host.call call).1 :: (host.call call).2.replies calls

/-- What a host can look at between two calls, against the machine itself. -/
structure Shows (host : HostMachine) (machine : Machine) : Prop where
  a : host.a = machine.a
  x : host.x = machine.x
  y : host.y = machine.y
  pc : host.pc = machine.pc
  status : host.status = machine.status.bits
  isNegative : host.isNegative = machine.isNegative
  isZero : host.isZero = machine.isZero
  cycles : host.cycles.toNat = machine.cycles.toNat % 2 ^ 32

section

variable (host : HostMachine)

theorem callAll_append (first second : List HostCall) :
    host.callAll (first ++ second) = (host.callAll first).callAll second :=
  List.foldl_append

theorem replies_append (first second : List HostCall) :
    host.replies (first ++ second) = host.replies first ++ (host.callAll first).replies second := by
  induction first generalizing host with
  | nil => rfl
  | cons call first ih => exact congrArg ((host.call call).1 :: ·) (ih (host.call call).2)

@[simp] theorem length_replies (calls : List HostCall) :
    (host.replies calls).length = calls.length := by
  induction calls generalizing host with
  | nil => rfl
  | cons call calls ih => exact congrArg (· + 1) (ih (host.call call).2)

/-- Behind the host machine a call is the same call on the machine. -/
theorem machine_call (call : HostCall) :
    (host.call call).2.machine = host.machine.undergo call.action := by
  cases call <;> rfl

theorem machine_callAll (calls : List HostCall) :
    (host.callAll calls).machine = host.machine.undergoAll (calls.map HostCall.action) := by
  induction calls generalizing host with
  | nil => rfl
  | cons call calls ih =>
      rw [List.map_cons, Cpu.undergoAll, List.foldl_cons, ← machine_call]
      exact ih (host.call call).2

theorem tells_execute : (host.call .execute).1.Tells (host.machine.perform .execute) := by
  change host.machine.execute.result.isOk = true ↔ host.machine.execute.result = .ok ()
  cases host.machine.execute.result with
  | ok value => exact ⟨fun _ => rfl, fun _ => rfl⟩
  | error error => exact ⟨nofun, nofun⟩

theorem toNat_toUInt32_of_lt {cycles : UInt64} (hcycles : cycles.toNat < 2 ^ 32) :
    cycles.toUInt32.toNat = cycles.toNat := by
  rw [UInt64.toNat_toUInt32, Nat.mod_eq_of_lt hcycles]

/-- No step takes so many cycles that 32 bits could not hold them. -/
theorem tells_step : (host.call .step).1.Tells (host.machine.perform .step) := by
  rw [call, step, Cpu.perform, Turn.map]
  cases hopcode : Instruction.ofByte? host.machine.nextOpcode with
  | none =>
      rw [host.machine.step_undecoded hopcode]
      exact ⟨rfl, rfl⟩
  | some instruction =>
      have hstep := host.machine.step_decoded hopcode
      obtain ⟨-, _, -, -, hsmall⟩ := Cpu.step_ok host.machine (congrArg Turn.result hstep)
      rw [hstep]
      exact toNat_toUInt32_of_lt (Nat.lt_of_le_of_lt hsmall (by decide))

theorem tells_call (call : HostCall) :
    (host.call call).1.Tells (host.machine.turn call.action) := by
  cases call with
  | execute => exact host.tells_execute
  | step => exact host.tells_step
  | read address => exact rfl
  | fetch => exact rfl
  | append _ | loadProgram _ | write _ _ | setX _ | setY _ => exact trivial

theorem tells_replies (calls : List HostCall) :
    List.Forall₂ HostReply.Tells (host.replies calls)
      (host.machine.turns (calls.map HostCall.action)) := by
  -- On the calls: each leaves the same machine behind the host as on its own.
  induction calls generalizing host with
  | nil => exact .nil
  | cons call calls ih =>
      rw [replies, List.map_cons, Cpu.turns, ← machine_call]
      exact .cons (host.tells_call call) (ih (host.call call).2)

theorem shows_machine : host.Shows host.machine where
  a := rfl
  x := rfl
  y := rfl
  pc := rfl
  status := rfl
  isNegative := rfl
  isZero := rfl
  cycles := UInt64.toNat_toUInt32 host.machine.cycles

/-- A program given byte by byte, in the middle of a session. -/
theorem callAll_appends (program : List Byte) :
    host.callAll (program.map .append) = host.loadProgram program := by
  induction program generalizing host with
  | nil => rfl
  | cons value program ih => exact ih (host.append value)

theorem replies_appends (program : List Byte) :
    host.replies (program.map .append) = List.replicate program.length .nothing := by
  induction program generalizing host with
  | nil => rfl
  | cons value program ih => exact congrArg (HostReply.nothing :: ·) (ih (host.append value))

end

/-- The host machine after these calls from power-up. -/
def after (calls : List HostCall) : HostMachine := callAll {} calls

/-- A machine after the same calls from power-up, made to itself. -/
def machineAfter (calls : List HostCall) : Machine :=
  (Cpu.start ({} : Memory)).undergoAll (calls.map HostCall.action)

/-- What there is to remember of these calls. -/
def historyAfter (calls : List HostCall) : History :=
  (Cpu.start ({} : Memory)).history (calls.map HostCall.action)

/-- What a host is told in a session from power-up, and what it sees after every call
of it. A program counts as its bytes, appended one by one. -/
structure Faithful (calls : List HostCall) : Prop where
  told : List.Forall₂ HostReply.Tells (replies {} calls)
    ((Cpu.start ({} : Memory)).turns (calls.map HostCall.action))
  shown : ∀ made, made <+: calls → (after made).Shows (machineAfter made)
  cycles : ∀ made, made <+: calls →
    (historyAfter made).loadsSinceFetch.length ≤ executionLimit →
    (after made).cycles.toNat = (machineAfter made).cycles.toNat
  bytewise : ∀ before program later, calls = before ++ .loadProgram program :: later →
    after (before ++ program.map .append ++ later) = after calls ∧
      replies {} (before ++ program.map .append ++ later) =
        (replies {} calls).take before.length ++ List.replicate program.length .nothing ++
          (replies {} calls).drop (before.length + 1)

theorem machine_after (calls : List HostCall) : (after calls).machine = machineAfter calls :=
  machine_callAll {} calls

theorem shows_after (calls : List HostCall) : (after calls).Shows (machineAfter calls) :=
  machine_after calls ▸ shows_machine (after calls)

/-- Within the limit the counter has not left 32 bits. -/
theorem cycles_after {calls : List HostCall}
    (hlimit : (historyAfter calls).loadsSinceFetch.length ≤ executionLimit) :
    (after calls).cycles.toNat = (machineAfter calls).cycles.toNat := by
  have hrecounted := (Cpu.recounted_startAt ({} : Memory) Address.loadAddress).undergoAll
    (calls.map HostCall.action)
  have hcycles : (machineAfter calls).cycles.toNat ≤
      6 * (historyAfter calls).loadsSinceFetch.length := hrecounted.cycles_le
  rw [executionLimit] at hlimit
  rw [(shows_after calls).cycles, Nat.mod_eq_of_lt (by omega)]

theorem after_bytewise (before : List HostCall) (program : List Byte) (later : List HostCall) :
    after (before ++ program.map .append ++ later) =
      after (before ++ .loadProgram program :: later) := by
  rw [after, callAll_append, callAll_append, callAll_appends, after, callAll_append]
  rfl

theorem replies_bytewise (before : List HostCall) (program : List Byte) (later : List HostCall) :
    replies {} (before ++ program.map .append ++ later) =
      (replies {} (before ++ .loadProgram program :: later)).take before.length ++
        List.replicate program.length .nothing ++
        (replies {} (before ++ .loadProgram program :: later)).drop (before.length + 1) := by
  have hloaded : after (before ++ program.map .append) = (after before).loadProgram program := by
    rw [after, callAll_append, callAll_appends, after]
  have hcalls : replies {} (before ++ .loadProgram program :: later) =
      replies {} before ++ [.nothing] ++ ((after before).loadProgram program).replies later := by
    rw [replies_append, List.append_assoc]
    rfl
  have htake : (replies {} (before ++ .loadProgram program :: later)).take before.length =
      replies {} before := by
    rw [hcalls, List.append_assoc, List.take_left' (length_replies _ _)]
  have hdrop : (replies {} (before ++ .loadProgram program :: later)).drop (before.length + 1) =
      ((after before).loadProgram program).replies later := by
    rw [hcalls, List.drop_left' (by simp)]
  rw [htake, hdrop, replies_append, replies_append, replies_appends, ← hloaded]
  rfl

/-- Every session with a host machine is faithful to the machine behind it. -/
theorem faithful (calls : List HostCall) : Faithful calls where
  told := tells_replies {} calls
  shown made _ := shows_after made
  cycles _ _ hlimit := cycles_after hlimit
  bytewise before program later hcalls := by
    rw [hcalls]
    exact ⟨after_bytewise before program later, replies_bytewise before program later⟩

theorem machineAfter_concat (calls : List HostCall) (call : HostCall) :
    machineAfter (calls ++ [call]) = (machineAfter calls).undergo call.action := by
  rw [machineAfter, List.map_append, Cpu.undergoAll, List.foldl_append]
  rfl

theorem historyAfter_concat (calls : List HostCall) (call : HostCall) :
    historyAfter (calls ++ [call]) =
      historyAfter calls ++ (machineAfter calls).events call.action := by
  rw [historyAfter, List.map_append, Cpu.history_append]
  exact congrArg (historyAfter calls ++ ·) (List.append_nil _)

/-- An opcode that never crosses a page takes the same time whenever it is executed. -/
theorem machineAfter_replicate_execute {calls : List HostCall} {instruction : Instruction}
    (hopcode : Instruction.ofByte? (machineAfter calls).opcode = some instruction)
    (hmode : instruction.mode.canCrossPage = false) (count : Nat) :
    (machineAfter (calls ++ List.replicate count .execute)).opcode =
        (machineAfter calls).opcode ∧
      (machineAfter (calls ++ List.replicate count .execute)).cycles =
        (machineAfter calls).cycles + .ofNat (count * instruction.baseCycles) ∧
      (historyAfter (calls ++ List.replicate count .execute)).loadsSinceFetch.length =
        (historyAfter calls).loadsSinceFetch.length + count := by
  induction count with
  | zero => simp
  | succ count ih =>
      obtain ⟨hpending, hcycles, hloads⟩ := ih
      have hdecoded := hpending ▸ hopcode
      rw [List.replicate_succ', ← List.append_assoc, machineAfter_concat, historyAfter_concat,
        HostCall.action, Cpu.undergo_execute_decoded _ hdecoded,
        Cpu.events_execute_decoded _ hdecoded]
      refine ⟨hpending, ?_, ?_⟩
      · rw [Cpu.cycles_executed, hcycles, Cpu.cycles_operand_of_canCrossPage _ hmode,
          UInt64.add_assoc, ← UInt64.ofNat_add, Nat.succ_mul]
      · rw [History.loadsSinceFetch_loaded, List.length_cons, hloads, Nat.add_assoc]

/-- No greater limit would do: for every number of executions above it there is a
session in which so many succeed after one fetch, and the host does not see the
counter. -/
theorem exists_cycles_ne {count : Nat} (hlimit : executionLimit < count)
    (hword : 6 * count < 2 ^ 64) :
    ∃ calls, (historyAfter calls).loadsSinceFetch.length = count ∧
      (after calls).cycles.toNat ≠ (machineAfter calls).cycles.toNat := by
  -- An indirect load in the mode that takes the most cycles, executed again and again.
  have hread : (Memory.append {} 0xA1).read Address.loadAddress = 0xA1 := by
    rw [Memory.read_append]
    rfl
  have hopcode : Instruction.ofByte? (machineAfter [.append 0xA1, .fetch]).opcode =
      some ⟨.a, .indirectX⟩ := by
    change Instruction.ofByte? ((Memory.append {} 0xA1).read Address.loadAddress) = _
    rw [hread]
    decide
  obtain ⟨-, hcycles, hloads⟩ := machineAfter_replicate_execute hopcode rfl count
  have hstart : (machineAfter [.append 0xA1, .fetch]).cycles = 0 := rfl
  have hcounter : (machineAfter ([.append 0xA1, .fetch] ++
      List.replicate count .execute)).cycles.toNat = 6 * count := by
    rw [hcycles, hstart, UInt64.zero_add, Nat.mul_comm 6]
    exact UInt64.toNat_ofNat_of_lt' (Nat.mul_comm 6 count ▸ hword)
  refine ⟨_, hloads.trans (Nat.zero_add count), ?_⟩
  rw [executionLimit] at hlimit
  rw [(shows_after _).cycles, hcounter]
  omega

end HostMachine

end Core6502
