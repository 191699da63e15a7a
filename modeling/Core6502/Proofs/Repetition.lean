import Mathlib.Algebra.GroupWithZero.Nat
import Core6502.Proofs.Span
import Core6502.Proofs.Indexing
import Core6502.Proofs.Sessions

/-! # Repeated calls

What fetching or executing several times in a row amounts to. Only the last of
several fetches leaves a trace. A failing execution can be repeated without any
effect. An execution that succeeds is repeated with the operand bytes that come
next, but with the index that it had at first, because no instruction loads the
register that it is indexed by; of what it loads only the last byte remains.
-/

namespace Core6502.Cpu

variable {β : Type} [Bus β] (cpu : Cpu β)

/-- The processor at the operand bytes of the execution with the given position in
a row of executions, and otherwise as it is before the first of them. -/
def atOperand (instruction : Instruction) (index : Nat) : Cpu β :=
  cpu.setPc (cpu.pc + .ofNat (index * instruction.mode.operandBytes))

/-- What the execution with the given position in a row resolves. -/
def operandAt (instruction : Instruction) (index : Nat) : Operand :=
  (cpu.atOperand instruction index).operand instruction

/-- How many of the first `count` executions in a row cross a page. -/
def crossings (instruction : Instruction) (count : Nat) : Nat :=
  (List.range count).countP fun index => (cpu.operandAt instruction index).pageCrossed

theorem crossings_succ (instruction : Instruction) (count : Nat) :
    cpu.crossings instruction (count + 1) = cpu.crossings instruction count +
      if (cpu.operandAt instruction count).pageCrossed then 1 else 0 := by
  rw [crossings, crossings, List.range_succ, List.countP_append, List.countP_singleton]

/-- The executions in a row take at most six cycles each. -/
theorem cycles_row_le (instruction : Instruction) (count : Nat) :
    count * instruction.baseCycles + cpu.crossings instruction count ≤ 6 * count := by
  induction count with
  | zero => simp [crossings]
  | succ count ih =>
      have hcycles : instruction.cycles (cpu.operandAt instruction count) ≤ 6 :=
        Instruction.cycles_operand_le _ _ instruction
      rw [Instruction.cycles] at hcycles
      rw [crossings_succ, Nat.succ_mul]
      omega

/-- The pending opcode has been executed `count` times in a row. -/
structure HasExecuted (instruction : Instruction) (count : Nat) (after : Cpu β) : Prop where
  bus : after.bus = cpu.bus
  opcode : after.opcode = cpu.opcode
  operandOrder : after.operandOrder = cpu.operandOrder
  pc : after.pc = (cpu.atOperand instruction count).pc
  others : ∀ name ≠ instruction.target, after.registers.get name = cpu.registers.get name
  cycles : after.cycles =
    cpu.cycles + .ofNat (count * instruction.baseCycles + cpu.crossings instruction count)

namespace HasExecuted

variable {cpu} {instruction : Instruction} {count : Nat} {after : Cpu β}

theorem zero : cpu.HasExecuted instruction 0 cpu where
  bus := rfl
  opcode := rfl
  operandOrder := rfl
  pc := by simp [atOperand, setPc]
  others _ _ := rfl
  cycles := by simp [crossings]

variable (h : cpu.HasExecuted instruction count after)
  (hindex : instruction.mode.indexRegister ≠ some instruction.target)

include h hindex

/-- The executions so far loaded nothing that the mode consults. -/
theorem sameInputs :
    instruction.mode.SameInputs after.toCpuState (cpu.atOperand instruction count).toCpuState where
  pc := h.pc
  operandOrder _ := h.operandOrder
  index name hname := by
    apply h.others
    rintro rfl
    exact hindex hname

theorem operand : after.operand instruction = cpu.operandAt instruction count :=
  operand_eq_of_sameInputs h.bus (h.sameInputs hindex)

theorem operandReads :
    after.operandReads instruction = (cpu.atOperand instruction count).operandReads instruction :=
  operandReads_eq_of_sameInputs h.bus (h.sameInputs hindex)

/-- The next execution. -/
theorem succ : cpu.HasExecuted instruction (count + 1) (after.executed instruction) where
  bus := h.bus
  opcode := h.opcode
  operandOrder := h.operandOrder
  pc := by
    rw [pc_executed, h.pc, atOperand, atOperand, setPc, setPc, Nat.succ_mul, UInt16.ofNat_add,
      UInt16.add_assoc]
  others name hname := by
    rw [registers_executed, Registers.get_set_other _ _ hname]
    exact h.others name hname
  cycles := by
    rw [cycles_executed, h.cycles, h.operand hindex, crossings_succ, Instruction.cycles,
      UInt64.add_assoc, ← UInt64.ofNat_add]
    congr 2
    rw [Nat.succ_mul]
    omega

end HasExecuted

/-- A decoded opcode was executed `count` times in a row. Every execution succeeded
and read its own operand bytes, resolved with the registers as they were at first;
what the last one loaded decides the target register and the status. -/
structure LoadedRepeatedly (instruction : Instruction) (count : Nat) (turns : List (Turn β Answer))
    (after : Cpu β) : Prop where
  turns : ∀ index < count, ∃ turn, turns[index]? = some turn ∧
    turn.result = .executed (.ok ()) ∧
    turn.reads.take instruction.mode.operandBytes =
      (cpu.pc + .ofNat (index * instruction.mode.operandBytes)).span
        instruction.mode.operandBytes ∧
    turn.reads = (cpu.atOperand instruction index).operandReads instruction ∧
    turn.cpu.registers.get instruction.target = (cpu.operandAt instruction index).value
  pc : after.pc.toNat = (cpu.pc.toNat + count * instruction.mode.operandBytes) % 65536
  opcode : after.opcode = cpu.opcode
  cycles : after.cycles.toNat =
    cpu.cycles.toNat + count * instruction.baseCycles + cpu.crossings instruction count
  target : after.registers.get instruction.target =
    (cpu.operandAt instruction (count - 1)).value
  status : after.status = .derive (cpu.operandAt instruction (count - 1)).value
  others : ∀ name ≠ instruction.target, after.registers.get name = cpu.registers.get name
  operandOrder : after.operandOrder = cpu.operandOrder
  bus : after.bus = cpu.bus

/-- What calling one operation `count` times in a row amounts to. -/
structure Repeats (count : Nat) : Prop where
  /-- Only the last fetch leaves a trace. -/
  fetches : cpu.performAll (List.replicate count .fetch) =
    (cpu.setPc (cpu.pc + .ofNat (count - 1))).fetch.cpu
  /-- Executions of a byte that is no opcode have no effect at all. -/
  failures : Instruction.ofByte? cpu.opcode = none →
    cpu.trace (List.replicate count .execute) = List.replicate count
        { result := .executed (.error (.unimplementedOpcode cpu.opcode))
          cpu
          reads := []
          records := [.unimplemented cpu.opcode cpu.pc] } ∧
      cpu.performAll (List.replicate count .execute) = cpu
  loads : ∀ instruction, Instruction.ofByte? cpu.opcode = some instruction →
    cpu.cycles.toNat + 6 * count < 2 ^ 64 →
    cpu.LoadedRepeatedly instruction count (cpu.trace (List.replicate count .execute))
      (cpu.performAll (List.replicate count .execute))

theorem performAll_fetch (count : Nat) :
    cpu.performAll (List.replicate (count + 1) .fetch) =
      (cpu.setPc (cpu.pc + .ofNat count)).fetched := by
  induction count with
  | zero =>
      have hpc : cpu.setPc (cpu.pc + .ofNat 0) = cpu := by simp [setPc]
      rw [hpc]
      rfl
  | succ count ih =>
      -- A fetch forgets the opcode and the cycles of the one before it.
      have hfetched : ∀ pc, (cpu.setPc pc).fetched.fetched = (cpu.setPc (pc + 1)).fetched :=
        fun _ => rfl
      rw [performAll_replicate_succ, ih, UInt16.ofNat_add, ← UInt16.add_assoc]
      exact hfetched _

theorem perform_execute_undecoded (hopcode : Instruction.ofByte? cpu.opcode = none) :
    cpu.perform .execute =
      { result := .executed (.error (.unimplementedOpcode cpu.opcode))
        cpu
        reads := []
        records := [.unimplemented cpu.opcode cpu.pc] } := by
  rw [perform, cpu.execute_undecoded hopcode]
  rfl

theorem trace_execute_undecoded (hopcode : Instruction.ofByte? cpu.opcode = none) (count : Nat) :
    cpu.trace (List.replicate count .execute) =
      List.replicate count (cpu.perform .execute) := by
  induction count with
  | zero => rfl
  | succ count ih =>
      have hcpu : (cpu.perform .execute).cpu = cpu := by rw [cpu.perform_execute_undecoded hopcode]
      rw [List.replicate_succ, trace, hcpu, ih, List.replicate_succ]

theorem performAll_execute_undecoded (hopcode : Instruction.ofByte? cpu.opcode = none)
    (count : Nat) : cpu.performAll (List.replicate count .execute) = cpu := by
  induction count with
  | zero => rfl
  | succ count ih => rw [performAll_replicate_succ, ih, cpu.perform_execute_undecoded hopcode]

section

variable {instruction : Instruction} {cpu}
  (hopcode : Instruction.ofByte? cpu.opcode = some instruction)

include hopcode

theorem hasExecuted_performAll (count : Nat) :
    cpu.HasExecuted instruction count (cpu.performAll (List.replicate count .execute)) := by
  -- On the count: what the mode consults is the same each time, but for the program counter.
  induction count with
  | zero => exact HasExecuted.zero
  | succ count ih =>
      have hpending := ih.opcode ▸ hopcode
      rw [performAll_replicate_succ, perform, Turn.map, execute_decoded _ hpending]
      exact ih.succ (Instruction.indexRegister_ne_target hopcode)

/-- The turn of one execution in the row. -/
theorem perform_execute_replicate (index : Nat) :
    ∃ turn, (cpu.performAll (List.replicate index .execute)).perform .execute = turn ∧
      turn.result = .executed (.ok ()) ∧
      turn.reads = (cpu.atOperand instruction index).operandReads instruction ∧
      turn.cpu.registers.get instruction.target = (cpu.operandAt instruction index).value ∧
      turn.cpu.status = .derive (cpu.operandAt instruction index).value := by
  have hexecuted := hasExecuted_performAll hopcode index
  have hindex := Instruction.indexRegister_ne_target hopcode
  refine ⟨_, rfl, ?_⟩
  rw [perform, Turn.map, execute_decoded _ (hexecuted.opcode ▸ hopcode)]
  refine ⟨rfl, hexecuted.operandReads hindex, ?_, ?_⟩
  · rw [registers_executed, Registers.get_set_same, hexecuted.operand hindex]
  · rw [status_executed, hexecuted.operand hindex]

theorem loadedRepeatedly {count : Nat} (hcount : 1 ≤ count)
    (hcycles : cpu.cycles.toNat + 6 * count < 2 ^ 64) :
    cpu.LoadedRepeatedly instruction count (cpu.trace (List.replicate count .execute))
      (cpu.performAll (List.replicate count .execute)) := by
  have hexecuted := hasExecuted_performAll hopcode count
  have hrow := cpu.cycles_row_le instruction count
  obtain ⟨last, rfl⟩ := Nat.exists_eq_add_of_le' hcount
  obtain ⟨turn, hturn, -, -, htarget, hstatus⟩ := perform_execute_replicate hopcode last
  have hlast : cpu.performAll (List.replicate (last + 1) .execute) = turn.cpu := by
    rw [performAll_replicate_succ, hturn]
  exact {
    turns := by
      intro index hindex
      obtain ⟨turn, hturn, hresult, hreads, hvalue, -⟩ := perform_execute_replicate hopcode index
      refine ⟨turn, ?_, hresult, ?_, hreads, hvalue⟩
      · rw [cpu.getElem?_trace_replicate _ hindex, hturn]
      · rw [hreads, take_operandReads]
        rfl
    pc := by
      rw [hexecuted.pc, atOperand, setPc, UInt16.toNat_add, UInt16.toNat_ofNat']
      omega
    opcode := hexecuted.opcode
    cycles := by
      -- The counter starts far enough below its width for the whole row.
      have hsize : UInt64.size = 2 ^ 64 := rfl
      rw [hexecuted.cycles, UInt64.toNat_add, UInt64.toNat_ofNat_of_lt' (by omega),
        Nat.mod_eq_of_lt (by omega), Nat.add_assoc]
    target := by
      rw [hlast]
      exact htarget
    status := by
      rw [hlast]
      exact hstatus
    others := hexecuted.others
    operandOrder := hexecuted.operandOrder
    bus := hexecuted.bus }

end

/-- Repeated calls of one operation, from every state of the processor. -/
theorem repeats (count : Nat) (hcount : 1 ≤ count) : cpu.Repeats count where
  fetches := by
    obtain ⟨last, rfl⟩ := Nat.exists_eq_add_of_le' hcount
    exact cpu.performAll_fetch last
  failures hopcode := by
    rw [cpu.trace_execute_undecoded hopcode, cpu.perform_execute_undecoded hopcode]
    exact ⟨rfl, cpu.performAll_execute_undecoded hopcode count⟩
  loads _ hopcode hcycles := loadedRepeatedly hopcode hcount hcycles

/-- An indexed load is pending. The operand bytes of its first execution wrap past
the last address, and only that execution crosses a page. -/
def pendingLoad : Cpu Cells :=
  { startAt ⟨[(0xFFFF, 0x12), (0x0000, 0xFF), (0x0001, 0x12), (0x0002, 0x30), (0x1300, 0x09),
      (0x1231, 0x80)]⟩ 0xFFFF with
    registers := { x := ⟨0x01⟩, y := ⟨0x05⟩ }
    opcode := 0xBC
    cycles := 7 }

theorem repeats_pendingLoad :
    1 ≤ 2 ∧ Instruction.ofByte? pendingLoad.opcode = some ⟨.y, .absoluteX⟩ ∧
      pendingLoad.cycles.toNat + 6 * 2 < 2 ^ 64 ∧ pendingLoad.Repeats 2 ∧
      pendingLoad.LoadedRepeatedly ⟨.y, .absoluteX⟩ 2 (pendingLoad.trace [.execute, .execute])
        (pendingLoad.performAll [.execute, .execute]) := by
  have hopcode : Instruction.ofByte? pendingLoad.opcode = some ⟨.y, .absoluteX⟩ := by decide
  have hcycles : pendingLoad.cycles.toNat + 6 * 2 < 2 ^ 64 := by decide
  have hrepeats := repeats pendingLoad 2 (by decide)
  exact ⟨by decide, hopcode, hcycles, hrepeats, hrepeats.loads _ hopcode hcycles⟩

end Core6502.Cpu
