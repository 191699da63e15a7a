import Core6502.Proofs.Arithmetic
import Core6502.Proofs.Sessions
import Core6502.Proofs.Turns

/-! # Bus traffic

Which addresses the processor reads, call by call and over a whole run of
fetches, executions and steps. Reads of the instruction stream are contiguous
across all calls; every other read is one of the reads of an addressing mode;
and nothing is ever written.
-/

namespace Core6502

inductive Work where
  | fetch
  | execute
  | step
deriving DecidableEq

namespace Work

def command : Work → Command
  | .fetch => .fetch
  | .execute => .execute
  | .step => .step

/-- The operand bytes of the instruction that a byte encodes, if it does. -/
def operandCount (opcode : Byte) : Nat :=
  match Instruction.ofByte? opcode with
  | none => 0
  | some instruction => instruction.mode.operandBytes

/-- How many bytes a call takes from the instruction stream, when it leaves the
given opcode pending. -/
def streamCount (opcode : Byte) : Work → Nat
  | .fetch => 1
  | .execute => operandCount opcode
  | .step => 1 + operandCount opcode

/-- The reads of the instruction stream are the first ones of a call. -/
def streamReads {β : Type} (work : Work) (turn : Turn β Answer) : List Address :=
  turn.reads.take (work.streamCount turn.cpu.opcode)

theorem operandCount_undecoded {opcode : Byte} (hopcode : Instruction.ofByte? opcode = none) :
    operandCount opcode = 0 := by
  rw [operandCount, hopcode]

theorem operandCount_decoded {opcode : Byte} {instruction : Instruction}
    (hopcode : Instruction.ofByte? opcode = some instruction) :
    operandCount opcode = instruction.mode.operandBytes := by
  rw [operandCount, hopcode]

end Work

namespace AddressingMode

variable (memory : Address → Byte) (state : CpuState)

/-- The addresses outside the instruction stream that a mode reads, as numbers. -/
def dataNumbers : AddressingMode → List Nat
  | .immediate => []
  | .zeroPage => [(memory state.pc).toNat]
  | .zeroPageX => [((memory state.pc).toNat + state.registers.x.value.toNat) % 256]
  | .zeroPageY => [((memory state.pc).toNat + state.registers.y.value.toNat) % 256]
  | .absolute => [operandNumber memory state]
  | .absoluteX => [(operandNumber memory state + state.registers.x.value.toNat) % 65536]
  | .absoluteY => [(operandNumber memory state + state.registers.y.value.toNat) % 65536]
  | .indirectX => [(memory state.pc).toNat, state.registers.x.value.toNat,
      ((memory (memory state.pc).toUInt16).toNat +
        (memory state.registers.x.value.toUInt16).toNat) % 256]
  | .indirectY => [(memory state.pc).toNat,
      (memory (memory state.pc).toUInt16).toNat + state.registers.y.value.toNat]

theorem toNat_dataReads (mode : AddressingMode) :
    (mode.dataReads memory state).map UInt16.toNat = mode.dataNumbers memory state := by
  cases mode with
  | immediate => rfl
  | zeroPage | zeroPageX | zeroPageY | indirectX =>
      simp [dataReads, pointers, effective?, dataNumbers]
  | absolute | absoluteX | absoluteY =>
      simp [dataReads, pointers, effective?, dataNumbers, toNat_absoluteAddress]
  | indirectY =>
      -- A byte and an index never reach the end of memory.
      have hbase := (memory (memory state.pc).toUInt16).toNat_lt
      have hy := state.registers.y.value.toNat_lt
      have hsum : ((memory (memory state.pc).toUInt16).toNat +
            state.registers.y.value.toNat) % 65536 =
          (memory (memory state.pc).toUInt16).toNat + state.registers.y.value.toNat :=
        Nat.mod_eq_of_lt (by omega)
      simp [dataReads, pointers, effective?, dataNumbers, hsum]

/-- An indirect load never reads above the pages that two bytes can reach. -/
theorem dataNumbers_indirectY_le :
    ∀ number ∈ AddressingMode.indirectY.dataNumbers memory state, number ≤ 0x01FE := by
  have hpointer := (memory state.pc).toNat_lt
  have hbase := (memory (memory state.pc).toUInt16).toNat_lt
  have hy := state.registers.y.value.toNat_lt
  rw [dataNumbers, List.forall_mem_cons, List.forall_mem_singleton]
  omega

end AddressingMode

namespace Cpu

variable {α β : Type} [Bus β] (cpu : Cpu β)

/-- The reads of an execution. If it fails, because no opcode is pending, there are
none; otherwise they are the operand bytes and then the data of the mode. -/
def ExecutionReads (result : Except ExecutionError α) (reads : List Address) : Prop :=
  match result with
  | .error _ => (∀ opcode : Opcode, opcode.byte ≠ cpu.opcode) ∧ reads = []
  | .ok _ => ∃ (opcode : Opcode) (data : List Address), opcode.byte = cpu.opcode ∧
      reads = cpu.pc.span opcode.instruction.mode.operandBytes ++ data ∧
      data.map UInt16.toNat =
        opcode.instruction.mode.dataNumbers (Bus.read cpu.bus) cpu.toCpuState ∧
      (opcode.instruction.mode = .indirectY → ∀ address ∈ data, address.toNat ≤ 0x01FE)

def WorkReads (turn : Turn β Answer) : Work → Prop
  | .fetch => turn.reads = [cpu.pc]
  | .execute => ∃ result, turn.result = .executed result ∧ cpu.ExecutionReads result turn.reads
  | .step => ∃ result reads, turn.result = .stepped result ∧ turn.reads = cpu.pc :: reads ∧
      cpu.fetched.ExecutionReads result reads ∧ turn.reads.length ≤ 5

/-- The reads of the instruction stream in a run. -/
def streamOf (works : List Work) : List Address :=
  (List.zipWith Work.streamReads works (cpu.trace (works.map Work.command))).flatten

theorem executionReads_undecoded (error : ExecutionError)
    (hopcode : Instruction.ofByte? cpu.opcode = none) :
    cpu.ExecutionReads (.error error : Except ExecutionError α) [] :=
  ⟨Instruction.ofByte?_eq_none_iff.mp hopcode, rfl⟩

theorem executionReads_decoded {instruction : Instruction} (value : α)
    (hopcode : Instruction.ofByte? cpu.opcode = some instruction) :
    cpu.ExecutionReads (.ok value) (cpu.operandReads instruction) := by
  obtain ⟨opcode, hbyte, rfl⟩ := Instruction.ofByte?_eq_some_iff.mp hopcode
  have hnumbers := opcode.instruction.mode.toNat_dataReads (Bus.read cpu.bus) cpu.toCpuState
  refine ⟨opcode, _, hbyte, rfl, hnumbers, ?_⟩
  intro hmode address haddress
  apply AddressingMode.dataNumbers_indirectY_le (Bus.read cpu.bus) cpu.toCpuState
  rw [← hmode, ← hnumbers]
  exact List.mem_map_of_mem haddress

theorem length_operandReads_le (instruction : Instruction) :
    (cpu.operandReads instruction).length ≤ 4 := by
  rw [operandReads, List.length_append, Address.length_span]
  cases instruction.mode <;> simp [AddressingMode.dataReads, AddressingMode.pointers,
    AddressingMode.effective?, AddressingMode.operandBytes]

theorem workReads_perform (work : Work) : cpu.WorkReads (cpu.perform work.command) work := by
  cases work with
  | fetch =>
      rw [Work.command, perform, fetch_eq]
      rfl
  | execute =>
      rw [Work.command, perform]
      refine ⟨cpu.execute.result, rfl, ?_⟩
      rw [Turn.map]
      cases hopcode : Instruction.ofByte? cpu.opcode with
      | none =>
          rw [cpu.execute_undecoded hopcode]
          exact cpu.executionReads_undecoded _ hopcode
      | some instruction =>
          rw [cpu.execute_decoded hopcode]
          exact cpu.executionReads_decoded () hopcode
  | step =>
      rw [Work.command, perform, Turn.map]
      cases hopcode : Instruction.ofByte? cpu.nextOpcode with
      | none =>
          rw [cpu.step_undecoded hopcode]
          exact ⟨_, [], rfl, rfl, cpu.fetched.executionReads_undecoded _ hopcode,
            Nat.succ_le_succ (Nat.zero_le 4)⟩
      | some instruction =>
          have hlength := cpu.fetched.length_operandReads_le instruction
          rw [cpu.step_decoded hopcode]
          exact ⟨_, _, rfl, rfl, cpu.fetched.executionReads_decoded _ hopcode,
            Nat.succ_le_succ hlength⟩

/-- The stream reads of a call are consecutive, and it moves the program counter past them. -/
theorem streamReads_perform (work : Work) :
    work.streamReads (cpu.perform work.command) =
        cpu.pc.span (work.streamCount (cpu.perform work.command).cpu.opcode) ∧
      (cpu.perform work.command).cpu.pc =
        cpu.pc + .ofNat (work.streamCount (cpu.perform work.command).cpu.opcode) := by
  cases work with
  | fetch =>
      rw [Work.command, perform, fetch_eq]
      exact ⟨(Address.span_one cpu.pc).symm, rfl⟩
  | execute =>
      rw [Work.command, perform, Turn.map]
      cases hopcode : Instruction.ofByte? cpu.opcode with
      | none =>
          have hcount := Work.operandCount_undecoded hopcode
          rw [cpu.execute_undecoded hopcode, Work.streamReads, Work.streamCount, hcount]
          exact ⟨rfl, (UInt16.add_zero cpu.pc).symm⟩
      | some instruction =>
          have hcount := Work.operandCount_decoded hopcode
          rw [cpu.execute_decoded hopcode, Work.streamReads, Work.streamCount, opcode_executed,
            hcount]
          exact ⟨cpu.take_operandReads instruction, rfl⟩
  | step =>
      rw [Work.command, perform, Turn.map]
      cases hopcode : Instruction.ofByte? cpu.nextOpcode with
      | none =>
          have hcount := Work.operandCount_undecoded hopcode
          rw [cpu.step_undecoded hopcode, Work.streamReads, Work.streamCount, opcode_fetched,
            hcount]
          exact ⟨(Address.span_one cpu.pc).symm, rfl⟩
      | some instruction =>
          -- The opcode byte is part of the stream: its reads are those of the whole instruction.
          have hcount := Work.operandCount_decoded hopcode
          rw [cpu.step_decoded hopcode, Work.streamReads, Work.streamCount, opcode_executed,
            opcode_fetched, hcount, ← Instruction.size]
          exact ⟨cpu.take_size_reads instruction, cpu.pc_executed_fetched instruction⟩

theorem bus_perform (work : Work) : (cpu.perform work.command).cpu.bus = cpu.bus := by
  cases work <;> rfl

theorem bus_performAll (works : List Work) :
    (cpu.performAll (works.map Work.command)).bus = cpu.bus := by
  induction works generalizing cpu with
  | nil => rfl
  | cons work works ih => exact (ih _).trans (cpu.bus_perform work)

/-- Over a run the stream reads of all calls together are consecutive. -/
theorem streamOf_eq_span (works : List Work) :
    cpu.streamOf works = cpu.pc.span (cpu.streamOf works).length ∧
      (cpu.performAll (works.map Work.command)).pc =
        cpu.pc + .ofNat (cpu.streamOf works).length := by
  -- On the calls: the stream of the rest begins where the first call left the program counter.
  induction works generalizing cpu with
  | nil => exact ⟨rfl, (UInt16.add_zero cpu.pc).symm⟩
  | cons work works ih =>
      obtain ⟨hreads, hpc⟩ := cpu.streamReads_perform work
      obtain ⟨hrest, hend⟩ := ih (cpu.perform work.command).cpu
      have hstream : cpu.streamOf (work :: works) =
          work.streamReads (cpu.perform work.command) ++
            (cpu.perform work.command).cpu.streamOf works := rfl
      rw [hstream, List.map_cons, performAll_cons, hend, hreads, List.length_append,
        Address.length_span, Address.span_add, hpc, UInt16.ofNat_add, UInt16.add_assoc]
      refine ⟨?_, rfl⟩
      rw [hpc] at hrest
      rw [← hrest]

/-- The traffic of a run: what each call reads, the stream reads of all calls
together, and no writes. -/
structure RunTraffic (works : List Work) : Prop where
  bus : (cpu.performAll (works.map Work.command)).bus = cpu.bus
  stream : cpu.streamOf works = cpu.pc.span (cpu.streamOf works).length
  pc : (cpu.performAll (works.map Work.command)).pc.toNat =
    (cpu.pc.toNat + (cpu.streamOf works).length) % 65536
  calls : ∀ index work, works[index]? = some work →
    ∃ turn, (cpu.trace (works.map Work.command))[index]? = some turn ∧
      (cpu.performAll ((works.take index).map Work.command)).WorkReads turn work ∧
      turn.cpu.bus = cpu.bus

/-- Every run of fetches, executions and steps has this traffic, on every bus. -/
theorem runTraffic (works : List Work) : cpu.RunTraffic works where
  bus := cpu.bus_performAll works
  stream := (cpu.streamOf_eq_span works).1
  pc := by
    rw [(cpu.streamOf_eq_span works).2, UInt16.toNat_add, UInt16.toNat_ofNat']
    omega
  calls index work hwork := by
    refine ⟨_, ?_, workReads_perform _ work, ?_⟩
    · rw [getElem?_trace, List.getElem?_map, hwork, ← List.map_take]
      rfl
    · rw [bus_perform, bus_performAll]

end Cpu

end Core6502
