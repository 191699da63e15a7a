import Core6502.Proofs.Resolution

/-! # Turns of the processor

What fetching, executing and stepping return, where they leave the processor and
what they read on the way, each as one equation. Executing has one for a pending
byte that is an opcode and one for a byte that is not, and so has stepping.
-/

namespace Core6502

namespace CpuState

def executed (memory : Address → Byte) (state : CpuState) (instruction : Instruction) :
    CpuState :=
  let operand := instruction.mode.operand memory state
  { state with
    registers := state.registers.set instruction.target operand.value
    pc := state.pc + .ofNat instruction.mode.operandBytes
    status := .derive operand.value
    cycles := state.cycles + .ofNat (instruction.cycles operand) }

def fetched (state : CpuState) (opcode : Byte) : CpuState :=
  { state with pc := state.pc + 1, opcode, cycles := 0 }

/-- Loading the operand after the status was cleared leaves only the flags of the operand. -/
theorem load_clear (memory : Address → Byte) (state : CpuState) (instruction : Instruction) :
    CpuState.load
        { state with
          status := state.status.clear
          pc := state.pc + .ofNat instruction.mode.operandBytes }
        instruction (instruction.mode.operand memory state) =
      state.executed memory instruction := by
  simp only [load, executed, Status.insert_clear]

end CpuState

/-- Executing an opcode, against a memory. -/
theorem Execution.run_execute {memory : Address → Byte} {state : CpuState}
    {instruction : Instruction} (hopcode : Instruction.ofByte? state.opcode = some instruction) :
    (execute.run state).run memory =
      { result := (.ok (), state.executed memory instruction)
        reads := state.pc.span instruction.mode.operandBytes ++
          instruction.mode.dataReads memory state
        records := [.resolved instruction.mode (instruction.mode.operand memory state),
          .loaded instruction (instruction.mode.operand memory state).value
            (state.executed memory instruction).status
            (state.executed memory instruction).cycles] } := by
  -- The cleared status takes no part in the resolution.
  have hoperand : instruction.mode.operand memory { state with status := state.status.clear } =
      instruction.mode.operand memory state := rfl
  have hreads : instruction.mode.dataReads memory { state with status := state.status.clear } =
      instruction.mode.dataReads memory state := rfl
  rw [run_execute_decoded state hopcode, Activity.run_bind, run_locate, hoperand, hreads]
  simp only [Outcome.andThen, Activity.run, CpuState.load_clear, List.append_nil, List.nil_append]

namespace Cpu

variable {β : Type} [Bus β] (cpu : Cpu β)

def nextOpcode : Byte := Bus.read cpu.bus cpu.pc

def fetched : Cpu β := { cpu with toCpuState := cpu.toCpuState.fetched cpu.nextOpcode }

def executed (instruction : Instruction) : Cpu β :=
  { cpu with toCpuState := cpu.toCpuState.executed (Bus.read cpu.bus) instruction }

def operand (instruction : Instruction) : Operand :=
  instruction.mode.operand (Bus.read cpu.bus) cpu.toCpuState

/-- The reads of an instruction: its operand bytes, then its data. -/
def operandReads (instruction : Instruction) : List Address :=
  cpu.pc.span instruction.mode.operandBytes ++
    instruction.mode.dataReads (Bus.read cpu.bus) cpu.toCpuState

section

variable (instruction : Instruction)

@[simp] theorem bus_fetched : cpu.fetched.bus = cpu.bus := rfl

@[simp] theorem pc_fetched : cpu.fetched.pc = cpu.pc + 1 := rfl

@[simp] theorem opcode_fetched : cpu.fetched.opcode = cpu.nextOpcode := rfl

@[simp] theorem cycles_fetched : cpu.fetched.cycles = 0 := rfl

@[simp] theorem bus_executed : (cpu.executed instruction).bus = cpu.bus := rfl

@[simp] theorem registers_executed : (cpu.executed instruction).registers =
    cpu.registers.set instruction.target (cpu.operand instruction).value := rfl

@[simp] theorem pc_executed : (cpu.executed instruction).pc =
    cpu.pc + .ofNat instruction.mode.operandBytes := rfl

@[simp] theorem opcode_executed : (cpu.executed instruction).opcode = cpu.opcode := rfl

@[simp] theorem status_executed : (cpu.executed instruction).status =
    .derive (cpu.operand instruction).value := rfl

@[simp] theorem cycles_executed : (cpu.executed instruction).cycles =
    cpu.cycles + .ofNat (instruction.cycles (cpu.operand instruction)) := rfl

end

theorem cycles_operand (instruction : Instruction) :
    instruction.cycles (cpu.operand instruction) = instruction.baseCycles +
      if instruction.mode.leavesPage (Bus.read cpu.bus) cpu.toCpuState then 1 else 0 := by
  rw [Instruction.cycles, operand, AddressingMode.pageCrossed_operand]

/-- An instruction whose mode never charges for a page takes its base cycles. -/
theorem cycles_operand_of_canCrossPage {instruction : Instruction}
    (hmode : instruction.mode.canCrossPage = false) :
    instruction.cycles (cpu.operand instruction) = instruction.baseCycles := by
  have hleaves : instruction.mode.leavesPage (Bus.read cpu.bus) cpu.toCpuState = false :=
    eq_false_of_ne_true fun hleaves =>
      absurd (AddressingMode.canCrossPage_of_leavesPage _ _ hleaves) (hmode ▸ Bool.false_ne_true)
  rw [cycles_operand, hleaves]
  rfl

theorem take_operandReads (instruction : Instruction) :
    (cpu.operandReads instruction).take instruction.mode.operandBytes =
      cpu.pc.span instruction.mode.operandBytes :=
  List.take_left' (Address.length_span _ _)

theorem drop_operandReads (instruction : Instruction) :
    (cpu.operandReads instruction).drop instruction.mode.operandBytes =
      instruction.mode.dataReads (Bus.read cpu.bus) cpu.toCpuState :=
  List.drop_left' (Address.length_span _ _)

/-- The last read of an instruction is its effective address, if its mode has one. -/
theorem getLast?_operandReads {instruction : Instruction} {address : Address}
    (haddress : instruction.mode.effective? (Bus.read cpu.bus) cpu.toCpuState = some address) :
    (cpu.operandReads instruction).getLast? = some address := by
  rw [operandReads, AddressingMode.dataReads, haddress, Option.toList_some, ← List.append_assoc,
    List.getLast?_concat]

/-- The first reads of an instruction are the bytes that it is encoded in. -/
theorem take_size_reads (instruction : Instruction) :
    (cpu.pc :: cpu.fetched.operandReads instruction).take instruction.size =
      cpu.pc.span instruction.size := by
  rw [Instruction.size, Nat.add_comm, List.take_succ_cons, Address.span_succ, take_operandReads,
    pc_fetched]

/-- The other reads of an instruction are those of its mode. -/
theorem drop_size_reads (instruction : Instruction) :
    (cpu.pc :: cpu.fetched.operandReads instruction).drop instruction.size =
      instruction.mode.dataReads (Bus.read cpu.bus) cpu.fetched.toCpuState := by
  rw [Instruction.size, Nat.add_comm, List.drop_succ_cons, drop_operandReads]
  rfl

theorem pc_executed_fetched (instruction : Instruction) :
    (cpu.fetched.executed instruction).pc = cpu.pc + .ofNat instruction.size := by
  rw [pc_executed, pc_fetched, Instruction.size, Nat.add_comm, Address.add_ofNat_succ]

theorem fetch_eq : cpu.fetch =
    { result := cpu.nextOpcode
      cpu := cpu.fetched
      reads := [cpu.pc]
      records := [.fetched cpu.nextOpcode cpu.pc] } := rfl

/-- Executing a byte that is no opcode reads nothing and changes nothing. -/
theorem execute_undecoded (hopcode : Instruction.ofByte? cpu.opcode = none) : cpu.execute =
    { result := .error (.unimplementedOpcode cpu.opcode)
      cpu
      reads := []
      records := [.unimplemented cpu.opcode cpu.pc] } := by
  rw [execute, act, Execution.run_execute_undecoded _ hopcode]
  rfl

theorem execute_decoded {instruction : Instruction}
    (hopcode : Instruction.ofByte? cpu.opcode = some instruction) : cpu.execute =
    { result := .ok ()
      cpu := cpu.executed instruction
      reads := cpu.operandReads instruction
      records := [.resolved instruction.mode (cpu.operand instruction),
        .loaded instruction (cpu.operand instruction).value
          (cpu.executed instruction).status (cpu.executed instruction).cycles] } := by
  rw [execute, act, Execution.run_execute hopcode]
  rfl

/-- A step is a fetch, then an execution of the fetched byte. -/
theorem step_eq : cpu.step =
    { result := cpu.fetched.execute.result.map fun _ => cpu.fetched.execute.cpu.cycles
      cpu := cpu.fetched.execute.cpu
      reads := cpu.pc :: cpu.fetched.execute.reads
      records := .fetched cpu.nextOpcode cpu.pc :: cpu.fetched.execute.records } := by
  simp only [step, act, Execution.run_step, Activity.run_bind, Execution.run_fetch, Activity.run,
    Outcome.andThen, List.append_nil]
  rfl

theorem step_undecoded (hopcode : Instruction.ofByte? cpu.nextOpcode = none) : cpu.step =
    { result := .error (.unimplementedOpcode cpu.nextOpcode)
      cpu := cpu.fetched
      reads := [cpu.pc]
      records := [.fetched cpu.nextOpcode cpu.pc,
        .unimplemented cpu.nextOpcode (cpu.pc + 1)] } := by
  rw [← opcode_fetched] at hopcode
  rw [step_eq, cpu.fetched.execute_undecoded hopcode]
  rfl

theorem step_decoded {instruction : Instruction}
    (hopcode : Instruction.ofByte? cpu.nextOpcode = some instruction) : cpu.step =
    { result := .ok (.ofNat (instruction.cycles (cpu.fetched.operand instruction)))
      cpu := cpu.fetched.executed instruction
      reads := cpu.pc :: cpu.fetched.operandReads instruction
      records := [.fetched cpu.nextOpcode cpu.pc,
        .resolved instruction.mode (cpu.fetched.operand instruction),
        .loaded instruction (cpu.fetched.operand instruction).value
          (cpu.fetched.executed instruction).status
          (cpu.fetched.executed instruction).cycles] } := by
  have hcycles : (cpu.fetched.executed instruction).cycles =
      .ofNat (instruction.cycles (cpu.fetched.operand instruction)) := by
    rw [cycles_executed, cycles_fetched, UInt64.zero_add]
  rw [← opcode_fetched] at hopcode
  rw [step_eq, cpu.fetched.execute_decoded hopcode, ← hcycles]
  rfl

end Cpu

end Core6502
