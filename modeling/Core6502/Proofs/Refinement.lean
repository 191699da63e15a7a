import Core6502.Proofs.Arithmetic
import Core6502.Proofs.Reference
import Core6502.Proofs.Turns

/-! # Refinement of the reference machine

The processor is the reference machine with every number stored in a word of
its width. One instruction of the one is one instruction of the other, and
therefore so is every session of instructions, register writes and bus writes.
-/

namespace Core6502

variable {β : Type} [Bus β]

/-- The numbers that a processor stores. -/
def Cpu.toReference (cpu : Cpu β) : Reference β where
  a := cpu.a.toNat
  x := cpu.x.toNat
  y := cpu.y.toNat
  pc := cpu.pc.toNat
  opcode := cpu.opcode.toNat
  status := cpu.status.bits.toNat
  cycles := cpu.cycles.toNat
  operandOrder := cpu.operandOrder
  bus := cpu.bus

namespace Reference

def ofResult : Except ExecutionError UInt64 → Except Nat Nat
  | .ok cycles => .ok cycles.toNat
  | .error (.unimplementedOpcode opcode) => .error opcode.toNat

/-- The report that an answer stands for. -/
def Report.ofAnswer? : Answer → Option Report
  | .nothing => some .nothing
  | .stepped result => some (.stepped (ofResult result))
  | .byte _ | .executed _ => none

theorem decode_toNat (byte : Byte) :
    decode byte.toNat = (Instruction.ofByte? byte).map fun instruction =>
      (instruction.target, instruction.mode) := by
  -- Two tables of 256 entries, compared entry by entry.
  have hall : ∀ number < 256, decode number =
      (Instruction.ofByte? (.ofNat number)).map fun instruction =>
        (instruction.target, instruction.mode) := by
    decide +kernel
  have hbyte := hall byte.toNat byte.toNat_lt
  rwa [UInt8.ofNat_toNat] at hbyte

theorem flags_toNat (byte : Byte) : flags byte.toNat = (Status.derive byte).bits.toNat := by
  have hall : ∀ number < 256,
      flags number = (Status.derive (.ofNat number)).bits.toNat := by
    decide +kernel
  have hflags := hall byte.toNat byte.toNat_lt
  rwa [UInt8.ofNat_toNat] at hflags

variable (cpu : Cpu β)

theorem mem_toNat (address : Address) :
    cpu.toReference.mem address.toNat = (Bus.read cpu.bus address).toNat := by
  rw [mem, UInt16.ofNat_toNat]
  rfl

theorem mem_lt (machine : Reference β) (address : Nat) : machine.mem address < 256 :=
  UInt8.toNat_lt _

theorem toNat_pc_fetched : cpu.fetched.pc.toNat = (cpu.toReference.pc + 1) % 65536 :=
  UInt16.toNat_add cpu.pc 1

theorem first_toReference :
    (Bus.read cpu.bus cpu.fetched.pc).toNat = cpu.toReference.first := by
  rw [← mem_toNat, toNat_pc_fetched, first]

theorem second_toReference :
    (Bus.read cpu.bus (cpu.fetched.pc + 1)).toNat = cpu.toReference.second := by
  have hpc : (cpu.fetched.pc + 1).toNat = (cpu.toReference.pc + 2) % 65536 := by
    rw [UInt16.toNat_add, toNat_pc_fetched, UInt16.toNat_one]
    omega
  rw [← mem_toNat, hpc, second]

theorem word_toReference :
    (AddressingMode.absoluteAddress (Bus.read cpu.bus) cpu.fetched.toCpuState).toNat =
      cpu.toReference.word := by
  rw [AddressingMode.toNat_absoluteAddress, AddressingMode.operandNumber, first_toReference,
    second_toReference]
  rfl

theorem pointer_toReference :
    (Bus.read cpu.bus (Bus.read cpu.bus cpu.fetched.pc).toUInt16).toNat =
      cpu.toReference.mem cpu.toReference.first := by
  rw [← mem_toNat, UInt8.toNat_toUInt16, first_toReference]

theorem value_of_effective {target : RegisterName} {mode : AddressingMode} {address : Address}
    (haddress : mode.effective? (Bus.read cpu.bus) cpu.fetched.toCpuState = some address) :
    (cpu.fetched.operand ⟨target, mode⟩).value.toNat = cpu.toReference.mem address.toNat := by
  rw [mem_toNat, Cpu.operand, AddressingMode.value_operand]
  exact congrArg UInt8.toNat (AddressingMode.found_of_effective? _ _ haddress)

theorem value_toReference (target : RegisterName) (mode : AddressingMode) :
    (cpu.fetched.operand ⟨target, mode⟩).value.toNat = cpu.toReference.value mode := by
  cases mode with
  | immediate => exact first_toReference cpu
  | zeroPage => exact pointer_toReference cpu
  | zeroPageX =>
      rw [value_of_effective cpu rfl, UInt8.toNat_toUInt16, UInt8.toNat_add, first_toReference]
      rfl
  | zeroPageY =>
      rw [value_of_effective cpu rfl, UInt8.toNat_toUInt16, UInt8.toNat_add, first_toReference]
      rfl
  | absolute =>
      rw [value_of_effective cpu rfl, word_toReference]
      rfl
  | absoluteX =>
      rw [value_of_effective cpu rfl, Address.toNat_add_index, word_toReference]
      rfl
  | absoluteY =>
      rw [value_of_effective cpu rfl, Address.toNat_add_index, word_toReference]
      rfl
  | indirectX =>
      rw [value_of_effective cpu rfl, UInt8.toNat_toUInt16, UInt8.toNat_add,
        pointer_toReference, ← mem_toNat, UInt8.toNat_toUInt16]
      rfl
  | indirectY =>
      -- A byte and an index never reach the end of memory.
      have hpointer := mem_lt cpu.toReference cpu.toReference.first
      have hy := cpu.fetched.registers.y.value.toNat_lt
      rw [value_of_effective cpu rfl, Address.toNat_add_index, UInt8.toNat_toUInt16,
        pointer_toReference, Nat.mod_eq_of_lt (by omega)]
      rfl

theorem penalty_of_changesHighByte (base : Address) (index : Byte) :
    (if base.changesHighByte index then 1 else 0) = penalty base.toNat index.toNat := by
  simp only [penalty, Address.changesHighByte_iff]

theorem cost_toReference (target : RegisterName) (mode : AddressingMode) :
    Instruction.cycles ⟨target, mode⟩ (cpu.fetched.operand ⟨target, mode⟩) =
      cpu.toReference.cost mode := by
  rw [Instruction.cycles, Cpu.operand, Cpu.bus_fetched, AddressingMode.pageCrossed_operand]
  cases mode with
  | immediate | zeroPage | zeroPageX | zeroPageY | absolute | indirectX => rfl
  | absoluteX =>
      rw [AddressingMode.leavesPage, penalty_of_changesHighByte, word_toReference]
      rfl
  | absoluteY =>
      rw [AddressingMode.leavesPage, penalty_of_changesHighByte, word_toReference]
      rfl
  | indirectY =>
      rw [AddressingMode.leavesPage, penalty_of_changesHighByte, UInt8.toNat_toUInt16,
        pointer_toReference]
      rfl

omit [Bus β] in
theorem toReference_setRegister (name : RegisterName) (value : Byte) :
    (cpu.setRegister name value).toReference = cpu.toReference.setRegister name value.toNat := by
  cases name <;> rfl

/-- Loading a register of the one loads the same register of the other. -/
theorem toReference_executed (target : RegisterName) (mode : AddressingMode) :
    (cpu.fetched.executed ⟨target, mode⟩).toReference =
      { cpu.toReference.setRegister target (cpu.toReference.value mode) with
        pc := (cpu.toReference.pc + size mode) % 65536
        opcode := cpu.nextOpcode.toNat
        status := flags (cpu.toReference.value mode)
        cycles := cpu.toReference.cost mode } := by
  -- The processor moves past the opcode and past the operand bytes, one after the other.
  have hpc : (cpu.fetched.pc + .ofNat mode.operandBytes).toNat =
      (cpu.toReference.pc + size mode) % 65536 := by
    have hsize : size mode = 1 + mode.operandBytes := by cases mode <;> rfl
    rw [UInt16.toNat_add, toNat_pc_fetched, UInt16.toNat_ofNat', hsize]
    omega
  -- The counter restarted at the fetch, and six cycles do not overflow it.
  have hcycles : (0 + UInt64.ofNat (Instruction.cycles ⟨target, mode⟩
      (cpu.fetched.operand ⟨target, mode⟩))).toNat = cpu.toReference.cost mode := by
    have hsmall := Instruction.cycles_operand_le (Bus.read cpu.bus) cpu.fetched.toCpuState
      ⟨target, mode⟩
    rw [UInt64.zero_add, UInt64.toNat_ofNat_of_lt', cost_toReference]
    exact Nat.lt_of_le_of_lt hsmall (by decide)
  rw [← hpc, ← hcycles, ← value_toReference cpu target, flags_toNat]
  cases target <;> rfl

/-- One instruction of the processor is one instruction of the reference machine. -/
theorem step_toReference :
    (ofResult cpu.step.result, cpu.step.cpu.toReference) = cpu.toReference.step := by
  have hopcode : cpu.toReference.mem cpu.toReference.pc = cpu.nextOpcode.toNat :=
    mem_toNat cpu cpu.pc
  rw [step, hopcode, decode_toNat]
  cases hdecode : Instruction.ofByte? cpu.nextOpcode with
  | none =>
      rw [cpu.step_undecoded hdecode, ← toNat_pc_fetched]
      rfl
  | some instruction =>
      obtain ⟨target, mode⟩ := instruction
      have hafter := toReference_executed cpu target mode
      have hcycles := congrArg Reference.cycles hafter
      rw [cpu.step_decoded hdecode, hafter, ← UInt64.zero_add (UInt64.ofNat _)]
      exact congrArg (fun cycles => (Except.ok cycles, _)) hcycles

/-- One operation of an owner has the same report and the same effect on both machines. -/
theorem perform_toReference (operation : Operation) :
    Report.ofAnswer? (cpu.perform operation.command).result =
        some (cpu.toReference.perform operation).1 ∧
      (cpu.perform operation.command).cpu.toReference =
        (cpu.toReference.perform operation).2 := by
  cases operation with
  | step =>
      rw [perform, ← step_toReference]
      exact ⟨rfl, rfl⟩
  | setRegister name value => exact ⟨rfl, toReference_setRegister cpu name value⟩
  | setPc pc => exact ⟨rfl, rfl⟩
  | setOperandOrder order => exact ⟨rfl, rfl⟩
  | write address value => exact ⟨rfl, rfl⟩

/-- Every session of instructions and outside changes: after each operation the
processor, the bus and what was returned are those of the reference machine. -/
theorem trace_refines (operations : List Operation) :
    (cpu.trace (operations.map Operation.command)).map
        (fun turn => (Report.ofAnswer? turn.result, turn.cpu.toReference)) =
      (cpu.toReference.trace operations).map fun outcome => (some outcome.1, outcome.2) := by
  -- On the operations: each one starts from what the ones before it left on both sides.
  induction operations generalizing cpu with
  | nil => rfl
  | cons operation operations ih =>
      obtain ⟨hreport, hafter⟩ := perform_toReference cpu operation
      simp only [List.map_cons, Cpu.trace, trace, ih, hreport, hafter]

end Reference

end Core6502
