import Mathlib.Algebra.GroupWithZero.Nat
import Core6502.Proofs.Arithmetic
import Core6502.Proofs.Span
import Core6502.Proofs.Indexing

/-! # Declarations of the modes

Executing an opcode does what the declarations of its addressing mode say, and they
say no more than is needed. Nothing but the declared index register and, for an
operand of two bytes, the operand order can make a difference to what is read; and
both of them do, wherever they differ.
-/

namespace Core6502

/-- Different indices give different addresses. -/
theorem Address.add_index_inj (base : Address) {first second : Byte} :
    base + first.toUInt16 = base + second.toUInt16 ↔ first = second := by
  rw [UInt16.add_right_inj, UInt8.toUInt16_inj]

/-- Two bytes that differ name different addresses in the two orders. -/
theorem OperandOrder.eq_of_combine_eq {order other : OperandOrder} {first second : Byte}
    (hne : first ≠ second) (h : order.combine first second = other.combine first second) :
    order = other := by
  have hpage := congrArg Address.page h
  cases order <;> cases other
  · rfl
  · simp only [combine, Address.page_ofBytes] at hpage
    exact absurd hpage hne
  · simp only [combine, Address.page_ofBytes] at hpage
    exact absurd hpage.symm hne
  · rfl

namespace AddressingMode

variable {memory : Address → Byte} {mode : AddressingMode} {first second : CpuState}

/-- Reads of the same mode agree pointer by pointer. -/
theorem pointers_and_effective_eq
    (hreads : mode.dataReads memory first = mode.dataReads memory second) :
    mode.pointers memory first = mode.pointers memory second ∧
      mode.effective? memory first = mode.effective? memory second := by
  have hlength : (mode.pointers memory first).length = (mode.pointers memory second).length := by
    cases mode <;> rfl
  obtain ⟨hpointers, heffective⟩ := List.append_inj hreads hlength
  exact ⟨hpointers, by simpa using congrArg List.head? heffective⟩

/-- Where a mode reads tells the value of the register that it is indexed by. -/
theorem index_eq_of_dataReads_eq {name : RegisterName} (hindex : mode.indexRegister = some name)
    (hpc : first.pc = second.pc) (horder : first.operandOrder = second.operandOrder)
    (hreads : mode.dataReads memory first = mode.dataReads memory second) :
    first.registers.get name = second.registers.get name := by
  have hbase : absoluteAddress memory first = absoluteAddress memory second := by
    rw [absoluteAddress, absoluteAddress, hpc, horder]
  obtain ⟨hpointers, heffective⟩ := pointers_and_effective_eq hreads
  cases mode with
  | immediate | zeroPage | absolute => contradiction
  | zeroPageX | zeroPageY =>
      cases hindex
      simp only [effective?, hpc] at heffective
      exact (UInt8.add_right_inj _).mp (UInt8.toUInt16_inj.mp (Option.some.inj heffective))
  | absoluteX | absoluteY =>
      cases hindex
      simp only [effective?, hbase] at heffective
      exact (Address.add_index_inj _).mp (Option.some.inj heffective)
  | indirectX =>
      -- Here the register is not added: it names the second of the two pointers.
      cases hindex
      simp only [pointers, hpc] at hpointers
      exact UInt8.toUInt16_inj.mp (List.cons.inj (List.cons.inj hpointers).2).1
  | indirectY =>
      cases hindex
      simp only [effective?, hpc] at heffective
      exact (Address.add_index_inj _).mp (Option.some.inj heffective)

/-- Where a mode with a two-byte operand reads tells the order of its bytes, if they differ. -/
theorem order_eq_of_dataReads_eq (hbytes : mode.operandBytes = 2) (hpc : first.pc = second.pc)
    (hregisters : first.registers = second.registers)
    (hreads : mode.dataReads memory first = mode.dataReads memory second)
    (hne : memory first.pc ≠ memory (first.pc + 1)) :
    first.operandOrder = second.operandOrder := by
  have hbase (h : absoluteAddress memory first = absoluteAddress memory second) :
      first.operandOrder = second.operandOrder := by
    rw [absoluteAddress_eq_combine, absoluteAddress_eq_combine, ← hpc] at h
    exact OperandOrder.eq_of_combine_eq hne h
  obtain ⟨-, heffective⟩ := pointers_and_effective_eq hreads
  cases mode with
  | absolute => exact hbase (Option.some.inj heffective)
  | absoluteX =>
      simp only [effective?, hregisters] at heffective
      exact hbase ((UInt16.add_left_inj _).mp (Option.some.inj heffective))
  | absoluteY =>
      simp only [effective?, hregisters] at heffective
      exact hbase ((UInt16.add_left_inj _).mp (Option.some.inj heffective))
  | immediate | zeroPage | zeroPageX | zeroPageY | indirectX | indirectY => contradiction

end AddressingMode

namespace Cpu

variable {β : Type} [Bus β] (cpu : Cpu β)

/-- The cycles that an execution adds to the counter. -/
def charge : Nat := cpu.execute.cpu.cycles.toNat - cpu.cycles.toNat

/-- Executing the pending byte reads the same, loads the same value into the register
and takes the same time. -/
structure ExecutesAlike (first second : Cpu β) (target : RegisterName) : Prop where
  reads : first.execute.reads = second.execute.reads
  value : first.execute.cpu.registers.get target = second.execute.cpu.registers.get target
  charge : first.charge = second.charge

/-- Executing the pending opcode against what the mode of its instruction declares. -/
structure ExecutesAsDeclared (instruction : Instruction) : Prop where
  result : cpu.execute.result = .ok ()
  /-- The declared number of bytes comes from the instruction stream. -/
  stream : cpu.execute.reads.take instruction.mode.operandBytes =
    cpu.pc.span instruction.mode.operandBytes
  /-- All the other reads are the pointers and the effective address of the mode. -/
  data : cpu.execute.reads.drop instruction.mode.operandBytes =
    instruction.mode.dataReads (Bus.read cpu.bus) cpu.toCpuState
  pc : cpu.execute.cpu.pc.toNat = (cpu.pc.toNat + instruction.mode.operandBytes) % 65536
  size : instruction.size = instruction.mode.operandBytes + 1
  cycles : cpu.execute.cpu.cycles.toNat = cpu.cycles.toNat + cpu.charge
  charge : cpu.charge = instruction.mode.baseCycles ∨
    instruction.mode.canCrossPage = true ∧ cpu.charge = instruction.mode.baseCycles + 1
  /-- Nothing undeclared makes a difference. -/
  inputs : ∀ other : Cpu β, other.opcode = cpu.opcode → other.bus = cpu.bus →
    instruction.mode.SameInputs other.toCpuState cpu.toCpuState →
    other.cycles.toNat ≤ 2 ^ 64 - 7 → other.ExecutesAlike cpu instruction.target
  /-- The declared register makes a difference whenever it differs. -/
  index : ∀ name, instruction.mode.indexRegister = some name →
    ∀ value, value ≠ cpu.registers.get name →
      (cpu.setRegister name value).execute.reads ≠ cpu.execute.reads
  /-- The order makes a difference to every operand of two bytes that differ. -/
  order : instruction.mode.operandBytes = 2 →
    Bus.read cpu.bus cpu.pc ≠ Bus.read cpu.bus (cpu.pc + 1) →
    ∀ order, order ≠ cpu.operandOrder →
      (cpu.setOperandOrder order).execute.reads ≠ cpu.execute.reads
  /-- Every opcode whose operand has two bytes can meet two that differ. -/
  ordered : instruction.mode.operandBytes = 2 →
    ∃ other : Cpu Cells, other.opcode = cpu.opcode ∧ ∀ order, order ≠ other.operandOrder →
      (other.setOperandOrder order).execute.reads ≠ other.execute.reads
  /-- A cycle for a crossed page is declared only where it can fall due. -/
  crossing : instruction.mode.canCrossPage = true →
    ∃ other : Cpu Cells, other.opcode = cpu.opcode ∧
      other.charge = instruction.mode.baseCycles + 1

section

variable {cpu} {instruction : Instruction}
  (hopcode : Instruction.ofByte? cpu.opcode = some instruction)

include hopcode

theorem reads_execute_decoded : cpu.execute.reads = cpu.operandReads instruction := by
  rw [execute_decoded cpu hopcode]

theorem charge_decoded (hcycles : cpu.cycles.toNat ≤ 2 ^ 64 - 7) :
    cpu.execute.cpu.cycles.toNat = cpu.cycles.toNat + cpu.charge ∧
      cpu.charge = instruction.cycles (cpu.operand instruction) := by
  have hsmall : instruction.cycles (cpu.operand instruction) ≤ 6 :=
    Instruction.cycles_operand_le _ _ instruction
  have hsize : UInt64.size = 2 ^ 64 := rfl
  have hafter : cpu.execute.cpu.cycles.toNat =
      cpu.cycles.toNat + instruction.cycles (cpu.operand instruction) := by
    rw [execute_decoded cpu hopcode, cycles_executed, UInt64.toNat_add,
      UInt64.toNat_ofNat_of_lt' (by omega), Nat.mod_eq_of_lt (by omega)]
  rw [charge, hafter]
  exact ⟨by omega, by omega⟩

theorem executesAlike_of_sameInputs {other : Cpu β} (hother : other.opcode = cpu.opcode)
    (hbus : other.bus = cpu.bus)
    (hinputs : instruction.mode.SameInputs other.toCpuState cpu.toCpuState)
    (hcycles : cpu.cycles.toNat ≤ 2 ^ 64 - 7) (hothers : other.cycles.toNat ≤ 2 ^ 64 - 7) :
    other.ExecutesAlike cpu instruction.target := by
  have hpending : Instruction.ofByte? other.opcode = some instruction := hother ▸ hopcode
  have hoperand := operand_eq_of_sameInputs hbus hinputs
  refine ⟨?_, ?_, ?_⟩
  · rw [reads_execute_decoded hopcode, reads_execute_decoded hpending]
    exact operandReads_eq_of_sameInputs hbus hinputs
  · rw [execute_decoded cpu hopcode, execute_decoded other hpending, registers_executed,
      registers_executed, Registers.get_set_same, Registers.get_set_same, hoperand]
  · rw [(charge_decoded hopcode hcycles).2, (charge_decoded hpending hothers).2, hoperand]

/-- Of two executions of one opcode at one place, the data reads tell them apart. -/
theorem dataReads_eq_of_reads_eq {other : Cpu β} (hother : other.opcode = cpu.opcode)
    (hbus : other.bus = cpu.bus) (hpc : other.pc = cpu.pc)
    (hreads : other.execute.reads = cpu.execute.reads) :
    instruction.mode.dataReads (Bus.read cpu.bus) other.toCpuState =
      instruction.mode.dataReads (Bus.read cpu.bus) cpu.toCpuState := by
  rw [reads_execute_decoded hopcode, reads_execute_decoded (hother ▸ hopcode), operandReads,
    operandReads, hbus, hpc] at hreads
  exact List.append_cancel_left hreads

/-- The reads of an execution tell the value of the register that its mode is indexed by. -/
theorem value_eq_of_reads_eq {name : RegisterName} {value : Byte}
    (hname : instruction.mode.indexRegister = some name)
    (hreads : (cpu.setRegister name value).execute.reads = cpu.execute.reads) :
    value = cpu.registers.get name := by
  have hdata := dataReads_eq_of_reads_eq hopcode (by rfl) (by rfl) (by rfl) hreads
  have hsame := AddressingMode.index_eq_of_dataReads_eq hname (by rfl) (by rfl) hdata
  exact (Registers.get_set_same cpu.registers name value).symm.trans hsame

/-- The reads of an execution tell the order of operand bytes that differ. -/
theorem order_eq_of_reads_eq {order : OperandOrder} (hbytes : instruction.mode.operandBytes = 2)
    (hne : Bus.read cpu.bus cpu.pc ≠ Bus.read cpu.bus (cpu.pc + 1))
    (hreads : (cpu.setOperandOrder order).execute.reads = cpu.execute.reads) :
    order = cpu.operandOrder := by
  have hdata := dataReads_eq_of_reads_eq hopcode (by rfl) (by rfl) (by rfl) hreads
  exact AddressingMode.order_eq_of_dataReads_eq hbytes (by rfl) (by rfl) hdata hne

end

/-- A processor in which every indexing leaves its page, whatever opcode is pending, and
the operand order matters. -/
def brimming : Cpu Cells :=
  { startAt ⟨[(0x0200, 0xFF), (0x0201, 0xFE), (0x00FF, 0xFF)]⟩ 0x0200 with
    registers := { x := ⟨0x02⟩, y := ⟨0x02⟩ } }

theorem leavesPage_brimming {mode : AddressingMode} (hmode : mode.canCrossPage = true) :
    mode.leavesPage (Bus.read brimming.bus) brimming.toCpuState = true := by
  revert hmode
  cases mode <;> decide

theorem charge_brimming {opcode : Byte} {instruction : Instruction}
    (hopcode : Instruction.ofByte? opcode = some instruction)
    (hmode : instruction.mode.canCrossPage = true) :
    charge { brimming with opcode } = instruction.mode.baseCycles + 1 := by
  have hinputs : instruction.mode.SameInputs { brimming.toCpuState with opcode }
      brimming.toCpuState := ⟨rfl, fun _ => rfl, fun _ _ => rfl⟩
  have hpending : Instruction.ofByte? ({ brimming with opcode } : Cpu Cells).opcode =
      some instruction := hopcode
  have hoperand : operand { brimming with opcode } instruction = brimming.operand instruction :=
    operand_eq_of_sameInputs (by rfl) hinputs
  rw [(charge_decoded hpending (Nat.zero_le _)).2, hoperand, cycles_operand,
    leavesPage_brimming hmode]
  rfl

theorem reads_brimming_ne {opcode : Byte} {instruction : Instruction}
    (hopcode : Instruction.ofByte? opcode = some instruction)
    (hbytes : instruction.mode.operandBytes = 2) (order : OperandOrder)
    (horder : order ≠ brimming.operandOrder) :
    (setOperandOrder { brimming with opcode } order).execute.reads ≠
      (execute { brimming with opcode }).reads := by
  intro hreads
  have hpending : Instruction.ofByte? ({ brimming with opcode } : Cpu Cells).opcode =
      some instruction := hopcode
  have hne : Bus.read brimming.bus brimming.pc ≠ Bus.read brimming.bus (brimming.pc + 1) := by
    decide
  exact horder (order_eq_of_reads_eq hpending hbytes hne hreads)

/-- Every opcode is executed as its mode declares, in every state whose counter has
room for one more instruction. -/
theorem executesAsDeclared {instruction : Instruction}
    (hopcode : Instruction.ofByte? cpu.opcode = some instruction)
    (hcycles : cpu.cycles.toNat ≤ 2 ^ 64 - 7) : cpu.ExecutesAsDeclared instruction where
  result := by rw [execute_decoded cpu hopcode]
  stream := by rw [reads_execute_decoded hopcode, take_operandReads]
  data := by rw [reads_execute_decoded hopcode, drop_operandReads]
  pc := by
    rw [execute_decoded cpu hopcode, pc_executed, UInt16.toNat_add, UInt16.toNat_ofNat']
    omega
  size := Nat.add_comm 1 _
  cycles := (charge_decoded hopcode hcycles).1
  charge := by
    rw [(charge_decoded hopcode hcycles).2, cycles_operand, Instruction.baseCycles]
    cases hleaves : instruction.mode.leavesPage (Bus.read cpu.bus) cpu.toCpuState with
    | false => exact .inl rfl
    | true => exact .inr ⟨AddressingMode.canCrossPage_of_leavesPage _ _ hleaves, rfl⟩
  inputs other hother hbus hinputs hothers :=
    executesAlike_of_sameInputs hopcode hother hbus hinputs hcycles hothers
  index _ hname _ hvalue hreads := hvalue (value_eq_of_reads_eq hopcode hname hreads)
  order hbytes hne _ horder hreads := horder (order_eq_of_reads_eq hopcode hbytes hne hreads)
  ordered hbytes :=
    ⟨{ brimming with opcode := cpu.opcode }, rfl, reads_brimming_ne hopcode hbytes⟩
  crossing hmode := ⟨{ brimming with opcode := cpu.opcode }, rfl, charge_brimming hopcode hmode⟩

/-- An indexed load whose operand bytes wrap past the last address and whose index
crosses a page, with no room in the counter for another one. -/
def lastLoad : Cpu Cells :=
  { startAt ⟨[(0xFFFF, 0x12), (0x0000, 0xFF), (0x1300, 0x80)]⟩ 0xFFFF with
    registers := { x := ⟨0x01⟩ }
    opcode := 0xBC
    cycles := 0xFFFFFFFFFFFFFFF9 }

theorem executesAsDeclared_lastLoad :
    Instruction.ofByte? lastLoad.opcode = some ⟨.y, .absoluteX⟩ ∧
      lastLoad.cycles.toNat ≤ 2 ^ 64 - 7 ∧ lastLoad.ExecutesAsDeclared ⟨.y, .absoluteX⟩ := by
  have hopcode : Instruction.ofByte? lastLoad.opcode = some ⟨.y, .absoluteX⟩ := by decide
  have hcycles : lastLoad.cycles.toNat ≤ 2 ^ 64 - 7 := by decide
  exact ⟨hopcode, hcycles, executesAsDeclared lastLoad hopcode hcycles⟩

end Cpu

end Core6502
