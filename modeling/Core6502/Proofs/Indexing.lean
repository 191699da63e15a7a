import Core6502.Proofs.Turns

/-! # What a mode consults

What an addressing mode resolves to is decided by its argument, which is the address
that its operand bytes denote, by the register that it is indexed by and by the bytes
that it reads outside the instruction stream. In one memory the argument depends on
the program counter and, for an operand of two bytes, on the operand order, and on no
other part of the state. No opcode loads the register that its own mode is indexed by,
so executing one leaves alone what it consults when it is executed again.
-/

namespace Core6502

/-- The address that operand bytes denote. A single byte names one in page zero. -/
def OperandOrder.address (order : OperandOrder) : List Byte → Address
  | [offset] => .zeroPage offset
  | [first, second] => order.combine first second
  | _ => 0

namespace AddressingMode

/-- The address that the operand bytes at the program counter denote. -/
def argument (memory : Address → Byte) (state : CpuState) (mode : AddressingMode) : Address :=
  state.operandOrder.address ((state.pc.span mode.operandBytes).map memory)

/-- Two states, each with a memory, in which a mode has the same argument and the
same index. -/
structure SameArgument (mode : AddressingMode) (memory other : Address → Byte)
    (first second : CpuState) : Prop where
  argument : mode.argument memory first = mode.argument other second
  index : ∀ name, mode.indexRegister = some name →
    first.registers.get name = second.registers.get name

namespace SameArgument

variable {mode : AddressingMode} {memory other : Address → Byte} {first second : CpuState}

theorem x (h : mode.SameArgument memory other first second)
    (hmode : mode.indexRegister = some .x) :
    first.registers.x.value = second.registers.x.value :=
  h.index .x hmode

theorem y (h : mode.SameArgument memory other first second)
    (hmode : mode.indexRegister = some .y) :
    first.registers.y.value = second.registers.y.value :=
  h.index .y hmode

theorem byte (h : mode.SameArgument memory other first second) (hmode : mode.operandBytes = 1) :
    memory first.pc = other second.pc := by
  have hargument := h.argument
  rw [AddressingMode.argument, AddressingMode.argument, hmode, Address.span_one,
    Address.span_one] at hargument
  exact UInt8.toUInt16_inj.mp hargument

theorem absoluteAddress (h : mode.SameArgument memory other first second)
    (hmode : mode.operandBytes = 2) :
    AddressingMode.absoluteAddress memory first = AddressingMode.absoluteAddress other second := by
  have hargument := h.argument
  rw [AddressingMode.argument, AddressingMode.argument, hmode, Address.span_succ, Address.span_one,
    Address.span_succ, Address.span_one] at hargument
  rw [absoluteAddress_eq_combine, absoluteAddress_eq_combine]
  exact hargument

theorem pointers (h : mode.SameArgument memory other first second) :
    mode.pointers memory first = mode.pointers other second := by
  cases mode with
  | indirectX => rw [AddressingMode.pointers, AddressingMode.pointers, h.byte rfl, h.x rfl]
  | indirectY => rw [AddressingMode.pointers, AddressingMode.pointers, h.byte rfl]
  | _ => rfl

section

variable (h : mode.SameArgument memory other first second)
  (hagree : ∀ address ∈ mode.pointers memory first, memory address = other address)

include h hagree

/-- The pointers lead to the same address, if the bytes that they point to are the same. -/
theorem effective? : mode.effective? memory first = mode.effective? other second := by
  cases mode with
  | immediate => rfl
  | zeroPage => simp only [AddressingMode.effective?, h.byte rfl]
  | zeroPageX => simp only [AddressingMode.effective?, h.byte rfl, h.x rfl]
  | zeroPageY => simp only [AddressingMode.effective?, h.byte rfl, h.y rfl]
  | absolute => simp only [AddressingMode.effective?, h.absoluteAddress rfl]
  | absoluteX => simp only [AddressingMode.effective?, h.absoluteAddress rfl, h.x rfl]
  | absoluteY => simp only [AddressingMode.effective?, h.absoluteAddress rfl, h.y rfl]
  | indirectX =>
      have hpointer := hagree (memory first.pc).toUInt16 List.mem_cons_self
      have hindex := hagree first.registers.x.value.toUInt16
        (List.mem_cons_of_mem _ List.mem_cons_self)
      rw [AddressingMode.effective?, AddressingMode.effective?, hpointer, hindex, h.byte rfl,
        h.x rfl]
  | indirectY =>
      have hpointer := hagree (memory first.pc).toUInt16 List.mem_cons_self
      rw [AddressingMode.effective?, AddressingMode.effective?, hpointer, h.byte rfl, h.y rfl]

theorem leavesPage : mode.leavesPage memory first = mode.leavesPage other second := by
  cases mode with
  | absoluteX => simp only [AddressingMode.leavesPage, h.absoluteAddress rfl, h.x rfl]
  | absoluteY => simp only [AddressingMode.leavesPage, h.absoluteAddress rfl, h.y rfl]
  | indirectY =>
      have hpointer := hagree (memory first.pc).toUInt16 List.mem_cons_self
      rw [AddressingMode.leavesPage, AddressingMode.leavesPage, hpointer, h.byte rfl, h.y rfl]
  | _ => rfl

end

variable (h : mode.SameArgument memory other first second)
  (hagree : ∀ address ∈ mode.dataReads memory first, memory address = other address)

include h hagree

theorem dataReads : mode.dataReads memory first = mode.dataReads other second := by
  rw [AddressingMode.dataReads, AddressingMode.dataReads, h.pointers, h.effective?]
  intro address haddress
  exact hagree address (List.mem_append_left _ haddress)

/-- The same argument resolves to the same operand, if the data are the same. -/
theorem operand : mode.operand memory first = mode.operand other second := by
  have hpointers : ∀ address ∈ mode.pointers memory first, memory address = other address := by
    intro address haddress
    exact hagree address (List.mem_append_left _ haddress)
  rw [AddressingMode.operand, AddressingMode.operand, ← h.effective? hpointers,
    ← h.leavesPage hpointers]
  cases heffective : mode.effective? memory first with
  | none =>
      have hmode : mode = .immediate := by
        revert heffective
        cases mode <;> simp [AddressingMode.effective?]
      exact congrArg Operand.immediate (h.byte (hmode ▸ rfl))
  | some address =>
      have hvalue : memory address = other address := by
        apply hagree
        apply List.mem_append_right
        rw [heffective]
        exact List.mem_cons_self
      exact congrArg (Operand.atAddress address · _) hvalue

end SameArgument

/-- Two states that are the same in everything that a mode consults. -/
structure SameInputs (mode : AddressingMode) (first second : CpuState) : Prop where
  pc : first.pc = second.pc
  operandOrder : mode.operandBytes = 2 → first.operandOrder = second.operandOrder
  index : ∀ name, mode.indexRegister = some name →
    first.registers.get name = second.registers.get name

namespace SameInputs

variable {mode : AddressingMode} {first second : CpuState} (memory : Address → Byte)

/-- In one memory the mode has the same argument: the order takes no part in a single byte. -/
theorem sameArgument (h : mode.SameInputs first second) :
    mode.SameArgument memory memory first second where
  argument := by
    have horder := h.operandOrder
    rw [argument, argument, h.pc]
    cases mode with
    | absolute | absoluteX | absoluteY => rw [horder rfl]
    | _ => rfl
  index := h.index

theorem operand (h : mode.SameInputs first second) :
    mode.operand memory first = mode.operand memory second :=
  (h.sameArgument memory).operand fun _ _ => rfl

theorem dataReads (h : mode.SameInputs first second) :
    mode.dataReads memory first = mode.dataReads memory second :=
  (h.sameArgument memory).dataReads fun _ _ => rfl

end SameInputs

end AddressingMode

namespace Cpu

variable {β : Type} [Bus β] {first second : Cpu β} {instruction : Instruction}
  (hbus : first.bus = second.bus)
  (hinputs : instruction.mode.SameInputs first.toCpuState second.toCpuState)

include hbus hinputs

theorem operand_eq_of_sameInputs : first.operand instruction = second.operand instruction := by
  rw [operand, operand, hbus, hinputs.operand]

theorem operandReads_eq_of_sameInputs :
    first.operandReads instruction = second.operandReads instruction := by
  rw [operandReads, operandReads, hbus, hinputs.dataReads, hinputs.pc]

end Cpu

theorem Opcode.indexRegister_ne_target (opcode : Opcode) :
    opcode.instruction.mode.indexRegister ≠ some opcode.instruction.target := by
  cases opcode <;> decide

/-- No instruction loads the register that it is indexed by. -/
theorem Instruction.indexRegister_ne_target {byte : Byte} {instruction : Instruction}
    (hbyte : ofByte? byte = some instruction) :
    instruction.mode.indexRegister ≠ some instruction.target := by
  obtain ⟨opcode, -, rfl⟩ := ofByte?_eq_some_iff.mp hbyte
  exact opcode.indexRegister_ne_target

end Core6502
