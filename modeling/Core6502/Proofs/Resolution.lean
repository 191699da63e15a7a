import Core6502.Cpu.Lemmas
import Core6502.Proofs.Arithmetic
import Core6502.Proofs.Span

/-! # Resolution of operands

Where each addressing mode finds its operand, as a function of the memory and of
the state whose program counter is at the operand bytes. The addresses are sums of
bytes and of words, and a page is left when a sum has another high byte than its
base. Resolving an operand reads the operand bytes, then the pointers of the mode,
then the effective address, and moves the program counter past the operand bytes.
-/

namespace Core6502

namespace Address

/-- Adding an index to a base changes the high byte of the address. -/
def changesHighByte (base : Address) (index : Byte) : Bool :=
  (base.toNat + index.toNat) % 65536 / 256 != base.toNat / 256

variable (base : Address) (index : Byte)

theorem pagesCrossed_eq_changesHighByte :
    base.pagesCrossed index = base.changesHighByte index := by
  rw [pagesCrossed, changesHighByte, Bool.eq_iff_iff, bne_iff_ne, bne_iff_ne, ne_eq, ne_eq,
    ← UInt8.toNat_inj, toNat_page, toNat_page, toNat_add_index]

theorem changesHighByte_iff :
    base.changesHighByte index = true ↔ 256 ≤ base.toNat % 256 + index.toNat := by
  rw [← pagesCrossed_eq_changesHighByte, pagesCrossed_iff]

end Address

namespace AddressingMode

variable (memory : Address → Byte) (state : CpuState)

/-- The two operand bytes as one word: the operand order tells which is the high one. -/
def absoluteAddress : Address :=
  match state.operandOrder with
  | .highFirst => (memory state.pc).toUInt16 * 256 + (memory (state.pc + 1)).toUInt16
  | .lowFirst => (memory (state.pc + 1)).toUInt16 * 256 + (memory state.pc).toUInt16

theorem absoluteAddress_eq_combine : absoluteAddress memory state =
    state.operandOrder.combine (memory state.pc) (memory (state.pc + 1)) := by
  rw [absoluteAddress]
  cases state.operandOrder <;> rfl

/-- The two operand bytes as one number. -/
def operandNumber : Nat :=
  match state.operandOrder with
  | .highFirst => 256 * (memory state.pc).toNat + (memory (state.pc + 1)).toNat
  | .lowFirst => 256 * (memory (state.pc + 1)).toNat + (memory state.pc).toNat

theorem toNat_absoluteAddress :
    (absoluteAddress memory state).toNat = operandNumber memory state := by
  rw [absoluteAddress_eq_combine, OperandOrder.toNat_combine]
  rfl

/-- The addresses below 256 that a mode reads on the way to its operand. -/
def pointers : AddressingMode → List Address
  | .indirectX => [(memory state.pc).toUInt16, state.registers.x.value.toUInt16]
  | .indirectY => [(memory state.pc).toUInt16]
  | _ => []

/-- The address that the operand is read at. Two bytes are added as bytes, so that the sum
names an address below 256; an index is added to a word as a word. -/
def effective? : AddressingMode → Option Address
  | .immediate => none
  | .zeroPage => some (memory state.pc).toUInt16
  | .zeroPageX => some (memory state.pc + state.registers.x.value).toUInt16
  | .zeroPageY => some (memory state.pc + state.registers.y.value).toUInt16
  | .absolute => some (absoluteAddress memory state)
  | .absoluteX => some (absoluteAddress memory state + state.registers.x.value.toUInt16)
  | .absoluteY => some (absoluteAddress memory state + state.registers.y.value.toUInt16)
  | .indirectX =>
      some (memory (memory state.pc).toUInt16 + memory state.registers.x.value.toUInt16).toUInt16
  | .indirectY =>
      some ((memory (memory state.pc).toUInt16).toUInt16 + state.registers.y.value.toUInt16)

/-- Indexing leaves the page of its base, in a mode that charges for it. -/
def leavesPage : AddressingMode → Bool
  | .absoluteX => (absoluteAddress memory state).changesHighByte state.registers.x.value
  | .absoluteY => (absoluteAddress memory state).changesHighByte state.registers.y.value
  | .indirectY =>
      Address.changesHighByte (memory (memory state.pc).toUInt16).toUInt16 state.registers.y.value
  | _ => false

/-- Only the modes that declare it charge for a crossed page. -/
theorem canCrossPage_of_leavesPage {mode : AddressingMode}
    (hleaves : mode.leavesPage memory state = true) : mode.canCrossPage = true := by
  cases mode <;> first | rfl | contradiction

/-- The operand: the byte at the effective address, or else the operand byte. -/
def operand (mode : AddressingMode) : Operand :=
  match mode.effective? memory state with
  | none => .immediate (memory state.pc)
  | some address => .atAddress address (memory address) (mode.leavesPage memory state)

/-- The byte that a mode finds: the operand byte itself, if there is no effective address. -/
def found (mode : AddressingMode) : Byte :=
  match mode.effective? memory state with
  | none => memory state.pc
  | some address => memory address

theorem found_of_effective? {mode : AddressingMode} {address : Address}
    (haddress : mode.effective? memory state = some address) :
    mode.found memory state = memory address := by
  rw [found, haddress]

theorem value_operand (mode : AddressingMode) :
    (mode.operand memory state).value = mode.found memory state := by
  rw [operand, found]
  cases mode.effective? memory state <;> rfl

theorem pageCrossed_operand (mode : AddressingMode) :
    (mode.operand memory state).pageCrossed = mode.leavesPage memory state := by
  cases mode <;> rfl

/-- The reads outside the instruction stream, in order. -/
def dataReads (mode : AddressingMode) : List Address :=
  mode.pointers memory state ++ (mode.effective? memory state).toList

end AddressingMode

/-- The longest mode never charges for a page. -/
theorem AddressingMode.baseCycles_add_le {mode : AddressingMode} {leavesPage : Bool}
    (hcross : leavesPage = true → mode.canCrossPage = true) :
    mode.baseCycles + (if leavesPage then 1 else 0) ≤ 6 := by
  cases leavesPage with
  | false => cases mode <;> decide
  | true =>
      have hmode := hcross rfl
      revert hmode
      cases mode <;> decide

/-- No load takes more than six cycles. -/
theorem Instruction.cycles_operand_le (memory : Address → Byte) (state : CpuState)
    (instruction : Instruction) :
    instruction.cycles (instruction.mode.operand memory state) ≤ 6 := by
  rw [cycles, AddressingMode.pageCrossed_operand, baseCycles]
  exact AddressingMode.baseCycles_add_le (AddressingMode.canCrossPage_of_leavesPage memory state)

theorem Execution.run_locate (memory : Address → Byte) (state : CpuState) (mode : AddressingMode) :
    ((locate mode).run state).run memory =
      { result := (mode.operand memory state,
          { state with pc := state.pc + .ofNat mode.operandBytes })
        reads := state.pc.span mode.operandBytes ++ mode.dataReads memory state
        records := [] } := by
  -- A two-byte operand is read by two single reads.
  have htwo : state.pc.span 2 = [state.pc, state.pc + 1] := by
    rw [Address.span_succ, Address.span_one]
  have hpc : state.pc + 1 + 1 = state.pc + .ofNat 2 := UInt16.add_assoc ..
  have hbase := AddressingMode.absoluteAddress_eq_combine memory state
  cases mode with
  | immediate =>
      simp only [run_locate_immediate, AddressingMode.operandBytes, Address.span_one]
      rfl
  | zeroPage =>
      simp only [run_locate_zeroPage, run_operandAt, AddressingMode.operandBytes,
        Address.span_one]
      rfl
  | zeroPageX =>
      simp only [run_locate_zeroPageX, run_operandAt, AddressingMode.operandBytes,
        Address.span_one]
      rfl
  | zeroPageY =>
      simp only [run_locate_zeroPageY, run_operandAt, AddressingMode.operandBytes,
        Address.span_one]
      rfl
  | indirectX =>
      simp only [run_locate_indirectX, run_operandAt, AddressingMode.operandBytes,
        Address.span_one]
      rfl
  | indirectY =>
      simp only [run_locate_indirectY, run_operandIndexed,
        Address.pagesCrossed_eq_changesHighByte, AddressingMode.operandBytes, Address.span_one]
      rfl
  | absolute =>
      rw [run_locate_absolute, run_nextAddress, hpc]
      simp only [run_operandAt, AddressingMode.operandBytes, htwo, AddressingMode.operand,
        AddressingMode.dataReads, AddressingMode.effective?, hbase]
      rfl
  | absoluteX =>
      rw [run_locate_absoluteX, run_nextAddress, hpc]
      simp only [run_operandIndexed, Address.pagesCrossed_eq_changesHighByte,
        AddressingMode.operandBytes, htwo, AddressingMode.operand, AddressingMode.dataReads,
        AddressingMode.effective?, AddressingMode.leavesPage, hbase]
      rfl
  | absoluteY =>
      rw [run_locate_absoluteY, run_nextAddress, hpc]
      simp only [run_operandIndexed, Address.pagesCrossed_eq_changesHighByte,
        AddressingMode.operandBytes, htwo, AddressingMode.operand, AddressingMode.dataReads,
        AddressingMode.effective?, AddressingMode.leavesPage, hbase]
      rfl

end Core6502
