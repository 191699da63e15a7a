import Core6502.Proofs.Arithmetic
import Core6502.Proofs.Span
import Core6502.Proofs.Turns

/-! # Short and long forms

A load whose operand is a single byte has a counterpart with an address for an operand.
The short form adds its index inside page zero, or to an address in page zero that it
reads; the long form adds it to its operand, with a carry. The two find the same byte
as long as nothing is carried, and the indirect one finds it always.
-/

namespace Core6502

namespace OperandOrder

/-- The operand bytes of an address, as they are stored. -/
def bytes (order : OperandOrder) (address : Address) : List Byte :=
  match order with
  | .highFirst => [address.page, address.offset]
  | .lowFirst => [address.offset, address.page]

/-- What is stored as an address is read as that address. -/
theorem combine_of_holds {order : OperandOrder} {start address : Address}
    {memory : Address → Byte} (hstored : start.Holds memory (order.bytes address)) :
    order.combine (memory start) (memory (start + 1)) = address := by
  cases order with
  | highFirst =>
      obtain ⟨hpage, hrest⟩ := Address.holds_cons.mp hstored
      obtain ⟨hoffset, _⟩ := Address.holds_cons.mp hrest
      rw [hpage, hoffset]
      exact Address.ofBytes_page_offset address
  | lowFirst =>
      obtain ⟨hoffset, hrest⟩ := Address.holds_cons.mp hstored
      obtain ⟨hpage, _⟩ := Address.holds_cons.mp hrest
      rw [hpage, hoffset]
      exact Address.ofBytes_page_offset address

end OperandOrder

namespace Address

variable {offset index : Byte}

theorem changesHighByte_zeroPage_iff :
    (zeroPage offset).changesHighByte index = true ↔ 256 ≤ offset.toNat + index.toNat := by
  have hoffset := offset.toNat_lt
  rw [changesHighByte_iff, toNat_zeroPage, Nat.mod_eq_of_lt hoffset]

theorem changesHighByte_zero (address : Address) : address.changesHighByte 0 = false := by
  have hsum : (address.toNat + (0 : Byte).toNat) % 65536 = address.toNat :=
    Nat.mod_eq_of_lt address.toNat_lt
  rw [changesHighByte, hsum]
  exact bne_self_eq_false _

/-- Without a carry, indexing inside page zero is indexing. -/
theorem zeroPage_zeroPageWrap (hsum : offset.toNat + index.toNat ≤ 255) :
    zeroPage (zeroPageWrap offset index) = zeroPage offset + index.toUInt16 := by
  rw [← UInt16.toNat_inj, toNat_add_index, toNat_zeroPage, toNat_zeroPage, toNat_zeroPageWrap]
  omega

/-- With a carry, indexing comes out one page above indexing inside page zero. -/
theorem toNat_add_index_of_carry (hsum : 256 ≤ offset.toNat + index.toNat) :
    (zeroPage offset + index.toUInt16).toNat =
      (zeroPage (zeroPageWrap offset index)).toNat + 256 := by
  have hoffset := offset.toNat_lt
  have hindex := index.toNat_lt
  rw [toNat_add_index, toNat_zeroPage, toNat_zeroPage, toNat_zeroPageWrap]
  omega

end Address

namespace AddressingMode

/-- The mode with an address for an operand that is indexed in the same way. -/
def long? : AddressingMode → Option AddressingMode
  | .zeroPage => some .absolute
  | .zeroPageX => some .absoluteX
  | .zeroPageY => some .absoluteY
  | .indirectY => some .absoluteY
  | _ => none

/-- The byte that a mode adds to its base. -/
def index (registers : Registers) (mode : AddressingMode) : Byte :=
  match mode.indexRegister with
  | none => 0
  | some name => registers.get name

/-- The address in page zero that a short form indexes, for its operand byte. -/
def base (memory : Address → Byte) (offset : Byte) : AddressingMode → Address
  | .indirectY => .zeroPage (memory (.zeroPage offset))
  | _ => .zeroPage offset

variable {mode long : AddressingMode} {memory : Address → Byte} {state : CpuState}

/-- The long form of a mode adds the same index to the address that it is given. -/
theorem effective?_long (hlong : mode.long? = some long) :
    long.effective? memory state =
      some (absoluteAddress memory state + (mode.index state.registers).toUInt16) := by
  cases mode with
  | zeroPage =>
      cases hlong
      exact congrArg some (UInt16.add_zero _).symm
  | zeroPageX | zeroPageY | indirectY =>
      cases hlong
      rfl
  | _ => cases hlong

theorem leavesPage_long (hlong : mode.long? = some long) :
    long.leavesPage memory state =
      (absoluteAddress memory state).changesHighByte (mode.index state.registers) := by
  cases mode with
  | zeroPage =>
      cases hlong
      exact (Address.changesHighByte_zero _).symm
  | zeroPageX | zeroPageY | indirectY =>
      cases hlong
      rfl
  | _ => cases hlong

theorem effective?_zeroPage (hlong : mode.long? = some long) (hmode : mode ≠ .indirectY) :
    mode.effective? memory state =
      some (.zeroPage (zeroPageWrap (memory state.pc) (mode.index state.registers))) := by
  cases mode with
  | zeroPage => exact congrArg (some ∘ Address.zeroPage) (UInt8.add_zero _).symm
  | zeroPageX | zeroPageY => rfl
  | indirectY => exact absurd rfl hmode
  | _ => cases hlong

theorem leavesPage_zeroPage (hlong : mode.long? = some long) (hmode : mode ≠ .indirectY) :
    mode.leavesPage memory state = false := by
  cases mode with
  | zeroPage | zeroPageX | zeroPageY => rfl
  | indirectY => exact absurd rfl hmode
  | _ => cases hlong

theorem base_eq_zeroPage (hmode : mode ≠ .indirectY) (memory : Address → Byte)
    (offset : Byte) : mode.base memory offset = .zeroPage offset := by
  cases mode with
  | indirectY => exact absurd rfl hmode
  | _ => rfl

theorem baseCycles_zeroPageIndexed (hmode : mode = .zeroPageX ∨ mode = .zeroPageY) :
    mode ≠ .indirectY ∧ mode.baseCycles = 4 := by
  rcases hmode with rfl | rfl <;> decide

theorem baseCycles_long (hlong : mode.long? = some long) : long.baseCycles = 4 := by
  cases mode <;> cases hlong <;> rfl

end AddressingMode

/-- The instruction with an address for an operand that loads the same register. -/
def Instruction.long? (instruction : Instruction) : Option Instruction :=
  instruction.mode.long?.map (Instruction.mk instruction.target)

namespace Cpu

variable {β γ : Type} [Bus β] [Bus γ]

/-- A step that loads the byte at an address, the last one that it reads, and is charged
for leaving the page or not. -/
structure StepLoads (cpu : Cpu β) (instruction : Instruction) (address : Address)
    (leavesPage : Bool) : Prop where
  data : address ∈ cpu.step.reads.drop instruction.size
  last : cpu.step.reads.getLast? = some address
  registers : cpu.step.cpu.registers =
    cpu.registers.set instruction.target (Bus.read cpu.bus address)
  status : cpu.step.cpu.status = .derive (Bus.read cpu.bus address)
  result : cpu.step.result =
    .ok (.ofNat (instruction.baseCycles + if leavesPage then 1 else 0))

theorem stepLoads {cpu : Cpu β} {instruction : Instruction} {address : Address}
    (hopcode : Instruction.ofByte? cpu.nextOpcode = some instruction)
    (haddress : instruction.mode.effective? (Bus.read cpu.bus) cpu.fetched.toCpuState =
      some address) :
    cpu.StepLoads instruction address
      (instruction.mode.leavesPage (Bus.read cpu.bus) cpu.fetched.toCpuState) := by
  have hvalue : (cpu.fetched.operand instruction).value = Bus.read cpu.bus address :=
    (AddressingMode.value_operand _ _ _).trans
      (AddressingMode.found_of_effective? _ _ haddress)
  refine { data := ?_, last := ?_, registers := ?_, status := ?_, result := ?_ }
  · rw [cpu.step_decoded hopcode, drop_size_reads, AddressingMode.dataReads, haddress]
    exact List.mem_append_right _ List.mem_cons_self
  · rw [cpu.step_decoded hopcode, List.getLast?_cons, cpu.fetched.getLast?_operandReads haddress]
    rfl
  · rw [cpu.step_decoded hopcode, registers_executed, hvalue]
    rfl
  · rw [cpu.step_decoded hopcode, status_executed, hvalue]
  · rw [cpu.step_decoded hopcode, cycles_operand]
    rfl

/-- Two turns that read the same byte last, at the same address, and leave the same
registers and the same status. -/
structure SameLoad {α : Type} (turn : Turn β α) (other : Turn γ α) : Prop where
  data : ∃ address, turn.reads.getLast? = some address ∧ other.reads.getLast? = some address ∧
    Bus.read turn.cpu.bus address = Bus.read other.cpu.bus address
  registers : turn.cpu.registers = other.cpu.registers
  status : turn.cpu.status = other.cpu.status

/-- Two processors in the same state. The first comes to a short form and the second to its
long form, whose operand is the address that the short one indexes. Their buses agree
outside the instructions, and neither reads a byte of an instruction as data. -/
structure Counterparts (first : Cpu β) (second : Cpu γ) (short long : Opcode) (offset : Byte) :
    Prop where
  form : short.instruction.long? = some long.instruction
  pc : first.pc = second.pc
  registers : first.registers = second.registers
  status : first.status = second.status
  operandOrder : first.operandOrder = second.operandOrder
  elsewhere : ∀ address ∉ first.pc.span 3, Bus.read first.bus address = Bus.read second.bus address
  stored : first.pc.Holds (Bus.read first.bus) [short.byte, offset]
  storedLong : second.pc.Holds (Bus.read second.bus) (long.byte ::
    second.operandOrder.bytes (short.instruction.mode.base (Bus.read first.bus) offset))
  apart : ∀ address ∈ first.step.reads.drop short.instruction.size, address ∉ first.pc.span 3
  apartLong : ∀ address ∈ second.step.reads.drop long.instruction.size, address ∉ first.pc.span 3

/-- The step of a short form in a mode with an operand byte, and the step of its long form.
They load the same, unless indexing inside page zero loses a carry. -/
structure LoadsAsLong (first : Cpu β) (second : Cpu γ) (mode : AddressingMode) (offset : Byte) :
    Prop where
  zeroPage : mode = .zeroPage →
    SameLoad first.step second.step ∧ first.step.result = .ok 3 ∧ second.step.result = .ok 4
  withoutCarry : mode = .zeroPageX ∨ mode = .zeroPageY →
    offset.toNat + (mode.index first.registers).toNat ≤ 255 →
    SameLoad first.step second.step ∧ first.step.result = .ok 4 ∧ second.step.result = .ok 4
  withCarry : mode = .zeroPageX ∨ mode = .zeroPageY →
    256 ≤ offset.toNat + (mode.index first.registers).toNat →
    (∃ address other, first.step.reads.getLast? = some address ∧
      second.step.reads.getLast? = some other ∧ other.toNat = address.toNat + 256) ∧
    first.step.result = .ok 4 ∧ second.step.result = .ok 5
  indirect : mode = .indirectY →
    let sum := (Bus.read first.bus (.zeroPage offset)).toNat + first.y.toNat
    SameLoad first.step second.step ∧
      (sum ≤ 255 → first.step.result = .ok 5 ∧ second.step.result = .ok 4) ∧
      (256 ≤ sum → first.step.result = .ok 6 ∧ second.step.result = .ok 5)

namespace Counterparts

variable {first : Cpu β} {second : Cpu γ} {short long : Opcode} {offset : Byte}
  (h : Counterparts first second short long offset)

include h

theorem mode_long : short.instruction.mode.long? = some long.instruction.mode := by
  obtain ⟨mode, hmode, hlong⟩ := Option.map_eq_some_iff.mp h.form
  rw [hmode, ← hlong]

theorem target_long : long.instruction.target = short.instruction.target := by
  obtain ⟨mode, _, hlong⟩ := Option.map_eq_some_iff.mp h.form
  rw [← hlong]

theorem opcode : Instruction.ofByte? first.nextOpcode = some short.instruction := by
  obtain ⟨hbyte, _⟩ := Address.holds_cons.mp h.stored
  rw [nextOpcode, hbyte, Instruction.ofByte?_byte]

theorem offset_eq : Bus.read first.bus first.fetched.pc = offset := by
  obtain ⟨_, hrest⟩ := Address.holds_cons.mp h.stored
  exact (Address.holds_cons.mp hrest).1

/-- Loads from one address are the same, since the long form reads no instruction byte there. -/
theorem sameLoad {address : Address} {leavesPage leavesPageLong : Bool}
    (hshort : first.StepLoads short.instruction address leavesPage)
    (hlong : second.StepLoads long.instruction address leavesPageLong) :
    SameLoad first.step second.step := by
  have hbyte : Bus.read first.bus address = Bus.read second.bus address :=
    h.elsewhere address (h.apartLong address hlong.data)
  refine ⟨⟨address, hshort.last, hlong.last, hbyte⟩, ?_, ?_⟩
  · rw [hshort.registers, hlong.registers, h.registers, h.target_long, hbyte]
  · rw [hshort.status, hlong.status, hbyte]

variable {base : Address} {index : Byte}
  (hbase : short.instruction.mode.base (Bus.read first.bus) offset = base)
  (hindex : short.instruction.mode.index first.registers = index)

section

include hbase hindex

theorem stepLoads_long :
    second.StepLoads long.instruction (base + index.toUInt16) (base.changesHighByte index) := by
  obtain ⟨hbyte, hbytes⟩ := Address.holds_cons.mp h.storedLong
  have hopcode : Instruction.ofByte? second.nextOpcode = some long.instruction := by
    rw [nextOpcode, hbyte, Instruction.ofByte?_byte]
  have hargument : AddressingMode.absoluteAddress (Bus.read second.bus) second.fetched.toCpuState =
      base := by
    rw [AddressingMode.absoluteAddress_eq_combine]
    exact (OperandOrder.combine_of_holds hbytes).trans hbase
  -- The fetch does not touch the index.
  have hfetched : short.instruction.mode.index second.fetched.registers = index := by
    rw [← hindex, h.registers]
    rfl
  rw [← hargument, ← hfetched, ← AddressingMode.leavesPage_long h.mode_long]
  exact stepLoads hopcode (AddressingMode.effective?_long h.mode_long)

theorem result_long :
    second.step.result = .ok (if base.changesHighByte index then 5 else 4) := by
  rw [(h.stepLoads_long hbase hindex).result, Instruction.baseCycles,
    AddressingMode.baseCycles_long h.mode_long]
  split <;> rfl

theorem stepLoads_indirectY (hmode : short.instruction.mode = .indirectY) :
    first.StepLoads short.instruction (base + index.toUInt16) (base.changesHighByte index) := by
  rw [← hbase, ← hindex, hmode]
  have haddress : short.instruction.mode.effective? (Bus.read first.bus) first.fetched.toCpuState =
      some (AddressingMode.indirectY.base (Bus.read first.bus) offset +
        (AddressingMode.indirectY.index first.registers).toUInt16) := by
    rw [hmode, AddressingMode.effective?, h.offset_eq]
    rfl
  have hleaves : short.instruction.mode.leavesPage (Bus.read first.bus) first.fetched.toCpuState =
      (AddressingMode.indirectY.base (Bus.read first.bus) offset).changesHighByte
        (AddressingMode.indirectY.index first.registers) := by
    rw [hmode, AddressingMode.leavesPage, h.offset_eq]
    rfl
  rw [← hleaves]
  exact stepLoads h.opcode haddress

/-- The indirect form loads the same in any case. It is charged for the page as the long
form is. -/
theorem loads_indirect (hmode : short.instruction.mode = .indirectY) :
    SameLoad first.step second.step ∧
      first.step.result = .ok (if base.changesHighByte index then 6 else 5) := by
  have hshort := h.stepLoads_indirectY hbase hindex hmode
  refine ⟨h.sameLoad hshort (h.stepLoads_long hbase hindex), ?_⟩
  rw [hshort.result, Instruction.baseCycles, hmode]
  split <;> rfl

end

section

variable (hmode : short.instruction.mode ≠ .indirectY)

include hindex hmode

theorem stepLoads_zeroPage :
    first.StepLoads short.instruction (.zeroPage (zeroPageWrap offset index)) false := by
  have haddress : short.instruction.mode.effective? (Bus.read first.bus) first.fetched.toCpuState =
      some (.zeroPage (zeroPageWrap offset index)) := by
    rw [AddressingMode.effective?_zeroPage h.mode_long hmode, h.offset_eq, ← hindex]
    rfl
  have hloads := stepLoads h.opcode haddress
  rw [AddressingMode.leavesPage_zeroPage h.mode_long hmode] at hloads
  exact hloads

theorem loads_withoutCarry (hsum : offset.toNat + index.toNat ≤ 255) :
    SameLoad first.step second.step ∧
      first.step.result = .ok (.ofNat short.instruction.baseCycles) ∧
      second.step.result = .ok 4 := by
  have hshort := h.stepLoads_zeroPage hindex hmode
  have hbase := AddressingMode.base_eq_zeroPage hmode (Bus.read first.bus) offset
  have hresult := h.result_long hbase hindex
  have hcrossed : ¬(Address.zeroPage offset).changesHighByte index = true := by
    rw [Address.changesHighByte_zeroPage_iff]
    omega
  -- Without a carry the address of the short form is the sum that the long form reads at.
  rw [Address.zeroPage_zeroPageWrap hsum] at hshort
  rw [if_neg hcrossed] at hresult
  exact ⟨h.sameLoad hshort (h.stepLoads_long hbase hindex), hshort.result, hresult⟩

theorem loads_withCarry (hsum : 256 ≤ offset.toNat + index.toNat) :
    (∃ address other, first.step.reads.getLast? = some address ∧
        second.step.reads.getLast? = some other ∧ other.toNat = address.toNat + 256) ∧
      first.step.result = .ok (.ofNat short.instruction.baseCycles) ∧
      second.step.result = .ok 5 := by
  have hshort := h.stepLoads_zeroPage hindex hmode
  have hbase := AddressingMode.base_eq_zeroPage hmode (Bus.read first.bus) offset
  have hlong := h.stepLoads_long hbase hindex
  have hresult := h.result_long hbase hindex
  rw [if_pos (Address.changesHighByte_zeroPage_iff.mpr hsum)] at hresult
  exact ⟨⟨_, _, hshort.last, hlong.last, Address.toNat_add_index_of_carry hsum⟩, hshort.result,
    hresult⟩

end

end Counterparts

/-- The short forms load as their long forms do, at any place and under either operand order. -/
theorem loadsAsLong {first : Cpu β} {second : Cpu γ} {short long : Opcode} {offset : Byte}
    (h : Counterparts first second short long offset) :
    LoadsAsLong first second short.instruction.mode offset where
  zeroPage := by
    intro hmode
    have hdirect : short.instruction.mode ≠ .indirectY := by
      rw [hmode]
      decide
    have hsum : offset.toNat + (short.instruction.mode.index first.registers).toNat ≤ 255 := by
      rw [hmode]
      exact Nat.le_of_lt_succ offset.toNat_lt
    have hloads := h.loads_withoutCarry rfl hdirect hsum
    rw [Instruction.baseCycles, hmode] at hloads
    exact hloads
  withoutCarry := by
    intro hmode hsum
    obtain ⟨hdirect, hcycles⟩ := AddressingMode.baseCycles_zeroPageIndexed hmode
    have hloads := h.loads_withoutCarry rfl hdirect hsum
    rw [Instruction.baseCycles, hcycles] at hloads
    exact hloads
  withCarry := by
    intro hmode hsum
    obtain ⟨hdirect, hcycles⟩ := AddressingMode.baseCycles_zeroPageIndexed hmode
    have hloads := h.loads_withCarry rfl hdirect hsum
    rw [Instruction.baseCycles, hcycles] at hloads
    exact hloads
  indirect := by
    intro hmode
    have hbase : short.instruction.mode.base (Bus.read first.bus) offset =
        .zeroPage (Bus.read first.bus (.zeroPage offset)) := by
      rw [hmode]
      rfl
    have hindex : short.instruction.mode.index first.registers = first.y := by
      rw [hmode]
      rfl
    obtain ⟨hsame, hresult⟩ := h.loads_indirect hbase hindex hmode
    have hlong := h.result_long hbase hindex
    simp only [Address.changesHighByte_zeroPage_iff] at hresult hlong
    refine ⟨hsame, ?_, ?_⟩
    · intro hsum
      rw [if_neg (Nat.not_le_of_lt (Nat.lt_succ_of_le hsum))] at hresult hlong
      exact ⟨hresult, hlong⟩
    · intro hsum
      rw [if_pos hsum] at hresult hlong
      exact ⟨hresult, hlong⟩

/-- A pointer in page zero, and a byte at one offset in each of the first two pages. -/
def twoPages : Cells := ⟨[(0x0040, 0xF0), (0x0010, 0x01), (0x0110, 0x80)]⟩

/-- A processor that comes to an instruction across the end of memory. -/
def beforeEnd (bytes : List Byte) : Cpu Cells :=
  (Cpu.startAt (twoPages.withBytes 0xFFFE bytes) 0xFFFE).setRegister .y 0x20

theorem read_beforeEnd_of_not_mem {bytes : List Byte} {address : Address}
    (hlength : bytes.length ≤ 3) (haddress : address ∉ Address.span 0xFFFE 3) :
    Bus.read (beforeEnd bytes).bus address = twoPages.read address := by
  apply Cells.read_withBytes_of_not_mem
  intro hmem
  obtain ⟨offset, hoffset, hequal⟩ := (Address.mem_span _).mp hmem
  exact haddress ((Address.mem_span _).mpr ⟨offset, Nat.lt_of_lt_of_le hoffset hlength, hequal⟩)

theorem read_beforeEnd_eq {bytes other : List Byte} (hbytes : bytes.length ≤ 3)
    (hother : other.length ≤ 3) : ∀ address ∉ Address.span 0xFFFE 3,
      Bus.read (beforeEnd bytes).bus address = Bus.read (beforeEnd other).bus address := by
  intro address haddress
  rw [read_beforeEnd_of_not_mem hbytes haddress, read_beforeEnd_of_not_mem hother haddress]

/-- The indirect load reads its base at `0x0040` and leaves page zero. -/
theorem counterparts_indirect :
    Counterparts (beforeEnd [0xB1, 0x40]) (beforeEnd [0xB9, 0x00, 0xF0])
      .ldaIndirectY .ldaAbsoluteY 0x40 where
  form := rfl
  pc := rfl
  registers := rfl
  status := rfl
  operandOrder := rfl
  elsewhere := read_beforeEnd_eq (by decide) (by decide)
  stored := rfl
  storedLong := rfl
  apart := by
    have hreads : (beforeEnd [0xB1, 0x40]).step.reads.drop Opcode.ldaIndirectY.instruction.size =
        [0x0040, 0x0110] := by
      decide
    rw [hreads, List.forall_mem_cons, List.forall_mem_singleton]
    decide
  apartLong := by
    have hreads : (beforeEnd [0xB9, 0x00, 0xF0]).step.reads.drop
        Opcode.ldaAbsoluteY.instruction.size = [0x0110] := by
      decide
    rw [hreads, List.forall_mem_singleton]
    decide

/-- The load in page zero wraps to `0x0010`, and its long form goes on to `0x0110`. -/
theorem counterparts_wrapping :
    Counterparts (beforeEnd [0xB6, 0xF0]) (beforeEnd [0xBE, 0x00, 0xF0])
      .ldxZeroPageY .ldxAbsoluteY 0xF0 where
  form := rfl
  pc := rfl
  registers := rfl
  status := rfl
  operandOrder := rfl
  elsewhere := read_beforeEnd_eq (by decide) (by decide)
  stored := rfl
  storedLong := rfl
  apart := by
    have hreads : (beforeEnd [0xB6, 0xF0]).step.reads.drop Opcode.ldxZeroPageY.instruction.size =
        [0x0010] := by
      decide
    rw [hreads, List.forall_mem_singleton]
    decide
  apartLong := by
    have hreads : (beforeEnd [0xBE, 0x00, 0xF0]).step.reads.drop
        Opcode.ldxAbsoluteY.instruction.size = [0x0110] := by
      decide
    rw [hreads, List.forall_mem_singleton]
    decide

theorem loadsAsLong_beforeEnd :
    Counterparts (beforeEnd [0xB1, 0x40]) (beforeEnd [0xB9, 0x00, 0xF0])
        .ldaIndirectY .ldaAbsoluteY 0x40 ∧
      LoadsAsLong (beforeEnd [0xB1, 0x40]) (beforeEnd [0xB9, 0x00, 0xF0]) .indirectY 0x40 ∧
      Counterparts (beforeEnd [0xB6, 0xF0]) (beforeEnd [0xBE, 0x00, 0xF0])
        .ldxZeroPageY .ldxAbsoluteY 0xF0 ∧
      LoadsAsLong (beforeEnd [0xB6, 0xF0]) (beforeEnd [0xBE, 0x00, 0xF0]) .zeroPageY 0xF0 :=
  ⟨counterparts_indirect, loadsAsLong counterparts_indirect,
    counterparts_wrapping, loadsAsLong counterparts_wrapping⟩

end Cpu

end Core6502
