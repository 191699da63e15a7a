import Core6502.Proofs.Dependence
import Core6502.Proofs.Lockstep

/-! # Undecoded bytes

A byte that is no opcode costs its own fetch and nothing else. A program from
which all such bytes are removed runs like the program itself, whose failing
steps are ignored, although every instruction after a removed byte is stored at
another address; only the program must not read its own bytes as data.
-/

namespace Core6502

/-- The item is an instruction. -/
def Item.isDecoded : Item → Bool
  | .instruction _ _ => true
  | .undecoded _ _ => false

namespace Program

/-- The program without its undecoded bytes. -/
def decoded (program : Program) : Program := program.filter Item.isDecoded

/-- How many undecoded bytes a program has. -/
def undecodedCount (program : Program) : Nat := program.countP fun item => !item.isDecoded

section

variable (program : Program) (byte : Byte) (hbyte : Opcode.ofByte? byte = none)
  (opcode : Opcode) (operand : Vector Byte opcode.instruction.mode.operandBytes)

@[simp] theorem decoded_instruction : decoded (.instruction opcode operand :: program) =
    .instruction opcode operand :: decoded program := rfl

@[simp] theorem decoded_undecoded :
    decoded (.undecoded byte hbyte :: program) = decoded program := rfl

@[simp] theorem undecodedCount_instruction :
    undecodedCount (.instruction opcode operand :: program) = undecodedCount program := rfl

@[simp] theorem undecodedCount_undecoded :
    undecodedCount (.undecoded byte hbyte :: program) = undecodedCount program + 1 :=
  List.countP_cons_of_pos rfl

end

theorem size_eq_decoded (program : Program) :
    program.size = program.decoded.size + program.undecodedCount := by
  induction program with
  | nil => rfl
  | cons item program ih =>
      cases item with
      | instruction opcode operand =>
          rw [decoded_instruction, undecodedCount_instruction, size_cons, size_cons, ih,
            Nat.add_assoc]
      | undecoded byte hbyte =>
          rw [decoded_undecoded, undecodedCount_undecoded, size_cons, ih, Item.size]
          omega

variable {β γ : Type} [Bus β] [Bus γ]

/-- Runs that agree on what they read have the same data reads. -/
theorem dataReads_of_agree {program : Program} {first : Cpu β} {second : Cpu γ}
    (hagree : first.Agree second program.length) :
    program.dataReads first = program.dataReads second := by
  rw [dataReads_eq, dataReads_eq, hagree.map_reads]

/-- A run of a program with its errors ignored, and a run of its instructions alone. -/
structure SkipsUndecoded (program : Program) (full : Cpu β) (alone : Cpu γ) : Prop where
  registers : (full.after program.length).registers =
    (alone.after program.decoded.length).registers
  status : (full.after program.length).status = (alone.after program.decoded.length).status
  results : ((full.steps program.length).map Turn.result).filter Except.isOk =
    (alone.steps program.decoded.length).map Turn.result
  fails : ∀ (index : Nat) (byte : Byte) (hbyte : Opcode.ofByte? byte = none),
    program[index]? = some (Item.undecoded byte hbyte) →
      ((full.steps program.length).map Turn.result)[index]? =
        some (.error (.unimplementedOpcode byte))
  pc : (full.after program.length).pc =
    (alone.after program.decoded.length).pc + .ofNat program.undecodedCount

/-- A run over a stored program ends where the program ends. -/
theorem pc_after {program : Program} {cpu : Cpu β}
    (hprogram : cpu.pc.Holds (Bus.read cpu.bus) program.encode) :
    (cpu.after program.length).pc = cpu.pc + .ofNat program.size := by
  induction program generalizing cpu with
  | nil => exact (UInt16.add_zero cpu.pc).symm
  | cons item program ih =>
      obtain ⟨hitem, hrest⟩ := holds_step hprogram
      rw [List.length_cons, Cpu.after, ih hrest, (Item.steppedBy_step hitem).pc, size_cons,
        UInt16.ofNat_add, UInt16.add_assoc]

/-- The step over an undecoded byte. -/
theorem step_undecoded_item {byte : Byte} {hbyte : Opcode.ofByte? byte = none} {cpu : Cpu β}
    (hitem : cpu.pc.Holds (Bus.read cpu.bus) (Item.undecoded byte hbyte).encode) :
    cpu.step.result = .error (.unimplementedOpcode byte) ∧
      cpu.step.cpu.registers = cpu.registers ∧ cpu.step.cpu.status = cpu.status := by
  have hlead : cpu.nextOpcode = byte := (Address.holds_cons.mp hitem).1
  have hdecode := Item.ofByte?_lead_instruction (.undecoded byte hbyte)
  rw [cpu.step_undecoded (hlead ▸ hdecode), hlead]
  exact ⟨rfl, rfl, rfl⟩

/-- Two processors with the same registers, status and operand order, of which the
first one starts at a program and the second one at its instructions. -/
structure Reduced (program : Program) (full : Cpu β) (alone : Cpu γ) : Prop where
  registers : full.registers = alone.registers
  status : full.status = alone.status
  operandOrder : full.operandOrder = alone.operandOrder
  stored : full.pc.Holds (Bus.read full.bus) program.encode
  decoded : alone.pc.Holds (Bus.read alone.bus) program.decoded.encode
  agree : ∀ address ∈ program.dataReads full,
    Bus.read full.bus address = Bus.read alone.bus address

namespace Reduced

variable {program : Program} {full : Cpu β} {alone : Cpu γ}

/-- Only the first processor steps over an undecoded byte. -/
theorem step_undecoded {byte : Byte} {hbyte : Opcode.ofByte? byte = none}
    (h : Reduced (.undecoded byte hbyte :: program) full alone) :
    full.step.result = .error (.unimplementedOpcode byte) ∧
      Reduced program full.step.cpu alone := by
  obtain ⟨hitem, hrest⟩ := holds_step h.stored
  obtain ⟨hresult, hregisters, hstatus⟩ := step_undecoded_item hitem
  have hagree := h.agree
  rw [dataReads_cons, List.forall_mem_append] at hagree
  exact ⟨hresult, {
    registers := hregisters.trans h.registers
    status := hstatus.trans h.status
    operandOrder := full.operandOrder_step.trans h.operandOrder
    stored := hrest
    decoded := h.decoded
    agree := hagree.2 }⟩

/-- Both step over an instruction, however far apart it is stored. -/
theorem step_instruction {opcode : Opcode}
    {operand : Vector Byte opcode.instruction.mode.operandBytes}
    (h : Reduced (.instruction opcode operand :: program) full alone) :
    full.step.result.isOk = true ∧ full.step.result = alone.step.result ∧
      Reduced program full.step.cpu alone.step.cpu := by
  obtain ⟨hitem, hrest⟩ := holds_step h.stored
  obtain ⟨hitem', hrest'⟩ := holds_step h.decoded
  obtain ⟨cycles, hcycles⟩ := (Item.steppedBy_step hitem).result
  have hagree := h.agree
  rw [dataReads_cons, List.forall_mem_append] at hagree
  have habreast : full.Abreast alone.toCpuState (alone.pc - full.pc) := {
    pc := by
      rw [UInt16.add_comm]
      exact (UInt16.sub_add_cancel _ _).symm
    registers := h.registers
    status := h.status }
  have hmatches : (Item.instruction opcode operand).Matches (.instruction opcode operand)
      full.operandOrder alone.operandOrder := by
    rw [h.operandOrder]
    exact Item.Matches.refl _ _
  have hparallel := hmatches.parallel_step habreast hitem hitem' hagree.1
  refine ⟨by rw [hcycles]; rfl, hparallel.result, ?_⟩
  exact {
    registers := hparallel.abreast.registers
    status := hparallel.abreast.status
    operandOrder := by rw [Cpu.operandOrder_step, Cpu.operandOrder_step, h.operandOrder]
    stored := hrest
    decoded := hrest'
    agree := hagree.2 }

/-- Both runs end with the same registers and status, and return the same results
but for the errors. -/
theorem after_eq (h : program.Reduced full alone) :
    (full.after program.length).registers = (alone.after program.decoded.length).registers ∧
      (full.after program.length).status = (alone.after program.decoded.length).status ∧
      ((full.steps program.length).map Turn.result).filter Except.isOk =
        (alone.steps program.decoded.length).map Turn.result := by
  -- On the program: an undecoded byte puts the first run one address further ahead.
  induction program generalizing full alone with
  | nil => exact ⟨h.registers, h.status, rfl⟩
  | cons item program ih =>
      cases item with
      | undecoded byte hbyte =>
          obtain ⟨hresult, hrest⟩ := h.step_undecoded
          obtain ⟨hregisters, hstatus, hresults⟩ := ih hrest
          refine ⟨hregisters, hstatus, ?_⟩
          rw [decoded_undecoded, ← hresults, List.length_cons, Cpu.steps, List.map_cons, hresult]
          rfl
      | instruction opcode operand =>
          obtain ⟨hok, hresult, hrest⟩ := h.step_instruction
          obtain ⟨hregisters, hstatus, hresults⟩ := ih hrest
          refine ⟨hregisters, hstatus, ?_⟩
          rw [decoded_instruction, List.length_cons, List.length_cons, Cpu.steps, Cpu.steps,
            List.map_cons, List.map_cons, List.filter_cons_of_pos hok, hresults, hresult]

/-- An error is ignored like a byte that is not there. -/
theorem skipsUndecoded (h : program.Reduced full alone) (hpc : full.pc = alone.pc) :
    program.SkipsUndecoded full alone := by
  obtain ⟨hregisters, hstatus, hresults⟩ := h.after_eq
  refine ⟨hregisters, hstatus, hresults, ?_, ?_⟩
  · intro index byte hbyte hitem
    obtain ⟨hindex, hget⟩ := List.getElem?_eq_some_iff.mp hitem
    obtain ⟨turn, hturn, hstepped⟩ := steppedBy_steps h.stored hindex
    have hresult := hstepped.result
    rw [hget] at hresult
    rw [List.getElem?_map, hturn]
    exact congrArg some hresult
  · rw [pc_after h.stored, pc_after h.decoded, hpc, size_eq_decoded, UInt16.ofNat_add,
      UInt16.add_assoc]

end Reduced

/-- A program that was loaded into a memory runs, with its errors ignored, like
its instructions alone that were loaded there, if it reads none of its own bytes
as data. -/
theorem skipsUndecoded_loadedAt (program : Program) (entry : Address) (memory : Memory)
    (state : CpuState) (hsize : program.size ≤ Memory.size)
    (hdata : ∀ address ∈ program.dataReads (program.loadedAt entry memory state),
      address ∉ entry.span program.size) :
    program.SkipsUndecoded (program.loadedAt entry memory state)
      (program.decoded.loadedAt entry memory state) := by
  have hshorter : program.decoded.size ≤ program.size := by
    rw [program.size_eq_decoded]
    exact Nat.le_add_right _ _
  have hreduced : program.Reduced (program.loadedAt entry memory state)
      (program.decoded.loadedAt entry memory state) := {
    registers := rfl
    status := rfl
    operandOrder := rfl
    stored := holds_loadedAt entry memory state hsize
    decoded := holds_loadedAt entry memory state (Nat.le_trans hshorter hsize)
    agree := by
      intro address haddress
      have hfull := hdata address haddress
      have halone : address ∉ entry.span program.decoded.size := by
        intro hmem
        obtain ⟨offset, hoffset, hoffsetAddress⟩ := (Address.mem_span entry).mp hmem
        exact hfull ((Address.mem_span entry).mpr
          ⟨offset, Nat.lt_of_lt_of_le hoffset hshorter, hoffsetAddress⟩)
      rw [read_loadedAt_of_not_mem memory state hfull,
        read_loadedAt_of_not_mem memory state halone] }
  exact hreduced.skipsUndecoded rfl

/-- A byte without a meaning before each load. The indexed one wraps past the last
address and reads outside the program. -/
def interleaved : Program := [
  .undecoded 0xEA ofByte?_noOperation,
  .instruction .ldxImmediate (.singleton 0x02),
  .undecoded 0x00 (by decide),
  .instruction .ldaAbsoluteX (.push (.singleton 0x12) 0xFF),
  .undecoded 0xFF (by decide),
  .instruction .ldyZeroPage (.singleton 0x40)]

def interleavedCells : Cells := ⟨[(0xFFFB, 0xEA), (0xFFFC, 0xA2), (0xFFFD, 0x02),
  (0xFFFE, 0x00), (0xFFFF, 0xBD), (0x0000, 0x12), (0x0001, 0xFF), (0x0002, 0xFF),
  (0x0003, 0xA4), (0x0004, 0x40)]⟩

/-- The run is computed on the cells; a memory has too many bytes for that. -/
def interleavedCpu : Cpu Cells := .startAt interleavedCells 0xFFFB

theorem dataReads_interleaved :
    interleaved.dataReads (interleaved.loadedAt 0xFFFB (.startingAt 0) {}) =
      [0x1301, 0x0040] := by
  have hreads : (interleavedCpu.steps 6).flatMap Turn.reads = [0xFFFB, 0xFFFC, 0xFFFD, 0xFFFE,
      0xFFFF, 0x0000, 0x0001, 0x1301, 0x0002, 0x0003, 0x0004, 0x0040] := by
    decide
  have hencode : interleaved.encode =
      [0xEA, 0xA2, 0x02, 0x00, 0xBD, 0x12, 0xFF, 0xFF, 0xA4, 0x40] := by
    decide
  have hagree : ∀ address ∈ (interleavedCpu.steps 6).flatMap Turn.reads,
      Bus.read interleavedCpu.bus address =
        Bus.read (interleaved.loadedAt 0xFFFB (.startingAt 0) {}).bus address := by
    rw [hreads]
    simp [interleavedCpu, Cpu.startAt, loadedAt, hencode, Bus.read, Memory.read_append, Cells.read,
      interleavedCells, List.lookup_cons]
  have hruns : interleavedCpu.Agree (interleaved.loadedAt 0xFFFB (.startingAt 0) {})
      interleaved.length :=
    .of_reads ⟨rfl, rfl, rfl, rfl⟩ hagree
  have hdata : interleaved.dataReads interleavedCpu = [0x1301, 0x0040] := by
    decide
  rw [← hdata, dataReads_of_agree hruns]

theorem skipsUndecoded_interleaved :
    interleaved.size ≤ Memory.size ∧
      (∀ address ∈ interleaved.dataReads (interleaved.loadedAt 0xFFFB (.startingAt 0) {}),
        address ∉ Address.span 0xFFFB interleaved.size) ∧
      interleaved.SkipsUndecoded (interleaved.loadedAt 0xFFFB (.startingAt 0) {})
        (interleaved.decoded.loadedAt 0xFFFB (.startingAt 0) {}) := by
  have hsize : interleaved.size ≤ Memory.size := by decide
  have hspan : Address.span 0xFFFB interleaved.size = [0xFFFB, 0xFFFC, 0xFFFD, 0xFFFE, 0xFFFF,
      0x0000, 0x0001, 0x0002, 0x0003, 0x0004] := by
    decide
  have hdata : ∀ address ∈ interleaved.dataReads (interleaved.loadedAt 0xFFFB (.startingAt 0) {}),
      address ∉ Address.span 0xFFFB interleaved.size := by
    rw [dataReads_interleaved, hspan]
    simp
  exact ⟨hsize, hdata, skipsUndecoded_loadedAt interleaved 0xFFFB (.startingAt 0) {} hsize hdata⟩

end Program

end Core6502
