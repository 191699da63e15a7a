import Core6502.Program
import Core6502.Proofs.Loading
import Core6502.Proofs.Sessions

/-! # Running a listing

A processor that starts where a program is stored steps over its items, one for
each step: it fetches the lead byte of the item, reads the operand bytes and no
other byte of the instruction stream, and goes on where the next item begins. A
byte that is no opcode is an item of its own and does not put the processor out
of step.
-/

namespace Core6502

variable {β : Type}

namespace Item

/-- What a step over an item returns. -/
def Returns : Item → Except ExecutionError UInt64 → Prop
  | .instruction _ _, result => ∃ cycles, result = .ok cycles
  | .undecoded byte _, result => result = .error (.unimplementedOpcode byte)

/-- An immediate item leaves its operand byte in its target register. -/
def Loads : Item → Registers → Prop
  | .instruction opcode operand, registers =>
      opcode.instruction.mode = .immediate →
        operand.toList = [registers.get opcode.instruction.target]
  | .undecoded _ _, _ => True

/-- The turn of a step over an item that is stored from an address on. The first
reads of the turn are the instruction stream, and a failing one has no others. -/
structure SteppedBy [Bus β] (item : Item) (start : Address)
    (turn : Turn β (Except ExecutionError UInt64)) : Prop where
  opcode : turn.cpu.opcode = item.lead
  stream : turn.reads.take item.size = start.span item.size
  bytes : (turn.reads.take item.size).map (Bus.read turn.cpu.bus) = item.encode
  alone : turn.result.isOk = false → turn.reads = [start]
  result : item.Returns turn.result
  register : item.Loads turn.cpu.registers
  pc : turn.cpu.pc = start + .ofNat item.size

theorem ofByte?_lead_instruction (item : Item) :
    Instruction.ofByte? item.lead = match item with
      | .instruction opcode _ => some opcode.instruction
      | .undecoded _ _ => none := by
  rw [Instruction.ofByte?, ofByte?_lead]
  cases item <;> rfl

/-- The operand byte of an immediate item is the byte that it loads. -/
theorem operands_immediate [Bus β] {cpu : Cpu β} {opcode : Opcode}
    {operand : Vector Byte opcode.instruction.mode.operandBytes}
    (hmode : opcode.instruction.mode = .immediate)
    (hoperand : (cpu.pc + 1).Holds (Bus.read cpu.bus) operand.toList) :
    operand.toList = [(cpu.fetched.operand opcode.instruction).value] := by
  have hlength : operand.toList.length = 1 := by
    rw [Vector.length_toList, hmode]
    rfl
  rw [Address.Holds, hlength, Address.span_one] at hoperand
  rw [← hoperand, Cpu.operand, hmode]
  rfl

theorem steppedBy_step [Bus β] {item : Item} {cpu : Cpu β}
    (hitem : cpu.pc.Holds (Bus.read cpu.bus) item.encode) :
    item.SteppedBy cpu.pc cpu.step := by
  obtain ⟨hlead, hoperands⟩ := Address.holds_cons.mp hitem
  have hbytes : (cpu.pc.span item.size).map (Bus.read cpu.bus) = item.encode := by
    rw [← item.length_encode]
    exact hitem
  have hdecode := ofByte?_lead_instruction item
  rw [← hlead] at hdecode
  -- What follows the lead byte is decoded by it alone, so an undecoded one ends its item.
  cases item with
  | undecoded byte hbyte =>
      have hstream : [cpu.pc].take 1 = cpu.pc.span 1 := (Address.span_one cpu.pc).symm
      rw [cpu.step_undecoded hdecode]
      exact {
        opcode := hlead
        stream := hstream
        bytes := (congrArg _ hstream).trans hbytes
        alone := fun _ => rfl
        result := congrArg (Except.error ∘ ExecutionError.unimplementedOpcode) hlead
        register := trivial
        pc := rfl }
  | instruction opcode operand =>
      have hstream := cpu.take_size_reads opcode.instruction
      rw [cpu.step_decoded hdecode]
      exact {
        opcode := hlead
        stream := hstream
        bytes := (congrArg _ hstream).trans hbytes
        alone := fun hfailed => Bool.noConfusion hfailed
        result := ⟨_, rfl⟩
        register := by
          intro hmode
          rw [Cpu.registers_executed, Registers.get_set_same]
          exact operands_immediate hmode hoperands
        pc := cpu.pc_executed_fetched opcode.instruction }

end Item

namespace Program

/-- A run over a program that is stored from an address on, one step for each
item: step by step the program is read back, every step ends where its item
ends, and at the end the program is still stored. -/
structure RunBy [Bus β] (program : Program) (entry : Address) (cpu : Cpu β) : Prop where
  length : (cpu.steps program.length).length = program.length
  step : ∀ index (hindex : index < program.length),
    ∃ turn, (cpu.steps program.length)[index]? = some turn ∧
      program[index].SteppedBy (entry + .ofNat (size (program.take index))) turn ∧
      turn.cpu.pc.toNat = (entry.toNat + size (program.take (index + 1))) % 65536
  stored : ∀ turn ∈ cpu.steps program.length,
    entry.Holds (Bus.read turn.cpu.bus) program.encode

theorem size_append (first second : Program) :
    size (first ++ second) = size first + size second := by
  induction first with
  | nil => simp [size]
  | cons item first ih => rw [List.cons_append, size_cons, size_cons, ih, Nat.add_assoc]

theorem size_take_succ (program : Program) {index : Nat} (hindex : index < program.length) :
    size (program.take (index + 1)) = size (program.take index) + program[index].size := by
  rw [List.take_succ_eq_append_getElem hindex, size_append]
  rfl

/-- The step over the first item of a stored program ends where the rest is stored. -/
theorem holds_step [Bus β] {item : Item} {program : Program} {cpu : Cpu β}
    (hprogram : cpu.pc.Holds (Bus.read cpu.bus) (encode (item :: program))) :
    cpu.pc.Holds (Bus.read cpu.bus) item.encode ∧
      cpu.step.cpu.pc.Holds (Bus.read cpu.step.cpu.bus) program.encode := by
  rw [encode_cons, Address.holds_append, Item.length_encode] at hprogram
  refine ⟨hprogram.1, ?_⟩
  rw [(Item.steppedBy_step hprogram.1).pc]
  exact hprogram.2

/-- The steps of a run read the items back, each from where the ones before it end. -/
theorem steppedBy_steps [Bus β] {program : Program} {cpu : Cpu β}
    (hprogram : cpu.pc.Holds (Bus.read cpu.bus) program.encode) {index : Nat}
    (hindex : index < program.length) :
    ∃ turn, (cpu.steps program.length)[index]? = some turn ∧
      program[index].SteppedBy (cpu.pc + .ofNat (size (program.take index))) turn := by
  -- On the program: the rest of it is stored where the step over its first item ends.
  induction program generalizing cpu index with
  | nil => exact absurd hindex (Nat.not_lt_zero index)
  | cons item program ih =>
      obtain ⟨hitem, hrest⟩ := holds_step hprogram
      have hstep := Item.steppedBy_step hitem
      cases index with
      | zero =>
          refine ⟨cpu.step, rfl, ?_⟩
          have hstart : cpu.pc + .ofNat (size (List.take 0 (item :: program))) = cpu.pc :=
            UInt16.add_zero cpu.pc
          rw [hstart]
          exact hstep
      | succ index =>
          obtain ⟨turn, hturn, hstepped⟩ := ih hrest (Nat.lt_of_succ_lt_succ hindex)
          refine ⟨turn, hturn, ?_⟩
          rw [List.take_succ_cons, size_cons, UInt16.ofNat_add, ← UInt16.add_assoc, ← hstep.pc]
          exact hstepped

theorem runBy_of_holds [Bus β] {program : Program} {cpu : Cpu β}
    (hprogram : cpu.pc.Holds (Bus.read cpu.bus) program.encode) :
    program.RunBy cpu.pc cpu where
  length := cpu.length_steps program.length
  step index hindex := by
    obtain ⟨turn, hturn, hitem⟩ := steppedBy_steps hprogram hindex
    refine ⟨turn, hturn, hitem, ?_⟩
    rw [hitem.pc, UInt16.add_assoc, ← UInt16.ofNat_add, ← size_take_succ program hindex,
      UInt16.toNat_add, UInt16.toNat_ofNat']
    omega
  stored turn hturn := by
    rw [cpu.bus_of_mem_steps hturn]
    exact hprogram

/-- A processor in a given state whose memory was loaded with a program at the
address where it starts. -/
def loadedAt (program : Program) (entry : Address) (memory : Memory) (state : CpuState) :
    Cpu Memory :=
  { state with pc := entry, bus := (memory.setCursor entry).load program.encode }

theorem holds_loadedAt {program : Program} (entry : Address) (memory : Memory) (state : CpuState)
    (hsize : program.size ≤ Memory.size) :
    (program.loadedAt entry memory state).pc.Holds
      (Bus.read (program.loadedAt entry memory state).bus) program.encode := by
  apply (memory.setCursor entry).holds_load
  rw [length_encode]
  exact hsize

theorem read_loadedAt_of_not_mem {program : Program} {entry address : Address} (memory : Memory)
    (state : CpuState) (haddress : address ∉ entry.span program.size) :
    Bus.read (program.loadedAt entry memory state).bus address = memory.read address := by
  rw [← length_encode] at haddress
  exact Memory.read_load_of_not_mem haddress

/-- Running undoes assembling: whatever the memory and the processor were before,
a program that was loaded at its entry and fits into the memory is read back. -/
theorem runBy_load (memory : Memory) (entry : Address) (state : CpuState) (program : Program)
    (hsize : program.size ≤ Memory.size) :
    program.RunBy entry
      { state with pc := entry, bus := (memory.setCursor entry).load program.encode } := by
  have hprogram := holds_loadedAt entry memory state hsize
  exact runBy_of_holds hprogram

theorem ofByte?_noOperation : Opcode.ofByte? 0xEA = none := by decide

/-- A byte without a meaning between an absolute and an immediate load. -/
def sample : Program := [
  .instruction .ldaAbsolute #v[0x12, 0x34],
  .undecoded 0xEA ofByte?_noOperation,
  .instruction .ldxImmediate #v[0x07]]

/-- The program wraps past the last address in the middle of its first instruction. -/
theorem runBy_load_sample : sample.size ≤ Memory.size ∧ sample.RunBy 0xFFFE
    ({ pc := 0xFFFE, bus := (Memory.setCursor {} 0xFFFE).load sample.encode } : Cpu Memory) :=
  ⟨by decide, runBy_load {} 0xFFFE {} sample (by decide)⟩

end Program

end Core6502
