import Core6502.Proofs.Indexing
import Core6502.Proofs.Listing

/-! # Runs in lockstep

Two processors on two buses, each with a listing of its own that is stored at a
place of its own. They run in lockstep if item by item the listings ask for the
same instruction and the same operand, and if every byte that the first run
reads outside its listing is the same on both buses. The program counters then
keep their distance.
-/

namespace Core6502

variable {β γ : Type}

/-- The states of two processors in lockstep: the program counters are a distance
apart, and the registers and the status are the same. -/
structure CpuState.Abreast (first second : CpuState) (distance : Address) : Prop where
  pc : second.pc = first.pc + distance
  registers : first.registers = second.registers
  status : first.status = second.status

namespace Item

/-- Two items that ask for the same under two operand orders: the same lead byte
and operand bytes that denote the same address. -/
structure Matches (item other : Item) (order otherOrder : OperandOrder) : Prop where
  lead : item.lead = other.lead
  size : item.size = other.size
  argument : order.address item.operands = otherOrder.address other.operands

/-- The turns of two steps in lockstep over an item. The reads of the instruction
stream are the distance apart, and the reads outside it are the same. -/
structure Parallel (item : Item) (distance : Address)
    (turn : Turn β (Except ExecutionError UInt64))
    (other : Turn γ (Except ExecutionError UInt64)) : Prop where
  result : turn.result = other.result
  stream : other.reads.take item.size = (turn.reads.take item.size).map (· + distance)
  data : turn.reads.drop item.size = other.reads.drop item.size
  abreast : turn.cpu.Abreast other.cpu.toCpuState distance
  opcode : turn.cpu.opcode = other.cpu.opcode
  cycles : turn.cpu.cycles = other.cpu.cycles

theorem Matches.refl (item : Item) (order : OperandOrder) : item.Matches item order order :=
  ⟨rfl, rfl, rfl⟩

end Item

theorem Address.span_add_distance (start distance : Address) (count : Nat) :
    (start + distance).span count = (start.span count).map (· + distance) := by
  rw [span, span, List.map_map]
  apply List.map_congr_left
  intro offset _
  change start + distance + .ofNat offset = start + .ofNat offset + distance
  ac_rfl

namespace Cpu

variable [Bus β] [Bus γ]

/-- A step never changes the operand order. -/
theorem operandOrder_step (cpu : Cpu β) : cpu.step.cpu.operandOrder = cpu.operandOrder := by
  cases hopcode : Instruction.ofByte? cpu.nextOpcode with
  | none => rw [cpu.step_undecoded hopcode]; rfl
  | some instruction => rw [cpu.step_decoded hopcode]; rfl

/-- The argument of an instruction is read off the item that is stored at the
program counter. -/
theorem argument_of_holds {cpu : Cpu β} {item : Item} {mode : AddressingMode}
    (hitem : cpu.pc.Holds (Bus.read cpu.bus) item.encode)
    (hsize : item.size = 1 + mode.operandBytes) :
    mode.argument (Bus.read cpu.bus) cpu.fetched.toCpuState =
      cpu.operandOrder.address item.operands := by
  have hoperands := (Address.holds_cons.mp hitem).2
  have hlength : item.operands.length = mode.operandBytes := by
    have hencode := item.length_encode
    rw [Item.encode, List.length_cons] at hencode
    omega
  rw [Address.Holds, hlength] at hoperands
  exact congrArg cpu.operandOrder.address hoperands

end Cpu

namespace Item

variable [Bus β] [Bus γ] {item other : Item} {first : Cpu β} {second : Cpu γ}
  {distance : Address}

theorem Matches.sameArgument {opcode : Opcode}
    {operand : Vector Byte opcode.instruction.mode.operandBytes}
    (hmatches : (instruction opcode operand).Matches other first.operandOrder
      second.operandOrder)
    (habreast : first.Abreast second.toCpuState distance)
    (hfirst : first.pc.Holds (Bus.read first.bus) (instruction opcode operand).encode)
    (hsecond : second.pc.Holds (Bus.read second.bus) other.encode) :
    opcode.instruction.mode.SameArgument (Bus.read first.bus) (Bus.read second.bus)
      first.fetched.toCpuState second.fetched.toCpuState where
  argument := by
    rw [Cpu.argument_of_holds hfirst rfl, hmatches.argument]
    exact (Cpu.argument_of_holds hsecond hmatches.size.symm).symm
  index name _ := congrArg (Registers.get · name) habreast.registers

/-- Two processors step in lockstep over matching items, if the bytes that the
first one reads outside its item are the same for the second. -/
theorem Matches.parallel_step
    (hmatches : item.Matches other first.operandOrder second.operandOrder)
    (habreast : first.Abreast second.toCpuState distance)
    (hfirst : first.pc.Holds (Bus.read first.bus) item.encode)
    (hsecond : second.pc.Holds (Bus.read second.bus) other.encode)
    (hagree : ∀ address ∈ first.step.reads.drop item.size,
      Bus.read first.bus address = Bus.read second.bus address) :
    item.Parallel distance first.step second.step := by
  have hstepped := steppedBy_step hfirst
  have hother := steppedBy_step hsecond
  have hstream : second.step.reads.take item.size =
      (first.step.reads.take item.size).map (· + distance) := by
    rw [hmatches.size, hother.stream, ← hmatches.size, hstepped.stream, habreast.pc,
      Address.span_add_distance]
  have hpc : second.step.cpu.pc = first.step.cpu.pc + distance := by
    rw [hother.pc, hstepped.pc, ← hmatches.size, habreast.pc]
    ac_rfl
  have hopcode : first.step.cpu.opcode = second.step.cpu.opcode := by
    rw [hstepped.opcode, hother.opcode, hmatches.lead]
  have hlead : first.nextOpcode = item.lead := (Address.holds_cons.mp hfirst).1
  have hnext : second.nextOpcode = item.lead :=
    (Address.holds_cons.mp hsecond).1.trans hmatches.lead.symm
  have hdecode := ofByte?_lead_instruction item
  cases item with
  | undecoded byte hbyte =>
      rw [first.step_undecoded (hlead ▸ hdecode)] at hstream hpc hopcode ⊢
      rw [second.step_undecoded (hnext ▸ hdecode)] at hstream hpc hopcode ⊢
      exact {
        result := by rw [hlead, hnext]
        stream := hstream
        data := rfl
        abreast := ⟨hpc, habreast.registers, habreast.status⟩
        opcode := hopcode
        cycles := rfl }
  | instruction opcode operand =>
      have hsame := hmatches.sameArgument habreast hfirst hsecond
      rw [first.step_decoded (hlead ▸ hdecode)] at hstream hpc hopcode hagree ⊢
      rw [second.step_decoded (hnext ▸ hdecode)] at hstream hpc hopcode ⊢
      have hdata : ∀ address ∈ opcode.instruction.mode.dataReads (Bus.read first.bus)
          first.fetched.toCpuState, Bus.read first.bus address = Bus.read second.bus address := by
        intro address haddress
        apply hagree
        rw [Item.size, Cpu.drop_size_reads]
        exact haddress
      have hoperand : first.fetched.operand opcode.instruction =
          second.fetched.operand opcode.instruction := hsame.operand hdata
      exact {
        result := by rw [hoperand]
        stream := hstream
        data := by
          rw [Item.size, Cpu.drop_size_reads, Cpu.drop_size_reads]
          exact hsame.dataReads hdata
        abreast := {
          pc := hpc
          registers := by
            rw [Cpu.registers_executed, Cpu.registers_executed, hoperand]
            exact congrArg (Registers.set · _ _) habreast.registers
          status := by rw [Cpu.status_executed, Cpu.status_executed, hoperand] }
        opcode := hopcode
        cycles := by
          rw [Cpu.cycles_executed, Cpu.cycles_executed, hoperand]
          rfl }

end Item

namespace Program

variable [Bus β] [Bus γ]

/-- The reads outside the instruction stream in a run over a program, one step
for each item. -/
def dataReads (program : Program) (cpu : Cpu β) : List Address :=
  (List.zipWith (fun item turn => turn.reads.drop item.size) program
    (cpu.steps program.length)).flatten

@[simp] theorem dataReads_cons (item : Item) (program : Program) (cpu : Cpu β) :
    dataReads (item :: program) cpu =
      cpu.step.reads.drop item.size ++ dataReads program cpu.step.cpu := rfl

theorem dataReads_eq (program : Program) (cpu : Cpu β) :
    program.dataReads cpu = (List.zipWith (fun item reads => reads.drop item.size) program
      ((cpu.steps program.length).map Turn.reads)).flatten := by
  rw [List.zipWith_map_right]
  rfl

/-- A program and its counterpart, item by item, that are stored a distance apart
run in lockstep. -/
theorem parallel_steps {program : Program} {convert : Item → Item} {first : Cpu β}
    {second : Cpu γ} {distance : Address}
    (hmatches : ∀ item : Item,
      item.Matches (convert item) first.operandOrder second.operandOrder)
    (habreast : first.Abreast second.toCpuState distance)
    (hfirst : first.pc.Holds (Bus.read first.bus) program.encode)
    (hsecond : second.pc.Holds (Bus.read second.bus) (encode (program.map convert)))
    (hagree : ∀ address ∈ program.dataReads first,
      Bus.read first.bus address = Bus.read second.bus address)
    {index : Nat} (hindex : index < program.length) :
    program[index].Parallel distance (first.after index).step (second.after index).step := by
  -- On the program: the step over its first item leaves both at the rest of their listings.
  induction program generalizing first second index with
  | nil => exact absurd hindex (Nat.not_lt_zero index)
  | cons item program ih =>
      obtain ⟨hitem, hrest⟩ := holds_step hfirst
      obtain ⟨hitem', hrest'⟩ := holds_step hsecond
      rw [dataReads_cons, List.forall_mem_append] at hagree
      have hparallel := (hmatches item).parallel_step habreast hitem hitem' hagree.1
      cases index with
      | zero => exact hparallel
      | succ index =>
          refine ih ?_ hparallel.abreast hrest hrest' hagree.2 (Nat.lt_of_succ_lt_succ hindex)
          intro next
          rw [Cpu.operandOrder_step, Cpu.operandOrder_step]
          exact hmatches next

end Program

end Core6502
