import Core6502.Proofs.ByteOrder
import Core6502.Proofs.Undecoded

/-! # Relocation

A program runs the same wherever it is stored, if it does not read its own bytes
as data: neither where it is stored nor where it could have been. Only the
program counter is different, by the distance between the two places. A place
may be such that an instruction wraps past the last address in the middle.
-/

namespace Core6502

variable {β γ : Type}

theorem Item.Parallel.moved_eq {item : Item} {distance : Address}
    {turn : Turn β (Except ExecutionError UInt64)} {other : Turn γ (Except ExecutionError UInt64)}
    (h : item.Parallel distance turn other)
    (horder : turn.cpu.operandOrder = other.cpu.operandOrder) :
    { turn.cpu.toCpuState with pc := turn.cpu.pc + distance } = other.cpu.toCpuState := by
  ext1
  · exact h.abreast.registers
  · exact h.abreast.pc.symm
  · exact h.opcode
  · exact h.abreast.status
  · exact h.cycles
  · exact horder

namespace Program

variable [Bus β] [Bus γ]

/-- Two runs over a program that is stored at two places, step by step: they return
the same, they read the same addresses outside the instruction stream, and they
leave the same state but for the distance of the program counters. -/
structure RelocatedBy (program : Program) (distance : Address) (first : Cpu β) (second : Cpu γ) :
    Prop where
  results : (first.steps program.length).map Turn.result =
    (second.steps program.length).map Turn.result
  data : List.zipWith (fun item turn => turn.reads.drop item.size) program
      (first.steps program.length) =
    List.zipWith (fun item turn => turn.reads.drop item.size) program
      (second.steps program.length)
  states : (first.steps program.length).map (fun turn =>
      { turn.cpu.toCpuState with pc := turn.cpu.pc + distance }) =
    (second.steps program.length).map fun turn => turn.cpu.toCpuState

/-- Two runs over the items of a program, seen item by item. -/
theorem zipWith_steps_congr {σ : Type} {program : Program} {first : Cpu β} {second : Cpu γ}
    {view : Item → Turn β (Except ExecutionError UInt64) → σ}
    {otherView : Item → Turn γ (Except ExecutionError UInt64) → σ}
    (h : ∀ index (hindex : index < program.length),
      view program[index] (first.after index).step =
        otherView program[index] (second.after index).step) :
    List.zipWith view program (first.steps program.length) =
      List.zipWith otherView program (second.steps program.length) := by
  apply List.ext_getElem?
  intro index
  rw [List.getElem?_zipWith, List.getElem?_zipWith, Cpu.getElem?_steps, Cpu.getElem?_steps]
  by_cases hindex : index < program.length
  · rw [if_pos hindex, if_pos hindex, List.getElem?_eq_getElem hindex]
    exact congrArg some (h index hindex)
  · rw [if_neg hindex, if_neg hindex, List.getElem?_eq_none (Nat.le_of_not_lt hindex)]

/-- Two processors that start where the same program is stored, with the same
registers and status, run over it in the same way if they agree on its data. -/
theorem relocatedBy_of_agree {program : Program} {first : Cpu β} {second : Cpu γ}
    {distance : Address} (habreast : first.Abreast second.toCpuState distance)
    (horder : first.operandOrder = second.operandOrder)
    (hfirst : first.pc.Holds (Bus.read first.bus) program.encode)
    (hsecond : second.pc.Holds (Bus.read second.bus) program.encode)
    (hagree : ∀ address ∈ program.dataReads first,
      Bus.read first.bus address = Bus.read second.bus address) :
    program.RelocatedBy distance first second := by
  have hmatches : ∀ item : Item,
      item.Matches (id item) first.operandOrder second.operandOrder := by
    intro item
    rw [horder]
    exact Item.Matches.refl item _
  have hstored : second.pc.Holds (Bus.read second.bus) (encode (program.map id)) := by
    rw [List.map_id]
    exact hsecond
  have hparallel : ∀ index (hindex : index < program.length),
      program[index].Parallel distance (first.after index).step (second.after index).step := by
    intro index hindex
    exact parallel_steps hmatches habreast hfirst hstored hagree hindex
  refine ⟨?_, ?_, ?_⟩
  · apply Cpu.map_steps_congr
    intro index hindex
    exact (hparallel index hindex).result
  · apply zipWith_steps_congr
    intro index hindex
    exact (hparallel index hindex).data
  · apply Cpu.map_steps_congr
    intro index hindex
    apply (hparallel index hindex).moved_eq
    rw [Cpu.operandOrder_step, Cpu.operandOrder_step, Cpu.operandOrder_after,
      Cpu.operandOrder_after, horder]

/-- A program that was loaded at one place runs like the program loaded at another,
if its run reads neither place as data. -/
theorem relocatedBy_loadedAt (program : Program) (memory : Memory) (entry other : Address)
    (state : CpuState) (hsize : program.size ≤ Memory.size)
    (hdata : ∀ address ∈ program.dataReads (program.loadedAt entry memory state),
      address ∉ entry.span program.size ∧ address ∉ other.span program.size) :
    program.RelocatedBy (other - entry) (program.loadedAt entry memory state)
      (program.loadedAt other memory state) := by
  have habreast : (program.loadedAt entry memory state).Abreast
      (program.loadedAt other memory state).toCpuState (other - entry) := {
    pc := by
      rw [UInt16.add_comm]
      exact (UInt16.sub_add_cancel other entry).symm
    registers := rfl
    status := rfl }
  apply relocatedBy_of_agree habreast rfl (holds_loadedAt entry memory state hsize)
    (holds_loadedAt other memory state hsize)
  intro address haddress
  obtain ⟨hentry, hother⟩ := hdata address haddress
  rw [read_loadedAt_of_not_mem memory state hentry, read_loadedAt_of_not_mem memory state hother]

/-- An indexed load that wraps past the last address when it is stored at the end of
memory, a byte without a meaning, and a load from page zero. -/
def straddling : Program := [
  .instruction .ldxImmediate (.singleton 0x01),
  .instruction .ldaAbsoluteX (.push (.singleton 0x12) 0xFF),
  .undecoded 0xEA ofByte?_noOperation,
  .instruction .ldyZeroPage (.singleton 0x40)]

def straddlingCells : Cells := ⟨[(0xFFFD, 0xA2), (0xFFFE, 0x01), (0xFFFF, 0xBD), (0x0000, 0x12),
  (0x0001, 0xFF), (0x0002, 0xEA), (0x0003, 0xA4), (0x0004, 0x40), (0x1300, 0x80)]⟩

def straddlingCpu : Cpu Cells := .startAt straddlingCells 0xFFFD

def straddlingMemory : Memory := (Memory.startingAt 0).write 0x1300 0x80

theorem dataReads_straddling :
    straddling.dataReads (straddling.loadedAt 0xFFFD straddlingMemory {}) = [0x1300, 0x0040] := by
  have hreads : (straddlingCpu.steps 4).flatMap Turn.reads = [0xFFFD, 0xFFFE, 0xFFFF, 0x0000,
      0x0001, 0x1300, 0x0002, 0x0003, 0x0004, 0x0040] := by
    decide
  have hencode : straddling.encode = [0xA2, 0x01, 0xBD, 0x12, 0xFF, 0xEA, 0xA4, 0x40] := by
    decide
  have hagree : ∀ address ∈ (straddlingCpu.steps 4).flatMap Turn.reads,
      Bus.read straddlingCpu.bus address =
        Bus.read (straddling.loadedAt 0xFFFD straddlingMemory {}).bus address := by
    rw [hreads]
    simp [straddlingCpu, Cpu.startAt, loadedAt, hencode, Bus.read, straddlingMemory,
      Memory.read_append, Memory.read_write, Cells.read, straddlingCells, List.lookup_cons]
  have hruns : straddlingCpu.Agree (straddling.loadedAt 0xFFFD straddlingMemory {})
      straddling.length :=
    .of_reads ⟨rfl, rfl, rfl, rfl⟩ hagree
  have hdata : straddling.dataReads straddlingCpu = [0x1300, 0x0040] := by
    decide
  rw [← hdata, dataReads_of_agree hruns]

theorem relocatedBy_straddling :
    straddling.size ≤ Memory.size ∧
      (∀ address ∈ straddling.dataReads (straddling.loadedAt 0xFFFD straddlingMemory {}),
        address ∉ Address.span 0xFFFD straddling.size ∧
          address ∉ Address.span 0x0300 straddling.size) ∧
      straddling.RelocatedBy (0x0300 - 0xFFFD) (straddling.loadedAt 0xFFFD straddlingMemory {})
        (straddling.loadedAt 0x0300 straddlingMemory {}) := by
  have hsize : straddling.size ≤ Memory.size := by decide
  have hdata : ∀ address ∈ straddling.dataReads (straddling.loadedAt 0xFFFD straddlingMemory {}),
      address ∉ Address.span 0xFFFD straddling.size ∧
        address ∉ Address.span 0x0300 straddling.size := by
    rw [dataReads_straddling, List.forall_mem_cons, List.forall_mem_singleton]
    decide
  exact ⟨hsize, hdata,
    relocatedBy_loadedAt straddling straddlingMemory 0xFFFD 0x0300 {} hsize hdata⟩

end Program

end Core6502
