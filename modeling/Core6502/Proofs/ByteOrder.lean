import Core6502.Proofs.Span
import Core6502.Proofs.Dependence
import Core6502.Proofs.Lockstep

/-! # Byte order

The two operand orders are one processor up to the order in which the bytes of
two-byte operands are stored. A program whose address operands are all turned
around runs under the other order as the program did under the first, unless it
reads one of the bytes that changed their places as data.
-/

namespace Core6502

theorem OperandOrder.address_reverse {operand : List Byte} (hlength : operand.length ≤ 2) :
    lowFirst.address operand.reverse = highFirst.address operand := by
  match operand, hlength with
  | [], _ => rfl
  | [_], _ => rfl
  | [_, _], _ => rfl

theorem AddressingMode.operandBytes_le_two (mode : AddressingMode) : mode.operandBytes ≤ 2 := by
  cases mode <;> decide

namespace Item

/-- The item with its operand bytes in the other order. A single one stays where it is. -/
def swap : Item → Item
  | .instruction opcode operand => .instruction opcode operand.reverse
  | .undecoded byte hbyte => .undecoded byte hbyte

/-- The addresses of the bytes that change their places when an item that is
stored from an address on is swapped. -/
def swappedAt (start : Address) : Item → List Address
  | .instruction opcode _ =>
      match opcode.instruction.mode with
      | .absolute | .absoluteX | .absoluteY => [start + 1, start + 2]
      | _ => []
  | .undecoded _ _ => []

theorem matches_swap (item : Item) : item.Matches item.swap .highFirst .lowFirst := by
  cases item with
  | undecoded byte hbyte => exact ⟨rfl, rfl, rfl⟩
  | instruction opcode operand =>
      refine ⟨rfl, rfl, ?_⟩
      have hlength : operand.toList.length ≤ 2 := by
        rw [Vector.length_toList]
        exact opcode.instruction.mode.operandBytes_le_two
      have hreverse : operand.reverse.toList = operand.toList.reverse := Vector.toList_reverse
      rw [swap, operands, operands, hreverse, OperandOrder.address_reverse hlength]

end Item

namespace Program

def swap (program : Program) : Program := program.map Item.swap

/-- The addresses of the operand bytes that change their places. -/
def swappedAt (start : Address) : Program → List Address
  | [] => []
  | item :: program => item.swappedAt start ++ swappedAt (start + .ofNat item.size) program

/-- Two memories, of which the first holds a program and the second differs from
it in that the bytes of two-byte operands have changed their places. -/
structure SwappedIn (program : Program) (entry : Address) (memory other : Address → Byte) :
    Prop where
  stored : entry.Holds memory program.encode
  swapped : entry.Holds other program.swap.encode
  elsewhere : ∀ address ∉ program.swappedAt entry, other address = memory address

end Program

variable {β γ : Type}

namespace Item.Parallel

variable {item : Item} {turn : Turn β (Except ExecutionError UInt64)}
  {other : Turn γ (Except ExecutionError UInt64)}

/-- Without a distance all reads are the same. -/
theorem reads_eq (h : item.Parallel 0 turn other) : turn.reads = other.reads := by
  have hstream : other.reads.take item.size = turn.reads.take item.size := by
    rw [h.stream]
    simp
  rw [← List.take_append_drop item.size turn.reads, ← hstream, h.data, List.take_append_drop]

theorem state_eq (h : item.Parallel 0 turn other) (horder : other.cpu.operandOrder = .lowFirst) :
    { turn.cpu.toCpuState with operandOrder := .lowFirst } = other.cpu.toCpuState := by
  ext1
  · exact h.abreast.registers
  · exact (h.abreast.pc.trans (UInt16.add_zero _)).symm
  · exact h.opcode
  · exact h.abreast.status
  · exact h.cycles
  · exact horder.symm

end Item.Parallel

variable [Bus β] [Bus γ]

/-- Two runs with the same results, the same reads and, step by step, the same
state but for the operand order. -/
structure Cpu.SameButOrder (first : Cpu β) (second : Cpu γ) (count : Nat) : Prop where
  results : (first.steps count).map Turn.result = (second.steps count).map Turn.result
  reads : (first.steps count).map Turn.reads = (second.steps count).map Turn.reads
  states : (first.steps count).map (fun turn =>
      { turn.cpu.toCpuState with operandOrder := .lowFirst }) =
    (second.steps count).map fun turn => turn.cpu.toCpuState

theorem Cpu.operandOrder_after (cpu : Cpu β) (count : Nat) :
    (cpu.after count).operandOrder = cpu.operandOrder := by
  induction count with
  | zero => rfl
  | succ count ih => rw [after_succ, operandOrder_step, ih]

/-- A run of a program under one order is the run of the swapped program under
the other, if it reads none of the swapped bytes as data. -/
theorem Program.sameButOrder_swap (program : Program) (first : Cpu β) (second : Cpu γ)
    (horder : first.operandOrder = .highFirst)
    (hstate : second.toCpuState = { first.toCpuState with operandOrder := .lowFirst })
    (hswapped : program.SwappedIn first.pc (Bus.read first.bus) (Bus.read second.bus))
    (hdata : ∀ address ∈ program.dataReads first, address ∉ program.swappedAt first.pc) :
    first.SameButOrder second program.length := by
  have hpc : second.pc = first.pc := by rw [hstate]
  have hlow : second.operandOrder = .lowFirst := by rw [hstate]
  have habreast : first.Abreast second.toCpuState 0 := {
    pc := hpc.trans (UInt16.add_zero first.pc).symm
    registers := by rw [hstate]
    status := by rw [hstate] }
  have hmatches : ∀ item : Item,
      item.Matches item.swap first.operandOrder second.operandOrder := by
    intro item
    rw [horder, hlow]
    exact item.matches_swap
  have hsecond : second.pc.Holds (Bus.read second.bus) program.swap.encode := by
    rw [hpc]
    exact hswapped.swapped
  have hagree : ∀ address ∈ program.dataReads first,
      Bus.read first.bus address = Bus.read second.bus address := by
    intro address haddress
    exact (hswapped.elsewhere address (hdata address haddress)).symm
  have hparallel : ∀ index (hindex : index < program.length),
      program[index].Parallel 0 (first.after index).step (second.after index).step := by
    intro index hindex
    exact parallel_steps hmatches habreast hswapped.stored hsecond hagree hindex
  refine ⟨?_, ?_, ?_⟩
  · apply Cpu.map_steps_congr
    intro index hindex
    exact (hparallel index hindex).result
  · apply Cpu.map_steps_congr
    intro index hindex
    exact (hparallel index hindex).reads_eq
  · apply Cpu.map_steps_congr
    intro index hindex
    apply (hparallel index hindex).state_eq
    rw [Cpu.operandOrder_step, Cpu.operandOrder_after, hlow]

namespace Program

/-- An indexed load that wraps past the last address and leaves its page, a byte
without a meaning, and a load that reads that byte as data. -/
def wrapping : Program := [
  .instruction .ldxImmediate #v[0x01],
  .instruction .ldaAbsoluteX #v[0x12, 0xFF],
  .undecoded 0xEA ofByte?_noOperation,
  .instruction .ldaZeroPage #v[0x02]]

def wrappingHigh : Cells := ⟨[(0xFFFD, 0xA2), (0xFFFE, 0x01), (0xFFFF, 0xBD), (0x0000, 0x12),
  (0x0001, 0xFF), (0x0002, 0xEA), (0x0003, 0xA5), (0x0004, 0x02), (0x1300, 0x80)]⟩

def wrappingLow : Cells := ⟨(0x0000, 0xFF) :: (0x0001, 0x12) :: wrappingHigh.cells⟩

theorem swappedAt_wrapping : wrapping.swappedAt 0xFFFD = [0x0000, 0x0001] := by
  decide

theorem swappedIn_wrapping :
    wrapping.SwappedIn 0xFFFD (Bus.read wrappingHigh) (Bus.read wrappingLow) where
  stored := by
    unfold Address.Holds
    decide
  swapped := by
    unfold Address.Holds
    decide +kernel
  elsewhere := by
    intro address haddress
    rw [swappedAt_wrapping, List.mem_cons, List.mem_singleton, not_or] at haddress
    have hfirst : (address == 0x0000) = false := by simpa using haddress.1
    have hsecond : (address == 0x0001) = false := by simpa using haddress.2
    simp only [Bus.read, Cells.read, wrappingLow, List.lookup_cons, hfirst, hsecond]

theorem sameButOrder_wrapping :
    wrapping.SwappedIn 0xFFFD (Bus.read wrappingHigh) (Bus.read wrappingLow) ∧
      (∀ address ∈ wrapping.dataReads (Cpu.startAt wrappingHigh 0xFFFD),
        address ∉ wrapping.swappedAt 0xFFFD) ∧
      (Cpu.startAt wrappingHigh 0xFFFD).SameButOrder
        { Cpu.startAt wrappingLow 0xFFFD with operandOrder := .lowFirst } wrapping.length := by
  have hreads : wrapping.dataReads (Cpu.startAt wrappingHigh 0xFFFD) = [0x1300, 0x0002] := by
    decide
  have hdata : ∀ address ∈ wrapping.dataReads (Cpu.startAt wrappingHigh 0xFFFD),
      address ∉ wrapping.swappedAt 0xFFFD := by
    rw [hreads, swappedAt_wrapping]
    simp
  exact ⟨swappedIn_wrapping, hdata,
    sameButOrder_swap wrapping _ _ rfl rfl swappedIn_wrapping hdata⟩

end Program

end Core6502
