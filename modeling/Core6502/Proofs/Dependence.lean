import Core6502.Proofs.Indexing
import Core6502.Proofs.Sessions

/-! # What a run depends on

Two processors run alike if they agree on the program counter, the index
registers and the operand order, and if their buses agree on the bytes that one
of them reads. The accumulator, the status, the pending opcode and the cycle
counter that they start with are never consulted.

The two halves are separate: a run is the same on every bus that agrees with its
own on what it reads, and on one bus it is the same from every state that agrees
on the control part.
-/

namespace Core6502

variable {α β γ : Type}

/-- The processor with its state, moved to another bus. -/
def Cpu.onBus (cpu : Cpu β) (bus : γ) : Cpu γ := { toCpuState := cpu.toCpuState, bus }

/-- The same turn on another bus. -/
def Turn.onBus (bus : γ) (turn : Turn β α) : Turn γ α := { turn with cpu := turn.cpu.onBus bus }

section Buses

variable [Bus β] [Bus γ]

/-- Work is the same on a bus that agrees on every byte that it reads. -/
theorem Cpu.act_onBus (work : Execution α) (cpu : Cpu β) (bus : γ)
    (hagree : ∀ address ∈ (cpu.act work).reads, Bus.read cpu.bus address = Bus.read bus address) :
    (cpu.onBus bus).act work = (cpu.act work).onBus bus := by
  have houtcome := Activity.run_congr (work.run cpu.toCpuState) hagree
  unfold act onBus Turn.onBus
  rw [houtcome]
  rfl

end Buses

/-- The part of the state that a run depends on. -/
structure CpuState.SameControl (first second : CpuState) : Prop where
  pc : first.pc = second.pc
  x : first.x = second.x
  y : first.y = second.y
  operandOrder : first.operandOrder = second.operandOrder

/-- No mode is indexed by the accumulator. -/
theorem CpuState.SameControl.sameInputs {first second : CpuState}
    (h : first.SameControl second) (mode : AddressingMode) : mode.SameInputs first second where
  pc := h.pc
  operandOrder _ := h.operandOrder
  index name hname := by
    cases name with
    | a => cases mode <;> contradiction
    | x => exact h.x
    | y => exact h.y

/-- The turn was the load of a register. -/
def Turn.Loads (turn : Turn β (Except ExecutionError UInt64)) (name : RegisterName) : Prop :=
  turn.result.isOk = true ∧
    ∃ mode, Instruction.ofByte? turn.cpu.opcode = some ⟨name, mode⟩

/-- Two turns that return the same, read the same and leave the same state but
for the accumulator and the status. -/
structure Turn.Alike (first : Turn β α) (second : Turn γ α) : Prop where
  result : first.result = second.result
  reads : first.reads = second.reads
  control : first.cpu.SameControl second.cpu.toCpuState
  opcode : first.cpu.opcode = second.cpu.opcode
  cycles : first.cpu.cycles = second.cpu.cycles

theorem Registers.get_set_congr {first second : Registers} {name target : RegisterName}
    (value : Byte) (h : name = target ∨ first.get name = second.get name) :
    (first.set target value).get name = (second.set target value).get name := by
  rw [get_set, get_set]
  by_cases hname : name = target
  · rw [if_pos hname, if_pos hname]
  · rw [if_neg hname, if_neg hname]
    exact h.resolve_left hname

namespace Cpu

variable [Bus β] {first second : Cpu β}

theorem nextOpcode_congr (hbus : first.bus = second.bus)
    (hcontrol : first.SameControl second.toCpuState) : first.nextOpcode = second.nextOpcode := by
  rw [nextOpcode, nextOpcode, hbus, hcontrol.pc]

theorem sameControl_fetched (hcontrol : first.SameControl second.toCpuState) :
    first.fetched.SameControl second.fetched.toCpuState :=
  ⟨congrArg (· + 1) hcontrol.pc, hcontrol.x, hcontrol.y, hcontrol.operandOrder⟩

theorem operand_fetched_congr (hbus : first.bus = second.bus)
    (hcontrol : first.SameControl second.toCpuState) (instruction : Instruction) :
    first.fetched.operand instruction = second.fetched.operand instruction :=
  operand_eq_of_sameInputs hbus ((sameControl_fetched hcontrol).sameInputs _)

theorem operandReads_fetched_congr (hbus : first.bus = second.bus)
    (hcontrol : first.SameControl second.toCpuState) (instruction : Instruction) :
    first.fetched.operandReads instruction = second.fetched.operandReads instruction :=
  operandReads_eq_of_sameInputs hbus ((sameControl_fetched hcontrol).sameInputs _)

/-- A load keeps a register the same and makes its target the same. -/
theorem get_executed_congr (hbus : first.bus = second.bus)
    (hcontrol : first.SameControl second.toCpuState) {instruction : Instruction}
    {name : RegisterName}
    (h : name = instruction.target ∨ first.registers.get name = second.registers.get name) :
    (first.fetched.executed instruction).registers.get name =
      (second.fetched.executed instruction).registers.get name := by
  rw [registers_executed, registers_executed, operand_fetched_congr hbus hcontrol]
  exact Registers.get_set_congr _ h

theorem step_alike (hbus : first.bus = second.bus)
    (hcontrol : first.SameControl second.toCpuState) : first.step.Alike second.step := by
  have hopcode := nextOpcode_congr hbus hcontrol
  have hfetched := sameControl_fetched hcontrol
  cases hdecode : Instruction.ofByte? first.nextOpcode with
  | none =>
      rw [first.step_undecoded hdecode, second.step_undecoded (hopcode ▸ hdecode), hopcode,
        hcontrol.pc]
      exact ⟨rfl, rfl, hfetched, hopcode, rfl⟩
  | some instruction =>
      have hoperand := operand_fetched_congr hbus hcontrol instruction
      rw [first.step_decoded hdecode, second.step_decoded (hopcode ▸ hdecode)]
      refine ⟨?_, ?_, ⟨?_, ?_, ?_, ?_⟩, hopcode, ?_⟩
      · rw [hoperand]
      · rw [operandReads_fetched_congr hbus hcontrol, hcontrol.pc]
      · rw [pc_executed, pc_executed, hfetched.pc]
      · exact get_executed_congr hbus hcontrol (.inr hcontrol.x)
      · exact get_executed_congr hbus hcontrol (.inr hcontrol.y)
      · exact hcontrol.operandOrder
      · rw [cycles_executed, cycles_executed, cycles_fetched, cycles_fetched, hoperand]

/-- A step that succeeds makes the status the same. -/
theorem step_status (hbus : first.bus = second.bus)
    (hcontrol : first.SameControl second.toCpuState)
    (h : first.status = second.status ∨ first.step.result.isOk = true) :
    first.step.cpu.status = second.step.cpu.status := by
  have hopcode := nextOpcode_congr hbus hcontrol
  cases hdecode : Instruction.ofByte? first.nextOpcode with
  | none =>
      rw [first.step_undecoded hdecode] at h ⊢
      rw [second.step_undecoded (hopcode ▸ hdecode)]
      exact h.resolve_right Bool.false_ne_true
  | some instruction =>
      rw [first.step_decoded hdecode, second.step_decoded (hopcode ▸ hdecode)]
      rw [status_executed, status_executed, operand_fetched_congr hbus hcontrol]

theorem step_register {name : RegisterName} (hbus : first.bus = second.bus)
    (hcontrol : first.SameControl second.toCpuState)
    (h : first.registers.get name = second.registers.get name ∨ first.step.Loads name) :
    first.step.cpu.registers.get name = second.step.cpu.registers.get name := by
  have hopcode := nextOpcode_congr hbus hcontrol
  cases hdecode : Instruction.ofByte? first.nextOpcode with
  | none =>
      rw [first.step_undecoded hdecode] at h ⊢
      rw [second.step_undecoded (hopcode ▸ hdecode)]
      exact h.resolve_right fun hload => Bool.false_ne_true hload.1
  | some instruction =>
      rw [first.step_decoded hdecode] at h ⊢
      rw [second.step_decoded (hopcode ▸ hdecode)]
      apply get_executed_congr hbus hcontrol
      rcases h with hsame | ⟨_, mode, hload⟩
      · exact .inr hsame
      · have hinstruction : instruction = ⟨name, mode⟩ :=
          Option.some.inj (hdecode.symm.trans hload)
        exact .inl (congrArg Instruction.target hinstruction).symm

end Cpu

/-- One step of each of two processors. Besides, what such a step writes becomes
the same: the status if it succeeds, and a register if it loads it. -/
structure Cpu.StepAlike [Bus β] [Bus γ] (first : Cpu β) (second : Cpu γ) : Prop where
  turn : first.step.Alike second.step
  status : first.status = second.status ∨ first.step.result.isOk = true →
    first.step.cpu.status = second.step.cpu.status
  register : ∀ name, first.registers.get name = second.registers.get name ∨
    first.step.Loads name → first.step.cpu.registers.get name = second.step.cpu.registers.get name

namespace Cpu

variable [Bus β] [Bus γ] {first : Cpu β} {second : Cpu γ} {count index : Nat}

/-- A step depends on the control and on the bytes that it reads. -/
theorem stepAlike_of_agree (hcontrol : first.SameControl second.toCpuState)
    (hagree : ∀ address ∈ first.step.reads,
      Bus.read first.bus address = Bus.read second.bus address) :
    first.StepAlike second := by
  -- On the bus of the second processor the first one takes the same step.
  have hmoved : (first.onBus second.bus).step = first.step.onBus second.bus :=
    act_onBus Execution.step first second.bus hagree
  have hbus : (first.onBus second.bus).bus = second.bus := rfl
  have hstep : (first.onBus second.bus).StepAlike second :=
    ⟨step_alike hbus hcontrol, step_status hbus hcontrol, fun _ => step_register hbus hcontrol⟩
  obtain ⟨halike, hstatus, hregister⟩ := hstep
  rw [hmoved] at halike hstatus hregister
  exact ⟨⟨halike.result, halike.reads, halike.control, halike.opcode, halike.cycles⟩,
    hstatus, hregister⟩

/-- Two processors with the same control, of which the second finds on its bus
every byte that the first one reads in `count` steps. -/
structure Agree (first : Cpu β) (second : Cpu γ) (count : Nat) : Prop where
  control : first.SameControl second.toCpuState
  reads : ∀ index < count, ∀ address ∈ (first.after index).step.reads,
    Bus.read first.bus address = Bus.read second.bus address

/-- While the control is the same the steps are alike: no bus changes along a run. -/
theorem Agree.stepAlike_of_control (hagree : first.Agree second count) (hindex : index < count)
    (hcontrol : (first.after index).SameControl (second.after index).toCpuState) :
    (first.after index).StepAlike (second.after index) := by
  apply stepAlike_of_agree hcontrol
  intro address haddress
  rw [bus_after, bus_after]
  exact hagree.reads index hindex address haddress

/-- The control is carried along a run: it decides what the next step reads, and
the bytes that are read there decide the control after it. -/
theorem Agree.control_after (hagree : first.Agree second count) (hindex : index ≤ count) :
    (first.after index).SameControl (second.after index).toCpuState := by
  induction index with
  | zero => exact hagree.control
  | succ index ih =>
      have hcontrol := ih (Nat.le_of_succ_le hindex)
      have halike := hagree.stepAlike_of_control hindex hcontrol
      rw [after_succ, after_succ]
      exact halike.turn.control

theorem Agree.stepAlike (hagree : first.Agree second count) (hindex : index < count) :
    (first.after index).StepAlike (second.after index) :=
  hagree.stepAlike_of_control hindex (hagree.control_after (Nat.le_of_lt hindex))

/-- What some steps settle, and every step keeps, is the same once it is settled. -/
theorem settled_after {σ : Type} (observe : CpuState → σ)
    (Settles : Turn β (Except ExecutionError UInt64) → Prop)
    (hstep : ∀ index < count,
      observe (first.after index).toCpuState = observe (second.after index).toCpuState ∨
        Settles (first.after index).step →
      observe (first.after index).step.cpu.toCpuState =
        observe (second.after index).step.cpu.toCpuState)
    {earlier : Nat} (hearlier : earlier ≤ index) (hindex : index < count)
    (hsettles : Settles (first.after earlier).step) :
    observe (first.after index).step.cpu.toCpuState =
      observe (second.after index).step.cpu.toCpuState := by
  -- On the turns: either the last one settles it, or it was settled before and is kept.
  induction index with
  | zero =>
      obtain rfl : earlier = 0 := Nat.le_zero.mp hearlier
      exact hstep 0 hindex (.inr hsettles)
  | succ index ih =>
      apply hstep (index + 1) hindex
      by_cases hnow : earlier = index + 1
      · subst hnow
        exact .inr hsettles
      · have hbefore := ih (by omega) (by omega)
        rw [← after_succ, ← after_succ] at hbefore
        exact .inl hbefore

end Cpu

/-- Two runs of the same number of steps issue the same reads and return the same
results. After each step they have the same control, opcode and cycles; they have
the same status once a step has succeeded, and the same accumulator once it has
been loaded. -/
structure Cpu.RunAlike [Bus β] [Bus γ] (first : Cpu β) (second : Cpu γ) (count : Nat) : Prop where
  reads : (first.steps count).map Turn.reads = (second.steps count).map Turn.reads
  results : (first.steps count).map Turn.result = (second.steps count).map Turn.result
  turns : ∀ index turn other, (first.steps count)[index]? = some turn →
    (second.steps count)[index]? = some other → turn.Alike other ∧
      ((∃ earlier ∈ (first.steps count).take (index + 1), earlier.result.isOk = true) →
        turn.cpu.status = other.cpu.status) ∧
      ((∃ earlier ∈ (first.steps count).take (index + 1), earlier.Loads .a) →
        turn.cpu.a = other.cpu.a)

/-- Two runs of the same number of steps, seen turn by turn. -/
theorem Cpu.map_steps_congr [Bus β] [Bus γ] {σ : Type} {first : Cpu β} {second : Cpu γ}
    {count : Nat} {view : Turn β (Except ExecutionError UInt64) → σ}
    {otherView : Turn γ (Except ExecutionError UInt64) → σ}
    (h : ∀ index < count, view (first.after index).step = otherView (second.after index).step) :
    (first.steps count).map view = (second.steps count).map otherView := by
  apply List.ext_getElem?
  intro index
  rw [List.getElem?_map, List.getElem?_map, getElem?_steps, getElem?_steps]
  by_cases hindex : index < count
  · rw [if_pos hindex, if_pos hindex, Option.map_some, Option.map_some, h index hindex]
  · rw [if_neg hindex, if_neg hindex, Option.map_none, Option.map_none]

theorem Cpu.Agree.of_reads [Bus β] [Bus γ] {first : Cpu β} {second : Cpu γ} {count : Nat}
    (hcontrol : first.SameControl second.toCpuState)
    (hagree : ∀ address ∈ (first.steps count).flatMap Turn.reads,
      Bus.read first.bus address = Bus.read second.bus address) :
    first.Agree second count := by
  refine ⟨hcontrol, ?_⟩
  intro index hindex address haddress
  have hturn : (first.after index).step ∈ first.steps count :=
    List.mem_of_getElem? (first.getElem?_steps_eq_some.mpr ⟨hindex, rfl⟩)
  exact hagree address (List.mem_flatMap.mpr ⟨_, hturn, haddress⟩)

/-- Runs that agree read the same addresses. -/
theorem Cpu.Agree.map_reads [Bus β] [Bus γ] {first : Cpu β} {second : Cpu γ} {count : Nat}
    (hagree : first.Agree second count) :
    (first.steps count).map Turn.reads = (second.steps count).map Turn.reads := by
  apply map_steps_congr
  intro index hindex
  exact (hagree.stepAlike hindex).turn.reads

/-- A run depends on the control and on the bytes that it reads: a second
processor with the same control, on a bus of any kind that agrees on every byte
that the run of the first one reads, runs alike. -/
theorem Cpu.runAlike_of_agree [Bus β] [Bus γ] (first : Cpu β) (second : Cpu γ) (count : Nat)
    (hcontrol : first.SameControl second.toCpuState)
    (hagree : ∀ address ∈ (first.steps count).flatMap Turn.reads,
      Bus.read first.bus address = Bus.read second.bus address) :
    first.RunAlike second count := by
  have hruns : first.Agree second count := .of_reads hcontrol hagree
  refine ⟨hruns.map_reads, ?_, ?_⟩
  · apply map_steps_congr
    intro index hindex
    exact (hruns.stepAlike hindex).turn.result
  · intro index turn other hturn hother
    obtain ⟨hindex, rfl⟩ := first.getElem?_steps_eq_some.mp hturn
    obtain ⟨-, rfl⟩ := second.getElem?_steps_eq_some.mp hother
    refine ⟨(hruns.stepAlike hindex).turn, ?_, ?_⟩
    · rintro ⟨earlier, hearlier, hok⟩
      obtain ⟨position, hposition, rfl⟩ := first.mem_take_steps hearlier
      exact settled_after CpuState.status (fun turn => turn.result.isOk = true)
        (fun index hindex => (hruns.stepAlike hindex).status)
        (Nat.le_of_lt_succ hposition) hindex hok
    · rintro ⟨earlier, hearlier, hload⟩
      obtain ⟨position, hposition, rfl⟩ := first.mem_take_steps hearlier
      exact settled_after CpuState.a (fun turn => turn.Loads .a)
        (fun index hindex => (hruns.stepAlike hindex).register .a)
        (Nat.le_of_lt_succ hposition) hindex hload

/-- An indirect load, then a byte without a meaning. -/
def Cpu.sampleRun : Cpu Cells :=
  { startAt ⟨[(0x0200, 0xB1), (0x0201, 0x80), (0x0202, 0xEA), (0x0080, 0xFE)]⟩ 0x0200 with
    registers := { y := ⟨0x05⟩ } }

/-- The same, but all that the run does not depend on is different. -/
def Cpu.sampleOther : Cpu Cells :=
  { sampleRun with
    registers := { a := ⟨0x09⟩, y := ⟨0x05⟩ }
    opcode := 0xFF
    status := ⟨0x80⟩
    cycles := 77
    bus := ⟨(0x0203, 0xA2) :: (0x0000, 0x01) :: sampleRun.bus.cells⟩ }

theorem Cpu.runAlike_sample :
    sampleRun.SameControl sampleOther.toCpuState ∧
      (∀ address ∈ (sampleRun.steps 2).flatMap Turn.reads,
        Bus.read sampleRun.bus address = Bus.read sampleOther.bus address) ∧
      sampleRun.RunAlike sampleOther 2 := by
  have hcontrol : sampleRun.SameControl sampleOther.toCpuState := ⟨rfl, rfl, rfl, rfl⟩
  have hagree : ∀ address ∈ (sampleRun.steps 2).flatMap Turn.reads,
      Bus.read sampleRun.bus address = Bus.read sampleOther.bus address := by
    have hreads : (sampleRun.steps 2).flatMap Turn.reads =
        [0x0200, 0x0201, 0x0080, 0x0103, 0x0202] := by
      decide
    intro address haddress
    simp only [hreads, List.mem_cons, List.not_mem_nil, or_false] at haddress
    rcases haddress with rfl | rfl | rfl | rfl | rfl <;> rfl
  exact ⟨hcontrol, hagree, runAlike_of_agree sampleRun sampleOther 2 hcontrol hagree⟩

end Core6502
