import Core6502.Proofs.Span
import Core6502.Proofs.Indexing
import Core6502.Proofs.Sessions

/-! # Independent steps

What a step finds at a given place is decided by the bus, the operand order and the
register that its instruction is indexed by. A load of any other register can
therefore be done before it or after it. No instruction loads the register that it
is indexed by, so a step is independent even of itself, and taking it again changes
nothing.
-/

namespace Core6502.Cpu

variable {β : Type} [Bus β] (cpu : Cpu β)

/-- A step at a place where the program counter is put for it. -/
def stepAt (pc : Address) : Turn β (Except ExecutionError UInt64) := (cpu.setPc pc).step

/-- The operand that an instruction finds when it is stored at a place. -/
def operandFrom (pc : Address) (instruction : Instruction) : Operand :=
  (cpu.setPc pc).fetched.operand instruction

@[simp] theorem bus_stepAt (pc : Address) : (cpu.stepAt pc).cpu.bus = cpu.bus := rfl

@[simp] theorem registers_fetched_setPc (pc : Address) :
    (cpu.setPc pc).fetched.registers = cpu.registers := rfl

@[simp] theorem operandOrder_fetched_setPc (pc : Address) :
    (cpu.setPc pc).fetched.operandOrder = cpu.operandOrder := rfl

section

variable {cpu} {pc : Address} {instruction : Instruction}
  (hopcode : Instruction.ofByte? (Bus.read cpu.bus pc) = some instruction)

include hopcode

theorem stepAt_decoded : cpu.stepAt pc =
    { result := .ok (.ofNat (instruction.cycles (cpu.operandFrom pc instruction)))
      cpu := (cpu.setPc pc).fetched.executed instruction
      reads := pc :: (cpu.setPc pc).fetched.operandReads instruction
      records := [.fetched (Bus.read cpu.bus pc) pc,
        .resolved instruction.mode (cpu.operandFrom pc instruction),
        .loaded instruction (cpu.operandFrom pc instruction).value
          ((cpu.setPc pc).fetched.executed instruction).status
          ((cpu.setPc pc).fetched.executed instruction).cycles] } :=
  step_decoded (cpu.setPc pc) hopcode

theorem registers_stepAt : (cpu.stepAt pc).cpu.registers =
    cpu.registers.set instruction.target (cpu.operandFrom pc instruction).value := by
  rw [stepAt_decoded hopcode]
  rfl

theorem operandOrder_stepAt : (cpu.stepAt pc).cpu.operandOrder = cpu.operandOrder := by
  rw [stepAt_decoded hopcode]
  rfl

/-- A step changes nothing that an instruction consults at another place, unless it
loads the register that the instruction is indexed by. -/
theorem sameInputs_stepAt (place : Address) {other : Instruction}
    (hindex : other.mode.indexRegister ≠ some instruction.target) :
    other.mode.SameInputs ((cpu.stepAt pc).cpu.setPc place).fetched.toCpuState
      (cpu.setPc place).fetched.toCpuState where
  pc := rfl
  operandOrder _ := by
    rw [operandOrder_fetched_setPc, operandOrder_fetched_setPc, operandOrder_stepAt hopcode]
  index name hname := by
    have hne : name ≠ instruction.target := fun h => hindex (hname.trans (congrArg some h))
    rw [registers_fetched_setPc, registers_fetched_setPc, registers_stepAt hopcode,
      Registers.get_set_other _ _ hne]

theorem operandFrom_stepAt (place : Address) {other : Instruction}
    (hindex : other.mode.indexRegister ≠ some instruction.target) :
    (cpu.stepAt pc).cpu.operandFrom place other = cpu.operandFrom place other :=
  operand_eq_of_sameInputs rfl (sameInputs_stepAt hopcode place hindex)

end

/-- The step at a place succeeds, and it takes as long and reads the same after a step
at another place as it does without one. -/
structure Undisturbed (place earlier : Address) : Prop where
  result : ∃ cycles, (cpu.stepAt place).result = .ok cycles ∧
    ((cpu.stepAt earlier).cpu.stepAt place).result = .ok cycles
  reads : ((cpu.stepAt earlier).cpu.stepAt place).reads = (cpu.stepAt place).reads

theorem undisturbed {place earlier : Address} {here there : Instruction}
    (hhere : Instruction.ofByte? (Bus.read cpu.bus place) = some here)
    (hthere : Instruction.ofByte? (Bus.read cpu.bus earlier) = some there)
    (hindex : here.mode.indexRegister ≠ some there.target) : cpu.Undisturbed place earlier := by
  have hlater : Instruction.ofByte? (Bus.read (cpu.stepAt earlier).cpu.bus place) = some here :=
    hhere
  have hoperand := operandFrom_stepAt hthere place hindex
  have hreads := operandReads_eq_of_sameInputs (by rfl) (sameInputs_stepAt hthere place hindex)
  refine ⟨⟨.ofNat (here.cycles (cpu.operandFrom place here)), ?_, ?_⟩, ?_⟩
  · rw [stepAt_decoded hhere]
  · rw [stepAt_decoded hlater, hoperand]
  · rw [stepAt_decoded hlater, stepAt_decoded hhere, hreads]

/-- The steps at two places come to the same in either order. -/
structure Exchangeable (first second : Address) : Prop where
  registers : ((cpu.stepAt first).cpu.stepAt second).cpu.registers =
    ((cpu.stepAt second).cpu.stepAt first).cpu.registers
  bus : ((cpu.stepAt first).cpu.stepAt second).cpu.bus =
    ((cpu.stepAt second).cpu.stepAt first).cpu.bus
  undisturbedFirst : cpu.Undisturbed first second
  undisturbedSecond : cpu.Undisturbed second first

/-- Loads of different registers are exchangeable if neither loads the register that the
other is indexed by, wherever they are stored. -/
theorem exchangeable {first second : Address} {load other : Instruction}
    (hfirst : Instruction.ofByte? (Bus.read cpu.bus first) = some load)
    (hsecond : Instruction.ofByte? (Bus.read cpu.bus second) = some other)
    (htarget : load.target ≠ other.target)
    (hload : load.mode.indexRegister ≠ some other.target)
    (hother : other.mode.indexRegister ≠ some load.target) :
    cpu.Exchangeable first second where
  registers := by
    have hfirst' : Instruction.ofByte? (Bus.read (cpu.stepAt second).cpu.bus first) = some load :=
      hfirst
    have hsecond' : Instruction.ofByte? (Bus.read (cpu.stepAt first).cpu.bus second) =
        some other := hsecond
    rw [registers_stepAt hsecond', registers_stepAt hfirst', registers_stepAt hfirst,
      registers_stepAt hsecond, operandFrom_stepAt hfirst second hother,
      operandFrom_stepAt hsecond first hload]
    exact Registers.set_comm _ _ _ htarget
  bus := rfl
  undisturbedFirst := cpu.undisturbed hfirst hsecond hload
  undisturbedSecond := cpu.undisturbed hsecond hfirst hother

/-- Two loads that overlap each other, the end of memory and the zero page. The second
byte of the one is the opcode of the other, both are indexed by the same register, and
the one crosses a page. -/
def overlapping : Cpu Cells :=
  { startAt ⟨[(0xFFFE, 0xBD), (0xFFFF, 0xB4), (0x0000, 0xF0), (0xB510, 0x80), (0x0010, 0x07)]⟩
      0x0200 with
    registers := { x := ⟨0x20⟩ } }

theorem exchangeable_overlapping :
    Instruction.ofByte? (Bus.read overlapping.bus 0xFFFE) = some ⟨.a, .absoluteX⟩ ∧
      Instruction.ofByte? (Bus.read overlapping.bus 0xFFFF) = some ⟨.y, .zeroPageX⟩ ∧
      overlapping.Exchangeable 0xFFFE 0xFFFF := by
  have hfirst : Instruction.ofByte? (Bus.read overlapping.bus 0xFFFE) =
      some ⟨.a, .absoluteX⟩ := by decide
  have hsecond : Instruction.ofByte? (Bus.read overlapping.bus 0xFFFF) =
      some ⟨.y, .zeroPageX⟩ := by decide
  exact ⟨hfirst, hsecond,
    exchangeable overlapping hfirst hsecond (by decide) (by decide) (by decide)⟩

/-- What a load leaves behind does not depend on what its target register was before. -/
theorem executed_fetched_setPc {cpu after : Cpu β} {pc : Address} {instruction : Instruction}
    {value : Byte} (hbus : after.bus = cpu.bus) (horder : after.operandOrder = cpu.operandOrder)
    (hregisters : after.registers = cpu.registers.set instruction.target value)
    (hoperand : after.operandFrom pc instruction = cpu.operandFrom pc instruction) :
    (after.setPc pc).fetched.executed instruction =
      (cpu.setPc pc).fetched.executed instruction := by
  rw [operandFrom, operandFrom] at hoperand
  have hset : ((after.setPc pc).fetched.executed instruction).registers =
      ((cpu.setPc pc).fetched.executed instruction).registers := by
    rw [registers_executed, registers_executed, hoperand, registers_fetched_setPc,
      registers_fetched_setPc, hregisters, Registers.set_set]
  have hopcode : (after.setPc pc).nextOpcode = (cpu.setPc pc).nextOpcode :=
    congrArg (Bus.read · pc) hbus
  have hstatus : ((after.setPc pc).fetched.executed instruction).status =
      ((cpu.setPc pc).fetched.executed instruction).status := by
    rw [status_executed, status_executed, hoperand]
  have hcycles : ((after.setPc pc).fetched.executed instruction).cycles =
      ((cpu.setPc pc).fetched.executed instruction).cycles := by
    rw [cycles_executed, cycles_executed, hoperand, cycles_fetched, cycles_fetched]
  rw [Cpu.mk.injEq]
  exact ⟨CpuState.ext hset rfl hopcode hstatus hcycles horder, hbus⟩

section

variable {cpu} {pc : Address} {instruction : Instruction}
  (hopcode : Instruction.ofByte? (Bus.read cpu.bus pc) = some instruction)

include hopcode

/-- What a load leaves behind is what the same load leaves behind again. -/
theorem executed_stepAt : ((cpu.stepAt pc).cpu.setPc pc).fetched.executed instruction =
    (cpu.setPc pc).fetched.executed instruction :=
  executed_fetched_setPc (bus_stepAt cpu pc) (operandOrder_stepAt hopcode)
    (registers_stepAt hopcode)
    (operandFrom_stepAt hopcode pc (Instruction.indexRegister_ne_target hopcode))

theorem stepAt_stepAt_decoded : (cpu.stepAt pc).cpu.stepAt pc = cpu.stepAt pc := by
  have hindex := Instruction.indexRegister_ne_target hopcode
  have hagain : Instruction.ofByte? (Bus.read (cpu.stepAt pc).cpu.bus pc) = some instruction :=
    hopcode
  have hreads := operandReads_eq_of_sameInputs (by rfl) (sameInputs_stepAt hopcode pc hindex)
  rw [stepAt_decoded hagain, operandFrom_stepAt hopcode pc hindex, hreads,
    executed_stepAt hopcode]
  exact (stepAt_decoded hopcode).symm

end

/-- A step taken twice at one place is the same turn both times: it returns the same,
reads the same, reports the same and leaves the same state. -/
theorem stepAt_stepAt (pc : Address) : (cpu.stepAt pc).cpu.stepAt pc = cpu.stepAt pc := by
  cases hopcode : Instruction.ofByte? (Bus.read cpu.bus pc) with
  | some instruction => exact stepAt_stepAt_decoded hopcode
  | none =>
      have hstep : cpu.stepAt pc = _ := (cpu.setPc pc).step_undecoded hopcode
      have hagain : ((cpu.setPc pc).fetched).stepAt pc = _ :=
        ((cpu.setPc pc).fetched.setPc pc).step_undecoded hopcode
      rw [hstep, hagain]
      rfl

/-- The commands that take a step back to where it began and take it again. -/
def replay (pc : Address) : List Command := [.setPc pc, .step]

/-- Taking the last step again, any number of times, has the turn that it had and
leaves the processor as it is. -/
structure Replays : Prop where
  turn : (cpu.step.cpu.setPc cpu.pc).step = cpu.step
  trace : ∀ count, cpu.step.cpu.trace (List.replicate count (replay cpu.pc)).flatten =
    (List.replicate count
      [(cpu.step.cpu.setPc cpu.pc).quietly, cpu.step.map .stepped]).flatten
  cpu : ∀ count,
    cpu.step.cpu.performAll (List.replicate count (replay cpu.pc)).flatten = cpu.step.cpu

theorem perform_replay : (cpu.step.cpu.setPc cpu.pc).perform .step = cpu.step.map .stepped :=
  congrArg (Turn.map Answer.stepped) (cpu.stepAt_stepAt cpu.pc)

theorem trace_replay (commands : List Command) :
    cpu.step.cpu.trace (replay cpu.pc ++ commands) =
      [(cpu.step.cpu.setPc cpu.pc).quietly, cpu.step.map .stepped] ++
        cpu.step.cpu.trace commands := by
  change [_, (cpu.step.cpu.setPc cpu.pc).perform .step] ++
    ((cpu.step.cpu.setPc cpu.pc).perform .step).cpu.trace commands = _
  rw [perform_replay]
  rfl

theorem performAll_replay : cpu.step.cpu.performAll (replay cpu.pc) = cpu.step.cpu :=
  congrArg Turn.cpu cpu.perform_replay

theorem replays : cpu.Replays where
  turn := cpu.stepAt_stepAt cpu.pc
  trace count := by
    induction count with
    | zero => rfl
    | succ count ih =>
        rw [List.replicate_succ, List.flatten_cons, List.replicate_succ, List.flatten_cons,
          trace_replay, ih]
  cpu count := by
    induction count with
    | zero => rfl
    | succ count ih =>
        rw [List.replicate_succ, List.flatten_cons, performAll_append, performAll_replay, ih]

end Core6502.Cpu
