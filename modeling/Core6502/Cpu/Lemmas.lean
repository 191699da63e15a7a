import Core6502.Cpu.Basic

/-! # What fetching and executing do

Each operation of the processor written out as the reads and the records that
it consists of. Resolving an operand is one equation for each addressing mode,
and executing is one for an opcode with a meaning and one for an opcode without.
-/

namespace Core6502.Execution

variable (state : CpuState)

theorem run_fetch : fetch.run state =
    .read state.pc fun opcode => .emit (.fetched opcode state.pc)
      (.done (opcode, { state with pc := state.pc + 1, opcode, cycles := 0 })) := rfl

theorem run_locate_immediate : (locate .immediate).run state =
    .read state.pc fun value =>
      .done (.immediate value, { state with pc := state.pc + 1 }) := rfl

theorem run_operandAt (address : Address) : (operandAt address).run state =
    .read address fun value => .done (.atAddress address value false, state) := rfl

theorem run_operandIndexed (base : Address) (index : Byte) :
    (operandIndexed base index).run state =
      .read (base + index.toUInt16) fun value =>
        .done (.atAddress (base + index.toUInt16) value (base.pagesCrossed index), state) := rfl

theorem run_nextAddress : nextAddress.run state =
    .read state.pc fun first => .read (state.pc + 1) fun second =>
      .done (state.operandOrder.combine first second,
        { state with pc := state.pc + 1 + 1 }) := rfl

theorem run_locate_zeroPage : (locate .zeroPage).run state =
    .read state.pc fun offset =>
      (operandAt (.zeroPage offset)).run { state with pc := state.pc + 1 } := rfl

theorem run_locate_zeroPageX : (locate .zeroPageX).run state =
    .read state.pc fun offset =>
      (operandAt (.zeroPage (zeroPageWrap offset state.x))).run
        { state with pc := state.pc + 1 } := rfl

theorem run_locate_zeroPageY : (locate .zeroPageY).run state =
    .read state.pc fun offset =>
      (operandAt (.zeroPage (zeroPageWrap offset state.y))).run
        { state with pc := state.pc + 1 } := rfl

theorem run_locate_absolute : (locate .absolute).run state =
    nextAddress.run state >>= fun base => (operandAt base.1).run base.2 := rfl

theorem run_locate_absoluteX : (locate .absoluteX).run state =
    nextAddress.run state >>= fun base => (operandIndexed base.1 state.x).run base.2 := rfl

theorem run_locate_absoluteY : (locate .absoluteY).run state =
    nextAddress.run state >>= fun base => (operandIndexed base.1 state.y).run base.2 := rfl

theorem run_locate_indirectX : (locate .indirectX).run state =
    .read state.pc fun pointer => .read (.zeroPage pointer) fun atPointer =>
      .read (.zeroPage state.x) fun atIndex =>
        (operandAt (.zeroPage (zeroPageWrap atPointer atIndex))).run
          { state with pc := state.pc + 1 } := rfl

theorem run_locate_indirectY : (locate .indirectY).run state =
    .read state.pc fun pointer => .read (.zeroPage pointer) fun base =>
      (operandIndexed (.zeroPage base) state.y).run { state with pc := state.pc + 1 } := rfl

/-- Executing an opcode without a meaning reads nothing and changes nothing. -/
theorem run_execute_undecoded (hopcode : Instruction.ofByte? state.opcode = none) :
    execute.run state = .emit (.unimplemented state.opcode state.pc)
      (.done (.error (.unimplementedOpcode state.opcode), state)) := by
  simp only [execute, StateT.run_bind, StateT.run_get, pure_bind, hopcode]
  rfl

theorem run_execute_decoded {instruction : Instruction}
    (hopcode : Instruction.ofByte? state.opcode = some instruction) :
    execute.run state =
      (locate instruction.mode).run { state with status := state.status.clear } >>= fun located =>
        let after := located.2.load instruction located.1
        .emit (.resolved instruction.mode located.1)
          (.emit (.loaded instruction located.1.value after.status after.cycles)
            (.done (.ok (), after))) := by
  simp only [execute, StateT.run_bind, StateT.run_get, pure_bind, hopcode, resolve, bind_assoc]
  rfl

/-- A step is a fetch and an execution; its result is the cycle counter. -/
theorem run_step : step.run state =
    fetch.run state >>= fun fetched => execute.run fetched.2 >>= fun executed =>
      .done (executed.1.map fun _ => executed.2.cycles, executed.2) := by
  simp only [step, StateT.run_bind]
  congr 1
  funext fetched
  congr 1
  funext ⟨result, after⟩
  cases result <;> rfl

end Core6502.Execution
