import Mathlib.Data.List.Basic
import Core6502.Proofs.Traffic

/-! # The log as an account of the run

Every call reports what it did, in records that follow each other as the calls do. A
fetch has one record; an execution has one of its operand and one of its load, or a
warning if it fails. Whoever does the loads of a log again, on the registers as they
were at first, has the registers of the processor.
-/

namespace Core6502

namespace LogRecord

/-- The register that was loaded, and the byte. -/
def loaded? : LogRecord → Option (RegisterName × Byte)
  | .loaded instruction value _ _ => some (instruction.target, value)
  | .fetched _ _ | .resolved _ _ | .unimplemented _ _ => none

/-- The status that a load left. -/
def status? : LogRecord → Option Status
  | .loaded _ _ status _ => some status
  | .fetched _ _ | .resolved _ _ | .unimplemented _ _ => none

/-- Nothing is lost of what only records of a level that is shown contain. -/
theorem filterMap_shown {α : Type} {extract : LogRecord → Option α} {maximum : LogLevel}
    (hextract : ∀ record : LogRecord,
      record.level.shownAt maximum = false → extract record = none) (log : List LogRecord) :
    (shown maximum log).filterMap extract = log.filterMap extract := by
  rw [shown, List.filterMap_filter]
  apply List.filterMap_congr
  intro record _
  cases hshown : record.level.shownAt maximum with
  | true => exact if_pos rfl
  | false =>
      rw [hextract record hshown]
      exact ite_self none

theorem loaded?_status?_of_not_shown {maximum : LogLevel}
    (hlevel : LogLevel.debug.detail ≤ maximum.detail) {record : LogRecord}
    (hrecord : record.level.shownAt maximum = false) :
    record.loaded? = none ∧ record.status? = none := by
  cases record with
  | loaded _ _ _ _ =>
      rw [LogLevel.shownAt, decide_eq_false_iff_not] at hrecord
      exact absurd hlevel hrecord
  | fetched _ _ => exact ⟨rfl, rfl⟩
  | resolved _ _ => exact ⟨rfl, rfl⟩
  | unimplemented _ _ => exact ⟨rfl, rfl⟩

end LogRecord

/-- Does the loads that a log reports again, in their order. -/
def Registers.replay (registers : Registers) (log : List LogRecord) : Registers :=
  (log.filterMap LogRecord.loaded?).foldl
    (fun registers load => registers.set load.1 load.2) registers

namespace CpuState

/-- A log tells the way from one state to another: its loads change the registers of the
first into those of the second, and its last load left the status. -/
structure Retold (before : CpuState) (log : List LogRecord) (after : CpuState) : Prop where
  registers : after.registers = before.registers.replay log
  status : after.status = ((log.filterMap LogRecord.status?).getLast?).getD before.status

variable {before middle after : CpuState} {log rest : List LogRecord}

theorem Retold.append (hfirst : before.Retold log middle) (hsecond : middle.Retold rest after) :
    before.Retold (log ++ rest) after where
  registers := by
    rw [hsecond.registers, hfirst.registers, Registers.replay, Registers.replay,
      Registers.replay, List.filterMap_append, List.foldl_append]
  status := by
    rw [hsecond.status, hfirst.status, List.filterMap_append, List.getLast?_append,
      Option.getD_or]

/-- The part of a log from debugging records up tells the same way. -/
theorem Retold.shown {maximum : LogLevel} (h : before.Retold log after)
    (hlevel : LogLevel.debug.detail ≤ maximum.detail) :
    before.Retold (LogRecord.shown maximum log) after where
  registers := by
    rw [h.registers, Registers.replay, Registers.replay, LogRecord.filterMap_shown]
    intro record hrecord
    exact (LogRecord.loaded?_status?_of_not_shown hlevel hrecord).1
  status := by
    rw [h.status, LogRecord.filterMap_shown]
    intro record hrecord
    exact (LogRecord.loaded?_status?_of_not_shown hlevel hrecord).2

end CpuState

/-- The call came to a byte that is no opcode. -/
def Answer.failed : Answer → Bool
  | .executed (.error _) | .stepped (.error _) => true
  | _ => false

namespace Cpu

variable {α β : Type} (cpu : Cpu β)

/-- What the record of an operand says about the execution that used it. -/
structure OperandReported (before after : Cpu β) (reads : List Address)
    (instruction : Instruction) (operand : Operand) : Prop where
  value : operand.value = after.registers.get instruction.target
  immediate : instruction.mode = .immediate → operand.address? = none
  address : instruction.mode ≠ .immediate →
    ∃ address, operand.address? = some address ∧ reads.getLast? = some address
  charged : operand.pageCrossed = true ↔
    after.cycles = before.cycles + .ofNat (instruction.baseCycles + 1)
  note : " (page crossed)".toList <:+
      (LogRecord.resolved instruction.mode operand).message.toList ↔
    after.cycles = before.cycles + .ofNat (instruction.baseCycles + 1)

/-- The records of an execution: a warning that leaves everything as it is, or the
operand and then the load, with the status and the counter as they are afterwards. -/
def ExecutionRecords (after : Cpu β) (reads : List Address) (records : List LogRecord) :
    Except ExecutionError α → Prop
  | .error _ => records = [.unimplemented cpu.opcode cpu.pc] ∧ after = cpu
  | .ok _ => ∃ instruction operand, Instruction.ofByte? cpu.opcode = some instruction ∧
      records = [.resolved instruction.mode operand,
        .loaded instruction operand.value after.status after.cycles] ∧
      cpu.OperandReported after reads instruction operand

section

variable {cpu} {after : Cpu β} {reads : List Address} {records : List LogRecord}
  {result : Except ExecutionError α}

theorem ExecutionRecords.map {γ : Type} (convert : α → γ)
    (h : cpu.ExecutionRecords after reads records result) :
    cpu.ExecutionRecords after reads records (result.map convert) := by
  cases result <;> exact h

end

variable [Bus β]

/-- The log of a run at a level. -/
def log (maximum : LogLevel) (works : List Work) : List LogRecord :=
  LogRecord.shown maximum ((cpu.trace (works.map Work.command)).flatMap Turn.records)

section

variable {cpu} {turn : Turn β Answer} {work : Work}

end

end Cpu

end Core6502
