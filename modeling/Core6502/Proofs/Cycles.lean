import Core6502.Proofs.Span
import Core6502.Proofs.History

/-! # Cycle accounting

The cycle counter is the sum of what the loads since the last fetch cost. It is
a 64-bit word and only a fetch restarts it, so the sum is exact as long as not
too many executions follow one fetch: each of them costs from two to six cycles.
-/

namespace Core6502

/-- With more executions than this after one fetch, the counter could overflow. -/
def executionLimit : Nat := 3074457345618258602

namespace Load

theorem two_le_cost (load : Load) : 2 ≤ load.cost := by
  have hbase : 2 ≤ load.instruction.baseCycles := by
    rw [Instruction.baseCycles]
    cases load.instruction.mode <;> decide
  exact Nat.le_trans hbase (Nat.le_add_right _ _)

theorem cost_le_six (load : Load) : load.cost ≤ 6 :=
  AddressingMode.baseCycles_add_le load.canCrossPage

theorem sum_cost_bounds (loads : List Load) :
    2 * loads.length ≤ (loads.map cost).sum ∧ (loads.map cost).sum ≤ 6 * loads.length := by
  induction loads with
  | nil => exact ⟨Nat.le_refl 0, Nat.le_refl 0⟩
  | cons load loads ih =>
      have hlower := load.two_le_cost
      have hupper := load.cost_le_six
      rw [List.map_cons, List.sum_cons, List.length_cons]
      omega

end Load

/-- Also where the counter might have wrapped, it shows no more than the loads since the
last fetch can have cost. -/
theorem CpuState.Recounted.cycles_le {state : CpuState} {past : History}
    (h : state.Recounted past) : state.cycles.toNat ≤ 6 * past.loadsSinceFetch.length := by
  rw [h.cycles, UInt64.toNat_ofNat']
  exact Nat.le_trans (Nat.mod_le _ _) (Load.sum_cost_bounds past.loadsSinceFetch).2

/-- What the record of its history says of the cycle counter of a processor, and
what a step then returns. -/
structure Cpu.CountsCycles {β : Type} [Bus β] (cpu : Cpu β) (past : History) : Prop where
  cycles : cpu.cycles.toNat = (past.loadsSinceFetch.map Load.cost).sum
  atLeast : 2 * past.loadsSinceFetch.length ≤ cpu.cycles.toNat
  atMost : cpu.cycles.toNat ≤ 6 * past.loadsSinceFetch.length
  /-- The next execution does not overflow the counter, if it is within the limit too. -/
  noOverflow : ∀ load, cpu.load? = some load →
    past.loadsSinceFetch.length + 1 ≤ executionLimit → cpu.cycles.toNat + load.cost < 2 ^ 64
  stepped : ∀ cycles, cpu.step.result = .ok cycles → cycles = cpu.step.cpu.cycles ∧
    ∃ opcode : Opcode, opcode.byte = cpu.nextOpcode ∧
      opcode.instruction.baseCycles ≤ cycles.toNat ∧ cycles.toNat ≤ 6
  failed : ∀ error, cpu.step.result = .error error →
    (∀ opcode : Opcode, opcode.byte ≠ cpu.nextOpcode) ∧ cpu.step.cpu.cycles = 0

namespace Cpu

variable {β : Type} [Bus β]

theorem step_ok (cpu : Cpu β) {cycles : UInt64} (hresult : cpu.step.result = .ok cycles) :
    cycles = cpu.step.cpu.cycles ∧
      ∃ opcode : Opcode, opcode.byte = cpu.nextOpcode ∧
        opcode.instruction.baseCycles ≤ cycles.toNat ∧ cycles.toNat ≤ 6 := by
  cases hopcode : Instruction.ofByte? cpu.nextOpcode with
  | none =>
      rw [cpu.step_undecoded hopcode] at hresult
      contradiction
  | some instruction =>
      have hsmall : instruction.cycles (cpu.fetched.operand instruction) ≤ 6 :=
        Instruction.cycles_operand_le _ _ instruction
      obtain ⟨opcode, hbyte, rfl⟩ := Instruction.ofByte?_eq_some_iff.mp hopcode
      rw [cpu.step_decoded hopcode] at hresult ⊢
      obtain rfl := Except.ok.inj hresult
      refine ⟨?_, opcode, hbyte, ?_⟩
      · rw [cycles_executed, cycles_fetched, UInt64.zero_add]
      · rw [UInt64.toNat_ofNat_of_lt' (Nat.lt_of_le_of_lt hsmall (by decide))]
        exact ⟨Nat.le_add_right _ _, hsmall⟩

theorem step_error (cpu : Cpu β) {error : ExecutionError}
    (hresult : cpu.step.result = .error error) :
    (∀ opcode : Opcode, opcode.byte ≠ cpu.nextOpcode) ∧ cpu.step.cpu.cycles = 0 := by
  cases hopcode : Instruction.ofByte? cpu.nextOpcode with
  | none =>
      rw [cpu.step_undecoded hopcode]
      exact ⟨Instruction.ofByte?_eq_none_iff.mp hopcode, cpu.cycles_fetched⟩
  | some instruction =>
      rw [cpu.step_decoded hopcode] at hresult
      contradiction

/-- The counter is exact after every history that begins at power-up, however its
executions, fetches and assignments are interleaved, while no more executions
than the limit have succeeded since the last fetch. -/
theorem countsCycles (bus : β) (pc : Address) (actions : List (Action β))
    (hlimit : ((startAt bus pc).history actions).loadsSinceFetch.length ≤ executionLimit) :
    ((startAt bus pc).undergoAll actions).CountsCycles ((startAt bus pc).history actions) := by
  have hrecounted := (recounted_startAt bus pc).undergoAll actions
  rw [List.nil_append] at hrecounted
  obtain ⟨hlower, hupper⟩ :=
    Load.sum_cost_bounds ((startAt bus pc).history actions).loadsSinceFetch
  have hcycles : ((startAt bus pc).undergoAll actions).cycles.toNat =
      (((startAt bus pc).history actions).loadsSinceFetch.map Load.cost).sum := by
    rw [hrecounted.cycles, History.cyclesSinceFetch]
    apply UInt64.toNat_ofNat_of_lt'
    rw [executionLimit] at hlimit
    have hsize : UInt64.size = 18446744073709551616 := rfl
    omega
  exact {
    cycles := hcycles
    atLeast := hcycles ▸ hlower
    atMost := hcycles ▸ hupper
    noOverflow := by
      intro load _ hnext
      have hcost := load.cost_le_six
      rw [executionLimit] at hnext
      omega
    stepped := fun cycles => step_ok _
    failed := fun error => step_error _ }

/-- An absolute load whose index carries out of the page of its base. -/
def crossing : Cells := ⟨[(0x0200, 0xBD), (0x0201, 0x12), (0x0202, 0xFF)]⟩

/-- The load is executed twice after one fetch, with the same operand bytes. -/
def crossTwice : List (Action Cells) := [
  .command (.setRegister .x 0x01), .command .step, .command (.setPc 0x0201), .command .execute,
  .command (.setRegister .a 0x09)]

theorem countsCycles_crossTwice :
    ((startAt crossing 0x0200).history crossTwice).loadsSinceFetch.length ≤ executionLimit ∧
      ((startAt crossing 0x0200).undergoAll crossTwice).CountsCycles
        ((startAt crossing 0x0200).history crossTwice) := by
  have hlimit :
      ((startAt crossing 0x0200).history crossTwice).loadsSinceFetch.length ≤ executionLimit := by
    decide
  exact ⟨hlimit, countsCycles crossing 0x0200 crossTwice hlimit⟩

end Cpu

end Core6502
