import Core6502.Log

/-! # Activities

An activity is a computation whose only dealings with the outside are byte
reads, each at an address that may depend on the bytes read before, and log
records. It cannot write. Running one against a memory gives its result, the
addresses that it read and the records that it emitted, both in order.
-/

namespace Core6502

inductive Activity (α : Type) where
  | done (result : α)
  | read (address : Address) (next : Byte → Activity α)
  | emit (record : LogRecord) (rest : Activity α)

structure Outcome (α : Type) where
  result : α
  reads : List Address
  records : List LogRecord

namespace Outcome

variable {α β : Type}

def andThen (outcome : Outcome α) (next : α → Outcome β) : Outcome β :=
  let rest := next outcome.result
  { result := rest.result
    reads := outcome.reads ++ rest.reads
    records := outcome.records ++ rest.records }

end Outcome

namespace Activity

variable {α β : Type}

protected def bind : Activity α → (α → Activity β) → Activity β
  | .done result, next => next result
  | .read address rest, next => .read address fun byte => (rest byte).bind next
  | .emit record rest, next => .emit record (rest.bind next)

instance : Monad Activity where
  pure := .done
  bind := .bind

instance : LawfulMonad Activity := LawfulMonad.mk' Activity
  (fun activity => by
    induction activity with
    | done _ => rfl
    | read address rest ih => exact congrArg (Activity.read address) (funext ih)
    | emit record rest ih => exact congrArg (Activity.emit record) ih)
  (fun _ _ => rfl)
  (fun activity _ _ => by
    induction activity with
    | done _ => rfl
    | read address rest ih => exact congrArg (Activity.read address) (funext ih)
    | emit record rest ih => exact congrArg (Activity.emit record) ih)

/-- Performs an activity against a memory that answers every read. -/
def run (memory : Address → Byte) : Activity α → Outcome α
  | .done result => { result, reads := [], records := [] }
  | .read address next =>
      let rest := (next (memory address)).run memory
      { rest with reads := address :: rest.reads }
  | .emit record rest =>
      let rest := rest.run memory
      { rest with records := record :: rest.records }

@[simp] theorem run_pure (memory : Address → Byte) (result : α) :
    (pure result : Activity α).run memory = { result, reads := [], records := [] } := rfl

/-- Activities in sequence concatenate their reads and their records. -/
theorem run_bind (memory : Address → Byte) (activity : Activity α) (next : α → Activity β) :
    (activity >>= next).run memory =
      (activity.run memory).andThen fun result => (next result).run memory := by
  induction activity with
  | done result => rfl
  | read address rest ih =>
      exact congrArg (fun outcome => { outcome with reads := address :: outcome.reads })
        (ih (memory address))
  | emit record rest ih =>
      exact congrArg (fun outcome => { outcome with records := record :: outcome.records }) ih

/-- An activity sees a memory only at the addresses that it reads: a memory that
agrees there gives the same outcome. -/
theorem run_congr {first second : Address → Byte} (activity : Activity α)
    (hagree : ∀ address ∈ (activity.run first).reads, first address = second address) :
    activity.run first = activity.run second := by
  induction activity with
  | done result => rfl
  | read address next ih =>
      have hhere : first address = second address := hagree address List.mem_cons_self
      have hlater := ih (first address) fun other hother =>
        hagree other (List.mem_cons_of_mem _ hother)
      simp only [run, ← hhere, hlater]
  | emit record rest ih => simp only [run, ih hagree]

end Activity

end Core6502
