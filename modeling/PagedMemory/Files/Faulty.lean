import PagedMemory.Files.Store

/-!
# Stores that fail by plan

A plan makes a store report a wrong size, or fail at chosen calls, so that the ways out of a load
can be seen.
-/

namespace PagedMemory

/-- How a store misbehaves. -/
structure FaultPlan where
  /-- The size reported of every open file. -/
  size? : Option Nat
  /-- The size is refused. -/
  failSize : Bool
  /-- Closing succeeds and then reports a failure. -/
  failClose : Bool
  /-- The read that fails, counted from zero since the last file was opened. -/
  failRead? : Option Nat
deriving DecidableEq, Repr

/-- Nothing fails. -/
def FaultPlan.none : FaultPlan := ⟨.none, false, false, .none⟩

/-- A store with a plan. -/
structure Faulty (φ : Type) where
  store : φ
  plan : FaultPlan
  /-- How many reads there were since the last file was opened. -/
  reads : Nat

namespace Faulty

variable {φ α : Type}

/-- Runs an operation on the store itself. -/
@[inline] def onStore (op : Op φ α) : Op (Faulty φ) α :=
  op.within (fun ⟨store, plan, reads⟩ => (store, (plan, reads)))
    (fun store (plan, reads) => ⟨store, plan, reads⟩)

/-- Fails for the given reason if the condition holds. -/
def failIf (condition : Faulty φ → Bool) (reason : String) : Op (Faulty φ) Unit :=
  .query fun s => if condition s then .error (.host (.other reason)) else .ok ()

instance [FileStore φ] : FileStore (Faulty φ) where
  openName name := do
    .update fun s => { s with reads := 0 }
    onStore (FileStore.openName name)
  sizeAt fd := do
    failIf (·.plan.failSize) "size failed"
    let size ← onStore (FileStore.sizeAt fd)
    .ask fun s => s.plan.size?.getD size
  readAt fd len := do
    failIf (fun s => s.plan.failRead? = some s.reads) "read failed"
    .update fun s => { s with reads := s.reads + 1 }
    onStore (FileStore.readAt fd len)
  closeAt fd := do
    onStore (FileStore.closeAt fd)
    failIf (·.plan.failClose) "close failed"

end Faulty

end PagedMemory
