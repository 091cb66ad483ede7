import ChatTea.Database.Schema
import ChatTea.Lib.ReadCommitted
import ChatTea.Lib.Transaction

/-!
# The tables under READ COMMITTED

What the transactions that are modelled statement by statement have in common.

## Main definitions

* `insert` — a statement that writes and locks no row that was there
* `withNext` — the tables after row identifiers were drawn
* `Alone`, `Yields` — one open transaction, and what its writes make of the tables

## Main results

* `performs_look`, `performs_insert`, `performs_commit` — its statements
-/

namespace ChatTea

open Interleaving ReadCommitted RowLocks

/-- What PostgreSQL rejects is no error of the code. -/
instance : Rejects Failure where
  rejected failure := ∃ name, failure = .constraint name

variable {κ τ ι α β : Type}

/-- A statement that writes and locks no row that was there. -/
def insert (pending : Pending Database Failure) (write : Database → Except Failure Database) :
    Prog (Shared Database κ τ) ι Failure (Pending Database Failure) :=
  writing pending .keyShare (fun _ => []) write

/-! ### A transaction that no one disturbs -/

variable {pid n : ℕ} {w : Shared Database κ τ} {db view view' : Database}
  {pending : Pending Database Failure} {write : Database → Except Failure Database}

def withNext (db : Database) (n : ℕ) : Database := { db with nextRowId := n }

/-- The one open transaction, with the row identifiers it has drawn. -/
structure Alone (pid : ℕ) (db : Database) (n : ℕ) (w : Shared Database κ τ) : Prop where
  committed : w.committed = withNext db n
  locks : ∀ lock ∈ w.locks, lock.holder = pid

theorem alone_ofCommitted (pid : ℕ) (db : Database) :
    Alone pid db db.nextRowId (.ofCommitted db : Shared Database κ τ) :=
  ⟨rfl, fun _ hlock => absurd hlock List.not_mem_nil⟩

/-- The writes make a view of the tables, whatever identifiers are drawn. -/
def Yields (pending : Pending Database Failure) (db view : Database) : Prop :=
  ∀ n, pending (withNext db n) = .ok (withNext view n)

theorem yields_unwritten (db : Database) : Yields unwritten db db := fun _ => rfl

theorem Yields.andThen (h : Yields pending db view)
    (hwrite : ∀ n, write (withNext view n) = .ok (withNext view' n)) :
    Yields (pending.andThen write) db view' := by
  intro n
  rw [Pending.andThen, h n]
  exact hwrite n

theorem performs_look {read : Database → β} (h : Yields pending db view) (hw : Alone pid db n w) :
    Performs pid (look pending read : Prog (Shared Database κ τ) ι Failure β) w
      (read (withNext view n)) w := by
  apply performs_evaluate fun _ hrow => absurd hrow List.not_mem_nil
  rw [hw.committed, h n]
  rfl

theorem performs_insert (h : Yields pending db view) (hw : Alone pid db n w)
    (hwrite : ∀ n, write (withNext view n) = .ok (withNext view' n)) :
    Performs pid (insert pending write : Prog (Shared Database κ τ) ι Failure _) w
      (pending.andThen write) w := by
  have hreads : (pending w.committed >>= write) = .ok (withNext view' n) := by
    rw [hw.committed, h n]
    exact hwrite n
  exact performs_writing (fun _ hrow => absurd hrow List.not_mem_nil) hreads

theorem performs_commit (events : List τ) (h : Yields pending db view) (hw : Alone pid db n w) :
    ∃ w', Performs pid (commitWrites pending events : Prog (Shared Database κ τ) ι Failure Unit) w
      () w' ∧ w'.committed = withNext view n := by
  refine ⟨w.finish pid (withNext view n) events, performs_commitWrites ?_, rfl⟩
  rw [hw.committed, h n]

end ChatTea
