import Mathlib.Data.Nat.Notation
import Mathlib.Tactic.ByContra
import Mathlib.Tactic.Cases

/-!
# Row locks

The four row-lock modes of PostgreSQL with their conflict table, and the set of
locks that open transactions hold on the rows `κ`.

## Main definitions

* `RowLocks.Mode` — the modes, with `Mode.conflicts`
* `RowLocks.Free` — a transaction may take a lock without waiting
* `RowLocks.acquire`, `RowLocks.release` — taking locks, and giving all of them back

## Main results

* `not_free_of_holds` — a held lock keeps every conflicting one away
* `Exclusive.acquire`, `Exclusive.release` — locks that exclude each other have one holder
-/

namespace RowLocks

variable {κ : Type}

/-- `FOR KEY SHARE`, `FOR SHARE`, `FOR NO KEY UPDATE` and `FOR UPDATE`. -/
inductive Mode where
  | keyShare
  | share
  | noKeyUpdate
  | update
deriving DecidableEq, Repr

/-- Two locks of different transactions exclude each other. -/
def Mode.conflicts : Mode → Mode → Bool
  | .update, _ => true
  | _, .update => true
  | .noKeyUpdate, .share => true
  | .share, .noKeyUpdate => true
  | .noKeyUpdate, .noKeyUpdate => true
  | _, _ => false

theorem Mode.conflicts_comm (a b : Mode) : a.conflicts b = b.conflicts a := by
  cases a <;> cases b <;> rfl

/-- A lock that an open transaction holds. -/
structure Lock (κ : Type) where
  holder : ℕ
  mode : Mode
  row : κ
deriving DecidableEq

/-- Every lock another transaction holds on the row is compatible with the mode. -/
def Free (locks : List (Lock κ)) (holder : ℕ) (mode : Mode) (row : κ) : Prop :=
  ∀ lock ∈ locks, lock.row = row → lock.holder ≠ holder → lock.mode.conflicts mode = false

instance [DecidableEq κ] (locks : List (Lock κ)) (holder : ℕ) (mode : Mode) (row : κ) :
    Decidable (Free locks holder mode row) :=
  inferInstanceAs (Decidable (∀ lock ∈ locks, _))

/-- The transaction holds a lock on the row. -/
def Holds (locks : List (Lock κ)) (holder : ℕ) (mode : Mode) (row : κ) : Prop :=
  ⟨holder, mode, row⟩ ∈ locks

/-- Take a lock on each of some rows. -/
def acquire (holder : ℕ) (mode : Mode) (rows : List κ) (locks : List (Lock κ)) : List (Lock κ) :=
  rows.map (Lock.mk holder mode) ++ locks

/-- Give back every lock, as a transaction does when it ends. -/
def release (holder : ℕ) (locks : List (Lock κ)) : List (Lock κ) :=
  locks.filter fun lock => lock.holder ≠ holder

variable {locks : List (Lock κ)} {holder other : ℕ} {mode mode' : Mode} {row : κ} {rows : List κ}

/-- A transaction that holds all locks waits for none. -/
theorem free_of_alone (h : ∀ lock ∈ locks, lock.holder = holder) : Free locks holder mode row :=
  fun lock hlock _ hother => absurd (h lock hlock) hother

/-- A held lock keeps every conflicting one away. -/
theorem acquire_of_alone (h : ∀ lock ∈ locks, lock.holder = holder) :
    ∀ lock ∈ acquire holder mode rows locks, lock.holder = holder := by
  intro lock hmem
  rcases List.mem_append.1 hmem with hnew | hold
  · obtain ⟨row, -, rfl⟩ := List.mem_map.1 hnew
    rfl
  · exact h lock hold

theorem not_free_of_holds (hholds : Holds locks holder mode row) (hother : other ≠ holder)
    (hconflicts : mode.conflicts mode' = true) : ¬ Free locks other mode' row := by
  intro hfree
  have hcompatible := hfree _ hholds rfl (Ne.symm hother)
  rw [hconflicts] at hcompatible
  cases hcompatible

theorem holds_acquire (hrow : row ∈ rows) : Holds (acquire holder mode rows locks) holder mode row :=
  List.mem_append_left _ (List.mem_map_of_mem hrow)

theorem Holds.acquire (hholds : Holds locks holder mode row) :
    Holds (acquire other mode' rows locks) holder mode row :=
  List.mem_append_right _ hholds

theorem Holds.release (hholds : Holds locks holder mode row) (hother : other ≠ holder) :
    Holds (release other locks) holder mode row := by
  unfold RowLocks.release
  rw [Holds, List.mem_filter]
  exact ⟨hholds, by simpa using Ne.symm hother⟩

/-- No two transactions hold locks that exclude each other. -/
def Exclusive (locks : List (Lock κ)) : Prop :=
  ∀ lock ∈ locks, ∀ lock' ∈ locks, lock.row = lock'.row → lock.mode.conflicts lock'.mode = true →
    lock.holder = lock'.holder

theorem exclusive_nil : Exclusive ([] : List (Lock κ)) := fun _ h => by cases h

/-- Locks that are free to take exclude no one. -/
theorem Exclusive.acquire (hexclusive : Exclusive locks)
    (hfree : ∀ row ∈ rows, Free locks holder mode row) :
    Exclusive (acquire holder mode rows locks) := by
  have htaken {lock : Lock κ} (hlock : lock ∈ rows.map (Lock.mk holder mode)) :
      lock.holder = holder ∧ lock.mode = mode ∧ Free locks holder mode lock.row := by
    obtain ⟨row, hrow, rfl⟩ := List.mem_map.1 hlock
    exact ⟨rfl, rfl, hfree row hrow⟩
  -- A lock that was held before excludes the new one only if the holder is the same.
  have hheld {taken old : Lock κ} (htaken' : taken ∈ rows.map (Lock.mk holder mode))
      (hold : old ∈ locks) (hrow : old.row = taken.row)
      (hconflicts : old.mode.conflicts taken.mode = true) : old.holder = holder := by
    obtain ⟨-, hmode, hfree⟩ := htaken htaken'
    by_contra hother
    rw [hmode, hfree old hold hrow hother] at hconflicts
    cases hconflicts
  intro lock hlock lock' hlock' hrow hconflicts
  rcases List.mem_append.1 hlock with hnew | hold <;>
    rcases List.mem_append.1 hlock' with hnew' | hold'
  · rw [(htaken hnew).1, (htaken hnew').1]
  · rw [Mode.conflicts_comm] at hconflicts
    rw [(htaken hnew).1, hheld hnew hold' hrow.symm hconflicts]
  · rw [(htaken hnew').1, hheld hnew' hold hrow hconflicts]
  · exact hexclusive lock hold lock' hold' hrow hconflicts

theorem Exclusive.release (hexclusive : Exclusive locks) (other : ℕ) :
    Exclusive (release other locks) := by
  intro lock hlock lock' hlock'
  exact hexclusive lock (List.mem_filter.1 hlock).1 lock' (List.mem_filter.1 hlock').1

/-- An exclusive lock is held by one transaction. -/
theorem Exclusive.holder_eq (hexclusive : Exclusive locks) (hheld : Holds locks holder .update row)
    (hother : Holds locks other .update row) : other = holder :=
  hexclusive _ hother _ hheld rfl rfl

end RowLocks
