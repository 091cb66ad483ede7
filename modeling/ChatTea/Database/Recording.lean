import ChatTea.Database.Rules

/-!
# Steps that are written to the history

Database access that enters what it does in the history, in the step in which it
takes effect, whether or not its answer is lost. A step may also note that its thread
is busy with an account it has found; the note stays until the thread ends.

## Main definitions

* `Trace` — what a step enters
* `find`, `lock`, `record` — a query, a locking statement and a write with a trace
* `note` — an entry without database access
* `tracked` — a call after which its thread is busy with no account

## Main results

* `holds_lock`, `holds_recording`, `holds_note`, `holds_tracked` — their proof rules
-/

namespace ChatTea

open Interleaving RowLocks History

/-- What a step enters: events, and the accounts its thread is busy with from here on. -/
structure Trace where
  accounts : List Uuid := []
  events : List Event := []

namespace World

def note (w : World) (pid : ℕ) (trace : Trace) : World :=
  { w with
    reading := stamp pid trace.accounts ++ w.reading
    log := stamp pid trace.events ++ w.log }

/-- The thread is busy with no account. -/
def forget (w : World) (pid : ℕ) : World :=
  { w with reading := w.reading.filter fun entry => entry.1 ≠ pid }

/-- A transaction of the thread takes effect. -/
def commit (w : World) (pid : ℕ) (db : Database) (trace : Trace) : World :=
  ((w.withDb db).unlock pid).note pid trace

theorem commit_of_alone {w : World} {pid : ℕ} {db : Database} {trace : Trace}
    (h : ∀ lock ∈ w.locks, lock.holder = pid) : w.commit pid db trace = { w with
      db := db
      locks := []
      reading := stamp pid trace.accounts ++ w.reading
      log := stamp pid trace.events ++ w.log } := by
  have hreleased : release pid w.locks = [] :=
    List.filter_eq_nil_iff.2 fun lock hmem => by simp [h lock hmem]
  simp only [commit, note, unlock, withDb, withLocks, hreleased]

end World

section Access

variable {ι β : Type}

/-- A statement that locks the rows it finds. -/
inductive Locks (trace : β → Trace) (mode : Mode) (rows : Database → List LockedRow)
    (read : Database → β) (pid : ℕ) (w : World) : Except Failure β → World → Prop
  | locked (free : ∀ row ∈ rows w.db, Free w.locks pid mode row) :
      Locks trace mode rows read pid w (.ok (read w.db))
        ((w.withLocks (acquire pid mode (rows w.db) w.locks)).note pid (trace (read w.db)))
  | unreachable (failure) : Locks trace mode rows read pid w (.error failure) w

/-- A query finds what it finds. -/
theorem Locks.found {trace : β → Trace} {read : Database → β} {pid : ℕ} {w : World} {value : β}
    (hread : read w.db = value) :
    Locks trace .keyShare (fun _ => []) read pid w (.ok value) (w.note pid (trace value)) := by
  subst hread
  exact .locked fun _ hmem => absurd hmem List.not_mem_nil

/-- A locking statement returns what it finds. -/
theorem Locks.read {mode : Mode} {rows : Database → List LockedRow} {read : Database → β} {pid : ℕ}
    {w : World} {value : β} (hread : read w.db = value)
    (hfree : ∀ row ∈ rows w.db, Free w.locks pid mode row) :
    Locks (fun _ => {}) mode rows read pid w (.ok value)
      (w.withLocks (acquire pid mode (rows w.db) w.locks)) := by
  subst hread
  exact .locked hfree

/-- A call of one statement, or the end of an open transaction. -/
inductive Records (trace : β → Trace) (call : Transaction.Call Database Failure β) (pid : ℕ)
    (w : World) : Except Failure β → World → Prop
  | committed {value db} (returns : call w.db = .ok (value, db)) (unlocked : w.Unlocked pid db) :
      Records trace call pid w (.ok value) (w.commit pid db (trace value))
  | rejected {failure} (throws : call w.db = .error failure) :
      Records trace call pid w (.error failure) (w.reject failure)
  | unreachable (failure) : Records trace call pid w (.error failure) w
  | answerLost {value db} (failure) (returns : call w.db = .ok (value, db))
      (unlocked : w.Unlocked pid db) :
      Records trace call pid w (.error failure) (w.commit pid db (trace value))

def lock (trace : β → Trace) (mode : Mode) (rows : Database → List LockedRow)
    (read : Database → β) : Prog World ι Failure β :=
  .attempt (Locks trace mode rows read)

/-- A statement that only reads. -/
def find (trace : β → Trace) (read : Database → β) : Prog World ι Failure β :=
  lock trace .keyShare (fun _ => []) read

/-- A write for which PostgreSQL draws a value that is new in the history. -/
def recording {κ : Type} (isNew : κ → List (ℕ × Event) → Prop) (trace : β → Trace)
    (call : κ → Transaction.Call Database Failure β) : Prog World ι Failure β :=
  .attempt fun pid w reply after =>
    ∃ drawn, isNew drawn w.log ∧ Records trace (call drawn) pid w reply after

def record (trace : β → Trace) (call : Transaction.Call Database Failure β) :
    Prog World ι Failure β :=
  recording (fun (_ : Unit) _ => True) trace fun _ => call

/-- What the code does without the database. -/
def note (events : List Event) : Prog World ι Failure Unit :=
  .atomic fun pid w _ after => after = w.note pid { events := events }

/-- A call, at the end of which its thread is busy with no account. -/
def tracked (call : Prog World ι Failure β) : Prog World ι Failure β :=
  let forget : Prog World ι Failure Unit := .atomic fun pid w _ after => after = w.forget pid
  do
    let result ← tryCatch call fun failure => do
      forget
      throw failure
    forget
    return result

end Access

/-! ### Proof rules -/

section Rules

variable {ι ρ β : Type} {L : Logic World ι Failure ρ} {request : ι} {pid : ℕ}
  {returns : β → World → Prop} {throws : Failure → World → Prop} {w : World} {trace : β → Trace}

theorem holds_lock {mode : Mode} {rows : Database → List LockedRow} {read : Database → β}
    (assertion : World → Prop) (hassertion : L.Later pid assertion w)
    (hlocked : ∀ before after, assertion before → L.invariant before →
      (∀ row ∈ rows before.db, Free before.locks pid mode row) →
      after = (before.withLocks (acquire pid mode (rows before.db) before.locks)).note pid
        (trace (read before.db)) →
        L.invariant after ∧ L.guarantee request pid before after ∧
          L.Later pid (returns (read before.db)) after)
    (hunreachable : ∀ before failure, assertion before → L.invariant before →
      L.Later pid (throws failure) before) :
    L.Holds request pid (lock trace mode rows read) returns throws w := by
  refine Logic.holds_attempt assertion hassertion fun before reply after hbefore hinv hact _ => ?_
  cases hact with
  | locked hfree => exact hlocked before _ hbefore hinv hfree rfl
  | unreachable failure =>
      exact ⟨hinv, L.guarantee_refl _ _ _, hunreachable before failure hbefore hinv⟩

/-- A write that draws a value. -/
theorem holds_recording {κ : Type} {isNew : κ → List (ℕ × Event) → Prop}
    {call : κ → Transaction.Call Database Failure β}
    (assertion : World → Prop) (hassertion : L.Later pid assertion w)
    (hcommitted : ∀ before drawn value db, assertion before → L.invariant before →
      isNew drawn before.log → call drawn before.db = .ok (value, db) → before.Unlocked pid db →
      L.allowed before (before.commit pid db (trace value)) →
        L.invariant (before.commit pid db (trace value)) ∧
          L.guarantee request pid before (before.commit pid db (trace value)) ∧
            L.Later pid (returns value) (before.commit pid db (trace value)) ∧
              ∀ failure, L.Later pid (throws failure) (before.commit pid db (trace value)))
    (hrejected : ∀ before failure, assertion before → L.invariant before →
      L.invariant (before.reject failure) ∧
        L.guarantee request pid before (before.reject failure) ∧
          L.Later pid (throws failure) (before.reject failure))
    (hunreachable : ∀ before failure, assertion before → L.invariant before →
      L.Later pid (throws failure) before) :
    L.Holds request pid (recording isNew trace call) returns throws w := by
  refine Logic.holds_attempt assertion hassertion fun before reply after hbefore hinv hact hallowed => ?_
  obtain ⟨drawn, hnew, hact⟩ := hact
  cases hact with
  | committed hcall hunlocked =>
      obtain ⟨hafter, hguar, hreturns, -⟩ :=
        hcommitted before drawn _ _ hbefore hinv hnew hcall hunlocked hallowed
      exact ⟨hafter, hguar, hreturns⟩
  | rejected hcall => exact hrejected before _ hbefore hinv
  | unreachable failure =>
      exact ⟨hinv, L.guarantee_refl _ _ _, hunreachable before failure hbefore hinv⟩
  | answerLost failure hcall hunlocked =>
      obtain ⟨hafter, hguar, -, hthrows⟩ :=
        hcommitted before drawn _ _ hbefore hinv hnew hcall hunlocked hallowed
      exact ⟨hafter, hguar, hthrows failure⟩

theorem holds_note {events : List Event} {returns : Unit → World → Prop} (assertion : World → Prop)
    (hassertion : L.Later pid assertion w)
    (hnoted : ∀ before after, assertion before → L.invariant before →
      after = before.note pid { events := events } →
        L.invariant after ∧ L.guarantee request pid before after ∧ L.Later pid (returns ()) after) :
    L.Holds request pid (note events) returns throws w := by
  intro before hrely hinv reply after hact _
  exact hnoted before after (hassertion before hrely hinv) hinv hact

/-- A call and its end. -/
theorem holds_tracked {call : Prog World ι Failure β}
    (hcall : L.Holds request pid call returns (fun _ _ => True) w)
    (hforget : ∀ before, L.invariant before → L.invariant (before.forget pid) ∧
      L.guarantee request pid before (before.forget pid))
    (hstable : ∀ value, L.Stable pid (returns value))
    (hreturns : ∀ value before, returns value before → returns value (before.forget pid)) :
    L.Holds request pid (tracked call) returns (fun _ _ => True) w := by
  refine Logic.Holds.bind (Logic.Holds.tryCatch (hcall.mono ?_ ?_))
  · intro value s _ hvalue
    refine Logic.Holds.bind (Logic.holds_step (returns value) (hstable value) hvalue ?_)
    rintro before _ after hbefore hinv rfl _
    obtain ⟨hafter, hguar⟩ := hforget before hinv
    refine ⟨hafter, hguar, Logic.Stable.later (fun _ _ hrely _ h => h.of_rely hrely) ?_⟩
    exact Logic.holds_pure ((hstable value).later (hreturns value before hbefore))
  · intro failure s _ _
    refine Logic.Holds.bind (Logic.holds_step (fun _ => True) (fun _ _ _ _ _ => trivial) trivial ?_)
    rintro before _ after - hinv rfl _
    obtain ⟨hafter, hguar⟩ := hforget before hinv
    refine ⟨hafter, hguar, Logic.Stable.later (fun _ _ hrely _ h => h.of_rely hrely) ?_⟩
    exact Logic.holds_throw fun _ _ _ => trivial

end Rules

end ChatTea
