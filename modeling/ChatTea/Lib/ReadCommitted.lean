import ChatTea.Lib.History
import ChatTea.Lib.Interleaving
import ChatTea.Lib.RowLocks

/-!
# Transactions under READ COMMITTED

Each statement of a transaction sees what is committed at that moment, with the writes of
its own transaction on top. It waits for the locks that it needs, which stay with the
transaction until the end. The writes become visible to the others with the commit; a
statement that throws rolls the transaction back.

## Main definitions

* `ReadCommitted.Shared` — the committed state, the locks and the history
* `ReadCommitted.Rejects` — the failures of a database that does not execute a statement
* `ReadCommitted.Pending` — the writes that a transaction has not committed
* `ReadCommitted.evaluate`, `ReadCommitted.look`, `ReadCommitted.writing` — statements
* `ReadCommitted.commitWrites`, `ReadCommitted.inTransaction` — the end of a transaction
* `ReadCommitted.autocommit` — a statement outside a transaction
* `ReadCommitted.draw` — the next value of a sequence, which no rollback gives back
* `ReadCommitted.Performs` — a program runs to its end

## Main results

* `holds_evaluate`, `holds_commitWrites`, `holds_inTransaction`, `holds_draw` — their
  proof rules
* `performs_evaluate`, `performs_writing`, `performs_commitWrites`, `performs_inTransaction` — what
  they do while no other thread moves
-/

namespace ReadCommitted

open History Interleaving RowLocks

/-- The committed state, the locks of the open transactions, and what the threads have
done, the newest first. -/
structure Shared (σ κ τ : Type) where
  committed : σ
  locks : List (Lock κ)
  log : List (ℕ × τ)

/-- The failures with which a database rejects a statement: a deadlock, a lost connection. -/
class Rejects (ε : Type) where
  rejected : ε → Prop

variable {σ κ τ ι ε α β ρ : Type}

namespace Shared

/-- A state with no transaction open. -/
def ofCommitted (committed : σ) : Shared σ κ τ := ⟨committed, [], []⟩

/-- A statement takes locks, and enters what it has done. -/
def enter (w : Shared σ κ τ) (pid : ℕ) (mode : Mode) (rows : List κ) (events : List τ) :
    Shared σ κ τ :=
  { w with
    locks := acquire pid mode rows w.locks
    log := stamp pid events ++ w.log }

/-- The end of a transaction: its locks are given back. -/
def finish (w : Shared σ κ τ) (pid : ℕ) (committed : σ) (events : List τ) : Shared σ κ τ where
  committed := committed
  locks := release pid w.locks
  log := stamp pid events ++ w.log

end Shared

/-! ### Statements -/

section Statements

variable [Rejects ε]

/-- The writes that a transaction has not committed yet, made to what it sees. -/
abbrev Pending (σ ε : Type) := σ → Except ε σ

/-- A transaction that has written nothing. -/
def unwritten : Pending σ ε := .ok

/-- One more write, which sees the earlier ones. -/
def Pending.andThen (pending : Pending σ ε) (write : σ → Except ε σ) : Pending σ ε :=
  fun s => pending s >>= write

/-- A statement returns or throws what it makes of the view of its transaction. -/
inductive Sees (pending : Pending σ ε) (mode : Mode) (rows : σ → List κ) (read : σ → Except ε β)
    (trace : β → List τ) (pid : ℕ) (w : Shared σ κ τ) : Except ε β → Shared σ κ τ → Prop
  | returned {value} (free : ∀ row ∈ rows w.committed, Free w.locks pid mode row)
      (reads : (pending w.committed >>= read) = .ok value) :
      Sees pending mode rows read trace pid w (.ok value)
        (w.enter pid mode (rows w.committed) (trace value))
  | threw {failure} (throws : (pending w.committed >>= read) = .error failure) :
      Sees pending mode rows read trace pid w (.error failure) w
  | aborted {failure} (rejected : Rejects.rejected failure) :
      Sees pending mode rows read trace pid w (.error failure) w

def evaluate (pending : Pending σ ε) (mode : Mode) (rows : σ → List κ) (read : σ → Except ε β)
    (trace : β → List τ) : Prog (Shared σ κ τ) ι ε β :=
  .attempt (Sees pending mode rows read trace)

/-- A statement that locks nothing. -/
def look (pending : Pending σ ε) (read : σ → β) : Prog (Shared σ κ τ) ι ε β :=
  evaluate pending .keyShare (fun _ => []) (fun s => .ok (read s)) fun _ => []

/-- A statement that writes, and returns the writes of the transaction so far. -/
def writing (pending : Pending σ ε) (mode : Mode) (rows : σ → List κ) (write : σ → Except ε σ) :
    Prog (Shared σ κ τ) ι ε (Pending σ ε) := do
  let _ ← evaluate pending mode rows write fun _ => []
  return pending.andThen write

/-- An explicit lock, such as an advisory one. -/
def takeLock (mode : Mode) (row : κ) : Prog (Shared σ κ τ) ι ε Unit :=
  evaluate unwritten mode (fun _ => [row]) (fun _ => .ok ()) fun _ => []

/-- The next value of a sequence. -/
def draw (next : σ → β) (advance : σ → σ) : Prog (Shared σ κ τ) ι ε β :=
  .atomic fun _ w value after =>
    value = next w.committed ∧ after = { w with committed := advance w.committed }

/-! ### The end of a transaction -/

/-- A commit makes the writes visible, unless a constraint is in the way by now. -/
inductive Commits (pending : Pending σ ε) (events : List τ) (pid : ℕ) (w : Shared σ κ τ) :
    Except ε Unit → Shared σ κ τ → Prop
  | committed {s} (writes : pending w.committed = .ok s) :
      Commits pending events pid w (.ok ()) (w.finish pid s events)
  | refused {failure} (throws : pending w.committed = .error failure) :
      Commits pending events pid w (.error failure) w
  | failed {failure} (rejected : Rejects.rejected failure) :
      Commits pending events pid w (.error failure) w

def commitWrites (pending : Pending σ ε) (events : List τ) : Prog (Shared σ κ τ) ι ε Unit :=
  .attempt (Commits pending events)

/-- A transaction; what its body throws rolls it back. -/
def inTransaction (events : List τ) (body : Prog (Shared σ κ τ) ι ε β) : Prog (Shared σ κ τ) ι ε β :=
  tryCatch body fun failure => do
    Prog.atomic fun pid w (_ : Unit) after => after = w.finish pid w.committed events
    throw failure

end Statements

/-! ### Statements outside a transaction -/

section Autocommit

variable [Rejects ε]

/-- What a statement has written is there for all. -/
def Shared.write (w : Shared σ κ τ) (pid : ℕ) (committed : σ) (events : List τ) : Shared σ κ τ :=
  { w with
    committed := committed
    log := stamp pid events ++ w.log }

/-- A statement outside a transaction is one of its own. -/
inductive Autocommits (call : σ → Except ε (β × σ)) (trace : β → List τ) (pid : ℕ)
    (w : Shared σ κ τ) : Except ε β → Shared σ κ τ → Prop
  | committed {value s} (writes : call w.committed = .ok (value, s)) :
      Autocommits call trace pid w (.ok value) (w.write pid s (trace value))
  | threw {failure} (throws : call w.committed = .error failure) :
      Autocommits call trace pid w (.error failure) w
  | aborted {failure} (rejected : Rejects.rejected failure) :
      Autocommits call trace pid w (.error failure) w

def autocommit (call : σ → Except ε (β × σ)) (trace : β → List τ) : Prog (Shared σ κ τ) ι ε β :=
  .attempt (Autocommits call trace)

end Autocommit

/-! ### Proof rules -/

section Rules

variable [Rejects ε] {L : Logic (Shared σ κ τ) ι ε ρ} {request : ι} {pid : ℕ} {returns : β → Shared σ κ τ → Prop}
  {throws : ε → Shared σ κ τ → Prop} {w : Shared σ κ τ} {pending : Pending σ ε} {mode : Mode}
  {rows : σ → List κ} {trace : β → List τ} {events : List τ}

/-- A statement: what has to be checked when it returns; otherwise nothing changes. -/
theorem holds_evaluate {read : σ → Except ε β} (assertion : Shared σ κ τ → Prop)
    (hstable : L.Stable pid assertion) (hassertion : assertion w)
    (hreturned : ∀ before value, assertion before → L.invariant before →
      (∀ row ∈ rows before.committed, Free before.locks pid mode row) →
      (pending before.committed >>= read) = .ok value →
        L.invariant (before.enter pid mode (rows before.committed) (trace value)) ∧
          L.guarantee request pid before
            (before.enter pid mode (rows before.committed) (trace value)) ∧
          L.Later pid (returns value)
            (before.enter pid mode (rows before.committed) (trace value)))
    (hthrows : ∀ before failure, assertion before → L.invariant before →
      (pending before.committed >>= read) = .error failure ∨ Rejects.rejected failure →
      L.Later pid (throws failure) before) :
    L.Holds request pid (evaluate pending mode rows read trace) returns throws w := by
  apply Logic.holds_attempt assertion (hstable.later hassertion)
  intro before reply after hbefore hinv hact _
  cases hact with
  | returned hfree hread => exact hreturned before _ hbefore hinv hfree hread
  | threw hthrown =>
      exact ⟨hinv, L.guarantee_refl _ _ _, hthrows before _ hbefore hinv (Or.inl hthrown)⟩
  | aborted hrejected =>
      exact ⟨hinv, L.guarantee_refl _ _ _, hthrows before _ hbefore hinv (Or.inr hrejected)⟩

/-- The end of a transaction. -/
theorem holds_commitWrites {returns : Unit → Shared σ κ τ → Prop} (assertion : Shared σ κ τ → Prop)
    (hstable : L.Stable pid assertion) (hassertion : assertion w)
    (hcommitted : ∀ before s, assertion before → L.invariant before →
      pending before.committed = .ok s → L.allowed before (before.finish pid s events) →
        L.invariant (before.finish pid s events) ∧
          L.guarantee request pid before (before.finish pid s events) ∧
          L.Later pid (returns ()) (before.finish pid s events))
    (hthrows : ∀ before failure, assertion before → L.invariant before →
      pending before.committed = .error failure ∨ Rejects.rejected failure →
      L.Later pid (throws failure) before) :
    L.Holds request pid (commitWrites pending events) returns throws w := by
  apply Logic.holds_attempt assertion (hstable.later hassertion)
  intro before reply after hbefore hinv hact hallowed
  cases hact with
  | committed hwrites => exact hcommitted before _ hbefore hinv hwrites hallowed
  | refused hthrown =>
      exact ⟨hinv, L.guarantee_refl _ _ _, hthrows before _ hbefore hinv (Or.inl hthrown)⟩
  | failed hrejected =>
      exact ⟨hinv, L.guarantee_refl _ _ _, hthrows before _ hbefore hinv (Or.inr hrejected)⟩

/-- A statement outside a transaction: what has to be checked when it commits. -/
theorem holds_autocommit {call : σ → Except ε (β × σ)} (assertion : Shared σ κ τ → Prop)
    (hstable : L.Stable pid assertion) (hassertion : assertion w)
    (hcommitted : ∀ before value s, assertion before → L.invariant before →
      call before.committed = .ok (value, s) →
        L.invariant (before.write pid s (trace value)) ∧
          L.guarantee request pid before (before.write pid s (trace value)) ∧
          L.Later pid (returns value) (before.write pid s (trace value)))
    (hthrows : ∀ before failure, assertion before → L.invariant before →
      call before.committed = .error failure ∨ Rejects.rejected failure →
      L.Later pid (throws failure) before) :
    L.Holds request pid (autocommit call trace) returns throws w := by
  apply Logic.holds_attempt assertion (hstable.later hassertion)
  intro before reply after hbefore hinv hact _
  cases hact with
  | committed hwrites => exact hcommitted before _ _ hbefore hinv hwrites
  | threw hthrown =>
      exact ⟨hinv, L.guarantee_refl _ _ _, hthrows before _ hbefore hinv (Or.inl hthrown)⟩
  | aborted hrejected =>
      exact ⟨hinv, L.guarantee_refl _ _ _, hthrows before _ hbefore hinv (Or.inr hrejected)⟩

/-- A read that locks nothing changes nothing. -/
theorem holds_reading {read : σ → β} (assertion : Shared σ κ τ → Prop)
    (hstable : L.Stable pid assertion) (hassertion : assertion w)
    (hread : ∀ before, assertion before → L.invariant before →
      L.Later pid (returns (read before.committed)) before)
    (hthrows : ∀ before failure, assertion before → L.invariant before → Rejects.rejected failure →
      L.Later pid (throws failure) before) :
    L.Holds request pid (look unwritten read) returns throws w := by
  apply holds_evaluate assertion hstable hassertion
  · intro before value hbefore hinv _ hvalue
    obtain rfl : read before.committed = value := Except.ok.inj hvalue
    have hsame : before.enter pid .keyShare [] [] = before := rfl
    rw [hsame]
    exact ⟨hinv, L.guarantee_refl _ _ _, hread before hbefore hinv⟩
  · intro before failure hbefore hinv hfailure
    rcases hfailure with hthrown | hrejected
    · cases hthrown
    · exact hthrows before failure hbefore hinv hrejected

omit [Rejects ε] in
/-- A transaction and its rollback. -/
theorem holds_inTransaction {body : Prog (Shared σ κ τ) ι ε β} {thrown : ε → Shared σ κ τ → Prop}
    (hbody : L.Holds request pid body returns thrown w)
    (hstable : ∀ failure, L.Stable pid (thrown failure))
    (hrollback : ∀ before failure, L.invariant before → thrown failure before →
      L.invariant (before.finish pid before.committed events) ∧
        L.guarantee request pid before (before.finish pid before.committed events) ∧
        L.Later pid (throws failure) (before.finish pid before.committed events)) :
    L.Holds request pid (inTransaction events body) returns throws w := by
  apply Logic.Holds.tryCatch
  apply hbody.mono fun _ _ _ h => h
  intro failure s _ hthrown
  apply Logic.Holds.bind
  intro before hrely hinv _ after hact _
  subst hact
  obtain ⟨hafter, hguar, hthrows⟩ :=
    hrollback before failure hinv (hstable failure hrely hinv hthrown)
  refine ⟨hafter, hguar, Logic.Stable.later (fun _ _ hrely _ h => h.of_rely hrely) ?_⟩
  exact Logic.holds_throw hthrows

omit [Rejects ε] in
/-- The next value of a sequence. -/
theorem holds_draw {next : σ → β} {advance : σ → σ} (assertion : Shared σ κ τ → Prop)
    (hstable : L.Stable pid assertion) (hassertion : assertion w)
    (hdrawn : ∀ before, assertion before → L.invariant before →
      L.invariant { before with committed := advance before.committed } ∧
        L.guarantee request pid before { before with committed := advance before.committed } ∧
        L.Later pid (returns (next before.committed))
          { before with committed := advance before.committed }) :
    L.Holds request pid (draw next advance) returns throws w := by
  apply Logic.holds_step assertion hstable hassertion
  intro before value after hbefore hinv hact _
  obtain ⟨rfl, rfl⟩ := hact
  exact hdrawn before hbefore hinv

end Rules

/-! ### A transaction that no one disturbs -/

section Alone

variable [Rejects ε] {pid : ℕ} {w w' w'' : Shared σ κ τ} {pending : Pending σ ε} {mode : Mode}
  {rows : σ → List κ} {trace : β → List τ} {events : List τ} {value : β} {s : σ}

/-- Every step may be taken. -/
abbrev anyStep (_ _ : Shared σ κ τ) : Prop := True

/-- The program runs to its end while no other thread moves. -/
def Performs (pid : ℕ) (program : Prog (Shared σ κ τ) ι ε α) (w : Shared σ κ τ) (value : α)
    (w' : Shared σ κ τ) : Prop := Runs anyStep pid program w (.done value) w'

omit [Rejects ε] in
/-- The first part of a program, and then some steps of the rest. -/
theorem Performs.follow {first : Prog (Shared σ κ τ) ι ε β} {rest : β → Prog (Shared σ κ τ) ι ε α}
    {program : Prog (Shared σ κ τ) ι ε α} (hfirst : Performs pid first w value w')
    (hrest : Runs anyStep pid (rest value) w' program w'') :
    Runs anyStep pid (first >>= rest) w program w'' :=
  (Runs.bind hfirst rest).trans hrest

omit [Rejects ε] in
theorem Performs.bind {first : Prog (Shared σ κ τ) ι ε β} {rest : β → Prog (Shared σ κ τ) ι ε α}
    {result : α} (hfirst : Performs pid first w value w')
    (hrest : Performs pid (rest value) w' result w'') : Performs pid (first >>= rest) w result w'' :=
  hfirst.follow hrest

omit [Rejects ε] in
theorem performs_pure (value : β) :
    Performs pid (pure value : Prog (Shared σ κ τ) ι ε β) w value w := .refl

omit [Rejects ε] in
theorem performs_anything (value : β) :
    Performs pid (Prog.anything β : Prog (Shared σ κ τ) ι ε β) w value w :=
  .step value w rfl trivial .refl

omit [Rejects ε] in
theorem performs_check {outcome : Except ε β} (h : outcome = .ok value) :
    Performs pid (MonadExcept.ofExcept outcome : Prog (Shared σ κ τ) ι ε β) w value w := by
  subst h
  exact .refl

theorem performs_evaluate {read : σ → Except ε β}
    (hfree : ∀ row ∈ rows w.committed, Free w.locks pid mode row)
    (hread : (pending w.committed >>= read) = .ok value) :
    Performs pid (evaluate pending mode rows read trace : Prog (Shared σ κ τ) ι ε β) w
      value (w.enter pid mode (rows w.committed) (trace value)) :=
  .step (.ok value) _ (.returned hfree hread) trivial .refl

theorem performs_writing {write : σ → Except ε σ}
    (hfree : ∀ row ∈ rows w.committed, Free w.locks pid mode row)
    (hwrite : (pending w.committed >>= write) = .ok s) :
    Performs pid (writing pending mode rows write : Prog (Shared σ κ τ) ι ε (Pending σ ε)) w
      (pending.andThen write) (w.enter pid mode (rows w.committed) []) :=
  (performs_evaluate hfree hwrite).bind (performs_pure _)

theorem performs_commitWrites (hwrites : pending w.committed = .ok s) :
    Performs pid (commitWrites pending events : Prog (Shared σ κ τ) ι ε Unit) w
      () (w.finish pid s events) :=
  .step (.ok ()) _ (.committed hwrites) trivial .refl

theorem performs_autocommit {call : σ → Except ε (β × σ)}
    (hwrites : call w.committed = .ok (value, s)) :
    Performs pid (autocommit call trace : Prog (Shared σ κ τ) ι ε β) w value
      (w.write pid s (trace value)) :=
  .step (.ok value) _ (.committed hwrites) trivial .refl

omit [Rejects ε] in
/-- A transaction that throws nothing is not rolled back. -/
theorem performs_inTransaction {body : Prog (Shared σ κ τ) ι ε β}
    (hbody : Performs pid body w value w') : Performs pid (inTransaction events body) w value w' :=
  Runs.tryCatch hbody _

end Alone

end ReadCommitted
