import ChatTea.Database.World

/-!
# Proof rules for database access

One rule for each way in which a thread reaches the database, for any logic over
the shared state: what has to be checked when the call succeeds, and when it fails.

## Main results

* `holds_statement` — an atomic call
* `holds_select`, `holds_query` — a statement of an open transaction
* `holds_commit` — the end of a transaction
* `holds_transaction` — a transaction and its rollback
* `holds_select_bind`, `holds_rollback` — both for a logic that ignores locks
-/

namespace ChatTea

open Interleaving RowLocks

variable {ι ρ β : Type} {L : Logic World ι Failure ρ} {request : ι} {pid : ℕ}
  {returns : β → World → Prop} {throws : Failure → World → Prop} {w : World}

namespace World

def withDb (w : World) (db : Database) : World := { w with db := db }

def withLocks (w : World) (locks : List (Lock LockedRow)) : World := { w with locks := locks }

/-- The call that threw is in the log. -/
def reject (w : World) (failure : Failure) : World :=
  { w with rejections := failure :: w.rejections }

/-- The end of a transaction. -/
def unlock (w : World) (pid : ℕ) : World := w.withLocks (release pid w.locks)

end World

/-- What has to be checked of a call that is one atomic step: it may succeed, with its
answer lost or not, throw, or not be run. -/
structure CallChecks (L : Logic World ι Failure ρ) (request : ι) (pid : ℕ)
    (call : Transaction.Call Database Failure β) (returns : β → World → Prop)
    (throws : Failure → World → Prop) (before : World) : Prop where
  returned : ∀ value db, call before.db = .ok (value, db) → before.Unlocked pid db →
    L.allowed before (before.withDb db) →
      L.invariant (before.withDb db) ∧ L.guarantee request pid before (before.withDb db) ∧
        L.Later pid (returns value) (before.withDb db) ∧
          ∀ failure, L.Later pid (throws failure) (before.withDb db)
  threw : ∀ failure, call before.db = .error failure →
    L.invariant (before.reject failure) ∧
      L.guarantee request pid before (before.reject failure) ∧
        L.Later pid (throws failure) (before.reject failure)
  unreachable : ∀ failure, L.Later pid (throws failure) before

theorem CallChecks.executes {call : Transaction.Call Database Failure β} {before after : World}
    {reply : Except Failure β} (h : CallChecks L request pid call returns throws before)
    (hinv : L.invariant before) (hact : Executes call pid before reply after)
    (hallowed : L.allowed before after) :
    L.invariant after ∧ L.guarantee request pid before after ∧
      L.Replies pid returns throws reply after := by
  cases hact with
  | returned hcall hunlocked =>
      obtain ⟨hafter, hguar, hreturns, -⟩ := h.returned _ _ hcall hunlocked hallowed
      exact ⟨hafter, hguar, hreturns⟩
  | threw hcall => exact h.threw _ hcall
  | unreachable failure => exact ⟨hinv, L.guarantee_refl _ _ _, h.unreachable failure⟩
  | answerLost failure hcall hunlocked =>
      obtain ⟨hafter, hguar, -, hthrows⟩ := h.returned _ _ hcall hunlocked hallowed
      exact ⟨hafter, hguar, hthrows failure⟩

/-- An atomic call. -/
theorem holds_statement {call : Transaction.Call Database Failure β} (assertion : World → Prop)
    (hassertion : L.Later pid assertion w)
    (hcall : ∀ before, assertion before → L.invariant before →
      CallChecks L request pid call returns throws before) :
    L.Holds request pid (statement call) returns throws w :=
  Logic.holds_attempt assertion hassertion fun before _ _ hbefore hinv hact hallowed =>
    (hcall before hbefore hinv).executes hinv hact hallowed

/-- An atomic call that finds one of several choices of rows. -/
theorem holds_choosing {κ : Type} {choices : κ → Database → Prop}
    {call : κ → Transaction.Call Database Failure β} (assertion : World → Prop)
    (hassertion : L.Later pid assertion w)
    (hcall : ∀ before choice, assertion before → L.invariant before → choices choice before.db →
      CallChecks L request pid (call choice) returns throws before) :
    L.Holds request pid (choosing choices call) returns throws w := by
  refine Logic.holds_attempt assertion hassertion fun before _ _ hbefore hinv hact hallowed => ?_
  obtain ⟨choice, hchoice, hexecutes⟩ := hact
  exact (hcall before choice hbefore hinv hchoice).executes hinv hexecutes hallowed

/-- A statement of an open transaction, which locks the rows it finds. -/
theorem holds_select {mode : Mode} {rows : Database → List LockedRow} {read : Database → β}
    (assertion : World → Prop) (hassertion : L.Later pid assertion w)
    (hlocked : ∀ before, assertion before → L.invariant before →
      (∀ row ∈ rows before.db, Free before.locks pid mode row) →
        L.invariant (before.withLocks (acquire pid mode (rows before.db) before.locks)) ∧
          L.guarantee request pid before
            (before.withLocks (acquire pid mode (rows before.db) before.locks)) ∧
          L.Later pid (returns (read before.db))
            (before.withLocks (acquire pid mode (rows before.db) before.locks)))
    (hunreachable : ∀ before failure, assertion before → L.invariant before →
      L.Later pid (throws failure) before) :
    L.Holds request pid (select mode rows read) returns throws w := by
  refine Logic.holds_attempt assertion hassertion fun before reply after hbefore hinv hact _ => ?_
  cases hact with
  | locked hfree => exact hlocked before hbefore hinv hfree
  | unreachable failure =>
      exact ⟨hinv, L.guarantee_refl _ _ _, hunreachable before failure hbefore hinv⟩

/-- A statement that only reads changes nothing. -/
theorem holds_query {read : Database → β} (assertion : World → Prop)
    (hassertion : L.Later pid assertion w)
    (hreturns : ∀ before, assertion before → L.invariant before →
      L.Later pid (returns (read before.db)) before)
    (hunreachable : ∀ before failure, assertion before → L.invariant before →
      L.Later pid (throws failure) before) :
    L.Holds request pid (query read) returns throws w :=
  holds_select assertion hassertion
    (fun before hbefore hinv _ =>
      ⟨hinv, L.guarantee_refl _ _ before, hreturns before hbefore hinv⟩)
    hunreachable

/-- The end of a transaction, whose writes were computed from locked rows. -/
theorem holds_commit {writes : Transaction.Call Database Failure β} (assertion : World → Prop)
    (hassertion : L.Later pid assertion w)
    (hcommitted : ∀ before value db, assertion before → L.invariant before →
      writes before.db = .ok (value, db) → before.Unlocked pid db →
      L.allowed before ((before.withDb db).unlock pid) →
        L.invariant ((before.withDb db).unlock pid) ∧
          L.guarantee request pid before ((before.withDb db).unlock pid) ∧
            L.Later pid (returns value) ((before.withDb db).unlock pid) ∧
              ∀ failure, L.Later pid (throws failure) ((before.withDb db).unlock pid))
    (hrejected : ∀ before failure, assertion before → L.invariant before →
      writes before.db = .error failure →
        L.invariant (before.reject failure) ∧
          L.guarantee request pid before (before.reject failure) ∧
            L.Later pid (throws failure) (before.reject failure))
    (hunreachable : ∀ before failure, assertion before → L.invariant before →
      L.Later pid (throws failure) before) :
    L.Holds request pid (commit writes) returns throws w := by
  refine Logic.holds_attempt assertion hassertion fun before reply after hbefore hinv hact hallowed => ?_
  cases hact with
  | committed hcall hunlocked =>
      obtain ⟨hafter, hguar, hreturns, -⟩ :=
        hcommitted before _ _ hbefore hinv hcall hunlocked hallowed
      exact ⟨hafter, hguar, hreturns⟩
  | rejected hcall => exact hrejected before _ hbefore hinv hcall
  | unreachable failure =>
      exact ⟨hinv, L.guarantee_refl _ _ _, hunreachable before failure hbefore hinv⟩
  | answerLost failure hcall hunlocked =>
      obtain ⟨hafter, hguar, -, hthrows⟩ :=
        hcommitted before _ _ hbefore hinv hcall hunlocked hallowed
      exact ⟨hafter, hguar, hthrows failure⟩

/-- A transaction whose body meets its postconditions; a rollback gives back its locks. -/
theorem holds_transaction {body : Prog World ι Failure β}
    (hbody : L.Holds request pid body returns
      (fun failure w => L.Later pid (fun before => L.invariant (before.unlock pid) ∧
        L.guarantee request pid before (before.unlock pid) ∧
          L.Later pid (throws failure) (before.unlock pid)) w) w) :
    L.Holds request pid (transaction body) returns throws w := by
  refine Logic.Holds.tryCatch (hbody.mono (fun _ _ _ h => h) fun failure w _ hthrows => ?_)
  refine Logic.Holds.bind fun before hrely hinv _ after hact _ => ?_
  subst hact
  obtain ⟨hunlocked, hguar, hlater⟩ := hthrows before hrely hinv
  refine ⟨hunlocked, hguar, Logic.Stable.later (fun s before hrely _ h => ?_) ?_⟩
  · exact Logic.Holds.of_rely h hrely
  · exact Logic.holds_throw hlater

/-- A logic that relies on what row locks protect and for which taking locks and
giving them back are steps like none at all. -/
structure LockNeutral (L : Logic World ι Failure ρ) (request : ι) : Prop where
  acquire : ∀ {pid mode rows w}, L.invariant w → (∀ row ∈ rows, Free w.locks pid mode row) →
    L.invariant (w.withLocks (acquire pid mode rows w.locks)) ∧
      L.guarantee request pid w (w.withLocks (acquire pid mode rows w.locks))
  unlock : ∀ {pid w}, L.invariant w →
    L.invariant (w.unlock pid) ∧ L.guarantee request pid w (w.unlock pid)
  rely : ∀ {pid w after}, L.rely pid w after → World.KeepsLocked pid w after

/-- A statement of a transaction leads to the rest of its program, with the rows it
found locked. -/
theorem holds_select_bind {mode : Mode} {rows : Database → List LockedRow} {α : Type}
    {read : Database → β} {rest : β → Prog World ι Failure α} {returns : α → World → Prop}
    (hneutral : LockNeutral L request) (assertion : World → Prop)
    (hassertion : L.Later pid assertion w)
    (hrest : ∀ before, assertion before → L.invariant before →
      L.Holds request pid (rest (read before.db)) returns throws
        (before.withLocks (acquire pid mode (rows before.db) before.locks)))
    (hthrows : ∀ failure w, L.Later pid (throws failure) w) :
    L.Holds request pid (select mode rows read >>= rest) returns throws w := by
  refine Logic.Holds.bind (holds_select assertion hassertion (fun before hbefore hinv hfree => ?_)
    fun before failure _ _ => hthrows failure before)
  obtain ⟨hlocked, hguar⟩ := hneutral.acquire hinv hfree
  exact ⟨hlocked, hguar, (hrest before hbefore hinv).later⟩

/-- A transaction gives back its locks when it throws. -/
theorem holds_rollback {body : Prog World ι Failure β} (hneutral : LockNeutral L request)
    (hbody : L.Holds request pid body returns (fun _ _ => True) w)
    (hthrows : ∀ failure w, L.Later pid (throws failure) w) :
    L.Holds request pid (transaction body) returns throws w := by
  refine holds_transaction (hbody.mono (fun _ _ _ h => h) fun failure s _ _ => ?_)
  intro before _ hinv
  obtain ⟨hunlocked, hguar⟩ := hneutral.unlock hinv
  exact ⟨hunlocked, hguar, hthrows failure _⟩

/-- `new Date()`. -/
theorem holds_clock {returns : Timestamp → World → Prop}
    (h : ∀ now, L.Later pid (returns now) w) : L.Holds request pid clock returns throws w := by
  intro before hrely hinv now after hact _
  obtain ⟨-, rfl⟩ := hact
  refine ⟨hinv, L.guarantee_refl _ _ _, fun later hlater hinv' => ?_⟩
  exact h now later (L.rely_trans hrely hlater) hinv'

/-- A check that throws or goes on, without a step. -/
theorem holds_ofExcept {outcome : Except Failure β}
    (hok : ∀ value, outcome = .ok value → L.Later pid (returns value) w)
    (herror : ∀ failure, outcome = .error failure → L.Later pid (throws failure) w) :
    L.Holds request pid (MonadExcept.ofExcept outcome) returns throws w := by
  cases outcome with
  | ok value => exact Logic.holds_pure (hok value rfl)
  | error failure => exact Logic.holds_throw (herror failure rfl)

end ChatTea
