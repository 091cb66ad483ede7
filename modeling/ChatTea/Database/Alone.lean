import ChatTea.Database.World
import ChatTea.Lib.Sequential

/-!
# Transactions that run alone

What a transaction does to the database while no other thread moves: it comes to its end
with the writes of its commit, or with nothing written.

## Main definitions

* `Prog.ended` — a program that has returned or thrown
* `Quiet` — no other transaction holds a lock
* `Returns` — what a program returns, and the database it leaves

## Main results

* `alone_select_bind`, `alone_ofExcept_bind`, `alone_commit`, `alone_transaction` — the
  rules for a program that runs alone
* `returns_select_bind`, `returns_ofExcept_bind`, `returns_commit`, `returns_transaction` — the
  run in which no access fails
-/

namespace ChatTea

open Interleaving RowLocks Transaction

variable {ι α β : Type} {pid : ℕ} {w : World} {db db' : Database}
  {returns : α → World → Prop} {throws : Failure → World → Prop}

/-! ### What holds at the end -/

/-- The program has returned or thrown. -/
def Prog.ended : Except Failure α → Prog World ι Failure α
  | .ok value => .done value
  | .error failure => .fail failure

/-- A statement of an open transaction changes no row. -/
theorem alone_select_bind {mode : Mode} {rows : Database → List LockedRow} {read : Database → β}
    {rest : β → Prog World ι Failure α} (hdb : w.db = db)
    (hrest : ∀ after, after.db = db → (rest (read db)).Alone pid returns throws after)
    (hthrows : ∀ failure after, after.db = db → throws failure after) :
    (select mode rows read >>= rest).Alone pid returns throws w := by
  apply Prog.Alone.bind
  apply Prog.alone_attempt
  · intro value after hact
    cases hact with
    | locked free =>
        subst hdb
        exact hrest _ rfl
  · intro failure after hact
    cases hact with
    | unreachable => exact hthrows failure w hdb

theorem alone_clock_bind {rest : Timestamp → Prog World ι Failure α}
    (hrest : ∀ now, (rest now).Alone pid returns throws w) :
    (clock >>= rest).Alone pid returns throws w := by
  apply Prog.Alone.bind
  rintro now after ⟨-, rfl⟩
  exact hrest now

theorem alone_anything_bind {rest : β → Prog World ι Failure α}
    (hrest : ∀ value, (rest value).Alone pid returns throws w) :
    (Prog.anything β >>= rest).Alone pid returns throws w := by
  apply Prog.Alone.bind
  rintro value after rfl
  exact hrest value

/-- A check. -/
theorem alone_ofExcept_bind {outcome : Except Failure β} {rest : β → Prog World ι Failure α}
    (hrest : ∀ value, outcome = .ok value → (rest value).Alone pid returns throws w)
    (hthrows : ∀ failure, outcome = .error failure → throws failure w) :
    (MonadExcept.ofExcept outcome >>= rest : Prog World ι Failure α).Alone pid returns throws w := by
  apply Prog.Alone.bind
  cases outcome with
  | ok value => exact hrest value rfl
  | error failure => exact hthrows failure rfl

/-- The commit writes all or nothing. -/
theorem alone_commit {writes : Call Database Failure α} (hdb : w.db = db)
    (hreturns : ∀ value db' after, writes db = .ok (value, db') → after.db = db' →
      returns value after)
    (hthrows : ∀ failure after, after.db = db → throws failure after)
    (hlost : ∀ failure value db' after, writes db = .ok (value, db') → after.db = db' →
      throws failure after) :
    (commit writes : Prog World ι Failure α).Alone pid returns throws w := by
  subst hdb
  apply Prog.alone_attempt
  · intro value after hact
    cases hact with
    | committed hwrites unlocked => exact hreturns value _ _ hwrites rfl
  · intro failure after hact
    cases hact with
    | rejected hthrown => exact hthrows failure _ rfl
    | unreachable => exact hthrows failure _ rfl
    | answerLost _ hwrites unlocked => exact hlost failure _ _ _ hwrites rfl

/-- A rollback changes no row. -/
theorem alone_transaction {body : Prog World ι Failure α}
    (hbody : body.Alone pid returns throws w)
    (hrollback : ∀ failure before after, after.db = before.db → throws failure before →
      throws failure after) : (transaction body).Alone pid returns throws w := by
  apply Prog.Alone.tryCatch
  apply hbody.mono fun _ _ h => h
  intro failure before hthrown _ after hact
  subst hact
  exact hrollback failure before _ rfl hthrown

/-! ### The run in which no access fails -/

/-- No other transaction holds a lock; the clocks may show what they might at first. -/
structure Quiet (pid : ℕ) (db : Database) (clocks : Timestamp → Prop) (w : World) : Prop where
  db : w.db = db
  clocks : w.clocks = clocks
  locks : ∀ lock ∈ w.locks, lock.holder = pid

/-- Some run of the program alone returns the value, and leaves the database. -/
def Returns (pid : ℕ) (program : Prog World ι Failure α) (w : World) (value : α)
    (db' : Database) : Prop :=
  ∃ after, Runs (fun _ _ => True) pid program w (.done value) after ∧ after.db = db'

variable {clocks : Timestamp → Prop} {result : α}

theorem quiet_ofDatabase (pid : ℕ) (db : Database) :
    Quiet pid db (fun _ => True) (.ofDatabase db) where
  db := rfl
  clocks := rfl
  locks := fun _ hlock => absurd hlock List.not_mem_nil

/-- The first step of a program, and then the rest. -/
theorem returns_step {act : ℕ → World → β → World → Prop} {next : β → Prog World ι Failure α}
    {reply : β} {between : World} (hact : act pid w reply between)
    (hrest : Returns pid (next reply) between result db') :
    Returns pid (.step act next) w result db' := by
  obtain ⟨after, hruns, hdb⟩ := hrest
  exact ⟨after, .step reply between hact trivial hruns, hdb⟩

theorem returns_select_bind {mode : Mode} {rows : Database → List LockedRow} {read : Database → β}
    {rest : β → Prog World ι Failure α} (hw : Quiet pid db clocks w)
    (hrest : ∀ after, Quiet pid db clocks after → Returns pid (rest (read db)) after result db') :
    Returns pid (select mode rows read >>= rest) w result db' := by
  obtain ⟨rfl, rfl, hlocks⟩ := hw
  apply returns_step (.locked fun row _ => free_of_alone hlocks)
  apply hrest
  refine ⟨rfl, rfl, fun lock hlock => ?_⟩
  rcases List.mem_append.1 hlock with hnew | hold
  · obtain ⟨row, -, rfl⟩ := List.mem_map.1 hnew
    rfl
  · exact hlocks lock hold

theorem returns_ofExcept_bind {outcome : Except Failure β} {rest : β → Prog World ι Failure α}
    {value : β} (h : outcome = .ok value) (hrest : Returns pid (rest value) w result db') :
    Returns pid (MonadExcept.ofExcept outcome >>= rest) w result db' := by
  subst h
  exact hrest

theorem returns_clock_bind {rest : Timestamp → Prog World ι Failure α} {now : Timestamp}
    (hw : Quiet pid db clocks w) (hnow : clocks now)
    (hrest : Returns pid (rest now) w result db') : Returns pid (clock >>= rest) w result db' := by
  obtain ⟨-, rfl, -⟩ := hw
  exact returns_step ⟨hnow, rfl⟩ hrest

theorem returns_anything_bind {rest : β → Prog World ι Failure α} (value : β)
    (hrest : Returns pid (rest value) w result db') :
    Returns pid (Prog.anything β >>= rest) w result db' :=
  returns_step rfl hrest

theorem returns_commit {writes : Call Database Failure α} (hw : Quiet pid db clocks w)
    (h : writes db = .ok (result, db')) :
    Returns pid (commit writes : Prog World ι Failure α) w result db' := by
  obtain ⟨rfl, -, hlocks⟩ := hw
  apply returns_step (Commits.committed h (World.unlocked_of_alone hlocks db'))
  exact ⟨_, .refl, rfl⟩

theorem returns_transaction {body : Prog World ι Failure α} (h : Returns pid body w result db') :
    Returns pid (transaction body) w result db' := by
  obtain ⟨after, hruns, hdb⟩ := h
  exact ⟨after, hruns.tryCatch _, hdb⟩

end ChatTea
