import ChatTea.Database.World

/-!
# Programs whose steps are all of a kind

What a step does to the world is often of one kind, whatever a program does next: it may take and
give back locks, log what was thrown, and write the database in certain ways. One rule for each way
in which a program reaches the database says that its steps are of such a kind.

## Main definitions

* `WritesOnly` — what a call writes to the database
* `StepKind` — a kind of steps that says no more about locks than the database has
* `CallStep` — what is so of every access

## Main results

* `StepKind.statement`, `StepKind.commit` — a call that writes only so much
* `StepKind.transaction` — a transaction and its rollback
* `kind_of_callStep` — a kind of steps, from what is so of every access
-/

namespace ChatTea

open Interleaving RowLocks

variable {ι β : Type}

/-- What a call that returns does to the database. -/
def WritesOnly (keeps : Database → Database → Prop)
    (call : Transaction.Call Database Failure β) : Prop :=
  ∀ db value db', call db = .ok (value, db') → keeps db db'

/-- A kind of steps that has every access to the database which writes only so much. -/
structure StepKind (pid : ℕ) (keeps : Database → Database → Prop) (kind : World → World → Prop) :
    Prop where
  same : ∀ w, kind w w
  executes : ∀ {β : Type} {call : Transaction.Call Database Failure β} {before after reply},
    WritesOnly keeps call → Executes call pid before reply after → kind before after
  selects : ∀ {β : Type} {mode : Mode} {rows : Database → List LockedRow} {read : Database → β}
    {before after reply}, Selects mode rows read pid before reply after → kind before after
  commits : ∀ {β : Type} {writes : Transaction.Call Database Failure β} {before after reply},
    WritesOnly keeps writes → Commits writes pid before reply after → kind before after
  releases : ∀ w : World, kind w { w with locks := release pid w.locks }

namespace StepKind

variable {pid : ℕ} {keeps : Database → Database → Prop} {kind : World → World → Prop}
  {call : Transaction.Call Database Failure β}

theorem statement (h : StepKind pid keeps kind) (hcall : WritesOnly keeps call) :
    (ChatTea.statement call : Prog World ι Failure β).Stays kind pid :=
  Prog.Stays.attempt fun _ _ _ hact => h.executes hcall hact

theorem choosing (h : StepKind pid keeps kind) {κ : Type} {allowed : κ → Database → Prop}
    {call : κ → Transaction.Call Database Failure β}
    (hcall : ∀ choice, WritesOnly keeps (call choice)) :
    (ChatTea.choosing allowed call : Prog World ι Failure β).Stays kind pid := by
  apply Prog.Stays.attempt
  rintro before reply after ⟨choice, -, hact⟩
  exact h.executes (hcall choice) hact

theorem select (h : StepKind pid keeps kind) {mode : Mode} {rows : Database → List LockedRow}
    {read : Database → β} :
    (ChatTea.select mode rows read : Prog World ι Failure β).Stays kind pid :=
  Prog.Stays.attempt fun _ _ _ hact => h.selects hact

theorem commit (h : StepKind pid keeps kind) (hcall : WritesOnly keeps call) :
    (ChatTea.commit call : Prog World ι Failure β).Stays kind pid :=
  Prog.Stays.attempt fun _ _ _ hact => h.commits hcall hact

/-- A transaction gives its locks back, also when its body throws. -/
theorem transaction (h : StepKind pid keeps kind) {body : Prog World ι Failure β}
    (hbody : body.Stays kind pid) : (ChatTea.transaction body).Stays kind pid := by
  apply hbody.tryCatch
  intro failure
  refine Prog.Stays.bind ⟨?_, fun _ => trivial⟩ fun _ => trivial
  intro before reply after hact
  rw [hact]
  exact h.releases before

theorem clock (h : StepKind pid keeps kind) :
    (ChatTea.clock : Prog World ι Failure Timestamp).Stays kind pid := by
  refine ⟨?_, fun _ => trivial⟩
  intro before now after hact
  rw [hact.2]
  exact h.same before

theorem anything (h : StepKind pid keeps kind) :
    (Prog.anything β : Prog World ι Failure β).Stays kind pid := Prog.Stays.anything h.same

end StepKind

theorem stays_ofExcept {pid : ℕ} {kind : World → World → Prop} (outcome : Except Failure β) :
    (MonadExcept.ofExcept outcome : Prog World ι Failure β).Stays kind pid := by
  cases outcome <;> trivial

/-- What comes after a check knows that the check has passed. -/
theorem stays_ofExcept_bind {α : Type} {pid : ℕ} {kind : World → World → Prop}
    {outcome : Except Failure β} {rest : β → Prog World ι Failure α}
    (hrest : ∀ value, outcome = .ok value → (rest value).Stays kind pid) :
    (MonadExcept.ofExcept outcome >>= rest : Prog World ι Failure α).Stays kind pid := by
  cases outcome with
  | ok value => exact hrest value rfl
  | error failure => trivial

/-! ### What every access to the database does -/

/-- A step of a call that writes only so much. -/
structure CallStep (keeps : Database → Database → Prop) (pid : ℕ) (before after : World) : Prop where
  others : ∀ other, other ≠ pid → World.KeepsLocked other before after
  exclusive : Exclusive before.locks → Exclusive after.locks
  requests : after.requests = before.requests
  writes : keeps before.db after.db

section CallStep

variable {pid : ℕ} {keeps : Database → Database → Prop} {kind : World → World → Prop}

theorem CallStep.refl (hsame : ∀ db, keeps db db) (w : World) : CallStep keeps pid w w :=
  ⟨fun other _ => .refl other w, id, rfl, hsame _⟩

/-- Every access of a call is a step of the call. -/
theorem callKind (hsame : ∀ db, keeps db db) : StepKind pid keeps (CallStep keeps pid) where
  same := .refl hsame
  executes := by
    intro β call before after reply hkept h
    have hothers (other : ℕ) (hother : other ≠ pid) : World.KeepsLocked other before after :=
      h.keepsLocked hother
    cases h with
    | returned returns unlocked => exact ⟨hothers, id, rfl, hkept _ _ _ returns⟩
    | threw throws => exact ⟨hothers, id, rfl, hsame _⟩
    | unreachable failure => exact .refl hsame _
    | answerLost failure returns unlocked => exact ⟨hothers, id, rfl, hkept _ _ _ returns⟩
  selects := by
    intro β mode rows read before after reply h
    cases h with
    | locked free =>
        exact ⟨fun other _ => .of_db_eq rfl Holds.acquire,
          fun hexclusive => hexclusive.acquire free, rfl, hsame _⟩
    | unreachable failure => exact .refl hsame _
  commits := by
    intro β writes before after reply hkept h
    have hothers (other : ℕ) (hother : other ≠ pid) : World.KeepsLocked other before after :=
      h.keepsLocked hother
    cases h with
    | committed returns unlocked =>
        exact ⟨hothers, fun hexclusive => hexclusive.release pid, rfl, hkept _ _ _ returns⟩
    | rejected throws => exact ⟨hothers, id, rfl, hsame _⟩
    | unreachable failure => exact .refl hsame _
    | answerLost failure returns unlocked =>
        exact ⟨hothers, fun hexclusive => hexclusive.release pid, rfl, hkept _ _ _ returns⟩
  releases := fun _ => ⟨fun _ hother => .of_db_eq rfl fun h => h.release (Ne.symm hother),
    fun hexclusive => hexclusive.release pid, rfl, hsame _⟩

/-- What follows of every step of a call is a kind of steps. -/
theorem kind_of_callStep (hsame : ∀ db, keeps db db)
    (hkind : ∀ {before after}, CallStep keeps pid before after → kind before after) :
    StepKind pid keeps kind where
  same := fun w => hkind (.refl hsame w)
  executes := fun hkept h => hkind ((callKind hsame).executes hkept h)
  selects := fun h => hkind ((callKind hsame).selects h)
  commits := fun hkept h => hkind ((callKind hsame).commits hkept h)
  releases := fun w => hkind ((callKind hsame).releases w)

end CallStep

end ChatTea
