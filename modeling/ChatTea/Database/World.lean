import ChatTea.Database.Event
import ChatTea.Lib.Interleaving
import ChatTea.Lib.RowLocks
import ChatTea.Lib.Transaction

/-!
# The shared state of the running service

The committed database, the row locks of the open transactions and the object
store, as the threads of the service and the outside world change them.

A repository call that is one statement, or a transaction that only touches rows
it has locked first, is one atomic step (`statement`). A transaction with reads
whose rows others may still change is written out: each statement is a step that
takes the row locks PostgreSQL takes (`select`), the writes become visible with
`commit`, and a thrown error rolls back. Every step may also fail because the
database cannot be reached, and an answer may be lost after its commit.

An object-store request takes effect at any time while it is in flight, whether
or not its sender still waits for the answer.

## Main definitions

* `World` — the shared state
* `World.Unlocked` — no row lock of another transaction is in the way
* `statement`, `select`, `commit`, `transaction` — database access
* `issue`, `answer`, `World.StoreMoves` — object-store access
* `World.KeepsLocked` — what a transaction's row locks protect

## Main results

* `Executes.keepsLocked`, `Selects.keepsLocked`, `Commits.keepsLocked` — no step of
  another thread changes a row a transaction has locked
-/

namespace ChatTea

open Interleaving RowLocks

/-- The rows that transactions lock, by their keys, and the advisory locks of the
request quotas. -/
inductive LockedRow where
  | user (userId : Uuid)
  | upload (id : Uuid)
  | photo (id : Uuid)
  | session (id : RowId)
  | verification (id : RowId)
  | phoneToken (tokenHash : String)
  | kakaoToken (tokenHash : String)
  | quota (key : String)
deriving DecidableEq

/-- A row with its contents. -/
inductive TableRow where
  | user (row : User)
  | upload (row : ProfileUpload)
  | photo (row : UserProfilePhoto)
  | session (row : RefreshToken)
  | verification (row : PhoneVerification)
  | phoneToken (row : PhoneVerificationToken)
  | kakaoToken (row : KakaoPhoneVerificationToken)
deriving DecidableEq

def TableRow.key : TableRow → LockedRow
  | .user row => .user row.userId
  | .upload row => .upload row.id
  | .photo row => .photo row.id
  | .session row => .session row.id
  | .verification row => .verification row.id
  | .phoneToken row => .phoneToken row.tokenHash
  | .kakaoToken row => .kakaoToken row.tokenHash

namespace Database

/-- The database has the row, with these contents. -/
def Has (db : Database) : TableRow → Prop
  | .user row => row ∈ db.users
  | .upload row => row ∈ db.profileUploads
  | .photo row => row ∈ db.userProfilePhotos
  | .session row => row ∈ db.refreshTokens
  | .verification row => row ∈ db.phoneVerifications
  | .phoneToken row => row ∈ db.phoneVerificationTokens
  | .kakaoToken row => row ∈ db.kakaoPhoneVerificationTokens

/-- A row that refers to an account by a foreign key. -/
def Refers (db : Database) (userId : Uuid) : LockedRow → Prop
  | .user _ => False
  | .upload id => ∃ row ∈ db.profileUploads, row.id = id ∧ row.userId = userId
  | .photo id => ∃ row ∈ db.userProfilePhotos, row.id = id ∧ row.userId = userId
  | .session id => ∃ row ∈ db.refreshTokens, row.id = id ∧ row.userId = userId
  | .kakaoToken tokenHash => ∃ row ∈ db.kakaoPhoneVerificationTokens,
      row.tokenHash = tokenHash ∧ row.userId = some userId
  | .verification _ => False
  | .phoneToken _ => False
  | .quota _ => False

end Database

inductive StoreRequestKind where
  | put
  | delete
deriving DecidableEq, Repr

/-- A request to the object store. -/
structure StoreRequest where
  kind : StoreRequestKind
  key : Text
  landed : Bool
  inFlight : Bool
deriving DecidableEq

structure World where
  db : Database
  locks : List (Lock LockedRow)
  /-- The errors that calls have thrown. -/
  rejections : List Failure
  /-- The keys of the stored objects. -/
  objects : List Text
  requests : List StoreRequest
  /-- The threads that have read an account and have not finished with it. -/
  reading : List (ℕ × Uuid)
  /-- What the threads have done, the newest first. -/
  log : List (ℕ × Event)
  /-- The readings that the clocks may show. -/
  clocks : Timestamp → Prop

namespace World

/-- A database with nothing going on. -/
def ofDatabase (db : Database) : World where
  db := db
  locks := []
  rejections := []
  objects := []
  requests := []
  reading := []
  log := []
  clocks := fun _ => True

/-- No lock of another transaction is on a row that changes, and none excludes a
new reference to an account. -/
structure Unlocked (w : World) (pid : ℕ) (after : Database) : Prop where
  rows : ∀ row, w.db.Has row → ¬ after.Has row → Free w.locks pid .noKeyUpdate row.key
  references : ∀ userId row, after.Refers userId row → ¬ w.db.Refers userId row →
    Free w.locks pid .keyShare (.user userId)

theorem unlocked_of_alone {w : World} {pid : ℕ} (h : ∀ lock ∈ w.locks, lock.holder = pid)
    (after : Database) : w.Unlocked pid after where
  rows := fun _ _ _ => free_of_alone h
  references := fun _ _ _ _ => free_of_alone h

/-- What happens to the locks of a thread that stops, and to what it was doing. -/
def rollback (pid : ℕ) (w : World) : World :=
  { w with
    locks := release pid w.locks
    reading := w.reading.filter fun entry => entry.1 ≠ pid }

end World

/-! ### Database access -/

section Access

variable {ι β : Type}

/-- A call that is one atomic step. -/
inductive Executes (call : Transaction.Call Database Failure β) (pid : ℕ) (w : World) :
    Except Failure β → World → Prop
  | returned {value db} (returns : call w.db = .ok (value, db)) (unlocked : w.Unlocked pid db) :
      Executes call pid w (.ok value) { w with db := db }
  | threw {failure} (throws : call w.db = .error failure) :
      Executes call pid w (.error failure) { w with rejections := failure :: w.rejections }
  | unreachable (failure) : Executes call pid w (.error failure) w
  | answerLost {value db} (failure) (returns : call w.db = .ok (value, db))
      (unlocked : w.Unlocked pid db) : Executes call pid w (.error failure) { w with db := db }

/-- A statement of an open transaction that locks the rows it finds. -/
inductive Selects (mode : Mode) (rows : Database → List LockedRow) (read : Database → β) (pid : ℕ)
    (w : World) : Except Failure β → World → Prop
  | locked (free : ∀ row ∈ rows w.db, Free w.locks pid mode row) :
      Selects mode rows read pid w (.ok (read w.db))
        { w with locks := acquire pid mode (rows w.db) w.locks }
  | unreachable (failure) : Selects mode rows read pid w (.error failure) w

/-- The end of an open transaction, which makes its writes visible. -/
inductive Commits (writes : Transaction.Call Database Failure β) (pid : ℕ) (w : World) :
    Except Failure β → World → Prop
  | committed {value db} (returns : writes w.db = .ok (value, db)) (unlocked : w.Unlocked pid db) :
      Commits writes pid w (.ok value) { w with db := db, locks := release pid w.locks }
  | rejected {failure} (throws : writes w.db = .error failure) :
      Commits writes pid w (.error failure) { w with rejections := failure :: w.rejections }
  | unreachable (failure) : Commits writes pid w (.error failure) w
  | answerLost {value db} (failure) (returns : writes w.db = .ok (value, db))
      (unlocked : w.Unlocked pid db) :
      Commits writes pid w (.error failure) { w with db := db, locks := release pid w.locks }

def statement (call : Transaction.Call Database Failure β) : Prog World ι Failure β :=
  .attempt (Executes call)

/-- A statement that may find any of the allowed choices of rows. -/
def choosing {κ : Type} (allowed : κ → Database → Prop)
    (call : κ → Transaction.Call Database Failure β) : Prog World ι Failure β :=
  .attempt fun pid w reply after =>
    ∃ choice, allowed choice w.db ∧ Executes (call choice) pid w reply after

def select (mode : Mode) (rows : Database → List LockedRow) (read : Database → β) :
    Prog World ι Failure β :=
  .attempt (Selects mode rows read)

/-- A statement that only reads. -/
def query (read : Database → β) : Prog World ι Failure β :=
  select .keyShare (fun _ => []) read

def commit (writes : Transaction.Call Database Failure β) : Prog World ι Failure β :=
  .attempt (Commits writes)

/-- `db.transaction`: what the body throws rolls its locks back. -/
def transaction (body : Prog World ι Failure β) : Prog World ι Failure β :=
  tryCatch body fun failure => do
    Prog.atomic fun pid before (_ : Unit) after =>
      after = { before with locks := release pid before.locks }
    throw failure

/-- `new Date()`. -/
def clock : Prog World ι Failure Timestamp :=
  .atomic fun _ before now after => before.clocks now ∧ after = before

end Access

/-! ### Object-store access -/

section Store

variable {ι : Type}

/-- Send a request to the object store; its number is what the answer refers to. -/
def issue (kind : StoreRequestKind) (key : Text) : Prog World ι Failure ℕ :=
  .atomic fun _ w number after =>
    number = w.requests.length ∧
      after = { w with requests := w.requests ++ [⟨kind, key, false, true⟩] }

/-- The answer to a request: a success only once it has taken effect. -/
inductive Answers (number : ℕ) (w : World) : Bool → World → Prop
  | success {request} (sent : w.requests[number]? = some request) (landed : request.landed = true) :
      Answers number w true w
  | failure : Answers number w false w

def answer (number : ℕ) : Prog World ι Failure Bool :=
  .atomic fun _ => Answers number

namespace World

/-- What a request does to the stored objects. -/
def applied (w : World) (request : StoreRequest) : List Text :=
  match request.kind with
  | .put => request.key :: w.objects
  | .delete => w.objects.filter fun key => key ≠ request.key

/-- A step of the object store: a request in flight takes effect, or never will again. -/
inductive StoreMoves (w : World) : World → Prop
  | lands {number request} (sent : w.requests[number]? = some request)
      (inFlight : request.inFlight = true) :
      StoreMoves w { w with
        objects := w.applied request
        requests := w.requests.set number { request with landed := true } }
  | settles {number request} (sent : w.requests[number]? = some request) :
      StoreMoves w { w with requests := w.requests.set number { request with inFlight := false } }

end World

end Store

/-! ### What row locks protect -/

namespace World

/-- The locks of a transaction stay, the rows it has locked against updates are
unchanged, and an account it has locked for update gets no new references. -/
structure KeepsLocked (pid : ℕ) (before after : World) : Prop where
  locks : ∀ {mode row}, Holds before.locks pid mode row → Holds after.locks pid mode row
  rows : ∀ row mode, before.db.Has row → mode.conflicts .noKeyUpdate = true →
    Holds before.locks pid mode row.key → after.db.Has row
  references : ∀ userId row, after.db.Refers userId row →
    Holds before.locks pid .update (.user userId) → before.db.Refers userId row

namespace KeepsLocked

variable {pid other : ℕ} {w before between after : World}

/-- A step that leaves the database alone and gives no lock back keeps every locked row. -/
theorem of_db_eq (hdb : after.db = before.db)
    (hlocks : ∀ {mode row}, Holds before.locks pid mode row → Holds after.locks pid mode row) :
    KeepsLocked pid before after where
  locks := hlocks
  rows := fun row _ hrow _ _ => by rwa [hdb]
  references := fun userId row hrow _ => by rwa [hdb] at hrow

theorem refl (pid : ℕ) (w : World) : KeepsLocked pid w w := of_db_eq rfl id

theorem trans (h₁ : KeepsLocked pid before between) (h₂ : KeepsLocked pid between after) :
    KeepsLocked pid before after where
  locks := fun h => h₂.locks (h₁.locks h)
  rows := fun row mode hrow hmode hheld =>
    h₂.rows row mode (h₁.rows row mode hrow hmode hheld) hmode (h₁.locks hheld)
  references := fun userId row hrow hheld =>
    h₁.references userId row (h₂.references userId row hrow (h₁.locks hheld)) hheld

/-- Writes that no lock is in the way of keep what another thread has locked. -/
theorem of_unlocked (hunlocked : before.Unlocked pid after.db) (hother : other ≠ pid)
    (hlocks : ∀ {mode row}, Holds before.locks other mode row → Holds after.locks other mode row) :
    KeepsLocked other before after where
  locks := hlocks
  rows := by
    intro row mode hrow hmode hheld
    by_contra hgone
    exact not_free_of_holds hheld (Ne.symm hother) hmode (hunlocked.rows row hrow hgone)
  references := by
    intro userId row hrow hheld
    by_contra hnew
    exact not_free_of_holds hheld (Ne.symm hother) (by rfl)
      (hunlocked.references userId row hrow hnew)

end KeepsLocked

end World

section KeepsLocked

open World

variable {β : Type} {call : Transaction.Call Database Failure β} {pid other : ℕ} {w after : World}
  {reply : Except Failure β} {rows : Database → List LockedRow} {read : Database → β} {mode : Mode}

theorem Executes.keepsLocked (h : Executes call pid w reply after) (hother : other ≠ pid) :
    KeepsLocked other w after := by
  cases h with
  | returned returns unlocked => exact .of_unlocked unlocked hother id
  | threw throws => exact .of_db_eq rfl id
  | unreachable failure => exact .refl other w
  | answerLost failure returns unlocked => exact .of_unlocked unlocked hother id

theorem Selects.keepsLocked (h : Selects mode rows read pid w reply after) :
    KeepsLocked other w after := by
  cases h with
  | locked free => exact .of_db_eq rfl Holds.acquire
  | unreachable failure => exact .refl other w

theorem Commits.keepsLocked (h : Commits call pid w reply after) (hother : other ≠ pid) :
    KeepsLocked other w after := by
  have hreleased {mode : Mode} {row : LockedRow} (hheld : Holds w.locks other mode row) :
      Holds (release pid w.locks) other mode row := hheld.release (Ne.symm hother)
  cases h with
  | committed returns unlocked => exact .of_unlocked unlocked hother hreleased
  | rejected throws => exact .of_db_eq rfl id
  | unreachable failure => exact .refl other w
  | answerLost failure returns unlocked => exact .of_unlocked unlocked hother hreleased

theorem World.keepsLocked_rollback (pid : ℕ) (w : World) (hother : other ≠ pid) :
    KeepsLocked other w (w.rollback pid) :=
  .of_db_eq rfl fun hheld => hheld.release (Ne.symm hother)

theorem World.StoreMoves.keepsLocked (h : w.StoreMoves after) : KeepsLocked other w after := by
  cases h with
  | lands sent inFlight => exact .of_db_eq rfl id
  | settles sent => exact .of_db_eq rfl id

end KeepsLocked

end ChatTea
