import ChatTea.Lib.Chronicle
import ChatTea.Notification.Outbox

/-!
# The maintenance runner

`maintenance.runner.ts` repeats four jobs until its process is told to stop. Several processes may
run at a time; `maintenance-lock.service.ts` keeps them apart with an advisory lock, which belongs
to a session of the pool of the process. A session that took the lock must not go back to the pool
with it: the next one to use it could take the lock again, or keep it forever.

The jobs use sessions of the same pool. A statement may be refused, a connection may break before or
after the server has done what it was asked to, and the server ends a broken session some time
later.

## Main definitions

* `Sessions` — the sessions of all processes, and the lock
* `runExclusive`, `runCycle`, `run` — the program
* `maintenanceSystem` — any number of processes
-/

namespace ChatTea.Maintenance

open Interleaving Notification

abbrev Text := List Char

/-! ### Sessions -/

/-- Where a session is. -/
inductive Place where
  | unopened
  | idle (pid : ℕ)
  /-- One of the jobs of a process uses it. -/
  | job (pid : ℕ)
  /-- The lock service of a process uses it. -/
  | lock (pid : ℕ)
  | closed
deriving DecidableEq

def Place.owner : Place → Option ℕ
  | unopened => none
  | idle pid => some pid
  | job pid => some pid
  | lock pid => some pid
  | closed => none

structure Sessions where
  place : ℕ → Place
  /-- The connection of the session is gone. -/
  broken : ℕ → Bool
  /-- The session that holds the advisory lock, and how often it has taken it again. -/
  lock : Option (ℕ × ℕ)
  /-- The process was told to stop. -/
  aborted : ℕ → Bool

namespace Sessions

def setPlace (sessions : Sessions) (session : ℕ) (place : Place) : Sessions :=
  { sessions with place := Function.update sessions.place session place }

def breakOff (sessions : Sessions) (session : ℕ) : Sessions :=
  { sessions with broken := Function.update sessions.broken session true }

/-- `pg_try_advisory_lock` -/
def tryLock (sessions : Sessions) (session : ℕ) : Bool × Sessions :=
  match sessions.lock with
  | none => (true, { sessions with lock := some (session, 0) })
  | some (holder, again) =>
      if holder = session then (true, { sessions with lock := some (session, again + 1) })
      else (false, sessions)

/-- `pg_advisory_unlock` -/
def unlock (sessions : Sessions) (session : ℕ) : Bool × Sessions :=
  match sessions.lock with
  | some (holder, again) =>
      if holder = session then
        (true, { sessions with lock := if again = 0 then none else some (session, again - 1) })
      else (false, sessions)
  | none => (false, sessions)

/-- `PoolClient.release`: a session that is to be destroyed or is broken does not go back. -/
def release (sessions : Sessions) (pid session : ℕ) (destroy : Bool) : Sessions :=
  if destroy ∨ sessions.broken session then (sessions.setPlace session .closed).breakOff session
  else sessions.setPlace session (.idle pid)

/-- The process is gone, and with it all its connections. -/
def drop (sessions : Sessions) (pid : ℕ) : Sessions where
  place session :=
    if (sessions.place session).owner = some pid then .closed else sessions.place session
  broken session := sessions.broken session || decide ((sessions.place session).owner = some pid)
  lock := sessions.lock
  aborted := sessions.aborted

end Sessions

/-! ### The jobs -/

inductive MaintenanceJob where
  | accountDeletion
  | pushOutbox
  | pushReceipts
  | stagingCleanup
deriving DecidableEq

structure MaintenanceBatchInput where
  now : Timestamp
  limit : ℤ
deriving DecidableEq

/-- The jobs of a cycle, in turn. -/
def maintenanceJobs : List MaintenanceJob :=
  [.accountDeletion, .pushOutbox, .pushReceipts, .stagingCleanup]

inductive LockOutcome where
  | acquired
  | skipped
deriving DecidableEq

/-- What a process does. -/
inductive MaintenanceEvent where
  | began (now : Timestamp)
  | acquired (session : ℕ)
  | skipped
  | executed (job : MaintenanceJob) (input : MaintenanceBatchInput)
      (outcome : Except Text MaintenanceBatchResult)
  /-- The lock was given back, as far as the process can tell. -/
  | finished
  /-- The heartbeat was written. -/
  | beat
  /-- The process was told to stop. -/
  | aborted

abbrev MaintenanceWorld := Chronicle Sessions MaintenanceEvent

abbrev MaintenanceProg (α : Type) := Prog MaintenanceWorld ℕ Text α

/-! ### The program -/

/-- A statement on a session. -/
inductive OnSession {α : Type} (session : ℕ) (statement : Sessions → α × Sessions)
    (notes : Except Text α → List MaintenanceEvent) (pid : ℕ) (w : MaintenanceWorld) :
    Except Text α → MaintenanceWorld → Prop
  | answered {value after} (alive : w.current.broken session = false)
      (returns : statement w.current = (value, after)) :
      OnSession session statement notes pid w (.ok value) (w.advance pid after (notes (.ok value)))
  | refused (failure) : OnSession session statement notes pid w (.error failure)
      (w.advance pid w.current (notes (.error failure)))
  | lost (failure) : OnSession session statement notes pid w (.error failure)
      (w.advance pid (w.current.breakOff session) (notes (.error failure)))
  | answerLost {value after} (failure) (alive : w.current.broken session = false)
      (returns : statement w.current = (value, after)) :
      OnSession session statement notes pid w (.error failure)
        (w.advance pid (after.breakOff session) (notes (.error failure)))

/-- `Pool.connect`: an idle session of the process, or a new one. -/
inductive Connects (pid : ℕ) (w : MaintenanceWorld) : Except Text ℕ → MaintenanceWorld → Prop
  | reused {session} (idle : w.current.place session = .idle pid) :
      Connects pid w (.ok session) (w.advance pid (w.current.setPlace session (.lock pid)) [])
  | opened {session} (unopened : w.current.place session = .unopened) :
      Connects pid w (.ok session) (w.advance pid (w.current.setPlace session (.lock pid)) [])
  | unreachable (failure) : Connects pid w (.error failure) w

def tryLock (session : ℕ) : MaintenanceProg Bool :=
  .attempt <| OnSession session (·.tryLock session) fun
    | .ok true => [.acquired session]
    | _ => []

def unlock (session : ℕ) : MaintenanceProg Bool :=
  .attempt <| OnSession session (·.unlock session) fun _ => [.finished]

def release (session : ℕ) (destroy : Bool) : MaintenanceProg Unit :=
  .atomic fun pid w _ after => after = w.advance pid (w.current.release pid session destroy) []

def note (event : MaintenanceEvent) : MaintenanceProg Unit :=
  .atomic fun pid w _ after => after = w.advance pid w.current [event]

/-- What a program throws is kept for later. -/
def attempted {α : Type} (program : MaintenanceProg α) : MaintenanceProg (Except Text α) :=
  tryCatch (do let value ← program; return Except.ok value) fun error => return Except.error error

def runExclusive (task : MaintenanceProg Unit) : MaintenanceProg LockOutcome := do
  let session ← .attempt Connects
  let acquired ← tryCatch (tryLock session) fun error => do
    release session false
    throw error
  if acquired then
    let done ← attempted task
    let unlocked ← attempted (unlock session)
    release session (unlocked.toOption ≠ some true)
    match done, unlocked with
    | .error error, _ => throw error
    | .ok _, .error error => throw error
    | .ok _, .ok _ => return .acquired
  else
    release session false
    return .skipped

/-- A job that throws is logged, and the next one is executed all the same. -/
def executeJob (job : MaintenanceJob) (input : MaintenanceBatchInput) : MaintenanceProg Unit := do
  let _ ← Chronicle.consult fun outcome => [.executed job input outcome]
  return ()

def executeJobs (input : MaintenanceBatchInput) : List MaintenanceJob → MaintenanceProg Unit
  | [] => return ()
  | job :: jobs => do
      executeJob job input
      executeJobs input jobs

/-- `FileMaintenanceHeartbeat.write` -/
def writeHeartbeat : MaintenanceProg Unit := do
  let written ← Prog.anything (Except Text Unit)
  MonadExcept.ofExcept written
  note .beat

def runCycle (now : Timestamp) : MaintenanceProg LockOutcome := do
  let outcome ← runExclusive (executeJobs ⟨now, 100⟩ maintenanceJobs)
  if outcome = .skipped then note .skipped
  writeHeartbeat
  return outcome

/-- The process looks whether it was told to stop, and starts a cycle if it was not. -/
def beginCycle : MaintenanceProg (Option Timestamp) :=
  .atomic fun pid w begun after =>
    match begun with
    | none => w.current.aborted pid = true ∧ after = w
    | some now => w.current.aborted pid = false ∧ after = w.advance pid w.current [.began now]

def isAborted : MaintenanceProg Bool :=
  .atomic fun pid w aborted after => aborted = w.current.aborted pid ∧ after = w

/-- The loop, for as many cycles as it is looked at. -/
def runCycles : ℕ → MaintenanceProg Unit
  | 0 => .stopped
  | cycles + 1 => do
      let begun ← beginCycle
      match begun with
      | none => return ()
      | some now =>
          tryCatch (do let _ ← runCycle now; return ()) fun _ => return ()
          let aborted ← isAborted
          if aborted then return ()
          else
            -- The sleep of a minute ends early when the process is told to stop.
            let aborted ← isAborted
            if aborted then return () else runCycles cycles

def run (cycles : ℕ) : MaintenanceProg Unit := do
  let reset ← Prog.anything (Except Text Unit)
  MonadExcept.ofExcept reset
  runCycles cycles

/-! ### The system -/

/-- What happens besides. -/
inductive Meanwhile (w : MaintenanceWorld) : MaintenanceWorld → Prop
  /-- The connection of a session breaks, wherever it is. -/
  | breaks (session : ℕ) : Meanwhile w ⟨w.current.breakOff session, w.log⟩
  /-- The server ends a broken session. -/
  | ends {session again} (held : w.current.lock = some (session, again))
      (gone : w.current.broken session = true) : Meanwhile w ⟨{ w.current with lock := none }, w.log⟩
  /-- A job takes a session of its pool, or opens one. -/
  | lends {session pid} (free : w.current.place session = .idle pid ∨
      w.current.place session = .unopened) :
      Meanwhile w ⟨w.current.setPlace session (.job pid), w.log⟩
  | returned {session pid} (lent : w.current.place session = .job pid) :
      Meanwhile w ⟨w.current.setPlace session (.idle pid), w.log⟩
  /-- A session that a job has given up, or that was idle for too long. -/
  | closes {session pid} (free : w.current.place session = .job pid ∨
      w.current.place session = .idle pid) :
      Meanwhile w ⟨(w.current.setPlace session .closed).breakOff session, w.log⟩
  | aborts (pid : ℕ) : Meanwhile w (w.advance pid
      { w.current with aborted := Function.update w.current.aborted pid true } [.aborted])

/-- Any number of processes; a request is the number of cycles for which its process is looked at. -/
def maintenanceSystem : System MaintenanceWorld ℕ Text Unit where
  code := run
  accepts _ := True
  environment := Meanwhile
  rollback pid w := w.advance pid (w.current.drop pid) []

end ChatTea.Maintenance
