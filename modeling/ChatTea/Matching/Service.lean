import ChatTea.Billing.Access
import ChatTea.Matching.Invariant

/-!
# The matching service

The embedding of `actOnCandidate`, which `likeUser`, `superLikeUser` and `skipCandidate`
call, and of `undoLastAction` of `MatchingService`. What they notify of is left out: it is
written after the call has ended and matching does not read it.

## Main definitions

* `MatchingService.actOnCandidate`, `MatchingService.undoLastAction` — the calls
* `MatchingCall`, `perform` — a call with what it returns
-/

namespace ChatTea.Matching

open Table Transaction
open Billing

namespace MatchingService

/-! ### Checks -/

/-- An identifier that a request brings has to be a UUID of some version. -/
def validateUuid (input : Text) : Except Failure Unit :=
  require (.error "USER_ID_INVALID") (isVersionedUuid input)

/-- The profile of a visible account is complete. -/
def profileIsComplete (userId : Uuid) (db : Database) : Bool :=
  (findUser userId db).any fun user =>
    user.profileCompletedAt ≠ none ∧ user.hiddenAt = none ∧ user.deletedAt = none

/-- Only a completed profile may act. -/
def requireCompletedProfile (userId : Uuid) (db : Database) : Except Failure Unit :=
  require (.error "PROFILE_COMPLETION_REQUIRED") (profileIsComplete userId db)

/-- The likes of a day that a plan allows; none is no limit. -/
def getDailyLikeLimit : PlanId → Option ℕ
  | .free => some 10
  | .basic => some 20
  | .gold => some 40
  | .black => none

/-- A day in milliseconds. -/
def dayMs : ℤ := 24 * 60 * 60 * 1000

-- `Date.UTC` takes the years 0 to 99 for 1900 to 1999, which no clock of the service shows.
/-- The first millisecond of a day. -/
def startOfUtcDay (now : Timestamp) : Timestamp := now - now % dayMs

/-- The first millisecond of the next day. -/
def nextUtcDay (now : Timestamp) : Timestamp := startOfUtcDay now + dayMs

/-! ### Calls -/

/-- The arguments of an action. The user is the one of the session, the target is spelled as
the client has sent it; `clock` is the time when the plan is looked up. -/
structure ActCall where
  userId : Uuid
  targetUserId : UuidText
  action : MatchActionKind
  now : Timestamp
  clock : Timestamp

/-- The error of an action on oneself. -/
def selfNotAllowed : MatchActionKind → Failure
  | .skip => .error "SKIP_SELF_NOT_ALLOWED"
  | _ => .error "LIKE_SELF_NOT_ALLOWED"

/-- The answer to an action. -/
structure LikeUserPayload where
  matched : Bool
  roomId : Option RowId
  undoAvailable : Bool
deriving DecidableEq

/-- The answer to an undo. -/
structure UndoMatchActionPayload where
  reverted : Bool
  targetUserId : Option Uuid
deriving DecidableEq

variable (createdAt : RowId → Timestamp) (tie : ℕ)

/-- What the repository is asked for, with the limit of the plan. -/
def ActCall.input (call : ActCall) (db : Database) : ActInput where
  userId := call.userId.toUuidText
  targetUserId := call.targetUserId
  action := call.action
  dailyLimit := getDailyLikeLimit (currentPlan createdAt tie call.userId call.clock db)
  now := call.now
  dayStart := startOfUtcDay call.now
  dayEnd := nextUtcDay call.now

/-- An action: the checks of the request, then the transaction of the repository. -/
def actOnCandidate (call : ActCall) : Call Database Failure LikeUserPayload := fun db => do
  validateUuid call.userId.text
  validateUuid call.targetUserId.text
  throwIf (selfNotAllowed call.action) (call.userId.text = call.targetUserId.text)
  requireCompletedProfile call.userId db
  let (result, db) ← Matching.actOnCandidate (call.input createdAt tie db) db
  return (⟨result.matched, result.roomId, ¬ result.matched⟩, db)

/-- An undo of the last action. -/
def undoLastAction (userId : Uuid) (tie : ℕ) (now : Timestamp) :
    Call Database Failure UndoMatchActionPayload := fun db => do
  validateUuid userId.text
  requireCompletedProfile userId db
  let (action, db) ← Matching.undoLastAction userId tie now db
  return (⟨action.isSome, action.map MatchAction.targetUserId⟩, db)

end MatchingService

/-! ### Runs of calls -/

/-- The calls of the service. -/
inductive MatchingCall where
  | act (call : MatchingService.ActCall)
  | undo (userId : Uuid) (tie : ℕ) (now : Timestamp)

/-- What the calls return. -/
inductive MatchingReply where
  | like (payload : MatchingService.LikeUserPayload)
  | undo (payload : MatchingService.UndoMatchActionPayload)
deriving DecidableEq

/-- A call, given what the database draws: the times of the rows and the choice among equals. -/
def perform (createdAt : RowId → Timestamp) (tie : ℕ) :
    MatchingCall → Call Database Failure MatchingReply
  | .act call => fun db =>
      (MatchingService.actOnCandidate createdAt tie call db).map fun (payload, db) =>
        (.like payload, db)
  | .undo userId tie now => fun db =>
      (MatchingService.undoLastAction userId tie now db).map fun (payload, db) =>
        (.undo payload, db)

end ChatTea.Matching
