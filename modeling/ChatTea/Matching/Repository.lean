import ChatTea.Database.Schema
import ChatTea.Lib.Table
import ChatTea.Lib.Transaction

/-!
# The matching repository

The embedding of `MatchingRepository.actOnCandidate`, `undoLastAction` and
`activateBoost`. Each call is one transaction, serialised with the others on the
accounts it concerns by advisory locks, which leave no trace in a run of calls.

A user's identifier is compared in two ways: PostgreSQL compares stored values,
while the order of a pair is decided by `<` on the texts the call was given.

## Main definitions

* `orderedMatchingPair` — the pair of a match, lower text first
* `actOnCandidate`, `matchIfReverseExists` — skip, like or superlike a candidate
* `undoLastAction` — revert the latest action
* `activateBoost` — spend a boost credit
-/

namespace ChatTea.Matching

open Table Transaction

def orderedMatchingPair (userId targetUserId : UuidText) : Uuid × Uuid :=
  if userId.text < targetUserId.text then (userId.toUuid, targetUserId.toUuid)
  else (targetUserId.toUuid, userId.toUuid)

structure ActInput where
  userId : UuidText
  targetUserId : UuidText
  action : MatchActionKind
  dailyLimit : Option ℕ
  now : Timestamp
  dayStart : Timestamp
  dayEnd : Timestamp

structure ActResult where
  matched : Bool
  roomId : Option RowId
  remainingSuperLikeCredits : Option ℤ
  created : Bool
deriving DecidableEq

/-! ### Reading -/

/-- A user's action on another that was not reverted. -/
def IsActive (actorUserId targetUserId : Uuid) (row : MatchAction) : Prop :=
  row.actorUserId = actorUserId ∧ row.targetUserId = targetUserId ∧ row.revertedAt = none

instance (actorUserId targetUserId : Uuid) (row : MatchAction) :
    Decidable (IsActive actorUserId targetUserId row) :=
  inferInstanceAs (Decidable (_ ∧ _ ∧ _))

/-- The index `match_actions_actor_target_active_unique` leaves one row to find. -/
def findActiveAction (actorUserId targetUserId : Uuid) (db : Database) : Option MatchAction :=
  db.matchActions.find? fun row => IsActive actorUserId targetUserId row

def findLike (likerUserId likedUserId : Uuid) (db : Database) : Option UserLike :=
  db.userLikes.find? fun row => row.likerUserId = likerUserId ∧ row.likedUserId = likedUserId

def matchKey (row : Match) : Uuid × Uuid := (row.userLowId, row.userHighId)

def findMatch (pair : Uuid × Uuid) (db : Database) : Option Match :=
  lookup matchKey pair db.matchRows

def findUser (userId : Uuid) (db : Database) : Option User :=
  lookup User.userId userId db.users

def superLikeBalance (userId : Uuid) (db : Database) : Option ℤ :=
  (lookup ConsumableBalance.userId userId db.userConsumableBalances).map (·.superLikeCredits)

/-! ### Acting on a candidate -/

def interestedIn (interestedGender : Option InterestedGender) (gender : Gender) : Bool :=
  match interestedGender, gender with
  | some .everyone, _ => true
  | some .male, .male => true
  | some .female, .female => true
  | _, _ => false

/-- The actor and the target are visible, complete and acceptable to each other,
and neither blocked the other. -/
def checkCandidate (userId targetUserId : Uuid) (db : Database) : Except Failure Unit := do
  let actor ← match findUser userId db with
    | some actor => pure actor
    | none => throw (.error "PROFILE_COMPLETION_REQUIRED")
  throwIf (.error "PROFILE_COMPLETION_REQUIRED")
    (actor.hiddenAt ≠ none ∨ actor.deletedAt ≠ none ∨ actor.profileCompletedAt = none)
  let target ← match findUser targetUserId db with
    | some target => pure target
    | none => throw (.error "USER_NOT_FOUND")
  throwIf (.error "USER_NOT_FOUND")
    (target.hiddenAt ≠ none ∨ target.deletedAt ≠ none ∨ target.profileCompletedAt = none)
  throwIf (.error "CANDIDATE_NOT_AVAILABLE")
    (¬ interestedIn actor.interestedGender target.gender ∨
      ¬ interestedIn target.interestedGender actor.gender)
  throwIf (.error "CANDIDATE_NOT_AVAILABLE")
    (db.userBlocks.any fun row =>
      (row.blockerUserId = userId ∧ row.blockedUserId = targetUserId) ∨
        (row.blockerUserId = targetUserId ∧ row.blockedUserId = userId))

/-- The rows a superlike of a user is charged to. -/
def hasSuperLike (userId : Uuid) (row : ConsumableBalance) : Bool :=
  row.userId = userId ∧ 0 < row.superLikeCredits

def takeSuperLike (row : ConsumableBalance) : ConsumableBalance :=
  { row with superLikeCredits := row.superLikeCredits - 1 }

/-- A superlike is charged, and needs a positive balance. -/
def spendSuperLike (userId : Uuid) (action : MatchActionKind) (db : Database) :
    Except Failure Database :=
  if action = .superlike then do
    throwIf (.error "SUPERLIKE_CREDITS_REQUIRED")
      (returning (hasSuperLike userId) takeSuperLike db.userConsumableBalances = [])
    return { db with
      userConsumableBalances :=
        updateWhere (hasSuperLike userId) takeSuperLike db.userConsumableBalances }
  else return db

/-- A like or superlike stores a like unless there is one, within the day's limit. -/
def recordLike (input : ActInput) (db : Database) : Except Failure Database :=
  if input.action = .skip then return db
  else
    match findLike input.userId.toUuid input.targetUserId.toUuid db with
    | some _ => return db
    | none => do
        let count := db.userLikes.countP fun row =>
          row.likerUserId = input.userId.toUuid ∧ input.dayStart ≤ row.createdAt ∧
            row.createdAt < input.dayEnd
        throwIf (.error "LIKE_LIMIT_REACHED")
          (input.dailyLimit.any fun dailyLimit => dailyLimit ≤ count)
        require (.constraint "user_likes_check")
          (input.userId.toUuid ≠ input.targetUserId.toUuid)
        return { db with
          userLikes := db.userLikes ++
            [{ likerUserId := input.userId.toUuid
               likedUserId := input.targetUserId.toUuid
               createdAt := input.now }] }

/-- The row an action inserts. -/
def createdAction (input : ActInput) (id : RowId) : MatchAction where
  id := id
  actorUserId := input.userId.toUuid
  targetUserId := input.targetUserId.toUuid
  action := input.action
  revertedAt := none
  createdAt := input.now

def insertAction (input : ActInput) (db : Database) : Except Failure Database := do
  require (.constraint "match_actions_check") (input.userId.toUuid ≠ input.targetUserId.toUuid)
  return { db with
    matchActions := db.matchActions ++ [createdAction input db.nextRowId]
    nextRowId := db.nextRowId + 1 }

/-- `INSERT … ON CONFLICT DO NOTHING` of a room member. -/
def insertRoomMember (member : RoomMember) (members : List RoomMember) : List RoomMember :=
  if member ∈ members then members else members ++ [member]

/-- The room of a pair that likes each other: the one of its match, or a new one. -/
def matchIfReverseExists (userId targetUserId : UuidText) (db : Database) :
    (Bool × Option RowId) × Database :=
  match findLike targetUserId.toUuid userId.toUuid db with
  | none => ((false, none), db)
  | some _ =>
      let pair := orderedMatchingPair userId targetUserId
      match findMatch pair db with
      | some existing => ((true, some existing.roomId), db)
      | none =>
          let roomId := db.nextRowId
          ((true, some roomId),
            { db with
              rooms := db.rooms ++ [{ id := roomId, name := "매칭 대화" }]
              roomMembers :=
                insertRoomMember { roomId, userId := targetUserId.toUuid }
                  (insertRoomMember { roomId, userId := userId.toUuid } db.roomMembers)
              matchRows := db.matchRows ++
                [{ userLowId := pair.1, userHighId := pair.2, roomId }]
              nextRowId := db.nextRowId + 1 })

/-- What a repeated action returns, without changing anything. -/
def replayedResult (input : ActInput) (db : Database) : ActResult :=
  if input.action = .skip then
    { matched := false, roomId := none, remainingSuperLikeCredits := none, created := false }
  else
    let existingMatch := findMatch (orderedMatchingPair input.userId input.targetUserId) db
    { matched := existingMatch.isSome
      roomId := existingMatch.map (·.roomId)
      remainingSuperLikeCredits :=
        if input.action = .superlike then superLikeBalance input.userId.toUuid db else none
      created := false }

/-- What a new action stores and returns. -/
def createAction (input : ActInput) (db : Database) : Except Failure (ActResult × Database) := do
  checkCandidate input.userId.toUuid input.targetUserId.toUuid db
  let db ← spendSuperLike input.userId.toUuid input.action db
  let db ← recordLike input db
  let db ← insertAction input db
  if input.action = .skip then
    return ({ matched := false, roomId := none, remainingSuperLikeCredits := none
              created := true }, db)
  let ((matched, roomId), db) := matchIfReverseExists input.userId input.targetUserId db
  let remainingSuperLikeCredits :=
    if input.action = .superlike then superLikeBalance input.userId.toUuid db else none
  return ({ matched, roomId, remainingSuperLikeCredits, created := true }, db)

def actOnCandidate (input : ActInput) (db : Database) : Except Failure (ActResult × Database) :=
  match findActiveAction input.userId.toUuid input.targetUserId.toUuid db with
  | some existingAction => do
      throwIf (.error "MATCH_ACTION_CONFLICT") (existingAction.action ≠ input.action)
      return (replayedResult input db, db)
  | none => createAction input db

/-! ### Undoing -/

/-- The latest action of a user that was not reverted. -/
def lastAction (userId : Uuid) (tie : ℕ) (db : Database) : Option MatchAction :=
  latest (·.createdAt) tie
    (db.matchActions.filter fun row => row.actorUserId = userId ∧ row.revertedAt = none)

/-- Remove the like an action stored, and give back a superlike. -/
def releaseLike (action : MatchAction) (db : Database) : Except Failure Database :=
  if action.action = .skip then return db
  else do
    let db : Database := { db with
      userLikes := db.userLikes.filter fun row =>
        ¬ (row.likerUserId = action.actorUserId ∧ row.likedUserId = action.targetUserId) }
    if action.action = .superlike then
      require (.constraint "user_consumable_balances_userId_fkey") (db.hasUser action.actorUserId)
      return { db with
        userConsumableBalances :=
          upsert ConsumableBalance.userId
            { userId := action.actorUserId, superLikeCredits := 1, boostCredits := 0 }
            (fun row => { row with superLikeCredits := row.superLikeCredits + 1 })
            db.userConsumableBalances }
    return db

def undoLastAction (userId : Uuid) (tie : ℕ) (now : Timestamp) (db : Database) :
    Except Failure (Option MatchAction × Database) :=
  match lastAction userId tie db with
  | none => return (none, db)
  | some action => do
      let db : Database := { db with
        matchActions :=
          updateWhere (fun row => row.id = action.id ∧ row.revertedAt = none)
            (fun row => { row with revertedAt := some now }) db.matchActions }
      let pair :=
        orderedMatchingPair action.actorUserId.toUuidText action.targetUserId.toUuidText
      throwIf (.error "UNDO_NOT_AVAILABLE_AFTER_MATCH") (findMatch pair db ≠ none)
      let db ← releaseLike action db
      return (some { action with revertedAt := some now }, db)

/-! ### Boosts -/

structure BoostResult where
  endsAt : Timestamp
  remainingBoostCredits : ℤ
deriving DecidableEq

/-- The rows a boost of a user is charged to. -/
def hasBoost (userId : Uuid) (row : ConsumableBalance) : Bool :=
  row.userId = userId ∧ 0 < row.boostCredits

def takeBoost (row : ConsumableBalance) : ConsumableBalance :=
  { row with boostCredits := row.boostCredits - 1 }

/-- Half an hour in milliseconds. -/
def boostDuration : ℤ := 30 * 60 * 1000

def activateBoost (userId : Uuid) (now : Timestamp) (db : Database) :
    Except Failure (BoostResult × Database) :=
  match returning (hasBoost userId) takeBoost db.userConsumableBalances with
  | [] => throw (.error "BOOST_CREDITS_REQUIRED")
  | balance :: _ => do
      throwIf (.error "BOOST_ALREADY_ACTIVE")
        (db.userBoosts.any fun row => row.userId = userId ∧ now < row.endsAt)
      let endsAt := now + boostDuration
      return ({ endsAt, remainingBoostCredits := balance.boostCredits },
        { db with
          userConsumableBalances :=
            updateWhere (hasBoost userId) takeBoost db.userConsumableBalances
          userBoosts := db.userBoosts ++ [{ userId, startsAt := now, endsAt }] })

end ChatTea.Matching
