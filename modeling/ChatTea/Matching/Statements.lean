import ChatTea.Database.Isolation
import ChatTea.Matching.Service

/-!
# Actions, undos, boosts and blocks, statement by statement

The transactions of `MatchingRepository.actOnCandidate`, `undoLastAction` and `activateBoost`,
and the statement of `ChatRepository.blockUser`, as they run next to others. An action takes
two advisory locks, whose keys are made of the texts it was given, and an undo the same ones. A
boost locks the balance that it is charged to; a block takes no lock.

## Main definitions

* `MatchingLock`, `MatchingEvent` — what is locked, and what is entered in the history
* `Statements.actOnCandidate`, `Statements.undoLastAction`, `Statements.activateBoost`,
  `Statements.blockUser` — the calls

## Main results

* `Statements.runs_actOnCandidate` — an action that no one disturbs does what
  `Matching.actOnCandidate` does
-/

namespace ChatTea.Matching

open Interleaving ReadCommitted RowLocks Table Transaction
open Billing (isVersionedUuid)

/-- The advisory locks of matching, and the rows that an update locks. -/
inductive MatchingLock where
  | advisory (key : Text)
  | balance (userId : Uuid)
  | action (id : RowId)
deriving DecidableEq

/-- What the calls record of themselves. -/
inductive MatchingEvent where
  /-- An action has found no block between its users. -/
  | checkedBlocks
  /-- An undo has committed the reversal of an action. -/
  | reverted (action : MatchAction)
  /-- The transaction of the call has ended. -/
  | ended
deriving DecidableEq

/-- The database with its locks, and the record of the calls. -/
abbrev MatchingState := Shared Database MatchingLock MatchingEvent

/-- The calls of the repository. -/
inductive MatchingRequest where
  | actOnCandidate (input : ActInput)
  | blockUser (blockerUserId blockedUserId : UuidText)
  | undoLastAction (userId : UuidText)
  | activateBoost (userId : Uuid) (now : Timestamp)

/-- What the calls return. -/
inductive MatchingAnswer where
  | acted (result : ActResult)
  | blocked
  | undone (action : Option MatchAction)
  | boosted (result : BoostResult)

namespace Statements

/-- A call of the repository, statement by statement. -/
abbrev MatchingProg (α : Type) := Prog MatchingState MatchingRequest Failure α

/-! ### Locks and single statements -/

/-- The advisory lock of a user. -/
def matchingUserKey (userId : UuidText) : Text := "matching:user:".toList ++ userId.text

/-- The advisory lock of two users, the same from either side. -/
def matchingPairKey (userId targetUserId : UuidText) : Text :=
  if userId.text < targetUserId.text then
    "matching:pair:".toList ++ userId.text ++ ":".toList ++ targetUserId.text
  else "matching:pair:".toList ++ targetUserId.text ++ ":".toList ++ userId.text

/-- Takes an advisory lock until the end of the transaction. -/
def lockMatchingKey (key : Text) : MatchingProg Unit := takeLock .update (.advisory key)

/-- A new row identifier. -/
def randomId : MatchingProg RowId :=
  draw (·.nextRowId) fun db => { db with nextRowId := db.nextRowId + 1 }

/-- The checks on the actor and the target. -/
def checkUsers (actor target : Option User) : Except Failure Unit := do
  let actor ← match actor with
    | some actor => pure actor
    | none => throw (.error "PROFILE_COMPLETION_REQUIRED")
  throwIf (.error "PROFILE_COMPLETION_REQUIRED")
    (actor.hiddenAt ≠ none ∨ actor.deletedAt ≠ none ∨ actor.profileCompletedAt = none)
  let target ← match target with
    | some target => pure target
    | none => throw (.error "USER_NOT_FOUND")
  throwIf (.error "USER_NOT_FOUND")
    (target.hiddenAt ≠ none ∨ target.deletedAt ≠ none ∨ target.profileCompletedAt = none)
  throwIf (.error "CANDIDATE_NOT_AVAILABLE")
    (¬ interestedIn actor.interestedGender target.gender ∨
      ¬ interestedIn target.interestedGender actor.gender)

/-- One of two users has blocked the other. -/
def isBlocked (userId targetUserId : Uuid) (db : Database) : Bool :=
  db.userBlocks.any fun row =>
    (row.blockerUserId = userId ∧ row.blockedUserId = targetUserId) ∨
      (row.blockerUserId = targetUserId ∧ row.blockedUserId = userId)

/-- Neither user has blocked the other. -/
def checkBlocks (userId targetUserId : Uuid) (db : Database) : Except Failure Unit :=
  throwIf (.error "CANDIDATE_NOT_AVAILABLE") (isBlocked userId targetUserId db)

/-- The balances that the charge of a superlike locks. -/
def chargedRows (userId : Uuid) (db : Database) : List MatchingLock :=
  if db.userConsumableBalances.any (hasSuperLike userId) then [.balance userId] else []

/-- The likes that a user has sent on the day of the call. -/
def countLikes (input : ActInput) (db : Database) : ℕ :=
  db.userLikes.countP fun row =>
    row.likerUserId = input.userId.toUuid ∧ input.dayStart ≤ row.createdAt ∧
      row.createdAt < input.dayEnd

/-- Inserts a like, which is not for oneself and is the only one for its user. -/
def insertLike (row : UserLike) (db : Database) : Except Failure Database := do
  require (.constraint "user_likes_check") (row.likerUserId ≠ row.likedUserId)
  require (.constraint "user_likes_pkey") (findLike row.likerUserId row.likedUserId db = none)
  return { db with userLikes := db.userLikes ++ [row] }

/-- Inserts an action, the only active one of its actor on its target. -/
def insertAction (row : MatchAction) (db : Database) : Except Failure Database := do
  require (.constraint "match_actions_check") (row.actorUserId ≠ row.targetUserId)
  require (.constraint "match_actions_actor_target_active_unique")
    (findActiveAction row.actorUserId row.targetUserId db = none)
  return { db with matchActions := db.matchActions ++ [row] }

/-- Inserts a room. -/
def insertRoom (row : Room) (db : Database) : Except Failure Database :=
  .ok { db with rooms := db.rooms ++ [row] }

/-- Inserts the members of a room, where a member that is there already stays. -/
def insertRoomMembers (roomId : RowId) (userId targetUserId : Uuid) (db : Database) :
    Except Failure Database :=
  .ok { db with
    roomMembers := insertRoomMember { roomId, userId := targetUserId }
      (insertRoomMember { roomId, userId } db.roomMembers) }

/-- Inserts a match, the only one of its pair. -/
def insertMatch (row : Match) (db : Database) : Except Failure Database := do
  require (.constraint "matches_check") (row.userLowId ≠ row.userHighId)
  require (.constraint "matches_pkey") (findMatch (matchKey row) db = none)
  return { db with matchRows := db.matchRows ++ [row] }

/-! ### Acting on a candidate -/

/-- The balance that is returned after a superlike. -/
def remainingCredits (input : ActInput) (pending : Pending Database Failure) :
    MatchingProg (Option ℤ) :=
  if input.action = .superlike then look pending (superLikeBalance input.userId.toUuid)
  else return none

/-- A repeated action: it returns what the first one led to, and writes nothing. -/
def replayAction (input : ActInput) (existingAction : MatchAction) : MatchingProg ActResult := do
  MonadExcept.ofExcept (throwIf (.error "MATCH_ACTION_CONFLICT")
    (existingAction.action ≠ input.action))
  if input.action = .skip then
    commitWrites unwritten [.ended]
    return { matched := false, roomId := none, remainingSuperLikeCredits := none, created := false }
  let existingMatch ← look unwritten
    (findMatch (orderedMatchingPair input.userId input.targetUserId))
  let remainingSuperLikeCredits ← remainingCredits input unwritten
  commitWrites unwritten [.ended]
  return { matched := existingMatch.isSome, roomId := existingMatch.map (·.roomId)
           remainingSuperLikeCredits, created := false }

/-- A superlike costs a credit. -/
def spendSuperLike (input : ActInput) (pending : Pending Database Failure) :
    MatchingProg (Pending Database Failure) :=
  if input.action = .superlike then
    writing pending .noKeyUpdate (chargedRows input.userId.toUuid)
      (Matching.spendSuperLike input.userId.toUuid input.action)
  else return pending

/-- Inserts the like of an action, within the limit of the day, unless it exists. -/
def recordLike (input : ActInput) (pending : Pending Database Failure) :
    MatchingProg (Pending Database Failure) :=
  if input.action = .skip then return pending
  else do
    match ← look pending (findLike input.userId.toUuid input.targetUserId.toUuid) with
    | some _ => return pending
    | none =>
        let count ← look pending (countLikes input)
        MonadExcept.ofExcept (throwIf (.error "LIKE_LIMIT_REACHED")
          (input.dailyLimit.any fun dailyLimit => dailyLimit ≤ count))
        insert pending (insertLike (createdLike input))

/-- Makes the match and its room when the like is returned. -/
def matchIfReverseExists (userId targetUserId : UuidText) (pending : Pending Database Failure) :
    MatchingProg ((Bool × Option RowId) × Pending Database Failure) := do
  match ← look pending (findLike targetUserId.toUuid userId.toUuid) with
  | none => return ((false, none), pending)
  | some _ =>
      let pair := orderedMatchingPair userId targetUserId
      match ← look pending (findMatch pair) with
      | some existing => return ((true, some existing.roomId), pending)
      | none =>
          let roomId ← randomId
          let pending ← insert pending (insertRoom { id := roomId, name := "매칭 대화" })
          let pending ← insert pending (insertRoomMembers roomId userId.toUuid targetUserId.toUuid)
          let pending ← insert pending
            (insertMatch { userLowId := pair.1, userHighId := pair.2, roomId })
          return ((true, some roomId), pending)

/-- The end of a new action: a skip is stored, a like or superlike may be a match. -/
def finishAction (input : ActInput) (pending : Pending Database Failure) :
    MatchingProg ActResult := do
  if input.action = .skip then
    commitWrites pending [.ended]
    return { matched := false, roomId := none, remainingSuperLikeCredits := none, created := true }
  let ((matched, roomId), pending) ← matchIfReverseExists input.userId input.targetUserId pending
  let remainingSuperLikeCredits ← remainingCredits input pending
  commitWrites pending [.ended]
  return { matched, roomId, remainingSuperLikeCredits, created := true }

/-- What an action stores once its checks are passed. -/
def storeAction (input : ActInput) : MatchingProg ActResult := do
  let pending ← spendSuperLike input unwritten
  let pending ← recordLike input pending
  let id ← randomId
  let pending ← insert pending (insertAction (createdAction input id))
  finishAction input pending

/-- A new action: the checks on both users, then the writes. -/
def createAction (input : ActInput) : MatchingProg ActResult := do
  let actor ← look unwritten (findUser input.userId.toUuid)
  let target ← look unwritten (findUser input.targetUserId.toUuid)
  MonadExcept.ofExcept (checkUsers actor target)
  evaluate unwritten .keyShare (fun _ => [])
    (checkBlocks input.userId.toUuid input.targetUserId.toUuid) fun _ => [.checkedBlocks]
  storeAction input

/-- An action on a candidate, under the locks of its user and its pair. -/
def actOnCandidate (input : ActInput) : MatchingProg ActResult :=
  inTransaction [.ended] do
    lockMatchingKey (matchingUserKey input.userId)
    lockMatchingKey (matchingPairKey input.userId input.targetUserId)
    match ← look unwritten (findActiveAction input.userId.toUuid input.targetUserId.toUuid) with
    | some existingAction => replayAction input existingAction
    | none => createAction input

/-! ### Blocking a user -/

/-- `INSERT … ON CONFLICT DO NOTHING` of a block. -/
def insertBlock (blockerUserId blockedUserId : Uuid) (db : Database) : Except Failure Database := do
  require (.constraint "user_blocks_check") (blockerUserId ≠ blockedUserId)
  if { blockerUserId, blockedUserId : UserBlock } ∈ db.userBlocks then return db
  require (.constraint "user_blocks_blockerUserId_fkey") (db.hasUser blockerUserId)
  require (.constraint "user_blocks_blockedUserId_fkey") (db.hasUser blockedUserId)
  return { db with userBlocks := db.userBlocks ++ [{ blockerUserId, blockedUserId }] }

/-- A block. It takes none of the locks of an action. -/
def blockUser (blockerUserId blockedUserId : UuidText) : MatchingProg Unit := do
  MonadExcept.ofExcept (require (.error "USER_ID_INVALID") (isVersionedUuid blockerUserId.text))
  MonadExcept.ofExcept (require (.error "USER_ID_INVALID") (isVersionedUuid blockedUserId.text))
  MonadExcept.ofExcept (throwIf (.error "BLOCK_SELF_NOT_ALLOWED")
    (blockerUserId.text = blockedUserId.text))
  inTransaction [.ended] do
    let pending ← insert unwritten (insertBlock blockerUserId.toUuid blockedUserId.toUuid)
    commitWrites pending [.ended]

/-! ### Undoing -/

/-- An action that an undo may still claim. -/
def isClaimable (action : MatchAction) (row : MatchAction) : Bool :=
  row.id = action.id ∧ row.revertedAt = none

/-- An action that has been reverted. -/
def revertedAction (now : Timestamp) (row : MatchAction) : MatchAction :=
  { row with revertedAt := some now }

/-- The rows that the claim of an action locks. -/
def claimedRows (action : MatchAction) (db : Database) : List MatchingLock :=
  if db.matchActions.any (isClaimable action) then [.action action.id] else []

/-- The guarded update by which an undo takes an action. -/
def claim (action : MatchAction) (now : Timestamp) (db : Database) : Except Failure Database :=
  .ok { db with
    matchActions := updateWhere (isClaimable action) (revertedAction now) db.matchActions }

/-- Deletes a like. -/
def deleteLike (userId targetUserId : Uuid) (db : Database) : Except Failure Database :=
  .ok { db with
    userLikes := db.userLikes.filter fun row =>
      ¬ (row.likerUserId = userId ∧ row.likedUserId = targetUserId) }

/-- Gives the credit of a superlike back. -/
def refundSuperLike (userId : Uuid) (db : Database) : Except Failure Database := do
  require (.constraint "user_consumable_balances_userId_fkey") (db.hasUser userId)
  return { db with
    userConsumableBalances :=
      upsert ConsumableBalance.userId { userId, superLikeCredits := 1, boostCredits := 0 }
        (fun row => { row with superLikeCredits := row.superLikeCredits + 1 })
        db.userConsumableBalances }

/-- Remove the like of an action, and give back a superlike. -/
def releaseLike (userId : Uuid) (action : MatchAction) (pending : Pending Database Failure) :
    MatchingProg (Pending Database Failure) :=
  if action.action = .skip then return pending
  else do
    let pending ← insert pending (deleteLike userId action.targetUserId)
    if action.action = .superlike then
      writing pending .noKeyUpdate (fun _ => [.balance userId]) (refundSuperLike userId)
    else return pending

/-- What follows when the action is claimed. -/
def revertAction (userId : Uuid) (action claimedAction : MatchAction)
    (pending : Pending Database Failure) : MatchingProg (Option MatchAction) := do
  let existingMatch ← look pending
    (findMatch (orderedMatchingPair action.actorUserId.toUuidText action.targetUserId.toUuidText))
  MonadExcept.ofExcept (throwIf (.error "UNDO_NOT_AVAILABLE_AFTER_MATCH") (existingMatch ≠ none))
  let pending ← releaseLike userId action pending
  commitWrites pending [.reverted action, .ended]
  return some claimedAction

/-- The undo of a given action, if it still is active under the lock of its pair. -/
def claimAction (userId : Uuid) (action : MatchAction) : MatchingProg (Option MatchAction) := do
  lockMatchingKey (matchingPairKey action.actorUserId.toUuidText action.targetUserId.toUuidText)
  let now ← Prog.anything Timestamp
  match ← evaluate unwritten .noKeyUpdate (claimedRows action)
      (fun db => .ok (returning (isClaimable action) (revertedAction now) db.matchActions))
      fun _ => [] with
  | [] =>
      commitWrites unwritten [.ended]
      return none
  | claimedAction :: _ =>
      revertAction userId action claimedAction (unwritten.andThen (claim action now))

/-- The undo of the last action of a user. -/
def undoLastAction (userId : UuidText) : MatchingProg (Option MatchAction) :=
  inTransaction [.ended] do
    lockMatchingKey (matchingUserKey userId)
    let tie ← Prog.anything ℕ
    match ← look unwritten (lastAction userId.toUuid tie) with
    | none =>
        commitWrites unwritten [.ended]
        return none
    | some action => claimAction userId.toUuid action

/-! ### Boosts -/

/-- The balances that the charge of a boost locks. -/
def boostedRows (userId : Uuid) (db : Database) : List MatchingLock :=
  if db.userConsumableBalances.any (hasBoost userId) then [.balance userId] else []

/-- The balance that is left, and the tables. -/
def spendBoost (userId : Uuid) (db : Database) : Except Failure (ConsumableBalance × Database) :=
  match returning (hasBoost userId) takeBoost db.userConsumableBalances with
  | [] => throw (.error "BOOST_CREDITS_REQUIRED")
  | balance :: _ => return (balance, { db with
      userConsumableBalances :=
        updateWhere (hasBoost userId) takeBoost db.userConsumableBalances })

/-- A boost of the user that has not ended. -/
def hasActiveBoost (userId : Uuid) (now : Timestamp) (db : Database) : Bool :=
  db.userBoosts.any fun row => row.userId = userId ∧ now < row.endsAt

/-- Inserts a boost. -/
def insertBoost (row : UserBoost) (db : Database) : Except Failure Database :=
  .ok { db with userBoosts := db.userBoosts ++ [row] }

/-- Activates a boost: a credit is spent first, under the lock of its row. -/
def activateBoost (userId : Uuid) (now : Timestamp) : MatchingProg BoostResult :=
  inTransaction [.ended] do
    let balance ← evaluate unwritten .noKeyUpdate (boostedRows userId)
      (fun db => Prod.fst <$> spendBoost userId db) fun _ => []
    let pending := unwritten.andThen fun db => Prod.snd <$> spendBoost userId db
    let activeBoost ← look pending (hasActiveBoost userId now)
    MonadExcept.ofExcept (throwIf (.error "BOOST_ALREADY_ACTIVE") activeBoost)
    let endsAt := now + boostDuration
    let pending ← insert pending (insertBoost { userId, startsAt := now, endsAt })
    commitWrites pending [.ended]
    return { endsAt, remainingBoostCredits := balance.boostCredits }

/-- The code of each call. -/
def matchingCode : MatchingRequest → MatchingProg MatchingAnswer
  | .actOnCandidate input => do
      let result ← actOnCandidate input
      return .acted result
  | .blockUser blockerUserId blockedUserId => do
      blockUser blockerUserId blockedUserId
      return .blocked
  | .undoLastAction userId => do
      let action ← undoLastAction userId
      return .undone action
  | .activateBoost userId now => do
      let result ← activateBoost userId now
      return .boosted result

/-! ### An action that no one disturbs -/

section Alone

variable {pid n : ℕ} {w : MatchingState} {db view view' : Database} {input : ActInput}
  {pending : Pending Database Failure}

theorem performs_lockMatchingKey (key : Text) (hw : Alone pid db n w) :
    ∃ w', Performs pid (lockMatchingKey key) w () w' ∧ Alone pid db n w' := by
  refine ⟨w.enter pid .update [.advisory key] [], ?_, hw.committed, acquire_of_alone hw.locks⟩
  exact performs_evaluate (fun _ _ => free_of_alone hw.locks) rfl

theorem performs_randomId (hw : Alone pid db n w) :
    ∃ w', Performs pid randomId w n w' ∧ Alone pid db (n + 1) w' := by
  refine ⟨{ w with committed := withNext db (n + 1) }, .step n _ ⟨?_, ?_⟩ trivial .refl, rfl, hw.locks⟩
  · rw [hw.committed]
    rfl
  · rw [hw.committed]
    rfl

theorem performs_spendSuperLike {charged : Database} (hw : Alone pid db n w)
    (h : Matching.spendSuperLike input.userId.toUuid input.action db = .ok charged) :
    ∃ pending w', Performs pid (spendSuperLike input unwritten) w pending w' ∧
      Alone pid db n w' ∧ Yields pending db charged := by
  unfold spendSuperLike
  by_cases hsuperlike : input.action = .superlike
  · have hwrite (n : ℕ) : Matching.spendSuperLike input.userId.toUuid input.action
        (withNext db n) = .ok (withNext charged n) := by
      simp only [Matching.spendSuperLike, hsuperlike, if_true, bind_eq_ok_iff, throwIf_eq_ok_iff,
        pure_eq_ok_iff] at h ⊢
      obtain ⟨-, hpaid, rfl⟩ := h
      exact ⟨(), hpaid, rfl⟩
    have hreads : (unwritten w.committed >>= Matching.spendSuperLike input.userId.toUuid
        input.action) = .ok (withNext charged n) := by
      rw [hw.committed]
      exact hwrite n
    rw [if_pos hsuperlike]
    refine ⟨_, _, performs_writing (fun _ _ => free_of_alone hw.locks) hreads, ?_,
      (yields_unwritten db).andThen hwrite⟩
    exact ⟨hw.committed, acquire_of_alone hw.locks⟩
  · rw [if_neg hsuperlike]
    rw [Matching.spendSuperLike, if_neg hsuperlike] at h
    obtain rfl := pure_eq_ok_iff.1 h
    exact ⟨unwritten, w, .refl, hw, yields_unwritten db⟩

theorem performs_recordLike {liked : Database} (h : Yields pending db view) (hw : Alone pid db n w)
    (hliked : Matching.recordLike input view = .ok liked) :
    ∃ pending', Performs pid (recordLike input pending) w pending' w ∧ Yields pending' db liked := by
  unfold recordLike
  by_cases hskip : input.action = .skip
  · rw [if_pos hskip]
    rw [Matching.recordLike, if_pos hskip] at hliked
    obtain rfl := pure_eq_ok_iff.1 hliked
    exact ⟨pending, .refl, h⟩
  · rw [if_neg hskip]
    rw [Matching.recordLike, if_neg hskip] at hliked
    have hlook (found : Option UserLike)
        (hfind : findLike input.userId.toUuid input.targetUserId.toUuid view = found) :
        Performs pid (look pending (findLike input.userId.toUuid input.targetUserId.toUuid) :
          MatchingProg _) w found w := by
      rw [← show findLike _ _ (withNext view n) = found from hfind]
      exact performs_look h hw
    cases hfind : findLike input.userId.toUuid input.targetUserId.toUuid view with
    | some existing =>
        rw [hfind] at hliked
        obtain rfl := pure_eq_ok_iff.1 hliked
        exact ⟨pending, (hlook _ hfind).bind (performs_pure pending), h⟩
    | none =>
        simp only [hfind, bind_eq_ok_iff, throwIf_eq_ok_iff, require_eq_ok_iff,
          pure_eq_ok_iff] at hliked
        obtain ⟨-, hlimit, -, hself, rfl⟩ := hliked
        have hwrite (n : ℕ) : insertLike (createdLike input) (withNext view n) =
            .ok (withNext { view with userLikes := view.userLikes ++ [createdLike input] } n) := by
          simp only [insertLike, bind_eq_ok_iff, require_eq_ok_iff, pure_eq_ok_iff]
          exact ⟨(), hself, (), hfind, rfl⟩
        refine ⟨_, (hlook _ hfind).bind ?_, h.andThen hwrite⟩
        have hcount : Performs pid (look pending (countLikes input) : MatchingProg _) w
            (countLikes input (withNext view n)) w := performs_look h hw
        apply hcount.bind
        exact (performs_check (throwIf_of_not hlimit)).bind (performs_insert h hw hwrite)

/-- The search for the reverse like, and the match that it stores. -/
theorem performs_matchIfReverseExists {userId targetUserId : UuidText} (h : Yields pending db view)
    (hw : Alone pid db n w) (hself : userId.toUuid ≠ targetUserId.toUuid)
    {found : Bool × Option RowId}
    (hsearch : Matching.matchIfReverseExists userId targetUserId (withNext view n) =
      (found, view')) :
    ∃ pending' w' n', Performs pid (matchIfReverseExists userId targetUserId pending) w
      (found, pending') w' ∧ Alone pid db n' w' ∧ Yields pending' db view' ∧
        view'.nextRowId = n' := by
  unfold matchIfReverseExists
  have hlook {β : Type} (read : Database → β) (value : β) (hread : read (withNext view n) = value) :
      Performs pid (look pending read : MatchingProg β) w value w := by
    rw [← hread]
    exact performs_look h hw
  unfold Matching.matchIfReverseExists at hsearch
  cases hreverse : findLike targetUserId.toUuid userId.toUuid (withNext view n) with
  | none =>
      rw [hreverse] at hsearch
      obtain ⟨rfl, rfl⟩ := Prod.mk.inj hsearch
      exact ⟨pending, w, n, (hlook _ _ hreverse).bind (performs_pure _), hw, h, rfl⟩
  | some reverse =>
      simp only [hreverse] at hsearch
      cases hmatch : findMatch (orderedMatchingPair userId targetUserId) (withNext view n) with
      | some existing =>
          rw [hmatch] at hsearch
          obtain ⟨rfl, rfl⟩ := Prod.mk.inj hsearch
          refine ⟨pending, w, n, (hlook _ _ hreverse).bind ?_, hw, h, rfl⟩
          exact (hlook _ _ hmatch).bind (performs_pure _)
      | none =>
          rw [hmatch] at hsearch
          obtain ⟨rfl, rfl⟩ := Prod.mk.inj hsearch
          obtain ⟨w', hdraw, hw'⟩ := performs_randomId hw
          have hpair : (orderedMatchingPair userId targetUserId).1 ≠
              (orderedMatchingPair userId targetUserId).2 := by
            unfold orderedMatchingPair
            split
            · exact hself
            · exact hself.symm
          let roomed : Database := { view with rooms := view.rooms ++ [{ id := n, name := "매칭 대화" }] }
          let joined : Database := { roomed with
            roomMembers := insertRoomMember { roomId := n, userId := targetUserId.toUuid }
              (insertRoomMember { roomId := n, userId := userId.toUuid } view.roomMembers) }
          let matched : Database := { joined with
            matchRows := view.matchRows ++
              [{ userLowId := (orderedMatchingPair userId targetUserId).1
                 userHighId := (orderedMatchingPair userId targetUserId).2
                 roomId := n }] }
          have hroom (n' : ℕ) : insertRoom { id := n, name := "매칭 대화" } (withNext view n') =
              .ok (withNext roomed n') := rfl
          have hmembers (n' : ℕ) : insertRoomMembers n userId.toUuid targetUserId.toUuid
              (withNext roomed n') = .ok (withNext joined n') := rfl
          have hrow (n' : ℕ) : insertMatch
              { userLowId := (orderedMatchingPair userId targetUserId).1
                userHighId := (orderedMatchingPair userId targetUserId).2
                roomId := n } (withNext joined n') = .ok (withNext matched n') := by
            simp only [insertMatch, bind_eq_ok_iff, require_eq_ok_iff, pure_eq_ok_iff]
            exact ⟨(), hpair, (), hmatch, rfl⟩
          have hyields := h.andThen hroom
          have hyields' := hyields.andThen hmembers
          refine ⟨_, w', n + 1, ?_, hw', hyields'.andThen hrow, rfl⟩
          apply (hlook _ _ hreverse).bind
          apply (hlook _ _ hmatch).bind
          apply hdraw.bind
          apply (performs_insert h hw' hroom).bind
          apply (performs_insert hyields hw' hmembers).bind
          exact (performs_insert hyields' hw' hrow).bind (performs_pure _)

theorem performs_remainingCredits (h : Yields pending db view) (hw : Alone pid db n w) :
    Performs pid (remainingCredits input pending) w
      (if input.action = .superlike then superLikeBalance input.userId.toUuid view else none) w := by
  unfold remainingCredits
  split
  · have hlook : Performs pid (look pending (superLikeBalance input.userId.toUuid) : MatchingProg _) w
        (superLikeBalance input.userId.toUuid (withNext view n)) w := performs_look h hw
    exact hlook
  · exact performs_pure none

/-- The checks on the users come before the one on blocks. -/
theorem checkCandidate_eq (userId targetUserId : Uuid) (db : Database) :
    checkCandidate userId targetUserId db =
      (checkUsers (findUser userId db) (findUser targetUserId db) >>= fun _ =>
        checkBlocks userId targetUserId db) := by
  unfold checkCandidate checkUsers
  cases findUser userId db with
  | none => rfl
  | some actor =>
      cases findUser targetUserId db with
      | none =>
          simp only [pure_bind, bind_assoc]
          rfl
      | some target =>
          simp only [pure_bind, bind_assoc]
          rfl

theorem performs_finishAction {result : ActResult} (h : Yields pending db view)
    (hw : Alone pid db n w) (hself : input.userId.toUuid ≠ input.targetUserId.toUuid)
    (hskip : input.action = .skip → result = ⟨false, none, none, true⟩ ∧ view' = withNext view n)
    (hlike : input.action ≠ .skip →
      Matching.matchIfReverseExists input.userId input.targetUserId (withNext view n) =
          ((result.matched, result.roomId), view') ∧
        result = ⟨result.matched, result.roomId,
          if input.action = .superlike then superLikeBalance input.userId.toUuid view' else none,
          true⟩) :
    ∃ w', Performs pid (finishAction input pending) w result w' ∧ w'.committed = view' := by
  unfold finishAction
  by_cases haction : input.action = .skip
  · obtain ⟨rfl, rfl⟩ := hskip haction
    obtain ⟨w', hcommit, hend⟩ := performs_commit [.ended] h hw
    rw [if_pos haction]
    exact ⟨w', hcommit.bind (performs_pure _), hend⟩
  · obtain ⟨hsearch, hresult⟩ := hlike haction
    obtain ⟨pending', w₁, n', hsearched, hw₁, hyields, hnext⟩ :=
      performs_matchIfReverseExists h hw hself hsearch
    obtain ⟨w', hcommit, hend⟩ := performs_commit [.ended] hyields hw₁
    rw [if_neg haction]
    refine ⟨w', hsearched.bind ?_, ?_⟩
    · rw [hresult]
      exact (performs_remainingCredits hyields hw₁).bind (hcommit.bind (performs_pure _))
    · rw [hend, ← hnext]
      rfl

/-- The checks leave everything as it is, but for the entry of the last one. -/
theorem runs_checks (hw : Alone pid db n w)
    (hcheck : checkCandidate input.userId.toUuid input.targetUserId.toUuid db = .ok ()) :
    Runs anyStep pid (createAction input) w (storeAction input)
      (w.enter pid .keyShare [] [.checkedBlocks]) := by
  rw [checkCandidate_eq, bind_eq_ok_iff] at hcheck
  obtain ⟨_, husers, hblocks⟩ := hcheck
  have hactor : Performs pid (look unwritten (findUser input.userId.toUuid) : MatchingProg _) w
      (findUser input.userId.toUuid (withNext db n)) w := performs_look (yields_unwritten db) hw
  have htarget : Performs pid (look unwritten (findUser input.targetUserId.toUuid) : MatchingProg _) w
      (findUser input.targetUserId.toUuid (withNext db n)) w :=
    performs_look (yields_unwritten db) hw
  have hunblocked : Performs pid (evaluate unwritten .keyShare (fun _ => [])
      (checkBlocks input.userId.toUuid input.targetUserId.toUuid)
        fun _ => [MatchingEvent.checkedBlocks] : MatchingProg Unit) w () (w.enter pid .keyShare [] [.checkedBlocks]) := by
    apply performs_evaluate fun _ hrow => absurd hrow List.not_mem_nil
    rw [hw.committed]
    exact hblocks
  apply (Runs.bind hactor _).trans
  apply (Runs.bind htarget _).trans
  exact (Runs.bind (performs_check husers) _).trans (Runs.bind hunblocked _)

/-- What is stored is what the writes of one step store. -/
theorem performs_storeAction {charged liked stored : Database} {result : ActResult}
    (hw : Alone pid db db.nextRowId w)
    (hnew : findActiveAction input.userId.toUuid input.targetUserId.toUuid db = none)
    (hcharged : Matching.spendSuperLike input.userId.toUuid input.action db = .ok charged)
    (hliked : Matching.recordLike input charged = .ok liked)
    (hstored : Matching.insertAction input liked = .ok stored)
    (hskip : input.action = .skip → result = ⟨false, none, none, true⟩ ∧ view' = stored)
    (hlike : input.action ≠ .skip →
      Matching.matchIfReverseExists input.userId input.targetUserId stored =
          ((result.matched, result.roomId), view') ∧
        result = ⟨result.matched, result.roomId,
          if input.action = .superlike then superLikeBalance input.userId.toUuid view' else none,
          true⟩) :
    ∃ w', Performs pid (storeAction input) w result w' ∧ w'.committed = view' := by
  obtain ⟨pending, w₁, hspend, hw₁, hyields⟩ := performs_spendSuperLike hw hcharged
  obtain ⟨pending', hrecord, hyields'⟩ := performs_recordLike hyields hw₁ hliked
  obtain ⟨w₂, hdraw, hw₂⟩ := performs_randomId hw₁
  obtain ⟨balances, -, rfl⟩ := spendSuperLike_ok hcharged
  obtain rfl := recordLike_ok hliked
  simp only [Matching.insertAction, bind_eq_ok_iff, require_eq_ok_iff, pure_eq_ok_iff] at hstored
  obtain ⟨-, hself, rfl⟩ := hstored
  let acted : Database := { db with
    userConsumableBalances := balances
    userLikes := likesAfter input { db with userConsumableBalances := balances }
    matchActions := db.matchActions ++ [createdAction input db.nextRowId] }
  have hinsert (n : ℕ) : insertAction (createdAction input db.nextRowId) (withNext
      { db with
        userConsumableBalances := balances
        userLikes := likesAfter input { db with userConsumableBalances := balances } } n) =
      .ok (withNext acted n) := by
    simp only [insertAction, bind_eq_ok_iff, require_eq_ok_iff, pure_eq_ok_iff]
    exact ⟨(), hself, (), hnew, rfl⟩
  obtain ⟨w', hfinish, hend⟩ :=
    performs_finishAction (hyields'.andThen hinsert) hw₂ hself hskip hlike
  refine ⟨w', ?_, hend⟩
  apply hspend.bind
  apply hrecord.bind
  apply hdraw.bind
  exact (performs_insert hyields' hw₂ hinsert).bind hfinish

theorem performs_createAction {result : ActResult} (hw : Alone pid db db.nextRowId w)
    (hnew : findActiveAction input.userId.toUuid input.targetUserId.toUuid db = none)
    (hcreate : Matching.createAction input db = .ok (result, view')) :
    ∃ w', Performs pid (createAction input) w result w' ∧ w'.committed = view' := by
  simp only [Matching.createAction, bind_eq_ok_iff] at hcreate
  obtain ⟨_, hcheck, charged, hcharged, liked, hliked, stored, hstored, hrest⟩ := hcreate
  have hchecked : Alone pid db db.nextRowId (w.enter pid .keyShare [] [.checkedBlocks]) :=
    ⟨hw.committed, hw.locks⟩
  obtain ⟨w', hstore, hend⟩ : ∃ w', Performs pid (storeAction input)
      (w.enter pid .keyShare [] [.checkedBlocks]) result w' ∧ w'.committed = view' := by
    apply performs_storeAction hchecked hnew hcharged hliked hstored
    · intro hskip
      rw [if_pos hskip] at hrest
      obtain ⟨rfl, rfl⟩ := Prod.mk.inj (pure_eq_ok_iff.1 hrest)
      exact ⟨rfl, rfl⟩
    · intro hskip
      rw [if_neg hskip] at hrest
      obtain ⟨rfl, rfl⟩ := Prod.mk.inj (pure_eq_ok_iff.1 hrest)
      exact ⟨rfl, rfl⟩
  exact ⟨w', (runs_checks hw hcheck).trans hstore, hend⟩

theorem performs_replayAction {existing : MatchAction} (hw : Alone pid db n w)
    (hkind : existing.action = input.action) :
    ∃ w', Performs pid (replayAction input existing) w (replayedResult input db) w' ∧
      w'.committed = withNext db n := by
  unfold replayAction replayedResult
  obtain ⟨w', hcommit, hend⟩ := performs_commit [.ended] (yields_unwritten db) hw
  refine ⟨w', (performs_check (throwIf_of_not (not_ne_iff.2 hkind))).bind ?_, hend⟩
  by_cases hskip : input.action = .skip
  · rw [if_pos hskip, if_pos hskip]
    exact hcommit.bind (performs_pure _)
  · rw [if_neg hskip, if_neg hskip]
    have hlook : Performs pid (look unwritten
        (findMatch (orderedMatchingPair input.userId input.targetUserId)) : MatchingProg _) w
        (findMatch (orderedMatchingPair input.userId input.targetUserId) (withNext db n)) w :=
      performs_look (yields_unwritten db) hw
    apply hlook.bind
    exact (performs_remainingCredits (yields_unwritten db) hw).bind (hcommit.bind (performs_pure _))

/-- Up to the search for an earlier action. -/
theorem runs_locks (hw : Alone pid db n w) {found : Option MatchAction}
    (hfind : findActiveAction input.userId.toUuid input.targetUserId.toUuid db = found) :
    ∃ w', Alone pid db n w' ∧ Runs anyStep pid (actOnCandidate input) w (inTransaction [.ended]
      (match found with
        | some existingAction => replayAction input existingAction
        | none => createAction input)) w' := by
  obtain ⟨w₁, hlockUser, hw₁⟩ := performs_lockMatchingKey (matchingUserKey input.userId) hw
  obtain ⟨w₂, hlockPair, hw₂⟩ :=
    performs_lockMatchingKey (matchingPairKey input.userId input.targetUserId) hw₁
  have hlook : Performs pid (look unwritten
      (findActiveAction input.userId.toUuid input.targetUserId.toUuid) : MatchingProg _) w₂ found w₂ := by
    rw [← show findActiveAction _ _ (withNext db n) = found from hfind]
    exact performs_look (yields_unwritten db) hw₂
  refine ⟨w₂, hw₂, Runs.tryCatch ?_ _⟩
  apply (Runs.bind hlockUser _).trans
  apply (Runs.bind hlockPair _).trans
  cases found with
  | some existing => exact Runs.bind hlook _
  | none => exact Runs.bind hlook _

/-- Up to the writes, when there is no block. -/
theorem runs_pastCheck (hw : Alone pid db n w)
    (hnew : findActiveAction input.userId.toUuid input.targetUserId.toUuid db = none)
    (hcheck : checkCandidate input.userId.toUuid input.targetUserId.toUuid db = .ok ()) :
    ∃ w', Alone pid db n w' ∧ Runs anyStep pid (actOnCandidate input) w
      (inTransaction [.ended] (storeAction input)) w' := by
  obtain ⟨w', hw', hlocks⟩ := runs_locks hw hnew
  refine ⟨w'.enter pid .keyShare [] [.checkedBlocks], ⟨hw'.committed, hw'.locks⟩, ?_⟩
  exact hlocks.trans (Runs.tryCatch (runs_checks hw' hcheck) _)

/-- An action that no one disturbs does what it does in one step. -/
theorem runs_actOnCandidate {result : ActResult}
    (hcall : Matching.actOnCandidate input db = .ok (result, view')) :
    ∃ w' : MatchingState, Performs pid (actOnCandidate input) (.ofCommitted db) result w' ∧
      w'.committed = view' := by
  have hw : Alone pid db db.nextRowId (.ofCommitted db : MatchingState) := alone_ofCommitted pid db
  rcases actOnCandidate_cases hcall with ⟨existing, hfind, hkind, rfl, rfl⟩ | ⟨hnew, hcreate⟩
  · obtain ⟨w₁, hw₁, hlocks⟩ := runs_locks hw hfind
    obtain ⟨w', hreplay, hend⟩ := performs_replayAction hw₁ hkind
    exact ⟨w', hlocks.trans (performs_inTransaction hreplay), hend⟩
  · obtain ⟨w₁, hw₁, hlocks⟩ := runs_locks hw hnew
    obtain ⟨w', hstore, hend⟩ := performs_createAction hw₁ hnew hcreate
    exact ⟨w', hlocks.trans (performs_inTransaction hstore), hend⟩

/-- A block takes no lock and waits for none. -/
theorem performs_blockUser {blockerUserId blockedUserId : UuidText}
    (hblocker : isVersionedUuid blockerUserId.text) (hblocked : isVersionedUuid blockedUserId.text)
    (hself : blockerUserId.text ≠ blockedUserId.text)
    (hinsert : insertBlock blockerUserId.toUuid blockedUserId.toUuid w.committed = .ok view') :
    Performs pid (blockUser blockerUserId blockedUserId) w () (w.finish pid view' [.ended]) := by
  apply (performs_check (require_of hblocker)).bind
  apply (performs_check (require_of hblocked)).bind
  apply (performs_check (throwIf_of_not hself)).bind
  have hwrites : Performs pid (insert unwritten (insertBlock blockerUserId.toUuid
      blockedUserId.toUuid) : MatchingProg _) w (unwritten.andThen (insertBlock blockerUserId.toUuid
        blockedUserId.toUuid)) w :=
    performs_writing (fun _ hrow => absurd hrow List.not_mem_nil) hinsert
  exact performs_inTransaction (Performs.bind hwrites (performs_commitWrites hinsert))

/-- An activation that no one disturbs does what `Matching.activateBoost` does. -/
theorem performs_activateBoost {userId : Uuid} {now : Timestamp} {result : BoostResult}
    (hw : Alone pid db n w) (h : Matching.activateBoost userId now db = .ok (result, view')) :
    ∃ w', Performs pid (activateBoost userId now) w result w' ∧ w'.committed = withNext view' n := by
  unfold Matching.activateBoost at h
  cases hreturned : returning (hasBoost userId) takeBoost db.userConsumableBalances with
  | nil =>
      rw [hreturned] at h
      cases h
  | cons balance rest =>
      simp only [hreturned, bind_eq_ok_iff, pure_eq_ok_iff, Prod.mk.injEq] at h
      obtain ⟨_, hcheck, rfl, rfl⟩ := h
      let charged : Database := { db with
        userConsumableBalances :=
          updateWhere (hasBoost userId) takeBoost db.userConsumableBalances }
      have hspend (n : ℕ) : spendBoost userId (withNext db n) = .ok (balance, withNext charged n) := by
        unfold spendBoost withNext
        simp only [hreturned]
        rfl
      have hread : (unwritten w.committed >>= fun db => Prod.fst <$> spendBoost userId db) =
          .ok balance := by
        rw [hw.committed]
        change Prod.fst <$> spendBoost userId (withNext db n) = _
        rw [hspend]
        rfl
      have hcharged : Yields (unwritten.andThen fun db => Prod.snd <$> spendBoost userId db) db
          charged := by
        apply (yields_unwritten db).andThen
        intro n
        rw [hspend]
        rfl
      -- The balance is locked from now on.
      have hlocked : Alone pid db n (w.enter pid .noKeyUpdate (boostedRows userId w.committed) []) :=
        ⟨hw.committed, acquire_of_alone hw.locks⟩
      let boost : UserBoost := { userId, startsAt := now, endsAt := now + boostDuration }
      have hinsert (n : ℕ) : insertBoost boost (withNext charged n) =
          .ok (withNext { charged with userBoosts := charged.userBoosts ++ [boost] } n) := rfl
      have hstored := hcharged.andThen hinsert
      obtain ⟨w', hcommit, hcommitted⟩ := performs_commit [.ended] hstored hlocked
      refine ⟨w', ?_, hcommitted⟩
      apply performs_inTransaction
      apply (performs_evaluate (fun _ _ => free_of_alone hw.locks) hread).bind
      apply (performs_look hcharged hlocked).bind
      apply (performs_check hcheck).bind
      apply (performs_insert hcharged hlocked hinsert).bind
      exact hcommit.bind (performs_pure _)

end Alone

end Statements

/-- The service at rest. -/
def matchingAtRest (db : Database) : Config MatchingState MatchingRequest Failure MatchingAnswer :=
  .idle (.ofCommitted db)

end ChatTea.Matching
