import ChatTea.Billing.Ledger
import ChatTea.Matching.Repository

/-!
# What the matching operations write

One lemma per operation: the tables a successful call leaves behind. The
invariants of matching and the conservation of credits are proved from these,
never from the definitions.

## Main results

* `createAction_writes` — a new action charges, stores a like and an action, and
  then looks for the reverse like
* `actOnCandidate_cases` — an action is repeated or new
* `undoLastAction_cases` — there is nothing to undo, or one action is reverted
* `activateBoost_writes` — a boost is charged and stored
-/

namespace ChatTea.Matching

open Table Transaction
open Billing

variable {input : ActInput} {db db' : Database} {userId : Uuid}

/-! ### Charging one credit -/

/-- The balances after one credit of a counter was taken from a user. -/
structure ChargedOne (userId : Uuid) (charged : Credit) (before after : List ConsumableBalance) :
    Prop where
  credits : ∀ user credit, creditsIn after user credit =
    creditsIn before user credit - if user = userId ∧ credit = charged then 1 else 0
  unique : UniqueKey ConsumableBalance.userId after

/-- An update that takes one credit from the rows of a user that have one, when
there is such a row. -/
theorem chargedOne {charged : Credit} {cond : ConsumableBalance → Bool}
    {set : ConsumableBalance → ConsumableBalance} {balances : List ConsumableBalance}
    (hcond : ∀ row, cond row ↔ row.userId = userId ∧ 0 < balanceCredits row charged)
    (hkey : ∀ row, (set row).userId = row.userId)
    (hset : ∀ row credit, balanceCredits (set row) credit =
      balanceCredits row credit - if credit = charged then 1 else 0)
    (hunique : UniqueKey ConsumableBalance.userId balances)
    (hcharged : returning cond set balances ≠ []) :
    ChargedOne userId charged balances (updateWhere cond set balances) where
  credits user credit := by
    obtain ⟨row, hrow, hrowcond⟩ := returning_ne_nil.1 hcharged
    have howner : row.userId = userId := ((hcond row).1 hrowcond).1
    unfold creditsIn
    rw [lookup_updateWhere hkey]
    by_cases huser : user = userId
    · -- The row charged is the one row of the user.
      subst huser
      have hfound := hunique.lookup_of_mem hrow
      rw [howner] at hfound
      simp [hfound, hrowcond, hset]
    · cases hfound : lookup ConsumableBalance.userId user balances with
      | none => simp [huser]
      | some other =>
          have hother : ¬ cond other := by
            rw [hcond, (mem_of_lookup hfound).2]
            exact fun h => huser h.1
          simp [hother, huser]
  unique := hunique.updateWhere hkey

theorem chargedOne_superLike {balances : List ConsumableBalance}
    (hunique : UniqueKey ConsumableBalance.userId balances)
    (hcharged : returning (hasSuperLike userId) takeSuperLike balances ≠ []) :
    ChargedOne userId .superLike balances
      (updateWhere (hasSuperLike userId) takeSuperLike balances) := by
  refine chargedOne (fun row => ?_) (fun _ => rfl) (fun row credit => ?_) hunique hcharged
  · simp [hasSuperLike, balanceCredits]
  · cases credit <;> simp [takeSuperLike, balanceCredits]

theorem chargedOne_boost {balances : List ConsumableBalance}
    (hunique : UniqueKey ConsumableBalance.userId balances)
    (hcharged : returning (hasBoost userId) takeBoost balances ≠ []) :
    ChargedOne userId .boost balances (updateWhere (hasBoost userId) takeBoost balances) := by
  refine chargedOne (fun row => ?_) (fun _ => rfl) (fun row credit => ?_) hunique hcharged
  · simp [hasBoost, balanceCredits]
  · cases credit <;> simp [takeBoost, balanceCredits]

/-! ### A new action -/

/-- What a new action charges: one superlike, or nothing. -/
structure Charged (userId : Uuid) (action : MatchActionKind)
    (before after : List ConsumableBalance) : Prop where
  superlike : action = .superlike → UniqueKey ConsumableBalance.userId before →
    ChargedOne userId .superLike before after
  other : action ≠ .superlike → after = before

theorem spendSuperLike_ok {action : MatchActionKind}
    (h : spendSuperLike userId action db = .ok db') :
    ∃ balances, Charged userId action db.userConsumableBalances balances ∧
      db' = { db with userConsumableBalances := balances } := by
  unfold spendSuperLike at h
  split at h
  next hsuperlike =>
    simp only [bind_eq_ok_iff, throwIf_eq_ok_iff, pure_eq_ok_iff] at h
    obtain ⟨-, hcharged, rfl⟩ := h
    exact ⟨_, ⟨fun _ hunique => chargedOne_superLike hunique hcharged,
      fun hother => absurd hsuperlike hother⟩, rfl⟩
  next hother =>
    obtain rfl := pure_eq_ok_iff.1 h
    exact ⟨_, ⟨fun hsuperlike => absurd hsuperlike hother, fun _ => rfl⟩, rfl⟩

/-- The like of an action. -/
def createdLike (input : ActInput) : UserLike where
  likerUserId := input.userId.toUuid
  likedUserId := input.targetUserId.toUuid
  createdAt := input.now

/-- The likes after a new action: one more, unless it is a skip or the like was
there. -/
def likesAfter (input : ActInput) (db : Database) : List UserLike :=
  if input.action = .skip ∨
      findLike input.userId.toUuid input.targetUserId.toUuid db ≠ none then db.userLikes
  else db.userLikes ++ [createdLike input]

theorem recordLike_ok (h : recordLike input db = .ok db') :
    db' = { db with userLikes := likesAfter input db } := by
  unfold recordLike likesAfter at *
  split at h
  next hskip =>
    obtain rfl := pure_eq_ok_iff.1 h
    simp [hskip]
  next hskip =>
    cases hfind : findLike input.userId.toUuid input.targetUserId.toUuid db with
    | some existing =>
        simp only [hfind, pure_eq_ok_iff] at h
        subst h
        simp [hskip]
    | none =>
        simp only [hfind, bind_eq_ok_iff, throwIf_eq_ok_iff, require_eq_ok_iff,
          pure_eq_ok_iff] at h
        obtain ⟨-, -, -, -, rfl⟩ := h
        simp [hskip, createdLike]

/-- The database after a new action was stored, before the reverse like is
looked for. -/
def afterAction (input : ActInput) (balances : List ConsumableBalance) (db : Database) :
    Database :=
  { db with
    userConsumableBalances := balances
    userLikes := likesAfter input db
    matchActions := db.matchActions ++ [createdAction input db.nextRowId]
    nextRowId := db.nextRowId + 1 }

/-- What a successful new action writes and returns. -/
theorem createAction_writes {result : ActResult}
    (h : createAction input db = .ok (result, db')) :
    input.userId.toUuid ≠ input.targetUserId.toUuid ∧ result.created ∧
      ∃ balances,
        Charged input.userId.toUuid input.action db.userConsumableBalances balances ∧
        (input.action = .skip → result.matched = false ∧ result.roomId = none ∧
          db' = afterAction input balances db) ∧
        (input.action ≠ .skip →
          matchIfReverseExists input.userId input.targetUserId (afterAction input balances db) =
            ((result.matched, result.roomId), db')) := by
  simp only [createAction, bind_eq_ok_iff] at h
  obtain ⟨checked, -, charged, hcharged, liked, hliked, stored, hstored, h⟩ := h
  obtain ⟨balances, hbalances, rfl⟩ := spendSuperLike_ok hcharged
  obtain rfl := recordLike_ok hliked
  simp only [insertAction, bind_eq_ok_iff, require_eq_ok_iff, pure_eq_ok_iff] at hstored
  obtain ⟨-, hself, rfl⟩ := hstored
  have hlikes : likesAfter input { db with userConsumableBalances := balances } =
      likesAfter input db := rfl
  rw [hlikes] at h
  by_cases hskip : input.action = .skip
  · simp only [hskip, if_true, pure_eq_ok_iff, Prod.mk.injEq] at h
    obtain ⟨rfl, rfl⟩ := h
    exact ⟨hself, rfl, balances, hbalances, fun _ => ⟨rfl, rfl, rfl⟩,
      fun hother => absurd hskip hother⟩
  · simp only [hskip, if_false] at h
    have hafter := pure_eq_ok_iff.1 h
    obtain ⟨rfl, hdb⟩ := Prod.mk.inj hafter
    exact ⟨hself, rfl, balances, hbalances, fun hskip' => absurd hskip' hskip,
      fun _ => Prod.ext (Prod.ext rfl rfl) hdb⟩

/-- A successful action repeats an active one and changes nothing, or is new. -/
theorem actOnCandidate_cases {result : ActResult}
    (h : actOnCandidate input db = .ok (result, db')) :
    (∃ existing, findActiveAction input.userId.toUuid input.targetUserId.toUuid db =
        some existing ∧ existing.action = input.action ∧ result = replayedResult input db ∧
        db' = db) ∨
      (findActiveAction input.userId.toUuid input.targetUserId.toUuid db = none ∧
        createAction input db = .ok (result, db')) := by
  unfold actOnCandidate at h
  cases hfind : findActiveAction input.userId.toUuid input.targetUserId.toUuid db with
  | some existing =>
      simp only [hfind, bind_eq_ok_iff, throwIf_eq_ok_iff, pure_eq_ok_iff, not_ne_iff,
        Prod.mk.injEq] at h
      obtain ⟨-, hsame, rfl, rfl⟩ := h
      exact Or.inl ⟨existing, rfl, hsame, rfl, rfl⟩
  | none =>
      simp only [hfind] at h
      exact Or.inr ⟨rfl, h⟩

/-! ### Undoing -/

/-- The likes and balances after an action is undone. -/
structure Released (action : MatchAction) (db : Database) (likes : List UserLike)
    (balances : List ConsumableBalance) : Prop where
  skip : action.action = .skip → likes = db.userLikes
  like : action.action ≠ .skip → likes = db.userLikes.filter fun row =>
    ¬ (row.likerUserId = action.actorUserId ∧ row.likedUserId = action.targetUserId)
  credits : ∀ user credit, creditsIn balances user credit =
    creditsIn db.userConsumableBalances user credit +
      if action.action = .superlike ∧ user = action.actorUserId ∧ credit = .superLike then 1 else 0
  unique : UniqueKey ConsumableBalance.userId db.userConsumableBalances →
    UniqueKey ConsumableBalance.userId balances

theorem releaseLike_ok {action : MatchAction} (h : releaseLike action db = .ok db') :
    ∃ likes balances, Released action db likes balances ∧
      db' = { db with userLikes := likes, userConsumableBalances := balances } := by
  unfold releaseLike at h
  split at h
  next hskip =>
    obtain rfl := pure_eq_ok_iff.1 h
    exact ⟨_, _, ⟨fun _ => rfl, fun hother => absurd hskip hother, by simp [hskip], id⟩, rfl⟩
  next hskip =>
    by_cases hsuperlike : action.action = .superlike
    · simp only [hsuperlike, if_true, bind_eq_ok_iff, require_eq_ok_iff, pure_eq_ok_iff] at h
      obtain ⟨-, -, rfl⟩ := h
      refine ⟨_, _, ⟨fun hskip' => absurd hskip' hskip, fun _ => rfl, ?_, ?_⟩, rfl⟩
      · -- Giving back one superlike is the upsert that billing uses, for one credit.
        intro user credit
        have hcredited := (creditedBy_upsert action.actorUserId
          { superLikeCredits := 1, boostCredits := 0 } db.userConsumableBalances).credits
          user credit
        simp only [add_zero] at hcredited
        rw [hcredited]
        by_cases huser : user = action.actorUserId
        · cases credit <;> simp [huser, hsuperlike, ConsumableUnits.of]
        · simp [huser]
      · intro hunique
        exact hunique.upsert fun _ => rfl
    · simp only [hsuperlike, if_false, pure_eq_ok_iff] at h
      subst h
      exact ⟨_, _, ⟨fun hskip' => absurd hskip' hskip, fun _ => rfl, by simp [hsuperlike], id⟩, rfl⟩

/-- The actions after one of them was reverted. -/
def revertedActions (action : MatchAction) (now : Timestamp) (db : Database) : List MatchAction :=
  updateWhere (fun row => row.id = action.id ∧ row.revertedAt = none)
    (fun row => { row with revertedAt := some now }) db.matchActions

/-- A successful undo finds nothing to undo, or reverts an active action of the
user on someone the user has no match with. -/
theorem undoLastAction_cases {tie : ℕ} {now : Timestamp} {result : Option MatchAction}
    (h : undoLastAction userId tie now db = .ok (result, db')) :
    (lastAction userId tie db = none ∧ result = none ∧ db' = db) ∨
      ∃ action likes balances,
        action ∈ db.matchActions ∧ action.actorUserId = userId ∧ action.revertedAt = none ∧
        findMatch (orderedMatchingPair action.actorUserId.toUuidText
          action.targetUserId.toUuidText) db = none ∧
        result = some { action with revertedAt := some now } ∧
        Released action db likes balances ∧
        db' = { db with
          matchActions := revertedActions action now db
          userLikes := likes
          userConsumableBalances := balances } := by
  unfold undoLastAction at h
  cases hlast : lastAction userId tie db with
  | none =>
      simp only [hlast, pure_eq_ok_iff, Prod.mk.injEq] at h
      exact Or.inl ⟨rfl, h.1.symm, h.2.symm⟩
  | some action =>
      simp only [hlast, bind_eq_ok_iff, throwIf_eq_ok_iff, pure_eq_ok_iff, not_ne_iff,
        Prod.mk.injEq] at h
      obtain ⟨-, hmatch, released, hreleased, rfl, rfl⟩ := h
      obtain ⟨likes, balances, hspec, rfl⟩ := releaseLike_ok hreleased
      obtain ⟨hmem, hactive⟩ := List.mem_filter.1 (mem_of_latest hlast)
      have hactive' : action.actorUserId = userId ∧ action.revertedAt = none := by
        simpa using hactive
      exact Or.inr ⟨action, likes, balances, hmem, hactive'.1, hactive'.2, hmatch, rfl,
        ⟨hspec.skip, hspec.like, hspec.credits, hspec.unique⟩, rfl⟩

/-! ### Boosts -/

/-- A successful boost takes one credit and stores one boost. -/
theorem activateBoost_writes {now : Timestamp} {result : BoostResult}
    (h : activateBoost userId now db = .ok (result, db')) :
    ∃ balances boost, boost.userId = userId ∧
      (UniqueKey ConsumableBalance.userId db.userConsumableBalances →
        ChargedOne userId .boost db.userConsumableBalances balances) ∧
      db' = { db with
        userConsumableBalances := balances
        userBoosts := db.userBoosts ++ [boost] } := by
  unfold activateBoost at h
  cases hcharged : returning (hasBoost userId) takeBoost db.userConsumableBalances with
  | nil =>
      simp only [hcharged] at h
      cases h
  | cons balance rest =>
      simp only [hcharged, bind_eq_ok_iff, pure_eq_ok_iff, Prod.mk.injEq] at h
      obtain ⟨-, -, -, rfl⟩ := h
      exact ⟨_, { userId, startsAt := now, endsAt := now + boostDuration }, rfl,
        fun hunique => chargedOne_boost hunique (by simp [hcharged]), rfl⟩

end ChatTea.Matching
