import ChatTea.Billing.Access
import ChatTea.Lib.Ordered
import ChatTea.Matching.Candidates
import Mathlib

/-!
# The plan of a user, and the plan that others see

`findCurrentSubscription` tells what a user is entitled to, and `withCandidateDetails` which plan
the others are shown. Both read the active rows of the user that have not ended; the first takes
the row that was created last, the second the one that was updated last. A user may have several
such rows, since the constraint on the provider of a user does not see rows without one.

## Main definitions

* `withCandidateDetails` — the candidates with what is shown of them
* `PlansAgree` — the plan shown is the plan the user has
* `NewestAgree` — the rows created last and updated last are of one plan

## Main results

* `plansAgree_iff` — when the plan shown is the plan the user has
-/

namespace ChatTea.Matching

open Billing Ordered Table

/-! ### What is shown of a candidate -/

structure CandidatePhoto where
  url : Text
  position : ℕ
deriving DecidableEq

/-- `CandidateRow`, with the row of the candidate in front. -/
structure CandidateRow where
  user : User
  photos : List CandidatePhoto
  likedByMe : Bool
  planId : PlanId
  boostActive : Bool

/-- The times of the rows of `user_subscriptions`. -/
structure SubscriptionTimes where
  createdAt : RowId → Timestamp
  updatedAt : RowId → Timestamp

/-- The rows that both queries read. -/
def isCurrent (now : Timestamp) (row : UserSubscription) : Bool :=
  row.status = .active ∧ row.currentPeriodEndsAt.all (now < ·)

/-- The first plan of each user. -/
def plansByUser (subscriptions : List UserSubscription) : Uuid → Option PlanId :=
  subscriptions.foldl (fun plans subscription =>
    if (plans subscription.userId).isSome then plans
    else Function.update plans subscription.userId (some subscription.planId)) fun _ => none

/-- The photos of each user, in the order of the rows. -/
def photosByUser (photos : List UserProfilePhoto) : Uuid → List CandidatePhoto :=
  photos.foldl (fun byUser photo => Function.update byUser photo.userId
    (byUser photo.userId ++ [⟨photo.url, photo.position⟩])) fun _ => []

def withCandidateDetails (times : SubscriptionTimes) (ties : Ties UserSubscription)
    (photoTies : Ties UserProfilePhoto) (userId : Uuid) (rows : List User) (now : Timestamp)
    (db : Database) : List CandidateRow :=
  let candidateIds := rows.map (·.userId)
  let subscriptions := orderByDesc ties (fun row => times.updatedAt row.id)
    (db.userSubscriptions.filter fun row => row.userId ∈ candidateIds ∧ isCurrent now row)
  let likes := db.userLikes.filter fun row => row.likerUserId = userId ∧ row.likedUserId ∈ candidateIds
  -- The photos of one user are in the order of their positions.
  let photos := orderByDesc photoTies (fun row => -(row.position : ℤ))
    (db.userProfilePhotos.filter fun row => row.userId ∈ candidateIds)
  let boosts := db.userBoosts.filter fun row => row.userId ∈ candidateIds ∧ now < row.endsAt
  rows.map fun user =>
    { user
      photos := photosByUser photos user.userId
      likedByMe := likes.any fun row => row.likedUserId = user.userId
      planId := (plansByUser subscriptions user.userId).getD .free
      boostActive := boosts.any fun row => row.userId = user.userId }

/-! ### When the two agree -/

/-- Whatever the order of rows of one time, the plan shown of a user is the plan that the user
has. -/
def PlansAgree (times : SubscriptionTimes) (userId : Uuid) (now : Timestamp) (db : Database) : Prop :=
  ∀ tie ties photoTies viewer rows, ∀ shown ∈ withCandidateDetails times ties photoTies viewer rows now db,
    shown.user.userId = userId → shown.planId = currentPlan times.createdAt tie userId now db

/-- A row of the user that both queries read. -/
def IsCurrentOf (userId : Uuid) (now : Timestamp) (db : Database) (row : UserSubscription) : Prop :=
  row ∈ db.userSubscriptions ∧ row.userId = userId ∧ isCurrent now row

/-- An active row that no other one was created after, and one that no other one was updated
after, are of one plan. -/
def NewestAgree (times : SubscriptionTimes) (userId : Uuid) (now : Timestamp) (db : Database) : Prop :=
  ∀ created updated, IsCurrentOf userId now db created → IsCurrentOf userId now db updated →
    (∀ other, IsCurrentOf userId now db other →
      times.createdAt other.id ≤ times.createdAt created.id) →
    (∀ other, IsCurrentOf userId now db other →
      times.updatedAt other.id ≤ times.updatedAt updated.id) →
    created.planId = updated.planId

section Plans

variable {times : SubscriptionTimes} {userId : Uuid} {now : Timestamp} {db : Database}

/-- The plan of a user in the map is that of the first row. -/
theorem plansByUser_eq (subscriptions : List UserSubscription) (userId : Uuid) :
    plansByUser subscriptions userId =
      (subscriptions.find? fun row => row.userId = userId).map (·.planId) := by
  -- The induction is on the rows, for whatever is in the map before them.
  suffices hfold : ∀ plans : Uuid → Option PlanId,
      subscriptions.foldl (fun plans subscription =>
        if (plans subscription.userId).isSome then plans
        else Function.update plans subscription.userId (some subscription.planId)) plans userId =
        (plans userId).or ((subscriptions.find? fun row => row.userId = userId).map (·.planId)) by
    rw [plansByUser, hfold, Option.none_or]
  induction subscriptions with
  | nil => simp
  | cons row rest ih =>
      intro plans
      rw [List.foldl_cons, ih, List.find?_cons]
      by_cases hrow : row.userId = userId
      · subst hrow
        cases hplan : plans row.userId with
        | none => simp
        | some planId => simp [hplan]
      · cases hplan : plans row.userId with
        | none => simp [hrow, Ne.symm hrow]
        | some planId => simp [hrow]

/-- The row that tells the plan a user has. -/
theorem findCurrentSubscription_spec {tie : ℕ} {row : UserSubscription}
    (h : findCurrentSubscription times.createdAt tie userId now db = some row) :
    IsCurrentOf userId now db row ∧ ∀ other, IsCurrentOf userId now db other →
      times.createdAt other.id ≤ times.createdAt row.id := by
  constructor
  · obtain ⟨hmem, hcond⟩ := List.mem_filter.1 (mem_of_latest h)
    simp only [decide_eq_true_eq] at hcond
    exact ⟨hmem, hcond.1, by simp [isCurrent, hcond.2]⟩
  · intro other hother
    apply latest_max h
    apply List.mem_filter.2
    refine ⟨hother.1, ?_⟩
    have hcurrent := hother.2.2
    simp only [isCurrent, decide_eq_true_eq] at hcurrent
    simp [hother.2.1, hcurrent]

theorem mem_currentRows {row : UserSubscription} :
    (row ∈ db.userSubscriptions.filter fun row =>
      row.userId = userId ∧ row.status = .active ∧ row.currentPeriodEndsAt.all (now < ·)) ↔
      IsCurrentOf userId now db row := by
  simp [IsCurrentOf, isCurrent]

/-- The row whose plan the others are shown. -/
def shownSubscription (times : SubscriptionTimes) (ties : Ties UserSubscription)
    (candidateIds : List Uuid) (userId : Uuid) (now : Timestamp) (db : Database) :
    Option UserSubscription :=
  (orderByDesc ties (fun row => times.updatedAt row.id)
    (db.userSubscriptions.filter fun row => row.userId ∈ candidateIds ∧ isCurrent now row)).find?
      fun row => row.userId = userId

theorem shownSubscription_spec {ties : Ties UserSubscription} {candidateIds : List Uuid}
    {row : UserSubscription}
    (h : shownSubscription times ties candidateIds userId now db = some row) :
    IsCurrentOf userId now db row ∧ ∀ other, IsCurrentOf userId now db other →
      times.updatedAt other.id ≤ times.updatedAt row.id := by
  have huser : row.userId = userId := by
    have hfound := List.find?_some h
    simpa using hfound
  obtain ⟨hmem, hcond⟩ := List.mem_filter.1 (mem_orderByDesc.1 (List.mem_of_find?_eq_some h))
  simp only [decide_eq_true_eq] at hcond
  refine ⟨⟨hmem, huser, hcond.2⟩, fun other hother => ?_⟩
  apply find?_orderByDesc_max h _ (decide_eq_true hother.2.1)
  apply List.mem_filter.2
  rw [huser] at hcond
  simp [hother.1, hother.2.1, hother.2.2, hcond.1]

/-- A current row of a candidate is among those that are searched. -/
theorem shownSubscription_eq_none {ties : Ties UserSubscription} {candidateIds : List Uuid}
    (hcandidate : userId ∈ candidateIds) :
    shownSubscription times ties candidateIds userId now db = none ↔
      ∀ row, ¬ IsCurrentOf userId now db row := by
  unfold shownSubscription
  rw [List.find?_eq_none]
  constructor
  · intro h row hrow
    apply h row _ (decide_eq_true hrow.2.1)
    apply mem_orderByDesc.2
    apply List.mem_filter.2
    simp [hrow.1, hrow.2.1, hrow.2.2, hcandidate]
  · intro h row hmem huser
    obtain ⟨hstored, hcond⟩ := List.mem_filter.1 (mem_orderByDesc.1 hmem)
    simp only [decide_eq_true_eq] at hcond huser
    exact h row ⟨hstored, huser, hcond.2⟩

theorem findCurrentSubscription_eq_none {tie : ℕ} :
    findCurrentSubscription times.createdAt tie userId now db = none ↔
      ∀ row, ¬ IsCurrentOf userId now db row := by
  unfold findCurrentSubscription
  rw [latest_eq_none, List.eq_nil_iff_forall_not_mem]
  exact forall_congr' fun row => not_congr mem_currentRows

/-- When the rows created last and updated last are of one plan, that plan is shown. -/
theorem plansAgree_of_newestAgree (h : NewestAgree times userId now db) :
    PlansAgree times userId now db := by
  intro tie ties photoTies viewer rows shown hshown huser
  obtain ⟨user, hrow, rfl⟩ := List.mem_map.1 hshown
  obtain rfl : user.userId = userId := huser
  have hcandidate : user.userId ∈ rows.map (·.userId) := List.mem_map_of_mem hrow
  simp only [plansByUser_eq]
  change ((shownSubscription times ties (rows.map (·.userId)) user.userId now db).map
    (·.planId)).getD .free = _
  unfold currentPlan
  cases hfound : findCurrentSubscription times.createdAt tie user.userId now db with
  | none =>
      have hnone := findCurrentSubscription_eq_none.1 hfound
      rw [(shownSubscription_eq_none hcandidate).2 hnone]
  | some created =>
      obtain ⟨hcreated, hnewest⟩ := findCurrentSubscription_spec hfound
      cases hshownRow : shownSubscription times ties (rows.map (·.userId)) user.userId now db with
      | none => exact absurd hcreated ((shownSubscription_eq_none hcandidate).1 hshownRow created)
      | some updated =>
          obtain ⟨hupdated, hlatest⟩ := shownSubscription_spec hshownRow
          exact (h created updated hcreated hupdated hnewest hlatest).symm

/-- Rows created last and updated last that are of different plans may be the ones that are
found. -/
theorem newestAgree_of_plansAgree (h : PlansAgree times userId now db) :
    NewestAgree times userId now db := by
  intro created updated hcreated hupdated hnewest hlatest
  have htie : ∃ tie, findCurrentSubscription times.createdAt tie userId now db = some created := by
    apply exists_tie (mem_currentRows.2 hcreated)
    exact fun other hother => hnewest other (mem_currentRows.1 hother)
  obtain ⟨tie, htie⟩ := htie
  -- The user alone is looked at, and the row that was updated last comes first.
  have hread : ∀ row, row ∈ (db.userSubscriptions.filter fun row =>
      row.userId ∈ [userId] ∧ isCurrent now row) ↔ IsCurrentOf userId now db row := by
    intro row
    simp [IsCurrentOf]
  have hties : ∃ ties : Ties UserSubscription, (orderByDesc ties (fun row => times.updatedAt row.id)
      (db.userSubscriptions.filter fun row =>
        row.userId ∈ [userId] ∧ isCurrent now row)).head? = some updated := by
    apply exists_ties ((hread updated).2 hupdated)
    exact fun other hother => hlatest other ((hread other).1 hother)
  obtain ⟨ties, hties⟩ := hties
  have hshown := h tie ties .inOrder userId [.visible userId] _ List.mem_cons_self rfl
  simp only [plansByUser_eq] at hshown
  have hfirst : shownSubscription times ties [userId] userId now db = some updated := by
    obtain ⟨rest, hrest⟩ := List.head?_eq_some_iff.1 hties
    rw [shownSubscription, hrest, List.find?_cons, decide_eq_true hupdated.2.1]
  change ((shownSubscription times ties [userId] userId now db).map (·.planId)).getD .free = _
    at hshown
  rw [hfirst, currentPlan, htie] at hshown
  exact hshown.symm

/-- The plan shown of a user is the plan the user has exactly when the rows created last and
updated last are of one plan. -/
theorem plansAgree_iff : PlansAgree times userId now db ↔ NewestAgree times userId now db :=
  ⟨newestAgree_of_plansAgree, plansAgree_of_newestAgree⟩

end Plans

/-! ### Two rows of one user -/

/-- What the constraints of `user_subscriptions` say of the table; a null provider conflicts with
nothing. -/
structure SubscriptionConstraints (db : Database) : Prop where
  ids : UniqueKey (·.id) db.userSubscriptions
  provider : ∀ row ∈ db.userSubscriptions, ∀ row' ∈ db.userSubscriptions,
    row.userId = row'.userId → row.provider = row'.provider → row.provider ≠ none → row = row'
  users : ∀ row ∈ db.userSubscriptions, db.hasUser row.userId

def subscriber : Uuid := ⟨⟨"dddddddd-dddd-4ddd-8ddd-dddddddddddd".toList, by decide⟩, by decide⟩

/-- Bought through the store. -/
def storeRow : UserSubscription where
  id := 1
  userId := subscriber
  planId := .basic
  status := .active
  provider := some "revenuecat"
  providerCustomerId := none
  providerProductId := none
  providerEventTimestampMs := none
  currentPeriodStartsAt := none
  currentPeriodEndsAt := none

/-- Granted without a provider. -/
def grantedRow : UserSubscription := { storeRow with id := 2, planId := .gold, provider := none }

def twoPlans : Database := { Database.ofUsers [.visible subscriber] with
  userSubscriptions := [storeRow, grantedRow] }

/-- The row of the store is renewed after the other one was granted. -/
def renewedLater : SubscriptionTimes where
  createdAt id := if id = 2 then 20 else 10
  updatedAt id := if id = 2 then 20 else 30

/-- The user has the plan that was granted, and is shown with the one that was bought. -/
theorem plans_disagree : SubscriptionConstraints twoPlans ∧
    ¬ PlansAgree renewedLater subscriber 0 twoPlans := by
  constructor
  · have hids : (twoPlans.userSubscriptions.map (·.id)).Nodup := by decide
    exact ⟨hids, by decide, by decide⟩
  · intro h
    have hplan := h 0 .inOrder .inOrder subscriber [.visible subscriber] _ List.mem_cons_self rfl
    exact absurd hplan (by decide)

end ChatTea.Matching
