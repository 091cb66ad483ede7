import ChatTea.Billing.Access
import ChatTea.Users.Repository

/-!
# Purchases of an erased account

The store keeps sending events after an account was erased, and the row of the
account stays, with `deletedAt` set, for the events to refer to. This file says
exactly which requests leave the subscriptions, the balance and the
notifications of the user as they are: those that are idle on the state they
find.

## Main definitions

* `ErasedAccount` — the account of a user was erased
* `Untouched` — the rows of a user in the three tables are the same
* `Idle`, `Inert` — details, and requests, that leave them so
* `webhookRun` — the database after a sequence of requests

## Main results

* `erasedAccount_of_anonymized` — what `anonymizeDeletedAccount` leaves
* `untouched_iff_inert` — one request
* `erased_untouched_iff` — a sequence of requests
-/

namespace ChatTea.Billing

open Notification Table Transaction

/-! ### The state after an erasure -/

def subscriptionsOf (user : Uuid) (db : Database) : List UserSubscription :=
  db.userSubscriptions.filter fun row => row.userId = user

def balancesOf (user : Uuid) (db : Database) : List ConsumableBalance :=
  db.userConsumableBalances.filter fun row => row.userId = user

def notificationsOf (user : Uuid) (db : Database) : List ChatTea.Notification :=
  db.notifications.filter fun row => row.userId = user

/-- The account of a user was erased. The other fields hold of every state that
the service reaches: they are the keys of the billing tables. -/
structure ErasedAccount (user : Uuid) (db : Database) : Prop where
  deleted : ∃ row ∈ db.users, row.userId = user ∧ row.deletedAt ≠ none
  ledger : LedgerInvariant db
  unique : UniqueKey UserSubscription.id db.userSubscriptions
  drawn : ∀ row ∈ db.userSubscriptions, row.id < db.nextRowId

/-- The user's subscriptions, balance and notifications are the same. -/
structure Untouched (user : Uuid) (db db' : Database) : Prop where
  subscriptions : subscriptionsOf user db' = subscriptionsOf user db
  balances : balancesOf user db' = balancesOf user db
  notifications : notificationsOf user db' = notificationsOf user db

variable {user : Uuid} {db db' : Database}

theorem ErasedAccount.hasUser (h : ErasedAccount user db) : db.hasUser user := by
  obtain ⟨row, hrow, hid, -⟩ := h.deleted
  exact List.any_eq_true.2 ⟨row, hrow, by simpa using hid⟩

theorem Untouched.refl (user : Uuid) (db : Database) : Untouched user db db := ⟨rfl, rfl, rfl⟩

/-- An erasure removes the rows of the three tables. -/
theorem erasedAccount_of_anonymized {input : Users.DeletionJobInput} {matchRooms : List RowId}
    {done : Unit} (hledger : LedgerInvariant db)
    (hunique : UniqueKey UserSubscription.id db.userSubscriptions)
    (hdrawn : ∀ row ∈ db.userSubscriptions, row.id < db.nextRowId)
    (huser : db.hasUser input.userId)
    (h : Users.writeAnonymized input matchRooms db = .ok (done, db')) :
    ErasedAccount input.userId db' ∧ subscriptionsOf input.userId db' = [] ∧
      balancesOf input.userId db' = [] ∧ notificationsOf input.userId db' = [] := by
  simp only [Users.writeAnonymized, bind_eq_ok_iff, require_eq_ok_iff, pure_eq_ok_iff, exists_const,
    Upload.writeUploads_eq_ok_iff] at h
  obtain ⟨written, ⟨-, rfl⟩, -, hafter⟩ := h
  obtain ⟨-, rfl⟩ := Prod.mk.inj hafter
  obtain ⟨row, hrow, hid⟩ := List.any_eq_true.1 huser
  have howner : (Users.anonymizeColumns input.now row).userId = input.userId := by
    simpa [Users.anonymizeColumns] using hid
  refine ⟨⟨⟨Users.anonymizeColumns input.now row, ?_, howner, Option.some_ne_none _⟩,
    hledger.of_eq rfl rfl rfl le_rfl, ?_, ?_⟩, ?_, ?_, ?_⟩
  · exact mem_updateWhere.2 (Or.inl ⟨row, hrow, hid, rfl⟩)
  · exact List.Nodup.sublist (List.filter_sublist.map _) hunique
  · exact fun row hrow => hdrawn row (List.mem_of_mem_filter hrow)
  all_goals
    apply List.filter_eq_nil_iff.2
    intro row hrow
    simpa using (List.mem_filter.1 hrow).2

/-! ### What an event asks for -/

/-- A notification of a purchase is for its owner, under a short title. -/
def Announces (userId : UuidText) (notification : Option CreateNotificationInput) : Prop :=
  ∀ input ∈ notification, input.userId = userId ∧ input.title.length ≤ 80

/-- What the call of an accepted event may be. -/
inductive Requested : WebhookCall → Prop
  | recorded {call} (detail : call.input.detail = .recorded) (silent : call.notification = none) :
      Requested call
  | subscription {call userId subscription}
      (detail : call.input.detail = .subscription userId subscription)
      (timed : 0 ≤ subscription.eventTimestampMs)
      (announces : Announces userId call.notification) : Requested call
  | transition {call transition} (detail : call.input.detail = .consumableTransition transition)
      (units : transition.units.Present)
      (granting : call.notification.isSome ↔ transition.targetState = .granted)
      (announces : Announces transition.userId call.notification) : Requested call

/-- The titles of the notifications fit their column. -/
theorem title_length {product : BillingProduct} {productId : Text}
    (hfound : findProduct productId = .ok product) :
    (product.name ++ "을 시작했어요").length ≤ 80 ∧ (product.name ++ "을 준비했어요").length ≤ 80 := by
  have hall : ∀ sold ∈ billingProducts,
      (sold.name ++ "을 시작했어요").length ≤ 80 ∧ (sold.name ++ "을 준비했어요").length ≤ 80 := by
    decide +kernel
  exact hall product (mem_of_findProduct hfound)

theorem Asks.requested {event : RevenueCatEvent} {eventId eventType payloadHash : String}
    {now : Timestamp} {call : WebhookCall} (h : Asks event eventId eventType payloadHash now call) :
    Requested call := by
  cases h with
  | recorded => exact .recorded rfl rfl
  | @subscription userId productId product planId status _ _ _ hfound _ _ hasked =>
      obtain ⟨originalTransactionId, -, hasked⟩ := bind_eq_ok_iff.1 hasked
      obtain ⟨eventTimestampMs, -, hasked⟩ := bind_eq_ok_iff.1 hasked
      obtain rfl := pure_eq_ok_iff.1 hasked
      refine .subscription rfl (Int.natCast_nonneg _) ?_
      intro input hinput
      dsimp only at hinput
      split at hinput
      · obtain rfl := Option.mem_some.1 hinput
        exact ⟨rfl, (title_length hfound).1⟩
      · cases hinput
  | @consumable userId productId product targetState _ _ _ hfound hkind _ hasked =>
      obtain ⟨transactionId, -, hasked⟩ := bind_eq_ok_iff.1 hasked
      obtain ⟨originalTransactionId, -, hasked⟩ := bind_eq_ok_iff.1 hasked
      obtain ⟨eventTimestampMs, -, hasked⟩ := bind_eq_ok_iff.1 hasked
      obtain rfl := pure_eq_ok_iff.1 hasked
      refine .transition rfl ?_ ?_ ?_
      · cases hproduct : product.kind with
        | subscription planId => exact absurd hproduct (hkind planId)
        | boost => simp [ConsumableUnits.Present]
        | superlike => simp [ConsumableUnits.Present]
      · by_cases hgranted : targetState = .granted <;> simp [hgranted]
      · intro input hinput
        dsimp only at hinput
        split at hinput
        · obtain rfl := Option.mem_some.1 hinput
          exact ⟨rfl, (title_length hfound).2⟩
        · cases hinput

theorem requested_of_webhookCall {config : WebhookConfig} {event : RevenueCatEvent}
    {payloadHash : String} {now : Timestamp} {call : WebhookCall}
    (h : webhookCall config event payloadHash now = .ok call) : Requested call := by
  obtain ⟨id, eventType, -, -, hasks⟩ := webhookCall_asks h
  exact hasks.requested

theorem requested_of_request {config : WebhookConfig} {request : WebhookRequest}
    {call : WebhookCall} (h : requestedCall config request = .ok call) : Requested call := by
  obtain ⟨-, -, h⟩ := bind_eq_ok_iff.1 h
  obtain ⟨event, -, h⟩ := bind_eq_ok_iff.1 h
  exact requested_of_webhookCall h

/-! ### Requests without effect on a user -/

/-- A detail that leaves the rows of a user as they are. -/
inductive Idle (user : Uuid) (db : Database) : RevenueCatEventDetail → Prop
  | recorded : Idle user db .recorded
  | otherSubscriber {userId subscription} (other : userId.toUuid ≠ user) :
      Idle user db (.subscription userId subscription)
  | staleSubscription {userId subscription}
      (stale : subscription.eventTimestampMs ≤
        ((findSubscription userId.toUuid db).bind (·.providerEventTimestampMs)).getD (-1)) :
      Idle user db (.subscription userId subscription)
  | otherOwner {transition : RevenueCatConsumableTransition}
      (other : transition.userId.toUuid ≠ user) : Idle user db (.consumableTransition transition)
  | conflicting {transition row}
      (stored : findTransaction transition.providerTransactionId db = some row)
      (conflict : SameIdentity row transition →
        row.stateEventTimestampMs = transition.eventTimestampMs ∧
          row.state ≠ transition.targetState) : Idle user db (.consumableTransition transition)
  | staleTransition {transition row}
      (stored : findTransaction transition.providerTransactionId db = some row)
      (stale : transition.eventTimestampMs ≤ row.stateEventTimestampMs) :
      Idle user db (.consumableTransition transition)
  | nothingToRefund {transition} (refund : transition.targetState = .refunded)
      (notGranted : (findTransaction transition.providerTransactionId db).map (·.state) ≠
        some .granted) : Idle user db (.consumableTransition transition)

/-- A request that is refused, repeats a recorded event, or asks for nothing that
concerns the user. -/
def Inert (config : WebhookConfig) (user : Uuid) (request : WebhookRequest) (db : Database) :
    Prop :=
  ∀ call, requestedCall config request = .ok call →
    findBillingEvent call.input.providerEventId db ≠ none ∨ Idle user db call.input.detail

/-! ### What a subscription writes -/

section Subscription

variable {userId : UuidText} {subscription : RevenueCatSubscription} {result : RevenueCatApplyResult}

/-- The event is not newer than the row of its user. -/
def IsStale (userId : UuidText) (subscription : RevenueCatSubscription) (db : Database) : Prop :=
  subscription.eventTimestampMs ≤
    ((findSubscription userId.toUuid db).bind (·.providerEventTimestampMs)).getD (-1)

theorem applySubscription_of_stale (h : IsStale userId subscription db) :
    applySubscription userId subscription db =
      .ok ({ outcome := .stale, effectiveState := none, balanceDelta := zeroDelta }, db) := by
  unfold IsStale at h
  simp only [applySubscription, h, if_true]
  rfl

theorem mem_of_findSubscription {row : UserSubscription}
    (h : findSubscription user db = some row) : row ∈ db.userSubscriptions ∧ row.userId = user := by
  have hfound := List.find?_some h
  simp only [Bool.decide_and, Bool.and_eq_true, decide_eq_true_eq] at hfound
  exact ⟨List.mem_of_find?_eq_some h, hfound.1⟩

/-- An update of the row of one user moves no row to another user. -/
theorem subscriptionsOf_update {current : UserSubscription}
    (hunique : UniqueKey UserSubscription.id db.userSubscriptions)
    (hcurrent : current ∈ db.userSubscriptions) (howner : current.userId = userId.toUuid) :
    subscriptionsOf user (updateSubscription current userId.toUuid subscription db) =
      updateWhere (fun row => row.id = current.id)
        (fun row =>
          { row with
            userId := userId.toUuid
            planId := subscription.planId
            status := subscription.status
            provider := some revenuecat
            providerCustomerId := subscription.providerCustomerId <|> row.providerCustomerId
            providerProductId := some subscription.providerProductId
            providerEventTimestampMs := some subscription.eventTimestampMs
            currentPeriodStartsAt := subscription.startsAt <|> row.currentPeriodStartsAt
            currentPeriodEndsAt := subscription.endsAt <|> row.currentPeriodEndsAt })
        (subscriptionsOf user db) := by
  unfold subscriptionsOf updateSubscription
  rw [filter_updateWhere]
  intro old hold hid
  have hsame : old = current := hunique.eq_of_key hold hcurrent (by simpa using hid)
  simp [hsame, howner]

/-- A subscription of one user leaves the rows of another. -/
theorem applySubscription_frame (hunique : UniqueKey UserSubscription.id db.userSubscriptions)
    (hother : userId.toUuid ≠ user)
    (h : applySubscription userId subscription db = .ok (result, db')) :
    subscriptionsOf user db' = subscriptionsOf user db := by
  by_cases hstale : IsStale userId subscription db
  · rw [applySubscription_of_stale hstale] at h
    obtain ⟨-, rfl⟩ := Prod.mk.inj (Except.ok.inj h)
    rfl
  unfold IsStale at hstale
  cases hfind : findSubscription userId.toUuid db with
  | some current =>
      rw [hfind] at hstale
      simp only [applySubscription, hfind, hstale, if_false, bind_eq_ok_iff, pure_eq_ok_iff,
        Prod.mk.injEq] at h
      obtain ⟨-, rfl, -, rfl⟩ := h
      obtain ⟨hcurrent, howner⟩ := mem_of_findSubscription hfind
      rw [subscriptionsOf_update hunique hcurrent howner]
      apply updateWhere_of_forall_not
      intro old hold hid
      obtain ⟨hmem, hold⟩ := List.mem_filter.1 hold
      have hsame : old = current := hunique.eq_of_key hmem hcurrent (by simpa using hid)
      apply hother
      rw [← howner, ← hsame]
      simpa using hold
  | none =>
      rw [hfind] at hstale
      simp only [applySubscription, hfind, hstale, if_false, insertSubscription, bind_eq_ok_iff,
        pure_eq_ok_iff, Prod.mk.injEq] at h
      obtain ⟨-, ⟨-, -, rfl⟩, -, rfl⟩ := h
      simp [subscriptionsOf, hother]

/-- A subscription that is not stale changes the rows of its user. -/
theorem applySubscription_touches (hunique : UniqueKey UserSubscription.id db.userSubscriptions)
    (haccount : db.hasUser userId.toUuid) (hstale : ¬ IsStale userId subscription db) :
    ∃ result db', applySubscription userId subscription db = .ok (result, db') ∧
      result.outcome = .applied ∧
      subscriptionsOf userId.toUuid db' ≠ subscriptionsOf userId.toUuid db := by
  unfold IsStale at hstale
  cases hfind : findSubscription userId.toUuid db with
  | some current =>
      rw [hfind] at hstale
      obtain ⟨hcurrent, howner⟩ := mem_of_findSubscription hfind
      simp only [applySubscription, hfind, hstale, if_false]
      refine ⟨_, _, rfl, rfl, ?_⟩
      intro hsame
      rw [subscriptionsOf_update hunique hcurrent howner] at hsame
      have hmem : current ∈ subscriptionsOf userId.toUuid db :=
        List.mem_filter.2 ⟨hcurrent, by simpa using howner⟩
      have hrow := eq_of_updateWhere_eq hsame hmem (by simp)
      have htime : some subscription.eventTimestampMs = current.providerEventTimestampMs :=
        congrArg UserSubscription.providerEventTimestampMs hrow
      rw [Option.bind_some, ← htime] at hstale
      exact hstale le_rfl
  | none =>
      rw [hfind] at hstale
      simp only [applySubscription, hfind, hstale, if_false, insertSubscription,
        require_of haccount]
      refine ⟨_, _, rfl, rfl, ?_⟩
      intro hsame
      have hlength := congrArg List.length hsame
      simp [subscriptionsOf] at hlength

/-- A subscription keeps the keys of its table. -/
theorem applySubscription_keys (hunique : UniqueKey UserSubscription.id db.userSubscriptions)
    (hdrawn : ∀ row ∈ db.userSubscriptions, row.id < db.nextRowId)
    (h : applySubscription userId subscription db = .ok (result, db')) :
    db'.users = db.users ∧ UniqueKey UserSubscription.id db'.userSubscriptions ∧
      ∀ row ∈ db'.userSubscriptions, row.id < db'.nextRowId := by
  by_cases hstale : IsStale userId subscription db
  · rw [applySubscription_of_stale hstale] at h
    obtain ⟨-, rfl⟩ := Prod.mk.inj (Except.ok.inj h)
    exact ⟨rfl, hunique, hdrawn⟩
  unfold IsStale at hstale
  cases hfind : findSubscription userId.toUuid db with
  | some current =>
      rw [hfind] at hstale
      simp only [applySubscription, hfind, hstale, if_false, bind_eq_ok_iff, pure_eq_ok_iff,
        Prod.mk.injEq] at h
      obtain ⟨-, rfl, -, rfl⟩ := h
      refine ⟨rfl, hunique.updateWhere fun _ => rfl, ?_⟩
      intro row hrow
      rcases mem_updateWhere.1 hrow with ⟨old, hold, -, rfl⟩ | ⟨hold, -⟩
      · exact hdrawn old hold
      · exact hdrawn row hold
  | none =>
      rw [hfind] at hstale
      simp only [applySubscription, hfind, hstale, if_false, insertSubscription, bind_eq_ok_iff,
        pure_eq_ok_iff, Prod.mk.injEq] at h
      obtain ⟨-, ⟨-, -, rfl⟩, -, rfl⟩ := h
      refine ⟨rfl, hunique.append fun row hrow => Nat.ne_of_lt (hdrawn row hrow), ?_⟩
      intro row hrow
      rcases List.mem_append.1 hrow with hold | hnew
      · exact Nat.lt_succ_of_lt (hdrawn row hold)
      · rw [List.mem_singleton.1 hnew]
        exact Nat.lt_succ_self _

end Subscription

/-! ### What a transition writes -/

section Transition

variable {userId : Uuid} {delta : ConsumableUnits} {providerEventId : String}
  {transition : RevenueCatConsumableTransition} {result : RevenueCatApplyResult}

theorem addConsumables_zero {db'' : Database} (h : addConsumables userId zeroDelta db = .ok db'') :
    db'' = db :=
  (pure_eq_ok_iff.1 h).symm

/-- Credits of one user leave the rows of another. -/
theorem addConsumables_frame (hother : userId ≠ user) (h : addConsumables userId delta db = .ok db') :
    balancesOf user db' = balancesOf user db := by
  unfold addConsumables at h
  split at h
  next =>
    obtain rfl := pure_eq_ok_iff.1 h
    rfl
  next =>
    obtain ⟨-, -, h⟩ := bind_eq_ok_iff.1 h
    obtain rfl := pure_eq_ok_iff.1 h
    unfold balancesOf upsert
    split
    · rw [filter_updateWhere]
      · apply updateWhere_of_forall_not
        intro old hold hid
        obtain ⟨-, hold⟩ := List.mem_filter.1 hold
        apply hother
        rw [← show old.userId = userId by simpa using hid]
        simpa using hold
      · intro old _ _
        rfl
    · simp [hother]

/-- Credits other than zero change the rows of their user. -/
theorem addConsumables_touches (hdelta : delta ≠ zeroDelta)
    (h : addConsumables userId delta db = .ok db') :
    balancesOf userId db' ≠ balancesOf userId db := by
  have hsome : ¬ (delta.superLikeCredits = 0 ∧ delta.boostCredits = 0) := by
    rintro ⟨hsuperLike, hboost⟩
    apply hdelta
    cases delta
    simp only at hsuperLike hboost
    simp [zeroDelta, hsuperLike, hboost]
  unfold addConsumables at h
  rw [if_neg hsome] at h
  obtain ⟨-, -, h⟩ := bind_eq_ok_iff.1 h
  obtain rfl := pure_eq_ok_iff.1 h
  intro hsame
  unfold balancesOf upsert at hsame
  split at hsame
  next hany =>
    obtain ⟨row, hrow, hid⟩ := List.any_eq_true.1 hany
    simp only at hsame
    rw [filter_updateWhere (by intros; rfl)] at hsame
    have hrow := eq_of_updateWhere_eq hsame (List.mem_filter.2 ⟨hrow, hid⟩) hid
    have hsuperLike := congrArg ConsumableBalance.superLikeCredits hrow
    have hboost := congrArg ConsumableBalance.boostCredits hrow
    simp only [add_eq_left] at hsuperLike hboost
    exact hsome ⟨hsuperLike, hboost⟩
  next =>
    have hlength := congrArg List.length hsame
    simp at hlength

/-- A successful transition credits its owner with its delta, and is applied unless
it is stale. -/
theorem transition_credited
    (h : applyConsumableTransition providerEventId transition db = .ok (result, db')) :
    (∃ mid mid', mid.userConsumableBalances = db.userConsumableBalances ∧
      addConsumables transition.userId.toUuid result.balanceDelta mid = .ok mid' ∧
      db'.userConsumableBalances = mid'.userConsumableBalances) ∧
    db'.userSubscriptions = db.userSubscriptions ∧ db'.notifications = db.notifications ∧
    result.outcome = if (findTransaction transition.providerTransactionId db).any fun row =>
        transition.eventTimestampMs ≤ row.stateEventTimestampMs then .stale else .applied := by
  unfold applyConsumableTransition at h
  cases hfind : findTransaction transition.providerTransactionId db with
  | none =>
      simp only [hfind, Option.any_none, Option.map_none, Bool.false_eq_true, if_false,
        bind_eq_ok_iff, pure_eq_ok_iff, Prod.mk.injEq] at h
      obtain ⟨created, hcreated, credited, hcredited, logged, hlogged, rfl, rfl⟩ := h
      obtain ⟨-, -, rfl⟩ := insertTransaction_ok_iff.1 hcreated
      obtain ⟨-, rfl⟩ := insertLedgerEntry_ok_iff.1 hlogged
      obtain ⟨balances, -, hwritten⟩ := addConsumables_ok hcredited
      refine ⟨⟨_, credited, ?_, hcredited, rfl⟩, ?_⟩
      · rfl
      · subst hwritten
        exact ⟨rfl, rfl, rfl⟩
  | some current =>
      by_cases hstale : transition.eventTimestampMs ≤ current.stateEventTimestampMs
      · simp only [hfind, Option.any_some, Option.map_some, hstale, decide_true, if_true,
          bind_eq_ok_iff, pure_eq_ok_iff, Prod.mk.injEq] at h
        obtain ⟨-, -, -, -, target, rfl, credited, hcredited, logged, hlogged, rfl, rfl⟩ := h
        obtain ⟨-, rfl⟩ := insertLedgerEntry_ok_iff.1 hlogged
        obtain ⟨balances, -, hwritten⟩ := addConsumables_ok hcredited
        refine ⟨⟨_, credited, ?_, hcredited, rfl⟩, ?_⟩
        · rfl
        · subst hwritten
          exact ⟨rfl, rfl, by simp [hstale]⟩
      · simp only [hfind, Option.any_some, Option.map_some, hstale, decide_false,
          Bool.false_eq_true, if_false, bind_eq_ok_iff, pure_eq_ok_iff, Prod.mk.injEq] at h
        obtain ⟨-, -, -, -, target, rfl, credited, hcredited, logged, hlogged, rfl, rfl⟩ := h
        obtain ⟨-, rfl⟩ := insertLedgerEntry_ok_iff.1 hlogged
        obtain ⟨balances, -, hwritten⟩ := addConsumables_ok hcredited
        refine ⟨⟨_, credited, ?_, hcredited, rfl⟩, ?_⟩
        · rfl
        · subst hwritten
          exact ⟨rfl, rfl, by simp [hstale]⟩

/-- A transition of one user leaves the balance of another. -/
theorem transition_frame_balances (hother : transition.userId.toUuid ≠ user)
    (h : applyConsumableTransition providerEventId transition db = .ok (result, db')) :
    balancesOf user db' = balancesOf user db := by
  obtain ⟨⟨mid, mid', hmid, hcredited, hwritten⟩, -⟩ := transition_credited h
  have hframe := addConsumables_frame hother hcredited
  unfold balancesOf at hframe ⊢
  rw [hwritten, hframe, hmid]

/-- A transition without a delta leaves all balances. -/
theorem transition_zero (hdelta : result.balanceDelta = zeroDelta)
    (h : applyConsumableTransition providerEventId transition db = .ok (result, db')) :
    db'.userConsumableBalances = db.userConsumableBalances := by
  obtain ⟨⟨mid, mid', hmid, hcredited, hwritten⟩, -⟩ := transition_credited h
  rw [hdelta] at hcredited
  rw [hwritten, addConsumables_zero hcredited, hmid]

/-- Taking back units that are present takes something back. -/
theorem refundDelta_ne_zero {units : ConsumableUnits} (hunits : units.Present) :
    transitionDelta (some .granted) .refunded units ≠ zeroDelta := by
  intro hzero
  have hsuperLike := congrArg ConsumableUnits.superLikeCredits hzero
  have hboost := congrArg ConsumableUnits.boostCredits hzero
  simp only [transitionDelta, zeroDelta] at hsuperLike hboost
  obtain ⟨-, hpresent⟩ := hunits
  simp at hsuperLike hboost
  omega

/-- A transition with a delta changes the balance of its owner. -/
theorem transition_touches (hdelta : result.balanceDelta ≠ zeroDelta)
    (h : applyConsumableTransition providerEventId transition db = .ok (result, db')) :
    balancesOf transition.userId.toUuid db' ≠ balancesOf transition.userId.toUuid db := by
  obtain ⟨⟨mid, mid', hmid, hcredited, hwritten⟩, -⟩ := transition_credited h
  have htouches := addConsumables_touches hdelta hcredited
  unfold balancesOf at htouches ⊢
  rwa [hwritten, ← hmid]

end Transition

/-! ### What the notification writes -/

section Notice

variable {input : CreateNotificationInput} {enqueuePush : Bool} {now : Timestamp}

/-- The database after a notification was tried. -/
def notified (input : CreateNotificationInput) (enqueuePush : Bool) (now : Timestamp)
    (db : Database) : Database :=
  Transaction.commit (createWithPushOutbox input enqueuePush now) db

theorem notified_frame (input : CreateNotificationInput) (enqueuePush : Bool) (now : Timestamp)
    (db : Database) (user : Uuid) : (notified input enqueuePush now db).userSubscriptions =
      db.userSubscriptions ∧
    (notified input enqueuePush now db).userConsumableBalances = db.userConsumableBalances ∧
    (input.userId.toUuid ≠ user →
      notificationsOf user (notified input enqueuePush now db) = notificationsOf user db) := by
  unfold notified
  rcases commit_cases (createWithPushOutbox input enqueuePush now) db with
    ⟨notification, hcall⟩ | ⟨-, hsame⟩
  · obtain ⟨hcreated, pushes, nextRowId, -, hwritten⟩ := createWithPushOutbox_ok hcall
    rw [hwritten]
    refine ⟨rfl, rfl, ?_⟩
    intro hother
    have howner : notification.userId = input.userId.toUuid := by rw [hcreated]; rfl
    simp [notificationsOf, howner, hother]
  · rw [hsame]
    exact ⟨rfl, rfl, fun _ => rfl⟩

theorem notified_touches (enqueuePush : Bool) (now : Timestamp) (haccount : db.hasUser input.userId.toUuid)
    (htitle : input.title.length ≤ 80) :
    notificationsOf input.userId.toUuid (notified input enqueuePush now db) ≠
      notificationsOf input.userId.toUuid db := by
  obtain ⟨notification, after, hcall⟩ :=
    createWithPushOutbox_succeeds enqueuePush now haccount htitle
  obtain ⟨hcreated, pushes, nextRowId, -, hwritten⟩ := createWithPushOutbox_ok hcall
  have howner : notification.userId = input.userId.toUuid := by rw [hcreated]; rfl
  rw [notified, commit_of_ok hcall, hwritten]
  intro hsame
  have hlength := congrArg List.length hsame
  simp [notificationsOf, howner] at hlength

end Notice

/-! ### One request -/

section Request

variable {config : WebhookConfig} {call : WebhookCall} {now : Timestamp}
  {result : RevenueCatApplyResult}

def noFaults : WebhookFaults := ⟨none, none⟩

/-- The database after a call that was refused, silent or announced. -/
theorem runWebhookCall_of_ok (h : applyRevenueCatEvent call.input db = .ok (result, db')) :
    (runWebhookCall config call now noFaults db).2 =
      if result.outcome = .applied then
        call.notification.elim db' fun input => notified input config.pushEnabled now db'
      else db' := by
  have happlied : failing noFaults.billing (applyRevenueCatEvent call.input) db =
      .ok (result, db') := h
  simp only [runWebhookCall, happlied]
  cases hresult : result.outcome with
  | applied =>
      cases call.notification with
      | none => rfl
      | some input => rfl
  | duplicate => rfl
  | stale => rfl

theorem runWebhookCall_of_error {failure : Failure}
    (h : applyRevenueCatEvent call.input db = .error failure) :
    (runWebhookCall config call now noFaults db).2 = db := by
  have hfailed : failing noFaults.billing (applyRevenueCatEvent call.input) db = .error failure := h
  simp only [runWebhookCall, hfailed]

/-- A notification that is not for the user, or none, leaves the user's rows. -/
theorem untouched_of_notified {userId : UuidText} (hother : userId.toUuid ≠ user)
    (hannounces : Announces userId call.notification) (h : Untouched user db db') :
    Untouched user db
      (call.notification.elim db' fun input => notified input config.pushEnabled now db') := by
  cases hinput : call.notification with
  | none => exact h
  | some input =>
      have howner : input.userId.toUuid ≠ user := by
        rw [(hannounces input hinput).1]
        exact hother
      obtain ⟨hsubscriptions, hbalances, hnotifications⟩ :=
        notified_frame input config.pushEnabled now db' user
      refine ⟨?_, ?_, (hnotifications howner).trans h.notifications⟩
      · exact (congrArg (List.filter _) hsubscriptions).trans h.subscriptions
      · exact (congrArg (List.filter _) hbalances).trans h.balances

/-- The conflict of an idle transition makes the call throw. -/
theorem conflict_throws {providerEventId : String} {transition : RevenueCatConsumableTransition}
    {row : RevenueCatTransaction}
    (hstored : findTransaction transition.providerTransactionId db = some row)
    (hconflict : SameIdentity row transition →
      row.stateEventTimestampMs = transition.eventTimestampMs ∧ row.state ≠ transition.targetState) :
    applyConsumableTransition providerEventId transition db ≠ .ok (result, db') := by
  intro h
  obtain ⟨-, hcreates | ⟨current, hadvances⟩ | ⟨current, hignores⟩⟩ :=
    applyConsumableTransition_cases h
  · rw [hcreates.unknown] at hstored
    cases hstored
  · obtain rfl := Option.some.inj (hadvances.known.symm.trans hstored)
    have htime := (hconflict hadvances.identity).1
    have hnewer := hadvances.newer
    omega
  · obtain rfl := Option.some.inj (hignores.known.symm.trans hstored)
    obtain ⟨htime, hstate⟩ := hconflict hignores.identity
    exact hstate (hignores.consistent htime)

/-- What an idle transition leaves as it is. -/
theorem transition_untouched {transition : RevenueCatConsumableTransition}
    (hidle : Idle user db (.consumableTransition transition))
    (hgranting : call.notification.isSome ↔ transition.targetState = .granted)
    (hannounces : Announces transition.userId call.notification)
    (h : applyConsumableTransition call.input.providerEventId transition
      (recordEvent call.input db) = .ok (result, db')) :
    Untouched user db
      (if result.outcome = .applied then
        call.notification.elim db' fun input => notified input config.pushEnabled now db'
      else db') := by
  obtain ⟨-, hsubscriptions, hnotifications, houtcome⟩ := transition_credited h
  have hframe : ∀ balances : balancesOf user db' = balancesOf user db, Untouched user db db' :=
    fun balances => ⟨congrArg (List.filter _) hsubscriptions, balances,
      congrArg (List.filter _) hnotifications⟩
  cases hidle with
  | otherOwner hother =>
      have hbalances := transition_frame_balances hother h
      have huntouched := hframe hbalances
      split
      · exact untouched_of_notified hother hannounces huntouched
      · exact huntouched
  | conflicting hstored hconflict => exact absurd h (conflict_throws hstored hconflict)
  | @staleTransition _ row hstored hstale =>
      have hfound : findTransaction transition.providerTransactionId (recordEvent call.input db) =
          some row := hstored
      rw [hfound] at houtcome
      simp only [Option.any_some, hstale, decide_true, if_true] at houtcome
      rw [houtcome, if_neg (by decide)]
      apply hframe
      obtain ⟨-, hcreates | ⟨current, hadvances⟩ | ⟨current, hignores⟩⟩ :=
        applyConsumableTransition_cases h
      · rw [hcreates.unknown] at hfound
        cases hfound
      · obtain rfl := Option.some.inj (hadvances.known.symm.trans hfound)
        have hnewer := hadvances.newer
        omega
      · have hzero := transition_zero hignores.delta h
        exact congrArg (List.filter _) hzero
  | nothingToRefund hrefund hungranted =>
      -- A refund announces nothing, and takes nothing back.
      have hsilent : call.notification = none := by
        rw [← Option.not_isSome_iff_eq_none, hgranting, hrefund]
        decide
      have hdelta : result.balanceDelta = zeroDelta := by
        obtain ⟨-, hcreates | ⟨current, hadvances⟩ | ⟨current, hignores⟩⟩ :=
          applyConsumableTransition_cases h
        · rw [hcreates.delta, hrefund]
          rfl
        · have hstored : findTransaction transition.providerTransactionId db = some current :=
            hadvances.known
          have hstate : current.state ≠ .granted := by
            simpa [hstored] using hungranted
          rw [hadvances.delta, hrefund]
          cases hcurrent : current.state with
          | granted => exact absurd hcurrent hstate
          | refunded => rfl
        · exact hignores.delta
      have hzero := transition_zero hdelta h
      have huntouched := hframe (congrArg (List.filter _) hzero)
      rw [hsilent]
      split <;> exact huntouched

/-- A recorded event is a duplicate, if it does not conflict. -/
theorem duplicate_of_known (hknown : findBillingEvent call.input.providerEventId db ≠ none)
    (h : applyRevenueCatEvent call.input db = .ok (result, db')) :
    result.outcome = .duplicate ∧ db' = db := by
  obtain ⟨event, hevent⟩ := Option.ne_none_iff_exists'.1 hknown
  simp only [applyRevenueCatEvent, hevent] at h
  split at h
  · cases h
  · obtain ⟨rfl, rfl⟩ := Prod.mk.inj (Except.ok.inj h)
    exact ⟨rfl, rfl⟩

theorem applyRevenueCatEvent_of_unknown {input : RevenueCatEventInput}
    (hunknown : findBillingEvent input.providerEventId db = none) :
    applyRevenueCatEvent input db =
      match input.detail with
      | .subscription userId subscription =>
          applySubscription userId subscription (recordEvent input db)
      | .consumableTransition transition =>
          applyConsumableTransition input.providerEventId transition (recordEvent input db)
      | .recorded =>
          .ok ({ outcome := .applied, effectiveState := none, balanceDelta := zeroDelta },
            recordEvent input db) := by
  cases hdetail : input.detail <;> simp only [applyRevenueCatEvent, hunknown, hdetail]

/-- What an idle subscription leaves as it is. -/
theorem subscription_untouched {userId : UuidText} {subscription : RevenueCatSubscription}
    (hunique : UniqueKey UserSubscription.id db.userSubscriptions)
    (hidle : Idle user db (.subscription userId subscription))
    (hannounces : Announces userId call.notification)
    (h : applySubscription userId subscription (recordEvent call.input db) = .ok (result, db')) :
    Untouched user db
      (if result.outcome = .applied then
        call.notification.elim db' fun input => notified input config.pushEnabled now db'
      else db') := by
  cases hidle with
  | otherSubscriber hother =>
      have hkeys : UniqueKey UserSubscription.id (recordEvent call.input db).userSubscriptions :=
        hunique
      have hsubscriptions := applySubscription_frame hkeys hother h
      obtain ⟨rows, nextRowId, -, rfl⟩ := applySubscription_writes h
      have huntouched : Untouched user db _ := ⟨hsubscriptions, rfl, rfl⟩
      split
      · exact untouched_of_notified hother hannounces huntouched
      · exact huntouched
  | staleSubscription hstale =>
      have hstored : IsStale userId subscription (recordEvent call.input db) := hstale
      rw [applySubscription_of_stale hstored] at h
      obtain ⟨rfl, rfl⟩ := Prod.mk.inj (Except.ok.inj h)
      exact ⟨rfl, rfl, rfl⟩

theorem untouched_of_inert (hunique : UniqueKey UserSubscription.id db.userSubscriptions)
    (hrequested : Requested call)
    (hinert : findBillingEvent call.input.providerEventId db ≠ none ∨
      Idle user db call.input.detail) :
    Untouched user db (runWebhookCall config call now noFaults db).2 := by
  cases happly : applyRevenueCatEvent call.input db with
  | error failure =>
      rw [runWebhookCall_of_error happly]
      exact .refl user db
  | ok outcome =>
  obtain ⟨result, db'⟩ := outcome
  rw [runWebhookCall_of_ok happly]
  by_cases hknown : findBillingEvent call.input.providerEventId db = none
  · have hidle := hinert.resolve_left (not_not.2 hknown)
    rw [applyRevenueCatEvent_of_unknown hknown] at happly
    cases hrequested with
    | recorded hdetail hsilent =>
        rw [hdetail] at happly
        obtain ⟨-, rfl⟩ := Prod.mk.inj (Except.ok.inj happly)
        rw [hsilent]
        split <;> exact ⟨rfl, rfl, rfl⟩
    | subscription hdetail _ hannounces =>
        rw [hdetail] at happly hidle
        exact subscription_untouched hunique hidle hannounces happly
    | transition hdetail _ hgranting hannounces =>
        rw [hdetail] at happly hidle
        exact transition_untouched hidle hgranting hannounces happly
  · obtain ⟨houtcome, rfl⟩ := duplicate_of_known hknown happly
    rw [houtcome, if_neg (by decide)]
    exact .refl user db'

/-- What is neither repeated nor idle changes a row of the user. -/
theorem touched_of_not_idle (herased : ErasedAccount user db) (hrequested : Requested call)
    (hunknown : findBillingEvent call.input.providerEventId db = none)
    (hbusy : ¬ Idle user db call.input.detail) :
    ¬ Untouched user db (runWebhookCall config call now noFaults db).2 := by
  cases hrequested with
  | recorded hdetail _ =>
      rw [hdetail] at hbusy
      exact absurd .recorded hbusy
  | @subscription userId subscription hdetail _ hannounces =>
      rw [hdetail] at hbusy
      have howner : userId.toUuid = user := by
        by_contra hother
        exact hbusy (.otherSubscriber hother)
      have hstale : ¬ IsStale userId subscription (recordEvent call.input db) :=
        fun hstale => hbusy (.staleSubscription hstale)
      have haccount : (recordEvent call.input db).hasUser userId.toUuid := by
        rw [howner]
        exact herased.hasUser
      have hkeys : UniqueKey UserSubscription.id (recordEvent call.input db).userSubscriptions :=
        herased.unique
      obtain ⟨result, after, hcall, houtcome, htouched⟩ :=
        applySubscription_touches hkeys haccount hstale
      have happly : applyRevenueCatEvent call.input db = .ok (result, after) := by
        rw [applyRevenueCatEvent_of_unknown hunknown, hdetail]
        exact hcall
      rw [runWebhookCall_of_ok happly, if_pos houtcome]
      intro huntouched
      apply htouched
      rw [howner]
      cases hnotification : call.notification with
      | none =>
          rw [hnotification] at huntouched
          exact huntouched.subscriptions
      | some input =>
          rw [hnotification] at huntouched
          have hkept := (notified_frame input config.pushEnabled now after user).1
          exact (congrArg (List.filter _) hkept).symm.trans huntouched.subscriptions
  | @transition transition hdetail hunits hgranting hannounces =>
      rw [hdetail] at hbusy
      have howner : transition.userId.toUuid = user := by
        by_contra hother
        exact hbusy (.otherOwner hother)
      have haccount : (recordEvent call.input db).hasUser transition.userId.toUuid := by
        rw [howner]
        exact herased.hasUser
      have hnew : ∀ row ∈ (recordEvent call.input db).revenueCatTransactionLedger,
          row.providerEventId ≠ call.input.providerEventId := by
        intro row hrow hid
        apply herased.ledger.entries_recorded row hrow
        rwa [hid]
      have hagrees : ∀ current, findTransaction transition.providerTransactionId
          (recordEvent call.input db) = some current → SameIdentity current transition ∧
            (current.stateEventTimestampMs = transition.eventTimestampMs →
              current.state = transition.targetState) := by
        intro current hcurrent
        by_contra hdiffers
        refine hbusy (.conflicting hcurrent fun hidentity => ?_)
        by_contra hsame
        exact hdiffers ⟨hidentity, fun htime => not_ne_iff.1 fun hstate => hsame ⟨htime, hstate⟩⟩
      obtain ⟨result, after, hcall⟩ :=
        applyConsumableTransition_succeeds haccount hnew hunits hagrees
      have happly : applyRevenueCatEvent call.input db = .ok (result, after) := by
        rw [applyRevenueCatEvent_of_unknown hunknown, hdetail]
        exact hcall
      have hfresh : ∀ current, findTransaction transition.providerTransactionId db = some current →
          ¬ transition.eventTimestampMs ≤ current.stateEventTimestampMs :=
        fun current hcurrent hstale => hbusy (.staleTransition hcurrent hstale)
      obtain ⟨-, -, -, houtcome⟩ := transition_credited hcall
      have happlied : result.outcome = .applied := by
        rw [houtcome, if_neg]
        intro hany
        obtain ⟨current, hcurrent, hstale⟩ := (Option.any_eq_true _ _).1 hany
        exact hfresh current hcurrent (by simpa using hstale)
      have hafter : after.hasUser transition.userId.toUuid := by
        rw [Database.hasUser, (transition_frame hcall).1]
        exact haccount
      rw [runWebhookCall_of_ok happly, if_pos happlied]
      intro huntouched
      cases htarget : transition.targetState with
      | granted =>
          -- A grant announces itself, also of what was granted before.
          obtain ⟨input, hinput⟩ := Option.isSome_iff_exists.1 (hgranting.2 htarget)
          obtain ⟨hrecipient, htitle⟩ := hannounces input hinput
          have htouched := notified_touches config.pushEnabled now
            (hrecipient ▸ hafter : after.hasUser input.userId.toUuid) htitle
          rw [hinput] at huntouched
          apply htouched
          rw [hrecipient, howner]
          refine huntouched.notifications.trans ?_
          exact (congrArg (List.filter _) (transition_credited hcall).2.2.1).symm
      | refunded =>
          -- A refund of a granted purchase takes its units back.
          have hsilent : call.notification = none := by
            rw [← Option.not_isSome_iff_eq_none, hgranting, htarget]
            decide
          rw [hsilent] at huntouched
          have hgranted : (findTransaction transition.providerTransactionId db).map (·.state) =
              some .granted := by
            by_contra hnot
            exact hbusy (.nothingToRefund htarget hnot)
          obtain ⟨current, hcurrent, hstate⟩ := Option.map_eq_some_iff.1 hgranted
          have hdelta : result.balanceDelta ≠ zeroDelta := by
            obtain ⟨-, hcreates | ⟨row, hadvances⟩ | ⟨row, hignores⟩⟩ :=
              applyConsumableTransition_cases hcall
            · exact absurd hcurrent (hcreates.unknown ▸ (Option.some_ne_none current).symm)
            · obtain rfl := Option.some.inj (hadvances.known.symm.trans hcurrent)
              rw [hadvances.delta, hstate, htarget]
              exact refundDelta_ne_zero hunits
            · obtain rfl := Option.some.inj (hignores.known.symm.trans hcurrent)
              exact absurd hignores.stale (hfresh row hcurrent)
          apply transition_touches hdelta hcall
          rw [howner]
          exact huntouched.balances

/-- **One request.** It leaves the rows of an erased account as they are exactly
when it is inert. -/
theorem untouched_iff_inert {request : WebhookRequest} (herased : ErasedAccount user db) :
    Untouched user db (handleRevenueCatWebhook config request noFaults db).2 ↔
      Inert config user request db := by
  unfold handleRevenueCatWebhook
  cases hrequest : requestedCall config request with
  | error failure =>
      constructor
      · intro _ call hcall
        rw [hrequest] at hcall
        cases hcall
      · exact fun _ => .refl user db
  | ok call =>
      have hrequested := requested_of_request hrequest
      constructor
      · intro huntouched call' hcall'
        rw [hrequest] at hcall'
        obtain rfl := Except.ok.inj hcall'
        by_contra hbusy
        push Not at hbusy
        exact touched_of_not_idle herased hrequested hbusy.1 hbusy.2 huntouched
      · intro hinert
        exact untouched_of_inert herased.unique hrequested (hinert call hrequest)

end Request

/-! ### A sequence of requests -/

section Run

variable {config : WebhookConfig} {start : Database} {requests : List WebhookRequest}

/-- The database after some requests. -/
def webhookRun (config : WebhookConfig) (requests : List WebhookRequest) (db : Database) : Database :=
  requests.foldl (fun db request => (handleRevenueCatWebhook config request noFaults db).2) db

theorem webhookRun_concat (requests : List WebhookRequest) (request : WebhookRequest) :
    webhookRun config (requests ++ [request]) db =
      (handleRevenueCatWebhook config request noFaults (webhookRun config requests db)).2 := by
  rw [webhookRun, List.foldl_append]
  rfl

/-- What a request does to the billing tables is done by a call of the repository. -/
theorem handle_keeps (Kept : Database → Prop) {request : WebhookRequest} (hdb : Kept db)
    (hcall : ∀ input result after, applyRevenueCatEvent input db = .ok (result, after) → Kept after)
    (hnotified : ∀ input now before, Kept before → Kept (notified input config.pushEnabled now before)) :
    Kept (handleRevenueCatWebhook config request noFaults db).2 := by
  unfold handleRevenueCatWebhook
  cases requestedCall config request with
  | error failure => exact hdb
  | ok call =>
      cases happly : applyRevenueCatEvent call.input db with
      | error failure =>
          rw [runWebhookCall_of_error happly]
          exact hdb
      | ok outcome =>
          obtain ⟨result, after⟩ := outcome
          have hafter := hcall call.input result after happly
          rw [runWebhookCall_of_ok happly]
          split
          · cases call.notification with
            | none => exact hafter
            | some input => exact hnotified input _ after hafter
          · exact hafter

theorem ErasedAccount.notified (h : ErasedAccount user db) (input : CreateNotificationInput)
    (enqueuePush : Bool) (now : Timestamp) :
    ErasedAccount user (Billing.notified input enqueuePush now db) := by
  unfold Billing.notified
  rcases commit_cases (createWithPushOutbox input enqueuePush now) db with
    ⟨notification, hcall⟩ | ⟨-, hsame⟩
  · obtain ⟨-, pushes, nextRowId, hdrawn, hwritten⟩ := createWithPushOutbox_ok hcall
    rw [hwritten]
    exact ⟨h.deleted, h.ledger.of_eq rfl rfl rfl hdrawn, h.unique,
      fun row hrow => lt_of_lt_of_le (h.drawn row hrow) hdrawn⟩
  · rw [hsame]
    exact h

theorem ErasedAccount.apply {input : RevenueCatEventInput} {result : RevenueCatApplyResult}
    (h : ErasedAccount user db) (happly : applyRevenueCatEvent input db = .ok (result, db')) :
    ErasedAccount user db' := by
  have hledger := h.ledger.apply happly
  rcases applyRevenueCatEvent_cases happly with ⟨-, -, rfl⟩ | ⟨-, hdetail⟩
  · exact h
  rcases hdetail with ⟨-, -, rfl⟩ | ⟨userId, subscription, -, hsubscription⟩ |
    ⟨transition, -, htransition⟩
  · exact ⟨h.deleted, hledger, h.unique, h.drawn⟩
  · have hkeys : UniqueKey UserSubscription.id (recordEvent input db).userSubscriptions := h.unique
    obtain ⟨husers, hunique, hdrawn⟩ := applySubscription_keys hkeys h.drawn hsubscription
    exact ⟨husers ▸ h.deleted, hledger, hunique, hdrawn⟩
  · obtain ⟨husers, -⟩ := transition_frame htransition
    obtain ⟨-, hsubscriptions, -⟩ := transition_credited htransition
    have hdrawn := (transition_matching htransition).1.drawn
    refine ⟨husers ▸ h.deleted, hledger, hsubscriptions ▸ h.unique, ?_⟩
    intro row hrow
    rw [hsubscriptions] at hrow
    exact lt_of_lt_of_le (h.drawn row hrow) hdrawn

theorem ErasedAccount.run (h : ErasedAccount user start) (requests : List WebhookRequest) :
    ErasedAccount user (webhookRun config requests start) := by
  induction requests using List.reverseRecOn with
  | nil => exact h
  | append_singleton past request ih =>
      rw [webhookRun_concat]
      apply handle_keeps (ErasedAccount user) ih
      · intro input result after happly
        exact ih.apply happly
      · intro input now before hbefore
        exact hbefore.notified input config.pushEnabled now

/-- **Erased accounts.** No request of a sequence creates or changes a subscription,
a balance or a notification of the user exactly when each is inert on arrival. -/
theorem erased_untouched_iff (herased : ErasedAccount user start) :
    (∀ past request rest, requests = past ++ request :: rest →
        Untouched user (webhookRun config past start)
          (webhookRun config (past ++ [request]) start)) ↔
      ∀ past request rest, requests = past ++ request :: rest →
        Inert config user request (webhookRun config past start) := by
  constructor
  · intro huntouched past request rest hsplit
    have hone := huntouched past request rest hsplit
    rw [webhookRun_concat] at hone
    exact (untouched_iff_inert (herased.run past)).1 hone
  · intro hinert past request rest hsplit
    rw [webhookRun_concat]
    exact (untouched_iff_inert (herased.run past)).2 (hinert past request rest hsplit)

end Run

/-! ### A renewal after the erasure -/

/-- The row of the subscriber after the erasure. -/
def erasedSubscriber : Database :=
  .ofUsers [{ User.visible subscriber.toUuid with deletedAt := some 0 }]

theorem erasedSubscriber_erased : ErasedAccount subscriber.toUuid erasedSubscriber where
  deleted := ⟨_, List.mem_singleton_self _, rfl, Option.some_ne_none _⟩
  ledger := by
    constructor <;> simp [erasedSubscriber, Database.ofUsers, UniqueKey]
  unique := List.nodup_nil
  drawn := by simp [erasedSubscriber, Database.ofUsers]

/-- A signed request with an event of the gold plan. -/
def planRequest (owner : UuidText) (id type : String) : WebhookRequest where
  rawBody := []
  signature := some ("t=0,v1=".toList ++ List.replicate 64 '0')
  payload := .record
    [("id", .string id.toList), ("type", .string type.toList),
      ("event_timestamp_ms", .integer 1), ("app_user_id", .string owner.text),
      ("product_id", .string "chattea_gold_monthly".toList),
      ("original_transaction_id", .string "gold".toList), ("expiration_at_ms", .integer 1000)]
  now := 0

def goldRequest (type : String) : WebhookRequest := planRequest subscriber "event-1" type

/-- Someone who has not left. -/
def neighbour : UuidText where
  text := "b0000000-0000-4000-8000-0000000000e2".toList
  wellFormed := by decide

def besideNeighbour : Database :=
  .ofUsers [{ User.visible subscriber.toUuid with deletedAt := some 0 }, .visible neighbour.toUuid]

theorem besideNeighbour_erased : ErasedAccount subscriber.toUuid besideNeighbour where
  deleted := ⟨_, List.mem_cons_self, rfl, Option.some_ne_none _⟩
  ledger := by
    constructor <;> simp [besideNeighbour, Database.ofUsers, UniqueKey]
  unique := List.nodup_nil
  drawn := by simp [besideNeighbour, Database.ofUsers]

/-- The renewal of another account, and an event that is only recorded. -/
def besideRequests : List WebhookRequest :=
  [planRequest neighbour "event-2" "RENEWAL", goldRequest "TEST"]

/-- The other account gets its subscription, and the erased one is left as it is. -/
theorem erased_untouched_beside :
    subscriptionsOf neighbour.toUuid (webhookRun testingWebhook besideRequests besideNeighbour) ≠ [] ∧
      ∀ past request rest, besideRequests = past ++ request :: rest →
        Untouched subscriber.toUuid (webhookRun testingWebhook past besideNeighbour)
          (webhookRun testingWebhook (past ++ [request]) besideNeighbour) := by
  have hrenewal : ∃ call, requestedCall testingWebhook (planRequest neighbour "event-2" "RENEWAL") =
      .ok call ∧ ∃ subscription, call.input.detail = .subscription neighbour subscription :=
    ⟨_, rfl, _, rfl⟩
  have htest : requestedCall testingWebhook (goldRequest "TEST") =
      .ok (recordedCall "event-1" "") := rfl
  refine ⟨by decide +kernel, (erased_untouched_iff besideNeighbour_erased).2 ?_⟩
  intro past request rest hsplit call hcall
  right
  have hmem : request ∈ besideRequests := by
    rw [hsplit]
    exact List.mem_append_right _ List.mem_cons_self
  rcases List.mem_pair.1 hmem with rfl | rfl
  · obtain ⟨renewal, hasked, subscription, hdetail⟩ := hrenewal
    obtain rfl := Except.ok.inj (hasked.symm.trans hcall)
    rw [hdetail]
    exact .otherSubscriber (by decide)
  · obtain rfl := Except.ok.inj (htest.symm.trans hcall)
    exact .recorded

/-- A renewal gives the erased account a subscription and a notification. -/
theorem renewal_revives :
    ErasedAccount subscriber.toUuid erasedSubscriber ∧
      subscriptionsOf subscriber.toUuid erasedSubscriber = [] ∧
      notificationsOf subscriber.toUuid erasedSubscriber = [] ∧
      subscriptionsOf subscriber.toUuid
        (webhookRun testingWebhook [goldRequest "RENEWAL"] erasedSubscriber) ≠ [] ∧
      notificationsOf subscriber.toUuid
        (webhookRun testingWebhook [goldRequest "RENEWAL"] erasedSubscriber) ≠ [] := by
  refine ⟨erasedSubscriber_erased, rfl, rfl, ?_, ?_⟩ <;> decide +kernel

end ChatTea.Billing
