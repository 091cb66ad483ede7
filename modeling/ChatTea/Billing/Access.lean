import ChatTea.Billing.Webhook
import ChatTea.Lib.Newest

/-!
# Access over several purchases

A user may own several purchases, each an original transaction with events of
its own, such as an upgrade bought before the old plan expires. All of them are
folded into one row of the user, which keeps the newest event of all. This file
determines the plan of the user after any delivery of such events: it is paid
exactly when the newest event of all is an activation and the end that was named
last lies ahead, whatever the other purchases say.

## Main definitions

* `findCurrentSubscription`, `currentPlan` — the plan a user has
* `SubscriptionReceipt` — a subscription event of a user, as it was received
* `Established` — some purchase is paid up, going by its own events
* `keptEnd` — the end of the period that the row keeps

## Main results

* `Follows.step` — one receipt extends what the past determines
* `currentPlan_ne_free_iff` — when the user has a paid plan
* `access_established_iff` — when an established access is granted
-/

namespace ChatTea.Billing

open Newest Table Transaction

/-! ### The plan of a user -/

/-- The newest active row of a user that has not ended. The times at which rows
were created are a parameter, as is the choice among rows of one time. -/
def findCurrentSubscription (createdAt : RowId → Timestamp) (tie : ℕ) (userId : Uuid)
    (now : Timestamp) (db : Database) : Option UserSubscription :=
  latest (fun row => createdAt row.id) tie
    (db.userSubscriptions.filter fun row =>
      row.userId = userId ∧ row.status = .active ∧ row.currentPeriodEndsAt.all (now < ·))

/-- `currentSubscription`. -/
def currentPlan (createdAt : RowId → Timestamp) (tie : ℕ) (userId : Uuid) (now : Timestamp)
    (db : Database) : PlanId :=
  ((findCurrentSubscription createdAt tie userId now db).map (·.planId)).getD .free

/-! ### The events of a user -/

/-- A subscription event of a user, the hash of its body and the clock at its receipt. -/
structure SubscriptionReceipt (config : WebhookConfig) (user : Uuid) where
  event : RevenueCatEvent
  payloadHash : String
  now : Timestamp
  eventId : String
  userId : UuidText
  subscription : RevenueCatSubscription
  notification : Option Notification.CreateNotificationInput
  owner : userId.toUuid = user
  asked : webhookCall config event payloadHash now = .ok
    { input := { providerEventId := eventId, payloadHash, detail := .subscription userId subscription }
      notification }

/-- The parts of a subscription that its event determines, whenever it is received. -/
theorem subscription_of_asks {event : RevenueCatEvent} {eventId eventType payloadHash : String}
    {now : Timestamp} {call : WebhookCall} {userId : UuidText}
    {subscription : RevenueCatSubscription} (h : Asks event eventId eventType payloadHash now call)
    (hdetail : call.input.detail = .subscription userId subscription) :
    ∃ productId product status eventTimestampMs,
      requiredString event.productId "REVENUECAT_PRODUCT_ID_REQUIRED" = .ok productId ∧
      findProduct productId = .ok product ∧
      product.kind = .subscription subscription.planId ∧
      revenueCatSubscriptionStatus eventType = some status ∧ subscription.status = status ∧
      event.eventTimestampMs = some eventTimestampMs ∧
      subscription.eventTimestampMs = (eventTimestampMs : ℤ) ∧
      subscription.endsAt = truthyMs event.expirationAtMs := by
  cases h with
  | recorded => cases hdetail
  | @subscription _ productId product planId status _ _ hnamed hfound hkind hstate hasked =>
      obtain ⟨originalTransactionId, -, hasked⟩ := bind_eq_ok_iff.1 hasked
      obtain ⟨eventTimestampMs, htimestamp, hasked⟩ := bind_eq_ok_iff.1 hasked
      obtain rfl := pure_eq_ok_iff.1 hasked
      obtain ⟨-, rfl⟩ := RevenueCatEventDetail.subscription.inj hdetail
      refine ⟨productId, product, status, eventTimestampMs, hnamed, hfound, hkind, hstate, rfl, ?_,
        rfl, rfl⟩
      cases htime : event.eventTimestampMs with
      | none =>
          rw [htime] at htimestamp
          cases htimestamp
      | some value =>
          rw [htime] at htimestamp
          rw [Except.ok.inj htimestamp]
  | consumable _ _ _ _ _ hasked =>
      obtain ⟨transactionId, -, hasked⟩ := bind_eq_ok_iff.1 hasked
      obtain ⟨originalTransactionId, -, hasked⟩ := bind_eq_ok_iff.1 hasked
      obtain ⟨eventTimestampMs, -, hasked⟩ := bind_eq_ok_iff.1 hasked
      obtain rfl := pure_eq_ok_iff.1 hasked
      cases hdetail

theorem mem_of_findProduct {productId : Text} {product : BillingProduct}
    (hfound : findProduct productId = .ok product) : product ∈ billingProducts := by
  unfold findProduct at hfound
  split at hfound
  next => cases hfound
  next candidate hcandidate =>
    obtain rfl := Except.ok.inj hfound
    exact List.mem_of_find?_eq_some hcandidate

/-- Nobody sells the free plan. -/
theorem planId_ne_free {productId : Text} {product : BillingProduct} {planId : PlanId}
    (hfound : findProduct productId = .ok product) (hkind : product.kind = .subscription planId) :
    planId ≠ .free := by
  have hall : ∀ sold ∈ billingProducts, sold.kind ≠ .subscription .free := by decide
  rintro rfl
  exact hall product (mem_of_findProduct hfound) hkind

namespace SubscriptionReceipt

variable {config : WebhookConfig} {user : Uuid} (receipt : SubscriptionReceipt config user)

/-- The call of the repository that a receipt makes. -/
def input : RevenueCatEventInput where
  providerEventId := receipt.eventId
  payloadHash := receipt.payloadHash
  detail := .subscription receipt.userId receipt.subscription

def timestamp : ℤ := receipt.subscription.eventTimestampMs

def endsAt : Option Timestamp := receipt.subscription.endsAt

theorem asks : ∃ eventId eventType, Asks receipt.event eventId eventType receipt.payloadHash
    receipt.now { input := receipt.input, notification := receipt.notification } := by
  obtain ⟨id, eventType, -, -, hasks⟩ := webhookCall_asks receipt.asked
  exact ⟨String.ofList id, upperCase eventType, hasks⟩

theorem planId_ne_free : receipt.subscription.planId ≠ .free := by
  obtain ⟨eventId, eventType, hasks⟩ := receipt.asks
  obtain ⟨productId, product, -, -, -, hfound, hkind, -⟩ := subscription_of_asks hasks rfl
  exact Billing.planId_ne_free hfound hkind

theorem timestamp_nonneg : 0 ≤ receipt.timestamp := by
  obtain ⟨eventId, eventType, hasks⟩ := receipt.asks
  obtain ⟨-, -, -, eventTimestampMs, -, -, -, -, -, -, htimestamp, -⟩ :=
    subscription_of_asks hasks rfl
  rw [timestamp, htimestamp]
  exact Int.natCast_nonneg _

/-- Two receipts of one event differ in the clock only. -/
theorem timestamp_congr {other : SubscriptionReceipt config user}
    (hevent : receipt.event = other.event) : receipt.timestamp = other.timestamp := by
  obtain ⟨eventId, eventType, hasks⟩ := receipt.asks
  obtain ⟨eventId', eventType', hasks'⟩ := other.asks
  obtain ⟨-, -, -, ms, -, -, -, -, -, hms, htimestamp, -⟩ := subscription_of_asks hasks rfl
  obtain ⟨-, -, -, ms', -, -, -, -, -, hms', htimestamp', -⟩ := subscription_of_asks hasks' rfl
  rw [hevent, hms', Option.some.injEq] at hms
  rw [timestamp, timestamp, htimestamp, htimestamp', hms]

end SubscriptionReceipt

/-- The database after some receipts of a user. -/
def receiveAll {config : WebhookConfig} {user : Uuid}
    (receipts : List (SubscriptionReceipt config user)) (db : Database) : Database :=
  run (fun receipt => applyRevenueCatEvent receipt.input) receipts db

section History

variable {config : WebhookConfig} {user : Uuid}

/-- Receipts with one event id are receipts of one event. -/
def Consistent (receipts : List (SubscriptionReceipt config user)) : Prop :=
  ∀ receipt ∈ receipts, ∀ other ∈ receipts, receipt.eventId = other.eventId →
    receipt.event = other.event ∧ receipt.payloadHash = other.payloadHash

/-- The user has no subscription yet, and none of the events is recorded. -/
structure FreshSubscriber (receipts : List (SubscriptionReceipt config user)) (db : Database) :
    Prop where
  account : db.hasUser user
  events : ∀ receipt ∈ receipts, findBillingEvent receipt.eventId db = none
  subscriptions : ∀ row ∈ db.userSubscriptions, row.userId ≠ user
  /-- The primary key, whose values PostgreSQL draws. -/
  unique : UniqueKey UserSubscription.id db.userSubscriptions
  drawn : ∀ row ∈ db.userSubscriptions, row.id < db.nextRowId

/-- The receipt is the latest of its original transaction. -/
def LatestOfTransaction (receipts : List (SubscriptionReceipt config user))
    (receipt : SubscriptionReceipt config user) : Prop :=
  receipt ∈ receipts ∧ ∀ other ∈ receipts,
    other.subscription.providerCustomerId = receipt.subscription.providerCustomerId →
      other.timestamp ≤ receipt.timestamp

/-- Going by the events of some original transaction, its access lasts. -/
def Established (receipts : List (SubscriptionReceipt config user)) (now : Timestamp) : Prop :=
  ∃ receipt, LatestOfTransaction receipts receipt ∧ receipt.subscription.status = .active ∧
    ∃ endsAt, receipt.endsAt = some endsAt ∧ now < endsAt

/-- The receipts that were newer than all before them. -/
def advancing (receipts : List (SubscriptionReceipt config user)) :
    List (SubscriptionReceipt config user) :=
  records SubscriptionReceipt.timestamp receipts

/-- The last end of a period that an advancing receipt named. -/
def keptEnd (receipts : List (SubscriptionReceipt config user)) : Option Timestamp :=
  ((advancing receipts).filterMap SubscriptionReceipt.endsAt).getLast?

/-! ### The stored row -/

/-- What the row of a user says about the user's access. -/
structure StoredAccess where
  planId : PlanId
  status : SubscriptionStatus
  timestamp : ℤ
  endsAt : Option Timestamp

/-- A newer event overwrites all but an end that it does not name. -/
def overwrite (stored : Option StoredAccess) (receipt : SubscriptionReceipt config user) :
    StoredAccess where
  planId := receipt.subscription.planId
  status := receipt.subscription.status
  timestamp := receipt.timestamp
  endsAt := receipt.endsAt <|> stored.bind (·.endsAt)

/-- What the receipts leave, as a register. -/
def registered (receipts : List (SubscriptionReceipt config user)) : Option StoredAccess :=
  receipts.foldl (absorb SubscriptionReceipt.timestamp StoredAccess.timestamp overwrite) none

/-- The columns of a row agree with what is registered. -/
structure Shows (user : Uuid) (row : UserSubscription) (stored : StoredAccess) : Prop where
  userId : row.userId = user
  provider : row.provider = some revenuecat
  planId : row.planId = stored.planId
  status : row.status = stored.status
  timestamp : row.providerEventTimestampMs = some stored.timestamp
  endsAt : row.currentPeriodEndsAt = stored.endsAt

/-- The user's rows are the registered one, or none. -/
def StoresOnly (user : Uuid) (stored : Option StoredAccess) (rows : List UserSubscription) : Prop :=
  match stored with
  | none => ∀ row ∈ rows, row.userId ≠ user
  | some stored => ∃ row, rows.filter (·.userId = user) = [row] ∧ Shows user row stored

/-- What the receipts so far determine. -/
structure Follows (receipts past : List (SubscriptionReceipt config user)) (db : Database) :
    Prop where
  account : db.hasUser user
  delivered : ∀ receipt ∈ past, findBillingEvent receipt.eventId db =
    some { providerEventId := receipt.eventId
           provider := revenuecat
           payloadHash := receipt.payloadHash }
  undelivered : ∀ receipt ∈ receipts, (∀ other ∈ past, other.eventId ≠ receipt.eventId) →
    findBillingEvent receipt.eventId db = none
  unique : UniqueKey UserSubscription.id db.userSubscriptions
  drawn : ∀ row ∈ db.userSubscriptions, row.id < db.nextRowId
  stores : StoresOnly user (registered past) db.userSubscriptions

variable {receipts past : List (SubscriptionReceipt config user)} {db : Database}
  {receipt : SubscriptionReceipt config user} {row : UserSubscription} {stored : StoredAccess}

theorem Follows.of_fresh (h : FreshSubscriber receipts db) : Follows receipts [] db where
  account := h.account
  delivered := by simp
  undelivered := fun receipt hreceipt _ => h.events receipt hreceipt
  unique := h.unique
  drawn := h.drawn
  stores := h.subscriptions

theorem registered_concat (receipt : SubscriptionReceipt config user) :
    registered (past ++ [receipt]) =
      absorb SubscriptionReceipt.timestamp StoredAccess.timestamp overwrite (registered past)
        receipt := by
  rw [registered, List.foldl_append]
  rfl

/-- The row a look-up for the user finds is the registered one. -/
theorem findSubscription_of_filter (hrows : db.userSubscriptions.filter (·.userId = user) = [row])
    (hshows : Shows user row stored) : findSubscription user db = some row := by
  have hfind : findSubscription user db =
      (db.userSubscriptions.filter (·.userId = user)).find? fun row =>
        row.provider = some revenuecat := by
    rw [findSubscription, List.find?_filter]
    congr 1
    funext row
    simp
  rw [hfind, hrows]
  simp [hshows.provider]

theorem findSubscription_of_none (hnone : ∀ row ∈ db.userSubscriptions, row.userId ≠ user) :
    findSubscription user db = none := by
  rw [findSubscription, List.find?_eq_none]
  intro row hrow
  simp [hnone row hrow]

/-! ### One receipt -/

/-- The registered row after one more receipt. -/
theorem Shows.overwrite {row' : UserSubscription} (hshows : Shows user row stored)
    (hrow : row' = { row with
      userId := receipt.userId.toUuid
      planId := receipt.subscription.planId
      status := receipt.subscription.status
      provider := some revenuecat
      providerCustomerId := receipt.subscription.providerCustomerId <|> row.providerCustomerId
      providerProductId := some receipt.subscription.providerProductId
      providerEventTimestampMs := some receipt.subscription.eventTimestampMs
      currentPeriodStartsAt := receipt.subscription.startsAt <|> row.currentPeriodStartsAt
      currentPeriodEndsAt := receipt.subscription.endsAt <|> row.currentPeriodEndsAt }) :
    Shows user row' (overwrite (some stored) receipt) := by
  subst hrow
  refine ⟨receipt.owner, rfl, rfl, rfl, rfl, ?_⟩
  simp only [Billing.overwrite, Option.bind_some, hshows.endsAt]
  rfl

section Apply

variable {userId : UuidText} {subscription : RevenueCatSubscription}

/-- Without a row of the user an event inserts one. -/
theorem applySubscription_of_none (hfind : findSubscription userId.toUuid db = none)
    (haccount : db.hasUser userId.toUuid) (htime : 0 ≤ subscription.eventTimestampMs) :
    ∃ result row, applySubscription userId subscription db = .ok (result,
        { db with
          userSubscriptions := db.userSubscriptions ++ [row]
          nextRowId := db.nextRowId + 1 }) ∧
      row.id = db.nextRowId ∧
      Shows userId.toUuid row
        ⟨subscription.planId, subscription.status, subscription.eventTimestampMs,
          subscription.endsAt⟩ := by
  have hfresh : ¬ subscription.eventTimestampMs ≤ -1 := by omega
  simp only [applySubscription, hfind, Option.bind_none, Option.getD_none, hfresh, if_false,
    insertSubscription, require_of haccount]
  exact ⟨_, _, rfl, rfl, rfl, rfl, rfl, rfl, rfl, rfl⟩

/-- A newer event overwrites the row of the user. -/
theorem applySubscription_of_newer (hfind : findSubscription userId.toUuid db = some row)
    (hshows : Shows user row stored) (hnewer : stored.timestamp < subscription.eventTimestampMs) :
    ∃ result, applySubscription userId subscription db =
      .ok (result, updateSubscription row userId.toUuid subscription db) := by
  have hfresh : ¬ subscription.eventTimestampMs ≤ stored.timestamp := by omega
  simp only [applySubscription, hfind, Option.bind_some, hshows.timestamp, Option.getD_some,
    hfresh, if_false]
  exact ⟨_, rfl⟩

/-- An event that is not newer leaves it. -/
theorem applySubscription_of_older (hfind : findSubscription userId.toUuid db = some row)
    (hshows : Shows user row stored) (hstale : ¬ stored.timestamp < subscription.eventTimestampMs) :
    ∃ result, applySubscription userId subscription db = .ok (result, db) := by
  have hle : subscription.eventTimestampMs ≤ stored.timestamp := by omega
  simp only [applySubscription, hfind, Option.bind_some, hshows.timestamp, Option.getD_some, hle,
    if_true]
  exact ⟨_, rfl⟩

end Apply

/-- What a receipt that is not a repetition writes. -/
theorem applySubscription_registers (receipt : SubscriptionReceipt config user)
    (haccount : db.hasUser user) (hunique : UniqueKey UserSubscription.id db.userSubscriptions)
    (hdrawn : ∀ row ∈ db.userSubscriptions, row.id < db.nextRowId)
    (hstores : StoresOnly user (registered past) db.userSubscriptions) :
    ∃ result rows nextRowId,
      applySubscription receipt.userId receipt.subscription db =
        .ok (result, { db with userSubscriptions := rows, nextRowId := nextRowId }) ∧
      UniqueKey UserSubscription.id rows ∧ (∀ row ∈ rows, row.id < nextRowId) ∧
      StoresOnly user (registered (past ++ [receipt])) rows := by
  rw [registered_concat]
  have howner : receipt.userId.toUuid = user := receipt.owner
  cases hregistered : registered past with
  | none =>
      -- The first event of the user inserts a row.
      rw [hregistered] at hstores
      have hfind : findSubscription receipt.userId.toUuid db = none := by
        rw [howner]
        exact findSubscription_of_none hstores
      have haccount' : db.hasUser receipt.userId.toUuid := by rwa [howner]
      obtain ⟨result, new, hcall, hid, hshows⟩ :=
        applySubscription_of_none hfind haccount' receipt.timestamp_nonneg
      have hstored : overwrite none receipt = ⟨receipt.subscription.planId,
          receipt.subscription.status, receipt.timestamp, receipt.endsAt⟩ := by
        cases hends : receipt.endsAt <;> simp [overwrite, hends]
      have hfilter : db.userSubscriptions.filter (·.userId = user) = [] := by
        rw [List.filter_eq_nil_iff]
        intro row hrow
        simpa using hstores row hrow
      rw [howner] at hshows
      refine ⟨result, _, _, hcall, hunique.append ?_, ?_, new, ?_, hstored ▸ hshows⟩
      · intro row hrow
        rw [hid]
        exact Nat.ne_of_lt (hdrawn row hrow)
      · intro row hrow
        rcases List.mem_append.1 hrow with hold | hnew
        · exact Nat.lt_succ_of_lt (hdrawn row hold)
        · rw [List.mem_singleton.1 hnew, hid]
          exact Nat.lt_succ_self _
      · rw [List.filter_append, hfilter, List.nil_append]
        simp [hshows.userId]
  | some stored =>
      rw [hregistered] at hstores
      obtain ⟨row, hrows, hshows⟩ := hstores
      have hfind : findSubscription receipt.userId.toUuid db = some row := by
        rw [howner]
        exact findSubscription_of_filter hrows hshows
      have hmem : row ∈ db.userSubscriptions := by
        have hself : row ∈ db.userSubscriptions.filter (·.userId = user) := by simp [hrows]
        exact (List.mem_filter.1 hself).1
      by_cases hnewer : stored.timestamp < receipt.timestamp
      · obtain ⟨result, hcall⟩ := applySubscription_of_newer hfind hshows hnewer
        have habsorbed : absorb SubscriptionReceipt.timestamp StoredAccess.timestamp overwrite
            (some stored) receipt = some (overwrite (some stored) receipt) := by
          simp [absorb, hnewer]
        rw [habsorbed]
        refine ⟨result, _, _, hcall, hunique.updateWhere fun _ => rfl, ?_, ?_⟩
        · intro other hother
          rcases mem_updateWhere.1 hother with ⟨old, hold, -, rfl⟩ | ⟨hold, -⟩
          · exact hdrawn old hold
          · exact hdrawn other hold
        · refine ⟨_, ?_, hshows.overwrite rfl⟩
          rw [filter_updateWhere, hrows]
          · simp [updateWhere]
          · intro old hold hid
            have hsame : old = row := hunique.eq_of_key hold hmem (by simpa using hid)
            simp [hsame, howner, hshows.userId]
      · -- An older event leaves the row.
        obtain ⟨result, hcall⟩ := applySubscription_of_older hfind hshows hnewer
        have habsorbed : absorb SubscriptionReceipt.timestamp StoredAccess.timestamp overwrite
            (some stored) receipt = some stored := by
          simp [absorb, hnewer]
        rw [habsorbed]
        exact ⟨result, _, _, hcall, hunique, hdrawn, row, hrows, hshows⟩

/-- An event that was received before is no newer than what is registered. -/
theorem registered_again (hevent : ∃ other ∈ past, other.timestamp = receipt.timestamp) :
    registered (past ++ [receipt]) = registered past := by
  obtain ⟨other, hother, htime⟩ := hevent
  have hstamps := (foldl_absorb SubscriptionReceipt.timestamp StoredAccess.timestamp overwrite
    (fun _ _ => rfl) past).2
  rw [registered_concat, absorb]
  cases hlast : (advancing past).getLast? with
  | none =>
      have hnil := List.getLast?_eq_none_iff.1 hlast
      exact absurd hnil (records_ne_nil (List.ne_nil_of_mem hother))
  | some newest =>
      have hle : receipt.timestamp ≤ newest.timestamp := by
        rw [← htime]
        exact getLast_records_max hlast hother
      cases hregistered : registered past with
      | none =>
          unfold registered at hregistered
          unfold advancing at hlast
          simp [hregistered, hlast] at hstamps
      | some stored =>
          have hstamp : stored.timestamp = newest.timestamp := by
            unfold registered at hregistered
            unfold advancing at hlast
            simpa [hregistered, hlast] using hstamps
          have hstale : ¬ stored.timestamp < receipt.timestamp := by omega
          simp [hstale]

theorem mem_receipts_of_past (hpast : past ++ [receipt] <+: receipts) :
    (∀ other ∈ past, other ∈ receipts) ∧ receipt ∈ receipts := by
  have hsubset := hpast.subset
  exact ⟨fun other hother => hsubset (by simp [hother]), hsubset (by simp)⟩

/-- One receipt extends what is determined. -/
theorem Follows.step (h : Follows receipts past db) (hconsistent : Consistent receipts)
    (hpast : past ++ [receipt] <+: receipts) :
    Follows receipts (past ++ [receipt])
      (Transaction.commit (applyRevenueCatEvent receipt.input) db) := by
  obtain ⟨hknown, hreceipt⟩ := mem_receipts_of_past hpast
  by_cases hseen : ∃ other ∈ past, other.eventId = receipt.eventId
  · -- A repetition is recognised by the hash of its body.
    obtain ⟨other, hother, hid⟩ := hseen
    obtain ⟨hevent, hhash⟩ := hconsistent other (hknown other hother) receipt hreceipt hid
    have hdelivered := h.delivered other hother
    rw [hid, hhash] at hdelivered
    have hcall : applyRevenueCatEvent receipt.input db =
        .ok ({ outcome := .duplicate, effectiveState := none, balanceDelta := zeroDelta }, db) := by
      have hfound : findBillingEvent receipt.input.providerEventId db = _ := hdelivered
      simp only [applyRevenueCatEvent, hfound]
      simp [SubscriptionReceipt.input]
    rw [commit_of_ok hcall]
    have hregistered : registered (past ++ [receipt]) = registered past :=
      registered_again ⟨other, hother, other.timestamp_congr hevent⟩
    refine ⟨h.account, ?_, ?_, h.unique, h.drawn, hregistered ▸ h.stores⟩
    · intro earlier hearlier
      rcases List.mem_append.1 hearlier with hold | hnew
      · exact h.delivered earlier hold
      · rw [List.mem_singleton.1 hnew]
        exact hdelivered
    · intro later hlater hnot
      exact h.undelivered later hlater fun earlier hearlier =>
        hnot earlier (List.mem_append_left _ hearlier)
  · push Not at hseen
    have hunknown : findBillingEvent receipt.input.providerEventId db = none :=
      h.undelivered receipt hreceipt hseen
    have haccount : (recordEvent receipt.input db).hasUser user := h.account
    obtain ⟨result, rows, nextRowId, happly, hunique, hdrawn, hstores⟩ :=
      applySubscription_registers receipt haccount h.unique h.drawn h.stores
    have hcall : applyRevenueCatEvent receipt.input db =
        applySubscription receipt.userId receipt.subscription (recordEvent receipt.input db) := by
      simp only [applyRevenueCatEvent, hunknown]
      rfl
    rw [commit_of_ok (hcall.trans happly)]
    refine ⟨h.account, ?_, ?_, hunique, hdrawn, hstores⟩
    · intro earlier hearlier
      rcases List.mem_append.1 hearlier with hold | hnew
      · refine Eq.trans (findBillingEvent_recordEvent _ _ ?_) (h.delivered earlier hold)
        exact (hseen earlier hold).symm
      · rw [List.mem_singleton.1 hnew]
        change lookup _ _ (db.billingEvents ++ [_]) = _
        change lookup _ _ db.billingEvents = none at hunknown
        rw [lookup_append_singleton]
        simp only [SubscriptionReceipt.input] at hunknown ⊢
        simp [hunknown]
    · intro later hlater hnot
      refine Eq.trans (findBillingEvent_recordEvent _ _ ?_) (h.undelivered later hlater ?_)
      · exact fun hsame => hnot receipt (by simp) hsame
      · exact fun earlier hearlier => hnot earlier (List.mem_append_left _ hearlier)

/-- What any delivery leaves. -/
theorem follows (hfresh : FreshSubscriber receipts db) (hconsistent : Consistent receipts) :
    Follows receipts receipts (receiveAll receipts db) := by
  suffices hpast : ∀ past, past <+: receipts → Follows receipts past (receiveAll past db) from
    hpast receipts (List.prefix_refl _)
  intro past
  induction past using List.reverseRecOn with
  | nil => exact fun _ => Follows.of_fresh hfresh
  | append_singleton past receipt ih =>
      intro hprefix
      have hbefore := ih ((List.prefix_append _ _).trans hprefix)
      unfold receiveAll at hbefore ⊢
      rw [run_concat]
      exact hbefore.step hconsistent hprefix

/-! ### The plan after a delivery -/

/-- The register, read from the receipts that advanced it. -/
theorem registered_eq (receipts : List (SubscriptionReceipt config user)) :
    registered receipts = (advancing receipts).getLast?.map fun newest =>
      { planId := newest.subscription.planId
        status := newest.subscription.status
        timestamp := newest.timestamp
        endsAt := keptEnd receipts } := by
  have hfold := (foldl_absorb SubscriptionReceipt.timestamp StoredAccess.timestamp overwrite
    (fun _ _ => rfl) receipts).1
  rw [registered, hfold, keptEnd]
  change (advancing receipts).foldl _ none = _
  -- Every receipt that advances the register overwrites it.
  induction advancing receipts using List.reverseRecOn with
  | nil => rfl
  | append_singleton past newest ih =>
      rw [List.foldl_append, List.foldl_cons, List.foldl_nil, ih, List.getLast?_concat,
        List.filterMap_append]
      have hends : ∀ kept : Option StoredAccess,
          kept.bind (·.endsAt) = (past.filterMap SubscriptionReceipt.endsAt).getLast? →
          overwrite kept newest =
            { planId := newest.subscription.planId
              status := newest.subscription.status
              timestamp := newest.timestamp
              endsAt := (past.filterMap SubscriptionReceipt.endsAt ++
                [newest].filterMap SubscriptionReceipt.endsAt).getLast? } := by
        intro kept hkept
        cases hend : newest.endsAt with
        | none => simp [overwrite, hend, hkept]
        | some endsAt => simp [overwrite, hend]
      rw [Option.map_some, hends]
      cases past using List.reverseRecOn with
      | nil => rfl
      | append_singleton earlier last => simp

/-- A plan is paid exactly when the registered row is active and has not ended. -/
theorem currentPlan_of_stores (createdAt : RowId → Timestamp) (tie : ℕ) (now : Timestamp)
    {stored : Option StoredAccess} (hstores : StoresOnly user stored db.userSubscriptions) :
    currentPlan createdAt tie user now db =
      (stored.bind fun stored =>
        if stored.status = .active ∧ stored.endsAt.all (now < ·) then some stored.planId
        else none).getD .free := by
  have hcurrent : findCurrentSubscription createdAt tie user now db =
      latest (fun row => createdAt row.id) tie
        ((db.userSubscriptions.filter (·.userId = user)).filter fun row =>
          row.status = .active ∧ row.currentPeriodEndsAt.all (now < ·)) := by
    rw [findCurrentSubscription, List.filter_filter]
    congr 2
    funext row
    by_cases howned : row.userId = user <;> simp [howned]
  rw [currentPlan, hcurrent]
  cases stored with
  | none =>
      have hnone : db.userSubscriptions.filter (·.userId = user) = [] := by
        rw [List.filter_eq_nil_iff]
        intro row hrow
        simpa using hstores row hrow
      rw [hnone]
      rfl
  | some stored =>
      obtain ⟨row, hrows, hshows⟩ := hstores
      rw [hrows]
      by_cases hpaid : stored.status = .active ∧ stored.endsAt.all (now < ·)
      · have hkept : [row].filter (fun row => row.status = .active ∧
            row.currentPeriodEndsAt.all (now < ·)) = [row] := by
          simpa [hshows.status, hshows.endsAt] using hpaid
        have hlatest : latest (fun row : UserSubscription => createdAt row.id) tie [row] =
            some row := by
          simp [latest, Nat.mod_one]
        rw [hkept, hlatest, Option.bind_some, if_pos hpaid]
        simp [hshows.planId]
      · have hdropped : [row].filter (fun row => row.status = .active ∧
            row.currentPeriodEndsAt.all (now < ·)) = [] := by
          simpa [hshows.status, hshows.endsAt] using hpaid
        rw [hdropped, Option.bind_some, if_neg hpaid]
        rfl

/-- After any delivery the plan is paid exactly when the newest event of all is an
activation and the end named last lies ahead. -/
theorem currentPlan_ne_free_iff (createdAt : RowId → Timestamp) (tie : ℕ) (now : Timestamp)
    (hfresh : FreshSubscriber receipts db) (hconsistent : Consistent receipts) :
    currentPlan createdAt tie user now (receiveAll receipts db) ≠ .free ↔
      ∃ newest, (advancing receipts).getLast? = some newest ∧
        newest.subscription.status = .active ∧ ∀ endsAt ∈ keptEnd receipts, now < endsAt := by
  have hstores := (follows hfresh hconsistent).stores
  rw [currentPlan_of_stores createdAt tie now hstores, registered_eq]
  cases hnewest : (advancing receipts).getLast? with
  | none => simp
  | some newest =>
      have hsold := newest.planId_ne_free
      have hall : (keptEnd receipts).all (now < ·) = true ↔
          ∀ endsAt ∈ keptEnd receipts, now < endsAt := by
        cases keptEnd receipts <;> simp
      simp only [Option.map_some, Option.bind_some, Option.some.injEq, exists_eq_left', hall]
      split
      next hpaid => exact ⟨fun _ => hpaid, fun _ => hsold⟩
      next hunpaid => exact ⟨fun hfree => absurd rfl hfree, fun hpaid => absurd hpaid hunpaid⟩

/-- **Purchases and access.** An access that some purchase establishes is granted
exactly when the newest event over all purchases is an activation and the end
named last lies ahead. -/
theorem access_established_iff (createdAt : RowId → Timestamp) (tie : ℕ) (now : Timestamp)
    (hfresh : FreshSubscriber receipts db) (hconsistent : Consistent receipts) :
    (Established receipts now → currentPlan createdAt tie user now (receiveAll receipts db) ≠ .free) ↔
      (Established receipts now → ∃ newest, (advancing receipts).getLast? = some newest ∧
        newest.subscription.status = .active ∧ ∀ endsAt ∈ keptEnd receipts, now < endsAt) := by
  rw [currentPlan_ne_free_iff createdAt tie now hfresh hconsistent]

end History

/-! ### An upgrade before the old plan expires -/

/-- A service outside production. -/
def testingWebhook : WebhookConfig where
  sha256 := fun _ => ""
  hmacSha256 := fun _ _ => List.replicate 64 '0'
  webhookSecret := some "secret".toList
  production := false
  iosAppId := none
  androidAppId := none
  pushEnabled := true

/-- A subscription event of the subscriber. -/
def subscriptionEvent (id type productId originalTransactionId : String)
    (timestampMs expirationAtMs : ℕ) : RevenueCatEvent where
  id := some id.toList
  type := some type.toList
  eventTimestampMs := some timestampMs
  environment := none
  appId := none
  appUserId := some subscriber.text
  productId := some productId.toList
  originalTransactionId := some originalTransactionId.toList
  transactionId := none
  cancelReason := none
  expirationAtMs := some expirationAtMs
  purchasedAtMs := some 1

def goldPurchase : SubscriptionReceipt testingWebhook subscriber.toUuid where
  event := subscriptionEvent "event-1" "INITIAL_PURCHASE" "chattea_gold_monthly" "gold" 1 100
  payloadHash := "hash-1"
  now := 1
  eventId := "event-1"
  userId := subscriber
  subscription := webhookSubscription .gold "chattea_gold_monthly" "gold" 1 (some 1) (some 100)
    .active 1
  notification := some (purchaseNotification subscriber "Gold을 시작했어요"
    "새 혜택을 바로 이용할 수 있어요." "/premium" "event-1")
  owner := rfl
  asked := by decide +kernel

def blackUpgrade : SubscriptionReceipt testingWebhook subscriber.toUuid where
  event := subscriptionEvent "event-2" "INITIAL_PURCHASE" "chattea_black_monthly" "black" 50 1000
  payloadHash := "hash-2"
  now := 50
  eventId := "event-2"
  userId := subscriber
  subscription := webhookSubscription .black "chattea_black_monthly" "black" 50 (some 1) (some 1000)
    .active 50
  notification := some (purchaseNotification subscriber "Black을 시작했어요"
    "새 혜택을 바로 이용할 수 있어요." "/premium" "event-2")
  owner := rfl
  asked := by decide +kernel

def goldExpiration : SubscriptionReceipt testingWebhook subscriber.toUuid where
  event := subscriptionEvent "event-3" "EXPIRATION" "chattea_gold_monthly" "gold" 100 100
  payloadHash := "hash-3"
  now := 100
  eventId := "event-3"
  userId := subscriber
  subscription := webhookSubscription .gold "chattea_gold_monthly" "gold" 100 (some 1) (some 100)
    .expired 100
  notification := none
  owner := rfl
  asked := by decide +kernel

theorem subscriberOnly_fresh
    (receipts : List (SubscriptionReceipt testingWebhook subscriber.toUuid)) :
    FreshSubscriber receipts subscriberOnly where
  account := rfl
  events := fun _ _ => rfl
  subscriptions := by simp [subscriberOnly, Database.ofUsers]
  unique := List.nodup_nil
  drawn := by simp [subscriberOnly, Database.ofUsers]

theorem Consistent.of_nodup {receipts : List (SubscriptionReceipt testingWebhook subscriber.toUuid)}
    (h : (receipts.map (·.eventId)).Nodup) : Consistent receipts := by
  intro receipt hreceipt other hother hid
  rw [List.inj_on_of_nodup_map h hreceipt hother hid]
  exact ⟨rfl, rfl⟩

/-- Until the old plan expires, the upgrade is what the user has. -/
theorem access_established_upgrade :
    (Established [goldPurchase, blackUpgrade] 60 →
        currentPlan (fun _ => 0) 0 subscriber.toUuid 60
          (receiveAll [goldPurchase, blackUpgrade] subscriberOnly) ≠ .free) ↔
      (Established [goldPurchase, blackUpgrade] 60 →
        ∃ newest, (advancing [goldPurchase, blackUpgrade]).getLast? = some newest ∧
          newest.subscription.status = .active ∧
          ∀ endsAt ∈ keptEnd [goldPurchase, blackUpgrade], 60 < endsAt) := by
  apply access_established_iff _ _ _ (subscriberOnly_fresh _)
  exact Consistent.of_nodup (by decide)

/-- The expiration of the old plan removes the access of the new one. -/
theorem expiration_cuts_upgrade :
    FreshSubscriber [goldPurchase, blackUpgrade, goldExpiration] subscriberOnly ∧
      Consistent [goldPurchase, blackUpgrade, goldExpiration] ∧
      Established [goldPurchase, blackUpgrade, goldExpiration] 200 ∧
      currentPlan (fun _ => 0) 0 subscriber.toUuid 200
        (receiveAll [goldPurchase, blackUpgrade, goldExpiration] subscriberOnly) = .free := by
  refine ⟨subscriberOnly_fresh _, Consistent.of_nodup (by decide),
    ⟨blackUpgrade, ⟨by simp, ?_⟩, rfl, 1000, rfl, by decide⟩, rfl⟩
  intro other hother hsame
  simp only [List.mem_cons, List.not_mem_nil, or_false] at hother
  rcases hother with rfl | rfl | rfl
  · exact absurd hsame (by decide)
  · exact le_rfl
  · exact absurd hsame (by decide)

end ChatTea.Billing
