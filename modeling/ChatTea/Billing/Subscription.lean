import ChatTea.Billing.Ledger
import Mathlib.Data.Finset.Card
import Mathlib.Data.Set.Function

/-!
# Convergence of subscriptions

RevenueCat delivers the events of a user's subscription in any order and more
than once. This file determines the stored row after any delivery. It is the
row of the newest event, but for the end of the period: an event that names no
expiration inserts `NULL`, while the same event arriving on a stored row leaves
the expiration of an older event in place.

## Main definitions

* `revenueCatSubscriptionStatus`, `webhookSubscription` — what the webhook makes
  of an event
* `SubscriptionEvent`, `SubscriptionEvents` — the events of one user
* `Advancing` — an event that arrives before all that are newer or as new
* `storedSubscription` — the columns of the stored row

## Main results

* `Followed.step` — one delivery extends what the past determines
* `stored_eq_newest_iff` — the stored row is that of the newest event exactly
  when it names an expiration or no advancing event does
-/

namespace ChatTea.Billing

open Table Transaction

/-! ### What the webhook makes of an event -/

def revenueCatSubscriptionStatus (eventType : String) : Option SubscriptionStatus :=
  if eventType = "EXPIRATION" then some .expired
  else if eventType ∈ ["INITIAL_PURCHASE", "RENEWAL", "UNCANCELLATION", "NON_RENEWING_PURCHASE",
      "SUBSCRIPTION_EXTENDED", "REFUND_REVERSED"] then some .active
  else none

/-- A point in time an event names: an absent one and zero are both falsy. -/
def truthyMs : Option ℕ → Option Timestamp
  | some 0 => none
  | some ms => some ms
  | none => none

/-- The subscription `handleRevenueCatWebhook` hands to the repository. The
start of the period falls back to the clock, its end to `undefined`. -/
def webhookSubscription (planId : PlanId) (productId originalTransactionId : String)
    (eventTimestampMs : ℕ) (purchasedAtMs expirationAtMs : Option ℕ) (status : SubscriptionStatus)
    (now : Timestamp) : RevenueCatSubscription where
  planId := planId
  providerCustomerId := some originalTransactionId
  providerProductId := productId
  eventTimestampMs := eventTimestampMs
  startsAt := some ((truthyMs purchasedAtMs).getD now)
  endsAt := truthyMs expirationAtMs
  status := status

/-! ### The events of one user -/

/-- A subscription event that names a positive purchase time, of a type that has
a status. -/
structure SubscriptionEvent where
  providerEventId : String
  payloadHash : String
  eventType : String
  status : SubscriptionStatus
  status_eq : revenueCatSubscriptionStatus eventType = some status
  planId : PlanId
  productId : String
  originalTransactionId : String
  eventTimestampMs : ℕ
  purchasedAtMs : ℕ
  purchased_pos : 0 < purchasedAtMs
  expirationAtMs : Option ℕ
deriving DecidableEq

/-- A finite set of events with distinct ids and distinct timestamps. -/
structure SubscriptionEvents where
  events : Finset SubscriptionEvent
  distinct : Set.InjOn SubscriptionEvent.providerEventId (events : Set SubscriptionEvent)
  ordered : Set.InjOn SubscriptionEvent.eventTimestampMs (events : Set SubscriptionEvent)

namespace SubscriptionEvent

def subscription (event : SubscriptionEvent) (now : Timestamp) : RevenueCatSubscription :=
  webhookSubscription event.planId event.productId event.originalTransactionId
    event.eventTimestampMs (some event.purchasedAtMs) event.expirationAtMs event.status now

/-- The call that delivers an event to a user, received at some time. -/
def input (event : SubscriptionEvent) (userId : UuidText) (now : Timestamp) :
    RevenueCatEventInput where
  providerEventId := event.providerEventId
  payloadHash := event.payloadHash
  detail := .subscription userId (event.subscription now)

/-- The end of the period an event names. -/
def endsAt (event : SubscriptionEvent) : Option Timestamp := truthyMs event.expirationAtMs

/-- A positive purchase time makes the clock of the receipt irrelevant. -/
theorem subscription_eq (event : SubscriptionEvent) (now : Timestamp) :
    event.subscription now =
      { planId := event.planId
        providerCustomerId := some event.originalTransactionId
        providerProductId := event.productId
        eventTimestampMs := event.eventTimestampMs
        startsAt := some event.purchasedAtMs
        endsAt := event.endsAt
        status := event.status } := by
  obtain ⟨ms, hms⟩ := Nat.exists_eq_succ_of_ne_zero event.purchased_pos.ne'
  simp [subscription, webhookSubscription, endsAt, hms, truthyMs]

end SubscriptionEvent

/-- One receipt of an event: the event and the clock. -/
abbrev Receipt := SubscriptionEvent × Timestamp

/-- Every event is received at least once, and nothing else is. -/
def Receives (history : SubscriptionEvents) (receipts : List Receipt) : Prop :=
  ∀ event, event ∈ history.events ↔ event ∈ receipts.map Prod.fst

/-- The database after a sequence of receipts for one user. -/
def receive (userId : UuidText) (receipts : List Receipt) (db : Database) : Database :=
  run (fun receipt : Receipt => applyRevenueCatEvent (receipt.1.input userId receipt.2)) receipts db

/-- The columns of the stored row that concern the subscription. -/
def storedSubscription (userId : UuidText) (db : Database) :
    Option (PlanId × SubscriptionStatus × Option String × Option String × Option Timestamp ×
      Option Timestamp × Option ℤ) :=
  (findSubscription userId.toUuid db).map fun row =>
    (row.planId, row.status, row.providerCustomerId, row.providerProductId,
      row.currentPeriodStartsAt, row.currentPeriodEndsAt, row.providerEventTimestampMs)

/-- The tables that subscription events touch are empty and the user exists. -/
structure EmptySubscriptions (userId : UuidText) (db : Database) : Prop where
  events : db.billingEvents = []
  subscriptions : db.userSubscriptions = []
  user : db.hasUser userId.toUuid

/-- An event that is newer than all that arrived before it. -/
def Advancing (receipts : List Receipt) (event : SubscriptionEvent) : Prop :=
  ∃ past now rest, receipts = past ++ (event, now) :: rest ∧
    ∀ earlier ∈ past, earlier.1.eventTimestampMs < event.eventTimestampMs

variable {history : SubscriptionEvents} {userId : UuidText} {receipts : List Receipt}
  {start db : Database} {event : SubscriptionEvent} {now : Timestamp}

/-- Only an event newer than all before it advances anew. -/
theorem advancing_concat_iff {other : SubscriptionEvent} :
    Advancing (receipts ++ [(event, now)]) other ↔
      Advancing receipts other ∨
        other = event ∧ ∀ earlier ∈ receipts, earlier.1.eventTimestampMs < event.eventTimestampMs := by
  constructor
  · rintro ⟨past, now', rest, hsplit, hearlier⟩
    rcases List.eq_nil_or_concat rest with rfl | ⟨rest', last, rfl⟩
    · obtain ⟨rfl, hlast⟩ := List.append_inj' hsplit rfl
      obtain ⟨rfl, -⟩ := Prod.mk.inj (List.singleton_inj.1 hlast)
      exact Or.inr ⟨rfl, hearlier⟩
    · rw [← List.concat_cons, List.concat_eq_append, ← List.append_assoc] at hsplit
      obtain ⟨rfl, -⟩ := List.append_inj' hsplit rfl
      exact Or.inl ⟨past, now', rest', rfl, hearlier⟩
  · rintro (⟨past, now', rest, rfl, hearlier⟩ | ⟨rfl, hearlier⟩)
    · exact ⟨past, now', rest ++ [(event, now)], by simp, hearlier⟩
    · exact ⟨receipts, now, [], rfl, hearlier⟩

theorem Advancing.mem {other : SubscriptionEvent} (h : Advancing receipts other) :
    other ∈ receipts.map Prod.fst := by
  obtain ⟨past, now', rest, rfl, -⟩ := h
  simp

/-! ### What the past determines -/

/-- The row carries the values of an event, up to the end of the period. -/
structure Carries (userId : UuidText) (row : UserSubscription) (event : SubscriptionEvent) :
    Prop where
  userId : row.userId = userId.toUuid
  provider : row.provider = some revenuecat
  planId : row.planId = event.planId
  status : row.status = event.status
  customer : row.providerCustomerId = some event.originalTransactionId
  product : row.providerProductId = some event.productId
  startsAt : row.currentPeriodStartsAt = some (event.purchasedAtMs : ℤ)
  timestamp : row.providerEventTimestampMs = some (event.eventTimestampMs : ℤ)

/-- The stored row after some receipts: the newest event, with the end of the
period of an older one where the newest names none. -/
structure Latest (userId : UuidText) (receipts : List Receipt) (row : UserSubscription)
    (newest : SubscriptionEvent) : Prop where
  received : newest ∈ receipts.map Prod.fst
  maximal : ∀ event ∈ receipts.map Prod.fst, event.eventTimestampMs ≤ newest.eventTimestampMs
  carries : Carries userId row newest
  endsAt : newest.endsAt ≠ none → row.currentPeriodEndsAt = newest.endsAt
  endsAt_none : row.currentPeriodEndsAt = none ↔
    ∀ event, Advancing receipts event → event.endsAt = none

/-- What the receipts so far determine. -/
structure Followed (history : SubscriptionEvents) (userId : UuidText) (start : Database)
    (receipts : List Receipt) (db : Database) : Prop where
  users : db.users = start.users
  delivered : ∀ event ∈ receipts.map Prod.fst,
    findBillingEvent event.providerEventId db =
      some { providerEventId := event.providerEventId
             provider := revenuecat
             payloadHash := event.payloadHash }
  undelivered : ∀ event ∈ history.events, event ∉ receipts.map Prod.fst →
    findBillingEvent event.providerEventId db = none
  empty : receipts = [] → db.userSubscriptions = []
  stored : receipts ≠ [] →
    ∃ row newest, db.userSubscriptions = [row] ∧ Latest userId receipts row newest

theorem Followed.of_empty (h : EmptySubscriptions userId start) :
    Followed history userId start [] start where
  users := rfl
  delivered := by simp
  undelivered := by simp [findBillingEvent, lookup, h.events]
  empty := fun _ => h.subscriptions
  stored := fun h => absurd rfl h

theorem findSubscription_singleton {row : UserSubscription} {event : SubscriptionEvent}
    (h : Carries userId row event) (hrow : db.userSubscriptions = [row]) :
    findSubscription userId.toUuid db = some row := by
  simp [findSubscription, hrow, h.userId, h.provider]

/-- The row an event inserts. -/
def insertedSubscription (event : SubscriptionEvent) (userId : UuidText) (id : RowId) :
    UserSubscription where
  id := id
  userId := userId.toUuid
  planId := event.planId
  status := event.status
  provider := some revenuecat
  providerCustomerId := some event.originalTransactionId
  providerProductId := some event.productId
  providerEventTimestampMs := some (event.eventTimestampMs : ℤ)
  currentPeriodStartsAt := some (event.purchasedAtMs : ℤ)
  currentPeriodEndsAt := event.endsAt

theorem insertedSubscription_carries (event : SubscriptionEvent) (userId : UuidText) (id : RowId) :
    Carries userId (insertedSubscription event userId id) event :=
  ⟨rfl, rfl, rfl, rfl, rfl, rfl, rfl, rfl⟩

/-- On an empty table an event inserts its row. -/
theorem applySubscription_empty (hsubscriptions : db.userSubscriptions = [])
    (huser : db.hasUser userId.toUuid) :
    applySubscription userId (event.subscription now) db =
      .ok ({ outcome := .applied, effectiveState := none, balanceDelta := zeroDelta },
        { db with
          userSubscriptions := [insertedSubscription event userId db.nextRowId]
          nextRowId := db.nextRowId + 1 }) := by
  have hfind : findSubscription userId.toUuid db = none := by
    simp [findSubscription, hsubscriptions]
  have hfresh : ¬ ((event.eventTimestampMs : ℤ) ≤ -1) := by omega
  rw [SubscriptionEvent.subscription_eq]
  simp only [applySubscription, hfind, Option.bind_none, Option.getD_none, hfresh, if_false,
    insertSubscription, require_of huser, hsubscriptions]
  rfl

/-- On a stored row of an older event an event overwrites all it names. -/
theorem applySubscription_newer {row : UserSubscription} {older : SubscriptionEvent}
    (hcarries : Carries userId row older) (hrow : db.userSubscriptions = [row])
    (hnewer : older.eventTimestampMs < event.eventTimestampMs) :
    applySubscription userId (event.subscription now) db =
      .ok ({ outcome := .applied, effectiveState := none, balanceDelta := zeroDelta },
        { db with
          userSubscriptions :=
            [{ insertedSubscription event userId row.id with
               currentPeriodEndsAt := event.endsAt <|> row.currentPeriodEndsAt }] }) := by
  have hfind := findSubscription_singleton hcarries hrow
  have hfresh : ¬ ((event.eventTimestampMs : ℤ) ≤ older.eventTimestampMs) := by omega
  rw [SubscriptionEvent.subscription_eq]
  simp only [applySubscription, hfind, Option.bind_some, hcarries.timestamp, Option.getD_some,
    hfresh, if_false, updateSubscription, hrow]
  simp [updateWhere, insertedSubscription, bind, Except.bind, pure, Except.pure]

/-- On a stored row of an event as new an event is stale. -/
theorem applySubscription_stale {row : UserSubscription} {newest : SubscriptionEvent}
    (hcarries : Carries userId row newest) (hrow : db.userSubscriptions = [row])
    (hstale : event.eventTimestampMs ≤ newest.eventTimestampMs) :
    applySubscription userId (event.subscription now) db =
      .ok ({ outcome := .stale, effectiveState := none, balanceDelta := zeroDelta }, db) := by
  have hfind := findSubscription_singleton hcarries hrow
  have hle : (event.eventTimestampMs : ℤ) ≤ newest.eventTimestampMs := by omega
  rw [SubscriptionEvent.subscription_eq]
  simp only [applySubscription, hfind, Option.bind_some, hcarries.timestamp, Option.getD_some,
    hle, if_true]
  rfl

/-! ### One receipt -/

theorem Followed.again (h : Followed history userId start receipts db)
    (hevent : event ∈ receipts.map Prod.fst) :
    Followed history userId start (receipts ++ [(event, now)]) db := by
  have hseen : ∀ other, other ∈ (receipts ++ [(event, now)]).map Prod.fst ↔
      other ∈ receipts.map Prod.fst := by
    intro other
    rw [List.map_append, List.mem_append, List.map_singleton, List.mem_singleton,
      or_iff_left_iff_imp]
    rintro rfl
    exact hevent
  -- An event received before is not newer than all before it.
  have hadvancing : ∀ other, Advancing (receipts ++ [(event, now)]) other ↔
      Advancing receipts other := by
    intro other
    rw [advancing_concat_iff, or_iff_left_iff_imp]
    rintro ⟨-, hearlier⟩
    obtain ⟨receipt, hreceipt, rfl⟩ := List.mem_map.1 hevent
    exact absurd (hearlier receipt hreceipt) (lt_irrefl _)
  have hnonempty : receipts ≠ [] := by
    rintro rfl
    simp at hevent
  obtain ⟨row, newest, hrow, hreceived, hmaximal, hcarries, hends, hnone⟩ := h.stored hnonempty
  refine ⟨h.users, ?_, ?_, by simp, fun _ => ⟨row, newest, hrow, ?_, ?_, hcarries, hends, ?_⟩⟩
  · intro other hother
    exact h.delivered other ((hseen other).1 hother)
  · intro other hother hnew
    exact h.undelivered other hother fun hpast => hnew ((hseen other).2 hpast)
  · exact (hseen newest).2 hreceived
  · intro other hother
    exact hmaximal other ((hseen other).1 hother)
  · simpa only [hadvancing] using hnone

/-- The row after a new event is received. -/
theorem Followed.latest (h : Followed history userId start receipts db)
    (hempty : EmptySubscriptions userId start) (event : SubscriptionEvent) (now : Timestamp) :
    ∃ result subscriptions nextRowId row newest,
      applySubscription userId (event.subscription now)
          (recordEvent (event.input userId now) db) =
        .ok (result, { recordEvent (event.input userId now) db with
          userSubscriptions := subscriptions
          nextRowId := nextRowId }) ∧
      subscriptions = [row] ∧ Latest userId (receipts ++ [(event, now)]) row newest := by
  have hmem : ∀ other, other ∈ (receipts ++ [(event, now)]).map Prod.fst ↔
      other ∈ receipts.map Prod.fst ∨ other = event := by
    simp
  by_cases hfirst : receipts = []
  · -- The first event of all inserts its row.
    subst hfirst
    have huser : (recordEvent (event.input userId now) db).hasUser userId.toUuid := by
      have husers : (recordEvent (event.input userId now) db).users = start.users := h.users
      rw [Database.hasUser, husers]
      exact hempty.user
    refine ⟨_, _, _, _, event, applySubscription_empty (h.empty rfl) huser, rfl, ?_⟩
    refine ⟨by simp, by simp, insertedSubscription_carries event userId _, fun _ => rfl, ?_⟩
    have hadvancing : ∀ other, Advancing ([] ++ [(event, now)]) other ↔ other = event := by
      intro other
      rw [advancing_concat_iff]
      constructor
      · rintro (hnone | ⟨hsame, -⟩)
        · simpa using hnone.mem
        · exact hsame
      · exact fun hsame => Or.inr ⟨hsame, by simp⟩
    simp only [hadvancing, forall_eq]
    rfl
  obtain ⟨row, newest, hrow, hlatest⟩ := h.stored hfirst
  by_cases hnewer : newest.eventTimestampMs < event.eventTimestampMs
  · -- A newer event overwrites the row, but for an end it does not name.
    have hearlier : ∀ earlier ∈ receipts, earlier.1.eventTimestampMs < event.eventTimestampMs :=
      fun earlier hmem =>
        lt_of_le_of_lt (hlatest.maximal earlier.1 (List.mem_map_of_mem hmem)) hnewer
    refine ⟨_, _, _, _, event, applySubscription_newer hlatest.carries hrow hnewer, rfl, ?_⟩
    refine ⟨(hmem event).2 (Or.inr rfl), ?_, ⟨rfl, rfl, rfl, rfl, rfl, rfl, rfl, rfl⟩, ?_, ?_⟩
    · intro other hother
      rcases (hmem other).1 hother with hother | rfl
      · exact (hlatest.maximal other hother).trans hnewer.le
      · exact le_rfl
    · intro hends
      obtain ⟨ends, hends⟩ := Option.ne_none_iff_exists'.1 hends
      simp [hends]
    · have hadvancing : ∀ other, Advancing (receipts ++ [(event, now)]) other ↔
          Advancing receipts other ∨ other = event := by
        intro other
        rw [advancing_concat_iff, and_iff_left hearlier]
      simp only [hadvancing, or_imp, forall_and, forall_eq, ← hlatest.endsAt_none]
      cases event.endsAt <;> simp
  · -- An older event leaves the row.
    have hold : event.eventTimestampMs ≤ newest.eventTimestampMs := not_lt.1 hnewer
    refine ⟨_, _, _, row, newest, applySubscription_stale hlatest.carries hrow hold, hrow, ?_⟩
    refine ⟨(hmem newest).2 (Or.inl hlatest.received), ?_, hlatest.carries, hlatest.endsAt, ?_⟩
    · intro other hother
      rcases (hmem other).1 hother with hother | rfl
      · exact hlatest.maximal other hother
      · exact hold
    · have hadvancing : ∀ other, Advancing (receipts ++ [(event, now)]) other ↔
          Advancing receipts other := by
        intro other
        rw [advancing_concat_iff, or_iff_left_iff_imp]
        rintro ⟨-, hearlier⟩
        obtain ⟨receipt, hreceipt, hsame⟩ := List.mem_map.1 hlatest.received
        have := hearlier receipt hreceipt
        rw [hsame] at this
        exact absurd this hnewer
      simpa only [hadvancing] using hlatest.endsAt_none

/-- One receipt extends what is determined. -/
theorem Followed.step (h : Followed history userId start receipts db)
    (hempty : EmptySubscriptions userId start) (hevent : event ∈ history.events)
    (hpast : ∀ other ∈ receipts.map Prod.fst, other ∈ history.events) :
    Followed history userId start (receipts ++ [(event, now)])
      (commit (applyRevenueCatEvent (event.input userId now)) db) := by
  by_cases hseen : event ∈ receipts.map Prod.fst
  · have hknown : findBillingEvent (event.input userId now).providerEventId db = _ :=
      h.delivered event hseen
    have hcall : applyRevenueCatEvent (event.input userId now) db =
        .ok ({ outcome := .duplicate, effectiveState := none, balanceDelta := zeroDelta }, db) := by
      simp only [applyRevenueCatEvent, hknown]
      simp [SubscriptionEvent.input]
    rw [commit_of_ok hcall]
    exact h.again hseen
  · have hunknown : findBillingEvent (event.input userId now).providerEventId db = none :=
      h.undelivered event hevent hseen
    obtain ⟨result, subscriptions, nextRowId, row, newest, happly, hrow, hlatest⟩ :=
      h.latest hempty event now
    have hcall : applyRevenueCatEvent (event.input userId now) db =
        applySubscription userId (event.subscription now)
          (recordEvent (event.input userId now) db) := by
      simp only [applyRevenueCatEvent, hunknown]
      rfl
    rw [commit_of_ok (hcall.trans happly)]
    have hmem : ∀ other, other ∈ (receipts ++ [(event, now)]).map Prod.fst ↔
        other ∈ receipts.map Prod.fst ∨ other = event := by
      simp
    refine ⟨h.users, ?_, ?_, by simp, fun _ => ⟨row, newest, hrow, hlatest⟩⟩
    · intro other hother
      by_cases hsame : other = event
      · subst hsame
        change lookup _ _ (db.billingEvents ++ [_]) = _
        rw [lookup_append_singleton]
        change lookup _ _ db.billingEvents = none at hunknown
        simp [SubscriptionEvent.input] at hunknown ⊢
        simp [hunknown]
      · have hother' := ((hmem other).1 hother).resolve_right hsame
        refine Eq.trans (findBillingEvent_recordEvent _ _ fun hid => hsame ?_)
          (h.delivered other hother')
        exact history.distinct (hpast other hother') hevent hid.symm
    · intro other hother hnew
      rw [hmem other, not_or] at hnew
      refine Eq.trans (findBillingEvent_recordEvent _ _ fun hid => hnew.2 ?_)
        (h.undelivered other hother hnew.1)
      exact history.distinct hother hevent hid.symm

theorem followed (hempty : EmptySubscriptions userId start)
    (hreceipts : ∀ event ∈ receipts.map Prod.fst, event ∈ history.events) :
    Followed history userId start receipts (receive userId receipts start) := by
  induction receipts using List.reverseRecOn with
  | nil => exact Followed.of_empty hempty
  | append_singleton past receipt ih =>
      obtain ⟨event, now⟩ := receipt
      have hpast : ∀ other ∈ past.map Prod.fst, other ∈ history.events :=
        fun other hother => hreceipts other (by simp [List.mem_map.1 hother])
      rw [receive, run_concat]
      exact (ih hpast).step hempty (hreceipts event (by simp)) hpast

/-! ### Whole deliveries -/

theorem storedSubscription_of_latest {row : UserSubscription} {newest : SubscriptionEvent}
    (hrow : db.userSubscriptions = [row]) (hlatest : Latest userId receipts row newest) :
    storedSubscription userId db =
      some (newest.planId, newest.status, some newest.originalTransactionId,
        some newest.productId, some (newest.purchasedAtMs : ℤ), row.currentPeriodEndsAt,
        some (newest.eventTimestampMs : ℤ)) := by
  obtain ⟨-, -, hplan, hstatus, hcustomer, hproduct, hstarts, htimestamp⟩ := hlatest.carries
  rw [storedSubscription, findSubscription_singleton hlatest.carries hrow, Option.map_some, hplan,
    hstatus, hcustomer, hproduct, hstarts, htimestamp]

/-- After any delivery the stored row is that of the newest event, up to the end
of the period; it ends as the newest event says, or where that says nothing, not
at all unless an advancing event names an end. -/
theorem stored_of_receives (hempty : EmptySubscriptions userId start)
    (hreceives : Receives history receipts) {newest : SubscriptionEvent}
    (hnewest : newest ∈ history.events)
    (hmax : ∀ event ∈ history.events, event.eventTimestampMs ≤ newest.eventTimestampMs) :
    ∃ endsAt,
      storedSubscription userId (receive userId receipts start) =
        some (newest.planId, newest.status, some newest.originalTransactionId,
          some newest.productId, some (newest.purchasedAtMs : ℤ), endsAt,
          some (newest.eventTimestampMs : ℤ)) ∧
      (newest.endsAt ≠ none → endsAt = newest.endsAt) ∧
      (endsAt = none ↔ ∀ event, Advancing receipts event → event.endsAt = none) := by
  have hfollowed : Followed history userId start receipts (receive userId receipts start) :=
    followed hempty fun event hevent => (hreceives event).2 hevent
  have hnonempty : receipts ≠ [] := by
    rintro rfl
    simpa using (hreceives newest).1 hnewest
  obtain ⟨row, latest, hrow, hlatest⟩ := hfollowed.stored hnonempty
  have hsame : latest = newest := by
    have hmem := (hreceives latest).2 hlatest.received
    refine history.ordered hmem hnewest (le_antisymm (hmax latest hmem) ?_)
    exact hlatest.maximal newest ((hreceives newest).1 hnewest)
  subst hsame
  exact ⟨row.currentPeriodEndsAt, storedSubscription_of_latest hrow hlatest, hlatest.endsAt,
    hlatest.endsAt_none⟩

/-- The newest event alone leaves its own row. -/
theorem stored_of_newest_only (hempty : EmptySubscriptions userId start)
    (newest : SubscriptionEvent) (now : Timestamp) :
    storedSubscription userId (receive userId [(newest, now)] start) =
      some (newest.planId, newest.status, some newest.originalTransactionId,
        some newest.productId, some (newest.purchasedAtMs : ℤ), newest.endsAt,
        some (newest.eventTimestampMs : ℤ)) := by
  let single : SubscriptionEvents := ⟨{newest}, by simp, by simp⟩
  have hreceives : Receives single [(newest, now)] := by
    intro event
    simp [single]
  obtain ⟨endsAt, hstored, hends, hnone⟩ := stored_of_receives hempty hreceives
    (Finset.mem_singleton_self newest) (by simp [single])
  by_cases hnewest : newest.endsAt = none
  · have hadvancing : ∀ event, Advancing [(newest, now)] event → event.endsAt = none := by
      intro event hevent
      have hmem := hevent.mem
      rw [List.map_singleton, List.mem_singleton] at hmem
      rwa [hmem]
    rw [hstored, hnone.2 hadvancing, hnewest]
  · rw [hstored, hends hnewest]

/-- **Convergence of subscriptions.** A delivery of all events leaves the row
that the newest event alone would leave exactly when the newest event names an
expiration, or no event that arrives before everything newer names one. -/
theorem stored_eq_newest_iff (hempty : EmptySubscriptions userId start)
    (hreceives : Receives history receipts) (newest : SubscriptionEvent)
    (hnewest : newest ∈ history.events)
    (hmax : ∀ event ∈ history.events, event.eventTimestampMs ≤ newest.eventTimestampMs)
    (now : Timestamp) :
    storedSubscription userId (receive userId receipts start) =
        storedSubscription userId (receive userId [(newest, now)] start) ↔
      newest.endsAt ≠ none ∨ ∀ event, Advancing receipts event → event.endsAt = none := by
  obtain ⟨endsAt, hstored, hends, hnone⟩ := stored_of_receives hempty hreceives hnewest hmax
  rw [hstored, stored_of_newest_only hempty newest now, Option.some.injEq]
  simp only [Prod.mk.injEq, true_and, and_true]
  constructor
  · intro hsame
    by_cases hnewest' : newest.endsAt = none
    · exact Or.inr (hnone.1 (hsame.trans hnewest'))
    · exact Or.inl hnewest'
  · rintro (hsome | hadvancing)
    · exact hends hsome
    · -- The newest event advances itself, so it names no end either.
      have hlast : endsAt = none := hnone.2 hadvancing
      by_contra hdiffer
      rw [hlast] at hdiffer
      exact hdiffer (hlast ▸ hends (Ne.symm hdiffer))

/-! ### A renewal without an expiration -/

/-- A purchase of the gold plan that expires. -/
def goldUntil100 : SubscriptionEvent where
  providerEventId := "event-1"
  payloadHash := "hash-1"
  eventType := "INITIAL_PURCHASE"
  status := .active
  status_eq := rfl
  planId := .gold
  productId := "chattea_gold_monthly"
  originalTransactionId := "original"
  eventTimestampMs := 1
  purchasedAtMs := 1
  purchased_pos := by decide
  expirationAtMs := some 100

/-- A later renewal that names no expiration. -/
def goldRenewal : SubscriptionEvent where
  providerEventId := "event-2"
  payloadHash := "hash-2"
  eventType := "RENEWAL"
  status := .active
  status_eq := by decide
  planId := .gold
  productId := "chattea_gold_monthly"
  originalTransactionId := "original"
  eventTimestampMs := 2
  purchasedAtMs := 2
  purchased_pos := by decide
  expirationAtMs := none

def goldEvents : SubscriptionEvents where
  events := {goldUntil100, goldRenewal}
  distinct := by
    intro e he e' he' hid
    simp only [Finset.coe_insert, Finset.coe_singleton, Set.mem_insert_iff,
      Set.mem_singleton_iff] at he he'
    rcases he with rfl | rfl <;> rcases he' with rfl | rfl <;>
      first | rfl | exact absurd hid (by decide)
  ordered := by
    intro e he e' he' htime
    simp only [Finset.coe_insert, Finset.coe_singleton, Set.mem_insert_iff,
      Set.mem_singleton_iff] at he he'
    rcases he with rfl | rfl <;> rcases he' with rfl | rfl <;>
      first | rfl | exact absurd htime (by decide)

def subscriber : UuidText where
  text := "b0000000-0000-4000-8000-000000000001".toList
  wellFormed := by decide

def subscriberOnly : Database := .ofUsers [.visible subscriber.toUuid]

theorem subscriberOnly_empty : EmptySubscriptions subscriber subscriberOnly :=
  ⟨rfl, rfl, by decide⟩

theorem goldEvents_received (receipts : List Receipt)
    (hreceipts : ∀ event, event ∈ receipts.map Prod.fst ↔
      event = goldUntil100 ∨ event = goldRenewal) : Receives goldEvents receipts := by
  intro event
  rw [hreceipts event]
  exact Finset.mem_insert.trans (or_congr_right Finset.mem_singleton)

/-- Received in the other order the two events do leave the row of the newest. -/
theorem stored_eq_newest_renewal_first :
    storedSubscription subscriber
        (receive subscriber [(goldRenewal, 10), (goldUntil100, 20)] subscriberOnly) =
      storedSubscription subscriber (receive subscriber [(goldRenewal, 10)] subscriberOnly) := by
  refine (stored_eq_newest_iff subscriberOnly_empty
    (goldEvents_received _ (by simp [or_comm])) goldRenewal (by decide) (by decide)
    10).2 (Or.inr ?_)
  intro event hevent
  change Advancing ([(goldRenewal, 10)] ++ [(goldUntil100, 20)]) event at hevent
  rcases advancing_concat_iff.1 hevent with hfirst | ⟨-, hearlier⟩
  · have hmem := hfirst.mem
    rw [List.map_singleton, List.mem_singleton] at hmem
    rw [hmem]
    rfl
  · exact absurd (hearlier (goldRenewal, 10) List.mem_cons_self) (by decide)

/-- Received in the order they happened, the renewal keeps the expiration of the
purchase, while alone it would leave none. -/
theorem renewal_keeps_expiration :
    Receives goldEvents [(goldUntil100, 10), (goldRenewal, 20)] ∧
      EmptySubscriptions subscriber subscriberOnly ∧
      storedSubscription subscriber
          (receive subscriber [(goldUntil100, 10), (goldRenewal, 20)] subscriberOnly) =
        some (.gold, .active, some "original", some "chattea_gold_monthly", some 2, some 100,
          some 2) ∧
      storedSubscription subscriber
          (receive subscriber [(goldUntil100, 10), (goldRenewal, 20)] subscriberOnly) ≠
        storedSubscription subscriber (receive subscriber [(goldRenewal, 20)] subscriberOnly) := by
  have hboth : storedSubscription subscriber
      (receive subscriber [(goldUntil100, 10), (goldRenewal, 20)] subscriberOnly) =
      some (.gold, .active, some "original", some "chattea_gold_monthly", some 2, some 100,
        some 2) := rfl
  have halone : storedSubscription subscriber
      (receive subscriber [(goldRenewal, 20)] subscriberOnly) =
      some (.gold, .active, some "original", some "chattea_gold_monthly", some 2, none,
        some 2) := rfl
  refine ⟨goldEvents_received _ (by simp), subscriberOnly_empty, hboth, ?_⟩
  rw [hboth, halone]
  simp

end ChatTea.Billing
