import ChatTea.Billing.Ledger
import Mathlib.Data.Finset.Card
import Mathlib.Data.Finset.Max
import Mathlib.Data.Set.Function

/-!
# Convergence of consumable purchases

RevenueCat delivers the events of one purchase in any order and more than once.
This file proves what the billing tables hold once every event of a purchase was
delivered: the state of the newest event, a ledger that adds up to the units
granted in that state, and every event recorded once.

The stored owner comes back from PostgreSQL in lower case and is compared as
text with the owner the event names. Deliveries of a purchase whose owner is
spelled otherwise converge only while there is nothing to compare.

## Main definitions

* `Purchase`, `PurchaseEvents` — a provider transaction and its transitions
* `Delivery` — a sequence of calls that delivers every transition at least once
* `ownEffect` — what the deliveries of a purchase did to its owner's balance
* `Converges` — what the tables hold after a delivery

## Main results

* `Tracked.own`, `Tracked.foreign` — one call extends what the past determines
* `converges_iff` — a delivery converges exactly when the owner is spelled as
  stored, or at most one event is delivered
-/

namespace ChatTea.Billing

open Table Transaction

/-! ### Purchases and their deliveries -/

/-- What all transitions of one provider transaction share. -/
structure Purchase where
  providerTransactionId : String
  originalTransactionId : String
  userId : UuidText
  canonicalProductId : String
  providerProductId : String
  units : ConsumableUnits
  units_present : units.Present

/-- What distinguishes the transitions of one provider transaction. -/
structure PurchaseEvent where
  providerEventId : String
  payloadHash : String
  eventTimestampMs : ℤ
  targetState : TransactionState
deriving DecidableEq

/-- A finite set of transitions with distinct event ids, in which transitions of
one timestamp have one target state. -/
structure PurchaseEvents where
  events : Finset PurchaseEvent
  distinct : Set.InjOn PurchaseEvent.providerEventId (events : Set PurchaseEvent)
  consistent : ∀ e ∈ events, ∀ e' ∈ events, e.eventTimestampMs = e'.eventTimestampMs →
    e.targetState = e'.targetState

namespace Purchase

def transition (purchase : Purchase) (event : PurchaseEvent) : RevenueCatConsumableTransition where
  providerTransactionId := purchase.providerTransactionId
  originalTransactionId := purchase.originalTransactionId
  userId := purchase.userId
  canonicalProductId := purchase.canonicalProductId
  providerProductId := purchase.providerProductId
  eventTimestampMs := event.eventTimestampMs
  targetState := event.targetState
  units := purchase.units

@[simp] theorem transition_providerTransactionId (purchase : Purchase) (event : PurchaseEvent) :
    (purchase.transition event).providerTransactionId = purchase.providerTransactionId := rfl

/-- The call that delivers an event. -/
def input (purchase : Purchase) (event : PurchaseEvent) : RevenueCatEventInput where
  providerEventId := event.providerEventId
  payloadHash := event.payloadHash
  detail := .consumableTransition (purchase.transition event)

/-- The account whose balance the purchase changes. -/
def owner (purchase : Purchase) : Uuid := purchase.userId.toUuid

end Purchase

variable {purchase : Purchase} {history : PurchaseEvents} {calls : List RevenueCatEventInput}
  {start db db' : Database}

/-- A call that delivers an event of the purchase. -/
def Own (purchase : Purchase) (history : PurchaseEvents) (call : RevenueCatEventInput) : Prop :=
  ∃ event ∈ history.events, call = purchase.input event

instance (call : RevenueCatEventInput) : Decidable (Own purchase history call) :=
  inferInstanceAs (Decidable (∃ event ∈ history.events, call = purchase.input event))

/-- A call for an event of another transaction. -/
structure Foreign (purchase : Purchase) (history : PurchaseEvents)
    (call : RevenueCatEventInput) : Prop where
  event : ∀ event ∈ history.events, call.providerEventId ≠ event.providerEventId
  transaction : ∀ transition, call.detail = .consumableTransition transition →
    transition.providerTransactionId ≠ purchase.providerTransactionId

/-- A sequence of calls that delivers every event at least once, in any order
and interleaved with events of other transactions. -/
structure Delivery (purchase : Purchase) (history : PurchaseEvents)
    (calls : List RevenueCatEventInput) : Prop where
  complete : ∀ event ∈ history.events, purchase.input event ∈ calls
  calls : ∀ call ∈ calls, Own purchase history call ∨ Foreign purchase history call

/-- The billing tables are empty and the purchase names an account. -/
structure EmptyBilling (purchase : Purchase) (db : Database) : Prop where
  events : db.billingEvents = []
  transactions : db.revenueCatTransactions = []
  ledger : db.revenueCatTransactionLedger = []
  owner : db.hasUser purchase.owner

/-- The database after a sequence of calls. -/
abbrev deliver (calls : List RevenueCatEventInput) (db : Database) : Database :=
  run applyRevenueCatEvent calls db

/-- What a call did to the owner's balance, counted when it is one of the
purchase's deliveries. -/
def callEffect (purchase : Purchase) (history : PurchaseEvents) (call : RevenueCatEventInput)
    (db : Database) (credit : Credit) : ℤ :=
  if Own purchase history call then
    creditsOf (commit (applyRevenueCatEvent call) db) purchase.owner credit -
      creditsOf db purchase.owner credit
  else 0

/-- What the deliveries of the purchase did to its owner's balance. -/
def ownEffect (purchase : Purchase) (history : PurchaseEvents) :
    List RevenueCatEventInput → Database → Credit → ℤ
  | [], _, _ => 0
  | call :: rest, db, credit =>
      callEffect purchase history call db credit +
        ownEffect purchase history rest (commit (applyRevenueCatEvent call) db) credit

theorem ownEffect_concat (calls : List RevenueCatEventInput) (call : RevenueCatEventInput)
    (db : Database) (credit : Credit) :
    ownEffect purchase history (calls ++ [call]) db credit =
      ownEffect purchase history calls db credit +
        callEffect purchase history call (deliver calls db) credit := by
  induction calls generalizing db with
  | nil => simp [ownEffect]
  | cons head tail ih =>
      have hrun : deliver (head :: tail) db =
        deliver tail (commit (applyRevenueCatEvent head) db) := rfl
      rw [List.cons_append, ownEffect, ownEffect, ih, hrun, add_assoc]

/-- What the tables hold once every event of a purchase was delivered. -/
structure Converges (purchase : Purchase) (history : PurchaseEvents)
    (calls : List RevenueCatEventInput) (start : Database) : Prop where
  /-- No delivery of the purchase throws. -/
  accepted : ∀ past event rest, calls = past ++ purchase.input event :: rest →
    event ∈ history.events →
    ∃ result db, applyRevenueCatEvent (purchase.input event) (deliver past start) = .ok (result, db)
  /-- One row stores the purchase, in the state of a newest event. The ledger
  rows of it add up to the units granted in that state, and so does what the
  deliveries did to the owner's balance. -/
  settled : ∀ newest ∈ history.events,
    (∀ event ∈ history.events, event.eventTimestampMs ≤ newest.eventTimestampMs) →
    ∃ row, (deliver calls start).revenueCatTransactions.filter
        (fun row => transactionKey row = (revenuecat, purchase.providerTransactionId)) = [row] ∧
      row.state = newest.targetState ∧
      ∀ credit,
        ledgerTotal (deliver calls start).revenueCatTransactionLedger row.id credit =
            (if newest.targetState = .granted then purchase.units.of credit else 0) ∧
          ownEffect purchase history calls start credit =
            if newest.targetState = .granted then purchase.units.of credit else 0
  /-- Every event is recorded once, as an event and in the ledger. -/
  recorded : ∀ event ∈ history.events,
    (deliver calls start).billingEvents.countP
        (fun row => row.providerEventId = event.providerEventId) = 1 ∧
      (deliver calls start).revenueCatTransactionLedger.countP
        (fun row => row.providerEventId = event.providerEventId) = 1
  /-- An entry that was not applied has no effect. -/
  ignored : ∀ entry ∈ (deliver calls start).revenueCatTransactionLedger,
    entry.applied = false → entry.superLikeDelta = 0 ∧ entry.boostDelta = 0
  /-- Any other delivery of the events does the same to the owner's balance. -/
  order_independent : ∀ calls', Delivery purchase history calls' → ∀ credit,
    ownEffect purchase history calls' start credit =
        ownEffect purchase history calls start credit ∧
      ((∀ call ∈ calls ++ calls', Own purchase history call) →
        creditsOf (deliver calls' start) purchase.owner credit =
          creditsOf (deliver calls start) purchase.owner credit)

/-! ### What the past determines -/

/-- The row that stores the purchase. -/
structure Stores (purchase : Purchase) (row : RevenueCatTransaction) : Prop where
  owner : row.userId = purchase.owner
  originalTransactionId : row.originalTransactionId = purchase.originalTransactionId
  canonicalProductId : row.canonicalProductId = purchase.canonicalProductId
  providerProductId : row.providerProductId = purchase.providerProductId
  units : transactionUnits row = purchase.units

theorem Stores.sameIdentity {row : RevenueCatTransaction} (h : Stores purchase row)
    (hcanonical : purchase.userId.Canonical) (event : PurchaseEvent) :
    SameIdentity row (purchase.transition event) where
  owner := by rw [h.owner]; exact hcanonical
  originalTransactionId := h.originalTransactionId
  canonicalProductId := h.canonicalProductId
  providerProductId := h.providerProductId
  units := h.units

/-- What the calls so far determine about the purchase. -/
structure Tracked (purchase : Purchase) (history : PurchaseEvents) (start : Database)
    (past : List RevenueCatEventInput) (db : Database) : Prop where
  ledger : LedgerInvariant db
  users : db.users = start.users
  /-- An event is recorded when it was delivered. -/
  delivered : ∀ event ∈ history.events, purchase.input event ∈ past →
    findBillingEvent event.providerEventId db =
        some { providerEventId := event.providerEventId
               provider := revenuecat
               payloadHash := event.payloadHash } ∧
      ∃ entry ∈ db.revenueCatTransactionLedger, entry.providerEventId = event.providerEventId
  undelivered : ∀ event ∈ history.events, purchase.input event ∉ past →
    findBillingEvent event.providerEventId db = none
  /-- Nothing is stored before the first delivery. -/
  absent : (∀ event ∈ history.events, purchase.input event ∉ past) →
    findTransaction purchase.providerTransactionId db = none ∧
      ∀ credit, ownEffect purchase history past start credit = 0
  /-- The stored state is that of a newest event delivered so far. -/
  present : (∃ event ∈ history.events, purchase.input event ∈ past) →
    ∃ row, findTransaction purchase.providerTransactionId db = some row ∧ Stores purchase row ∧
      (∃ event ∈ history.events, purchase.input event ∈ past ∧
        row.stateEventTimestampMs = event.eventTimestampMs ∧ row.state = event.targetState) ∧
      (∀ event ∈ history.events, purchase.input event ∈ past →
        event.eventTimestampMs ≤ row.stateEventTimestampMs) ∧
      ∀ credit, ownEffect purchase history past start credit = contribution row credit

theorem LedgerInvariant.of_emptyBilling (h : EmptyBilling purchase start) :
    LedgerInvariant start := by
  obtain ⟨hevents, htransactions, hledger, -⟩ := h
  constructor <;> simp [hevents, htransactions, hledger, UniqueKey]

theorem Tracked.of_empty (h : EmptyBilling purchase start) :
    Tracked purchase history start [] start where
  ledger := LedgerInvariant.of_emptyBilling h
  users := rfl
  delivered := by simp
  undelivered := by simp [findBillingEvent, lookup, h.events]
  absent := by simp [findTransaction, lookup, h.transactions, ownEffect]
  present := by simp

theorem input_injOn (event event' : PurchaseEvent) (hevent : event ∈ history.events)
    (hevent' : event' ∈ history.events) (hinput : purchase.input event = purchase.input event') :
    event = event' :=
  history.distinct hevent hevent' (congrArg RevenueCatEventInput.providerEventId hinput)

theorem Foreign.not_own {call : RevenueCatEventInput} (h : Foreign purchase history call) :
    ¬ Own purchase history call := by
  rintro ⟨event, hevent, rfl⟩
  exact h.event event hevent rfl

/-! ### Calls for other transactions -/

/-- A call for another event and another transaction leaves alone what concerns
the purchase. -/
theorem foreign_frame {call : RevenueCatEventInput} {result : RevenueCatApplyResult}
    (hinv : LedgerInvariant db) (hforeign : Foreign purchase history call)
    (h : applyRevenueCatEvent call db = .ok (result, db')) :
    db'.users = db.users ∧
      findTransaction purchase.providerTransactionId db' =
        findTransaction purchase.providerTransactionId db ∧
      (∀ event ∈ history.events, findBillingEvent event.providerEventId db' =
        findBillingEvent event.providerEventId db) ∧
      ∀ entry ∈ db.revenueCatTransactionLedger, entry ∈ db'.revenueCatTransactionLedger := by
  rcases applyRevenueCatEvent_cases h with ⟨-, -, rfl⟩ | ⟨hunknown, hdetail⟩
  · exact ⟨rfl, rfl, fun _ _ => rfl, fun _ => id⟩
  have hevents : ∀ event ∈ history.events,
      findBillingEvent event.providerEventId (recordEvent call db) =
        findBillingEvent event.providerEventId db :=
    fun event hevent => findBillingEvent_recordEvent call _ (hforeign.event event hevent)
  rcases hdetail with ⟨-, -, rfl⟩ | ⟨userId, subscription, -, hsubscription⟩ |
    ⟨transition, hdetail, htransition⟩
  · exact ⟨rfl, rfl, hevents, fun _ => id⟩
  · obtain ⟨subscriptions, nextRowId, -, rfl⟩ := applySubscription_writes hsubscription
    exact ⟨rfl, rfl, hevents, fun _ => id⟩
  · have hother := hforeign.transaction transition hdetail
    obtain ⟨-, hcreates | ⟨current, hadvances⟩ | ⟨current, hignores⟩⟩ :=
      applyConsumableTransition_cases htransition
    · have hfind := hcreates.findTransaction purchase.providerTransactionId
      rw [if_neg hother] at hfind
      obtain ⟨-, -, -, -, balances, -, rfl⟩ := hcreates
      exact ⟨rfl, hfind, hevents, fun entry hentry => List.mem_append_left _ hentry⟩
    · have hfind := hadvances.findTransaction (hinv.recordEvent hunknown)
        purchase.providerTransactionId
      rw [if_neg hother] at hfind
      obtain ⟨-, -, -, -, balances, -, rfl⟩ := hadvances
      exact ⟨rfl, hfind, hevents, fun entry hentry => List.mem_append_left _ hentry⟩
    · obtain ⟨-, -, -, -, -, rfl⟩ := hignores
      exact ⟨rfl, rfl, hevents, fun entry hentry => List.mem_append_left _ hentry⟩

/-- A call for another transaction adds nothing to what is known. -/
theorem Tracked.foreign {past : List RevenueCatEventInput} {call : RevenueCatEventInput}
    (h : Tracked purchase history start past db) (hforeign : Foreign purchase history call) :
    Tracked purchase history start (past ++ [call]) (commit (applyRevenueCatEvent call) db) := by
  have hseen : ∀ event ∈ history.events,
      (purchase.input event ∈ past ++ [call] ↔ purchase.input event ∈ past) := by
    intro event hevent
    have hne : purchase.input event ≠ call := by
      rintro rfl
      exact hforeign.event event hevent rfl
    simp [hne]
  have heffect : ∀ credit, ownEffect purchase history (past ++ [call]) start credit =
      ownEffect purchase history past start credit := by
    intro credit
    rw [ownEffect_concat, callEffect, if_neg hforeign.not_own, add_zero]
  -- Whether the call throws or not, what concerns the purchase stays.
  have hframe : LedgerInvariant (commit (applyRevenueCatEvent call) db) ∧
      (commit (applyRevenueCatEvent call) db).users = db.users ∧
      findTransaction purchase.providerTransactionId (commit (applyRevenueCatEvent call) db) =
        findTransaction purchase.providerTransactionId db ∧
      (∀ event ∈ history.events,
        findBillingEvent event.providerEventId (commit (applyRevenueCatEvent call) db) =
          findBillingEvent event.providerEventId db) ∧
      ∀ entry ∈ db.revenueCatTransactionLedger,
        entry ∈ (commit (applyRevenueCatEvent call) db).revenueCatTransactionLedger := by
    rcases commit_cases (applyRevenueCatEvent call) db with ⟨result, hcall⟩ | ⟨-, hstate⟩
    · exact ⟨h.ledger.apply hcall, foreign_frame h.ledger hforeign hcall⟩
    · rw [hstate]
      exact ⟨h.ledger, rfl, rfl, fun _ _ => rfl, fun _ => id⟩
  obtain ⟨hledger, husers, hfind, hevents, hentries⟩ := hframe
  refine
    { ledger := hledger
      users := husers.trans h.users
      delivered := ?_
      undelivered := ?_
      absent := ?_
      present := ?_ }
  · intro event hevent hpast
    rw [hseen event hevent] at hpast
    obtain ⟨hrecorded, entry, hentry, hid⟩ := h.delivered event hevent hpast
    exact ⟨(hevents event hevent).trans hrecorded, entry, hentries entry hentry, hid⟩
  · intro event hevent hpast
    rw [hseen event hevent] at hpast
    exact (hevents event hevent).trans (h.undelivered event hevent hpast)
  · intro hnone
    obtain ⟨habsent, hzero⟩ := h.absent fun event hevent hpast =>
      hnone event hevent ((hseen event hevent).2 hpast)
    exact ⟨hfind.trans habsent, fun credit => (heffect credit).trans (hzero credit)⟩
  · rintro ⟨event, hevent, hpast⟩
    obtain ⟨row, hrow, hstores, ⟨source, hsource, hsourcepast, hstate⟩, hnewest, hvalue⟩ :=
      h.present ⟨event, hevent, (hseen event hevent).1 hpast⟩
    refine ⟨row, hfind.trans hrow, hstores,
      ⟨source, hsource, (hseen source hsource).2 hsourcepast, hstate⟩, ?_, ?_⟩
    · intro other hother hotherpast
      exact hnewest other hother ((hseen other hother).1 hotherpast)
    · intro credit
      exact (heffect credit).trans (hvalue credit)

/-! ### Deliveries of the purchase -/

/-- The first delivery of an event runs its transition once the event is
recorded. -/
theorem applyRevenueCatEvent_input {event : PurchaseEvent}
    (hunknown : findBillingEvent event.providerEventId db = none) :
    applyRevenueCatEvent (purchase.input event) db =
      applyConsumableTransition event.providerEventId (purchase.transition event)
        (recordEvent (purchase.input event) db) := by
  have hfind : findBillingEvent (purchase.input event).providerEventId db = none := hunknown
  simp only [applyRevenueCatEvent, hfind]
  rfl

/-- A repeated delivery changes nothing. -/
theorem applyRevenueCatEvent_again (purchase : Purchase) {event : PurchaseEvent}
    (hknown : findBillingEvent event.providerEventId db =
      some { providerEventId := event.providerEventId
             provider := revenuecat
             payloadHash := event.payloadHash }) :
    applyRevenueCatEvent (purchase.input event) db =
      .ok ({ outcome := .duplicate, effectiveState := none, balanceDelta := zeroDelta }, db) := by
  have hfind : findBillingEvent (purchase.input event).providerEventId db = _ := hknown
  simp only [applyRevenueCatEvent, hfind]
  simp [Purchase.input]

section Own

variable {past : List RevenueCatEventInput} {event : PurchaseEvent}

/-- The row that is found stores the purchase in the state of a newest event. -/
theorem Tracked.stored (h : Tracked purchase history start past db)
    {current : RevenueCatTransaction}
    (hfind : findTransaction purchase.providerTransactionId db = some current) :
    Stores purchase current ∧
      (∃ event ∈ history.events, purchase.input event ∈ past ∧
        current.stateEventTimestampMs = event.eventTimestampMs ∧
        current.state = event.targetState) ∧
      (∀ event ∈ history.events, purchase.input event ∈ past →
        event.eventTimestampMs ≤ current.stateEventTimestampMs) ∧
      ∀ credit, ownEffect purchase history past start credit = contribution current credit := by
  have hseen : ∃ event ∈ history.events, purchase.input event ∈ past := by
    by_contra hnone
    push Not at hnone
    rw [(h.absent hnone).1] at hfind
    cases hfind
  obtain ⟨row, hrow, hstored⟩ := h.present hseen
  obtain rfl : row = current := Option.some.inj (hrow.symm.trans hfind)
  exact hstored

/-- What is known of the stored row when another event of the purchase comes. -/
theorem Tracked.known (h : Tracked purchase history start past db)
    (hspelling : purchase.userId.Canonical ∨ history.events.card ≤ 1)
    (hevent : event ∈ history.events) (hnew : purchase.input event ∉ past)
    {current : RevenueCatTransaction}
    (hfind : findTransaction purchase.providerTransactionId db = some current) :
    SameIdentity current (purchase.transition event) ∧
      (current.stateEventTimestampMs = event.eventTimestampMs →
        current.state = event.targetState) := by
  obtain ⟨hstores, ⟨source, hsource, hpast, htime, hstate⟩, -, -⟩ := h.stored hfind
  have hne : source ≠ event := by
    rintro rfl
    exact hnew hpast
  have hcanonical : purchase.userId.Canonical :=
    hspelling.resolve_right fun hcard =>
      hne (Finset.card_le_one.1 hcard source hsource event hevent)
  refine ⟨hstores.sameIdentity hcanonical event, fun hsame => ?_⟩
  rw [hstate]
  exact history.consistent source hsource event hevent (htime ▸ hsame)

/-- The first delivery of an event succeeds. -/
theorem Tracked.succeeds (h : Tracked purchase history start past db)
    (hempty : EmptyBilling purchase start)
    (hspelling : purchase.userId.Canonical ∨ history.events.card ≤ 1)
    (hevent : event ∈ history.events) (hnew : purchase.input event ∉ past) :
    ∃ result db', applyRevenueCatEvent (purchase.input event) db = .ok (result, db') := by
  have hunknown := h.undelivered event hevent hnew
  rw [applyRevenueCatEvent_input hunknown]
  refine applyConsumableTransition_succeeds ?_ ?_ purchase.units_present ?_
  · have howner := hempty.owner
    have husers : (recordEvent (purchase.input event) db).users = start.users := h.users
    rw [Database.hasUser, husers]
    exact howner
  · intro row hrow hid
    exact h.ledger.entries_recorded row hrow (hid ▸ hunknown)
  · intro current hfind
    exact h.known hspelling hevent hnew hfind

/-- The first delivery of an event extends what is known. -/
theorem Tracked.own_first (h : Tracked purchase history start past db)
    (hdb : db = deliver past start) (hevent : event ∈ history.events) (hnew : purchase.input event ∉ past)
    {result : RevenueCatApplyResult}
    (hcall : applyRevenueCatEvent (purchase.input event) db = .ok (result, db')) :
    Tracked purchase history start (past ++ [purchase.input event]) db' := by
  have hunknown := h.undelivered event hevent hnew
  have htransition := hcall
  rw [applyRevenueCatEvent_input hunknown] at htransition
  obtain ⟨husers, hevents, entry, hentry, hledger⟩ := transition_frame htransition
  have hseen : ∀ other ∈ history.events,
      (purchase.input other ∈ past ++ [purchase.input event] ↔
        purchase.input other ∈ past ∨ other = event) := by
    intro other hother
    rw [List.mem_append, List.mem_singleton]
    exact or_congr_right ⟨input_injOn other event hother hevent, congrArg purchase.input⟩
  have heffect : ∀ credit,
      ownEffect purchase history (past ++ [purchase.input event]) start credit =
        ownEffect purchase history past start credit + result.balanceDelta.of credit := by
    intro credit
    have hcredits : creditsOf db' purchase.owner credit =
        creditsOf db purchase.owner credit + result.balanceDelta.of credit := by
      have := transition_credits htransition purchase.owner credit
      rwa [if_pos (show purchase.owner = (purchase.transition event).userId.toUuid from rfl)]
        at this
    rw [ownEffect_concat, callEffect, if_pos ⟨event, hevent, rfl⟩, ← hdb, commit_of_ok hcall,
      hcredits, add_sub_cancel_left]
  have hfound : ∀ other ∈ history.events, other ≠ event →
      findBillingEvent other.providerEventId db' = findBillingEvent other.providerEventId db := by
    intro other hother hne
    rw [findBillingEvent, hevents]
    refine findBillingEvent_recordEvent _ _ fun hid => hne ?_
    exact history.distinct hother hevent hid.symm
  have hrecorded : findBillingEvent event.providerEventId db' =
      some { providerEventId := event.providerEventId
             provider := revenuecat
             payloadHash := event.payloadHash } := by
    rw [findBillingEvent] at hunknown
    rw [findBillingEvent, hevents, Billing.recordEvent, lookup_append_singleton, hunknown]
    simp [Purchase.input]
  refine
    { ledger := h.ledger.apply hcall
      users := husers.trans h.users
      delivered := ?_
      undelivered := ?_
      absent := fun hnone => absurd ((hseen event hevent).2 (Or.inr rfl)) (hnone event hevent)
      present := fun _ => ?_ }
  · intro other hother hpast
    rcases (hseen other hother).1 hpast with hbefore | rfl
    · obtain ⟨hrow, old, hold, hid⟩ := h.delivered other hother hbefore
      have hne : other ≠ event := by
        rintro rfl
        exact hnew hbefore
      exact ⟨(hfound other hother hne).trans hrow, old, hledger ▸ List.mem_append_left _ hold, hid⟩
    · exact ⟨hrecorded, entry, hledger ▸ List.mem_append_right _ (List.mem_singleton_self _), hentry⟩
  · intro other hother hpast
    rw [hseen other hother, not_or] at hpast
    exact (hfound other hother hpast.2).trans (h.undelivered other hother hpast.1)
  · obtain ⟨-, hcreates | ⟨current, hadvances⟩ | ⟨current, hignores⟩⟩ :=
      applyConsumableTransition_cases htransition
    · -- The first event of all creates the row.
      have hrow := hcreates.findTransaction purchase.providerTransactionId
      rw [Purchase.transition_providerTransactionId, if_pos rfl] at hrow
      have hnone : ∀ other ∈ history.events, purchase.input other ∉ past := by
        intro other hother hpast
        obtain ⟨row, hfind, -⟩ := h.present ⟨other, hother, hpast⟩
        have hunknown' : findTransaction purchase.providerTransactionId db = none := hcreates.unknown
        rw [hunknown'] at hfind
        cases hfind
      refine ⟨_, hrow, ⟨rfl, rfl, rfl, rfl, rfl⟩, ⟨event, hevent, by simp, rfl, rfl⟩, ?_, ?_⟩
      · intro other hother hpast
        rcases (hseen other hother).1 hpast with hpast | rfl
        · exact absurd hpast (hnone other hother)
        · exact le_rfl
      · intro credit
        rw [heffect, (h.absent hnone).2 credit, hcreates.delta, transitionDelta_of, zero_add]
        simp [stateUnits, contribution, createdTransaction, transactionUnits, Purchase.transition]
    · -- A newer event becomes the stored one.
      have hrow := hadvances.findTransaction (h.ledger.recordEvent hunknown)
        purchase.providerTransactionId
      rw [Purchase.transition_providerTransactionId, if_pos rfl] at hrow
      obtain ⟨hstores, -, hnewest, hvalue⟩ := h.stored hadvances.known
      refine ⟨_, hrow, ⟨hstores.owner, hstores.originalTransactionId, hstores.canonicalProductId,
        hstores.providerProductId, hstores.units⟩, ⟨event, hevent, by simp, rfl, rfl⟩, ?_, ?_⟩
      · intro other hother hpast
        rcases (hseen other hother).1 hpast with hpast | rfl
        · exact (hnewest other hother hpast).trans hadvances.newer.le
        · exact le_rfl
      · intro credit
        rw [heffect, hvalue credit, hadvances.delta, transitionDelta_of, ← hadvances.identity.units,
          contribution, add_sub_cancel]
        rfl
    · -- A stale event changes neither the row nor the balance.
      obtain ⟨hstores, ⟨source, hsource, hpast, hstate⟩, hnewest, hvalue⟩ :=
        h.stored hignores.known
      have hrow : findTransaction purchase.providerTransactionId db' = some current := by
        rw [hignores.writes]
        exact hignores.known
      refine ⟨current, hrow, hstores, ⟨source, hsource, List.mem_append_left _ hpast, hstate⟩, ?_, ?_⟩
      · intro other hother hpast
        rcases (hseen other hother).1 hpast with hpast | rfl
        · exact hnewest other hother hpast
        · exact hignores.stale
      · intro credit
        rw [heffect, hignores.delta, zeroDelta_of, add_zero, hvalue credit]

/-- A repeated delivery extends what is known. -/
theorem Tracked.own_again (h : Tracked purchase history start past db)
    (hdb : db = deliver past start) (hevent : event ∈ history.events)
    (hpast : purchase.input event ∈ past) :
    Tracked purchase history start (past ++ [purchase.input event]) db := by
  have hcall := applyRevenueCatEvent_again purchase (h.delivered event hevent hpast).1
  have hseen : ∀ other, purchase.input other ∈ past ++ [purchase.input event] ↔
      purchase.input other ∈ past := by
    intro other
    rw [List.mem_append, List.mem_singleton, or_iff_left_iff_imp]
    intro hsame
    rwa [hsame]
  have heffect : ∀ credit,
      ownEffect purchase history (past ++ [purchase.input event]) start credit =
        ownEffect purchase history past start credit := by
    intro credit
    rw [ownEffect_concat, callEffect, ← hdb, commit_of_ok hcall, sub_self, ite_self, add_zero]
  obtain ⟨hledger, husers, hdelivered, hundelivered, habsent, hpresent⟩ := h
  refine ⟨hledger, husers, ?_, ?_, ?_, ?_⟩ <;> simpa only [hseen, heffect]

end Own

/-! ### Whole deliveries -/

/-- Any sequence of deliveries and calls for other transactions is tracked. -/
theorem Tracked.deliver (hempty : EmptyBilling purchase start)
    (hspelling : purchase.userId.Canonical ∨ history.events.card ≤ 1)
    (hcalls : ∀ call ∈ calls, Own purchase history call ∨ Foreign purchase history call) :
    Tracked purchase history start calls (deliver calls start) := by
  induction calls using List.reverseRecOn with
  | nil => exact Tracked.of_empty hempty
  | append_singleton past call ih =>
      have hbefore := ih fun other hother => hcalls other (List.mem_append_left _ hother)
      rw [Billing.deliver, run_concat]
      rcases hcalls call (by simp) with ⟨event, hevent, rfl⟩ | hforeign
      · by_cases hpast : purchase.input event ∈ past
        · have hagain := applyRevenueCatEvent_again purchase
            (hbefore.delivered event hevent hpast).1
          rw [commit_of_ok hagain]
          exact hbefore.own_again rfl hevent hpast
        · obtain ⟨result, db', hcall⟩ := hbefore.succeeds hempty hspelling hevent hpast
          rw [commit_of_ok hcall]
          exact hbefore.own_first rfl hevent hpast hcall
      · exact hbefore.foreign hforeign

/-- Deliveries of the purchase alone move the balance by their effect. -/
theorem creditsOf_deliver (hown : ∀ call ∈ calls, Own purchase history call) (credit : Credit) :
    creditsOf (deliver calls db) purchase.owner credit =
      creditsOf db purchase.owner credit + ownEffect purchase history calls db credit := by
  induction calls generalizing db with
  | nil => simp [ownEffect]
  | cons call rest ih =>
      have hrun : deliver (call :: rest) db =
        deliver rest (commit (applyRevenueCatEvent call) db) := rfl
      rw [hrun, ih fun other hother => hown other (List.mem_cons_of_mem _ hother), ownEffect,
        callEffect, if_pos (hown call List.mem_cons_self)]
      ring

/-- Once every event was delivered, the stored row is that of any newest one. -/
theorem Tracked.newest (h : Tracked purchase history start calls db)
    (hcomplete : ∀ event ∈ history.events, purchase.input event ∈ calls) {newest : PurchaseEvent}
    (hnewest : newest ∈ history.events)
    (hmax : ∀ event ∈ history.events, event.eventTimestampMs ≤ newest.eventTimestampMs) :
    ∃ row, findTransaction purchase.providerTransactionId db = some row ∧
      row.state = newest.targetState ∧
      ∀ credit, contribution row credit =
          (if newest.targetState = .granted then purchase.units.of credit else 0) ∧
        ownEffect purchase history calls start credit =
          if newest.targetState = .granted then purchase.units.of credit else 0 := by
  obtain ⟨row, hrow, hstores, ⟨source, hsource, -, htime, hstate⟩, hbound, hvalue⟩ :=
    h.present ⟨newest, hnewest, hcomplete newest hnewest⟩
  have hsame : source.eventTimestampMs = newest.eventTimestampMs := by
    refine le_antisymm (hmax source hsource) ?_
    rw [← htime]
    exact hbound newest hnewest (hcomplete newest hnewest)
  have htarget : row.state = newest.targetState := by
    rw [hstate]
    exact history.consistent source hsource newest hnewest hsame
  have hcontribution : ∀ credit, contribution row credit =
      if newest.targetState = .granted then purchase.units.of credit else 0 := by
    intro credit
    simp [contribution, stateUnits, htarget, hstores.units]
  exact ⟨row, hrow, htarget, fun credit =>
    ⟨hcontribution credit, (hvalue credit).trans (hcontribution credit)⟩⟩

/-- What two deliveries did to the balance is the same. -/
theorem Tracked.ownEffect_eq {calls' : List RevenueCatEventInput} {db₁ db₂ : Database}
    (h₁ : Tracked purchase history start calls db₁)
    (h₂ : Tracked purchase history start calls' db₂)
    (hcomplete₁ : ∀ event ∈ history.events, purchase.input event ∈ calls)
    (hcomplete₂ : ∀ event ∈ history.events, purchase.input event ∈ calls') (credit : Credit) :
    ownEffect purchase history calls' start credit =
      ownEffect purchase history calls start credit := by
  rcases history.events.eq_empty_or_nonempty with hnone | hsome
  · have habsent : ∀ past : List RevenueCatEventInput, ∀ event ∈ history.events, purchase.input event ∉ past := by
      simp [hnone]
    rw [(h₁.absent (habsent _)).2, (h₂.absent (habsent _)).2]
  · obtain ⟨newest, hnewest, hmax⟩ :=
      history.events.exists_max_image PurchaseEvent.eventTimestampMs hsome
    obtain ⟨row₁, -, -, hvalue₁⟩ := h₁.newest hcomplete₁ hnewest hmax
    obtain ⟨row₂, -, -, hvalue₂⟩ := h₂.newest hcomplete₂ hnewest hmax
    rw [(hvalue₁ credit).2, (hvalue₂ credit).2]

theorem Delivery.converges (hdelivery : Delivery purchase history calls)
    (hempty : EmptyBilling purchase start)
    (hspelling : purchase.userId.Canonical ∨ history.events.card ≤ 1) :
    Converges purchase history calls start := by
  have htracked := Tracked.deliver hempty hspelling hdelivery.calls
  refine
    { accepted := ?_
      settled := ?_
      recorded := ?_
      ignored := ?_
      order_independent := ?_ }
  · intro past event rest hsplit hevent
    have hpast : Tracked purchase history start past (deliver past start) :=
      Tracked.deliver hempty hspelling fun call hcall =>
        hdelivery.calls call (by rw [hsplit]; exact List.mem_append_left _ hcall)
    by_cases hseen : purchase.input event ∈ past
    · exact ⟨_, _, applyRevenueCatEvent_again purchase (hpast.delivered event hevent hseen).1⟩
    · exact hpast.succeeds hempty hspelling hevent hseen
  · intro newest hnewest hmax
    obtain ⟨row, hrow, hstate, hvalue⟩ := htracked.newest hdelivery.complete hnewest hmax
    obtain ⟨hmem, hkey⟩ := mem_of_findTransaction hrow
    refine ⟨row, ?_, hstate, fun credit => ⟨?_, (hvalue credit).2⟩⟩
    · rw [← hkey]
      exact htracked.ledger.unique_keys.filter_eq_singleton hmem
    · rw [htracked.ledger.totals row hmem credit]
      exact (hvalue credit).1
  · intro event hevent
    obtain ⟨hfound, entry, hentry, hid⟩ :=
      htracked.delivered event hevent (hdelivery.complete event hevent)
    obtain ⟨hmem, -⟩ := mem_of_lookup hfound
    exact ⟨htracked.ledger.unique_events.countP_eq_one hmem,
      hid ▸ htracked.ledger.unique_entries.countP_eq_one hentry⟩
  · intro entry hentry happlied
    have hzero := htracked.ledger.ignored entry hentry happlied
    exact ⟨hzero .superLike, hzero .boost⟩
  · intro calls' hdelivery' credit
    have htracked' := Tracked.deliver hempty hspelling hdelivery'.calls
    have heffect := htracked.ownEffect_eq htracked' hdelivery.complete hdelivery'.complete credit
    refine ⟨heffect, fun hown => ?_⟩
    rw [creditsOf_deliver fun call hcall => hown call (List.mem_append_right _ hcall),
      creditsOf_deliver fun call hcall => hown call (List.mem_append_left _ hcall), heffect]

/-! ### An owner spelled otherwise -/

/-- An event is recorded only by a call that carries its id. -/
theorem not_recorded {providerEventId : String} (hstart : start.billingEvents = [])
    (hcalls : ∀ call ∈ calls, call.providerEventId ≠ providerEventId) :
    findBillingEvent providerEventId (deliver calls start) = none := by
  refine run_history (fun _ db => findBillingEvent providerEventId db = none) ?_ ?_ ?_
  · simp [findBillingEvent, lookup, hstart]
  · intro past call before result after hcall hbefore happly
    have hrecord : findBillingEvent providerEventId (recordEvent call before) =
        findBillingEvent providerEventId before :=
      findBillingEvent_recordEvent call providerEventId (hcalls call hcall)
    rcases applyRevenueCatEvent_cases happly with ⟨-, -, rfl⟩ | ⟨-, hdetail⟩
    · exact hbefore
    rcases hdetail with ⟨-, -, rfl⟩ | ⟨userId, subscription, -, hsubscription⟩ |
      ⟨transition, -, htransition⟩
    · exact hrecord.trans hbefore
    · obtain ⟨subscriptions, nextRowId, -, rfl⟩ := applySubscription_writes hsubscription
      exact hrecord.trans hbefore
    · obtain ⟨-, hevents, -⟩ := transition_frame htransition
      rw [findBillingEvent, hevents]
      exact hrecord.trans hbefore
  · intro past call before failure hcall hbefore happly
    exact hbefore

/-- The events of a purchase that has only one. -/
def PurchaseEvents.single (event : PurchaseEvent) : PurchaseEvents where
  events := {event}
  distinct := by simp
  consistent := by simp

/-- A purchase stored for its owner refuses a new event that spells the owner
otherwise. -/
theorem Tracked.refuses {past : List RevenueCatEventInput} {first event : PurchaseEvent}
    (h : Tracked purchase (.single first) start past db)
    (hpast : purchase.input first ∈ past)
    (hspelling : ¬ purchase.userId.Canonical)
    (hunknown : findBillingEvent event.providerEventId db = none) (result : RevenueCatApplyResult)
    (db' : Database) : applyRevenueCatEvent (purchase.input event) db ≠ .ok (result, db') := by
  intro hcall
  rw [applyRevenueCatEvent_input hunknown] at hcall
  obtain ⟨row, hfind, hstores, -⟩ := h.present ⟨first, Finset.mem_singleton_self first, hpast⟩
  have hrefused : ¬ SameIdentity row (purchase.transition event) := by
    intro hidentity
    have howner := hidentity.owner
    rw [hstores.owner] at howner
    exact hspelling howner
  have hstored : findTransaction (purchase.transition event).providerTransactionId
      (recordEvent (purchase.input event) db) = some row := hfind
  obtain ⟨-, hcreates | ⟨current, hadvances⟩ | ⟨current, hignores⟩⟩ :=
    applyConsumableTransition_cases hcall
  · rw [hcreates.unknown] at hstored
    cases hstored
  · obtain rfl : current = row := Option.some.inj (hadvances.known.symm.trans hstored)
    exact hrefused hadvances.identity
  · obtain rfl : current = row := Option.some.inj (hignores.known.symm.trans hstored)
    exact hrefused hignores.identity

/-- The first call of a list that satisfies a condition. -/
private theorem exists_first (cond : RevenueCatEventInput → Prop) [DecidablePred cond]
    (h : ∃ call ∈ calls, cond call) :
    ∃ past call rest, calls = past ++ call :: rest ∧ cond call ∧ ∀ other ∈ past, ¬ cond other := by
  obtain ⟨call, hcall, hcond⟩ := h
  cases hfind : calls.find? fun call => cond call with
  | none => exact absurd (by simpa using hcond) (List.find?_eq_none.1 hfind call hcall)
  | some first =>
      obtain ⟨hfirst, past, rest, hsplit, hpast⟩ := List.find?_eq_some_iff_append.1 hfind
      exact ⟨past, first, rest, hsplit, by simpa using hfirst, by simpa using hpast⟩

/-- Two different events of a purchase whose owner is spelled otherwise: the
second of them to arrive is refused. -/
theorem Delivery.not_converges (hdelivery : Delivery purchase history calls)
    (hempty : EmptyBilling purchase start) (hspelling : ¬ purchase.userId.Canonical)
    (hcard : 1 < history.events.card) : ¬ Converges purchase history calls start := by
  intro hconverges
  -- The first delivery, of `first`, and after it the first of another event.
  obtain ⟨some₁, hsome₁⟩ := Finset.card_pos.1 (Nat.lt_trans Nat.zero_lt_one hcard)
  obtain ⟨past, call, rest, hsplit, ⟨first, hfirst, rfl⟩, hpast⟩ :=
    exists_first (Own purchase history)
      ⟨_, hdelivery.complete some₁ hsome₁, some₁, hsome₁, rfl⟩
  obtain ⟨other, hother, hne⟩ := Finset.exists_mem_ne hcard first
  have hlater : purchase.input other ∈ rest := by
    have hmem := hdelivery.complete other hother
    rw [hsplit, List.mem_append, List.mem_cons] at hmem
    rcases hmem with hmem | hsame | hmem
    · exact absurd ⟨other, hother, rfl⟩ (hpast _ hmem)
    · exact absurd (input_injOn other first hother hfirst hsame) hne
    · exact hmem
  obtain ⟨mid, call, rest', hsplit', ⟨⟨second, hsecond, rfl⟩, hdiffer⟩, hmid⟩ :=
    exists_first (fun call => Own purchase history call ∧ call ≠ purchase.input first)
      ⟨_, hlater, ⟨other, hother, rfl⟩, fun hsame =>
        hne (input_injOn other first hother hfirst hsame)⟩
  have hcalls : calls = (past ++ purchase.input first :: mid) ++ purchase.input second :: rest' := by
    rw [hsplit, hsplit']
    simp
  -- Up to `second`, every call delivers `first` or concerns another transaction.
  have hbefore : ∀ call ∈ past ++ purchase.input first :: mid,
      call = purchase.input first ∨ Foreign purchase history call := by
    intro call hcall
    have hkind := hdelivery.calls call (by rw [hcalls]; exact List.mem_append_left _ hcall)
    rcases List.mem_append.1 hcall with hcall | hcall
    · exact Or.inr (hkind.resolve_left (hpast call hcall))
    · rcases List.mem_cons.1 hcall with rfl | hcall
      · exact Or.inl rfl
      · by_cases hsame : call = purchase.input first
        · exact Or.inl hsame
        · exact Or.inr (hkind.resolve_left fun hown => hmid call hcall ⟨hown, hsame⟩)
  have htracked : Tracked purchase (.single first) start (past ++ purchase.input first :: mid)
      (deliver (past ++ purchase.input first :: mid) start) := by
    refine Tracked.deliver hempty (Or.inr (by simp [PurchaseEvents.single])) fun call hcall => ?_
    rcases hbefore call hcall with rfl | hforeign
    · exact Or.inl ⟨first, Finset.mem_singleton_self first, rfl⟩
    · refine Or.inr ⟨fun event hevent => ?_, hforeign.transaction⟩
      rw [Finset.mem_singleton.1 hevent]
      exact hforeign.event first hfirst
  have hunknown : findBillingEvent second.providerEventId
      (deliver (past ++ purchase.input first :: mid) start) = none := by
    refine not_recorded hempty.events fun call hcall hid => ?_
    rcases hbefore call hcall with rfl | hforeign
    · exact hdiffer (congrArg purchase.input (history.distinct hfirst hsecond hid).symm)
    · exact hforeign.event second hsecond hid
  obtain ⟨result, db', hcall⟩ := hconverges.accepted _ second rest' hcalls hsecond
  exact htracked.refuses (by simp) hspelling hunknown result db' hcall

/-- **Convergence of consumable purchases.** A delivery of all events of a
purchase, in any order, with repetitions and interleaved with other
transactions, converges exactly when the owner is spelled in lower case or there
is at most one event. -/
theorem converges_iff (hdelivery : Delivery purchase history calls)
    (hempty : EmptyBilling purchase start) :
    Converges purchase history calls start ↔
      purchase.userId.Canonical ∨ history.events.card ≤ 1 := by
  constructor
  · intro hconverges
    by_contra hcond
    rw [not_or, not_le] at hcond
    exact hdelivery.not_converges hempty hcond.1 hcond.2 hconverges
  · exact hdelivery.converges hempty

/-! ### A purchase, spelled in either case -/

/-- Five superlikes, bought by an owner spelled as given. -/
def superLikes (userId : UuidText) : Purchase where
  providerTransactionId := "transaction"
  originalTransactionId := "original"
  userId := userId
  canonicalProductId := "chattea_superlikes_5"
  providerProductId := "chattea_superlikes_5"
  units := { superLikeCredits := 5, boostCredits := 0 }
  units_present := ⟨by decide, by decide⟩

def granted : PurchaseEvent where
  providerEventId := "event-1"
  payloadHash := "hash-1"
  eventTimestampMs := 1
  targetState := .granted

def refunded : PurchaseEvent where
  providerEventId := "event-2"
  payloadHash := "hash-2"
  eventTimestampMs := 2
  targetState := .refunded

/-- A grant and its refund. -/
def grantAndRefund : PurchaseEvents where
  events := {granted, refunded}
  distinct := by
    intro e he e' he' hid
    simp only [Finset.coe_insert, Finset.coe_singleton, Set.mem_insert_iff,
      Set.mem_singleton_iff] at he he'
    rcases he with rfl | rfl <;> rcases he' with rfl | rfl <;> first | rfl | exact absurd hid (by decide)
  consistent := by decide

def upperCaseOwner : UuidText where
  text := "A0000000-0000-4000-8000-000000000001".toList
  wellFormed := by decide

def lowerCaseOwner : UuidText := upperCaseOwner.toUuid.toUuidText

/-- The account of the owner. -/
def ownerOnly : Database := .ofUsers [.visible upperCaseOwner.toUuid]

theorem grantAndRefund_delivery (userId : UuidText) :
    Delivery (superLikes userId) grantAndRefund
      [(superLikes userId).input granted, (superLikes userId).input refunded] where
  complete event hevent := by
    rcases Finset.mem_insert.1 hevent with rfl | hevent
    · exact List.mem_cons_self
    · rw [Finset.mem_singleton.1 hevent]
      exact List.mem_cons_of_mem _ List.mem_cons_self
  calls call hcall := by
    rcases List.mem_cons.1 hcall with rfl | hcall
    · exact Or.inl ⟨granted, by decide, rfl⟩
    · rw [List.mem_singleton.1 hcall]
      exact Or.inl ⟨refunded, by decide, rfl⟩

/-- A lower-case owner: the theorem applies, and the delivery converges. -/
theorem converges_iff_lowerCase :
    Converges (superLikes lowerCaseOwner) grantAndRefund
      [(superLikes lowerCaseOwner).input granted, (superLikes lowerCaseOwner).input refunded]
      ownerOnly :=
  (converges_iff (grantAndRefund_delivery lowerCaseOwner)
    ⟨rfl, rfl, rfl, by decide⟩).2 (Or.inl (by decide))

/-- An upper-case owner: the refund of the purchase throws, because PostgreSQL
returned the owner of the grant in lower case. -/
theorem upperCase_refund_throws :
    Delivery (superLikes upperCaseOwner) grantAndRefund
        [(superLikes upperCaseOwner).input granted, (superLikes upperCaseOwner).input refunded] ∧
      applyRevenueCatEvent ((superLikes upperCaseOwner).input refunded)
          (deliver [(superLikes upperCaseOwner).input granted] ownerOnly) =
        .error (.error "REVENUECAT_TRANSACTION_OWNER_CONFLICT") ∧
      ¬ Converges (superLikes upperCaseOwner) grantAndRefund
          [(superLikes upperCaseOwner).input granted, (superLikes upperCaseOwner).input refunded]
          ownerOnly := by
  have hthrows : applyRevenueCatEvent ((superLikes upperCaseOwner).input refunded)
      (deliver [(superLikes upperCaseOwner).input granted] ownerOnly) =
      .error (.error "REVENUECAT_TRANSACTION_OWNER_CONFLICT") := by
    rfl
  refine ⟨grantAndRefund_delivery upperCaseOwner, hthrows, fun hconverges => ?_⟩
  obtain ⟨result, db', hcall⟩ := hconverges.accepted
    [(superLikes upperCaseOwner).input granted] refunded [] rfl (by decide)
  rw [hthrows] at hcall
  cases hcall

end ChatTea.Billing
