import ChatTea.Database.Schema
import ChatTea.Lib.Table
import ChatTea.Lib.Transaction

/-!
# The billing repository

The embedding of `BillingRepository.applyRevenueCatEvent` and of the helpers it
calls. A call is one transaction: it takes the database and returns its result
with the database it commits, or the failure it throws. The advisory locks make
calls on one key run one after the other, which is how runs of calls are
modelled, so they leave no trace here.

## Main definitions

* `RevenueCatEventInput`, `RevenueCatApplyResult` — what a call takes and returns
* `transitionDelta` — what a change of state does to the owner's credits
* `applyConsumableTransition`, `applySubscription` — the two kinds of effect
* `applyRevenueCatEvent` — the call
-/

namespace ChatTea.Billing

open Table Transaction

structure ConsumableUnits where
  superLikeCredits : ℤ
  boostCredits : ℤ
deriving DecidableEq

/-- `ZERO_DELTA`. -/
def zeroDelta : ConsumableUnits := { superLikeCredits := 0, boostCredits := 0 }

/-- An absent field is `undefined` in the source. -/
structure RevenueCatSubscription where
  planId : PlanId
  providerCustomerId : Option String
  providerProductId : String
  eventTimestampMs : ℤ
  startsAt : Option Timestamp
  endsAt : Option Timestamp
  status : SubscriptionStatus
deriving DecidableEq

structure RevenueCatConsumableTransition where
  providerTransactionId : String
  originalTransactionId : String
  userId : UuidText
  canonicalProductId : String
  providerProductId : String
  eventTimestampMs : ℤ
  targetState : TransactionState
  units : ConsumableUnits
deriving DecidableEq

/-- What an event carries besides its identity: nothing, a subscription, or a
transition of a consumable purchase. -/
inductive RevenueCatEventDetail where
  | recorded
  | subscription (userId : UuidText) (subscription : RevenueCatSubscription)
  | consumableTransition (transition : RevenueCatConsumableTransition)
deriving DecidableEq

structure RevenueCatEventInput where
  providerEventId : String
  payloadHash : String
  detail : RevenueCatEventDetail
deriving DecidableEq

inductive RevenueCatOutcome where
  | applied
  | duplicate
  | stale
deriving DecidableEq

structure RevenueCatApplyResult where
  outcome : RevenueCatOutcome
  effectiveState : Option TransactionState
  balanceDelta : ConsumableUnits
deriving DecidableEq

/-- The value of the `provider` columns. -/
def revenuecat : String := "revenuecat"

/-! ### Consumable purchases -/

/-- What moving a transaction to its target state adds to the owner's credits. -/
def transitionDelta (currentState : Option TransactionState) (targetState : TransactionState)
    (units : ConsumableUnits) : ConsumableUnits :=
  if currentState = some targetState then zeroDelta
  else if targetState = .granted then units
  else if currentState = some .granted then
    { superLikeCredits := -units.superLikeCredits, boostCredits := -units.boostCredits }
  else zeroDelta

/-- The stored row and the transition name the same purchase. The stored owner
is compared as text, in the spelling PostgreSQL returns. -/
def assertTransactionIdentity (current : RevenueCatTransaction)
    (transition : RevenueCatConsumableTransition) : Except Failure Unit := do
  throwIf (.error "REVENUECAT_TRANSACTION_OWNER_CONFLICT")
    (current.userId.text ≠ transition.userId.text)
  throwIf (.error "REVENUECAT_TRANSACTION_PRODUCT_CONFLICT")
    (current.originalTransactionId ≠ transition.originalTransactionId ∨
      current.canonicalProductId ≠ transition.canonicalProductId ∨
      current.providerProductId ≠ transition.providerProductId)
  throwIf (.error "REVENUECAT_TRANSACTION_UNITS_CONFLICT")
    (current.superLikeUnits ≠ transition.units.superLikeCredits ∨
      current.boostUnits ≠ transition.units.boostCredits)

/-- The column pair `revenuecat_transactions_provider_transaction_unique`. -/
def transactionKey (row : RevenueCatTransaction) : String × String :=
  (row.provider, row.providerTransactionId)

def findTransaction (providerTransactionId : String) (db : Database) :
    Option RevenueCatTransaction :=
  lookup transactionKey (revenuecat, providerTransactionId) db.revenueCatTransactions

/-- The row a first transition inserts. -/
def createdTransaction (transition : RevenueCatConsumableTransition) (id : RowId) :
    RevenueCatTransaction where
  id := id
  provider := revenuecat
  providerTransactionId := transition.providerTransactionId
  originalTransactionId := transition.originalTransactionId
  userId := transition.userId.toUuid
  canonicalProductId := transition.canonicalProductId
  providerProductId := transition.providerProductId
  superLikeUnits := transition.units.superLikeCredits
  boostUnits := transition.units.boostCredits
  state := transition.targetState
  stateEventTimestampMs := transition.eventTimestampMs

/-- The `INSERT` of a new transaction, with the constraints of its table. -/
def insertTransaction (transition : RevenueCatConsumableTransition) (db : Database) :
    Except Failure (RowId × Database) := do
  require (.constraint "revenuecat_transactions_userId_fkey") (db.hasUser transition.userId.toUuid)
  require (.constraint "revenuecat_transactions_units_nonnegative")
    (0 ≤ transition.units.superLikeCredits ∧ 0 ≤ transition.units.boostCredits)
  require (.constraint "revenuecat_transactions_units_present")
    (0 < transition.units.superLikeCredits ∨ 0 < transition.units.boostCredits)
  return (db.nextRowId,
    { db with
      revenueCatTransactions :=
        db.revenueCatTransactions ++ [createdTransaction transition db.nextRowId]
      nextRowId := db.nextRowId + 1 })

/-- The `UPDATE` that moves a stored transaction to its target state. -/
def updateTransaction (current : RevenueCatTransaction)
    (transition : RevenueCatConsumableTransition) (db : Database) : Database :=
  { db with
    revenueCatTransactions :=
      updateWhere (fun row => row.id = current.id)
        (fun row =>
          { row with
            state := transition.targetState
            stateEventTimestampMs := transition.eventTimestampMs })
        db.revenueCatTransactions }

/-- The `INSERT … ON CONFLICT DO UPDATE` on the owner's balance, which is left
out when it would add nothing. -/
def addConsumables (userId : Uuid) (delta : ConsumableUnits) (db : Database) :
    Except Failure Database :=
  if delta.superLikeCredits = 0 ∧ delta.boostCredits = 0 then return db
  else do
    require (.constraint "user_consumable_balances_userId_fkey") (db.hasUser userId)
    return { db with
        userConsumableBalances :=
          upsert ConsumableBalance.userId
            { userId
              superLikeCredits := delta.superLikeCredits
              boostCredits := delta.boostCredits }
            (fun row =>
              { row with
                superLikeCredits := row.superLikeCredits + delta.superLikeCredits
                boostCredits := row.boostCredits + delta.boostCredits })
            db.userConsumableBalances }

/-- The `INSERT` into the ledger, whose event ids are unique. -/
def insertLedgerEntry (entry : LedgerEntry) (db : Database) : Except Failure Database := do
  throwIf (.constraint "revenuecat_transaction_ledger_providerEventId_key")
    (db.revenueCatTransactionLedger.any fun row => row.providerEventId = entry.providerEventId)
  return { db with revenueCatTransactionLedger := db.revenueCatTransactionLedger ++ [entry] }

/-- The ledger row of a transition. -/
def ledgerEntry (providerEventId : String) (transactionId : RowId)
    (transition : RevenueCatConsumableTransition) (effectiveState : TransactionState)
    (balanceDelta : ConsumableUnits) (stale : Bool) : LedgerEntry where
  providerEventId := providerEventId
  revenuecatTransactionId := transactionId
  eventTimestampMs := transition.eventTimestampMs
  requestedState := transition.targetState
  effectiveState := effectiveState
  superLikeDelta := balanceDelta.superLikeCredits
  boostDelta := balanceDelta.boostCredits
  applied := !stale

def applyConsumableTransition (providerEventId : String)
    (transition : RevenueCatConsumableTransition) (db : Database) :
    Except Failure (RevenueCatApplyResult × Database) := do
  let current := findTransaction transition.providerTransactionId db
  if let some row := current then
    assertTransactionIdentity row transition
    throwIf (.error "REVENUECAT_EVENT_TIMESTAMP_CONFLICT")
      (row.stateEventTimestampMs = transition.eventTimestampMs ∧
        row.state ≠ transition.targetState)
  let stale := current.any fun row => transition.eventTimestampMs ≤ row.stateEventTimestampMs
  let some effectiveState :=
      if stale then current.map (·.state) else some transition.targetState
    | throw (.error "REVENUECAT_TRANSACTION_STATE_INVALID")
  let balanceDelta :=
    if stale then zeroDelta
    else transitionDelta (current.map (·.state)) transition.targetState transition.units
  let (transactionId, db) ←
    match current with
    | none => insertTransaction transition db
    | some row => pure (row.id, if stale then db else updateTransaction row transition db)
  let db ← addConsumables transition.userId.toUuid balanceDelta db
  let entry :=
    ledgerEntry providerEventId transactionId transition effectiveState balanceDelta stale
  let db ← insertLedgerEntry entry db
  return ({ outcome := if stale then .stale else .applied
            effectiveState := some effectiveState
            balanceDelta }, db)

/-! ### Subscriptions -/

def findSubscription (userId : Uuid) (db : Database) : Option UserSubscription :=
  db.userSubscriptions.find? fun row => row.userId = userId ∧ row.provider = some revenuecat

/-- `tx.update(userSubscriptions).set(values)`: a key that is `undefined` is not
set, so the column keeps its value. -/
def updateSubscription (current : UserSubscription) (userId : Uuid)
    (subscription : RevenueCatSubscription) (db : Database) : Database :=
  { db with
    userSubscriptions :=
      updateWhere (fun row => row.id = current.id)
        (fun row =>
          { row with
            userId
            planId := subscription.planId
            status := subscription.status
            provider := some revenuecat
            providerCustomerId := subscription.providerCustomerId <|> row.providerCustomerId
            providerProductId := some subscription.providerProductId
            providerEventTimestampMs := some subscription.eventTimestampMs
            currentPeriodStartsAt := subscription.startsAt <|> row.currentPeriodStartsAt
            currentPeriodEndsAt := subscription.endsAt <|> row.currentPeriodEndsAt })
        db.userSubscriptions }

/-- `tx.insert(userSubscriptions).values(values)`: a key that is `undefined` is
stored as `NULL`. -/
def insertSubscription (userId : Uuid) (subscription : RevenueCatSubscription) (db : Database) :
    Except Failure Database := do
  require (.constraint "user_subscriptions_userId_fkey") (db.hasUser userId)
  return { db with
      userSubscriptions := db.userSubscriptions ++
        [{ id := db.nextRowId
           userId
           planId := subscription.planId
           status := subscription.status
           provider := some revenuecat
           providerCustomerId := subscription.providerCustomerId
           providerProductId := some subscription.providerProductId
           providerEventTimestampMs := some subscription.eventTimestampMs
           currentPeriodStartsAt := subscription.startsAt
           currentPeriodEndsAt := subscription.endsAt }]
      nextRowId := db.nextRowId + 1 }

def applySubscription (userId : UuidText) (subscription : RevenueCatSubscription)
    (db : Database) : Except Failure (RevenueCatApplyResult × Database) := do
  let current := findSubscription userId.toUuid db
  if subscription.eventTimestampMs ≤ (current.bind (·.providerEventTimestampMs)).getD (-1) then
    return ({ outcome := .stale, effectiveState := none, balanceDelta := zeroDelta }, db)
  let db ←
    match current with
    | some row => pure (updateSubscription row userId.toUuid subscription db)
    | none => insertSubscription userId.toUuid subscription db
  return ({ outcome := .applied, effectiveState := none, balanceDelta := zeroDelta }, db)

/-! ### The call -/

def findBillingEvent (providerEventId : String) (db : Database) : Option BillingEvent :=
  lookup BillingEvent.providerEventId providerEventId db.billingEvents

/-- The row of `billing_events` that claims an event. -/
def recordEvent (input : RevenueCatEventInput) (db : Database) : Database :=
  { db with
    billingEvents := db.billingEvents ++
      [{ providerEventId := input.providerEventId
         provider := revenuecat
         payloadHash := input.payloadHash }] }

def applyRevenueCatEvent (input : RevenueCatEventInput) (db : Database) :
    Except Failure (RevenueCatApplyResult × Database) :=
  match findBillingEvent input.providerEventId db with
  | some existingEvent =>
      -- `onConflictDoNothing` returned no row: the event was recorded before.
      if existingEvent.provider ≠ revenuecat ∨ existingEvent.payloadHash ≠ input.payloadHash then
        .error (.error "REVENUECAT_EVENT_PAYLOAD_CONFLICT")
      else
        .ok ({ outcome := .duplicate, effectiveState := none, balanceDelta := zeroDelta }, db)
  | none =>
      let db := recordEvent input db
      match input.detail with
      | .subscription userId subscription => applySubscription userId subscription db
      | .consumableTransition transition =>
          applyConsumableTransition input.providerEventId transition db
      | .recorded =>
          .ok ({ outcome := .applied, effectiveState := none, balanceDelta := zeroDelta }, db)

end ChatTea.Billing
