import ChatTea.Billing.Repository
import Mathlib.Tactic.SplitIfs

/-!
# The ledger of consumable purchases

What a successful `applyRevenueCatEvent` writes, case by case, and the invariant
every run of calls keeps on the billing tables: the ledger rows of a transaction
add up to the units it grants in its present state.

## Main definitions

* `Credit` — the two counters of a balance
* `creditsOf` — what a user owns of a counter, an absent row counting as zero
* `ledgerTotal` — the sum of the ledger rows of a transaction
* `LedgerInvariant` — the invariant of the billing tables

## Main results

* `applyConsumableTransition_cases` — a transition creates, advances or is stale
* `LedgerInvariant.apply` — every successful call keeps the invariant
-/

namespace ChatTea.Billing

open Table Transaction

/-- The two counters of a balance. -/
inductive Credit where
  | superLike
  | boost
deriving DecidableEq

def ConsumableUnits.of (units : ConsumableUnits) : Credit → ℤ
  | .superLike => units.superLikeCredits
  | .boost => units.boostCredits

def balanceCredits (row : ConsumableBalance) : Credit → ℤ
  | .superLike => row.superLikeCredits
  | .boost => row.boostCredits

/-- What a user owns of a counter in a table of balances: zero without a row. -/
def creditsIn (balances : List ConsumableBalance) (userId : Uuid) (credit : Credit) : ℤ :=
  (lookup ConsumableBalance.userId userId balances).elim 0 fun row => balanceCredits row credit

def creditsOf (db : Database) (userId : Uuid) (credit : Credit) : ℤ :=
  creditsIn db.userConsumableBalances userId credit

def transactionUnits (row : RevenueCatTransaction) : ConsumableUnits :=
  { superLikeCredits := row.superLikeUnits, boostCredits := row.boostUnits }

/-- What a transaction in a state is worth: its units when granted. -/
def stateUnits (state : Option TransactionState) (units : ConsumableUnits) (credit : Credit) : ℤ :=
  if state = some .granted then units.of credit else 0

/-- What a stored transaction contributes to its owner. -/
def contribution (row : RevenueCatTransaction) (credit : Credit) : ℤ :=
  stateUnits (some row.state) (transactionUnits row) credit

def entryDelta (entry : LedgerEntry) : ConsumableUnits :=
  { superLikeCredits := entry.superLikeDelta, boostCredits := entry.boostDelta }

/-- The sum of the ledger rows of a transaction. -/
def ledgerTotal (ledger : List LedgerEntry) (transactionId : RowId) (credit : Credit) : ℤ :=
  (ledger.map fun entry =>
    if entry.revenuecatTransactionId = transactionId then (entryDelta entry).of credit else 0).sum

/-! ### What the helpers write -/

@[simp] theorem zeroDelta_of (credit : Credit) : zeroDelta.of credit = 0 := by
  cases credit <;> rfl

theorem transitionDelta_of (currentState : Option TransactionState)
    (targetState : TransactionState) (units : ConsumableUnits) (credit : Credit) :
    (transitionDelta currentState targetState units).of credit =
      stateUnits (some targetState) units credit - stateUnits currentState units credit := by
  unfold transitionDelta stateUnits
  by_cases hsame : currentState = some targetState
  · simp [hsame]
  · cases targetState with
    | granted => simp [hsame]
    | refunded =>
        by_cases hgranted : currentState = some .granted
        · cases credit <;> simp [hgranted, ConsumableUnits.of]
        · simp [hgranted]

theorem ledgerTotal_append (ledger : List LedgerEntry) (entry : LedgerEntry)
    (transactionId : RowId) (credit : Credit) :
    ledgerTotal (ledger ++ [entry]) transactionId credit =
      ledgerTotal ledger transactionId credit +
        if entry.revenuecatTransactionId = transactionId then (entryDelta entry).of credit
        else 0 := by
  simp [ledgerTotal]

theorem ledgerTotal_of_forall_ne {ledger : List LedgerEntry} {transactionId : RowId}
    (hne : ∀ entry ∈ ledger, entry.revenuecatTransactionId ≠ transactionId) (credit : Credit) :
    ledgerTotal ledger transactionId credit = 0 := by
  refine List.sum_eq_zero fun value hvalue => ?_
  obtain ⟨entry, hentry, rfl⟩ := List.mem_map.1 hvalue
  simp [hne entry hentry]

/-- The balances after a user's counters moved by a delta. -/
structure CreditedBy (userId : Uuid) (delta : ConsumableUnits)
    (before after : List ConsumableBalance) : Prop where
  credits : ∀ user credit, creditsIn after user credit =
    creditsIn before user credit + if user = userId then delta.of credit else 0
  unique : UniqueKey ConsumableBalance.userId before → UniqueKey ConsumableBalance.userId after

theorem CreditedBy.refl {userId : Uuid} {delta : ConsumableUnits} (hzero : ∀ c, delta.of c = 0)
    (balances : List ConsumableBalance) : CreditedBy userId delta balances balances where
  credits := by simp [hzero]
  unique := id

/-- The upsert that adds a delta to a user's row credits the delta. -/
theorem creditedBy_upsert (userId : Uuid) (delta : ConsumableUnits)
    (balances : List ConsumableBalance) :
    CreditedBy userId delta balances
      (upsert ConsumableBalance.userId
        { userId
          superLikeCredits := delta.superLikeCredits
          boostCredits := delta.boostCredits }
        (fun row =>
          { row with
            superLikeCredits := row.superLikeCredits + delta.superLikeCredits
            boostCredits := row.boostCredits + delta.boostCredits })
        balances) where
  credits user credit := by
    unfold creditsIn
    rw [lookup_upsert (by intro; rfl)]
    by_cases huser : user = userId
    · subst huser
      cases hrow : lookup ConsumableBalance.userId user balances <;> cases credit <;>
        simp [ConsumableUnits.of, balanceCredits]
    · simp [huser, Ne.symm huser]
  unique hunique := hunique.upsert fun _ => rfl

theorem addConsumables_ok {userId : Uuid} {delta : ConsumableUnits} {db db' : Database}
    (h : addConsumables userId delta db = .ok db') :
    ∃ balances, CreditedBy userId delta db.userConsumableBalances balances ∧
      db' = { db with userConsumableBalances := balances } := by
  unfold addConsumables at h
  split at h
  next hzero =>
    obtain rfl := pure_eq_ok_iff.1 h
    have hdelta : ∀ credit, delta.of credit = 0 := by
      intro credit
      cases credit
      · exact hzero.1
      · exact hzero.2
    exact ⟨_, CreditedBy.refl hdelta _, rfl⟩
  next =>
    obtain ⟨-, -, h⟩ := bind_eq_ok_iff.1 h
    obtain rfl := pure_eq_ok_iff.1 h
    exact ⟨_, creditedBy_upsert userId delta _, rfl⟩

theorem addConsumables_of_hasUser {userId : Uuid} (delta : ConsumableUnits) {db : Database}
    (huser : db.hasUser userId) : ∃ db', addConsumables userId delta db = .ok db' := by
  unfold addConsumables
  split
  · exact ⟨_, rfl⟩
  · rw [require_of huser]
    exact ⟨_, rfl⟩

/-- The units PostgreSQL accepts for a transaction. -/
def ConsumableUnits.Present (units : ConsumableUnits) : Prop :=
  (0 ≤ units.superLikeCredits ∧ 0 ≤ units.boostCredits) ∧
    (0 < units.superLikeCredits ∨ 0 < units.boostCredits)

theorem insertTransaction_ok_iff {transition : RevenueCatConsumableTransition} {db : Database}
    {created : RowId × Database} :
    insertTransaction transition db = .ok created ↔
      db.hasUser transition.userId.toUuid ∧ transition.units.Present ∧
        created = (db.nextRowId,
          { db with
            revenueCatTransactions :=
              db.revenueCatTransactions ++ [createdTransaction transition db.nextRowId]
            nextRowId := db.nextRowId + 1 }) := by
  simp only [insertTransaction, ConsumableUnits.Present, bind_eq_ok_iff, require_eq_ok_iff,
    pure_eq_ok_iff]
  constructor
  · rintro ⟨-, huser, -, hnonneg, -, hpos, rfl⟩
    exact ⟨huser, ⟨hnonneg, hpos⟩, rfl⟩
  · rintro ⟨huser, ⟨hnonneg, hpos⟩, rfl⟩
    exact ⟨(), huser, (), hnonneg, (), hpos, rfl⟩

/-- The stored row and the transition agree on everything but state and time. -/
structure SameIdentity (row : RevenueCatTransaction)
    (transition : RevenueCatConsumableTransition) : Prop where
  owner : row.userId.text = transition.userId.text
  originalTransactionId : row.originalTransactionId = transition.originalTransactionId
  canonicalProductId : row.canonicalProductId = transition.canonicalProductId
  providerProductId : row.providerProductId = transition.providerProductId
  units : transactionUnits row = transition.units

/-- The transition names the stored owner. -/
theorem SameIdentity.userId_eq {row : RevenueCatTransaction}
    {transition : RevenueCatConsumableTransition} (h : SameIdentity row transition) :
    row.userId = transition.userId.toUuid := by
  refine Uuid.ext ?_
  calc row.userId.text = row.userId.text.lower := row.userId.lowerCase.symm
    _ = transition.userId.text.lower := by rw [h.owner]

theorem assertTransactionIdentity_ok_iff {row : RevenueCatTransaction}
    {transition : RevenueCatConsumableTransition} :
    assertTransactionIdentity row transition = .ok () ↔ SameIdentity row transition := by
  simp only [assertTransactionIdentity, bind_eq_ok_iff, throwIf_eq_ok_iff, not_or, not_not]
  constructor
  · rintro ⟨-, howner, -, ⟨horiginal, hcanonical, hproduct⟩, hsuperLike, hboost⟩
    refine ⟨howner, horiginal, hcanonical, hproduct, ?_⟩
    simp [transactionUnits, hsuperLike, hboost]
  · rintro ⟨howner, horiginal, hcanonical, hproduct, hunits⟩
    refine ⟨(), howner, (), ⟨horiginal, hcanonical, hproduct⟩, ?_, ?_⟩
    · exact congrArg ConsumableUnits.superLikeCredits hunits
    · exact congrArg ConsumableUnits.boostCredits hunits

theorem insertLedgerEntry_ok_iff {entry : LedgerEntry} {db db' : Database} :
    insertLedgerEntry entry db = .ok db' ↔
      (∀ row ∈ db.revenueCatTransactionLedger, row.providerEventId ≠ entry.providerEventId) ∧
        db' = { db with
          revenueCatTransactionLedger := db.revenueCatTransactionLedger ++ [entry] } := by
  simp only [insertLedgerEntry, bind_eq_ok_iff, throwIf_eq_ok_iff, pure_eq_ok_iff]
  constructor
  · rintro ⟨-, hnew, rfl⟩
    exact ⟨by simpa using hnew, rfl⟩
  · rintro ⟨hnew, rfl⟩
    exact ⟨(), by simpa using hnew, rfl⟩

/-! ### What a transition writes -/

/-- A transition of an unknown transaction creates its row. -/
structure Creates (providerEventId : String) (transition : RevenueCatConsumableTransition)
    (db db' : Database) (result : RevenueCatApplyResult) : Prop where
  unknown : findTransaction transition.providerTransactionId db = none
  owner : db.hasUser transition.userId.toUuid
  units : transition.units.Present
  delta : result.balanceDelta = transitionDelta none transition.targetState transition.units
  writes : ∃ balances,
    CreditedBy transition.userId.toUuid result.balanceDelta db.userConsumableBalances balances ∧
    db' = { db with
      revenueCatTransactions :=
        db.revenueCatTransactions ++ [createdTransaction transition db.nextRowId]
      nextRowId := db.nextRowId + 1
      userConsumableBalances := balances
      revenueCatTransactionLedger := db.revenueCatTransactionLedger ++
        [ledgerEntry providerEventId db.nextRowId transition transition.targetState
          result.balanceDelta false] }

/-- A transition newer than the stored state replaces the state. -/
structure Advances (providerEventId : String) (transition : RevenueCatConsumableTransition)
    (current : RevenueCatTransaction) (db db' : Database) (result : RevenueCatApplyResult) :
    Prop where
  known : findTransaction transition.providerTransactionId db = some current
  identity : SameIdentity current transition
  newer : current.stateEventTimestampMs < transition.eventTimestampMs
  delta : result.balanceDelta =
    transitionDelta (some current.state) transition.targetState transition.units
  writes : ∃ balances,
    CreditedBy transition.userId.toUuid result.balanceDelta db.userConsumableBalances balances ∧
    db' = { updateTransaction current transition db with
      userConsumableBalances := balances
      revenueCatTransactionLedger := db.revenueCatTransactionLedger ++
        [ledgerEntry providerEventId current.id transition transition.targetState
          result.balanceDelta false] }

/-- A transition no newer than the stored state is only written to the ledger. -/
structure Ignores (providerEventId : String) (transition : RevenueCatConsumableTransition)
    (current : RevenueCatTransaction) (db db' : Database) (result : RevenueCatApplyResult) :
    Prop where
  known : findTransaction transition.providerTransactionId db = some current
  identity : SameIdentity current transition
  stale : transition.eventTimestampMs ≤ current.stateEventTimestampMs
  consistent : current.stateEventTimestampMs = transition.eventTimestampMs →
    current.state = transition.targetState
  delta : result.balanceDelta = zeroDelta
  writes : db' = { db with
    revenueCatTransactionLedger := db.revenueCatTransactionLedger ++
      [ledgerEntry providerEventId current.id transition current.state zeroDelta true] }

variable {providerEventId : String} {transition : RevenueCatConsumableTransition}
  {db db' : Database} {result : RevenueCatApplyResult}

/-- A successful transition creates its transaction, advances it, or comes too
late; in each case its event was not in the ledger. -/
theorem applyConsumableTransition_cases
    (h : applyConsumableTransition providerEventId transition db = .ok (result, db')) :
    (∀ row ∈ db.revenueCatTransactionLedger, row.providerEventId ≠ providerEventId) ∧
      (Creates providerEventId transition db db' result ∨
        (∃ current, Advances providerEventId transition current db db' result) ∨
        ∃ current, Ignores providerEventId transition current db db' result) := by
  unfold applyConsumableTransition at h
  cases hfind : findTransaction transition.providerTransactionId db with
  | none =>
      simp only [hfind, Option.any_none, Option.map_none, Bool.false_eq_true, if_false,
        bind_eq_ok_iff, pure_eq_ok_iff, Prod.mk.injEq] at h
      obtain ⟨created, hcreated, credited, hcredited, logged, hlogged, rfl, rfl⟩ := h
      obtain ⟨howner, hunits, rfl⟩ := insertTransaction_ok_iff.1 hcreated
      obtain ⟨balances, hbalances, rfl⟩ := addConsumables_ok hcredited
      obtain ⟨hnew, rfl⟩ := insertLedgerEntry_ok_iff.1 hlogged
      exact ⟨hnew, Or.inl ⟨hfind, howner, hunits, rfl, balances, hbalances, rfl⟩⟩
  | some current =>
      by_cases hstale : transition.eventTimestampMs ≤ current.stateEventTimestampMs
      · simp only [hfind, Option.any_some, Option.map_some, hstale, decide_true, if_true,
          bind_eq_ok_iff, pure_eq_ok_iff, Prod.mk.injEq] at h
        obtain ⟨done, hidentity, checked, hconsistent, target, rfl, credited, hcredited, logged,
          hlogged, rfl, rfl⟩ := h
        obtain rfl : db = credited := pure_eq_ok_iff.1 hcredited
        obtain ⟨hnew, rfl⟩ := insertLedgerEntry_ok_iff.1 hlogged
        exact ⟨hnew, Or.inr (Or.inr ⟨current, hfind, assertTransactionIdentity_ok_iff.1 hidentity,
          hstale, fun htime => not_ne_iff.1 fun hstate => throwIf_eq_ok_iff.1 hconsistent
            ⟨htime, hstate⟩, rfl, rfl⟩)⟩
      · simp only [hfind, Option.any_some, Option.map_some, hstale, decide_false,
          Bool.false_eq_true, if_false, bind_eq_ok_iff, pure_eq_ok_iff, Prod.mk.injEq] at h
        obtain ⟨done, hidentity, -, -, target, rfl, credited, hcredited, logged, hlogged, rfl,
          rfl⟩ := h
        obtain ⟨balances, hbalances, rfl⟩ := addConsumables_ok hcredited
        obtain ⟨hnew, rfl⟩ := insertLedgerEntry_ok_iff.1 hlogged
        exact ⟨hnew, Or.inr (Or.inl ⟨current, hfind, assertTransactionIdentity_ok_iff.1 hidentity,
          not_le.1 hstale, rfl, balances, hbalances, rfl⟩)⟩

/-- A successful transition leaves the accounts and the events alone and appends
one entry for its event. -/
theorem transition_frame
    (h : applyConsumableTransition providerEventId transition db = .ok (result, db')) :
    db'.users = db.users ∧ db'.billingEvents = db.billingEvents ∧
      ∃ entry, entry.providerEventId = providerEventId ∧
        db'.revenueCatTransactionLedger = db.revenueCatTransactionLedger ++ [entry] := by
  obtain ⟨-, hcreates | ⟨current, hadvances⟩ | ⟨current, hignores⟩⟩ :=
    applyConsumableTransition_cases h
  · obtain ⟨-, -, -, -, balances, -, rfl⟩ := hcreates
    exact ⟨rfl, rfl, _, rfl, rfl⟩
  · obtain ⟨-, -, -, -, balances, -, rfl⟩ := hadvances
    exact ⟨rfl, rfl, _, rfl, rfl⟩
  · obtain ⟨-, -, -, -, -, rfl⟩ := hignores
    exact ⟨rfl, rfl, _, rfl, rfl⟩

/-- Two databases agree on what matching stores, and the second has drawn no fewer
row identifiers. -/
structure SameMatching (db db' : Database) : Prop where
  actions : db'.matchActions = db.matchActions
  likes : db'.userLikes = db.userLikes
  rooms : db'.rooms = db.rooms
  members : db'.roomMembers = db.roomMembers
  matchRows : db'.matchRows = db.matchRows
  drawn : db.nextRowId ≤ db'.nextRowId

/-- A successful transition leaves alone what matching stores and the boosts, and
keeps one balance row per user. -/
theorem transition_matching
    (h : applyConsumableTransition providerEventId transition db = .ok (result, db')) :
    SameMatching db db' ∧ db'.userBoosts = db.userBoosts ∧
      (UniqueKey ConsumableBalance.userId db.userConsumableBalances →
        UniqueKey ConsumableBalance.userId db'.userConsumableBalances) := by
  obtain ⟨-, hcreates | ⟨current, hadvances⟩ | ⟨current, hignores⟩⟩ :=
    applyConsumableTransition_cases h
  · obtain ⟨-, -, -, -, balances, hcredited, rfl⟩ := hcreates
    exact ⟨⟨rfl, rfl, rfl, rfl, rfl, Nat.le_succ _⟩, rfl, hcredited.unique⟩
  · obtain ⟨-, -, -, -, balances, hcredited, rfl⟩ := hadvances
    exact ⟨⟨rfl, rfl, rfl, rfl, rfl, le_rfl⟩, rfl, hcredited.unique⟩
  · obtain ⟨-, -, -, -, -, rfl⟩ := hignores
    exact ⟨⟨rfl, rfl, rfl, rfl, rfl, le_rfl⟩, rfl, id⟩

/-- A transition moves its owner's balance by its delta and no other balance. -/
theorem transition_credits
    (h : applyConsumableTransition providerEventId transition db = .ok (result, db'))
    (user : Uuid) (credit : Credit) :
    creditsOf db' user credit = creditsOf db user credit +
      if user = transition.userId.toUuid then result.balanceDelta.of credit else 0 := by
  obtain ⟨-, hcreates | ⟨current, hadvances⟩ | ⟨current, hignores⟩⟩ :=
    applyConsumableTransition_cases h
  · obtain ⟨-, -, -, -, balances, hcredited, rfl⟩ := hcreates
    exact hcredited.credits user credit
  · obtain ⟨-, -, -, -, balances, hcredited, rfl⟩ := hadvances
    exact hcredited.credits user credit
  · obtain ⟨-, -, -, -, hdelta, rfl⟩ := hignores
    rw [hdelta, zeroDelta_of, ite_self, add_zero]
    rfl

/-- A transition that names a present user, an event the ledger lacks, and the
purchase as it is stored, if it is, does not throw. -/
theorem applyConsumableTransition_succeeds
    (howner : db.hasUser transition.userId.toUuid)
    (hnew : ∀ row ∈ db.revenueCatTransactionLedger, row.providerEventId ≠ providerEventId)
    (hunits : transition.units.Present)
    (hknown : ∀ current, findTransaction transition.providerTransactionId db = some current →
      SameIdentity current transition ∧
        (current.stateEventTimestampMs = transition.eventTimestampMs →
          current.state = transition.targetState)) :
    ∃ result db', applyConsumableTransition providerEventId transition db = .ok (result, db') := by
  -- The balance and the ledger accept the write whatever the transition did before.
  have hwrites : ∀ (delta : ConsumableUnits) (entry : LedgerEntry) (mid : Database),
      entry.providerEventId = providerEventId → mid.users = db.users →
      mid.revenueCatTransactionLedger = db.revenueCatTransactionLedger →
      ∃ credited logged, addConsumables transition.userId.toUuid delta mid = .ok credited ∧
        insertLedgerEntry entry credited = .ok logged := by
    intro delta entry mid hentry husers hledger
    have hmid : mid.hasUser transition.userId.toUuid := by
      simpa only [Database.hasUser, husers] using howner
    obtain ⟨credited, hcredited⟩ := addConsumables_of_hasUser delta hmid
    obtain ⟨balances, -, rfl⟩ := addConsumables_ok hcredited
    refine ⟨_, _, hcredited, insertLedgerEntry_ok_iff.2 ⟨fun row hrow => ?_, rfl⟩⟩
    rw [hentry]
    exact hnew row (hledger ▸ hrow)
  unfold applyConsumableTransition
  cases hfind : findTransaction transition.providerTransactionId db with
  | none =>
      have hcreated := insertTransaction_ok_iff.2 ⟨howner, hunits, rfl⟩
      obtain ⟨credited, logged, hcredited, hlogged⟩ := hwrites
        (transitionDelta none transition.targetState transition.units)
        (ledgerEntry providerEventId db.nextRowId transition transition.targetState
          (transitionDelta none transition.targetState transition.units) false)
        { db with
          revenueCatTransactions :=
            db.revenueCatTransactions ++ [createdTransaction transition db.nextRowId]
          nextRowId := db.nextRowId + 1 } rfl rfl rfl
      simp only [Option.any_none, Option.map_none, Bool.false_eq_true, if_false, bind_eq_ok_iff]
      exact ⟨_, _, _, hcreated, credited, hcredited, logged, hlogged, rfl⟩
  | some current =>
      obtain ⟨hidentity, hconsistent⟩ := hknown current hfind
      have hsame := assertTransactionIdentity_ok_iff.2 hidentity
      have htime : ¬ (current.stateEventTimestampMs = transition.eventTimestampMs ∧
          current.state ≠ transition.targetState) := fun h => h.2 (hconsistent h.1)
      by_cases hstale : transition.eventTimestampMs ≤ current.stateEventTimestampMs
      · obtain ⟨credited, logged, hcredited, hlogged⟩ := hwrites zeroDelta
          (ledgerEntry providerEventId current.id transition current.state zeroDelta true)
          db rfl rfl rfl
        simp only [Option.any_some, Option.map_some, hstale, decide_true, if_true, bind_eq_ok_iff]
        exact ⟨_, _, (), hsame, (), throwIf_of_not htime, _, rfl, credited, hcredited, logged,
          hlogged, rfl⟩
      · obtain ⟨credited, logged, hcredited, hlogged⟩ := hwrites
          (transitionDelta (some current.state) transition.targetState transition.units)
          (ledgerEntry providerEventId current.id transition transition.targetState
            (transitionDelta (some current.state) transition.targetState transition.units) false)
          (updateTransaction current transition db) rfl rfl rfl
        simp only [Option.any_some, Option.map_some, hstale, decide_false, Bool.false_eq_true,
          if_false, bind_eq_ok_iff]
        exact ⟨_, _, (), hsame, (), throwIf_of_not htime, _, rfl, credited, hcredited, logged,
          hlogged, rfl⟩

/-! ### What a subscription writes -/

/-- A successful subscription event writes its own table only, and may draw a
row identifier. -/
theorem applySubscription_writes {userId : UuidText} {subscription : RevenueCatSubscription}
    (h : applySubscription userId subscription db = .ok (result, db')) :
    ∃ subscriptions nextRowId, db.nextRowId ≤ nextRowId ∧
      db' = { db with userSubscriptions := subscriptions, nextRowId := nextRowId } := by
  unfold applySubscription at h
  by_cases hstale : subscription.eventTimestampMs ≤
      ((findSubscription userId.toUuid db).bind (·.providerEventTimestampMs)).getD (-1)
  · simp only [hstale, if_true, pure_eq_ok_iff, Prod.mk.injEq] at h
    obtain ⟨-, rfl⟩ := h
    exact ⟨_, _, le_rfl, rfl⟩
  · cases hcurrent : findSubscription userId.toUuid db with
    | some current =>
        rw [hcurrent] at hstale
        simp only [hcurrent, hstale, if_false, bind_eq_ok_iff, pure_eq_ok_iff, Prod.mk.injEq] at h
        obtain ⟨-, rfl, -, rfl⟩ := h
        exact ⟨_, _, le_rfl, rfl⟩
    | none =>
        rw [hcurrent] at hstale
        simp only [hcurrent, hstale, if_false, insertSubscription, bind_eq_ok_iff, pure_eq_ok_iff,
          Prod.mk.injEq] at h
        obtain ⟨-, ⟨-, -, rfl⟩, -, rfl⟩ := h
        exact ⟨_, _, Nat.le_succ _, rfl⟩

/-! ### What a call writes -/

/-- A successful call finds its event recorded, or records it and applies what
the event carries. -/
theorem applyRevenueCatEvent_cases {input : RevenueCatEventInput}
    (h : applyRevenueCatEvent input db = .ok (result, db')) :
    ((∃ event, findBillingEvent input.providerEventId db = some event ∧
        event.provider = revenuecat ∧ event.payloadHash = input.payloadHash) ∧
      result.balanceDelta = zeroDelta ∧ db' = db) ∨
    (findBillingEvent input.providerEventId db = none ∧
      ((input.detail = .recorded ∧ result.balanceDelta = zeroDelta ∧ db' = recordEvent input db) ∨
        (∃ userId subscription, input.detail = .subscription userId subscription ∧
          applySubscription userId subscription (recordEvent input db) = .ok (result, db')) ∨
        ∃ transition, input.detail = .consumableTransition transition ∧
          applyConsumableTransition input.providerEventId transition (recordEvent input db) =
            .ok (result, db'))) := by
  unfold applyRevenueCatEvent at h
  cases hfind : findBillingEvent input.providerEventId db with
  | some event =>
      left
      simp only [hfind] at h
      split at h
      next => cases h
      next hsame =>
        obtain ⟨rfl, rfl⟩ := Prod.mk.inj (Except.ok.inj h)
        rw [not_or, not_ne_iff, not_ne_iff] at hsame
        exact ⟨⟨event, rfl, hsame⟩, rfl, rfl⟩
  | none =>
      refine Or.inr ⟨rfl, ?_⟩
      simp only [hfind] at h
      cases hdetail : input.detail with
      | recorded =>
          simp only [hdetail] at h
          obtain ⟨rfl, rfl⟩ := Prod.mk.inj (Except.ok.inj h)
          exact Or.inl ⟨rfl, rfl, rfl⟩
      | subscription userId subscription =>
          simp only [hdetail] at h
          exact Or.inr (Or.inl ⟨userId, subscription, rfl, h⟩)
      | consumableTransition transition =>
          simp only [hdetail] at h
          exact Or.inr (Or.inr ⟨transition, rfl, h⟩)

/-- A successful call leaves alone what matching stores. -/
theorem applyRevenueCatEvent_matching {input : RevenueCatEventInput}
    (h : applyRevenueCatEvent input db = .ok (result, db')) : SameMatching db db' := by
  rcases applyRevenueCatEvent_cases h with ⟨-, -, rfl⟩ | ⟨-, hdetail⟩
  · exact ⟨rfl, rfl, rfl, rfl, rfl, le_rfl⟩
  rcases hdetail with ⟨-, -, rfl⟩ | ⟨userId, subscription, -, hsubscription⟩ |
    ⟨transition, -, htransition⟩
  · exact ⟨rfl, rfl, rfl, rfl, rfl, le_rfl⟩
  · obtain ⟨subscriptions, nextRowId, hdrawn, rfl⟩ := applySubscription_writes hsubscription
    exact ⟨rfl, rfl, rfl, rfl, rfl, hdrawn⟩
  · obtain ⟨hactions, hlikes, hrooms, hmembers, hmatches, hdrawn⟩ :=
      (transition_matching htransition).1
    exact ⟨hactions, hlikes, hrooms, hmembers, hmatches, hdrawn⟩

/-! ### The invariant of the billing tables -/

/-- What holds of the billing tables after every run of calls. -/
structure LedgerInvariant (db : Database) : Prop where
  unique_events : UniqueKey BillingEvent.providerEventId db.billingEvents
  unique_entries : UniqueKey LedgerEntry.providerEventId db.revenueCatTransactionLedger
  entries_recorded : ∀ entry ∈ db.revenueCatTransactionLedger,
    findBillingEvent entry.providerEventId db ≠ none
  unique_ids : UniqueKey RevenueCatTransaction.id db.revenueCatTransactions
  unique_keys : UniqueKey transactionKey db.revenueCatTransactions
  ids_drawn : ∀ row ∈ db.revenueCatTransactions, row.id < db.nextRowId
  entries_drawn : ∀ entry ∈ db.revenueCatTransactionLedger,
    entry.revenuecatTransactionId < db.nextRowId
  totals : ∀ row ∈ db.revenueCatTransactions, ∀ credit,
    ledgerTotal db.revenueCatTransactionLedger row.id credit = contribution row credit
  ignored : ∀ entry ∈ db.revenueCatTransactionLedger, entry.applied = false →
    ∀ credit, (entryDelta entry).of credit = 0

theorem mem_of_findTransaction {providerTransactionId : String} {current : RevenueCatTransaction}
    (h : findTransaction providerTransactionId db = some current) :
    current ∈ db.revenueCatTransactions ∧
      transactionKey current = (revenuecat, providerTransactionId) :=
  mem_of_lookup h

theorem findBillingEvent_append {event : BillingEvent} {providerEventId : String}
    {events : List BillingEvent}
    (h : lookup BillingEvent.providerEventId providerEventId events ≠ none) :
    lookup BillingEvent.providerEventId providerEventId (events ++ [event]) ≠ none := by
  rw [lookup_append_singleton]
  obtain ⟨found, hfound⟩ := Option.ne_none_iff_exists'.1 h
  simp [hfound]

theorem findBillingEvent_recordEvent (input : RevenueCatEventInput) (providerEventId : String)
    (hne : input.providerEventId ≠ providerEventId) :
    findBillingEvent providerEventId (recordEvent input db) = findBillingEvent providerEventId db := by
  unfold findBillingEvent recordEvent
  rw [lookup_append_singleton]
  simp [hne]

theorem LedgerInvariant.recordEvent {input : RevenueCatEventInput} (h : LedgerInvariant db)
    (hunknown : findBillingEvent input.providerEventId db = none) :
    LedgerInvariant (recordEvent input db) where
  unique_events := h.unique_events.append (lookup_eq_none.1 hunknown)
  unique_entries := h.unique_entries
  entries_recorded entry hentry := findBillingEvent_append (h.entries_recorded entry hentry)
  unique_ids := h.unique_ids
  unique_keys := h.unique_keys
  ids_drawn := h.ids_drawn
  entries_drawn := h.entries_drawn
  totals := h.totals
  ignored := h.ignored

/-- The tables of purchases are untouched and more row identifiers are drawn. -/
theorem LedgerInvariant.of_eq (h : LedgerInvariant db)
    (hevents : db'.billingEvents = db.billingEvents)
    (htransactions : db'.revenueCatTransactions = db.revenueCatTransactions)
    (hledger : db'.revenueCatTransactionLedger = db.revenueCatTransactionLedger)
    (hdrawn : db.nextRowId ≤ db'.nextRowId) : LedgerInvariant db' where
  unique_events := by rw [hevents]; exact h.unique_events
  unique_entries := by rw [hledger]; exact h.unique_entries
  entries_recorded := by
    unfold findBillingEvent
    rw [hledger, hevents]
    exact h.entries_recorded
  unique_ids := by rw [htransactions]; exact h.unique_ids
  unique_keys := by rw [htransactions]; exact h.unique_keys
  ids_drawn row hrow := by
    rw [htransactions] at hrow
    exact lt_of_lt_of_le (h.ids_drawn row hrow) hdrawn
  entries_drawn entry hentry := by
    rw [hledger] at hentry
    exact lt_of_lt_of_le (h.entries_drawn entry hentry) hdrawn
  totals row hrow credit := by
    rw [htransactions] at hrow
    rw [hledger]
    exact h.totals row hrow credit
  ignored entry hentry := by
    rw [hledger] at hentry
    exact h.ignored entry hentry

@[simp] theorem entryDelta_ledgerEntry (providerEventId : String) (transactionId : RowId)
    (transition : RevenueCatConsumableTransition) (effectiveState : TransactionState)
    (delta : ConsumableUnits) (stale : Bool) :
    entryDelta (ledgerEntry providerEventId transactionId transition effectiveState delta stale) =
      delta := rfl

/-- Appending an entry of a known event keeps what concerns the ledger alone. -/
theorem LedgerInvariant.append_entry (h : LedgerInvariant db) (entry : LedgerEntry)
    (hnew : ∀ row ∈ db.revenueCatTransactionLedger, row.providerEventId ≠ entry.providerEventId)
    (hrecorded : findBillingEvent entry.providerEventId db ≠ none)
    (hignored : entry.applied = false → entryDelta entry = zeroDelta) :
    UniqueKey LedgerEntry.providerEventId (db.revenueCatTransactionLedger ++ [entry]) ∧
      (∀ row ∈ db.revenueCatTransactionLedger ++ [entry],
        findBillingEvent row.providerEventId db ≠ none) ∧
      ∀ row ∈ db.revenueCatTransactionLedger ++ [entry], row.applied = false →
        ∀ credit, (entryDelta row).of credit = 0 := by
  refine ⟨h.unique_entries.append hnew, ?_, ?_⟩
  · intro row hrow
    rcases List.mem_append.1 hrow with hold | hlast
    · exact h.entries_recorded row hold
    · rw [List.mem_singleton.1 hlast]
      exact hrecorded
  · intro row hrow happlied credit
    rcases List.mem_append.1 hrow with hold | hlast
    · exact h.ignored row hold happlied credit
    · obtain rfl := List.mem_singleton.1 hlast
      rw [hignored happlied, zeroDelta_of]

theorem LedgerInvariant.creates (h : LedgerInvariant db)
    (hrecorded : findBillingEvent providerEventId db ≠ none)
    (hnew : ∀ row ∈ db.revenueCatTransactionLedger, row.providerEventId ≠ providerEventId)
    (hcreates : Creates providerEventId transition db db' result) : LedgerInvariant db' := by
  obtain ⟨hunknown, -, -, hdelta, balances, -, rfl⟩ := hcreates
  obtain ⟨hentries, hrecorded', hignored⟩ := h.append_entry
    (ledgerEntry providerEventId db.nextRowId transition transition.targetState
      result.balanceDelta false) hnew hrecorded (by simp [ledgerEntry])
  refine
    { unique_events := h.unique_events
      unique_entries := hentries
      entries_recorded := hrecorded'
      unique_ids := h.unique_ids.append fun row hrow => (h.ids_drawn row hrow).ne
      unique_keys := h.unique_keys.append (lookup_eq_none.1 hunknown)
      ids_drawn := ?_
      entries_drawn := ?_
      totals := ?_
      ignored := hignored }
  · intro row hrow
    rcases List.mem_append.1 hrow with hold | hlast
    · exact Nat.lt_succ_of_lt (h.ids_drawn row hold)
    · rw [List.mem_singleton.1 hlast]
      exact Nat.lt_succ_self _
  · intro entry hentry
    rcases List.mem_append.1 hentry with hold | hlast
    · exact Nat.lt_succ_of_lt (h.entries_drawn entry hold)
    · rw [List.mem_singleton.1 hlast]
      exact Nat.lt_succ_self _
  · intro row hrow credit
    rw [ledgerTotal_append]
    rcases List.mem_append.1 hrow with hold | hlast
    · have hne : db.nextRowId ≠ row.id := (h.ids_drawn row hold).ne'
      simpa [ledgerEntry, hne] using h.totals row hold credit
    · -- No older entry can name the identifier just drawn.
      obtain rfl := List.mem_singleton.1 hlast
      have hfresh : ledgerTotal db.revenueCatTransactionLedger db.nextRowId credit = 0 :=
        ledgerTotal_of_forall_ne (fun entry hentry => (h.entries_drawn entry hentry).ne) credit
      calc ledgerTotal db.revenueCatTransactionLedger db.nextRowId credit +
            (if db.nextRowId = db.nextRowId then result.balanceDelta.of credit else 0)
          = (transitionDelta none transition.targetState transition.units).of credit := by
            rw [hfresh, if_pos rfl, hdelta, zero_add]
        _ = stateUnits (some transition.targetState) transition.units credit := by
            rw [transitionDelta_of]
            simp [stateUnits]
        _ = contribution (createdTransaction transition db.nextRowId) credit := rfl

/-- A row of the table after an advance is an old row other than the current
one, or the current one with the new state. -/
theorem mem_updateTransaction (h : LedgerInvariant db) {current row : RevenueCatTransaction}
    (hcurrent : current ∈ db.revenueCatTransactions)
    (hrow : row ∈ (updateTransaction current transition db).revenueCatTransactions) :
    row = { current with
        state := transition.targetState
        stateEventTimestampMs := transition.eventTimestampMs } ∨
      row ∈ db.revenueCatTransactions ∧ row.id ≠ current.id := by
  rcases mem_updateWhere.1 hrow with ⟨old, hold, hid, rfl⟩ | ⟨hold, hid⟩
  · obtain rfl := h.unique_ids.eq_of_key hold hcurrent (by simpa using hid)
    exact Or.inl rfl
  · exact Or.inr ⟨hold, by simpa using hid⟩

theorem LedgerInvariant.advances (h : LedgerInvariant db) {current : RevenueCatTransaction}
    (hrecorded : findBillingEvent providerEventId db ≠ none)
    (hnew : ∀ row ∈ db.revenueCatTransactionLedger, row.providerEventId ≠ providerEventId)
    (hadvances : Advances providerEventId transition current db db' result) :
    LedgerInvariant db' := by
  obtain ⟨hknown, hidentity, -, hdelta, balances, -, rfl⟩ := hadvances
  obtain ⟨hcurrent, -⟩ := mem_of_findTransaction hknown
  obtain ⟨hentries, hrecorded', hignored⟩ := h.append_entry
    (ledgerEntry providerEventId current.id transition transition.targetState
      result.balanceDelta false) hnew hrecorded (by simp [ledgerEntry])
  refine
    { unique_events := h.unique_events
      unique_entries := hentries
      entries_recorded := hrecorded'
      unique_ids := h.unique_ids.updateWhere fun _ => rfl
      unique_keys := h.unique_keys.updateWhere fun _ => rfl
      ids_drawn := ?_
      entries_drawn := ?_
      totals := ?_
      ignored := hignored }
  · intro row hrow
    rcases mem_updateTransaction h hcurrent hrow with rfl | ⟨hold, -⟩
    · exact h.ids_drawn current hcurrent
    · exact h.ids_drawn row hold
  · intro entry hentry
    rcases List.mem_append.1 hentry with hold | hlast
    · exact h.entries_drawn entry hold
    · rw [List.mem_singleton.1 hlast]
      exact h.ids_drawn current hcurrent
  · intro row hrow credit
    rw [ledgerTotal_append]
    rcases mem_updateTransaction h hcurrent hrow with rfl | ⟨hold, hid⟩
    · have hbefore := h.totals current hcurrent credit
      calc ledgerTotal db.revenueCatTransactionLedger current.id credit +
            (if current.id = current.id then result.balanceDelta.of credit else 0)
          = contribution current credit +
              (stateUnits (some transition.targetState) transition.units credit -
                stateUnits (some current.state) transition.units credit) := by
            rw [hbefore, if_pos rfl, hdelta, transitionDelta_of]
        _ = stateUnits (some transition.targetState) (transactionUnits current) credit := by
            rw [← hidentity.units, contribution]
            ring
    · have hne : current.id ≠ row.id := hid.symm
      simpa [ledgerEntry, hne] using h.totals row hold credit

theorem LedgerInvariant.ignores (h : LedgerInvariant db) {current : RevenueCatTransaction}
    (hrecorded : findBillingEvent providerEventId db ≠ none)
    (hnew : ∀ row ∈ db.revenueCatTransactionLedger, row.providerEventId ≠ providerEventId)
    (hignores : Ignores providerEventId transition current db db' result) :
    LedgerInvariant db' := by
  obtain ⟨hknown, -, -, -, -, rfl⟩ := hignores
  obtain ⟨hcurrent, -⟩ := mem_of_findTransaction hknown
  obtain ⟨hentries, hrecorded', hignored⟩ := h.append_entry
    (ledgerEntry providerEventId current.id transition current.state zeroDelta true)
    hnew hrecorded fun _ => rfl
  refine
    { unique_events := h.unique_events
      unique_entries := hentries
      entries_recorded := hrecorded'
      unique_ids := h.unique_ids
      unique_keys := h.unique_keys
      ids_drawn := h.ids_drawn
      entries_drawn := ?_
      totals := ?_
      ignored := hignored }
  · intro entry hentry
    rcases List.mem_append.1 hentry with hold | hlast
    · exact h.entries_drawn entry hold
    · rw [List.mem_singleton.1 hlast]
      exact h.ids_drawn current hcurrent
  · intro row hrow credit
    rw [ledgerTotal_append, entryDelta_ledgerEntry, zeroDelta_of, ite_self, add_zero]
    exact h.totals row hrow credit

/-! ### Looking up a transaction after a write -/

theorem Creates.findTransaction (hcreates : Creates providerEventId transition db db' result)
    (providerTransactionId : String) :
    findTransaction providerTransactionId db' =
      if transition.providerTransactionId = providerTransactionId then
        some (createdTransaction transition db.nextRowId)
      else Billing.findTransaction providerTransactionId db := by
  obtain ⟨hunknown, -, -, -, balances, -, rfl⟩ := hcreates
  unfold Billing.findTransaction at *
  rw [lookup_append_singleton]
  have hkey : transactionKey (createdTransaction transition db.nextRowId) =
      (revenuecat, transition.providerTransactionId) := rfl
  rw [hkey]
  by_cases hid : transition.providerTransactionId = providerTransactionId
  · subst hid
    simp [hunknown]
  · simp [hid]

theorem Advances.findTransaction (h : LedgerInvariant db) {current : RevenueCatTransaction}
    (hadvances : Advances providerEventId transition current db db' result)
    (providerTransactionId : String) :
    findTransaction providerTransactionId db' =
      if transition.providerTransactionId = providerTransactionId then
        some { current with
          state := transition.targetState
          stateEventTimestampMs := transition.eventTimestampMs }
      else Billing.findTransaction providerTransactionId db := by
  obtain ⟨hknown, -, -, -, balances, -, rfl⟩ := hadvances
  obtain ⟨hcurrent, hkey⟩ := mem_of_findTransaction hknown
  unfold Billing.findTransaction updateTransaction at *
  rw [lookup_updateWhere (by intro; rfl)]
  by_cases hid : transition.providerTransactionId = providerTransactionId
  · subst hid
    simp [hknown]
  · rw [if_neg hid]
    cases hrow : lookup transactionKey (revenuecat, providerTransactionId)
        db.revenueCatTransactions with
    | none => rfl
    | some row =>
        -- The row updated is another one, since it has another key.
        obtain ⟨hmem, hrowkey⟩ := mem_of_lookup hrow
        have hne : row.id ≠ current.id := by
          intro hsame
          rw [h.unique_ids.eq_of_key hmem hcurrent hsame, hkey] at hrowkey
          exact hid (Prod.mk.inj hrowkey).2
        simp [hne]

/-- Every successful call keeps the invariant. -/
theorem LedgerInvariant.apply {input : RevenueCatEventInput} (h : LedgerInvariant db)
    (happly : applyRevenueCatEvent input db = .ok (result, db')) : LedgerInvariant db' := by
  rcases applyRevenueCatEvent_cases happly with ⟨-, -, rfl⟩ | ⟨hunknown, hdetail⟩
  · exact h
  have hrecord : LedgerInvariant (Billing.recordEvent input db) := h.recordEvent hunknown
  have hrecorded : findBillingEvent input.providerEventId (Billing.recordEvent input db) ≠ none := by
    simp [findBillingEvent, Billing.recordEvent, lookup_append_singleton]
  rcases hdetail with ⟨-, -, rfl⟩ | ⟨userId, subscription, -, hsubscription⟩ |
    ⟨transition, -, htransition⟩
  · exact hrecord
  · obtain ⟨subscriptions, nextRowId, hdrawn, rfl⟩ := applySubscription_writes hsubscription
    exact hrecord.of_eq rfl rfl rfl hdrawn
  · obtain ⟨hnew, hcreates | ⟨current, hadvances⟩ | ⟨current, hignores⟩⟩ :=
      applyConsumableTransition_cases htransition
    · exact hrecord.creates hrecorded hnew hcreates
    · exact hrecord.advances hrecorded hnew hadvances
    · exact hrecord.ignores hrecorded hnew hignores

end ChatTea.Billing
