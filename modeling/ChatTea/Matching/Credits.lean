import ChatTea.Matching.Writes

/-!
# Conservation of credits

Purchases, refunds, superlikes, undone superlikes and boosts all move the same
two counters. In every state that a run of these calls reaches, a user's balance
is what the user's granted purchases are worth less what is spent: the active
superlikes, respectively the boosts.

## Main definitions

* `Request`, `execute` — the calls of a run
* `grantedUnits`, `spent` — the two sides of a balance
* `CreditInvariant` — the invariant of runs

## Main results

* `CreditInvariant.billing`, `.act`, `.undo`, `.boost` — one call preserves it
* `credits_conserved` — the balances after any run
-/

namespace ChatTea.Matching

open Table Transaction
open Billing

/-- A call of a run. -/
inductive Request where
  | billing (input : RevenueCatEventInput)
  | act (input : ActInput)
  | undo (userId : Uuid) (tie : ℕ) (now : Timestamp)
  | boost (userId : Uuid) (now : Timestamp)

/-- The transaction a call runs, without its result. -/
def execute : Request → Call Database Failure Unit
  | .billing input => fun db => (applyRevenueCatEvent input db).map fun outcome => ((), outcome.2)
  | .act input => fun db => (actOnCandidate input db).map fun outcome => ((), outcome.2)
  | .undo userId tie now => fun db =>
      (undoLastAction userId tie now db).map fun outcome => ((), outcome.2)
  | .boost userId now => fun db =>
      (activateBoost userId now db).map fun outcome => ((), outcome.2)

/-- The billing and matching tables are empty. -/
structure EmptyTables (db : Database) : Prop where
  events : db.billingEvents = []
  transactions : db.revenueCatTransactions = []
  ledger : db.revenueCatTransactionLedger = []
  balances : db.userConsumableBalances = []
  subscriptions : db.userSubscriptions = []
  boosts : db.userBoosts = []
  actions : db.matchActions = []
  likes : db.userLikes = []
  rooms : db.rooms = []
  members : db.roomMembers = []
  matchRows : db.matchRows = []

/-! ### The two sides of a balance -/

/-- What a user's purchases are worth. -/
def grantedUnits (db : Database) (user : Uuid) (credit : Credit) : ℤ :=
  (db.revenueCatTransactions.map fun row =>
    if row.userId = user then contribution row credit else 0).sum

/-- An active superlike of a user. -/
def isSpentSuperLike (user : Uuid) (row : MatchAction) : Bool :=
  row.actorUserId = user ∧ row.action = .superlike ∧ row.revertedAt = none

/-- What a user spent. -/
def spent (db : Database) (user : Uuid) : Credit → ℤ
  | .superLike => db.matchActions.countP fun row => isSpentSuperLike user row
  | .boost => db.userBoosts.countP fun row => row.userId = user

/-- The invariant of runs: balances are conserved, and the tables they are
computed from have unique keys. -/
structure CreditInvariant (db : Database) : Prop where
  ledger : LedgerInvariant db
  unique_balances : UniqueKey ConsumableBalance.userId db.userConsumableBalances
  unique_actions : UniqueKey MatchAction.id db.matchActions
  actions_drawn : ∀ row ∈ db.matchActions, row.id < db.nextRowId
  conserved : ∀ user credit,
    creditsOf db user credit = grantedUnits db user credit - spent db user credit

variable {start db db' : Database}

theorem CreditInvariant.of_empty (h : EmptyTables start) : CreditInvariant start where
  ledger := by
    constructor <;> simp [h.events, h.transactions, h.ledger, UniqueKey]
  unique_balances := by simp [h.balances, UniqueKey]
  unique_actions := by simp [h.actions, UniqueKey]
  actions_drawn := by simp [h.actions]
  conserved user credit := by
    cases credit <;>
      simp [creditsOf, creditsIn, h.balances, lookup, grantedUnits, h.transactions, spent,
        h.actions, h.boosts]

/-! ### Billing -/

/-- A transition moves what its owner's purchases are worth by its delta. -/
theorem grantedUnits_transition {providerEventId : String}
    {transition : RevenueCatConsumableTransition} {result : RevenueCatApplyResult}
    (hledger : LedgerInvariant db)
    (h : applyConsumableTransition providerEventId transition db = .ok (result, db'))
    (user : Uuid) (credit : Credit) :
    grantedUnits db' user credit = grantedUnits db user credit +
      if user = transition.userId.toUuid then result.balanceDelta.of credit else 0 := by
  obtain ⟨-, hcreates | ⟨current, hadvances⟩ | ⟨current, hignores⟩⟩ :=
    applyConsumableTransition_cases h
  · obtain ⟨-, -, -, hdelta, balances, -, rfl⟩ := hcreates
    have hvalue : contribution (createdTransaction transition db.nextRowId) credit =
        result.balanceDelta.of credit := by
      rw [hdelta, transitionDelta_of]
      simp [contribution, stateUnits, createdTransaction, transactionUnits]
    simp only [grantedUnits, List.map_append, List.sum_append, List.map_singleton,
      List.sum_singleton, hvalue]
    by_cases huser : user = transition.userId.toUuid
    · simp [createdTransaction, huser]
    · simp [createdTransaction, huser, Ne.symm huser]
  · obtain ⟨hknown, hidentity, -, hdelta, balances, -, rfl⟩ := hadvances
    obtain ⟨hcurrent, -⟩ := mem_of_findTransaction hknown
    have hmoved : contribution { current with
          state := transition.targetState
          stateEventTimestampMs := transition.eventTimestampMs } credit =
        contribution current credit + result.balanceDelta.of credit := by
      rw [hdelta, transitionDelta_of, ← hidentity.units, contribution, contribution,
        add_sub_cancel]
      rfl
    refine (sum_updateWhere hledger.unique_ids hcurrent fun row =>
      if row.userId = user then contribution row credit else 0).trans ?_
    rw [hmoved, hidentity.userId_eq, grantedUnits]
    by_cases huser : user = transition.userId.toUuid
    · simp only [huser, if_true]
      ring
    · simp [huser, Ne.symm huser]
  · obtain ⟨-, -, -, -, hdelta, rfl⟩ := hignores
    rw [hdelta, zeroDelta_of, ite_self, add_zero]
    rfl

theorem grantedUnits_of_eq
    (htransactions : db'.revenueCatTransactions = db.revenueCatTransactions) (user : Uuid)
    (credit : Credit) : grantedUnits db' user credit = grantedUnits db user credit := by
  rw [grantedUnits, grantedUnits, htransactions]

theorem spent_of_eq (hactions : db'.matchActions = db.matchActions)
    (hboosts : db'.userBoosts = db.userBoosts) (user : Uuid) (credit : Credit) :
    spent db' user credit = spent db user credit := by
  cases credit <;> simp [spent, hactions, hboosts]

/-- A billing call moves a balance and the purchases behind it alike. -/
theorem CreditInvariant.billing {input : RevenueCatEventInput} {result : RevenueCatApplyResult}
    (h : CreditInvariant db) (hcall : applyRevenueCatEvent input db = .ok (result, db')) :
    CreditInvariant db' := by
  have hledger := h.ledger.apply hcall
  rcases applyRevenueCatEvent_cases hcall with ⟨-, -, rfl⟩ | ⟨hunknown, hdetail⟩
  · exact h
  rcases hdetail with ⟨-, -, rfl⟩ | ⟨userId, subscription, -, hsubscription⟩ |
    ⟨transition, -, htransition⟩
  · exact ⟨hledger, h.unique_balances, h.unique_actions, h.actions_drawn, h.conserved⟩
  · obtain ⟨subscriptions, nextRowId, hdrawn, rfl⟩ := applySubscription_writes hsubscription
    exact ⟨hledger, h.unique_balances, h.unique_actions,
      fun row hrow => lt_of_lt_of_le (h.actions_drawn row hrow) hdrawn, h.conserved⟩
  · have hrecorded : LedgerInvariant (recordEvent input db) := h.ledger.recordEvent hunknown
    obtain ⟨hsame, hboosts, hunique⟩ := transition_matching htransition
    refine ⟨hledger, hunique h.unique_balances, ?_, ?_, ?_⟩
    · rw [hsame.actions]
      exact h.unique_actions
    · intro row hrow
      rw [hsame.actions] at hrow
      exact lt_of_lt_of_le (h.actions_drawn row hrow) hsame.drawn
    · intro user credit
      rw [transition_credits htransition, grantedUnits_transition hrecorded htransition,
        spent_of_eq hsame.actions hboosts]
      have hbefore : creditsOf (recordEvent input db) user credit =
          grantedUnits (recordEvent input db) user credit -
            spent (recordEvent input db) user credit := h.conserved user credit
      rw [hbefore]
      ring

/-! ### Matching -/

/-- Looking for the reverse like leaves alone what credits are computed from. -/
theorem matchIfReverseExists_frame (userId targetUserId : UuidText) (db : Database) :
    let after := (matchIfReverseExists userId targetUserId db).2
    after.revenueCatTransactions = db.revenueCatTransactions ∧
      after.revenueCatTransactionLedger = db.revenueCatTransactionLedger ∧
      after.billingEvents = db.billingEvents ∧
      after.userConsumableBalances = db.userConsumableBalances ∧
      after.userBoosts = db.userBoosts ∧ after.matchActions = db.matchActions ∧
      after.userLikes = db.userLikes ∧ after.users = db.users ∧
      db.nextRowId ≤ after.nextRowId := by
  unfold matchIfReverseExists
  split
  · simp
  · dsimp only
    split
    · simp
    · simp

theorem isSpentSuperLike_of_active {row : MatchAction} (hactive : row.revertedAt = none)
    (user : Uuid) :
    isSpentSuperLike user row = decide (row.action = .superlike ∧ user = row.actorUserId) := by
  simp only [isSpentSuperLike, hactive, and_true, decide_eq_decide]
  constructor
  · exact fun h => ⟨h.2, h.1.symm⟩
  · exact fun h => ⟨h.2.symm, h.1⟩

/-- A new action adds the superlike it is charged for. -/
theorem spent_createdAction (input : ActInput) (balances : List ConsumableBalance) (db : Database)
    (user : Uuid) (credit : Credit) :
    spent (afterAction input balances db) user credit = spent db user credit +
      if input.action = .superlike ∧ user = input.userId.toUuid ∧ credit = .superLike then 1
      else 0 := by
  cases credit with
  | boost => simp [spent, afterAction]
  | superLike =>
      have hnew : isSpentSuperLike user (createdAction input db.nextRowId) =
          decide (input.action = .superlike ∧ user = input.userId.toUuid) :=
        isSpentSuperLike_of_active rfl user
      simp only [spent, afterAction, List.countP_append, List.countP_singleton, hnew, and_true]
      by_cases hcharged : input.action = .superlike ∧ user = input.userId.toUuid <;>
        simp [hcharged]

theorem CreditInvariant.act {input : ActInput} {result : ActResult} (h : CreditInvariant db)
    (hcall : actOnCandidate input db = .ok (result, db')) : CreditInvariant db' := by
  rcases actOnCandidate_cases hcall with ⟨existing, -, -, -, rfl⟩ | ⟨-, hcreate⟩
  · exact h
  obtain ⟨-, -, balances, hcharged, hskip, hlike⟩ := createAction_writes hcreate
  -- A skip leaves `afterAction`, and the search for the reverse like frames it.
  have hstored : CreditInvariant (afterAction input balances db) := by
    have hdrawn : ∀ row ∈ db.matchActions, row.id ≠ (createdAction input db.nextRowId).id :=
      fun row hrow => (h.actions_drawn row hrow).ne
    refine ⟨h.ledger.of_eq rfl rfl rfl (Nat.le_succ _), ?_, h.unique_actions.append hdrawn, ?_, ?_⟩
    · by_cases hsuperlike : input.action = .superlike
      · exact (hcharged.superlike hsuperlike h.unique_balances).unique
      · have hsame : balances = db.userConsumableBalances := hcharged.other hsuperlike
        rw [afterAction, hsame]
        exact h.unique_balances
    · intro row hrow
      rcases List.mem_append.1 hrow with hold | hlast
      · exact Nat.lt_succ_of_lt (h.actions_drawn row hold)
      · rw [List.mem_singleton.1 hlast]
        exact Nat.lt_succ_self _
    · intro user credit
      have hcredits : creditsIn balances user credit = creditsOf db user credit -
          if input.action = .superlike ∧ user = input.userId.toUuid ∧ credit = .superLike then 1
          else 0 := by
        by_cases hsuperlike : input.action = .superlike
        · rw [(hcharged.superlike hsuperlike h.unique_balances).credits user credit]
          simp [hsuperlike, creditsOf]
        · rw [hcharged.other hsuperlike]
          simp [hsuperlike, creditsOf]
      calc creditsOf (afterAction input balances db) user credit
          = creditsOf db user credit - _ := hcredits
        _ = grantedUnits db user credit - spent (afterAction input balances db) user credit := by
          rw [h.conserved user credit, spent_createdAction]
          ring
  by_cases haction : input.action = .skip
  · rw [(hskip haction).2.2]
    exact hstored
  · have hframe := matchIfReverseExists_frame input.userId input.targetUserId
      (afterAction input balances db)
    rw [hlike haction] at hframe
    obtain ⟨htransactions, hledger, hevents, hbalances, hboosts, hactions, -, -, hnext⟩ := hframe
    refine ⟨hstored.ledger.of_eq hevents htransactions hledger hnext, ?_, ?_, ?_, ?_⟩
    · exact hbalances ▸ hstored.unique_balances
    · exact hactions ▸ hstored.unique_actions
    · intro row hrow
      rw [hactions] at hrow
      exact lt_of_lt_of_le (hstored.actions_drawn row hrow) hnext
    · intro user credit
      rw [creditsOf, hbalances, grantedUnits_of_eq htransactions, spent_of_eq hactions hboosts]
      exact hstored.conserved user credit

/-- Reverting an active action takes away the superlike it was charged for. -/
theorem spent_revertedActions (h : CreditInvariant db) {action : MatchAction}
    (haction : action ∈ db.matchActions) (hactive : action.revertedAt = none) (now : Timestamp)
    (user : Uuid) :
    ((revertedActions action now db).countP fun row => isSpentSuperLike user row : ℤ) =
      spent db user .superLike -
        if action.action = .superlike ∧ user = action.actorUserId then 1 else 0 := by
  have hreverted : revertedActions action now db =
      updateWhere (fun row => row.id = action.id)
        (fun row => { row with revertedAt := some now }) db.matchActions := by
    refine updateWhere_congr fun row hrow => ?_
    by_cases hid : row.id = action.id
    · obtain rfl := h.unique_actions.eq_of_key hrow haction hid
      simp [hactive]
    · simp [hid]
  have hafter : isSpentSuperLike user { action with revertedAt := some now } = false := by
    simp [isSpentSuperLike]
  rw [hreverted, countP_eq_sum]
  refine (sum_updateWhere h.unique_actions haction
    fun row => if isSpentSuperLike user row then (1 : ℤ) else 0).trans ?_
  rw [hafter, isSpentSuperLike_of_active hactive, spent, countP_eq_sum]
  simp

theorem CreditInvariant.undo {userId : Uuid} {tie : ℕ} {now : Timestamp}
    {result : Option MatchAction} (h : CreditInvariant db)
    (hcall : undoLastAction userId tie now db = .ok (result, db')) : CreditInvariant db' := by
  rcases undoLastAction_cases hcall with ⟨-, -, rfl⟩ |
    ⟨action, likes, balances, haction, hactor, hactive, -, -, hreleased, rfl⟩
  · exact h
  refine ⟨h.ledger.of_eq rfl rfl rfl le_rfl, hreleased.unique h.unique_balances, ?_, ?_, ?_⟩
  · exact h.unique_actions.updateWhere fun _ => rfl
  · intro row hrow
    rcases mem_updateWhere.1 hrow with ⟨old, hold, -, rfl⟩ | ⟨hold, -⟩
    · exact h.actions_drawn old hold
    · exact h.actions_drawn row hold
  · intro user credit
    have hcredits := hreleased.credits user credit
    have hconserved := h.conserved user credit
    rw [creditsOf] at hconserved
    rw [creditsOf, hcredits, hconserved]
    cases credit with
    | superLike =>
        have hspent := spent_revertedActions h haction hactive now user
        change _ = grantedUnits db user .superLike -
          ((revertedActions action now db).countP fun row => isSpentSuperLike user row : ℤ)
        rw [hspent]
        simp only [and_true]
        ring
    | boost => simp [spent, grantedUnits]

theorem CreditInvariant.boost {userId : Uuid} {now : Timestamp} {result : BoostResult}
    (h : CreditInvariant db) (hcall : activateBoost userId now db = .ok (result, db')) :
    CreditInvariant db' := by
  obtain ⟨balances, boost, howner, hcharged, rfl⟩ := activateBoost_writes hcall
  have hone := hcharged h.unique_balances
  refine ⟨h.ledger.of_eq rfl rfl rfl le_rfl, hone.unique, h.unique_actions, h.actions_drawn, ?_⟩
  intro user credit
  have hconserved := h.conserved user credit
  rw [creditsOf] at hconserved
  rw [creditsOf, hone.credits user credit, hconserved]
  cases credit with
  | superLike => simp [spent, grantedUnits]
  | boost =>
      simp only [spent, grantedUnits, List.countP_append, List.countP_singleton, howner]
      by_cases huser : user = userId
      · simp [huser]
        ring
      · simp [huser, Ne.symm huser]

/-! ### Runs -/

theorem map_eq_ok {α : Type} {call : Except Failure (α × Database)} {done : Unit}
    (h : (call.map fun outcome => ((), outcome.2)) = .ok (done, db')) :
    ∃ result, call = .ok (result, db') := by
  cases call with
  | ok outcome =>
      obtain ⟨result, db⟩ := outcome
      obtain rfl : db = db' := (Prod.mk.inj (Except.ok.inj h)).2
      exact ⟨result, rfl⟩
  | error failure => cases h

/-- Every successful call of a run keeps the balances conserved. -/
theorem CreditInvariant.execute {request : Request} {done : Unit} (h : CreditInvariant db)
    (hcall : execute request db = .ok (done, db')) : CreditInvariant db' := by
  cases request with
  | billing input =>
      obtain ⟨result, hresult⟩ := map_eq_ok hcall
      exact h.billing hresult
  | act input =>
      obtain ⟨result, hresult⟩ := map_eq_ok hcall
      exact h.act hresult
  | undo userId tie now =>
      obtain ⟨result, hresult⟩ := map_eq_ok hcall
      exact h.undo hresult
  | boost userId now =>
      obtain ⟨result, hresult⟩ := map_eq_ok hcall
      exact h.boost hresult

theorem creditInvariant_run (hempty : EmptyTables start) (requests : List Request) :
    CreditInvariant (run execute requests start) :=
  run_invariant (CreditInvariant.of_empty hempty)
    (fun _ _ _ _ hbefore hcall => hbefore.execute hcall) requests

theorem grantedUnits_superLike (db : Database) (user : Uuid) :
    grantedUnits db user .superLike =
      ((db.revenueCatTransactions.filter fun row =>
        row.userId = user ∧ row.state = .granted).map (·.superLikeUnits)).sum := by
  rw [sum_filter, grantedUnits]
  refine congrArg List.sum (List.map_congr_left fun row _ => ?_)
  by_cases huser : row.userId = user <;> by_cases hstate : row.state = .granted <;>
    simp [huser, hstate, contribution, stateUnits, transactionUnits, ConsumableUnits.of]

theorem grantedUnits_boost (db : Database) (user : Uuid) :
    grantedUnits db user .boost =
      ((db.revenueCatTransactions.filter fun row =>
        row.userId = user ∧ row.state = .granted).map (·.boostUnits)).sum := by
  rw [sum_filter, grantedUnits]
  refine congrArg List.sum (List.map_congr_left fun row _ => ?_)
  by_cases huser : row.userId = user <;> by_cases hstate : row.state = .granted <;>
    simp [huser, hstate, contribution, stateUnits, transactionUnits, ConsumableUnits.of]

/-- **Conservation of credits.** After any run from empty tables, a balance is
the units of the user's granted purchases less the active superlikes,
respectively the boosts; and a call that throws leaves the database unchanged. -/
theorem credits_conserved (hempty : EmptyTables start) (requests : List Request) :
    (∀ user,
      creditsOf (run execute requests start) user .superLike =
        (((run execute requests start).revenueCatTransactions.filter fun row =>
            row.userId = user ∧ row.state = .granted).map (·.superLikeUnits)).sum -
          ((run execute requests start).matchActions.countP fun row =>
            row.actorUserId = user ∧ row.action = .superlike ∧ row.revertedAt = none : ℕ) ∧
      creditsOf (run execute requests start) user .boost =
        (((run execute requests start).revenueCatTransactions.filter fun row =>
            row.userId = user ∧ row.state = .granted).map (·.boostUnits)).sum -
          ((run execute requests start).userBoosts.countP fun row => row.userId = user : ℕ)) ∧
    ∀ request failure, execute request (run execute requests start) = .error failure →
      Transaction.commit (execute request) (run execute requests start) =
        run execute requests start := by
  have hinvariant := creditInvariant_run hempty requests
  refine ⟨fun user => ⟨?_, ?_⟩, fun request failure => commit_of_error⟩
  · rw [hinvariant.conserved user .superLike, grantedUnits_superLike]
    rfl
  · rw [hinvariant.conserved user .boost, grantedUnits_boost]
    rfl

/-! ### A purchase and a superlike -/

def buyer : UuidText where
  text := "c0000000-0000-4000-8000-000000000001".toList
  wellFormed := by decide

def candidate : UuidText where
  text := "c0000000-0000-4000-8000-000000000002".toList
  wellFormed := by decide

/-- Two accounts that may act on each other. -/
def pairOnly : Database := .ofUsers [.visible buyer.toUuid, .visible candidate.toUuid]

/-- The purchase of five superlikes. -/
def purchase : RevenueCatEventInput where
  providerEventId := "event-1"
  payloadHash := "hash-1"
  detail := .consumableTransition
    { providerTransactionId := "transaction"
      originalTransactionId := "original"
      userId := buyer
      canonicalProductId := "chattea_superlikes_5"
      providerProductId := "chattea_superlikes_5"
      eventTimestampMs := 1
      targetState := .granted
      units := { superLikeCredits := 5, boostCredits := 0 } }

/-- A superlike of the buyer on the candidate. -/
def superlike : ActInput where
  userId := buyer
  targetUserId := candidate
  action := .superlike
  dailyLimit := some 10
  now := 5
  dayStart := 0
  dayEnd := 100

/-- Of five superlikes bought and one spent, four are left. -/
theorem credits_conserved_superlike :
    creditsOf (run execute [.billing purchase, .act superlike] pairOnly) buyer.toUuid .superLike =
      4 := by
  have hempty : EmptyTables pairOnly := by
    constructor <;> rfl
  exact ((credits_conserved hempty [.billing purchase, .act superlike]).1 buyer.toUuid).1.trans
    (by rfl)

end ChatTea.Matching
