import ChatTea.Billing.Webhook

/-!
# The spelling of an owner

A webhook event names its owner in the spelling of the request. The first event of a purchase
compares nothing; a later one is compared, as text, with what PostgreSQL has stored. This file
compares a run of events with the run in which every owner is spelled as it is stored.

## Main definitions

* `RevenueCatEventInput.lower` — the event with its owner spelled as PostgreSQL stores it
* `FitsPurchase` — a transition fits the stored purchase, spelling apart
* `OwnerSpelledAsStored` — an event that fits a stored purchase names its owner as it is stored
* `PurchaseInvariant` — what the proofs need of the billing tables

## Main results

* `applyRevenueCatEvent_lower` — such an event does what it does in lower case
* `owner_spelling_iff` — a run does what it does in lower case exactly when every event of it is
  such an event
-/

namespace ChatTea.Billing

open Table Transaction

/-! ### Events in lower case -/

def RevenueCatConsumableTransition.lower (transition : RevenueCatConsumableTransition) :
    RevenueCatConsumableTransition :=
  { transition with userId := transition.userId.toUuid.toUuidText }

def RevenueCatEventDetail.lower : RevenueCatEventDetail → RevenueCatEventDetail
  | .recorded => .recorded
  | .subscription userId details => .subscription userId.toUuid.toUuidText details
  | .consumableTransition transition => .consumableTransition transition.lower

def RevenueCatEventInput.lower (input : RevenueCatEventInput) : RevenueCatEventInput :=
  { input with detail := input.detail.lower }

/-- The stored purchase is the owner's, for the same product, and a state of the same time is
the same. -/
structure FitsPurchase (current : RevenueCatTransaction)
    (transition : RevenueCatConsumableTransition) : Prop where
  owner : current.userId = transition.userId.toUuid
  originalTransactionId : current.originalTransactionId = transition.originalTransactionId
  canonicalProductId : current.canonicalProductId = transition.canonicalProductId
  providerProductId : current.providerProductId = transition.providerProductId
  units : transactionUnits current = transition.units
  consistent : current.stateEventTimestampMs = transition.eventTimestampMs →
    current.state = transition.targetState

/-- A new event that fits a stored purchase names its owner as it is stored. -/
def OwnerSpelledAsStored (input : RevenueCatEventInput) (db : Database) : Prop :=
  findBillingEvent input.providerEventId db = none →
    ∀ transition, input.detail = .consumableTransition transition →
      ∀ current, findTransaction transition.providerTransactionId db = some current →
        FitsPurchase current transition → transition.userId.Canonical

variable {input : RevenueCatEventInput} {transition : RevenueCatConsumableTransition}
  {current : RevenueCatTransaction} {start db db' : Database} {result : RevenueCatApplyResult}
  {providerEventId : String}

theorem RevenueCatConsumableTransition.lower_of_canonical (h : transition.userId.Canonical) :
    transition.lower = transition := by
  have howner : transition.userId.toUuid.toUuidText = transition.userId := UuidText.ext h
  unfold lower
  rw [howner]

theorem sameIdentity_iff : SameIdentity current transition ∧
    (current.stateEventTimestampMs = transition.eventTimestampMs →
      current.state = transition.targetState) ↔
      FitsPurchase current transition ∧ transition.userId.Canonical := by
  constructor
  · intro ⟨hidentity, hconsistent⟩
    have hcanonical : transition.userId.Canonical := by
      unfold UuidText.Canonical
      rw [← hidentity.owner]
      exact current.userId.lowerCase
    exact ⟨⟨hidentity.userId_eq, hidentity.originalTransactionId, hidentity.canonicalProductId,
      hidentity.providerProductId, hidentity.units, hconsistent⟩, hcanonical⟩
  · intro ⟨hfits, hcanonical⟩
    have howner : current.userId.text = transition.userId.text := by
      rw [hfits.owner]
      exact hcanonical
    exact ⟨⟨howner, hfits.originalTransactionId, hfits.canonicalProductId,
      hfits.providerProductId, hfits.units⟩, hfits.consistent⟩

/-! ### One event -/

/-- A transition of a stored purchase is accepted only if it fits and is spelled as stored. -/
theorem fits_of_accepted (hfind : findTransaction transition.providerTransactionId db = some current)
    (h : applyConsumableTransition providerEventId transition db = .ok (result, db')) :
    FitsPurchase current transition ∧ transition.userId.Canonical := by
  obtain ⟨-, hcreates | ⟨known, hadvances⟩ | ⟨known, hignores⟩⟩ :=
    applyConsumableTransition_cases h
  · cases hfind.symm.trans hcreates.unknown
  · obtain rfl := Option.some.inj (hfind.symm.trans hadvances.known)
    have hnewer : ¬ current.stateEventTimestampMs = transition.eventTimestampMs :=
      hadvances.newer.ne
    exact sameIdentity_iff.1 ⟨hadvances.identity, fun hsame => absurd hsame hnewer⟩
  · obtain rfl := Option.some.inj (hfind.symm.trans hignores.known)
    exact sameIdentity_iff.1 ⟨hignores.identity, hignores.consistent⟩

/-- A purchase that is not stored yet is stored under its owner, however that is spelled. -/
theorem applyConsumableTransition_lower_of_unknown
    (hfind : findTransaction transition.providerTransactionId db = none) :
    applyConsumableTransition providerEventId transition.lower db =
      applyConsumableTransition providerEventId transition db := by
  have hfind' : findTransaction transition.lower.providerTransactionId db = none := hfind
  have hcreated (id : RowId) : createdTransaction transition.lower id =
      createdTransaction transition id := by
    unfold createdTransaction RevenueCatConsumableTransition.lower
    simp only [Uuid.toUuid_eq]
  have howner : transition.lower.userId.toUuid = transition.userId.toUuid := Uuid.toUuid_eq _
  have hinsert : insertTransaction transition.lower db = insertTransaction transition db := by
    unfold insertTransaction
    rw [hcreated, howner]
    rfl
  unfold applyConsumableTransition
  simp only [hfind, hfind', hinsert, howner]
  rfl

theorem FitsPurchase.lower_iff :
    FitsPurchase current transition.lower ↔ FitsPurchase current transition := by
  have howner : transition.lower.userId.toUuid = transition.userId.toUuid := Uuid.toUuid_eq _
  constructor
  · intro ⟨hown, horiginal, hcanonical, hproduct, hunits, hconsistent⟩
    rw [howner] at hown
    exact ⟨hown, horiginal, hcanonical, hproduct, hunits, hconsistent⟩
  · intro ⟨hown, horiginal, hcanonical, hproduct, hunits, hconsistent⟩
    rw [← howner] at hown
    exact ⟨hown, horiginal, hcanonical, hproduct, hunits, hconsistent⟩

/-- A transition is accepted in lower case if and only if it is in its own spelling, unless it
fits a stored purchase and is spelled otherwise. -/
theorem applyConsumableTransition_lower
    (hspelled : ∀ current, findTransaction transition.providerTransactionId db = some current →
      FitsPurchase current transition → transition.userId.Canonical)
    (outcome : RevenueCatApplyResult × Database) :
    applyConsumableTransition providerEventId transition db = .ok outcome ↔
      applyConsumableTransition providerEventId transition.lower db = .ok outcome := by
  cases hfind : findTransaction transition.providerTransactionId db with
  | none => rw [applyConsumableTransition_lower_of_unknown hfind]
  | some current =>
      by_cases hcanonical : transition.userId.Canonical
      · rw [transition.lower_of_canonical hcanonical]
      · -- The purchase is stored, and the event fits it in neither spelling.
        have hmisfit : ¬ FitsPurchase current transition := fun hfits =>
          hcanonical (hspelled current hfind hfits)
        have hfind' : findTransaction transition.lower.providerTransactionId db = some current :=
          hfind
        constructor
        · intro hok
          exact absurd (fits_of_accepted hfind hok).1 hmisfit
        · intro hok
          exact absurd (FitsPurchase.lower_iff.1 (fits_of_accepted hfind' hok).1) hmisfit

theorem applySubscription_lower (userId : UuidText) (subscription : RevenueCatSubscription) :
    applySubscription userId.toUuid.toUuidText subscription db =
      applySubscription userId subscription db := by
  unfold applySubscription
  rw [Uuid.toUuid_eq]

/-- An event is accepted, and does the same, in either spelling. -/
theorem applyRevenueCatEvent_lower (h : OwnerSpelledAsStored input db) :
    Same (applyRevenueCatEvent input) (applyRevenueCatEvent input.lower) db := by
  apply Same.of_ok
  intro outcome
  obtain ⟨providerEventId, payloadHash, detail⟩ := input
  unfold applyRevenueCatEvent
  cases hevent : findBillingEvent providerEventId db with
  | some event =>
      simp only [RevenueCatEventInput.lower, hevent]
      exact Iff.rfl
  | none =>
      cases detail with
      | recorded =>
          simp only [RevenueCatEventInput.lower, RevenueCatEventDetail.lower, hevent]
      | subscription userId details =>
          simp only [RevenueCatEventInput.lower, RevenueCatEventDetail.lower, hevent]
          rw [applySubscription_lower]
          rfl
      | consumableTransition transition =>
          simp only [RevenueCatEventInput.lower, RevenueCatEventDetail.lower, hevent]
          apply applyConsumableTransition_lower
          intro current hfind hfits
          exact h hevent transition rfl current hfind hfits

/-! ### The tables -/

/-- What the billing tables are after every run: the ledger invariant, and stored purchases of
something by an account. -/
structure PurchaseInvariant (db : Database) : Prop extends LedgerInvariant db where
  owners : ∀ row ∈ db.revenueCatTransactions, db.hasUser row.userId
  units : ∀ row ∈ db.revenueCatTransactions, (transactionUnits row).Present

theorem PurchaseInvariant.of_empty (hevents : db.billingEvents = [])
    (htransactions : db.revenueCatTransactions = [])
    (hledger : db.revenueCatTransactionLedger = []) : PurchaseInvariant db := by
  constructor
  · constructor <;> simp [hevents, htransactions, hledger, UniqueKey]
  · simp [htransactions]
  · simp [htransactions]

theorem PurchaseInvariant.creates (h : PurchaseInvariant db)
    (hledger : LedgerInvariant db') (hcreates : Creates providerEventId transition db db' result) :
    PurchaseInvariant db' := by
  obtain ⟨-, howner, hunits, -, balances, -, rfl⟩ := hcreates
  refine ⟨hledger, fun row hrow => ?_, fun row hrow => ?_⟩
  · rcases List.mem_append.1 hrow with hold | hnew
    · exact h.owners row hold
    · rw [List.mem_singleton.1 hnew]
      exact howner
  · rcases List.mem_append.1 hrow with hold | hnew
    · exact h.units row hold
    · rw [List.mem_singleton.1 hnew]
      exact hunits

theorem PurchaseInvariant.advances (h : PurchaseInvariant db) (hledger : LedgerInvariant db')
    (hadvances : Advances providerEventId transition current db db' result) :
    PurchaseInvariant db' := by
  obtain ⟨hknown, -, -, -, balances, -, rfl⟩ := hadvances
  have hmem := (mem_of_findTransaction hknown).1
  -- The row that is updated keeps its owner and its units.
  have hrow {row : RevenueCatTransaction}
      (hrow : row ∈ (updateTransaction current transition db).revenueCatTransactions) :
      ∃ old ∈ db.revenueCatTransactions, row.userId = old.userId ∧
        transactionUnits row = transactionUnits old := by
    rcases mem_updateTransaction h.toLedgerInvariant hmem hrow with rfl | ⟨hold, -⟩
    · exact ⟨current, hmem, rfl, rfl⟩
    · exact ⟨row, hold, rfl, rfl⟩
  refine ⟨hledger, fun row hin => ?_, fun row hin => ?_⟩
  · obtain ⟨old, hold, howner, -⟩ := hrow hin
    rw [howner]
    exact h.owners old hold
  · obtain ⟨old, hold, -, hunits⟩ := hrow hin
    rw [hunits]
    exact h.units old hold

theorem PurchaseInvariant.recordEvent (h : PurchaseInvariant db)
    (hunknown : findBillingEvent input.providerEventId db = none) :
    PurchaseInvariant (recordEvent input db) :=
  ⟨h.toLedgerInvariant.recordEvent hunknown, h.owners, h.units⟩

theorem findBillingEvent_recorded (input : RevenueCatEventInput)
    (hunknown : findBillingEvent input.providerEventId db = none) :
    findBillingEvent input.providerEventId (recordEvent input db) ≠ none := by
  unfold findBillingEvent Billing.recordEvent at *
  rw [lookup_append_singleton, hunknown]
  simp

theorem PurchaseInvariant.apply (h : PurchaseInvariant db)
    (hcall : applyRevenueCatEvent input db = .ok (result, db')) : PurchaseInvariant db' := by
  rcases applyRevenueCatEvent_cases hcall with ⟨-, -, rfl⟩ | ⟨hunknown, hdetail⟩
  · exact h
  have hrecorded := h.recordEvent hunknown
  have hfound := findBillingEvent_recorded input hunknown
  rcases hdetail with ⟨-, -, rfl⟩ | ⟨userId, subscription, -, hsubscription⟩ |
    ⟨transition, -, htransition⟩
  · exact hrecorded
  · obtain ⟨subscriptions, nextRowId, hdrawn, rfl⟩ := applySubscription_writes hsubscription
    exact ⟨hrecorded.toLedgerInvariant.of_eq rfl rfl rfl hdrawn, hrecorded.owners, hrecorded.units⟩
  · obtain ⟨hnew, hcreates | ⟨current, hadvances⟩ | ⟨current, hignores⟩⟩ :=
      applyConsumableTransition_cases htransition
    · exact hrecorded.creates (hrecorded.toLedgerInvariant.creates hfound hnew hcreates) hcreates
    · exact hrecorded.advances (hrecorded.toLedgerInvariant.advances hfound hnew hadvances) hadvances
    · have hledger := hrecorded.toLedgerInvariant.ignores hfound hnew hignores
      obtain ⟨-, -, -, -, -, rfl⟩ := hignores
      exact ⟨hledger, hrecorded.owners, hrecorded.units⟩

theorem PurchaseInvariant.commit (h : PurchaseInvariant db) (input : RevenueCatEventInput) :
    PurchaseInvariant (Transaction.commit (applyRevenueCatEvent input) db) := by
  rcases commit_cases (applyRevenueCatEvent input) db with ⟨result, hcall⟩ | ⟨-, hstate⟩
  · exact h.apply hcall
  · rw [hstate]
    exact h

/-- An event that fits in another spelling is refused, and accepted in lower case. -/
theorem PurchaseInvariant.refused (h : PurchaseInvariant db)
    (hspelled : ¬ OwnerSpelledAsStored input db) :
    (applyRevenueCatEvent input db).toOption.map Prod.fst ≠
      (applyRevenueCatEvent input.lower db).toOption.map Prod.fst := by
  obtain ⟨providerEventId, payloadHash, detail⟩ := input
  unfold OwnerSpelledAsStored at hspelled
  push Not at hspelled
  obtain ⟨hevent, transition, hdetail, current, hfind, hfits, hcanonical⟩ := hspelled
  dsimp only at hevent hdetail
  subst hdetail
  let recorded :=
    Billing.recordEvent ⟨providerEventId, payloadHash, .consumableTransition transition⟩ db
  have hcall : applyRevenueCatEvent
      ⟨providerEventId, payloadHash, .consumableTransition transition⟩ db =
        applyConsumableTransition providerEventId transition recorded := by
    simp only [applyRevenueCatEvent, hevent]
    rfl
  have hcall' : applyRevenueCatEvent (RevenueCatEventInput.lower
      ⟨providerEventId, payloadHash, .consumableTransition transition⟩) db =
        applyConsumableTransition providerEventId transition.lower recorded := by
    simp only [applyRevenueCatEvent, RevenueCatEventInput.lower, RevenueCatEventDetail.lower, hevent]
    rfl
  have hfound : findTransaction transition.lower.providerTransactionId recorded = some current :=
    hfind
  have hmem := (mem_of_findTransaction hfind).1
  obtain ⟨result, after, haccepted⟩ : ∃ result after,
      applyConsumableTransition providerEventId transition.lower recorded = .ok (result, after) := by
    have hlower : FitsPurchase current transition.lower := FitsPurchase.lower_iff.2 hfits
    have hstored : transition.lower.userId.Canonical := transition.userId.toUuid.lowerCase
    apply applyConsumableTransition_succeeds
    · rw [← hlower.owner]
      exact h.owners current hmem
    · intro entry hentry hid
      rw [← hid] at hevent
      exact h.entries_recorded entry hentry hevent
    · have hunits := h.units current hmem
      rw [hlower.units] at hunits
      exact hunits
    · intro known hknown
      obtain rfl := Option.some.inj (hfound.symm.trans hknown)
      exact sameIdentity_iff.2 ⟨hlower, hstored⟩
  rw [hcall, hcall', haccepted]
  intro hsame
  cases hspelledCall : applyConsumableTransition providerEventId transition recorded with
  | error failure =>
      rw [hspelledCall] at hsame
      cases hsame
  | ok outcome =>
      have hfound' : findTransaction transition.providerTransactionId recorded = some current :=
        hfind
      exact hcanonical (fits_of_accepted hfound' hspelledCall).2

/-! ### Runs of events -/

/-- A run of events is accepted, answered and stored as in lower case. -/
structure OwnerSpellingFree (inputs : List RevenueCatEventInput) (start : Database) : Prop where
  returned : replies applyRevenueCatEvent inputs start =
    replies applyRevenueCatEvent (inputs.map RevenueCatEventInput.lower) start
  stored : run applyRevenueCatEvent inputs start =
    run applyRevenueCatEvent (inputs.map RevenueCatEventInput.lower) start

/-- **The spelling of an owner.** A run of webhook events does what it does with every owner
spelled in lower case exactly when each new event that fits a stored purchase is spelled so. -/
theorem owner_spelling_iff (h : PurchaseInvariant start) (inputs : List RevenueCatEventInput) :
    OwnerSpellingFree inputs start ↔
      Along applyRevenueCatEvent OwnerSpelledAsStored inputs start := by
  have hsame (input : RevenueCatEventInput) (db : Database) (_ : PurchaseInvariant db)
      (hspelled : OwnerSpelledAsStored input db) :
      Same (applyRevenueCatEvent input) (applyRevenueCatEvent input.lower) db :=
    applyRevenueCatEvent_lower hspelled
  have hstep (input : RevenueCatEventInput) (db : Database) (hinv : PurchaseInvariant db)
      (_ : OwnerSpelledAsStored input db) :
      PurchaseInvariant (Transaction.commit (applyRevenueCatEvent input) db) := hinv.commit input
  constructor
  · intro hfree
    exact along_of_replies hsame hstep (fun _ _ hinv => hinv.refused) h hfree.returned
  · intro halong
    obtain ⟨hreturned, hstored, -⟩ := run_map_of_along hsame hstep h halong
    exact ⟨hreturned, hstored⟩

/-! ### A refund in upper case -/

/-- An owner with a letter in upper case. -/
def upperOwner : UuidText where
  text := "C0000000-0000-4000-8000-000000000001".toList
  wellFormed := by decide

def upperOwnerOnly : Database := .ofUsers [.visible upperOwner.toUuid]

/-- An event of the purchase of one boost. -/
def boostEvent (owner : UuidText) (providerEventId : String) (eventTimestampMs : ℤ)
    (targetState : TransactionState) : RevenueCatEventInput where
  providerEventId := providerEventId
  payloadHash := providerEventId
  detail := .consumableTransition
    { providerTransactionId := "transaction"
      originalTransactionId := "transaction"
      userId := owner
      canonicalProductId := "chattea_boost_30m"
      providerProductId := "chattea_boost_30m"
      eventTimestampMs := eventTimestampMs
      targetState := targetState
      units := { superLikeCredits := 0, boostCredits := 1 } }

/-- Spelled in lower case, the owner gets the boost, and the refund fits the stored purchase. -/
theorem owner_spelling_iff_purchase :
    OwnerSpellingFree [boostEvent upperOwner.toUuid.toUuidText "bought" 1 .granted,
      boostEvent upperOwner.toUuid.toUuidText "refunded" 2 .refunded] upperOwnerOnly := by
  apply (owner_spelling_iff (.of_empty rfl rfl rfl) _).2
  refine ⟨?_, ?_, trivial⟩
  · intro _ transition hdetail current hfind
    cases hfind
  · intro _ transition hdetail _ _ _
    cases hdetail
    exact upperOwner.toUuid.lowerCase

/-- The refund of a purchase whose owner is spelled in upper case is refused. -/
theorem refund_refused : isVersionedUuid upperOwner.text ∧ PurchaseInvariant upperOwnerOnly ∧
    ¬ OwnerSpellingFree
      [boostEvent upperOwner "bought" 1 .granted, boostEvent upperOwner "refunded" 2 .refunded]
      upperOwnerOnly := by
  refine ⟨by decide, .of_empty rfl rfl rfl, fun hfree => ?_⟩
  have hrefused := hfree.returned
  revert hrefused
  decide

end ChatTea.Billing
