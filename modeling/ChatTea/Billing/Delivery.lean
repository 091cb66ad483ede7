import ChatTea.Billing.Webhook
import Mathlib.Data.List.TakeWhile

/-!
# Deliveries of the webhook

The store delivers an event until it is accepted, so the handler may run several times for one
event, and any of its transactions may fail. What has been accepted is remembered in
`billing_events`, in the transaction that applies it.

## Main definitions

* `Signed` — the request has a signature of its body that is not out of tolerance
* `delivered` — the database after some deliveries
* `Accepted` — a delivery was accepted for an event and a body
* `Replayable` — what a delivery after others does

## Main results

* `assertSignature_eq_ok_iff` — the check accepts the signed requests
* `findBillingEvent_iff_accepted` — an event is recorded once a delivery of it was accepted
* `webhook_replayable` — every delivery of every sequence is atomic and may be repeated
-/

namespace ChatTea.Billing

open Auth (utf8)
open Notification Table Transaction

/-! ### Signatures -/

/-- The header with a time and a digest, in either case. -/
structure SignatureParts (signature time digest : Text) : Prop where
  spelled : ∃ t v : Char, (t = 't' ∨ t = 'T') ∧ (v = 'v' ∨ v = 'V') ∧
    signature = t :: '=' :: (time ++ ',' :: v :: '1' :: '=' :: digest)
  time_nonempty : time ≠ []
  time_digits : ∀ c ∈ time, isDigit c
  digest_length : digest.length = 64
  digest_hex : ∀ c ∈ digest, c ∈ hexDigits

theorem takeWhile_digits {time rest : Text} (htime : ∀ c ∈ time, isDigit c) :
    (time ++ ',' :: rest).takeWhile isDigit = time := by
  rw [List.takeWhile_append_of_pos htime, List.takeWhile_cons_of_neg (by decide), List.append_nil]

theorem dropWhile_digits {time rest : Text} (htime : ∀ c ∈ time, isDigit c) :
    (time ++ ',' :: rest).dropWhile isDigit = ',' :: rest := by
  rw [List.dropWhile_append_of_pos htime, List.dropWhile_cons_of_neg (by decide)]

theorem matchSignature_eq_some_iff {signature time digest : Text} :
    matchSignature signature = some (time, digest) ↔ SignatureParts signature time digest := by
  constructor
  · intro hmatch
    unfold matchSignature at hmatch
    split at hmatch
    next t rest =>
      dsimp only at hmatch
      split at hmatch
      next v digest' hrest =>
        split at hmatch
        next hparts =>
          obtain ⟨ht, hnonempty, hv, hlength, hhex⟩ := hparts
          obtain ⟨rfl, rfl⟩ := Prod.mk.inj (Option.some.inj hmatch)
          have hsplit : rest = rest.takeWhile isDigit ++ ',' :: v :: '1' :: '=' :: digest' := by
            rw [← hrest, List.takeWhile_append_dropWhile]
          constructor
          · exact ⟨t, v, ht, hv, congrArg (t :: '=' :: ·) hsplit⟩
          · exact hnonempty
          · intro c hc
            exact List.mem_takeWhile_imp hc
          · exact hlength
          · intro c hc
            exact of_decide_eq_true (List.all_eq_true.1 hhex c hc)
        next => cases hmatch
      next => cases hmatch
    next => cases hmatch
  · rintro ⟨⟨t, v, ht, hv, rfl⟩, hnonempty, hdigits, hlength, hhex⟩
    have hall : digest.all (· ∈ hexDigits) = true :=
      List.all_eq_true.2 fun c hc => decide_eq_true (hhex c hc)
    simp only [matchSignature, takeWhile_digits hdigits, dropWhile_digits hdigits]
    rw [if_pos ⟨ht, hnonempty, hv, hlength, hall⟩]

/-- The header is a digest of its time and the body under the secret, and its time is within the
tolerance. -/
def Signed (config : WebhookConfig) (request : WebhookRequest) : Prop :=
  ∃ secret signature time digest, config.webhookSecret = some secret ∧ secret ≠ [] ∧
    request.signature = some signature ∧ SignatureParts signature time digest ∧
    digitsValue time ≤ maxSafeInteger ∧
    digest.lower = config.hmacSha256 secret (utf8 (time ++ ['.']) ++ request.rawBody) ∧
    |request.now - 1000 * digitsValue time| ≤ 300 * 1000

variable {config : WebhookConfig} {request : WebhookRequest}

theorem assertSignature_eq_ok_iff : assertSignature config request = .ok () ↔ Signed config request := by
  constructor
  · intro hok
    unfold assertSignature at hok
    split at hok
    next secret hsecret =>
      split at hok
      next time digest hmatch =>
        obtain ⟨safe, hsafe, hok⟩ := bind_eq_ok_iff.1 hok
        obtain ⟨digested, hdigest, htolerance⟩ := bind_eq_ok_iff.1 hok
        obtain ⟨signature, hsignature, hparts⟩ := Option.bind_eq_some_iff.1 hmatch
        obtain ⟨hsome, hnonempty⟩ := Option.filter_eq_some_iff.1 hsecret
        refine ⟨secret, signature, time, digest, hsome, of_decide_eq_true hnonempty, hsignature,
          matchSignature_eq_some_iff.1 hparts, ?_, ?_, ?_⟩
        · exact not_lt.1 (throwIf_eq_ok_iff.1 hsafe)
        · exact not_not.1 (throwIf_eq_ok_iff.1 hdigest)
        · exact not_lt.1 (throwIf_eq_ok_iff.1 htolerance)
      next => cases hok
    next => cases hok
  · rintro ⟨secret, signature, time, digest, hsecret, hnonempty, hsignature, hparts, hsafe, hdigest,
      htolerance⟩
    have hmatch : request.signature.bind matchSignature = some (time, digest) := by
      rw [hsignature, Option.bind_some]
      exact matchSignature_eq_some_iff.2 hparts
    have hfilter : config.webhookSecret.filter (· ≠ []) = some secret :=
      Option.filter_eq_some_iff.2 ⟨hsecret, decide_eq_true hnonempty⟩
    unfold assertSignature
    rw [hfilter, hmatch]
    dsimp only
    rw [throwIf_of_not (not_lt.2 hsafe), throwIf_of_not (not_not.2 hdigest)]
    exact throwIf_of_not (not_lt.2 htolerance)

/-! ### What a request asks for -/

theorem Asks.input_eq {event : RevenueCatEvent} {eventId eventType payloadHash : String}
    {now : Timestamp} {call : WebhookCall} (h : Asks event eventId eventType payloadHash now call) :
    call.input.providerEventId = eventId ∧ call.input.payloadHash = payloadHash := by
  cases h with
  | recorded => exact ⟨rfl, rfl⟩
  | subscription _ _ _ _ _ hasked =>
      obtain ⟨originalTransactionId, -, hasked⟩ := bind_eq_ok_iff.1 hasked
      obtain ⟨eventTimestampMs, -, hasked⟩ := bind_eq_ok_iff.1 hasked
      obtain rfl := pure_eq_ok_iff.1 hasked
      exact ⟨rfl, rfl⟩
  | consumable _ _ _ _ _ hasked =>
      obtain ⟨transactionId, -, hasked⟩ := bind_eq_ok_iff.1 hasked
      obtain ⟨originalTransactionId, -, hasked⟩ := bind_eq_ok_iff.1 hasked
      obtain ⟨eventTimestampMs, -, hasked⟩ := bind_eq_ok_iff.1 hasked
      obtain rfl := pure_eq_ok_iff.1 hasked
      exact ⟨rfl, rfl⟩

/-- An accepted request is signed, and is recorded under the digest of its body. -/
theorem requestedCall_spec {call : WebhookCall} (h : requestedCall config request = .ok call) :
    Signed config request ∧ call.input.payloadHash = config.sha256 request.rawBody := by
  obtain ⟨signed, hsigned, h⟩ := bind_eq_ok_iff.1 h
  obtain ⟨event, -, h⟩ := bind_eq_ok_iff.1 h
  obtain ⟨id, eventType, -, -, hasks⟩ := webhookCall_asks h
  exact ⟨assertSignature_eq_ok_iff.1 hsigned, hasks.input_eq.2⟩

/-! ### The events that are recorded -/

/-- The row of an event. -/
def billingEvent (input : RevenueCatEventInput) : BillingEvent where
  providerEventId := input.providerEventId
  provider := revenuecat
  payloadHash := input.payloadHash

section Events

variable {input : RevenueCatEventInput} {result : RevenueCatApplyResult} {db after : Database}

/-- What an event applies leaves the events alone. -/
theorem applyRevenueCatEvent_events (hunknown : findBillingEvent input.providerEventId db = none)
    (h : applyRevenueCatEvent input db = .ok (result, after)) :
    after.billingEvents = db.billingEvents ++ [billingEvent input] := by
  rcases applyRevenueCatEvent_cases h with ⟨⟨event, hknown, -⟩, -⟩ | ⟨-, hdetail⟩
  · rw [hunknown] at hknown
    cases hknown
  · rcases hdetail with ⟨-, -, rfl⟩ | ⟨userId, subscription, -, hsubscription⟩ |
      ⟨transition, -, htransition⟩
    · rfl
    · obtain ⟨subscriptions, nextRowId, -, rfl⟩ := applySubscription_writes hsubscription
      rfl
    · exact (transition_frame htransition).2.1

theorem applyRevenueCatEvent_known {event : BillingEvent}
    (hknown : findBillingEvent input.providerEventId db = some event)
    (h : applyRevenueCatEvent input db = .ok (result, after)) :
    event = billingEvent input ∧ result.outcome = .duplicate ∧ after = db := by
  have hkey : event.providerEventId = input.providerEventId := (mem_of_lookup hknown).2
  unfold applyRevenueCatEvent at h
  simp only [hknown] at h
  split at h
  next => cases h
  next hsame =>
    obtain ⟨rfl, rfl⟩ := Prod.mk.inj (Except.ok.inj h)
    rw [not_or, not_ne_iff, not_ne_iff] at hsame
    obtain ⟨hprovider, hhash⟩ := hsame
    refine ⟨?_, rfl, rfl⟩
    unfold billingEvent
    rw [← hkey, ← hprovider, ← hhash]

theorem applySubscription_outcome {userId : UuidText} {subscription : RevenueCatSubscription}
    (h : applySubscription userId subscription db = .ok (result, after)) :
    result.outcome ≠ .duplicate := by
  unfold applySubscription at h
  dsimp only at h
  split at h
  · obtain ⟨rfl, -⟩ := Prod.mk.inj (pure_eq_ok_iff.1 h)
    exact RevenueCatOutcome.noConfusion
  · split at h
    all_goals
      obtain ⟨written, -, h⟩ := bind_eq_ok_iff.1 h
      obtain ⟨rfl, -⟩ := Prod.mk.inj (pure_eq_ok_iff.1 h)
      exact RevenueCatOutcome.noConfusion

theorem applyConsumableTransition_outcome {providerEventId : String}
    {transition : RevenueCatConsumableTransition}
    (h : applyConsumableTransition providerEventId transition db = .ok (result, after)) :
    result.outcome ≠ .duplicate := by
  unfold applyConsumableTransition at h
  cases hfind : findTransaction transition.providerTransactionId db with
  | none =>
      simp only [hfind, Option.any_none, Option.map_none, Bool.false_eq_true, if_false,
        bind_eq_ok_iff, pure_eq_ok_iff, Prod.mk.injEq] at h
      obtain ⟨created, -, credited, -, logged, -, rfl, -⟩ := h
      exact RevenueCatOutcome.noConfusion
  | some current =>
      by_cases hstale : transition.eventTimestampMs ≤ current.stateEventTimestampMs
      · simp only [hfind, Option.any_some, Option.map_some, hstale, decide_true, if_true,
          bind_eq_ok_iff, pure_eq_ok_iff, Prod.mk.injEq] at h
        obtain ⟨identified, -, checked, -, target, -, credited, -, logged, -, rfl, -⟩ := h
        exact RevenueCatOutcome.noConfusion
      · simp only [hfind, Option.any_some, Option.map_some, hstale, decide_false,
          Bool.false_eq_true, if_false, bind_eq_ok_iff, pure_eq_ok_iff, Prod.mk.injEq] at h
        obtain ⟨identified, -, checked, -, target, -, credited, -, logged, -, rfl, -⟩ := h
        exact RevenueCatOutcome.noConfusion

/-- A new event is not answered as a duplicate. -/
theorem applyRevenueCatEvent_new (hunknown : findBillingEvent input.providerEventId db = none)
    (h : applyRevenueCatEvent input db = .ok (result, after)) : result.outcome ≠ .duplicate := by
  unfold applyRevenueCatEvent at h
  simp only [hunknown] at h
  cases hdetail : input.detail with
  | recorded =>
      simp only [hdetail] at h
      obtain ⟨rfl, -⟩ := Prod.mk.inj (Except.ok.inj h)
      exact RevenueCatOutcome.noConfusion
  | subscription userId subscription =>
      simp only [hdetail] at h
      exact applySubscription_outcome h
  | consumableTransition transition =>
      simp only [hdetail] at h
      exact applyConsumableTransition_outcome h

end Events

/-! ### One delivery -/

/-- A request, with the failures its transactions run into. -/
structure WebhookDelivery where
  request : WebhookRequest
  faults : WebhookFaults

def handleDelivery (config : WebhookConfig) (delivery : WebhookDelivery) (db : Database) :
    Except Failure WebhookReply × Database :=
  handleRevenueCatWebhook config delivery.request delivery.faults db

/-- The transaction of the repository, as this delivery runs it. -/
def applied (delivery : WebhookDelivery) (call : WebhookCall) (db : Database) :
    Except Failure (RevenueCatApplyResult × Database) :=
  failing delivery.faults.billing (applyRevenueCatEvent call.input) db

section Deliver

variable {delivery : WebhookDelivery} {call : WebhookCall} {db after : Database}
  {result : RevenueCatApplyResult} {failure : Failure} {reply : WebhookReply}

theorem applyRevenueCatEvent_of_applied (h : applied delivery call db = .ok (result, after)) :
    applyRevenueCatEvent call.input db = .ok (result, after) := by
  unfold applied failing at h
  split at h
  · cases h
  · exact h

theorem handleDelivery_of_refused (h : requestedCall config delivery.request = .error failure) :
    handleDelivery config delivery db = (.error failure, db) := by
  simp only [handleDelivery, handleRevenueCatWebhook, h]

theorem handleDelivery_of_failed (hcall : requestedCall config delivery.request = .ok call)
    (h : applied delivery call db = .error failure) :
    handleDelivery config delivery db = (.error failure, db) := by
  unfold applied at h
  simp only [handleDelivery, handleRevenueCatWebhook, hcall, runWebhookCall, h]

/-- A notification adds no event, whether it is created or not. -/
theorem notify_events (fault : Option Failure) (input : CreateNotificationInput)
    (enqueuePush : Bool) (now : Timestamp) (db : Database) :
    (Transaction.commit (failing fault (createWithPushOutbox input enqueuePush now))
      db).billingEvents = db.billingEvents := by
  cases fault with
  | some failure => rfl
  | none =>
      change (Transaction.commit (createWithPushOutbox input enqueuePush now) db).billingEvents = _
      rcases commit_cases (createWithPushOutbox input enqueuePush now) db with
        ⟨notification, hok⟩ | ⟨-, hsame⟩
      · obtain ⟨-, pushes, nextRowId, -, hwritten⟩ := createWithPushOutbox_ok hok
        rw [hwritten]
      · rw [hsame]

/-- Once the repository has committed, the delivery is accepted, and the rest adds no event. -/
theorem handleDelivery_of_applied (hcall : requestedCall config delivery.request = .ok call)
    (h : applied delivery call db = .ok (result, after)) :
    (handleDelivery config delivery db).1 = .ok ⟨true, result.outcome = .duplicate⟩ ∧
      (handleDelivery config delivery db).2.billingEvents = after.billingEvents := by
  unfold applied at h
  simp only [handleDelivery, handleRevenueCatWebhook, hcall, runWebhookCall, h]
  cases hresult : result.outcome with
  | duplicate => exact ⟨rfl, rfl⟩
  | stale => exact ⟨rfl, rfl⟩
  | applied =>
      cases call.notification with
      | none => exact ⟨rfl, rfl⟩
      | some notification => exact ⟨rfl, notify_events _ _ _ _ _⟩

theorem handleDelivery_of_duplicate (hcall : requestedCall config delivery.request = .ok call)
    (h : applied delivery call db = .ok (result, after)) (hresult : result.outcome = .duplicate) :
    (handleDelivery config delivery db).2 = after := by
  unfold applied at h
  simp only [handleDelivery, handleRevenueCatWebhook, hcall, runWebhookCall, h, hresult]
  rfl

/-- A delivery throws and changes nothing, or its transaction has committed. -/
theorem handleDelivery_cases (config : WebhookConfig) (delivery : WebhookDelivery) (db : Database) :
    (∃ failure, handleDelivery config delivery db = (.error failure, db)) ∨
      ∃ call result after, requestedCall config delivery.request = .ok call ∧
        applied delivery call db = .ok (result, after) := by
  cases hcall : requestedCall config delivery.request with
  | error failure => exact Or.inl ⟨failure, handleDelivery_of_refused hcall⟩
  | ok call =>
      cases happlied : applied delivery call db with
      | error failure => exact Or.inl ⟨failure, handleDelivery_of_failed hcall happlied⟩
      | ok outcome => exact Or.inr ⟨call, outcome.1, outcome.2, rfl, happlied⟩

/-- A delivery of a recorded event is a duplicate of it, or throws. -/
theorem handleDelivery_known {event : BillingEvent}
    (hcall : requestedCall config delivery.request = .ok call)
    (hknown : findBillingEvent call.input.providerEventId db = some event) :
    (event = billingEvent call.input ∧ handleDelivery config delivery db = (.ok ⟨true, true⟩, db)) ∨
      ∃ failure, handleDelivery config delivery db = (.error failure, db) := by
  cases happlied : applied delivery call db with
  | error failure => exact Or.inr ⟨failure, handleDelivery_of_failed hcall happlied⟩
  | ok outcome =>
      obtain ⟨result, after⟩ := outcome
      obtain ⟨hevent, hresult, rfl⟩ :=
        applyRevenueCatEvent_known hknown (applyRevenueCatEvent_of_applied happlied)
      refine Or.inl ⟨hevent, Prod.ext ?_ (handleDelivery_of_duplicate hcall happlied hresult)⟩
      rw [(handleDelivery_of_applied hcall happlied).1, hresult]
      rfl

/-- Without a failure from outside, a delivery of a recorded event with its body is a duplicate. -/
theorem handleDelivery_repeated (hcall : requestedCall config delivery.request = .ok call)
    (hknown : findBillingEvent call.input.providerEventId db = some (billingEvent call.input))
    (hfault : delivery.faults.billing = none) :
    handleDelivery config delivery db = (.ok ⟨true, true⟩, db) := by
  have happlied : applied delivery call db =
      .ok ({ outcome := .duplicate, effectiveState := none, balanceDelta := zeroDelta }, db) := by
    simp only [applied, failing, hfault, applyRevenueCatEvent, hknown, billingEvent]
    rw [if_neg (by simp)]
  exact Prod.ext (handleDelivery_of_applied hcall happlied).1
    (handleDelivery_of_duplicate hcall happlied rfl)

/-- The events after a delivery. -/
theorem handleDelivery_events (config : WebhookConfig) (delivery : WebhookDelivery) (db : Database) :
    (handleDelivery config delivery db).2.billingEvents = db.billingEvents ∨
      ∃ call, requestedCall config delivery.request = .ok call ∧
        findBillingEvent call.input.providerEventId db = none ∧
        (handleDelivery config delivery db).1 = .ok ⟨true, false⟩ ∧
        (handleDelivery config delivery db).2.billingEvents =
          db.billingEvents ++ [billingEvent call.input] := by
  rcases handleDelivery_cases config delivery db with ⟨failure, hthrown⟩ |
    ⟨call, result, after, hcall, happlied⟩
  · rw [hthrown]
    exact Or.inl rfl
  · obtain ⟨hreply, hevents⟩ := handleDelivery_of_applied hcall happlied
    have happly := applyRevenueCatEvent_of_applied happlied
    cases hknown : findBillingEvent call.input.providerEventId db with
    | some event =>
        left
        rw [hevents, (applyRevenueCatEvent_known hknown happly).2.2]
    | none =>
        refine Or.inr ⟨call, hcall, hknown, ?_, ?_⟩
        · rw [hreply, decide_eq_false (applyRevenueCatEvent_new hknown happly)]
        · rw [hevents, applyRevenueCatEvent_events hknown happly]

end Deliver

/-! ### Sequences of deliveries -/

/-- The database after some deliveries. -/
def delivered (config : WebhookConfig) (deliveries : List WebhookDelivery) (start : Database) : Database :=
  deliveries.foldl (fun db delivery => (handleDelivery config delivery db).2) start

/-- One of the deliveries was accepted, for an event and a body. -/
def Accepted (config : WebhookConfig) (start : Database) (deliveries : List WebhookDelivery)
    (providerEventId : String) (rawBody : List UInt8) : Prop :=
  ∃ past delivery rest call reply, deliveries = past ++ delivery :: rest ∧
    requestedCall config delivery.request = .ok call ∧
    call.input.providerEventId = providerEventId ∧ delivery.request.rawBody = rawBody ∧
    (handleDelivery config delivery (delivered config past start)).1 = .ok reply

section Deliveries

variable {deliveries past : List WebhookDelivery} {delivery : WebhookDelivery} {start : Database}
  {providerEventId : String} {rawBody : List UInt8} {event : BillingEvent}

theorem delivered_concat : delivered config (deliveries ++ [delivery]) start =
    (handleDelivery config delivery (delivered config deliveries start)).2 := by
  unfold delivered
  rw [List.foldl_append]
  rfl

/-- What is recorded stays so. -/
theorem findBillingEvent_handleDelivery {db : Database}
    (hknown : findBillingEvent providerEventId db = some event) :
    findBillingEvent providerEventId (handleDelivery config delivery db).2 = some event := by
  unfold findBillingEvent at *
  rcases handleDelivery_events config delivery db with hevents | ⟨call, -, -, -, hevents⟩
  · rw [hevents, hknown]
  · rw [hevents, lookup_append_singleton, hknown]
    rfl

theorem findBillingEvent_delivered (rest : List WebhookDelivery)
    (hknown : findBillingEvent providerEventId (delivered config past start) = some event) :
    findBillingEvent providerEventId (delivered config (past ++ rest) start) = some event := by
  induction rest using List.reverseRecOn with
  | nil => rwa [List.append_nil]
  | append_singleton rest delivery ih =>
      rw [← List.append_assoc, delivered_concat]
      exact findBillingEvent_handleDelivery ih

/-- A delivery that is accepted records its event. -/
theorem findBillingEvent_of_accepted {db : Database} {call : WebhookCall} {reply : WebhookReply}
    (hcall : requestedCall config delivery.request = .ok call)
    (hreply : (handleDelivery config delivery db).1 = .ok reply) :
    findBillingEvent call.input.providerEventId (handleDelivery config delivery db).2 =
      some (billingEvent call.input) := by
  cases hknown : findBillingEvent call.input.providerEventId db with
  | some event =>
      rcases handleDelivery_known hcall hknown with ⟨rfl, hsame⟩ | ⟨failure, hthrown⟩
      · rw [hsame, hknown]
      · rw [hthrown] at hreply
        cases hreply
  | none =>
      rcases handleDelivery_cases config delivery db with ⟨failure, hthrown⟩ |
        ⟨call', result, after, hcall', happlied⟩
      · rw [hthrown] at hreply
        cases hreply
      · obtain rfl : call = call' := Except.ok.inj (hcall.symm.trans hcall')
        have hevents := (handleDelivery_of_applied hcall happlied).2
        unfold findBillingEvent at *
        rw [hevents, applyRevenueCatEvent_events hknown (applyRevenueCatEvent_of_applied happlied),
          lookup_append_singleton, hknown]
        simp [billingEvent]

theorem Accepted.recorded (h : Accepted config start deliveries providerEventId rawBody) :
    findBillingEvent providerEventId (delivered config deliveries start) =
      some ⟨providerEventId, revenuecat, config.sha256 rawBody⟩ := by
  obtain ⟨past, delivery, rest, call, reply, rfl, hcall, rfl, rfl, hreply⟩ := h
  rw [← (requestedCall_spec hcall).2, List.append_cons]
  apply findBillingEvent_delivered
  rw [delivered_concat]
  exact findBillingEvent_of_accepted hcall hreply

theorem Accepted.concat (h : Accepted config start deliveries providerEventId rawBody) :
    Accepted config start (deliveries ++ [delivery]) providerEventId rawBody := by
  obtain ⟨past, accepted, rest, call, reply, rfl, hcall, hid, hbody, hreply⟩ := h
  exact ⟨past, accepted, rest ++ [delivery], call, reply, by simp, hcall, hid, hbody, hreply⟩

/-- An event is recorded once a delivery of it was accepted. -/
theorem findBillingEvent_iff_accepted (hnew : findBillingEvent providerEventId start = none) :
    findBillingEvent providerEventId (delivered config deliveries start) ≠ none ↔
      ∃ rawBody, Accepted config start deliveries providerEventId rawBody := by
  constructor
  · intro hknown
    induction deliveries using List.reverseRecOn with
    | nil => exact absurd hnew hknown
    | append_singleton past delivery ih =>
        by_cases hpast : findBillingEvent providerEventId (delivered config past start) = none
        · rw [delivered_concat] at hknown
          rcases handleDelivery_events config delivery (delivered config past start) with hevents |
            ⟨call, hcall, -, hreply, hevents⟩
          · unfold findBillingEvent at hpast hknown
            rw [hevents] at hknown
            exact absurd hpast hknown
          · unfold findBillingEvent at hpast hknown
            rw [hevents, lookup_append_singleton, hpast] at hknown
            have hid : call.input.providerEventId = providerEventId := by
              by_contra hne
              simp [billingEvent, hne] at hknown
            exact ⟨delivery.request.rawBody, past, delivery, [], call, _, rfl, hcall, hid, rfl,
              hreply⟩
        · obtain ⟨rawBody, haccepted⟩ := ih hpast
          exact ⟨rawBody, haccepted.concat⟩
  · rintro ⟨rawBody, haccepted⟩
    rw [haccepted.recorded]
    exact Option.some_ne_none _

end Deliveries

/-- What a delivery does after others. -/
structure Replayable (config : WebhookConfig) (start : Database) (past : List WebhookDelivery)
    (delivery : WebhookDelivery) : Prop where
  /-- What throws is not recorded, and may be delivered again. -/
  atomic : ∀ failure,
    (handleDelivery config delivery (delivered config past start)).1 = .error failure →
      delivered config (past ++ [delivery]) start = delivered config past start
  signed : ¬ Signed config delivery.request →
    ∃ failure, handleDelivery config delivery (delivered config past start) =
      (.error failure, delivered config past start)
  /-- Delivered again with its body, an event changes nothing. -/
  repeated : ∀ call, requestedCall config delivery.request = .ok call →
    Accepted config start past call.input.providerEventId delivery.request.rawBody →
    delivered config (past ++ [delivery]) start = delivered config past start ∧
      (delivery.faults.billing = none →
        (handleDelivery config delivery (delivered config past start)).1 = .ok ⟨true, true⟩)
  /-- A body with another digest is rejected. -/
  conflicting : ∀ call rawBody, requestedCall config delivery.request = .ok call →
    Accepted config start past call.input.providerEventId rawBody →
    config.sha256 rawBody ≠ config.sha256 delivery.request.rawBody →
    ∃ failure, handleDelivery config delivery (delivered config past start) =
      (.error failure, delivered config past start)
  /-- As long as no delivery of an event was accepted, it is processed as a new one. -/
  fresh : ∀ call reply, requestedCall config delivery.request = .ok call →
    findBillingEvent call.input.providerEventId start = none →
    (∀ rawBody, ¬ Accepted config start past call.input.providerEventId rawBody) →
    (handleDelivery config delivery (delivered config past start)).1 = .ok reply →
    reply = ⟨true, false⟩ ∧
      ∃ result after, result.outcome ≠ .duplicate ∧
        applied delivery call (delivered config past start) = .ok (result, after)
  /-- Once the purchase has committed, no failure makes the handler throw. -/
  notified : ∀ call result after, requestedCall config delivery.request = .ok call →
    applied delivery call (delivered config past start) = .ok (result, after) →
    ∃ reply, (handleDelivery config delivery (delivered config past start)).1 = .ok reply

/-- **Replayable deliveries.** In every sequence of deliveries, each is atomic, an event that was
accepted is not processed again, and one that was not is. -/
theorem webhook_replayable (config : WebhookConfig) (start : Database) (past : List WebhookDelivery)
    (delivery : WebhookDelivery) : Replayable config start past delivery := by
  have hcases := handleDelivery_cases config delivery (delivered config past start)
  constructor
  case atomic =>
    intro failure hthrown
    rw [delivered_concat]
    rcases hcases with ⟨thrown, hsame⟩ | ⟨call, result, after, hcall, happlied⟩
    · rw [hsame]
    · rw [(handleDelivery_of_applied hcall happlied).1] at hthrown
      cases hthrown
  case signed =>
    intro hunsigned
    apply hcases.resolve_right
    rintro ⟨call, -, -, hcall, -⟩
    exact hunsigned (requestedCall_spec hcall).1
  case repeated =>
    intro call hcall haccepted
    have hknown := haccepted.recorded
    rw [← (requestedCall_spec hcall).2] at hknown
    constructor
    · rw [delivered_concat]
      rcases handleDelivery_known hcall hknown with ⟨-, hsame⟩ | ⟨failure, hsame⟩ <;> rw [hsame]
    · intro hfault
      rw [handleDelivery_repeated hcall hknown hfault]
  case conflicting =>
    intro call rawBody hcall haccepted hother
    rcases handleDelivery_known hcall haccepted.recorded with ⟨hevent, -⟩ | hthrown
    · have hhash := congrArg BillingEvent.payloadHash hevent
      exact absurd (hhash.trans (requestedCall_spec hcall).2) hother
    · exact hthrown
  case fresh =>
    intro call reply hcall hnew hnone hreply
    have hunknown : findBillingEvent call.input.providerEventId (delivered config past start) =
        none := by
      by_contra hknown
      obtain ⟨rawBody, haccepted⟩ := (findBillingEvent_iff_accepted hnew).1 hknown
      exact hnone rawBody haccepted
    rcases hcases with ⟨failure, hthrown⟩ | ⟨call', result, after, hcall', happlied⟩
    · rw [hthrown] at hreply
      cases hreply
    · obtain rfl : call = call' := Except.ok.inj (hcall.symm.trans hcall')
      have houtcome :=
        applyRevenueCatEvent_new hunknown (applyRevenueCatEvent_of_applied happlied)
      refine ⟨?_, result, after, houtcome, happlied⟩
      rw [(handleDelivery_of_applied hcall happlied).1, decide_eq_false houtcome] at hreply
      exact (Except.ok.inj hreply).symm
  case notified =>
    intro call result after hcall happlied
    exact ⟨_, (handleDelivery_of_applied hcall happlied).1⟩

end ChatTea.Billing
