import ChatTea.Auth.Service
import ChatTea.Billing.Subscription
import ChatTea.Notification.Repository

/-!
# The RevenueCat webhook

The embedding of `BillingService.handleRevenueCatWebhook`: the signature of the
request, the fields of the event with their checks in the order of the source,
the call of the repository that the event asks for, and the notification that
follows it. The checks read nothing from the database, so what an event asks for
is computed first (`webhookCall`).

The two transactions of the handler may each fail for reasons outside the code;
a failure of the second is caught.

## Main definitions

* `Payload`, `getRevenueCatEvent` — the parsed body and the event in it
* `BillingProduct`, `billingProducts` — what is sold
* `webhookCall` — what an event asks for, or why it is refused
* `assertSignature` — the check of the request
* `handleRevenueCatWebhook` — the handler

## Main results

* `webhookCall_asks` — an accepted event is recorded, or asks for a subscription
  or for a transition of a purchase
-/

namespace ChatTea.Billing

open Auth (trim utf8)
open Notification Transaction

/-! ### Events -/

/-- A parsed request body. A number is one that is an integer, or any other. -/
inductive Payload where
  | null
  | boolean (value : Bool)
  | integer (value : ℤ)
  | fraction
  | string (value : Text)
  | array (items : List Payload)
  | record (fields : List (String × Payload))

def eventInvalid : Failure := .error "REVENUECAT_EVENT_INVALID"

/-- A field of a record; `undefined` is `none`. -/
def Payload.field (name : String) (fields : List (String × Payload)) : Option Payload :=
  fields.lookup name

def optionalString : Option Payload → Except Failure (Option Text)
  | none => .ok none
  | some .null => .ok none
  | some (.string value) => .ok (some value)
  | some _ => .error eventInvalid

/-- The last time a `Date` can hold. -/
def maxDateMs : ℤ := 8640000000000000

def optionalTimestamp : Option Payload → Except Failure (Option ℕ)
  | none => .ok none
  | some .null => .ok none
  | some (.integer value) =>
      if value < 0 ∨ maxDateMs < value then .error eventInvalid else .ok (some value.toNat)
  | some _ => .error eventInvalid

structure RevenueCatEvent where
  id : Option Text
  type : Option Text
  eventTimestampMs : Option ℕ
  environment : Option Text
  appId : Option Text
  appUserId : Option Text
  productId : Option Text
  originalTransactionId : Option Text
  transactionId : Option Text
  cancelReason : Option Text
  expirationAtMs : Option ℕ
  purchasedAtMs : Option ℕ
deriving DecidableEq

def getRevenueCatEvent (payload : Payload) : Except Failure RevenueCatEvent := do
  let .record body := payload | throw (.error "REVENUECAT_PAYLOAD_INVALID")
  let .record fields := (Payload.field "event" body).getD payload | throw eventInvalid
  return {
    id := ← optionalString (Payload.field "id" fields)
    type := ← optionalString (Payload.field "type" fields)
    eventTimestampMs := ← optionalTimestamp (Payload.field "event_timestamp_ms" fields)
    environment := ← optionalString (Payload.field "environment" fields)
    appId := ← optionalString (Payload.field "app_id" fields)
    appUserId := ← optionalString (Payload.field "app_user_id" fields)
    productId := ← optionalString (Payload.field "product_id" fields)
    originalTransactionId := ← optionalString (Payload.field "original_transaction_id" fields)
    transactionId := ← optionalString (Payload.field "transaction_id" fields)
    cancelReason := ← optionalString (Payload.field "cancel_reason" fields)
    expirationAtMs := ← optionalTimestamp (Payload.field "expiration_at_ms" fields)
    purchasedAtMs := ← optionalTimestamp (Payload.field "purchased_at_ms" fields) }

/-! ### Fields -/

/-- `toUpperCase`, for comparison with names in ASCII: the characters whose upper
case is written in ASCII. -/
def upperChar (c : Char) : Text :=
  if c = 'ı' then ['I']
  else if c = 'ſ' then ['S']
  else if c = 'ß' then ['S', 'S']
  else if c = 'ﬀ' then ['F', 'F']
  else if c = 'ﬁ' then ['F', 'I']
  else if c = 'ﬂ' then ['F', 'L']
  else if c = 'ﬃ' then ['F', 'F', 'I']
  else if c = 'ﬄ' then ['F', 'F', 'L']
  else if c = 'ﬅ' ∨ c = 'ﬆ' then ['S', 'T']
  else [c.toUpper]

def upperCase (text : Text) : String := String.ofList (text.flatMap upperChar)

def requiredString (value : Option Text) (error : String) : Except Failure Text :=
  match value.map trim with
  | none => .error (.error error)
  | some [] => .error (.error error)
  | some normalized => .ok normalized

/-- The pattern asks for a version and a variant as well. -/
def isVersionedUuid (text : Text) : Bool :=
  isUuidText text ∧ (text[14]?).any (· ∈ "12345".toList) ∧ (text[19]?).any (· ∈ "89abAB".toList)

theorem isUuidText_of_isVersionedUuid {text : Text} (h : isVersionedUuid text) : isUuidText text := by
  simp only [isVersionedUuid, Bool.decide_and, Bool.and_eq_true, decide_eq_true_eq] at h
  exact h.1

def requiredUuid (value : Option Text) (error : String) : Except Failure UuidText := do
  let normalized ← requiredString value error
  if h : isVersionedUuid normalized then return ⟨normalized, isUuidText_of_isVersionedUuid h⟩
  else throw (.error error)

def requiredTimestamp (value : Option ℕ) (error : String) : Except Failure ℕ :=
  match value with
  | none => .error (.error error)
  | some value => .ok value

/-! ### Products -/

inductive ProductKind where
  | subscription (planId : PlanId)
  | boost
  | superlike
deriving DecidableEq

structure BillingProduct where
  id : String
  kind : ProductKind
  name : String
deriving DecidableEq

/-- `BILLING_PRODUCTS`. -/
def billingProducts : List BillingProduct :=
  [{ id := "chattea_basic_monthly", kind := .subscription .basic, name := "Basic" },
   { id := "chattea_gold_monthly", kind := .subscription .gold, name := "Gold" },
   { id := "chattea_black_monthly", kind := .subscription .black, name := "Black" },
   { id := "chattea_boost_30m", kind := .boost, name := "30분 부스트" },
   { id := "chattea_superlikes_5", kind := .superlike, name := "슈퍼라이크 5개" }]

/-- The product without its base plan: what stands before the first colon. -/
def canonicalProductId (productId : Text) : String := String.ofList (productId.takeWhile (· ≠ ':'))

def noopEventTypes : List String :=
  ["BILLING_ISSUE", "SUBSCRIPTION_PAUSED", "PRODUCT_CHANGE", "INVOICE_ISSUANCE",
    "EXPERIMENT_ENROLLMENT", "TEST"]

def unimplementedEventTypes : List String :=
  ["TRANSFER", "TEMPORARY_ENTITLEMENT_GRANT", "VIRTUAL_CURRENCY_TRANSACTION"]

def mutationEventTypes : List String :=
  ["INITIAL_PURCHASE", "RENEWAL", "UNCANCELLATION", "NON_RENEWING_PURCHASE",
    "SUBSCRIPTION_EXTENDED", "REFUND_REVERSED", "EXPIRATION", "CANCELLATION"]

def revenueCatConsumableTargetState (eventType : String) (cancelReason : Option Text) :
    Option TransactionState :=
  if eventType ∈ ["INITIAL_PURCHASE", "NON_RENEWING_PURCHASE", "REFUND_REVERSED"] then some .granted
  else if eventType = "CANCELLATION" ∧
      cancelReason.any (fun reason => upperCase (trim reason) = "CUSTOMER_SUPPORT") then
    some .refunded
  else none

/-! ### What an event asks for -/

/-- The environment of the service. -/
structure WebhookConfig where
  /-- SHA-256 of a request body, in hexadecimal. -/
  sha256 : List UInt8 → String
  /-- HMAC-SHA-256 under a secret, in lower-case hexadecimal. -/
  hmacSha256 : Text → List UInt8 → Text
  webhookSecret : Option Text
  production : Bool
  iosAppId : Option Text
  androidAppId : Option Text
  pushEnabled : Bool

/-- A production service takes the events of its own two apps only. -/
def checkEnvironment (config : WebhookConfig) (event : RevenueCatEvent) : Except Failure Unit :=
  if config.production then do
    let iosAppId := (config.iosAppId.map trim).getD []
    let androidAppId := (config.androidAppId.map trim).getD []
    throwIf (.error "REVENUECAT_IOS_APP_ID_REQUIRED") (iosAppId = [])
    throwIf (.error "REVENUECAT_ANDROID_APP_ID_REQUIRED") (androidAppId = [])
    throwIf (.error "REVENUECAT_APP_IDS_MUST_DIFFER") (iosAppId = androidAppId)
    let environment ← requiredString event.environment "REVENUECAT_ENVIRONMENT_INVALID"
    throwIf (.error "REVENUECAT_ENVIRONMENT_INVALID") (upperCase environment ≠ "PRODUCTION")
    let appId ← requiredString event.appId "REVENUECAT_APP_ID_INVALID"
    throwIf (.error "REVENUECAT_APP_ID_INVALID") (appId ≠ iosAppId ∧ appId ≠ androidAppId)
  else return ()

/-- The call of the repository, and the notification if the event is applied. -/
structure WebhookCall where
  input : RevenueCatEventInput
  notification : Option CreateNotificationInput
deriving DecidableEq

/-- A call that only records its event. -/
def recordedCall (providerEventId payloadHash : String) : WebhookCall where
  input := { providerEventId, payloadHash, detail := .recorded }
  notification := none

def purchaseNotification (userId : UuidText) (title body route eventId : String) :
    CreateNotificationInput where
  userId := userId
  type := .purchase
  title := title
  body := body
  route := some route
  sourceId := some eventId

def subscriptionCall (event : RevenueCatEvent) (eventId payloadHash : String) (userId : UuidText)
    (product : BillingProduct) (planId : PlanId) (productId : Text) (status : SubscriptionStatus)
    (now : Timestamp) : Except Failure WebhookCall := do
  let originalTransactionId ← requiredString event.originalTransactionId
    "REVENUECAT_ORIGINAL_TRANSACTION_ID_REQUIRED"
  let eventTimestampMs ← requiredTimestamp event.eventTimestampMs
    "REVENUECAT_EVENT_TIMESTAMP_REQUIRED"
  let subscription := webhookSubscription planId (String.ofList productId)
    (String.ofList originalTransactionId) eventTimestampMs event.purchasedAtMs
    event.expirationAtMs status now
  return {
    input :=
      { providerEventId := eventId, payloadHash, detail := .subscription userId subscription }
    notification :=
      if status = .active then
        some (purchaseNotification userId (product.name ++ "을 시작했어요")
          "새 혜택을 바로 이용할 수 있어요." "/premium" eventId)
      else none }

def consumableCall (event : RevenueCatEvent) (eventId payloadHash : String) (userId : UuidText)
    (product : BillingProduct) (productId : Text) (targetState : TransactionState) :
    Except Failure WebhookCall := do
  let transactionId ← requiredString event.transactionId "REVENUECAT_TRANSACTION_ID_REQUIRED"
  let originalTransactionId ← requiredString event.originalTransactionId
    "REVENUECAT_ORIGINAL_TRANSACTION_ID_REQUIRED"
  let eventTimestampMs ← requiredTimestamp event.eventTimestampMs
    "REVENUECAT_EVENT_TIMESTAMP_REQUIRED"
  return {
    input :=
      { providerEventId := eventId, payloadHash
        detail := .consumableTransition
          { providerTransactionId := String.ofList transactionId
            originalTransactionId := String.ofList originalTransactionId
            userId
            canonicalProductId := canonicalProductId productId
            providerProductId := String.ofList productId
            eventTimestampMs
            targetState
            units :=
              { superLikeCredits := if product.kind = .superlike then 5 else 0
                boostCredits := if product.kind = .boost then 1 else 0 } } }
    notification :=
      if targetState = .granted then
        some (purchaseNotification userId (product.name ++ "을 준비했어요") "필요한 순간에 사용해 보세요."
          "/profile" eventId)
      else none }

def findProduct (productId : Text) : Except Failure BillingProduct :=
  match billingProducts.find? fun candidate => candidate.id = canonicalProductId productId with
  | none => .error (.error "REVENUECAT_PRODUCT_UNSUPPORTED")
  | some product => .ok product

/-- What an event of a mutation type asks for. -/
def mutationCall (event : RevenueCatEvent) (eventId eventType payloadHash : String)
    (now : Timestamp) : Except Failure WebhookCall := do
  let userId ← requiredUuid event.appUserId "REVENUECAT_APP_USER_ID_INVALID"
  let productId ← requiredString event.productId "REVENUECAT_PRODUCT_ID_REQUIRED"
  let product ← findProduct productId
  match product.kind with
  | .subscription planId =>
      match revenueCatSubscriptionStatus eventType with
      | some status =>
          subscriptionCall event eventId payloadHash userId product planId productId status now
      | none => return recordedCall eventId payloadHash
  | _ =>
      match revenueCatConsumableTargetState eventType event.cancelReason with
      | some targetState =>
          consumableCall event eventId payloadHash userId product productId targetState
      | none => return recordedCall eventId payloadHash

def webhookCall (config : WebhookConfig) (event : RevenueCatEvent) (payloadHash : String)
    (now : Timestamp) : Except Failure WebhookCall := do
  let eventId ← String.ofList <$> requiredString event.id "REVENUECAT_EVENT_ID_REQUIRED"
  let eventType ← upperCase <$> requiredString event.type "REVENUECAT_EVENT_TYPE_REQUIRED"
  if eventType ∈ noopEventTypes then return recordedCall eventId payloadHash
  throwIf (.error "REVENUECAT_EVENT_TYPE_NOT_IMPLEMENTED") (eventType ∈ unimplementedEventTypes)
  throwIf (.error "REVENUECAT_EVENT_TYPE_UNSUPPORTED") (eventType ∉ mutationEventTypes)
  checkEnvironment config event
  mutationCall event eventId eventType payloadHash now

/-! ### What an event may ask for -/

section Calls

variable {config : WebhookConfig} {event : RevenueCatEvent} {payloadHash : String}
  {now : Timestamp} {call : WebhookCall}

/-- What an event with a type in `mutationEventTypes` asks for. -/
inductive Asks (event : RevenueCatEvent) (eventId eventType payloadHash : String)
    (now : Timestamp) : WebhookCall → Prop
  | recorded : Asks event eventId eventType payloadHash now (recordedCall eventId payloadHash)
  | subscription {userId productId product planId status call}
      (owner : requiredUuid event.appUserId "REVENUECAT_APP_USER_ID_INVALID" = .ok userId)
      (named : requiredString event.productId "REVENUECAT_PRODUCT_ID_REQUIRED" = .ok productId)
      (found : findProduct productId = .ok product) (kind : product.kind = .subscription planId)
      (state : revenueCatSubscriptionStatus eventType = some status)
      (asked : subscriptionCall event eventId payloadHash userId product planId productId status
        now = .ok call) : Asks event eventId eventType payloadHash now call
  | consumable {userId productId product targetState call}
      (owner : requiredUuid event.appUserId "REVENUECAT_APP_USER_ID_INVALID" = .ok userId)
      (named : requiredString event.productId "REVENUECAT_PRODUCT_ID_REQUIRED" = .ok productId)
      (found : findProduct productId = .ok product)
      (kind : ∀ planId, product.kind ≠ .subscription planId)
      (state : revenueCatConsumableTargetState eventType event.cancelReason = some targetState)
      (asked : consumableCall event eventId payloadHash userId product productId targetState =
        .ok call) : Asks event eventId eventType payloadHash now call

theorem mutationCall_asks {eventId eventType : String}
    (h : mutationCall event eventId eventType payloadHash now = .ok call) :
    Asks event eventId eventType payloadHash now call := by
  obtain ⟨userId, howner, h⟩ := bind_eq_ok_iff.1 h
  obtain ⟨productId, hnamed, h⟩ := bind_eq_ok_iff.1 h
  obtain ⟨product, hfound, h⟩ := bind_eq_ok_iff.1 h
  split at h
  next planId hkind =>
    split at h
    next status hstatus => exact .subscription howner hnamed hfound hkind hstatus h
    next =>
      obtain rfl := pure_eq_ok_iff.1 h
      exact .recorded
  next hkind =>
    split at h
    next targetState hstate => exact .consumable howner hnamed hfound hkind hstate h
    next =>
      obtain rfl := pure_eq_ok_iff.1 h
      exact .recorded

/-- An accepted event names itself and its type, and asks for something. -/
theorem webhookCall_asks (h : webhookCall config event payloadHash now = .ok call) :
    ∃ id type, requiredString event.id "REVENUECAT_EVENT_ID_REQUIRED" = .ok id ∧
      requiredString event.type "REVENUECAT_EVENT_TYPE_REQUIRED" = .ok type ∧
      Asks event (String.ofList id) (upperCase type) payloadHash now call := by
  obtain ⟨eventId, hid, h⟩ := bind_eq_ok_iff.1 h
  obtain ⟨eventType, htype, h⟩ := bind_eq_ok_iff.1 h
  cases hid' : requiredString event.id "REVENUECAT_EVENT_ID_REQUIRED" with
  | error failure =>
      rw [hid'] at hid
      cases hid
  | ok id =>
  cases htype' : requiredString event.type "REVENUECAT_EVENT_TYPE_REQUIRED" with
  | error failure =>
      rw [htype'] at htype
      cases htype
  | ok type =>
  rw [hid'] at hid
  rw [htype'] at htype
  obtain rfl : String.ofList id = eventId := Except.ok.inj hid
  obtain rfl : upperCase type = eventType := Except.ok.inj htype
  refine ⟨id, type, rfl, rfl, ?_⟩
  split at h
  · obtain rfl := pure_eq_ok_iff.1 h
    exact .recorded
  · obtain ⟨-, -, h⟩ := bind_eq_ok_iff.1 h
    obtain ⟨-, -, h⟩ := bind_eq_ok_iff.1 h
    obtain ⟨-, -, h⟩ := bind_eq_ok_iff.1 h
    exact mutationCall_asks h

end Calls

/-! ### The request -/

/-- A request of the webhook, with the clock it is answered at. -/
structure WebhookRequest where
  rawBody : List UInt8
  signature : Option Text
  payload : Payload
  now : Timestamp

def isDigit (c : Char) : Bool := c ∈ "0123456789".toList

/-- `/^t=(\d+),v1=([0-9a-f]{64})$/i`: the time and the digest of a signature. -/
def matchSignature (signature : Text) : Option (Text × Text) :=
  match signature with
  | t :: '=' :: rest =>
      let time := rest.takeWhile isDigit
      match rest.dropWhile isDigit with
      | ',' :: v :: '1' :: '=' :: digest =>
          if (t = 't' ∨ t = 'T') ∧ time ≠ [] ∧ (v = 'v' ∨ v = 'V') ∧ digest.length = 64 ∧
              digest.all (· ∈ hexDigits) then some (time, digest)
          else none
      | _ => none
  | _ => none

/-- The value of a sequence of digits. -/
def digitsValue (digits : Text) : ℕ :=
  digits.foldl (fun value c => 10 * value + (c.toNat - '0'.toNat)) 0

/-- `Number.MAX_SAFE_INTEGER`. -/
def maxSafeInteger : ℕ := 9007199254740991

def signatureInvalid : Failure := .error "REVENUECAT_SIGNATURE_INVALID"

def assertSignature (config : WebhookConfig) (request : WebhookRequest) : Except Failure Unit := do
  let some secret := config.webhookSecret.filter (· ≠ [])
    | throw (.error "REVENUECAT_WEBHOOK_SECRET_REQUIRED")
  let some (timestampText, receivedHex) := request.signature.bind matchSignature
    | throw signatureInvalid
  let timestamp := digitsValue timestampText
  throwIf signatureInvalid (maxSafeInteger < timestamp)
  throwIf signatureInvalid
    (receivedHex.lower ≠
      config.hmacSha256 secret (utf8 (timestampText ++ ['.']) ++ request.rawBody))
  -- The clock is in milliseconds, the tolerance in seconds.
  throwIf (.error "REVENUECAT_SIGNATURE_TIMESTAMP_INVALID")
    (300 * 1000 < |request.now - 1000 * timestamp|)

structure WebhookReply where
  accepted : Bool
  duplicate : Bool
deriving DecidableEq

/-- The failures from outside that the two transactions of a call run into. -/
structure WebhookFaults where
  billing : Option Failure
  notification : Option Failure

/-- A call that may fail for a reason outside the code. -/
def failing {α : Type} (fault : Option Failure) (call : Call Database Failure α) :
    Call Database Failure α := fun db =>
  match fault with
  | some failure => .error failure
  | none => call db

/-- The call of the repository with the notification that follows it, which is
left out of a repetition and of a stale event, and whose failure is caught. -/
def runWebhookCall (config : WebhookConfig) (call : WebhookCall) (now : Timestamp)
    (faults : WebhookFaults) (db : Database) : Except Failure WebhookReply × Database :=
  match failing faults.billing (applyRevenueCatEvent call.input) db with
  | .error failure => (.error failure, db)
  | .ok (result, db) =>
      if result.outcome = .duplicate then (.ok ⟨true, true⟩, db)
      else if result.outcome = .stale then (.ok ⟨true, false⟩, db)
      else
        match call.notification with
        | none => (.ok ⟨true, false⟩, db)
        | some notification =>
            (.ok ⟨true, false⟩,
              Transaction.commit (failing faults.notification
                (createWithPushOutbox notification config.pushEnabled now)) db)

/-- What a request asks for, if it is signed and well formed. -/
def requestedCall (config : WebhookConfig) (request : WebhookRequest) :
    Except Failure WebhookCall := do
  assertSignature config request
  let event ← getRevenueCatEvent request.payload
  webhookCall config event (config.sha256 request.rawBody) request.now

def handleRevenueCatWebhook (config : WebhookConfig) (request : WebhookRequest)
    (faults : WebhookFaults) (db : Database) : Except Failure WebhookReply × Database :=
  match requestedCall config request with
  | .error failure => (.error failure, db)
  | .ok call => runWebhookCall config call request.now faults db

end ChatTea.Billing
