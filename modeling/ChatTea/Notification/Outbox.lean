import ChatTea.Notification.Registration
import Mathlib.Data.List.Basic

/-!
# Delivering pushes

The embedding of the two batches of `NotificationService`, with the transactions of
`NotificationRepository` and the gateway to Expo that they use. A batch claims some jobs of the
outbox, asks Expo about them, and stores what it makes of the answer. The client of Expo is a
parameter, and so is what PostgreSQL leaves open in a claim.

## Main definitions

* `ExpoPushGateway.send`, `ExpoPushGateway.getReceipts` — tickets and receipts as the service
  sees them
* `claimSendBatch`, `claimReceiptBatch` — a claim
* `ticketResult`, `receiptResult` — what becomes of a job
* `sendResultValues`, `receiptResultValues`, `applySendResults`, `applyReceiptResults` — what is
  stored
* `processPushOutboxBatch`, `processPushReceiptBatch` — the batches
-/

namespace ChatTea.Notification

open Table Transaction
open Users (cancelPush deletePushTokens isOpenPush)

/-! ### Expo -/

/-- A message as the client of the push service takes it. -/
structure ExpoPushMessage where
  «to» : String
  title : String
  body : String
  /-- The route in `data`. -/
  route : Option String
  sound : String

/-- What `sendPushNotificationsAsync` returns for a message; `error` is `details.error`. -/
inductive ExpoPushTicket where
  | ok (id : String)
  | error (message : String) (error : Option String)
deriving DecidableEq, Repr

/-- A receipt as the client of the push service returns it. -/
inductive ExpoPushReceipt where
  | ok
  | error (message : String) (error : Option String)
deriving DecidableEq, Repr

/-- A ticket as the gateway passes it on. -/
inductive ExpoGatewayTicket where
  | ok (id : String)
  | error (message : String) (errorCode : Option String)
deriving DecidableEq, Repr

/-- A receipt as the gateway passes it on. -/
inductive ExpoGatewayReceipt where
  | ok
  | error (message : String) (errorCode : Option String)
deriving DecidableEq, Repr

/-- The client of `expo-server-sdk`. A call throws an error with a message or something else; the
receipts are an object with a ticket for each key. -/
structure ExpoClient where
  sendPushNotificationsAsync : List ExpoPushMessage → Except (Option String) (List ExpoPushTicket)
  getPushNotificationReceiptsAsync :
    List String → Except (Option String) (String → Option ExpoPushReceipt)

/-- A text that JavaScript takes for true. -/
def truthy (text : Option String) : Option String := text.filter (· ≠ "")

namespace ExpoPushGateway

/-- An error code that is empty is none. -/
def toTicket : ExpoPushTicket → ExpoGatewayTicket
  | .ok id => .ok id
  | .error message error => .error message (truthy error)

/-- An error code that is empty is none. -/
def toReceipt : ExpoPushReceipt → ExpoGatewayReceipt
  | .ok => .ok
  | .error message error => .error message (truthy error)

/-- Hands messages to the push service. -/
def send (client : ExpoClient) (messages : List ExpoPushMessage) :
    Except (Option String) (List ExpoGatewayTicket) :=
  (client.sendPushNotificationsAsync messages).map fun tickets => tickets.map toTicket

/-- Asks the push service for receipts. -/
def getReceipts (client : ExpoClient) (ticketIds : List String) :
    Except (Option String) (String → Option ExpoGatewayReceipt) :=
  (client.getPushNotificationReceiptsAsync ticketIds).map fun receipts ticketId =>
    (receipts ticketId).map toReceipt

end ExpoPushGateway

/-! ### Results -/

/-- The messages that one request may have. -/
def maxExpoMessagesPerRequest : ℤ := 100

/-- When the receipt of a ticket is first asked for, in milliseconds. -/
def expoReceiptDelayMs : ℤ := 15 * 60 * 1000

/-- How long a claim holds, in milliseconds. -/
def pushLeaseMs : ℤ := 60 * 1000

/-- After so many attempts a job is not sent again. -/
def maxPushSendAttempts : ℕ := 5

/-- After so many attempts the receipt is not asked for again. -/
def maxPushReceiptAttempts : ℕ := 8

/-- What came of a send. -/
inductive PushSendKind where
  | accepted
  | retry
  | permanent
  | exhausted
deriving DecidableEq, Repr

/-- What came of a request for a receipt. -/
inductive PushReceiptKind where
  | delivered
  | retry
  | permanent
  | exhausted
deriving DecidableEq, Repr

/-- The result of a send, under the attempt that it belongs to. -/
structure PushSendResult where
  id : RowId
  attempt : ℕ
  kind : PushSendKind
  ticketId : Option String := none
  receiptAvailableAt : Option Timestamp := none
  nextAttemptAt : Option Timestamp := none
  errorCode : Option String := none
  errorMessage : Option String := none
  invalidatePushTokenId : Option RowId := none

/-- The result of a request for a receipt, under the attempt that it belongs to. -/
structure PushReceiptResult where
  id : RowId
  attempt : ℕ
  kind : PushReceiptKind
  nextAttemptAt : Option Timestamp := none
  errorCode : Option String := none
  errorMessage : Option String := none
  invalidatePushTokenId : Option RowId := none

/-- The delay doubles with each attempt, up to an hour. -/
def retryAt (now : Timestamp) (attempt : ℕ) : Timestamp :=
  now + min (30000 * 2 ^ (attempt - 1)) (60 * 60 * 1000)

/-- Another attempt to send, or none that is left. -/
def retrySendResult (job : PushOutbox) (now : Timestamp) (errorCode : String)
    (errorMessage : Option String) : PushSendResult :=
  if maxPushSendAttempts ≤ job.sendAttempts then
    { id := job.id, attempt := job.sendAttempts, kind := .exhausted, errorCode := some errorCode
      errorMessage := errorMessage }
  else
    { id := job.id, attempt := job.sendAttempts, kind := .retry
      nextAttemptAt := some (retryAt now job.sendAttempts), errorCode := some errorCode
      errorMessage := errorMessage }

/-- The token that Expo no longer knows. -/
def invalidatedToken (job : PushOutbox) (errorCode : Option String) : Option RowId :=
  if errorCode = some "DeviceNotRegistered" then job.pushTokenId else none

/-- What a ticket means for its job. -/
def ticketResult (job : PushOutbox) (ticket : Option ExpoGatewayTicket) (now : Timestamp) :
    PushSendResult :=
  match ticket with
  | none => retrySendResult job now "ExpoTicketMissing" none
  | some (.ok id) =>
      { id := job.id, attempt := job.sendAttempts, kind := .accepted, ticketId := some id
        receiptAvailableAt := some (now + expoReceiptDelayMs) }
  | some (.error message errorCode) =>
      if errorCode = some "MessageRateExceeded" then
        retrySendResult job now "MessageRateExceeded" (some message)
      else if errorCode = some "ProviderError" then
        retrySendResult job now "ProviderError" (some message)
      else
        { id := job.id, attempt := job.sendAttempts, kind := .permanent
          errorCode := some (errorCode.getD "ExpoTicketRejected"), errorMessage := some message
          invalidatePushTokenId := invalidatedToken job errorCode }

/-- Another attempt to get the receipt, or none that is left. -/
def retryReceiptResult (job : PushOutbox) (now : Timestamp) (errorCode : String)
    (errorMessage : Option String) : PushReceiptResult :=
  if maxPushReceiptAttempts ≤ job.receiptAttempts then
    { id := job.id, attempt := job.receiptAttempts, kind := .exhausted, errorCode := some errorCode
      errorMessage := errorMessage }
  else
    { id := job.id, attempt := job.receiptAttempts, kind := .retry
      nextAttemptAt := some (retryAt now job.receiptAttempts), errorCode := some errorCode
      errorMessage := errorMessage }

/-- What a receipt means for its job. -/
def receiptResult (job : PushOutbox) (receipt : Option ExpoGatewayReceipt) (now : Timestamp) :
    PushReceiptResult :=
  match receipt with
  | none => retryReceiptResult job now "ExpoReceiptMissing" none
  | some .ok => { id := job.id, attempt := job.receiptAttempts, kind := .delivered }
  | some (.error message errorCode) =>
      { id := job.id, attempt := job.receiptAttempts, kind := .permanent
        errorCode := some (errorCode.getD "ExpoReceiptRejected"), errorMessage := some message
        invalidatePushTokenId := invalidatedToken job errorCode }

/-! ### Claims -/

/-- The job is to be sent: its time has come, or the lease of its claim has run out. -/
def sendDue (now : Timestamp) (row : PushOutbox) : Bool :=
  row.status = .queued ∧ row.nextAttemptAt ≤ now ∨
    row.status = .sending ∧ row.leaseExpiresAt.any (· ≤ now)

/-- The receipt of the job is to be asked for: its time has come, or the lease has run out. -/
def receiptDue (now : Timestamp) (row : PushOutbox) : Bool :=
  row.status = .receiptPending ∧ row.receiptAvailableAt.any (· ≤ now) ∧ row.nextAttemptAt ≤ now ∨
    row.status = .receiptChecking ∧ row.leaseExpiresAt.any (· ≤ now)

/-- What PostgreSQL is free in: the rows that `SKIP LOCKED` finds locked, and the order in which an
update returns its rows. -/
structure Scan where
  locked : RowId → Bool
  arrange : List PushOutbox → List PushOutbox
  perm : ∀ rows, (arrange rows).Perm rows

/-- What a claim returns. -/
structure PushClaimBatch where
  jobs : List PushOutbox
  hasMore : Bool

/-- A missing time comes last. -/
def isEarlier : Option Timestamp → Option Timestamp → Bool
  | some time, some other => time < other
  | some _, none => true
  | none, _ => false

/-- `ORDER BY` a time, `"createdAt"` and `id`. -/
def comesFirst (time : PushOutbox → Option Timestamp) (row other : PushOutbox) : Bool :=
  isEarlier (time row) (time other) ∨ time row = time other ∧
    (row.createdAt < other.createdAt ∨ row.createdAt = other.createdAt ∧ row.id ≤ other.id)

/-- The rows that a claim selects and locks. -/
def candidates (due : PushOutbox → Bool) (time : PushOutbox → Option Timestamp) (scan : Scan)
    (limit : ℕ) (db : Database) : List PushOutbox :=
  ((db.pushOutbox.filter fun row => due row ∧ ¬ scan.locked row.id).mergeSort (comesFirst time)).take limit

/-- Select jobs that are due, and mark them. -/
def claimBatch (due : PushOutbox → Bool) (time : PushOutbox → Option Timestamp)
    (mark : PushOutbox → PushOutbox) (scan : Scan) (limit : ℕ) :
    Call Database Failure PushClaimBatch := fun db =>
  let selected := candidates due time scan limit db
  if selected = [] then .ok (⟨[], false⟩, db) else
  let isSelected : PushOutbox → Bool := fun row => row.id ∈ selected.map (·.id)
  let jobs := scan.arrange (returning isSelected mark db.pushOutbox)
  let db := { db with pushOutbox := updateWhere isSelected mark db.pushOutbox }
  .ok (⟨jobs, db.pushOutbox.any due⟩, db)

/-- A job under a claim that sends it. -/
def markSending (leaseExpiresAt : Timestamp) (row : PushOutbox) : PushOutbox :=
  { row with
    status := .sending
    sendAttempts := row.sendAttempts + 1
    leaseExpiresAt := some leaseExpiresAt }

/-- Claims jobs to be sent. -/
def claimSendBatch (now leaseExpiresAt : Timestamp) (scan : Scan) (limit : ℕ) :
    Call Database Failure PushClaimBatch :=
  claimBatch (sendDue now) (fun row => some row.nextAttemptAt) (markSending leaseExpiresAt) scan limit

/-- A job under a claim that asks for its receipt. -/
def markChecking (leaseExpiresAt : Timestamp) (row : PushOutbox) : PushOutbox :=
  { row with
    status := .receiptChecking
    receiptAttempts := row.receiptAttempts + 1
    leaseExpiresAt := some leaseExpiresAt }

/-- Claims jobs whose receipts are to be asked for. -/
def claimReceiptBatch (now leaseExpiresAt : Timestamp) (scan : Scan) (limit : ℕ) :
    Call Database Failure PushClaimBatch :=
  claimBatch (receiptDue now) (fun row => row.receiptAvailableAt) (markChecking leaseExpiresAt) scan
    limit

/-! ### What is stored -/

/-- The values of an update; a column without a value is left alone, and the lease always ends. -/
structure PushOutboxValues where
  status : PushOutboxStatus
  ticketId : Option String := none
  receiptAvailableAt : Option Timestamp := none
  nextAttemptAt : Option Timestamp := none
  sentAt : Option Timestamp := none
  completedAt : Option Timestamp := none
  /-- `some none` clears the column. -/
  lastErrorCode : Option (Option String) := none
  lastErrorMessage : Option (Option String) := none

/-- `UPDATE push_outbox SET …` -/
def PushOutboxValues.set (values : PushOutboxValues) (row : PushOutbox) : PushOutbox :=
  { row with
    status := values.status
    ticketId := values.ticketId.or row.ticketId
    receiptAvailableAt := values.receiptAvailableAt.or row.receiptAvailableAt
    nextAttemptAt := values.nextAttemptAt.getD row.nextAttemptAt
    sentAt := values.sentAt.or row.sentAt
    completedAt := values.completedAt.or row.completedAt
    leaseExpiresAt := none
    lastErrorCode := values.lastErrorCode.getD row.lastErrorCode
    lastErrorMessage := values.lastErrorMessage.getD row.lastErrorMessage }

/-- The columns that the result of a send sets. -/
def sendResultValues (result : PushSendResult) (now : Timestamp) : Except Failure PushOutboxValues :=
  match result.kind with
  | .accepted =>
      match truthy result.ticketId, result.receiptAvailableAt with
      | some ticketId, some receiptAvailableAt =>
          .ok { status := .receiptPending, ticketId := some ticketId
                receiptAvailableAt := some receiptAvailableAt
                nextAttemptAt := some receiptAvailableAt, sentAt := some now
                lastErrorCode := some none, lastErrorMessage := some none }
      | _, _ => .error (.error "EXPO_PUSH_TICKET_INVALID")
  | .retry =>
      match result.nextAttemptAt with
      | some nextAttemptAt =>
          .ok { status := .queued, nextAttemptAt := some nextAttemptAt
                lastErrorCode := result.errorCode.map some
                lastErrorMessage := result.errorMessage.map some }
      | none => .error (.error "EXPO_PUSH_RETRY_TIME_REQUIRED")
  | .exhausted =>
      .ok { status := .exhausted, completedAt := some now
            lastErrorCode := result.errorCode.map some
            lastErrorMessage := result.errorMessage.map some }
  | .permanent =>
      .ok { status := .failedPermanent, completedAt := some now
            lastErrorCode := result.errorCode.map some
            lastErrorMessage := result.errorMessage.map some }

/-- The columns that the result of a request for a receipt sets. -/
def receiptResultValues (result : PushReceiptResult) (now : Timestamp) :
    Except Failure PushOutboxValues :=
  match result.kind with
  | .delivered =>
      .ok { status := .delivered, completedAt := some now, lastErrorCode := some none
            lastErrorMessage := some none }
  | .retry =>
      match result.nextAttemptAt with
      | some nextAttemptAt =>
          .ok { status := .receiptPending, nextAttemptAt := some nextAttemptAt
                lastErrorCode := result.errorCode.map some
                lastErrorMessage := result.errorMessage.map some }
      | none => .error (.error "EXPO_PUSH_RETRY_TIME_REQUIRED")
  | .exhausted =>
      .ok { status := .exhausted, completedAt := some now
            lastErrorCode := result.errorCode.map some
            lastErrorMessage := result.errorMessage.map some }
  | .permanent =>
      .ok { status := .failedPermanent, completedAt := some now
            lastErrorCode := result.errorCode.map some
            lastErrorMessage := result.errorMessage.map some }

/-- Cancel the other jobs of a push token, and delete it. -/
def invalidatePushToken (pushTokenId currentJobId : RowId) (now : Timestamp) (db : Database) :
    Database :=
  deletePushTokens (fun token => token.id = pushTokenId)
    { db with
      pushOutbox := updateWhere
        (fun row => row.pushTokenId = some pushTokenId ∧ row.id ≠ currentJobId ∧ isOpenPush row.status)
        (cancelPush now) db.pushOutbox }

/-- The update of the job of a result, if it is still claimed; `push_outbox_ticket_unique` refuses a
ticket that another row has. -/
def updateJob (isClaimed : PushOutbox → Bool) (values : PushOutboxValues) (db : Database) :
    Except Failure (Bool × Database) := do
  require (.constraint "push_outbox_ticket_unique")
    (∀ row ∈ db.pushOutbox, isClaimed row → ∀ ticketId ∈ values.ticketId,
      ∀ other ∈ db.pushOutbox, other.id ≠ row.id → other.ticketId ≠ some ticketId)
  return (db.pushOutbox.any isClaimed,
    { db with pushOutbox := updateWhere isClaimed values.set db.pushOutbox })

/-- One round of the loop over the results. -/
def applyResult (id : RowId) (isClaimed : PushOutbox → Bool)
    (values : Except Failure PushOutboxValues) (invalidatePushTokenId : Option RowId)
    (now : Timestamp) (db : Database) : Except Failure Database := do
  let values ← values
  let (updated, db) ← updateJob isClaimed values db
  match invalidatePushTokenId with
  | some pushTokenId =>
      if updated then return invalidatePushToken pushTokenId id now db
      return db
  | none => return db

/-- The job of a result while it has the status and the attempt of the claim. -/
def isClaimedJob (status : PushOutboxStatus) (attempts : PushOutbox → ℕ) (id : RowId) (attempt : ℕ)
    (row : PushOutbox) : Bool := row.id = id ∧ row.status = status ∧ attempts row = attempt

/-- Stores the result of a send, if its claim still holds. -/
def applySendResult (now : Timestamp) (db : Database) (result : PushSendResult) :
    Except Failure Database :=
  applyResult result.id (isClaimedJob .sending (·.sendAttempts) result.id result.attempt)
    (sendResultValues result now) result.invalidatePushTokenId now db

/-- Stores the results of a batch in one transaction. -/
def applySendResults (results : List PushSendResult) (now : Timestamp) :
    Call Database Failure Unit := fun db => do
  let db ← results.foldlM (applySendResult now) db
  return ((), db)

/-- Stores the result of a request for a receipt, if its claim still holds. -/
def applyReceiptResult (now : Timestamp) (db : Database) (result : PushReceiptResult) :
    Except Failure Database :=
  applyResult result.id
    (isClaimedJob .receiptChecking (·.receiptAttempts) result.id result.attempt)
    (receiptResultValues result now) result.invalidatePushTokenId now db

/-- Stores the results of a batch in one transaction. -/
def applyReceiptResults (results : List PushReceiptResult) (now : Timestamp) :
    Call Database Failure Unit := fun db => do
  let db ← results.foldlM (applyReceiptResult now) db
  return ((), db)

/-! ### Batches -/

/-- Several transactions in a row; what one has committed stays when a later one throws. -/
abbrev Flow (α : Type) := ExceptT Failure (StateM Database) α

/-- A transaction of the flow: a failure leaves the tables as they were. -/
def transact {α : Type} (call : Call Database Failure α) : Flow α := fun db =>
  match call db with
  | .ok (value, committed) => (.ok value, committed)
  | .error failure => (.error failure, db)

/-- The summary of a batch. -/
structure MaintenanceBatchResult where
  claimed : ℕ
  succeeded : ℕ
  retryScheduled : ℕ
  permanentlyFailed : ℕ
  hasMore : Bool
deriving DecidableEq, Repr

/-- The summary of a batch without jobs. -/
def emptyBatch : MaintenanceBatchResult where
  claimed := 0
  succeeded := 0
  retryScheduled := 0
  permanentlyFailed := 0
  hasMore := false

/-- The limit is an integer. -/
def validateBatchLimit (limit : ℤ) : Except Failure ℕ := do
  throwIf (.error "PUSH_BATCH_LIMIT_INVALID") (limit < 1 ∨ maxExpoMessagesPerRequest < limit)
  return limit.toNat

/-- The message of a job. -/
def expoMessage (job : PushOutbox) : ExpoPushMessage where
  «to» := job.tokenSnapshot
  title := job.title
  body := job.body
  route := truthy job.route
  sound := "default"

/-- The results of a batch for what the gateway returns or throws. -/
def sendResults (jobs : List PushOutbox)
    (answer : Except (Option String) (List ExpoGatewayTicket)) (now : Timestamp) :
    List PushSendResult :=
  match answer with
  | .ok tickets =>
      if tickets.length = jobs.length then
        jobs.zipIdx.map fun (job, index) => ticketResult job tickets[index]? now
      else jobs.map fun job => retrySendResult job now "ExpoTicketCountMismatch" none
  | .error thrown => jobs.map fun job =>
      retrySendResult job now "ExpoRequestFailed" (some (thrown.getD "EXPO_PUSH_SEND_FAILED"))

/-- The summary of a batch that was sent. -/
def summarizeSendResults (results : List PushSendResult) (hasMore : Bool) : MaintenanceBatchResult where
  claimed := results.length
  succeeded := results.countP fun result => result.kind = .accepted
  retryScheduled := results.countP fun result => result.kind = .retry
  permanentlyFailed := results.countP fun result =>
    result.kind = .permanent ∨ result.kind = .exhausted
  hasMore := hasMore

/-- A batch of sends: claim, hand over, store the results. -/
def processPushOutboxBatch (pushEnabled : Bool) (client : ExpoClient) (scan : Scan)
    (now : Timestamp) (limit : ℤ) : Flow MaintenanceBatchResult := do
  if ¬ pushEnabled then return emptyBatch
  let limit ← ExceptT.mk (pure (validateBatchLimit limit))
  let claimed ← transact (claimSendBatch now (now + pushLeaseMs) scan limit)
  if claimed.jobs = [] then return { emptyBatch with hasMore := claimed.hasMore }
  let answer := ExpoPushGateway.send client (claimed.jobs.map expoMessage)
  let results := sendResults claimed.jobs answer now
  transact (applySendResults results now)
  return summarizeSendResults results claimed.hasMore

/-- The tickets of the jobs that have one. -/
def ticketIdsOf (jobs : List PushOutbox) : List String := jobs.filterMap fun job => truthy job.ticketId

/-- The results of a batch, from the receipts or from what failed to give them. -/
def receiptResults (client : ExpoClient) (jobs : List PushOutbox) (now : Timestamp) :
    List PushReceiptResult :=
  if (ticketIdsOf jobs).length ≠ jobs.length then
    jobs.map fun job =>
      if (truthy job.ticketId).isSome then
        retryReceiptResult job now "ExpoReceiptBatchInvalid" none
      else
        { id := job.id, attempt := job.receiptAttempts, kind := .permanent
          errorCode := some "ExpoTicketMissing" }
  else
    match ExpoPushGateway.getReceipts client (ticketIdsOf jobs) with
    | .ok receipts => jobs.map fun job => receiptResult job (receipts (job.ticketId.getD "")) now
    | .error thrown => jobs.map fun job => retryReceiptResult job now "ExpoReceiptRequestFailed"
        (some (thrown.getD "EXPO_PUSH_RECEIPT_FAILED"))

/-- The summary of a batch whose receipts were asked for. -/
def summarizeReceiptResults (results : List PushReceiptResult) (hasMore : Bool) :
    MaintenanceBatchResult where
  claimed := results.length
  succeeded := results.countP fun result => result.kind = .delivered
  retryScheduled := results.countP fun result => result.kind = .retry
  permanentlyFailed := results.countP fun result =>
    result.kind = .permanent ∨ result.kind = .exhausted
  hasMore := hasMore

/-- A batch of receipts: claim, ask, store the results. -/
def processPushReceiptBatch (pushEnabled : Bool) (client : ExpoClient) (scan : Scan)
    (now : Timestamp) (limit : ℤ) : Flow MaintenanceBatchResult := do
  if ¬ pushEnabled then return emptyBatch
  let limit ← ExceptT.mk (pure (validateBatchLimit limit))
  let claimed ← transact (claimReceiptBatch now (now + pushLeaseMs) scan limit)
  if claimed.jobs = [] then return { emptyBatch with hasMore := claimed.hasMore }
  let results := receiptResults client claimed.jobs now
  transact (applyReceiptResults results now)
  return summarizeReceiptResults results claimed.hasMore

end ChatTea.Notification
