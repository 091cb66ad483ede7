import ChatTea.Database.Schema
import ChatTea.Lib.Table
import ChatTea.Lib.Transaction

/-!
# The notification repository

The embedding of `NotificationRepository.createWithPushOutbox`: a notification
of a user, with a push for each of the user's devices when pushes are enabled.

## Main definitions

* `CreateNotificationInput` — what a notification says
* `insertNotification`, `insertPushOutbox` — the two inserts
* `createWithPushOutbox` — the call

## Main results

* `createWithPushOutbox_ok` — a successful call adds a notification and pushes, and
  changes no other table
* `createWithPushOutbox_succeeds` — it succeeds for an account with a short title
-/

namespace ChatTea.Notification

open Table Transaction

structure CreateNotificationInput where
  userId : UuidText
  type : NotificationType
  title : String
  body : String
  route : Option String
  sourceId : Option String
deriving DecidableEq

/-- The row of `notifications` that a call inserts. -/
def createdNotification (input : CreateNotificationInput) (now : Timestamp) (id : RowId) :
    ChatTea.Notification where
  id := id
  userId := input.userId.toUuid
  type := input.type
  title := input.title
  body := input.body
  route := input.route
  sourceId := input.sourceId
  readAt := none
  createdAt := now

def insertNotification (input : CreateNotificationInput) (now : Timestamp) (db : Database) :
    Except Failure (ChatTea.Notification × Database) := do
  require (.constraint "notifications_userId_fkey") (db.hasUser input.userId.toUuid)
  require (.constraint "notifications_title_length") (input.title.length ≤ 80)
  let notification := createdNotification input now db.nextRowId
  return (notification,
    { db with
      notifications := db.notifications ++ [notification]
      nextRowId := db.nextRowId + 1 })

/-- The job that pushes a notification to a device. -/
def createdPush (input : CreateNotificationInput) (notificationId : RowId) (now : Timestamp)
    (token : PushToken) (id : RowId) : PushOutbox where
  id := id
  notificationId := notificationId
  pushTokenId := some token.id
  tokenSnapshot := token.token
  title := input.title
  body := input.body
  route := input.route
  status := .queued
  ticketId := none
  sendAttempts := 0
  receiptAttempts := 0
  nextAttemptAt := now
  receiptAvailableAt := none
  leaseExpiresAt := none
  lastErrorCode := none
  lastErrorMessage := none
  sentAt := none
  completedAt := none
  createdAt := now

/-- The push tokens of a user. -/
def tokensOf (userId : Uuid) (db : Database) : List PushToken :=
  db.pushTokens.filter fun token => token.userId = userId

/-- One job for each token, with identifiers drawn in turn. -/
def insertPushOutbox (input : CreateNotificationInput) (notificationId : RowId) (now : Timestamp)
    (tokens : List PushToken) (db : Database) : Database :=
  { db with
    pushOutbox := db.pushOutbox ++ tokens.zipIdx.map fun (token, position) =>
      createdPush input notificationId now token (db.nextRowId + position)
    nextRowId := db.nextRowId + tokens.length }

def createWithPushOutbox (input : CreateNotificationInput) (enqueuePush : Bool) (now : Timestamp) :
    Call Database Failure ChatTea.Notification := fun db => do
  let (notification, db) ← insertNotification input now db
  if ¬ enqueuePush then return (notification, db)
  let tokens := tokensOf input.userId.toUuid db
  return (notification, insertPushOutbox input notification.id now tokens db)

variable {input : CreateNotificationInput} {enqueuePush : Bool} {now : Timestamp}
  {db db' : Database} {notification : ChatTea.Notification}

/-- A successful call adds a notification of the user, and pushes of it. -/
theorem createWithPushOutbox_ok
    (h : createWithPushOutbox input enqueuePush now db = .ok (notification, db')) :
    notification = createdNotification input now db.nextRowId ∧
      ∃ pushes nextRowId, db.nextRowId ≤ nextRowId ∧
        db' = { db with
          notifications := db.notifications ++ [notification]
          pushOutbox := db.pushOutbox ++ pushes
          nextRowId := nextRowId } := by
  obtain ⟨⟨created, inserted⟩, hinsert, hrest⟩ := bind_eq_ok_iff.1 h
  simp only [insertNotification, bind_eq_ok_iff, require_eq_ok_iff, pure_eq_ok_iff,
    Prod.mk.injEq, exists_const] at hinsert
  obtain ⟨-, -, rfl, rfl⟩ := hinsert
  cases enqueuePush with
  | false =>
      obtain ⟨rfl, rfl⟩ := Prod.mk.inj (pure_eq_ok_iff.1 hrest)
      refine ⟨rfl, [], db.nextRowId + 1, Nat.le_succ _, ?_⟩
      rw [List.append_nil]
  | true =>
      obtain ⟨rfl, rfl⟩ := Prod.mk.inj (pure_eq_ok_iff.1 hrest)
      refine ⟨rfl, _, _, ?_, rfl⟩
      rw [Nat.add_assoc]
      exact Nat.le_add_right _ _

/-- An account can be notified under any short title. -/
theorem createWithPushOutbox_succeeds (enqueuePush : Bool) (now : Timestamp)
    (huser : db.hasUser input.userId.toUuid) (htitle : input.title.length ≤ 80) :
    ∃ notification db', createWithPushOutbox input enqueuePush now db = .ok (notification, db') := by
  have hinsert : insertNotification input now db = .ok (createdNotification input now db.nextRowId,
      { db with
        notifications := db.notifications ++ [createdNotification input now db.nextRowId]
        nextRowId := db.nextRowId + 1 }) := by
    simp only [insertNotification, require_of huser, require_of htitle]
    rfl
  simp only [createWithPushOutbox, hinsert]
  cases enqueuePush
  · exact ⟨_, _, rfl⟩
  · exact ⟨_, _, rfl⟩

end ChatTea.Notification
