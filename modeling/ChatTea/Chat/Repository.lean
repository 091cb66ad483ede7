import ChatTea.Database.Schema
import ChatTea.Lib.Table
import ChatTea.Lib.Transaction
import Mathlib.Data.List.MinMax
import Mathlib.Data.Prod.Lex

/-!
# Messages and read receipts

What the statements of `ChatRepository` read and write.

## Main definitions

* `findMessageByIdempotencyKey`, `activeMessageCount`, `isRoomMember`,
  `otherRoomMemberIds` — what a send looks up
* `insertMessage` — the row of a send, with the constraints of `messages`
* `newestMessage`, `upsertReceipt` — what `markRoomRead` reads and writes
* `isUnread`, `unreadMessages`, `rooms` — the rooms of a user, without their order

## Main results

* `insertMessage_ok` — what an insertion that is not refused finds and leaves
* `isUnread_upsertReceipt` — what a new receipt leaves unread
-/

namespace ChatTea.Chat

open Table Transaction

/-! ### Sends -/

/-- The row of a room, a sender and a key. -/
def hasKey (roomId : RowId) (senderUserId : Uuid) (idempotencyKey : String) (row : Message) : Bool :=
  row.roomId = roomId ∧ row.senderUserId = some senderUserId ∧ row.idempotencyKey = some idempotencyKey

def findMessageByIdempotencyKey (idempotencyKey : String) (roomId : RowId) (senderUserId : Uuid)
    (db : Database) : Option Message :=
  db.messages.find? (hasKey roomId senderUserId idempotencyKey)

def activeMessageCount (roomId : RowId) (db : Database) : ℕ :=
  db.messages.countP fun row => row.roomId = roomId ∧ row.deletedAt = none

def isRoomMember (roomId : RowId) (userId : Uuid) (db : Database) : Bool :=
  db.roomMembers.any fun row => row.roomId = roomId ∧ row.userId = userId

def otherRoomMemberIds (roomId : RowId) (userId : Uuid) (db : Database) : List Uuid :=
  (db.roomMembers.filter fun row => row.roomId = roomId ∧ row.userId ≠ userId).map (·.userId)

/-- A row has the key of another one; a row without a sender or a key conflicts with none. -/
def conflicts (row old : Message) : Bool :=
  old.roomId = row.roomId ∧ row.senderUserId ≠ none ∧ old.senderUserId = row.senderUserId ∧
    row.idempotencyKey ≠ none ∧ old.idempotencyKey = row.idempotencyKey

/-- The insertion of a message, or the constraint that refuses it. -/
def insertMessage (row : Message) (db : Database) : Except Failure Database := do
  require (.constraint "messages_pkey") (db.messages.all fun old => old.id ≠ row.id)
  require (.constraint "messages_roomId_fkey") (db.rooms.any fun room => room.id = row.roomId)
  require (.constraint "messages_senderUserId_fkey") (row.senderUserId.all db.hasUser)
  require (.constraint "messages_text_check") (row.text.length ≤ 90)
  require (.constraint "messages_idempotency_key_length_check")
    (row.idempotencyKey.all fun key => 1 ≤ key.length ∧ key.length ≤ 128)
  require (.constraint "messages_room_sender_idempotency_unique")
    (db.messages.all fun old => ¬ conflicts row old)
  return { db with messages := db.messages ++ [row] }

/-- `INSERT … ON CONFLICT DO NOTHING RETURNING …` of a message. -/
def insertOnConflictDoNothing (row : Message) (db : Database) : Except Failure (Option Message) :=
  if db.messages.any (conflicts row) then .ok none
  else (insertMessage row db).map fun _ => some row

/-- The sender's own message, while it is not deleted. -/
def isOwnMessage (messageId : RowId) (senderUserId : Uuid) (row : Message) : Bool :=
  row.id = messageId ∧ row.senderUserId = some senderUserId ∧ row.deletedAt = none

/-! ### Read receipts -/

instance : Preorder (Timestamp ×ₗ RowId) := (Prod.Lex.instLinearOrder ℤ ℕ).toPreorder

/-- The order of the messages of a room. -/
def position (row : Message) : Timestamp ×ₗ RowId := toLex (row.createdAt, row.id)

def newestMessage (roomId : RowId) (db : Database) : Option Message :=
  (db.messages.filter fun row => row.roomId = roomId ∧ row.deletedAt = none).argmax position

def receiptKey (receipt : ReadReceipt) : RowId × Uuid := (receipt.roomId, receipt.userId)

def findReceipt (roomId : RowId) (userId : Uuid) (db : Database) : Option ReadReceipt :=
  lookup receiptKey (roomId, userId) db.readReceipts

/-- The condition of `ON CONFLICT DO UPDATE`; a comparison with null is not true. -/
def advances (excluded old : ReadReceipt) : Bool :=
  old.readAt < excluded.readAt ∨ excluded.readAt = old.readAt ∧
    excluded.lastReadMessageId.any fun new => old.lastReadMessageId.any fun last => last < new

def readReceipt (userId : Uuid) (newest : Message) : ReadReceipt where
  roomId := newest.roomId
  userId := userId
  lastReadMessageId := some newest.id
  readAt := newest.createdAt

/-- `DO UPDATE SET …` where the condition holds. -/
def advance (excluded old : ReadReceipt) : ReadReceipt :=
  if advances excluded old then
    { old with lastReadMessageId := excluded.lastReadMessageId, readAt := excluded.readAt }
  else old

def upsertReceipt (receipt : ReadReceipt) (db : Database) : Database :=
  { db with readReceipts := upsert receiptKey receipt (advance receipt) db.readReceipts }

/-! ### The rooms of a user -/

/-- What the join with the receipt says of a message; a row comparison with null at the end is
true only if the times decide it. -/
def isUnread (receipt : Option ReadReceipt) (row : Message) : Bool :=
  match receipt with
  | none => true
  | some receipt => receipt.readAt < row.createdAt ∨
      receipt.readAt = row.createdAt ∧ receipt.lastReadMessageId.any fun last => last < row.id

/-- The messages that the join counts. -/
def unreadMessages (roomId : RowId) (userId : Uuid) (db : Database) : List Message :=
  db.messages.filter fun row => row.roomId = roomId ∧ row.senderUserId.any (· ≠ userId) ∧
    row.deletedAt = none ∧ isUnread (findReceipt roomId userId db) row

structure ChatRoom where
  id : RowId
  name : String
  lastMessage : Option String
  unreadCount : ℕ
deriving DecidableEq

/-- The user a match joins with the given one. -/
def otherUserId (row : Match) (userId : Uuid) : Uuid :=
  if row.userLowId = userId then row.userHighId else row.userLowId

def rooms (userId : Uuid) (db : Database) : List ChatRoom :=
  db.matchRows.filterMap fun row => do
    if row.userLowId ≠ userId ∧ row.userHighId ≠ userId then none else
    let room ← db.rooms.find? fun room => room.id = row.roomId
    let user ← db.users.find? fun user => user.userId = otherUserId row userId
    return { id := room.id
             name := user.userName
             lastMessage := (newestMessage room.id db).map (·.text)
             unreadCount := (unreadMessages room.id userId db).length }

/-! ### Insertions -/

variable {db db' : Database} {row old message : Message} {roomId : RowId} {userId : Uuid}
  {idempotencyKey : String}

theorem hasKey_iff : hasKey roomId userId idempotencyKey row ↔ row.roomId = roomId ∧
    row.senderUserId = some userId ∧ row.idempotencyKey = some idempotencyKey := by
  simp [hasKey]

/-- Two rows conflict when both have one key. -/
theorem conflicts_iff : conflicts row old ↔ ∃ roomId senderUserId idempotencyKey,
    hasKey roomId senderUserId idempotencyKey row ∧ hasKey roomId senderUserId idempotencyKey old := by
  simp only [conflicts, hasKey_iff, decide_eq_true_eq]
  constructor
  · intro ⟨hroom, hsender, hsame, hkey, hsame'⟩
    obtain ⟨senderUserId, hsender⟩ := Option.ne_none_iff_exists'.1 hsender
    obtain ⟨key, hkey⟩ := Option.ne_none_iff_exists'.1 hkey
    exact ⟨_, senderUserId, key, ⟨rfl, hsender, hkey⟩, hroom, hsame.trans hsender, hsame'.trans hkey⟩
  · intro ⟨roomId, senderUserId, key, ⟨hroom, hsender, hkey⟩, hroom', hsender', hkey'⟩
    rw [hroom, hsender, hkey, hroom', hsender', hkey']
    simp

/-- What an insertion that is not refused finds and leaves. -/
theorem insertMessage_ok (h : insertMessage row db = .ok db') :
    (∀ old ∈ db.messages, old.id ≠ row.id) ∧ (∀ old ∈ db.messages, ¬ conflicts row old) ∧
      db' = { db with messages := db.messages ++ [row] } := by
  simp only [insertMessage, bind_eq_ok_iff, require_eq_ok_iff, pure_eq_ok_iff, List.all_eq_true,
    decide_eq_true_eq] at h
  obtain ⟨-, hid, -, -, -, -, -, -, -, -, -, hkey, rfl⟩ := h
  exact ⟨hid, hkey, rfl⟩

theorem insertOnConflictDoNothing_some (h : insertOnConflictDoNothing row db = .ok (some message)) :
    message = row ∧ ∃ db', insertMessage row db = .ok db' := by
  unfold insertOnConflictDoNothing at h
  split at h
  · cases h
  · cases hinsert : insertMessage row db with
    | error failure =>
        rw [hinsert] at h
        cases h
    | ok db' =>
        rw [hinsert] at h
        exact ⟨(Option.some.inj (Except.ok.inj h)).symm, db', rfl⟩

/-! ### Receipts -/

theorem receiptKey_advance (excluded old : ReadReceipt) :
    receiptKey (advance excluded old) = receiptKey old := by
  unfold advance
  split <;> rfl

/-- What an upsert of a receipt makes of the receipt of a room and a user. -/
theorem findReceipt_upsertReceipt (receipt : ReadReceipt) (roomId : RowId) (userId : Uuid)
    (db : Database) : findReceipt roomId userId (upsertReceipt receipt db) =
      if receiptKey receipt = (roomId, userId) then
        some ((findReceipt roomId userId db).elim receipt (advance receipt))
      else findReceipt roomId userId db :=
  lookup_upsert (receiptKey_advance receipt)

/-- A message that is unread with the old receipt and with a new one stays unread. -/
theorem isUnread_upsertReceipt {receipt : ReadReceipt} {roomId : RowId} {userId : Uuid}
    (hnew : receiptKey receipt = (roomId, userId) → isUnread (some receipt) row)
    (hold : isUnread (findReceipt roomId userId db) row) :
    isUnread (findReceipt roomId userId (upsertReceipt receipt db)) row := by
  rw [findReceipt_upsertReceipt]
  split
  next hkey =>
    cases hfound : findReceipt roomId userId db with
    | none => exact hnew hkey
    | some old =>
        rw [hfound] at hold
        change isUnread (some (advance receipt old)) row
        unfold advance
        split
        · exact hnew hkey
        · exact hold
  next => exact hold

/-- A room of a user shows the number of its unread messages. -/
theorem unreadCount_of_mem_rooms {chatRoom : ChatRoom} (h : chatRoom ∈ rooms userId db) :
    chatRoom.unreadCount = (unreadMessages chatRoom.id userId db).length := by
  obtain ⟨row, -, hrow⟩ := List.mem_filterMap.1 h
  split at hrow
  · cases hrow
  · simp only [Option.bind_eq_bind, Option.bind_eq_some_iff, Option.pure_def,
      Option.some.injEq] at hrow
    obtain ⟨room, -, user, -, rfl⟩ := hrow
    rfl

end ChatTea.Chat
