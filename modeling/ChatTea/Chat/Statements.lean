import ChatTea.Auth.Service
import ChatTea.Billing.Webhook
import ChatTea.Chat.Repository
import ChatTea.Database.Isolation

/-!
# The chat, statement by statement

The embedding of `ChatService` and of the transactions of `ChatRepository`: sending, editing
and deleting a message, marking a room read, and the list of rooms. Each call runs next to
others, and what it has done is entered in the history.

## Main definitions

* `ChatLock`, `ChatEvent` — what is locked, and what is entered in the history
* `validateText`, `validateIdempotencyKey` — the checks on what is sent
* `createMessage`, `updateMessage`, `markAsRead` — the transactions
* `chatCode` — the calls; a failure is an answer
-/

namespace ChatTea.Chat

open Interleaving ReadCommitted RowLocks Table Transaction

/-- What a write waits for while another transaction has not ended. -/
inductive ChatLock where
  | messageKey (roomId : RowId) (senderUserId : Uuid) (idempotencyKey : String)
  | room (roomId : RowId)
  | message (id : RowId)
  | receipt (roomId : RowId) (userId : Uuid)
deriving DecidableEq

inductive ChatMessageEventType where
  | added
  | edited
  | deleted
deriving DecidableEq, Repr

inductive ChatEvent where
  /-- A send has started; the row of its key was deleted by then or not. -/
  | started (deleted : Bool)
  | rolledBack
  /-- The transaction of a `createMessage` has committed a new row. -/
  | created (message : Message)
  /-- What a `createMessage` has returned to its call. -/
  | reported (created : Bool) (message : Option Message)
  | published (type : ChatMessageEventType) (message : Message)
  | notified (userId : Uuid) (message : Message)
  /-- `markRoomRead` has seen the messages of the room. -/
  | looked (roomId : RowId) (userId : Uuid) (newest : Option Message)
  | markedRead (roomId : RowId) (userId : Uuid)
deriving DecidableEq

abbrev ChatState := Shared Database ChatLock ChatEvent

/-- `SendChatMessageInput`; an identifier is absent if its text does not match `UUID_PATTERN`. -/
structure SendMessageInput where
  roomId : Option RowId
  text : Text
  idempotencyKey : Option Text

inductive ChatRequest where
  | sendMessage (userId : Uuid) (input : SendMessageInput)
  | editMessage (userId : Uuid) (messageId : Option RowId) (text : Text)
  | deleteMessage (userId : Uuid) (messageId : Option RowId)
  | markRoomRead (userId : Uuid) (roomId : Option RowId)
  | rooms (userId : Uuid)

structure ChatMessagePayload where
  id : RowId
  roomId : RowId
  senderUserId : Option Uuid
  text : String
  idempotencyKey : Option String
  createdAt : Timestamp
deriving DecidableEq

def rowToMessage (row : Message) : ChatMessagePayload where
  id := row.id
  roomId := row.roomId
  senderUserId := row.senderUserId
  text := row.text
  idempotencyKey := row.idempotencyKey
  createdAt := row.createdAt

inductive ChatAnswer where
  | message (payload : ChatMessagePayload)
  | deleted (found : Bool)
  | markedRead
  | rooms (chatRooms : List ChatRoom)
  | failed (failure : Failure)

abbrev ChatProg (α : Type) := Prog ChatState ChatRequest Failure α

/-! ### Checks -/

/-- The `length` of a JavaScript string, in code units of UTF-16. -/
def utf16Length (text : Text) : ℕ := (text.map fun c => if c.toNat < 0x10000 then 1 else 2).sum

def alreadyUsed : Failure := .error "IDEMPOTENCY_KEY_ALREADY_USED"

def notRoomMember : Failure := .error "채팅방에 접근할 수 없습니다."

def validateText (input : Text) : Except Failure Text := do
  throwIf (.error "MESSAGE_TEXT_REQUIRED") (Auth.trim input = [])
  throwIf (.error "MESSAGE_TEXT_TOO_LONG") (90 < utf16Length (Auth.trim input))
  return Auth.trim input

def validateIdempotencyKey (input : Option Text) : Except Failure (Option String) :=
  match input with
  | none => return none
  | some input => do
      throwIf (.error "IDEMPOTENCY_KEY_INVALID") (Auth.trim input = [])
      throwIf (.error "IDEMPOTENCY_KEY_TOO_LONG") (128 < utf16Length (Auth.trim input))
      return some (String.ofList (Auth.trim input))

def validateUuid (input : Option RowId) (error : String) : Except Failure RowId :=
  match input with
  | some id => .ok id
  | none => .error (.error error)

/-! ### What is entered in the history -/

/-- An entry in the history. -/
def record (events : Database → List ChatEvent) : ChatProg Unit :=
  Prog.atomic fun pid w (_ : Unit) after => after = w.enter pid .keyShare [] (events w.committed)

/-- The row of a key is there, and deleted. -/
def isKeyDeleted (roomId : RowId) (senderUserId : Uuid) (idempotencyKey : String)
    (db : Database) : Bool :=
  db.messages.any fun row => hasKey roomId senderUserId idempotencyKey row ∧ row.deletedAt ≠ none

/-- The row that a send names is deleted when the call starts. -/
def startsDeleted (userId : Uuid) (input : SendMessageInput) (db : Database) : Bool :=
  match input.roomId, validateIdempotencyKey input.idempotencyKey with
  | some roomId, .ok (some key) => isKeyDeleted roomId userId key db
  | _, _ => false

/-- Without a listener or with many, one event is handed to the broker. -/
def publishMessageEvent (type : ChatMessageEventType) (message : Message) : ChatProg Unit :=
  record fun _ => [.published type message]

/-- `notify` for each recipient; a notification that fails stops none of the others. -/
def notifyAll (message : Message) : List Uuid → ChatProg Unit
  | [] => return ()
  | recipientId :: recipientIds => do
      record fun _ => [.notified recipientId message]
      notifyAll message recipientIds

/-! ### Transactions of the repository -/

def requireRoomMember (roomId : RowId) (userId : Uuid) : ChatProg Unit := do
  let isMember ← look unwritten (isRoomMember roomId userId)
  MonadExcept.ofExcept (require notRoomMember isMember)

/-- An insertion waits for another one of the same key that has not ended. -/
def keyRows (row : Message) (db : Database) : List ChatLock :=
  match row.senderUserId, row.idempotencyKey with
  | some senderUserId, some key =>
      if db.messages.any (conflicts row) then [] else [.messageKey row.roomId senderUserId key]
  | _, _ => []

structure CreateResult where
  message : Option Message
  created : Bool

/-- The message that holds the key of a send, if it has one. -/
def findExisting (roomId : RowId) (userId : Uuid) (idempotencyKey : Option String) :
    ChatProg (Option Message) :=
  match idempotencyKey with
  | some key => look unwritten (findMessageByIdempotencyKey key roomId userId)
  | none => return none

/-- `UPDATE rooms`; the time it writes is not modelled. -/
def touchRoom (pending : Pending Database Failure) (roomId : RowId) : ChatProg Unit :=
  evaluate pending .noKeyUpdate (fun _ => [.room roomId]) (fun _ => .ok ()) fun _ => []

/-- The insertion goes through, and its transaction goes on to its end. -/
def commitMessage (message : Message) : ChatProg CreateResult := do
  let pending : Pending Database Failure := insertMessage message
  touchRoom pending message.roomId
  commitWrites pending [.created message]
  return { message := some message, created := true }

/-- The insertion has done nothing, and the row in its way is read. -/
def replayMessage (roomId : RowId) (senderUserId : Uuid) (idempotencyKey : Option String) :
    ChatProg CreateResult := do
  let replayedMessage ← findExisting roomId senderUserId idempotencyKey
  commitWrites unwritten []
  return { message := replayedMessage, created := false }

/-- `createdAt` is the time when the transaction starts. -/
def createMessage (roomId : RowId) (senderUserId : Uuid) (text : Text)
    (idempotencyKey : Option String) : ChatProg CreateResult :=
  inTransaction [.rolledBack] do
    let createdAt ← Prog.anything Timestamp
    let id ← Prog.anything RowId
    let row : Message :=
      { id, roomId, senderUserId := some senderUserId, text := String.ofList text, idempotencyKey
        deletedAt := none, createdAt }
    match ← evaluate unwritten .update (keyRows row) (insertOnConflictDoNothing row) fun _ => [] with
    | some message => commitMessage message
    | none => replayMessage roomId senderUserId idempotencyKey

/-- The update of the sender's own message, while it is not deleted. -/
def updateMessage (messageId : RowId) (senderUserId : Uuid) (set : Message → Message) :
    ChatProg (Option Message) :=
  inTransaction [.rolledBack] do
    let own := isOwnMessage messageId senderUserId
    let message ← evaluate unwritten .noKeyUpdate
      (fun db => (db.messages.filter own).map fun row => .message row.id)
      (fun db => .ok ((db.messages.find? own).map set)) fun _ => []
    commitWrites (fun db => .ok { db with messages := updateWhere own set db.messages }) []
    return message

/-- `INSERT … SELECT … ON CONFLICT DO UPDATE`: the newest message is the one that the statement
sees when it starts, the old receipt the one that it finds under the lock. -/
def markAsRead (roomId : RowId) (userId : Uuid) : ChatProg Unit :=
  inTransaction [.rolledBack] do
    let newest ← evaluate unwritten .keyShare (fun _ => []) (fun db => .ok (newestMessage roomId db))
      fun newest => [.looked roomId userId newest]
    match newest with
    | none => commitWrites unwritten []
    | some message =>
        let pending ← writing unwritten .noKeyUpdate (fun _ => [.receipt roomId userId])
          fun db => .ok (upsertReceipt (readReceipt userId message) db)
        commitWrites pending [.markedRead roomId userId]

/-! ### Calls of the service -/

/-- The event and the notifications of a new message. -/
def tellOthers (roomId : RowId) (userId : Uuid) (message : Message) : ChatProg Unit := do
  publishMessageEvent .added message
  let recipientIds ← look unwritten (otherRoomMemberIds roomId userId)
  notifyAll message recipientIds

/-- What a send does with the outcome of `createMessage`. -/
def announce (roomId : RowId) (userId : Uuid) (result : CreateResult) :
    ChatProg ChatMessagePayload := do
  record fun _ => [.reported result.created result.message]
  match result.message with
  | none => throw (.error "MESSAGE_CREATE_FAILED")
  | some message =>
      MonadExcept.ofExcept (throwIf alreadyUsed (message.deletedAt ≠ none))
      (if result.created then tellOthers roomId userId message else return () : ChatProg Unit)
      return rowToMessage message

/-- A send that has found no message of its key. -/
def sendNew (roomId : RowId) (userId : Uuid) (text : Text) (idempotencyKey : Option String) :
    ChatProg ChatMessagePayload := do
  let count ← look unwritten (activeMessageCount roomId)
  MonadExcept.ofExcept (throwIf (.error "FIRST_MESSAGE_TEXT_TOO_LONG")
    (count = 0 ∧ 30 < utf16Length text))
  let result ← createMessage roomId userId text idempotencyKey
  announce roomId userId result

/-- A send that has passed its checks. -/
def lookUp (roomId : RowId) (userId : Uuid) (text : Text) (idempotencyKey : Option String) :
    ChatProg ChatMessagePayload := do
  match ← findExisting roomId userId idempotencyKey with
  | some existing =>
      MonadExcept.ofExcept (throwIf alreadyUsed (existing.deletedAt ≠ none))
      return rowToMessage existing
  | none => sendNew roomId userId text idempotencyKey

def sendMessage (userId : Uuid) (input : SendMessageInput) : ChatProg ChatMessagePayload := do
  record fun db => [.started (startsDeleted userId input db)]
  let text ← MonadExcept.ofExcept (validateText input.text)
  let roomId ← MonadExcept.ofExcept (validateUuid input.roomId "ROOM_ID_INVALID")
  requireRoomMember roomId userId
  let idempotencyKey ← MonadExcept.ofExcept (validateIdempotencyKey input.idempotencyKey)
  lookUp roomId userId text idempotencyKey

def editMessage (userId : Uuid) (messageId : Option RowId) (text : Text) :
    ChatProg ChatMessagePayload := do
  let messageId ← MonadExcept.ofExcept (validateUuid messageId "MESSAGE_ID_INVALID")
  let text ← MonadExcept.ofExcept (validateText text)
  match ← updateMessage messageId userId fun row => { row with text := String.ofList text } with
  | none => throw (.error "MESSAGE_NOT_FOUND")
  | some message =>
      inTransaction [.rolledBack] do
        touchRoom unwritten message.roomId
        commitWrites unwritten []
      publishMessageEvent .edited message
      return rowToMessage message

def deleteMessage (userId : Uuid) (messageId : Option RowId) : ChatProg Bool := do
  let messageId ← MonadExcept.ofExcept (validateUuid messageId "MESSAGE_ID_INVALID")
  let deletedAt ← Prog.anything Timestamp
  match ← updateMessage messageId userId fun row => { row with deletedAt := some deletedAt } with
  | none => return false
  | some message =>
      publishMessageEvent .deleted message
      return true

def markRoomRead (userId : Uuid) (roomId : Option RowId) : ChatProg Unit := do
  let roomId ← MonadExcept.ofExcept (validateUuid roomId "ROOM_ID_INVALID")
  requireRoomMember roomId userId
  markAsRead roomId userId

def listRooms (userId : Uuid) : ChatProg (List ChatRoom) := do
  MonadExcept.ofExcept (require (.error "USER_ID_INVALID") (Billing.isVersionedUuid userId.text))
  look unwritten (rooms userId)

/-- A call, with what it returns or why it fails as its answer. -/
def answering {α : Type} (call : ChatProg α) (answer : α → ChatAnswer) : ChatProg ChatAnswer :=
  tryCatch (do return answer (← call)) fun failure => return .failed failure

def chatCode : ChatRequest → ChatProg ChatAnswer
  | .sendMessage userId input => answering (sendMessage userId input) .message
  | .editMessage userId messageId text => answering (editMessage userId messageId text) .message
  | .deleteMessage userId messageId => answering (deleteMessage userId messageId) .deleted
  | .markRoomRead userId roomId => answering (markRoomRead userId roomId) fun _ => .markedRead
  | .rooms userId => answering (listRooms userId) .rooms

end ChatTea.Chat
