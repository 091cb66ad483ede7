import ChatTea.Chat.Unread
import Mathlib

/-!
# The algebra of read receipts

The boundary of a member is a point in the order of the messages: below all of them while
there is no receipt, and above every message of its time when the message it names is gone.
Counting compares with that point, and `markRoomRead` takes the greater of it and the newest
message.

## Main definitions

* `boundary`, `place` — receipts and messages in one linear order
* `readRoom`, `ChatOp` — the calls, one after the other

## Main results

* `isUnread_iff_boundary_lt`, `boundary_readRoom` — counting and advancing agree on the order
* `receipt_algebra` — counts and boundaries in every sequence of calls
* `performs_readRoom`, `performs_createMessage`, `performs_updateMessage` — the statements of
  a call that no one disturbs do what the call does here
-/

namespace ChatTea.Chat

open Table Transaction

variable {db db' start : Database} {roomId : RowId} {userId : Uuid} {row newest : Message}
  {receipt old : ReadReceipt}

/-! ### Receipts and messages in one order -/

/-- A point between messages: nothing, or a time and an identifier that may be missing. -/
abbrev Boundary := WithBot (Timestamp ×ₗ WithTop RowId)

/-- A missing identifier stands above all identifiers of its time. -/
def idPlace : Option RowId → WithTop RowId
  | none => ⊤
  | some id => WithTop.some id

def point (time : Timestamp) (id : WithTop RowId) : Timestamp ×ₗ WithTop RowId := toLex (time, id)

def boundaryOf (receipt : ReadReceipt) : Boundary :=
  point receipt.readAt (idPlace receipt.lastReadMessageId)

def boundary (roomId : RowId) (userId : Uuid) (db : Database) : Boundary :=
  match findReceipt roomId userId db with
  | none => ⊥
  | some receipt => boundaryOf receipt

def place (row : Message) : Boundary := point row.createdAt (idPlace (some row.id))

theorem coe_point_lt {time time' : Timestamp} {id id' : WithTop RowId} :
    (point time id : Boundary) < point time' id' ↔ time < time' ∨ time = time' ∧ id < id' := by
  rw [WithBot.coe_lt_coe]
  exact Prod.Lex.toLex_lt_toLex

theorem place_lt_place {row row' : Message} : place row < place row' ↔ position row < position row' := by
  unfold place position idPlace
  rw [coe_point_lt, Prod.Lex.toLex_lt_toLex, WithTop.coe_lt_coe]

theorem place_le_place {row row' : Message} : place row ≤ place row' ↔ position row ≤ position row' := by
  rw [← not_lt, ← not_lt, place_lt_place]

theorem boundaryOf_lt_place : boundaryOf receipt < place row ↔ IsBelow receipt row := by
  unfold boundaryOf place IsBelow
  rw [coe_point_lt]
  cases receipt.lastReadMessageId with
  | none => simp [idPlace]
  | some last => simp [idPlace]

/-- The join of `rooms` counts what is above the boundary. -/
theorem isUnread_iff_boundary_lt :
    isUnread (findReceipt roomId userId db) row ↔ boundary roomId userId db < place row := by
  unfold boundary
  cases findReceipt roomId userId db with
  | none => exact ⟨fun _ => WithBot.bot_lt_coe _, fun _ => rfl⟩
  | some receipt => exact isUnread_iff.trans boundaryOf_lt_place.symm

/-- `ON CONFLICT DO UPDATE` goes ahead when the new boundary is above the old one. -/
theorem advances_readReceipt :
    advances (readReceipt userId newest) old ↔ boundaryOf old < place newest := by
  rw [boundaryOf_lt_place]
  cases hlast : old.lastReadMessageId with
  | none => simp [advances, IsBelow, readReceipt, hlast]
  | some last =>
      simp only [advances, IsBelow, readReceipt, hlast, Option.any_some, decide_eq_true_eq,
        Option.some.injEq, exists_eq_left']
      rw [@eq_comm _ newest.createdAt]

/-! ### Reading a room -/

/-- `markRoomRead` when all messages are visible. -/
def readRoom (roomId : RowId) (userId : Uuid) (db : Database) : Database :=
  match newestMessage roomId db with
  | none => db
  | some newest => upsertReceipt (readReceipt userId newest) db

/-- Advancing keeps the greater of two boundaries. -/
theorem boundaryOf_advance :
    boundaryOf (advance (readReceipt userId newest) old) = max (boundaryOf old) (place newest) := by
  unfold advance
  split
  next hadvances =>
    rw [max_eq_right (advances_readReceipt.1 hadvances).le]
    rfl
  next hstays =>
    rw [max_eq_left (not_lt.1 fun hlt => hstays (advances_readReceipt.2 hlt))]

/-- A new receipt moves the boundary of its room and user, and no other. -/
theorem boundary_upsertReceipt (roomId : RowId) (userId reader : Uuid) (db : Database) :
    boundary roomId userId (upsertReceipt (readReceipt reader newest) db) =
      if newest.roomId = roomId ∧ reader = userId then max (boundary roomId userId db) (place newest)
      else boundary roomId userId db := by
  have hkey : receiptKey (readReceipt reader newest) = (roomId, userId) ↔
      newest.roomId = roomId ∧ reader = userId := by
    simp [receiptKey, readReceipt]
  unfold boundary
  rw [findReceipt_upsertReceipt]
  by_cases hmatch : newest.roomId = roomId ∧ reader = userId
  · rw [if_pos (hkey.2 hmatch), if_pos hmatch]
    cases findReceipt roomId userId db with
    | none => exact (max_eq_right (bot_le : (⊥ : Boundary) ≤ place newest)).symm
    | some old => exact boundaryOf_advance
  · rw [if_neg fun h => hmatch (hkey.1 h), if_neg hmatch]

theorem newestMessage_spec (h : newestMessage roomId db = some newest) :
    newest ∈ db.messages ∧ newest.roomId = roomId ∧ newest.deletedAt = none := by
  have hmem := List.mem_filter.1 (List.argmax_mem (Option.mem_def.2 h))
  have hcond := of_decide_eq_true hmem.2
  exact ⟨hmem.1, hcond.1, hcond.2⟩

/-- No message of a room is above the newest one. -/
theorem place_le_newest (h : newestMessage roomId db = some newest) (hrow : row ∈ db.messages)
    (hroom : row.roomId = roomId) (hdeleted : row.deletedAt = none) : place row ≤ place newest := by
  apply place_le_place.2
  apply List.le_of_mem_argmax ?_ (Option.mem_def.2 h)
  exact List.mem_filter.2 ⟨hrow, decide_eq_true ⟨hroom, hdeleted⟩⟩

theorem newestMessage_eq_none (h : newestMessage roomId db = none) (hrow : row ∈ db.messages)
    (hroom : row.roomId = roomId) : row.deletedAt ≠ none := by
  intro hdeleted
  have hnone := List.argmax_eq_none.1 h
  have hmem : row ∈ db.messages.filter fun row => row.roomId = roomId ∧ row.deletedAt = none :=
    List.mem_filter.2 ⟨hrow, decide_eq_true ⟨hroom, hdeleted⟩⟩
  rw [hnone] at hmem
  cases hmem

/-- The boundaries of the others stay, and that of the reader does not fall. -/
theorem boundary_readRoom_le (reader : Uuid) (readerRoom : RowId) :
    boundary roomId userId db ≤ boundary roomId userId (readRoom readerRoom reader db) := by
  unfold readRoom
  split
  · exact le_refl _
  · rw [boundary_upsertReceipt]
    split
    · exact le_max_left _ _
    · exact le_refl _

/-- Everything in the room that is not deleted is below the boundary of its reader. -/
theorem place_le_boundary_readRoom (hrow : row ∈ db.messages) (hroom : row.roomId = roomId)
    (hdeleted : row.deletedAt = none) : place row ≤ boundary roomId userId (readRoom roomId userId db) := by
  cases hnewest : newestMessage roomId db with
  | none => exact absurd hdeleted (newestMessage_eq_none hnewest hrow hroom)
  | some newest =>
      rw [readRoom, hnewest]
      change _ ≤ boundary roomId userId (upsertReceipt (readReceipt userId newest) db)
      rw [boundary_upsertReceipt, if_pos ⟨(newestMessage_spec hnewest).2.1, rfl⟩]
      exact (place_le_newest hnewest hrow hroom hdeleted).trans (le_max_right _ _)

theorem readRoom_messages (roomId : RowId) (userId : Uuid) (db : Database) :
    (readRoom roomId userId db).messages = db.messages := by
  unfold readRoom
  split <;> rfl

/-- Right after reading the room nothing in it is unread. -/
theorem unreadMessages_readRoom (roomId : RowId) (userId : Uuid) (db : Database) :
    unreadMessages roomId userId (readRoom roomId userId db) = [] := by
  apply List.filter_eq_nil_iff.2
  intro row hrow hcond
  obtain ⟨hroom, -, hdeleted, hunread⟩ := of_decide_eq_true hcond
  rw [readRoom_messages] at hrow
  have hbelow : place row ≤ boundary roomId userId (readRoom roomId userId db) :=
    place_le_boundary_readRoom hrow hroom hdeleted
  exact absurd (isUnread_iff_boundary_lt.1 hunread) (not_lt.2 hbelow)

theorem advance_advance (excluded old : ReadReceipt) :
    advance excluded (advance excluded old) = advance excluded old := by
  have hself (receipt : ReadReceipt) (hat : receipt.readAt = excluded.readAt)
      (hid : receipt.lastReadMessageId = excluded.lastReadMessageId) :
      advances excluded receipt = false := by
    cases hlast : excluded.lastReadMessageId <;> simp [advances, hat, hid, hlast]
  by_cases hadvances : advances excluded old
  · unfold advance
    rw [if_pos hadvances, if_neg]
    simp [hself]
  · unfold advance
    rw [if_neg hadvances, if_neg hadvances]

theorem readRoom_of_newest (h : newestMessage roomId db = some newest) :
    readRoom roomId userId db = upsertReceipt (readReceipt userId newest) db := by
  rw [readRoom, h]

theorem readRoom_of_none (h : newestMessage roomId db = none) : readRoom roomId userId db = db := by
  rw [readRoom, h]

/-- Reading a room twice is reading it once. -/
theorem readRoom_readRoom (roomId : RowId) (userId : Uuid) (db : Database) :
    readRoom roomId userId (readRoom roomId userId db) = readRoom roomId userId db := by
  cases hnewest : newestMessage roomId db with
  | none => rw [readRoom_of_none hnewest, readRoom_of_none hnewest]
  | some newest =>
      have hagain : newestMessage roomId (upsertReceipt (readReceipt userId newest) db) =
          some newest := hnewest
      rw [readRoom_of_newest hnewest, readRoom_of_newest hagain]
      have hstays : ¬ advances (readReceipt userId newest) (readReceipt userId newest) := by
        rw [advances_readReceipt]
        exact lt_irrefl _
      have hnew : advance (readReceipt userId newest) (readReceipt userId newest) =
          readReceipt userId newest := by
        rw [advance, if_neg hstays]
      unfold upsertReceipt
      rw [upsert_upsert_self (receiptKey_advance _) (advance_advance _) hnew]

/-! ### Sequences of calls -/

/-- A call that changes messages or receipts. -/
inductive ChatOp where
  | markRoomRead (userId : Uuid) (roomId : RowId)
  | sendMessage (row : Message)
  | editMessage (messageId : RowId) (senderUserId : Uuid) (text : String)
  | deleteMessage (messageId : RowId) (senderUserId : Uuid) (deletedAt : Timestamp)

/-- The update of a sender's own message. -/
def updateOwn (messageId : RowId) (senderUserId : Uuid) (set : Message → Message)
    (db : Database) : Database :=
  { db with messages := updateWhere (isOwnMessage messageId senderUserId) set db.messages }

def perform (db : Database) : ChatOp → Database
  | .markRoomRead userId roomId =>
      if isRoomMember roomId userId db then readRoom roomId userId db else db
  | .sendMessage row =>
      match insertMessage row db with
      | .ok inserted => inserted
      | .error _ => db
  | .editMessage messageId senderUserId text =>
      updateOwn messageId senderUserId (fun row => { row with text }) db
  | .deleteMessage messageId senderUserId deletedAt =>
      updateOwn messageId senderUserId (fun row => { row with deletedAt := some deletedAt }) db

def run (ops : List ChatOp) (db : Database) : Database := ops.foldl perform db

/-- No call moves a boundary back. -/
theorem boundary_le_perform (op : ChatOp) :
    boundary roomId userId db ≤ boundary roomId userId (perform db op) := by
  cases op with
  | markRoomRead reader readerRoom =>
      by_cases hmember : isRoomMember readerRoom reader db
      · simp only [perform, hmember, if_true]
        exact boundary_readRoom_le reader readerRoom
      · simp only [perform, hmember]
        exact le_refl _
  | sendMessage row =>
      cases hinsert : insertMessage row db with
      | error failure =>
          simp only [perform, hinsert]
          exact le_refl _
      | ok inserted =>
          obtain ⟨-, -, rfl⟩ := insertMessage_ok hinsert
          simp only [perform, hinsert]
          exact le_refl _
  | editMessage messageId senderUserId text => exact le_refl _
  | deleteMessage messageId senderUserId deletedAt => exact le_refl _

theorem boundary_le_run (ops : List ChatOp) (start : Database) :
    boundary roomId userId start ≤ boundary roomId userId (run ops start) := by
  induction ops generalizing start with
  | nil => exact le_refl _
  | cons op ops ih => exact (boundary_le_perform op).trans (ih (perform start op))

/-- A message that is after what a receipt says, in the words of its columns. -/
def isAfter (receipt : Option ReadReceipt) (row : Message) : Bool :=
  match receipt with
  | none => true
  | some receipt =>
      match receipt.lastReadMessageId with
      | none => receipt.readAt < row.createdAt
      | some last => toLex (receipt.readAt, last) < position row

theorem isUnread_eq_isAfter (receipt : Option ReadReceipt) (row : Message) :
    isUnread receipt row = isAfter receipt row := by
  cases receipt with
  | none => rfl
  | some receipt =>
      cases hlast : receipt.lastReadMessageId with
      | none => simp [isUnread, isAfter, hlast]
      | some last => simp [isUnread, isAfter, hlast, position, Prod.Lex.toLex_lt_toLex]

/-- What holds of receipts and counts after a sequence of calls. -/
structure ReceiptAlgebra (start db : Database) : Prop where
  /-- A room shows the number of the other's messages after the boundary. -/
  counts : ∀ userId, ∀ chatRoom ∈ rooms userId db, chatRoom.unreadCount =
    (db.messages.filter fun row => row.roomId = chatRoom.id ∧ row.senderUserId.any (· ≠ userId) ∧
      row.deletedAt = none ∧ isAfter (findReceipt chatRoom.id userId db) row).length
  /-- Right after the room is read it shows none. -/
  cleared : ∀ userId roomId, ∀ chatRoom ∈ rooms userId (readRoom roomId userId db),
    chatRoom.id = roomId → chatRoom.unreadCount = 0
  idempotent : ∀ userId roomId,
    readRoom roomId userId (readRoom roomId userId db) = readRoom roomId userId db
  forward : ∀ userId roomId, boundary roomId userId start ≤ boundary roomId userId db
  /-- A message that was read is not unread again, edited or deleted since or not. -/
  stays : ∀ userId roomId, ∀ row ∈ start.messages, ¬ isAfter (findReceipt roomId userId start) row →
    ∀ row' ∈ db.messages, SameMessage row row' → ¬ isAfter (findReceipt roomId userId db) row'

/-- **The algebra of read receipts**, from any messages and receipts on. -/
theorem receipt_algebra (ops : List ChatOp) (start : Database) :
    ReceiptAlgebra start (run ops start) where
  counts userId chatRoom hroom := by
    rw [unreadCount_of_mem_rooms hroom]
    unfold unreadMessages
    simp only [isUnread_eq_isAfter]
  cleared userId roomId chatRoom hroom hid := by
    rw [unreadCount_of_mem_rooms hroom, hid, unreadMessages_readRoom]
    rfl
  idempotent userId roomId := readRoom_readRoom roomId userId _
  forward userId roomId := boundary_le_run ops start
  stays userId roomId row _ hread row' _ hsame := by
    rw [← isUnread_eq_isAfter, isUnread_iff_boundary_lt, not_lt] at hread ⊢
    have hplace : place row' = place row := by
      unfold place
      rw [hsame.id, hsame.createdAt]
    rw [hplace]
    exact hread.trans (boundary_le_run ops start)

/-! ### Calls that no one disturbs -/

open Interleaving ReadCommitted RowLocks

variable {pid : ℕ} {w : ChatState} {senderUserId : Uuid} {text : Text}

/-- The locks of a state are those of one thread. -/
def OnlyOf (pid : ℕ) (w : ChatState) : Prop := ∀ lock ∈ w.locks, lock.holder = pid

theorem performs_readRoom (hlocks : OnlyOf pid w) (hmember : isRoomMember roomId userId w.committed) :
    ∃ w', Performs pid (markRoomRead userId (some roomId)) w () w' ∧
      w'.committed = perform w.committed (.markRoomRead userId roomId) := by
  have hperform : perform w.committed (.markRoomRead userId roomId) =
      readRoom roomId userId w.committed := if_pos hmember
  rw [hperform]
  cases hnewest : newestMessage roomId w.committed with
  | some newest =>
      rw [readRoom_of_newest hnewest]
      exact ⟨_, performs_markRoomRead hlocks hmember hnewest, rfl⟩
  | none =>
      rw [readRoom_of_none hnewest]
      let looked : ChatState := w.enter pid .keyShare [] [.looked roomId userId none]
      have hroom : validateUuid (some roomId) "ROOM_ID_INVALID" = .ok roomId := rfl
      have hlook : Performs pid (evaluate unwritten .keyShare (fun _ => [])
          (fun db => .ok (newestMessage roomId db)) (fun newest => [.looked roomId userId newest]) :
            ChatProg _) w none looked := by
        apply performs_evaluate fun _ hrow => absurd hrow List.not_mem_nil
        rw [← hnewest]
        rfl
      refine ⟨looked.finish pid w.committed [], ?_, rfl⟩
      apply (performs_check hroom).bind
      apply (performs_requireRoomMember hmember).bind
      exact performs_inTransaction (hlook.bind (performs_commitWrites rfl))

/-- The row that `createMessage` inserts. -/
theorem performs_createMessage (hlocks : OnlyOf pid w)
    (hrow : row.senderUserId = some senderUserId ∧ row.text = String.ofList text ∧
      row.deletedAt = none) (hinsert : insertMessage row w.committed = .ok db) :
    ∃ w', Performs pid (createMessage row.roomId senderUserId text row.idempotencyKey) w
      ⟨some row, true⟩ w' ∧ w'.committed = perform w.committed (.sendMessage row) := by
  have hperform : perform w.committed (.sendMessage row) = db := by
    simp only [perform, hinsert]
  have hread : insertOnConflictDoNothing row w.committed = .ok (some row) := by
    have hnone : ¬ w.committed.messages.any (conflicts row) := by
      intro hany
      obtain ⟨old, hold, hconflicts⟩ := List.any_eq_true.1 hany
      exact (insertMessage_ok hinsert).2.1 old hold hconflicts
    rw [insertOnConflictDoNothing, if_neg hnone, hinsert]
    rfl
  let locked : ChatState := w.enter pid .update (keyRows row w.committed) []
  have hinserted : Performs pid (evaluate unwritten .update (keyRows row)
      (insertOnConflictDoNothing row) (fun _ => []) : ChatProg _) w (some row) locked :=
    performs_evaluate (fun _ _ => free_of_alone hlocks) hread
  have hcommit : Performs pid (inTransaction [.rolledBack] (commitMessage row)) locked
      ⟨some row, true⟩ ⟨db, [], (pid, .created row) :: locked.log⟩ :=
    performs_commitMessage (acquire_of_alone hlocks) hinsert
  have hsame : row = ⟨row.id, row.roomId, some senderUserId, String.ofList text, row.idempotencyKey,
      none, row.createdAt⟩ := by
    rw [← hrow.1, ← hrow.2.1, ← hrow.2.2]
  refine ⟨⟨db, [], (pid, .created row) :: locked.log⟩, ?_, hperform.symm⟩
  have hbody : Runs anyStep pid (createMessage row.roomId senderUserId text row.idempotencyKey) w
      (inTransaction [.rolledBack] (commitMessage row)) locked := by
    apply Runs.tryCatch
    apply (performs_anything row.createdAt).follow
    apply (performs_anything row.id).follow
    rw [← hsame]
    exact hinserted.follow .refl
  exact hbody.trans hcommit

/-- An edit or a deletion of the sender's own message. -/
theorem performs_updateMessage (hlocks : OnlyOf pid w) (messageId : RowId) (senderUserId : Uuid)
    (set : Message → Message) :
    ∃ found w', Performs pid (updateMessage messageId senderUserId set) w found w' ∧
      w'.committed = updateOwn messageId senderUserId set w.committed := by
  let own := isOwnMessage messageId senderUserId
  let rows : List ChatLock := (w.committed.messages.filter own).map fun row => .message row.id
  let locked : ChatState := w.enter pid .noKeyUpdate rows []
  let updated : Database := updateOwn messageId senderUserId set w.committed
  have hfound : Performs pid (evaluate unwritten .noKeyUpdate
      (fun db => (db.messages.filter own).map fun row => ChatLock.message row.id)
      (fun db => .ok ((db.messages.find? own).map set)) (fun _ => []) : ChatProg _) w
      ((w.committed.messages.find? own).map set) locked :=
    performs_evaluate (fun _ _ => free_of_alone hlocks) rfl
  have hcommit : Performs pid (commitWrites (fun db => .ok { db with
      messages := updateWhere own set db.messages }) [] : ChatProg _) locked ()
      (locked.finish pid updated []) := performs_commitWrites rfl
  exact ⟨_, _, performs_inTransaction (hfound.bind (hcommit.bind (performs_pure _))), rfl⟩

end ChatTea.Chat
