import ChatTea.Chat.Unread
import ChatTea.Lib.Select

/-!
# The list of rooms

The rooms of a user are one query: the matches of the user, each with its room, the other user, the
last message, the receipt and the unread messages beside it, in groups that are counted. What it
selects is `rooms` in the order of the last change, although the database knows of a room only
through joins and leaves out what a comparison with a null does not decide.

## Main definitions

* `RoomRow` — a row of the joins
* `selectRooms` — the query
* `RoomKeys` — the keys of the tables

## Main results

* `selected_onUnread` — the condition of the last join is `isUnread`
* `selectRooms_eq` — the query selects `rooms`, in order
* `rooms_listed` — what it selects, row by row
-/

namespace ChatTea.Chat

open OrderDual Paging Select Table ThreeValued

variable {db : Database} {userId : Uuid} {updatedAt : RowId → Timestamp}

/-! ### The query -/

/-- A match with its room, the other user, the last text, the receipt and an unread message. -/
abbrev RoomRow :=
  ((((Match × Room) × User) × Option String) × Option ReadReceipt) × Option Message

namespace RoomRow

def room (row : RoomRow) : Room := row.1.1.1.1.2

def user (row : RoomRow) : User := row.1.1.1.2

def latest (row : RoomRow) : Option String := row.1.1.2

def unread (row : RoomRow) : Option Message := row.2

def matchRow (row : RoomRow) : Match := row.1.1.1.1.1

end RoomRow

/-- The last message of a room: the lateral subquery. -/
def latestTexts (roomId : RowId) (db : Database) : List String :=
  let active := selectWhere (fun row : Message =>
    conj (eq (some row.roomId) (some roomId)) (isNull row.deletedAt)) db.messages
  ((ascending (fun row => toDual (position row)) active).take 1).map (·.text)

def onReceipt (roomId : RowId) (userId : Uuid) (receipt : ReadReceipt) : Truth :=
  conj (eq (some receipt.roomId) (some roomId)) (eq (some receipt.userId) (some userId))

/-- A message that the receipt does not cover; without a receipt its columns are null. -/
def onUnread (roomId : RowId) (userId : Uuid) (receipt : Option ReadReceipt) (unread : Message) :
    Truth :=
  conj (eq (some unread.roomId) (some roomId)) <|
  conj (ne unread.senderUserId (some userId)) <|
  conj (isNull unread.deletedAt) <|
  disj (isNull (receipt.map (·.userId))) <|
  disj (conj (isNull (receipt.bind (·.lastReadMessageId)))
    (greater (some unread.createdAt) (receipt.map (·.readAt)))) <|
  rowGreater (some unread.createdAt) (receipt.map (·.readAt)) (some unread.id)
    (receipt.bind (·.lastReadMessageId))

/-- The matches with what is joined to them. -/
def joinedRooms (userId : Uuid) (db : Database) : List RoomRow :=
  let inRooms := innerJoin db.rooms
    (fun row room => eq (some room.id) (some row.roomId)) db.matchRows
  let withUsers := innerJoin db.users
    (fun row user => eq (some user.userId) (some (otherUserId row.1 userId))) inRooms
  let withLatest := leftJoinLateral (fun row => latestTexts row.1.2.id db)
    (fun _ _ => some true) withUsers
  let withReceipts := leftJoin db.readReceipts
    (fun row => onReceipt row.1.1.2.id userId) withLatest
  leftJoin db.messages (fun row => onUnread row.1.1.1.2.id userId row.2) withReceipts

/-- `GROUP BY` the id of the room, the name and the text. -/
def roomGroup (row : RoomRow) : RowId × String × Option String :=
  (row.room.id, row.user.userName, row.latest)

/-- What is selected of a group, without the time of the last change. -/
def selectedRoom (row : RoomRow) (group : List RoomRow) : ChatRoom where
  id := row.room.id
  name := row.user.userName
  lastMessage := row.latest
  unreadCount := count (fun row : RoomRow => row.unread.map (·.id)) group

/-- `ORDER BY updatedAt DESC, id DESC`; the time of the last change is a column of the room. -/
def lastChangedFirst (updatedAt : RowId → Timestamp) (room : ChatRoom) : (Timestamp ×ₗ RowId)ᵒᵈ :=
  toDual (toLex (updatedAt room.id, room.id))

def selectRooms (updatedAt : RowId → Timestamp) (userId : Uuid) (db : Database) : List ChatRoom :=
  let own := selectWhere (fun row : RoomRow => disj (eq (some row.matchRow.userLowId) (some userId))
    (eq (some row.matchRow.userHighId) (some userId))) (joinedRooms userId db)
  ascending (lastChangedFirst updatedAt) (groupBy roomGroup selectedRoom own)

/-- The keys of the tables. -/
structure RoomKeys (db : Database) : Prop where
  rooms : UniqueKey Room.id db.rooms
  users : UniqueKey User.userId db.users
  /-- `matches.roomId` is unique. -/
  matchRooms : UniqueKey Match.roomId db.matchRows
  messages : UniqueKey Message.id db.messages
  receipts : UniqueKey receiptKey db.readReceipts

/-! ### What is joined -/

theorem newestMessage_text (hids : UniqueKey Message.id db.messages) (roomId : RowId) :
    latestTexts roomId db = ((newestMessage roomId db).map (·.text)).toList := by
  have hactive : selectWhere (fun row : Message =>
      conj (eq (some row.roomId) (some roomId)) (isNull row.deletedAt)) db.messages =
        db.messages.filter fun row => row.roomId = roomId ∧ row.deletedAt = none := by
    apply List.filter_congr
    intro row _
    apply decide_eq_decide.2
    rw [selected_conj, selected_eq_some, Option.some_inj, selected_isNull]
  have hpositions : ((db.messages.filter fun row =>
      row.roomId = roomId ∧ row.deletedAt = none).map position).Nodup := by
    have hrows : ((db.messages.filter fun row =>
        row.roomId = roomId ∧ row.deletedAt = none).map (·.id)).Nodup := nodup_filter hids
    apply List.Nodup.of_map fun key : Timestamp ×ₗ RowId => (ofLex key).2
    rwa [List.map_map]
  have hhead := head?_ascending_toDual hpositions
  rw [latestTexts, hactive]
  unfold newestMessage
  rw [← hhead, List.take_one]
  cases (ascending (fun row => toDual (position row)) (db.messages.filter fun row =>
    row.roomId = roomId ∧ row.deletedAt = none)).head? <;> rfl

theorem selected_onReceipt {roomId : RowId} {receipt : ReadReceipt} :
    Selected (onReceipt roomId userId receipt) ↔ receiptKey receipt = (roomId, userId) := by
  rw [onReceipt, selected_conj, selected_eq_some, selected_eq_some, Option.some_inj, Option.some_inj,
    receiptKey, Prod.mk.injEq]

/-- The condition of the last join is true of the unread messages. -/
theorem selected_onUnread {roomId : RowId} {receipt : Option ReadReceipt} {message : Message} :
    Selected (onUnread roomId userId receipt message) ↔ message.roomId = roomId ∧
      message.senderUserId.any (· ≠ userId) ∧ message.deletedAt = none ∧
        isUnread receipt message := by
  have hsender : Selected (ne message.senderUserId (some userId)) ↔
      message.senderUserId.any (· ≠ userId) := by
    rw [selected_ne_some]
    cases message.senderUserId <;> simp
  have hcovered : Selected (disj (isNull (receipt.map (·.userId))) <|
      disj (conj (isNull (receipt.bind (·.lastReadMessageId)))
        (greater (some message.createdAt) (receipt.map (·.readAt)))) <|
      rowGreater (some message.createdAt) (receipt.map (·.readAt)) (some message.id)
        (receipt.bind (·.lastReadMessageId))) ↔ isUnread receipt message := by
    rw [selected_disj, selected_disj, selected_conj, selected_isNull, selected_isNull]
    cases receipt with
    | none => simp [isUnread]
    | some receipt =>
        simp only [Option.map_some, Option.bind_some, selected_greater, selected_rowGreater, isUnread]
        cases receipt.lastReadMessageId with
        | none => simp [selected_greater_none]
        | some last => simp [selected_greater]
  rw [onUnread, selected_conj, selected_conj, selected_conj, selected_eq_some, Option.some_inj,
    hsender, selected_isNull, hcovered]

/-! ### One row for each room -/

/-- What is joined to a match, before its messages. -/
def joinedRoom (userId : Uuid) (db : Database) (row : Match) :
    Option ((((Match × Room) × User) × Option String) × Option ReadReceipt) := do
  let room ← lookup (·.id) row.roomId db.rooms
  let user ← lookup (·.userId) (otherUserId row userId) db.users
  return ((((row, room), user), (newestMessage room.id db).map (·.text)),
    findReceipt room.id userId db)

/-- The rows of a room in the joins. -/
def roomRows (userId : Uuid) (db : Database)
    (parent : (((Match × Room) × User) × Option String) × Option ReadReceipt) : List RoomRow :=
  (orNull (selectWhere (onUnread parent.1.1.1.2.id userId parent.2) db.messages)).map (parent, ·)

theorem joinedRooms_eq (hkeys : RoomKeys db) : joinedRooms userId db =
    (db.matchRows.filterMap (joinedRoom userId db)).flatMap (roomRows userId db) := by
  have hrooms : innerJoin db.rooms (fun row room => eq (some room.id) (some row.roomId))
      db.matchRows = db.matchRows.filterMap fun row =>
        (lookup (·.id) row.roomId db.rooms).map (row, ·) := by
    apply innerJoin_unique hkeys.rooms
    intro row room _
    rw [selected_eq_some, Option.some_inj]
  have husers (rows : List (Match × Room)) : innerJoin db.users
      (fun row user => eq (some user.userId) (some (otherUserId row.1 userId))) rows =
        rows.filterMap fun row =>
          (lookup (·.userId) (otherUserId row.1 userId) db.users).map (row, ·) := by
    apply innerJoin_unique hkeys.users
    intro row user _
    rw [selected_eq_some, Option.some_inj]
  have hlatest : (fun row : (Match × Room) × User => latestTexts row.1.2.id db) =
      fun row => ((newestMessage row.1.2.id db).map (·.text)).toList := by
    funext row
    exact newestMessage_text hkeys.messages row.1.2.id
  have hreceipts (rows : List (((Match × Room) × User) × Option String)) :
      leftJoin db.readReceipts (fun row => onReceipt row.1.1.2.id userId) rows =
        rows.map fun row => (row, findReceipt row.1.1.2.id userId db) :=
    leftJoin_unique hkeys.receipts fun row receipt _ => selected_onReceipt
  simp only [joinedRooms, hrooms, husers, hlatest, leftJoinLateral_one, hreceipts,
    List.map_filterMap, List.filterMap_filterMap]
  rw [leftJoin, leftJoinLateral]
  congr 2
  funext row
  unfold joinedRoom
  cases lookup (·.id) row.roomId db.rooms with
  | none => rfl
  | some room =>
      change _ = (lookup (·.userId) (otherUserId row userId) db.users).bind fun user => some _
      rw [Option.map_some, Option.bind_some]
      cases lookup (·.userId) (otherUserId row userId) db.users <;> rfl

/-- What is selected of the rows of a room. -/
def shownRoom (userId : Uuid) (db : Database)
    (parent : (((Match × Room) × User) × Option String) × Option ReadReceipt) : ChatRoom where
  id := parent.1.1.1.2.id
  name := parent.1.1.2.userName
  lastMessage := parent.1.2
  unreadCount := (selectWhere (onUnread parent.1.1.1.2.id userId parent.2) db.messages).length

/-- The rooms of the matches are those of `rooms`. -/
theorem shownRooms_eq : ((db.matchRows.filterMap (joinedRoom userId db)).filter fun parent =>
      parent.1.1.1.1.userLowId = userId ∨ parent.1.1.1.1.userHighId = userId).map
        (shownRoom userId db) = rooms userId db := by
  have hunread (roomId : RowId) :
      selectWhere (onUnread roomId userId (findReceipt roomId userId db)) db.messages =
        unreadMessages roomId userId db := by
    apply List.filter_congr
    intro message _
    exact decide_eq_decide.2 selected_onUnread
  rw [List.filter_filterMap, List.map_filterMap]
  apply List.filterMap_congr
  intro row _
  unfold joinedRoom lookup
  by_cases hown : row.userLowId = userId ∨ row.userHighId = userId
  · have hnot : ¬ (row.userLowId ≠ userId ∧ row.userHighId ≠ userId) := by tauto
    rw [if_neg hnot]
    cases db.rooms.find? fun room => room.id = row.roomId with
    | none => rfl
    | some room =>
        cases db.users.find? fun user => user.userId = otherUserId row userId with
        | none => rfl
        | some user => simp [hown, shownRoom, hunread]
  · have hnot : row.userLowId ≠ userId ∧ row.userHighId ≠ userId := by tauto
    rw [if_pos hnot]
    cases db.rooms.find? fun room => room.id = row.roomId with
    | none => rfl
    | some room =>
        cases db.users.find? fun user => user.userId = otherUserId row userId with
        | none => rfl
        | some user => simp [hnot]

section Parent

variable {parent : (((Match × Room) × User) × Option String) × Option ReadReceipt}

theorem parent_of_mem_roomRows {row : RoomRow} (h : row ∈ roomRows userId db parent) : row.1 = parent := by
  obtain ⟨message, -, rfl⟩ := List.mem_map.1 h
  rfl

theorem count_roomRows :
    count (fun row : RoomRow => row.unread.map (·.id)) (roomRows userId db parent) =
      (selectWhere (onUnread parent.1.1.1.2.id userId parent.2) db.messages).length := by
  apply count_orNull
  · rfl
  · rintro message - ⟨⟩

theorem room_of_joinedRoom {row : Match} (h : joinedRoom userId db row = some parent) :
    parent.1.1.1.2.id = row.roomId := by
  obtain ⟨room, hroom, user, -, rfl⟩ : ∃ room, lookup (·.id) row.roomId db.rooms = some room ∧
      ∃ user, lookup (·.userId) (otherUserId row userId) db.users = some user ∧
        ((((row, room), user), (newestMessage room.id db).map (·.text)),
          findReceipt room.id userId db) = parent := by
    simpa [joinedRoom, Option.bind_eq_some_iff] using h
  exact (mem_of_lookup hroom).2

end Parent

theorem selectRooms_eq (hkeys : RoomKeys db) : selectRooms updatedAt userId db =
    ascending (lastChangedFirst updatedAt) (rooms userId db) := by
  let own := (db.matchRows.filterMap (joinedRoom userId db)).filter fun parent =>
    parent.1.1.1.1.userLowId = userId ∨ parent.1.1.1.1.userHighId = userId
  have hown : selectWhere (fun row : RoomRow =>
      disj (eq (some row.matchRow.userLowId) (some userId))
        (eq (some row.matchRow.userHighId) (some userId))) (joinedRooms userId db) =
      own.flatMap (roomRows userId db) := by
    rw [joinedRooms_eq hkeys]
    apply selectWhere_flatMap
    intro parent _ row hrow
    rw [selected_disj, selected_eq_some, selected_eq_some, Option.some_inj, Option.some_inj,
      decide_eq_true_iff, ← parent_of_mem_roomRows hrow]
    rfl
  have hgrouped : groupBy roomGroup selectedRoom (own.flatMap (roomRows userId db)) =
      own.map (shownRoom userId db) := by
    let parentKey (parent : (((Match × Room) × User) × Option String) × Option ReadReceipt) :
        RowId × String × Option String :=
      (parent.1.1.1.2.id, parent.1.1.2.userName, parent.1.2)
    have hunique : UniqueKey parentKey own := by
      have hids : (own.map fun parent => parent.1.1.1.2.id).Nodup := by
        apply nodup_filter
        apply uniqueKey_filterMap hkeys.matchRooms
        exact fun row parent h => room_of_joinedRoom h
      apply List.Nodup.of_map Prod.fst
      rwa [List.map_map]
    apply groupBy_flatMap hunique
    · intro parent _ row hrow
      rw [← parent_of_mem_roomRows hrow]
      rfl
    · intro parent _ hnil
      exact orNull_ne_nil _ (List.map_eq_nil_iff.1 hnil)
    · intro parent _ row hrow
      rw [selectedRoom, count_roomRows, shownRoom, ← parent_of_mem_roomRows hrow]
      rfl
  rw [selectRooms, hown, hgrouped, shownRooms_eq]

/-- What `rooms` shows of a match of the user. -/
structure ShowsMatch (userId : Uuid) (db : Database) (row : Match) (entry : ChatRoom) : Prop where
  own : row.userLowId = userId ∨ row.userHighId = userId
  room : ∃ room ∈ db.rooms, room.id = row.roomId
  user : ∃ user ∈ db.users, user.userId = otherUserId row userId ∧ entry.name = user.userName
  id : entry.id = row.roomId
  lastMessage : entry.lastMessage = (newestMessage row.roomId db).map (·.text)
  unreadCount : entry.unreadCount = (unreadMessages row.roomId userId db).length

theorem shownRoom_eq_some (hkeys : RoomKeys db) {row : Match} {entry : ChatRoom} :
    ((do
      if row.userLowId ≠ userId ∧ row.userHighId ≠ userId then none else
      let room ← db.rooms.find? fun room => room.id = row.roomId
      let user ← db.users.find? fun user => user.userId = otherUserId row userId
      return { id := room.id
               name := user.userName
               lastMessage := (newestMessage room.id db).map (·.text)
               unreadCount := (unreadMessages room.id userId db).length }) = some entry) ↔
      ShowsMatch userId db row entry := by
  constructor
  · intro h
    split at h
    next => cases h
    next hown =>
      obtain ⟨room, hroom, huser⟩ := Option.bind_eq_some_iff.1 h
      obtain ⟨user, huser, hentry⟩ := Option.bind_eq_some_iff.1 huser
      obtain ⟨hmem, hid⟩ := mem_of_lookup hroom
      obtain ⟨hmem', hname⟩ := mem_of_lookup huser
      obtain rfl := Option.some.inj hentry
      exact ⟨by tauto, ⟨room, hmem, hid⟩, ⟨user, hmem', hname, rfl⟩, hid, hid ▸ rfl, hid ▸ rfl⟩
  · rintro ⟨hown, ⟨room, hmem, hid⟩, ⟨user, hmem', huser, hname⟩, hentry, hlast, hunread⟩
    have hnot : ¬ (row.userLowId ≠ userId ∧ row.userHighId ≠ userId) := by tauto
    have hroom : db.rooms.find? (fun room => room.id = row.roomId) = some room :=
      (lookup_eq_some hkeys.rooms).2 ⟨hmem, hid⟩
    have hfound : db.users.find? (fun user => user.userId = otherUserId row userId) = some user :=
      (lookup_eq_some hkeys.users).2 ⟨hmem', huser⟩
    rw [if_neg hnot, hroom, hfound]
    cases entry
    simp_all

theorem mem_rooms (hkeys : RoomKeys db) {entry : ChatRoom} :
    entry ∈ rooms userId db ↔ ∃ row ∈ db.matchRows, ShowsMatch userId db row entry := by
  rw [rooms, List.mem_filterMap]
  apply exists_congr
  intro row
  rw [shownRoom_eq_some hkeys]

/-- A room is shown once. -/
theorem nodup_rooms (hkeys : RoomKeys db) : ((rooms userId db).map (·.id)).Nodup := by
  apply uniqueKey_filterMap hkeys.matchRooms
  intro row entry h
  exact ((shownRoom_eq_some hkeys).1 h).id

/-- **The list of rooms.** The query selects the rooms of a user, each once, the last changed
first, with the newest text and the number of the messages that are unread. -/
theorem rooms_listed (hkeys : RoomKeys db) (updatedAt : RowId → Timestamp) (userId : Uuid) :
    selectRooms updatedAt userId db = ascending (lastChangedFirst updatedAt) (rooms userId db) ∧
    (selectRooms updatedAt userId db).Pairwise (fun entry other =>
      lastChangedFirst updatedAt entry < lastChangedFirst updatedAt other) ∧
    ∀ entry, entry ∈ selectRooms updatedAt userId db ↔
      ∃ row ∈ db.matchRows, ShowsMatch userId db row entry := by
  have hselected : selectRooms updatedAt userId db =
      ascending (lastChangedFirst updatedAt) (rooms userId db) := selectRooms_eq hkeys
  refine ⟨hselected, ?_, fun entry => ?_⟩
  · rw [hselected]
    apply ascending_strict
    apply List.Nodup.of_map fun key : (Timestamp ×ₗ RowId)ᵒᵈ => (ofLex (ofDual key)).2
    rw [List.map_map]
    exact nodup_rooms hkeys
  · rw [hselected, mem_ascending, mem_rooms hkeys]

/-- Someone who has a room with Bob too. -/
def carol : Uuid := ⟨⟨"cccccccc-cccc-4ccc-8ccc-cccccccccccc".toList, by decide⟩, by decide⟩

/-- Alice has written twice and deleted the second message; Bob has read the first of Carol's two. -/
def twoRooms : Database :=
  { Database.ofUsers [.visible alice, .visible bob, .visible carol] with
    rooms := [{ id := 0, name := "매칭 대화" }, { id := 1, name := "매칭 대화" }]
    matchRows := [{ userLowId := alice, userHighId := bob, roomId := 0 },
      { userLowId := bob, userHighId := carol, roomId := 1 }]
    messages := [slowMessage, ⟨2, 0, some alice, "아니", none, some 12, 11⟩,
      ⟨3, 1, some carol, "안녕", none, none, 12⟩, ⟨4, 1, some carol, "뭐 해?", none, none, 13⟩]
    readReceipts := [⟨1, bob, some 3, 12⟩] }

/-- Carol's room comes first, and in each room one message is unread. -/
theorem rooms_listed_first : selectRooms (fun room => if room = 0 then 11 else 13) bob twoRooms =
    [{ id := 1, name := "user", lastMessage := some "뭐 해?", unreadCount := 1 },
      { id := 0, name := "user", lastMessage := some "안녕", unreadCount := 1 }] := by
  have hkeys : RoomKeys twoRooms := by
    constructor <;> unfold UniqueKey <;> decide
  rw [(rooms_listed hkeys (fun room => if room = 0 then 11 else 13) bob).1]
  decide

end ChatTea.Chat
