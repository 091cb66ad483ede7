import ChatTea.Chat.Unread
import ChatTea.Lib.Paging
import Mathlib

/-!
# The messages of a room, page by page

`ChatService.messages` and the query of `ChatRepository.messages`. The query behind an `after`
cursor reads upwards; every other query reads downwards and turns its rows round.

## Main definitions

* `CursorText`, `MessagesInput` — what a client sends
* `findMessageCursor`, `fetchMessages` — the queries of the repository
* `messages` — the call of the service

## Main results

* `messages_after`, `messages_before`, `messages_newest` — the page of a call
* `messages_pages` — reading page by page gives every later, or earlier, message once
-/

namespace ChatTea.Chat

open Paging Transaction

/-! ### The queries -/

/-- The text of a cursor: JavaScript takes the empty one for none. -/
inductive CursorText where
  | empty
  | malformed
  | id (messageId : RowId)
deriving DecidableEq

def CursorText.isTruthy : CursorText → Bool
  | .empty => false
  | _ => true

/-- `ChatMessagesInput`; the room is absent if its text does not match `UUID_PATTERN`. -/
structure MessagesInput where
  roomId : Option RowId
  first : Option ℤ
  after : Option CursorText
  before : Option CursorText

/-- The messages of a room that are not deleted. -/
def liveMessages (roomId : RowId) (db : Database) : List Message :=
  db.messages.filter fun row => row.roomId = roomId ∧ row.deletedAt = none

/-- The row that a cursor names. -/
def cursorRow (messageId roomId : RowId) (db : Database) : Option Message :=
  (liveMessages roomId db).find? fun row => row.id = messageId

def findMessageCursor (messageId roomId : RowId) (db : Database) : Option RowId :=
  (cursorRow messageId roomId db).map (·.id)

/-- The rows that the condition lets pass; a comparison with no row is not true. -/
def pageRows (roomId : RowId) (after before : Option RowId) (db : Database) : List Message :=
  match after.or before with
  | none => liveMessages roomId db
  | some cursorId => (liveMessages roomId db).filter fun row =>
      (cursorRow cursorId roomId db).any fun cursor =>
        if after.isSome then position cursor < position row else position row < position cursor

/-- `ORDER BY "createdAt" DESC, id DESC` -/
def descending (rows : List Message) : List Message :=
  ascending (fun row => OrderDual.toDual (position row)) rows

/-- The query of `ChatRepository.messages`. -/
def fetchMessages (roomId : RowId) (limit : ℕ) (after before : Option RowId) (db : Database) :
    List Message :=
  if after.isSome then (ascending position (pageRows roomId after before db)).take limit
  else ((descending (pageRows roomId after before db)).take limit).reverse

/-- `Math.min(first ?? 50, 100)` -/
def pageSize (first : Option ℤ) : ℤ := min (first.getD 50) 100

def cursorInvalid : Failure := .error "MESSAGE_CURSOR_INVALID"

/-- The identifier of a cursor that is not empty. -/
def validateCursor (cursor : Option CursorText) : Except Failure (Option RowId) :=
  match cursor with
  | none | some .empty => .ok none
  | some .malformed => .error cursorInvalid
  | some (.id messageId) => .ok (some messageId)

/-- What the repository is given for a side: the row found, if the side has a text. -/
def sideCursor (side : Option CursorText) (found : Option RowId) : Option RowId :=
  if side.any CursorText.isTruthy then found else none

def messages (userId : Uuid) (input : MessagesInput) (db : Database) :
    Except Failure (List ChatMessagePayload) := do
  let roomId ← validateUuid input.roomId "ROOM_ID_INVALID"
  require notRoomMember (isRoomMember roomId userId db)
  let limit := pageSize input.first
  throwIf (.error "MESSAGE_PAGE_SIZE_INVALID") (limit < 1)
  throwIf cursorInvalid
    (input.after.any CursorText.isTruthy ∧ input.before.any CursorText.isTruthy)
  let cursorId ← validateCursor (input.after.or input.before)
  let cursor := cursorId.bind fun messageId => findMessageCursor messageId roomId db
  throwIf cursorInvalid (cursorId.isSome ∧ cursor = none)
  return (fetchMessages roomId limit.toNat (sideCursor input.after cursor)
    (sideCursor input.before cursor) db).map rowToMessage

/-! ### The page of a call -/

/-- The input of a client that reads upwards. -/
def afterInput (roomId : RowId) (first : Option ℤ) (messageId : RowId) : MessagesInput where
  roomId := some roomId
  first := first
  after := some (.id messageId)
  before := none

/-- The input of a client that reads downwards. -/
def beforeInput (roomId : RowId) (first : Option ℤ) (messageId : RowId) : MessagesInput where
  roomId := some roomId
  first := first
  after := none
  before := some (.id messageId)

section Pages

variable {db : Database} {roomId messageId : RowId} {userId : Uuid} {first : Option ℤ}
  {row : Message} {page : List ChatMessagePayload}

theorem ids_liveMessages (hids : (db.messages.map (·.id)).Nodup) :
    ((liveMessages roomId db).map (·.id)).Nodup :=
  nodup_filter hids

/-- The identifier ends the position, so that two messages have different ones. -/
theorem positions_liveMessages (hids : (db.messages.map (·.id)).Nodup) :
    ((liveMessages roomId db).map position).Nodup := by
  have hmap : ((liveMessages roomId db).map position).map (fun place => (ofLex place).2) =
      (liveMessages roomId db).map (·.id) := by
    rw [List.map_map]
    rfl
  apply List.Nodup.of_map (fun place => (ofLex place).2)
  rw [hmap]
  exact ids_liveMessages hids

theorem cursorRow_of_mem (hids : (db.messages.map (·.id)).Nodup)
    (hrow : row ∈ liveMessages roomId db) : cursorRow row.id roomId db = some row :=
  Table.UniqueKey.lookup_of_mem (ids_liveMessages hids) hrow

/-- A cursor that names a message is found. -/
theorem findMessageCursor_of_mem (hids : (db.messages.map (·.id)).Nodup)
    (hrow : row ∈ liveMessages roomId db) : findMessageCursor row.id roomId db = some row.id := by
  rw [findMessageCursor, cursorRow_of_mem hids hrow]
  rfl

/-- A call whose checks all pass. -/
theorem messages_eq_ok (input : MessagesInput) (cursorId : Option RowId)
    (hroom : input.roomId = some roomId) (hmember : isRoomMember roomId userId db)
    (hsize : 1 ≤ pageSize input.first)
    (hone : ¬ (input.after.any CursorText.isTruthy ∧ input.before.any CursorText.isTruthy))
    (hcursor : validateCursor (input.after.or input.before) = .ok cursorId)
    (hfound : cursorId.bind (findMessageCursor · roomId db) = cursorId) :
    messages userId input db = .ok ((fetchMessages roomId (pageSize input.first).toNat
      (sideCursor input.after cursorId) (sideCursor input.before cursorId) db).map
        rowToMessage) := by
  have hknown : ¬ (cursorId.isSome ∧ cursorId.bind (findMessageCursor · roomId db) = none) := by
    rw [hfound]
    cases cursorId <;> simp
  have hpositive : ¬ pageSize input.first < 1 := by omega
  simp only [messages, validateUuid, hroom, hcursor, bind, Except.bind, require_of hmember,
    throwIf_of_not hpositive, throwIf_of_not hone]
  rw [hfound] at hknown ⊢
  rw [throwIf_of_not hknown]
  rfl

/-- Behind a cursor the page is the first of the later messages. -/
theorem messages_after (hids : (db.messages.map (·.id)).Nodup)
    (hmember : isRoomMember roomId userId db) (hsize : 1 ≤ pageSize first)
    (hrow : row ∈ liveMessages roomId db) :
    messages userId (afterInput roomId first row.id) db =
      .ok (((following position (position row) (liveMessages roomId db)).take
        (pageSize first).toNat).map rowToMessage) := by
  have hcall := messages_eq_ok (afterInput roomId first row.id) (some row.id)
    rfl hmember hsize (by simp [afterInput]) rfl (findMessageCursor_of_mem hids hrow)
  have hrows : pageRows roomId (some row.id) none db =
      (liveMessages roomId db).filter fun other => position row < position other := by
    simp [pageRows, cursorRow_of_mem hids hrow]
  rw [hcall]
  simp only [afterInput, sideCursor, Option.any_some, Option.any_none, CursorText.isTruthy,
    if_true, Bool.false_eq_true, if_false, fetchMessages, Option.isSome_some, hrows]
  rfl

/-- The page before a cursor is the last of the earlier messages. -/
theorem messages_before (hids : (db.messages.map (·.id)).Nodup)
    (hmember : isRoomMember roomId userId db) (hsize : 1 ≤ pageSize first)
    (hrow : row ∈ liveMessages roomId db) :
    messages userId (beforeInput roomId first row.id) db =
      .ok (((following (fun row => OrderDual.toDual (position row))
        (OrderDual.toDual (position row)) (liveMessages roomId db)).take
          (pageSize first).toNat).reverse.map rowToMessage) := by
  have hcall := messages_eq_ok (beforeInput roomId first row.id) (some row.id)
    rfl hmember hsize (by simp [beforeInput]) rfl (findMessageCursor_of_mem hids hrow)
  have hrows : pageRows roomId none (some row.id) db = (liveMessages roomId db).filter
      fun other => OrderDual.toDual (position row) < OrderDual.toDual (position other) := by
    simp [pageRows, cursorRow_of_mem hids hrow]
  rw [hcall]
  simp only [beforeInput, sideCursor, Option.any_some, Option.any_none, CursorText.isTruthy,
    if_true, Bool.false_eq_true, if_false, fetchMessages, Option.isSome_none, hrows]
  rfl

/-- Without a cursor the page is the newest messages. -/
theorem messages_newest (hids : (db.messages.map (·.id)).Nodup)
    (hmember : isRoomMember roomId userId db) (hsize : 1 ≤ pageSize first) :
    messages userId { roomId := some roomId, first, after := none, before := none } db =
      .ok ((((ascending position (liveMessages roomId db)).reverse.take
        (pageSize first).toNat).reverse).map rowToMessage) := by
  have hcall := messages_eq_ok { roomId := some roomId, first, after := none, before := none } none
    rfl hmember hsize (by simp) rfl rfl
  rw [hcall]
  simp only [sideCursor, Option.any_none, Bool.false_eq_true, if_false, fetchMessages,
    Option.isSome_none, pageRows, Option.or_none, descending,
    ascending_toDual (positions_liveMessages hids)]

/-! ### Reading on -/

/-- The place of a message that a client has been sent. -/
def payloadPosition (payload : ChatMessagePayload) : Timestamp ×ₗ RowId :=
  toLex (payload.createdAt, payload.id)

/-- `cursor = page[page.length - 1].id` -/
def lastId (page : List ChatMessagePayload) : Option RowId := page.getLast?.map (·.id)

/-- `cursor = page[0].id` -/
def firstId (page : List ChatMessagePayload) : Option RowId := page.head?.map (·.id)

/-- What is behind the message of a cursor, in the order of a key. -/
def leftBehind {κ : Type} [LinearOrder κ] (key : Message → κ) (roomId : RowId) (db : Database)
    (messageId : RowId) : List ChatMessagePayload :=
  match cursorRow messageId roomId db with
  | some row => (following key (key row) (liveMessages roomId db)).map rowToMessage
  | none => []

/-- Calls that give the first rows behind a cursor serve the rows behind it page by page. -/
theorem serves_leftBehind {κ : Type} [LinearOrder κ] {key : Message → κ} {size : ℕ}
    (call : RowId → Except Failure (List ChatMessagePayload))
    (hids : (db.messages.map (·.id)).Nodup)
    (hkeys : ((liveMessages roomId db).map key).Nodup) (hsize : 0 < size)
    (hcall : ∀ row ∈ liveMessages roomId db, call row.id =
      .ok (((following key (key row) (liveMessages roomId db)).take size).map rowToMessage)) :
    Serves call lastId size (fun messageId => ∃ row ∈ liveMessages roomId db, row.id = messageId)
      (leftBehind key roomId db) where
  page := by
    rintro - ⟨row, hrow, rfl⟩
    rw [hcall row hrow, leftBehind, cursorRow_of_mem hids hrow, List.map_take]
  edge_nil := rfl
  edge := by
    rintro - ⟨row, hrow, rfl⟩ hleft
    rw [leftBehind, cursorRow_of_mem hids hrow] at hleft ⊢
    simp only at hleft ⊢
    -- The last row of a page that is not empty is the next cursor.
    have hne : (following key (key row) (liveMessages roomId db)).take size ≠ [] := by
      intro hnil
      rcases List.take_eq_nil_iff.1 hnil with hzero | hnone
      · omega
      · rw [hnone] at hleft
        exact hleft rfl
    have hlast := List.getLast?_eq_some_getLast hne
    have hmem := List.mem_of_mem_take (List.getLast_mem hne)
    have hlive := (mem_following.1 hmem).1
    refine ⟨_, ?_, ⟨_, hlive, rfl⟩, ?_⟩
    · rw [lastId, ← List.map_take, List.getLast?_map, hlast]
      rfl
    · rw [leftBehind, cursorRow_of_mem hids hlive, ← List.map_drop]
      exact congrArg (List.map rowToMessage) (following_drop hkeys hlast)

/-- Every page is in the order of the messages. -/
def InOrder (page : List ChatMessagePayload) : Prop :=
  page.Pairwise fun payload other => payloadPosition payload < payloadPosition other

/-- Reading until a page is empty comes to an end and gives each of the expected messages once,
every page in order. -/
structure ReadsOnce (call : RowId → Except Failure (List ChatMessagePayload))
    (edge : List ChatMessagePayload → Option RowId) (cursor : RowId)
    (expected : List Message) : Prop where
  ends : ∃ pages, Walk call edge cursor pages
  once : ∀ pages, Walk call edge cursor pages → pages.flatten.Perm (expected.map rowToMessage)
  inOrder : ∀ pages, Walk call edge cursor pages → ∀ page ∈ pages, InOrder page

theorem inOrder_map {rows : List Message}
    (h : rows.Pairwise fun row other => position row < position other) :
    InOrder (rows.map rowToMessage) :=
  List.pairwise_map.2 h

/-- Reading upwards. -/
theorem readsOnce_after (hids : (db.messages.map (·.id)).Nodup)
    (hmember : isRoomMember roomId userId db) (hsize : 1 ≤ pageSize first)
    (hrow : row ∈ liveMessages roomId db) :
    ReadsOnce (fun messageId => messages userId (afterInput roomId first messageId) db) lastId row.id
      ((liveMessages roomId db).filter fun other => position row < position other) := by
  have hpos : 0 < (pageSize first).toNat := by omega
  have hgood : ∃ start ∈ liveMessages roomId db, start.id = row.id := ⟨row, hrow, rfl⟩
  have hserves := serves_leftBehind
    (fun messageId => messages userId (afterInput roomId first messageId) db) hids
    (positions_liveMessages hids) hpos fun start hstart => messages_after hids hmember hsize hstart
  have hleft : leftBehind position roomId db row.id =
      (following position (position row) (liveMessages roomId db)).map rowToMessage := by
    rw [leftBehind, cursorRow_of_mem hids hrow]
  constructor
  · exact hserves.exists_walk hpos hgood
  · intro pages hwalk
    rw [hserves.flatten_eq hpos hgood hwalk, hleft]
    exact (perm_ascending _).map _
  · intro pages hwalk page hpage
    obtain ⟨hpart, -⟩ := hserves.pages_infix hgood hwalk page hpage
    rw [hleft] at hpart
    exact (inOrder_map (following_strict (positions_liveMessages hids))).sublist hpart.sublist

/-- Reading downwards: the pages of the dual order, each turned round. -/
theorem readsOnce_before (hids : (db.messages.map (·.id)).Nodup)
    (hmember : isRoomMember roomId userId db) (hsize : 1 ≤ pageSize first)
    (hrow : row ∈ liveMessages roomId db) :
    ReadsOnce (fun messageId => messages userId (beforeInput roomId first messageId) db) firstId
      row.id ((liveMessages roomId db).filter fun other => position other < position row) := by
  set call := fun messageId => messages userId (beforeInput roomId first messageId) db with hcall
  set key := fun message => OrderDual.toDual (position message) with hkey
  have hpos : 0 < (pageSize first).toNat := by omega
  have hgood : ∃ start ∈ liveMessages roomId db, start.id = row.id := ⟨row, hrow, rfl⟩
  have hkeys : ((liveMessages roomId db).map key).Nodup := positions_liveMessages hids
  have hserves : Serves (fun messageId => (call messageId).map List.reverse) lastId
      (pageSize first).toNat (fun messageId => ∃ start ∈ liveMessages roomId db, start.id = messageId)
      (leftBehind key roomId db) := by
    apply serves_leftBehind _ hids hkeys hpos
    intro start hstart
    rw [hcall]
    simp only
    rw [messages_before hids hmember hsize hstart, Except.map, List.map_reverse, List.reverse_reverse]
  have hleft : leftBehind key roomId db row.id =
      (following key (key row) (liveMessages roomId db)).map rowToMessage := by
    rw [leftBehind, cursorRow_of_mem hids hrow]
  have hedge : ∀ page : List ChatMessagePayload, firstId page.reverse = lastId page := by
    intro page
    rw [firstId, lastId, List.head?_reverse]
  -- A walk through the calls is a walk through the turned pages, and back.
  have hturn : ∀ {pages}, Walk call firstId row.id pages →
      Walk (fun messageId => (call messageId).map List.reverse) lastId row.id
        (pages.map List.reverse) := by
    intro pages hwalk
    simpa only [hedge] using hwalk.reverse
  constructor
  · obtain ⟨pages, hwalk⟩ := hserves.exists_walk hpos hgood
    have hback := hwalk.reverse
    have htwice : (fun messageId => ((call messageId).map List.reverse).map List.reverse) = call := by
      funext messageId
      cases call messageId with
      | error failure => rfl
      | ok page => simp [Except.map]
    have hfirst : (fun page : List ChatMessagePayload => lastId page.reverse) = firstId := by
      funext page
      rw [← hedge, List.reverse_reverse]
    rw [htwice, hfirst] at hback
    exact ⟨_, hback⟩
  · intro pages hwalk
    have hall := hserves.flatten_eq hpos hgood (hturn hwalk)
    apply (perm_flatten_map_reverse pages).trans
    rw [hall, hleft]
    exact (perm_ascending _).map _
  · intro pages hwalk page hpage
    obtain ⟨hpart, -⟩ := hserves.pages_infix hgood (hturn hwalk) page.reverse
      (List.mem_map_of_mem hpage)
    rw [hleft] at hpart
    have hdown : ((following key (key row) (liveMessages roomId db)).map rowToMessage).Pairwise
        fun payload other => payloadPosition other < payloadPosition payload :=
      List.pairwise_map.2 (following_strict hkeys)
    exact List.pairwise_reverse.1 (hdown.sublist hpart.sublist)

/-- The page without a cursor: the newest messages, in order. -/
theorem messages_newest_spec (hids : (db.messages.map (·.id)).Nodup)
    (hmember : isRoomMember roomId userId db) (hsize : 1 ≤ pageSize first) :
    ∃ older page, messages userId { roomId := some roomId, first, after := none, before := none } db
        = .ok page ∧
      (older ++ page).Perm ((liveMessages roomId db).map rowToMessage) ∧ InOrder (older ++ page) ∧
      page.length = min (pageSize first).toNat (liveMessages roomId db).length := by
  set all := ascending position (liveMessages roomId db) with hall
  set size := (pageSize first).toNat with hlimit
  have hnewest : (all.reverse.take size).reverse = all.drop (all.length - size) := by
    rw [List.take_reverse, List.reverse_reverse]
  have hlength : all.length = (liveMessages roomId db).length := (perm_ascending _).length_eq
  refine ⟨(all.take (all.length - size)).map rowToMessage,
    (all.drop (all.length - size)).map rowToMessage, ?_, ?_, ?_, ?_⟩
  · rw [messages_newest hids hmember hsize, ← hnewest]
  · rw [← List.map_append, List.take_append_drop]
    exact (perm_ascending _).map _
  · rw [← List.map_append, List.take_append_drop]
    exact inOrder_map (ascending_strict (positions_liveMessages hids))
  · rw [List.length_map, List.length_drop, hlength]
    omega

/-- Reading behind or before a message page by page gives every later, or earlier, message that
is not deleted exactly once, and a page without a cursor is the newest messages; every page is in
the order of the messages. -/
theorem messages_pages (hids : (db.messages.map (·.id)).Nodup)
    (hmember : isRoomMember roomId userId db) (hsize : 1 ≤ pageSize first) :
    (∀ row ∈ liveMessages roomId db,
      ReadsOnce (fun messageId => messages userId (afterInput roomId first messageId) db) lastId
          row.id ((liveMessages roomId db).filter fun other => position row < position other) ∧
        ReadsOnce (fun messageId => messages userId (beforeInput roomId first messageId) db) firstId
          row.id ((liveMessages roomId db).filter fun other => position other < position row)) ∧
    ∃ older page, messages userId { roomId := some roomId, first, after := none, before := none } db
        = .ok page ∧
      (older ++ page).Perm ((liveMessages roomId db).map rowToMessage) ∧ InOrder (older ++ page) ∧
      page.length = min (pageSize first).toNat (liveMessages roomId db).length := by
  constructor
  · intro row hrow
    constructor
    · exact readsOnce_after hids hmember hsize hrow
    · exact readsOnce_before hids hmember hsize hrow
  · exact messages_newest_spec hids hmember hsize

end Pages

/-- Four messages of one instant, one of them deleted. -/
def crowdedRoom : Database :=
  { emptyRoom with
    messages := [sentRow 0 alice "하나".toList 4 20,
      { sentRow 0 bob "둘".toList 2 20 with deletedAt := some 21 },
      sentRow 0 bob "셋".toList 1 20, sentRow 0 alice "넷".toList 3 20] }

theorem messages_pages_crowded :
    ∃ older page, messages bob { roomId := some 0, first := some 2, after := none, before := none }
        crowdedRoom = .ok page ∧
      (older ++ page).Perm ((liveMessages 0 crowdedRoom).map rowToMessage) ∧
      InOrder (older ++ page) ∧
      page.length = min (pageSize (some 2)).toNat (liveMessages 0 crowdedRoom).length := by
  have hsize : 1 ≤ pageSize (some 2) := by decide
  exact (messages_pages (by decide) (by decide) hsize).2

end ChatTea.Chat
