import ChatTea.Chat.Idempotency

/-!
# Unread messages

A message gets its time when the transaction that sends it starts, and is seen when the
transaction commits. The boundary of `markRoomRead` is the time and identifier of the newest
message that is seen, so a message that is committed below it is taken for read.

## Main definitions

* `IsBelow` — the boundary of a receipt is below a message
* `CoveredBy` — a `markRoomRead` of a user has seen a message
* `AboveBoundaries` — the steps that lose no message

## Main results

* `unread_kept` — in a run of such steps a message is counted until it is read or deleted
* `unread_lost` — in another one a message that no one has read is not counted
-/

namespace ChatTea.Chat

open History Interleaving ReadCommitted RowLocks Table Transaction

variable {c : Config ChatState ChatRequest Failure ChatAnswer} {start db : Database} {pid sender : ℕ}
  {before after : ChatState} {message : Message} {userId senderUserId : Uuid}

/-- The boundary of a receipt is below a message. -/
def IsBelow (receipt : ReadReceipt) (message : Message) : Prop :=
  receipt.readAt < message.createdAt ∨ receipt.readAt = message.createdAt ∧
    ∃ last, receipt.lastReadMessageId = some last ∧ last < message.id

theorem isUnread_iff {receipt : ReadReceipt} : isUnread (some receipt) message ↔
    IsBelow receipt message := by
  simp [isUnread, IsBelow, Option.any_eq_true]

theorem isBelow_readReceipt {newest : Message} :
    IsBelow (readReceipt userId newest) message ↔ position newest < position message := by
  simp [IsBelow, readReceipt, position, Prod.Lex.toLex_lt_toLex]

/-- A `markRoomRead` of the user that is committed has seen the message. -/
def CoveredBy (w : ChatState) (userId : Uuid) (sender : ℕ) (message : Message) : Prop :=
  ∃ reader newest, (reader, .markedRead message.roomId userId) ∈ w.log ∧
    After w.log (reader, .looked message.roomId userId newest) (sender, .created message)

/-- The steps that lose no message. -/
structure AboveBoundaries (before after : ChatState) : Prop where
  /-- A message is committed above the boundaries that the others have stored. -/
  created : ∀ pid message, after.log = stamp pid [.created message] ++ before.log →
    ∀ receipt ∈ before.committed.readReceipts, receipt.roomId = message.roomId →
      message.senderUserId ≠ some receipt.userId → IsBelow receipt message
  /-- A boundary is committed below the messages of others that came since it was read. -/
  read : ∀ reader roomId userId newest, after.log = stamp reader [.markedRead roomId userId] ++ before.log →
    ∀ sender message, message.roomId = roomId → message.senderUserId ≠ some userId →
      After before.log (sender, .created message) (reader, .looked roomId userId (some newest)) →
      position newest < position message

/-- Each new message counts for the users that have not read it. -/
def CountsUnread (w : ChatState) : Prop :=
  ∀ sender message userId, (sender, .created message) ∈ w.log → message.senderUserId ≠ some userId →
    ¬ CoveredBy w userId sender message →
    isUnread (findReceipt message.roomId userId w.committed) message

/-- A message that has been read stays so. -/
theorem CoveredBy.of_log {events : List ChatEvent} (hlog : after.log = stamp pid events ++ before.log)
    (h : CoveredBy before userId sender message) : CoveredBy after userId sender message := by
  obtain ⟨reader, newest, hread, hafter⟩ := h
  rw [CoveredBy, hlog]
  exact ⟨reader, newest, List.mem_append_right _ hread, hafter.append _⟩

theorem findReceipt_congr {db' : Database} (h : db'.readReceipts = db.readReceipts) (roomId : RowId)
    (userId : Uuid) : findReceipt roomId userId db' = findReceipt roomId userId db := by
  unfold findReceipt
  rw [h]

/-- A step that commits above the boundaries leaves every unread message counted. -/
theorem CountsUnread.step (h : CountsUnread before) (hchange : ChatChange pid before after)
    (hallowed : AboveBoundaries before after) : CountsUnread after := by
  intro sender message userId hcreated hother huncovered
  obtain ⟨events, hlog⟩ := hchange.log
  have huncovered' : ¬ CoveredBy before userId sender message :=
    fun hcovered => huncovered (hcovered.of_log hlog)
  cases hchange with
  | quiet events log creates messages receipts =>
      rw [log, List.mem_append, mem_stamp] at hcreated
      rw [findReceipt_congr receipts]
      rcases hcreated with ⟨-, hevent⟩ | hold
      · exact absurd hevent (creates message)
      · exact h sender message userId hold hother huncovered'
  | created new log fresh unused messages receipts =>
      rw [findReceipt_congr receipts]
      rw [log, List.mem_append, mem_stamp] at hcreated
      rcases hcreated with ⟨-, hevent⟩ | hold
      · obtain rfl : message = new := by simpa using hevent
        cases hfound : findReceipt message.roomId userId before.committed with
        | none => rfl
        | some receipt =>
            obtain ⟨hmem, hkey⟩ := mem_of_lookup hfound
            obtain ⟨hroom, huser⟩ := Prod.mk.inj hkey
            apply isUnread_iff.2
            apply hallowed.created pid message log receipt hmem hroom
            rwa [huser]
      · exact h sender message userId hold hother huncovered'
  | updated cond set log same undeleted messages receipts =>
      rw [log] at hcreated
      rw [findReceipt_congr receipts]
      exact h sender message userId hcreated hother huncovered'
  | read roomId reader newest log looked room messages receipts =>
      rw [log, List.mem_append, mem_stamp] at hcreated
      have hold : (sender, .created message) ∈ before.log := by
        rcases hcreated with ⟨-, hevent⟩ | hold
        · simp at hevent
        · exact hold
      rw [findReceipt_congr receipts]
      apply isUnread_upsertReceipt ?_ (h sender message userId hold hother huncovered')
      intro hkey
      obtain ⟨hroom, huser⟩ := Prod.mk.inj hkey
      obtain rfl : reader = userId := huser
      obtain rfl : message.roomId = roomId := hroom.symm.trans room
      rw [isUnread_iff, isBelow_readReceipt]
      -- The message is committed before the statement of the reader starts, or after it.
      rcases after_or_after looked hold (by simp) with hseen | hsince
      · refine absurd ⟨pid, some newest, ?_, ?_⟩ huncovered
        · rw [log]
          exact List.mem_append_left _ (mem_stamp.2 ⟨rfl, List.mem_cons_self⟩)
        · rw [log]
          exact hseen.append _
      · exact hallowed.read pid message.roomId reader newest log sender message rfl hother hsince

/-- **No unread message is lost** while messages are committed above the boundaries: a message
that another user sends is counted until a `markRoomRead` that has seen it is committed. -/
theorem unread_kept (hready : ChatReady start)
    (hrun : Reachable chatSystem AboveBoundaries (chatAtRest start) c)
    (hcreated : (sender, .created message) ∈ c.state.log)
    (hsender : message.senderUserId = some senderUserId) (hother : senderUserId ≠ userId)
    (hunread : ¬ CoveredBy c.state userId sender message) :
    ∃ row ∈ c.state.committed.messages, SameMessage message row ∧ (row.deletedAt = none →
      row ∈ unreadMessages message.roomId userId c.state.committed ∧
        ∀ chatRoom ∈ rooms userId c.state.committed, chatRoom.id = message.roomId →
          chatRoom.unreadCount = (unreadMessages message.roomId userId c.state.committed).length) := by
  have hsound := chatLogic_sound start
  have hgood : (chatLogic start).Good c :=
    hsound.reachable (good_atRest hready) (hrun.weaken fun _ _ _ => trivial)
  have hcounts : CountsUnread c.state := by
    apply hsound.preserves CountsUnread (good_atRest hready) hrun fun _ _ _ => trivial
    · exact fun _ _ _ hmem => absurd hmem List.not_mem_nil
    · exact fun _ hstep hallowed h => h.step hstep.change hallowed
    · intro s s' hmoves h sender message userId hmem hother huncovered
      rw [hmoves.log] at hmem
      rw [findReceipt_congr hmoves.receipts]
      apply h sender message userId hmem hother
      unfold CoveredBy at huncovered ⊢
      rwa [hmoves.log] at huncovered
    · exact fun _ _ h => h
  obtain ⟨row, hrow, hsame⟩ := hgood.invariant.stored hcreated
  have hnotown : message.senderUserId ≠ some userId := by
    rw [hsender]
    simpa using hother
  have hisUnread := hcounts sender message userId hcreated hnotown hunread
  refine ⟨row, hrow, hsame, fun hdeleted => ⟨?_, ?_⟩⟩
  · have hposition : isUnread (findReceipt message.roomId userId c.state.committed) row := by
      unfold isUnread at hisUnread ⊢
      rw [hsame.id, hsame.createdAt]
      exact hisUnread
    simp [unreadMessages, hrow, hsame.roomId, hsame.senderUserId, hsender, hother, hdeleted, hposition]
  · intro chatRoom hroom hid
    rw [← hid]
    exact unreadCount_of_mem_rooms hroom

/-! ### A room of two users -/

/-- The row of a send without a key. -/
def sentRow (roomId : RowId) (userId : Uuid) (text : Text) (id : RowId) (createdAt : Timestamp) :
    Message :=
  { id, roomId, senderUserId := some userId, text := String.ofList text, idempotencyKey := none
    deletedAt := none, createdAt }

def greeting : SendMessageInput := ⟨some 0, "안녕".toList, none⟩

/-- Alice's message, whose transaction starts first. -/
def slowMessage : Message := sentRow 0 alice "안녕".toList 1 10

/-- Alice's message, when no one else writes. -/
def firstCommitted : Database := { emptyRoom with messages := [slowMessage] }

/-- Alice's second message. -/
def nextMessage : Message := sentRow 0 alice "안녕".toList 3 30

/-- Bob has read the first message. -/
def readFirst : Database := upsertReceipt (readReceipt bob slowMessage) firstCommitted

/-- The second message is there too. -/
def secondCommitted : Database := { readFirst with messages := [slowMessage, nextMessage] }

/-- A step that commits no message and no boundary loses none. -/
theorem aboveBoundaries_of_quiet (pid : ℕ) (events : List ChatEvent)
    (hlog : after.log = stamp pid events ++ before.log)
    (hcreates : ∀ message, .created message ∉ events)
    (hreads : ∀ roomId userId, .markedRead roomId userId ∉ events) : AboveBoundaries before after := by
  have hmem {other : ℕ} {event : ChatEvent} (h : after.log = stamp other [event] ++ before.log) :
      event ∈ events := by
    have hsame : stamp pid events = stamp other [event] :=
      List.append_cancel_right (hlog.symm.trans h)
    have hentry : (other, event) ∈ stamp pid events := hsame ▸ mem_stamp.2 ⟨rfl, List.mem_cons_self⟩
    exact (mem_stamp.1 hentry).2
  exact ⟨fun _ message h => absurd (hmem h) (hcreates message),
    fun _ _ _ _ h => absurd (hmem h) (hreads _ _)⟩

/-- Alice sends a message, Bob reads it, and Alice sends another: Bob has one message to read. -/
theorem unread_kept_first : ∃ c : Config ChatState ChatRequest Failure ChatAnswer,
    Reachable chatSystem AboveBoundaries (chatAtRest emptyRoom) c ∧
      CoveredBy c.state bob 0 slowMessage ∧ ¬ CoveredBy c.state bob 2 nextMessage ∧
      (unreadMessages 0 bob c.state.committed).length = 1 ∧
      ∃ row ∈ c.state.committed.messages, SameMessage nextMessage row ∧ (row.deletedAt = none →
        row ∈ unreadMessages 0 bob c.state.committed ∧
          ∀ chatRoom ∈ rooms bob c.state.committed, chatRoom.id = 0 →
            chatRoom.unreadCount = (unreadMessages 0 bob c.state.committed).length) := by
  let w : ChatState := .ofCommitted emptyRoom
  let w₁ : ChatState := w.enter 0 .keyShare [] [.started false]
  let w₂ : ChatState := w₁.enter 0 .noKeyUpdate [.room 0] []
  let w₃ : ChatState := w₂.finish 0 firstCommitted [.created slowMessage]
  let w₄ : ChatState := w₃.enter 1 .keyShare [] [.looked 0 bob (some slowMessage)]
  let w₅ : ChatState := w₄.enter 1 .noKeyUpdate [.receipt 0 bob] []
  let w₆ : ChatState := w₅.finish 1 readFirst [.markedRead 0 bob]
  let w₇ : ChatState := w₆.enter 2 .keyShare [] [.started false]
  let w₈ : ChatState := w₇.enter 2 .noKeyUpdate [.room 0] []
  let w₉ : ChatState := w₈.finish 2 secondCommitted [.created nextMessage]
  have hquiet {before after : ChatState} (h : after.log = before.log) : AboveBoundaries before after :=
    aboveBoundaries_of_quiet 0 [] h (fun _ => List.not_mem_nil) fun _ _ => List.not_mem_nil
  have hstarts (pid : ℕ) (before : ChatState) :
      AboveBoundaries before (before.enter pid .keyShare [] [.started false]) :=
    aboveBoundaries_of_quiet pid _ rfl (by simp) (by simp)
  have hfree (pid : ℕ) {mode : Mode} {row : ChatLock} : Free [] pid mode row :=
    free_of_alone fun _ hlock => absurd hlock List.not_mem_nil
  -- No boundary is there yet.
  have hfirst : AboveBoundaries w₂ w₃ :=
    ⟨fun _ _ _ receipt hmem => absurd hmem List.not_mem_nil, fun _ _ _ _ h => nomatch h⟩
  have hsends : Runs AboveBoundaries 0 (sendMessage alice greeting) w
      (announce 0 alice ⟨some slowMessage, true⟩) w₃ :=
    .step () w₁ rfl (hstarts 0 w) <|
    .step (.ok true) w₁ (.returned (fun _ hrow => nomatch hrow) rfl) (hquiet rfl) <|
    .step (.ok 0) w₁ (.returned (fun _ hrow => nomatch hrow) rfl) (hquiet rfl) <|
    .step 10 w₁ rfl (hquiet rfl) <|
    .step 1 w₁ rfl (hquiet rfl) <|
    .step (.ok (some slowMessage)) w₁ (.returned (fun _ hrow => nomatch hrow) rfl) (hquiet rfl) <|
    .step (.ok ()) w₂ (.returned (fun _ _ => hfree 0) rfl) (hquiet rfl) <|
    .step (.ok ()) w₃ (.committed rfl) hfirst .refl
  -- Nothing was created since Bob has looked.
  have hread : AboveBoundaries w₅ w₆ := by
    refine ⟨fun _ _ h => (nomatch h), fun reader roomId userId newest _ sender message _ _ hafter => ?_⟩
    have hlog : w₅.log = [(1, .looked 0 bob (some slowMessage)), (0, .created slowMessage),
      (0, .started false)] := rfl
    simp [hlog, after_cons] at hafter
  have hreads : Runs AboveBoundaries 1 (markRoomRead bob (some 0)) w₃ (.done ()) w₆ :=
    .step (.ok true) w₃ (.returned (fun _ hrow => nomatch hrow) rfl) (hquiet rfl) <|
    .step (.ok (some slowMessage)) w₄ (.returned (fun _ hrow => nomatch hrow) rfl)
      (aboveBoundaries_of_quiet 1 _ rfl (by simp) (by simp)) <|
    .step (.ok readFirst) w₅ (.returned (fun _ _ => hfree 1) rfl) (hquiet rfl) <|
    .step (.ok ()) w₆ (.committed rfl) hread .refl
  -- The second message is above the boundary that Bob has stored.
  have hnext : AboveBoundaries w₈ w₉ := by
    refine ⟨fun _ message h receipt hmem _ _ => ?_, fun _ _ _ _ h => (nomatch h)⟩
    have hnew : (2, ChatEvent.created nextMessage) = (_, .created message) := (List.cons.inj h).1
    cases hnew
    obtain rfl : receipt = readReceipt bob slowMessage := List.mem_singleton.1 hmem
    exact Or.inl (by decide)
  have hsends' : Runs AboveBoundaries 2 (sendMessage alice greeting) w₆
      (announce 0 alice ⟨some nextMessage, true⟩) w₉ :=
    .step () w₇ rfl (hstarts 2 w₆) <|
    .step (.ok true) w₇ (.returned (fun _ hrow => nomatch hrow) rfl) (hquiet rfl) <|
    .step (.ok 1) w₇ (.returned (fun _ hrow => nomatch hrow) rfl) (hquiet rfl) <|
    .step 30 w₇ rfl (hquiet rfl) <|
    .step 3 w₇ rfl (hquiet rfl) <|
    .step (.ok (some nextMessage)) w₇ (.returned (fun _ hrow => nomatch hrow) rfl) (hquiet rfl) <|
    .step (.ok ()) w₈ (.returned (fun _ _ => hfree 2) rfl) (hquiet rfl) <|
    .step (.ok ()) w₉ (.committed rfl) hnext .refl
  let answer : ChatMessagePayload → ChatProg ChatAnswer := fun payload => pure (.message payload)
  let marked : Unit → ChatProg ChatAnswer := fun _ => pure .markedRead
  let failed : Failure → ChatProg ChatAnswer := fun failure => pure (.failed failure)
  have hidle : Reachable chatSystem AboveBoundaries (chatAtRest emptyRoom) ⟨w, []⟩ :=
    Relation.ReflTransGen.refl
  let sent₁ : Thread ChatState ChatRequest Failure ChatAnswer := ⟨.sendMessage alice greeting,
    tryCatch (announce 0 alice ⟨some slowMessage, true⟩ >>= answer) failed⟩
  let read₂ : Thread ChatState ChatRequest Failure ChatAnswer :=
    ⟨.markRoomRead bob (some 0), .done .markedRead⟩
  let sent₃ : Thread ChatState ChatRequest Failure ChatAnswer := ⟨.sendMessage alice greeting,
    tryCatch (announce 0 alice ⟨some nextMessage, true⟩ >>= answer) failed⟩
  have hsent : Reachable chatSystem AboveBoundaries (chatAtRest emptyRoom) ⟨w₃, [sent₁]⟩ :=
    hidle.serve trivial (hquiet rfl) (Runs.tryCatch (Runs.bind hsends answer) failed)
  have hmarked : Reachable chatSystem AboveBoundaries (chatAtRest emptyRoom) ⟨w₆, [sent₁, read₂]⟩ :=
    hsent.serve trivial (hquiet rfl) (Runs.tryCatch (Runs.bind hreads marked) failed)
  have hrun : Reachable chatSystem AboveBoundaries (chatAtRest emptyRoom)
      ⟨w₉, [sent₁, read₂, sent₃]⟩ :=
    hmarked.serve trivial (hquiet rfl) (Runs.tryCatch (Runs.bind hsends' answer) failed)
  have hlog : w₉.log = [(2, .created nextMessage), (2, .started false), (1, .markedRead 0 bob),
    (1, .looked 0 bob (some slowMessage)), (0, .created slowMessage), (0, .started false)] := rfl
  have hcovered : CoveredBy w₉ bob 0 slowMessage := by
    refine ⟨1, some slowMessage, ?_, ?_⟩
    · rw [hlog]
      simp [slowMessage, sentRow]
    · rw [hlog]
      simp [after_cons, slowMessage, sentRow]
  have huncovered : ¬ CoveredBy w₉ bob 2 nextMessage := by
    rintro ⟨reader, newest, -, hafter⟩
    rw [hlog] at hafter
    simp [after_cons, nextMessage, slowMessage, sentRow] at hafter
  exact ⟨_, hrun, hcovered, huncovered, by decide,
    unread_kept emptyRoom_ready hrun List.mem_cons_self rfl (by decide) huncovered⟩

/-! ### A slow send -/

section Runs

variable {w : ChatState} {roomId id : RowId} {createdAt : Timestamp} {text trimmed : Text}
  {recipientIds : List Uuid}

theorem performs_record (events : Database → List ChatEvent) :
    Performs pid (record events) w () (w.enter pid .keyShare [] (events w.committed)) :=
  .step () _ rfl trivial .refl

theorem performs_reading {β : Type} (read : Database → β) :
    Performs pid (look unwritten read : ChatProg β) w (read w.committed) w :=
  performs_evaluate (fun _ hrow => absurd hrow List.not_mem_nil) rfl

theorem performs_requireRoomMember (h : isRoomMember roomId userId w.committed) :
    Performs pid (requireRoomMember roomId userId) w () w :=
  (performs_reading _).bind (performs_check (require_of h))

/-- A send without a key comes to its insertion, which does not wait for any other. -/
theorem runs_insertion (htext : validateText text = .ok trimmed)
    (hmember : isRoomMember roomId userId w.committed)
    (hfirst : ¬ (activeMessageCount roomId w.committed = 0 ∧ 30 < utf16Length trimmed))
    (hinsert : insertMessage (sentRow roomId userId trimmed id createdAt) w.committed = .ok db) :
    Runs anyStep pid (sendMessage userId ⟨some roomId, text, none⟩) w
      (inTransaction [.rolledBack] (commitMessage (sentRow roomId userId trimmed id createdAt)) >>=
        announce roomId userId) (w.enter pid .keyShare [] [.started false]) := by
  let started : ChatState := w.enter pid .keyShare [] [.started false]
  let row : Message := sentRow roomId userId trimmed id createdAt
  have hinserted : Performs pid (evaluate unwritten .update (keyRows row)
      (insertOnConflictDoNothing row) (fun _ => []) : ChatProg _) started (some row) started := by
    have hread : insertOnConflictDoNothing row w.committed = .ok (some row) := by
      have hnone : ¬ w.committed.messages.any (conflicts row) := by simp [row, sentRow, conflicts]
      rw [insertOnConflictDoNothing, if_neg hnone, hinsert]
      rfl
    exact performs_evaluate (fun _ hrow => absurd hrow List.not_mem_nil) hread
  have hcreates : Runs anyStep pid (createMessage roomId userId trimmed none) started
      (inTransaction [.rolledBack] (commitMessage row)) started := by
    apply Runs.tryCatch
    apply (performs_anything createdAt).follow
    apply (performs_anything id).follow
    exact hinserted.follow .refl
  have hroom : validateUuid (some roomId) "ROOM_ID_INVALID" = .ok roomId := rfl
  have hkey : validateIdempotencyKey none = .ok none := rfl
  apply (performs_record _).follow
  apply (performs_check htext).follow
  apply (performs_check hroom).follow
  apply (performs_requireRoomMember (w := started) hmember).follow
  apply (performs_check hkey).follow
  apply (performs_pure (none : Option Message)).follow
  apply (performs_reading (w := started) (activeMessageCount roomId)).follow
  apply (performs_check (throwIf_of_not hfirst)).follow
  exact Runs.bind hcreates (announce roomId userId)

/-- The locks of the only open transaction are gone when it ends. -/
theorem release_of_alone {locks : List (Lock ChatLock)} (h : ∀ lock ∈ locks, lock.holder = pid) :
    release pid locks = [] := by
  apply List.filter_eq_nil_iff.2
  intro lock hlock
  simp [h lock hlock]

/-- The transaction of the send goes on to its end. -/
theorem performs_commitMessage (hlocks : ∀ lock ∈ w.locks, lock.holder = pid)
    (hinsert : insertMessage message w.committed = .ok db) :
    Performs pid (inTransaction [.rolledBack] (commitMessage message)) w ⟨some message, true⟩
      ⟨db, [], (pid, .created message) :: w.log⟩ := by
  let touched : ChatState := w.enter pid .noKeyUpdate [.room message.roomId] []
  have htouch : Performs pid (touchRoom (insertMessage message) message.roomId) w () touched := by
    apply performs_evaluate
    · exact fun row _ => free_of_alone hlocks
    · change (insertMessage message w.committed >>= fun _ => _) = _
      rw [hinsert]
      rfl
  have hcommit : Performs pid (commitWrites (insertMessage message) [.created message] : ChatProg _)
      touched () (touched.finish pid db [.created message]) := performs_commitWrites hinsert
  have hend : touched.finish pid db [.created message] =
      ⟨db, [], (pid, .created message) :: w.log⟩ := by
    have hreleased : release pid touched.locks = [] := release_of_alone (acquire_of_alone hlocks)
    rw [Shared.finish, hreleased]
    rfl
  rw [← hend]
  exact performs_inTransaction (htouch.bind (hcommit.bind (performs_pure _)))

theorem performs_notifyAll (pid : ℕ) (message : Message) (recipientIds : List Uuid) (w : ChatState) :
    ∃ events, Performs pid (notifyAll message recipientIds) w ()
      ⟨w.committed, w.locks, stamp pid events ++ w.log⟩ := by
  induction recipientIds generalizing w with
  | nil => exact ⟨[], .refl⟩
  | cons recipientId recipientIds ih =>
      obtain ⟨events, hrest⟩ := ih (w.enter pid .keyShare [] [.notified recipientId message])
      refine ⟨events ++ [.notified recipientId message], ?_⟩
      rw [stamp, List.map_append, List.append_assoc]
      exact (performs_record _).bind hrest

/-- The send tells the others, and nothing else in the tables changes. -/
theorem performs_announce (hdeleted : message.deletedAt = none) :
    ∃ events, Performs pid (announce roomId userId ⟨some message, true⟩) w (rowToMessage message)
      ⟨w.committed, w.locks, stamp pid events ++ w.log⟩ := by
  let reported : ChatState := w.enter pid .keyShare [] [.reported true (some message)]
  let published : ChatState := reported.enter pid .keyShare [] [.published .added message]
  obtain ⟨events, htold⟩ := performs_notifyAll pid message
    (otherRoomMemberIds roomId userId w.committed) published
  refine ⟨events ++ [.published .added message, .reported true (some message)], ?_⟩
  have htell : Performs pid (tellOthers roomId userId message) reported ()
      ⟨w.committed, w.locks, stamp pid events ++ published.log⟩ :=
    (performs_record _).bind ((performs_reading (w := published) _).bind htold)
  rw [stamp, List.map_append, List.append_assoc]
  have hundeleted : throwIf alreadyUsed (message.deletedAt ≠ none) = .ok () :=
    throwIf_of_not (by simp [hdeleted])
  apply (performs_record _).bind
  exact (performs_check hundeleted).bind (htell.bind (performs_pure _))

theorem performs_markRoomRead {newest : Message} (hlocks : ∀ lock ∈ w.locks, lock.holder = pid)
    (hmember : isRoomMember roomId userId w.committed)
    (hnewest : newestMessage roomId w.committed = some newest) :
    Performs pid (markRoomRead userId (some roomId)) w ()
      ⟨upsertReceipt (readReceipt userId newest) w.committed, [],
        (pid, .markedRead roomId userId) :: (pid, .looked roomId userId (some newest)) :: w.log⟩ := by
  let looked : ChatState := w.enter pid .keyShare [] [.looked roomId userId (some newest)]
  let locked : ChatState := looked.enter pid .noKeyUpdate [.receipt roomId userId] []
  let read : Database := upsertReceipt (readReceipt userId newest) w.committed
  have hlook : Performs pid (evaluate unwritten .keyShare (fun _ => [])
      (fun db => .ok (newestMessage roomId db)) (fun newest => [.looked roomId userId newest]) :
        ChatProg _) w (some newest) looked := by
    apply performs_evaluate fun _ hrow => absurd hrow List.not_mem_nil
    rw [← hnewest]
    rfl
  have hwrite : Performs pid (writing unwritten .noKeyUpdate (fun _ => [.receipt roomId userId])
      (fun db => .ok (upsertReceipt (readReceipt userId newest) db)) : ChatProg _) looked
      (unwritten.andThen fun db => .ok (upsertReceipt (readReceipt userId newest) db)) locked := by
    apply performs_writing (s := read) ?_ rfl
    exact fun row _ => free_of_alone hlocks
  have hcommit : Performs pid (commitWrites (unwritten.andThen fun db =>
      .ok (upsertReceipt (readReceipt userId newest) db)) [.markedRead roomId userId] : ChatProg _)
      locked () (locked.finish pid read [.markedRead roomId userId]) := performs_commitWrites rfl
  have hend : locked.finish pid read [.markedRead roomId userId] = ⟨read, [],
      (pid, .markedRead roomId userId) :: (pid, .looked roomId userId (some newest)) :: w.log⟩ := by
    have hreleased : release pid locked.locks = [] := release_of_alone (acquire_of_alone hlocks)
    rw [Shared.finish, hreleased]
    rfl
  have hroom : validateUuid (some roomId) "ROOM_ID_INVALID" = .ok roomId := rfl
  rw [← hend]
  apply (performs_check hroom).bind
  apply (performs_requireRoomMember hmember).bind
  exact performs_inTransaction (hlook.bind (hwrite.bind hcommit))

end Runs

def quickMessage : Message := sentRow 0 bob "안녕".toList 2 20

theorem validateText_greeting : validateText greeting.text = .ok "안녕".toList := by decide

/-- Bob's message is committed while Alice's is not. -/
def quickCommitted : Database := { emptyRoom with messages := [quickMessage] }

/-- Bob has read the room since. -/
def readByBob : Database := upsertReceipt (readReceipt bob quickMessage) quickCommitted

/-- Alice's message comes last. -/
def slowCommitted : Database := { readByBob with messages := [quickMessage, slowMessage] }

/-- Alice's transaction starts before Bob's and ends after Bob has read the room, and Bob's
unread count stays at zero. -/
theorem unread_lost : ∃ c : Config ChatState ChatRequest Failure ChatAnswer,
    Reachable chatSystem anyStep (chatAtRest emptyRoom) c ∧
      ∃ sender message, (sender, .created message) ∈ c.state.log ∧
        message.senderUserId = some alice ∧ ¬ CoveredBy c.state bob sender message ∧
        message ∈ c.state.committed.messages ∧ message.deletedAt = none ∧
        (rooms bob c.state.committed).map (·.unreadCount) = [0] := by
  let w : ChatState := .ofCommitted emptyRoom
  let w₁ : ChatState := w.enter 0 .keyShare [] [.started false]
  let w₂ : ChatState := ⟨quickCommitted, [], (1, .created quickMessage) :: (1, .started false) :: w₁.log⟩
  let rest : Prog ChatState ChatRequest Failure ChatMessagePayload :=
    inTransaction [.rolledBack] (commitMessage slowMessage) >>= announce 0 alice
  have hslowInserted : insertMessage slowMessage emptyRoom = .ok firstCommitted := by rfl
  have hquickInserted : insertMessage quickMessage emptyRoom = .ok quickCommitted := by rfl
  -- Alice's insertion is done, and its transaction open.
  have hslow : Runs anyStep 0 (sendMessage alice greeting) w rest w₁ :=
    runs_insertion validateText_greeting (by decide) (by decide) hslowInserted
  -- Bob's send starts later, and ends.
  have hinsertion : Runs anyStep 1 (sendMessage bob greeting) w₁
      (inTransaction [.rolledBack] (commitMessage quickMessage) >>= announce 0 bob)
      (w₁.enter 1 .keyShare [] [.started false]) :=
    runs_insertion validateText_greeting (by decide) (by decide) hquickInserted
  have hcommit : Performs 1 (inTransaction [.rolledBack] (commitMessage quickMessage))
      (w₁.enter 1 .keyShare [] [.started false]) ⟨some quickMessage, true⟩ w₂ :=
    performs_commitMessage (fun _ hlock => nomatch hlock) hquickInserted
  obtain ⟨events, hannounce⟩ : ∃ events, Performs 1 (announce 0 bob ⟨some quickMessage, true⟩) w₂
      (rowToMessage quickMessage) ⟨w₂.committed, w₂.locks, stamp 1 events ++ w₂.log⟩ :=
    performs_announce rfl
  let w₃ : ChatState := ⟨quickCommitted, [], stamp 1 events ++ w₂.log⟩
  have hquick : Performs 1 (sendMessage bob greeting) w₁ (rowToMessage quickMessage) w₃ :=
    hinsertion.trans (hcommit.bind hannounce)
  -- Bob reads the room up to his own message.
  let w₄ : ChatState := ⟨readByBob, [],
    (2, .markedRead 0 bob) :: (2, .looked 0 bob (some quickMessage)) :: w₃.log⟩
  have hmember : isRoomMember 0 bob quickCommitted := by decide
  have hread : Performs 2 (markRoomRead bob (some 0)) w₃ () w₄ :=
    performs_markRoomRead (fun _ hlock => nomatch hlock) hmember (by rfl)
  -- Alice's transaction ends.
  let w₅ : ChatState := ⟨slowCommitted, [], (0, .created slowMessage) :: w₄.log⟩
  have hend : Runs anyStep 0 rest w₄ (announce 0 alice ⟨some slowMessage, true⟩) w₅ :=
    Performs.follow (performs_commitMessage (fun _ hlock => nomatch hlock) (by rfl)) .refl
  let answer : ChatMessagePayload → ChatProg ChatAnswer := fun payload => pure (.message payload)
  let marked : Unit → ChatProg ChatAnswer := fun _ => pure .markedRead
  let failed : Failure → ChatProg ChatAnswer := fun failure => pure (.failed failure)
  let open₁ : Thread ChatState ChatRequest Failure ChatAnswer :=
    ⟨.sendMessage alice greeting, tryCatch (rest >>= answer) failed⟩
  let sent₂ : Thread ChatState ChatRequest Failure ChatAnswer :=
    ⟨.sendMessage bob greeting, .done (.message (rowToMessage quickMessage))⟩
  let read₃ : Thread ChatState ChatRequest Failure ChatAnswer :=
    ⟨.markRoomRead bob (some 0), .done .markedRead⟩
  have hfirst : Reachable chatSystem anyStep (chatAtRest emptyRoom) ⟨w₁, [open₁]⟩ :=
    Reachable.serve Relation.ReflTransGen.refl trivial trivial
      (Runs.tryCatch (Runs.bind hslow answer) failed)
  have hsecond : Reachable chatSystem anyStep (chatAtRest emptyRoom) ⟨w₃, [open₁, sent₂]⟩ :=
    hfirst.serve trivial trivial (Runs.tryCatch (Runs.bind hquick answer) failed)
  have hthird : Reachable chatSystem anyStep (chatAtRest emptyRoom) ⟨w₄, [open₁, sent₂, read₃]⟩ :=
    hsecond.serve trivial trivial (Runs.tryCatch (Runs.bind hread marked) failed)
  have hlast := (Runs.tryCatch (Runs.bind hend answer) failed).reachable (S := chatSystem)
    [open₁, sent₂, read₃] rfl
  have hcount : (rooms bob slowCommitted).map (·.unreadCount) = [0] := by decide
  refine ⟨_, hthird.trans hlast, 0, slowMessage, List.mem_cons_self, rfl, ?_, ?_, rfl, hcount⟩
  · -- No one has looked at the room since.
    intro hcovered
    obtain ⟨reader, newest, -, hafter⟩ := hcovered
    have hmem : (0, ChatEvent.created slowMessage) ∈ w₄.log := by
      rcases after_cons.1 hafter with hold | ⟨-, hmem⟩
      · exact hold.earlier_mem
      · exact hmem
    have hlog : w₄.log = stamp 2 [.markedRead 0 bob, .looked 0 bob (some quickMessage)] ++
        (stamp 1 events ++ (stamp 1 [.created quickMessage, .started false] ++
          stamp 0 [.started false])) := rfl
    have hown : own 0 w₄.log = [.started false] := by
      rw [hlog, own_stamp_append_other (by decide), own_stamp_append_other (by decide),
        own_stamp_append_other (by decide)]
      rfl
    have hstarted := mem_own.2 hmem
    rw [hown] at hstarted
    exact absurd hstarted (by decide)
  · exact List.mem_cons_of_mem _ List.mem_cons_self

end ChatTea.Chat
