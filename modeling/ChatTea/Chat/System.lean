import ChatTea.Chat.Statements

/-!
# Runs of the chat

Any number of calls of `ChatService`, their statements in any order, with failures of the
database and threads that stop at any point. What a step does to messages, receipts and the
history is summed up once; the results on sends and on unread messages are read off from it.

## Main definitions

* `SameMessage`, `KeepsMessages` — a message stays what it is, and deleted
* `ChatChange` — what a step does
* `Told` — what one thread may have done so far
* `ChatInvariant`, `chatLogic` — what holds in every run, with what the others keep

## Main results

* `ChatChange.invariant` — a step keeps the invariant
* `holds_evaluating`, `holds_look`, `holds_committing` — one rule for each kind of statement
-/

namespace ChatTea.Chat

open History Interleaving ReadCommitted RowLocks Table Transaction

variable {pid : ℕ} {w before after : ChatState} {db db' db'' : Database} {row row' message : Message}
  {roomId : RowId} {senderUserId userId : Uuid} {idempotencyKey : String}

/-! ### Messages that stay -/

/-- A message after edits and deletions. -/
structure SameMessage (row row' : Message) : Prop where
  id : row'.id = row.id
  roomId : row'.roomId = row.roomId
  senderUserId : row'.senderUserId = row.senderUserId
  idempotencyKey : row'.idempotencyKey = row.idempotencyKey
  createdAt : row'.createdAt = row.createdAt

theorem SameMessage.refl (row : Message) : SameMessage row row := ⟨rfl, rfl, rfl, rfl, rfl⟩

theorem SameMessage.trans {row'' : Message} (h : SameMessage row row') (h' : SameMessage row' row'') :
    SameMessage row row'' :=
  ⟨h'.id.trans h.id, h'.roomId.trans h.roomId, h'.senderUserId.trans h.senderUserId,
    h'.idempotencyKey.trans h.idempotencyKey, h'.createdAt.trans h.createdAt⟩

theorem SameMessage.hasKey (h : SameMessage row row') :
    hasKey roomId senderUserId idempotencyKey row' = hasKey roomId senderUserId idempotencyKey row := by
  unfold Chat.hasKey
  rw [h.roomId, h.senderUserId, h.idempotencyKey]

theorem SameMessage.position (h : SameMessage row row') : position row' = position row := by
  unfold Chat.position
  rw [h.id, h.createdAt]

/-- Every message stays, and a deleted one stays deleted. -/
def KeepsMessages (db db' : Database) : Prop :=
  ∀ row ∈ db.messages, ∃ row' ∈ db'.messages, SameMessage row row' ∧
    (row.deletedAt ≠ none → row'.deletedAt ≠ none)

theorem KeepsMessages.of_subset (h : ∀ row ∈ db.messages, row ∈ db'.messages) :
    KeepsMessages db db' := fun row hrow => ⟨row, h row hrow, .refl row, fun hdeleted => hdeleted⟩

theorem KeepsMessages.refl (db : Database) : KeepsMessages db db := .of_subset fun _ hrow => hrow

theorem KeepsMessages.trans (h : KeepsMessages db db') (h' : KeepsMessages db' db'') :
    KeepsMessages db db'' := by
  intro row hrow
  obtain ⟨row', hrow', hsame, hdeleted⟩ := h row hrow
  obtain ⟨row'', hrow'', hsame', hdeleted'⟩ := h' row' hrow'
  exact ⟨row'', hrow'', hsame.trans hsame', fun hd => hdeleted' (hdeleted hd)⟩

theorem KeepsMessages.updateWhere {cond : Message → Bool} {set : Message → Message}
    (hset : ∀ row, SameMessage row (set row)) (hcond : ∀ row, cond row → row.deletedAt = none)
    (hmessages : db'.messages = updateWhere cond set db.messages) : KeepsMessages db db' := by
  intro row hrow
  rw [hmessages]
  by_cases hwritten : cond row
  · have hmem : set row ∈ Table.updateWhere cond set db.messages :=
      mem_updateWhere.2 (Or.inl ⟨row, hrow, hwritten, rfl⟩)
    exact ⟨set row, hmem, hset row, fun hdeleted => absurd (hcond row hwritten) hdeleted⟩
  · exact ⟨row, mem_updateWhere.2 (Or.inr ⟨hrow, hwritten⟩), .refl row, fun hdeleted => hdeleted⟩

/-- The message is stored, edited or deleted since or not. -/
def Stored (message : Message) (db : Database) : Prop := ∃ row ∈ db.messages, SameMessage message row

theorem Stored.kept (h : Stored message db) (hkeeps : KeepsMessages db db') : Stored message db' := by
  obtain ⟨row, hrow, hsame⟩ := h
  obtain ⟨row', hrow', hsame', -⟩ := hkeeps row hrow
  exact ⟨row', hrow', hsame.trans hsame'⟩

theorem isKeyDeleted_kept (h : isKeyDeleted roomId senderUserId idempotencyKey db)
    (hkeeps : KeepsMessages db db') : isKeyDeleted roomId senderUserId idempotencyKey db' := by
  simp only [isKeyDeleted, List.any_eq_true, decide_eq_true_eq] at h ⊢
  obtain ⟨row, hrow, hkey, hdeleted⟩ := h
  obtain ⟨row', hrow', hsame, hdeleted'⟩ := hkeeps row hrow
  exact ⟨row', hrow', by rwa [hsame.hasKey], hdeleted' hdeleted⟩

/-! ### What a thread has done -/

/-- An entry that tells no one of a new message. -/
def ChatEvent.isSilent : ChatEvent → Bool
  | .created _ => false
  | .reported true _ => false
  | .published .added _ => false
  | .notified _ _ => false
  | _ => true

/-- The entry of a `createMessage` that commits a new row of the key. -/
def isCreated (roomId : RowId) (senderUserId : Uuid) (idempotencyKey : String) : ChatEvent → Bool
  | .created message => hasKey roomId senderUserId idempotencyKey message
  | _ => false

/-- The entry of a `createMessage` that reports `created: true` with a row of the key. -/
def isReported (roomId : RowId) (senderUserId : Uuid) (idempotencyKey : String) : ChatEvent → Bool
  | .reported true (some message) => hasKey roomId senderUserId idempotencyKey message
  | _ => false

def isNotified (roomId : RowId) (senderUserId : Uuid) (idempotencyKey : String)
    (recipientId : Uuid) : ChatEvent → Bool
  | .notified userId message => userId = recipientId ∧ hasKey roomId senderUserId idempotencyKey message
  | _ => false

/-- What a send has done when its `createMessage` has reported a new message. -/
def reportedEvents (message : Message) : List ChatEvent :=
  [.reported true (some message), .created message, .started false]

/-- What a send has done when it has told some recipients of its new message. -/
def toldEvents (message : Message) (recipientIds : List Uuid) : List ChatEvent :=
  recipientIds.map (.notified · message) ++ .published .added message :: reportedEvents message

/-- What one thread may have done so far, the newest first. -/
inductive Told : List ChatEvent → Prop
  | silent {events : List ChatEvent} (h : ∀ event ∈ events, event.isSilent) : Told events
  | created (message : Message) : Told [.created message, .started false]
  | reported (message : Message) : Told (reportedEvents message)
  | announced (message : Message) {recipientIds : List Uuid} (h : recipientIds.Nodup) :
      Told (toldEvents message recipientIds)

variable {events : List ChatEvent}

/-- Every message that was created is reported as new. -/
def Reported (events : List ChatEvent) : Prop :=
  ∀ message, .created message ∈ events → .reported true (some message) ∈ events

/-- Every message that was created is reported as new, and published. -/
def Announced (events : List ChatEvent) : Prop :=
  ∀ message, .created message ∈ events →
    .reported true (some message) ∈ events ∧ .published .added message ∈ events

theorem Announced.reported (h : Announced events) : Reported events :=
  fun message hcreated => (h message hcreated).1

theorem announced_toldEvents (message : Message) (recipientIds : List Uuid) :
    Announced (toldEvents message recipientIds) := by
  intro other hcreated
  obtain rfl : other = message := by simpa [toldEvents, reportedEvents] using hcreated
  simp [toldEvents, reportedEvents]

theorem announced_of_silent (h : ∀ event ∈ events, event.isSilent) : Announced events :=
  fun _ hcreated => absurd (h _ hcreated) Bool.false_ne_true

theorem countP_eq_zero_of_silent {kind : ChatEvent → Bool} (h : ∀ event ∈ events, event.isSilent)
    (hkind : ∀ event, kind event → ¬ event.isSilent) : events.countP kind = 0 :=
  List.countP_eq_zero.2 fun event hmem hevent => hkind event hevent (h event hmem)

theorem isNotified_loud (event : ChatEvent)
    (h : isNotified roomId senderUserId idempotencyKey userId event) : ¬ event.isSilent := by
  unfold isNotified at h
  split at h
  · simp [ChatEvent.isSilent]
  · cases h

theorem countP_isReported_toldEvents {recipientIds : List Uuid} :
    (toldEvents message recipientIds).countP (isReported roomId senderUserId idempotencyKey) =
      if hasKey roomId senderUserId idempotencyKey message then 1 else 0 := by
  by_cases hkey : hasKey roomId senderUserId idempotencyKey message <;>
    simp [toldEvents, reportedEvents, List.countP_append, List.countP_map, Function.comp_def,
      isReported, hkey]

/-- A thread notifies a recipient of a new message at most once. -/
theorem Told.countP_isNotified_le (h : Told events) :
    events.countP (isNotified roomId senderUserId idempotencyKey userId) ≤
      events.countP (isReported roomId senderUserId idempotencyKey) := by
  cases h with
  | silent h =>
      rw [countP_eq_zero_of_silent h isNotified_loud]
      exact Nat.zero_le _
  | created message => simp [isNotified]
  | reported message => simp [reportedEvents, isNotified]
  | @announced message recipientIds h =>
      have hone : recipientIds.countP (fun recipientId => recipientId = userId) ≤ 1 := by
        have := List.nodup_iff_count_le_one.1 h userId
        simpa [List.count, beq_eq_decide] using this
      rw [countP_isReported_toldEvents]
      by_cases hkey : hasKey roomId senderUserId idempotencyKey message
      · simpa [toldEvents, reportedEvents, List.countP_append, List.countP_map, Function.comp_def,
          isNotified, List.countP_cons, hkey] using hone
      · simp [toldEvents, reportedEvents, List.countP_append, List.countP_map, Function.comp_def,
          isNotified, hkey]

/-! ### What a step does -/

/-- What a step does to messages, receipts and the history. -/
inductive ChatChange (pid : ℕ) (before after : ChatState) : Prop
  /-- Nothing of it is seen in the tables. -/
  | quiet (events : List ChatEvent) (log : after.log = stamp pid events ++ before.log)
      (creates : ∀ message, .created message ∉ events)
      (messages : after.committed.messages = before.committed.messages)
      (receipts : after.committed.readReceipts = before.committed.readReceipts)
  | created (message : Message) (log : after.log = stamp pid [.created message] ++ before.log)
      (fresh : ∀ old ∈ before.committed.messages, old.id ≠ message.id)
      (unused : ∀ old ∈ before.committed.messages, ¬ conflicts message old)
      (messages : after.committed.messages = before.committed.messages ++ [message])
      (receipts : after.committed.readReceipts = before.committed.readReceipts)
  /-- The sender edits or deletes messages that were not deleted. -/
  | updated (cond : Message → Bool) (set : Message → Message) (log : after.log = before.log)
      (same : ∀ row, SameMessage row (set row)) (undeleted : ∀ row, cond row → row.deletedAt = none)
      (messages : after.committed.messages = updateWhere cond set before.committed.messages)
      (receipts : after.committed.readReceipts = before.committed.readReceipts)
  | read (roomId : RowId) (userId : Uuid) (newest : Message)
      (log : after.log = stamp pid [.markedRead roomId userId] ++ before.log)
      (looked : (pid, .looked roomId userId (some newest)) ∈ before.log)
      (room : newest.roomId = roomId)
      (messages : after.committed.messages = before.committed.messages)
      (receipts : after.committed.readReceipts =
        (upsertReceipt (readReceipt userId newest) before.committed).readReceipts)

/-- A step changes no membership, and what a thread may have done stays possible. -/
structure ChatStep (pid : ℕ) (before after : ChatState) : Prop where
  change : ChatChange pid before after
  members : after.committed.roomMembers = before.committed.roomMembers
  told : Told (own pid before.log) → Told (own pid after.log)

theorem ChatChange.log (h : ChatChange pid before after) :
    ∃ events, after.log = stamp pid events ++ before.log := by
  cases h with
  | quiet events log => exact ⟨events, log⟩
  | created message log => exact ⟨_, log⟩
  | updated cond set log => exact ⟨[], log⟩
  | read roomId userId newest log => exact ⟨_, log⟩

theorem ChatChange.keepsMessages (h : ChatChange pid before after) :
    KeepsMessages before.committed after.committed := by
  cases h with
  | quiet events log creates messages =>
      exact .of_subset fun row hrow => by rwa [messages]
  | created message log fresh unused messages =>
      apply KeepsMessages.of_subset
      intro row hrow
      rw [messages]
      exact List.mem_append_left _ hrow
  | updated cond set log same undeleted messages => exact .updateWhere same undeleted messages
  | read roomId userId newest log looked room messages =>
      exact .of_subset fun row hrow => by rwa [messages]

/-- What holds in every run that starts with some messages. -/
structure ChatInvariant (start : Database) (w : ChatState) : Prop where
  ids : UniqueKey (fun row : Message => row.id) w.committed.messages
  keys : ∀ roomId senderUserId idempotencyKey,
    w.committed.messages.countP (hasKey roomId senderUserId idempotencyKey) ≤ 1
  members : w.committed.roomMembers.Nodup
  counted : ∀ roomId senderUserId idempotencyKey,
    count (isCreated roomId senderUserId idempotencyKey) w.log +
        start.messages.countP (hasKey roomId senderUserId idempotencyKey) =
      w.committed.messages.countP (hasKey roomId senderUserId idempotencyKey)
  stored : ∀ {pid message}, (pid, .created message) ∈ w.log → Stored message w.committed
  told : ∀ pid, Told (own pid w.log)

variable {start : Database}

/-- A new message is the first one of its key. -/
theorem countP_hasKey_eq_zero (hunused : ∀ old ∈ db.messages, ¬ conflicts message old)
    (hkey : hasKey roomId senderUserId idempotencyKey message) :
    db.messages.countP (hasKey roomId senderUserId idempotencyKey) = 0 := by
  apply List.countP_eq_zero.2
  intro old hold holdkey
  exact hunused old hold (conflicts_iff.2 ⟨_, _, _, hkey, holdkey⟩)

/-- An update of messages keeps the number of those with a key. -/
theorem countP_hasKey_updateWhere {cond : Message → Bool} {set : Message → Message}
    (hset : ∀ row, SameMessage row (set row)) (rows : List Message) :
    (updateWhere cond set rows).countP (hasKey roomId senderUserId idempotencyKey) =
      rows.countP (hasKey roomId senderUserId idempotencyKey) := by
  unfold updateWhere
  rw [List.countP_map]
  congr 1
  funext row
  simp only [Function.comp_apply]
  split
  · exact (hset row).hasKey
  · rfl

/-- The other threads have done what they had. -/
theorem ChatStep.told_all (h : ChatStep pid before after) (htold : ∀ pid, Told (own pid before.log))
    (other : ℕ) : Told (own other after.log) := by
  by_cases hother : other = pid
  · subst hother
    exact h.told (htold other)
  · obtain ⟨events, hlog⟩ := h.change.log
    rw [hlog, own_stamp_append_other hother]
    exact htold other

/-- A step keeps the invariant. -/
theorem ChatStep.invariant (h : ChatStep pid before after) (hinv : ChatInvariant start before) :
    ChatInvariant start after := by
  have htold := h.told_all hinv.told
  have hmembers : after.committed.roomMembers.Nodup := by
    rw [h.members]
    exact hinv.members
  have hkept := h.change.keepsMessages
  cases h.change with
  | quiet events log creates messages receipts =>
      have hnone (roomId senderUserId idempotencyKey) :
          events.countP (isCreated roomId senderUserId idempotencyKey) = 0 := by
        apply List.countP_eq_zero.2
        intro event hevent hcreated
        cases event with
        | created message => exact creates message hevent
        | _ => cases hcreated
      refine ⟨by rw [messages]; exact hinv.ids, by rw [messages]; exact hinv.keys, hmembers, ?_, ?_,
        htold⟩
      · intro roomId senderUserId idempotencyKey
        rw [log, messages, count_stamp_append, hnone, Nat.zero_add]
        exact hinv.counted _ _ _
      · intro other message hmem
        rw [log, List.mem_append, mem_stamp] at hmem
        rcases hmem with ⟨-, hevent⟩ | hold
        · exact absurd hevent (creates message)
        · exact (hinv.stored hold).kept hkept
  | created message log fresh unused messages receipts =>
      have hcount (roomId senderUserId idempotencyKey) :
          after.committed.messages.countP (hasKey roomId senderUserId idempotencyKey) =
            before.committed.messages.countP (hasKey roomId senderUserId idempotencyKey) +
              if hasKey roomId senderUserId idempotencyKey message then 1 else 0 := by
        rw [messages, List.countP_append, List.countP_singleton]
      refine ⟨by rw [messages]; exact hinv.ids.append fresh, ?_, hmembers, ?_, ?_, htold⟩
      · intro roomId senderUserId idempotencyKey
        rw [hcount]
        split
        next hkey => rw [countP_hasKey_eq_zero unused hkey]
        next => exact hinv.keys _ _ _
      · intro roomId senderUserId idempotencyKey
        have hcounted := hinv.counted roomId senderUserId idempotencyKey
        rw [hcount, log, count_stamp_append, List.countP_singleton]
        change (if hasKey roomId senderUserId idempotencyKey message then 1 else 0) + _ + _ = _
        omega
      · intro other stored hmem
        rw [log, List.mem_append, mem_stamp] at hmem
        rcases hmem with ⟨-, hevent⟩ | hold
        · obtain rfl : stored = message := by simpa using hevent
          rw [Stored, messages]
          exact ⟨stored, by simp, .refl stored⟩
        · exact (hinv.stored hold).kept hkept
  | updated cond set log same undeleted messages receipts =>
      refine ⟨?_, ?_, hmembers, ?_, ?_, htold⟩
      · rw [messages]
        exact hinv.ids.updateWhere fun row => (same row).id
      · intro roomId senderUserId idempotencyKey
        rw [messages, countP_hasKey_updateWhere same]
        exact hinv.keys _ _ _
      · intro roomId senderUserId idempotencyKey
        rw [log, messages, countP_hasKey_updateWhere same]
        exact hinv.counted _ _ _
      · intro other message hmem
        rw [log] at hmem
        exact (hinv.stored hmem).kept hkept
  | read roomId userId newest log looked room messages receipts =>
      refine ⟨by rw [messages]; exact hinv.ids, by rw [messages]; exact hinv.keys, hmembers, ?_, ?_,
        htold⟩
      · intro roomId senderUserId idempotencyKey
        rw [log, messages, count_stamp_append, List.countP_singleton]
        change 0 + _ + _ = _
        rw [Nat.zero_add]
        exact hinv.counted _ _ _
      · intro other message hmem
        rw [log, List.mem_append, mem_stamp] at hmem
        rcases hmem with ⟨-, hevent⟩ | hold
        · simp at hevent
        · exact (hinv.stored hold).kept hkept

/-! ### The system -/

/-- The rest of the service: messages, receipts and the history are left alone. -/
structure OtherWrites (before after : ChatState) : Prop where
  messages : after.committed.messages = before.committed.messages
  receipts : after.committed.readReceipts = before.committed.readReceipts
  members : after.committed.roomMembers.Nodup
  log : after.log = before.log

def chatSystem : System ChatState ChatRequest Failure ChatAnswer where
  code := chatCode
  accepts _ := True
  environment := OtherWrites
  rollback pid w := w.finish pid w.committed []

/-- The service at rest. -/
def chatAtRest (start : Database) : Config ChatState ChatRequest Failure ChatAnswer :=
  .idle (.ofCommitted start)

/-- What the other threads keep for one thread. -/
structure ChatRely (pid : ℕ) (before after : ChatState) : Prop where
  own : own pid after.log = own pid before.log
  messages : KeepsMessages before.committed after.committed

/-- The failures of a send that does not come to look its key up. -/
inductive RefusedEarlier (input : SendMessageInput) : Failure → Prop
  | text {failure : Failure} (h : validateText input.text = .error failure) :
      RefusedEarlier input failure
  | room (h : input.roomId = none) : RefusedEarlier input (.error "ROOM_ID_INVALID")
  | member : RefusedEarlier input notRoomMember
  | key {failure : Failure} (h : validateIdempotencyKey input.idempotencyKey = .error failure) :
      RefusedEarlier input failure
  | rejected (name : String) : RefusedEarlier input (.constraint name)

/-- The payload of a stored message. -/
structure Describes (payload : ChatMessagePayload) (row : Message) : Prop where
  id : payload.id = row.id
  roomId : payload.roomId = row.roomId
  senderUserId : payload.senderUserId = row.senderUserId
  idempotencyKey : payload.idempotencyKey = row.idempotencyKey
  createdAt : payload.createdAt = row.createdAt

/-- A call of the given room, sender and key. -/
structure SendsWith (userId : Uuid) (input : SendMessageInput) (row : Message) : Prop where
  room : input.roomId = some row.roomId
  sender : row.senderUserId = some userId
  key : validateIdempotencyKey input.idempotencyKey = .ok row.idempotencyKey

/-- What a send has returned, when it has returned. -/
def Sent (userId : Uuid) (input : SendMessageInput) (pid : ℕ) (w : ChatState) : ChatAnswer → Prop
  | .message payload => .started true ∉ own pid w.log ∧ Announced (own pid w.log) ∧
      ∃ row ∈ w.committed.messages, SendsWith userId input row ∧ Describes payload row
  | .failed failure => Reported (own pid w.log) ∧
      (.started true ∈ own pid w.log → RefusedEarlier input failure ∨ failure = alreadyUsed)
  | _ => False

/-- The logic of the chat. -/
def chatLogic (start : Database) : Logic ChatState ChatRequest Failure ChatAnswer where
  invariant := ChatInvariant start
  rely := ChatRely
  guarantee _ := ChatStep
  allowed _ _ := True
  requires _ _ := True
  ensures request pid answer w :=
    match request with
    | .sendMessage userId input => Sent userId input pid w answer
    | _ => ∀ event ∈ own pid w.log, event.isSilent
  fresh pid w := own pid w.log = []
  rely_refl _ w := ⟨rfl, .refl w.committed⟩
  rely_trans h h' := ⟨h'.own.trans h.own, h.messages.trans h'.messages⟩
  guarantee_refl _ _ _ := ⟨.quiet [] rfl (fun _ => List.not_mem_nil) rfl rfl, rfl, id⟩
  rely_of_guarantee := by
    intro request pid other before after hother h
    obtain ⟨events, hlog⟩ := h.change.log
    refine ⟨?_, h.change.keepsMessages⟩
    rw [hlog, own_stamp_append_other hother]
  fresh_of_rely h hfresh := h.own.trans hfresh

/-! ### Rules -/

variable {α β : Type} {request : ChatRequest} {pending : Pending Database Failure} {mode : Mode}
  {rows : Database → List ChatLock} {A : ChatState → Prop}

/-- A fact that the other threads keep, and the thread itself where it does nothing. -/
def Lasting (pid : ℕ) (A : ChatState → Prop) : Prop :=
  ∀ ⦃before after⦄, ChatRely pid before after → A before → A after

theorem Lasting.stable (hA : Lasting pid A) : (chatLogic start).Stable pid A :=
  fun _ _ hrely _ h => hA hrely h

theorem lasting_own (did : List ChatEvent → Prop) : Lasting pid fun w => did (own pid w.log) := by
  intro before after hrely h
  rwa [hrely.own]

theorem Lasting.and {B : ChatState → Prop} (hA : Lasting pid A) (hB : Lasting pid B) :
    Lasting pid fun w => A w ∧ B w := fun _ _ hrely h => ⟨hA hrely h.1, hB hrely h.2⟩

/-- A step that is not seen in the tables. -/
theorem ChatStep.of_quiet (log : after.log = stamp pid events ++ before.log)
    (creates : ∀ message, .created message ∉ events)
    (messages : after.committed.messages = before.committed.messages)
    (receipts : after.committed.readReceipts = before.committed.readReceipts)
    (members : after.committed.roomMembers = before.committed.roomMembers)
    (told : Told (own pid before.log) → Told (events ++ own pid before.log)) :
    ChatStep pid before after := by
  refine ⟨.quiet events log creates messages receipts, members, fun htold => ?_⟩
  rw [log, own_stamp_append_self]
  exact told htold

/-- A step that does nothing of its own. -/
theorem ChatRely.of_same (log : after.log = before.log)
    (messages : after.committed.messages = before.committed.messages) : ChatRely pid before after := by
  refine ⟨by rw [log], .of_subset fun row hrow => ?_⟩
  rwa [messages]

/-- A statement without an entry: what it returns is read off the tables. -/
theorem holds_evaluating {read : Database → Except Failure β} {B : β → ChatState → Prop}
    (hA : Lasting pid A) (hB : ∀ value, Lasting pid (B value)) (h : A w)
    (hread : ∀ before value, A before → ChatInvariant start before →
      (pending before.committed >>= read) = .ok value → B value before) :
    (chatLogic start).Holds request pid (evaluate pending mode rows read fun _ => []) B
      (fun _ => A) w := by
  apply holds_evaluate A hA.stable h
  · intro before value hbefore hinv _ hvalue
    have hlog : (before.enter pid mode (rows before.committed) []).log = stamp pid [] ++ before.log :=
      rfl
    have hstep : ChatStep pid before (before.enter pid mode (rows before.committed) []) :=
      .of_quiet hlog (fun _ => List.not_mem_nil) rfl rfl rfl id
    have hsame : ChatRely pid before (before.enter pid mode (rows before.committed) []) :=
      .of_same rfl rfl
    have hvalue := hB value hsame (hread before value hbefore hinv hvalue)
    exact ⟨hstep.invariant hinv, hstep, (hB value).stable.later hvalue⟩
  · intro before failure hbefore _ _
    exact hA.stable.later hbefore

/-- A statement that locks nothing fails only where the database rejects it. -/
theorem holds_look {read : Database → β} {B : β → ChatState → Prop} (hA : Lasting pid A)
    (hB : ∀ value, Lasting pid (B value)) (h : A w)
    (hread : ∀ before, A before → ChatInvariant start before → B (read before.committed) before) :
    (chatLogic start).Holds request pid (look unwritten read) B
      (fun failure s => A s ∧ ∃ name, failure = .constraint name) w := by
  apply holds_evaluate A hA.stable h
  · intro before value hbefore hinv _ hvalue
    obtain rfl : read before.committed = value := Except.ok.inj hvalue
    have hlog : (before.enter pid .keyShare [] []).log = stamp pid [] ++ before.log := rfl
    have hstep : ChatStep pid before (before.enter pid .keyShare [] []) :=
      .of_quiet hlog (fun _ => List.not_mem_nil) rfl rfl rfl id
    have hsame : ChatRely pid before (before.enter pid .keyShare [] []) := .of_same rfl rfl
    have hvalue := hB _ hsame (hread before hbefore hinv)
    exact ⟨hstep.invariant hinv, hstep, (hB _).stable.later hvalue⟩
  · intro before failure hbefore _ hfailure later hrely _
    rcases hfailure with hthrown | hrejected
    · cases hthrown
    · exact ⟨hA hrely hbefore, hrejected⟩

/-- A program, and then the rest. -/
theorem holds_next {first : ChatProg β} {rest : β → ChatProg α} {B : β → ChatState → Prop}
    {T throws : Failure → ChatState → Prop} {returns : α → ChatState → Prop}
    (hfirst : (chatLogic start).Holds request pid first B T w)
    (hthrown : ∀ failure s, T failure s → throws failure s)
    (hrest : ∀ value s, B value s →
      (chatLogic start).Holds request pid (rest value) returns throws s) :
    (chatLogic start).Holds request pid (first >>= rest) returns throws w :=
  Logic.Holds.bind (hfirst.mono (fun value s _ => hrest value s) fun failure s _ => hthrown failure s)

/-- A check that fails leaves everything as it is. -/
theorem holds_check {outcome : Except Failure β} (hA : Lasting pid A) (h : A w) :
    (chatLogic start).Holds request pid (MonadExcept.ofExcept outcome : ChatProg β)
      (fun value s => A s ∧ outcome = .ok value) (fun failure s => A s ∧ outcome = .error failure) w := by
  cases outcome with
  | ok value => exact Logic.holds_pure fun _ hrely _ => ⟨hA hrely h, rfl⟩
  | error failure => exact Logic.holds_throw fun _ hrely _ => ⟨hA hrely h, rfl⟩

/-- An entry in the history. -/
theorem holds_record {entries : Database → List ChatEvent} {B : Unit → ChatState → Prop}
    (hA : Lasting pid A) (hB : ∀ value, Lasting pid (B value)) (h : A w)
    (hcreates : ∀ db message, .created message ∉ entries db)
    (htold : ∀ before, A before → Told (own pid before.log) →
      Told (entries before.committed ++ own pid before.log))
    (hentered : ∀ before, A before → ChatInvariant start before →
      B () (before.enter pid .keyShare [] (entries before.committed)))
    {throws : Failure → ChatState → Prop} :
    (chatLogic start).Holds request pid (record entries) B throws w := by
  apply Logic.holds_step A hA.stable h
  intro before value after hbefore hinv hact _
  subst hact
  have hstep : ChatStep pid before (before.enter pid .keyShare [] (entries before.committed)) :=
    .of_quiet rfl (hcreates _) rfl rfl rfl (htold before hbefore)
  exact ⟨hstep.invariant hinv, hstep,
    Logic.holds_pure ((hB value).stable.later (hentered before hbefore hinv))⟩

/-- The end of a transaction that has written nothing. -/
theorem holds_ending (hA : Lasting pid A) (h : A w) :
    (chatLogic start).Holds request pid (commitWrites unwritten []) (fun _ => A) (fun _ => A) w := by
  apply holds_commitWrites A hA.stable h
  · intro before s hbefore hinv hwrites _
    obtain rfl : before.committed = s := Except.ok.inj hwrites
    have hlog : (before.finish pid before.committed []).log = stamp pid [] ++ before.log := rfl
    have hstep : ChatStep pid before (before.finish pid before.committed []) :=
      .of_quiet hlog (fun _ => List.not_mem_nil) rfl rfl rfl id
    have hsame : ChatRely pid before (before.finish pid before.committed []) := .of_same rfl rfl
    exact ⟨hstep.invariant hinv, hstep, hA.stable.later (hA hsame hbefore)⟩
  · intro before failure hbefore _ _
    exact hA.stable.later hbefore

/-- A transaction that is rolled back has told no one of anything. -/
theorem holds_transaction {body : ChatProg α} {B : α → ChatState → Prop}
    (hA : Lasting pid fun w => A w ∧ ∀ event ∈ own pid w.log, event.isSilent)
    (hbody : (chatLogic start).Holds request pid body B
      (fun _ s => A s ∧ ∀ event ∈ own pid s.log, event.isSilent) w)
    {throws : Failure → ChatState → Prop}
    (hthrows : ∀ before failure, A before →
      (chatLogic start).Later pid (throws failure) (before.finish pid before.committed [.rolledBack])) :
    (chatLogic start).Holds request pid (inTransaction [.rolledBack] body) B throws w := by
  apply holds_inTransaction hbody fun _ => hA.stable
  intro before failure hinv hthrown
  have htold : Told (.rolledBack :: own pid before.log) := by
    apply Told.silent
    intro event hevent
    rcases List.mem_cons.1 hevent with rfl | hold
    · rfl
    · exact hthrown.2 event hold
  have hlog : (before.finish pid before.committed [.rolledBack]).log =
      stamp pid [.rolledBack] ++ before.log := rfl
  have hstep : ChatStep pid before (before.finish pid before.committed [.rolledBack]) :=
    .of_quiet hlog (by simp) rfl rfl rfl fun _ => htold
  exact ⟨hstep.invariant hinv, hstep, hthrows before failure hthrown.1⟩

end ChatTea.Chat
