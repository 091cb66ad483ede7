import ChatTea.Chat.System

/-!
# Every call of the chat

Each call of `chatCode` keeps the invariant of the chat in every step, next to any others.
A send either starts while the row of its key is deleted, and is refused; or it goes on, and
tells the others of a message at most once.

## Main results

* `holds_updateMessage`, `holds_markAsRead` — edits, deletions and reads
* `holds_createMessage`, `holds_announce` — the two halves of a send
* `holds_sendMessage` — a send, as it has started
* `chatLogic_sound` — every call is verified
-/

namespace ChatTea.Chat

open History Interleaving ReadCommitted RowLocks Table Transaction

variable {pid : ℕ} {w before after : ChatState} {start db : Database} {message : Message}
  {roomId : RowId} {userId : Uuid} {request : ChatRequest} {A : ChatState → Prop} {α : Type}

/-! ### Edits, deletions and reads -/

/-- The thread has told no one of a new message. -/
def Silent (pid : ℕ) (w : ChatState) : Prop := ∀ event ∈ own pid w.log, event.isSilent

theorem lasting_silent : Lasting pid (Silent pid) :=
  lasting_own fun events => ∀ event ∈ events, event.isSilent

/-- A silent entry leaves a thread silent. -/
theorem Silent.cons {event : ChatEvent} (h : Silent pid before) (hevent : event.isSilent)
    (hlog : after.log = stamp pid [event] ++ before.log) : Silent pid after := by
  intro other hother
  rw [hlog, own_stamp_append_self] at hother
  rcases List.mem_cons.1 hother with rfl | hold
  · exact hevent
  · exact h other hold

/-- A transaction of a call that is no send. -/
theorem holds_silentTransaction {body : ChatProg α} {B : α → ChatState → Prop}
    (hbody : (chatLogic start).Holds request pid body B (fun _ => Silent pid) w) :
    (chatLogic start).Holds request pid (inTransaction [.rolledBack] body) B (fun _ => Silent pid) w := by
  apply holds_transaction (A := Silent pid) (lasting_silent.and lasting_silent)
  · exact hbody.mono (fun _ _ _ h => h) fun _ _ _ h => ⟨h, h⟩
  · intro before failure hbefore
    have hlog : (before.finish pid before.committed [ChatEvent.rolledBack]).log =
        stamp pid [.rolledBack] ++ before.log := rfl
    exact lasting_silent.stable.later (hbefore.cons rfl hlog)

theorem holds_updateMessage {messageId : RowId} {set : Message → Message}
    (hset : ∀ row, SameMessage row (set row)) (h : Silent pid w) :
    (chatLogic start).Holds request pid (updateMessage messageId userId set) (fun _ => Silent pid)
      (fun _ => Silent pid) w := by
  apply holds_silentTransaction
  refine holds_next (holds_evaluating lasting_silent (fun _ => lasting_silent) h
    fun _ _ hbefore _ _ => hbefore) (fun _ _ hs => hs) fun found s hs => ?_
  refine holds_next (?_ : (chatLogic start).Holds request pid _ (fun _ => Silent pid)
    (fun _ => Silent pid) s) (fun _ _ hs => hs) fun _ s hs =>
      Logic.holds_pure (lasting_silent.stable.later hs)
  apply holds_commitWrites (Silent pid) lasting_silent.stable hs
  · intro before committed hbefore hinv hwrites _
    obtain rfl := Except.ok.inj hwrites
    let updated : Database := { before.committed with
      messages := updateWhere (isOwnMessage messageId userId) set before.committed.messages }
    have hundeleted : ∀ row, isOwnMessage messageId userId row → row.deletedAt = none := by
      intro row hrow
      simp only [isOwnMessage, decide_eq_true_eq] at hrow
      exact hrow.2.2
    have hstep : ChatStep pid before (before.finish pid updated []) :=
      ⟨.updated _ set rfl hset hundeleted rfl rfl, rfl, id⟩
    exact ⟨hstep.invariant hinv, hstep, lasting_silent.stable.later hbefore⟩
  · intro before failure hbefore _ _
    exact lasting_silent.stable.later hbefore

theorem newestMessage_room (h : newestMessage roomId db = some message) : message.roomId = roomId := by
  have hmem := List.mem_filter.1 (List.argmax_mem (Option.mem_def.2 h))
  exact (of_decide_eq_true hmem.2).1

/-- The room is read up to the message that the statement has seen. -/
theorem holds_markAsRead (h : Silent pid w) :
    (chatLogic start).Holds request pid (markAsRead roomId userId) (fun _ => Silent pid)
      (fun _ => Silent pid) w := by
  let Looked : Option Message → ChatState → Prop := fun newest s => Silent pid s ∧
    .looked roomId userId newest ∈ own pid s.log ∧ ∀ message, newest = some message →
      message.roomId = roomId
  have hlooked (newest : Option Message) : Lasting pid (Looked newest) :=
    lasting_own fun events => (∀ event ∈ events, event.isSilent) ∧
      .looked roomId userId newest ∈ events ∧ ∀ message, newest = some message →
        message.roomId = roomId
  apply holds_silentTransaction
  refine holds_next (B := Looked) (T := fun _ => Silent pid) ?_ (fun _ _ hs => hs) ?_
  · apply holds_evaluate (Silent pid) lasting_silent.stable h
    · intro before newest hbefore hinv _ hnewest
      obtain rfl : newestMessage roomId before.committed = newest := Except.ok.inj hnewest
      let newest := newestMessage roomId before.committed
      have hlog : (before.enter pid .keyShare [] [.looked roomId userId newest]).log =
          stamp pid [.looked roomId userId newest] ++ before.log := rfl
      have hsilent := hbefore.cons rfl hlog
      have hstep : ChatStep pid before (before.enter pid .keyShare [] [.looked roomId userId newest]) := by
        refine .of_quiet hlog (by simp) rfl rfl rfl fun _ => .silent ?_
        rw [← own_stamp_append_self, ← hlog]
        exact hsilent
      refine ⟨hstep.invariant hinv, hstep, (hlooked newest).stable.later ⟨hsilent, ?_, ?_⟩⟩
      · rw [hlog, own_stamp_append_self]
        exact List.mem_cons_self
      · exact fun message hmessage => newestMessage_room hmessage
    · intro before failure hbefore _ _
      exact lasting_silent.stable.later hbefore
  · intro newest s hs
    cases newest with
    | none => exact holds_ending lasting_silent hs.1
    | some newest =>
        have hlasting := hlooked (some newest)
        refine holds_next (B := fun pending s => Looked (some newest) s ∧ pending =
          unwritten.andThen fun db => .ok (upsertReceipt (readReceipt userId newest) db))
          (T := fun _ => Looked (some newest)) ?_ (fun _ _ hs => hs.1) ?_
        · refine holds_next (holds_evaluating hlasting (fun _ => hlasting) hs
            fun _ _ hbefore _ _ => hbefore) (fun _ _ hs => hs) fun _ s hs => ?_
          exact Logic.holds_pure fun _ hrely _ => ⟨hlasting hrely hs, rfl⟩
        · intro pending s hs
          obtain ⟨hs, rfl⟩ := hs
          have hcommit : (chatLogic start).Holds request pid
              (commitWrites (unwritten.andThen fun db => .ok (upsertReceipt (readReceipt userId newest) db))
                [.markedRead roomId userId]) (fun _ => Silent pid) (fun _ => Looked (some newest)) s := by
            apply holds_commitWrites (Looked (some newest)) hlasting.stable hs
            · intro before committed hbefore hinv hwrites _
              obtain ⟨hsilent, hevent, hroom⟩ := hbefore
              obtain rfl := Except.ok.inj hwrites
              let read := upsertReceipt (readReceipt userId newest) before.committed
              have hlog : (before.finish pid read [.markedRead roomId userId]).log =
                  stamp pid [.markedRead roomId userId] ++ before.log := rfl
              have hafter := hsilent.cons rfl hlog
              have hstep : ChatStep pid before (before.finish pid read [.markedRead roomId userId]) :=
                ⟨.read roomId userId newest hlog (mem_own.1 hevent) (hroom newest rfl) rfl rfl, rfl,
                  fun _ => .silent hafter⟩
              exact ⟨hstep.invariant hinv, hstep, lasting_silent.stable.later hafter⟩
            · intro before failure hbefore _ _
              exact hlasting.stable.later hbefore
          exact hcommit.mono (fun _ _ _ h => h) fun _ _ _ h => h.1

/-! ### A send that creates its message -/

variable {input : SendMessageInput} {idempotencyKey : Option String} {text : Text}
  {recipientIds told : List Uuid}

/-- The message of a send is stored, and this is what the thread has done. -/
def Sending (userId : Uuid) (input : SendMessageInput) (message : Message) (events : List ChatEvent)
    (pid : ℕ) (w : ChatState) : Prop :=
  own pid w.log = events ∧ Stored message w.committed ∧ SendsWith userId input message

theorem lasting_sending {events : List ChatEvent} :
    Lasting pid (Sending userId input message events pid) :=
  fun _ _ hrely h => ⟨hrely.own.trans h.1, h.2.1.kept hrely.messages, h.2.2⟩

theorem lasting_sent (answer : ChatAnswer) : Lasting pid fun w => Sent userId input pid w answer := by
  intro before after hrely h
  cases answer with
  | message payload =>
      obtain ⟨hstarted, hannounced, row, hrow, hsends, hdescribes⟩ := h
      obtain ⟨row', hrow', hsame, -⟩ := hrely.messages row hrow
      refine ⟨by rwa [hrely.own], by rwa [hrely.own], row', hrow', ⟨?_, ?_, ?_⟩,
        ⟨?_, ?_, ?_, ?_, ?_⟩⟩
      · rw [hsame.roomId]
        exact hsends.room
      · rw [hsame.senderUserId]
        exact hsends.sender
      · rw [hsame.idempotencyKey]
        exact hsends.key
      · exact hdescribes.id.trans hsame.id.symm
      · exact hdescribes.roomId.trans hsame.roomId.symm
      · exact hdescribes.senderUserId.trans hsame.senderUserId.symm
      · exact hdescribes.idempotencyKey.trans hsame.idempotencyKey.symm
      · exact hdescribes.createdAt.trans hsame.createdAt.symm
  | failed failure =>
      refine ⟨by rw [hrely.own]; exact h.1, fun hstarted => ?_⟩
      rw [hrely.own] at hstarted
      exact h.2 hstarted
  | deleted found => exact h
  | markedRead => exact h
  | rooms chatRooms => exact h

/-- A stored message of a send may be returned. -/
theorem Sending.sent {events : List ChatEvent} (h : Sending userId input message events pid w)
    (hevents : .started true ∉ events) (hannounced : Announced events) :
    Sent userId input pid w (.message (rowToMessage message)) := by
  obtain ⟨hown, ⟨row, hrow, hsame⟩, hsends⟩ := h
  refine ⟨by rwa [hown], by rwa [hown], row, hrow, ⟨?_, ?_, ?_⟩, ⟨?_, ?_, ?_, ?_, ?_⟩⟩
  · rw [hsame.roomId]
    exact hsends.room
  · rw [hsame.senderUserId]
    exact hsends.sender
  · rw [hsame.idempotencyKey]
    exact hsends.key
  · exact hsame.id.symm
  · exact hsame.roomId.symm
  · exact hsame.senderUserId.symm
  · exact hsame.idempotencyKey.symm
  · exact hsame.createdAt.symm

/-- The thread did not start after the deletion, and has reported what it has created. -/
def InTime (pid : ℕ) (w : ChatState) : Prop :=
  .started true ∉ own pid w.log ∧ Reported (own pid w.log)

theorem lasting_inTime : Lasting pid (InTime pid) :=
  lasting_own fun events => .started true ∉ events ∧ Reported events

theorem inTime_of_own {events : List ChatEvent} (hown : own pid w.log = events)
    (hevents : .started true ∉ events) (hreported : Reported events) : InTime pid w := by
  unfold InTime
  rw [hown]
  exact ⟨hevents, hreported⟩

theorem started_not_mem_toldEvents (message : Message) (recipientIds : List Uuid) :
    .started true ∉ toldEvents message recipientIds := by
  simp [toldEvents, reportedEvents]

/-- A send that started in time may fail for any reason. -/
theorem InTime.failed {failure : Failure} (h : InTime pid w) :
    Sent userId input pid w (.failed failure) :=
  ⟨h.2, fun hstarted => absurd hstarted h.1⟩

/-- A send that has only started, or been told of no new message. -/
theorem inTime_of_silent {events : List ChatEvent} (hown : own pid w.log = events)
    (hevents : .started true ∉ events) (hsilent : ∀ event ∈ events, event.isSilent) :
    InTime pid w := inTime_of_own hown hevents (announced_of_silent hsilent).reported

/-- The notifications go to members that have not been told. -/
theorem holds_notifyAll (hnodup : (recipientIds ++ told).Nodup)
    (h : Sending userId input message (toldEvents message told) pid w) :
    (chatLogic start).Holds request pid (notifyAll message recipientIds)
      (fun _ s => Sent userId input pid s (.message (rowToMessage message)))
      (fun _ => InTime pid) w := by
  induction recipientIds generalizing told w with
  | nil =>
      apply Logic.holds_pure
      intro later hrely _
      exact (lasting_sending hrely h).sent (started_not_mem_toldEvents message told)
        (announced_toldEvents message told)
  | cons recipientId recipientIds ih =>
      have hrest : (recipientIds ++ recipientId :: told).Nodup :=
        (List.perm_middle.nodup_iff).2 hnodup
      have htold : Told (toldEvents message (recipientId :: told)) :=
        .announced message (List.Nodup.of_append_right hrest)
      refine holds_next (T := fun _ => InTime pid) (B := fun _ =>
        Sending userId input message (toldEvents message (recipientId :: told)) pid)
        ?_ (fun _ _ hs => hs) fun _ s hs => ih hrest hs
      apply holds_record lasting_sending (fun _ => lasting_sending) h
      · simp
      · intro before hbefore _
        rw [hbefore.1]
        exact htold
      · intro before hbefore _
        refine ⟨?_, hbefore.2.1, hbefore.2.2⟩
        change own pid (stamp pid [.notified recipientId message] ++ before.log) = _
        rw [own_stamp_append_self, hbefore.1]
        rfl

theorem otherRoomMemberIds_nodup (h : db.roomMembers.Nodup) :
    (otherRoomMemberIds roomId userId db).Nodup := by
  apply List.Nodup.map_on
  · intro member hmember other hother hsame
    have hroom := (of_decide_eq_true (List.mem_filter.1 hmember).2).1
    have hroom' := (of_decide_eq_true (List.mem_filter.1 hother).2).1
    cases member
    cases other
    simp_all
  · exact h.filter _

/-- What `createMessage` returns to a send. -/
inductive Created (userId : Uuid) (input : SendMessageInput) (pid : ℕ) (w : ChatState) :
    CreateResult → Prop
  | created {message : Message} (deletedAt : message.deletedAt = none)
      (sending : Sending userId input message [.created message, .started false] pid w) :
      Created userId input pid w ⟨some message, true⟩
  | replayed {message : Message} (sending : Sending userId input message [.started false] pid w) :
      Created userId input pid w ⟨some message, false⟩
  | missing (own : own pid w.log = [.started false]) : Created userId input pid w ⟨none, false⟩

theorem lasting_created (result : CreateResult) :
    Lasting pid fun w => Created userId input pid w result := by
  intro before after hrely h
  cases h with
  | created deletedAt sending => exact .created deletedAt (lasting_sending hrely sending)
  | replayed sending => exact .replayed (lasting_sending hrely sending)
  | missing own => exact .missing (hrely.own.trans own)

theorem holds_tellOthers
    (h : Sending userId input message (reportedEvents message) pid w) :
    (chatLogic start).Holds request pid (tellOthers roomId userId message)
      (fun _ s => Sent userId input pid s (.message (rowToMessage message)))
      (fun _ => InTime pid) w := by
  let Announced : ChatState → Prop := Sending userId input message (toldEvents message []) pid
  have hlasting : Lasting pid Announced := lasting_sending
  refine holds_next (B := fun _ => Announced) (T := fun _ => InTime pid) ?_
    (fun _ _ hs => hs) ?_
  · apply holds_record lasting_sending (fun _ => hlasting) h
    · simp
    · intro before hbefore _
      rw [hbefore.1]
      exact .announced message List.nodup_nil
    · intro before hbefore _
      refine ⟨?_, hbefore.2.1, hbefore.2.2⟩
      change own pid (stamp pid [.published .added message] ++ before.log) = _
      rw [own_stamp_append_self, hbefore.1]
      rfl
  · intro _ s hs
    refine holds_next (B := fun recipientIds s => Announced s ∧ recipientIds.Nodup)
      (holds_look hlasting (fun _ _ _ hrely h => ⟨hlasting hrely h.1, h.2⟩) hs ?_) ?_ ?_
    · exact fun before hbefore hinv => ⟨hbefore, otherRoomMemberIds_nodup hinv.members⟩
    · exact fun _ s hthrown => inTime_of_own hthrown.1.1 (started_not_mem_toldEvents message [])
        (announced_toldEvents message []).reported
    · intro recipientIds s hs
      have hnodup : (recipientIds ++ []).Nodup := by
        rw [List.append_nil]
        exact hs.2
      exact holds_notifyAll hnodup hs.1

/-- A send that has found the message of its key. -/
theorem holds_returnMessage {events : List ChatEvent}
    (h : Sending userId input message events pid w) (hevents : .started true ∉ events)
    (hannounced : Announced events) :
    (chatLogic start).Holds request pid (do
      MonadExcept.ofExcept (throwIf alreadyUsed (message.deletedAt ≠ none))
      return rowToMessage message : ChatProg ChatMessagePayload)
      (fun payload s => Sent userId input pid s (.message payload)) (fun _ => InTime pid) w := by
  refine holds_next (holds_check lasting_sending h)
    (fun _ _ hs => inTime_of_own hs.1.1 hevents hannounced.reported) fun _ s hs => ?_
  exact Logic.holds_pure ((lasting_sent (.message (rowToMessage message))).stable.later
    (hs.1.sent hevents hannounced))

/-- An entry of what `createMessage` has returned. -/
theorem holds_reporting {events : List ChatEvent} {created : Bool} {found : Option Message}
    {P : ChatState → Prop} (hP : Lasting pid P) (h : own pid w.log = events ∧ P w)
    (htold : Told (.reported created found :: events))
    (hentered : ∀ before : ChatState, P before → P (before.enter pid .keyShare [] [.reported created found])) :
    (chatLogic start).Holds request pid (record fun _ => [.reported created found])
      (fun _ s => own pid s.log = .reported created found :: events ∧ P s)
      (fun _ => InTime pid) w := by
  have hlasting (events : List ChatEvent) : Lasting pid fun s => own pid s.log = events ∧ P s :=
    (lasting_own fun own => own = events).and hP
  apply holds_record (hlasting events) (fun _ => hlasting _) h
  · simp
  · intro before hbefore _
    rw [hbefore.1]
    exact htold
  · intro before hbefore _
    refine ⟨?_, hentered before hbefore.2⟩
    change own pid (stamp pid [.reported created found] ++ before.log) = _
    rw [own_stamp_append_self, hbefore.1]
    rfl

/-- The end of a send: only a new message is announced. -/
theorem holds_announce {result : CreateResult} (h : Created userId input pid w result) :
    (chatLogic start).Holds request pid (announce roomId userId result)
      (fun payload s => Sent userId input pid s (.message payload)) (fun _ => InTime pid) w := by
  let Kept (message : Message) (s : ChatState) : Prop :=
    Stored message s.committed ∧ SendsWith userId input message
  have hkept (message : Message) : Lasting pid (Kept message) :=
    fun _ _ hrely h => ⟨h.1.kept hrely.messages, h.2⟩
  cases h with
  | @created message hdeleted hsending =>
      have hundeleted : throwIf alreadyUsed (message.deletedAt ≠ none) = .ok () :=
        throwIf_eq_ok_iff.2 (by simp [hdeleted])
      refine holds_next (holds_reporting (hkept message) hsending (.reported message)
        fun _ hs => hs) (fun _ _ hs => hs) fun _ s hs => ?_
      simp only [hundeleted]
      refine holds_next (T := fun _ => InTime pid) (B := fun _ =>
        Sending userId input message (reportedEvents message) pid)
        ?_ (fun _ _ hs => hs) fun _ s hs => ?_
      · exact Logic.holds_pure (lasting_sending.stable.later hs)
      · refine holds_next (holds_tellOthers hs) (fun _ _ hs => hs) fun _ s hs => ?_
        exact Logic.holds_pure ((lasting_sent (.message (rowToMessage message))).stable.later hs)
  | @replayed message hsending =>
      have hsilent : ∀ event ∈ [.reported false (some message), ChatEvent.started false],
          event.isSilent := by simp [ChatEvent.isSilent]
      refine holds_next (holds_reporting (hkept message) hsending (.silent hsilent)
        fun _ hs => hs) (fun _ _ hs => hs) fun _ s hs => ?_
      exact holds_returnMessage hs (by simp) (announced_of_silent hsilent)
  | missing hown =>
      have hsilent : ∀ event ∈ [.reported false none, ChatEvent.started false],
          event.isSilent := by simp [ChatEvent.isSilent]
      refine holds_next (holds_reporting (P := fun _ => True) (fun _ _ _ _ => trivial)
        ⟨hown, trivial⟩ (.silent hsilent) fun _ _ => trivial) (fun _ _ hs => hs) fun _ s hs => ?_
      apply Logic.holds_throw
      apply lasting_inTime.stable.later
      exact inTime_of_silent hs.1 (by simp) hsilent

/-- A send that has started in time and has created nothing. -/
def Started (pid : ℕ) (w : ChatState) : Prop := own pid w.log = [.started false]

theorem lasting_started : Lasting pid (Started pid) := lasting_own fun events => events = [.started false]

theorem Started.silent (h : Started pid w) : Silent pid w := by
  unfold Silent
  rw [show own pid w.log = _ from h]
  decide

theorem Started.inTime (h : Started pid w) : InTime pid w :=
  inTime_of_silent h (by decide) (by decide)

/-- A row that has the room, the sender and the key of a call. -/
theorem sendsWith_of_hasKey {key : String} {row : Message} (hroom : input.roomId = some roomId)
    (hkey : validateIdempotencyKey input.idempotencyKey = .ok (some key))
    (hrow : hasKey roomId userId key row) : SendsWith userId input row := by
  obtain ⟨hroom', hsender, hkey'⟩ := hasKey_iff.1 hrow
  exact ⟨by rw [hroom, hroom'], hsender, by rw [hkey, hkey']⟩

/-- The row that holds the key of a send is found, if there is one. -/
theorem holds_findExisting (hroom : input.roomId = some roomId)
    (hkey : validateIdempotencyKey input.idempotencyKey = .ok idempotencyKey) (h : Started pid w) :
    (chatLogic start).Holds request pid (findExisting roomId userId idempotencyKey)
      (fun found s => Started pid s ∧ ∀ message, found = some message →
        Sending userId input message [.started false] pid s)
      (fun _ => Started pid) w := by
  have hlasting (found : Option Message) : Lasting pid fun s => Started pid s ∧ ∀ message,
      found = some message → Sending userId input message [.started false] pid s :=
    fun _ _ hrely h => ⟨lasting_started hrely h.1, fun message hfound =>
      lasting_sending hrely (h.2 message hfound)⟩
  cases idempotencyKey with
  | none => exact Logic.holds_pure ((hlasting none).stable.later ⟨h, fun _ hfound => nomatch hfound⟩)
  | some key =>
      refine Logic.Holds.mono (holds_look (B := fun found s => Started pid s ∧ ∀ message,
        found = some message → Sending userId input message [.started false] pid s)
        lasting_started hlasting h ?_) (fun _ _ _ h => h) fun _ _ _ h => h.1
      intro before hbefore _
      refine ⟨hbefore, fun message hfound => ⟨hbefore, ?_, ?_⟩⟩
      · exact ⟨message, List.mem_of_find?_eq_some hfound, .refl message⟩
      · have hrow := List.find?_some hfound
        exact sendsWith_of_hasKey hroom hkey hrow

/-- The insertion has gone through: its transaction commits the message, or leaves no row. -/
theorem holds_commitMessage (hdeleted : message.deletedAt = none)
    (hsends : SendsWith userId input message) (h : Started pid w) :
    (chatLogic start).Holds request pid (commitMessage message)
      (fun result s => Created userId input pid s result) (fun _ => Started pid) w := by
  let Committed : ChatState → Prop :=
    Sending userId input message [.created message, .started false] pid
  have hlasting : Lasting pid Committed := lasting_sending
  unfold commitMessage
  refine holds_next (holds_evaluating lasting_started (fun _ => lasting_started) h
    fun _ _ hbefore _ _ => hbefore) (fun _ _ hs => hs) fun _ s hs => ?_
  refine holds_next (B := fun _ => Committed) (T := fun _ => Started pid) ?_
    (fun _ _ hs => hs) fun _ s hs =>
      Logic.holds_pure ((lasting_created ⟨some message, true⟩).stable.later (.created hdeleted hs))
  apply holds_commitWrites (Started pid) lasting_started.stable hs
  · intro before committed hbefore hinv hwrites _
    obtain ⟨hfresh, hunused, rfl⟩ := insertMessage_ok hwrites
    let inserted : Database :=
      { before.committed with messages := before.committed.messages ++ [message] }
    have hlog : (before.finish pid inserted [.created message]).log =
        stamp pid [.created message] ++ before.log := rfl
    have hown : own pid (before.finish pid inserted [.created message]).log =
        [.created message, .started false] := by
      rw [hlog, own_stamp_append_self, show own pid before.log = _ from hbefore]
      rfl
    have hstep : ChatStep pid before (before.finish pid inserted [.created message]) := by
      refine ⟨.created message hlog hfresh hunused rfl rfl, rfl, fun _ => ?_⟩
      rw [hown]
      exact .created message
    have hstored : Stored message inserted :=
      ⟨message, List.mem_append_right _ List.mem_cons_self, .refl message⟩
    exact ⟨hstep.invariant hinv, hstep, hlasting.stable.later ⟨hown, hstored, hsends⟩⟩
  · intro before failure hbefore _ _
    exact lasting_started.stable.later hbefore

theorem holds_replayMessage (hroom : input.roomId = some roomId)
    (hkey : validateIdempotencyKey input.idempotencyKey = .ok idempotencyKey) (h : Started pid w) :
    (chatLogic start).Holds request pid (replayMessage roomId userId idempotencyKey)
      (fun result s => Created userId input pid s result) (fun _ => Started pid) w := by
  unfold replayMessage
  refine holds_next (holds_findExisting hroom hkey h) (fun _ _ hs => hs) fun found s hs => ?_
  have hresult (s : ChatState) (hs : Started pid s ∧ ∀ message, found = some message →
      Sending userId input message [.started false] pid s) :
      Created userId input pid s ⟨found, false⟩ := by
    cases found with
    | none => exact .missing hs.1
    | some message => exact .replayed (hs.2 message rfl)
  have hlasting : Lasting pid fun s => Started pid s ∧ Created userId input pid s ⟨found, false⟩ :=
    lasting_started.and (lasting_created _)
  refine holds_next (holds_ending hlasting ⟨hs.1, hresult s hs⟩) (fun _ _ hs => hs.1)
    fun _ s hs => ?_
  exact Logic.holds_pure ((lasting_created _).stable.later hs.2)

theorem holds_createMessage (hroom : input.roomId = some roomId)
    (hkey : validateIdempotencyKey input.idempotencyKey = .ok idempotencyKey) (h : Started pid w) :
    (chatLogic start).Holds request pid (createMessage roomId userId text idempotencyKey)
      (fun result s => Created userId input pid s result) (fun _ => InTime pid) w := by
  apply holds_transaction (A := Started pid) (lasting_started.and lasting_silent)
  · suffices hbody : (chatLogic start).Holds request pid _ _ (fun _ => Started pid) w from
      hbody.mono (fun _ _ _ h => h) fun _ _ _ h => ⟨h, h.silent⟩
    refine holds_next (B := fun _ => Started pid) (T := fun _ => Started pid)
      (Logic.holds_anything fun _ => lasting_started.stable.later h) (fun _ _ hs => hs)
      fun createdAt s hs => ?_
    refine holds_next (B := fun _ => Started pid) (T := fun _ => Started pid)
      (Logic.holds_anything fun _ => lasting_started.stable.later hs) (fun _ _ hs => hs)
      fun id s hs => ?_
    let row : Message :=
      { id, roomId, senderUserId := some userId, text := String.ofList text, idempotencyKey
        deletedAt := none, createdAt }
    refine holds_next (B := fun inserted s => Started pid s ∧ ∀ message, inserted = some message →
        message = row) (holds_evaluating lasting_started
      (fun _ _ _ hrely h => ⟨lasting_started hrely h.1, h.2⟩) hs ?_) (fun _ _ hs => hs)
      fun inserted s hs => ?_
    · intro before inserted hbefore _ hinserted
      refine ⟨hbefore, fun message hmessage => ?_⟩
      subst hmessage
      exact (insertOnConflictDoNothing_some hinserted).1
    · cases inserted with
      | some message =>
          obtain rfl := hs.2 message rfl
          exact holds_commitMessage rfl ⟨hroom, rfl, hkey⟩ hs.1
      | none => exact holds_replayMessage hroom hkey hs.1
  · intro before failure hbefore
    have hown : own pid (before.finish pid before.committed [.rolledBack]).log =
        [.rolledBack, .started false] := by
      change own pid (stamp pid [.rolledBack] ++ before.log) = _
      rw [own_stamp_append_self, show own pid before.log = _ from hbefore]
      rfl
    exact lasting_inTime.stable.later (inTime_of_silent hown (by decide) (by decide))

theorem holds_sendNew (hroom : input.roomId = some roomId)
    (hkey : validateIdempotencyKey input.idempotencyKey = .ok idempotencyKey) (h : Started pid w) :
    (chatLogic start).Holds request pid (sendNew roomId userId text idempotencyKey)
      (fun payload s => Sent userId input pid s (.message payload)) (fun _ => InTime pid) w := by
  unfold sendNew
  refine holds_next (holds_look lasting_started (fun _ => lasting_started) h
    fun _ hbefore _ => hbefore) (fun _ _ hs => hs.1.inTime) fun count s hs => ?_
  refine holds_next (holds_check lasting_started hs) (fun _ _ hs => hs.1.inTime) fun _ s hs => ?_
  refine holds_next (holds_createMessage hroom hkey hs.1) (fun _ _ hs => hs) fun result s hs => ?_
  exact holds_announce hs

theorem holds_requireRoomMember (input : SendMessageInput) (hA : Lasting pid A) (h : A w) :
    (chatLogic start).Holds request pid (requireRoomMember roomId userId) (fun _ => A)
      (fun failure s => A s ∧ RefusedEarlier input failure) w := by
  unfold requireRoomMember
  refine holds_next (holds_look hA (fun _ => hA) h fun _ hbefore _ => hbefore) ?_
    fun isMember s hs => ?_
  · intro failure s hs
    obtain ⟨hs, name, rfl⟩ := hs
    exact ⟨hs, .rejected name⟩
  · refine (holds_check hA hs).mono (fun _ _ _ hs => hs.1) fun failure _ _ hs => ⟨hs.1, ?_⟩
    cases isMember with
    | true => cases hs.2
    | false =>
        obtain rfl : notRoomMember = failure := Except.error.inj hs.2
        exact .member

/-- The checks of a send that come before its key is looked up. -/
theorem holds_checks (hA : Lasting pid A) (h : A w) {returns : ChatMessagePayload → ChatState → Prop}
    {throws : Failure → ChatState → Prop}
    {rest : Text → RowId → Option String → ChatProg ChatMessagePayload}
    (hthrows : ∀ failure s, A s → RefusedEarlier input failure → throws failure s)
    (hrest : ∀ text roomId idempotencyKey s, A s → input.roomId = some roomId →
      validateIdempotencyKey input.idempotencyKey = .ok idempotencyKey →
      (chatLogic start).Holds request pid (rest text roomId idempotencyKey) returns throws s) :
    (chatLogic start).Holds request pid (do
      let text ← MonadExcept.ofExcept (validateText input.text)
      let roomId ← MonadExcept.ofExcept (validateUuid input.roomId "ROOM_ID_INVALID")
      requireRoomMember roomId userId
      let idempotencyKey ← MonadExcept.ofExcept (validateIdempotencyKey input.idempotencyKey)
      rest text roomId idempotencyKey) returns throws w := by
  refine holds_next (holds_check hA h) (fun failure s hs => hthrows failure s hs.1 (.text hs.2))
    fun text s hs => ?_
  refine holds_next (holds_check hA hs.1) ?_ fun roomId s hs => ?_
  · intro failure s hs
    apply hthrows failure s hs.1
    cases hroom : input.roomId with
    | none =>
        obtain rfl : Failure.error "ROOM_ID_INVALID" = failure := by
          simpa [validateUuid, hroom] using hs.2
        exact .room hroom
    | some roomId => simp [validateUuid, hroom] at hs
  have hroom : input.roomId = some roomId := by
    cases hroom : input.roomId with
    | none => simp [validateUuid, hroom] at hs
    | some found =>
        obtain rfl : found = roomId := by simpa [validateUuid, hroom] using hs.2
        rfl
  refine holds_next (holds_requireRoomMember input hA hs.1)
    (fun failure s hs => hthrows failure s hs.1 hs.2) fun _ s hs => ?_
  refine holds_next (holds_check hA hs) (fun failure s hs => hthrows failure s hs.1 (.key hs.2))
    fun idempotencyKey s hs => ?_
  exact hrest text roomId idempotencyKey s hs.1 hroom hs.2

/-- A send that started in time returns the message of its key, or fails. -/
theorem holds_lookedUp (hroom : input.roomId = some roomId)
    (hkey : validateIdempotencyKey input.idempotencyKey = .ok idempotencyKey) (h : Started pid w) :
    (chatLogic start).Holds request pid (lookUp roomId userId text idempotencyKey)
      (fun payload s => Sent userId input pid s (.message payload)) (fun _ => InTime pid) w := by
  unfold lookUp
  refine holds_next (holds_findExisting hroom hkey h) (fun _ _ hs => hs.inTime) fun found s hs => ?_
  cases found with
  | none => exact holds_sendNew hroom hkey hs.1
  | some message =>
      exact holds_returnMessage (hs.2 message rfl) (by decide) (announced_of_silent (by decide))

/-! ### A send that starts after the deletion -/

/-- A send has started while the row of its key was deleted. -/
def StartedLate (userId : Uuid) (input : SendMessageInput) (pid : ℕ) (w : ChatState) : Prop :=
  own pid w.log = [.started true] ∧ startsDeleted userId input w.committed

theorem startsDeleted_iff : startsDeleted userId input db ↔ ∃ roomId key, input.roomId = some roomId ∧
    validateIdempotencyKey input.idempotencyKey = .ok (some key) ∧ isKeyDeleted roomId userId key db := by
  unfold startsDeleted
  constructor
  · intro h
    split at h
    next roomId key hroom hkey => exact ⟨roomId, key, hroom, hkey, h⟩
    next => cases h
  · intro ⟨roomId, key, hroom, hkey, hdeleted⟩
    rw [hroom, hkey]
    exact hdeleted

theorem lasting_startedLate : Lasting pid (StartedLate userId input pid) := by
  intro before after hrely h
  obtain ⟨roomId, key, hroom, hkey, hdeleted⟩ := startsDeleted_iff.1 h.2
  exact ⟨hrely.own.trans h.1,
    startsDeleted_iff.2 ⟨roomId, key, hroom, hkey, isKeyDeleted_kept hdeleted hrely.messages⟩⟩

/-- A send that starts after the deletion may be refused. -/
theorem StartedLate.refused {failure : Failure} (h : StartedLate userId input pid w)
    (hfailure : RefusedEarlier input failure ∨ failure = alreadyUsed) :
    Sent userId input pid w (.failed failure) := by
  refine ⟨?_, fun _ => hfailure⟩
  rw [h.1]
  exact (announced_of_silent (by decide)).reported

/-- The one row of a key is the deleted one. -/
theorem findMessageByIdempotencyKey_of_deleted {key : String} (hinv : ChatInvariant start w)
    (h : isKeyDeleted roomId userId key w.committed) :
    ∃ row, findMessageByIdempotencyKey key roomId userId w.committed = some row ∧
      row.deletedAt ≠ none := by
  simp only [isKeyDeleted, List.any_eq_true, decide_eq_true_eq] at h
  obtain ⟨row, hrow, hkey, hdeleted⟩ := h
  exact ⟨row, find?_of_countP_le_one (hinv.keys _ _ _) hrow hkey, hdeleted⟩

/-- A send that starts after the deletion is refused at the look-up of its key, if it comes
to that. -/
theorem holds_lookedUp_late (hroom : input.roomId = some roomId)
    (hkey : validateIdempotencyKey input.idempotencyKey = .ok idempotencyKey)
    (h : StartedLate userId input pid w) :
    (chatLogic start).Holds request pid (lookUp roomId userId text idempotencyKey)
      (fun payload s => Sent userId input pid s (.message payload))
      (fun failure s => Sent userId input pid s (.failed failure)) w := by
  obtain ⟨roomId', key, hroom', hkey', -⟩ := startsDeleted_iff.1 h.2
  obtain rfl : roomId' = roomId := Option.some.inj (hroom'.symm.trans hroom)
  obtain rfl : some key = idempotencyKey := Except.ok.inj (hkey'.symm.trans hkey)
  unfold lookUp findExisting
  let Found : Option Message → ChatState → Prop := fun found s => StartedLate userId input pid s ∧
    ∃ row : Message, found = some row ∧ row.deletedAt ≠ none
  have hfound (found : Option Message) : Lasting pid (Found found) :=
    fun _ _ hrely h => ⟨lasting_startedLate hrely h.1, h.2⟩
  refine holds_next (holds_look (B := Found) lasting_startedLate hfound h ?_) ?_
    fun found s hs => ?_
  · intro before hbefore hinv
    obtain ⟨roomId'', key'', hroom'', hkey'', hdeleted⟩ := startsDeleted_iff.1 hbefore.2
    obtain rfl : roomId'' = roomId' := Option.some.inj (hroom''.symm.trans hroom)
    obtain rfl : key'' = key := Option.some.inj (Except.ok.inj (hkey''.symm.trans hkey))
    exact ⟨hbefore, findMessageByIdempotencyKey_of_deleted hinv hdeleted⟩
  · intro failure s hs
    obtain ⟨hs, name, rfl⟩ := hs
    exact hs.refused (Or.inl (.rejected name))
  · obtain ⟨hs, row, rfl, hdeleted⟩ := hs
    have hrefused : throwIf alreadyUsed (row.deletedAt ≠ none) = .error alreadyUsed := by
      simp [throwIf, hdeleted]
    simp only [hrefused]
    exact Logic.holds_throw ((lasting_sent _).stable.later (hs.refused (Or.inr rfl)))

/-! ### Every call -/

theorem holds_sendMessage (h : own pid w.log = []) :
    (chatLogic start).Holds request pid (sendMessage userId input)
      (fun payload s => Sent userId input pid s (.message payload))
      (fun failure s => Sent userId input pid s (.failed failure)) w := by
  have hlasting : Lasting pid fun w => own pid w.log = [] := lasting_own fun events => events = []
  unfold sendMessage
  refine holds_next (B := fun _ s => Started pid s ∨ StartedLate userId input pid s)
    (T := fun failure s => Sent userId input pid s (.failed failure)) ?_ (fun _ _ hs => hs) ?_
  · apply holds_record hlasting (fun _ _ _ hrely hs => hs.imp (lasting_started hrely)
      (lasting_startedLate hrely)) h
    · simp
    · intro before hbefore _
      apply Told.silent
      rw [hbefore]
      simp [ChatEvent.isSilent]
    · intro before hbefore _
      let deleted := startsDeleted userId input before.committed
      have hown : own pid (before.enter pid .keyShare [] [.started deleted]).log =
          [.started deleted] := by
        change own pid (stamp pid [.started deleted] ++ before.log) = _
        rw [own_stamp_append_self, hbefore]
        rfl
      cases hdeleted : startsDeleted userId input before.committed with
      | false =>
          rw [show deleted = false from hdeleted] at hown
          exact Or.inl hown
      | true =>
          rw [show deleted = true from hdeleted] at hown
          exact Or.inr ⟨hown, hdeleted⟩
  · intro _ s hs
    rcases hs with hs | hs
    · apply holds_checks lasting_started hs
      · exact fun failure s hs _ => hs.inTime.failed
      · intro text roomId idempotencyKey s hs hroom hkey
        exact (holds_lookedUp hroom hkey hs).mono (fun _ _ _ h => h) fun _ _ _ hs => hs.failed
    · apply holds_checks lasting_startedLate hs
      · exact fun failure s hs hrefused => hs.refused (Or.inl hrefused)
      · exact fun text roomId idempotencyKey s hs hroom hkey => holds_lookedUp_late hroom hkey hs

/-- A call, with what it returns or why it fails as its answer. -/
theorem holds_answering {call : ChatProg α} {answer : α → ChatAnswer} {B : α → ChatState → Prop}
    {T : Failure → ChatState → Prop}
    (hcall : (chatLogic start).Holds request pid call B T w)
    (hreturns : ∀ value, (chatLogic start).Stable pid (B value))
    (hthrows : ∀ failure, (chatLogic start).Stable pid (T failure))
    (hanswer : ∀ value s, B value s → (chatLogic start).ensures request pid (answer value) s)
    (hfailed : ∀ failure s, T failure s → (chatLogic start).ensures request pid (.failed failure) s) :
    (chatLogic start).Holds request pid (answering call answer) ((chatLogic start).ensures request pid)
      (fun _ _ => True) w := by
  unfold answering
  apply Logic.Holds.tryCatch
  apply Logic.Holds.bind
  refine hcall.mono (fun value s _ hs => ?_) fun failure s _ hs => ?_
  · exact Logic.holds_pure fun later hrely hinv => hanswer value later (hreturns value hrely hinv hs)
  · exact Logic.holds_pure fun later hrely hinv =>
      hfailed failure later (hthrows failure hrely hinv hs)

/-- An entry of a call that is no send. -/
theorem holds_silentRecord {event : ChatEvent} (hevent : event.isSilent) (h : Silent pid w) :
    (chatLogic start).Holds request pid (record fun _ => [event]) (fun _ => Silent pid)
      (fun _ => Silent pid) w := by
  have hcons (before : ChatState) (hbefore : Silent pid before) :
      Silent pid (before.enter pid .keyShare [] [event]) := hbefore.cons hevent rfl
  apply holds_record lasting_silent (fun _ => lasting_silent) h
  · intro db message hmem
    obtain rfl := List.mem_singleton.1 hmem
    cases hevent
  · intro before hbefore _
    apply Told.silent
    have hafter := hcons before hbefore
    unfold Silent at hafter
    rwa [show (before.enter pid .keyShare [] [event]).log = stamp pid [event] ++ before.log from rfl,
      own_stamp_append_self] at hafter
  · exact fun before hbefore _ => hcons before hbefore

/-- A check of a call that is no send. -/
theorem holds_silentCheck {outcome : Except Failure α} (h : Silent pid w) :
    (chatLogic start).Holds request pid (MonadExcept.ofExcept outcome : ChatProg α)
      (fun _ => Silent pid) (fun _ => Silent pid) w :=
  (holds_check lasting_silent h).mono (fun _ _ _ hs => hs.1) fun _ _ _ hs => hs.1

theorem holds_editMessage {messageId : Option RowId} (h : Silent pid w) :
    (chatLogic start).Holds request pid (editMessage userId messageId text) (fun _ => Silent pid)
      (fun _ => Silent pid) w := by
  unfold editMessage
  refine holds_next (holds_silentCheck h) (fun _ _ hs => hs) fun messageId s hs => ?_
  refine holds_next (holds_silentCheck hs) (fun _ _ hs => hs) fun text s hs => ?_
  refine holds_next (holds_updateMessage (fun _ => ⟨rfl, rfl, rfl, rfl, rfl⟩) hs)
    (fun _ _ hs => hs) fun edited s hs => ?_
  cases edited with
  | none => exact Logic.holds_throw (lasting_silent.stable.later hs)
  | some message =>
      refine holds_next (holds_silentTransaction (B := fun _ => Silent pid) ?_) (fun _ _ hs => hs)
        fun _ s hs => ?_
      · refine holds_next (holds_evaluating lasting_silent (fun _ => lasting_silent) hs
          fun _ _ hbefore _ _ => hbefore) (fun _ _ hs => hs) fun _ s hs => ?_
        exact holds_ending lasting_silent hs
      · refine holds_next (holds_silentRecord rfl hs) (fun _ _ hs => hs) fun _ s hs => ?_
        exact Logic.holds_pure (lasting_silent.stable.later hs)

theorem holds_deleteMessage {messageId : Option RowId} (h : Silent pid w) :
    (chatLogic start).Holds request pid (deleteMessage userId messageId) (fun _ => Silent pid)
      (fun _ => Silent pid) w := by
  unfold deleteMessage
  refine holds_next (holds_silentCheck h) (fun _ _ hs => hs) fun messageId s hs => ?_
  refine holds_next (B := fun _ => Silent pid) (T := fun _ => Silent pid)
    (Logic.holds_anything fun _ => lasting_silent.stable.later hs) (fun _ _ hs => hs)
    fun deletedAt s hs => ?_
  refine holds_next (holds_updateMessage (fun _ => ⟨rfl, rfl, rfl, rfl, rfl⟩) hs)
    (fun _ _ hs => hs) fun deleted s hs => ?_
  cases deleted with
  | none => exact Logic.holds_pure (lasting_silent.stable.later hs)
  | some message =>
      refine holds_next (holds_silentRecord rfl hs) (fun _ _ hs => hs) fun _ s hs => ?_
      exact Logic.holds_pure (lasting_silent.stable.later hs)

theorem holds_markRoomRead {roomId : Option RowId} (h : Silent pid w) :
    (chatLogic start).Holds request pid (markRoomRead userId roomId) (fun _ => Silent pid)
      (fun _ => Silent pid) w := by
  unfold markRoomRead requireRoomMember
  refine holds_next (holds_silentCheck h) (fun _ _ hs => hs) fun roomId s hs => ?_
  refine holds_next ?_ (fun _ _ hs => hs) fun _ s hs => holds_markAsRead hs
  refine holds_next (holds_look lasting_silent (fun _ => lasting_silent) hs
    fun _ hbefore _ => hbefore) (fun _ _ hs => hs.1) fun isMember s hs => ?_
  exact holds_silentCheck hs

theorem holds_listRooms (h : Silent pid w) :
    (chatLogic start).Holds request pid (listRooms userId) (fun _ => Silent pid)
      (fun _ => Silent pid) w := by
  unfold listRooms
  refine holds_next (holds_silentCheck h) (fun _ _ hs => hs) fun _ s hs => ?_
  exact (holds_look lasting_silent (fun _ => lasting_silent) hs fun _ hbefore _ => hbefore).mono
    (fun _ _ _ hs => hs) fun _ _ _ hs => hs.1

/-- **Every call is verified**, whatever runs next to it. -/
theorem chatLogic_sound (start : Database) : (chatLogic start).Sound chatSystem where
  accepts _ _ := trivial
  code := by
    intro request s pid _ _ hfresh
    have hsilent : Silent pid s := by
      intro event hevent
      rw [show own pid s.log = [] from hfresh] at hevent
      cases hevent
    cases request with
    | sendMessage userId input =>
        exact holds_answering (holds_sendMessage hfresh) (fun _ => (lasting_sent _).stable)
          (fun _ => (lasting_sent _).stable) (fun _ _ hs => hs) fun _ _ hs => hs
    | editMessage userId messageId text =>
        exact holds_answering (holds_editMessage hsilent) (fun _ => lasting_silent.stable)
          (fun _ => lasting_silent.stable) (fun _ _ hs => hs) fun _ _ hs => hs
    | deleteMessage userId messageId =>
        exact holds_answering (holds_deleteMessage hsilent) (fun _ => lasting_silent.stable)
          (fun _ => lasting_silent.stable) (fun _ _ hs => hs) fun _ _ hs => hs
    | markRoomRead userId roomId =>
        exact holds_answering (holds_markRoomRead hsilent) (fun _ => lasting_silent.stable)
          (fun _ => lasting_silent.stable) (fun _ _ hs => hs) fun _ _ hs => hs
    | rooms userId =>
        exact holds_answering (holds_listRooms hsilent) (fun _ => lasting_silent.stable)
          (fun _ => lasting_silent.stable) (fun _ _ hs => hs) fun _ _ hs => hs
  environment := by
    intro before after hmoves _ hinv
    have hkept : KeepsMessages before.committed after.committed :=
      .of_subset fun row hrow => by rwa [hmoves.messages]
    refine ⟨⟨?_, ?_, hmoves.members, ?_, ?_, ?_⟩, fun pid => ⟨by rw [hmoves.log], hkept⟩⟩
    · rw [hmoves.messages]
      exact hinv.ids
    · rw [hmoves.messages]
      exact hinv.keys
    · rw [hmoves.messages, hmoves.log]
      exact hinv.counted
    · intro pid message hmem
      rw [hmoves.log] at hmem
      exact (hinv.stored hmem).kept hkept
    · rw [hmoves.log]
      exact hinv.told
  rollback := by
    intro before pid hinv
    have hlog : (before.finish pid before.committed []).log = stamp pid [] ++ before.log := rfl
    have hstep : ChatStep pid before (before.finish pid before.committed []) :=
      .of_quiet hlog (fun _ => List.not_mem_nil) rfl rfl rfl id
    exact ⟨hstep.invariant hinv, fun other _ => .of_same rfl rfl⟩

/-- Messages to start with: one row for each identifier and each key, no member twice. -/
structure ChatReady (start : Database) : Prop where
  ids : UniqueKey (fun row : Message => row.id) start.messages
  keys : ∀ roomId senderUserId idempotencyKey,
    start.messages.countP (hasKey roomId senderUserId idempotencyKey) ≤ 1
  members : start.roomMembers.Nodup

theorem good_atRest (hready : ChatReady start) : (chatLogic start).Good (chatAtRest start) := by
  apply Logic.good_idle
  · exact ⟨hready.ids, hready.keys, hready.members, fun _ _ _ => Nat.zero_add _,
      fun hmem => absurd hmem List.not_mem_nil, fun _ => .silent fun _ hevent => nomatch hevent⟩
  · exact fun _ => rfl

end ChatTea.Chat
