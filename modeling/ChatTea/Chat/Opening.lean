import ChatTea.Chat.Receipts
import Mathlib

/-!
# The opening message

A send into a room without messages takes a text of 30 code units at most. The count that it
checks is taken before its transaction starts, so that two users may both send a first message;
either of them is short then. An edit checks the limit of 90 alone, also where it rewrites the
first message of the room.

## Main definitions

* `IsEarliest`, `IsShort` — the first message of a room, and the limit
* `KeepsOpening` — the steps that leave the first message short
* `OpeningStep`, `openingLogic` — what a step of a call does to the messages of a room

## Main results

* `opening_sendNew` — a long message is stored only in a room that has one already
* `opening_short` — in a run of steps that keep the opening the first message stays short
* `opening_edited` — in another one an edit makes it long
-/

namespace ChatTea.Chat

open History Interleaving ReadCommitted RowLocks Table Transaction

variable {c : Config ChatState ChatRequest Failure ChatAnswer} {start db db' : Database} {pid : ℕ}
  {before after w : ChatState} {message row row' : Message} {roomId : RowId} {userId : Uuid}

/-! ### The first message of a room -/

/-- `FIRST_MESSAGE_MAX_LENGTH` -/
def firstMessageMaxLength : ℕ := 30

def IsShort (row : Message) : Prop := utf16Length row.text.toList ≤ firstMessageMaxLength

instance : DecidablePred IsShort := fun row =>
  inferInstanceAs (Decidable (utf16Length row.text.toList ≤ firstMessageMaxLength))

/-- The first message of a room in the order of times and identifiers, deleted ones included. -/
structure IsEarliest (roomId : RowId) (row : Message) (db : Database) : Prop where
  mem : row ∈ db.messages
  room : row.roomId = roomId
  first : ∀ other ∈ db.messages, other.roomId = roomId → position row ≤ position other

/-- The room has a message, deleted or not. -/
def HasMessage (roomId : RowId) (db : Database) : Prop := ∃ row ∈ db.messages, row.roomId = roomId

/-- The limit of the first message holds. -/
def OpensShort (roomId : RowId) (db : Database) : Prop := ∀ row, IsEarliest roomId row db → IsShort row

/-- A step that leaves the opening of a room alone. -/
structure KeepsOpening (roomId : RowId) (before after : ChatState) : Prop where
  /-- A new text of the first message of the room is a short one. -/
  edited : ∀ row row', IsEarliest roomId row before.committed → row' ∈ after.committed.messages →
    SameMessage row row' → row'.text ≠ row.text → IsShort row'
  /-- The clock gives a long message that is stored a place after one that was there. -/
  clock : HasMessage roomId before.committed → ∀ row ∈ after.committed.messages, row.roomId = roomId →
    (∀ old ∈ before.committed.messages, old.id ≠ row.id) → ¬ IsShort row →
    ∃ old ∈ before.committed.messages, old.roomId = roomId ∧ position old < position row

theorem HasMessage.of_same (h : HasMessage roomId db) (hkeeps : KeepsMessages db db') :
    HasMessage roomId db' := by
  obtain ⟨row, hrow, hroom⟩ := h
  obtain ⟨row', hrow', hsame, -⟩ := hkeeps row hrow
  exact ⟨row', hrow', hsame.roomId.trans hroom⟩

/-- A room where the count is not zero has a message. -/
theorem hasMessage_of_count (h : activeMessageCount roomId db ≠ 0) : HasMessage roomId db := by
  have hpos : 0 < activeMessageCount roomId db := Nat.pos_of_ne_zero h
  obtain ⟨row, hrow, hcond⟩ := List.countP_pos_iff.1 hpos
  exact ⟨row, hrow, (of_decide_eq_true hcond).1⟩

/-! ### What a step does -/

/-- What a step of a call does to the messages. -/
inductive OpeningStep (before after : ChatState) : Prop
  | kept (messages : after.committed.messages = before.committed.messages)
  /-- A long message goes into a room that has one. -/
  | stored (message : Message) (fresh : ∀ old ∈ before.committed.messages, old.id ≠ message.id)
      (opens : IsShort message ∨ HasMessage message.roomId before.committed)
      (messages : after.committed.messages = before.committed.messages ++ [message])
  | rewritten (cond : Message → Bool) (set : Message → Message)
      (same : ∀ row, SameMessage row (set row))
      (undeleted : ∀ row, cond row → row.deletedAt = none)
      (messages : after.committed.messages = updateWhere cond set before.committed.messages)

theorem OpeningStep.keepsMessages (h : OpeningStep before after) :
    KeepsMessages before.committed after.committed := by
  cases h with
  | kept messages => exact .of_subset fun row hrow => by rwa [messages]
  | stored message fresh opens messages =>
      apply KeepsMessages.of_subset
      intro row hrow
      rw [messages]
      exact List.mem_append_left _ hrow
  | rewritten cond set same undeleted messages => exact .updateWhere same undeleted messages

theorem isEarliest_congr (h : db'.messages = db.messages) :
    IsEarliest roomId row db' ↔ IsEarliest roomId row db := by
  constructor
  · intro hrow
    exact ⟨h ▸ hrow.mem, hrow.room, fun other hother => hrow.first other (h ▸ hother)⟩
  · intro hrow
    exact ⟨h ▸ hrow.mem, hrow.room, fun other hother => hrow.first other (h ▸ hother)⟩

/-- The first message after an update was the first one before. -/
theorem IsEarliest.of_updateWhere {cond : Message → Bool} {set : Message → Message}
    (hset : ∀ row, SameMessage row (set row))
    (hmessages : db'.messages = updateWhere cond set db.messages)
    (h : IsEarliest roomId row' db') : ∃ row, IsEarliest roomId row db ∧ SameMessage row row' := by
  have hfirst : ∀ other ∈ db.messages, other.roomId = roomId → position row' ≤ position other := by
    intro other hother hroom
    by_cases hwritten : cond other
    · have hmem : set other ∈ db'.messages := by
        rw [hmessages]
        exact mem_updateWhere.2 (Or.inl ⟨other, hother, hwritten, rfl⟩)
      have hle := h.first _ hmem ((hset other).roomId.trans hroom)
      rwa [(hset other).position] at hle
    · have hmem : other ∈ db'.messages := by
        rw [hmessages]
        exact mem_updateWhere.2 (Or.inr ⟨hother, hwritten⟩)
      exact h.first _ hmem hroom
  have hmem := h.mem
  rw [hmessages, mem_updateWhere] at hmem
  rcases hmem with ⟨row, hrow, -, rfl⟩ | ⟨hrow, -⟩
  · rw [(hset row).position] at hfirst
    exact ⟨row, ⟨hrow, (hset row).roomId.symm.trans h.room, hfirst⟩, hset row⟩
  · exact ⟨row', ⟨hrow, h.room, hfirst⟩, .refl row'⟩

/-- A step that keeps the opening of a room keeps its first message short. -/
theorem OpeningStep.opensShort (hstep : OpeningStep before after)
    (hkeeps : KeepsOpening roomId before after) (h : OpensShort roomId before.committed) :
    OpensShort roomId after.committed := by
  intro row hrow
  cases hstep with
  | kept messages => exact h row ((isEarliest_congr messages).1 hrow)
  | stored message fresh opens messages =>
      have hfirst : ∀ other ∈ before.committed.messages, other.roomId = roomId →
          position row ≤ position other := by
        intro other hother
        apply hrow.first
        rw [messages]
        exact List.mem_append_left _ hother
      have hmem := hrow.mem
      rw [messages, List.mem_append, List.mem_singleton] at hmem
      rcases hmem with hold | rfl
      · exact h row ⟨hold, hrow.room, hfirst⟩
      · -- The message is the first one now, so it is short or the room was empty.
        by_contra hlong
        have hsome : HasMessage roomId before.committed := by
          rw [← hrow.room]
          exact opens.resolve_left hlong
        obtain ⟨old, hold, hroom, hlt⟩ := hkeeps.clock hsome row hrow.mem hrow.room fresh hlong
        exact absurd (hfirst old hold hroom) (not_le_of_gt hlt)
  | rewritten cond set same undeleted messages =>
      obtain ⟨old, hold, hsame⟩ := IsEarliest.of_updateWhere same messages hrow
      by_cases htext : row.text = old.text
      · have hshort := h old hold
        unfold IsShort at hshort ⊢
        rwa [htext]
      · exact hkeeps.edited old row hold hrow.mem hsame htext

/-- The logic of the opening: a room that has a message keeps one. -/
def openingLogic : Logic ChatState ChatRequest Failure ChatAnswer where
  invariant _ := True
  rely _ before after := KeepsMessages before.committed after.committed
  guarantee _ _ := OpeningStep
  allowed _ _ := True
  requires _ _ := True
  ensures _ _ _ _ := True
  rely_refl _ w := .refl w.committed
  rely_trans := .trans
  guarantee_refl _ _ _ := .kept rfl
  rely_of_guarantee _ h := h.keepsMessages

/-! ### Statements -/

section Statements

variable {α β : Type} {request : ChatRequest} {pending : Pending Database Failure} {mode : Mode}
  {rows : Database → List ChatLock} {events : List ChatEvent}

theorem takes_evaluate {read : Database → Except Failure β} {trace : β → List ChatEvent} :
    (evaluate pending mode rows read trace : ChatProg β).Takes OpeningStep pid := by
  apply Prog.Takes.attempt
  intro before reply after hact
  cases hact <;> exact .kept rfl

theorem takes_record {entries : Database → List ChatEvent} :
    (record entries).Takes OpeningStep pid := by
  refine ⟨?_, fun _ => trivial⟩
  intro before reply after hact
  rw [hact]
  exact .kept rfl

theorem takes_anything : (Prog.anything β : ChatProg β).Takes OpeningStep pid :=
  Prog.Takes.anything fun _ => .kept rfl

/-- A write of a transaction, and the rest with what it has written so far. -/
theorem takes_writing {write : Database → Except Failure Database}
    {rest : Pending Database Failure → ChatProg β}
    (hrest : (rest (pending.andThen write)).Takes OpeningStep pid) :
    (writing pending mode rows write >>= rest : ChatProg β).Takes OpeningStep pid := by
  refine ⟨takes_evaluate.1, fun reply => ?_⟩
  cases reply with
  | ok _ => exact hrest
  | error failure => trivial

theorem takes_check {outcome : Except Failure β} :
    (MonadExcept.ofExcept outcome : ChatProg β).Takes OpeningStep pid := by
  cases outcome <;> trivial

/-- The end of a transaction whose writes are one step on the messages. -/
theorem takes_commitWrites
    (h : ∀ before s, pending before.committed = .ok s → OpeningStep before (before.finish pid s events)) :
    (commitWrites pending events : ChatProg Unit).Takes OpeningStep pid := by
  apply Prog.Takes.attempt
  intro before reply after hact
  cases hact with
  | committed hwrites => exact h before _ hwrites
  | refused => exact .kept rfl
  | failed => exact .kept rfl

theorem takes_ending : (commitWrites unwritten events : ChatProg Unit).Takes OpeningStep pid := by
  apply takes_commitWrites
  intro before s hwrites
  obtain rfl : before.committed = s := Except.ok.inj hwrites
  exact .kept rfl

theorem takes_inTransaction {body : ChatProg β} (h : body.Takes OpeningStep pid) :
    (inTransaction events body).Takes OpeningStep pid := by
  apply h.tryCatch
  intro failure
  apply Prog.Takes.bind
  · refine ⟨?_, fun _ => trivial⟩
    intro before reply after hact
    rw [hact]
    exact .kept rfl
  · exact fun _ => trivial

theorem takes_requireRoomMember : (requireRoomMember roomId userId).Takes OpeningStep pid :=
  takes_evaluate.bind fun _ => takes_check

theorem takes_findExisting {idempotencyKey : Option String} :
    (findExisting roomId userId idempotencyKey).Takes OpeningStep pid := by
  cases idempotencyKey with
  | none => trivial
  | some key => exact takes_evaluate

theorem takes_touchRoom : (touchRoom pending roomId).Takes OpeningStep pid := takes_evaluate

/-- An update of messages that are not deleted, and keep their places. -/
theorem takes_updateMessage {messageId : RowId} {set : Message → Message}
    (hset : ∀ row, SameMessage row (set row)) :
    (updateMessage messageId userId set).Takes OpeningStep pid := by
  apply takes_inTransaction
  apply takes_evaluate.bind
  intro found
  apply Prog.Takes.bind
  · apply takes_commitWrites
    intro before s hwrites
    obtain rfl := Except.ok.inj hwrites
    have hundeleted : ∀ row, isOwnMessage messageId userId row → row.deletedAt = none := by
      intro row hrow
      simp only [isOwnMessage, decide_eq_true_eq] at hrow
      exact hrow.2.2
    exact .rewritten _ set hset hundeleted rfl
  · exact fun _ => trivial

theorem takes_notifyAll {recipientIds : List Uuid} :
    (notifyAll message recipientIds).Takes OpeningStep pid := by
  induction recipientIds with
  | nil => trivial
  | cons recipientId recipientIds ih => exact takes_record.bind fun _ => ih

theorem takes_announce {result : CreateResult} :
    (announce roomId userId result).Takes OpeningStep pid := by
  obtain ⟨found, created⟩ := result
  apply takes_record.bind
  intro _
  cases found with
  | none => trivial
  | some message =>
      apply takes_check.bind
      intro _
      apply Prog.Takes.bind
      · cases created with
        | false => trivial
        | true => exact takes_record.bind fun _ => takes_evaluate.bind fun _ => takes_notifyAll
      · exact fun _ => trivial

theorem takes_replayMessage {idempotencyKey : Option String} :
    (replayMessage roomId userId idempotencyKey).Takes OpeningStep pid :=
  takes_findExisting.bind fun _ => takes_ending.bind fun _ => trivial

end Statements

/-! ### Calls -/

section Calls

variable {α : Type} {request : ChatRequest} {text : Text} {idempotencyKey : Option String}

/-- A call of steps that need nothing of the others. -/
theorem holds_opening {program : ChatProg α} (h : program.Takes OpeningStep pid) :
    openingLogic.Holds request pid program (fun _ _ => True) (fun _ _ => True) w :=
  Logic.holds_of_takes h (fun _ _ hstep => ⟨trivial, hstep⟩) fun _ _ => trivial

theorem stable_nothing (_ : Failure) : openingLogic.Stable pid fun _ => True := fun _ _ _ _ h => h

theorem stable_hasMessage : openingLogic.Stable pid fun w => HasMessage roomId w.committed :=
  fun _ _ hrely _ h => h.of_same hrely

/-- The insertion of a short message, or into a room that has one. -/
theorem opening_commitMessage
    (h : IsShort message ∨ HasMessage message.roomId w.committed) :
    openingLogic.Holds request pid (commitMessage message) (fun _ _ => True) (fun _ _ => True) w := by
  have hstable : openingLogic.Stable pid
      fun w => IsShort message ∨ HasMessage message.roomId w.committed :=
    fun _ _ hrely _ hor => hor.imp_right fun hsome => stable_hasMessage hrely trivial hsome
  apply Logic.Holds.bind
  apply ((holds_opening takes_touchRoom).frame h hstable ?_).mono ?_ fun _ _ _ h => h
  · intro before after hstep hor
    exact hor.imp_right fun hsome => hsome.of_same (OpeningStep.keepsMessages hstep)
  intro _ s _ hopens
  apply Logic.Holds.bind
  apply holds_commitWrites (fun w => IsShort message ∨ HasMessage message.roomId w.committed)
    hstable hopens.2
  · intro before s hopens _ hwrites _
    obtain ⟨hfresh, -, rfl⟩ := insertMessage_ok hwrites
    refine ⟨trivial, .stored message hfresh hopens rfl, ?_⟩
    exact fun _ _ _ => Logic.holds_pure fun _ _ _ => trivial
  · exact fun _ _ _ _ _ _ _ _ => trivial

/-- A send of a short text, or into a room that has a message. -/
theorem opening_createMessage
    (h : utf16Length text ≤ firstMessageMaxLength ∨ HasMessage roomId w.committed) :
    openingLogic.Holds request pid (createMessage roomId userId text idempotencyKey)
      (fun _ _ => True) (fun _ _ => True) w := by
  have hstable : openingLogic.Stable pid
      fun w => utf16Length text ≤ firstMessageMaxLength ∨ HasMessage roomId w.committed :=
    fun _ _ hrely _ hor => hor.imp_right fun hsome => stable_hasMessage hrely trivial hsome
  have hkept {before after : ChatState} (hstep : OpeningStep before after)
      (hor : utf16Length text ≤ firstMessageMaxLength ∨ HasMessage roomId before.committed) :
      utf16Length text ≤ firstMessageMaxLength ∨ HasMessage roomId after.committed :=
    hor.imp_right fun hsome => hsome.of_same hstep.keepsMessages
  apply holds_inTransaction ?_ stable_nothing
  · intro before failure _ _
    exact ⟨trivial, .kept rfl, fun _ _ _ => trivial⟩
  apply Logic.Holds.bind
  apply ((holds_opening takes_anything).frame h hstable hkept).mono ?_ fun _ _ _ h => h
  intro createdAt s₁ _ h₁
  apply Logic.Holds.bind
  apply ((holds_opening takes_anything).frame h₁.2 hstable hkept).mono ?_ fun _ _ _ h => h
  intro id s₂ _ h₂
  -- What is returned is the row itself, whose text is the one that was counted.
  apply Logic.Holds.bind
  apply holds_evaluate _ hstable h₂.2
  · intro before found hor _ _ hread
    refine ⟨trivial, .kept rfl, fun later hrely _ => ?_⟩
    cases found with
    | none => exact holds_opening takes_replayMessage
    | some message =>
        obtain ⟨rfl, -⟩ := insertOnConflictDoNothing_some hread
        apply opening_commitMessage
        apply (hstable hrely trivial hor).imp_left
        intro hshort
        unfold IsShort
        rwa [String.toList_ofList]
  · exact fun _ _ _ _ _ _ _ _ => trivial

/-- A send counts the messages of the room first. -/
theorem opening_sendNew : openingLogic.Holds request pid (sendNew roomId userId text idempotencyKey)
    (fun _ _ => True) (fun _ _ => True) w := by
  have hstable (count : ℕ) : openingLogic.Stable pid
      fun w => count ≠ 0 → HasMessage roomId w.committed :=
    fun _ _ hrely _ h hcount => (h hcount).of_same hrely
  apply Logic.Holds.bind
  apply holds_evaluate (fun _ => True) (fun _ _ _ _ h => h) trivial
  · intro before count _ _ _ hread
    obtain rfl : activeMessageCount roomId before.committed = count := Except.ok.inj hread
    refine ⟨trivial, .kept rfl, fun later hrely _ => ?_⟩
    have hlater := hstable _ hrely trivial hasMessage_of_count
    -- Either the room has a message from here on, or the text has been found short.
    cases hcheck : throwIf (.error "FIRST_MESSAGE_TEXT_TOO_LONG" : Failure)
        (activeMessageCount roomId before.committed = 0 ∧ 30 < utf16Length text) with
    | error failure => exact Logic.holds_throw fun _ _ _ => trivial
    | ok _ =>
        have hor : utf16Length text ≤ firstMessageMaxLength ∨ HasMessage roomId later.committed := by
          have hnot := throwIf_eq_ok_iff.1 hcheck
          by_cases hcount : activeMessageCount roomId before.committed = 0
          · left
            exact not_lt.1 fun hlong => hnot ⟨hcount, hlong⟩
          · exact Or.inr (hlater hcount)
        change openingLogic.Holds request pid (createMessage roomId userId text idempotencyKey >>=
          fun result => announce roomId userId result) _ _ later
        apply Logic.Holds.bind
        apply (opening_createMessage hor).mono ?_ fun _ _ _ h => h
        exact fun result s _ _ => holds_opening takes_announce
  · exact fun _ _ _ _ _ _ _ _ => trivial

/-- One program that needs nothing of the others, and then the rest. -/
theorem holds_opening_bind {β : Type} {first : ChatProg β} {rest : β → ChatProg α}
    (hfirst : first.Takes OpeningStep pid)
    (hrest : ∀ value s, openingLogic.Holds request pid (rest value) (fun _ _ => True)
      (fun _ _ => True) s) :
    openingLogic.Holds request pid (first >>= rest) (fun _ _ => True) (fun _ _ => True) w :=
  Logic.Holds.bind ((holds_opening hfirst).mono (fun value s _ _ => hrest value s) fun _ _ _ h => h)

theorem opening_lookUp : openingLogic.Holds request pid (lookUp roomId userId text idempotencyKey)
    (fun _ _ => True) (fun _ _ => True) w := by
  apply holds_opening_bind takes_findExisting
  intro found s
  cases found with
  | none => exact opening_sendNew
  | some existing => exact holds_opening (takes_check.bind fun _ => trivial)

theorem opening_sendMessage {input : SendMessageInput} :
    openingLogic.Holds request pid (sendMessage userId input) (fun _ _ => True) (fun _ _ => True) w := by
  apply holds_opening_bind takes_record
  intro _ s₁
  apply holds_opening_bind takes_check
  intro text s₂
  apply holds_opening_bind takes_check
  intro roomId s₃
  apply holds_opening_bind takes_requireRoomMember
  intro _ s₄
  apply holds_opening_bind takes_check
  exact fun _ _ => opening_lookUp

theorem takes_editMessage {messageId : Option RowId} :
    (editMessage userId messageId text).Takes OpeningStep pid := by
  apply takes_check.bind
  intro messageId
  apply takes_check.bind
  intro text
  apply Prog.Takes.bind
  · apply takes_updateMessage
    exact fun _ => ⟨rfl, rfl, rfl, rfl, rfl⟩
  intro found
  cases found with
  | none => trivial
  | some message =>
      apply (takes_inTransaction (takes_touchRoom.bind fun _ => takes_ending)).bind
      exact fun _ => takes_record.bind fun _ => trivial

theorem takes_deleteMessage {messageId : Option RowId} :
    (deleteMessage userId messageId).Takes OpeningStep pid := by
  apply takes_check.bind
  intro messageId
  apply takes_anything.bind
  intro deletedAt
  apply Prog.Takes.bind
  · apply takes_updateMessage
    exact fun _ => ⟨rfl, rfl, rfl, rfl, rfl⟩
  intro found
  cases found with
  | none => trivial
  | some message => exact takes_record.bind fun _ => trivial

/-- A receipt leaves the messages alone. -/
theorem takes_markRoomRead {room : Option RowId} :
    (markRoomRead userId room).Takes OpeningStep pid := by
  apply takes_check.bind
  intro roomId
  apply takes_requireRoomMember.bind
  intro _
  apply takes_inTransaction
  apply takes_evaluate.bind
  intro newest
  cases newest with
  | none => exact takes_ending
  | some message =>
      apply takes_writing
      apply takes_commitWrites
      intro before s hwrites
      obtain rfl := Except.ok.inj hwrites
      exact .kept rfl

theorem takes_listRooms : (listRooms userId).Takes OpeningStep pid :=
  Prog.Takes.bind takes_check fun _ => takes_evaluate

/-- What a call throws is its answer. -/
theorem opening_answering {call : ChatProg α} {answer : α → ChatAnswer}
    (h : openingLogic.Holds request pid call (fun _ _ => True) (fun _ _ => True) w) :
    openingLogic.Holds request pid (answering call answer) (fun _ _ => True) (fun _ _ => True) w := by
  have hcall : openingLogic.Holds request pid (call >>= fun value => pure (answer value))
      (fun _ _ => True) (fun _ _ => True) w := by
    apply Logic.Holds.bind
    exact h.mono (fun _ _ _ _ => Logic.holds_pure fun _ _ _ => trivial) fun _ _ _ h => h
  apply Logic.Holds.tryCatch
  exact hcall.mono (fun _ _ _ h => h) fun _ _ _ _ => Logic.holds_pure fun _ _ _ => trivial

end Calls

/-! ### Runs -/

theorem sound_opening : openingLogic.Sound chatSystem where
  accepts _ _ := trivial
  code := by
    intro request w pid _ _ _
    have hcode : openingLogic.Holds request pid (chatCode request) (fun _ _ => True)
        (fun _ _ => True) w := by
      cases request with
      | sendMessage userId input => exact opening_answering opening_sendMessage
      | editMessage userId messageId text => exact opening_answering (holds_opening takes_editMessage)
      | deleteMessage userId messageId => exact opening_answering (holds_opening takes_deleteMessage)
      | markRoomRead userId roomId => exact opening_answering (holds_opening takes_markRoomRead)
      | rooms userId => exact opening_answering (holds_opening takes_listRooms)
    exact hcode.mono (fun _ _ _ _ => trivial) fun _ _ _ _ => trivial
  environment := by
    intro before after hmoves _ _
    refine ⟨trivial, fun _ => .of_subset fun row hrow => ?_⟩
    rwa [hmoves.messages]
  rollback pid _ := ⟨trivial, fun _ _ => .refl _⟩

/-- In a run whose steps keep the opening of a room that starts without messages, the first
message of the room is short in every state. -/
theorem opening_short (hempty : ∀ row ∈ start.messages, row.roomId ≠ roomId)
    (hrun : Reachable chatSystem (KeepsOpening roomId) (chatAtRest start) c) :
    ∀ row, IsEarliest roomId row c.state.committed →
      utf16Length row.text.toList ≤ firstMessageMaxLength := by
  have hstart : OpensShort roomId start := fun row hrow => absurd hrow.room (hempty row hrow.mem)
  have hgood : openingLogic.Good (chatAtRest start) := Logic.good_idle trivial fun _ => trivial
  apply Logic.Sound.preserves (fun w => OpensShort roomId w.committed) sound_opening hgood hrun
  · exact fun _ _ _ => trivial
  · exact hstart
  · exact fun _ hstep hkeeps hopens => OpeningStep.opensShort hstep hkeeps hopens
  · intro w w' hmoves hopens row hrow
    exact hopens row ((isEarliest_congr (OtherWrites.messages hmoves)).1 hrow)
  · exact fun _ _ hopens => hopens

/-- Nothing is edited, and no room has a message before. -/
theorem keepsOpening_of_empty (h : before.committed.messages = []) : KeepsOpening roomId before after where
  edited row row' hrow := by
    have hmem := hrow.mem
    rw [h] at hmem
    cases hmem
  clock hsome := by
    obtain ⟨row, hmem, -⟩ := hsome
    rw [h] at hmem
    cases hmem

/-- Messages are added after one that was there. -/
theorem keepsOpening_of_grows (hids : UniqueKey Message.id after.committed.messages)
    (hsub : before.committed.messages ⊆ after.committed.messages)
    (hlater : ∀ row ∈ after.committed.messages, row ∉ before.committed.messages →
      ∃ old ∈ before.committed.messages, old.roomId = roomId ∧ position old < position row) :
    KeepsOpening roomId before after where
  edited row row' hrow hmem hsame htext := by
    obtain rfl := hids.eq_of_key hmem (hsub hrow.mem) hsame.id
    exact absurd rfl htext
  clock _ row hmem _ hnew _ := hlater row hmem fun hold => hnew row hold rfl

/-- A text that no first message may have. -/
def longText : Text := List.replicate 31 'a'

/-- Bob's answer to the first message. -/
def longReply : Message := sentRow 0 bob longText 2 20

def repliedCommitted : Database := { firstCommitted with messages := [slowMessage, longReply] }

theorem isEarliest_slowMessage : IsEarliest 0 slowMessage repliedCommitted where
  mem := List.mem_cons_self
  room := rfl
  first other hother _ := by
    rcases List.mem_pair.1 hother with rfl | rfl
    · exact le_rfl
    · decide

/-- Alice sends a short first message, and Bob a long answer. -/
theorem opening_short_first : ∃ c : Config ChatState ChatRequest Failure ChatAnswer,
    Reachable chatSystem (KeepsOpening 0) (chatAtRest emptyRoom) c ∧
      longReply ∈ c.state.committed.messages ∧
      firstMessageMaxLength < utf16Length longReply.text.toList ∧
      IsEarliest 0 slowMessage c.state.committed ∧
      utf16Length slowMessage.text.toList ≤ firstMessageMaxLength := by
  let w : ChatState := .ofCommitted emptyRoom
  let w₁ : ChatState := w.enter 0 .keyShare [] [.started false]
  let w₂ : ChatState := w₁.enter 0 .noKeyUpdate [.room 0] []
  let w₃ : ChatState := w₂.finish 0 firstCommitted [.created slowMessage]
  let w₄ : ChatState := w₃.enter 1 .keyShare [] [.started false]
  let w₅ : ChatState := w₄.enter 1 .noKeyUpdate [.room 0] []
  let w₆ : ChatState := w₅.finish 1 repliedCommitted [.created longReply]
  have hempty {before after : ChatState} (h : before.committed = emptyRoom) :
      KeepsOpening 0 before after := keepsOpening_of_empty (by rw [h]; rfl)
  have hquiet {before after : ChatState} (hbefore : before.committed = firstCommitted)
      (hafter : after.committed = firstCommitted) : KeepsOpening 0 before after := by
    apply keepsOpening_of_grows
    · rw [hafter]
      exact List.nodup_singleton _
    · rw [hbefore, hafter]
      exact List.Subset.refl _
    · rw [hbefore, hafter]
      exact fun row hrow hnew => absurd hrow hnew
  -- The answer comes after the first message.
  have hreply : KeepsOpening 0 w₅ w₆ := by
    apply keepsOpening_of_grows
    · change UniqueKey Message.id repliedCommitted.messages
      unfold UniqueKey
      decide
    · intro row hrow
      rw [List.mem_singleton.1 hrow]
      exact List.mem_cons_self
    · intro row hrow hnew
      refine ⟨slowMessage, List.mem_singleton_self _, rfl, ?_⟩
      rcases List.mem_pair.1 hrow with rfl | rfl
      · exact absurd (List.mem_singleton_self _) hnew
      · decide
  have hfree (pid : ℕ) {mode : Mode} {row : ChatLock} : Free [] pid mode row :=
    free_of_alone fun _ hlock => absurd hlock List.not_mem_nil
  -- The room is read twice, then the message is inserted and committed.
  have hruns : Runs (KeepsOpening 0) 0 (sendMessage alice greeting) w
      (announce 0 alice ⟨some slowMessage, true⟩) w₃ :=
    .step () w₁ rfl (hempty rfl) <|
    .step (.ok true) w₁ (.returned (fun _ hrow => nomatch hrow) rfl) (hempty rfl) <|
    .step (.ok 0) w₁ (.returned (fun _ hrow => nomatch hrow) rfl) (hempty rfl) <|
    .step 10 w₁ rfl (hempty rfl) <|
    .step 1 w₁ rfl (hempty rfl) <|
    .step (.ok (some slowMessage)) w₁ (.returned (fun _ hrow => nomatch hrow) rfl) (hempty rfl) <|
    .step (.ok ()) w₂ (.returned (fun _ _ => hfree 0) rfl) (hempty rfl) <|
    .step (.ok ()) w₃ (.committed rfl) (hempty rfl) .refl
  have hruns' : Runs (KeepsOpening 0) 1 (sendMessage bob ⟨some 0, longText, none⟩) w₃
      (announce 0 bob ⟨some longReply, true⟩) w₆ :=
    .step () w₄ rfl (hquiet rfl rfl) <|
    .step (.ok true) w₄ (.returned (fun _ hrow => nomatch hrow) rfl) (hquiet rfl rfl) <|
    .step (.ok 1) w₄ (.returned (fun _ hrow => nomatch hrow) rfl) (hquiet rfl rfl) <|
    .step 20 w₄ rfl (hquiet rfl rfl) <|
    .step 2 w₄ rfl (hquiet rfl rfl) <|
    .step (.ok (some longReply)) w₄ (.returned (fun _ hrow => nomatch hrow) rfl) (hquiet rfl rfl) <|
    .step (.ok ()) w₅ (.returned (fun _ _ => hfree 1) rfl) (hquiet rfl rfl) <|
    .step (.ok ()) w₆ (.committed rfl) hreply .refl
  let answer : ChatMessagePayload → ChatProg ChatAnswer := fun payload => pure (.message payload)
  let failed : Failure → ChatProg ChatAnswer := fun failure => pure (.failed failure)
  let sent₁ : Thread ChatState ChatRequest Failure ChatAnswer := ⟨.sendMessage alice greeting,
    tryCatch (announce 0 alice ⟨some slowMessage, true⟩ >>= answer) failed⟩
  let sent₂ : Thread ChatState ChatRequest Failure ChatAnswer :=
    ⟨.sendMessage bob ⟨some 0, longText, none⟩,
      tryCatch (announce 0 bob ⟨some longReply, true⟩ >>= answer) failed⟩
  have hsent : Reachable chatSystem (KeepsOpening 0) (chatAtRest emptyRoom) ⟨w₃, [sent₁]⟩ :=
    Reachable.serve Relation.ReflTransGen.refl trivial (hempty rfl)
      (Runs.tryCatch (Runs.bind hruns answer) failed)
  have hrun : Reachable chatSystem (KeepsOpening 0) (chatAtRest emptyRoom) ⟨w₆, [sent₁, sent₂]⟩ :=
    hsent.serve trivial (hquiet rfl rfl) (Runs.tryCatch (Runs.bind hruns' answer) failed)
  have hmem : longReply ∈ repliedCommitted.messages := List.mem_cons_of_mem _ List.mem_cons_self
  refine ⟨_, hrun, hmem, by decide, isEarliest_slowMessage, ?_⟩
  exact opening_short (List.forall_mem_nil _) hrun slowMessage isEarliest_slowMessage

/-! ### An edit -/

def editedMessage : Message := { slowMessage with text := String.ofList longText }

/-- An edit that no one disturbs comes to the end of its update. -/
theorem runs_editMessage {messageId : RowId} {text trimmed : Text} (hlocks : OnlyOf pid w)
    (htext : validateText text = .ok trimmed) :
    ∃ program w', Runs anyStep pid (editMessage userId (some messageId) text) w program w' ∧
      w'.committed = updateOwn messageId userId (fun row => { row with text := String.ofList trimmed })
        w.committed := by
  obtain ⟨found, w', hupdate, hcommitted⟩ := performs_updateMessage hlocks messageId userId
    fun row => { row with text := String.ofList trimmed }
  have hid : validateUuid (some messageId) "MESSAGE_ID_INVALID" = .ok messageId := rfl
  apply Exists.intro
  apply Exists.intro
  constructor
  · apply (performs_check hid).follow
    apply (performs_check htext).follow
    exact hupdate.follow .refl
  · exact hcommitted

/-- Alice sends a short first message and makes it a long one afterwards. -/
theorem opening_edited : ∃ c : Config ChatState ChatRequest Failure ChatAnswer,
    Reachable chatSystem anyStep (chatAtRest emptyRoom) c ∧ emptyRoom.messages = [] ∧
      c.threads.map (·.request) =
        [.sendMessage alice greeting, .editMessage alice (some 1) longText] ∧
      IsEarliest 0 editedMessage c.state.committed ∧
      firstMessageMaxLength < utf16Length editedMessage.text.toList := by
  let w : ChatState := .ofCommitted emptyRoom
  let w₁ : ChatState := w.enter 0 .keyShare [] [.started false]
  let w₂ : ChatState := ⟨firstCommitted, [], (0, .created slowMessage) :: w₁.log⟩
  have hinserted : insertMessage slowMessage emptyRoom = .ok firstCommitted := by rfl
  -- The send is short, and its transaction ends.
  have hinsertion : Runs anyStep 0 (sendMessage alice greeting) w
      (inTransaction [.rolledBack] (commitMessage slowMessage) >>= announce 0 alice) w₁ :=
    runs_insertion validateText_greeting (by decide) (by decide) hinserted
  have hsend : Runs anyStep 0 (sendMessage alice greeting) w
      (announce 0 alice ⟨some slowMessage, true⟩) w₂ :=
    hinsertion.trans
      (Performs.follow (performs_commitMessage (fun _ hlock => nomatch hlock) hinserted) .refl)
  -- The edit is checked against the limit of 90 alone.
  have htext : validateText longText = .ok longText := by decide
  have hlocks : OnlyOf 1 w₂ := List.forall_mem_nil _
  obtain ⟨program, w₃, hedit, hcommitted⟩ : ∃ program w₃,
      Runs anyStep 1 (editMessage alice (some 1) longText) w₂ program w₃ ∧
        w₃.committed = updateOwn 1 alice (fun row => { row with text := String.ofList longText })
          firstCommitted := runs_editMessage hlocks htext
  have hedited : w₃.committed.messages = [editedMessage] := by
    rw [hcommitted]
    rfl
  let answer : ChatMessagePayload → ChatProg ChatAnswer := fun payload => pure (.message payload)
  let failed : Failure → ChatProg ChatAnswer := fun failure => pure (.failed failure)
  have hfirst : Reachable chatSystem anyStep (chatAtRest emptyRoom)
      ⟨w₂, [⟨.sendMessage alice greeting,
        tryCatch (announce 0 alice ⟨some slowMessage, true⟩ >>= answer) failed⟩]⟩ :=
    Reachable.serve Relation.ReflTransGen.refl trivial trivial
      (Runs.tryCatch (Runs.bind hsend answer) failed)
  have hsecond : Reachable chatSystem anyStep (chatAtRest emptyRoom)
      ⟨w₃, [⟨.sendMessage alice greeting,
        tryCatch (announce 0 alice ⟨some slowMessage, true⟩ >>= answer) failed⟩,
        ⟨.editMessage alice (some 1) longText, tryCatch (program >>= answer) failed⟩]⟩ :=
    hfirst.serve trivial trivial (Runs.tryCatch (Runs.bind hedit answer) failed)
  refine ⟨_, hsecond, rfl, rfl, ⟨?_, rfl, ?_⟩, by decide⟩
  · rw [hedited]
    exact List.mem_cons_self
  · intro other hother _
    rw [hedited, List.mem_singleton] at hother
    rw [hother]

end ChatTea.Chat
