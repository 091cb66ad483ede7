import ChatTea.Matching.Statements

/-!
# Blocks between interleaved actions

Two users act on each other and block each other, while the rest of the service goes on. An
action that has looked for a block is not kept from committing by a block that is committed
meanwhile, for a block waits for no lock of matching.

## Main definitions

* `AddsNothing` — no like, action, match or room of two users is added
* `blockSystem` — the calls of two users, next to everything else
* `SettledBlock` — a block that is committed while no action is past its check

## Main results

* `block_final` — after such a block nothing is added
* `runs_refused` — a like that finds the block is refused
* `block_overtaken` — after another one, an action may still be
-/

namespace ChatTea.Matching

open History Interleaving ReadCommitted RowLocks Statements Table Transaction

variable {a b : Uuid} {db db' db'' : Database} {w after : MatchingState} {pid : ℕ}

/-! ### What is added for two users -/

/-- The two users, in either order. -/
def AreBoth (a b x y : Uuid) : Prop := x = a ∧ y = b ∨ x = b ∧ y = a

instance (a b x y : Uuid) : Decidable (AreBoth a b x y) := inferInstanceAs (Decidable (_ ∨ _))

/-- Both users are members of the room. -/
def RoomOf (a b : Uuid) (db : Database) (room : Room) : Prop :=
  { roomId := room.id, userId := a : RoomMember } ∈ db.roomMembers ∧
    { roomId := room.id, userId := b : RoomMember } ∈ db.roomMembers

/-- No like, action, match or room of two users is added. -/
structure AddsNothing (a b : Uuid) (before after : Database) : Prop where
  likes : ∀ row ∈ after.userLikes, AreBoth a b row.likerUserId row.likedUserId →
    row ∈ before.userLikes
  actions : ∀ row ∈ after.matchActions, AreBoth a b row.actorUserId row.targetUserId →
    ∃ old ∈ before.matchActions, old.id = row.id ∧
      AreBoth a b old.actorUserId old.targetUserId
  matchRows : ∀ row ∈ after.matchRows, Match.Joins row a b → row ∈ before.matchRows
  rooms : ∀ room ∈ after.rooms, RoomOf a b after room → room ∈ before.rooms ∧ RoomOf a b before room

theorem AddsNothing.of_same (hlikes : db'.userLikes = db.userLikes)
    (hactions : db'.matchActions = db.matchActions) (hrows : db'.matchRows = db.matchRows)
    (hrooms : db'.rooms = db.rooms) (hmembers : db'.roomMembers = db.roomMembers) :
    AddsNothing a b db db' where
  likes row hrow _ := by rwa [hlikes] at hrow
  actions row hrow hboth := by
    rw [hactions] at hrow
    exact ⟨row, hrow, rfl, hboth⟩
  matchRows row hrow _ := by rwa [hrows] at hrow
  rooms room hroom hmember := by
    unfold RoomOf at hmember ⊢
    rw [hmembers] at hmember
    rw [hrooms] at hroom
    exact ⟨hroom, hmember⟩

theorem AddsNothing.refl (a b : Uuid) (db : Database) : AddsNothing a b db db :=
  .of_same rfl rfl rfl rfl rfl

theorem AddsNothing.trans (h : AddsNothing a b db db') (h' : AddsNothing a b db' db'') :
    AddsNothing a b db db'' where
  likes row hrow hboth := h.likes row (h'.likes row hrow hboth) hboth
  actions row hrow hboth := by
    obtain ⟨old, hold, hid, hboth'⟩ := h'.actions row hrow hboth
    obtain ⟨first, hfirst, hid', hboth''⟩ := h.actions old hold hboth'
    exact ⟨first, hfirst, hid'.trans hid, hboth''⟩
  matchRows row hrow hjoins := h.matchRows row (h'.matchRows row hrow hjoins) hjoins
  rooms room hroom hmember := by
    obtain ⟨hroom', hmember'⟩ := h'.rooms room hroom hmember
    exact h.rooms room hroom' hmember'

/-! ### The system -/

/-- The rest of the service: no block is removed, and nothing is added for the two. -/
structure OtherWrites (a b : Uuid) (before after : MatchingState) : Prop where
  blocks : ∀ row ∈ before.committed.userBlocks, row ∈ after.committed.userBlocks
  adds : AddsNothing a b before.committed after.committed
  log : after.log = before.log

/-- A call of one of the two users about the other. -/
def MatchingRequest.Between (a b : Uuid) : MatchingRequest → Prop
  | .actOnCandidate input => AreBoth a b input.userId.toUuid input.targetUserId.toUuid
  | .blockUser blockerUserId blockedUserId => AreBoth a b blockerUserId.toUuid blockedUserId.toUuid
  | .undoLastAction _ => False
  | .activateBoost _ _ => False

def blockSystem (a b : Uuid) : System MatchingState MatchingRequest Failure MatchingAnswer where
  code := matchingCode
  accepts request := request.Between a b
  environment := OtherWrites a b
  rollback pid w := w.finish pid w.committed [.ended]

/-- The action of a thread has found no block, and has not ended. -/
def PastCheck (pid : ℕ) (w : MatchingState) : Prop :=
  .checkedBlocks ∈ own pid w.log ∧ .ended ∉ own pid w.log

/-- A block is committed only while no action is past its check. -/
def SettledBlock (a b : Uuid) (before after : MatchingState) : Prop :=
  ¬ isBlocked a b before.committed → isBlocked a b after.committed → ∀ pid, ¬ PastCheck pid before

theorem isBlocked_iff : isBlocked a b db ↔ ∃ row ∈ db.userBlocks,
    AreBoth a b row.blockerUserId row.blockedUserId := by
  simp [isBlocked, AreBoth]

theorem isBlocked_of_both {x y : Uuid} (hboth : AreBoth a b x y) :
    isBlocked x y db = isBlocked a b db := by
  rcases hboth with ⟨rfl, rfl⟩ | ⟨rfl, rfl⟩
  · rfl
  · simp only [isBlocked, or_comm]

theorem isBlocked_of_subset (h : ∀ row ∈ db.userBlocks, row ∈ db'.userBlocks)
    (hblocked : isBlocked a b db) : isBlocked a b db' := by
  rw [isBlocked_iff] at hblocked ⊢
  obtain ⟨row, hrow, hboth⟩ := hblocked
  exact ⟨row, h row hrow, hboth⟩

/-! ### What each step keeps -/

/-- What a step of a thread does to two users of whom one has blocked the other. -/
structure BlockStep (a b : Uuid) (pid : ℕ) (before after : MatchingState) : Prop where
  log : ∃ events, after.log = stamp pid events ++ before.log
  final : isBlocked a b before.committed → isBlocked a b after.committed ∧
    AddsNothing a b before.committed after.committed

/-- The logic of the blocks between two users: once there is one, no action is past its check. -/
def blockLogic (a b : Uuid) : Logic MatchingState MatchingRequest Failure MatchingAnswer where
  invariant w := isBlocked a b w.committed → ∀ pid, ¬ PastCheck pid w
  rely pid before after := own pid after.log = own pid before.log
  guarantee _ := BlockStep a b
  allowed := SettledBlock a b
  requires request _ := request.Between a b
  ensures _ _ _ _ := True
  fresh pid w := own pid w.log = []
  rely_refl _ _ := rfl
  rely_trans h h' := h'.trans h
  guarantee_refl _ _ w := ⟨⟨[], rfl⟩, fun h => ⟨h, .refl a b w.committed⟩⟩
  rely_of_guarantee := by
    rintro request pid other before after hother ⟨⟨events, hlog⟩, -⟩
    rw [hlog, own_stamp_append_other hother]
  fresh_of_rely h h' := h.trans h'

variable {request : MatchingRequest} {events : List MatchingEvent} {α β : Type}

/-- What the thread has done so far. -/
def Done (pid : ℕ) (events : List MatchingEvent) (w : MatchingState) : Prop := own pid w.log = events

theorem stable_done : (blockLogic a b).Stable pid (Done pid events) :=
  fun _ _ hrely _ h => Eq.trans hrely h

/-- A step that enters no check leaves no more actions past theirs. -/
theorem pastCheck_of_stamp {other : ℕ} (hlog : after.log = stamp pid events ++ w.log)
    (hevents : .checkedBlocks ∉ events) (hpast : PastCheck other after) : PastCheck other w := by
  unfold PastCheck at hpast ⊢
  rw [hlog] at hpast
  by_cases hother : other = pid
  · subst hother
    rw [own_stamp_append_self, List.mem_append, List.mem_append] at hpast
    exact ⟨hpast.1.resolve_left hevents, fun hended => hpast.2 (Or.inr hended)⟩
  · rwa [own_stamp_append_other hother] at hpast

/-- A step that neither checks nor commits. -/
theorem blockStep_of_same (hinv : (blockLogic a b).invariant w)
    (hlog : after.log = stamp pid events ++ w.log) (hevents : .checkedBlocks ∉ events)
    (hblocks : after.committed.userBlocks = w.committed.userBlocks)
    (hadds : AddsNothing a b w.committed after.committed) :
    (blockLogic a b).invariant after ∧ BlockStep a b pid w after := by
  have hsame : isBlocked a b after.committed = isBlocked a b w.committed := by
    unfold isBlocked
    rw [hblocks]
  refine ⟨fun hblocked other hpast => ?_, ⟨events, hlog⟩, fun hblocked => ⟨?_, hadds⟩⟩
  · rw [hsame] at hblocked
    exact hinv hblocked other (pastCheck_of_stamp hlog hevents hpast)
  · rw [hsame]
    exact hblocked

/-- A statement without an entry. -/
theorem holds_evaluating {pending : Pending Database Failure} {mode : Mode}
    {rows : Database → List MatchingLock} {read : Database → Except Failure β}
    (h : Done pid events w) :
    (blockLogic a b).Holds request pid (evaluate pending mode rows read fun _ => [])
      (fun _ => Done pid events) (fun _ _ => True) w := by
  apply holds_evaluate (Done pid events) stable_done h
  · intro before value hdone hinv _ _
    have hlog : (before.enter pid mode (rows before.committed) []).log =
        stamp pid [] ++ before.log := rfl
    obtain ⟨hafter, hguar⟩ :=
      blockStep_of_same hinv hlog List.not_mem_nil rfl (.refl a b before.committed)
    exact ⟨hafter, hguar, stable_done.later hdone⟩
  · intros
    exact fun _ _ _ => trivial

/-- A statement, and then the rest. -/
theorem holds_next {first : MatchingProg β} {rest : β → MatchingProg α}
    {returns : α → MatchingState → Prop}
    (hfirst : (blockLogic a b).Holds request pid first (fun _ => Done pid events)
      (fun _ _ => True) w)
    (hrest : ∀ value s, Done pid events s →
      (blockLogic a b).Holds request pid (rest value) returns (fun _ _ => True) s) :
    (blockLogic a b).Holds request pid (first >>= rest) returns (fun _ _ => True) w :=
  Logic.Holds.bind (hfirst.mono (fun value s _ hdone => hrest value s hdone) fun _ _ _ h => h)

theorem holds_return {value : α} (h : Done pid events w) :
    (blockLogic a b).Holds request pid (pure value : MatchingProg α) (fun _ => Done pid events)
      (fun _ _ => True) w := Logic.holds_pure (stable_done.later h)

theorem holds_check {outcome : Except Failure β} (h : Done pid events w) :
    (blockLogic a b).Holds request pid (MonadExcept.ofExcept outcome : MatchingProg β)
      (fun _ => Done pid events) (fun _ _ => True) w := by
  cases outcome with
  | ok value => exact holds_return h
  | error failure => exact Logic.holds_throw fun _ _ _ => trivial

theorem holds_look {pending : Pending Database Failure} {read : Database → β}
    (h : Done pid events w) :
    (blockLogic a b).Holds request pid (look pending read) (fun _ => Done pid events)
      (fun _ _ => True) w := holds_evaluating h

theorem holds_writing {pending : Pending Database Failure} {mode : Mode}
    {rows : Database → List MatchingLock} {write : Database → Except Failure Database}
    (h : Done pid events w) :
    (blockLogic a b).Holds request pid (writing pending mode rows write) (fun _ => Done pid events)
      (fun _ _ => True) w :=
  holds_next (holds_evaluating h) fun _ _ hdone => holds_return hdone

theorem holds_randomId (h : Done pid events w) :
    (blockLogic a b).Holds request pid randomId (fun _ => Done pid events) (fun _ _ => True) w := by
  apply holds_draw (Done pid events) stable_done h
  intro before hdone hinv
  let drawn : MatchingState := { before with committed :=
    { before.committed with nextRowId := before.committed.nextRowId + 1 } }
  have hlog : drawn.log = stamp pid [] ++ before.log := rfl
  obtain ⟨hafter, hguar⟩ :=
    blockStep_of_same hinv hlog List.not_mem_nil rfl (.of_same rfl rfl rfl rfl rfl)
  exact ⟨hafter, hguar, stable_done.later hdone⟩

/-! ### The calls -/

/-- The end of a transaction that has written nothing. -/
theorem holds_ending (h : Done pid events w) :
    (blockLogic a b).Holds request pid (commitWrites unwritten [.ended]) (fun _ _ => True)
      (fun _ _ => True) w := by
  apply holds_commitWrites (Done pid events) stable_done h
  · intro before s _ hinv hwrites _
    obtain rfl := Except.ok.inj hwrites
    have hlog : (before.finish pid before.committed [.ended]).log =
        stamp pid [.ended] ++ before.log := rfl
    obtain ⟨hafter, hguar⟩ :=
      blockStep_of_same hinv hlog (by decide) rfl (.refl a b before.committed)
    exact ⟨hafter, hguar, fun _ _ _ => trivial⟩
  · intros
    exact fun _ _ _ => trivial

/-- An action that is past its check commits while there is no block. -/
theorem holds_acting {pending : Pending Database Failure} (h : Done pid [.checkedBlocks] w) :
    (blockLogic a b).Holds request pid (commitWrites pending [.ended]) (fun _ _ => True)
      (fun _ _ => True) w := by
  apply holds_commitWrites (Done pid [.checkedBlocks]) stable_done h
  · intro before s hdone hinv _ hallowed
    have hpast : PastCheck pid before := by
      unfold PastCheck
      rw [show own pid before.log = [.checkedBlocks] from hdone]
      decide
    have hbefore : ¬ isBlocked a b before.committed := fun hblocked => hinv hblocked pid hpast
    refine ⟨fun hblocked => ?_, ⟨⟨[.ended], rfl⟩, fun hblocked => absurd hblocked hbefore⟩,
      fun _ _ _ => trivial⟩
    -- A commit after which there is a block is no commit of an action.
    exact absurd hpast (hallowed hbefore hblocked pid)
  · intros
    exact fun _ _ _ => trivial

theorem holds_remainingCredits {input : ActInput} {pending : Pending Database Failure}
    (h : Done pid events w) :
    (blockLogic a b).Holds request pid (remainingCredits input pending) (fun _ => Done pid events)
      (fun _ _ => True) w := by
  unfold remainingCredits
  split
  · exact holds_look h
  · exact holds_return h

theorem holds_replayAction {input : ActInput} {existing : MatchAction} (h : Done pid [] w) :
    (blockLogic a b).Holds request pid (replayAction input existing) (fun _ _ => True)
      (fun _ _ => True) w := by
  unfold replayAction
  apply holds_next (holds_check h)
  intro _ s hs
  split
  · apply Logic.Holds.bind
    exact (holds_ending hs).mono (fun _ _ _ _ => Logic.holds_pure fun _ _ _ => trivial)
      fun _ _ _ h => h
  · apply holds_next (holds_look hs)
    intro existingMatch s hs
    apply holds_next (holds_remainingCredits hs)
    intro credits s hs
    apply Logic.Holds.bind
    exact (holds_ending hs).mono (fun _ _ _ _ => Logic.holds_pure fun _ _ _ => trivial)
      fun _ _ _ h => h

theorem holds_recordLike {input : ActInput} {pending : Pending Database Failure}
    (h : Done pid events w) :
    (blockLogic a b).Holds request pid (Statements.recordLike input pending)
      (fun _ => Done pid events) (fun _ _ => True) w := by
  unfold Statements.recordLike
  split
  · exact holds_return h
  · apply holds_next (holds_look h)
    intro existing s hs
    cases existing with
    | some row => exact holds_return hs
    | none =>
        apply holds_next (holds_look hs)
        intro count s hs
        apply holds_next (holds_check hs)
        intro _ s hs
        exact holds_writing hs

theorem holds_matchIfReverseExists {userId targetUserId : UuidText}
    {pending : Pending Database Failure} (h : Done pid events w) :
    (blockLogic a b).Holds request pid (Statements.matchIfReverseExists userId targetUserId pending)
      (fun _ => Done pid events) (fun _ _ => True) w := by
  unfold Statements.matchIfReverseExists
  apply holds_next (holds_look h)
  intro reverse s hs
  cases reverse with
  | none => exact holds_return hs
  | some row =>
      apply holds_next (holds_look hs)
      intro existing s hs
      cases existing with
      | some row => exact holds_return hs
      | none =>
          apply holds_next (holds_randomId hs)
          intro roomId s hs
          apply holds_next (holds_writing hs)
          intro pending s hs
          apply holds_next (holds_writing hs)
          intro pending s hs
          apply holds_next (holds_writing hs)
          intro pending s hs
          exact holds_return hs

theorem holds_finishAction {input : ActInput} {pending : Pending Database Failure}
    (h : Done pid [.checkedBlocks] w) :
    (blockLogic a b).Holds request pid (finishAction input pending) (fun _ _ => True)
      (fun _ _ => True) w := by
  unfold finishAction
  split
  · apply Logic.Holds.bind
    exact (holds_acting h).mono (fun _ _ _ _ => Logic.holds_pure fun _ _ _ => trivial)
      fun _ _ _ h => h
  · apply holds_next (holds_matchIfReverseExists h)
    intro found s hs
    apply holds_next (holds_remainingCredits hs)
    intro credits s hs
    apply Logic.Holds.bind
    exact (holds_acting hs).mono (fun _ _ _ _ => Logic.holds_pure fun _ _ _ => trivial)
      fun _ _ _ h => h

theorem holds_storeAction {input : ActInput} (h : Done pid [.checkedBlocks] w) :
    (blockLogic a b).Holds request pid (storeAction input) (fun _ _ => True) (fun _ _ => True) w := by
  unfold storeAction
  have hcharge : (blockLogic a b).Holds request pid (Statements.spendSuperLike input unwritten)
      (fun _ => Done pid [.checkedBlocks]) (fun _ _ => True) w := by
    unfold Statements.spendSuperLike
    split
    · exact holds_writing h
    · exact holds_return h
  apply holds_next hcharge
  intro pending s hs
  apply holds_next (holds_recordLike hs)
  intro pending s hs
  apply holds_next (holds_randomId hs)
  intro id s hs
  apply holds_next (holds_writing hs)
  intro pending s hs
  exact holds_finishAction hs

/-- The check finds no block, or the action ends. -/
theorem holds_createAction {input : ActInput}
    (hinput : AreBoth a b input.userId.toUuid input.targetUserId.toUuid) (h : Done pid [] w) :
    (blockLogic a b).Holds request pid (Statements.createAction input) (fun _ _ => True)
      (fun _ _ => True) w := by
  unfold Statements.createAction
  apply holds_next (holds_look h)
  intro actor s hs
  apply holds_next (holds_look hs)
  intro target s hs
  apply holds_next (holds_check hs)
  intro _ s hs
  apply Logic.Holds.bind
  apply holds_evaluate (Done pid []) stable_done hs
  · intro before _ hdone hinv _ hread
    have hunblocked : ¬ isBlocked a b before.committed := by
      rw [← isBlocked_of_both hinput]
      exact throwIf_eq_ok_iff.1 hread
    refine ⟨fun hblocked => absurd hblocked hunblocked,
      ⟨⟨[.checkedBlocks], rfl⟩, fun hblocked => absurd hblocked hunblocked⟩, ?_⟩
    intro later hrely _
    apply holds_storeAction
    refine Eq.trans hrely ?_
    change own pid (stamp pid [.checkedBlocks] ++ before.log) = _
    rw [own_stamp_append_self, show own pid before.log = [] from hdone]
    rfl
  · intros
    exact fun _ _ _ => trivial

/-- What is rolled back adds nothing. -/
theorem holds_rolledBack {body : MatchingProg α}
    (hbody : (blockLogic a b).Holds request pid body (fun _ _ => True) (fun _ _ => True) w) :
    (blockLogic a b).Holds request pid (inTransaction [.ended] body) (fun _ _ => True)
      (fun _ _ => True) w := by
  apply holds_inTransaction hbody fun _ _ _ _ _ _ => trivial
  intro before failure hinv _
  have hlog : (before.finish pid before.committed [.ended]).log =
      stamp pid [.ended] ++ before.log := rfl
  obtain ⟨hafter, hguar⟩ :=
    blockStep_of_same hinv hlog (by decide) rfl (.refl a b before.committed)
  exact ⟨hafter, hguar, fun _ _ _ => trivial⟩

theorem holds_actOnCandidate {input : ActInput}
    (hinput : AreBoth a b input.userId.toUuid input.targetUserId.toUuid) (h : Done pid [] w) :
    (blockLogic a b).Holds request pid (Statements.actOnCandidate input) (fun _ _ => True)
      (fun _ _ => True) w := by
  apply holds_rolledBack
  apply holds_next (holds_evaluating h)
  intro _ s hs
  apply holds_next (holds_evaluating hs)
  intro _ s hs
  apply holds_next (holds_look hs)
  intro existing s hs
  cases existing with
  | some row => exact holds_replayAction hs
  | none => exact holds_createAction hinput hs

theorem insertBlock_ok {blockerUserId blockedUserId : Uuid}
    (h : insertBlock blockerUserId blockedUserId db = .ok db') :
    ∃ blocks : List UserBlock, db' = { db with userBlocks := db.userBlocks ++ blocks } := by
  unfold insertBlock at h
  obtain ⟨-, -, h⟩ := bind_eq_ok_iff.1 h
  split at h
  · obtain rfl := pure_eq_ok_iff.1 h
    exact ⟨[], by simp⟩
  · simp only [bind_eq_ok_iff, pure_eq_ok_iff] at h
    obtain ⟨-, -, -, -, rfl⟩ := h
    exact ⟨_, rfl⟩

/-- A block is committed while no action is past its check, or there was one before. -/
theorem holds_blockUser {blockerUserId blockedUserId : UuidText} (h : Done pid [] w) :
    (blockLogic a b).Holds request pid (blockUser blockerUserId blockedUserId) (fun _ _ => True)
      (fun _ _ => True) w := by
  unfold blockUser
  apply holds_next (holds_check h)
  intro _ s hs
  apply holds_next (holds_check hs)
  intro _ s hs
  apply holds_next (holds_check hs)
  intro _ s hs
  apply holds_rolledBack
  apply Logic.Holds.bind
  apply Logic.Holds.bind
  refine Logic.Holds.mono (holds_evaluating hs) (fun value s _ hs => ?_) fun _ _ _ h => h
  apply Logic.holds_pure
  intro s' hrely _
  apply holds_commitWrites (Done pid []) stable_done (Eq.trans hrely hs)
  · intro before committed _ hinv hwrites hallowed
    obtain ⟨blocks, rfl⟩ := insertBlock_ok hwrites
    have hkept : isBlocked a b before.committed →
        isBlocked a b { before.committed with userBlocks := before.committed.userBlocks ++ blocks } :=
      isBlocked_of_subset fun row hrow => List.mem_append_left _ hrow
    refine ⟨fun hblocked other hpast => ?_, ⟨⟨[.ended], rfl⟩, fun hblocked => ⟨hkept hblocked, ?_⟩⟩,
      fun _ _ _ => trivial⟩
    · have hbefore : PastCheck other before := pastCheck_of_stamp rfl (by decide) hpast
      by_cases hold : isBlocked a b before.committed
      · exact hinv hold other hbefore
      · exact hallowed hold hblocked other hbefore
    · exact .of_same rfl rfl rfl rfl rfl
  · intros
    exact fun _ _ _ => trivial

/-! ### Runs -/

theorem blockLogic_sound (a b : Uuid) : (blockLogic a b).Sound (blockSystem a b) where
  accepts hbetween _ := hbetween
  code := by
    intro request s pid hbetween _ hfresh
    cases request with
    | actOnCandidate input =>
        apply Logic.Holds.bind
        exact (holds_actOnCandidate hbetween hfresh).mono
          (fun _ _ _ _ => Logic.holds_pure fun _ _ _ => trivial) fun _ _ _ h => h
    | blockUser blockerUserId blockedUserId =>
        apply Logic.Holds.bind
        exact (holds_blockUser hfresh).mono
          (fun _ _ _ _ => Logic.holds_pure fun _ _ _ => trivial) fun _ _ _ h => h
    | undoLastAction userId => exact hbetween.elim
    | activateBoost userId now => exact hbetween.elim
  environment := by
    intro before after hmoves hallowed hinv
    -- The condition on the run is what keeps actions and a new block apart.
    refine ⟨fun hblocked pid hpast => ?_, fun pid => ?_⟩
    · have hbefore : PastCheck pid before := by
        unfold PastCheck at hpast ⊢
        rwa [hmoves.log] at hpast
      by_cases hold : isBlocked a b before.committed
      · exact hinv hold pid hbefore
      · exact hallowed hold hblocked pid hbefore
    · change own pid after.log = own pid before.log
      rw [hmoves.log]
  rollback := by
    intro before pid hinv
    have hlog : (before.finish pid before.committed [.ended]).log =
        stamp pid [.ended] ++ before.log := rfl
    obtain ⟨hafter, -⟩ := blockStep_of_same hinv hlog (by decide) rfl (.refl a b before.committed)
    exact ⟨hafter, fun other hother => own_stamp_append_other hother⟩

theorem good_atRest (a b : Uuid) (db : Database) : (blockLogic a b).Good (matchingAtRest db) :=
  Logic.good_idle (fun _ _ hpast => List.not_mem_nil hpast.1) fun _ => rfl

/-- **A block is final.** In a run in which every block is committed while no action is past its
check, nothing is added for the two users once one of them has blocked the other. -/
theorem block_final {c c' : Config MatchingState MatchingRequest Failure MatchingAnswer}
    (hstart : Reachable (blockSystem a b) (SettledBlock a b) (matchingAtRest db) c)
    (hblocked : isBlocked a b c.state.committed)
    (hrun : Reachable (blockSystem a b) (SettledBlock a b) c c') :
    isBlocked a b c'.state.committed ∧ AddsNothing a b c.state.committed c'.state.committed := by
  have hsound := blockLogic_sound a b
  have hgood := hsound.reachable (good_atRest a b db) hstart
  let Final : MatchingState → MatchingState → Prop := fun before after =>
    isBlocked a b before.committed →
      isBlocked a b after.committed ∧ AddsNothing a b before.committed after.committed
  suffices hfinal : Final c.state c'.state from hfinal hblocked
  apply hsound.relates Final hgood hrun
  · exact fun s h => ⟨h, .refl a b s.committed⟩
  · intro s₁ s₂ s₃ h h' hblocked
    obtain ⟨hbetween, hadds⟩ := h hblocked
    obtain ⟨hend, hadds'⟩ := h' hbetween
    exact ⟨hend, hadds.trans hadds'⟩
  · exact fun _ hguar => hguar.final
  · exact fun _ hmoves hblocked => ⟨isBlocked_of_subset hmoves.blocks hblocked, hmoves.adds⟩
  · exact fun _ s hblocked => ⟨hblocked, .refl a b s.committed⟩

/-! ### A block, and then a like -/

/-- A step that commits nothing is one of a run in which the blocks are settled. -/
theorem settledBlock_of_same (hcommitted : after.committed = w.committed) :
    SettledBlock a b w after := by
  intro hunblocked hblocked
  rw [hcommitted] at hblocked
  exact absurd hblocked hunblocked

theorem runs_evaluate {pending : Pending Database Failure} {mode : Mode}
    {rows : Database → List MatchingLock} {read : Database → Except Failure β}
    {trace : β → List MatchingEvent} {value : β}
    (hfree : ∀ row ∈ rows w.committed, Free w.locks pid mode row)
    (hread : (pending w.committed >>= read) = .ok value) :
    Runs (SettledBlock a b) pid (evaluate pending mode rows read trace : MatchingProg β) w
      (.done value) (w.enter pid mode (rows w.committed) (trace value)) :=
  .step (.ok value) _ (.returned hfree hread) (settledBlock_of_same rfl) .refl

theorem runs_look {read : Database → β} :
    Runs (SettledBlock a b) pid (look unwritten read : MatchingProg β) w
      (.done (read w.committed)) w :=
  runs_evaluate (fun _ hrow => absurd hrow List.not_mem_nil) rfl

theorem runs_takeLock (key : Text) (hlocks : ∀ lock ∈ w.locks, lock.holder = pid) :
    Runs (SettledBlock a b) pid (lockMatchingKey key) w (.done ())
      (w.enter pid .update [.advisory key] []) :=
  runs_evaluate (fun _ _ => free_of_alone hlocks) rfl

/-- A block that is committed before any action has looked for one. -/
theorem runs_blockUser {blockerUserId blockedUserId : UuidText} (hlog : w.log = [])
    (hblocker : Billing.isVersionedUuid blockerUserId.text)
    (hblocked : Billing.isVersionedUuid blockedUserId.text)
    (hself : blockerUserId.text ≠ blockedUserId.text)
    (hinsert : insertBlock blockerUserId.toUuid blockedUserId.toUuid w.committed = .ok db) :
    Runs (SettledBlock a b) pid (blockUser blockerUserId blockedUserId) w (.done ())
      (w.finish pid db [.ended]) := by
  unfold blockUser
  rw [require_of hblocker, require_of hblocked, throwIf_of_not hself]
  have hwrites : Runs (SettledBlock a b) pid
      (evaluate unwritten .keyShare (fun _ => [])
        (insertBlock blockerUserId.toUuid blockedUserId.toUuid) fun _ => [] : MatchingProg _) w
      (.done db) w := runs_evaluate (fun _ hrow => absurd hrow List.not_mem_nil) hinsert
  have hunchecked (other : ℕ) : ¬ PastCheck other w := by
    unfold PastCheck
    rw [hlog]
    exact fun hpast => List.not_mem_nil hpast.1
  have hbody : Runs (SettledBlock a b) pid (insert unwritten (insertBlock blockerUserId.toUuid
      blockedUserId.toUuid) >>= fun pending => commitWrites pending [.ended] : MatchingProg Unit) w
      (.done ()) (w.finish pid db [.ended]) := by
    apply ((hwrites.bind _).bind _).trans
    exact .step (.ok ()) _ (.committed hinsert) (fun _ _ => hunchecked) .refl
  exact Runs.tryCatch hbody _

/-- A like that finds a block is refused, and stores nothing. -/
theorem runs_refused {input : ActInput} (hlocks : ∀ lock ∈ w.locks, lock.holder = pid)
    (hnew : findActiveAction input.userId.toUuid input.targetUserId.toUuid w.committed = none)
    (husers : checkUsers (findUser input.userId.toUuid w.committed)
      (findUser input.targetUserId.toUuid w.committed) = .ok ())
    (hblocked : isBlocked input.userId.toUuid input.targetUserId.toUuid w.committed) :
    ∃ w', Runs (SettledBlock a b) pid (Statements.actOnCandidate input) w
      (.fail (.error "CANDIDATE_NOT_AVAILABLE")) w' ∧ w'.committed = w.committed := by
  let w₁ := w.enter pid .update [.advisory (matchingUserKey input.userId)] []
  let w₂ := w₁.enter pid .update
    [.advisory (matchingPairKey input.userId input.targetUserId)] []
  have hlocks₁ : ∀ lock ∈ w₁.locks, lock.holder = pid := acquire_of_alone hlocks
  have hcheck : Runs (SettledBlock a b) pid (evaluate unwritten .keyShare (fun _ => [])
      (checkBlocks input.userId.toUuid input.targetUserId.toUuid)
        (fun _ => [.checkedBlocks]) : MatchingProg Unit) w₂
      (.fail (.error "CANDIDATE_NOT_AVAILABLE")) w₂ := by
    refine .step (.error _) w₂ (.threw ?_) (settledBlock_of_same rfl) .refl
    change throwIf _ (isBlocked _ _ w.committed = true) = _
    exact if_pos hblocked
  have hcreate : Runs (SettledBlock a b) pid (Statements.createAction input) w₂
      (.fail (.error "CANDIDATE_NOT_AVAILABLE")) w₂ := by
    apply (runs_look.bind _).trans
    apply (runs_look.bind _).trans
    change Runs _ _ ((MonadExcept.ofExcept (checkUsers (findUser input.userId.toUuid w.committed)
      (findUser input.targetUserId.toUuid w.committed)) : MatchingProg Unit) >>= _) _ _ _
    rw [husers]
    exact hcheck.bind _
  have hlook : Runs (SettledBlock a b) pid (look unwritten
      (findActiveAction input.userId.toUuid input.targetUserId.toUuid) : MatchingProg _) w₂
      (.done none) w₂ := by
    rw [← hnew]
    exact runs_look
  -- What the transaction throws rolls it back, which gives the advisory locks back.
  refine ⟨w₂.finish pid w₂.committed [.ended], ?_, rfl⟩
  have hbody : Runs (SettledBlock a b) pid (Statements.actOnCandidate input) w
      (inTransaction [.ended] (throw (.error "CANDIDATE_NOT_AVAILABLE"))) w₂ := by
    refine Runs.tryCatch ?_ _
    apply ((runs_takeLock _ hlocks).bind _).trans
    apply ((runs_takeLock _ hlocks₁).bind _).trans
    exact (hlook.bind _).trans hcreate
  exact hbody.trans (.step () _ rfl (settledBlock_of_same rfl) .refl)

/-- The candidate likes the buyer. -/
def likedByCandidate : Database :=
  { pairOnly with
    userLikes := [createdLike (likeOf candidate buyer 1)]
    matchActions := [createdAction (likeOf candidate buyer 1) 0]
    nextRowId := 1 }

/-- The same after the candidate has blocked the buyer. -/
def blockedByCandidate : Database :=
  { likedByCandidate with
    userBlocks := [{ blockerUserId := candidate.toUuid, blockedUserId := buyer.toUuid }] }

/-- The candidate likes the buyer and then blocks them; the buyer's like is refused. -/
theorem block_final_refused : ∃ c c' : Config MatchingState MatchingRequest Failure MatchingAnswer,
    ¬ isBlocked buyer.toUuid candidate.toUuid likedByCandidate ∧
      Reachable (blockSystem buyer.toUuid candidate.toUuid)
        (SettledBlock buyer.toUuid candidate.toUuid) (matchingAtRest likedByCandidate) c ∧
      isBlocked buyer.toUuid candidate.toUuid c.state.committed ∧
      Reachable (blockSystem buyer.toUuid candidate.toUuid)
        (SettledBlock buyer.toUuid candidate.toUuid) c c' ∧
      c'.threads = [⟨.blockUser candidate buyer, .done .blocked⟩,
        ⟨.actOnCandidate (likeOf buyer candidate 2), .fail (.error "CANDIDATE_NOT_AVAILABLE")⟩] ∧
      AddsNothing buyer.toUuid candidate.toUuid c.state.committed c'.state.committed := by
  let between := blockSystem buyer.toUuid candidate.toUuid
  let settled := SettledBlock buyer.toUuid candidate.toUuid
  let start : MatchingState := .ofCommitted likedByCandidate
  let blocked : MatchingState := start.finish 0 blockedByCandidate [.ended]
  have hidle : Reachable between settled (matchingAtRest likedByCandidate) ⟨start, []⟩ :=
    Relation.ReflTransGen.refl
  have hblock : Runs settled 0 (blockUser candidate buyer) start (.done ()) blocked :=
    runs_blockUser rfl (by decide) (by decide) (by decide) rfl
  have hanswer : between.accepts (.blockUser candidate buyer) := Or.inr ⟨rfl, rfl⟩
  have hback : between.accepts (.actOnCandidate (likeOf buyer candidate 2)) := Or.inl ⟨rfl, rfl⟩
  let ended : Unit → MatchingProg MatchingAnswer := fun _ => pure .blocked
  let acted : ActResult → MatchingProg MatchingAnswer := fun result => pure (.acted result)
  have hfirst := hidle.serve hanswer (settledBlock_of_same rfl) (hblock.bind ended)
  obtain ⟨w', hlike, -⟩ : ∃ w', Runs settled 1
      (Statements.actOnCandidate (likeOf buyer candidate 2)) blocked
      (.fail (.error "CANDIDATE_NOT_AVAILABLE")) w' ∧ w'.committed = blocked.committed :=
    runs_refused (fun _ hlock => absurd hlock List.not_mem_nil) (by decide) rfl (by decide)
  have hrest : Reachable between settled
      ⟨blocked, [⟨.blockUser candidate buyer, .done .blocked⟩]⟩ _ :=
    Reachable.serve Relation.ReflTransGen.refl hback (settledBlock_of_same rfl)
      (hlike.bind acted)
  have hisBlocked : isBlocked buyer.toUuid candidate.toUuid blocked.committed := by decide
  exact ⟨_, _, by decide, hfirst, hisBlocked, hrest, rfl, (block_final hfirst hisBlocked hrest).2⟩

/-- The buyer likes back, and the two have a match and a room. -/
def matchedAfterBlock : Database :=
  (matchIfReverseExists buyer candidate (afterAction (likeOf buyer candidate 2) []
    blockedByCandidate)).2

/-- The buyer's like is past its check when the candidate blocks the buyer, and then gives the two
a match and a room. -/
theorem block_overtaken : ∃ c c' : Config MatchingState MatchingRequest Failure MatchingAnswer,
    Reachable (blockSystem buyer.toUuid candidate.toUuid) anyStep (matchingAtRest likedByCandidate) c ∧
      isBlocked buyer.toUuid candidate.toUuid c.state.committed ∧
      Reachable (blockSystem buyer.toUuid candidate.toUuid) anyStep c c' ∧
      ¬ AddsNothing buyer.toUuid candidate.toUuid c.state.committed c'.state.committed := by
  let like := likeOf buyer candidate 2
  let between := (blockSystem buyer.toUuid candidate.toUuid)
  have hw : Alone 0 likedByCandidate 1 (.ofCommitted likedByCandidate : MatchingState) :=
    alone_ofCommitted 0 likedByCandidate
  obtain ⟨w, hchecked, hchecks⟩ : ∃ w, Alone 0 likedByCandidate 1 w ∧
      Runs anyStep 0 (Statements.actOnCandidate like) (.ofCommitted likedByCandidate)
        (inTransaction [.ended] (storeAction like)) w := runs_pastCheck hw (by decide) (by decide)
  -- The block is committed while the like holds its advisory locks.
  have hinsert : insertBlock candidate.toUuid buyer.toUuid w.committed = .ok blockedByCandidate := by
    rw [hchecked.committed]
    rfl
  have hblock : Performs 1 (blockUser candidate buyer) w ()
      (w.finish 1 blockedByCandidate [.ended]) :=
    performs_blockUser (by decide) (by decide) (by decide) hinsert
  have hblocked : Alone 0 blockedByCandidate 1 (w.finish 1 blockedByCandidate [.ended]) :=
    ⟨rfl, fun lock hlock => hchecked.locks lock (List.mem_filter.1 hlock).1⟩
  -- The like goes on.
  obtain ⟨w', hstore, hend⟩ : ∃ w', Performs 0 (storeAction like)
      (w.finish 1 blockedByCandidate [.ended]) ⟨true, some 2, none, true⟩ w' ∧
        w'.committed = matchedAfterBlock :=
    performs_storeAction hblocked (by decide) rfl rfl rfl (fun hskip => nomatch hskip)
      fun _ => ⟨rfl, rfl⟩
  have hlike : between.accepts (.actOnCandidate like) := Or.inl ⟨rfl, rfl⟩
  have hanswer : between.accepts (.blockUser candidate buyer) := Or.inr ⟨rfl, rfl⟩
  let answer : ActResult → MatchingProg MatchingAnswer := fun result => pure (.acted result)
  have hidle : Reachable between anyStep (matchingAtRest likedByCandidate)
      ⟨.ofCommitted likedByCandidate, []⟩ := Relation.ReflTransGen.refl
  have hfirst := hidle.serve hlike trivial (Runs.bind hchecks answer)
  let blocked : Unit → MatchingProg MatchingAnswer := fun _ => pure .blocked
  let threads : List (Thread MatchingState MatchingRequest Failure MatchingAnswer) :=
    [⟨.actOnCandidate like, (inTransaction [.ended] (storeAction like)).bind answer⟩,
      ⟨.blockUser candidate buyer, .done .blocked⟩]
  have hsecond : Reachable between anyStep (matchingAtRest likedByCandidate)
      ⟨w.finish 1 blockedByCandidate [.ended], threads⟩ :=
    hfirst.serve hanswer trivial (Runs.bind hblock blocked)
  have hthird : Reachable between anyStep ⟨w.finish 1 blockedByCandidate [.ended], threads⟩
      ⟨w', threads.set 0 ⟨.actOnCandidate like, .done (.acted ⟨true, some 2, none, true⟩)⟩⟩ :=
    (Runs.bind (performs_inTransaction hstore) answer).reachable threads rfl
  have hisBlocked : isBlocked buyer.toUuid candidate.toUuid blockedByCandidate := by decide
  have hunmatched : ⟨buyer.toUuid, candidate.toUuid, 2⟩ ∉ blockedByCandidate.matchRows := by decide
  refine ⟨_, _, hsecond, hisBlocked, hthird, fun hadds => ?_⟩
  have hmatch := hadds.matchRows ⟨buyer.toUuid, candidate.toUuid, 2⟩
  rw [show w'.committed = matchedAfterBlock from hend] at hmatch
  exact hunmatched (hmatch (by decide) (by decide))

end ChatTea.Matching
