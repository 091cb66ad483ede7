import ChatTea.Lib.Guarded
import ChatTea.Lib.Outcomes
import ChatTea.Matching.Statements

/-!
# The calls of one user

Actions and undos of a user run next to each other and to the rest of the service. They take the
advisory lock of the user first, so that the likes and actions of the user that a call has read
are as it has read them when it commits.

## Main definitions

* `UserInvariant` — the identifiers of a user's actions are drawn, and no day has more likes than
  the limit
* `Reverts` — what an undo does
* `userSystem` — the actions and undos of a user, next to everything else

## Main results

* `userGuard_sound` — the lock of the user guards the user's likes and actions
-/

namespace ChatTea.Matching

open Interleaving ReadCommitted RowLocks Statements Table Transaction
open Billing
open MatchingService (startOfUtcDay nextUtcDay)

variable {userId : Uuid} {limit : Option ℕ} {db db' : Database} {pid : ℕ}
  {pending : Pending Database Failure} {write : Database → Except Failure Database}

/-! ### The likes and actions of a user -/

def likesOf (userId : Uuid) (db : Database) : List UserLike :=
  db.userLikes.filter fun row => row.likerUserId = userId

def actionsOf (userId : Uuid) (db : Database) : List MatchAction :=
  db.matchActions.filter fun row => row.actorUserId = userId

/-- How many likes a user has on the day of an instant. -/
def likesOnDay (userId : Uuid) (now : Timestamp) (db : Database) : ℕ :=
  db.userLikes.countP fun row =>
    row.likerUserId = userId ∧ startOfUtcDay now ≤ row.createdAt ∧ row.createdAt < nextUtcDay now

/-- An instant is in its own day. -/
theorem mem_day (now : Timestamp) : startOfUtcDay now ≤ now ∧ now < nextUtcDay now := by
  have hmod (time : ℤ) : time - time % 86400000 ≤ time ∧
      time < time - time % 86400000 + 86400000 := by omega
  exact hmod now

/-- The instants of a day have the same day. -/
theorem startOfUtcDay_eq {now time : Timestamp} (hstart : startOfUtcDay now ≤ time)
    (hend : time < nextUtcDay now) : startOfUtcDay time = startOfUtcDay now := by
  have hmod (now time : ℤ) (hstart : now - now % 86400000 ≤ time)
      (hend : time < now - now % 86400000 + 86400000) :
      time - time % 86400000 = now - now % 86400000 := by omega
  exact hmod now time hstart hend

/-- The likes of a user on a day, among the likes of the user. -/
theorem likesOnDay_eq (userId : Uuid) (now : Timestamp) (db : Database) :
    likesOnDay userId now db = (likesOf userId db).countP fun row =>
      startOfUtcDay now ≤ row.createdAt ∧ row.createdAt < nextUtcDay now := by
  unfold likesOnDay likesOf
  rw [List.countP_filter]
  congr 1
  funext row
  rw [Bool.eq_iff_iff]
  simp only [decide_eq_true_eq, Bool.and_eq_true]
  exact and_comm

/-- The actions of a user have different identifiers, which are drawn, and no day has more likes
than the limit. -/
structure UserInvariant (userId : Uuid) (limit : Option ℕ) (db : Database) : Prop where
  drawn : ∀ row ∈ actionsOf userId db, row.id < db.nextRowId
  unique : UniqueKey MatchAction.id (actionsOf userId db)
  likes : ∀ most, limit = some most → ∀ now, likesOnDay userId now db ≤ most

/-- Identifiers are not given back, and what is reverted stays so. -/
structure Onward (userId : Uuid) (before after : Database) : Prop where
  drawn : before.nextRowId ≤ after.nextRowId
  reverted : ∀ row ∈ actionsOf userId before, row.revertedAt ≠ none → row ∈ actionsOf userId after

theorem Onward.refl (userId : Uuid) (db : Database) : Onward userId db db :=
  ⟨le_rfl, fun _ hrow _ => hrow⟩

theorem Onward.trans {db'' : Database} (h : Onward userId db db') (h' : Onward userId db' db'') :
    Onward userId db db'' where
  drawn := h.drawn.trans h'.drawn
  reverted row hrow hreverted := h'.reverted row (h.reverted row hrow hreverted) hreverted

/-- An undo reverts an action of the user that was active, removes its like and gives back a
superlike. -/
structure Reverts (userId : Uuid) (action : MatchAction) (before after : Database) : Prop where
  active : action ∈ actionsOf userId before ∧ action.revertedAt = none
  actions : ∃ now, actionsOf userId after =
    updateWhere (isClaimable action) (revertedAction now) (actionsOf userId before)
  likes : likesOf userId after = if action.action = .skip then likesOf userId before
    else (likesOf userId before).filter fun row => row.likedUserId ≠ action.targetUserId
  credits : ∀ user credit, creditsIn after.userConsumableBalances user credit =
    creditsIn before.userConsumableBalances user credit +
      if action.action = .superlike ∧ user = userId ∧ credit = .superLike then 1 else 0

/-! ### The system -/

/-- The rest of the service: it does not touch the likes and actions of the user. -/
structure AroundUser (userId : Uuid) (before after : MatchingState) : Prop where
  likes : likesOf userId after.committed = likesOf userId before.committed
  actions : actionsOf userId after.committed = actionsOf userId before.committed
  drawn : before.committed.nextRowId ≤ after.committed.nextRowId
  locks : after.locks = before.locks
  log : after.log = before.log

/-- The actions of a user under a limit on the likes of a day, if there is one, and the undos. -/
def MatchingRequest.CallOf (userId : Uuid) (limit : Option ℕ) : MatchingRequest → Prop
  | .actOnCandidate input => input.userId = userId.toUuidText ∧
      ∀ most, limit = some most → input.dailyLimit = some most ∧
        input.dayStart = startOfUtcDay input.now ∧ input.dayEnd = nextUtcDay input.now
  | .undoLastAction user => user = userId.toUuidText
  | _ => False

def userSystem (userId : Uuid) (limit : Option ℕ) :
    System MatchingState MatchingRequest Failure MatchingAnswer where
  code := matchingCode
  accepts request := request.CallOf userId limit
  environment := AroundUser userId
  rollback pid w := w.finish pid w.committed [.ended]

/-- The advisory lock of a user guards the likes and actions of the user. -/
def userGuard (userId : Uuid) (limit : Option ℕ) :
    Guard Database MatchingLock MatchingEvent (List UserLike × List MatchAction) where
  key := .advisory (matchingUserKey userId.toUuidText)
  mode := .update
  conflicts := rfl
  part db := (likesOf userId db, actionsOf userId db)
  invariant := UserInvariant userId limit
  grows := Onward userId
  grows_refl := .refl userId
  grows_trans h h' := h.trans h'
  means
    | .reverted action, before, after => Reverts userId action before after
    | _, _, _ => True

/-! ### What the writes do to the likes and actions of a user -/

/-- The writes change the likes and actions of a user in some way, and draw no identifier. -/
def WritesUser (userId : Uuid) (pending : Pending Database Failure)
    (likes : List UserLike → List UserLike) (actions : List MatchAction → List MatchAction) :
    Prop :=
  ∀ s s', pending s = .ok s' → likesOf userId s' = likes (likesOf userId s) ∧
    actionsOf userId s' = actions (actionsOf userId s) ∧ s'.nextRowId = s.nextRowId

variable {likes likes' : List UserLike → List UserLike}
  {actions actions' : List MatchAction → List MatchAction}

theorem writesUser_unwritten (userId : Uuid) : WritesUser userId unwritten id id := by
  intro s s' h
  obtain rfl := Except.ok.inj h
  exact ⟨rfl, rfl, rfl⟩

theorem WritesUser.andThen (h : WritesUser userId pending likes actions)
    (hwrite : WritesUser userId write likes' actions') :
    WritesUser userId (pending.andThen write) (likes' ∘ likes) (actions' ∘ actions) := by
  intro s s' hwritten
  obtain ⟨between, hpending, hlast⟩ := bind_eq_ok_iff.1 hwritten
  obtain ⟨hlikes, hactions, hnext⟩ := h s between hpending
  obtain ⟨hlikes', hactions', hnext'⟩ := hwrite between s' hlast
  rw [hlikes] at hlikes'
  rw [hactions] at hactions'
  exact ⟨hlikes', hactions', hnext'.trans hnext⟩

/-- Writes to other tables. -/
theorem writesUser_other
    (h : ∀ s s', write s = .ok s' → s'.userLikes = s.userLikes ∧
      s'.matchActions = s.matchActions ∧ s'.nextRowId = s.nextRowId) :
    WritesUser userId write id id := by
  intro s s' hwritten
  obtain ⟨hlikes, hactions, hnext⟩ := h s s' hwritten
  unfold likesOf actionsOf
  rw [hlikes, hactions]
  exact ⟨rfl, rfl, hnext⟩

theorem writesUser_spendSuperLike (userId user : Uuid) (action : MatchActionKind) :
    WritesUser userId (Matching.spendSuperLike user action) id id := by
  apply writesUser_other
  intro s s' h
  obtain ⟨balances, -, rfl⟩ := spendSuperLike_ok h
  exact ⟨rfl, rfl, rfl⟩

theorem writesUser_insertLike {row : UserLike} (hrow : row.likerUserId = userId) :
    WritesUser userId (insertLike row) (fun rows => rows ++ [row]) id := by
  intro s s' h
  simp only [insertLike, bind_eq_ok_iff, require_eq_ok_iff, pure_eq_ok_iff] at h
  obtain ⟨-, -, -, -, rfl⟩ := h
  refine ⟨?_, rfl, rfl⟩
  unfold likesOf
  simp [hrow]

theorem writesUser_insertAction {row : MatchAction} (hrow : row.actorUserId = userId) :
    WritesUser userId (Statements.insertAction row) id fun rows => rows ++ [row] := by
  intro s s' h
  simp only [Statements.insertAction, bind_eq_ok_iff, require_eq_ok_iff, pure_eq_ok_iff] at h
  obtain ⟨-, -, -, -, rfl⟩ := h
  refine ⟨rfl, ?_, rfl⟩
  unfold actionsOf
  simp [hrow]

theorem writesUser_insertRoom (userId : Uuid) (row : Room) :
    WritesUser userId (insertRoom row) id id := by
  apply writesUser_other
  intro s s' h
  obtain rfl := Except.ok.inj h
  exact ⟨rfl, rfl, rfl⟩

theorem writesUser_insertRoomMembers (userId : Uuid) (roomId : RowId) (user target : Uuid) :
    WritesUser userId (insertRoomMembers roomId user target) id id := by
  apply writesUser_other
  intro s s' h
  obtain rfl := Except.ok.inj h
  exact ⟨rfl, rfl, rfl⟩

theorem writesUser_insertMatch (userId : Uuid) (row : Match) :
    WritesUser userId (insertMatch row) id id := by
  apply writesUser_other
  intro s s' h
  simp only [insertMatch, bind_eq_ok_iff, require_eq_ok_iff, pure_eq_ok_iff] at h
  obtain ⟨-, -, -, -, rfl⟩ := h
  exact ⟨rfl, rfl, rfl⟩

/-! ### What a call knows while it holds the lock -/

variable {input : ActInput} {known : Database → Prop}

theorem countLikes_eq (huser : input.userId.toUuid = userId) (db : Database) :
    countLikes input db = (likesOf userId db).countP fun row =>
      input.dayStart ≤ row.createdAt ∧ row.createdAt < input.dayEnd := by
  unfold countLikes likesOf
  rw [List.countP_filter, huser]
  congr 1
  funext row
  rw [Bool.eq_iff_iff]
  simp only [decide_eq_true_eq, Bool.and_eq_true]
  exact and_comm

/-- An action leaves the likes of its user, or adds one that the limit allows. -/
def LikeAllowed (input : ActInput) (likes : List UserLike → List UserLike) (db : Database) : Prop :=
  likes = id ∨ likes = (fun rows => rows ++ [createdLike input]) ∧
    ¬ input.dailyLimit.any fun dailyLimit => dailyLimit ≤ countLikes input db

/-- An identifier that is drawn after those of the user's actions. -/
def DrawnLast (userId : Uuid) (id : RowId) (db : Database) : Prop :=
  (∀ row ∈ actionsOf userId db, row.id < id) ∧ id < db.nextRowId

theorem local_likeAllowed (huser : input.userId.toUuid = userId) :
    (userGuard userId limit).Local (LikeAllowed input likes) := by
  intro s s' _ hpart hallowed
  have hlikes : likesOf userId s' = likesOf userId s := (Prod.mk.inj hpart).1
  unfold LikeAllowed at hallowed ⊢
  rw [countLikes_eq huser] at hallowed ⊢
  rwa [hlikes]

theorem local_drawnLast {id : RowId} : (userGuard userId limit).Local (DrawnLast userId id) := by
  intro s s' hgrows hpart hdrawn
  have hactions : actionsOf userId s' = actionsOf userId s := (Prod.mk.inj hpart).2
  unfold DrawnLast at hdrawn ⊢
  rw [hactions]
  exact ⟨hdrawn.1, lt_of_lt_of_le hdrawn.2 hgrows.drawn⟩

/-- An action is stored under the limit. -/
theorem UserInvariant.store {id : RowId} (h : UserInvariant userId limit db)
    (huser : input.userId.toUuid = userId)
    (hinput : ∀ most, limit = some most → input.dailyLimit = some most ∧
      input.dayStart = startOfUtcDay input.now ∧ input.dayEnd = nextUtcDay input.now)
    (hid : DrawnLast userId id db) (hallowed : LikeAllowed input likes db)
    (hlikes : likesOf userId db' = likes (likesOf userId db))
    (hactions : actionsOf userId db' = actionsOf userId db ++ [createdAction input id])
    (hnext : db'.nextRowId = db.nextRowId) : UserInvariant userId limit db' where
  drawn row hrow := by
    rw [hactions, List.mem_append, List.mem_singleton] at hrow
    rw [hnext]
    rcases hrow with hold | rfl
    · exact h.drawn row hold
    · exact hid.2
  unique := by
    rw [hactions]
    apply h.unique.append
    intro row hrow
    exact (hid.1 row hrow).ne
  likes most hmost now := by
    have hbefore := h.likes most hmost now
    rw [likesOnDay_eq] at hbefore ⊢
    rw [hlikes]
    rcases hallowed with rfl | ⟨rfl, hlimit⟩
    · exact hbefore
    rw [List.countP_append, List.countP_singleton]
    split
    case isFalse => exact hbefore
    case isTrue hday =>
      -- The new like is of this day, whose likes were counted.
      rw [decide_eq_true_eq] at hday
      obtain ⟨hdaily, hstart, hend⟩ := hinput most hmost
      have hsame : startOfUtcDay input.now = startOfUtcDay now := startOfUtcDay_eq hday.1 hday.2
      have hnextDay : nextUtcDay input.now = nextUtcDay now := by
        unfold nextUtcDay
        rw [hsame]
      rw [hdaily, countLikes_eq huser, hstart, hend, hsame, hnextDay] at hlimit
      simp only [Option.any_some, decide_eq_true_eq, not_le] at hlimit
      exact hlimit

/-! ### The statements of a call -/

section Statements

variable {requires : MatchingRequest → Prop} {request : MatchingRequest} {α : Type}

/-- A program that a call of the user runs between two assertions while it holds the lock. -/
abbrev UserTriple (userId : Uuid) (limit : Option ℕ) (requires : MatchingRequest → Prop)
    (request : MatchingRequest) (pid : ℕ) (known : Database → Prop) (program : MatchingProg α)
    (learned : α → Database → Prop) : Prop :=
  (userGuard userId limit).Triple MatchingAnswer requires request pid known program learned

abbrev UserEnds (userId : Uuid) (limit : Option ℕ) (requires : MatchingRequest → Prop)
    (request : MatchingRequest) (pid : ℕ) (known : Database → Prop) (program : MatchingProg α) :
    Prop :=
  (userGuard userId limit).Ends MatchingAnswer requires request pid known program

/-- A drawn identifier comes after those of the user's actions. -/
theorem triple_randomId (hlocal : (userGuard userId limit).Local known) :
    UserTriple userId limit requires request pid known randomId
      fun id s => DrawnLast userId id s ∧ known s := by
  apply Guard.triple_draw _ hlocal fun _ => Guard.Local.and local_drawnLast hlocal
  intro s hinv hknown
  have hgrows : Onward userId s { s with nextRowId := s.nextRowId + 1 } :=
    ⟨Nat.le_succ _, fun row hrow _ => hrow⟩
  refine ⟨⟨?_, hinv.unique, hinv.likes⟩, hgrows, ⟨hinv.drawn, Nat.lt_succ_self _⟩, ?_⟩
  · exact fun row hrow => Nat.lt_succ_of_lt (hinv.drawn row hrow)
  · exact hlocal _ _ hgrows rfl hknown

/-- A write that does not concern the likes and actions of the user. -/
theorem triple_insert (h : WritesUser userId pending likes actions)
    (hwrite : WritesUser userId write id id) (hlocal : (userGuard userId limit).Local known) :
    UserTriple userId limit requires request pid known (insert pending write)
      fun pending' s => WritesUser userId pending' likes actions ∧ known s := by
  have hlearned (pending' : Pending Database Failure) :
      (userGuard userId limit).Local fun s => pending' = pending.andThen write ∧ known s :=
    ((userGuard userId limit).local_pure _).and hlocal
  apply (Guard.triple_writing hlocal).mono
  intro pending' s _ hwritten
  obtain ⟨rfl, hknown⟩ := hwritten
  exact ⟨h.andThen hwrite, hknown⟩

theorem triple_spendSuperLike (input : ActInput) (hlocal : (userGuard userId limit).Local known) :
    UserTriple userId limit requires request pid known (Statements.spendSuperLike input unwritten)
      fun pending' s => WritesUser userId pending' id id ∧ known s := by
  unfold Statements.spendSuperLike
  have hunwritten := writesUser_unwritten userId
  split
  · apply (Guard.triple_writing hlocal).mono
    intro pending' s _ hwritten
    obtain ⟨rfl, hknown⟩ := hwritten
    exact ⟨hunwritten.andThen (writesUser_spendSuperLike userId _ _), hknown⟩
  · exact Guard.triple_pure (((userGuard userId limit).local_pure _).and hlocal)
      fun _ hknown => ⟨hunwritten, hknown⟩

/-- A like is stored only while the limit allows one more. -/
theorem triple_recordLike (huser : input.userId.toUuid = userId)
    (hpending : WritesUser userId pending id id) :
    UserTriple userId limit requires request pid (fun _ => True) (Statements.recordLike input pending)
      fun pending' s => ∃ likes, WritesUser userId pending' likes id ∧ LikeAllowed input likes s := by
  have hlocal := (userGuard userId limit).local_pure True
  have hlearned (pending' : Pending Database Failure) : (userGuard userId limit).Local
      fun s => ∃ likes, WritesUser userId pending' likes id ∧ LikeAllowed input likes s :=
    Guard.local_exists fun likes =>
      ((userGuard userId limit).local_pure _).and (local_likeAllowed huser)
  have hsame : UserTriple userId limit requires request pid (fun _ => True)
      (pure pending) fun pending' s =>
        ∃ likes, WritesUser userId pending' likes id ∧ LikeAllowed input likes s :=
    Guard.triple_pure (hlearned _) fun _ _ => ⟨id, hpending, Or.inl rfl⟩
  unfold Statements.recordLike
  split
  · exact hsame
  apply (Guard.triple_statement hlocal (by simp)).then
  intro existing
  cases existing with
  | some row => exact hsame
  | none =>
      -- The count is taken from what the transaction sees, which has the same likes.
      have hcount : UserTriple userId limit requires request pid (fun _ => True)
          (look pending (countLikes input)) fun count s => count = countLikes input s := by
        apply Guard.triple_evaluate _ hlocal
        · intro count s s' _ hpart hcount
          rw [countLikes_eq huser] at hcount ⊢
          rwa [show likesOf userId s' = likesOf userId s from (Prod.mk.inj hpart).1]
        · intro s count _ _ hread
          obtain ⟨view, hview, hlook⟩ := bind_eq_ok_iff.1 hread
          obtain rfl := Except.ok.inj hlook
          rw [countLikes_eq huser, countLikes_eq huser, (hpending s view hview).1]
          rfl
        · simp
      apply hcount.then
      intro count
      have hcounted : (userGuard userId limit).Local fun s => count = countLikes input s := by
        intro s s' _ hpart hcount
        rw [countLikes_eq huser] at hcount ⊢
        rwa [show likesOf userId s' = likesOf userId s from (Prod.mk.inj hpart).1]
      have hunder : UserTriple userId limit requires request pid
          (fun s => count = countLikes input s)
          (MonadExcept.ofExcept (throwIf (.error "LIKE_LIMIT_REACHED")
            (input.dailyLimit.any fun dailyLimit => dailyLimit ≤ count)))
          fun _ s => ¬ (input.dailyLimit.any fun dailyLimit => dailyLimit ≤ count) ∧
            count = countLikes input s := by
        apply Guard.triple_check _ fun _ => ((userGuard userId limit).local_pure _).and hcounted
        intro _ s hallowed hcount
        rw [throwIf_eq_ok_iff] at hallowed
        exact ⟨hallowed, hcount⟩
      apply hunder.then
      intro _
      apply (Guard.triple_writing (((userGuard userId limit).local_pure _).and hcounted)).mono
      intro pending' s _ hwritten
      obtain ⟨rfl, hallowed, rfl⟩ := hwritten
      have hlike : (createdLike input).likerUserId = userId := huser
      exact ⟨_, hpending.andThen (writesUser_insertLike hlike), Or.inr ⟨rfl, hallowed⟩⟩

/-- The match, room and members of a pair that likes each other. -/
theorem triple_matchIfReverseExists (user target : UuidText)
    (h : WritesUser userId pending likes actions)
    (hlocal : (userGuard userId limit).Local known) :
    UserTriple userId limit requires request pid known
      (Statements.matchIfReverseExists user target pending)
      fun result s => WritesUser userId result.2 likes actions ∧ known s := by
  have hreturn (result : (Bool × Option RowId) × Pending Database Failure)
      (hresult : WritesUser userId result.2 likes actions) :
      UserTriple userId limit requires request pid known (pure result)
        fun result s => WritesUser userId result.2 likes actions ∧ known s :=
    Guard.triple_pure (((userGuard userId limit).local_pure _).and hlocal)
      fun _ hknown => ⟨hresult, hknown⟩
  unfold Statements.matchIfReverseExists
  apply (Guard.triple_statement hlocal (by simp)).then
  intro reverse
  cases reverse with
  | none => exact hreturn _ h
  | some like =>
      apply (Guard.triple_statement hlocal (by simp)).then
      intro existing
      cases existing with
      | some row => exact hreturn _ h
      | none =>
          apply (triple_randomId hlocal).then
          intro roomId
          apply Guard.Triple.of_known fun _ hdrawn => hdrawn.2
          apply (triple_insert h (writesUser_insertRoom userId _) hlocal).then
          intro withRoom
          apply Guard.Triple.of_fact
          intro hroom
          apply (triple_insert hroom (writesUser_insertRoomMembers userId _ _ _) hlocal).then
          intro withMembers
          apply Guard.Triple.of_fact
          intro hmembers
          apply (triple_insert hmembers (writesUser_insertMatch userId _) hlocal).then
          intro withMatch
          apply Guard.Triple.of_fact
          intro hmatch
          exact hreturn ((true, some roomId), withMatch) hmatch

/-- The commit of a call that has drawn its identifier. -/
theorem ends_storedAction {result : α} {id : RowId} (huser : input.userId.toUuid = userId)
    (hinput : ∀ most, limit = some most → input.dailyLimit = some most ∧
      input.dayStart = startOfUtcDay input.now ∧ input.dayEnd = nextUtcDay input.now)
    (h : WritesUser userId pending likes fun rows => rows ++ [createdAction input id]) :
    UserEnds userId limit requires request pid
      (fun s => DrawnLast userId id s ∧ LikeAllowed input likes s)
      (commitWrites pending [.ended] >>= fun _ => pure result) := by
  apply Guard.Ends.answer
  apply Guard.ends_commitWrites (Guard.Local.and local_drawnLast (local_likeAllowed huser))
  intro s s' hinv hknown hwrites
  obtain ⟨hlikes, hactions, hnext⟩ := h s s' hwrites
  refine ⟨hinv.store huser hinput hknown.1 hknown.2 hlikes hactions hnext, ⟨hnext.ge, ?_⟩, ?_⟩
  · intro row hrow _
    rw [hactions]
    exact List.mem_append_left _ hrow
  · intro event hevent
    obtain rfl := List.mem_singleton.1 hevent
    trivial

/-- A call that writes nothing. -/
theorem ends_unwritten {result : α} (hlocal : (userGuard userId limit).Local known) :
    UserEnds userId limit requires request pid known
      (commitWrites unwritten [.ended] >>= fun _ => pure result) := by
  apply Guard.Ends.answer
  apply Guard.ends_commitWrites hlocal
  intro s s' hinv _ hwrites
  obtain rfl := Except.ok.inj hwrites
  refine ⟨hinv, .refl userId s, ?_⟩
  intro event hevent
  obtain rfl := List.mem_singleton.1 hevent
  trivial

theorem triple_remainingCredits (input : ActInput)
    (hlocal : (userGuard userId limit).Local known) :
    UserTriple userId limit requires request pid known (remainingCredits input pending)
      fun _ => known := by
  unfold remainingCredits
  split
  · exact Guard.triple_statement hlocal (by simp)
  · exact Guard.triple_pure hlocal fun _ hknown => hknown

theorem ends_replayAction (input : ActInput) (existing : MatchAction) :
    UserEnds userId limit requires request pid (fun _ => True)
      (Statements.replayAction input existing) := by
  have hlocal := (userGuard userId limit).local_pure True
  apply Guard.ends_check
  intro _ _
  split
  · exact ends_unwritten hlocal
  apply (Guard.triple_statement hlocal (by simp)).ends
  intro existingMatch
  apply (triple_remainingCredits input hlocal).ends
  intro remainingSuperLikeCredits
  exact ends_unwritten hlocal

/-- A new action is stored under the limit. -/
theorem ends_storeAction (huser : input.userId.toUuid = userId)
    (hinput : ∀ most, limit = some most → input.dailyLimit = some most ∧
      input.dayStart = startOfUtcDay input.now ∧ input.dayEnd = nextUtcDay input.now) :
    UserEnds userId limit requires request pid (fun _ => True) (Statements.storeAction input) := by
  apply (triple_spendSuperLike input ((userGuard userId limit).local_pure True)).ends
  intro charged
  apply Guard.Ends.of_fact
  intro hcharged
  apply (triple_recordLike huser hcharged).ends
  intro liked
  apply Guard.Ends.of_exists
  intro likes
  apply Guard.Ends.of_fact
  intro hliked
  have hallowed : (userGuard userId limit).Local (LikeAllowed input likes) :=
    local_likeAllowed huser
  apply (triple_randomId hallowed).ends
  intro id
  have hknown : (userGuard userId limit).Local
      fun s => DrawnLast userId id s ∧ LikeAllowed input likes s :=
    Guard.Local.and local_drawnLast hallowed
  apply Guard.ends_writing hknown
  have haction : (createdAction input id).actorUserId = userId := huser
  have hstored := hliked.andThen (writesUser_insertAction haction)
  unfold Statements.finishAction
  split
  · exact ends_storedAction huser hinput hstored
  apply (triple_matchIfReverseExists _ _ hstored hknown).ends
  intro matched
  apply Guard.Ends.of_fact
  intro hmatched
  apply (triple_remainingCredits input hknown).ends
  intro remainingSuperLikeCredits
  exact ends_storedAction huser hinput hmatched

theorem ends_createAction (huser : input.userId.toUuid = userId)
    (hinput : ∀ most, limit = some most → input.dailyLimit = some most ∧
      input.dayStart = startOfUtcDay input.now ∧ input.dayEnd = nextUtcDay input.now) :
    UserEnds userId limit requires request pid (fun _ => True) (Statements.createAction input) := by
  have hlocal := (userGuard userId limit).local_pure True
  apply (Guard.triple_statement hlocal (by simp)).ends
  intro actor
  apply (Guard.triple_statement hlocal (by simp)).ends
  intro target
  apply Guard.ends_check
  intro _ _
  apply (Guard.triple_statement hlocal _).ends
  · intro _
    exact ends_storeAction huser hinput
  · intro _ event hevent s
    obtain rfl := List.mem_singleton.1 hevent
    trivial

/-- An action takes the lock of its user first. -/
theorem holds_actOnCandidate_user {w : MatchingState} (huser : input.userId = userId.toUuidText)
    (hinput : ∀ most, limit = some most → input.dailyLimit = some most ∧
      input.dayStart = startOfUtcDay input.now ∧ input.dayEnd = nextUtcDay input.now) :
    ((userGuard userId limit).logic requires : Logic _ _ _ MatchingAnswer).Holds request pid
      (Statements.actOnCandidate input) (fun _ _ => True) (fun _ _ => True) w := by
  have huser' : input.userId.toUuid = userId := by rw [huser, Uuid.toUuid_eq]
  have hlocal := (userGuard userId limit).local_pure True
  apply Guard.holds_take_ends (fun _ _ => True)
  · intro event hevent s
    obtain rfl := List.mem_singleton.1 hevent
    trivial
  · exact fun _ => hlocal
  · intro s value _ _
    refine ⟨rfl, ?_, trivial⟩
    rw [huser]
    exact List.mem_singleton_self _
  · simp
  intro _
  apply (Guard.triple_statement hlocal (by simp)).ends
  intro _
  apply (Guard.triple_statement hlocal (by simp)).ends
  intro existing
  cases existing with
  | some row => exact ends_replayAction input row
  | none => exact ends_createAction huser' hinput

/-! ### Undoing -/

/-- An undo has found an action of the user that is active. -/
def IsOpen (userId : Uuid) (action : MatchAction) (db : Database) : Prop :=
  action ∈ actionsOf userId db ∧ action.revertedAt = none

theorem local_isOpen {action : MatchAction} :
    (userGuard userId limit).Local (IsOpen userId action) := by
  intro s s' _ hpart hopen
  have hactions : actionsOf userId s' = actionsOf userId s := (Prod.mk.inj hpart).2
  unfold IsOpen at hopen ⊢
  rwa [hactions]

theorem isOpen_of_last {action : MatchAction} {tie : ℕ}
    (h : lastAction userId tie db = some action) : IsOpen userId action db := by
  obtain ⟨hmem, hactive⟩ := List.mem_filter.1 (mem_of_latest h)
  rw [decide_eq_true_eq] at hactive
  refine ⟨List.mem_filter.2 ⟨hmem, ?_⟩, hactive.2⟩
  rw [decide_eq_true_eq]
  exact hactive.1

/-- The writes of an undo. -/
def undoWrites (action : MatchAction) (now : Timestamp) (db : Database) :
    Except Failure Database :=
  claim action now db >>= Matching.releaseLike action

theorem undoWrites_eq (action : MatchAction) (now : Timestamp) (db : Database) :
    undoWrites action now db = Matching.releaseLike action { db with
      matchActions := updateWhere (isClaimable action) (revertedAction now) db.matchActions } := rfl

/-- What the commit of an undo does. -/
theorem reverts_of_ok {action : MatchAction} {now : Timestamp} (hopen : IsOpen userId action db)
    (h : undoWrites action now db = .ok db') :
    Reverts userId action db db' ∧ db'.nextRowId = db.nextRowId := by
  unfold undoWrites at h
  obtain ⟨claimed, hclaim, hrelease⟩ := bind_eq_ok_iff.1 h
  obtain rfl := Except.ok.inj hclaim
  obtain ⟨likes, balances, hreleased, rfl⟩ := releaseLike_ok hrelease
  have hactor : action.actorUserId = userId := by
    have hmem := (List.mem_filter.1 hopen.1).2
    rwa [decide_eq_true_eq] at hmem
  refine ⟨⟨hopen, ⟨now, ?_⟩, ?_, ?_⟩, rfl⟩
  · unfold actionsOf
    exact filter_updateWhere fun _ _ _ => rfl
  · by_cases hskip : action.action = .skip
    · rw [if_pos hskip]
      unfold likesOf
      rw [hreleased.skip hskip]
    · rw [if_neg hskip]
      unfold likesOf
      rw [hreleased.like hskip, List.filter_filter, List.filter_filter]
      apply List.filter_congr
      intro row _
      rw [Bool.eq_iff_iff, hactor]
      simp only [decide_eq_true_eq, Bool.and_eq_true]
      constructor
      · intro hrow
        exact ⟨fun htarget => hrow.2 ⟨hrow.1, htarget⟩, hrow.1⟩
      · intro hrow
        exact ⟨hrow.2, fun hboth => hrow.1 hboth.2⟩
  · intro user credit
    rw [hreleased.credits, hactor]

/-- An undo keeps what is invariant. -/
theorem UserInvariant.reverts {action : MatchAction} (h : UserInvariant userId limit db)
    (hreverts : Reverts userId action db db') (hnext : db'.nextRowId = db.nextRowId) :
    UserInvariant userId limit db' := by
  obtain ⟨now, hactions⟩ := hreverts.actions
  have hid (row : MatchAction) : (revertedAction now row).id = row.id := rfl
  refine ⟨?_, ?_, ?_⟩
  · intro row hrow
    rw [hactions] at hrow
    rw [hnext]
    obtain ⟨old, hold, rfl⟩ := List.mem_map.1 hrow
    split
    · exact h.drawn old hold
    · exact h.drawn old hold
  · rw [hactions]
    exact h.unique.updateWhere hid
  · -- There are no more likes than before.
    intro most hmost now
    apply le_trans _ (h.likes most hmost now)
    rw [likesOnDay_eq, likesOnDay_eq, hreverts.likes]
    split
    · exact le_rfl
    · exact List.Sublist.countP_le List.filter_sublist

theorem Reverts.onward {action : MatchAction} (h : Reverts userId action db db')
    (hnext : db'.nextRowId = db.nextRowId) : Onward userId db db' := by
  obtain ⟨now, hactions⟩ := h.actions
  refine ⟨hnext.ge, ?_⟩
  intro row hrow hreverted
  rw [hactions]
  refine List.mem_map.2 ⟨row, hrow, ?_⟩
  rw [if_neg]
  unfold isClaimable
  rw [decide_eq_true_eq]
  exact fun hclaimable => hreverted hclaimable.2

/-- The writes of an undo are those of `Matching.releaseLike` after the claim. -/
theorem triple_releaseLike {action : MatchAction} {now : Timestamp}
    (hactor : action.actorUserId = userId) (hlocal : (userGuard userId limit).Local known) :
    UserTriple userId limit requires request pid known
      (Statements.releaseLike userId action (unwritten.andThen (claim action now)))
      fun pending' s => (∀ s, pending' s = undoWrites action now s) ∧ known s := by
  unfold Statements.releaseLike
  have hreturn (pending' : Pending Database Failure)
      (hpending : ∀ s, pending' s = undoWrites action now s) :
      UserTriple userId limit requires request pid known (pure pending')
        fun pending' s => (∀ s, pending' s = undoWrites action now s) ∧ known s :=
    Guard.triple_pure (((userGuard userId limit).local_pure _).and hlocal)
      fun _ hknown => ⟨hpending, hknown⟩
  split
  case isTrue hskip =>
    apply hreturn
    intro s
    rw [undoWrites_eq, Matching.releaseLike, if_pos hskip]
    rfl
  case isFalse hskip =>
    apply (Guard.triple_writing hlocal).then
    intro deleted
    apply Guard.Triple.of_fact
    intro hdeleted
    split
    case isTrue hsuperlike =>
      apply (Guard.triple_writing hlocal).mono
      intro pending' s _ hwritten
      obtain ⟨rfl, hknown⟩ := hwritten
      refine ⟨fun s => ?_, hknown⟩
      subst hdeleted
      rw [undoWrites_eq, Matching.releaseLike, if_neg hskip, if_pos hsuperlike, hactor]
      rfl
    case isFalse hlike =>
      apply hreturn
      intro s
      subst hdeleted
      rw [undoWrites_eq, Matching.releaseLike, if_neg hskip, if_neg hlike, hactor]
      rfl

theorem ends_revertAction {action claimedAction : MatchAction} {now : Timestamp} :
    UserEnds userId limit requires request pid (IsOpen userId action)
      (revertAction userId action claimedAction (unwritten.andThen (claim action now))) := by
  intro w howns
  have hactor : action.actorUserId = userId := by
    have hmem := (List.mem_filter.1 howns.2.1).2
    rwa [decide_eq_true_eq] at hmem
  suffices hends : UserEnds userId limit requires request pid (IsOpen userId action)
      (revertAction userId action claimedAction (unwritten.andThen (claim action now))) from
    hends w howns
  apply (Guard.triple_statement local_isOpen (by simp)).ends
  intro existingMatch
  apply Guard.ends_check
  intro _ _
  apply (triple_releaseLike hactor local_isOpen).ends
  intro pending'
  apply Guard.Ends.of_fact
  intro hpending
  apply Guard.Ends.answer
  apply Guard.ends_commitWrites local_isOpen
  intro s s' hinv hopen hwrites
  rw [hpending] at hwrites
  obtain ⟨hreverts, hnext⟩ := reverts_of_ok hopen hwrites
  refine ⟨hinv.reverts hreverts hnext, hreverts.onward hnext, ?_⟩
  intro event hevent
  rw [List.mem_cons, List.mem_singleton] at hevent
  rcases hevent with rfl | rfl
  · exact hreverts
  · trivial

/-- An undo takes the lock of its user first. -/
theorem holds_undoLastAction {w : MatchingState} :
    ((userGuard userId limit).logic requires : Logic _ _ _ MatchingAnswer).Holds request pid
      (Statements.undoLastAction userId.toUuidText) (fun _ _ => True) (fun _ _ => True) w := by
  have hlocal := (userGuard userId limit).local_pure True
  apply Guard.holds_take_ends (fun _ _ => True)
  · intro event hevent s
    obtain rfl := List.mem_singleton.1 hevent
    trivial
  · exact fun _ => hlocal
  · exact fun s value _ _ => ⟨rfl, List.mem_singleton_self _, trivial⟩
  · simp
  intro _
  apply (Guard.triple_anything hlocal).ends
  intro tie
  let Found (found : Option MatchAction) (s : Database) : Prop :=
    ∀ action, found = some action → IsOpen userId action s
  apply Guard.ends_evaluate Found hlocal
  · intro found s s' hgrows hpart hfound action haction
    exact local_isOpen s s' hgrows hpart (hfound action haction)
  · intro s found _ _ hread action haction
    obtain ⟨view, hview, hlook⟩ := bind_eq_ok_iff.1 hread
    obtain rfl := Except.ok.inj hview
    have hlast := (Except.ok.inj hlook).trans haction
    rw [Uuid.toUuid_eq] at hlast
    exact isOpen_of_last hlast
  · simp
  intro found
  cases found with
  | none => exact Guard.Ends.of_known (fun _ _ => trivial) (ends_unwritten hlocal)
  | some action =>
      apply Guard.Ends.of_known fun s hfound => hfound action rfl
      rw [Uuid.toUuid_eq]
      apply (Guard.triple_statement local_isOpen (by simp)).ends
      intro _
      apply (Guard.triple_anything local_isOpen).ends
      intro now
      apply (Guard.triple_statement local_isOpen (by simp)).ends
      intro claimed
      cases claimed with
      | nil => exact ends_unwritten local_isOpen
      | cons claimedAction rest => exact ends_revertAction

end Statements

/-- The lock of the user guards the user's likes and actions. -/
theorem userGuard_sound (userId : Uuid) (limit : Option ℕ) :
    ((userGuard userId limit).logic (userSystem userId limit).accepts).Sound
      (userSystem userId limit) := by
  apply Guard.sound _ _ [.ended] fun _ _ => rfl
  · intro request pid w hcall
    cases request with
    | actOnCandidate input =>
        apply Logic.Holds.bind
        exact (holds_actOnCandidate_user hcall.1 hcall.2).mono
          (fun _ _ _ _ => Logic.holds_pure fun _ _ _ => trivial) fun _ _ _ h => h
    | undoLastAction user =>
        obtain rfl : user = userId.toUuidText := hcall
        apply Logic.Holds.bind
        exact Logic.Holds.mono holds_undoLastAction
          (fun _ _ _ _ => Logic.holds_pure fun _ _ _ => trivial) fun _ _ _ h => h
    | blockUser blockerUserId blockedUserId => exact hcall.elim
    | activateBoost user now => exact hcall.elim
  · intro before after haround
    refine ⟨?_, ⟨haround.drawn, ?_⟩, ?_, haround.locks⟩
    · exact Prod.ext haround.likes haround.actions
    · intro row hrow _
      rwa [haround.actions]
    · intro hinv
      refine ⟨?_, ?_, ?_⟩
      · intro row hrow
        rw [haround.actions] at hrow
        exact lt_of_lt_of_le (hinv.drawn row hrow) haround.drawn
      · rw [haround.actions]
        exact hinv.unique
      · intro most hmost now
        rw [likesOnDay_eq, haround.likes, ← likesOnDay_eq]
        exact hinv.likes most hmost now

/-! ### One change -/

/-- Nothing is changed but for identifiers that are drawn. -/
def SameButDrawn (before after : Database) : Prop :=
  after = { before with nextRowId := after.nextRowId }

theorem sameButDrawn_draw (db : Database) :
    SameButDrawn db { db with nextRowId := db.nextRowId + 1 } := rfl

/-- Calls that fail in any way, and make one change. -/
def userConduct : Conduct MatchingState Failure :=
  conduct (fun _ => True) SameButDrawn (fun _ => rfl) fun _ => True

/-- What is entered when a call of the user makes its change. -/
def callEnters : MatchingRequest → MatchingAnswer → MatchingState → MatchingState → Prop
  | .actOnCandidate _, .acted result, _, _ => result.created
  | .undoLastAction _, .undone (some claimed), before, after => ∃ action pid,
      action.id = claimed.id ∧
        after.log = History.stamp pid [.reverted action, .ended] ++ before.log
  | _, _, _, _ => False

/-- The answers of the calls that change nothing. -/
def callSilent : MatchingRequest → MatchingAnswer → Prop
  | .actOnCandidate _, .acted result => ¬ result.created
  | .undoLastAction _, .undone answer => answer = none
  | _, _ => False

section Lands

theorem quiet_spendSuperLike (input : ActInput) :
    (Statements.spendSuperLike input pending).Lands userConduct Prog.noChange (fun _ => True)
      pid := by
  unfold Statements.spendSuperLike
  split
  · exact quiet_writing fun _ _ _ _ => trivial
  · exact .returned trivial

theorem quiet_recordLike (input : ActInput) :
    (Statements.recordLike input pending).Lands userConduct Prog.noChange (fun _ => True) pid := by
  unfold Statements.recordLike
  split
  · exact .returned trivial
  apply lands_evaluate fun _ _ _ _ => trivial
  intro _ existing _ _
  cases existing with
  | some row => exact .returned trivial
  | none =>
      apply lands_evaluate fun _ _ _ _ => trivial
      intro _ count _ _
      apply lands_check fun _ _ => trivial
      intro _ _
      exact quiet_writing fun _ _ _ _ => trivial

theorem quiet_matchIfReverseExists (user target : UuidText) :
    (Statements.matchIfReverseExists user target pending).Lands userConduct Prog.noChange
      (fun _ => True) pid := by
  unfold Statements.matchIfReverseExists
  apply lands_evaluate fun _ _ _ _ => trivial
  intro _ reverse _ _
  cases reverse with
  | none => exact .returned trivial
  | some like =>
      apply lands_evaluate fun _ _ _ _ => trivial
      intro _ existing _ _
      cases existing with
      | some row => exact .returned trivial
      | none =>
          apply lands_draw
          · exact fun s _ => sameButDrawn_draw s
          intro roomId
          apply lands_writing fun _ _ _ _ => trivial
          apply lands_writing fun _ _ _ _ => trivial
          apply lands_writing fun _ _ _ _ => trivial
          exact .returned trivial

theorem quiet_remainingCredits (input : ActInput) :
    (remainingCredits input pending).Lands userConduct Prog.noChange (fun _ => True) pid := by
  unfold remainingCredits
  split
  · exact quiet_evaluate fun _ _ _ _ => trivial
  · exact .returned trivial

theorem quiet_releaseLike (action : MatchAction) :
    (Statements.releaseLike userId action pending).Lands userConduct Prog.noChange (fun _ => True)
      pid := by
  unfold Statements.releaseLike
  split
  · exact .returned trivial
  · apply lands_writing fun _ _ _ _ => trivial
    split
    · exact quiet_writing fun _ _ _ _ => trivial
    · exact .returned trivial

/-- A transaction that has written nothing. -/
theorem quiet_of_unwritten {s s' : Database}
    (h : (unwritten : Pending Database Failure) s = .ok s') : SameButDrawn s s' := by
  obtain rfl := Except.ok.inj h
  rfl

theorem lands_actOnCandidate (input : ActInput) :
    (Statements.actOnCandidate input).Lands userConduct (fun result _ _ => result.created)
      (fun result => ¬ result.created) pid := by
  apply lands_inTransaction
  apply lands_evaluate fun _ _ _ _ => trivial
  intro _ _ _ _
  apply lands_evaluate fun _ _ _ _ => trivial
  intro _ _ _ _
  apply lands_evaluate fun _ _ _ _ => trivial
  intro _ existing _ _
  cases existing with
  | some row =>
      -- The action is repeated.
      apply lands_check fun _ _ => trivial
      intro _ _
      split
      · apply lands_commitWrites _ fun _ _ _ _ => trivial
        exact fun _ _ _ hwrites => Or.inl ⟨quiet_of_unwritten hwrites, Bool.false_ne_true⟩
      apply lands_evaluate fun _ _ _ _ => trivial
      intro _ existingMatch _ _
      apply (quiet_remainingCredits input).after
      intro _ _
      apply lands_commitWrites _ fun _ _ _ _ => trivial
      exact fun _ _ _ hwrites => Or.inl ⟨quiet_of_unwritten hwrites, Bool.false_ne_true⟩
  | none =>
      apply lands_evaluate fun _ _ _ _ => trivial
      intro _ actor _ _
      apply lands_evaluate fun _ _ _ _ => trivial
      intro _ target _ _
      apply lands_check fun _ _ => trivial
      intro _ _
      apply lands_evaluate fun _ _ _ _ => trivial
      intro _ _ _ _
      apply (quiet_spendSuperLike input).after
      intro charged _
      apply (quiet_recordLike input).after
      intro liked _
      apply lands_draw
      · exact fun s _ => sameButDrawn_draw s
      intro id
      apply lands_writing fun _ _ _ _ => trivial
      unfold Statements.finishAction
      split
      · apply lands_commitWrites _ fun _ _ _ _ => trivial
        exact fun _ _ _ _ => Or.inr rfl
      apply (quiet_matchIfReverseExists _ _).after
      intro matched _
      apply (quiet_remainingCredits input).after
      intro _ _
      apply lands_commitWrites _ fun _ _ _ _ => trivial
      exact fun _ _ _ _ => Or.inr rfl

theorem lands_undoLastAction (user : UuidText) :
    (Statements.undoLastAction user).Lands userConduct
      (fun result before after => ∃ claimed action, result = some claimed ∧ action.id = claimed.id ∧
        after.log = History.stamp pid [.reverted action, .ended] ++ before.log)
      (fun result => result = none) pid := by
  apply lands_inTransaction
  apply lands_evaluate fun _ _ _ _ => trivial
  intro _ _ _ _
  apply lands_anything
  intro tie
  apply lands_evaluate fun _ _ _ _ => trivial
  intro _ found _ _
  cases found with
  | none =>
      apply lands_commitWrites _ fun _ _ _ _ => trivial
      exact fun _ _ _ hwrites => Or.inl ⟨quiet_of_unwritten hwrites, rfl⟩
  | some action =>
      apply lands_evaluate fun _ _ _ _ => trivial
      intro _ _ _ _
      apply lands_anything
      intro now
      apply lands_evaluate fun _ _ _ _ => trivial
      intro s claimed _ hclaimed
      cases claimed with
      | nil =>
          apply lands_commitWrites _ fun _ _ _ _ => trivial
          exact fun _ _ _ hwrites => Or.inl ⟨quiet_of_unwritten hwrites, rfl⟩
      | cons claimedAction rest =>
          -- The claimed row has the identifier of the action.
          have hreturned : claimedAction ∈
              returning (isClaimable action) (revertedAction now) s.matchActions := by
            rw [Except.ok.inj hclaimed]
            exact List.mem_cons_self
          obtain ⟨row, hrow, rfl⟩ := List.mem_map.1 hreturned
          have hid : row.id = action.id := by
            have hclaimable := (List.mem_filter.1 hrow).2
            unfold isClaimable at hclaimable
            rw [decide_eq_true_eq] at hclaimable
            exact hclaimable.1
          apply lands_evaluate fun _ _ _ _ => trivial
          intro _ existingMatch _ _
          apply lands_check fun _ _ => trivial
          intro _ _
          apply (quiet_releaseLike action).after
          intro released _
          apply lands_commitWrites _ fun _ _ _ _ => trivial
          exact fun _ _ _ _ => Or.inr ⟨_, action, rfl, hid.symm, rfl⟩

theorem lands_callCode {request : MatchingRequest} (hcall : request.CallOf userId limit) :
    (matchingCode request).Lands userConduct (callEnters request) (callSilent request) pid := by
  cases request with
  | actOnCandidate input =>
      exact (lands_actOnCandidate input).answer (fun _ h => h) fun _ _ _ h => h
  | undoLastAction user =>
      apply (lands_undoLastAction user).answer (fun _ h => h)
      intro result before after hentered
      obtain ⟨claimed, action, rfl, hid, hlog⟩ := hentered
      exact ⟨action, pid, hid, hlog⟩
  | blockUser blockerUserId blockedUserId => exact hcall.elim
  | activateBoost user now => exact hcall.elim

end Lands

/-! ### Every run -/

/-- What the calls of the user do. -/
def callLands (userId : Uuid) :
    MatchingRequest → MatchingAnswer → MatchingState → MatchingState → Prop
  | .actOnCandidate _, .acted result, _, _ => result.created
  | .undoLastAction _, .undone (some claimed), before, after => ∃ action,
      action.id = claimed.id ∧ Reverts userId action before.committed after.committed
  | _, _, _, _ => False

variable {c c₁ c₂ : Config MatchingState MatchingRequest Failure MatchingAnswer}
  {thread : Thread MatchingState MatchingRequest Failure MatchingAnswer}

/-- The invariant of the user holds in every run. -/
theorem good_user (hinv : UserInvariant userId limit db)
    (hrun : Reachable (userSystem userId limit) anyStep (matchingAtRest db) c) :
    ((userGuard userId limit).logic (userSystem userId limit).accepts).Good c :=
  Guard.invariant_of_reachable (userGuard_sound userId limit) hinv hrun

/-- What a step has entered is what it has done. -/
theorem reverts_of_entered {action : MatchAction} {number : ℕ}
    (hinv : UserInvariant userId limit db)
    (hrun : Reachable (userSystem userId limit) anyStep (matchingAtRest db) c₁)
    (hmoves : Moves pid c₁ c₂)
    (hlog : c₂.state.log = History.stamp number [.reverted action, .ended] ++ c₁.state.log) :
    Reverts userId action c₁.state.committed c₂.state.committed := by
  have hgood := good_user hinv hrun
  cases hmoves with
  | run running acts =>
      obtain ⟨-, -, events, hevents, hmeans⟩ := Logic.Sound.guarantee hgood running acts trivial
      have hstamp := List.append_cancel_right (hlog.symm.trans hevents)
      have hentered : (number, MatchingEvent.reverted action) ∈ History.stamp pid events := by
        rw [← hstamp]
        exact List.mem_cons_self
      exact hmeans _ (History.mem_stamp.1 hentered).2

/-- The calls of the user make one change each, or none. -/
theorem user_outcomes (hinv : UserInvariant userId limit db)
    (hrun : Reachable (userSystem userId limit) anyStep (matchingAtRest db) c)
    (hthread : c.threads[pid]? = some thread) :
    Outcomes (userSystem userId limit) anyStep userConduct (callLands userId) callSilent
      (matchingAtRest db) c pid thread := by
  have hcall : thread.request.CallOf userId limit :=
    hrun.accepted (fun _ _ => lands_callCode) (fun _ _ => trivial) hthread
  have houtcomes := hrun.outcomes (fun _ _ => lands_callCode)
    (fun _ _ => trivial) (Nat.zero_le pid) hthread hcall
  apply houtcomes.imp
  intro c₁ c₂ value hfirst hmoves _ _ hentered
  cases hrequest : thread.request with
  | actOnCandidate input =>
      rw [hrequest] at hentered
      cases value with
      | acted result => exact hentered
      | undone action => exact hentered.elim
      | blocked => exact hentered.elim
      | boosted result => exact hentered.elim
  | undoLastAction user =>
      rw [hrequest] at hentered
      cases value with
      | undone claimed =>
          cases claimed with
          | none => exact hentered.elim
          | some claimedAction =>
              obtain ⟨action, number, hid, hlog⟩ := hentered
              exact ⟨action, hid, reverts_of_entered hinv hfirst hmoves hlog⟩
      | acted result => exact hentered.elim
      | blocked => exact hentered.elim
      | boosted result => exact hentered.elim
  | blockUser blockerUserId blockedUserId =>
      rw [hrequest] at hcall
      exact hcall.elim
  | activateBoost user now =>
      rw [hrequest] at hcall
      exact hcall.elim

end ChatTea.Matching
