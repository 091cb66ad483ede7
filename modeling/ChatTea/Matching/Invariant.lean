import ChatTea.Matching.Credits

/-!
# The matching invariant

Five tables describe who likes whom: actions, likes, matches, rooms and room
members. This file proves what ties them together after any run of calls that
spell users as PostgreSQL does: likes are the active likes and superlikes,
matches are the mutual likes, and each match has a room of its own whose members
are the two users.

## Main definitions

* `Liked`, `MatchedIn` — a like, and a match with its room
* `LikeInvariant`, `RoomInvariant`, `MatchingInvariant` — the invariant

## Main results

* `MatchingInvariant.act`, `MatchingInvariant.undo` — one call preserves it
* `act_agrees` — what an action returns agrees with the tables
* `matching_invariant` — the invariant after any run
-/

namespace ChatTea.Matching

open Table Transaction
open Billing

/-- A user likes another. -/
def Liked (db : Database) (a b : Uuid) : Prop :=
  ∃ row ∈ db.userLikes, row.likerUserId = a ∧ row.likedUserId = b

/-- The row concerns two users, in either order. -/
def Match.Joins (row : Match) (a b : Uuid) : Prop :=
  row.userLowId = a ∧ row.userHighId = b ∨ row.userLowId = b ∧ row.userHighId = a

/-- Two users have a match, with a room. -/
def MatchedIn (db : Database) (a b : Uuid) (roomId : RowId) : Prop :=
  ∃ row ∈ db.matchRows, Match.Joins row a b ∧ row.roomId = roomId

/-- The pair of two users in the order of their identifiers. -/
def pairOf (a b : Uuid) : Uuid × Uuid := (min a b, max a b)

variable {input : ActInput} {start db db' : Database} {a b : Uuid}

/-! ### Pairs -/

theorem pairOf_comm (a b : Uuid) : pairOf a b = pairOf b a := by
  rw [pairOf, pairOf, min_comm, max_comm]

/-- Texts spelled as PostgreSQL spells them are ordered as the stored values. -/
theorem orderedMatchingPair_eq {userId targetUserId : UuidText} (huser : userId.Canonical)
    (htarget : targetUserId.Canonical) :
    orderedMatchingPair userId targetUserId = pairOf userId.toUuid targetUserId.toUuid := by
  have hlt : userId.toUuid < targetUserId.toUuid ↔ userId.text < targetUserId.text := by
    change userId.text.lower < targetUserId.text.lower ↔ _
    rw [huser, htarget]
  unfold orderedMatchingPair pairOf
  by_cases h : userId.text < targetUserId.text
  · rw [if_pos h, min_eq_left (hlt.2 h).le, max_eq_right (hlt.2 h).le]
  · have hle : targetUserId.toUuid ≤ userId.toUuid := not_lt.1 fun hlower => h (hlt.1 hlower)
    rw [if_neg h, min_eq_right hle, max_eq_left hle]

theorem orderedMatchingPair_toUuidText (a b : Uuid) :
    orderedMatchingPair a.toUuidText b.toUuidText = pairOf a b := by
  rw [orderedMatchingPair_eq a.lowerCase b.lowerCase, a.toUuid_eq, b.toUuid_eq]

theorem pairOf_eq_iff {x y : Uuid} :
    pairOf x y = pairOf a b ↔ x = a ∧ y = b ∨ x = b ∧ y = a := by
  constructor
  · intro h
    obtain ⟨hmin, hmax⟩ := Prod.mk.inj h
    rcases le_total x y with hxy | hxy <;> rcases le_total a b with hab | hab <;>
      simp only [min_eq_left, min_eq_right, max_eq_left, max_eq_right, hxy, hab] at hmin hmax <;>
      tauto
  · rintro (⟨rfl, rfl⟩ | ⟨rfl, rfl⟩)
    · rfl
    · exact pairOf_comm _ _

/-- An ordered row joins two users exactly when it carries their pair. -/
theorem joins_iff {row : Match} (hordered : row.userLowId < row.userHighId) :
    Match.Joins row a b ↔ matchKey row = pairOf a b := by
  have hkey : matchKey row = pairOf row.userLowId row.userHighId := by
    rw [pairOf, min_eq_left hordered.le, max_eq_right hordered.le]
    rfl
  rw [hkey, pairOf_eq_iff, Match.Joins]

/-! ### The invariant -/

/-- What ties likes to actions. -/
structure LikeInvariant (db : Database) : Prop where
  unique_actions : UniqueKey MatchAction.id db.matchActions
  actions_drawn : ∀ row ∈ db.matchActions, row.id < db.nextRowId
  /-- A user has at most one active action on another. -/
  one_active : ∀ a b, ∀ row ∈ db.matchActions, ∀ row' ∈ db.matchActions,
    IsActive a b row → IsActive a b row' → row = row'
  liked_iff : ∀ a b, Liked db a b ↔
    ∃ row ∈ db.matchActions, IsActive a b row ∧ row.action ≠ .skip
  liked_ne : ∀ a b, Liked db a b → a ≠ b

/-- What ties matches to rooms and their members. -/
structure RoomInvariant (db : Database) : Prop where
  unique_matches : UniqueKey matchKey db.matchRows
  unique_rooms : UniqueKey Match.roomId db.matchRows
  ordered : ∀ row ∈ db.matchRows, row.userLowId < row.userHighId
  room : ∀ row ∈ db.matchRows, ∃ room ∈ db.rooms, room.id = row.roomId
  members : ∀ row ∈ db.matchRows, ∀ user,
    { roomId := row.roomId, userId := user : RoomMember } ∈ db.roomMembers ↔
      user = row.userLowId ∨ user = row.userHighId
  rooms_drawn : ∀ row ∈ db.matchRows, row.roomId < db.nextRowId
  members_drawn : ∀ member ∈ db.roomMembers, member.roomId < db.nextRowId

/-- Matches are the mutual likes. -/
structure MatchingInvariant (db : Database) : Prop extends LikeInvariant db, RoomInvariant db where
  matched_iff : ∀ a b, (∃ row ∈ db.matchRows, matchKey row = pairOf a b) ↔
    Liked db a b ∧ Liked db b a

/-- The matching tables are empty. -/
structure EmptyMatching (db : Database) : Prop where
  actions : db.matchActions = []
  likes : db.userLikes = []
  rooms : db.rooms = []
  members : db.roomMembers = []
  matchRows : db.matchRows = []

theorem MatchingInvariant.of_empty (h : EmptyMatching start) : MatchingInvariant start where
  unique_actions := by simp [h.actions, UniqueKey]
  actions_drawn := by simp [h.actions]
  one_active := by simp [h.actions]
  liked_iff := by simp [Liked, h.likes, h.actions]
  liked_ne := by simp [Liked, h.likes]
  unique_matches := by simp [h.matchRows, UniqueKey]
  unique_rooms := by simp [h.matchRows, UniqueKey]
  ordered := by simp [h.matchRows]
  room := by simp [h.matchRows]
  members := by simp [h.matchRows]
  rooms_drawn := by simp [h.matchRows]
  members_drawn := by simp [h.members]
  matched_iff := by simp [Liked, h.likes, h.matchRows]

/-! ### Reading the tables -/

theorem findLike_eq_none : findLike a b db = none ↔ ¬ Liked db a b := by
  simp [findLike, Liked]

theorem findActiveAction_eq_none :
    findActiveAction a b db = none ↔ ∀ row ∈ db.matchActions, ¬ IsActive a b row := by
  simp [findActiveAction]

theorem mem_of_findActiveAction {row : MatchAction} (h : findActiveAction a b db = some row) :
    row ∈ db.matchActions ∧ IsActive a b row :=
  ⟨List.mem_of_find?_eq_some h, by simpa using List.find?_some h⟩

theorem MatchingInvariant.findMatch_eq_none (h : MatchingInvariant db) :
    findMatch (pairOf a b) db = none ↔ ¬ (Liked db a b ∧ Liked db b a) := by
  rw [← h.matched_iff a b, findMatch, lookup_eq_none]
  push Not
  rfl

/-! ### A new action -/

theorem RoomInvariant.of_matching (h : RoomInvariant db) (hrooms : db'.rooms = db.rooms)
    (hmembers : db'.roomMembers = db.roomMembers) (hmatches : db'.matchRows = db.matchRows)
    (hnext : db.nextRowId ≤ db'.nextRowId) : RoomInvariant db' where
  unique_matches := by rw [hmatches]; exact h.unique_matches
  unique_rooms := by rw [hmatches]; exact h.unique_rooms
  ordered := by rw [hmatches]; exact h.ordered
  room := by rw [hmatches, hrooms]; exact h.room
  members := by rw [hmatches, hmembers]; exact h.members
  rooms_drawn row hrow := by
    rw [hmatches] at hrow
    exact lt_of_lt_of_le (h.rooms_drawn row hrow) hnext
  members_drawn member hmember := by
    rw [hmembers] at hmember
    exact lt_of_lt_of_le (h.members_drawn member hmember) hnext

/-- Tables that matching does not read may change, and row identifiers be drawn. -/
theorem MatchingInvariant.of_same (h : MatchingInvariant db) (hsame : SameMatching db db') :
    MatchingInvariant db' where
  toRoomInvariant :=
    h.toRoomInvariant.of_matching hsame.rooms hsame.members hsame.matchRows hsame.drawn
  unique_actions := by rw [hsame.actions]; exact h.unique_actions
  actions_drawn row hrow := by
    rw [hsame.actions] at hrow
    exact lt_of_lt_of_le (h.actions_drawn row hrow) hsame.drawn
  one_active := by rw [hsame.actions]; exact h.one_active
  liked_iff := by
    unfold Liked
    rw [hsame.actions, hsame.likes]
    exact h.liked_iff
  liked_ne := by
    unfold Liked
    rw [hsame.likes]
    exact h.liked_ne
  matched_iff := by
    unfold Liked
    rw [hsame.matchRows, hsame.likes]
    exact h.matched_iff

section NewAction

variable {balances : List ConsumableBalance}

theorem liked_append_iff {like : UserLike} {likes : List UserLike} {x y : Uuid} :
    (∃ row ∈ likes ++ [like], row.likerUserId = x ∧ row.likedUserId = y) ↔
      (∃ row ∈ likes, row.likerUserId = x ∧ row.likedUserId = y) ∨
        like.likerUserId = x ∧ like.likedUserId = y := by
  simp [or_and_right, exists_or]

/-- The likes after a new action: its own, unless it is a skip. -/
theorem liked_afterAction_iff (h : LikeInvariant db)
    (hnew : findActiveAction input.userId.toUuid input.targetUserId.toUuid db = none)
    {x y : Uuid} :
    Liked (afterAction input balances db) x y ↔ Liked db x y ∨
      input.action ≠ .skip ∧ x = input.userId.toUuid ∧ y = input.targetUserId.toUuid := by
  have hnone : ¬ Liked db input.userId.toUuid input.targetUserId.toUuid := by
    rw [h.liked_iff]
    rintro ⟨row, hrow, hactive, -⟩
    exact findActiveAction_eq_none.1 hnew row hrow hactive
  by_cases hskip : input.action = .skip
  · have hlikes : likesAfter input db = db.userLikes := by simp [likesAfter, hskip]
    simp only [Liked, afterAction, hlikes, hskip, ne_eq, not_true_eq_false, false_and, or_false]
  · have hlikes : likesAfter input db = db.userLikes ++ [createdLike input] := by
      simp [likesAfter, hskip, findLike_eq_none.2 hnone]
    simp only [Liked, afterAction, hlikes, liked_append_iff, ne_eq, hskip, not_false_eq_true,
      true_and]
    exact or_congr_right (and_congr eq_comm eq_comm)

theorem LikeInvariant.afterAction (h : LikeInvariant db)
    (hself : input.userId.toUuid ≠ input.targetUserId.toUuid)
    (hnew : findActiveAction input.userId.toUuid input.targetUserId.toUuid db = none) :
    LikeInvariant (afterAction input balances db) := by
  have hactive : ∀ x y, IsActive x y (createdAction input db.nextRowId) ↔
      x = input.userId.toUuid ∧ y = input.targetUserId.toUuid := by
    intro x y
    simp [IsActive, createdAction, eq_comm]
  have hfresh := findActiveAction_eq_none.1 hnew
  refine
    { unique_actions := h.unique_actions.append fun row hrow => (h.actions_drawn row hrow).ne
      actions_drawn := ?_
      one_active := ?_
      liked_iff := ?_
      liked_ne := ?_ }
  · intro row hrow
    rcases List.mem_append.1 hrow with hold | hlast
    · exact Nat.lt_succ_of_lt (h.actions_drawn row hold)
    · rw [List.mem_singleton.1 hlast]
      exact Nat.lt_succ_self _
  · intro x y row hrow row' hrow' hrowactive hrowactive'
    rcases List.mem_append.1 hrow with hold | hlast <;>
      rcases List.mem_append.1 hrow' with hold' | hlast'
    · exact h.one_active x y row hold row' hold' hrowactive hrowactive'
    · rw [List.mem_singleton.1 hlast', hactive] at hrowactive'
      obtain ⟨rfl, rfl⟩ := hrowactive'
      exact absurd hrowactive (hfresh row hold)
    · rw [List.mem_singleton.1 hlast, hactive] at hrowactive
      obtain ⟨rfl, rfl⟩ := hrowactive
      exact absurd hrowactive' (hfresh row' hold')
    · rw [List.mem_singleton.1 hlast, List.mem_singleton.1 hlast']
  · intro x y
    rw [liked_afterAction_iff h hnew, h.liked_iff]
    constructor
    · rintro (⟨row, hrow, hrowactive, hkind⟩ | ⟨hskip, rfl, rfl⟩)
      · exact ⟨row, List.mem_append_left _ hrow, hrowactive, hkind⟩
      · exact ⟨createdAction input db.nextRowId, List.mem_append_right _ (List.mem_singleton_self _),
          (hactive _ _).2 ⟨rfl, rfl⟩, hskip⟩
    · rintro ⟨row, hrow, hrowactive, hkind⟩
      rcases List.mem_append.1 hrow with hold | hlast
      · exact Or.inl ⟨row, hold, hrowactive, hkind⟩
      · rw [List.mem_singleton.1 hlast] at hrowactive hkind
        exact Or.inr ⟨hkind, (hactive _ _).1 hrowactive⟩
  · intro x y hliked
    rcases (liked_afterAction_iff h hnew).1 hliked with hold | ⟨-, rfl, rfl⟩
    · exact h.liked_ne x y hold
    · exact hself

theorem RoomInvariant.afterAction (h : RoomInvariant db) :
    RoomInvariant (afterAction input balances db) :=
  { h with
    rooms_drawn := fun row hrow => Nat.lt_succ_of_lt (h.rooms_drawn row hrow)
    members_drawn := fun member hmember => Nat.lt_succ_of_lt (h.members_drawn member hmember) }

/-- What the search for the reverse like finds after a like was stored. -/
theorem matchIfReverseExists_cases (h : MatchingInvariant db)
    (huser : input.userId.Canonical) (htarget : input.targetUserId.Canonical)
    (hself : input.userId.toUuid ≠ input.targetUserId.toUuid)
    (hnew : findActiveAction input.userId.toUuid input.targetUserId.toUuid db = none)
    {matched : Bool} {roomId : Option RowId}
    (hsearch : matchIfReverseExists input.userId input.targetUserId
      (afterAction input balances db) = ((matched, roomId), db')) :
    (¬ Liked db input.targetUserId.toUuid input.userId.toUuid ∧ matched = false ∧ roomId = none ∧
        db' = afterAction input balances db) ∨
      (Liked db input.targetUserId.toUuid input.userId.toUuid ∧ matched = true ∧
        roomId = some (db.nextRowId + 1) ∧
        db' = { afterAction input balances db with
          rooms := db.rooms ++ [{ id := db.nextRowId + 1, name := "매칭 대화" }]
          roomMembers := db.roomMembers ++
            [{ roomId := db.nextRowId + 1, userId := input.userId.toUuid },
              { roomId := db.nextRowId + 1, userId := input.targetUserId.toUuid }]
          matchRows := db.matchRows ++
            [{ userLowId := (pairOf input.userId.toUuid input.targetUserId.toUuid).1
               userHighId := (pairOf input.userId.toUuid input.targetUserId.toUuid).2
               roomId := db.nextRowId + 1 }]
          nextRowId := db.nextRowId + 2 }) := by
  have hreverse : Liked (afterAction input balances db) input.targetUserId.toUuid
      input.userId.toUuid ↔ Liked db input.targetUserId.toUuid input.userId.toUuid := by
    rw [liked_afterAction_iff h.toLikeInvariant hnew, or_iff_left]
    rintro ⟨-, hsame, -⟩
    exact hself hsame.symm
  unfold matchIfReverseExists at hsearch
  cases hfind : findLike input.targetUserId.toUuid input.userId.toUuid
      (afterAction input balances db) with
  | none =>
      simp only [hfind, Prod.mk.injEq] at hsearch
      obtain ⟨⟨rfl, rfl⟩, rfl⟩ := hsearch
      exact Or.inl ⟨fun hliked => findLike_eq_none.1 hfind (hreverse.2 hliked), rfl, rfl, rfl⟩
  | some reverse =>
      have hliked : Liked db input.targetUserId.toUuid input.userId.toUuid := by
        rw [← hreverse]
        by_contra hnone
        rw [findLike_eq_none.2 hnone] at hfind
        cases hfind
      -- The like was not there before, so the two had no match.
      have hunmatched : findMatch (orderedMatchingPair input.userId input.targetUserId)
          (afterAction input balances db) = none := by
        rw [orderedMatchingPair_eq huser htarget]
        refine h.findMatch_eq_none.2 fun hboth => ?_
        obtain ⟨row, hrow, hactive, -⟩ := (h.liked_iff _ _).1 hboth.1
        exact findActiveAction_eq_none.1 hnew row hrow hactive
      simp only [hfind, hunmatched, Prod.mk.injEq] at hsearch
      obtain ⟨⟨rfl, rfl⟩, rfl⟩ := hsearch
      refine Or.inr ⟨hliked, rfl, rfl, ?_⟩
      have hfresh : ∀ user, { roomId := db.nextRowId + 1, userId := user : RoomMember } ∉
          db.roomMembers := by
        intro user hmember
        exact absurd (h.members_drawn _ hmember) (Nat.not_lt.2 (Nat.le_succ _))
      have hdiffer : ({ roomId := db.nextRowId + 1, userId := input.targetUserId.toUuid } :
          RoomMember) ≠ { roomId := db.nextRowId + 1, userId := input.userId.toUuid } := by
        intro hsame
        exact hself (congrArg RoomMember.userId hsame).symm
      simp [afterAction, insertRoomMember, hfresh, hdiffer, orderedMatchingPair_eq huser htarget]

/-- A mutual like gets a match, in a new room whose members are the two users. -/
theorem RoomInvariant.append_match (h : RoomInvariant db) {roomId : RowId} {next : RowId}
    (hdrawn : db.nextRowId ≤ roomId) (hnext : roomId < next) (hself : a ≠ b)
    (hunmatched : findMatch (pairOf a b) db = none)
    (hdb' : db' = { db with
      rooms := db.rooms ++ [{ id := roomId, name := "매칭 대화" }]
      roomMembers := db.roomMembers ++
        [{ roomId := roomId, userId := a }, { roomId := roomId, userId := b }]
      matchRows := db.matchRows ++
        [{ userLowId := (pairOf a b).1, userHighId := (pairOf a b).2, roomId := roomId }]
      nextRowId := next }) : RoomInvariant db' := by
  subst hdb'
  have hold : ∀ row ∈ db.matchRows, row.roomId ≠ roomId :=
    fun row hrow => (lt_of_lt_of_le (h.rooms_drawn row hrow) hdrawn).ne
  refine
    { unique_matches := h.unique_matches.append (lookup_eq_none.1 hunmatched)
      unique_rooms := h.unique_rooms.append hold
      ordered := ?_
      room := ?_
      members := ?_
      rooms_drawn := ?_
      members_drawn := ?_ }
  · intro row hrow
    rcases List.mem_append.1 hrow with hrow | hlast
    · exact h.ordered row hrow
    · rw [List.mem_singleton.1 hlast]
      exact min_lt_max.2 hself
  · intro row hrow
    rcases List.mem_append.1 hrow with hrow | hlast
    · obtain ⟨room, hroom, hid⟩ := h.room row hrow
      exact ⟨room, List.mem_append_left _ hroom, hid⟩
    · rw [List.mem_singleton.1 hlast]
      exact ⟨_, List.mem_append_right _ (List.mem_singleton_self _), rfl⟩
  · intro row hrow user
    rcases List.mem_append.1 hrow with hrow | hlast
    · -- The new members are in another room.
      have hne := hold row hrow
      rw [← h.members row hrow user]
      simp [hne]
    · rw [List.mem_singleton.1 hlast]
      have hfresh : ({ roomId := roomId, userId := user } : RoomMember) ∉ db.roomMembers :=
        fun hmember => (lt_of_lt_of_le (h.members_drawn _ hmember) hdrawn).ne rfl
      simp only [List.mem_append, hfresh, List.mem_cons, List.not_mem_nil, or_false, false_or,
        RoomMember.mk.injEq, true_and, pairOf]
      rcases le_total a b with hab | hab
      · rw [min_eq_left hab, max_eq_right hab]
      · rw [min_eq_right hab, max_eq_left hab, or_comm]
  · intro row hrow
    rcases List.mem_append.1 hrow with hrow | hlast
    · exact lt_of_lt_of_le (h.rooms_drawn row hrow) (hdrawn.trans hnext.le)
    · rw [List.mem_singleton.1 hlast]
      exact hnext
  · intro member hmember
    rcases List.mem_append.1 hmember with hmember | hlast
    · exact lt_of_lt_of_le (h.members_drawn member hmember) (hdrawn.trans hnext.le)
    · rcases List.mem_cons.1 hlast with rfl | hlast
      · exact hnext
      · rw [List.mem_singleton.1 hlast]
        exact hnext

/-- What a successful new action leaves, and what it returns about the match. -/
theorem MatchingInvariant.create (h : MatchingInvariant db) {result : ActResult}
    (huser : input.userId.Canonical) (htarget : input.targetUserId.Canonical)
    (hnew : findActiveAction input.userId.toUuid input.targetUserId.toUuid db = none)
    (hcreate : createAction input db = .ok (result, db')) :
    MatchingInvariant db' ∧
      ((result.matched = false ∧ result.roomId = none ∧
          ¬ (Liked db' input.userId.toUuid input.targetUserId.toUuid ∧
            Liked db' input.targetUserId.toUuid input.userId.toUuid)) ∨
        (result.matched = true ∧ ∃ row ∈ db'.matchRows,
          matchKey row = pairOf input.userId.toUuid input.targetUserId.toUuid ∧
            result.roomId = some row.roomId)) := by
  obtain ⟨hself, -, balances, -, hskip, hlike⟩ := createAction_writes hcreate
  have hlikes : LikeInvariant (Matching.afterAction input balances db) :=
    h.toLikeInvariant.afterAction hself hnew
  have hrooms : RoomInvariant (Matching.afterAction input balances db) :=
    h.toRoomInvariant.afterAction
  have hliked : ∀ {x y : Uuid}, Liked (Matching.afterAction input balances db) x y ↔
      Liked db x y ∨
        input.action ≠ .skip ∧ x = input.userId.toUuid ∧ y = input.targetUserId.toUuid :=
    liked_afterAction_iff h.toLikeInvariant hnew
  -- The matches of before are the mutual likes of before; the new like is new.
  have hnone : ¬ Liked db input.userId.toUuid input.targetUserId.toUuid := by
    rw [h.liked_iff]
    rintro ⟨row, hrow, hactive, -⟩
    exact findActiveAction_eq_none.1 hnew row hrow hactive
  have hunchanged : (input.action ≠ .skip →
        ¬ Liked db input.targetUserId.toUuid input.userId.toUuid) →
      MatchingInvariant (Matching.afterAction input balances db) ∧
        ¬ (Liked (Matching.afterAction input balances db) input.userId.toUuid
              input.targetUserId.toUuid ∧
            Liked (Matching.afterAction input balances db) input.targetUserId.toUuid
              input.userId.toUuid) := by
    intro hreverse
    refine ⟨⟨hlikes, hrooms, fun x y => ?_⟩, ?_⟩
    · rw [hliked, hliked]
      refine (h.matched_iff x y).trans ?_
      constructor
      · exact fun hboth => ⟨Or.inl hboth.1, Or.inl hboth.2⟩
      · rintro ⟨hxy | ⟨haction, rfl, rfl⟩, hyx | ⟨haction', hsame, hsame'⟩⟩
        · exact ⟨hxy, hyx⟩
        · subst hsame hsame'
          exact absurd hxy (hreverse haction')
        · exact absurd hyx (hreverse haction)
        · exact absurd hsame.symm hself
    · rw [hliked, hliked]
      rintro ⟨hforward | ⟨haction, -⟩, hbackward | ⟨-, hsame, -⟩⟩
      · exact hnone hforward
      · exact hself hsame.symm
      · exact hreverse haction hbackward
      · exact hself hsame.symm
  by_cases haction : input.action = .skip
  · obtain ⟨hmatched, hroom, rfl⟩ := hskip haction
    obtain ⟨hinvariant, hmutual⟩ := hunchanged fun hother => absurd haction hother
    exact ⟨hinvariant, Or.inl ⟨hmatched, hroom, hmutual⟩⟩
  · rcases matchIfReverseExists_cases h huser htarget hself hnew (hlike haction) with
      ⟨hreverse, hmatched, hroom, rfl⟩ | ⟨hreverse, hmatched, hroom, hdb'⟩
    · obtain ⟨hinvariant, hmutual⟩ := hunchanged fun _ => hreverse
      exact ⟨hinvariant, Or.inl ⟨hmatched, hroom, hmutual⟩⟩
    · have hunmatched : findMatch (pairOf input.userId.toUuid input.targetUserId.toUuid)
          (Matching.afterAction input balances db) = none :=
        h.findMatch_eq_none.2 fun hboth => hnone hboth.1
      have hrooms' : RoomInvariant db' :=
        hrooms.append_match le_rfl (Nat.lt_succ_self _) hself hunmatched hdb'
      have hlikes' : LikeInvariant db' := by
        rw [hdb']
        exact { hlikes with
          actions_drawn := fun row hrow => Nat.lt_succ_of_lt (hlikes.actions_drawn row hrow) }
      have hliked' : ∀ {x y : Uuid}, Liked db' x y ↔ Liked db x y ∨
          x = input.userId.toUuid ∧ y = input.targetUserId.toUuid := by
        intro x y
        rw [hdb']
        refine hliked.trans (or_congr_right ?_)
        rw [and_iff_right haction]
      refine ⟨⟨hlikes', hrooms', fun x y => ?_⟩, Or.inr ⟨hmatched, ?_⟩⟩
      · have hrows : (∃ row ∈ db'.matchRows, matchKey row = pairOf x y) ↔
            (∃ row ∈ db.matchRows, matchKey row = pairOf x y) ∨
              pairOf x y = pairOf input.userId.toUuid input.targetUserId.toUuid := by
          rw [hdb']
          simp only [List.mem_append, List.mem_singleton, or_and_right, exists_or,
            exists_eq_left]
          exact or_congr_right eq_comm
        rw [hrows, h.matched_iff, pairOf_eq_iff, hliked', hliked']
        constructor
        · rintro (⟨hxy, hyx⟩ | ⟨rfl, rfl⟩ | ⟨rfl, rfl⟩)
          · exact ⟨Or.inl hxy, Or.inl hyx⟩
          · exact ⟨Or.inr ⟨rfl, rfl⟩, Or.inl hreverse⟩
          · exact ⟨Or.inl hreverse, Or.inr ⟨rfl, rfl⟩⟩
        · rintro ⟨hxy | ⟨rfl, rfl⟩, hyx | ⟨hsame, hsame'⟩⟩
          · exact Or.inl ⟨hxy, hyx⟩
          · exact Or.inr (Or.inr ⟨hsame', hsame⟩)
          · exact Or.inr (Or.inl ⟨rfl, rfl⟩)
          · exact Or.inr (Or.inl ⟨rfl, rfl⟩)
      · rw [hdb']
        exact ⟨_, List.mem_append_right _ (List.mem_singleton_self _), rfl, hroom⟩

end NewAction

/-! ### Repeated actions and undo -/

/-- The match of a pair is found with its room, and only when the likes are
mutual. -/
theorem MatchingInvariant.found (h : MatchingInvariant db) :
    (findMatch (pairOf a b) db = none ∧ ¬ (Liked db a b ∧ Liked db b a)) ∨
      ∃ row ∈ db.matchRows, matchKey row = pairOf a b ∧ findMatch (pairOf a b) db = some row := by
  cases hfind : findMatch (pairOf a b) db with
  | none => exact Or.inl ⟨rfl, h.findMatch_eq_none.1 hfind⟩
  | some row =>
      obtain ⟨hmem, hkey⟩ := mem_of_lookup hfind
      exact Or.inr ⟨row, hmem, hkey, rfl⟩

/-- The active actions after an undo: all but the one reverted. -/
theorem isActive_reverted_iff (h : LikeInvariant db) {action row : MatchAction}
    (haction : action ∈ db.matchActions) (now : Timestamp) :
    row ∈ revertedActions action now db ∧ IsActive a b row ↔
      row ∈ db.matchActions ∧ IsActive a b row ∧ row ≠ action := by
  constructor
  · rintro ⟨hrow, hactive⟩
    rcases mem_updateWhere.1 hrow with ⟨old, hold, hcond, rfl⟩ | ⟨hold, hcond⟩
    · cases hactive.2.2
    · refine ⟨hold, hactive, ?_⟩
      rintro rfl
      exact hcond (by simpa using hactive.2.2)
  · rintro ⟨hrow, hactive, hne⟩
    refine ⟨mem_updateWhere.2 (Or.inr ⟨hrow, ?_⟩), hactive⟩
    have hid : row.id ≠ action.id := fun hid =>
      hne (h.unique_actions.eq_of_key hrow haction hid)
    simp [hid]

/-- The likes after an undo: all but the one of the action reverted. -/
theorem liked_released_iff {action : MatchAction} {likes : List UserLike}
    {balances : List ConsumableBalance} (hreleased : Released action db likes balances) :
    (∃ row ∈ likes, row.likerUserId = a ∧ row.likedUserId = b) ↔
      Liked db a b ∧
        ¬ (action.action ≠ .skip ∧ a = action.actorUserId ∧ b = action.targetUserId) := by
  by_cases hskip : action.action = .skip
  · rw [hreleased.skip hskip]
    simp [Liked, hskip]
  · rw [hreleased.like hskip]
    constructor
    · rintro ⟨row, hrow, rfl, rfl⟩
      obtain ⟨hmem, hkept⟩ := List.mem_filter.1 hrow
      refine ⟨⟨row, hmem, rfl, rfl⟩, ?_⟩
      rintro ⟨-, hactor, htarget⟩
      simp [hactor, htarget] at hkept
    · rintro ⟨⟨row, hrow, rfl, rfl⟩, hkept⟩
      refine ⟨row, List.mem_filter.2 ⟨hrow, ?_⟩, rfl, rfl⟩
      exact decide_eq_true fun hboth => hkept ⟨hskip, hboth.1, hboth.2⟩

/-- An undo keeps what ties likes to actions. -/
theorem LikeInvariant.reverted (h : LikeInvariant db) {action : MatchAction}
    {likes : List UserLike} {balances : List ConsumableBalance} (haction : action ∈ db.matchActions)
    (hactive : action.revertedAt = none) (now : Timestamp)
    (hreleased : Released action db likes balances) :
    LikeInvariant { db with
      matchActions := revertedActions action now db
      userLikes := likes
      userConsumableBalances := balances } := by
  have hself : IsActive action.actorUserId action.targetUserId action := ⟨rfl, rfl, hactive⟩
  have hreverted : ∀ {a b : Uuid} {row : MatchAction},
      row ∈ revertedActions action now db ∧ IsActive a b row ↔
        row ∈ db.matchActions ∧ IsActive a b row ∧ row ≠ action :=
    isActive_reverted_iff h haction now
  refine
    { unique_actions := h.unique_actions.updateWhere fun _ => rfl
      actions_drawn := ?_
      one_active := ?_
      liked_iff := ?_
      liked_ne := ?_ }
  · intro row hrow
    rcases mem_updateWhere.1 hrow with ⟨old, hold, -, rfl⟩ | ⟨hold, -⟩
    · exact h.actions_drawn old hold
    · exact h.actions_drawn row hold
  · intro a b row hrow row' hrow' hrowactive hrowactive'
    obtain ⟨hold, -, -⟩ := hreverted.1 ⟨hrow, hrowactive⟩
    obtain ⟨hold', -, -⟩ := hreverted.1 ⟨hrow', hrowactive'⟩
    exact h.one_active a b row hold row' hold' hrowactive hrowactive'
  · intro a b
    refine (liked_released_iff hreleased).trans ?_
    rw [h.liked_iff]
    constructor
    · rintro ⟨⟨row, hrow, hrowactive, hkind⟩, hother⟩
      have hne : row ≠ action := by
        rintro rfl
        exact hother ⟨hkind, hrowactive.1.symm, hrowactive.2.1.symm⟩
      obtain ⟨hrow', hrowactive'⟩ := hreverted.2 ⟨hrow, hrowactive, hne⟩
      exact ⟨row, hrow', hrowactive', hkind⟩
    · rintro ⟨row, hrow', hrowactive', hkind⟩
      obtain ⟨hrow, hrowactive, hne⟩ := hreverted.1 ⟨hrow', hrowactive'⟩
      refine ⟨⟨row, hrow, hrowactive, hkind⟩, ?_⟩
      rintro ⟨-, rfl, rfl⟩
      exact hne (h.one_active _ _ row hrow action haction hrowactive hself)
  · intro a b hliked
    exact h.liked_ne a b ((liked_released_iff hreleased).1 hliked).1

/-- A successful undo keeps the invariant and every like of a match. -/
theorem MatchingInvariant.undo (h : MatchingInvariant db) {userId : Uuid} {tie : ℕ}
    {now : Timestamp} {result : Option MatchAction}
    (hcall : undoLastAction userId tie now db = .ok (result, db')) :
    MatchingInvariant db' ∧ db'.matchRows = db.matchRows ∧
      ∀ a b, Liked db a b → (∃ row ∈ db.matchRows, matchKey row = pairOf a b) → Liked db' a b := by
  rcases undoLastAction_cases hcall with ⟨-, -, rfl⟩ |
    ⟨action, likes, balances, haction, -, hactive, hunmatched, -, hreleased, rfl⟩
  · exact ⟨h, rfl, fun a b hliked _ => hliked⟩
  rw [orderedMatchingPair_toUuidText] at hunmatched
  -- A like of a match is not the one removed: its pair has a match.
  have hkept : ∀ a b, Liked db a b → (∃ row ∈ db.matchRows, matchKey row = pairOf a b) →
      ∃ row ∈ likes, row.likerUserId = a ∧ row.likedUserId = b := by
    rintro a b hliked ⟨row, hrow, hkey⟩
    refine (liked_released_iff hreleased).2 ⟨hliked, ?_⟩
    rintro ⟨-, rfl, rfl⟩
    exact lookup_eq_none.1 hunmatched row hrow hkey
  have hlikes := h.toLikeInvariant.reverted haction hactive now hreleased
  refine ⟨⟨hlikes, h.toRoomInvariant.of_matching rfl rfl rfl le_rfl, ?_⟩, rfl, hkept⟩
  intro a b
  refine (h.matched_iff a b).trans ?_
  constructor
  · intro hboth
    have hmatch := (h.matched_iff a b).2 hboth
    exact ⟨hkept a b hboth.1 hmatch, hkept b a hboth.2 (pairOf_comm a b ▸ hmatch)⟩
  · rintro ⟨hforward, hbackward⟩
    exact ⟨((liked_released_iff hreleased).1 hforward).1,
      ((liked_released_iff hreleased).1 hbackward).1⟩

/-! ### Calls -/

/-- What an action returns about a match agrees with the tables. -/
def Agrees (result : ActResult) (db : Database) (a b : Uuid) : Prop :=
  (result.matched = true ↔ ∃ roomId, MatchedIn db a b roomId) ∧
    ∀ roomId, result.roomId = some roomId ↔ MatchedIn db a b roomId

theorem MatchingInvariant.agrees_none (h : MatchingInvariant db) {result : ActResult}
    (hmatched : result.matched = false) (hroom : result.roomId = none)
    (hmutual : ¬ (Liked db a b ∧ Liked db b a)) : Agrees result db a b := by
  have hnone : ∀ roomId, ¬ MatchedIn db a b roomId := by
    rintro roomId ⟨row, hrow, hjoins, -⟩
    exact hmutual ((h.matched_iff a b).1 ⟨row, hrow, (joins_iff (h.ordered row hrow)).1 hjoins⟩)
  simp [Agrees, hmatched, hroom, hnone]

theorem MatchingInvariant.agrees_some (h : MatchingInvariant db) {result : ActResult} {row : Match}
    (hrow : row ∈ db.matchRows) (hkey : matchKey row = pairOf a b)
    (hmatched : result.matched = true) (hroom : result.roomId = some row.roomId) :
    Agrees result db a b := by
  have hroomIn : ∀ roomId, MatchedIn db a b roomId ↔ row.roomId = roomId := by
    intro roomId
    constructor
    · rintro ⟨other, hother, hjoins, rfl⟩
      have hsame := (joins_iff (h.ordered other hother)).1 hjoins
      rw [h.unique_matches.eq_of_key hother hrow (hsame.trans hkey.symm)]
    · rintro rfl
      exact ⟨row, hrow, (joins_iff (h.ordered row hrow)).2 hkey, rfl⟩
  simp [Agrees, hmatched, hroom, hroomIn]

/-- A successful action keeps the invariant, and its result agrees with the
tables it leaves. -/
theorem MatchingInvariant.act (h : MatchingInvariant db) {result : ActResult}
    (huser : input.userId.Canonical) (htarget : input.targetUserId.Canonical)
    (hcall : actOnCandidate input db = .ok (result, db')) :
    MatchingInvariant db' ∧
      Agrees result db' input.userId.toUuid input.targetUserId.toUuid := by
  rcases actOnCandidate_cases hcall with ⟨existing, hfind, hkind, rfl, rfl⟩ | ⟨hnew, hcreate⟩
  · refine ⟨h, ?_⟩
    obtain ⟨hmem, hactive⟩ := mem_of_findActiveAction hfind
    by_cases hskip : input.action = .skip
    · -- The one active action is a skip, so there is no like and no match.
      refine h.agrees_none (by simp [replayedResult, hskip]) (by simp [replayedResult, hskip]) ?_
      rintro ⟨hliked, -⟩
      obtain ⟨row, hrow, hrowactive, hnotskip⟩ := (h.liked_iff _ _).1 hliked
      rw [h.one_active _ _ row hrow existing hmem hrowactive hactive, hkind] at hnotskip
      exact hnotskip hskip
    · have hresult : replayedResult input db' = { replayedResult input db' with
          matched := (findMatch (pairOf input.userId.toUuid input.targetUserId.toUuid) db').isSome
          roomId := (findMatch (pairOf input.userId.toUuid input.targetUserId.toUuid) db').map
            (·.roomId) } := by
        simp [replayedResult, hskip, orderedMatchingPair_eq huser htarget]
      rw [hresult]
      rcases h.found (a := input.userId.toUuid) (b := input.targetUserId.toUuid) with
        ⟨hnone, hmutual⟩ | ⟨row, hrow, hkey, hsome⟩
      · exact h.agrees_none (by simp [hnone]) (by simp [hnone]) hmutual
      · exact h.agrees_some hrow hkey (by simp [hsome]) (by simp [hsome])
  · obtain ⟨hinvariant, hresult⟩ := h.create huser htarget hnew hcreate
    refine ⟨hinvariant, ?_⟩
    rcases hresult with ⟨hmatched, hroom, hmutual⟩ | ⟨hmatched, row, hrow, hkey, hroom⟩
    · exact hinvariant.agrees_none hmatched hroom hmutual
    · exact hinvariant.agrees_some hrow hkey hmatched hroom

/-- An action that repeats an active one returns `created = false` and changes
nothing. -/
theorem LikeInvariant.repeats (h : LikeInvariant db) {row : MatchAction}
    (hrow : row ∈ db.matchActions)
    (hactive : IsActive input.userId.toUuid input.targetUserId.toUuid row)
    (hkind : row.action = input.action) :
    ∃ result, actOnCandidate input db = .ok (result, db) ∧ result.created = false := by
  cases hfind : findActiveAction input.userId.toUuid input.targetUserId.toUuid db with
  | none => exact absurd hactive (findActiveAction_eq_none.1 hfind row hrow)
  | some existing =>
      obtain ⟨hmem, hexisting⟩ := mem_of_findActiveAction hfind
      have hsame : existing.action = input.action := by
        rw [h.one_active _ _ existing hmem row hrow hexisting hactive, hkind]
      refine ⟨replayedResult input db, ?_, ?_⟩
      · simp only [actOnCandidate, hfind, throwIf_of_not (not_ne_iff.2 hsame)]
        rfl
      · by_cases hskip : input.action = .skip <;> simp [replayedResult, hskip]

/-! ### Runs -/

/-- The call spells the users as PostgreSQL does. -/
def Request.Canonical : Request → Prop
  | .act input => input.userId.Canonical ∧ input.targetUserId.Canonical
  | _ => True

instance (row : Match) (a b : Uuid) : Decidable (Match.Joins row a b) :=
  inferInstanceAs (Decidable (_ ∨ _))

instance (db : Database) (a b : Uuid) : Decidable (Liked db a b) :=
  inferInstanceAs (Decidable (∃ row ∈ db.userLikes, row.likerUserId = a ∧ row.likedUserId = b))

/-- Every successful call of a run keeps the invariant. -/
theorem MatchingInvariant.execute (h : MatchingInvariant db) {request : Request} {done : Unit}
    (hcanonical : request.Canonical) (hcall : execute request db = .ok (done, db')) :
    MatchingInvariant db' := by
  cases request with
  | billing input =>
      obtain ⟨result, hresult⟩ := map_eq_ok hcall
      exact h.of_same (applyRevenueCatEvent_matching hresult)
  | act input =>
      obtain ⟨result, hresult⟩ := map_eq_ok hcall
      exact (h.act hcanonical.1 hcanonical.2 hresult).1
  | undo userId tie now =>
      obtain ⟨result, hresult⟩ := map_eq_ok hcall
      exact (h.undo hresult).1
  | boost userId now =>
      obtain ⟨result, hresult⟩ := map_eq_ok hcall
      obtain ⟨balances, boost, -, -, rfl⟩ := activateBoost_writes hresult
      exact h.of_same ⟨rfl, rfl, rfl, rfl, rfl, le_rfl⟩

theorem matchingInvariant_run (hempty : EmptyMatching start) {requests : List Request}
    (hcanonical : ∀ request ∈ requests, request.Canonical) :
    MatchingInvariant (run execute requests start) :=
  run_history (fun _ => MatchingInvariant) (MatchingInvariant.of_empty hempty)
    (fun _ request _ _ _ hmem hbefore hcall => hbefore.execute (hcanonical request hmem) hcall)
    (fun _ _ _ _ _ hbefore _ => hbefore)

theorem MatchingInvariant.matchedIn_iff (h : MatchingInvariant db) :
    (∃ roomId, MatchedIn db a b roomId) ↔ Liked db a b ∧ Liked db b a := by
  rw [← h.matched_iff]
  constructor
  · rintro ⟨roomId, row, hrow, hjoins, -⟩
    exact ⟨row, hrow, (joins_iff (h.ordered row hrow)).1 hjoins⟩
  · rintro ⟨row, hrow, hkey⟩
    exact ⟨row.roomId, row, hrow, (joins_iff (h.ordered row hrow)).2 hkey, rfl⟩

/-- **The matching invariant.** After any run of actions, undos, purchases and
boosts from empty matching tables, in which users are spelled as PostgreSQL
spells them: likes are the active likes and superlikes, of which there is at
most one action a pair; matches are the mutual likes, one a pair, each with a
room of its own whose members are the two; an undo removes no like of a match;
and an action returns what the tables then say, without a change if it repeats
an active one. -/
theorem matching_invariant (hempty : EmptyMatching start) (requests : List Request)
    (hcanonical : ∀ request ∈ requests, request.Canonical) {db : Database}
    (hdb : db = run execute requests start) :
    (∀ a b, Liked db a b ↔ ∃ row ∈ db.matchActions, IsActive a b row ∧
      (row.action = .like ∨ row.action = .superlike)) ∧
    (∀ a b, (db.matchActions.filter fun row => IsActive a b row).length ≤ 1) ∧
    (∀ a b, (∃ roomId, MatchedIn db a b roomId) ↔ Liked db a b ∧ Liked db b a) ∧
    (∀ a b, (db.matchRows.filter fun row => Match.Joins row a b).length ≤ 1) ∧
    (∀ row ∈ db.matchRows, (∃ room ∈ db.rooms, room.id = row.roomId) ∧
      (∀ other ∈ db.matchRows, other.roomId = row.roomId → other = row) ∧
      ∀ user, { roomId := row.roomId, userId := user : RoomMember } ∈ db.roomMembers ↔
        user = row.userLowId ∨ user = row.userHighId) ∧
    (∀ userId tie now result db', undoLastAction userId tie now db = .ok (result, db') →
      ∀ a b roomId, Liked db a b → MatchedIn db a b roomId → Liked db' a b) ∧
    (∀ input result db', input.userId.Canonical → input.targetUserId.Canonical →
      actOnCandidate input db = .ok (result, db') →
      Agrees result db' input.userId.toUuid input.targetUserId.toUuid) ∧
    ∀ input, ∀ row ∈ db.matchActions,
      IsActive input.userId.toUuid input.targetUserId.toUuid row → row.action = input.action →
      ∃ result, actOnCandidate input db = .ok (result, db) ∧ result.created = false := by
  have h : MatchingInvariant db := hdb ▸ matchingInvariant_run hempty hcanonical
  refine ⟨?_, ?_, fun a b => h.matchedIn_iff, ?_, ?_, ?_, ?_, ?_⟩
  · intro a b
    have hkind : ∀ kind : MatchActionKind, kind ≠ .skip ↔ kind = .like ∨ kind = .superlike := by
      intro kind
      cases kind <;> decide
    simp only [h.liked_iff, hkind]
  · intro a b
    refine h.unique_actions.length_filter_le_one fun row hrow row' hrow' hcond hcond' => ?_
    exact h.one_active a b row hrow row' hrow' (of_decide_eq_true hcond) (of_decide_eq_true hcond')
  · intro a b
    refine h.unique_matches.length_filter_le_one fun row hrow row' hrow' hcond hcond' => ?_
    refine h.unique_matches.eq_of_key hrow hrow' ?_
    rw [(joins_iff (h.ordered row hrow)).1 (of_decide_eq_true hcond),
      (joins_iff (h.ordered row' hrow')).1 (of_decide_eq_true hcond')]
  · intro row hrow
    exact ⟨h.room row hrow, fun other hother hroom => h.unique_rooms.eq_of_key hother hrow hroom,
      h.members row hrow⟩
  · rintro userId tie now result db' hcall a b roomId hliked ⟨row, hrow, hjoins, -⟩
    exact (h.undo hcall).2.2 a b hliked ⟨row, hrow, (joins_iff (h.ordered row hrow)).1 hjoins⟩
  · intro input result db' huser htarget hcall
    exact (h.act huser htarget hcall).2
  · intro input row hrow hactive hkind
    exact h.toLikeInvariant.repeats hrow hactive hkind

/-- A like in one direction. -/
def likeOf (userId targetUserId : UuidText) (now : Timestamp) : ActInput where
  userId := userId
  targetUserId := targetUserId
  action := .like
  dailyLimit := some 10
  now := now
  dayStart := 0
  dayEnd := 100

/-- Two users who like each other have a match. -/
theorem matching_invariant_mutual :
    ∃ roomId, MatchedIn
      (run execute [.act (likeOf buyer candidate 1), .act (likeOf candidate buyer 2)] pairOnly)
      buyer.toUuid candidate.toUuid roomId := by
  have hempty : EmptyMatching pairOnly := by
    constructor <;> rfl
  have hcanonical : ∀ request ∈
      [Request.act (likeOf buyer candidate 1), Request.act (likeOf candidate buyer 2)],
      request.Canonical := by
    intro request hrequest
    rcases List.mem_cons.1 hrequest with rfl | hrequest
    · exact ⟨by decide, by decide⟩
    · rw [List.mem_singleton.1 hrequest]
      exact ⟨by decide, by decide⟩
  exact ((matching_invariant hempty _ hcanonical rfl).2.2.1 _ _).2 ⟨by decide, by decide⟩

end ChatTea.Matching
