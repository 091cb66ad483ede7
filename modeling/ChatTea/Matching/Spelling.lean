import Mathlib
import ChatTea.Matching.Service

/-!
# The spelling of a target

PostgreSQL stores and compares identifiers in lower case, while `<` compares the texts that
a call was given. A run in which clients spell targets in upper case is compared with the
run in which every target is spelled as it is stored.

## Main definitions

* `MatchingCall.lower` — the call with its target spelled as it is stored
* `Passes` — the checks that let an action through
* `MatchingCall.Compares` — the spelling is ordered as the stored identifier where it counts

## Main results

* `actOnCandidate_lower` — the repository does the same under the condition
* `same_lower` — and so does the service
* `spelling_free_iff` — when a run does not depend on the spelling
-/

namespace ChatTea.Matching

open Table Transaction
open Billing MatchingService

variable {createdAt : RowId → Timestamp} {tie : ℕ} {input : ActInput} {db db' start : Database}
  {a b : Uuid} {calls : List MatchingCall}

/-! ### Spelling as it is stored -/

def ActInput.lower (input : ActInput) : ActInput :=
  { input with targetUserId := input.targetUserId.toUuid.toUuidText }

def MatchingService.ActCall.lower (call : ActCall) : ActCall :=
  { call with targetUserId := call.targetUserId.toUuid.toUuidText }

def MatchingCall.lower : MatchingCall → MatchingCall
  | .act call => .act call.lower
  | .undo userId tie now => .undo userId tie now

@[simp] theorem toUuid_lower (input : ActInput) :
    input.lower.targetUserId.toUuid = input.targetUserId.toUuid := Uuid.toUuid_eq _

/-- The pattern for identifiers accepts letters in either case. -/
theorem isVersionedUuid_lower (spelled : UuidText) :
    isVersionedUuid spelled.toUuid.text = isVersionedUuid spelled.text := by
  have hdigits : ('-' :: hexDigits).all fun c =>
      (c.toLower ∈ "12345".toList ↔ c ∈ "12345".toList) ∧
        (c.toLower ∈ "89abAB".toList ↔ c ∈ "89abAB".toList) := by decide
  have hdigit (c : Char) (hc : c ∈ '-' :: hexDigits) :
      (c.toLower ∈ "12345".toList ↔ c ∈ "12345".toList) ∧
        (c.toLower ∈ "89abAB".toList ↔ c ∈ "89abAB".toList) :=
    of_decide_eq_true (List.all_eq_true.1 hdigits c hc)
  have hmem {position : ℕ} {c : Char} (hc : spelled.text[position]? = some c) :
      c ∈ '-' :: hexDigits := by
    have hchar := (isUuidText_iff.1 spelled.wellFormed).2 c position
      (List.mk_mem_zipIdx_iff_getElem?.2 hc)
    unfold isUuidChar at hchar
    split at hchar
    · obtain rfl : c = '-' := by simpa using hchar
      exact List.mem_cons_self
    · exact List.mem_cons_of_mem _ (by simpa using hchar)
  have hlower (position : ℕ) : spelled.toUuid.text[position]? =
      (spelled.text[position]?).map Char.toLower := List.getElem?_map
  have hwell : isUuidText spelled.toUuid.text = isUuidText spelled.text := by
    rw [spelled.toUuid.wellFormed, spelled.wellFormed]
  unfold isVersionedUuid
  rw [hwell, hlower, hlower]
  congr 2
  · congr 1
    · cases hc : spelled.text[14]? with
      | none => rfl
      | some c => simp only [Option.map_some, Option.any_some, (hdigit c (hmem hc)).1]
    · cases hc : spelled.text[19]? with
      | none => rfl
      | some c => simp only [Option.map_some, Option.any_some, (hdigit c (hmem hc)).2]

/-- `<` orders the two texts as it orders the stored identifiers. -/
def ComparesAsStored (userId targetUserId : UuidText) : Prop :=
  userId.text < targetUserId.text ↔ userId.text < targetUserId.toUuid.text

instance (userId targetUserId : UuidText) : Decidable (ComparesAsStored userId targetUserId) :=
  inferInstanceAs (Decidable (_ ↔ _))

theorem orderedMatchingPair_lower (userId targetUserId : UuidText) :
    orderedMatchingPair userId targetUserId =
        orderedMatchingPair userId targetUserId.toUuid.toUuidText ↔
      ComparesAsStored userId targetUserId ∨ userId.toUuid = targetUserId.toUuid := by
  unfold orderedMatchingPair ComparesAsStored
  rw [Uuid.toUuid_eq]
  by_cases hspelled : userId.text < targetUserId.text <;>
    by_cases hstored : userId.text < targetUserId.toUuid.text
  · simp [hspelled, hstored]
  · simp only [hspelled, hstored, if_true, if_false, Prod.mk.injEq, iff_false, not_true, false_or]
    exact ⟨fun h => h.1, fun h => ⟨h, h.symm⟩⟩
  · simp only [hspelled, hstored, if_true, if_false, Prod.mk.injEq, false_iff, not_true, false_or]
    exact ⟨fun h => h.2, fun h => ⟨h.symm, h⟩⟩
  · simp [hspelled, hstored]

/-! ### The checks of an action -/

/-- The user has no like left for the day. -/
def LimitReached (input : ActInput) (db : Database) : Prop :=
  input.dailyLimit.any fun dailyLimit => dailyLimit ≤ db.userLikes.countP fun row =>
    row.likerUserId = input.userId.toUuid ∧ input.dayStart ≤ row.createdAt ∧
      row.createdAt < input.dayEnd

/-- The checks that let an action through: a repeated one is of the same kind; a new one is on
a candidate, is paid for, and keeps to the limit of likes. -/
structure Passes (input : ActInput) (db : Database) : Prop where
  repeated : ∀ existing, findActiveAction input.userId.toUuid input.targetUserId.toUuid db =
    some existing → existing.action = input.action
  candidate : findActiveAction input.userId.toUuid input.targetUserId.toUuid db = none →
    checkCandidate input.userId.toUuid input.targetUserId.toUuid db = .ok ()
  paid : findActiveAction input.userId.toUuid input.targetUserId.toUuid db = none →
    input.action = .superlike →
      returning (hasSuperLike input.userId.toUuid) takeSuperLike db.userConsumableBalances ≠ []
  limited : findActiveAction input.userId.toUuid input.targetUserId.toUuid db = none →
    input.action ≠ .skip → findLike input.userId.toUuid input.targetUserId.toUuid db = none →
      ¬ LimitReached input db

/-- No one has acted on themselves. -/
def ActsOnOthers (db : Database) : Prop :=
  ∀ row ∈ db.matchActions, row.actorUserId ≠ row.targetUserId

/-- Two users without mutual likes have no match, in whatever order they are looked up. -/
theorem MatchingInvariant.findMatch_none (h : MatchingInvariant db)
    (hmutual : ¬ (Liked db a b ∧ Liked db b a)) : findMatch (a, b) db = none := by
  rw [findMatch, lookup_eq_none]
  intro row hrow hkey
  apply hmutual
  rw [← h.matched_iff a b]
  refine ⟨row, hrow, ?_⟩
  have hordered : a < b := by
    have hordered := h.ordered row hrow
    rw [← (Prod.mk.inj hkey).1, ← (Prod.mk.inj hkey).2]
    exact hordered
  rw [hkey, pairOf, min_eq_left hordered.le, max_eq_right hordered.le]

theorem MatchingInvariant.findMatch_ordered_none (h : MatchingInvariant db)
    {userId targetUserId : UuidText}
    (hmutual : ¬ (Liked db userId.toUuid targetUserId.toUuid ∧
      Liked db targetUserId.toUuid userId.toUuid)) :
    findMatch (orderedMatchingPair userId targetUserId) db = none := by
  unfold orderedMatchingPair
  split
  · exact h.findMatch_none hmutual
  · exact h.findMatch_none fun hboth => hmutual ⟨hboth.2, hboth.1⟩

/-! ### One call of the repository -/

theorem recordLike_lower (input : ActInput) : recordLike input.lower = recordLike input := by
  funext db
  simp only [recordLike, toUuid_lower]
  rfl

theorem insertAction_lower (input : ActInput) : insertAction input.lower = insertAction input := by
  funext db
  simp only [insertAction, createdAction, toUuid_lower]
  rfl

theorem passes_of_repeated {existing : MatchAction}
    (hfind : findActiveAction input.userId.toUuid input.targetUserId.toUuid db = some existing)
    (hkind : existing.action = input.action) : Passes input db := by
  constructor
  · intro other hother
    rw [hfind] at hother
    obtain rfl := Option.some.inj hother
    exact hkind
  all_goals
    intro hnone
    rw [hfind] at hnone
    cases hnone

/-- What the statements before the search for the reverse like have let through. -/
theorem passes_of_stored {charged liked stored : Database}
    (hnew : findActiveAction input.userId.toUuid input.targetUserId.toUuid db = none)
    (hcheck : checkCandidate input.userId.toUuid input.targetUserId.toUuid db = .ok ())
    (hcharged : spendSuperLike input.userId.toUuid input.action db = .ok charged)
    (hliked : recordLike input charged = .ok liked)
    (hstored : insertAction input liked = .ok stored) :
    Passes input db ∧ (Liked stored input.targetUserId.toUuid input.userId.toUuid →
      Liked db input.targetUserId.toUuid input.userId.toUuid) := by
  obtain ⟨balances, -, hbalances⟩ := spendSuperLike_ok hcharged
  have hlikes := recordLike_ok hliked
  simp only [insertAction, bind_eq_ok_iff, require_eq_ok_iff, pure_eq_ok_iff] at hstored
  obtain ⟨-, hself, rfl⟩ := hstored
  refine ⟨⟨fun existing hexisting => ?_, fun _ => hcheck, fun _ hsuperlike => ?_, fun _ hskip hnone => ?_⟩, ?_⟩
  · rw [hnew] at hexisting
    cases hexisting
  · simp only [spendSuperLike, hsuperlike, if_true, bind_eq_ok_iff, throwIf_eq_ok_iff] at hcharged
    obtain ⟨-, hpaid, -⟩ := hcharged
    exact hpaid
  · have hnone' : findLike input.userId.toUuid input.targetUserId.toUuid charged = none := by
      rw [hbalances]
      exact hnone
    simp only [recordLike, hskip, if_false, hnone', bind_eq_ok_iff, throwIf_eq_ok_iff] at hliked
    obtain ⟨-, hlimit, -⟩ := hliked
    rw [hbalances] at hlimit
    exact hlimit
  · rintro ⟨row, hrow, hliker, hlikedUser⟩
    have hrow : row ∈ likesAfter input charged := by
      rw [hlikes] at hrow
      exact hrow
    -- The like that was stored goes the other way.
    have hold : row ∈ charged.userLikes := by
      unfold likesAfter at hrow
      split at hrow
      · exact hrow
      · rcases List.mem_append.1 hrow with hold | hnewLike
        · exact hold
        · rw [List.mem_singleton.1 hnewLike] at hliker
          exact absurd hliker hself
    rw [hbalances] at hold
    exact ⟨row, hold, hliker, hlikedUser⟩

/-- The repository orders the pair by the spelling only where two users like each other. -/
theorem actOnCandidate_lower (h : MatchingInvariant db)
    (hcompares : input.action ≠ .skip → Liked db input.targetUserId.toUuid input.userId.toUuid →
      Passes input db → ComparesAsStored input.userId input.targetUserId) :
    actOnCandidate input db = actOnCandidate input.lower db := by
  have hpair (hskip : input.action ≠ .skip)
      (hliked : Liked db input.targetUserId.toUuid input.userId.toUuid) (hpasses : Passes input db) :
      orderedMatchingPair input.userId input.targetUserId =
        orderedMatchingPair input.userId input.lower.targetUserId :=
    (orderedMatchingPair_lower _ _).2 (Or.inl (hcompares hskip hliked hpasses))
  have hsame : input.lower.userId = input.userId := rfl
  unfold actOnCandidate
  rw [toUuid_lower, hsame]
  cases hfind : findActiveAction input.userId.toUuid input.targetUserId.toUuid db with
  | some existing =>
      refine bind_congr_ok fun _ hkind => ?_
      have hkind : existing.action = input.action := not_ne_iff.1 (throwIf_eq_ok_iff.1 hkind)
      by_cases hskip : input.action = .skip
      · simp only [replayedResult, ActInput.lower, hskip, if_true]
      · have hfound : findMatch (orderedMatchingPair input.userId input.targetUserId) db =
            findMatch (orderedMatchingPair input.userId input.lower.targetUserId) db := by
          by_cases hliked : Liked db input.targetUserId.toUuid input.userId.toUuid
          · rw [hpair hskip hliked (passes_of_repeated hfind hkind)]
          · rw [h.findMatch_ordered_none fun hboth => hliked hboth.2,
              h.findMatch_ordered_none fun hboth => hliked ?_]
            have hback := hboth.2
            rw [toUuid_lower] at hback
            exact hback
        simp only [replayedResult, hfound]
        rfl
  | none =>
      simp only [createAction, toUuid_lower, recordLike_lower, insertAction_lower]
      refine bind_congr_ok fun _ hcheck => bind_congr_ok fun charged hcharged =>
        bind_congr_ok fun liked hliked => bind_congr_ok fun stored hstored => ?_
      obtain ⟨hpasses, hlikedBefore⟩ := passes_of_stored hfind hcheck hcharged hliked hstored
      by_cases hskip : input.action = .skip
      · simp only [ActInput.lower, hskip, if_true]
      · have hmatch : matchIfReverseExists input.userId input.targetUserId stored =
            matchIfReverseExists input.userId input.lower.targetUserId stored := by
          unfold matchIfReverseExists
          rw [toUuid_lower]
          cases hreverse : findLike input.targetUserId.toUuid input.userId.toUuid stored with
          | none => rfl
          | some reverse =>
              have hliked : Liked stored input.targetUserId.toUuid input.userId.toUuid := by
                by_contra hnone
                rw [findLike_eq_none.2 hnone] at hreverse
                cases hreverse
              rw [hpair hskip (hlikedBefore hliked) hpasses]
        simp only [hmatch]
        rfl

/-- Whoever is acted on is someone else. -/
theorem ne_of_actOnCandidate (hothers : ActsOnOthers db) {result : ActResult}
    (hcall : actOnCandidate input db = .ok (result, db')) :
    input.userId.toUuid ≠ input.targetUserId.toUuid := by
  rcases actOnCandidate_cases hcall with ⟨existing, hfind, -, -, -⟩ | ⟨-, hcreate⟩
  · obtain ⟨hmem, hactor, htarget, -⟩ := mem_of_findActiveAction hfind
    rw [← hactor, ← htarget]
    exact hothers existing hmem
  · exact (createAction_writes hcreate).1

/-! ### One call of the service -/

theorem actOnCandidate_ok_iff {call : ActCall} {payload : LikeUserPayload} :
    MatchingService.actOnCandidate createdAt tie call db = .ok (payload, db') ↔
      isVersionedUuid call.userId.text ∧ isVersionedUuid call.targetUserId.text ∧
        call.userId.text ≠ call.targetUserId.text ∧ profileIsComplete call.userId db ∧
          ∃ result, actOnCandidate (call.input createdAt tie db) db = .ok (result, db') ∧
            payload = ⟨result.matched, result.roomId, ¬ result.matched⟩ := by
  simp only [MatchingService.actOnCandidate, validateUuid, requireCompletedProfile, bind_eq_ok_iff,
    require_eq_ok_iff, throwIf_eq_ok_iff, pure_eq_ok_iff, Prod.mk.injEq, Prod.exists]
  constructor
  · rintro ⟨-, huser, -, htarget, -, hself, -, hprofile, result, db', hcall, rfl, rfl⟩
    exact ⟨huser, htarget, hself, hprofile, result, hcall, rfl⟩
  · rintro ⟨huser, htarget, hself, hprofile, result, hcall, rfl⟩
    exact ⟨(), huser, (), htarget, (), hself, (), hprofile, result, db', hcall, rfl, rfl⟩

/-- The checks of the service and those of the repository let the action through. -/
structure CallPasses (createdAt : RowId → Timestamp) (tie : ℕ) (call : ActCall) (db : Database) :
    Prop where
  user : isVersionedUuid call.userId.text
  target : isVersionedUuid call.targetUserId.text
  profile : profileIsComplete call.userId db
  passes : Passes (call.input createdAt tie db) db

/-- Where a like or superlike is let through on someone who likes the user, the spelling is
ordered as the stored identifier. -/
def MatchingCall.Compares (createdAt : RowId → Timestamp) (tie : ℕ) : MatchingCall → Database → Prop
  | .act call, db => call.action ≠ .skip →
      Liked db call.targetUserId.toUuid call.userId.toUuidText.toUuid →
        CallPasses createdAt tie call db →
          ComparesAsStored call.userId.toUuidText call.targetUserId
  | .undo _ _ _, _ => True

/-- Errors apart, a call does what it does with the stored spelling. -/
theorem same_lower {call : MatchingCall} (h : MatchingInvariant db) (hothers : ActsOnOthers db)
    (hcompares : call.Compares createdAt tie db) :
    Same (perform createdAt tie call) (perform createdAt tie call.lower) db := by
  cases call with
  | undo userId tie now => rfl
  | act call =>
      have hlower : call.lower.input createdAt tie db = (call.input createdAt tie db).lower := rfl
      apply Same.map
      intro ⟨payload, db'⟩
      rw [actOnCandidate_ok_iff, actOnCandidate_ok_iff, hlower]
      have hversioned : isVersionedUuid call.lower.targetUserId.text ↔
          isVersionedUuid call.targetUserId.text := by
        change isVersionedUuid call.targetUserId.toUuid.text ↔ _
        rw [isVersionedUuid_lower]
      rw [hversioned]
      refine and_congr_right fun huser => and_congr_right fun htarget => ?_
      have hself (result : ActResult) (input : ActInput)
          (huserId : input.userId = call.userId.toUuidText)
          (htargetId : input.targetUserId.toUuid = call.targetUserId.toUuid)
          (hcall : actOnCandidate input db = .ok (result, db')) :
          call.userId.text ≠ call.targetUserId.text ∧
            call.userId.text ≠ call.lower.targetUserId.text := by
        have hne := ne_of_actOnCandidate hothers hcall
        rw [huserId, htargetId] at hne
        constructor
        · intro hsame
          exact hne (congrArg UuidText.toUuid (UuidText.ext hsame))
        · intro hsame
          apply hne
          rw [Uuid.toUuid_eq]
          exact Uuid.ext hsame
      have hcalls (hprofile : profileIsComplete call.userId db) :
          actOnCandidate (call.input createdAt tie db) db =
            actOnCandidate (call.input createdAt tie db).lower db :=
        actOnCandidate_lower h fun hskip hliked hpasses =>
          hcompares hskip hliked ⟨huser, htarget, hprofile, hpasses⟩
      constructor
      · rintro ⟨-, hprofile, result, hcall, hpayload⟩
        refine ⟨(hself result _ rfl rfl hcall).2, hprofile, result, ?_, hpayload⟩
        rw [← hcalls hprofile]
        exact hcall
      · rintro ⟨-, hprofile, result, hcall, hpayload⟩
        refine ⟨(hself result _ rfl (toUuid_lower _) hcall).1, hprofile, result, ?_, hpayload⟩
        rw [hcalls hprofile]
        exact hcall

/-! ### What every call keeps -/

/-- What holds while the spelling does not matter: also, every room is the room of a match. -/
structure SpellingInvariant (db : Database) : Prop extends MatchingInvariant db where
  others : ActsOnOthers db
  rooms : db.rooms.map Room.id = db.matchRows.map Match.roomId

theorem SpellingInvariant.of_empty (h : EmptyMatching start) : SpellingInvariant start where
  toMatchingInvariant := MatchingInvariant.of_empty h
  others := by simp [ActsOnOthers, h.actions]
  rooms := by simp [h.rooms, h.matchRows]

/-- The search for the reverse like leaves the actions alone, and stores a room with every match. -/
theorem matchIfReverseExists_rooms {userId targetUserId : UuidText} {found : Bool × Option RowId}
    (h : matchIfReverseExists userId targetUserId db = (found, db')) :
    db'.matchActions = db.matchActions ∧ ∃ rooms : List Room, ∃ rows : List Match,
      db'.rooms = db.rooms ++ rooms ∧ db'.matchRows = db.matchRows ++ rows ∧
        rooms.map Room.id = rows.map Match.roomId := by
  unfold matchIfReverseExists at h
  split at h
  · obtain rfl := (Prod.mk.inj h).2
    exact ⟨rfl, [], [], by simp⟩
  · dsimp only at h
    split at h
    · obtain rfl := (Prod.mk.inj h).2
      exact ⟨rfl, [], [], by simp⟩
    · obtain rfl := (Prod.mk.inj h).2
      exact ⟨rfl, _, _, rfl, rfl, rfl⟩

/-- An action concerns someone else, and stores a room with every match. -/
theorem actOnCandidate_rooms {result : ActResult} (hcall : actOnCandidate input db = .ok (result, db')) :
    (ActsOnOthers db → ActsOnOthers db') ∧ ∃ rooms : List Room, ∃ rows : List Match,
      db'.rooms = db.rooms ++ rooms ∧ db'.matchRows = db.matchRows ++ rows ∧
        rooms.map Room.id = rows.map Match.roomId := by
  rcases actOnCandidate_cases hcall with ⟨existing, -, -, -, rfl⟩ | ⟨-, hcreate⟩
  · exact ⟨fun h => h, [], [], by simp⟩
  · obtain ⟨hself, -, balances, -, hskip, hlike⟩ := createAction_writes hcreate
    have hafter (hothers : ActsOnOthers db) : ∀ row ∈ (afterAction input balances db).matchActions,
        row.actorUserId ≠ row.targetUserId := by
      intro row hrow
      rcases List.mem_append.1 hrow with hold | hnew
      · exact hothers row hold
      · rw [List.mem_singleton.1 hnew]
        exact hself
    by_cases haction : input.action = .skip
    · obtain ⟨-, -, rfl⟩ := hskip haction
      exact ⟨hafter, [], [], by simp [afterAction]⟩
    · obtain ⟨hactions, hstored⟩ := matchIfReverseExists_rooms (hlike haction)
      refine ⟨fun hothers => ?_, hstored⟩
      unfold ActsOnOthers
      rw [hactions]
      exact hafter hothers

/-- Undoing an action leaves rooms and matches alone. -/
theorem undoLastAction_rooms {userId : Uuid} {tie : ℕ} {now : Timestamp} {result : Option MatchAction}
    (hcall : undoLastAction userId tie now db = .ok (result, db')) :
    (ActsOnOthers db → ActsOnOthers db') ∧ db'.rooms = db.rooms ∧ db'.matchRows = db.matchRows := by
  rcases undoLastAction_cases hcall with ⟨-, -, rfl⟩ |
    ⟨action, likes, balances, -, -, -, -, -, -, rfl⟩
  · exact ⟨fun h => h, rfl, rfl⟩
  · refine ⟨fun hothers row hrow => ?_, rfl, rfl⟩
    rcases mem_updateWhere.1 hrow with ⟨old, hold, -, rfl⟩ | ⟨hold, -⟩
    · exact hothers old hold
    · exact hothers row hold

theorem undoLastAction_ok_iff {userId : Uuid} {tie : ℕ} {now : Timestamp}
    {payload : UndoMatchActionPayload} :
    MatchingService.undoLastAction userId tie now db = .ok (payload, db') ↔
      isVersionedUuid userId.text ∧ profileIsComplete userId db ∧
        ∃ action, undoLastAction userId tie now db = .ok (action, db') ∧
          payload = ⟨action.isSome, action.map MatchAction.targetUserId⟩ := by
  simp only [MatchingService.undoLastAction, validateUuid, requireCompletedProfile, bind_eq_ok_iff,
    require_eq_ok_iff, pure_eq_ok_iff, Prod.mk.injEq, Prod.exists]
  constructor
  · rintro ⟨-, huser, -, hprofile, action, db', hcall, rfl, rfl⟩
    exact ⟨huser, hprofile, action, hcall, rfl⟩
  · rintro ⟨huser, hprofile, action, hcall, rfl⟩
    exact ⟨(), huser, (), hprofile, action, db', hcall, rfl, rfl⟩

theorem perform_act_ok_iff {call : ActCall} {reply : MatchingReply} :
    perform createdAt tie (.act call) db = .ok (reply, db') ↔
      ∃ payload, MatchingService.actOnCandidate createdAt tie call db = .ok (payload, db') ∧
        reply = .like payload := by
  change Except.map _ (MatchingService.actOnCandidate createdAt tie call db) = _ ↔ _
  cases MatchingService.actOnCandidate createdAt tie call db with
  | ok outcome => simp [Except.map, Prod.ext_iff, eq_comm, and_comm]
  | error failure => simp [Except.map]

theorem perform_undo_ok_iff {userId : Uuid} {undoTie : ℕ} {now : Timestamp} {reply : MatchingReply} :
    perform createdAt tie (.undo userId undoTie now) db = .ok (reply, db') ↔
      ∃ payload, MatchingService.undoLastAction userId undoTie now db = .ok (payload, db') ∧
        reply = .undo payload := by
  change Except.map _ (MatchingService.undoLastAction userId undoTie now db) = _ ↔ _
  cases MatchingService.undoLastAction userId undoTie now db with
  | ok outcome => simp [Except.map, Prod.ext_iff, eq_comm, and_comm]
  | error failure => simp [Except.map]

/-- What a call of the service that returns has asked the repository for. -/
theorem perform_ok {call : MatchingCall} {reply : MatchingReply}
    (h : perform createdAt tie call db = .ok (reply, db')) :
    (∃ act result, call = .act act ∧
        actOnCandidate (act.input createdAt tie db) db = .ok (result, db')) ∨
      ∃ userId undoTie now result, call = .undo userId undoTie now ∧
        undoLastAction userId undoTie now db = .ok (result, db') := by
  cases call with
  | act act =>
      obtain ⟨payload, hcall, -⟩ := perform_act_ok_iff.1 h
      obtain ⟨-, -, -, -, result, hresult, -⟩ := actOnCandidate_ok_iff.1 hcall
      exact Or.inl ⟨act, result, rfl, hresult⟩
  | undo userId undoTie now =>
      obtain ⟨payload, hcall, -⟩ := perform_undo_ok_iff.1 h
      obtain ⟨-, -, result, hresult, -⟩ := undoLastAction_ok_iff.1 hcall
      exact Or.inr ⟨userId, undoTie, now, result, rfl, hresult⟩

/-- A call spelled as it is stored keeps the invariant. -/
theorem SpellingInvariant.perform_lower (h : SpellingInvariant db) {call : MatchingCall}
    {reply : MatchingReply} (hcall : perform createdAt tie call.lower db = .ok (reply, db')) :
    SpellingInvariant db' := by
  rcases perform_ok hcall with ⟨act, result, hact, hresult⟩ |
    ⟨userId, undoTie, now, result, -, hresult⟩
  · cases call with
    | undo userId tie now => cases hact
    | act spelled =>
        obtain rfl := MatchingCall.act.inj hact
        have hinvariant : MatchingInvariant db' := by
          refine (h.toMatchingInvariant.act ?_ ?_ hresult).1
          · exact spelled.userId.lowerCase
          · exact spelled.targetUserId.toUuid.lowerCase
        obtain ⟨hothers, rooms, rows, hrooms, hrows, hsame⟩ := actOnCandidate_rooms hresult
        refine ⟨hinvariant, hothers h.others, ?_⟩
        rw [hrooms, hrows, List.map_append, List.map_append, h.rooms, hsame]
  · obtain ⟨hothers, hrooms, hrows⟩ := undoLastAction_rooms hresult
    refine ⟨(h.toMatchingInvariant.undo hresult).1, hothers h.others, ?_⟩
    rw [hrooms, hrows, h.rooms]

/-- So does a call whose spelling is ordered as the stored identifier. -/
theorem SpellingInvariant.commit (h : SpellingInvariant db) {call : MatchingCall}
    (hcompares : call.Compares createdAt tie db) :
    SpellingInvariant (Transaction.commit (perform createdAt tie call) db) := by
  rw [(same_lower h.toMatchingInvariant h.others hcompares).commit_eq]
  rcases commit_cases (perform createdAt tie call.lower) db with ⟨reply, hcall⟩ | ⟨-, hstate⟩
  · exact h.perform_lower hcall
  · rw [hstate]
    exact h

/-! ### Where the spelling shows -/

/-- An action that the checks let through, on someone else, returns. -/
theorem actOnCandidate_of_passes (hself : input.userId.toUuid ≠ input.targetUserId.toUuid)
    (hpasses : Passes input db) : ∃ result db', actOnCandidate input db = .ok (result, db') := by
  cases hfind : findActiveAction input.userId.toUuid input.targetUserId.toUuid db with
  | some existing =>
      have hkind := hpasses.repeated existing hfind
      refine ⟨replayedResult input db, db, ?_⟩
      simp only [actOnCandidate, hfind, throwIf_of_not (not_ne_iff.2 hkind)]
      rfl
  | none =>
      obtain ⟨charged, hcharged⟩ : ∃ charged, spendSuperLike input.userId.toUuid input.action db =
          .ok charged := by
        unfold spendSuperLike
        split
        next hsuperlike => exact ⟨_, by rw [throwIf_of_not (hpasses.paid hfind hsuperlike)]; rfl⟩
        next => exact ⟨db, rfl⟩
      obtain ⟨balances, -, hbalances⟩ := spendSuperLike_ok hcharged
      obtain ⟨liked, hliked⟩ : ∃ liked, recordLike input charged = .ok liked := by
        unfold recordLike
        split
        next => exact ⟨charged, rfl⟩
        next hskip =>
          cases hnone : findLike input.userId.toUuid input.targetUserId.toUuid charged with
          | some existing => exact ⟨charged, rfl⟩
          | none =>
              -- Charging a superlike leaves the likes of the day alone.
              rw [hbalances] at hnone
              have hlimit := hpasses.limited hfind hskip hnone
              subst hbalances
              unfold LimitReached at hlimit
              exact ⟨_, by dsimp only; rw [throwIf_of_not hlimit, require_of hself]; rfl⟩
      obtain ⟨stored, hstored⟩ : ∃ stored, insertAction input liked = .ok stored :=
        ⟨_, by rw [insertAction, require_of hself]; rfl⟩
      unfold actOnCandidate
      simp only [hfind, createAction, hpasses.candidate hfind, hcharged, hliked, hstored, bind,
        Except.bind]
      split
      · exact ⟨_, _, rfl⟩
      · exact ⟨_, _, rfl⟩

/-- A spelling that is ordered otherwise finds no match. -/
theorem RoomInvariant.findMatch_spelled (h : RoomInvariant db) {userId targetUserId : UuidText}
    (hne : orderedMatchingPair userId targetUserId ≠ pairOf userId.toUuid targetUserId.toUuid) :
    findMatch (orderedMatchingPair userId targetUserId) db = none := by
  rw [findMatch, lookup_eq_none]
  intro row hrow hkey
  apply hne
  rw [← hkey, ← joins_iff (h.ordered row hrow)]
  unfold orderedMatchingPair at hkey
  split at hkey
  · exact Or.inl (Prod.mk.inj hkey)
  · exact Or.inr (Prod.mk.inj hkey)

/-- A new like of someone who likes the user stores a match of the pair as it is spelled. -/
theorem actOnCandidate_stores (h : MatchingInvariant db) {result : ActResult}
    (hnew : findActiveAction input.userId.toUuid input.targetUserId.toUuid db = none)
    (hskip : input.action ≠ .skip) (hliked : Liked db input.targetUserId.toUuid input.userId.toUuid)
    (hcall : actOnCandidate input db = .ok (result, db')) :
    ∃ row : Match, matchKey row = orderedMatchingPair input.userId input.targetUserId ∧
      db'.matchRows = db.matchRows ++ [row] := by
  rcases actOnCandidate_cases hcall with ⟨existing, hfind, -⟩ | ⟨-, hcreate⟩
  · rw [hnew] at hfind
    cases hfind
  · obtain ⟨-, -, balances, -, -, hlike⟩ := createAction_writes hcreate
    have hsearch := hlike hskip
    have hunmatched : findMatch (orderedMatchingPair input.userId input.targetUserId)
        (afterAction input balances db) = none := by
      apply h.findMatch_ordered_none
      rintro ⟨hforward, -⟩
      obtain ⟨row, hrow, hactive, -⟩ := (h.liked_iff _ _).1 hforward
      exact findActiveAction_eq_none.1 hnew row hrow hactive
    have hreverse : Liked (afterAction input balances db) input.targetUserId.toUuid
        input.userId.toUuid := (liked_afterAction_iff h.toLikeInvariant hnew).2 (Or.inl hliked)
    unfold matchIfReverseExists at hsearch
    cases hfind : findLike input.targetUserId.toUuid input.userId.toUuid
        (afterAction input balances db) with
    | none => exact absurd hreverse (findLike_eq_none.1 hfind)
    | some reverse =>
        simp only [hfind, hunmatched, Prod.mk.injEq] at hsearch
        obtain ⟨-, rfl⟩ := hsearch
        exact ⟨_, rfl, rfl⟩

/-- Whatever is done, a match stays where it is. -/
theorem matchRows_prefix_run (createdAt : RowId → Timestamp) (tie : ℕ) (calls : List MatchingCall)
    (db : Database) : db.matchRows <+: (run (perform createdAt tie) calls db).matchRows := by
  let Kept : Database → Prop := fun after => db.matchRows <+: after.matchRows
  have hstart : Kept db := List.prefix_rfl
  apply run_invariant hstart
  intro call before reply after hbefore hcall
  apply List.IsPrefix.trans hbefore
  rcases perform_ok hcall with ⟨act, result, -, hresult⟩ |
    ⟨userId, undoTie, now, result, -, hresult⟩
  · obtain ⟨-, rooms, rows, -, hrows, -⟩ := actOnCandidate_rooms hresult
    rw [hrows]
    exact List.prefix_append _ _
  · rw [(undoLastAction_rooms hresult).2.2]

/-- The checks do not depend on the spelling. -/
theorem CallPasses.lower {call : ActCall} (h : CallPasses createdAt tie call db) :
    CallPasses createdAt tie call.lower db where
  user := h.user
  target := by
    change isVersionedUuid call.targetUserId.toUuid.text
    rw [isVersionedUuid_lower]
    exact h.target
  profile := h.profile
  passes := by
    change Passes (call.input createdAt tie db).lower db
    constructor <;> rw [toUuid_lower]
    · exact h.passes.repeated
    · exact h.passes.candidate
    · exact h.passes.paid
    · exact h.passes.limited

theorem CallPasses.perform_ok {call : ActCall} (h : CallPasses createdAt tie call db)
    (hself : call.userId ≠ call.targetUserId.toUuid) :
    ∃ result db', actOnCandidate (call.input createdAt tie db) db = .ok (result, db') ∧
      perform createdAt tie (.act call) db =
        .ok (.like ⟨result.matched, result.roomId, ¬ result.matched⟩, db') := by
  have hself' : call.userId.toUuidText.toUuid ≠ call.targetUserId.toUuid := by
    rw [Uuid.toUuid_eq]
    exact hself
  obtain ⟨result, db', hresult⟩ := actOnCandidate_of_passes hself' h.passes
  refine ⟨result, db', hresult, perform_act_ok_iff.2 ⟨_, actOnCandidate_ok_iff.2 ?_, rfl⟩⟩
  refine ⟨h.user, h.target, fun hsame => ?_, h.profile, result, hresult, rfl⟩
  exact hself' (congrArg UuidText.toUuid (UuidText.ext hsame))

theorem replayedResult_matched (hskip : input.action ≠ .skip) :
    (replayedResult input db).matched =
      (findMatch (orderedMatchingPair input.userId input.targetUserId) db).isSome := by
  simp [replayedResult, hskip]

/-- Where the spelling is ordered otherwise, a call returns something else than with the stored
spelling, or stores another match. -/
theorem diverges (h : MatchingInvariant db) {call : MatchingCall}
    (hcompares : ¬ call.Compares createdAt tie db) :
    (perform createdAt tie call db).toOption.map Prod.fst ≠
        (perform createdAt tie call.lower db).toOption.map Prod.fst ∨
      ∃ row row' : Match, row ≠ row' ∧
        (Transaction.commit (perform createdAt tie call) db).matchRows = db.matchRows ++ [row] ∧
        (Transaction.commit (perform createdAt tie call.lower) db).matchRows =
          db.matchRows ++ [row'] := by
  cases call with
  | undo userId undoTie now => exact absurd trivial hcompares
  | act call =>
      simp only [MatchingCall.Compares, Classical.not_imp] at hcompares
      obtain ⟨hskip, hliked, hpasses, hordered⟩ := hcompares
      have hself : call.userId ≠ call.targetUserId.toUuid := by
        have hne := (h.liked_ne _ _ hliked).symm
        rwa [Uuid.toUuid_eq] at hne
      have hself' : call.userId ≠ call.lower.targetUserId.toUuid := by
        change _ ≠ call.targetUserId.toUuid.toUuidText.toUuid
        rwa [Uuid.toUuid_eq]
      -- The two spellings give the two orders of one pair.
      have hstored : orderedMatchingPair call.userId.toUuidText call.lower.targetUserId =
          pairOf call.userId call.targetUserId.toUuid := orderedMatchingPair_toUuidText _ _
      have hspelled : orderedMatchingPair call.userId.toUuidText call.targetUserId ≠
          pairOf call.userId call.targetUserId.toUuid := by
        rw [← hstored]
        intro hsame
        rcases (orderedMatchingPair_lower _ _).1 hsame with hcompares | hone
        · exact hordered hcompares
        · rw [Uuid.toUuid_eq] at hone
          exact hself hone
      obtain ⟨result, after, hresult, hperform⟩ := hpasses.perform_ok hself
      obtain ⟨result', after', hresult', hperform'⟩ := hpasses.lower.perform_ok hself'
      change perform createdAt tie (MatchingCall.act call).lower db = _ at hperform'
      cases hfind : findActiveAction call.userId.toUuidText.toUuid call.targetUserId.toUuid db with
      | some existing =>
          have hfind' : findActiveAction call.userId.toUuidText.toUuid
              call.lower.targetUserId.toUuid db = some existing :=
            (congrArg (findActiveAction _ · db) (toUuid_lower (call.input createdAt tie db))).trans hfind
          have hmutual : Liked db call.userId call.targetUserId.toUuid ∧
              Liked db call.targetUserId.toUuid call.userId := by
            rw [Uuid.toUuid_eq] at hliked hfind
            obtain ⟨hmem, hactive⟩ := mem_of_findActiveAction hfind
            have hkind : existing.action = call.action := by
              apply hpasses.passes.repeated
              rw [← hfind]
              exact congrArg (findActiveAction · _ db) (Uuid.toUuid_eq _)
            exact ⟨(h.liked_iff _ _).2 ⟨existing, hmem, hactive, hkind ▸ hskip⟩, hliked⟩
          -- The match is there, but not under the pair as it is spelled.
          have hmissed : findMatch (orderedMatchingPair call.userId.toUuidText call.targetUserId) db =
              none := by
            apply h.findMatch_spelled
            rw [Uuid.toUuid_eq]
            exact hspelled
          have hfound : findMatch (orderedMatchingPair call.userId.toUuidText
              call.lower.targetUserId) db ≠ none := by
            rw [hstored, Ne, h.findMatch_eq_none, not_not]
            exact hmutual
          rcases actOnCandidate_cases hresult with ⟨-, -, -, rfl, -⟩ | ⟨hnone, -⟩
          · rcases actOnCandidate_cases hresult' with ⟨-, -, -, rfl, -⟩ | ⟨hnone, -⟩
            · apply Or.inl
              rw [hperform, hperform']
              intro hsame
              have hpayload := congrArg LikeUserPayload.matched
                (MatchingReply.like.inj (Option.some.inj hsame))
              dsimp only at hpayload
              rw [replayedResult_matched hskip, replayedResult_matched hskip] at hpayload
              have hsome := hpayload.trans (Option.isSome_iff_ne_none.2 hfound)
              exact absurd hmissed (Option.isSome_iff_ne_none.1 hsome)
            · cases hfind'.symm.trans hnone
          · cases hfind.symm.trans hnone
      | none =>
          have hfind' : findActiveAction call.userId.toUuidText.toUuid
              call.lower.targetUserId.toUuid db = none :=
            (congrArg (findActiveAction _ · db) (toUuid_lower (call.input createdAt tie db))).trans hfind
          have hliked' : Liked db call.lower.targetUserId.toUuid call.userId.toUuidText.toUuid := by
            change Liked db call.targetUserId.toUuid.toUuidText.toUuid _
            rw [Uuid.toUuid_eq]
            exact hliked
          obtain ⟨row, hkey, hrows⟩ := actOnCandidate_stores h hfind hskip hliked hresult
          obtain ⟨row', hkey', hrows'⟩ := actOnCandidate_stores h hfind' hskip hliked' hresult'
          refine Or.inr ⟨row, row', ?_, ?_, ?_⟩
          · rintro rfl
            exact hspelled (hkey.symm.trans (hkey'.trans hstored))
          · rw [commit_of_ok hperform, hrows]
          · rw [commit_of_ok hperform', hrows']

/-! ### Runs -/

/-- A run leaves and returns what it does with every target spelled as it is stored. -/
structure SpellingFree (createdAt : RowId → Timestamp) (tie : ℕ) (calls : List MatchingCall)
    (start : Database) : Prop where
  returned : replies (perform createdAt tie) calls start =
    replies (perform createdAt tie) (calls.map MatchingCall.lower) start
  likes : (run (perform createdAt tie) calls start).userLikes =
    (run (perform createdAt tie) (calls.map MatchingCall.lower) start).userLikes
  actions : (run (perform createdAt tie) calls start).matchActions =
    (run (perform createdAt tie) (calls.map MatchingCall.lower) start).matchActions
  matchRows : (run (perform createdAt tie) calls start).matchRows =
    (run (perform createdAt tie) (calls.map MatchingCall.lower) start).matchRows
  rooms : (run (perform createdAt tie) calls start).rooms =
    (run (perform createdAt tie) (calls.map MatchingCall.lower) start).rooms
  members : (run (perform createdAt tie) calls start).roomMembers =
    (run (perform createdAt tie) (calls.map MatchingCall.lower) start).roomMembers

/-- Two users have at most one match and one room, and none of their likes can be undone then. -/
structure OneMatchAPair (db : Database) : Prop where
  one_match : ∀ a b, (db.matchRows.filter fun row => Match.Joins row a b).length ≤ 1
  one_room : ∀ a b, a ≠ b → (db.rooms.filter fun room =>
    { roomId := room.id, userId := a : RoomMember } ∈ db.roomMembers ∧
      { roomId := room.id, userId := b : RoomMember } ∈ db.roomMembers).length ≤ 1
  kept : ∀ userId tie now result db', undoLastAction userId tie now db = .ok (result, db') →
    ∀ a b roomId, Liked db a b → MatchedIn db a b roomId → Liked db' a b

theorem SpellingInvariant.oneMatchAPair (h : SpellingInvariant db) : OneMatchAPair db where
  one_match a b := by
    apply h.unique_matches.length_filter_le_one
    intro row hrow row' hrow' hcond hcond'
    apply h.unique_matches.eq_of_key hrow hrow'
    rw [(joins_iff (h.ordered row hrow)).1 (of_decide_eq_true hcond),
      (joins_iff (h.ordered row' hrow')).1 (of_decide_eq_true hcond')]
  one_room a b hne := by
    have hunique : UniqueKey Room.id db.rooms := by
      unfold UniqueKey
      rw [h.rooms]
      exact h.unique_rooms
    -- The members of a room are the two users of its match.
    have hjoins (room : Room) (hroom : room ∈ db.rooms)
        (hboth : { roomId := room.id, userId := a : RoomMember } ∈ db.roomMembers ∧
          { roomId := room.id, userId := b : RoomMember } ∈ db.roomMembers) :
        ∃ row ∈ db.matchRows, row.roomId = room.id ∧ matchKey row = pairOf a b := by
      have hid : room.id ∈ db.matchRows.map Match.roomId := by
        rw [← h.rooms]
        exact List.mem_map_of_mem hroom
      obtain ⟨row, hrow, hid⟩ := List.mem_map.1 hid
      rw [← hid, h.members row hrow, h.members row hrow] at hboth
      refine ⟨row, hrow, hid, (joins_iff (h.ordered row hrow)).1 ?_⟩
      rcases hboth with ⟨ha | ha, hb | hb⟩
      · exact absurd (ha.trans hb.symm) hne
      · exact Or.inl ⟨ha.symm, hb.symm⟩
      · exact Or.inr ⟨hb.symm, ha.symm⟩
      · exact absurd (ha.trans hb.symm) hne
    apply hunique.length_filter_le_one
    intro room hroom room' hroom' hcond hcond'
    obtain ⟨row, hrow, hid, hkey⟩ := hjoins room hroom (of_decide_eq_true hcond)
    obtain ⟨row', hrow', hid', hkey'⟩ := hjoins room' hroom' (of_decide_eq_true hcond')
    apply hunique.eq_of_key hroom hroom'
    rw [← hid, ← hid', h.unique_matches.eq_of_key hrow hrow' (hkey.trans hkey'.symm)]
  kept userId undoTie now result db' hcall a b roomId hliked hmatched := by
    obtain ⟨row, hrow, hjoins, -⟩ := hmatched
    exact (h.toMatchingInvariant.undo hcall).2.2 a b hliked
      ⟨row, hrow, (joins_iff (h.ordered row hrow)).1 hjoins⟩

/-- While every spelling is ordered as the stored identifier, the spelling does not matter. -/
theorem SpellingInvariant.run_lower (h : SpellingInvariant start)
    (hcompares : Along (perform createdAt tie) (MatchingCall.Compares createdAt tie) calls start) :
    replies (perform createdAt tie) calls start =
        replies (perform createdAt tie) (calls.map MatchingCall.lower) start ∧
      run (perform createdAt tie) calls start =
        run (perform createdAt tie) (calls.map MatchingCall.lower) start ∧
      SpellingInvariant (run (perform createdAt tie) calls start) :=
  run_map_of_along (fun _ _ hinv => same_lower hinv.toMatchingInvariant hinv.others)
    (fun _ _ hinv => hinv.commit) h hcompares

/-- The first call whose spelling is ordered otherwise shows in what is returned or stored. -/
theorem SpellingInvariant.compares_of_free (h : SpellingInvariant start)
    (hreturned : replies (perform createdAt tie) calls start =
      replies (perform createdAt tie) (calls.map MatchingCall.lower) start)
    (hrows : (run (perform createdAt tie) calls start).matchRows =
      (run (perform createdAt tie) (calls.map MatchingCall.lower) start).matchRows) :
    Along (perform createdAt tie) (MatchingCall.Compares createdAt tie) calls start := by
  induction calls generalizing start with
  | nil => trivial
  | cons call calls ih =>
      rw [List.map_cons, replies, replies] at hreturned
      rw [List.map_cons, run_cons, run_cons] at hrows
      obtain ⟨hhead, htail⟩ := List.cons.inj hreturned
      by_cases hcompares : call.Compares createdAt tie start
      · have hsame := (same_lower h.toMatchingInvariant h.others hcompares).commit_eq
        rw [← hsame] at htail hrows
        exact ⟨hcompares, ih (h.commit hcompares) htail hrows⟩
      · exfalso
        rcases diverges h.toMatchingInvariant hcompares with hreply | ⟨row, row', hne, hrow, hrow'⟩
        · exact hreply hhead
        · -- Both matches are still there at the end of the run, in the same place.
          have hkept := matchRows_prefix_run createdAt tie calls
            (Transaction.commit (perform createdAt tie call) start)
          have hkept' := matchRows_prefix_run createdAt tie (calls.map MatchingCall.lower)
            (Transaction.commit (perform createdAt tie call.lower) start)
          rw [hrow, hrows] at hkept
          rw [hrow'] at hkept'
          have hprefix := List.prefix_of_prefix_length_le hkept hkept' (by simp)
          have hequal := hprefix.eq_of_length (by simp)
          exact hne (List.singleton_inj.1 (List.append_cancel_left hequal))

/-- **The spelling of a target.** A run of actions and undos from empty matching tables leaves
and returns what it does with every target spelled as it is stored, with one match and one room a
pair and no like of a match undone, exactly when in every like that is let through on someone who
likes the user the spelling is ordered as the stored identifier. -/
theorem spelling_free_iff (hempty : EmptyMatching start) (calls : List MatchingCall) :
    SpellingFree createdAt tie calls start ∧
        OneMatchAPair (run (perform createdAt tie) calls start) ↔
      Along (perform createdAt tie) (MatchingCall.Compares createdAt tie) calls start := by
  have h := SpellingInvariant.of_empty hempty
  constructor
  · rintro ⟨hfree, -⟩
    exact h.compares_of_free hfree.returned hfree.matchRows
  · intro hcompares
    obtain ⟨hreturned, hrun, hend⟩ := h.run_lower hcompares
    refine ⟨⟨hreturned, ?_, ?_, ?_, ?_, ?_⟩, hend.oneMatchAPair⟩
    all_goals rw [hrun]

/-- A like of the service. -/
def likeCall (userId : Uuid) (targetUserId : UuidText) (now : Timestamp) : MatchingCall :=
  .act { userId := userId, targetUserId := targetUserId, action := .like, now := now, clock := now }

theorem spelling_free_mutual :
    SpellingFree (fun _ => 0) 0
        [likeCall candidate.toUuid buyer 1, likeCall buyer.toUuid candidate 2] pairOnly ∧
      OneMatchAPair (run (perform (fun _ => 0) 0)
        [likeCall candidate.toUuid buyer 1, likeCall buyer.toUuid candidate 2] pairOnly) := by
  have hempty : EmptyMatching pairOnly := by
    constructor <;> rfl
  apply (spelling_free_iff hempty _).2
  refine ⟨fun _ _ _ => ?_, fun _ _ _ => ?_, trivial⟩
  · decide
  · decide

/-- The candidate with its letter in upper case. -/
def candidateUpper : UuidText where
  text := "C0000000-0000-4000-8000-000000000002".toList
  wellFormed := by decide

/-- The buyer likes back with an upper-case target, undoes that and likes back again. -/
def spelledRun : List MatchingCall :=
  [likeCall candidate.toUuid buyer 1, likeCall buyer.toUuid candidateUpper 2,
    .undo buyer.toUuid 0 3, likeCall buyer.toUuid candidate 4]

/-- The match of the upper-case target is not found by the undo, and the pair gets a second one. -/
theorem spelling_two_matches : EmptyMatching pairOnly ∧
    ¬ SpellingFree (fun _ => 0) 0 spelledRun pairOnly ∧
    ¬ OneMatchAPair (run (perform (fun _ => 0) 0) spelledRun pairOnly) := by
  have htwo : ((run (perform (fun _ => 0) 0) spelledRun pairOnly).matchRows.filter fun row =>
      Match.Joins row buyer.toUuid candidate.toUuid).length = 2 := by decide
  have hone : ((run (perform (fun _ => 0) 0) (spelledRun.map MatchingCall.lower)
      pairOnly).matchRows.filter fun row =>
        Match.Joins row buyer.toUuid candidate.toUuid).length = 1 := by decide
  refine ⟨by constructor <;> rfl, fun hfree => ?_, fun hpair => ?_⟩
  · rw [hfree.matchRows, hone] at htwo
    cases htwo
  · have hle := hpair.one_match buyer.toUuid candidate.toUuid
    rw [htwo] at hle
    omega

end ChatTea.Matching
