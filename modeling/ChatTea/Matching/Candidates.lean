import Mathlib
import ChatTea.Lib.ThreeValued
import ChatTea.Matching.Credits
import ChatTea.Matching.Service

/-!
# The candidate list

The condition of the query in `MatchingRepository.candidates`, and the checks that an action on
one of the candidates passes. The query compares columns that may be null; the checks are made
in the code on rows that were read before. The order of the list and its limit are left out.

## Main definitions

* `candidates` — the users the query selects
* `ActsOn` — an action of the viewer on a user starts afresh and passes every check

## Main results

* `checkCandidate_eq_ok_iff` — what the checks of an action ask
* `mem_candidates_iff` — what the query asks
* `candidates_eq_actable` — they ask the same
-/

namespace ChatTea.Matching

open Table ThreeValued Transaction
open MatchingService (profileIsComplete)

/-! ### The query -/

/-- What the columns `gender` and `interestedGender` store. -/
def genderText : Gender → String
  | .male => "male"
  | .female => "female"

def interestedGenderText : InterestedGender → String
  | .male => "male"
  | .female => "female"
  | .everyone => "everyone"

/-- The filter on the gender of a candidate; none is `undefined`. -/
def viewerGenderFilter (viewer user : User) : Option Truth :=
  match viewer.interestedGender with
  | some .everyone => none
  | some interestedGender =>
      some (eq (some (genderText user.gender)) (some (interestedGenderText interestedGender)))
  | none => some (some false)

def targetInterestFilter (viewer user : User) : Truth :=
  let interestedGender := user.interestedGender.map interestedGenderText
  anyOf
    [some (eq interestedGender (some "everyone")),
      some (eq interestedGender (some (genderText viewer.gender)))]

/-- The subquery on blocks, in either direction. -/
def blockFilter (userId candidateId : Uuid) (row : UserBlock) : Truth :=
  anyOf
    [some (allOf
        [some (eq (some row.blockerUserId) (some userId)),
          some (eq (some row.blockedUserId) (some candidateId))]),
      some (allOf
        [some (eq (some row.blockerUserId) (some candidateId)),
          some (eq (some row.blockedUserId) (some userId))])]

/-- The subquery on actions that were not reverted. -/
def actionFilter (userId candidateId : Uuid) (row : MatchAction) : Truth :=
  allOf
    [some (eq (some row.actorUserId) (some userId)),
      some (eq (some row.targetUserId) (some candidateId)),
      some (isNull row.revertedAt)]

def candidateFilter (viewer : User) (userId : Uuid) (db : Database) (user : User) : Truth :=
  allOf
    [some (ne (some user.userId) (some userId)),
      some (isNotNull user.profileCompletedAt),
      some (isNull user.hiddenAt),
      some (isNull user.deletedAt),
      some (targetInterestFilter viewer user),
      viewerGenderFilter viewer user,
      some (notExists db.userBlocks (blockFilter userId user.userId)),
      some (notExists db.matchActions (actionFilter userId user.userId))]

def candidates (userId : Uuid) (db : Database) : List User :=
  match findUser userId db with
  | none => []
  | some viewer => db.users.filter fun user => Selected (candidateFilter viewer userId db user)

/-! ### The checks of an action -/

/-- An action of the user on the target finds no active one, and passes every check. -/
def ActsOn (userId targetUserId : Uuid) (db : Database) : Prop :=
  findActiveAction userId targetUserId db = none ∧ checkCandidate userId targetUserId db = .ok ()

/-- A user that others see. -/
structure IsShown (user : User) : Prop where
  complete : user.profileCompletedAt ≠ none
  visible : user.hiddenAt = none
  present : user.deletedAt = none

/-- No block between the two, whoever made it. -/
def Unblocked (userId targetUserId : Uuid) (db : Database) : Prop :=
  ∀ row ∈ db.userBlocks,
    ¬ ((row.blockerUserId = userId ∧ row.blockedUserId = targetUserId) ∨
      (row.blockerUserId = targetUserId ∧ row.blockedUserId = userId))

/-- The two users ask for each other's gender. -/
def Acceptable (viewer target : User) : Prop :=
  interestedIn viewer.interestedGender target.gender ∧
    interestedIn target.interestedGender viewer.gender

/-- What it takes to be acted on. -/
structure Available (viewer target : User) (db : Database) : Prop where
  viewer_shown : IsShown viewer
  target_shown : IsShown target
  acceptable : Acceptable viewer target
  unblocked : Unblocked viewer.userId target.userId db

variable {userId targetUserId : Uuid} {viewer target user : User} {db : Database}

theorem not_hidden_iff : ¬ (user.hiddenAt ≠ none ∨ user.deletedAt ≠ none ∨
    user.profileCompletedAt = none) ↔ IsShown user := by
  constructor
  · intro h
    rw [not_or, not_or, not_not, not_not] at h
    exact ⟨h.2.2, h.1, h.2.1⟩
  · intro h
    simp [h.complete, h.visible, h.present]

theorem profileIsComplete_iff :
    profileIsComplete userId db ↔ ∃ user, findUser userId db = some user ∧ IsShown user := by
  unfold profileIsComplete
  cases hfind : findUser userId db with
  | none => simp
  | some user =>
      rw [Option.any_some, decide_eq_true_iff]
      constructor
      · intro ⟨hcomplete, hvisible, hpresent⟩
        exact ⟨user, rfl, hcomplete, hvisible, hpresent⟩
      · intro ⟨found, hfound, hshown⟩
        obtain rfl := Option.some.inj hfound
        exact ⟨hshown.complete, hshown.visible, hshown.present⟩

theorem findUser_userId (h : findUser userId db = some user) : user.userId = userId :=
  (mem_of_lookup h).2

/-- The checks, one by one. -/
theorem checkCandidate_eq_ok_iff (hviewer : findUser userId db = some viewer)
    (htarget : findUser targetUserId db = some target) :
    checkCandidate userId targetUserId db = .ok () ↔ Available viewer target db := by
  have hblocks : ¬ (db.userBlocks.any fun row =>
      (row.blockerUserId = userId ∧ row.blockedUserId = targetUserId) ∨
        (row.blockerUserId = targetUserId ∧ row.blockedUserId = userId)) = true ↔
      Unblocked viewer.userId target.userId db := by
    rw [findUser_userId hviewer, findUser_userId htarget, Bool.not_eq_true, List.any_eq_false]
    apply forall₂_congr
    intro row _
    rw [decide_eq_true_iff]
  have hinterest : ¬ (¬ (interestedIn viewer.interestedGender target.gender = true) ∨
      ¬ (interestedIn target.interestedGender viewer.gender = true)) ↔ Acceptable viewer target := by
    rw [not_or, not_not, not_not]
    exact Iff.rfl
  unfold checkCandidate
  simp only [hviewer, htarget, pure_bind, bind_eq_ok_iff, throwIf_eq_ok_iff, not_hidden_iff,
    hinterest, hblocks, exists_const]
  constructor
  · intro ⟨hshown, htargetShown, hacceptable, hunblocked⟩
    exact ⟨hshown, htargetShown, hacceptable, hunblocked⟩
  · intro h
    exact ⟨h.viewer_shown, h.target_shown, h.acceptable, h.unblocked⟩

/-- Someone who is not stored cannot be acted on. -/
theorem checkCandidate_ne_ok (htarget : findUser targetUserId db = none) :
    checkCandidate userId targetUserId db ≠ .ok () := by
  intro hok
  unfold checkCandidate at hok
  cases hviewer : findUser userId db with
  | none =>
      rw [hviewer] at hok
      cases hok
  | some viewer =>
      simp only [hviewer, htarget, pure_bind, bind_eq_ok_iff] at hok
      obtain ⟨_, -, _, habsent, -⟩ := hok
      cases habsent

/-! ### What the query asks -/

/-- Interest in everyone gives no filter, and no interest a false one. -/
theorem selected_viewerGenderFilter :
    (∀ t, some t = viewerGenderFilter viewer user → Selected t) ↔
      interestedIn viewer.interestedGender user.gender := by
  unfold viewerGenderFilter
  cases hinterest : viewer.interestedGender with
  | none => simp [interestedIn, Selected]
  | some interestedGender =>
      cases interestedGender <;> cases hgender : user.gender <;>
        simp [interestedIn, Selected, eq, genderText, interestedGenderText]

/-- A null interest is no interest. -/
theorem selected_targetInterestFilter :
    Selected (targetInterestFilter viewer user) ↔
      interestedIn user.interestedGender viewer.gender := by
  unfold targetInterestFilter
  cases hinterest : user.interestedGender with
  | none => simp [selected_anyOf, selected_eq_some, interestedIn]
  | some interestedGender =>
      cases interestedGender <;> cases hgender : viewer.gender <;>
        simp [selected_anyOf, selected_eq_some, interestedIn, genderText, interestedGenderText]

theorem selected_blockFilter {candidateId : Uuid} {row : UserBlock} :
    Selected (blockFilter userId candidateId row) ↔
      (row.blockerUserId = userId ∧ row.blockedUserId = candidateId) ∨
        (row.blockerUserId = candidateId ∧ row.blockedUserId = userId) := by
  simp [blockFilter, selected_anyOf, selected_allOf, selected_eq_some]

theorem selected_actionFilter {candidateId : Uuid} {row : MatchAction} :
    Selected (actionFilter userId candidateId row) ↔ IsActive userId candidateId row := by
  simp [actionFilter, selected_allOf, selected_eq_some, selected_isNull, IsActive]

theorem selected_candidateFilter :
    Selected (candidateFilter viewer userId db user) ↔
      user.userId ≠ userId ∧ IsShown user ∧ Acceptable viewer user ∧
        Unblocked userId user.userId db ∧ findActiveAction userId user.userId db = none := by
  have hother : Selected (ne (some user.userId) (some userId)) ↔ user.userId ≠ userId := by
    simp [selected_ne_some]
  have hblocks : Selected (notExists db.userBlocks (blockFilter userId user.userId)) ↔
      Unblocked userId user.userId db := by
    simp only [selected_notExists, selected_blockFilter, Unblocked]
  have hactions : Selected (notExists db.matchActions (actionFilter userId user.userId)) ↔
      findActiveAction userId user.userId db = none := by
    simp only [selected_notExists, selected_actionFilter, findActiveAction, List.find?_eq_none,
      decide_eq_true_iff]
  unfold candidateFilter
  rw [selected_allOf]
  simp only [List.mem_cons, List.not_mem_nil, or_false, Option.some.injEq, or_imp, forall_and,
    forall_eq, hother, hblocks, hactions, selected_isNull, selected_isNotNull,
    selected_targetInterestFilter, selected_viewerGenderFilter]
  constructor
  · rintro ⟨hne, hcomplete, hvisible, hpresent, htarget, hviewer, hunblocked, hnew⟩
    exact ⟨hne, ⟨hcomplete, hvisible, hpresent⟩, ⟨hviewer, htarget⟩, hunblocked, hnew⟩
  · rintro ⟨hne, hshown, hacceptable, hunblocked, hnew⟩
    exact ⟨hne, hshown.complete, hshown.visible, hshown.present, hacceptable.2, hacceptable.1,
      hunblocked, hnew⟩

theorem mem_candidates_iff (hviewer : findUser userId db = some viewer) :
    user ∈ candidates userId db ↔ user ∈ db.users ∧ user.userId ≠ userId ∧ IsShown user ∧
      Acceptable viewer user ∧ Unblocked userId user.userId db ∧
        findActiveAction userId user.userId db = none := by
  rw [candidates, hviewer, List.mem_filter, decide_eq_true_iff, selected_candidateFilter]

/-- A viewer with a complete and visible profile is shown exactly the others on whom a new
action passes every check. -/
theorem candidates_eq_actable (hunique : UniqueKey User.userId db.users)
    (hviewer : profileIsComplete userId db) (targetUserId : Uuid) :
    targetUserId ∈ (candidates userId db).map User.userId ↔
      targetUserId ≠ userId ∧ ActsOn userId targetUserId db := by
  obtain ⟨viewer, hfound, hshown⟩ := profileIsComplete_iff.1 hviewer
  have hviewerId := findUser_userId hfound
  rw [List.mem_map]
  constructor
  · intro ⟨user, hmem, huser⟩
    subst huser
    obtain ⟨hstored, hne, htarget, hacceptable, hunblocked, hnew⟩ := (mem_candidates_iff hfound).1 hmem
    have htargetFound : findUser user.userId db = some user := hunique.lookup_of_mem hstored
    refine ⟨hne, hnew, (checkCandidate_eq_ok_iff hfound htargetFound).2 ?_⟩
    rw [← hviewerId] at hunblocked
    exact ⟨hshown, htarget, hacceptable, hunblocked⟩
  · intro ⟨hne, hnew, hcheck⟩
    cases htargetFound : findUser targetUserId db with
    | none => exact absurd hcheck (checkCandidate_ne_ok htargetFound)
    | some target =>
        obtain ⟨hstored, htargetId⟩ := mem_of_lookup htargetFound
        have havailable := (checkCandidate_eq_ok_iff hfound htargetFound).1 hcheck
        have hunblocked := havailable.unblocked
        subst htargetId
        rw [hviewerId] at hunblocked
        exact ⟨target, (mem_candidates_iff hfound).2 ⟨hstored, hne, havailable.target_shown,
          havailable.acceptable, hunblocked, hnew⟩, rfl⟩

/-- Before any action, the one other account is on the list. -/
theorem candidates_eq_actable_pair :
    candidate.toUuid ∈ (candidates buyer.toUuid pairOnly).map User.userId ↔
      candidate.toUuid ≠ buyer.toUuid ∧ ActsOn buyer.toUuid candidate.toUuid pairOnly := by
  have hunique : UniqueKey User.userId pairOnly.users := by
    unfold UniqueKey
    decide
  exact candidates_eq_actable hunique (by rfl) candidate.toUuid

end ChatTea.Matching
