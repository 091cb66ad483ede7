import ChatTea.Matching.Invariant
import ChatTea.Matching.UserCalls

/-!
# Undoing the last action

An undo right after a new action that gave no match is its inverse: every table is as it was, but
for the action, which stays in the log as reverted, and the identifier that it has drawn. Undos
that run at the same time revert an action once.

## Main definitions

* `PairInvariant` — a match in the order of the stored identifiers is a mutual like
* `undoneAction` — the action that is left in the log

## Main results

* `pairInvariant_run` — the invariant of every run of calls, however they spell users
* `undo_inverse` — an undo is the inverse of the last action, and each action is reverted once
-/

namespace ChatTea.Matching

open Interleaving ReadCommitted Statements Table Transaction
open Billing

variable {input : ActInput} {start db db' : Database} {a b userId : Uuid}

/-! ### Matches in the order of the stored identifiers -/

/-- What ties likes to actions, and matches to likes: a match that an undo finds is a mutual
like. A match whose users were spelled otherwise may be in the other order, where no undo looks. -/
structure PairInvariant (db : Database) : Prop extends LikeInvariant db where
  matched : ∀ row ∈ db.matchRows, ∀ a b, matchKey row = pairOf a b → Liked db a b ∧ Liked db b a

theorem PairInvariant.of_empty (h : EmptyTables start) : PairInvariant start where
  toLikeInvariant := (MatchingInvariant.of_empty
    ⟨h.actions, h.likes, h.rooms, h.members, h.matchRows⟩).toLikeInvariant
  matched := by simp [h.matchRows]

theorem LikeInvariant.of_same (h : LikeInvariant db) (hlikes : db'.userLikes = db.userLikes)
    (hactions : db'.matchActions = db.matchActions) (hdrawn : db.nextRowId ≤ db'.nextRowId) :
    LikeInvariant db' where
  unique_actions := hactions ▸ h.unique_actions
  actions_drawn row hrow := by
    rw [hactions] at hrow
    exact lt_of_lt_of_le (h.actions_drawn row hrow) hdrawn
  one_active := hactions ▸ h.one_active
  liked_iff a b := by
    unfold Liked
    rw [hlikes, hactions]
    exact h.liked_iff a b
  liked_ne a b hliked := by
    unfold Liked at hliked
    rw [hlikes] at hliked
    exact h.liked_ne a b hliked

/-- Calls that leave likes, actions and matches. -/
theorem PairInvariant.of_same (h : PairInvariant db) (hsame : SameMatching db db') :
    PairInvariant db' where
  toLikeInvariant := h.toLikeInvariant.of_same hsame.likes hsame.actions hsame.drawn
  matched row hrow a b hkey := by
    unfold Liked
    rw [hsame.matchRows] at hrow
    rw [hsame.likes]
    exact h.matched row hrow a b hkey

/-- The pair of two texts is the pair of the stored identifiers, or the other way round. -/
theorem orderedMatchingPair_cases {userId targetUserId : UuidText}
    (h : orderedMatchingPair userId targetUserId = pairOf a b) :
    a = userId.toUuid ∧ b = targetUserId.toUuid ∨ a = targetUserId.toUuid ∧ b = userId.toUuid := by
  unfold orderedMatchingPair pairOf at h
  rcases le_total a b with hab | hab <;> split at h <;>
    simp only [hab, min_eq_left, min_eq_right, max_eq_left, max_eq_right, Prod.mk.injEq] at h <;>
    tauto

/-- A match that is stored joins two users who like each other. -/
theorem mem_matchIfReverseExists {userId targetUserId : UuidText} {row : Match}
    (h : row ∈ (matchIfReverseExists userId targetUserId db).2.matchRows) :
    row ∈ db.matchRows ∨ Liked db targetUserId.toUuid userId.toUuid ∧
      matchKey row = orderedMatchingPair userId targetUserId := by
  unfold matchIfReverseExists at h
  split at h
  next => exact Or.inl h
  next reverse hfind =>
    have hliked : Liked db targetUserId.toUuid userId.toUuid := by
      by_contra hnone
      rw [findLike_eq_none.2 hnone] at hfind
      cases hfind
    dsimp only at h
    split at h
    next => exact Or.inl h
    next =>
      rw [List.mem_append, List.mem_singleton] at h
      apply h.imp_right
      rintro rfl
      exact ⟨hliked, rfl⟩

/-- A new action keeps the invariant. -/
theorem PairInvariant.act (h : PairInvariant db) {result : ActResult}
    (hcall : actOnCandidate input db = .ok (result, db')) : PairInvariant db' := by
  rcases actOnCandidate_cases hcall with ⟨existing, -, -, -, rfl⟩ | ⟨hnew, hcreate⟩
  · exact h
  obtain ⟨hself, -, balances, -, hskip, hlike⟩ := createAction_writes hcreate
  have hstored : LikeInvariant (Matching.afterAction input balances db) :=
    h.toLikeInvariant.afterAction hself hnew
  have hliked {x y : Uuid} (hold : Liked db x y) :
      Liked (Matching.afterAction input balances db) x y :=
    (liked_afterAction_iff h.toLikeInvariant hnew).2 (Or.inl hold)
  have hmatched (row : Match) (hrow : row ∈ db.matchRows) (a b : Uuid)
      (hkey : matchKey row = pairOf a b) :
      Liked (Matching.afterAction input balances db) a b ∧
        Liked (Matching.afterAction input balances db) b a := by
    obtain ⟨hab, hba⟩ := h.matched row hrow a b hkey
    exact ⟨hliked hab, hliked hba⟩
  by_cases haction : input.action = .skip
  · rw [(hskip haction).2.2]
    exact ⟨hstored, hmatched⟩
  -- The search for the reverse like leaves likes and actions, and may add a match of the two.
  have hsearch := hlike haction
  have hframe := matchIfReverseExists_frame input.userId input.targetUserId
    (Matching.afterAction input balances db)
  rw [hsearch] at hframe
  obtain ⟨-, -, -, -, -, hactions, hlikes, -, hnext⟩ := hframe
  refine ⟨hstored.of_same hlikes hactions hnext, fun row hrow a b hkey => ?_⟩
  unfold Liked
  rw [hlikes]
  have hrow' : row ∈ (matchIfReverseExists input.userId input.targetUserId
      (Matching.afterAction input balances db)).2.matchRows := by
    rw [hsearch]
    exact hrow
  rcases mem_matchIfReverseExists hrow' with hold | ⟨hreverse, hpair⟩
  · exact hmatched row hold a b hkey
  · have hforward : Liked (Matching.afterAction input balances db) input.userId.toUuid
        input.targetUserId.toUuid :=
      (liked_afterAction_iff h.toLikeInvariant hnew).2 (Or.inr ⟨haction, rfl, rfl⟩)
    rcases orderedMatchingPair_cases (hpair.symm.trans hkey) with ⟨rfl, rfl⟩ | ⟨rfl, rfl⟩
    · exact ⟨hforward, hreverse⟩
    · exact ⟨hreverse, hforward⟩

/-- An undo keeps the invariant: it finds no match of its pair. -/
theorem PairInvariant.undo (h : PairInvariant db) {tie : ℕ} {now : Timestamp}
    {result : Option MatchAction} (hcall : undoLastAction userId tie now db = .ok (result, db')) :
    PairInvariant db' := by
  rcases undoLastAction_cases hcall with ⟨-, -, rfl⟩ |
    ⟨action, likes, balances, haction, -, hactive, hunmatched, -, hreleased, rfl⟩
  · exact h
  rw [orderedMatchingPair_toUuidText] at hunmatched
  refine ⟨h.toLikeInvariant.reverted haction hactive now hreleased, ?_⟩
  intro row hrow a b hkey
  obtain ⟨hab, hba⟩ := h.matched row hrow a b hkey
  have hkept {x y : Uuid} (hliked : Liked db x y) (hpair : matchKey row = pairOf x y) :
      ∃ row ∈ likes, row.likerUserId = x ∧ row.likedUserId = y := by
    refine (liked_released_iff hreleased).2 ⟨hliked, ?_⟩
    rintro ⟨-, rfl, rfl⟩
    exact lookup_eq_none.1 hunmatched row hrow hpair
  exact ⟨hkept hab hkey, hkept hba (hkey.trans (pairOf_comm a b))⟩

theorem PairInvariant.execute (h : PairInvariant db) {request : Request} {done : Unit}
    (hcall : execute request db = .ok (done, db')) : PairInvariant db' := by
  cases request with
  | billing input =>
      obtain ⟨result, hresult⟩ := map_eq_ok hcall
      exact h.of_same (applyRevenueCatEvent_matching hresult)
  | act input =>
      obtain ⟨result, hresult⟩ := map_eq_ok hcall
      exact h.act hresult
  | undo userId tie now =>
      obtain ⟨result, hresult⟩ := map_eq_ok hcall
      exact h.undo hresult
  | boost userId now =>
      obtain ⟨result, hresult⟩ := map_eq_ok hcall
      obtain ⟨balances, boost, -, -, rfl⟩ := activateBoost_writes hresult
      exact h.of_same ⟨rfl, rfl, rfl, rfl, rfl, le_rfl⟩

/-- The invariant of every run of calls, however they spell users. -/
theorem pairInvariant_run (hempty : EmptyTables start) (requests : List Request) :
    PairInvariant (run execute requests start) :=
  run_invariant (PairInvariant.of_empty hempty)
    (fun _ _ _ _ hbefore hcall => hbefore.execute hcall) requests

/-! ### An undo after an action -/

/-- The action that is left in the log. -/
def undoneAction (input : ActInput) (id : RowId) (now : Timestamp) : MatchAction :=
  revertedAction now (createdAction input id)

/-- A superlike that is given back to the balance it was charged to. -/
theorem upsert_updateWhere_superLike {user : Uuid} {balances : List ConsumableBalance}
    (hunique : UniqueKey ConsumableBalance.userId balances)
    (hcharged : returning (hasSuperLike user) takeSuperLike balances ≠ []) :
    upsert ConsumableBalance.userId ⟨user, 1, 0⟩
      (fun row => { row with superLikeCredits := row.superLikeCredits + 1 })
      (updateWhere (hasSuperLike user) takeSuperLike balances) = balances := by
  obtain ⟨charged, hmem, hcond⟩ := returning_ne_nil.1 hcharged
  have howner : charged.userId = user := by
    unfold hasSuperLike at hcond
    rw [decide_eq_true_eq] at hcond
    exact hcond.1
  have hany : ((updateWhere (hasSuperLike user) takeSuperLike balances).any
      fun row => row.userId = user) = true := by
    refine List.any_eq_true.2 ⟨takeSuperLike charged, ?_, decide_eq_true howner⟩
    exact mem_updateWhere.2 (Or.inl ⟨charged, hmem, hcond, rfl⟩)
  unfold upsert
  rw [if_pos hany]
  unfold updateWhere
  rw [List.map_map]
  apply (List.map_congr_left _).trans (List.map_id _)
  intro row hrow
  by_cases huser : row.userId = user
  · -- The user has one balance, which was charged.
    have hsame : row = charged := hunique.eq_of_key hrow hmem (huser.trans howner.symm)
    subst hsame
    have htaken : (takeSuperLike row).userId = user := howner
    rw [Function.comp_apply, if_pos hcond]
    simp only [htaken, decide_true, if_true]
    unfold takeSuperLike
    dsimp only [id_eq]
    rw [sub_add_cancel, ← huser]
  · have hother : ¬ hasSuperLike user row := by
      unfold hasSuperLike
      rw [decide_eq_true_eq]
      exact fun hboth => huser hboth.1
    rw [Function.comp_apply, if_neg hother]
    simp only [huser, decide_false, Bool.false_eq_true, if_false, id_eq]

theorem hasUser_of_checkCandidate {user target : Uuid}
    (h : checkCandidate user target db = .ok ()) : db.hasUser user := by
  unfold checkCandidate at h
  cases hactor : findUser user db with
  | none =>
      rw [hactor] at h
      cases h
  | some actor =>
      obtain ⟨hmem, hkey⟩ := mem_of_lookup hactor
      exact List.any_eq_true.2 ⟨actor, hmem, decide_eq_true hkey⟩

/-- The balances after a new action, exactly. -/
def chargedBalances (input : ActInput) (db : Database) : List ConsumableBalance :=
  if input.action = .superlike then
    updateWhere (hasSuperLike input.userId.toUuid) takeSuperLike db.userConsumableBalances
  else db.userConsumableBalances

/-- A new action that gives no match, exactly. -/
theorem createAction_unmatched {result : ActResult} (h : createAction input db = .ok (result, db'))
    (hmatched : result.matched = false) :
    db.hasUser input.userId.toUuid ∧
      (input.action = .superlike → returning (hasSuperLike input.userId.toUuid) takeSuperLike
        db.userConsumableBalances ≠ []) ∧
      db' = afterAction input (chargedBalances input db) db := by
  simp only [createAction, bind_eq_ok_iff] at h
  obtain ⟨_, hcheck, charged, hcharged, liked, hliked, stored, hstored, h⟩ := h
  have hbalances : (input.action = .superlike → returning (hasSuperLike input.userId.toUuid)
      takeSuperLike db.userConsumableBalances ≠ []) ∧
      charged = { db with userConsumableBalances := chargedBalances input db } := by
    unfold spendSuperLike at hcharged
    unfold chargedBalances
    split at hcharged
    next hsuperlike =>
      simp only [bind_eq_ok_iff, throwIf_eq_ok_iff, pure_eq_ok_iff] at hcharged
      obtain ⟨-, hpaid, rfl⟩ := hcharged
      rw [if_pos hsuperlike]
      exact ⟨fun _ => hpaid, rfl⟩
    next hother =>
      obtain rfl := pure_eq_ok_iff.1 hcharged
      rw [if_neg hother]
      exact ⟨fun hsuperlike => absurd hsuperlike hother, rfl⟩
  obtain ⟨hpaid, rfl⟩ := hbalances
  obtain rfl := recordLike_ok hliked
  simp only [insertAction, bind_eq_ok_iff, require_eq_ok_iff, pure_eq_ok_iff] at hstored
  obtain ⟨-, -, rfl⟩ := hstored
  refine ⟨hasUser_of_checkCandidate hcheck, hpaid, ?_⟩
  by_cases hskip : input.action = .skip
  · simp only [hskip, if_true, pure_eq_ok_iff, Prod.mk.injEq] at h
    exact h.2.symm
  · simp only [hskip, if_false] at h
    obtain ⟨rfl, hdb⟩ := Prod.mk.inj (pure_eq_ok_iff.1 h)
    -- Without a reverse like the search stores nothing.
    unfold matchIfReverseExists at hmatched hdb
    split at hdb
    next hnone => exact hdb.symm
    next reverse hfind =>
      rw [hfind] at hmatched
      dsimp only at hmatched
      split at hmatched
      · cases hmatched
      · cases hmatched

/-- What a new action has charged and stored is released: the superlike goes back to the balance
it was charged to, and the like is removed. -/
theorem releaseLike_afterAction (actions : List MatchAction)
    (hbalances : UniqueKey ConsumableBalance.userId db.userConsumableBalances)
    (huser : db.hasUser input.userId.toUuid)
    (hpaid : input.action = .superlike → returning (hasSuperLike input.userId.toUuid) takeSuperLike
      db.userConsumableBalances ≠ [])
    (hunliked : ¬ Liked db input.userId.toUuid input.targetUserId.toUuid) :
    releaseLike (createdAction input db.nextRowId)
        { afterAction input (chargedBalances input db) db with matchActions := actions } =
      .ok { db with matchActions := actions, nextRowId := db.nextRowId + 1 } := by
  have hbefore : (db.userLikes.filter fun row => ¬ (row.likerUserId = input.userId.toUuid ∧
      row.likedUserId = input.targetUserId.toUuid)) = db.userLikes := by
    apply List.filter_eq_self.2
    intro row hrow
    apply decide_eq_true
    exact fun hpair => hunliked ⟨row, hrow, hpair⟩
  have hremoved (hskip : input.action ≠ .skip) : ((likesAfter input db).filter fun row =>
      ¬ (row.likerUserId = (createdAction input db.nextRowId).actorUserId ∧
        row.likedUserId = (createdAction input db.nextRowId).targetUserId)) = db.userLikes := by
    have hadded : likesAfter input db = db.userLikes ++ [createdLike input] := by
      unfold likesAfter
      rw [if_neg]
      exact fun hkept => hkept.elim hskip fun hsome => hsome (findLike_eq_none.2 hunliked)
    unfold createdAction
    rw [hadded, List.filter_append, hbefore]
    simp [createdLike]
  unfold releaseLike
  cases haction : input.action with
  | skip =>
      have hlikes : likesAfter input db = db.userLikes := if_pos (Or.inl haction)
      have hcharged : chargedBalances input db = db.userConsumableBalances := by
        unfold chargedBalances
        rw [haction]
        rfl
      have hcreated : (createdAction input db.nextRowId).action = .skip := haction
      rw [if_pos hcreated]
      unfold afterAction
      rw [hlikes, hcharged]
      rfl
  | like =>
      have hlikes := hremoved (by rw [haction]; decide)
      have hcharged : chargedBalances input db = db.userConsumableBalances := by
        unfold chargedBalances
        rw [haction]
        rfl
      have hcreated : (createdAction input db.nextRowId).action = .like := haction
      unfold afterAction
      rw [hcreated, hlikes, hcharged]
      rfl
  | superlike =>
      have hlikes := hremoved (by rw [haction]; decide)
      have hcharged : chargedBalances input db = updateWhere (hasSuperLike input.userId.toUuid)
          takeSuperLike db.userConsumableBalances := if_pos haction
      have hcreated : (createdAction input db.nextRowId).action = .superlike := haction
      have hrefunded := upsert_updateWhere_superLike hbalances (hpaid haction)
      have huser' : db.hasUser (createdAction input db.nextRowId).actorUserId := huser
      unfold afterAction
      rw [hcreated, hlikes, hcharged, if_neg (by decide), if_pos rfl, bind_eq_ok_iff]
      refine ⟨(), require_eq_ok_iff.2 huser', ?_⟩
      unfold createdAction
      rw [hrefunded]
      rfl

/-- **An undo is the inverse of the last action**, but for the log and the identifier. -/
theorem undo_restores (h : PairInvariant db)
    (hbalances : UniqueKey ConsumableBalance.userId db.userConsumableBalances)
    {result : ActResult} (hcall : actOnCandidate input db = .ok (result, db'))
    (hcreated : result.created = true) (hmatched : result.matched = false)
    (hlast : ∀ row ∈ db.matchActions, row.actorUserId = input.userId.toUuid →
      row.revertedAt = none → row.createdAt < input.now) (tie : ℕ) (now : Timestamp) :
    undoLastAction input.userId.toUuid tie now db' =
      .ok (some (undoneAction input db.nextRowId now), { db with
        matchActions := db.matchActions ++ [undoneAction input db.nextRowId now]
        nextRowId := db.nextRowId + 1 }) := by
  rcases actOnCandidate_cases hcall with ⟨existing, -, -, rfl, -⟩ | ⟨hnew, hcreate⟩
  · -- A repeated action creates nothing.
    unfold replayedResult at hcreated
    split at hcreated <;> cases hcreated
  obtain ⟨huser, hpaid, rfl⟩ := createAction_unmatched hcreate hmatched
  have hfresh := findActiveAction_eq_none.1 hnew
  have hunliked : ¬ Liked db input.userId.toUuid input.targetUserId.toUuid := by
    rw [h.liked_iff]
    rintro ⟨row, hrow, hactive, -⟩
    exact hfresh row hrow hactive
  have hlatest : lastAction input.userId.toUuid tie
      (afterAction input (chargedBalances input db) db) =
        some (createdAction input db.nextRowId) := by
    apply latest_of_above
    · rw [List.mem_filter]
      refine ⟨List.mem_append_right _ (List.mem_singleton_self _), ?_⟩
      exact decide_eq_true ⟨rfl, rfl⟩
    · intro row hrow hne
      rw [List.mem_filter, decide_eq_true_eq] at hrow
      obtain ⟨hmem, hactor, hactive⟩ := hrow
      rcases List.mem_append.1 hmem with hold | hcreated
      · exact hlast row hold hactor hactive
      · exact absurd (List.mem_singleton.1 hcreated) hne
  have hclaimed : updateWhere (fun row => row.id = (createdAction input db.nextRowId).id ∧
        row.revertedAt = none) (fun row => { row with revertedAt := some now })
      (db.matchActions ++ [createdAction input db.nextRowId]) =
        db.matchActions ++ [undoneAction input db.nextRowId now] := by
    -- The identifiers of older actions are below the one that was drawn.
    have hkept : updateWhere (fun row => row.id = (createdAction input db.nextRowId).id ∧
        row.revertedAt = none) (fun row => { row with revertedAt := some now }) db.matchActions =
          db.matchActions := by
      apply updateWhere_of_forall_not
      intro row hrow hsame
      rw [decide_eq_true_eq] at hsame
      exact (h.actions_drawn row hrow).ne hsame.1
    have hcreated : (createdAction input db.nextRowId).id = (createdAction input db.nextRowId).id ∧
        (createdAction input db.nextRowId).revertedAt = none := ⟨rfl, rfl⟩
    unfold updateWhere at hkept ⊢
    rw [List.map_append, hkept, List.map_singleton, if_pos (decide_eq_true hcreated)]
    rfl
  have hunmatched : findMatch (orderedMatchingPair input.userId.toUuid.toUuidText
      input.targetUserId.toUuid.toUuidText) db = none := by
    rw [orderedMatchingPair_toUuidText]
    apply lookup_eq_none.2
    intro row hrow hpair
    exact hunliked (h.matched row hrow _ _ hpair).1
  have hreleased := releaseLike_afterAction (db.matchActions ++
    [undoneAction input db.nextRowId now]) hbalances huser hpaid hunliked
  rw [← hclaimed] at hreleased
  unfold undoLastAction
  rw [hlatest]
  simp only [bind_eq_ok_iff, throwIf_eq_ok_iff, pure_eq_ok_iff]
  refine ⟨(), fun hfound => hfound hunmatched, _, hreleased, ?_⟩
  rw [hclaimed]
  rfl

/-! ### Undos at the same time -/

variable {c c₁ c₂ c₃ : Config MatchingState MatchingRequest Failure MatchingAnswer}

theorem LikeInvariant.toUserInvariant (h : LikeInvariant db) : UserInvariant userId none db where
  drawn row hrow := h.actions_drawn row (List.mem_of_mem_filter hrow)
  unique := h.unique_actions.sublist (List.filter_sublist.map _)
  likes _ hmost := nomatch hmost

/-- What is reverted stays in the log until any later state. -/
theorem onward_of_reachable {limit : Option ℕ} (hinv : UserInvariant userId limit db)
    (hfirst : Reachable (userSystem userId limit) anyStep (matchingAtRest db) c₂)
    (hrun : Reachable (userSystem userId limit) anyStep c₂ c₃) :
    Onward userId c₂.state.committed c₃.state.committed := by
  have hgood := good_user hinv hfirst
  apply Logic.Sound.relates (fun before after => Onward userId before.committed after.committed)
    (userGuard_sound userId limit) hgood hrun
  · exact fun _ => Onward.refl userId _
  · exact fun h h' => h.trans h'
  · exact fun _ hsteps => hsteps.grows
  · intro before after _ haround
    refine ⟨haround.drawn, fun row hrow _ => ?_⟩
    rwa [haround.actions]
  · exact fun _ _ => Onward.refl userId _

/-- Two undos of a run revert different actions: the one that was reverted first is in the log,
and no longer active. -/
theorem reverted_once {limit : Option ℕ} (hinv : UserInvariant userId limit db)
    {action action' : MatchAction} {after : Database}
    (hfirst : Reachable (userSystem userId limit) anyStep (matchingAtRest db) c₂)
    (hreverts : Reverts userId action c₁.state.committed c₂.state.committed)
    (hbetween : Reachable (userSystem userId limit) anyStep c₂ c₃)
    (hreverts' : Reverts userId action' c₃.state.committed after) : action.id ≠ action'.id := by
  intro hsame
  obtain ⟨now, hactions⟩ := hreverts.actions
  have hreverted : revertedAction now action ∈ actionsOf userId c₂.state.committed := by
    rw [hactions]
    refine mem_updateWhere.2 (Or.inl ⟨action, hreverts.active.1, ?_, rfl⟩)
    exact decide_eq_true ⟨rfl, hreverts.active.2⟩
  have honward := onward_of_reachable hinv hfirst hbetween
  have hkept := honward.reverted _ hreverted (Option.some_ne_none now)
  have hunique := (good_user hinv (hfirst.trans hbetween)).invariant.2.unique
  have heq : revertedAction now action = action' :=
    hunique.eq_of_key hkept hreverts'.active.1 hsame
  have hactive := hreverts'.active.2
  rw [← heq] at hactive
  cases hactive

/-- **Undo.** After any run of calls, an undo right after a new action that gave no match restores
the state, but for the log and the identifier; and from there on, undos of the user that run at the
same time revert an action, and give back its superlike, once. -/
theorem undo_inverse (hempty : EmptyTables start) (requests : List Request)
    (hdb : db = run execute requests start) :
    (∀ input result db₁, actOnCandidate input db = .ok (result, db₁) → result.created = true →
      result.matched = false →
      (∀ row ∈ db.matchActions, row.actorUserId = input.userId.toUuid → row.revertedAt = none →
        row.createdAt < input.now) →
      ∀ tie now, undoLastAction input.userId.toUuid tie now db₁ =
        .ok (some (undoneAction input db.nextRowId now), { db with
          matchActions := db.matchActions ++ [undoneAction input db.nextRowId now]
          nextRowId := db.nextRowId + 1 })) ∧
    ∀ userId c, Reachable (userSystem userId none) anyStep (matchingAtRest db) c →
      (∀ pid thread, c.threads[pid]? = some thread →
        Outcomes (userSystem userId none) anyStep userConduct (callLands userId) callSilent
          (matchingAtRest db) c pid thread) ∧
      ∀ pid pid' c₁ c₂ c₃ c₄ action action',
        Reachable (userSystem userId none) anyStep (matchingAtRest db) c₁ → Moves pid c₁ c₂ →
        Reverts userId action c₁.state.committed c₂.state.committed →
        Reachable (userSystem userId none) anyStep c₂ c₃ → Moves pid' c₃ c₄ →
        Reverts userId action' c₃.state.committed c₄.state.committed → action.id ≠ action'.id := by
  subst hdb
  have hpair := pairInvariant_run hempty requests
  have hbalances := (creditInvariant_run hempty requests).unique_balances
  refine ⟨?_, fun userId c hrun => ⟨?_, ?_⟩⟩
  · intro input result db₁ hcall hcreated hmatched hlast tie now
    exact undo_restores hpair hbalances hcall hcreated hmatched hlast tie now
  · intro pid thread hthread
    exact user_outcomes hpair.toUserInvariant hrun hthread
  · intro pid pid' c₁ c₂ c₃ c₄ action action' hfirst hmoves hreverts hbetween _ hreverts'
    have hsecond := hfirst.tail ⟨hmoves.step, trivial⟩
    exact reverted_once hpair.toUserInvariant hsecond hreverts hbetween hreverts'

/-- The buyer likes the candidate and takes it back. -/
theorem undo_inverse_like : ∃ db₁ db₂ : Database,
    actOnCandidate (likeOf buyer candidate 1) pairOnly = .ok (⟨false, none, none, true⟩, db₁) ∧
      undoLastAction buyer.toUuid 0 2 db₁ =
        .ok (some (undoneAction (likeOf buyer candidate 1) 0 2), db₂) ∧
      db₁.userLikes ≠ [] ∧ db₂.userLikes = [] := by
  have hempty : EmptyTables pairOnly := by
    constructor <;> rfl
  have hact : actOnCandidate (likeOf buyer candidate 1) pairOnly =
      .ok (⟨false, none, none, true⟩, afterAction (likeOf buyer candidate 1) [] pairOnly) := rfl
  have hundo := (undo_inverse hempty [] rfl).1 (likeOf buyer candidate 1) _ _ hact rfl rfl
    (fun row hrow => absurd hrow List.not_mem_nil) 0 2
  exact ⟨_, _, hact, hundo, List.cons_ne_nil _ _, rfl⟩

end ChatTea.Matching
