import Mathlib
import ChatTea.Lib.Guarded
import ChatTea.Lib.Outcomes
import ChatTea.Matching.Statements

/-!
# Boosts do not overlap

The boosts of a user are activated by calls that run next to each other and to purchases, with
clocks that need not agree. The balance that a call has charged stays locked until the call
ends, so that what it has read about the boosts of the user is true when it commits.

## Main definitions

* `BoostsDisjoint` — no two boosts of a user overlap
* `Activates` — what an activation does
* `boostSystem` — the activations of a user, next to everything else

## Main results

* `boosts_disjoint` — in every run the boosts do not overlap, each success charges one credit
  and stores one boost, and each failure changes nothing
* `purchase_around` — a purchase or a refund is a move of the rest of the service
-/

namespace ChatTea.Matching

open Interleaving ReadCommitted RowLocks Statements Table Transaction
open Billing

variable {userId : Uuid} {now : Timestamp} {db db' : Database} {pid : ℕ}

/-! ### The boosts of a user -/

def boostsOf (userId : Uuid) (db : Database) : List UserBoost :=
  db.userBoosts.filter fun row => row.userId = userId

/-- The time in which a boost is active. -/
def boostInterval (row : UserBoost) : Set Timestamp := Set.Ico row.startsAt row.endsAt

/-- No two boosts of a user overlap. -/
def BoostsDisjoint (userId : Uuid) (db : Database) : Prop :=
  (boostsOf userId db).Pairwise fun row row' => Disjoint (boostInterval row) (boostInterval row')

/-- The boost that an activation stores. -/
def activatedBoost (userId : Uuid) (now : Timestamp) : UserBoost :=
  { userId, startsAt := now, endsAt := now + boostDuration }

/-- An activation finds a credit, charges it, and stores one boost. -/
structure Activates (userId : Uuid) (now : Timestamp) (result : BoostResult)
    (before after : Database) : Prop where
  found : 0 < creditsIn before.userConsumableBalances userId .boost
  credits : ∀ user credit, creditsIn after.userConsumableBalances user credit =
    creditsIn before.userConsumableBalances user credit -
      if user = userId ∧ credit = .boost then 1 else 0
  boosts : after.userBoosts = before.userBoosts ++ [activatedBoost userId now]
  endsAt : result.endsAt = now + boostDuration

theorem boostsOf_append (hboosts : db'.userBoosts = db.userBoosts ++ [activatedBoost userId now]) :
    boostsOf userId db' = boostsOf userId db ++ [activatedBoost userId now] := by
  unfold boostsOf
  rw [hboosts, List.filter_append]
  simp [activatedBoost]

/-- A boost that starts when no other is active overlaps none, whenever they were stored. -/
theorem BoostsDisjoint.append (h : BoostsDisjoint userId db)
    (hinactive : ∀ row ∈ boostsOf userId db, row.endsAt ≤ now)
    (hboosts : db'.userBoosts = db.userBoosts ++ [activatedBoost userId now]) :
    BoostsDisjoint userId db' := by
  unfold BoostsDisjoint
  rw [boostsOf_append hboosts, List.pairwise_append]
  refine ⟨h, List.pairwise_singleton _ _, ?_⟩
  intro row hrow row' hrow'
  obtain rfl := List.mem_singleton.1 hrow'
  have hended : row.endsAt ≤ now := hinactive row hrow
  unfold boostInterval activatedBoost
  rw [Set.disjoint_left]
  intro time htime htime'
  rw [Set.mem_Ico] at htime htime'
  exact absurd (lt_of_lt_of_le htime.2 hended) (not_lt.2 htime'.1)

/-! ### What an activation writes -/

/-- The writes of an activation, up to its commit. -/
def boostWrites (userId : Uuid) (now : Timestamp) : Pending Database Failure :=
  (unwritten.andThen fun db => Prod.snd <$> spendBoost userId db).andThen
    (insertBoost (activatedBoost userId now))

theorem spendBoost_ok {balance : ConsumableBalance}
    (h : spendBoost userId db = .ok (balance, db')) :
    returning (hasBoost userId) takeBoost db.userConsumableBalances ≠ [] ∧
      db' = { db with
        userConsumableBalances :=
          updateWhere (hasBoost userId) takeBoost db.userConsumableBalances } := by
  unfold spendBoost at h
  split at h
  next => cases h
  next hreturned =>
    rw [hreturned]
    have hpair := pure_eq_ok_iff.1 h
    rw [Prod.mk.injEq] at hpair
    exact ⟨List.cons_ne_nil _ _, hpair.2.symm⟩

theorem map_ok {α β : Type} {f : α → β} {outcome : Except Failure α} {value : β}
    (h : f <$> outcome = .ok value) : ∃ result, outcome = .ok result ∧ f result = value := by
  cases outcome with
  | ok result => exact ⟨result, rfl, Except.ok.inj h⟩
  | error failure => cases h

/-- What the commit of an activation makes visible. -/
theorem boostWrites_ok (h : boostWrites userId now db = .ok db') :
    returning (hasBoost userId) takeBoost db.userConsumableBalances ≠ [] ∧
      db' = { db with
        userConsumableBalances :=
          updateWhere (hasBoost userId) takeBoost db.userConsumableBalances
        userBoosts := db.userBoosts ++ [activatedBoost userId now] } := by
  unfold boostWrites Pending.andThen unwritten at h
  obtain ⟨charged, hcharged, hinsert⟩ := bind_eq_ok_iff.1 h
  obtain ⟨_, hdb, hspent⟩ := bind_eq_ok_iff.1 hcharged
  obtain rfl := Except.ok.inj hdb
  obtain ⟨⟨balance, charged'⟩, hspend, rfl⟩ := map_ok hspent
  obtain ⟨hreturned, rfl⟩ := spendBoost_ok hspend
  exact ⟨hreturned, (Except.ok.inj hinsert).symm⟩

theorem activates_of_ok {result : BoostResult} (hendsAt : result.endsAt = now + boostDuration)
    (hunique : UniqueKey ConsumableBalance.userId db.userConsumableBalances)
    (h : boostWrites userId now db = .ok db') : Activates userId now result db db' := by
  obtain ⟨hreturned, rfl⟩ := boostWrites_ok h
  obtain ⟨row, hrow, hrowboost⟩ := returning_ne_nil.1 hreturned
  have hcharged := chargedOne_boost hunique hreturned
  refine ⟨?_, hcharged.credits, rfl, hendsAt⟩
  -- The row that is charged is the one row of the user.
  rw [hasBoost, decide_eq_true_eq] at hrowboost
  have hfound := hunique.lookup_of_mem hrow
  rw [hrowboost.1] at hfound
  unfold creditsIn
  simp only [hfound]
  exact hrowboost.2

theorem key_mem_boostedRows {balance : ConsumableBalance}
    (h : Prod.fst <$> spendBoost userId db = .ok balance) :
    .balance userId ∈ boostedRows userId db := by
  obtain ⟨⟨_, db'⟩, hspend, -⟩ := map_ok h
  obtain ⟨row, hrow, hrowboost⟩ := returning_ne_nil.1 (spendBoost_ok hspend).1
  unfold boostedRows
  rw [if_pos (List.any_eq_true.2 ⟨row, hrow, hrowboost⟩)]
  exact List.mem_singleton_self _

/-! ### The system -/

/-- The rest of the service: it does not touch the boosts of the user. The balances may change
in any way, as they do with purchases and refunds. -/
structure AroundBoosts (userId : Uuid) (before after : MatchingState) : Prop where
  boosts : boostsOf userId after.committed = boostsOf userId before.committed
  unique : UniqueKey ConsumableBalance.userId before.committed.userConsumableBalances →
    UniqueKey ConsumableBalance.userId after.committed.userConsumableBalances
  locks : after.locks = before.locks
  log : after.log = before.log

/-- A purchase or a refund is a move of the rest of the service. -/
theorem purchase_around {w : MatchingState} {input : RevenueCatEventInput}
    {result : RevenueCatApplyResult} (userId : Uuid)
    (h : applyRevenueCatEvent input w.committed = .ok (result, db')) :
    AroundBoosts userId w { w with committed := db' } := by
  suffices hwrites : db'.userBoosts = w.committed.userBoosts ∧
      (UniqueKey ConsumableBalance.userId w.committed.userConsumableBalances →
        UniqueKey ConsumableBalance.userId db'.userConsumableBalances) by
    refine ⟨?_, hwrites.2, rfl, rfl⟩
    unfold boostsOf
    rw [hwrites.1]
  rcases applyRevenueCatEvent_cases h with ⟨-, -, rfl⟩ | ⟨-, hdetail⟩
  · exact ⟨rfl, id⟩
  rcases hdetail with ⟨-, -, rfl⟩ | ⟨user, subscription, -, hsubscription⟩ |
    ⟨transition, -, htransition⟩
  · exact ⟨rfl, id⟩
  · obtain ⟨subscriptions, nextRowId, -, rfl⟩ := applySubscription_writes hsubscription
    exact ⟨rfl, id⟩
  · exact (transition_matching htransition).2

/-- The activations of a user. -/
def MatchingRequest.BoostsOf (userId : Uuid) : MatchingRequest → Prop
  | .activateBoost user _ => user = userId
  | _ => False

def boostSystem (userId : Uuid) : System MatchingState MatchingRequest Failure MatchingAnswer where
  code := matchingCode
  accepts request := request.BoostsOf userId
  environment := AroundBoosts userId
  rollback pid w := w.finish pid w.committed [.ended]

/-- The balance of the user is the lock that guards the boosts. -/
def boostGuard (userId : Uuid) : Guard Database MatchingLock MatchingEvent (List UserBoost) where
  key := .balance userId
  mode := .noKeyUpdate
  conflicts := rfl
  part := boostsOf userId
  invariant db := BoostsDisjoint userId db ∧
    UniqueKey ConsumableBalance.userId db.userConsumableBalances
  grows _ _ := True
  grows_refl _ := trivial
  grows_trans _ _ := trivial

/-- Every boost of the user has ended. -/
def NoActiveBoost (userId : Uuid) (now : Timestamp) (db : Database) : Prop :=
  ∀ row ∈ boostsOf userId db, row.endsAt ≤ now

theorem local_true : (boostGuard userId).Local fun _ => True := fun _ _ _ _ _ => trivial

theorem local_noActiveBoost : (boostGuard userId).Local (NoActiveBoost userId now) := by
  intro s s' _ hpart hinactive
  unfold NoActiveBoost
  rw [show boostsOf userId s' = boostsOf userId s from hpart]
  exact hinactive

/-- A check that finds no active boost, in what the transaction sees. -/
theorem noActiveBoost_of_check {balance : ConsumableBalance}
    (hspend : spendBoost userId db = .ok (balance, db'))
    (hcheck : hasActiveBoost userId now db' = false) : NoActiveBoost userId now db := by
  obtain ⟨-, rfl⟩ := spendBoost_ok hspend
  intro row hrow
  unfold boostsOf at hrow
  rw [List.mem_filter, decide_eq_true_eq] at hrow
  unfold hasActiveBoost at hcheck
  rw [List.any_eq_false] at hcheck
  have hinactive := hcheck row hrow.1
  rw [decide_eq_true_eq] at hinactive
  by_contra hactive
  exact hinactive ⟨hrow.2, not_le.1 hactive⟩

section Holds

variable {request : MatchingRequest} {requires : MatchingRequest → Prop} {w : MatchingState}

/-- Once the balance is charged, the boosts that the call reads are those it commits next to. -/
theorem holds_activateBoost (userId : Uuid) (now : Timestamp) :
    ((boostGuard userId).logic requires : Logic _ _ _ MatchingAnswer).Holds request pid
      (Statements.activateBoost userId now) (fun _ _ => True) (fun _ _ => True) w := by
  apply Guard.holds_take_ends (fun _ _ => True)
  · exact fun _ _ _ => trivial
  · exact fun _ => local_true
  · intro s balance _ hbalance
    exact ⟨rfl, key_mem_boostedRows hbalance, trivial⟩
  · simp
  intro balance
  let Checked (active : Bool) (s : Database) : Prop := active = false → NoActiveBoost userId now s
  apply Guard.ends_evaluate Checked local_true
  · exact fun active s s' hgrows hpart h hactive =>
      local_noActiveBoost s s' hgrows hpart (h hactive)
  · intro s active _ _ hread hactive
    obtain ⟨seen, hseen, hlook⟩ := bind_eq_ok_iff.1 hread
    obtain ⟨_, hdb, hspent⟩ := bind_eq_ok_iff.1 hseen
    obtain rfl := Except.ok.inj hdb
    obtain ⟨⟨_, _⟩, hspend, rfl⟩ := map_ok hspent
    exact noActiveBoost_of_check hspend ((Except.ok.inj hlook).trans hactive)
  · simp
  intro active
  apply Guard.ends_check
  intro _ hactive
  have hinactive : active = false := by
    rw [throwIf_eq_ok_iff, Bool.not_eq_true] at hactive
    exact hactive
  apply Guard.Ends.of_known fun s hchecked => hchecked hinactive
  apply Guard.ends_writing local_noActiveBoost
  apply Guard.Ends.answer
  apply Guard.ends_commitWrites local_noActiveBoost
  intro s s' hinv hnone hwrites
  obtain ⟨-, rfl⟩ := boostWrites_ok hwrites
  have hkey (row : ConsumableBalance) : (takeBoost row).userId = row.userId := rfl
  exact ⟨⟨hinv.1.append hnone rfl, hinv.2.updateWhere hkey⟩, trivial, fun _ _ => trivial⟩

end Holds

theorem boostGuard_sound (userId : Uuid) :
    ((boostGuard userId).logic (boostSystem userId).accepts).Sound (boostSystem userId) := by
  apply Guard.sound _ _ [.ended] fun _ _ => rfl
  · intro request pid w hboosts
    cases request with
    | activateBoost user now =>
        obtain rfl : user = userId := hboosts
        apply Logic.Holds.bind
        exact (holds_activateBoost user now).mono
          (fun _ _ _ _ => Logic.holds_pure fun _ _ _ => trivial) fun _ _ _ h => h
    | actOnCandidate input => exact hboosts.elim
    | blockUser blockerUserId blockedUserId => exact hboosts.elim
    | undoLastAction user => exact hboosts.elim
  · intro before after haround
    refine ⟨haround.boosts, trivial, ?_, haround.locks⟩
    intro hinv
    refine ⟨?_, haround.unique hinv.2⟩
    unfold BoostsDisjoint
    rw [haround.boosts]
    exact hinv.1

/-! ### One change -/

/-- A balance a user has is one row, and a step that makes no change leaves all as it is. -/
def boostConduct : Conduct MatchingState Failure :=
  conduct (fun db => UniqueKey ConsumableBalance.userId db.userConsumableBalances)
    (fun before after => after = before) (fun _ => rfl) fun _ => True

/-- What the calls of a user do. -/
def boostLands (userId : Uuid) : MatchingRequest → MatchingAnswer → MatchingState → MatchingState → Prop
  | .activateBoost _ now, .boosted result, before, after =>
      Activates userId now result before.committed after.committed
  | _, _, _, _ => False

theorem lands_activateBoost (userId : Uuid) (now : Timestamp) :
    (Statements.activateBoost userId now).Lands boostConduct
      (fun result before after => Activates userId now result before.committed after.committed)
      (fun _ => False) pid := by
  apply lands_inTransaction
  apply lands_evaluate fun _ _ _ _ => trivial
  intro _ balance _ _
  apply lands_evaluate fun _ _ _ _ => trivial
  intro _ active _ _
  apply lands_check fun _ _ => trivial
  intro _ _
  apply lands_writing fun _ _ _ _ => trivial
  apply lands_commitWrites _ fun _ _ _ _ => trivial
  intro w s hunique hwrites
  exact Or.inr (activates_of_ok rfl hunique hwrites)

theorem lands_boostCode {request : MatchingRequest} (hrequest : request.BoostsOf userId) :
    (matchingCode request).Lands boostConduct (boostLands userId request) (fun _ => False) pid := by
  cases request with
  | activateBoost user now =>
      obtain rfl : user = userId := hrequest
      exact (lands_activateBoost user now).answer (fun _ h => h) fun _ _ _ h => h
  | actOnCandidate input => exact hrequest.elim
  | blockUser blockerUserId blockedUserId => exact hrequest.elim
  | undoLastAction user => exact hrequest.elim

/-- **Boosts do not overlap.** In every run the boosts of the user are disjoint, and a call that
succeeds has charged one credit and stored one boost, while a call that fails has changed
nothing. -/
theorem boosts_disjoint {c : Config MatchingState MatchingRequest Failure MatchingAnswer}
    (hdisjoint : BoostsDisjoint userId db)
    (hunique : UniqueKey ConsumableBalance.userId db.userConsumableBalances)
    (hrun : Reachable (boostSystem userId) anyStep (matchingAtRest db) c) :
    BoostsDisjoint userId c.state.committed ∧
      ∀ pid thread, c.threads[pid]? = some thread →
        Outcomes (boostSystem userId) anyStep boostConduct (boostLands userId)
          (fun _ _ => False) (matchingAtRest db) c pid thread := by
  have hsound := boostGuard_sound userId
  have hgood {c : Config MatchingState MatchingRequest Failure MatchingAnswer}
      (hrun : Reachable (boostSystem userId) anyStep (matchingAtRest db) c) :=
    Guard.invariant_of_reachable hsound ⟨hdisjoint, hunique⟩ hrun
  have hwithin (c : Config MatchingState MatchingRequest Failure MatchingAnswer)
      (hrun : Reachable (boostSystem userId) anyStep (matchingAtRest db) c) :
      boostConduct.within c.state := (hgood hrun).invariant.2.2
  refine ⟨(hgood hrun).invariant.2.1, fun pid thread hthread => ?_⟩
  have haccepted : thread.request.BoostsOf userId :=
    hrun.accepted (fun _ _ => lands_boostCode) hwithin hthread
  exact hrun.outcomes (fun _ _ => lands_boostCode) hwithin (Nat.zero_le _) hthread haccepted

/-- A call is refused while a boost is active, and the charge is taken back. -/
theorem runs_boostRefused {w : MatchingState} {pid : ℕ} {now : Timestamp}
    {balance : ConsumableBalance} {charged : Database} (hlocks : w.locks = [])
    (hspend : Statements.spendBoost userId w.committed = .ok (balance, charged))
    (hactive : Statements.hasActiveBoost userId now charged) :
    Runs anyStep pid (Statements.activateBoost userId now) w
      (.fail (.error "BOOST_ALREADY_ACTIVE"))
      ((w.enter pid .noKeyUpdate (Statements.boostedRows userId w.committed) []).finish pid
        w.committed [.ended]) := by
  let locked := w.enter pid .noKeyUpdate (Statements.boostedRows userId w.committed) []
  have hfree : ∀ row ∈ Statements.boostedRows userId w.committed,
      RowLocks.Free w.locks pid .noKeyUpdate row := by
    rw [hlocks]
    exact fun _ _ => RowLocks.free_of_alone fun _ hlock => absurd hlock List.not_mem_nil
  have hcharge : (unwritten w.committed >>= fun db =>
      Prod.fst <$> Statements.spendBoost userId db) = .ok balance := by
    change Prod.fst <$> Statements.spendBoost userId w.committed = _
    rw [hspend]
    rfl
  have hlook : (unwritten.andThen (fun db => Prod.snd <$> Statements.spendBoost userId db)
      locked.committed >>= fun db => .ok (Statements.hasActiveBoost userId now db)) =
        (.ok true : Except Failure Bool) := by
    change (Prod.snd <$> Statements.spendBoost userId w.committed >>= fun db =>
      .ok (Statements.hasActiveBoost userId now db)) = _
    rw [hspend, ← hactive]
    rfl
  have hbody : Runs anyStep pid (Statements.activateBoost userId now) w
      (inTransaction [.ended] (throw (.error "BOOST_ALREADY_ACTIVE"))) locked := by
    refine Runs.tryCatch ?_ _
    apply (Runs.bind (performs_evaluate hfree hcharge) _).trans
    exact Runs.bind (performs_evaluate (fun _ hrow => absurd hrow List.not_mem_nil) hlook) _
  exact hbody.trans (.step () _ rfl trivial .refl)

/-- The buyer has one boost credit left, and a boost since 1. -/
def boostedOnce : Database :=
  { pairOnly with
    userConsumableBalances :=
      [{ userId := buyer.toUuid, superLikeCredits := 0, boostCredits := 1 }]
    userBoosts := [activatedBoost buyer.toUuid 1] }

/-- The next boost begins where the first one ends. -/
def boostedTwice : Database :=
  { pairOnly with
    userConsumableBalances :=
      [{ userId := buyer.toUuid, superLikeCredits := 0, boostCredits := 0 }]
    userBoosts := [activatedBoost buyer.toUuid 1, activatedBoost buyer.toUuid (1 + boostDuration)] }

/-- A call while the boost is active is refused, and one at its end activates the next. -/
theorem boosts_disjoint_activated :
    ∃ c : Config MatchingState MatchingRequest Failure MatchingAnswer,
      Reachable (boostSystem buyer.toUuid) anyStep (matchingAtRest boostedOnce) c ∧
      c.threads = [⟨.activateBoost buyer.toUuid 2, .fail (.error "BOOST_ALREADY_ACTIVE")⟩,
        ⟨.activateBoost buyer.toUuid (1 + boostDuration),
          .done (.boosted ⟨1 + boostDuration + boostDuration, 0⟩)⟩] ∧
      boostsOf buyer.toUuid c.state.committed =
        [activatedBoost buyer.toUuid 1, activatedBoost buyer.toUuid (1 + boostDuration)] ∧
      BoostsDisjoint buyer.toUuid c.state.committed := by
  let boosts := boostSystem buyer.toUuid
  let boosted : BoostResult → MatchingProg MatchingAnswer := fun result => pure (.boosted result)
  have hidle : Reachable boosts anyStep (matchingAtRest boostedOnce) ⟨.ofCommitted boostedOnce, []⟩ :=
    Relation.ReflTransGen.refl
  have haccepts (now : Timestamp) : boosts.accepts (.activateBoost buyer.toUuid now) := rfl
  let refused : MatchingState :=
    ((Shared.ofCommitted boostedOnce : MatchingState).enter 0 .noKeyUpdate
      (Statements.boostedRows buyer.toUuid boostedOnce) []).finish 0 boostedOnce [.ended]
  have hcharge : Statements.spendBoost buyer.toUuid boostedOnce =
      .ok (⟨buyer.toUuid, 0, 0⟩, { boostedOnce with
        userConsumableBalances := [⟨buyer.toUuid, 0, 0⟩] }) := by rfl
  have hrefused : Runs anyStep 0 (Statements.activateBoost buyer.toUuid 2)
      (.ofCommitted boostedOnce) (.fail (.error "BOOST_ALREADY_ACTIVE")) refused :=
    runs_boostRefused rfl hcharge rfl
  have hfirst := hidle.serve (haccepts 2) trivial (hrefused.bind boosted)
  have halone : Alone 1 boostedOnce boostedOnce.nextRowId refused :=
    ⟨rfl, fun _ hlock => absurd hlock List.not_mem_nil⟩
  have hactivate : Matching.activateBoost buyer.toUuid (1 + boostDuration) boostedOnce =
      .ok (⟨1 + boostDuration + boostDuration, 0⟩, boostedTwice) := by rfl
  obtain ⟨w, hperforms, hcommitted⟩ := performs_activateBoost halone hactivate
  have hsecond := hfirst.serve (haccepts (1 + boostDuration)) trivial (Runs.bind hperforms boosted)
  have hdisjoint : BoostsDisjoint buyer.toUuid boostedOnce := List.pairwise_singleton _ _
  have hunique : UniqueKey ConsumableBalance.userId boostedOnce.userConsumableBalances :=
    List.nodup_singleton _
  refine ⟨_, hsecond, rfl, ?_, (boosts_disjoint hdisjoint hunique hsecond).1⟩
  change boostsOf buyer.toUuid w.committed = _
  rw [hcommitted]
  rfl

end ChatTea.Matching
