import ChatTea.Users.Rules
import ChatTea.Users.Service
import Mathlib.Data.List.Forall2

/-!
# The life cycle of an account

Scheduling, restoring, claiming, releasing and erasing run interleaved, statement
by statement, for any accounts, lease values and clocks. Whatever their order, a
scheduled account is hidden, a leased one is scheduled, a deleted one stays as it
is, and an account is erased only under its current schedule and lease.

## Main definitions

* `AccountRequest`, `deletionSystem` — the calls and the system they run in
* `LifeCycle` — what holds of every `users` row
* `Evolves` — what one step may do to a `users` row

## Main results

* `sound` — every program keeps the life cycle and evolves rows only
* `account_life_cycle` — the life cycle holds in every run
-/

namespace ChatTea.Users

open Interleaving RowLocks Table Transaction

/-! ### The system -/

inductive AccountRequest where
  | scheduleDeletion (userId : UuidText) (scheduledFor : Timestamp)
  | beginAccountDeletion (userId : UuidText)
  | restoreScheduledDeletion (userId : UuidText) (now : Timestamp)
  | restoreIfWithinGrace (userId : UuidText)
  | claimDueDeletionBatch (input : ClaimDeletionInput)
  | releaseDeletionLease (input : DeletionJobInput)
  | anonymizeDeletedAccount (input : DeletionJobInput)
  | processDueAccountDeletionBatch (now : Timestamp) (limit : ℕ)
  | deletionJob (input : DeletionJobInput)

inductive AccountReply where
  | deadline (scheduledFor : Timestamp)
  | restored (found : Bool)
  | claim (claim : DeletionClaim)
  | done

def accountCode : AccountRequest → Prog World AccountRequest Failure AccountReply
  | .scheduleDeletion userId scheduledFor => do
      return .deadline (← scheduleDeletion userId scheduledFor)
  | .beginAccountDeletion userId => do return .deadline (← beginAccountDeletion userId)
  | .restoreScheduledDeletion userId now => do
      return .restored (← statement (restoreScheduledDeletion userId now))
  | .restoreIfWithinGrace userId => do return .restored (← restoreIfWithinGrace userId)
  | .claimDueDeletionBatch input => do return .claim (← claimDeletions input)
  | .releaseDeletionLease input => do
      statement (releaseDeletionLease input)
      return .done
  | .anonymizeDeletedAccount input => do
      anonymizeDeletedAccount input
      return .done
  | .processDueAccountDeletionBatch now limit => do
      return .claim (← processDueAccountDeletionBatch .deletionJob now limit)
  | .deletionJob input => do
      deletionJob input
      return .done

/-- Any number of calls with any arguments, in any order. -/
def deletionSystem : System World AccountRequest Failure AccountReply where
  code := accountCode
  accepts := fun _ => True
  environment := fun _ _ => False
  rollback := World.rollback

/-- The erasure a call may carry out. -/
def AccountRequest.erasure : AccountRequest → Option DeletionJobInput
  | .anonymizeDeletedAccount input => some input
  | .deletionJob input => some input
  | _ => none

/-! ### Rows -/

/-- A scheduled account is hidden, a leased one scheduled, a deleted one hidden
for good. -/
structure LifeCycle (user : User) : Prop where
  hidden_of_scheduled : user.deletionScheduledAt ≠ none → user.hiddenAt ≠ none
  scheduled_of_leased : user.deletionLeaseExpiresAt ≠ none → user.deletionScheduledAt ≠ none
  hidden_of_deleted : user.deletedAt ≠ none → user.hiddenAt ≠ none
  unscheduled_of_deleted : user.deletedAt ≠ none → user.deletionScheduledAt = none
  unleased_of_deleted : user.deletedAt ≠ none → user.deletionLeaseExpiresAt = none

/-- What one step may do to a row; an erasure is one of the given call. -/
inductive Evolves (erasure : Option DeletionJobInput) (user : User) : User → Prop
  | same : Evolves erasure user user
  | scheduled (now scheduledFor) (alive : user.deletedAt = none)
      (unscheduled : user.deletionScheduledAt = none) :
      Evolves erasure user (scheduleColumns now scheduledFor user)
  | restored (alive : user.deletedAt = none) : Evolves erasure user (restoreColumns user)
  | claimed (leaseExpiresAt) (alive : user.deletedAt = none)
      (scheduled : user.deletionScheduledAt ≠ none) :
      Evolves erasure user (claimColumns leaseExpiresAt user)
  | released (alive : user.deletedAt = none) : Evolves erasure user (releaseColumns user)
  | erased (input) (call : erasure = some input) (current : canAnonymize input user) :
      Evolves erasure user (anonymizeColumns input.now user)

namespace Evolves

variable {erasure : Option DeletionJobInput} {user user' : User}

theorem userId_eq (h : Evolves erasure user user') : user'.userId = user.userId := by
  cases h <;> rfl

theorem lifeCycle (h : Evolves erasure user user') (hcycle : LifeCycle user) : LifeCycle user' := by
  obtain ⟨hhidden, hleased, hdeleted, hgone, hreleased⟩ := hcycle
  cases h with
  | same => exact ⟨hhidden, hleased, hdeleted, hgone, hreleased⟩
  | scheduled now scheduledFor alive unscheduled =>
      constructor <;> simp [scheduleColumns, alive]
  | restored alive => constructor <;> simp [restoreColumns, alive]
  | claimed leaseExpiresAt alive scheduled =>
      constructor <;> simp [claimColumns, alive, hhidden, scheduled]
  | released alive =>
      constructor <;> simp only [releaseColumns, alive, ne_eq, not_true_eq_false, false_implies]
      exact hhidden
  | erased input call current =>
      simp only [canAnonymize, decide_eq_true_eq] at current
      have hscheduled : user.deletionScheduledAt ≠ none := by
        intro hnone
        simp [hnone] at current
      constructor <;> simp [anonymizeColumns, hhidden hscheduled]

/-- A deleted row never changes. -/
theorem eq_of_deleted (h : Evolves erasure user user') (hdeleted : user.deletedAt ≠ none) :
    user' = user := by
  cases h with
  | same => rfl
  | scheduled now scheduledFor alive unscheduled => exact absurd alive hdeleted
  | restored alive => exact absurd alive hdeleted
  | claimed leaseExpiresAt alive scheduled => exact absurd alive hdeleted
  | released alive => exact absurd alive hdeleted
  | erased input call current => simp [canAnonymize, hdeleted] at current

/-- A deadline stays, or the account has none any more. -/
theorem deadline_kept (h : Evolves erasure user user') (hscheduled : user.deletionScheduledAt ≠ none) :
    user'.deletionScheduledAt = user.deletionScheduledAt ∨ user'.deletionScheduledAt = none := by
  cases h with
  | same => exact Or.inl rfl
  | scheduled now scheduledFor alive unscheduled => exact absurd unscheduled hscheduled
  | restored alive => exact Or.inr rfl
  | claimed leaseExpiresAt alive scheduled => exact Or.inl rfl
  | released alive => exact Or.inl rfl
  | erased input call current => exact Or.inr rfl

end Evolves

/-- Every account evolves, and none is created or dropped. -/
structure UsersEvolve (erasure : Option DeletionJobInput) (before after : Database) : Prop where
  rows : Evolve (Evolves erasure) (fun _ => False) before.users after.users
  userIds : after.users.map User.userId = before.users.map User.userId

/-- The account table and the life cycle of its rows. -/
structure AccountInvariant (db : Database) : Prop where
  unique : UniqueKey User.userId db.users
  lifeCycle : ∀ user ∈ db.users, LifeCycle user

section Evolution

variable {erasure : Option DeletionJobInput} {before after : Database}

theorem UsersEvolve.of_users_eq (h : after.users = before.users) :
    UsersEvolve erasure before after where
  rows := by
    rw [h]
    exact Evolve.refl (fun _ => .same) _
  userIds := by rw [h]

theorem UsersEvolve.updateWhere (cond : User → Bool) (set : User → User)
    (hset : ∀ user ∈ before.users, cond user → Evolves erasure user (set user))
    (hkey : ∀ user, (set user).userId = user.userId)
    (hafter : after.users = Table.updateWhere cond set before.users) :
    UsersEvolve erasure before after where
  rows := by
    rw [hafter]
    exact Evolve.updateWhere (fun _ => .same) hset
  userIds := by rw [hafter, map_key_updateWhere hkey]

theorem AccountInvariant.evolve (hinv : AccountInvariant before)
    (h : UsersEvolve erasure before after) : AccountInvariant after where
  unique := by
    have hunique := hinv.unique
    unfold UniqueKey at hunique ⊢
    rwa [h.userIds]
  lifeCycle := by
    intro user huser
    obtain ⟨old, hold, hevolves⟩ | hfresh := h.rows.back user huser
    · exact hevolves.lifeCycle (hinv.lifeCycle old hold)
    · exact hfresh.elim

/-- The accounts before and after a step agree on who they are. -/
theorem UsersEvolve.evolves (h : UsersEvolve erasure before after) (hinv : AccountInvariant before)
    {user user' : User} (huser : user ∈ before.users) (huser' : user' ∈ after.users)
    (hsame : user'.userId = user.userId) : Evolves erasure user user' :=
  h.rows.step_of_key (hinv.evolve h).unique Evolves.userId_eq huser huser' hsame

end Evolution

/-! ### What each call does -/

section Calls

variable {erasure : Option DeletionJobInput} {db db' : Database}

theorem restoreScheduledDeletion_evolves {userId : UuidText} {now : Timestamp} {found : Bool}
    (h : restoreScheduledDeletion userId now db = .ok (found, db')) :
    UsersEvolve erasure db db' := by
  obtain ⟨-, rfl⟩ := Prod.mk.inj (Except.ok.inj h)
  refine UsersEvolve.updateWhere (canRestore userId.toUuid now) restoreColumns
    (fun user _ hcond => .restored ?_) (fun _ => rfl) rfl
  simp only [canRestore, decide_eq_true_eq] at hcond
  exact hcond.2.2

theorem claimDueDeletionBatch_evolves {input : ClaimDeletionInput} {candidates : List Uuid}
    {claim : DeletionClaim} (hinv : AccountInvariant db)
    (hcandidates : DeletionCandidates input db candidates)
    (h : claimDueDeletionBatch input candidates db = .ok (claim, db')) :
    UsersEvolve erasure db db' := by
  unfold claimDueDeletionBatch at h
  split at h
  · obtain ⟨-, rfl⟩ := Prod.mk.inj (Except.ok.inj h)
    exact .of_users_eq rfl
  · obtain ⟨-, rfl⟩ := Prod.mk.inj (Except.ok.inj h)
    refine UsersEvolve.updateWhere (fun user => user.userId ∈ candidates)
      (claimColumns input.leaseExpiresAt) (fun user huser hcond => ?_) (fun _ => rfl) rfl
    obtain ⟨due, hdue, hsame, hcond'⟩ := hcandidates.due user.userId (by simpa using hcond)
    obtain rfl := hinv.unique.eq_of_key huser hdue hsame.symm
    simp only [deletionDue, decide_eq_true_eq] at hcond'
    refine .claimed _ hcond'.2.1 fun hnone => ?_
    simp [hnone] at hcond'

theorem releaseDeletionLease_evolves {input : DeletionJobInput}
    (h : releaseDeletionLease input db = .ok ((), db')) : UsersEvolve erasure db db' := by
  obtain ⟨-, rfl⟩ := Prod.mk.inj (Except.ok.inj h)
  refine UsersEvolve.updateWhere (canRelease input) releaseColumns
    (fun user _ hcond => .released ?_) (fun _ => rfl) rfl
  simp only [canRelease, decide_eq_true_eq] at hcond
  exact hcond.2.2

/-- The writes of `scheduleDeletion` schedule the account its update has found. -/
theorem writeSchedule_evolves {userId : Uuid} {now completedAt scheduledFor : Timestamp}
    {scheduled : Bool} {sessions tokenIds : List RowId} (hinv : AccountInvariant db)
    (hscheduled : scheduled → ∃ user ∈ db.users, canSchedule userId user)
    (h : writeSchedule userId now completedAt scheduledFor scheduled sessions tokenIds db
      = .ok ((), db')) : UsersEvolve erasure db db' := by
  obtain ⟨-, rfl⟩ := Prod.mk.inj (Except.ok.inj h)
  cases scheduled with
  | false => exact .of_users_eq rfl
  | true =>
      obtain ⟨found, hfound, hcond⟩ := hscheduled rfl
      simp only [canSchedule, decide_eq_true_eq] at hcond
      refine UsersEvolve.updateWhere (fun user => user.userId = userId)
        (scheduleColumns now scheduledFor) (fun user huser hsame => ?_) (fun _ => rfl) rfl
      have hsame : user.userId = userId := by simpa using hsame
      obtain rfl := hinv.unique.eq_of_key huser hfound (hsame.trans hcond.1.symm)
      exact .scheduled now scheduledFor hcond.2.1 hcond.2.2

/-- The writes of `anonymizeDeletedAccount` erase the account its first statement
has found. -/
theorem writeAnonymized_evolves {input : DeletionJobInput} {matchRooms : List RowId}
    (hinv : AccountInvariant db) (hclaimed : ∃ user ∈ db.users, canAnonymize input user)
    (h : writeAnonymized input matchRooms db = .ok ((), db')) :
    UsersEvolve (some input) db db' := by
  obtain ⟨found, hfound, hcond⟩ := hclaimed
  refine UsersEvolve.updateWhere (fun user => user.userId = input.userId)
    (anonymizeColumns input.now) (fun user huser hsame => ?_) (fun _ => rfl)
    (writeAnonymized_ok h).users
  have hkey : found.userId = input.userId := by
    simp only [canAnonymize, decide_eq_true_eq] at hcond
    exact hcond.1
  have hsame : user.userId = input.userId := by simpa using hsame
  obtain rfl := hinv.unique.eq_of_key huser hfound (hsame.trans hkey.symm)
  exact .erased input rfl hcond

end Calls

/-! ### The logic of the system -/

/-- What a step of a call does: it keeps the rows others have locked, evolves the
accounts, and a call to erase one changes nothing unless its claim is current. -/
structure AccountStep (request : AccountRequest) (pid : ℕ) (before after : World) : Prop where
  others : ∀ other, other ≠ pid → World.KeepsLocked other before after
  users : UsersEvolve request.erasure before.db after.db
  erases : ∀ input, request = .anonymizeDeletedAccount input →
    after.db = before.db ∨ ∃ user ∈ before.db.users, canAnonymize input user

/-- The accounts a run is followed on: a user and the deadline it stays scheduled for,
by calls that start from a thread on. -/
structure Followed where
  userId : Uuid
  first : Timestamp
  start : ℕ

def Scheduled (userId : Uuid) (db : Database) : Prop :=
  ∃ user ∈ db.users, user.userId = userId ∧ user.deletionScheduledAt ≠ none

def ScheduledFor (userId : Uuid) (first : Timestamp) (db : Database) : Prop :=
  ∃ user ∈ db.users, user.userId = userId ∧ user.deletionScheduledAt = some first

/-- The account whose deadline a call sets and returns. -/
def AccountRequest.schedules : AccountRequest → Option Uuid
  | .scheduleDeletion userId _ => some userId.toUuid
  | .beginAccountDeletion userId => some userId.toUuid
  | _ => none

def accountLogic (followed : Option Followed) :
    Logic World AccountRequest Failure AccountReply where
  invariant w := AccountInvariant w.db ∧
    ∀ account ∈ followed, ScheduledFor account.userId account.first w.db
  rely := World.KeepsLocked
  guarantee := AccountStep
  allowed _ after := ∀ account ∈ followed, Scheduled account.userId after.db
  requires _ _ := True
  ensures request pid reply _ := ∀ account ∈ followed, account.start ≤ pid →
    request.schedules = some account.userId → reply = .deadline account.first
  rely_refl := World.KeepsLocked.refl
  rely_trans := World.KeepsLocked.trans
  guarantee_refl _ _ w := ⟨fun other _ => .refl other w, .of_users_eq rfl, fun _ _ => Or.inl rfl⟩
  rely_of_guarantee := fun hother h => h.others _ hother

section Proofs

variable {followed : Option Followed} {request : AccountRequest} {pid : ℕ} {w before after : World}
  {β : Type} {returns : β → World → Prop} {throws : Failure → World → Prop}

/-- A deadline that an account keeps having is the same one. -/
theorem ScheduledFor.evolve {userId : Uuid} {first : Timestamp} {erasure : Option DeletionJobInput}
    {before after : Database} (h : ScheduledFor userId first before)
    (hinv : AccountInvariant before) (hevolve : UsersEvolve erasure before after)
    (hstill : Scheduled userId after) : ScheduledFor userId first after := by
  obtain ⟨user, huser, hid, hfirst⟩ := h
  obtain ⟨user', huser', hid', hscheduled⟩ := hstill
  have hrow := hevolve.evolves hinv huser huser' (hid'.trans hid.symm)
  refine ⟨user', huser', hid', ?_⟩
  rcases hrow.deadline_kept (by simp [hfirst]) with hkept | hnone
  · rw [hkept, hfirst]
  · exact absurd hnone hscheduled

/-- A step that evolves the accounts keeps the invariant. -/
theorem invariant_evolve {erasure : Option DeletionJobInput}
    (hinv : (accountLogic followed).invariant before)
    (hevolve : UsersEvolve erasure before.db after.db)
    (hallowed : (accountLogic followed).allowed before after) :
    (accountLogic followed).invariant after :=
  ⟨hinv.1.evolve hevolve, fun account haccount =>
    (hinv.2 account haccount).evolve hinv.1 hevolve (hallowed account haccount)⟩

/-- A step that leaves the database alone is a step of any call. -/
theorem accountStep_of_db_eq (hdb : after.db = before.db)
    (hlocks : ∀ other, other ≠ pid → ∀ {mode row}, Holds before.locks other mode row →
      Holds after.locks other mode row) : AccountStep request pid before after where
  others := fun other hother => .of_db_eq hdb (hlocks other hother)
  users := .of_users_eq (by rw [hdb])
  erases := fun _ _ => Or.inl hdb

theorem holds_unlock {other : ℕ} {w : World} (hother : other ≠ pid) {mode : Mode} {row : LockedRow}
    (h : Holds w.locks other mode row) : Holds (w.unlock pid).locks other mode row :=
  h.release (Ne.symm hother)

/-- A call that evolves the accounts. -/
theorem callChecks_evolving {call : Call Database Failure β}
    (hcall : ∀ value db, call before.db = .ok (value, db) →
      UsersEvolve request.erasure before.db db)
    (hrequest : ∀ input, request ≠ .anonymizeDeletedAccount input)
    (hreturns : ∀ value w, (accountLogic followed).Later pid (returns value) w)
    (hthrows : ∀ failure w, (accountLogic followed).Later pid (throws failure) w)
    (hinv : (accountLogic followed).invariant before) :
    CallChecks (accountLogic followed) request pid call returns throws before where
  returned := by
    intro value db hok hunlocked hallowed
    have hevolve : UsersEvolve request.erasure before.db (before.withDb db).db := hcall value db hok
    refine ⟨invariant_evolve hinv hevolve hallowed, ⟨fun other hother => ?_, hevolve, ?_⟩,
      hreturns value _, fun failure => hthrows failure _⟩
    · exact .of_unlocked hunlocked hother id
    · exact fun input hinput => absurd hinput (hrequest input)
  threw := fun failure _ => ⟨hinv, accountStep_of_db_eq rfl fun _ _ _ _ => id, hthrows failure _⟩
  unreachable := fun failure => hthrows failure _

theorem lockNeutral : LockNeutral (accountLogic followed) request where
  acquire := fun hinv _ => ⟨hinv, accountStep_of_db_eq rfl fun _ _ _ _ => Holds.acquire⟩
  unlock := fun hinv => ⟨hinv, accountStep_of_db_eq rfl fun _ hother _ _ => holds_unlock hother⟩
  rely := id

theorem later_true {w : World} : (accountLogic followed).Later pid (fun _ => True) w :=
  fun _ _ _ => trivial

/-! ### The programs -/

/-- The account that `scheduleDeletion` found is locked for it. -/
def ScheduleLocked (userId : Uuid) (scheduled : Bool) (pid : ℕ) (w : World) : Prop :=
  scheduled → ∃ user ∈ w.db.users, canSchedule userId user ∧
    Holds w.locks pid .noKeyUpdate (.user user.userId)

theorem stable_scheduleLocked {userId : Uuid} {scheduled : Bool} :
    (accountLogic followed).Stable pid (ScheduleLocked userId scheduled pid) := by
  intro w before hrely _ hlocked hscheduled
  obtain ⟨user, huser, hcond, hheld⟩ := hlocked hscheduled
  have hkept := hrely.rows (.user user) .noKeyUpdate huser (by rfl) hheld
  exact ⟨user, hkept, hcond, hrely.locks hheld⟩

theorem holds_scheduleCommit {userId : Uuid} {now completedAt scheduledFor : Timestamp}
    {scheduled : Bool} {sessions tokenIds : List RowId} {returns : Unit → World → Prop}
    (hrequest : ∀ input, request ≠ .anonymizeDeletedAccount input)
    (hlocked : (accountLogic followed).Later pid (ScheduleLocked userId scheduled pid) w)
    (hreturns : ∀ w, (accountLogic followed).Later pid (returns ()) w) :
    (accountLogic followed).Holds request pid
      (commit (writeSchedule userId now completedAt scheduledFor scheduled sessions tokenIds))
      returns (fun _ _ => True) w := by
  refine holds_commit _ hlocked ?_ ?_ fun _ _ _ _ => later_true
  · intro before _ db hbefore hinv hok hunlocked hallowed
    have hfound : scheduled → ∃ user ∈ before.db.users, canSchedule userId user := by
      intro hscheduled
      obtain ⟨user, huser, hcond, -⟩ := hbefore hscheduled
      exact ⟨user, huser, hcond⟩
    have hevolve : UsersEvolve request.erasure before.db ((before.withDb db).unlock pid).db :=
      writeSchedule_evolves hinv.1 hfound hok
    refine ⟨invariant_evolve hinv hevolve hallowed, ⟨fun other hother => ?_, hevolve, ?_⟩,
      hreturns _, fun _ => later_true⟩
    · exact .of_unlocked hunlocked hother (holds_unlock hother)
    · exact fun input hinput => absurd hinput (hrequest input)
  · intro before failure _ hinv _
    exact ⟨hinv, accountStep_of_db_eq rfl fun _ _ _ _ => id, later_true⟩

/-- An account that stays scheduled is not found by another schedule, and its
deadline is. -/
theorem findDeadline_of_scheduledFor {userId : Uuid} {first : Timestamp} {db : Database}
    (hinv : AccountInvariant db) (h : ScheduledFor userId first db) :
    db.users.any (canSchedule userId) = false ∧ findDeadline userId db = some first := by
  obtain ⟨user, huser, hid, hfirst⟩ := h
  have halive : user.deletedAt = none := by
    by_contra hdeleted
    have hnone := (hinv.lifeCycle user huser).unscheduled_of_deleted hdeleted
    rw [hfirst] at hnone
    cases hnone
  constructor
  · rw [List.any_eq_false]
    intro other hother hcond
    simp only [canSchedule, decide_eq_true_eq] at hcond
    obtain rfl := hinv.unique.eq_of_key hother huser (hcond.1.trans hid.symm)
    rw [hfirst] at hcond
    cases hcond.2.2
  · unfold findDeadline
    cases hfound : db.users.find? (fun user => user.userId = userId ∧ user.deletedAt = none) with
    | none => simpa [hid, halive] using List.find?_eq_none.1 hfound user huser
    | some found =>
        have hcond := List.find?_some hfound
        simp only [decide_eq_true_eq] at hcond
        have hmem := List.mem_of_find?_eq_some hfound
        obtain rfl := hinv.unique.eq_of_key hmem huser (hcond.1.trans hid.symm)
        exact hfirst

theorem holds_scheduledAccount {userId : Uuid} {scheduledFor : Timestamp} {scheduled : Bool}
    {returns : Option Timestamp → World → Prop}
    (hfollowed : ∀ account ∈ followed, account.userId = userId → scheduled = false)
    (hlocked : (accountLogic followed).Later pid (ScheduleLocked userId scheduled pid) w)
    (hreturns : ∀ deadline w, (accountLogic followed).Later pid
        (ScheduleLocked userId scheduled pid) w →
      (∀ account ∈ followed, account.userId = userId → deadline = some account.first) →
      (accountLogic followed).Later pid (returns deadline) w) :
    (accountLogic followed).Holds request pid (scheduledAccount userId scheduledFor scheduled)
      returns (fun _ _ => True) w := by
  unfold scheduledAccount
  split
  next hscheduled =>
    refine Logic.holds_pure (hreturns _ _ hlocked fun account haccount hsame => ?_)
    rw [hfollowed account haccount hsame] at hscheduled
    cases hscheduled
  next =>
    refine holds_query (ScheduleLocked userId scheduled pid) hlocked (fun before hbefore hinv => ?_)
      fun _ _ _ _ => later_true
    refine hreturns _ _ (stable_scheduleLocked.later hbefore) fun account haccount hsame => ?_
    have hscheduled := hinv.2 account haccount
    rw [hsame] at hscheduled
    exact (findDeadline_of_scheduledFor hinv.1 hscheduled).2

/-- A call to schedule returns the deadline that an account stays scheduled for. -/
theorem holds_scheduleDeletion {userId : UuidText} {scheduledFor : Timestamp}
    (hrequest : ∀ input, request ≠ .anonymizeDeletedAccount input) :
    (accountLogic followed).Holds request pid (scheduleDeletion userId scheduledFor)
      (fun deadline _ => ∀ account ∈ followed, account.userId = userId.toUuid →
        deadline = account.first) (fun _ _ => True) w := by
  refine holds_rollback lockNeutral ?_ fun _ _ => later_true
  refine Logic.Holds.bind (holds_clock fun now => Logic.Holds.later ?_)
  refine holds_select_bind lockNeutral (fun _ => True) later_true (fun found _ hfound => ?_)
    fun _ _ => later_true
  -- Either the account is found unscheduled and locked, or it is not found.
  have hlocked : ScheduleLocked userId.toUuid (found.db.users.any (canSchedule userId.toUuid)) pid
      (found.withLocks (acquire pid .noKeyUpdate (userRows (canSchedule userId.toUuid) found.db)
        found.locks)) := by
    intro hscheduled
    obtain ⟨user, huser, hcond⟩ := List.any_eq_true.1 hscheduled
    refine ⟨user, huser, hcond, holds_acquire ?_⟩
    exact List.mem_map.2 ⟨user, List.mem_filter.2 ⟨huser, hcond⟩, rfl⟩
  have hfollowed : ∀ account ∈ followed, account.userId = userId.toUuid →
      found.db.users.any (canSchedule userId.toUuid) = false := by
    intro account haccount hsame
    have hscheduled := hfound.2 account haccount
    rw [hsame] at hscheduled
    exact (findDeadline_of_scheduledFor hfound.1 hscheduled).1
  generalize found.db.users.any (canSchedule userId.toUuid) = scheduled at hlocked hfollowed ⊢
  refine Logic.Holds.bind (holds_scheduledAccount hfollowed (stable_scheduleLocked.later hlocked)
    fun account w hlocked hfirst => Logic.Holds.later ?_)
  refine Logic.Holds.bind (holds_ofExcept (fun deadline hdeadline => Logic.Holds.later ?_)
    fun _ _ => later_true)
  have hdeadline : account = some deadline := by
    cases account with
    | none => cases hdeadline
    | some found => rw [Except.ok.inj hdeadline]
  -- The rest locks the sessions, reads the push tokens and commits.
  refine holds_select_bind lockNeutral _ hlocked (fun w hlocked _ => ?_) fun _ _ => later_true
  have hlocked : ScheduleLocked userId.toUuid scheduled pid (w.withLocks (acquire pid .update
      ((sessionsOf userId.toUuid w.db).map .session) w.locks)) := by
    intro hscheduled
    obtain ⟨user, huser, hcond, hheld⟩ := hlocked hscheduled
    exact ⟨user, huser, hcond, hheld.acquire⟩
  refine Logic.Holds.bind (holds_query _ (stable_scheduleLocked.later hlocked)
    (fun w hlocked _ => Logic.Holds.later ?_) fun _ _ _ _ => later_true)
  refine Logic.Holds.bind (holds_clock fun completedAt => Logic.Holds.later ?_)
  refine Logic.Holds.bind (holds_scheduleCommit hrequest (stable_scheduleLocked.later hlocked)
    fun w => Logic.Holds.later (Logic.holds_pure fun _ _ _ account haccount hsame => ?_))
  exact Option.some.inj (hdeadline.symm.trans (hfirst account haccount hsame))

theorem holds_anonymizeCommit {input : DeletionJobInput} {matchRooms : List RowId}
    (hrequest : request.erasure = some input)
    (hlocked : (accountLogic followed).Later pid (ClaimLocked input pid) w) :
    (accountLogic followed).Holds request pid (commit (writeAnonymized input matchRooms))
      (fun _ _ => True) (fun _ _ => True) w := by
  refine holds_commit _ hlocked ?_ ?_ fun _ _ _ _ => later_true
  · intro before _ db hbefore hinv hok hunlocked hallowed
    have hclaimed := hbefore.claimed
    have hevolve : UsersEvolve request.erasure before.db ((before.withDb db).unlock pid).db := by
      rw [hrequest]
      exact writeAnonymized_evolves hinv.1 hclaimed hok
    refine ⟨invariant_evolve hinv hevolve hallowed, ⟨fun other hother => ?_, hevolve, ?_⟩,
      later_true, fun _ => later_true⟩
    · exact .of_unlocked hunlocked hother (holds_unlock hother)
    · intro input' hinput'
      rw [hinput'] at hrequest
      obtain rfl := Option.some.inj hrequest
      exact Or.inr hclaimed
  · intro before failure _ hinv _
    exact ⟨hinv, accountStep_of_db_eq rfl fun _ _ _ _ => id, later_true⟩

theorem holds_anonymizeDeletedAccount {input : DeletionJobInput}
    (hrequest : request.erasure = some input)
    (hthrows : ∀ failure w, (accountLogic followed).Later pid (throws failure) w) :
    (accountLogic followed).Holds request pid (anonymizeDeletedAccount input)
      (fun _ _ => True) throws w :=
  holds_anonymization lockNeutral (fun _ _ hlocked => holds_anonymizeCommit hrequest hlocked) hthrows

theorem holds_claimDeletions {input : ClaimDeletionInput} {returns : DeletionClaim → World → Prop}
    (hrequest : ∀ input, request ≠ .anonymizeDeletedAccount input)
    (hreturns : ∀ claim w, (accountLogic followed).Later pid (returns claim) w) :
    (accountLogic followed).Holds request pid (claimDeletions input) returns
      (fun _ _ => True) w :=
  holds_choosing (fun _ => True) later_true fun _ _ _ hinv hcandidates =>
    callChecks_evolving (fun _ _ hok => claimDueDeletionBatch_evolves hinv.1 hcandidates hok)
      hrequest hreturns (fun _ _ => later_true) hinv

theorem holds_releaseDeletionLease {input : DeletionJobInput} {returns : Unit → World → Prop}
    (hrequest : ∀ input, request ≠ .anonymizeDeletedAccount input)
    (hreturns : ∀ value w, (accountLogic followed).Later pid (returns value) w) :
    (accountLogic followed).Holds request pid (statement (releaseDeletionLease input)) returns
      (fun _ _ => True) w :=
  holds_statement (fun _ => True) later_true fun _ _ hinv =>
    callChecks_evolving (fun _ _ hok => releaseDeletionLease_evolves hok) hrequest hreturns
      (fun _ _ => later_true) hinv

theorem holds_restoreScheduledDeletion {userId : UuidText} {now : Timestamp}
    {returns : Bool → World → Prop}
    (hrequest : ∀ input, request ≠ .anonymizeDeletedAccount input)
    (hreturns : ∀ value w, (accountLogic followed).Later pid (returns value) w) :
    (accountLogic followed).Holds request pid (statement (restoreScheduledDeletion userId now))
      returns (fun _ _ => True) w :=
  holds_statement (fun _ => True) later_true fun _ _ hinv =>
    callChecks_evolving (fun _ _ hok => restoreScheduledDeletion_evolves hok) hrequest hreturns
      (fun _ _ => later_true) hinv

theorem later_ensures {reply : AccountReply} {w : World} (hrequest : request.schedules = none) :
    (accountLogic followed).Later pid ((accountLogic followed).ensures request pid reply) w := by
  intro _ _ _ account _ _ hschedules
  rw [hrequest] at hschedules
  cases hschedules

theorem ensures_deadline {userId : UuidText} {deadline : Timestamp} {w : World}
    (hrequest : request.schedules = some userId.toUuid)
    (h : ∀ account ∈ followed, account.userId = userId.toUuid → deadline = account.first) :
    (accountLogic followed).ensures request pid (.deadline deadline) w := by
  intro account haccount _ hschedules
  rw [hrequest] at hschedules
  rw [h account haccount (Option.some.inj hschedules).symm]

/-- Every call keeps the life cycle, whatever the others do between its statements. -/
theorem holds_accountCode (pid : ℕ) (w : World) (request : AccountRequest) :
    (accountLogic followed).Holds request pid (accountCode request)
      ((accountLogic followed).ensures request pid) (fun _ _ => True) w := by
  cases request with
  | scheduleDeletion userId scheduledFor =>
      refine Logic.Holds.bind ((holds_scheduleDeletion fun _ h => by cases h).mono
        (fun deadline s _ hfirst => ?_) fun _ _ _ _ => trivial)
      exact Logic.holds_pure fun _ _ _ => ensures_deadline rfl hfirst
  | beginAccountDeletion userId =>
      refine Logic.Holds.bind (Logic.Holds.bind (holds_clock fun now => Logic.Holds.later ?_))
      refine Logic.Holds.bind (holds_ofExcept (fun _ _ => Logic.Holds.later ?_) fun _ _ => later_true)
      refine Logic.Holds.bind (holds_query (fun _ => True) later_true
        (fun _ _ _ => Logic.Holds.later ?_) fun _ _ _ _ => later_true)
      refine Logic.Holds.bind (holds_ofExcept (fun _ _ => Logic.Holds.later ?_) fun _ _ => later_true)
      refine (holds_scheduleDeletion fun _ h => by cases h).mono
        (fun deadline s _ hfirst => ?_) fun _ _ _ _ => trivial
      exact Logic.holds_pure fun _ _ _ => ensures_deadline rfl hfirst
  | restoreScheduledDeletion userId now =>
      refine Logic.Holds.bind (holds_restoreScheduledDeletion (fun _ h => by cases h) fun _ _ =>
        Logic.Holds.later ?_)
      exact Logic.holds_pure (later_ensures rfl)
  | restoreIfWithinGrace userId =>
      refine Logic.Holds.bind (Logic.Holds.bind (holds_ofExcept
        (fun _ _ => Logic.Holds.later ?_) fun _ _ => later_true))
      refine Logic.Holds.bind (holds_clock fun now => Logic.Holds.later ?_)
      refine holds_restoreScheduledDeletion (fun _ h => by cases h) fun _ _ => Logic.Holds.later ?_
      exact Logic.holds_pure (later_ensures rfl)
  | claimDueDeletionBatch input =>
      refine Logic.Holds.bind (holds_claimDeletions (fun _ h => by cases h) fun _ _ =>
        Logic.Holds.later ?_)
      exact Logic.holds_pure (later_ensures rfl)
  | releaseDeletionLease input =>
      refine Logic.Holds.bind (holds_releaseDeletionLease (fun _ h => by cases h) fun _ _ =>
        Logic.Holds.later ?_)
      exact Logic.holds_pure (later_ensures rfl)
  | anonymizeDeletedAccount input =>
      refine Logic.Holds.bind ((holds_anonymizeDeletedAccount rfl fun _ _ => later_true).mono
        (fun _ _ _ _ => ?_) fun _ _ _ _ => trivial)
      exact Logic.holds_pure (later_ensures rfl)
  | processDueAccountDeletionBatch now limit =>
      refine Logic.Holds.bind (Logic.Holds.bind (holds_ofExcept
        (fun _ _ => Logic.Holds.later ?_) fun _ _ => later_true))
      refine Logic.Holds.bind (holds_claimDeletions (fun _ h => by cases h) fun _ _ =>
        Logic.Holds.later ?_)
      refine Logic.Holds.bind (Logic.holds_forkAll (fun _ => True) (fun _ _ _ _ h => h) trivial
        (fun _ _ _ _ _ => trivial) fun _ _ _ => ?_)
      refine Logic.holds_pure (Logic.Holds.later ?_)
      exact Logic.holds_pure (later_ensures rfl)
  | deletionJob input =>
      refine Logic.Holds.bind (Logic.Holds.tryCatch ((holds_anonymizeDeletedAccount rfl
        fun _ _ => Logic.Holds.later ?_).mono (fun _ _ _ _ => ?_) fun _ _ _ h => h))
      · refine holds_releaseDeletionLease (fun _ h => by cases h) fun _ _ => Logic.Holds.later ?_
        exact Logic.holds_pure (later_ensures rfl)
      · exact Logic.holds_pure (later_ensures rfl)

theorem sound (followed : Option Followed) : (accountLogic followed).Sound deletionSystem where
  accepts := fun _ _ => trivial
  code := fun pid _ _ _ => holds_accountCode pid _ _
  environment := fun h => h.elim
  rollback := fun pid hinv =>
    ⟨hinv, fun _ hother => World.keepsLocked_rollback pid _ hother⟩

end Proofs

/-! ### Every run -/

/-- Accounts of which none is being deleted. -/
structure NoDeletions (db : Database) : Prop where
  unique : UniqueKey User.userId db.users
  unscheduled : ∀ user ∈ db.users, user.deletionScheduledAt = none
  unleased : ∀ user ∈ db.users, user.deletionLeaseExpiresAt = none
  alive : ∀ user ∈ db.users, user.deletedAt = none

theorem NoDeletions.accountInvariant {db : Database} (h : NoDeletions db) : AccountInvariant db where
  unique := h.unique
  lifeCycle := fun user huser => by
    constructor <;> simp [h.unscheduled user huser, h.unleased user huser, h.alive user huser]

/-- The lease is the one the account has now, not expired, and its current deadline
has passed. -/
def CurrentClaim (input : DeletionJobInput) (db : Database) : Prop :=
  ∃ user ∈ db.users, user.userId = input.userId ∧ user.deletedAt = none ∧
    (∃ deadline, user.deletionScheduledAt = some deadline ∧ deadline ≤ input.now) ∧
    user.deletionLeaseExpiresAt = some input.deletionLeaseExpiresAt ∧
    input.now < input.deletionLeaseExpiresAt

theorem canAnonymize_iff {input : DeletionJobInput} {user : User} :
    canAnonymize input user ↔ user.userId = input.userId ∧ user.deletedAt = none ∧
      (∃ deadline, user.deletionScheduledAt = some deadline ∧ deadline ≤ input.now) ∧
      user.deletionLeaseExpiresAt = some input.deletionLeaseExpiresAt ∧
      input.now < input.deletionLeaseExpiresAt := by
  simp [canAnonymize, Option.any_eq_true]

section Runs

variable {c c' : Config World AccountRequest Failure AccountReply}

/-- A run of the system, from a configuration on. -/
def DeletionRun (c c' : Config World AccountRequest Failure AccountReply) : Prop :=
  Reachable deletionSystem (fun _ _ => True) c c'

/-- A run during which an account is scheduled throughout. -/
def ScheduledRun (userId : Uuid) (c c' : Config World AccountRequest Failure AccountReply) : Prop :=
  Reachable deletionSystem (fun _ after => Scheduled userId after.db) c c'

theorem DeletionRun.good {db : Database} (hnew : NoDeletions db)
    (hrun : DeletionRun (.idle (.ofDatabase db)) c) : (accountLogic none).Good c := by
  have hinv : (accountLogic none).invariant (World.ofDatabase db) :=
    ⟨hnew.accountInvariant, by simp⟩
  exact (sound none).reachable (Logic.good_idle hinv fun _ => trivial)
    (hrun.weaken fun _ _ _ => by simp [accountLogic])

/-- A deleted account is never changed again. -/
theorem DeletionRun.mem_of_deleted (hgood : (accountLogic none).Good c) (hrun : DeletionRun c c')
    {user : User} (huser : user ∈ c.state.db.users) (hdeleted : user.deletedAt ≠ none) :
    user ∈ c'.state.db.users := by
  refine Logic.Sound.relates
    (fun (s s' : World) => ∀ user ∈ s.db.users, user.deletedAt ≠ none → user ∈ s'.db.users)
    (sound none) hgood (hrun.weaken fun _ _ _ => by simp [accountLogic]) (fun _ _ h _ => h)
    (fun h₁ h₂ user huser hdeleted => h₂ user (h₁ user huser hdeleted) hdeleted)
    (fun _ hguar user huser hdeleted => ?_) (fun _ h => h.elim) (fun _ _ _ h _ => h)
    user huser hdeleted
  obtain ⟨user', huser', hevolves⟩ := hguar.users.rows.forth user huser
  rwa [hevolves.eq_of_deleted hdeleted] at huser'

/-- Following an account asks nothing of the threads that run already. -/
theorem Good.follow (hgood : (accountLogic none).Good c) {userId : Uuid} {first : Timestamp}
    (hfirst : ScheduledFor userId first c.state.db) :
    (accountLogic (some ⟨userId, first, c.threads.length⟩)).Good c where
  invariant := ⟨hgood.invariant.1, by rintro _ ⟨⟩; exact hfirst⟩
  threads := by
    intro pid thread hthread
    have hlt : pid < c.threads.length := (List.getElem?_eq_some_iff.1 hthread).1
    refine (hgood.threads hthread).restrict (fun hinv => ⟨hinv.1, by simp⟩) id
      (fun _ => by simp [accountLogic]) (fun _ => trivial) ?_ ?_ fun _ _ _ _ => trivial
    · exact fun hinv hafter hguar hallowed => ⟨invariant_evolve hinv hguar.users hallowed, hguar⟩
    · rintro reply s _ _ _ ⟨⟩ hstart
      exact absurd hstart (Nat.not_le.2 hlt)
  fresh := fun _ => trivial

/-- A call that starts while an account stays scheduled returns its deadline. -/
theorem ScheduledRun.keeps_deadline (hgood : (accountLogic none).Good c) {userId : Uuid}
    {first : Timestamp} (hfirst : ScheduledFor userId first c.state.db)
    (hrun : ScheduledRun userId c c') :
    ScheduledFor userId first c'.state.db ∧
      ∀ pid request deadline, c.threads.length ≤ pid → request.schedules = some userId →
        c'.threads[pid]? = some ⟨request, .done (.deadline deadline)⟩ → deadline = first := by
  have hgood' : (accountLogic (some ⟨userId, first, c.threads.length⟩)).Good c' := by
    refine (sound _).reachable (Good.follow hgood hfirst) (hrun.weaken fun _ _ hscheduled => ?_)
    rintro _ ⟨⟩
    exact hscheduled
  refine ⟨hgood'.invariant.2 _ rfl, fun pid request deadline hstart hrequest hthread => ?_⟩
  have hreply := Logic.Sound.ensures hgood' hthread _ rfl hstart hrequest
  exact AccountReply.deadline.inj hreply

/-- A step that deletes an account is one of a call whose claim on it is current. -/
theorem AccountStep.erasure_of_deleted {request : AccountRequest} {pid : ℕ} {before after : World}
    (hstep : AccountStep request pid before after) (hinv : AccountInvariant before.db)
    {user user' : User} (huser : user ∈ before.db.users) (huser' : user' ∈ after.db.users)
    (hsame : user'.userId = user.userId) (halive : user.deletedAt = none)
    (hdeleted : user'.deletedAt ≠ none) :
    ∃ input, request.erasure = some input ∧ input.userId = user.userId ∧
      CurrentClaim input before.db := by
  have hevolves := hstep.users.evolves hinv huser huser' hsame
  cases hevolves with
  | same => exact absurd halive hdeleted
  | scheduled now scheduledFor _ _ => exact absurd halive hdeleted
  | restored _ => exact absurd halive hdeleted
  | claimed leaseExpiresAt _ _ => exact absurd halive hdeleted
  | released _ => exact absurd halive hdeleted
  | erased input hcall hcurrent =>
      have hclaim := canAnonymize_iff.1 hcurrent
      exact ⟨input, hcall, hclaim.1.symm, user, huser, hclaim⟩

/-- The life cycle of accounts holds in every run: a scheduled account is hidden, a
leased one scheduled, a deleted one hidden, unscheduled and unleased; a deleted
account is never changed again; while an account stays scheduled it keeps its
deadline, which is what further calls to schedule it return; and an account is
erased, and anything changed by a call to erase it, only under a current claim. -/
theorem account_life_cycle (db : Database) (hnew : NoDeletions db)
    (hrun : DeletionRun (.idle (.ofDatabase db)) c) :
    (∀ user ∈ c.state.db.users, LifeCycle user) ∧
    (∀ c', DeletionRun c c' → ∀ user ∈ c.state.db.users, user.deletedAt ≠ none →
      user ∈ c'.state.db.users) ∧
    (∀ userId first, ScheduledFor userId first c.state.db → ∀ c', ScheduledRun userId c c' →
      ScheduledFor userId first c'.state.db ∧
        ∀ pid request deadline, c.threads.length ≤ pid → request.schedules = some userId →
          c'.threads[pid]? = some ⟨request, .done (.deadline deadline)⟩ → deadline = first) ∧
    (∀ pid request (β : Type) (act : ℕ → World → β → World → Prop) next reply after,
      c.threads[pid]? = some ⟨request, .step act next⟩ → act pid c.state reply after →
        (∀ input, request = .anonymizeDeletedAccount input →
          after.db = c.state.db ∨ CurrentClaim input c.state.db) ∧
        ∀ user ∈ c.state.db.users, ∀ user' ∈ after.db.users, user'.userId = user.userId →
          user.deletedAt = none → user'.deletedAt ≠ none →
            ∃ input, request.erasure = some input ∧ input.userId = user.userId ∧
              CurrentClaim input c.state.db) := by
  have hgood := hrun.good hnew
  refine ⟨hgood.invariant.1.lifeCycle, ?_, ?_, ?_⟩
  · intro c' hrun' user huser hdeleted
    exact hrun'.mem_of_deleted hgood huser hdeleted
  · intro userId first hfirst c' hrun'
    exact hrun'.keeps_deadline hgood hfirst
  · intro pid request β act next reply after hthread hact
    have hstep : AccountStep request pid c.state after :=
      Logic.Sound.guarantee hgood hthread hact (by simp [accountLogic])
    constructor
    · intro input hinput
      refine (hstep.erases input hinput).imp_right ?_
      rintro ⟨user, huser, hcurrent⟩
      exact ⟨user, huser, canAnonymize_iff.1 hcurrent⟩
    · intro user huser user' huser' hsame halive hdeleted
      exact hstep.erasure_of_deleted hgood.invariant.1 huser huser' hsame halive hdeleted

end Runs

/-! ### One account, scheduled -/

theorem isUuidText_leaving : isUuidText "a0000000-0000-4000-8000-000000000001".toList := by decide

def leavingId : UuidText where
  text := "a0000000-0000-4000-8000-000000000001".toList
  wellFormed := isUuidText_leaving

def oneAccount : Database := .ofUsers [.visible leavingId.toUuid]

def oneScheduled : Database := .ofUsers [scheduleColumns 5 100 (.visible leavingId.toUuid)]

theorem noDeletions_oneAccount : NoDeletions oneAccount where
  unique := List.nodup_singleton _
  unscheduled := by simp [oneAccount, Database.ofUsers, User.visible]
  unleased := by simp [oneAccount, Database.ofUsers, User.visible]
  alive := by simp [oneAccount, Database.ofUsers, User.visible]

/-- The configuration after one call to schedule, with its answer. -/
def scheduledOnce : Config World AccountRequest Failure AccountReply where
  state := .ofDatabase oneScheduled
  threads := [⟨.scheduleDeletion leavingId 100, .done (.deadline 100)⟩]

theorem scheduledOnce_run : DeletionRun (.idle (.ofDatabase oneAccount)) scheduledOnce := by
  let before : World := .ofDatabase oneAccount
  let locked : World := before.withLocks [⟨0, .noKeyUpdate, .user leavingId.toUuid⟩]
  have hfree : ∀ lock ∈ before.locks, lock.holder = 0 := by decide
  have hlocked : ∀ lock ∈ locked.locks, lock.holder = 0 := by decide
  have hstart : DeletionRun (.idle before) ⟨before, []⟩ := Relation.ReflTransGen.refl
  refine hstart.serve trivial trivial ?_
  refine .step 5 before ⟨trivial, rfl⟩ trivial ?_
  refine .step (.ok true) locked (Selects.locked fun _ _ => free_of_alone hfree) trivial ?_
  refine .step (.ok []) locked (Selects.locked fun _ _ => free_of_alone hlocked) trivial ?_
  refine .step (.ok []) locked (Selects.locked fun _ _ => free_of_alone hlocked) trivial ?_
  refine .step 6 locked ⟨trivial, rfl⟩ trivial ?_
  exact .step (.ok ()) _ (Commits.committed rfl (World.unlocked_of_alone hlocked oneScheduled))
    trivial .refl

/-- Whatever follows, the account keeps the first deadline while it is scheduled. -/
theorem account_life_cycle_scheduledOnce :
    DeletionRun (.idle (.ofDatabase oneAccount)) scheduledOnce ∧
      (∀ user ∈ scheduledOnce.state.db.users, LifeCycle user) ∧
      ∀ c', ScheduledRun leavingId.toUuid scheduledOnce c' →
        ScheduledFor leavingId.toUuid 100 c'.state.db := by
  have hcycle := account_life_cycle oneAccount noDeletions_oneAccount scheduledOnce_run
  have hfirst : ScheduledFor leavingId.toUuid 100 scheduledOnce.state.db :=
    ⟨_, List.mem_singleton_self _, rfl, rfl⟩
  exact ⟨scheduledOnce_run, hcycle.1, fun c' hrun => (hcycle.2.2.1 _ _ hfirst c' hrun).1⟩

end ChatTea.Users
