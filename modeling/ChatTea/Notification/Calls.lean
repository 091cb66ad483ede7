import ChatTea.Notification.Jobs

/-!
# The calls that change the outbox

Beside the batches, notifications put jobs into the outbox; registrations, sign-outs and deleted
accounts take push tokens away and cancel the jobs that were meant for them. Each of these calls is
a transaction. Every one leaves each open job with a push token of the user whose notification it
carries, and with the value that the token has.

## Main definitions

* `unregisterPushToken`, `markRead` — the other calls of the repository
* `scheduleDeletionNow`, `anonymizeNow` — what becomes of an account
* `Addressed` — a job goes to the owner of its notification
* `PushInvariant` — what every call leaves
* `PushChange` — what a call other than a claim does to the jobs

## Main results

* `createWithPushOutbox_push`, `registerPushToken_push`, `unregisterPushToken_push`,
  `scheduleDeletionNow_push`, `anonymizeNow_push`, `markRead_push` — each call keeps the invariant
-/

namespace ChatTea.Notification

open Table Transaction
open Users (DeletionJobInput canAnonymize canSchedule cancelPush deleteNotifications
  deletePushTokens findDeadline isOpenPush requireDeadline sessionsOf writeAnonymized writeSchedule)

/-! ### The calls -/

structure UnregisterPushTokenInput where
  userId : Uuid
  deviceId : UuidText

/-- Cancel the open jobs of some push tokens. -/
def cancelTokens (tokenIds : List RowId) (now : Timestamp) (db : Database) : Database :=
  { db with
    pushOutbox := updateWhere
      (fun row => row.pushTokenId.any (· ∈ tokenIds) ∧ isOpenPush row.status) (cancelPush now)
      db.pushOutbox }

/-- The tokens of the device are looked up, and the ones of the user among them go. -/
def unregisterPushToken (input : UnregisterPushTokenInput) (now : Timestamp) :
    Call Database Failure Bool := fun db =>
  let tokens := db.pushTokens.filter fun row => row.deviceId = input.deviceId.toUuid
  let tokenIds := (tokens.filter fun row => row.userId = input.userId).map (·.id)
  if tokenIds = [] then return (tokens.isEmpty, db)
  else return (true,
    deletePushTokens (fun token => token.id ∈ tokenIds) (cancelTokens tokenIds now db))

def isUnreadOf (userId : Uuid) (notificationId : RowId) (row : ChatTea.Notification) : Bool :=
  row.id = notificationId ∧ row.userId = userId ∧ row.readAt = none

def markRead (userId : Uuid) (notificationId : RowId) (now : Timestamp) :
    Call Database Failure Bool := fun db =>
  let read : ChatTea.Notification → ChatTea.Notification := fun row => { row with readAt := some now }
  return (returning (isUnreadOf userId notificationId) read db.notifications ≠ [],
    { db with notifications := updateWhere (isUnreadOf userId notificationId) read db.notifications })

/-- `UserRepository.scheduleDeletion`, when no other transaction is under way. -/
def scheduleDeletionNow (userId : UuidText) (now completedAt scheduledFor : Timestamp) :
    Call Database Failure Timestamp := fun db => do
  let scheduled := db.users.any (canSchedule userId.toUuid)
  let deadline ← requireDeadline
    (if scheduled then some scheduledFor else findDeadline userId.toUuid db)
  let (_, db) ← writeSchedule userId.toUuid now completedAt scheduledFor scheduled
    (sessionsOf userId.toUuid db) ((tokensOf userId.toUuid db).map (·.id)) db
  return (deadline, db)

/-- `UserRepository.anonymizeDeletedAccount`, when no other transaction is under way. -/
def anonymizeNow (input : DeletionJobInput) : Call Database Failure Unit := fun db => do
  throwIf (.error "ACCOUNT_DELETION_CLAIM_REQUIRED") (¬ db.users.any (canAnonymize input))
  writeAnonymized input ((db.matchRows.filter fun row =>
    row.userLowId = input.userId ∨ row.userHighId = input.userId).map (·.roomId)) db

/-! ### Who a job goes to -/

/-- The job has the value of a push token that belongs to the owner of its notification. -/
def Addressed (tokens : List PushToken) (notifications : List ChatTea.Notification)
    (row : PushOutbox) : Prop :=
  ∃ token ∈ tokens, ∃ notification ∈ notifications,
    row.pushTokenId = some token.id ∧ row.tokenSnapshot = token.token ∧
      row.notificationId = notification.id ∧ token.userId = notification.userId

/-- What every call leaves. -/
structure PushInvariant (db : Database) : Prop where
  ids : UniqueKey PushOutbox.id db.pushOutbox
  drawn : ∀ row ∈ db.pushOutbox, row.id < db.nextRowId
  jobs : ∀ row ∈ db.pushOutbox, JobInvariant row
  tokens : TokenTable db
  notificationIds : UniqueKey ChatTea.Notification.id db.notifications
  notificationDrawn : ∀ row ∈ db.notifications, row.id < db.nextRowId
  addressed : ∀ row ∈ db.pushOutbox, isOpenPush row.status →
    Addressed db.pushTokens db.notifications row

/-- What a call other than a claim does to the jobs, and what it leaves. -/
structure PushChange (before after : Database) : Prop where
  invariant : PushInvariant before → PushInvariant after
  rows : PushInvariant before → Succeeds PushOutbox.id Tended Unclaimed before.pushOutbox
    before.nextRowId after.pushOutbox after.nextRowId

variable {db db' db'' : Database} {row row' : PushOutbox} {now : Timestamp}

theorem PushInvariant.ready (h : PushInvariant db) : OutboxReady db where
  ids := h.ids
  drawn := h.drawn
  unsent row hrow hstatus := ((h.jobs row hrow).unsent hstatus).1

theorem PushChange.refl (db : Database) : PushChange db db where
  invariant h := h
  rows h := Succeeds.refl (fun row hrow => Tended.refl (h.jobs row hrow)) db.nextRowId

theorem PushChange.trans (h : PushChange db db') (h' : PushChange db' db'') :
    PushChange db db'' where
  invariant hdb := h'.invariant (h.invariant hdb)
  rows hdb := (h.rows hdb).trans (fun _ _ _ => Tended.trans)
    (fun _ _ hrow htended => htended.unclaimed hrow) (h'.rows (h.invariant hdb))

/-- The invariant may be used to show what a call does. -/
theorem PushChange.of_invariant (h : PushInvariant db → PushChange db db') : PushChange db db' where
  invariant hdb := (h hdb).invariant hdb
  rows hdb := (h hdb).rows hdb

/-- A row may be rewritten so that it goes to the same place. -/
structure SameAddress (row row' : PushOutbox) : Prop where
  pushTokenId : row'.pushTokenId = row.pushTokenId
  tokenSnapshot : row'.tokenSnapshot = row.tokenSnapshot
  notificationId : row'.notificationId = row.notificationId
  isOpen : isOpenPush row'.status → isOpenPush row.status

theorem SameAddress.refl (row : PushOutbox) : SameAddress row row := ⟨rfl, rfl, rfl, fun h => h⟩

theorem SameAddress.addressed {tokens : List PushToken} {notifications : List ChatTea.Notification}
    (h : SameAddress row row') (haddressed : Addressed tokens notifications row) :
    Addressed tokens notifications row' := by
  unfold Addressed
  rw [h.pushTokenId, h.tokenSnapshot, h.notificationId]
  exact haddressed

/-- Jobs are rewritten one by one, and nothing else changes. -/
theorem pushChange_of_rows (htokens : db'.pushTokens = db.pushTokens)
    (hnotifications : db'.notifications = db.notifications) (hnext : db'.nextRowId = db.nextRowId)
    (hrows : PushInvariant db → Descends PushOutbox.id
      (fun row row' => Tended row row' ∧ (isOpenPush row'.status → SameAddress row row'))
      db.pushOutbox db'.pushOutbox) : PushChange db db' where
  invariant h := by
    have hdescends := hrows h
    constructor
    · exact hdescends.uniqueKey h.ids
    · intro row' hrow'
      obtain ⟨row, hrow, hid, -⟩ := hdescends.rows row' hrow'
      rw [hid, hnext]
      exact h.drawn row hrow
    · intro row' hrow'
      obtain ⟨row, -, -, htended, -⟩ := hdescends.rows row' hrow'
      exact htended.invariant
    · exact ⟨htokens ▸ h.tokens.ids, htokens ▸ h.tokens.tokens, htokens ▸ h.tokens.devices,
        htokens ▸ hnext ▸ h.tokens.drawn⟩
    · rw [hnotifications]
      exact h.notificationIds
    · rw [hnotifications, hnext]
      exact h.notificationDrawn
    · intro row' hrow' hopen
      obtain ⟨row, hrow, -, -, hsame⟩ := hdescends.rows row' hrow'
      rw [htokens, hnotifications]
      exact (hsame hopen).addressed (h.addressed row hrow ((hsame hopen).isOpen hopen))
  rows h := by
    have hdescends := (hrows h).mono fun _ _ _ hstep => hstep.1
    exact hdescends.succeeds Unclaimed (Nat.le_of_eq hnext.symm)

/-- Open jobs are cancelled. -/
theorem pushChange_cancel {cond : PushOutbox → Bool} (now : Timestamp)
    (hcond : ∀ row, cond row → isOpenPush row.status) (db : Database) :
    PushChange db { db with pushOutbox := updateWhere cond (cancelPush now) db.pushOutbox } := by
  apply pushChange_of_rows
  case htokens => rfl
  case hnotifications => rfl
  case hnext => rfl
  intro h
  apply descends_updateWhere
  · exact fun row hrow _ => ⟨Tended.refl (h.jobs row hrow), fun _ => .refl row⟩
  · exact fun _ => rfl
  · intro row _ hrow
    refine ⟨tended_cancel now (hcond row hrow), fun hopen => ?_⟩
    exact absurd hopen not_isOpenPush_cancelled

/-- Some tokens are deleted that no open job needs. -/
theorem pushChange_deletePushTokens {cond : PushToken → Bool}
    (hunused : PushInvariant db → ∀ token ∈ db.pushTokens, cond token → ∀ row ∈ db.pushOutbox,
      row.pushTokenId = some token.id → ¬ isOpenPush row.status) :
    PushChange db (deletePushTokens cond db) where
  invariant h := by
    constructor
    · exact h.ids.updateWhere fun _ => rfl
    · intro row' hrow'
      rcases mem_updateWhere.1 hrow' with ⟨row, hrow, -, rfl⟩ | ⟨hrow, -⟩
      · exact h.drawn row hrow
      · exact h.drawn row' hrow
    · intro row' hrow'
      rcases mem_updateWhere.1 hrow' with ⟨row, hrow, -, rfl⟩ | ⟨hrow, -⟩
      · exact (tended_untie (h.jobs row hrow)).invariant
      · exact h.jobs row' hrow
    · have hsub (key : PushToken → Uuid × Uuid) : ((db.pushTokens.filter fun token => ¬ cond token).map key).Sublist
          (db.pushTokens.map key) := List.Sublist.map _ List.filter_sublist
      constructor
      · exact (List.Sublist.map _ List.filter_sublist).nodup h.tokens.ids
      · exact (List.Sublist.map _ List.filter_sublist).nodup h.tokens.tokens
      · exact (hsub _).nodup h.tokens.devices
      · exact fun row hrow => h.tokens.drawn row (List.mem_filter.1 hrow).1
    · exact h.notificationIds
    · exact h.notificationDrawn
    · intro row' hrow' hopen
      rcases mem_updateWhere.1 hrow' with ⟨row, hrow, hdeleted, rfl⟩ | ⟨hrow, hkept⟩
      · simp only [decide_eq_true_eq, List.any_eq_true] at hdeleted
        obtain ⟨token, htoken, hcond, href⟩ := hdeleted
        exact absurd hopen (hunused h token htoken hcond row hrow href)
      · obtain ⟨token, htoken, notification, hnotification, href, hrest⟩ :=
          h.addressed row' hrow hopen
        refine ⟨token, List.mem_filter.2 ⟨htoken, ?_⟩, notification, hnotification, href, hrest⟩
        by_contra hcond
        apply hunused h token htoken _ row' hrow href hopen
        simpa using hcond
  rows h := by
    apply Descends.succeeds Unclaimed _ (Nat.le_refl _)
    apply descends_updateWhere
    · exact fun row hrow _ => Tended.refl (h.jobs row hrow)
    · exact fun _ => rfl
    · exact fun row hrow _ => tended_untie (h.jobs row hrow)

/-- The open jobs of some push tokens are cancelled, and then the tokens go. -/
theorem pushChange_dropTokens {tokenIds : List RowId} {cond : PushToken → Bool} (now : Timestamp)
    (hcond : ∀ token, cond token → token.id ∈ tokenIds) (db : Database) :
    PushChange db (deletePushTokens cond (cancelTokens tokenIds now db)) := by
  have hcancel : PushChange db (cancelTokens tokenIds now db) := by
    apply pushChange_cancel
    intro row hrow
    exact (of_decide_eq_true hrow).2
  apply hcancel.trans
  apply pushChange_deletePushTokens
  intro _ token _ htoken row hrow href hopen
  rcases mem_updateWhere.1 hrow with ⟨old, -, -, rfl⟩ | ⟨-, hkept⟩
  · exact absurd hopen not_isOpenPush_cancelled
  · apply hkept
    simp [href, hcond token htoken, hopen]

/-! ### Each call -/

theorem unregisterPushToken_push {input : UnregisterPushTokenInput} {removed : Bool}
    (h : unregisterPushToken input now db = .ok (removed, db')) : PushChange db db' := by
  unfold unregisterPushToken at h
  dsimp only at h
  split at h
  · obtain ⟨-, rfl⟩ := Prod.mk.inj (pure_eq_ok_iff.1 h)
    exact .refl db
  · obtain ⟨-, rfl⟩ := Prod.mk.inj (pure_eq_ok_iff.1 h)
    exact pushChange_dropTokens now (fun token htoken => of_decide_eq_true htoken) db

/-- A write outside the tables of the notifications. -/
theorem pushChange_of_eq (hrows : db'.pushOutbox = db.pushOutbox)
    (htokens : db'.pushTokens = db.pushTokens) (hnotifications : db'.notifications = db.notifications)
    (hnext : db'.nextRowId = db.nextRowId) : PushChange db db' := by
  apply pushChange_of_rows htokens hnotifications hnext
  intro h
  rw [hrows]
  apply Descends.refl
  exact fun row hrow => ⟨Tended.refl (h.jobs row hrow), fun _ => .refl row⟩

theorem scheduleDeletionNow_push {userId : UuidText} {completedAt scheduledFor deadline : Timestamp}
    (h : scheduleDeletionNow userId now completedAt scheduledFor db = .ok (deadline, db')) :
    PushChange db db' := by
  simp only [scheduleDeletionNow, bind_eq_ok_iff, pure_eq_ok_iff, Prod.exists,
    Prod.mk.injEq, writeSchedule] at h
  obtain ⟨-, -, _, after, ⟨-, rfl⟩, -, rfl⟩ := h
  -- The accounts and the sessions are written first, and then the push tokens go.
  have hfirst : PushChange db (Users.deleteSessions (sessionsOf userId.toUuid db) { db with
      users := if db.users.any (canSchedule userId.toUuid) then
          updateWhere (fun user => user.userId = userId.toUuid)
            (Users.scheduleColumns now scheduledFor) db.users
        else db.users }) := pushChange_of_eq rfl rfl rfl rfl
  exact hfirst.trans (pushChange_dropTokens completedAt
    (fun token htoken => of_decide_eq_true htoken) _)

theorem markRead_push {userId : Uuid} {notificationId : RowId} {read : Bool}
    (h : markRead userId notificationId now db = .ok (read, db')) : PushChange db db' := by
  obtain ⟨-, rfl⟩ := Prod.mk.inj (pure_eq_ok_iff.1 h)
  constructor
  · intro hdb
    constructor
    · exact hdb.ids
    · exact hdb.drawn
    · exact hdb.jobs
    · exact ⟨hdb.tokens.ids, hdb.tokens.tokens, hdb.tokens.devices, hdb.tokens.drawn⟩
    · exact hdb.notificationIds.updateWhere fun _ => rfl
    · intro row hrow
      rcases mem_updateWhere.1 hrow with ⟨old, hold, -, rfl⟩ | ⟨hrow, -⟩
      · exact hdb.notificationDrawn old hold
      · exact hdb.notificationDrawn row hrow
    · intro row hrow hopen
      obtain ⟨token, htoken, notification, hnotification, href, hvalue, hcarries, howner⟩ :=
        hdb.addressed row hrow hopen
      by_cases hunread : isUnreadOf userId notificationId notification
      · exact ⟨token, htoken, { notification with readAt := some now },
          mem_updateWhere.2 (Or.inl ⟨notification, hnotification, hunread, rfl⟩),
          href, hvalue, hcarries, howner⟩
      · exact ⟨token, htoken, notification, mem_updateWhere.2 (Or.inr ⟨hnotification, hunread⟩),
          href, hvalue, hcarries, howner⟩
  · exact fun hdb => (PushChange.refl db).rows hdb

/-! ### Notifications -/

section Notify

variable {input : CreateNotificationInput} {notificationId : RowId} {token : PushToken} {id : RowId}

theorem jobInvariant_createdPush : JobInvariant (createdPush input notificationId now token id) where
  leased := by
    simp only [createdPush, Option.isSome_none, Bool.false_eq_true, false_iff, not_exists]
    intro phase
    exact Ne.symm (phase.status_ne_waiting .send)
  completed := by simp [createdPush, isOpenPush]
  unsent _ := ⟨rfl, rfl, rfl, rfl⟩
  accepted haccepted := by cases haccepted
  left phase hwaiting := by
    cases phase with
    | send =>
        have hleft : 0 < maxPushSendAttempts := by decide
        exact hleft
    | receipt => cases hwaiting

theorem unclaimed_createdPush : Unclaimed (createdPush input notificationId now token id) := by
  intro phase
  refine ⟨?_, Ne.symm (phase.status_ne_waiting .send)⟩
  cases phase <;> rfl

/-- A notification of a user, with a job for each of the user's push tokens. -/
theorem createWithPushOutbox_push {enqueuePush : Bool} {notification : ChatTea.Notification}
    (h : createWithPushOutbox input enqueuePush now db = .ok (notification, db')) :
    PushChange db db' := by
  obtain ⟨⟨created, inserted⟩, hinsert, hrest⟩ := bind_eq_ok_iff.1 h
  simp only [insertNotification, bind_eq_ok_iff, require_eq_ok_iff, pure_eq_ok_iff,
    Prod.mk.injEq, exists_const] at hinsert
  obtain ⟨-, -, rfl, rfl⟩ := hinsert
  have hinserted : PushChange db { db with
      notifications := db.notifications ++ [createdNotification input now db.nextRowId]
      nextRowId := db.nextRowId + 1 } := by
    constructor
    · intro hdb
      constructor
      · exact hdb.ids
      · exact fun row hrow => Nat.lt_succ_of_lt (hdb.drawn row hrow)
      · exact hdb.jobs
      · exact ⟨hdb.tokens.ids, hdb.tokens.tokens, hdb.tokens.devices,
          fun row hrow => Nat.lt_succ_of_lt (hdb.tokens.drawn row hrow)⟩
      · apply hdb.notificationIds.append
        exact fun row hrow => Nat.ne_of_lt (hdb.notificationDrawn row hrow)
      · intro row hrow
        rcases List.mem_append.1 hrow with hold | hnew
        · exact Nat.lt_succ_of_lt (hdb.notificationDrawn row hold)
        · rw [List.mem_singleton.1 hnew]
          exact Nat.lt_succ_self _
      · intro row hrow hopen
        obtain ⟨token, htoken, notification, hnotification, hrest⟩ := hdb.addressed row hrow hopen
        exact ⟨token, htoken, notification, List.mem_append_left _ hnotification, hrest⟩
    · intro hdb
      apply Descends.succeeds Unclaimed _ (Nat.le_succ _)
      exact Descends.refl fun row hrow => Tended.refl (hdb.jobs row hrow)
  cases enqueuePush with
  | false =>
      obtain ⟨rfl, rfl⟩ := Prod.mk.inj (pure_eq_ok_iff.1 hrest)
      exact hinserted
  | true =>
      obtain ⟨rfl, rfl⟩ := Prod.mk.inj (pure_eq_ok_iff.1 hrest)
      refine ⟨fun hdb => ?_, fun hdb => ?_⟩
      · have hbefore := hinserted.invariant hdb
        have hready : OutboxReady (insertPushOutbox input db.nextRowId now
            (tokensOf input.userId.toUuid db) _) := insertPushOutbox_ready hbefore.ready
        constructor
        · exact hready.ids
        · exact hready.drawn
        · intro row hrow
          rcases List.mem_append.1 hrow with hold | hnew
          · exact hdb.jobs row hold
          · obtain ⟨⟨token, position⟩, -, rfl⟩ := List.mem_map.1 hnew
            exact jobInvariant_createdPush
        · constructor
          · exact hdb.tokens.ids
          · exact hdb.tokens.tokens
          · exact hdb.tokens.devices
          · exact fun row hrow => Nat.lt_add_right _ (hbefore.tokens.drawn row hrow)
        · exact hbefore.notificationIds
        · exact fun row hrow => Nat.lt_add_right _ (hbefore.notificationDrawn row hrow)
        · intro row hrow hopen
          rcases List.mem_append.1 hrow with hold | hnew
          · exact hbefore.addressed row hold hopen
          · -- A new job has the token of the user that it was made for.
            obtain ⟨⟨token, position⟩, hmem, rfl⟩ := List.mem_map.1 hnew
            have htoken : token ∈ tokensOf input.userId.toUuid db := List.fst_mem_of_mem_zipIdx hmem
            obtain ⟨htoken, howner⟩ := List.mem_filter.1 htoken
            exact ⟨token, htoken, createdNotification input now db.nextRowId,
              List.mem_append_right _ (List.mem_singleton_self _), rfl, rfl, rfl,
              of_decide_eq_true howner⟩
      · apply Succeeds.insert
        · exact fun row hrow => Tended.refl (hdb.jobs row hrow)
        · exact (Nat.le_succ _).trans (Nat.le_add_right _ _)
        · intro row hrow
          obtain ⟨⟨token, position⟩, -, rfl⟩ := List.mem_map.1 hrow
          exact ⟨(Nat.le_succ _).trans (Nat.le_add_right _ _), unclaimed_createdPush⟩

end Notify

/-! ### Registrations -/

section Register

variable {input : RegisterPushTokenInput} {requested : Option PushToken} {deviceToken : PushToken}

theorem dropRequested_push (requested : Option PushToken) (now : Timestamp) (db : Database) :
    PushChange db (dropRequested requested now db) := by
  cases requested with
  | none => exact .refl db
  | some requested =>
      have hcancel : PushChange db (cancelJobs requested.id isOpenPush now db) := by
        apply pushChange_cancel
        intro row hrow
        exact (of_decide_eq_true hrow).2
      apply hcancel.trans
      apply pushChange_deletePushTokens
      intro _ token _ htoken row hrow href hopen
      have hid : token.id = requested.id := of_decide_eq_true htoken
      rcases mem_updateWhere.1 hrow with ⟨old, -, -, rfl⟩ | ⟨-, hkept⟩
      · exact absurd hopen not_isOpenPush_cancelled
      · apply hkept
        simp [href, hid, hopen]

/-- A token row is rewritten in a way that no job can tell. -/
theorem setPlatform_push (id : RowId) (platform : String) (db : Database) :
    PushChange db (setPlatform id platform db) where
  invariant h := by
    constructor
    · exact h.ids
    · exact h.drawn
    · exact h.jobs
    · constructor
      · exact h.tokens.ids.updateWhere fun _ => rfl
      · exact h.tokens.tokens.updateWhere fun _ => rfl
      · exact h.tokens.devices.updateWhere fun _ => rfl
      · intro row hrow
        rcases mem_updateWhere.1 hrow with ⟨old, hold, -, rfl⟩ | ⟨hrow, -⟩
        · exact h.tokens.drawn old hold
        · exact h.tokens.drawn row hrow
    · exact h.notificationIds
    · exact h.notificationDrawn
    · intro row hrow hopen
      obtain ⟨token, htoken, notification, hnotification, href, hvalue, hcarries, howner⟩ :=
        h.addressed row hrow hopen
      by_cases hset : token.id = id
      · refine ⟨{ token with platform := platform }, ?_, notification, hnotification, href, hvalue,
          hcarries, howner⟩
        exact mem_updateWhere.2 (Or.inl ⟨token, htoken, by simpa using hset, rfl⟩)
      · refine ⟨token, ?_, notification, hnotification, href, hvalue, hcarries, howner⟩
        exact mem_updateWhere.2 (Or.inr ⟨htoken, by simpa using hset⟩)
  rows h := (PushChange.refl db).rows h

/-- A new token has no job yet. -/
theorem insertToken_push (h : insertToken input db = .ok db') : PushChange db db' := by
  simp only [insertToken, bind_eq_ok_iff, require_eq_ok_iff, pure_eq_ok_iff, exists_const] at h
  obtain ⟨-, hfree, hdevice, rfl⟩ := h
  constructor
  · intro hdb
    constructor
    · exact hdb.ids
    · exact fun row hrow => Nat.lt_succ_of_lt (hdb.drawn row hrow)
    · exact hdb.jobs
    · constructor
      · exact hdb.tokens.ids.append fun row hrow => Nat.ne_of_lt (hdb.tokens.drawn row hrow)
      · exact hdb.tokens.tokens.append hfree
      · apply hdb.tokens.devices.append
        intro row hrow hsame
        obtain ⟨huser, hid⟩ := Prod.mk.inj hsame
        exact hdevice row hrow ⟨huser, hid⟩
      · intro row hrow
        rcases List.mem_append.1 hrow with hold | hnew
        · exact Nat.lt_succ_of_lt (hdb.tokens.drawn row hold)
        · rw [List.mem_singleton.1 hnew]
          exact Nat.lt_succ_self _
    · exact hdb.notificationIds
    · exact fun row hrow => Nat.lt_succ_of_lt (hdb.notificationDrawn row hrow)
    · intro row hrow hopen
      obtain ⟨token, htoken, hrest⟩ := hdb.addressed row hrow hopen
      exact ⟨token, List.mem_append_left _ htoken, hrest⟩
  · intro hdb
    apply Descends.succeeds Unclaimed _ (Nat.le_succ _)
    exact Descends.refl fun row hrow => Tended.refl (hdb.jobs row hrow)

/-- What waits goes along with the token of its device, and what is under way is cancelled. -/
theorem moveJobs_rows (hdb : PushInvariant db) (id : RowId) (token : String) (now : Timestamp) :
    Descends PushOutbox.id (fun row row' => Tended row row' ∧ (isOpenPush row'.status →
        isOpenPush row.status ∧ row' = if row.pushTokenId = some id then
          { row with tokenSnapshot := token } else row))
      db.pushOutbox (moveJobs id token now db).pushOutbox := by
  have hmove : Descends PushOutbox.id (fun row row' => Tended row row' ∧
      row' = if row.pushTokenId = some id ∧ row.status = .queued then
        { row with tokenSnapshot := token } else row)
      db.pushOutbox
      (updateWhere (fun row => row.pushTokenId = some id ∧ row.status = .queued)
        (fun row => { row with tokenSnapshot := token }) db.pushOutbox) := by
    apply descends_updateWhere
    · intro row hrow hnot
      refine ⟨Tended.refl (hdb.jobs row hrow), ?_⟩
      rw [if_neg (by simpa using hnot)]
    · exact fun _ => rfl
    · intro row hrow hwaits
      have hwaits := of_decide_eq_true hwaits
      refine ⟨tended_move token (hdb.jobs row hrow) hwaits.2, ?_⟩
      rw [if_pos hwaits]
  constructor
  · have hids : (moveJobs id token now db).pushOutbox.map PushOutbox.id =
        (updateWhere (fun row => row.pushTokenId = some id ∧ row.status = .queued)
          (fun row => { row with tokenSnapshot := token }) db.pushOutbox).map PushOutbox.id :=
      map_key_updateWhere fun _ => rfl
    rw [hids]
    exact hmove.keys
  · intro row' hrow'
    rcases mem_updateWhere.1 hrow' with ⟨moved, hmoved, hcond, rfl⟩ | ⟨hmoved, hcond⟩
    · obtain ⟨row, hrow, hid, htended, hsame⟩ := hmove.rows moved hmoved
      refine ⟨row, hrow, hid, htended.trans (tended_cancel now ?_), fun hopen => ?_⟩
      · have hflight := (of_decide_eq_true hcond).2
        simp only [isInFlightPush, decide_eq_true_eq] at hflight
        simp only [isOpenPush, decide_eq_true_eq]
        exact List.mem_cons_of_mem _ hflight
      · exact absurd hopen not_isOpenPush_cancelled
    · obtain ⟨row, hrow, hid, htended, hsame⟩ := hmove.rows row' hmoved
      refine ⟨row, hrow, hid, htended, fun hopen => ?_⟩
      by_cases href : row.pushTokenId = some id
      · -- A job of the token that is still open was waiting.
        have hqueued : row.status = .queued := by
          by_contra hother
          rw [if_neg fun h => hother h.2] at hsame
          subst hsame
          apply hcond
          simp only [isOpenPush, List.mem_cons, decide_eq_true_eq] at hopen
          simpa [href, isInFlightPush, hother] using hopen
        rw [if_pos ⟨href, hqueued⟩] at hsame
        rw [if_pos href]
        refine ⟨?_, hsame⟩
        rw [hqueued]
        rfl
      · rw [if_neg fun h => href h.1] at hsame
        rw [if_neg href]
        exact ⟨hsame ▸ hopen, hsame⟩

/-- A token that no other device has may be given to a device. -/
theorem uniqueToken_updateToken {id : RowId} (h : TokenTable db)
    (hfree : ∀ row ∈ db.pushTokens, row.id ≠ id → row.token ≠ input.token) :
    UniqueKey PushToken.token (updateWhere (fun row => row.id = id)
      (fun row => { row with token := input.token, platform := input.platform }) db.pushTokens) := by
  have htokens : (updateWhere (fun row => row.id = id)
      (fun row => { row with token := input.token, platform := input.platform })
        db.pushTokens).map PushToken.token =
      db.pushTokens.map fun row => if row.id = id then input.token else row.token := by
    rw [updateWhere, List.map_map]
    apply List.map_congr_left
    intro row _
    by_cases hid : row.id = id <;> simp [hid]
  unfold UniqueKey
  rw [htokens]
  apply List.Nodup.map_on _ (List.Nodup.of_map _ h.ids)
  intro row hrow other hother hsame
  by_cases hid : row.id = id
  · by_cases hid' : other.id = id
    · exact h.ids.eq_of_key hrow hother (hid.trans hid'.symm)
    · rw [if_pos hid, if_neg hid'] at hsame
      exact absurd hsame.symm (hfree other hother hid')
  · by_cases hid' : other.id = id
    · rw [if_neg hid, if_pos hid'] at hsame
      exact absurd hsame (hfree row hrow hid)
    · rw [if_neg hid, if_neg hid'] at hsame
      exact h.tokens.eq_of_key hrow hother hsame

/-- A device gets another token. -/
theorem updateToken_push {id : RowId}
    (h : updateToken id input (moveJobs id input.token now db) = .ok db') : PushChange db db' := by
  simp only [updateToken, bind_eq_ok_iff, require_eq_ok_iff, pure_eq_ok_iff, exists_const] at h
  obtain ⟨hfree, rfl⟩ := h
  constructor
  · intro hdb
    have hrows := moveJobs_rows hdb id input.token now
    constructor
    · exact hrows.uniqueKey hdb.ids
    · intro row' hrow'
      obtain ⟨row, hrow, hid, -⟩ := hrows.rows row' hrow'
      rw [hid]
      exact hdb.drawn row hrow
    · intro row' hrow'
      obtain ⟨row, -, -, htended, -⟩ := hrows.rows row' hrow'
      exact htended.invariant
    · constructor
      · exact hdb.tokens.ids.updateWhere fun _ => rfl
      · have hfree : ∀ row ∈ db.pushTokens, row.id ≠ id → row.token ≠ input.token := hfree
        have hunique := uniqueToken_updateToken hdb.tokens hfree
        exact hunique
      · exact hdb.tokens.devices.updateWhere fun _ => rfl
      · intro row hrow
        rcases mem_updateWhere.1 hrow with ⟨old, hold, -, rfl⟩ | ⟨hrow, -⟩
        · exact hdb.tokens.drawn old hold
        · exact hdb.tokens.drawn row hrow
    · exact hdb.notificationIds
    · exact hdb.notificationDrawn
    · intro row' hrow' hopen
      obtain ⟨row, hrow, -, -, hsame⟩ := hrows.rows row' hrow'
      obtain ⟨hbefore, rfl⟩ := hsame hopen
      obtain ⟨token, htoken, notification, hnotification, href, hvalue, hcarries, howner⟩ :=
        hdb.addressed row hrow hbefore
      by_cases hset : token.id = id
      · refine ⟨{ token with token := input.token, platform := input.platform }, ?_,
          notification, hnotification, ?_⟩
        · exact mem_updateWhere.2 (Or.inl ⟨token, htoken, by simpa using hset, rfl⟩)
        · rw [if_pos (by rw [href, hset])]
          exact ⟨href, rfl, hcarries, howner⟩
      · refine ⟨token, ?_, notification, hnotification, ?_⟩
        · exact mem_updateWhere.2 (Or.inr ⟨htoken, by simpa using hset⟩)
        · rw [if_neg (by rw [href]; exact fun hid => hset (Option.some.inj hid))]
          exact ⟨href, hvalue, hcarries, howner⟩
  · intro hdb
    have hrows := (moveJobs_rows hdb id input.token now).mono fun _ _ _ hstep => hstep.1
    exact hrows.succeeds Unclaimed (Nat.le_refl _)

theorem registerPushToken_push {done : Unit} (h : registerPushToken input now db = .ok (done, db')) :
    PushChange db db' := by
  obtain ⟨_, -, h⟩ := bind_eq_ok_iff.1 h
  split at h
  next deviceToken hdevice =>
    split at h
    · obtain ⟨-, rfl⟩ := Prod.mk.inj (pure_eq_ok_iff.1 h)
      exact setPlatform_push _ _ db
    · obtain ⟨updated, hupdate, h⟩ := bind_eq_ok_iff.1 h
      obtain ⟨-, rfl⟩ := Prod.mk.inj (pure_eq_ok_iff.1 h)
      exact (dropRequested_push _ now db).trans (updateToken_push hupdate)
  next hdevice =>
    obtain ⟨inserted, hinsert, h⟩ := bind_eq_ok_iff.1 h
    obtain ⟨-, rfl⟩ := Prod.mk.inj (pure_eq_ok_iff.1 h)
    exact (dropRequested_push _ now db).trans (insertToken_push hinsert)

end Register

/-! ### Erased accounts -/

/-- What an erasure does to the tables of the notifications. -/
theorem writeAnonymized_push_eq {input : DeletionJobInput} {matchRooms : List RowId} {done : Unit}
    (h : writeAnonymized input matchRooms db = .ok (done, db')) :
    db'.pushTokens = db.pushTokens.filter (fun token => token.userId ≠ input.userId) ∧
      db'.notifications = db.notifications.filter (fun row => row.userId ≠ input.userId) ∧
      db'.pushOutbox = (deleteNotifications input.userId
        (deletePushTokens (fun token => token.userId = input.userId) db)).pushOutbox ∧
      db'.nextRowId = db.nextRowId := by
  simp only [writeAnonymized, bind_eq_ok_iff, require_eq_ok_iff, pure_eq_ok_iff, exists_const,
    Upload.writeUploads_eq_ok_iff] at h
  obtain ⟨written, ⟨-, rfl⟩, -, hafter⟩ := h
  obtain ⟨-, rfl⟩ := Prod.mk.inj hafter
  refine ⟨?_, rfl, rfl, rfl⟩
  simp [deletePushTokens, deleteNotifications, Users.deleteRooms]

/-- The notifications of the account go with their jobs, and its push tokens with them. -/
theorem anonymizeNow_push {input : DeletionJobInput} {done : Unit}
    (h : anonymizeNow input db = .ok (done, db')) : PushChange db db' := by
  obtain ⟨_, -, h⟩ := bind_eq_ok_iff.1 h
  obtain ⟨htokens, hnotifications, hrows, hnext⟩ := writeAnonymized_push_eq h
  have hdescends (hdb : PushInvariant db) :
      Descends PushOutbox.id Tended db.pushOutbox db'.pushOutbox := by
    have huntied : Descends PushOutbox.id Tended db.pushOutbox
        (deletePushTokens (fun token => token.userId = input.userId) db).pushOutbox := by
      apply descends_updateWhere
      · exact fun row hrow _ => Tended.refl (hdb.jobs row hrow)
      · exact fun _ => rfl
      · exact fun row hrow _ => tended_untie (hdb.jobs row hrow)
    rw [hrows]
    refine huntied.trans (fun _ _ _ h h' => h.trans h') (descends_filter fun row hrow => ?_)
    obtain ⟨old, hold, -, htended⟩ := huntied.rows row hrow
    exact Tended.refl htended.invariant
  constructor
  · intro hdb
    constructor
    · exact (hdescends hdb).uniqueKey hdb.ids
    · intro row' hrow'
      obtain ⟨row, hrow, hid, -⟩ := (hdescends hdb).rows row' hrow'
      rw [hid, hnext]
      exact hdb.drawn row hrow
    · intro row' hrow'
      obtain ⟨row, -, -, htended⟩ := (hdescends hdb).rows row' hrow'
      exact htended.invariant
    · constructor
      · rw [htokens]
        exact (List.Sublist.map _ List.filter_sublist).nodup hdb.tokens.ids
      · rw [htokens]
        exact (List.Sublist.map _ List.filter_sublist).nodup hdb.tokens.tokens
      · rw [htokens]
        exact (List.Sublist.map _ List.filter_sublist).nodup hdb.tokens.devices
      · intro row hrow
        rw [htokens] at hrow
        rw [hnext]
        exact hdb.tokens.drawn row (List.mem_filter.1 hrow).1
    · rw [hnotifications]
      exact (List.Sublist.map _ List.filter_sublist).nodup hdb.notificationIds
    · intro row hrow
      rw [hnotifications] at hrow
      rw [hnext]
      exact hdb.notificationDrawn row (List.mem_filter.1 hrow).1
    · intro row' hrow' hopen
      rw [hrows] at hrow'
      rw [htokens, hnotifications]
      obtain ⟨huntied, hkept⟩ := List.mem_filter.1 hrow'
      -- A job that stays carries a notification of another user.
      have hothers : ∀ notification ∈ db.notifications, row'.notificationId = notification.id →
          notification.userId ≠ input.userId := by
        intro notification hnotification hcarries huser
        simp only [decide_eq_true_eq, List.any_eq_true, not_exists, not_and] at hkept
        exact hkept notification hnotification huser hcarries
      rcases mem_updateWhere.1 huntied with ⟨row, hrow, hdeleted, rfl⟩ | ⟨hrow, -⟩
      · simp only [decide_eq_true_eq, List.any_eq_true] at hdeleted
        obtain ⟨gone, hgone, huser, href⟩ := hdeleted
        obtain ⟨token, htoken, notification, hnotification, href', -, hcarries, howner⟩ :=
          hdb.addressed row hrow hopen
        have hsame : token.id = gone.id := Option.some.inj (href'.symm.trans href)
        rw [hdb.tokens.ids.eq_of_key htoken hgone hsame, huser] at howner
        exact absurd howner.symm (hothers notification hnotification hcarries)
      · obtain ⟨token, htoken, notification, hnotification, href, hvalue, hcarries, howner⟩ :=
          hdb.addressed row' hrow hopen
        have hother := hothers notification hnotification hcarries
        refine ⟨token, List.mem_filter.2 ⟨htoken, ?_⟩, notification,
          List.mem_filter.2 ⟨hnotification, ?_⟩, href, hvalue, hcarries, howner⟩
        · rw [howner]
          simpa using hother
        · simpa using hother
  · exact fun hdb => (hdescends hdb).succeeds Unclaimed (Nat.le_of_eq hnext.symm)

end ChatTea.Notification
