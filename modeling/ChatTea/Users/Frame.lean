import ChatTea.Database.Alone
import ChatTea.Lib.Frames
import ChatTea.Users.Erasure

/-!
# What an erasure leaves alone

`anonymizeDeletedAccount` deletes and updates in some thirty tables, and the foreign keys
carry its deletes on into the rooms of the user's matches and the pushes of the user's
notifications. This file states what it may touch, table by table, and that it touches no
more. There is one exception: a push of another user's notification that went to a device
which now belongs to the user loses its reference to the deleted push token.

## Main definitions

* `matchRoomsOf` — the rooms of a user's matches
* `SparesOthers` — the rows of others are the same
* `anonymizeNow` — the call on a database that no one else writes to

## Main results

* `writeAnonymized_spares` — the writes of an erasure are confined to the user
* `erasure_spares_others` — so is every run of the call, which writes all or nothing
-/

namespace ChatTea.Users

open Interleaving RowLocks Table Transaction

variable {ι : Type}

/-! ### What belongs to a user -/

/-- The rooms of the matches of a user. -/
def matchRoomsOf (userId : Uuid) (db : Database) : List RowId :=
  (db.matchRows.filter fun row => row.userLowId = userId ∨ row.userHighId = userId).map (·.roomId)

/-- The message is in a room of a match of the user. -/
def isMatchMessage (userId : Uuid) (db : Database) (messageId : RowId) : Bool :=
  db.messages.any fun message => message.id = messageId ∧ message.roomId ∈ matchRoomsOf userId db

/-- The push carries a notification of the user. -/
def carriesNotificationOf (userId : Uuid) (db : Database) (push : PushOutbox) : Bool :=
  db.notifications.any fun row => row.userId = userId ∧ push.notificationId = row.id

/-- The push refers to a push token of the user. -/
def sentToDeviceOf (userId : Uuid) (db : Database) (push : PushOutbox) : Bool :=
  db.pushTokens.any fun token => token.userId = userId ∧ push.pushTokenId = some token.id

/-- The receipt refers to a message in a match room of the user. -/
def readMatchMessage (userId : Uuid) (db : Database) (receipt : ReadReceipt) : Bool :=
  db.messages.any fun message =>
    message.roomId ∈ matchRoomsOf userId db ∧ receipt.lastReadMessageId = some message.id

def forgetMessage (receipt : ReadReceipt) : ReadReceipt :=
  { receipt with lastReadMessageId := none }

def forgetToken (push : PushOutbox) : PushOutbox := { push with pushTokenId := none }

/-- Every row that neither carries the identifier of the user nor belongs to a match room
or a notification of the user is the same. -/
structure SparesOthers (userId : Uuid) (before after : Database) : Prop where
  users : SameOutside (fun row => row.userId = userId) before.users after.users
  profileUploads :
    SameOutside (fun row => row.userId = userId) before.profileUploads after.profileUploads
  userProfilePhotos :
    SameOutside (fun row => row.userId = userId) before.userProfilePhotos after.userProfilePhotos
  refreshTokens :
    SameOutside (fun row => row.userId = userId) before.refreshTokens after.refreshTokens
  authIdentities :
    SameOutside (fun row => row.userId = userId) before.authIdentities after.authIdentities
  phoneVerifications : after.phoneVerifications = before.phoneVerifications
  phoneVerificationTokens : after.phoneVerificationTokens = before.phoneVerificationTokens
  kakaoPhoneVerificationTokens :
    after.kakaoPhoneVerificationTokens = before.kakaoPhoneVerificationTokens
  notifications :
    SameOutside (fun row => row.userId = userId) before.notifications after.notifications
  pushTokens : SameOutside (fun row => row.userId = userId) before.pushTokens after.pushTokens
  /-- The reference to a deleted push token is all that a push of another may lose. -/
  pushOutbox : SameOutside (carriesNotificationOf userId before)
    (updateWhere (sentToDeviceOf userId before) forgetToken before.pushOutbox) after.pushOutbox
  messages : SameOutside
    (fun row => row.senderUserId = some userId ∨ row.roomId ∈ matchRoomsOf userId before)
    before.messages after.messages
  /-- A receipt of another room that refers to a message of a match room loses the reference. -/
  readReceipts : SameOutside
    (fun row => row.userId = userId ∨ row.roomId ∈ matchRoomsOf userId before)
    (updateWhere (readMatchMessage userId before) forgetMessage before.readReceipts)
    after.readReceipts
  messageReports : SameOutside
    (fun row => row.reporterUserId = userId ∨ isMatchMessage userId before row.messageId)
    before.messageReports after.messageReports
  userLikedMeAccesses :
    SameOutside (fun row => row.userId = userId) before.userLikedMeAccesses after.userLikedMeAccesses
  communityProfiles :
    SameOutside (fun row => row.userId = userId) before.communityProfiles after.communityProfiles
  communityPostReports : SameOutside (fun row => row.reporterUserId = userId)
    before.communityPostReports after.communityPostReports
  communityCommentReports : SameOutside (fun row => row.reporterUserId = userId)
    before.communityCommentReports after.communityCommentReports
  billingEvents : after.billingEvents = before.billingEvents
  revenueCatTransactions : after.revenueCatTransactions = before.revenueCatTransactions
  revenueCatTransactionLedger :
    after.revenueCatTransactionLedger = before.revenueCatTransactionLedger
  userConsumableBalances : SameOutside (fun row => row.userId = userId)
    before.userConsumableBalances after.userConsumableBalances
  userSubscriptions :
    SameOutside (fun row => row.userId = userId) before.userSubscriptions after.userSubscriptions
  userBoosts : SameOutside (fun row => row.userId = userId) before.userBoosts after.userBoosts
  matchActions : SameOutside (fun row => row.actorUserId = userId ∨ row.targetUserId = userId)
    before.matchActions after.matchActions
  userLikes : SameOutside (fun row => row.likerUserId = userId ∨ row.likedUserId = userId)
    before.userLikes after.userLikes
  userBlocks : SameOutside (fun row => row.blockerUserId = userId ∨ row.blockedUserId = userId)
    before.userBlocks after.userBlocks
  rooms : SameOutside (fun row => row.id ∈ matchRoomsOf userId before) before.rooms after.rooms
  roomMembers : SameOutside
    (fun row => row.userId = userId ∨ row.roomId ∈ matchRoomsOf userId before)
    before.roomMembers after.roomMembers
  matchRows : SameOutside
    (fun row => row.userLowId = userId ∨ row.userHighId = userId ∨
      row.roomId ∈ matchRoomsOf userId before)
    before.matchRows after.matchRows
  nextRowId : after.nextRowId = before.nextRowId

/-! ### The writes of an erasure -/

variable {input : DeletionJobInput} {before after : Database} {done : Unit}

/-- A delete of the rows with the identifier of the user in one column. -/
theorem sameOutside_owner {α : Type} (owner : α → Uuid) (userId : Uuid) (rows : List α) :
    SameOutside (fun row => owner row = userId) rows
      (rows.filter fun row => owner row ≠ userId) :=
  sameOutside_filter fun row _ hrow => by simpa using hrow

/-- A delete of the rows with the identifier of the user in one of two columns. -/
theorem sameOutside_pair {α : Type} (first second : α → Uuid) (userId : Uuid) (rows : List α) :
    SameOutside (fun row => first row = userId ∨ second row = userId) rows
      (rows.filter fun row => ¬ (first row = userId ∨ second row = userId)) :=
  sameOutside_filter fun row _ hrow => by simpa [or_iff_not_imp_left] using hrow

/-- An update of the rows with the identifier of the user that keeps the identifier. -/
theorem sameOutside_update {α : Type} (owner : α → Uuid) (set : α → α)
    (hset : ∀ row, owner (set row) = owner row) (userId : Uuid) (rows : List α) :
    SameOutside (fun row => owner row = userId) rows
      (updateWhere (fun row => owner row = userId) set rows) := by
  apply sameOutside_updateWhere
  intro row _ hrow
  simpa [hset] using hrow

/-- The two updates of the uploads find rows of the user only. -/
theorem anonymizeUploads_spares (input : DeletionJobInput) (uploads : List ProfileUpload) :
    SameOutside (fun upload => upload.userId = input.userId) uploads
      (anonymizeUploads input uploads) := by
  have hfailed : SameOutside (fun upload => upload.userId = input.userId) uploads
      (updateWhere (fun upload => upload.userId = input.userId) failDeletedOwner uploads) :=
    sameOutside_update ProfileUpload.userId failDeletedOwner (fun _ => rfl) _ _
  apply hfailed.trans
  apply sameOutside_updateWhere
  intro upload _ hqueued
  have howner := (of_decide_eq_true hqueued).1
  exact ⟨decide_eq_true howner, decide_eq_true howner⟩

/-- The deletes that follow from the rooms. -/
theorem sameOutside_rooms {α : Type} (room : α → RowId) (roomIds : List RowId) (rows : List α) :
    SameOutside (fun row => room row ∈ roomIds) rows
      (rows.filter fun row => room row ∉ roomIds) :=
  sameOutside_filter fun row _ hrow => by simpa using hrow

theorem deletePushTokens_pushOutbox (userId : Uuid) (db : Database) :
    (deletePushTokens (fun token => token.userId = userId) db).pushOutbox =
      updateWhere (sentToDeviceOf userId db) forgetToken db.pushOutbox := by
  simp only [deletePushTokens, decide_eq_true_eq]
  rfl

/-- The receipts in the rooms are gone, and others lose the messages that are. -/
theorem deleteRooms_readReceipts (userId : Uuid) (db : Database) :
    (deleteRooms (matchRoomsOf userId db) db).readReceipts =
      (updateWhere (readMatchMessage userId db) forgetMessage db.readReceipts).filter
        fun row => row.roomId ∉ matchRoomsOf userId db := by
  have hmoved : ∀ row ∈ db.readReceipts, readMatchMessage userId db row = true →
      decide ((forgetMessage row).roomId ∉ matchRoomsOf userId db) =
        decide (row.roomId ∉ matchRoomsOf userId db) := fun _ _ _ => rfl
  rw [filter_updateWhere hmoved]
  simp only [deleteRooms, decide_eq_true_eq]
  rfl

theorem writeAnonymized_spares
    (h : writeAnonymized input (matchRoomsOf input.userId before) before = .ok (done, after)) :
    SparesOthers input.userId before after := by
  simp only [writeAnonymized, bind_eq_ok_iff, require_eq_ok_iff, pure_eq_ok_iff, exists_const,
    Upload.writeUploads_eq_ok_iff] at h
  obtain ⟨written, ⟨-, rfl⟩, -, hafter⟩ := h
  obtain ⟨-, rfl⟩ := Prod.mk.inj hafter
  constructor
  case users =>
    exact sameOutside_update User.userId (anonymizeColumns input.now) (fun _ => rfl) _ before.users
  case profileUploads => exact anonymizeUploads_spares input before.profileUploads
  case userProfilePhotos => exact sameOutside_owner UserProfilePhoto.userId _ _
  case refreshTokens => exact sameOutside_owner RefreshToken.userId _ _
  case authIdentities => exact sameOutside_owner AuthIdentity.userId _ _
  case phoneVerifications => rfl
  case phoneVerificationTokens => rfl
  case kakaoPhoneVerificationTokens => rfl
  case notifications => exact sameOutside_owner Notification.userId _ _
  case pushTokens =>
    apply sameOutside_filter
    intro token _ htoken
    simpa using htoken
  case pushOutbox =>
    -- The cascade from the notifications follows the one from the push tokens.
    rw [← deletePushTokens_pushOutbox]
    apply sameOutside_filter
    intro push _ hpush
    simpa [carriesNotificationOf, deletePushTokens] using hpush
  case messages =>
    apply sameOutside_filter
    intro row _ hrow
    simp only [decide_eq_false_iff_not, not_not, decide_eq_true_eq] at hrow ⊢
    exact Or.inr hrow
  case readReceipts =>
    have hreceipts := deleteRooms_readReceipts input.userId before
    apply (congrArg (SameOutside _ _) hreceipts).mpr
    apply (sameOutside_rooms ReadReceipt.roomId _ _).mono
    intro row hrow
    simp only [decide_eq_true_eq] at hrow ⊢
    exact Or.inr hrow
  case messageReports =>
    have hreported : SameOutside
        (fun row => row.reporterUserId = input.userId ∨ isMatchMessage input.userId before row.messageId)
        before.messageReports
        (before.messageReports.filter fun row => row.reporterUserId ≠ input.userId) := by
      apply (sameOutside_owner MessageReport.reporterUserId _ _).mono
      intro row hrow
      simp only [decide_eq_true_eq] at hrow ⊢
      exact Or.inl hrow
    apply hreported.trans
    apply sameOutside_filter
    intro row _ hrow
    simp only [decide_eq_false_iff_not, not_not, decide_eq_true_eq] at hrow ⊢
    apply Or.inr
    obtain ⟨message, hmem, hmessage⟩ := List.any_eq_true.1 hrow
    simp only [decide_eq_true_eq] at hmessage
    exact List.any_eq_true.2 ⟨message, hmem, decide_eq_true ⟨hmessage.2.symm, hmessage.1⟩⟩
  case userLikedMeAccesses => exact sameOutside_owner LikedMeAccess.userId _ _
  case communityProfiles =>
    exact sameOutside_update CommunityProfile.userId (fun row => { row with name := "익명" })
      (fun _ => rfl) _ before.communityProfiles
  case communityPostReports => exact sameOutside_owner CommunityPostReport.reporterUserId _ _
  case communityCommentReports => exact sameOutside_owner CommunityCommentReport.reporterUserId _ _
  case billingEvents => rfl
  case revenueCatTransactions => rfl
  case revenueCatTransactionLedger => rfl
  case userConsumableBalances => exact sameOutside_owner ConsumableBalance.userId _ _
  case userSubscriptions => exact sameOutside_owner UserSubscription.userId _ _
  case userBoosts => exact sameOutside_owner UserBoost.userId _ _
  case matchActions => exact sameOutside_pair MatchAction.actorUserId MatchAction.targetUserId _ _
  case userLikes => exact sameOutside_pair UserLike.likerUserId UserLike.likedUserId _ _
  case userBlocks => exact sameOutside_pair UserBlock.blockerUserId UserBlock.blockedUserId _ _
  case rooms => exact sameOutside_rooms Room.id _ before.rooms
  case roomMembers =>
    apply (sameOutside_rooms RoomMember.roomId _ before.roomMembers).mono
    intro row hrow
    simp [of_decide_eq_true hrow]
  case matchRows =>
    apply (sameOutside_rooms Match.roomId _ before.matchRows).mono
    intro row hrow
    simp [of_decide_eq_true hrow]
  case nextRowId => rfl

/-! ### The call -/

/-- `anonymizeDeletedAccount` on a database that no one else writes to. -/
def anonymizeNow (input : DeletionJobInput) : Call Database Failure Unit := fun db => do
  throwIf (.error "ACCOUNT_DELETION_CLAIM_REQUIRED") (¬ db.users.any (canAnonymize input))
  writeAnonymized input (matchRoomsOf input.userId db) db

theorem anonymizeNow_eq_ok_iff {db : Database} :
    anonymizeNow input db = .ok (done, after) ↔
      (∃ user ∈ db.users, canAnonymize input user) ∧
        writeAnonymized input (matchRoomsOf input.userId db) db = .ok (done, after) := by
  simp only [anonymizeNow, bind_eq_ok_iff, throwIf_eq_ok_iff, not_not, exists_const,
    List.any_eq_true]

variable {pid : ℕ} {w : World} {db : Database}

/-- Alone, the call returns with its writes made; if it throws, it has written nothing,
unless the answer to its commit was lost. -/
theorem anonymize_alone (input : DeletionJobInput) (pid : ℕ) (w : World) :
    (anonymizeDeletedAccount input : Prog World ι Failure Unit).Alone pid
      (fun done after => anonymizeNow input w.db = .ok (done, after.db))
      (fun _ after => after.db = w.db ∨ anonymizeNow input w.db = .ok ((), after.db)) w := by
  have hnothing : ∀ (_ : Failure) (after : World), after.db = w.db →
      after.db = w.db ∨ anonymizeNow input w.db = .ok ((), after.db) := fun _ _ => Or.inl
  apply alone_transaction
  · apply alone_select_bind rfl _ hnothing
    intro found hfound
    apply alone_ofExcept_bind _ fun failure _ => hnothing failure found hfound
    intro _ hclaimed
    rw [throwIf_eq_ok_iff, not_not] at hclaimed
    apply alone_select_bind hfound _ hnothing
    intro found hfound
    apply alone_select_bind hfound _ hnothing
    intro found hfound
    apply alone_select_bind hfound _ hnothing
    intro found hfound
    apply alone_select_bind hfound _ hnothing
    intro found hfound
    have hnow : ∀ done db', writeAnonymized input (matchRoomsOf input.userId w.db) w.db =
        .ok (done, db') → anonymizeNow input w.db = .ok (done, db') := fun done db' hwrites =>
      anonymizeNow_eq_ok_iff.2 ⟨List.any_eq_true.1 hclaimed, hwrites⟩
    apply alone_commit hfound _ hnothing
    · intro failure done db' after hwrites hafter
      rw [hafter]
      exact Or.inr (hnow done db' hwrites)
    · intro done db' after hwrites hafter
      rw [hafter]
      exact hnow done db' hwrites
  · intro failure before after hsame hthrown
    rwa [hsame]

/-- The run in which no access fails. -/
theorem anonymize_returns {clocks : Timestamp → Prop} (hw : Quiet pid before clocks w)
    (h : anonymizeNow input before = .ok (done, after)) :
    Returns pid (anonymizeDeletedAccount input : Prog World ι Failure Unit) w done after := by
  obtain ⟨hclaimed, hwrites⟩ := anonymizeNow_eq_ok_iff.1 h
  apply returns_transaction
  apply returns_select_bind hw
  intro found hfound
  apply returns_ofExcept_bind (throwIf_of_not (not_not.2 (List.any_eq_true.2 hclaimed)))
  apply returns_select_bind hfound
  intro found hfound
  apply returns_select_bind hfound
  intro found hfound
  apply returns_select_bind hfound
  intro found hfound
  apply returns_select_bind hfound
  intro found hfound
  exact returns_commit hfound hwrites

/-- **Erasure frame.** A call that has ended has changed nothing, or it has erased the
account and spared all others. It has changed nothing unless its guard held and all its
statements went through. -/
theorem erasure_spares_others (input : DeletionJobInput) (pid : ℕ) (w after : World)
    (outcome : Except Failure Unit) (allowed : World → World → Prop)
    (hruns : Runs allowed pid (anonymizeDeletedAccount input : Prog World ι Failure Unit) w
      (Prog.ended outcome) after) :
    (after.db = w.db ∨
      writeAnonymized input (matchRoomsOf input.userId w.db) w.db = .ok ((), after.db) ∧
        SparesOthers input.userId w.db after.db) ∧
      ((∀ user ∈ w.db.users, ¬ canAnonymize input user) → after.db = w.db) ∧
      ∀ failure, writeAnonymized input (matchRoomsOf input.userId w.db) w.db = .error failure →
        after.db = w.db := by
  have hwritten : after.db = w.db ∨ anonymizeNow input w.db = .ok ((), after.db) := by
    have hend := (anonymize_alone input pid w).runs hruns
    cases outcome with
    | ok done => exact Or.inr hend
    | error failure => exact hend
  refine ⟨?_, ?_, ?_⟩
  · apply hwritten.imp_right
    intro hnow
    have hwrites := (anonymizeNow_eq_ok_iff.1 hnow).2
    exact ⟨hwrites, writeAnonymized_spares hwrites⟩
  · intro hguard
    apply hwritten.resolve_right
    intro hnow
    obtain ⟨user, huser, hcan⟩ := (anonymizeNow_eq_ok_iff.1 hnow).1
    exact hguard user huser hcan
  · intro failure hthrown
    apply hwritten.resolve_right
    intro hnow
    have hwrites := (anonymizeNow_eq_ok_iff.1 hnow).2
    rw [hthrown] at hwrites
    cases hwrites

/-! ### A push that refers to another account's token -/

def stranger : Uuid := ⟨⟨"5a000000-0000-4000-8000-000000000048".toList, rfl⟩, rfl⟩

/-- A delivered push of the stranger that refers to a token of the departing user. Nothing
ties the owner of a job's notification to the owner of its token. -/
def deliveredPush : PushOutbox where
  id := 2
  notificationId := 0
  pushTokenId := some 1
  tokenSnapshot := "token"
  title := ""
  body := ""
  route := none
  status := .delivered
  ticketId := none
  sendAttempts := 1
  receiptAttempts := 1
  nextAttemptAt := 0
  receiptAvailableAt := none
  leaseExpiresAt := none
  lastErrorCode := none
  lastErrorMessage := none
  sentAt := some 0
  completedAt := some 0
  createdAt := 0

def foreignReference : Database :=
  { departingDatabase [] with
    users := User.visible stranger :: (departingDatabase []).users
    notifications := [⟨0, stranger, .like, "", "", none, none, none, 0⟩]
    pushTokens := [⟨1, departing.toUuid, stranger, "token", "ios"⟩]
    pushOutbox := [deliveredPush] }

theorem anonymizeNow_departure :
    ∃ after, anonymizeNow departure foreignReference = .ok ((), after) ∧
      after.pushOutbox = [forgetToken deliveredPush] := ⟨_, rfl, rfl⟩

/-- The erasure runs through, and the stranger's account is as before. -/
theorem erasure_spares_others_departure :
    ∃ after, Runs (fun _ _ => True) 0
        (anonymizeDeletedAccount departure : Prog World DeletionJobInput Failure Unit)
        (.ofDatabase foreignReference) (Prog.ended (.ok ())) after ∧
      ((after.db = foreignReference ∨
        writeAnonymized departure [] foreignReference = .ok ((), after.db) ∧
          SparesOthers departure.userId foreignReference after.db) ∧
        ((∀ user ∈ foreignReference.users, ¬ canAnonymize departure user) →
          after.db = foreignReference) ∧
        ∀ failure, writeAnonymized departure [] foreignReference = .error failure →
          after.db = foreignReference) := by
  obtain ⟨db', hnow, -⟩ := anonymizeNow_departure
  obtain ⟨after, hruns, -⟩ := anonymize_returns (quiet_ofDatabase 0 foreignReference) hnow
  exact ⟨after, hruns, erasure_spares_others departure 0 _ after (.ok ()) _ hruns⟩

/-- The stranger's push loses its reference to the token. -/
theorem strangers_push_changed :
    ∃ after, Runs (fun _ _ => True) 0
        (anonymizeDeletedAccount departure : Prog World DeletionJobInput Failure Unit)
        (.ofDatabase foreignReference) (.done ()) after ∧
      deliveredPush ∈ foreignReference.pushOutbox ∧
      carriesNotificationOf departure.userId foreignReference deliveredPush = false ∧
      deliveredPush ∉ after.db.pushOutbox := by
  obtain ⟨db', hnow, hpushes⟩ := anonymizeNow_departure
  obtain ⟨after, hruns, rfl⟩ := anonymize_returns (quiet_ofDatabase 0 foreignReference) hnow
  refine ⟨after, hruns, List.mem_singleton_self _, by decide, ?_⟩
  rw [hpushes]
  decide

end ChatTea.Users
