import ChatTea.Database.World
import ChatTea.Upload.Repository

/-!
# The user repository

The embedding of the calls of `UserRepository` that write: replacing a profile,
and scheduling, restoring, claiming, releasing and carrying out the deletion of
an account. The calls that are one statement are atomic; `replaceProfile`,
`scheduleDeletion` and `anonymizeDeletedAccount` are transactions written out
statement by statement.

A transaction's writes are computed from the rows its statements have locked and
become visible together when it commits.

## Main definitions

* `replaceProfile` — new profile and photos
* `scheduleDeletion`, `restoreScheduledDeletion` — hide an account until a deadline, and back
* `claimDueDeletionBatch`, `releaseDeletionLease` — the leases of the deletion worker
* `anonymizeDeletedAccount` — erase an account
-/

namespace ChatTea.Users

open Interleaving Table Transaction

variable {ι : Type}

/-! ### Replacing a profile -/

structure ReplaceProfileInput where
  userId : UuidText
  userName : String
  birthDate : String
  region : String
  interestedGender : InterestedGender
  intro : String
  photoUploadIds : List UuidText

/-- What a photo of the new profile is taken from: an upload, or a photo that has none. -/
structure PhotoAuthority where
  photoId : Option Uuid
  uploadId : Option Uuid
  url : Text
deriving DecidableEq

def photoUploadInvalid : Failure := .error "PROFILE_PHOTO_UPLOAD_INVALID"

/-- The verified uploads of the user among the given identifiers. -/
def verifiedUploads (input : ReplaceProfileInput) (db : Database) : List ProfileUpload :=
  db.profileUploads.filter fun upload =>
    upload.userId = input.userId.toUuid ∧ upload.status = .verified ∧
      upload.id ∈ input.photoUploadIds.map UuidText.toUuid

/-- The photos of the user among the given identifiers that have no upload. -/
def legacyPhotos (input : ReplaceProfileInput) (db : Database) : List UserProfilePhoto :=
  db.userProfilePhotos.filter fun photo =>
    photo.userId = input.userId.toUuid ∧ photo.uploadId = none ∧
      photo.id ∈ input.photoUploadIds.map UuidText.toUuid

/-- A map from the identifiers PostgreSQL returned, compared as texts. -/
abbrev Authorities := List (Text × PhotoAuthority)

def addUpload (authorities : Authorities) (upload : ProfileUpload) : Except Failure Authorities :=
  match upload.publicUrl with
  | none => throw photoUploadInvalid
  | some publicUrl => do
      throwIf photoUploadInvalid
        (publicUrl = [] ∨ (authorities.lookup upload.id.text).isSome)
      return authorities ++ [(upload.id.text, ⟨none, some upload.id, publicUrl⟩)]

def addLegacyPhoto (authorities : Authorities) (photo : UserProfilePhoto) :
    Except Failure Authorities := do
  throwIf photoUploadInvalid (authorities.lookup photo.id.text).isSome
  return authorities ++ [(photo.id.text, ⟨some photo.id, none, photo.url⟩)]

/-- The photos of the new profile in the order of the input. -/
def orderedPhotos (input : ReplaceProfileInput) (uploads : List ProfileUpload)
    (legacyPhotos : List UserProfilePhoto) : Except Failure (List PhotoAuthority) := do
  let authorities ← uploads.foldlM addUpload []
  let authorities ← legacyPhotos.foldlM addLegacyPhoto authorities
  input.photoUploadIds.mapM fun authorityId =>
    match authorities.lookup authorityId.text with
    | some photo => return photo
    | none => throw photoUploadInvalid

/-- What an identifier stands for: an upload with an address, or a photo that has no upload. -/
inductive StandsFor (uploads : List ProfileUpload) (legacyPhotos : List UserProfilePhoto)
    (authorityId : Text) : PhotoAuthority → Prop
  | upload {upload publicUrl} (mem : upload ∈ uploads) (id : upload.id.text = authorityId)
      (url : upload.publicUrl = some publicUrl) (shown : publicUrl ≠ []) :
      StandsFor uploads legacyPhotos authorityId ⟨none, some upload.id, publicUrl⟩
  | legacy {photo} (mem : photo ∈ legacyPhotos) (id : photo.id.text = authorityId) :
      StandsFor uploads legacyPhotos authorityId ⟨some photo.id, none, photo.url⟩

/-- The rows are ones that the selects of `replaceProfile` find. -/
structure SourcesStored (input : ReplaceProfileInput) (uploads : List ProfileUpload)
    (legacyRows : List UserProfilePhoto) (db : Database) : Prop where
  uploads : ∀ upload ∈ uploads, upload ∈ verifiedUploads input db
  legacyRows : ∀ photo ∈ legacyRows, photo ∈ legacyPhotos input db

section Ordered

variable {input : ReplaceProfileInput} {uploads : List ProfileUpload}
  {legacyPhotos : List UserProfilePhoto} {photos : List PhotoAuthority}
  {authorities after : Authorities} {failure : Failure}

theorem addUpload_eq_ok_iff {upload : ProfileUpload} :
    addUpload authorities upload = .ok after ↔ ∃ publicUrl, upload.publicUrl = some publicUrl ∧
      publicUrl ≠ [] ∧ authorities.lookup upload.id.text = none ∧
      authorities ++ [(upload.id.text, ⟨none, some upload.id, publicUrl⟩)] = after := by
  unfold addUpload
  cases upload.publicUrl with
  | none => simp
  | some publicUrl =>
      simp only [bind_eq_ok_iff, throwIf_eq_ok_iff, pure_eq_ok_iff, exists_const, not_or,
        Option.isNone_iff_eq_none, Bool.not_eq_true, and_assoc, Option.isSome_eq_false_iff,
        Option.some.injEq, exists_eq_left']

theorem addLegacyPhoto_eq_ok_iff {photo : UserProfilePhoto} :
    addLegacyPhoto authorities photo = .ok after ↔ authorities.lookup photo.id.text = none ∧
      authorities ++ [(photo.id.text, ⟨some photo.id, none, photo.url⟩)] = after := by
  simp only [addLegacyPhoto, bind_eq_ok_iff, throwIf_eq_ok_iff, pure_eq_ok_iff, exists_const,
    Bool.not_eq_true, Option.isSome_eq_false_iff, Option.isNone_iff_eq_none]

/-- The photos are what the identifiers stand for, in the order of the input. -/
theorem orderedPhotos_ok (h : orderedPhotos input uploads legacyPhotos = .ok photos) :
    List.Forall₂ (fun authorityId photo => StandsFor uploads legacyPhotos authorityId.text photo)
      input.photoUploadIds photos := by
  obtain ⟨fromUploads, huploads, h⟩ := bind_eq_ok_iff.1 h
  obtain ⟨authorities, hlegacy, h⟩ := bind_eq_ok_iff.1 h
  let Stand (authorities : Authorities) : Prop :=
    ∀ entry ∈ authorities, StandsFor uploads legacyPhotos entry.1 entry.2
  have hadd {before : Authorities} {entry : Text × PhotoAuthority} (hbefore : Stand before)
      (hentry : StandsFor uploads legacyPhotos entry.1 entry.2) : Stand (before ++ [entry]) := by
    intro other hother
    rcases List.mem_append.1 hother with hold | hnew
    · exact hbefore other hold
    · obtain rfl := List.mem_singleton.1 hnew
      exact hentry
  have hstand : Stand fromUploads := by
    apply foldlM_ok Stand (fun _ hentry => absurd hentry List.not_mem_nil) _ huploads
    intro upload hupload before after hbefore hok
    obtain ⟨publicUrl, hurl, hshown, -, rfl⟩ := addUpload_eq_ok_iff.1 hok
    exact hadd hbefore (.upload hupload rfl hurl hshown)
  have hstand : Stand authorities := by
    apply foldlM_ok Stand hstand _ hlegacy
    intro photo hphoto before after hbefore hok
    obtain ⟨-, rfl⟩ := addLegacyPhoto_eq_ok_iff.1 hok
    exact hadd hbefore (.legacy hphoto rfl)
  apply (mapM_eq_ok_iff.1 h).imp
  intro authorityId photo hfound
  split at hfound
  next found hlookup =>
    obtain rfl := pure_eq_ok_iff.1 hfound
    obtain ⟨before, after, rfl, -⟩ := List.lookup_eq_some_iff.1 hlookup
    exact hstand (authorityId.text, found) (by simp)
  next => cases hfound

theorem lookup_eq_none_iff {text : Text} :
    authorities.lookup text = none ↔ text ∉ authorities.map Prod.fst := by
  rw [List.lookup_eq_none_iff, List.mem_map]
  constructor
  · rintro h ⟨entry, hentry, rfl⟩
    simpa using h entry hentry
  · intro h entry hentry
    rw [bne_iff_ne]
    rintro rfl
    exact h ⟨entry, hentry, rfl⟩

/-- Identifiers that all differ and stand for something are accepted. -/
theorem exists_orderedPhotos (hurls : ∀ upload ∈ uploads, ∃ publicUrl,
      upload.publicUrl = some publicUrl ∧ publicUrl ≠ [])
    (hdistinct : (uploads.map (fun upload => upload.id.text) ++
      legacyPhotos.map fun photo => photo.id.text).Nodup)
    (hknown : ∀ authorityId ∈ input.photoUploadIds,
      (∃ upload ∈ uploads, upload.id.text = authorityId.text) ∨
        ∃ photo ∈ legacyPhotos, photo.id.text = authorityId.text) :
    ∃ photos, orderedPhotos input uploads legacyPhotos = .ok photos := by
  obtain ⟨fromUploads, huploads, hkeys⟩ : ∃ after, uploads.foldlM addUpload [] = .ok after ∧
      after.map Prod.fst = uploads.map fun upload => upload.id.text := by
    apply exists_foldlM (List.map Prod.fst) _ (List.Nodup.of_append_left hdistinct)
    intro before upload hupload hnew
    obtain ⟨publicUrl, hurl, hshown⟩ := hurls upload hupload
    refine ⟨_, addUpload_eq_ok_iff.2 ⟨publicUrl, hurl, hshown, lookup_eq_none_iff.2 hnew, rfl⟩, ?_⟩
    rw [List.map_append]
    rfl
  obtain ⟨authorities, hlegacy, hkeys'⟩ : ∃ after, legacyPhotos.foldlM addLegacyPhoto fromUploads =
      .ok after ∧ after.map Prod.fst = fromUploads.map Prod.fst ++
        legacyPhotos.map fun photo => photo.id.text := by
    apply exists_foldlM (List.map Prod.fst) _ (by rwa [hkeys])
    intro before photo _ hnew
    refine ⟨_, addLegacyPhoto_eq_ok_iff.2 ⟨lookup_eq_none_iff.2 hnew, rfl⟩, ?_⟩
    rw [List.map_append]
    rfl
  have hfound : ∀ authorityId ∈ input.photoUploadIds, ∃ found : PhotoAuthority,
      (match authorities.lookup authorityId.text with
        | some photo => return photo
        | none => throw photoUploadInvalid : Except Failure PhotoAuthority) = .ok found := by
    intro authorityId hmem
    cases hlookup : authorities.lookup authorityId.text with
    | some photo => exact ⟨photo, rfl⟩
    | none =>
        rw [lookup_eq_none_iff, hkeys', hkeys, List.mem_append, List.mem_map, List.mem_map] at hlookup
        exact absurd (hknown authorityId hmem) hlookup
  obtain ⟨photos, hphotos⟩ := exists_mapM hfound
  exact ⟨photos, bind_eq_ok_iff.2 ⟨fromUploads, huploads,
    bind_eq_ok_iff.2 ⟨authorities, hlegacy, hphotos⟩⟩⟩

end Ordered

def replaceColumns (input : ReplaceProfileInput) (now : Timestamp) (user : User) : User :=
  { user with
    userName := input.userName
    birthDate := some input.birthDate
    region := some input.region
    interestedGender := some input.interestedGender
    intro := input.intro
    profileCompletedAt := some now }

/-- The new photo rows; `drawn` are the identifiers that PostgreSQL draws. -/
def insertedPhotos (userId : Uuid) (photos : List PhotoAuthority) (drawn : ℕ → Uuid) :
    List UserProfilePhoto :=
  photos.zipIdx.map fun (photo, position) =>
    { id := photo.photoId.getD (drawn position)
      userId := userId
      uploadId := photo.uploadId
      url := photo.url
      position := position }

/-- The columns of a photo that are unique together. -/
def photoPlace (photo : UserProfilePhoto) : Uuid × ℕ := (photo.userId, photo.position)

/-- The writes of `replaceProfile`. -/
def writeProfile (input : ReplaceProfileInput) (now : Timestamp) (photos : List PhotoAuthority)
    (drawn : ℕ → Uuid) : Call Database Failure (List UserProfilePhoto) := fun db => do
  let userId := input.userId.toUuid
  let inserted := insertedPhotos userId photos drawn
  let rows := db.userProfilePhotos.filter (fun photo => photo.userId ≠ userId) ++ inserted
  require (.constraint "user_profile_photos_position_check") (∀ photo ∈ inserted, photo.position ≤ 2)
  require (.constraint "user_profile_photos_pkey") (rows.map UserProfilePhoto.id).Nodup
  require (.constraint "user_profile_photos_userId_position_key") (rows.map photoPlace).Nodup
  require (.constraint "user_profile_photos_upload_unique") (rows.filterMap UserProfilePhoto.uploadId).Nodup
  require (.constraint "user_profile_photos_uploadId_fkey")
    (∀ photo ∈ inserted, ∀ uploadId ∈ photo.uploadId,
      db.profileUploads.any fun upload => upload.id = uploadId)
  return (inserted, { db with
    users := updateWhere (fun user => user.userId = userId) (replaceColumns input now) db.users
    userProfilePhotos := rows })

/-- What the constraints of `user_profile_photos` ask of the rows that a new profile leaves. -/
structure PhotosAllowed (rows inserted : List UserProfilePhoto) (db : Database) : Prop where
  positions : ∀ photo ∈ inserted, photo.position ≤ 2
  ids : (rows.map UserProfilePhoto.id).Nodup
  places : (rows.map photoPlace).Nodup
  uploads : (rows.filterMap UserProfilePhoto.uploadId).Nodup
  stored : ∀ photo ∈ inserted, ∀ uploadId ∈ photo.uploadId,
    ∃ upload ∈ db.profileUploads, upload.id = uploadId

/-- The rows that a new profile leaves. -/
def replacedPhotos (userId : Uuid) (photos : List PhotoAuthority) (drawn : ℕ → Uuid)
    (db : Database) : List UserProfilePhoto :=
  db.userProfilePhotos.filter (fun photo => photo.userId ≠ userId) ++
    insertedPhotos userId photos drawn

theorem writeProfile_eq_ok_iff {input : ReplaceProfileInput} {now : Timestamp}
    {photos : List PhotoAuthority} {drawn : ℕ → Uuid} {before after : Database}
    {inserted : List UserProfilePhoto} :
    writeProfile input now photos drawn before = .ok (inserted, after) ↔
      PhotosAllowed (replacedPhotos input.userId.toUuid photos drawn before)
        (insertedPhotos input.userId.toUuid photos drawn) before ∧
      insertedPhotos input.userId.toUuid photos drawn = inserted ∧
      { before with
        users := updateWhere (fun user => user.userId = input.userId.toUuid)
          (replaceColumns input now) before.users
        userProfilePhotos := replacedPhotos input.userId.toUuid photos drawn before } = after := by
  simp only [writeProfile, bind_eq_ok_iff, pure_eq_ok_iff, require_eq_ok_iff, exists_const,
    Prod.mk.injEq, List.any_eq_true, decide_eq_true_eq]
  constructor
  · rintro ⟨hpositions, hids, hplaces, huploads, hstored, hinserted, hafter⟩
    exact ⟨⟨hpositions, hids, hplaces, huploads, hstored⟩, hinserted, hafter⟩
  · rintro ⟨⟨hpositions, hids, hplaces, huploads, hstored⟩, hinserted, hafter⟩
    exact ⟨hpositions, hids, hplaces, huploads, hstored, hinserted, hafter⟩

theorem writeProfile_ok {input : ReplaceProfileInput} {now : Timestamp}
    {photos : List PhotoAuthority} {drawn : ℕ → Uuid} {before after : Database}
    {inserted : List UserProfilePhoto}
    (h : writeProfile input now photos drawn before = .ok (inserted, after)) :
    after.profileUploads = before.profileUploads ∧
      ∀ photo ∈ after.userProfilePhotos, photo ∈ before.userProfilePhotos ∨
        photo ∈ insertedPhotos input.userId.toUuid photos drawn := by
  obtain ⟨-, -, rfl⟩ := writeProfile_eq_ok_iff.1 h
  refine ⟨rfl, fun photo hphoto => ?_⟩
  exact (List.mem_append.1 hphoto).imp_left fun hold => (List.mem_filter.1 hold).1

/-- Only a constraint of the photos stops the writes. -/
theorem writeProfile_error {input : ReplaceProfileInput} {now : Timestamp}
    {photos : List PhotoAuthority} {drawn : ℕ → Uuid} {before : Database} {failure : Failure}
    (h : writeProfile input now photos drawn before = .error failure) :
    failure ≠ .constraint Upload.finalDeletionStateCheck := by
  have hthrown : failure ∈ [Failure.constraint "user_profile_photos_position_check",
      .constraint "user_profile_photos_pkey",
      .constraint "user_profile_photos_userId_position_key",
      .constraint "user_profile_photos_upload_unique",
      .constraint "user_profile_photos_uploadId_fkey"] := by
    simp only [writeProfile, bind_eq_error_iff, require_eq_error_iff, require_eq_ok_iff,
      exists_const] at h
    rcases h with ⟨-, rfl⟩ | ⟨-, ⟨-, rfl⟩ | ⟨-, ⟨-, rfl⟩ | ⟨-, ⟨-, rfl⟩ | ⟨-, ⟨-, rfl⟩ | ⟨-, h⟩⟩⟩⟩⟩
    · simp
    · simp
    · simp
    · simp
    · simp
    · cases h
  rintro rfl
  simp [Upload.finalDeletionStateCheck] at hthrown

/-- The rows of `users` with an identifier, to lock. -/
def userRows (cond : User → Bool) (db : Database) : List LockedRow :=
  (db.users.filter cond).map fun user => .user user.userId

def replaceProfile (input : ReplaceProfileInput) : Prog World ι Failure (List UserProfilePhoto) :=
  transaction do
    let now ← clock
    MonadExcept.ofExcept (throwIf photoUploadInvalid (input.photoUploadIds = []))
    let uploads ← select .share
      (fun db => (verifiedUploads input db).map fun upload => .upload upload.id)
      (verifiedUploads input)
    let legacyPhotos ← select .share
      (fun db => (legacyPhotos input db).map fun photo => .photo photo.id) (legacyPhotos input)
    let photos ← MonadExcept.ofExcept (orderedPhotos input uploads legacyPhotos)
    let updated ← select .noKeyUpdate
      (userRows fun user => user.userId = input.userId.toUuid)
      (fun db => db.hasUser input.userId.toUuid)
    MonadExcept.ofExcept (throwIf (.error "USER_NOT_FOUND") (¬ updated))
    let drawn ← .anything (ℕ → Uuid)
    commit (writeProfile input now photos drawn)

/-! ### Scheduling and restoring -/

/-- The account the update of `scheduleDeletion` finds. -/
def canSchedule (userId : Uuid) (user : User) : Bool :=
  user.userId = userId ∧ user.deletedAt = none ∧ user.deletionScheduledAt = none

def scheduleColumns (now scheduledFor : Timestamp) (user : User) : User :=
  { user with hiddenAt := some now, deletionScheduledAt := some scheduledFor }

/-- The deadline of an account that is not deleted. -/
def findDeadline (userId : Uuid) (db : Database) : Option Timestamp :=
  (db.users.find? fun user => user.userId = userId ∧ user.deletedAt = none).bind
    (·.deletionScheduledAt)

def isOpenPush (status : PushOutboxStatus) : Bool :=
  status ∈ [.queued, .sending, .receiptPending, .receiptChecking]

def cancelPush (now : Timestamp) (row : PushOutbox) : PushOutbox :=
  { row with status := .cancelled, completedAt := some now, leaseExpiresAt := none }

/-- Delete push tokens; an outbox row loses its reference to a deleted one. -/
def deletePushTokens (cond : PushToken → Bool) (db : Database) : Database :=
  { db with
    pushTokens := db.pushTokens.filter fun token => ¬ cond token
    pushOutbox := updateWhere
      (fun row => db.pushTokens.any fun token => cond token ∧ row.pushTokenId = some token.id)
      (fun row => { row with pushTokenId := none }) db.pushOutbox }

/-- The sessions that a `DELETE FROM "refreshToken"` finds. -/
def sessionsOf (userId : Uuid) (db : Database) : List RowId :=
  (db.refreshTokens.filter fun session => session.userId = userId).map (·.id)

def deleteSessions (ids : List RowId) (db : Database) : Database :=
  { db with refreshTokens := db.refreshTokens.filter fun session => session.id ∉ ids }

/-- The writes of `scheduleDeletion`: the schedule if its update found the account,
the sessions and push tokens that its deletes found, and their open pushes. -/
def writeSchedule (userId : Uuid) (now completedAt scheduledFor : Timestamp) (scheduled : Bool)
    (sessions tokenIds : List RowId) : Call Database Failure Unit := fun db =>
  let users := if scheduled then
      updateWhere (fun user => user.userId = userId) (scheduleColumns now scheduledFor) db.users
    else db.users
  let pushOutbox := updateWhere
    (fun row => row.pushTokenId.any (· ∈ tokenIds) ∧ isOpenPush row.status) (cancelPush completedAt)
    db.pushOutbox
  let db := deleteSessions sessions { db with users := users, pushOutbox := pushOutbox }
  return ((), deletePushTokens (fun token => token.id ∈ tokenIds) db)

/-- `scheduled ?? findFirst(…)`. -/
def scheduledAccount (userId : Uuid) (scheduledFor : Timestamp) (scheduled : Bool) :
    Prog World ι Failure (Option Timestamp) :=
  if scheduled then pure (some scheduledFor) else query (findDeadline userId)

def requireDeadline : Option Timestamp → Except Failure Timestamp
  | some deadline => .ok deadline
  | none => .error (.error "ACCOUNT_DELETION_SCHEDULE_FAILED")

def scheduleDeletion (userId : UuidText) (scheduledFor : Timestamp) :
    Prog World ι Failure Timestamp :=
  transaction do
    let now ← clock
    let scheduled ← select .noKeyUpdate (userRows (canSchedule userId.toUuid))
      (fun db => db.users.any (canSchedule userId.toUuid))
    let account ← scheduledAccount userId.toUuid scheduledFor scheduled
    let deadline ← MonadExcept.ofExcept (requireDeadline account)
    let sessions ← select .update (fun db => (sessionsOf userId.toUuid db).map .session)
      (sessionsOf userId.toUuid)
    let tokenIds ← query fun db =>
      (db.pushTokens.filter fun token => token.userId = userId.toUuid).map (·.id)
    let completedAt ← clock
    commit (writeSchedule userId.toUuid now completedAt scheduledFor scheduled sessions tokenIds)
    return deadline

def canRestore (userId : Uuid) (now : Timestamp) (user : User) : Bool :=
  user.userId = userId ∧ user.deletionScheduledAt.any (now < ·) ∧ user.deletedAt = none

def restoreColumns (user : User) : User :=
  { user with
    hiddenAt := none
    deletionScheduledAt := none
    deletionLeaseExpiresAt := none
    deletionAttempts := 0 }

def restoreScheduledDeletion (userId : UuidText) (now : Timestamp) : Call Database Failure Bool :=
  fun db =>
    let cond := canRestore userId.toUuid now
    return (returning cond restoreColumns db.users ≠ [],
      { db with users := updateWhere cond restoreColumns db.users })

/-! ### The deletion worker -/

def deletionDue (now : Timestamp) (user : User) : Bool :=
  user.deletionScheduledAt.any (· ≤ now) ∧ user.deletedAt = none ∧
    user.deletionLeaseExpiresAt.all (· ≤ now)

structure ClaimDeletionInput where
  now : Timestamp
  leaseExpiresAt : Timestamp
  limit : ℕ

/-- Accounts a claim may find: due ones, and which of them depends on the locks
that it skips. -/
structure DeletionCandidates (input : ClaimDeletionInput) (db : Database)
    (candidates : List Uuid) : Prop where
  due : ∀ userId ∈ candidates, ∃ user ∈ db.users, user.userId = userId ∧ deletionDue input.now user
  distinct : candidates.Nodup
  limited : candidates.length ≤ input.limit

structure DeletionJob where
  userId : Uuid
  deletionLeaseExpiresAt : Timestamp
deriving DecidableEq

structure DeletionClaim where
  jobs : List DeletionJob
  hasMore : Bool

def claimColumns (leaseExpiresAt : Timestamp) (user : User) : User :=
  { user with
    deletionLeaseExpiresAt := some leaseExpiresAt
    deletionAttempts := user.deletionAttempts + 1 }

def claimDueDeletionBatch (input : ClaimDeletionInput) (candidates : List Uuid) :
    Call Database Failure DeletionClaim := fun db =>
  if candidates = [] then return (⟨[], false⟩, db)
  else
    let users := updateWhere (fun user => user.userId ∈ candidates)
      (claimColumns input.leaseExpiresAt) db.users
    return (⟨candidates.map (DeletionJob.mk · input.leaseExpiresAt),
      users.any (deletionDue input.now)⟩, { db with users := users })

structure DeletionJobInput extends DeletionJob where
  now : Timestamp
deriving DecidableEq

def canRelease (input : DeletionJobInput) (user : User) : Bool :=
  user.userId = input.userId ∧ user.deletionLeaseExpiresAt = some input.deletionLeaseExpiresAt ∧
    user.deletedAt = none

def releaseColumns (user : User) : User := { user with deletionLeaseExpiresAt := none }

def releaseDeletionLease (input : DeletionJobInput) : Call Database Failure Unit := fun db =>
  return ((), { db with users := updateWhere (canRelease input) releaseColumns db.users })

/-! ### Erasing an account -/

/-- The schedule of the account is due and the lease is the one it has, not expired. -/
def canAnonymize (input : DeletionJobInput) (user : User) : Bool :=
  user.userId = input.userId ∧ user.deletedAt = none ∧
    user.deletionScheduledAt.any (· ≤ input.now) ∧
    user.deletionLeaseExpiresAt = some input.deletionLeaseExpiresAt ∧
    input.now < input.deletionLeaseExpiresAt

def failDeletedOwner (upload : ProfileUpload) : ProfileUpload :=
  { upload with
    status := .failed
    failureCode := some "UPLOAD_OWNER_DELETED"
    processingLeaseExpiresAt := none
    cleanupLeaseExpiresAt :=
      if upload.status = .processing ∧ upload.finalKey ≠ none ∧
          upload.processingLeaseExpiresAt ≠ none
        then upload.processingLeaseExpiresAt else none
    cleanupAttempts := 0 }

def queueFinalDeletion (now : Timestamp) (upload : ProfileUpload) : ProfileUpload :=
  { upload with finalDeletionPendingAt := some now }

/-- The two updates of the uploads of a deleted account. -/
def anonymizeUploads (input : DeletionJobInput) (uploads : List ProfileUpload) :
    List ProfileUpload :=
  updateWhere
    (fun upload => upload.userId = input.userId ∧ upload.finalKey ≠ none ∧
      upload.finalDeletedAt = none)
    (queueFinalDeletion input.now)
    (updateWhere (fun upload => upload.userId = input.userId) failDeletedOwner uploads)

/-- Delete rooms with the members, matches, messages and receipts in them; a receipt of
another room loses its reference to a deleted message. -/
def deleteRooms (roomIds : List RowId) (db : Database) : Database :=
  let gone (message : Message) : Bool := message.roomId ∈ roomIds
  { db with
    rooms := db.rooms.filter fun room => room.id ∉ roomIds
    roomMembers := db.roomMembers.filter fun member => member.roomId ∉ roomIds
    matchRows := db.matchRows.filter fun row => row.roomId ∉ roomIds
    messages := db.messages.filter fun message => ¬ gone message
    messageReports := db.messageReports.filter fun report =>
      ¬ db.messages.any fun message => gone message ∧ report.messageId = message.id
    readReceipts := updateWhere
      (fun receipt => db.messages.any fun message =>
        gone message ∧ receipt.lastReadMessageId = some message.id)
      (fun receipt => { receipt with lastReadMessageId := none })
      (db.readReceipts.filter fun receipt => receipt.roomId ∉ roomIds) }

/-- Delete the notifications of a user with the pushes that carry them. -/
def deleteNotifications (userId : Uuid) (db : Database) : Database :=
  { db with
    notifications := db.notifications.filter fun row => row.userId ≠ userId
    pushOutbox := db.pushOutbox.filter fun push =>
      ¬ db.notifications.any fun row => row.userId = userId ∧ push.notificationId = row.id }

def deletedEmail (userId : Uuid) : String :=
  "deleted-" ++ String.ofList userId.text ++ "@chattea.invalid"

def anonymizeColumns (now : Timestamp) (user : User) : User :=
  { user with
    email := deletedEmail user.userId
    phone := none
    password := ""
    userName := "탈퇴한 사용자"
    intro := ""
    birthDate := none
    region := none
    interestedGender := none
    profileCompletedAt := none
    deletionScheduledAt := none
    deletionLeaseExpiresAt := none
    deletedAt := some now }

/-- The writes of `anonymizeDeletedAccount`. -/
def writeAnonymized (input : DeletionJobInput) (matchRooms : List RowId) :
    Call Database Failure Unit := fun db => do
  let userId := input.userId
  let db ← Upload.writeUploads (anonymizeUploads input db.profileUploads) db
  let db := deletePushTokens (fun token => token.userId = userId) db
  let db := deleteNotifications userId db
  let db := deleteRooms matchRooms { db with
    userProfilePhotos := db.userProfilePhotos.filter fun photo => photo.userId ≠ userId
    refreshTokens := db.refreshTokens.filter fun session => session.userId ≠ userId
    authIdentities := db.authIdentities.filter fun row => row.userId ≠ userId
    userSubscriptions := db.userSubscriptions.filter fun row => row.userId ≠ userId
    userConsumableBalances := db.userConsumableBalances.filter fun row => row.userId ≠ userId
    userBoosts := db.userBoosts.filter fun row => row.userId ≠ userId
    userLikedMeAccesses := db.userLikedMeAccesses.filter fun row => row.userId ≠ userId
    userLikes := db.userLikes.filter fun row =>
      ¬ (row.likerUserId = userId ∨ row.likedUserId = userId)
    matchActions := db.matchActions.filter fun row =>
      ¬ (row.actorUserId = userId ∨ row.targetUserId = userId)
    userBlocks := db.userBlocks.filter fun row =>
      ¬ (row.blockerUserId = userId ∨ row.blockedUserId = userId)
    communityPostReports := db.communityPostReports.filter fun row => row.reporterUserId ≠ userId
    communityCommentReports := db.communityCommentReports.filter fun row =>
      row.reporterUserId ≠ userId
    messageReports := db.messageReports.filter fun row => row.reporterUserId ≠ userId
    communityProfiles := updateWhere (fun row => row.userId = userId)
      (fun row => { row with name := "익명" }) db.communityProfiles }
  require (.constraint "users_email_key")
    (∀ user ∈ db.users, user.userId ≠ userId → user.email ≠ deletedEmail userId)
  return ((), { db with
    users := updateWhere (fun user => user.userId = userId) (anonymizeColumns input.now) db.users })

/-- What an erasure leaves of the tables that others read. -/
structure Anonymized (input : DeletionJobInput) (before after : Database) : Prop where
  users : after.users = updateWhere (fun user => user.userId = input.userId)
    (anonymizeColumns input.now) before.users
  uploads : after.profileUploads = anonymizeUploads input before.profileUploads
  constraints : Upload.UploadConstraints after.profileUploads
  photos : after.userProfilePhotos =
    before.userProfilePhotos.filter fun photo => photo.userId ≠ input.userId
  sessions : after.refreshTokens =
    before.refreshTokens.filter fun session => session.userId ≠ input.userId
  identities : after.authIdentities =
    before.authIdentities.filter fun row => row.userId ≠ input.userId
  verifications : after.phoneVerifications = before.phoneVerifications
  phoneTokens : after.phoneVerificationTokens = before.phoneVerificationTokens
  kakaoTokens : after.kakaoPhoneVerificationTokens = before.kakaoPhoneVerificationTokens

theorem writeAnonymized_ok {input : DeletionJobInput} {matchRooms : List RowId}
    {before after : Database} {done : Unit}
    (h : writeAnonymized input matchRooms before = .ok (done, after)) :
    Anonymized input before after := by
  simp only [writeAnonymized, bind_eq_ok_iff, require_eq_ok_iff, pure_eq_ok_iff, exists_const,
    Upload.writeUploads_eq_ok_iff] at h
  obtain ⟨written, ⟨hconstraints, rfl⟩, -, hafter⟩ := h
  obtain ⟨-, rfl⟩ := Prod.mk.inj hafter
  exact ⟨rfl, rfl, hconstraints, rfl, rfl, rfl, rfl, rfl, rfl⟩

theorem writeAnonymized_error {input : DeletionJobInput} {matchRooms : List RowId}
    {before : Database} {failure : Failure}
    (h : writeAnonymized input matchRooms before = .error failure) :
    Upload.writeUploads (anonymizeUploads input before.profileUploads) before = .error failure ∨
      failure = .constraint "users_email_key" := by
  rcases bind_eq_error_iff.1 h with hwrite | ⟨written, -, hrest⟩
  · exact Or.inl hwrite
  · rcases bind_eq_error_iff.1 hrest with hemail | ⟨done, -, hdone⟩
    · exact Or.inr (require_eq_error_iff.1 hemail).2.symm
    · cases hdone

def anonymizeDeletedAccount (input : DeletionJobInput) : Prog World ι Failure Unit :=
  transaction do
    let claimed ← select .update (userRows (canAnonymize input))
      (fun db => db.users.any (canAnonymize input))
    MonadExcept.ofExcept (throwIf (.error "ACCOUNT_DELETION_CLAIM_REQUIRED") (¬ claimed))
    let matchRooms ← query fun db =>
      (db.matchRows.filter fun row =>
        row.userLowId = input.userId ∨ row.userHighId = input.userId).map (·.roomId)
    let _ ← select .noKeyUpdate
      (fun db => (db.profileUploads.filter fun upload => upload.userId = input.userId).map
        fun upload => .upload upload.id)
      (fun _ => ())
    let _ ← select .update
      (fun db => (db.userProfilePhotos.filter fun photo => photo.userId = input.userId).map
        fun photo => .photo photo.id)
      (fun _ => ())
    let _ ← select .update (fun db => (sessionsOf input.userId db).map .session) (fun _ => ())
    commit (writeAnonymized input matchRooms)

end ChatTea.Users
