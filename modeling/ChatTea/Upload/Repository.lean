import ChatTea.Database.Schema
import ChatTea.Lib.Table
import ChatTea.Lib.Transaction

/-!
# The upload repository

The embedding of `UploadRepository`. Each call is one transaction: a single
statement, or statements on rows the first of them has locked. Every statement
that writes `profile_uploads` goes through `writeUploads`, which checks the
constraints of the table.

## Main definitions

* `FinalDeletionState` — the `final_deletion_state` CHECK of a row
* `writeUploads` — a statement that rewrites the table, unless a constraint fails
* `createPending` — store a new upload, within the quotas
* `claimFinalize`, `prepareFinalObject`, `markVerified`, `markFailed`,
  `releaseFinalizeLease`, `markStagingDeleted` — what a finalizer does
* `cleanupDue`, `claimCleanupBatch`, `applyCleanupResult` — what a cleanup worker does
-/

namespace ChatTea.Upload

open Table Transaction

/-! ### The table -/

/-- `profile_uploads_final_deletion_state_check`. -/
def FinalDeletionState (upload : ProfileUpload) : Prop :=
  (upload.finalDeletionPendingAt = none ∧ upload.finalDeletedAt = none) ∨
    (upload.finalDeletionPendingAt ≠ none ∧
      (upload.finalKey ≠ none ∨ upload.finalDeletedAt ≠ none))

instance (upload : ProfileUpload) : Decidable (FinalDeletionState upload) :=
  inferInstanceAs (Decidable (_ ∨ _))

/-- No two non-null values are equal: a `unique` column lets nulls repeat. -/
def UniqueNonNull (column : ProfileUpload → Option Text) (uploads : List ProfileUpload) : Prop :=
  (uploads.filterMap column).Nodup

instance (column : ProfileUpload → Option Text) (uploads : List ProfileUpload) :
    Decidable (UniqueNonNull column uploads) :=
  inferInstanceAs (Decidable (List.Nodup _))

instance (uploads : List ProfileUpload) : Decidable (UniqueKey ProfileUpload.id uploads) :=
  inferInstanceAs (Decidable (List.Nodup _))

/-- The name of the check that no statement of the service may fail on. -/
def finalDeletionStateCheck : String := "profile_uploads_final_deletion_state_check"

/-- A statement that leaves these rows in the table, if its constraints allow them. -/
def writeUploads (uploads : List ProfileUpload) (db : Database) : Except Failure Database := do
  require (.constraint "profile_uploads_pkey") (UniqueKey ProfileUpload.id uploads)
  require (.constraint "profile_uploads_stagingKey_key")
    (UniqueNonNull (fun upload => some upload.stagingKey) uploads)
  require (.constraint "profile_uploads_finalKey_key")
    (UniqueNonNull ProfileUpload.finalKey uploads)
  require (.constraint finalDeletionStateCheck) (∀ upload ∈ uploads, FinalDeletionState upload)
  return { db with profileUploads := uploads }

/-- What the constraints of the table ask of its rows. -/
structure UploadConstraints (uploads : List ProfileUpload) : Prop where
  id_unique : UniqueKey ProfileUpload.id uploads
  stagingKey_unique : UniqueNonNull (fun upload => some upload.stagingKey) uploads
  finalKey_unique : UniqueNonNull ProfileUpload.finalKey uploads
  finalDeletionState : ∀ upload ∈ uploads, FinalDeletionState upload

theorem writeUploads_eq_ok_iff {uploads : List ProfileUpload} {db db' : Database} :
    writeUploads uploads db = .ok db' ↔
      UploadConstraints uploads ∧ { db with profileUploads := uploads } = db' := by
  simp only [writeUploads, bind_eq_ok_iff, require_eq_ok_iff, pure_eq_ok_iff, exists_const]
  constructor
  · rintro ⟨hid, hstaging, hfinal, hstate, hdb⟩
    exact ⟨⟨hid, hstaging, hfinal, hstate⟩, hdb⟩
  · rintro ⟨⟨hid, hstaging, hfinal, hstate⟩, hdb⟩
    exact ⟨hid, hstaging, hfinal, hstate, hdb⟩

/-- `UPDATE profile_uploads SET … WHERE … RETURNING *`. -/
def updateUploads (cond : ProfileUpload → Bool) (set : ProfileUpload → ProfileUpload)
    (db : Database) : Except Failure (List ProfileUpload × Database) := do
  let written ← writeUploads (updateWhere cond set db.profileUploads) db
  return (returning cond set db.profileUploads, written)

/-- The first upload with a property. -/
def findUpload (cond : ProfileUpload → Bool) (db : Database) : Option ProfileUpload :=
  db.profileUploads.find? cond

/-! ### Creating -/

/-- How many uploads of a user may be open at once. -/
def maxActiveUploadsPerUser : ℕ := 5

/-- How many uploads a user may create within the window. -/
def maxUploadCreatesPerWindow : ℕ := 20

/-- The window of the quota, in milliseconds. -/
def uploadCreateWindowMs : ℤ := 60 * 60 * 1000

/-- An upload to be created. -/
structure CreatePendingInput where
  id : Uuid
  userId : UuidText
  stagingKey : Text
  expectedContentType : String
  expectedSizeBytes : ℕ
  expiresAt : Timestamp
  now : Timestamp

/-- The row of a new upload. -/
def pendingUpload (input : CreatePendingInput) : ProfileUpload where
  id := input.id
  userId := input.userId.toUuid
  status := .pending
  stagingKey := input.stagingKey
  finalKey := none
  expectedContentType := input.expectedContentType
  expectedSizeBytes := input.expectedSizeBytes
  finalContentType := none
  finalSizeBytes := none
  publicUrl := none
  expiresAt := input.expiresAt
  processingLeaseExpiresAt := none
  cleanupLeaseExpiresAt := none
  cleanupAttempts := 0
  failureCode := none
  stagingDeletedAt := none
  finalDeletionPendingAt := none
  finalDeletedAt := none
  verifiedAt := none
  createdAt := input.now

/-- The uploads of the user that the quotas look at. -/
def isRecentUpload (input : CreatePendingInput) (upload : ProfileUpload) : Bool :=
  upload.userId = input.userId.toUuid ∧ input.now - uploadCreateWindowMs ≤ upload.createdAt

/-- The uploads that are open and have not expired. -/
def isActiveUpload (now : Timestamp) (upload : ProfileUpload) : Bool :=
  (upload.status = .pending ∨ upload.status = .processing) ∧ now < upload.expiresAt

/-- Creates an upload within the quotas of its user. -/
def createPending (input : CreatePendingInput) : Call Database Failure ProfileUpload := fun db => do
  let recent := db.profileUploads.filter (isRecentUpload input)
  throwIf (.error "UPLOAD_ACTIVE_LIMIT_EXCEEDED")
    (maxActiveUploadsPerUser ≤ recent.countP (isActiveUpload input.now))
  throwIf (.error "UPLOAD_RATE_LIMIT_EXCEEDED") (maxUploadCreatesPerWindow ≤ recent.length)
  require (.constraint "profile_uploads_userId_fkey") (db.hasUser input.userId.toUuid)
  let written ← writeUploads (db.profileUploads ++ [pendingUpload input]) db
  return (pendingUpload input, written)

/-! ### Finalizing -/

/-- A claim of an upload by a call that finalizes it, and its lease. -/
structure ClaimFinalizeInput where
  uploadId : UuidText
  userId : UuidText
  now : Timestamp
  leaseExpiresAt : Timestamp

/-- What a claim finds: it is the caller's, it is done, it is too late, or another has it. -/
inductive FinalizeUploadClaim where
  | claimed (upload : ProfileUpload)
  | verified (upload : ProfileUpload)
  | expired (upload : ProfileUpload)
  | busy (upload : ProfileUpload)
deriving DecidableEq

/-- The upload of a user under an identifier. -/
def isOwnUpload (uploadId : Uuid) (userId : Uuid) (upload : ProfileUpload) : Bool :=
  upload.id = uploadId ∧ upload.userId = userId

/-- An upload whose time has run out. -/
def expireUpload (upload : ProfileUpload) : ProfileUpload :=
  { upload with
    status := .failed
    failureCode := some "UPLOAD_EXPIRED"
    processingLeaseExpiresAt := none }

/-- A claim on an upload whose final object awaits deletion also fences the cleanup. -/
def claimUpload (leaseExpiresAt : Timestamp) (upload : ProfileUpload) : ProfileUpload :=
  { upload with
    status := .processing
    processingLeaseExpiresAt := some leaseExpiresAt
    cleanupLeaseExpiresAt :=
      if upload.finalDeletionPendingAt ≠ none then some leaseExpiresAt
      else upload.cleanupLeaseExpiresAt }

/-- Another call has a lease that still runs. -/
def isBusy (now : Timestamp) (upload : ProfileUpload) : Bool :=
  upload.status = .processing ∧ upload.processingLeaseExpiresAt.any (now < ·)

/-- Claims an upload for finalizing. -/
def claimFinalize (input : ClaimFinalizeInput) : Call Database Failure FinalizeUploadClaim :=
  fun db =>
    match findUpload (isOwnUpload input.uploadId.toUuid input.userId.toUuid) db with
    | none => throw (.error "UPLOAD_NOT_FOUND")
    | some upload =>
        if upload.status = .verified then return (.verified upload, db)
        else if upload.status = .failed then
          throw (.error (upload.failureCode.getD "UPLOAD_FINALIZE_FAILED"))
        else if upload.expiresAt ≤ input.now then do
          let (expired, db) ← updateUploads (fun row => row.id = upload.id) expireUpload db
          match expired with
          | [] => throw (.error "UPLOAD_STATE_CONFLICT")
          | expired :: _ => return (.expired expired, db)
        else if isBusy input.now upload then return (.busy upload, db)
        else do
          let (claimed, db) ←
            updateUploads (fun row => row.id = upload.id) (claimUpload input.leaseExpiresAt) db
          match claimed with
          | [] => throw (.error "UPLOAD_STATE_CONFLICT")
          | claimed :: _ => return (.claimed claimed, db)

/-- What a finalizer knows of the object it writes, and the lease it holds. -/
structure FinalObjectInput where
  uploadId : Uuid
  userId : UuidText
  finalKey : Text
  publicUrl : Text
  finalContentType : String
  finalSizeBytes : ℕ
  processingLeaseExpiresAt : Timestamp
  now : Timestamp

/-- The upload is being processed under the lease. -/
def hasLease (uploadId : Uuid) (lease : Timestamp) (upload : ProfileUpload) : Bool :=
  upload.id = uploadId ∧ upload.status = .processing ∧
    upload.processingLeaseExpiresAt = some lease

/-- The lease still holds, and the upload has no other object than the one of the input. -/
def canPrepare (input : FinalObjectInput) (upload : ProfileUpload) : Bool :=
  hasLease input.uploadId input.processingLeaseExpiresAt upload ∧
    upload.userId = input.userId.toUuid ∧
    (upload.finalKey = none ∨ upload.finalKey = some input.finalKey) ∧
    upload.finalDeletedAt = none

/-- Writes the object down before it is copied, as one that may have to be deleted. -/
def prepareUpload (input : FinalObjectInput) (upload : ProfileUpload) : ProfileUpload :=
  { upload with
    finalKey := some input.finalKey
    publicUrl := some input.publicUrl
    finalContentType := some input.finalContentType
    finalSizeBytes := some input.finalSizeBytes
    finalDeletionPendingAt := upload.finalDeletionPendingAt.or (some input.now)
    finalDeletedAt := none
    cleanupLeaseExpiresAt := some input.processingLeaseExpiresAt }

/-- Announces the final object of an upload. -/
def prepareFinalObject (input : FinalObjectInput) : Call Database Failure Unit := fun db => do
  let (prepared, db) ← updateUploads (canPrepare input) (prepareUpload input) db
  throwIf (.error "UPLOAD_STATE_CONFLICT") (prepared = [])
  return ((), db)

/-- The lease still holds, and the object is the one that was announced. -/
def canVerify (input : FinalObjectInput) (upload : ProfileUpload) : Bool :=
  hasLease input.uploadId input.processingLeaseExpiresAt upload ∧
    upload.userId = input.userId.toUuid ∧
    upload.finalKey = some input.finalKey ∧
    upload.finalDeletionPendingAt ≠ none

/-- An upload whose object is in place. -/
def verifyUpload (input : FinalObjectInput) (upload : ProfileUpload) : ProfileUpload :=
  { upload with
    status := .verified
    finalKey := some input.finalKey
    publicUrl := some input.publicUrl
    finalContentType := some input.finalContentType
    finalSizeBytes := some input.finalSizeBytes
    verifiedAt := some input.now
    processingLeaseExpiresAt := none
    cleanupLeaseExpiresAt := none
    finalDeletionPendingAt := none
    finalDeletedAt := none
    failureCode := none }

/-- The update of `markVerified`. -/
def writeVerified (input : FinalObjectInput) : Call Database Failure (Option ProfileUpload) :=
  fun db => do
    let (verified, db) ← updateUploads (canVerify input) (verifyUpload input) db
    return (verified.head?, db)

/-- The statement that `markVerified` goes on with when its update found no row. -/
def findVerified (input : FinalObjectInput) (db : Database) : Except Failure ProfileUpload :=
  match findUpload (isOwnUpload input.uploadId input.userId.toUuid) db with
  | some existing =>
      if existing.status = .verified ∧ existing.finalKey = some input.finalKey then
        return existing
      else throw (.error "UPLOAD_STATE_CONFLICT")
  | none => throw (.error "UPLOAD_STATE_CONFLICT")

/-- An upload that has failed. -/
def failUpload (failureCode : String) (upload : ProfileUpload) : ProfileUpload :=
  { upload with
    status := .failed
    failureCode := some failureCode
    processingLeaseExpiresAt := none }

/-- Fails an upload, if the lease still holds. -/
def markFailed (uploadId : Uuid) (failureCode : String) (lease : Timestamp) :
    Call Database Failure Unit := fun db => do
  let (_, db) ← updateUploads (hasLease uploadId lease) (failUpload failureCode) db
  return ((), db)

/-- An upload that anyone may claim again. -/
def releaseUpload (upload : ProfileUpload) : ProfileUpload :=
  { upload with status := .pending, processingLeaseExpiresAt := none }

/-- Gives a lease back, if it still holds. -/
def releaseFinalizeLease (uploadId : Uuid) (lease : Timestamp) : Call Database Failure Unit :=
  fun db => do
    let (_, db) ← updateUploads (hasLease uploadId lease) releaseUpload db
    return ((), db)

/-- Notes that the staging object is gone. -/
def markStagingDeleted (uploadId : Uuid) (now : Timestamp) : Call Database Failure Unit :=
  fun db => do
    let (_, db) ← updateUploads (fun upload => upload.id = uploadId)
      (fun upload => { upload with stagingDeletedAt := some now, cleanupLeaseExpiresAt := none }) db
    return ((), db)

/-! ### Cleaning up -/

/-- The staging object of the upload is to be deleted. -/
def stagingDue (now : Timestamp) (upload : ProfileUpload) : Bool :=
  upload.stagingDeletedAt = none &&
    match upload.status with
    | .failed => true
    | .verified => true
    | .pending => upload.expiresAt ≤ now
    | .processing => upload.expiresAt ≤ now ∧ upload.processingLeaseExpiresAt.any (· ≤ now)

/-- The final object of the upload is to be deleted. -/
def finalDue (upload : ProfileUpload) : Bool :=
  upload.finalDeletionPendingAt ≠ none ∧ upload.finalDeletedAt = none

/-- The upload has objects to be deleted and no cleanup that runs. -/
def cleanupDue (now : Timestamp) (upload : ProfileUpload) : Bool :=
  upload.cleanupLeaseExpiresAt.all (· ≤ now) ∧ (stagingDue now upload ∨ finalDue upload)

/-- A claim of the uploads that are due for cleanup. -/
structure ClaimCleanupInput where
  now : Timestamp
  leaseExpiresAt : Timestamp
  limit : ℕ

/-- Rows a claim may find: due ones, and which of them depends on the locks that
it skips. -/
structure CleanupCandidates (input : ClaimCleanupInput) (db : Database)
    (candidates : List ProfileUpload) : Prop where
  due : ∀ upload ∈ candidates, upload ∈ db.profileUploads ∧ cleanupDue input.now upload
  distinct : candidates.Nodup
  limited : candidates.length ≤ input.limit

/-- An upload under a cleanup lease. One that was open has expired. -/
def claimForCleanup (leaseExpiresAt : Timestamp) (upload : ProfileUpload) : ProfileUpload :=
  let expires := upload.status = .pending ∨ upload.status = .processing
  { upload with
    status := if expires then .failed else upload.status
    failureCode := if expires then some "UPLOAD_EXPIRED" else upload.failureCode
    processingLeaseExpiresAt := none
    cleanupLeaseExpiresAt := some leaseExpiresAt
    cleanupAttempts := upload.cleanupAttempts + 1 }

/-- What a claim of the cleanup returns. -/
structure CleanupUploadClaim where
  jobs : List ProfileUpload
  hasMore : Bool

/-- Claims the candidates, and says whether more is due. -/
def claimCleanupBatch (input : ClaimCleanupInput) (candidates : List ProfileUpload) :
    Call Database Failure CleanupUploadClaim := fun db =>
  if candidates = [] then return (⟨[], false⟩, db)
  else do
    let (jobs, db) ← updateUploads (fun upload => upload.id ∈ candidates.map (·.id))
      (claimForCleanup input.leaseExpiresAt) db
    return (⟨jobs, db.profileUploads.any (cleanupDue input.now)⟩, db)

/-- What a cleanup has deleted of an upload. -/
structure CleanupResultInput where
  uploadId : Uuid
  cleanupLeaseExpiresAt : Timestamp
  stagingDeleted : Bool
  finalDeleted : Bool
  nextAttemptAt : Option Timestamp
  now : Timestamp

/-- An upload whose final object is gone. -/
def recordFinalDeleted (now : Timestamp) (upload : ProfileUpload) : ProfileUpload :=
  { upload with
    finalKey := none
    publicUrl := none
    finalContentType := none
    finalSizeBytes := none
    verifiedAt := none
    finalDeletedAt := some now }

/-- Notes what a cleanup has deleted. -/
def recordCleanup (input : CleanupResultInput) (upload : ProfileUpload) : ProfileUpload :=
  let staged := if input.stagingDeleted then { upload with stagingDeletedAt := some input.now }
    else upload
  let final := if input.finalDeleted then recordFinalDeleted input.now staged else staged
  { final with cleanupLeaseExpiresAt := input.nextAttemptAt }

/-- The upload is still under the lease of the cleanup. -/
def hasCleanupLease (input : CleanupResultInput) (upload : ProfileUpload) : Bool :=
  upload.id = input.uploadId ∧ upload.cleanupLeaseExpiresAt = some input.cleanupLeaseExpiresAt

/-- Notes what a cleanup has deleted, if its lease still holds. -/
def applyCleanupResult (input : CleanupResultInput) : Call Database Failure Unit := fun db => do
  let (_, db) ← updateUploads (hasCleanupLease input) (recordCleanup input) db
  return ((), db)

end ChatTea.Upload
