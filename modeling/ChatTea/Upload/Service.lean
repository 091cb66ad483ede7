import ChatTea.Database.World
import ChatTea.Upload.Repository

/-!
# The upload service

The embedding of `UploadService`: an upload is created with a presigned URL for its
staging object, finalized into a public object, and cleaned up by a maintenance
worker. Each step of a program is one statement or transaction of the repository
or one exchange with the object store; what the store, the image decoder and the
clock answer is arbitrary.

Object keys are texts, as the source builds them. A key of the staging area is
never one of the published area, and the key of a published object says which
upload it belongs to.

## Main definitions

* `stagingKey`, `finalKey` — the keys of the two objects of an upload
* `createUpload`, `finalizeUpload` — what a user asks for
* `cleanupJob`, `cleanupExpiredStagingBatch` — the worker

## Main results

* `IsStagingKey.not_final`, `IsFinalKey.id_eq` — the key areas and their owners
-/

namespace ChatTea.Upload

open Interleaving Table Transaction

variable {ι : Type}

/-! ### Object keys -/

inductive ImageType where
  | jpeg
  | png
  | webp
  | gif
deriving DecidableEq, Repr

namespace ImageType

def contentType : ImageType → String
  | .jpeg => "image/jpeg"
  | .png => "image/png"
  | .webp => "image/webp"
  | .gif => "image/gif"

/-- The first of the extensions that are allowed for the type. -/
def extension : ImageType → Text
  | .jpeg => "jpg".toList
  | .png => "png".toList
  | .webp => "webp".toList
  | .gif => "gif".toList

end ImageType

def stagingArea : Text := "profile-staging/".toList

def publishedArea : Text := "profiles/".toList

def stagingKey (userId : UuidText) (id : Uuid) (imageType : ImageType) : Text :=
  stagingArea ++ (userId.text ++ '/' :: (id.text ++ '.' :: imageType.extension))

def finalKey (userId : UuidText) (id : Uuid) (contentHash : Text) : Text :=
  publishedArea ++ (userId.text ++ '/' :: (id.text ++ '/' :: (contentHash ++ ".jpg".toList)))

/-- A key in the staging area. -/
def IsStagingKey (key : Text) : Prop :=
  ∃ userId id imageType, key = stagingKey userId id imageType

/-- A key of a published object of the upload. -/
def IsFinalKey (id : Uuid) (key : Text) : Prop :=
  ∃ userId contentHash, key = finalKey userId id contentHash

/-- No key is in both areas: they differ in the eighth character. -/
theorem IsStagingKey.not_final {key : Text} (hstaging : IsStagingKey key) (id : Uuid) :
    ¬ IsFinalKey id key := by
  rintro ⟨userId, contentHash, rfl⟩
  obtain ⟨userId', id', imageType, hkey⟩ := hstaging
  have hprefix := congrArg (List.take 8) hkey
  unfold finalKey stagingKey at hprefix
  rw [List.take_append_of_le_length (by decide), List.take_append_of_le_length (by decide)] at hprefix
  revert hprefix
  decide

/-- A published object belongs to one upload. -/
theorem IsFinalKey.id_eq {key : Text} {id id' : Uuid} (h : IsFinalKey id key)
    (h' : IsFinalKey id' key) : id = id' := by
  obtain ⟨userId, contentHash, rfl⟩ := h
  obtain ⟨userId', contentHash', hkey⟩ := h'
  -- The owner and the upload have texts of one length, so the parts line up.
  have howner := List.append_cancel_left hkey
  obtain ⟨-, hrest⟩ := List.append_inj howner (by rw [userId.length_text, userId'.length_text])
  obtain ⟨-, hupload⟩ := List.cons.inj hrest
  obtain ⟨htext, -⟩ := List.append_inj hupload (by rw [id.length_text, id'.length_text])
  exact Uuid.ext htext

/-! ### Creating an upload -/

def maxUploadBytes : ℕ := 10 * 1024 * 1024

def uploadUrlTtlMs : ℤ := 5 * 60 * 1000

def finalizeLeaseMs : ℤ := 2 * 60 * 1000

def cleanupLeaseMs : ℤ := 60 * 1000

def finalContentType : String := "image/jpeg"

/-- The metadata of an upload that its validation lets through. -/
structure UploadMetadata where
  imageType : ImageType
  sizeBytes : ℕ
  positive : 1 ≤ sizeBytes
  bounded : sizeBytes ≤ maxUploadBytes

/-- The configured base of public addresses, or why there is none, and the digest
that names published objects. -/
structure UploadConfig where
  profilePublicBaseUrl : Except Failure Text
  contentHash : List UInt8 → Text

def createUpload (config : UploadConfig) (userId : UuidText) (metadata : UploadMetadata) :
    Prog World ι Failure ProfileUpload := do
  let _ ← MonadExcept.ofExcept config.profilePublicBaseUrl
  let id ← .anything Uuid
  let now ← clock
  let presigned ← .anything (Except Failure Unit)
  MonadExcept.ofExcept presigned
  statement (createPending
    { id := id
      userId := userId
      stagingKey := stagingKey userId id metadata.imageType
      expectedContentType := metadata.imageType.contentType
      expectedSizeBytes := metadata.sizeBytes
      expiresAt := now + uploadUrlTtlMs
      now := now })

/-! ### Finalizing an upload -/

structure VerifiedUpload where
  id : Uuid
  publicUrl : Text
  contentType : String
  sizeBytes : ℕ

def finalizedPayload (upload : ProfileUpload) : Except Failure VerifiedUpload :=
  match upload.publicUrl, upload.finalContentType, upload.finalSizeBytes with
  | some publicUrl, some contentType, some sizeBytes =>
      if publicUrl = [] ∨ contentType = "" ∨ sizeBytes = 0 then
        throw (.error "UPLOAD_VERIFIED_METADATA_INVALID")
      else return ⟨upload.id, publicUrl, contentType, sizeBytes⟩
  | _, _, _ => throw (.error "UPLOAD_VERIFIED_METADATA_INVALID")

def finalizeLease (upload : ProfileUpload) : Except Failure Timestamp :=
  match upload.processingLeaseExpiresAt with
  | some lease => return lease
  | none => throw (.error "UPLOAD_PROCESSING_LEASE_INVALID")

/-- What reading the staging object gives: its bytes, an object that is not what the
upload announced, or no answer. -/
inductive StagingObject where
  | bytes (bytes : List UInt8)
  | invalid (code : String)
  | unavailable

/-- Read the staging object; a wrong one fails the upload, no answer frees it. -/
def readStagingObject (upload : ProfileUpload) (lease : Timestamp) :
    Prog World ι Failure (List UInt8) := do
  let object ← .anything StagingObject
  match object with
  | .bytes bytes => return bytes
  | .invalid code => do
      statement (markFailed upload.id code lease)
      throw (.error code)
  | .unavailable => do
      statement (releaseFinalizeLease upload.id lease)
      throw (.error "UPLOAD_OBJECT_UNAVAILABLE")

/-- Decode and re-encode the image; one that cannot be decoded fails the upload. -/
def normalizeImage (upload : ProfileUpload) (lease : Timestamp) (_bytes : List UInt8) :
    Prog World ι Failure (List UInt8) := do
  let normalized ← .anything (Option (List UInt8))
  match normalized with
  | some normalized => return normalized
  | none => do
      statement (markFailed upload.id "UPLOAD_IMAGE_INVALID" lease)
      throw (.error "UPLOAD_IMAGE_INVALID")

/-- Write the public object; a failed write frees the upload. -/
def putFinalObject (input : FinalObjectInput) : Prog World ι Failure Unit := do
  let number ← issue .put input.finalKey
  let stored ← answer number
  match stored with
  | true => return ()
  | false => do
      statement (releaseFinalizeLease input.uploadId input.processingLeaseExpiresAt)
      throw (.error "UPLOAD_FINAL_WRITE_FAILED")

def markVerified (input : FinalObjectInput) : Prog World ι Failure ProfileUpload := do
  let verified ← statement (writeVerified input)
  match verified with
  | some upload => return upload
  | none => do
      let existing ← query (findVerified input)
      MonadExcept.ofExcept existing

/-- Delete the staging object of a verified upload, and record it if that worked. -/
def deleteStagingObject (upload : ProfileUpload) (now : Timestamp) : Prog World ι Failure Unit := do
  let number ← issue .delete upload.stagingKey
  let deleted ← answer number
  match deleted with
  | true => statement (markStagingDeleted upload.id now)
  | false => return ()

/-- What `finalizeUpload` does with an upload it has claimed. -/
def finalizeClaimed (config : UploadConfig) (userId : UuidText) (now : Timestamp)
    (upload : ProfileUpload) : Prog World ι Failure VerifiedUpload := do
  let lease ← MonadExcept.ofExcept (finalizeLease upload)
  let bytes ← readStagingObject upload lease
  let normalized ← normalizeImage upload lease bytes
  let key := finalKey userId upload.id (config.contentHash normalized)
  let baseUrl ← MonadExcept.ofExcept config.profilePublicBaseUrl
  let input : FinalObjectInput :=
    { uploadId := upload.id
      userId := userId
      finalKey := key
      publicUrl := baseUrl ++ '/' :: key
      finalContentType := finalContentType
      finalSizeBytes := normalized.length
      processingLeaseExpiresAt := lease
      now := now }
  statement (prepareFinalObject input)
  putFinalObject input
  let verified ← markVerified input
  deleteStagingObject upload now
  MonadExcept.ofExcept (finalizedPayload verified)

def finalizeUpload (config : UploadConfig) (userId uploadId : UuidText) :
    Prog World ι Failure VerifiedUpload := do
  let now ← clock
  let claim ← statement (claimFinalize
    { uploadId := uploadId, userId := userId, now := now, leaseExpiresAt := now + finalizeLeaseMs })
  match claim with
  | .verified upload => MonadExcept.ofExcept (finalizedPayload upload)
  | .expired _ => throw (.error "UPLOAD_EXPIRED")
  | .busy _ => throw (.error "UPLOAD_PROCESSING")
  | .claimed upload => finalizeClaimed config userId now upload

/-! ### Cleaning up -/

/-- A claimed row and the clock of the batch it was claimed in. -/
structure CleanupJob where
  upload : ProfileUpload
  now : Timestamp

def cleanupRetryDelay (attempt : ℕ) : ℤ :=
  min (30000 * 2 ^ (attempt - 1)) (60 * 60 * 1000)

/-- Send a delete request if there is a key to delete. -/
def sendDelete (key : Option Text) : Prog World ι Failure (Option ℕ) :=
  match key with
  | some key => do return some (← issue .delete key)
  | none => return none

/-- The outcome of a delete request; with none to wait for there is nothing left to delete. -/
def awaitDelete (number : Option ℕ) : Prog World ι Failure Bool :=
  match number with
  | some number => answer number
  | none => return true

def cleanupLease (upload : ProfileUpload) : Except Failure Timestamp :=
  match upload.cleanupLeaseExpiresAt with
  | some lease => return lease
  | none => throw (.error "UPLOAD_CLEANUP_LEASE_INVALID")

def stagingRequired (upload : ProfileUpload) : Bool := upload.stagingDeletedAt = none

def finalRequired (upload : ProfileUpload) : Bool :=
  upload.finalDeletionPendingAt ≠ none ∧ upload.finalDeletedAt = none

/-- What a batch does with one claimed row: both deletes are sent before either is
waited for. -/
def cleanupJob (job : CleanupJob) : Prog World ι Failure Bool := do
  let upload := job.upload
  let staging ← sendDelete (if stagingRequired upload then some upload.stagingKey else none)
  let final ← sendDelete (if finalRequired upload then upload.finalKey else none)
  let stagingDeleted ← awaitDelete staging
  let finalDeleted ← awaitDelete final
  let lease ← MonadExcept.ofExcept (cleanupLease upload)
  statement (applyCleanupResult
    { uploadId := upload.id
      cleanupLeaseExpiresAt := lease
      stagingDeleted := stagingRequired upload && stagingDeleted
      finalDeleted := finalRequired upload && finalDeleted
      nextAttemptAt :=
        if stagingDeleted && finalDeleted then none
        else some (job.now + cleanupRetryDelay upload.cleanupAttempts)
      now := job.now })
  return stagingDeleted && finalDeleted

/-- A claim finds any due rows that no other claim has locked. -/
def claimCleanup (input : ClaimCleanupInput) : Prog World ι Failure CleanupUploadClaim :=
  choosing (fun candidates db => CleanupCandidates input db candidates) (claimCleanupBatch input)

def cleanupExpiredStagingBatch (job : CleanupJob → ι) (now : Timestamp) (limit : ℕ) :
    Prog World ι Failure CleanupUploadClaim := do
  MonadExcept.ofExcept
    (require (.error "UPLOAD_BATCH_LIMIT_INVALID") (1 ≤ limit ∧ limit ≤ 100))
  let claimed ← claimCleanup ⟨now, now + cleanupLeaseMs, limit⟩
  Prog.forkAll (claimed.jobs.map fun upload => job ⟨upload, now⟩)
  return claimed

end ChatTea.Upload
