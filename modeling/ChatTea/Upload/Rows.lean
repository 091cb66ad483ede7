import ChatTea.Upload.Service
import ChatTea.Users.Repository

/-!
# What one step does to an upload

Every call that writes `profile_uploads` takes each row through one of the steps of
`UploadEvolves`. The invariant of a row, and what a row can never go back on, follow
from these steps alone.

## Main definitions

* `RowInvariant` — what holds of every `profile_uploads` row
* `UploadEvolves` — what one step may do to a row
* `Progress` — what a row never goes back on

## Main results

* `UploadEvolves.rowInvariant`, `UploadEvolves.progress` — from one step
* one lemma for each call of the repository, named after it, that says which steps it takes
-/

namespace ChatTea.Upload

open Table Transaction Users

/-- The invariant of a row. -/
structure RowInvariant (upload : ProfileUpload) : Prop where
  state : FinalDeletionState upload
  verified : upload.status = .verified →
    upload.finalKey ≠ none ∧ upload.publicUrl ≠ none ∧ upload.finalContentType ≠ none ∧
      upload.finalSizeBytes ≠ none ∧ upload.verifiedAt ≠ none ∧
      upload.finalDeletionPendingAt = none ∧ upload.finalDeletedAt = none
  /-- A row in processing has a lease. -/
  leased : upload.status = .processing → upload.processingLeaseExpiresAt ≠ none
  /-- The lease of a finalizer fences the cleanup of the object it writes. -/
  fenced : upload.status = .processing → upload.finalDeletionPendingAt ≠ none →
    upload.cleanupLeaseExpiresAt = upload.processingLeaseExpiresAt
  /-- Only a failed row has lost its public object, and then it has no key. -/
  deleted : upload.finalDeletedAt ≠ none → upload.status = .failed ∧ upload.finalKey = none
  /-- A public object that is not in use is owed a deletion. -/
  owed : upload.finalKey ≠ none → upload.status ≠ .verified → upload.finalDeletionPendingAt ≠ none

/-- A row whose finalizer is done with it. -/
def Settled (upload : ProfileUpload) : Prop :=
  upload.status = .verified ∨ upload.status = .failed

/-- A failed row whose public object is to be deleted. -/
def Condemned (upload : ProfileUpload) : Prop :=
  upload.status = .failed ∧ upload.finalDeletionPendingAt ≠ none

/-- The two updates of an erasure on one row of the account. -/
def deleteOwner (now : Timestamp) (upload : ProfileUpload) : ProfileUpload :=
  if upload.finalKey ≠ none ∧ upload.finalDeletedAt = none then
    queueFinalDeletion now (failDeletedOwner upload)
  else failDeletedOwner upload

/-- What a step may do beyond the table: erase accounts, put objects to use, and
record the deletion of objects. -/
structure Effects where
  erases : Uuid → Prop
  publishes : Text → Prop
  forgets : Text → Prop

/-- What one step may do to a row. -/
inductive UploadEvolves (effects : Effects) (upload : ProfileUpload) : ProfileUpload → Prop
  | same : UploadEvolves effects upload upload
  | expired (unsettled : ¬ Settled upload) :
      UploadEvolves effects upload (expireUpload upload)
  | claimed (leaseExpiresAt) (unsettled : ¬ Settled upload) :
      UploadEvolves effects upload (claimUpload leaseExpiresAt upload)
  | prepared (input) (held : canPrepare input upload) (key : IsFinalKey upload.id input.finalKey) :
      UploadEvolves effects upload (prepareUpload input upload)
  | verified (input) (held : canVerify input upload) (stored : effects.publishes input.finalKey) :
      UploadEvolves effects upload (verifyUpload input upload)
  | failed (failureCode lease) (held : hasLease upload.id lease upload) :
      UploadEvolves effects upload (failUpload failureCode upload)
  | released (lease) (held : hasLease upload.id lease upload) :
      UploadEvolves effects upload (releaseUpload upload)
  | stagingDeleted (now) (settled : Settled upload) :
      UploadEvolves effects upload
        { upload with stagingDeletedAt := some now, cleanupLeaseExpiresAt := none }
  | cleanupClaimed (now leaseExpiresAt) (due : cleanupDue now upload) :
      UploadEvolves effects upload (claimForCleanup leaseExpiresAt upload)
  | cleanedUp (input) (settled : Settled upload)
      (condemned : input.finalDeleted → Condemned upload ∧ ∀ key ∈ upload.finalKey, effects.forgets key) :
      UploadEvolves effects upload (recordCleanup input upload)
  | ownerDeleted (now) (owner : effects.erases upload.userId) :
      UploadEvolves effects upload (deleteOwner now upload)

/-- What a row never goes back on. -/
structure Progress (upload upload' : ProfileUpload) : Prop where
  id : upload'.id = upload.id
  userId : upload'.userId = upload.userId
  stagingKey : upload'.stagingKey = upload.stagingKey
  failed : upload.status = .failed → upload'.status = .failed ∧
    (upload.finalDeletionPendingAt ≠ none → upload'.finalDeletionPendingAt ≠ none) ∧
    (upload'.finalKey = upload.finalKey ∨ upload'.finalKey = none)
  verified : upload.status = .verified → upload'.status = .failed ∨
    upload'.status = .verified ∧ upload'.finalKey = upload.finalKey ∧
      upload'.publicUrl = upload.publicUrl

namespace Progress

variable {upload upload' upload'' : ProfileUpload}

theorem refl (upload : ProfileUpload) : Progress upload upload where
  id := rfl
  userId := rfl
  stagingKey := rfl
  failed := fun h => ⟨h, fun h => h, Or.inl rfl⟩
  verified := fun h => Or.inr ⟨h, rfl, rfl⟩

theorem trans (h : Progress upload upload') (h' : Progress upload' upload'') :
    Progress upload upload'' where
  id := h'.id.trans h.id
  userId := h'.userId.trans h.userId
  stagingKey := h'.stagingKey.trans h.stagingKey
  failed := by
    intro hfailed
    obtain ⟨hstatus, hpending, hkey⟩ := h.failed hfailed
    obtain ⟨hstatus', hpending', hkey'⟩ := h'.failed hstatus
    refine ⟨hstatus', fun hnone => hpending' (hpending hnone), ?_⟩
    rcases hkey' with hkey' | hkey'
    · rwa [hkey']
    · exact Or.inr hkey'
  verified := by
    intro hverified
    rcases h.verified hverified with hstatus | ⟨hstatus, hkey, hurl⟩
    · exact Or.inl (h'.failed hstatus).1
    · rcases h'.verified hstatus with hstatus' | ⟨hstatus', hkey', hurl'⟩
      · exact Or.inl hstatus'
      · exact Or.inr ⟨hstatus', hkey'.trans hkey, hurl'.trans hurl⟩

theorem settled (h : Progress upload upload') (hsettled : Settled upload) : Settled upload' := by
  rcases hsettled with hverified | hfailed
  · rcases h.verified hverified with hfailed | ⟨hverified, -⟩
    · exact Or.inr hfailed
    · exact Or.inl hverified
  · exact Or.inr (h.failed hfailed).1

theorem condemned (h : Progress upload upload') (hcondemned : Condemned upload) :
    Condemned upload' :=
  ⟨(h.failed hcondemned.1).1, (h.failed hcondemned.1).2.1 hcondemned.2⟩

end Progress

section Steps

variable {effects : Effects} {upload upload' : ProfileUpload}

theorem status_of_hasLease {id : Uuid} {lease : Timestamp} (h : hasLease id lease upload) :
    upload.id = id ∧ upload.status = .processing ∧ upload.processingLeaseExpiresAt = some lease := by
  simpa [hasLease] using h

theorem canPrepare_iff {input : FinalObjectInput} :
    canPrepare input upload ↔ hasLease input.uploadId input.processingLeaseExpiresAt upload ∧
      upload.userId = input.userId.toUuid ∧
      (upload.finalKey = none ∨ upload.finalKey = some input.finalKey) ∧
      upload.finalDeletedAt = none := by
  simp [canPrepare]

theorem canVerify_iff {input : FinalObjectInput} :
    canVerify input upload ↔ hasLease input.uploadId input.processingLeaseExpiresAt upload ∧
      upload.userId = input.userId.toUuid ∧ upload.finalKey = some input.finalKey ∧
      upload.finalDeletionPendingAt ≠ none := by
  simp [canVerify]

/-- The columns of a row that a step never writes. -/
theorem deleteOwner_columns (now : Timestamp) (upload : ProfileUpload) :
    (deleteOwner now upload).id = upload.id ∧ (deleteOwner now upload).userId = upload.userId ∧
      (deleteOwner now upload).stagingKey = upload.stagingKey ∧
      (deleteOwner now upload).status = .failed ∧
      (deleteOwner now upload).finalKey = upload.finalKey ∧
      (deleteOwner now upload).finalDeletedAt = upload.finalDeletedAt ∧
      (deleteOwner now upload).finalDeletionPendingAt =
        if upload.finalKey ≠ none ∧ upload.finalDeletedAt = none then some now
        else upload.finalDeletionPendingAt := by
  unfold deleteOwner
  split <;> simp [queueFinalDeletion, failDeletedOwner]

theorem recordCleanup_columns (input : CleanupResultInput) (upload : ProfileUpload) :
    (recordCleanup input upload).id = upload.id ∧
      (recordCleanup input upload).userId = upload.userId ∧
      (recordCleanup input upload).stagingKey = upload.stagingKey ∧
      (recordCleanup input upload).status = upload.status ∧
      (recordCleanup input upload).finalDeletionPendingAt = upload.finalDeletionPendingAt ∧
      (recordCleanup input upload).finalKey =
        (if input.finalDeleted then none else upload.finalKey) ∧
      (recordCleanup input upload).finalDeletedAt =
        if input.finalDeleted then some input.now else upload.finalDeletedAt := by
  cases hstaging : input.stagingDeleted <;> cases hfinal : input.finalDeleted <;>
    simp [recordCleanup, recordFinalDeleted, hstaging, hfinal]

/-- A result without a deletion of the public object leaves what describes it. -/
theorem recordCleanup_of_not_deleted {input : CleanupResultInput} (upload : ProfileUpload)
    (hfinal : input.finalDeleted = false) :
    (recordCleanup input upload).publicUrl = upload.publicUrl ∧
      (recordCleanup input upload).finalContentType = upload.finalContentType ∧
      (recordCleanup input upload).finalSizeBytes = upload.finalSizeBytes ∧
      (recordCleanup input upload).verifiedAt = upload.verifiedAt := by
  cases hstaging : input.stagingDeleted <;> simp [recordCleanup, hstaging, hfinal]

theorem claimForCleanup_status (lease : Timestamp) (upload : ProfileUpload) :
    (upload.status = .verified → (claimForCleanup lease upload).status = .verified) ∧
      (upload.status ≠ .verified → (claimForCleanup lease upload).status = .failed) := by
  cases hstatus : upload.status <;> simp [claimForCleanup, hstatus]

theorem not_settled_iff : ¬ Settled upload ↔ upload.status = .pending ∨ upload.status = .processing := by
  cases hstatus : upload.status <;> simp [Settled, hstatus]

namespace UploadEvolves

theorem progress (h : UploadEvolves effects upload upload') : Progress upload upload' := by
  cases h with
  | same => exact .refl upload
  | expired unsettled =>
      exact ⟨rfl, rfl, rfl, fun hfailed => absurd (Or.inr hfailed) unsettled,
        fun hverified => absurd (Or.inl hverified) unsettled⟩
  | claimed leaseExpiresAt unsettled =>
      exact ⟨rfl, rfl, rfl, fun hfailed => absurd (Or.inr hfailed) unsettled,
        fun hverified => absurd (Or.inl hverified) unsettled⟩
  | prepared input held key =>
      have hstatus := (status_of_hasLease (canPrepare_iff.1 held).1).2.1
      exact ⟨rfl, rfl, rfl, by simp [hstatus], by simp [hstatus]⟩
  | verified input held stored =>
      have hstatus := (status_of_hasLease (canVerify_iff.1 held).1).2.1
      exact ⟨rfl, rfl, rfl, by simp [hstatus], by simp [hstatus]⟩
  | failed failureCode lease held =>
      have hstatus := (status_of_hasLease held).2.1
      exact ⟨rfl, rfl, rfl, by simp [hstatus], by simp [hstatus]⟩
  | released lease held =>
      have hstatus := (status_of_hasLease held).2.1
      exact ⟨rfl, rfl, rfl, by simp [hstatus], by simp [hstatus]⟩
  | stagingDeleted now settled =>
      exact ⟨rfl, rfl, rfl, fun hfailed => ⟨hfailed, fun h => h, Or.inl rfl⟩,
        fun hverified => Or.inr ⟨hverified, rfl, rfl⟩⟩
  | cleanupClaimed now leaseExpiresAt due =>
      obtain ⟨hkept, hgone⟩ := claimForCleanup_status leaseExpiresAt upload
      refine ⟨rfl, rfl, rfl, fun hfailed => ⟨hgone (by simp [hfailed]), fun h => h, Or.inl rfl⟩, ?_⟩
      exact fun hverified => Or.inr ⟨hkept hverified, rfl, rfl⟩
  | cleanedUp input settled condemned =>
      obtain ⟨hid, huser, hstaging, hstatus, hpending, hkey, hdeleted⟩ :=
        recordCleanup_columns input upload
      refine ⟨hid, huser, hstaging, fun hfailed => ⟨by rwa [hstatus], by rw [hpending]; exact id, ?_⟩, ?_⟩
      · rw [hkey]
        cases input.finalDeleted <;> simp
      · intro hverified
        cases hfinal : input.finalDeleted with
        | true => exact absurd (condemned hfinal).1.1 (by simp [hverified])
        | false =>
            refine Or.inr ⟨by rwa [hstatus], by simp [hkey, hfinal], ?_⟩
            exact (recordCleanup_of_not_deleted upload hfinal).1
  | ownerDeleted now owner =>
      obtain ⟨hid, huser, hstaging, hstatus, hkey, hdeleted, hpending⟩ :=
        deleteOwner_columns now upload
      refine ⟨hid, huser, hstaging, fun hfailed => ⟨hstatus, ?_, Or.inl hkey⟩, fun _ => Or.inl hstatus⟩
      intro hnone
      rw [hpending]
      split
      · simp
      · exact hnone

/-- A step to a failed row that touches nothing of its public object. -/
theorem rowInvariant_of_failed (hinv : RowInvariant upload) (hne : upload.status ≠ .verified)
    (hfailed : upload'.status = .failed) (hkey : upload'.finalKey = upload.finalKey)
    (hpending : upload'.finalDeletionPendingAt = upload.finalDeletionPendingAt)
    (hdeleted : upload'.finalDeletedAt = upload.finalDeletedAt) : RowInvariant upload' where
  state := by
    have hstate := hinv.state
    unfold FinalDeletionState at hstate ⊢
    rwa [hkey, hpending, hdeleted]
  verified := by simp [hfailed]
  leased := by simp [hfailed]
  fenced := by simp [hfailed]
  deleted := by
    rw [hdeleted, hkey]
    exact fun h => ⟨hfailed, (hinv.deleted h).2⟩
  owed := by
    rw [hkey, hpending]
    exact fun h _ => hinv.owed h hne

theorem rowInvariant (h : UploadEvolves effects upload upload') (hinv : RowInvariant upload) :
    RowInvariant upload' := by
  cases h with
  | same => exact hinv
  | expired unsettled =>
      have hne : upload.status ≠ .verified := fun h => unsettled (Or.inl h)
      exact rowInvariant_of_failed hinv hne rfl rfl rfl rfl
  | claimed leaseExpiresAt unsettled =>
      have hne : upload.status ≠ .verified := fun h => unsettled (Or.inl h)
      have hkept : upload.finalDeletedAt = none := by
        by_contra hdeleted
        exact unsettled (Or.inr (hinv.deleted hdeleted).1)
      refine ⟨hinv.state, by simp [claimUpload], by simp [claimUpload], ?_, ?_, ?_⟩
      · intro _ hpending
        exact if_pos hpending
      · exact fun hdeleted => absurd hkept hdeleted
      · exact fun hkey _ => hinv.owed hkey hne
  | prepared input held key =>
      obtain ⟨hlease, -, -, -⟩ := canPrepare_iff.1 held
      obtain ⟨-, hstatus, hlease⟩ := status_of_hasLease hlease
      have hpending : (prepareUpload input upload).finalDeletionPendingAt ≠ none := by
        cases hnone : upload.finalDeletionPendingAt <;> simp [prepareUpload, hnone]
      refine ⟨Or.inr ⟨hpending, Or.inl (by simp [prepareUpload])⟩, ?_, ?_, ?_, ?_, ?_⟩
      · simp [prepareUpload, hstatus]
      · simp [prepareUpload, hlease]
      · simp [prepareUpload, hlease]
      · simp [prepareUpload]
      · exact fun _ _ => hpending
  | verified input held stored =>
      refine ⟨Or.inl ⟨rfl, rfl⟩, by simp [verifyUpload], by simp [verifyUpload],
        by simp [verifyUpload], by simp [verifyUpload], by simp [verifyUpload]⟩
  | failed failureCode lease held =>
      have hstatus := (status_of_hasLease held).2.1
      exact rowInvariant_of_failed hinv (by simp [hstatus]) rfl rfl rfl rfl
  | released lease held =>
      have hstatus := (status_of_hasLease held).2.1
      have hkept : upload.finalDeletedAt = none := by
        by_contra hdeleted
        simp [(hinv.deleted hdeleted).1] at hstatus
      refine ⟨hinv.state, by simp [releaseUpload], by simp [releaseUpload], by simp [releaseUpload],
        fun hdeleted => absurd hkept hdeleted, fun hkey _ => hinv.owed hkey (by simp [hstatus])⟩
  | stagingDeleted now settled =>
      refine ⟨hinv.state, hinv.verified, hinv.leased, fun hprocessing => ?_, hinv.deleted, hinv.owed⟩
      rcases settled with hstatus | hstatus <;> simp [hstatus] at hprocessing
  | cleanupClaimed now leaseExpiresAt due =>
      by_cases hverified : upload.status = .verified
      · have hstatus : (claimForCleanup leaseExpiresAt upload).status = .verified :=
          (claimForCleanup_status leaseExpiresAt upload).1 hverified
        refine ⟨hinv.state, fun _ => hinv.verified hverified, by simp [hstatus], by simp [hstatus],
          fun hdeleted => ?_, fun _ hne => absurd hstatus hne⟩
        have hfailed := (hinv.deleted hdeleted).1
        simp [hverified] at hfailed
      · exact rowInvariant_of_failed hinv hverified
          ((claimForCleanup_status leaseExpiresAt upload).2 hverified) rfl rfl rfl
  | cleanedUp input settled condemned =>
      obtain ⟨-, -, -, hstatus, hpending, hkey, hdeleted⟩ := recordCleanup_columns input upload
      have hunleased : (recordCleanup input upload).status ≠ .processing := by
        rw [hstatus]
        rcases settled with hsettled | hsettled <;> simp [hsettled]
      cases hfinal : input.finalDeleted with
      | true =>
          obtain ⟨hfailed, howed⟩ := (condemned hfinal).1
          simp only [hfinal, if_true] at hkey hdeleted
          refine ⟨Or.inr ⟨by rwa [hpending], Or.inr (by simp [hdeleted])⟩, ?_, ?_, ?_, ?_, ?_⟩
          · simp [hstatus, hfailed]
          · exact fun h => absurd h hunleased
          · exact fun h => absurd h hunleased
          · exact fun _ => ⟨by rwa [hstatus], hkey⟩
          · simp [hkey]
      | false =>
          simp only [hfinal, Bool.false_eq_true, if_false] at hkey hdeleted
          obtain ⟨hurl, htype, hsize, htime⟩ := recordCleanup_of_not_deleted upload hfinal
          refine ⟨?_, ?_, fun h => absurd h hunleased, fun h => absurd h hunleased, ?_, ?_⟩
          · have hstate := hinv.state
            unfold FinalDeletionState at hstate ⊢
            rwa [hkey, hpending, hdeleted]
          · rw [hstatus, hkey, hurl, htype, hsize, htime, hpending, hdeleted]
            exact hinv.verified
          · rw [hstatus, hkey, hdeleted]
            exact hinv.deleted
          · rw [hstatus, hkey, hpending]
            exact hinv.owed
  | ownerDeleted now owner =>
      obtain ⟨-, -, -, hstatus, hkey, hdeleted, hpending⟩ := deleteOwner_columns now upload
      have hgone : upload.finalDeletedAt ≠ none → upload.finalKey = none := fun h =>
        (hinv.deleted h).2
      refine ⟨?_, by simp [hstatus], by simp [hstatus], by simp [hstatus], ?_, ?_⟩
      · have hstate := hinv.state
        unfold FinalDeletionState at hstate ⊢
        rw [hkey, hpending, hdeleted]
        split
        next howed => exact Or.inr ⟨by simp, Or.inl howed.1⟩
        next => exact hstate
      · rw [hdeleted, hkey]
        exact fun h => ⟨hstatus, hgone h⟩
      · rw [hkey, hpending]
        intro hnone _
        have hkept : upload.finalDeletedAt = none := by
          by_contra h
          exact hnone (hgone h)
        simp [hnone, hkept]

end UploadEvolves

end Steps

/-! ### The table -/

/-- A row as `createUpload` stores it. -/
def IsNew (upload : ProfileUpload) : Prop :=
  ∃ input, upload = pendingUpload input ∧ IsStagingKey input.stagingKey

/-- A statement that takes every row through a step and may store a new one. -/
structure UploadsWrite (effects : Effects) (db db' : Database) : Prop where
  rows : Evolve (UploadEvolves effects) IsNew db.profileUploads db'.profileUploads
  constraints : UploadConstraints db'.profileUploads

/-- The table, its rows and their keys. -/
structure UploadsInvariant (db : Database) : Prop where
  constraints : UploadConstraints db.profileUploads
  rows : ∀ upload ∈ db.profileUploads, RowInvariant upload
  staging : ∀ upload ∈ db.profileUploads, IsStagingKey upload.stagingKey
  published : ∀ upload ∈ db.profileUploads, ∀ key ∈ upload.finalKey, IsFinalKey upload.id key

section Table

variable {effects : Effects} {db db' : Database} {upload upload' : ProfileUpload}
  {cond : ProfileUpload → Bool} {set : ProfileUpload → ProfileUpload}

theorem rowInvariant_pendingUpload (input : CreatePendingInput) :
    RowInvariant (pendingUpload input) := by
  constructor <;> simp [pendingUpload, FinalDeletionState]

/-- The key of a public object stays until its deletion is recorded, and a new one
belongs to the upload. -/
theorem UploadEvolves.finalKey (h : UploadEvolves effects upload upload') :
    (upload'.finalKey = upload.finalKey ∨
      (∀ key ∈ upload.finalKey, effects.forgets key) ∧ upload'.finalKey = none) ∨
    upload.finalKey = none ∧ ∃ key, upload'.finalKey = some key ∧ IsFinalKey upload.id key := by
  cases h with
  | same => exact Or.inl (Or.inl rfl)
  | expired unsettled => exact Or.inl (Or.inl rfl)
  | claimed leaseExpiresAt unsettled => exact Or.inl (Or.inl rfl)
  | prepared input held key =>
      rcases (canPrepare_iff.1 held).2.2.1 with hnone | hsome
      · exact Or.inr ⟨hnone, _, rfl, key⟩
      · exact Or.inl (Or.inl hsome.symm)
  | verified input held stored => exact Or.inl (Or.inl (canVerify_iff.1 held).2.2.1.symm)
  | failed failureCode lease held => exact Or.inl (Or.inl rfl)
  | released lease held => exact Or.inl (Or.inl rfl)
  | stagingDeleted now settled => exact Or.inl (Or.inl rfl)
  | cleanupClaimed now leaseExpiresAt due => exact Or.inl (Or.inl rfl)
  | cleanedUp input settled condemned =>
      have hkey := (recordCleanup_columns input upload).2.2.2.2.2.1
      cases hfinal : input.finalDeleted with
      | true => exact Or.inl (Or.inr ⟨(condemned hfinal).2, by simp [hkey, hfinal]⟩)
      | false => exact Or.inl (Or.inl (by simp [hkey, hfinal]))
  | ownerDeleted now owner => exact Or.inl (Or.inl (deleteOwner_columns now upload).2.2.2.2.1)

/-- A row that a step verifies has its object put to use. -/
theorem UploadEvolves.publishes (h : UploadEvolves effects upload upload')
    (hverified : upload'.status = .verified) :
    upload.status = .verified ∨ ∀ key ∈ upload'.finalKey, effects.publishes key := by
  cases h with
  | same => exact Or.inl hverified
  | expired unsettled => cases hverified
  | claimed leaseExpiresAt unsettled => cases hverified
  | prepared input held key => exact Or.inl hverified
  | verified input held stored =>
      refine Or.inr fun key hkey => ?_
      obtain rfl : input.finalKey = key := by simpa [verifyUpload] using hkey
      exact stored
  | failed failureCode lease held => cases hverified
  | released lease held => cases hverified
  | stagingDeleted now settled => exact Or.inl hverified
  | cleanupClaimed now leaseExpiresAt due =>
      by_contra hother
      have hfailed := (claimForCleanup_status leaseExpiresAt upload).2 fun h => hother (Or.inl h)
      simp [hfailed] at hverified
  | cleanedUp input settled condemned =>
      exact Or.inl ((recordCleanup_columns input upload).2.2.2.1.symm.trans hverified)
  | ownerDeleted now owner =>
      simp [(deleteOwner_columns now upload).2.2.2.1] at hverified

/-- A row leaves the verified state only when its account is erased. -/
theorem UploadEvolves.erases (h : UploadEvolves effects upload upload')
    (hverified : upload.status = .verified) (hleft : upload'.status ≠ .verified) :
    effects.erases upload.userId := by
  cases h with
  | same => exact absurd hverified hleft
  | expired unsettled => exact absurd (Or.inl hverified) unsettled
  | claimed leaseExpiresAt unsettled => exact absurd (Or.inl hverified) unsettled
  | prepared input held key => exact absurd hverified hleft
  | verified input held stored => exact absurd rfl hleft
  | failed failureCode lease held => simp [(status_of_hasLease held).2.1] at hverified
  | released lease held => simp [(status_of_hasLease held).2.1] at hverified
  | stagingDeleted now settled => exact absurd hverified hleft
  | cleanupClaimed now leaseExpiresAt due =>
      exact absurd ((claimForCleanup_status leaseExpiresAt upload).1 hverified) hleft
  | cleanedUp input settled condemned =>
      exact absurd ((recordCleanup_columns input upload).2.2.2.1.trans hverified) hleft
  | ownerDeleted now owner => exact owner

theorem UploadsWrite.refl (hinv : UploadsInvariant db) : UploadsWrite effects db db where
  rows := Evolve.refl (fun _ => .same) _
  constraints := hinv.constraints

theorem UploadsWrite.of_uploads_eq (hinv : UploadsInvariant db)
    (h : db'.profileUploads = db.profileUploads) : UploadsWrite effects db db' where
  rows := by
    rw [h]
    exact Evolve.refl (fun _ => .same) _
  constraints := by
    rw [h]
    exact hinv.constraints

theorem UploadsInvariant.write (hinv : UploadsInvariant db) (h : UploadsWrite effects db db') :
    UploadsInvariant db' where
  constraints := h.constraints
  rows := by
    intro upload hupload
    rcases h.rows.back upload hupload with ⟨old, hold, hevolves⟩ | ⟨input, rfl, -⟩
    · exact hevolves.rowInvariant (hinv.rows old hold)
    · exact rowInvariant_pendingUpload input
  staging := by
    intro upload hupload
    rcases h.rows.back upload hupload with ⟨old, hold, hevolves⟩ | ⟨input, rfl, hkey⟩
    · rw [hevolves.progress.stagingKey]
      exact hinv.staging old hold
    · exact hkey
  published := by
    intro upload hupload key hkey
    rcases h.rows.back upload hupload with ⟨old, hold, hevolves⟩ | ⟨input, rfl, -⟩
    · rw [hevolves.progress.id]
      rcases hevolves.finalKey with (hsame | ⟨-, hnone⟩) | ⟨-, new, hnew, hfinal⟩
      · exact hinv.published old hold key (hsame ▸ hkey)
      · simp [hnone] at hkey
      · obtain rfl : new = key := Option.some.inj (hnew.symm.trans hkey)
        exact hfinal
    · simp [pendingUpload] at hkey

/-- The row of an upload before and after a step. -/
theorem UploadsWrite.evolves (h : UploadsWrite effects db db') (hupload : upload ∈ db.profileUploads)
    (hupload' : upload' ∈ db'.profileUploads) (hid : upload'.id = upload.id) :
    UploadEvolves effects upload upload' :=
  h.rows.step_of_key h.constraints.id_unique (fun hstep => hstep.progress.id) hupload hupload' hid

/-- A statement whose rows all pass the check fails on another constraint. -/
theorem writeUploads_error {uploads : List ProfileUpload} {failure : Failure}
    (h : writeUploads uploads db = .error failure)
    (hstate : ∀ upload ∈ uploads, FinalDeletionState upload) :
    failure ≠ .constraint finalDeletionStateCheck := by
  have hthrown : failure = .constraint "profile_uploads_pkey" ∨
      failure = .constraint "profile_uploads_stagingKey_key" ∨
      failure = .constraint "profile_uploads_finalKey_key" := by
    simp only [writeUploads, bind_eq_error_iff, require_eq_error_iff, require_eq_ok_iff,
      exists_const] at h
    rcases h with ⟨-, hid⟩ | ⟨-, ⟨-, hstaging⟩ | ⟨-, ⟨-, hfinal⟩ | ⟨-, ⟨hcheck, -⟩ | ⟨-, h⟩⟩⟩⟩
    · exact Or.inl hid.symm
    · exact Or.inr (Or.inl hstaging.symm)
    · exact Or.inr (Or.inr hfinal.symm)
    · exact absurd hstate hcheck
    · cases h
  rcases hthrown with rfl | rfl | rfl <;> simp [finalDeletionStateCheck]

/-- The rows that a step leaves pass the check. -/
theorem UploadsInvariant.states {uploads : List ProfileUpload} (hinv : UploadsInvariant db)
    (hrows : Evolve (UploadEvolves effects) IsNew db.profileUploads uploads) :
    ∀ upload ∈ uploads, FinalDeletionState upload := by
  intro upload hupload
  rcases hrows.back upload hupload with ⟨old, hold, hevolves⟩ | ⟨input, rfl, -⟩
  · exact (hevolves.rowInvariant (hinv.rows old hold)).state
  · exact (rowInvariant_pendingUpload input).state

/-! ### What each call does -/

/-- What a call comes to: it writes the table and nothing else, and its result holds
of the new rows; or it fails, but never on the check. -/
structure Writes (effects : Effects) (db : Database) (outcome : Except Failure (β × Database))
    (result : β → List ProfileUpload → Prop) : Prop where
  returns : ∀ value db', outcome = .ok (value, db') → UploadsWrite effects db db' ∧
    { db with profileUploads := db'.profileUploads } = db' ∧ result value db'.profileUploads
  throws : ∀ failure, outcome = .error failure → failure ≠ .constraint finalDeletionStateCheck

variable {β : Type} {result : β → List ProfileUpload → Prop}

theorem Writes.nothing {value : β} (hinv : UploadsInvariant db)
    (hresult : result value db.profileUploads) :
    Writes effects db (pure (value, db)) result where
  returns := by
    intro value' db' h
    obtain ⟨rfl, rfl⟩ := Prod.mk.inj (Except.ok.inj h)
    exact ⟨.refl hinv, rfl, hresult⟩
  throws := fun failure h => by cases h

theorem Writes.error (message : String) :
    Writes effects db (throw (.error message) : Except Failure (β × Database)) result where
  returns := fun value db' h => by cases h
  throws := by
    intro failure h
    cases h
    simp

/-- A check before the statements of a call. -/
theorem Writes.guard {check : Except Failure Unit} {rest : Except Failure (β × Database)}
    (hcheck : check ≠ .error (.constraint finalDeletionStateCheck))
    (hrest : check = .ok () → Writes effects db rest result) :
    Writes effects db (check >>= fun _ => rest) result := by
  cases check with
  | ok done => exact hrest rfl
  | error failure =>
      refine ⟨fun value db' h => (by cases h), fun failure' h => ?_⟩
      obtain rfl : failure = failure' := Except.error.inj h
      exact fun hfailure => hcheck (by rw [hfailure])

/-- An update whose rows all take a step, and what the call makes of the rows it returns. -/
theorem Writes.update {rest : List ProfileUpload × Database → Except Failure (β × Database)}
    (hinv : UploadsInvariant db)
    (hset : ∀ upload ∈ db.profileUploads, cond upload → UploadEvolves effects upload (set upload))
    (hreturns : ∀ value db' written, rest (returning cond set db.profileUploads, written) =
      .ok (value, db') → db' = written ∧ (written.profileUploads =
        updateWhere cond set db.profileUploads → result value written.profileUploads))
    (hthrows : ∀ failure returned, rest returned = .error failure →
      failure ≠ .constraint finalDeletionStateCheck) :
    Writes effects db (updateUploads cond set db >>= rest) result := by
  have hrows : Evolve (UploadEvolves effects) IsNew db.profileUploads
      (updateWhere cond set db.profileUploads) := Evolve.updateWhere (fun _ => .same) hset
  cases hwrite : writeUploads (updateWhere cond set db.profileUploads) db with
  | ok written =>
      obtain ⟨hconstraints, rfl⟩ := writeUploads_eq_ok_iff.1 hwrite
      unfold updateUploads
      rw [hwrite]
      refine ⟨fun value db' h => ?_, fun failure h => hthrows failure _ h⟩
      obtain ⟨rfl, hresult⟩ := hreturns value db' _ h
      exact ⟨⟨hrows, hconstraints⟩, rfl, hresult rfl⟩
  | error failure =>
      unfold updateUploads
      rw [hwrite]
      refine ⟨fun value db' h => (by cases h), fun failure' h => ?_⟩
      obtain rfl : failure = failure' := Except.error.inj h
      exact writeUploads_error hwrite (hinv.states hrows)

/-- An update of one statement. -/
theorem Writes.update_only (hinv : UploadsInvariant db)
    (hset : ∀ upload ∈ db.profileUploads, cond upload → UploadEvolves effects upload (set upload)) :
    Writes effects db (updateUploads cond set db >>= fun updated => pure ((), updated.2))
      (fun _ _ => True) := by
  refine Writes.update hinv hset (fun value db' written h => ?_) fun failure returned h => ?_
  · obtain ⟨-, rfl⟩ := Prod.mk.inj (Except.ok.inj h)
    exact ⟨rfl, fun _ => trivial⟩
  · cases h

/-- The rows that an update returns are in the table. -/
theorem mem_of_returning (h : upload ∈ returning cond set db.profileUploads) :
    upload ∈ updateWhere cond set db.profileUploads ∧
      ∃ old ∈ db.profileUploads, cond old ∧ set old = upload := by
  obtain ⟨old, hold, rfl⟩ := List.mem_map.1 h
  obtain ⟨hmem, hcond⟩ := List.mem_filter.1 hold
  exact ⟨mem_updateWhere.2 (Or.inl ⟨old, hmem, hcond, rfl⟩), old, hmem, hcond, rfl⟩

theorem mem_of_findUpload (h : findUpload cond db = some upload) :
    upload ∈ db.profileUploads ∧ cond upload :=
  ⟨List.mem_of_find?_eq_some h, List.find?_some h⟩

/-- An update by an identifier finds only the row that has it. -/
theorem UploadsInvariant.eq_of_id (hinv : UploadsInvariant db) (hupload : upload ∈ db.profileUploads)
    (hupload' : upload' ∈ db.profileUploads) (hid : upload.id = upload'.id) : upload = upload' :=
  hinv.constraints.id_unique.eq_of_key hupload hupload' hid

theorem createPending_writes {input : CreatePendingInput} (hinv : UploadsInvariant db)
    (hkey : IsStagingKey input.stagingKey) :
    Writes effects db (createPending input db) fun _ _ => True := by
  unfold createPending
  refine .guard (by unfold throwIf; split <;> simp) fun _ => ?_
  refine .guard (by unfold throwIf; split <;> simp) fun _ => ?_
  refine .guard (by unfold require; split <;> simp [finalDeletionStateCheck]) fun _ => ?_
  have hrows : Evolve (UploadEvolves effects) IsNew db.profileUploads
      (db.profileUploads ++ [pendingUpload input]) :=
    Evolve.insert (fun _ => .same) ⟨input, rfl, hkey⟩
  cases hwrite : writeUploads (db.profileUploads ++ [pendingUpload input]) db with
  | ok written =>
      refine ⟨fun value db' h => ?_, fun failure h => by cases h⟩
      obtain ⟨hconstraints, rfl⟩ := writeUploads_eq_ok_iff.1 hwrite
      obtain ⟨-, rfl⟩ := Prod.mk.inj (Except.ok.inj h)
      exact ⟨⟨hrows, hconstraints⟩, rfl, trivial⟩
  | error failure =>
      refine ⟨fun value db' h => (by cases h), fun failure' h => ?_⟩
      obtain rfl : failure = failure' := Except.error.inj h
      exact writeUploads_error hwrite (hinv.states hrows)

/-- A claim is of a row of the table; one that the finalizer goes on with is its own. -/
theorem claimFinalize_writes {input : ClaimFinalizeInput} (hinv : UploadsInvariant db) :
    Writes effects db (claimFinalize input db) fun claim uploads =>
      ∀ upload, claim = .claimed upload → upload ∈ uploads := by
  unfold claimFinalize
  split
  next => exact .error _
  next upload hfound =>
    have hupload := (mem_of_findUpload hfound).1
    split_ifs with hverified hfailed hexpired hbusy
    · exact .nothing hinv (by simp)
    · exact .error _
    · have hunsettled : ¬ Settled upload := by simp [Settled, hverified, hfailed]
      refine .update hinv (fun row hrow hid => ?_) (fun value db' written h => ?_)
        fun failure returned h => ?_
      · obtain rfl := hinv.eq_of_id hrow hupload (by simpa using hid)
        exact .expired hunsettled
      · dsimp only at h
        split at h
        next => cases h
        next =>
          obtain ⟨rfl, rfl⟩ := Prod.mk.inj (Except.ok.inj h)
          exact ⟨rfl, by simp⟩
      · obtain ⟨_ | ⟨expired, rest⟩, written⟩ := returned <;> cases h
        simp
    · exact .nothing hinv (by simp)
    · have hunsettled : ¬ Settled upload := by simp [Settled, hverified, hfailed]
      refine .update hinv (fun row hrow hid => ?_) (fun value db' written h => ?_)
        fun failure returned h => ?_
      · obtain rfl := hinv.eq_of_id hrow hupload (by simpa using hid)
        exact .claimed _ hunsettled
      · dsimp only at h
        split at h
        next => cases h
        next claimed rest hreturned =>
          obtain ⟨rfl, rfl⟩ := Prod.mk.inj (Except.ok.inj h)
          refine ⟨rfl, fun hwritten upload' hclaim => ?_⟩
          obtain rfl := FinalizeUploadClaim.claimed.inj hclaim
          rw [hwritten]
          exact (mem_of_returning (by rw [hreturned]; exact List.mem_cons_self)).1
      · obtain ⟨_ | ⟨claimed, rest⟩, written⟩ := returned <;> cases h
        simp

/-- A prepared row has the key of the object. -/
theorem prepareFinalObject_writes {input : FinalObjectInput} (hinv : UploadsInvariant db)
    (hkey : IsFinalKey input.uploadId input.finalKey) :
    Writes effects db (prepareFinalObject input db) fun _ uploads =>
      ∃ upload ∈ uploads, upload.finalKey = some input.finalKey := by
  refine Writes.update hinv (fun upload hupload hcond => ?_) (fun value db' written h => ?_)
    fun failure returned h => ?_
  · have hid := (status_of_hasLease (canPrepare_iff.1 hcond).1).1
    exact .prepared input hcond (hid ▸ hkey)
  · obtain ⟨done, hprepared, hdone⟩ := bind_eq_ok_iff.1 h
    obtain ⟨-, rfl⟩ := Prod.mk.inj (Except.ok.inj hdone)
    refine ⟨rfl, fun hwritten => ?_⟩
    rw [throwIf_eq_ok_iff] at hprepared
    obtain ⟨upload, hupload, hcond⟩ := returning_ne_nil.1 hprepared
    rw [hwritten]
    exact ⟨prepareUpload input upload, mem_updateWhere.2 (Or.inl ⟨upload, hupload, hcond, rfl⟩), rfl⟩
  · rcases bind_eq_error_iff.1 h with hthrown | ⟨done, -, hdone⟩
    · rw [← (throwIf_eq_error_iff.1 hthrown).2]
      simp
    · cases hdone

/-- A row that an update has verified is in the table. -/
theorem writeVerified_writes {input : FinalObjectInput} (hinv : UploadsInvariant db)
    (hstored : effects.publishes input.finalKey) :
    Writes effects db (writeVerified input db) fun verified uploads =>
      ∀ upload ∈ verified, upload ∈ uploads ∧ upload.id = input.uploadId ∧
        upload.status = .verified := by
  refine Writes.update hinv (fun upload _ hcond => .verified input hcond hstored)
    (fun value db' written h => ?_) fun failure returned h => ?_
  · obtain ⟨rfl, rfl⟩ := Prod.mk.inj (Except.ok.inj h)
    refine ⟨rfl, fun hwritten upload hupload => ?_⟩
    obtain ⟨hmem, old, -, hcond, rfl⟩ := mem_of_returning (List.mem_of_head? hupload)
    rw [hwritten]
    exact ⟨hmem, (status_of_hasLease (canVerify_iff.1 hcond).1).1, rfl⟩
  · cases h

theorem findVerified_ok {input : FinalObjectInput} (h : findVerified input db = .ok upload) :
    upload ∈ db.profileUploads ∧ upload.id = input.uploadId ∧ upload.status = .verified := by
  unfold findVerified at h
  split at h
  next existing hfound =>
    obtain ⟨hmem, hown⟩ := mem_of_findUpload hfound
    split at h
    next hcond =>
      obtain rfl := Except.ok.inj h
      simp only [isOwnUpload, decide_eq_true_eq] at hown
      exact ⟨hmem, hown.1, hcond.1⟩
    next => cases h
  next => cases h

theorem markFailed_writes {uploadId : Uuid} {failureCode : String} {lease : Timestamp}
    (hinv : UploadsInvariant db) :
    Writes effects db (markFailed uploadId failureCode lease db) fun _ _ => True := by
  refine Writes.update_only hinv fun upload _ hcond => ?_
  have hid := (status_of_hasLease hcond).1
  exact .failed failureCode lease (by rwa [hid])

theorem releaseFinalizeLease_writes {uploadId : Uuid} {lease : Timestamp}
    (hinv : UploadsInvariant db) :
    Writes effects db (releaseFinalizeLease uploadId lease db) fun _ _ => True := by
  refine Writes.update_only hinv fun upload _ hcond => ?_
  have hid := (status_of_hasLease hcond).1
  exact .released lease (by rwa [hid])

/-- A finalizer records the deletion of its staging object once its upload is settled. -/
theorem markStagingDeleted_writes {uploadId : Uuid} {now : Timestamp} (hinv : UploadsInvariant db)
    (hsettled : ∃ upload ∈ db.profileUploads, upload.id = uploadId ∧ Settled upload) :
    Writes effects db (markStagingDeleted uploadId now db) fun _ _ => True := by
  obtain ⟨settled, hmem, rfl, hsettled⟩ := hsettled
  refine Writes.update_only hinv fun upload hupload hid => ?_
  obtain rfl := hinv.eq_of_id hupload hmem (by simpa using hid)
  exact .stagingDeleted now hsettled

/-- The jobs of a claim are rows of the table, and settled. -/
theorem claimCleanupBatch_writes {input : ClaimCleanupInput} {candidates : List ProfileUpload}
    (hinv : UploadsInvariant db) (hcandidates : CleanupCandidates input db candidates) :
    Writes effects db (claimCleanupBatch input candidates db) fun claimed uploads =>
      ∀ upload ∈ claimed.jobs, upload ∈ uploads ∧ Settled upload := by
  unfold claimCleanupBatch
  split
  next => exact .nothing hinv (by simp)
  next =>
    refine Writes.update hinv (fun upload hupload hcond => ?_) (fun value db' written h => ?_)
      fun failure returned h => ?_
    · obtain ⟨due, hdue, hid⟩ := List.mem_map.1 (by simpa using hcond : upload.id ∈ candidates.map (·.id))
      obtain ⟨hmem, hcleanup⟩ := hcandidates.due due hdue
      obtain rfl := hinv.eq_of_id hupload hmem hid.symm
      exact .cleanupClaimed _ _ hcleanup
    · obtain ⟨rfl, rfl⟩ := Prod.mk.inj (Except.ok.inj h)
      refine ⟨rfl, fun hwritten upload hupload => ?_⟩
      obtain ⟨hmem, old, -, -, rfl⟩ := mem_of_returning hupload
      rw [hwritten]
      refine ⟨hmem, ?_⟩
      obtain ⟨hkept, hgone⟩ := claimForCleanup_status input.leaseExpiresAt old
      by_cases hverified : old.status = .verified
      · exact Or.inl (hkept hverified)
      · exact Or.inr (hgone hverified)
    · cases h

/-- The result of a job: a deletion of the public object is recorded of a condemned
row only, after the deletion. -/
theorem applyCleanupResult_writes {input : CleanupResultInput} (hinv : UploadsInvariant db)
    (hsettled : ∀ upload ∈ db.profileUploads, upload.id = input.uploadId → Settled upload)
    (hdeleted : input.finalDeleted → ∀ upload ∈ db.profileUploads, upload.id = input.uploadId →
      Condemned upload ∧ ∀ key ∈ upload.finalKey, effects.forgets key) :
    Writes effects db (applyCleanupResult input db) fun _ _ => True := by
  refine Writes.update_only hinv fun upload hupload hcond => ?_
  simp only [hasCleanupLease, decide_eq_true_eq] at hcond
  refine .cleanedUp input (hsettled upload hupload hcond.1) fun hfinal => ?_
  exact hdeleted hfinal upload hupload hcond.1

/-- The updates of an erasure take every row of the account through its step. -/
theorem anonymizeUploads_eq (input : DeletionJobInput) (uploads : List ProfileUpload) :
    anonymizeUploads input uploads =
      updateWhere (fun upload => upload.userId = input.userId) (deleteOwner input.now) uploads := by
  unfold anonymizeUploads updateWhere
  rw [List.map_map]
  refine List.map_congr_left fun upload _ => ?_
  by_cases howner : upload.userId = input.userId
  · simp [howner, failDeletedOwner, deleteOwner]
  · simp [howner]

theorem anonymizeUploads_evolve {input : DeletionJobInput} (herases : effects.erases input.userId)
    (uploads : List ProfileUpload) :
    Evolve (UploadEvolves effects) IsNew uploads (anonymizeUploads input uploads) := by
  rw [anonymizeUploads_eq]
  refine Evolve.updateWhere (fun _ => .same) fun upload _ howner => .ownerDeleted input.now ?_
  rwa [of_decide_eq_true howner]

theorem writeAnonymized_writes {input : DeletionJobInput} {matchRooms : List RowId} {done : Unit}
    (herases : effects.erases input.userId)
    (h : writeAnonymized input matchRooms db = .ok (done, db')) : UploadsWrite effects db db' where
  rows := by
    rw [(writeAnonymized_ok h).uploads]
    exact anonymizeUploads_evolve herases db.profileUploads
  constraints := (writeAnonymized_ok h).constraints

/-- The writes of an erasure fail on another constraint, if at all. -/
theorem writeAnonymized_fails {input : DeletionJobInput} {matchRooms : List RowId}
    {failure : Failure} (hinv : UploadsInvariant db) (herases : effects.erases input.userId)
    (h : writeAnonymized input matchRooms db = .error failure) :
    failure ≠ .constraint finalDeletionStateCheck := by
  rcases writeAnonymized_error h with hwrite | rfl
  · exact writeUploads_error hwrite
      (hinv.states (anonymizeUploads_evolve herases db.profileUploads))
  · simp [finalDeletionStateCheck]

end Table

end ChatTea.Upload
