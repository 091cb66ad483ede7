import ChatTea.Upload.Objects
import ChatTea.Users.Lifecycle

/-!
# Uploads under every interleaving

Uploads are created, finalized and cleaned up, profiles are replaced and accounts
erased, by any number of threads at the same time, while the object store takes its
time over each request and clients store what they like in the staging area.

## Main definitions

* `UploadRequest`, `uploadSystem` — the calls and the system they run in
* `UploadStep` — what one step of a call does
* `uploadLogic` — the invariant of the store; restricted to runs in which no put comes
  after a delete, also that every object belongs to a row

## Main results

* `sound` — every program keeps the invariant
-/

namespace ChatTea.Upload

open Interleaving RowLocks Table Transaction Users

/-! ### The system -/

inductive UploadRequest where
  | createUpload (userId : UuidText) (metadata : UploadMetadata)
  | finalizeUpload (userId uploadId : UuidText)
  | cleanupExpiredStagingBatch (now : Timestamp) (limit : ℕ)
  | cleanupJob (job : CleanupJob)
  | replaceProfile (input : ReplaceProfileInput)
  | scheduleDeletion (userId : UuidText) (scheduledFor : Timestamp)
  | restoreScheduledDeletion (userId : UuidText) (now : Timestamp)
  | claimDueDeletionBatch (input : ClaimDeletionInput)
  | releaseDeletionLease (input : DeletionJobInput)
  | anonymizeDeletedAccount (input : DeletionJobInput)

def uploadCode (config : UploadConfig) : UploadRequest → Prog World UploadRequest Failure Unit
  | .createUpload userId metadata => do
      let _ ← createUpload config userId metadata
      return ()
  | .finalizeUpload userId uploadId => do
      let _ ← finalizeUpload config userId uploadId
      return ()
  | .cleanupExpiredStagingBatch now limit => do
      let _ ← cleanupExpiredStagingBatch .cleanupJob now limit
      return ()
  | .cleanupJob job => do
      let _ ← cleanupJob job
      return ()
  | .replaceProfile input => do
      let _ ← replaceProfile input
      return ()
  | .scheduleDeletion userId scheduledFor => do
      let _ ← scheduleDeletion userId scheduledFor
      return ()
  | .restoreScheduledDeletion userId now => do
      let _ ← statement (restoreScheduledDeletion userId now)
      return ()
  | .claimDueDeletionBatch input => do
      let _ ← claimDeletions input
      return ()
  | .releaseDeletionLease input => statement (releaseDeletionLease input)
  | .anonymizeDeletedAccount input => anonymizeDeletedAccount input

/-- A step of the outside: a request to the store takes effect or never will again, or a
client stores an object with its presigned URL. -/
inductive StoreStep (w : World) : World → Prop
  | moves {after} (moves : w.StoreMoves after) : StoreStep w after
  | staged (key) (staging : IsStagingKey key) : StoreStep w { w with objects := key :: w.objects }

/-- Any number of calls with any arguments, in any order; the jobs of a batch are
started by the batch. -/
def uploadSystem (config : UploadConfig) : System World UploadRequest Failure Unit where
  code := uploadCode config
  accepts := fun request => ∀ job, request ≠ .cleanupJob job
  environment := StoreStep
  rollback := World.rollback

/-! ### The logic of the system -/

/-- What a step of a call may do: erase the account whose current claim the call has, put
stored objects to use, and forget deleted ones. -/
def stepEffects (request : UploadRequest) (before : World) : Effects where
  erases userId := ∃ input, request = .anonymizeDeletedAccount input ∧ input.userId = userId ∧
    CurrentClaim input before.db
  publishes key := Landed .put key before
  forgets key := Landed .delete key before

/-- What a step of a call does. -/
structure UploadStep (request : UploadRequest) (pid : ℕ) (before after : World) : Prop where
  others : ∀ other, other ≠ pid → World.KeepsLocked other before after
  rows : Evolve (UploadEvolves (stepEffects request before)) IsNew before.db.profileUploads
    after.db.profileUploads
  requests : RequestsKept before.requests after.requests

theorem UploadStep.keeps {request : UploadRequest} {pid : ℕ} {before after : World}
    (h : UploadStep request pid before after) : Keeps before after :=
  .of_evolve h.rows (fun _ => id) h.requests

/-- A claimed row of a cleanup batch. -/
structure CleanupReady (upload : ProfileUpload) (w : World) : Prop where
  known : Known upload w
  settled : Settled upload
  row : RowInvariant upload
  staging : IsStagingKey upload.stagingKey
  published : ∀ key ∈ upload.finalKey, IsFinalKey upload.id key

def uploadLogic (fenced : Bool) : Logic World UploadRequest Failure Unit where
  invariant w := StoreInvariant w ∧ (fenced → Fenced w)
  rely pid before after := World.KeepsLocked pid before after ∧ Keeps before after
  guarantee := UploadStep
  allowed before after := fenced → PutsFenced before after
  requires request w := ∀ job, request = .cleanupJob job → CleanupReady job.upload w
  ensures _ _ _ _ := True
  rely_refl pid w := ⟨.refl pid w, .refl w⟩
  rely_trans h h' := ⟨h.1.trans h'.1, h.2.trans h'.2⟩
  guarantee_refl _ _ w := ⟨fun other _ => .refl other w, Evolve.refl (fun _ => .same) _, .refl _⟩
  rely_of_guarantee hother h := ⟨h.others _ hother, h.keeps⟩

section Steps

variable {fenced : Bool} {request : UploadRequest} {pid : ℕ} {w before after : World} {β : Type}
  {returns : β → World → Prop}

theorem later_true {w : World} : (uploadLogic fenced).Later pid (fun _ => True) w :=
  fun _ _ _ => trivial

/-- What no step undoes is stable. -/
theorem stable_of_keep {assertion : World → Prop}
    (hkeep : ∀ {s t}, assertion s → Keeps s t → assertion t) :
    (uploadLogic fenced).Stable pid assertion :=
  fun _ _ hrely _ h => hkeep h hrely.2

/-- A step that leaves the database and the requests alone is a step of any call. -/
theorem uploadStep_of_db_eq (hdb : after.db = before.db)
    (hrequests : RequestsKept before.requests after.requests)
    (hlocks : ∀ other, other ≠ pid → ∀ {mode row}, Holds before.locks other mode row →
      Holds after.locks other mode row) : UploadStep request pid before after where
  others := fun other hother => .of_db_eq hdb (hlocks other hother)
  rows := by
    rw [hdb]
    exact Evolve.refl (fun _ => .same) _
  requests := hrequests

theorem invariant_withLocks (hinv : (uploadLogic fenced).invariant w)
    (locks : List (Lock LockedRow)) : (uploadLogic fenced).invariant (w.withLocks locks) := by
  refine ⟨hinv.1.withLocks locks, fun hfenced => ?_⟩
  obtain ⟨hnamed, hputs, hgone⟩ := hinv.2 hfenced
  exact ⟨hnamed, hputs, hgone⟩

theorem invariant_reject (hinv : (uploadLogic fenced).invariant w) {failure : Failure}
    (hfailure : failure ≠ .constraint finalDeletionStateCheck) :
    (uploadLogic fenced).invariant (w.reject failure) := by
  refine ⟨hinv.1.reject hfailure, fun hfenced => ?_⟩
  obtain ⟨hnamed, hputs, hgone⟩ := hinv.2 hfenced
  exact ⟨hnamed, hputs, hgone⟩

theorem invariant_write (hinv : (uploadLogic fenced).invariant w) {db : Database}
    (hwrite : UploadsWrite (stepEffects request w) w.db db)
    (hphotos : ∀ photo ∈ db.userProfilePhotos,
      photo ∈ w.db.userProfilePhotos ∧ ¬ (stepEffects request w).erases photo.userId ∨
        Resolves db.profileUploads photo) :
    (uploadLogic fenced).invariant (w.withDb db) := by
  refine ⟨hinv.1.write hwrite (fun _ => id) hphotos, fun hfenced => ?_⟩
  exact (hinv.2 hfenced).write hinv.1 (.of_evolve hwrite.rows (fun _ => id) (.refl _))

theorem lockNeutral : LockNeutral (uploadLogic fenced) request where
  acquire := fun hinv _ =>
    ⟨invariant_withLocks hinv _, uploadStep_of_db_eq rfl (.refl _) fun _ _ _ _ => Holds.acquire⟩
  unlock := fun hinv => ⟨invariant_withLocks hinv _,
    uploadStep_of_db_eq rfl (.refl _) fun _ hother _ _ h => h.release (Ne.symm hother)⟩
  rely := And.left

/-- A call that takes the uploads through steps and keeps the photos. -/
theorem callChecks_upload {call : Call Database Failure β} (result : β → Database → Prop)
    (hok : ∀ value db, call before.db = .ok (value, db) →
      UploadsWrite (stepEffects request before) before.db db ∧
        db.userProfilePhotos = before.db.userProfilePhotos ∧ result value db)
    (herror : ∀ failure, call before.db = .error failure →
      failure ≠ .constraint finalDeletionStateCheck)
    (hrequest : ∀ input, request ≠ .anonymizeDeletedAccount input)
    (hinv : (uploadLogic fenced).invariant before)
    (hreturns : ∀ value db, result value db → (uploadLogic fenced).invariant (before.withDb db) →
      Keeps before (before.withDb db) →
        (uploadLogic fenced).Later pid (returns value) (before.withDb db)) :
    CallChecks (uploadLogic fenced) request pid call returns (fun _ _ => True) before where
  returned := by
    intro value db hcall hunlocked _
    obtain ⟨hwrite, hphotos, hresult⟩ := hok value db hcall
    have hafter : (uploadLogic fenced).invariant (before.withDb db) := by
      refine invariant_write hinv hwrite fun photo hphoto => Or.inl ⟨hphotos ▸ hphoto, ?_⟩
      rintro ⟨input, hinput, -⟩
      exact hrequest input hinput
    have hstep : UploadStep request pid before (before.withDb db) :=
      ⟨fun other hother => .of_unlocked hunlocked hother id, hwrite.rows, .refl _⟩
    exact ⟨hafter, hstep, hreturns value db hresult hafter hstep.keeps, fun _ => later_true⟩
  threw := fun failure hcall => ⟨invariant_reject hinv (herror failure hcall),
    uploadStep_of_db_eq rfl (.refl _) fun _ _ _ _ => id, later_true⟩
  unreachable := fun _ => later_true

/-- A call of the upload repository. -/
theorem callChecks_writes {call : Call Database Failure β} {result : β → List ProfileUpload → Prop}
    (hwrites : Writes (stepEffects request before) before.db (call before.db) result)
    (hrequest : ∀ input, request ≠ .anonymizeDeletedAccount input)
    (hinv : (uploadLogic fenced).invariant before)
    (hreturns : ∀ value after, result value after.db.profileUploads →
      (uploadLogic fenced).invariant after → Keeps before after →
        (uploadLogic fenced).Later pid (returns value) after) :
    CallChecks (uploadLogic fenced) request pid call returns (fun _ _ => True) before := by
  refine callChecks_upload (fun value db => result value db.profileUploads)
    (fun value db hcall => ?_) hwrites.throws hrequest hinv
    fun value db => hreturns value (before.withDb db)
  obtain ⟨hwrite, hframe, hresult⟩ := hwrites.returns value db hcall
  exact ⟨hwrite, by rw [← hframe], hresult⟩

/-- A call of the upload repository after which nothing needs to be known. -/
theorem holds_writes {call : Call Database Failure β} {result : β → List ProfileUpload → Prop}
    (assertion : World → Prop) (hkeep : ∀ {s t}, assertion s → Keeps s t → assertion t)
    (hassertion : assertion w)
    (hwrites : ∀ before, assertion before → UploadsInvariant before.db →
      Writes (stepEffects request before) before.db (call before.db) result)
    (hrequest : ∀ input, request ≠ .anonymizeDeletedAccount input)
    (hreturns : ∀ value after, assertion after → result value after.db.profileUploads →
      (uploadLogic fenced).invariant after → (uploadLogic fenced).Later pid (returns value) after) :
    (uploadLogic fenced).Holds request pid (statement call) returns (fun _ _ => True) w :=
  holds_statement assertion ((stable_of_keep hkeep).later hassertion) fun before hbefore hinv =>
    callChecks_writes (hwrites before hbefore hinv.1.uploads) hrequest hinv
      fun value after hresult hafter hkept =>
        hreturns value after (hkeep hbefore hkept) hresult hafter

/-- A call that only concerns accounts. -/
theorem holds_account {call : Call Database Failure β}
    (hcall : ∀ {db value db'}, call db = .ok (value, db') →
      db'.profileUploads = db.profileUploads ∧ db'.userProfilePhotos = db.userProfilePhotos)
    (herror : ∀ {db failure}, call db = .error failure →
      failure ≠ .constraint finalDeletionStateCheck)
    (hrequest : ∀ input, request ≠ .anonymizeDeletedAccount input)
    (hreturns : ∀ value after, (uploadLogic fenced).Later pid (returns value) after) :
    (uploadLogic fenced).Holds request pid (statement call) returns (fun _ _ => True) w :=
  holds_statement (fun _ => True) later_true fun _ _ hinv =>
    callChecks_upload (fun _ _ => True)
      (fun _ _ h => ⟨.of_uploads_eq hinv.1.uploads (hcall h).1, (hcall h).2, trivial⟩)
      (fun _ h => herror h) hrequest hinv fun value _ _ _ _ => hreturns value _

/-- A request is sent to the store: a delete for an object that is not in use, a put
for one that a row names. -/
theorem holds_issue {kind : StoreRequestKind} {key : Text} {returns : ℕ → World → Prop}
    (assertion : World → Prop) (hkeep : ∀ {s t}, assertion s → Keeps s t → assertion t)
    (hassertion : assertion w)
    (hdead : ∀ before, assertion before → kind = .delete → IsStagingKey key ∨
      ∃ upload ∈ before.db.profileUploads, upload.status = .failed ∧ IsFinalKey upload.id key)
    (hput : ∀ before, assertion before → kind = .put →
      (∃ id, IsFinalKey id key) ∧ (Named key before ∨ Landed .delete key before))
    (hreturns : ∀ number after, assertion after → Sent kind key number after →
      (uploadLogic fenced).Later pid (returns number) after) :
    (uploadLogic fenced).Holds request pid (issue kind key) returns (fun _ _ => True) w := by
  refine Logic.holds_step assertion (stable_of_keep hkeep) hassertion ?_
  rintro before number after hbefore hinv ⟨rfl, rfl⟩ _
  refine ⟨⟨hinv.1.send (hdead before hbefore), fun hfenced =>
    (hinv.2 hfenced).send (hput before hbefore)⟩, ?_, ?_⟩
  · exact uploadStep_of_db_eq rfl (.append _ _) fun _ _ _ _ => id
  · refine hreturns _ _ (hkeep hbefore keeps_send) ⟨⟨kind, key, false, true⟩, ?_, rfl, rfl⟩
    rw [List.getElem?_append_right (Nat.le_refl _), Nat.sub_self]
    rfl

/-- The answer to a request that was sent. -/
theorem holds_answer {kind : StoreRequestKind} {key : Text} {number : ℕ}
    {returns : Bool → World → Prop} (assertion : World → Prop)
    (hkeep : ∀ {s t}, assertion s → Keeps s t → assertion t) (hassertion : assertion w)
    (hsent : Sent kind key number w)
    (hreturns : ∀ reply after, assertion after → (reply = true → Landed kind key after) →
      (uploadLogic fenced).Later pid (returns reply) after) :
    (uploadLogic fenced).Holds request pid (answer number) returns (fun _ _ => True) w := by
  refine Logic.holds_step (fun w => assertion w ∧ Sent kind key number w)
    (stable_of_keep fun h hkept => ⟨hkeep h.1 hkept, h.2.keep hkept⟩) ⟨hassertion, hsent⟩ ?_
  rintro before reply after ⟨hbefore, hsent⟩ hinv hact _
  cases hact with
  | success sent landed =>
      exact ⟨hinv, (uploadLogic fenced).guarantee_refl _ _ _,
        hreturns _ _ hbefore fun _ => hsent.landed sent landed⟩
  | failure =>
      exact ⟨hinv, (uploadLogic fenced).guarantee_refl _ _ _,
        hreturns _ _ hbefore fun h => by cases h⟩

end Steps

end ChatTea.Upload
