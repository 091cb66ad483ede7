import ChatTea.Lib.SlidingWindow
import ChatTea.Upload.Safety
import ChatTea.Upload.Steps

/-!
# Quotas of uploads

An upload is created under an advisory lock of its user: the transaction takes the lock,
counts the uploads of the user and stores a new one. Its clock was read before it waited
for the lock, so the clocks come in any order. Other calls change the uploads between the
count and the commit, but none of them stores one or brings one back, and no other call
stores one of the same user while the lock is held.

## Main definitions

* `createPendingTransaction` — `createPending`, statement by statement
* `quotaSystem` — the system in which uploads are created so
* `QuietStep` — what a step of another call does
* `QuotaInvariant`, `quotaLogic` — the quotas, and what a thread with the lock relies on

## Main results

* `createPending_runs` — alone, the statements do what `createPending` does
* `quota_sound` — every program keeps the quotas
* `upload_quotas` — the quotas of every run
-/

namespace ChatTea.Upload

open Interleaving RowLocks SlidingWindow Table Transaction Users

section Statements

variable {ι : Type}

/-! ### Creating an upload, statement by statement -/

/-- The text whose hash `createPending` locks. -/
def uploadQuotaKey (userId : Text) : String := "upload-create:" ++ String.ofList userId

/-- The counts of the quotas. -/
structure UploadCounts where
  active : ℕ
  recent : ℕ

def countUploads (input : CreatePendingInput) (db : Database) : UploadCounts :=
  let recent := db.profileUploads.filter (isRecentUpload input)
  { active := recent.countP (isActiveUpload input.now), recent := recent.length }

def checkQuotas (counts : UploadCounts) : Except Failure Unit := do
  throwIf (.error "UPLOAD_ACTIVE_LIMIT_EXCEEDED") (maxActiveUploadsPerUser ≤ counts.active)
  throwIf (.error "UPLOAD_RATE_LIMIT_EXCEEDED") (maxUploadCreatesPerWindow ≤ counts.recent)

def insertPending (input : CreatePendingInput) : Call Database Failure ProfileUpload := fun db => do
  require (.constraint "profile_uploads_userId_fkey") (db.hasUser input.userId.toUuid)
  let written ← writeUploads (db.profileUploads ++ [pendingUpload input]) db
  return (pendingUpload input, written)

/-- What `createPending` does with its counts. -/
def createCounted (input : CreatePendingInput) (counts : UploadCounts) :
    Prog World ι Failure ProfileUpload := do
  MonadExcept.ofExcept (checkQuotas counts)
  commit (insertPending input)

/-- `createPending` as its statements come, other calls between them. -/
def createPendingTransaction (input : CreatePendingInput) : Prog World ι Failure ProfileUpload :=
  transaction do
    select .update (fun _ => [.quota (uploadQuotaKey input.userId.text)]) fun _ => ()
    let counts ← query (countUploads input)
    createCounted input counts

/-- `createUpload` for the account of an access token, which has its identifier as it is
stored. -/
def createUploadLocked (config : UploadConfig) (userId : Uuid) (metadata : UploadMetadata) :
    Prog World ι Failure ProfileUpload := do
  let _ ← MonadExcept.ofExcept config.profilePublicBaseUrl
  let id ← .anything Uuid
  let now ← clock
  let presigned ← .anything (Except Failure Unit)
  MonadExcept.ofExcept presigned
  createPendingTransaction
    { id := id
      userId := userId.toUuidText
      stagingKey := stagingKey userId.toUuidText id metadata.imageType
      expectedContentType := metadata.imageType.contentType
      expectedSizeBytes := metadata.sizeBytes
      expiresAt := now + uploadUrlTtlMs
      now := now }

theorem checkQuotas_eq_ok_iff {counts : UploadCounts} :
    checkQuotas counts = .ok () ↔
      counts.active < maxActiveUploadsPerUser ∧ counts.recent < maxUploadCreatesPerWindow := by
  unfold checkQuotas
  rw [bind_eq_ok_iff]
  simp only [throwIf_eq_ok_iff, not_le, exists_const]

theorem insertPending_ok {input : CreatePendingInput} {db db' : Database} {upload : ProfileUpload}
    (h : insertPending input db = .ok (upload, db')) :
    UniqueKey ProfileUpload.id (db.profileUploads ++ [pendingUpload input]) ∧
      db' = { db with profileUploads := db.profileUploads ++ [pendingUpload input] } := by
  simp only [insertPending, bind_eq_ok_iff, require_eq_ok_iff, pure_eq_ok_iff, exists_const,
    writeUploads_eq_ok_iff] at h
  obtain ⟨-, written, ⟨hconstraints, rfl⟩, hdone⟩ := h
  obtain ⟨-, rfl⟩ := Prod.mk.inj hdone
  exact ⟨hconstraints.id_unique, rfl⟩

/-- The call in one step is its checks and its insert. -/
theorem createPending_eq (input : CreatePendingInput) (db : Database) :
    createPending input db =
      (checkQuotas (countUploads input db) >>= fun _ => insertPending input db) := by
  unfold createPending checkQuotas
  rw [bind_assoc]
  rfl

/-- While no other call comes between them, the statements store what the call in one step
stores. -/
theorem createPending_runs {allowed : World → World → Prop} {pid : ℕ} {w : World}
    {input : CreatePendingInput} {upload : ProfileUpload} {db : Database}
    (hok : createPending input w.db = .ok (upload, db)) (hlocks : w.locks = [])
    (hallowed : ∀ before after, allowed before after) :
    Runs allowed pid (createPendingTransaction input : Prog World ι Failure ProfileUpload) w
      (.done upload) (w.withDb db) := by
  rw [createPending_eq] at hok
  obtain ⟨done, hcheck, hinsert⟩ := bind_eq_ok_iff.1 hok
  let row : LockedRow := .quota (uploadQuotaKey input.userId.text)
  let locked : World := w.withLocks [⟨pid, .update, row⟩]
  have halone : ∀ lock ∈ locked.locks, lock.holder = pid := by
    intro lock hlock
    obtain rfl := List.mem_singleton.1 hlock
    rfl
  have hfree : ∀ taken ∈ [row], Free w.locks pid .update taken := by
    intro taken _ lock hlock
    rw [hlocks] at hlock
    cases hlock
  have hlocking : Selects .update (fun _ => [row]) (fun _ => ()) pid w (.ok ()) locked := by
    have h : Selects .update (fun _ => [row]) (fun _ => ()) pid w (.ok ())
        { w with locks := acquire pid .update [row] w.locks } := Selects.locked hfree
    rw [hlocks] at h
    exact h
  have hcounting : Selects .keyShare (fun _ => []) (countUploads input) pid locked
      (.ok (countUploads input locked.db)) locked :=
    Selects.locked (fun row hrow => by cases hrow)
  have hcommit : Commits (insertPending input) pid locked (.ok upload) (w.withDb db) := by
    have h : Commits (insertPending input) pid locked (.ok upload)
        { locked with db := db, locks := release pid locked.locks } :=
      Commits.committed hinsert (World.unlocked_of_alone halone db)
    have hreleased : release pid locked.locks = w.locks := by
      rw [hlocks]
      simp [locked, release, World.withLocks]
    rw [hreleased] at h
    exact h
  refine .step (.ok ()) locked hlocking (hallowed _ _) ?_
  refine .step (.ok (countUploads input locked.db)) locked hcounting (hallowed _ _) ?_
  have hrest : (createCounted input (countUploads input w.db) : Prog World ι Failure ProfileUpload) =
      commit (insertPending input) := by
    unfold createCounted
    rw [hcheck]
    rfl
  change Runs allowed pid ((createCounted input (countUploads input w.db)).tryCatch _) locked _ _
  rw [hrest]
  exact .step (.ok upload) (w.withDb db) hcommit (hallowed _ _) .refl

end Statements

/-! ### What the other calls do -/

/-- A step of a thread that stores no upload and brings none back. -/
structure QuietStep (pid : ℕ) (before after : World) : Prop where
  others : ∀ other, other ≠ pid → World.KeepsLocked other before after
  exclusive : Exclusive before.locks → Exclusive after.locks
  uploads : UniqueKey ProfileUpload.id before.db.profileUploads →
    UploadsKept before.db.profileUploads after.db.profileUploads

section Programs

variable {ι β : Type} {pid : ℕ} {call : Call Database Failure β}

theorem KeepsUploads.only (h : KeepsUploads call) : WritesOnly (fun before after =>
    UniqueKey ProfileUpload.id before.profileUploads →
      UploadsKept before.profileUploads after.profileUploads) call :=
  fun db value db' hok hunique => h db value db' hunique hok

theorem quietKind : StepKind pid (fun before after =>
    UniqueKey ProfileUpload.id before.profileUploads →
      UploadsKept before.profileUploads after.profileUploads) (QuietStep pid) :=
  kind_of_callStep (fun _ _ => .refl _) fun hstep => ⟨hstep.others, hstep.exclusive, hstep.writes⟩

/-- None of the calls stores an upload but its creation. -/
theorem quietCalls : CallsWrite fun before after =>
    UniqueKey ProfileUpload.id before.profileUploads →
      UploadsKept before.profileUploads after.profileUploads where
  claimFinalize _ := claimFinalize_kept.keeps.only
  prepareFinalObject _ := prepareFinalObject_kept.keeps.only
  writeVerified _ := writeVerified_kept.keeps.only
  markFailed _ _ _ := markFailed_kept.keeps.only
  releaseFinalizeLease _ _ := releaseFinalizeLease_kept.keeps.only
  markStagingDeleted _ _ := markStagingDeleted_kept.keeps.only
  claimCleanupBatch _ _ := claimCleanupBatch_kept.keeps.only
  applyCleanupResult _ := applyCleanupResult_kept.keeps.only
  writeSchedule _ _ _ _ _ _ _ := writeSchedule_kept.only
  restoreScheduledDeletion _ _ := restoreScheduledDeletion_kept.only
  claimDueDeletionBatch _ _ := claimDueDeletionBatch_kept.only
  releaseDeletionLease _ := releaseDeletionLease_kept.only
  writeAnonymized _ _ := writeAnonymized_kept.only

end Programs

/-! ### The quotas -/

/-- At every time that is not before the clocks of the uploads of a user, at most five of
them are active; in every closed hour the user has created at most twenty. -/
structure UploadQuotas (uploads : List ProfileUpload) : Prop where
  active : ∀ userId, LiveBounded ProfileUpload.createdAt (fun upload => upload.userId = userId)
    isActiveUpload maxActiveUploadsPerUser uploads
  recent : ∀ userId, BoundedClosed ProfileUpload.createdAt (fun upload => upload.userId = userId)
    uploadCreateWindowMs maxUploadCreatesPerWindow uploads

structure QuotaInvariant (w : World) : Prop where
  exclusive : Exclusive w.locks
  unique : UniqueKey ProfileUpload.id w.db.profileUploads
  lifetime : ∀ upload ∈ w.db.profileUploads, upload.expiresAt = upload.createdAt + uploadUrlTtlMs
  quotas : UploadQuotas w.db.profileUploads

/-- The uploads of a user. -/
def uploadsOf (userId : Uuid) (uploads : List ProfileUpload) : List ProfileUpload :=
  uploads.filter fun upload => upload.userId = userId

/-- A new upload is stored while both counts have room and no other thread has the lock of
its user. -/
structure Admitted (input : CreatePendingInput) (pid : ℕ) (before after : World) : Prop where
  active : (countUploads input before.db).active < maxActiveUploadsPerUser
  recent : (countUploads input before.db).recent < maxUploadCreatesPerWindow
  locked : Free before.locks pid .update (.quota (uploadQuotaKey input.userId.toUuid.text))
  stored : after.db =
    { before.db with profileUploads := before.db.profileUploads ++ [pendingUpload input] }

/-- What a step of a call does to the uploads. -/
inductive StoresAdmitted (request : UploadRequest) (pid : ℕ) (before after : World) : Prop
  | kept (rows : UploadsKept before.db.profileUploads after.db.profileUploads)
      (created : ∀ userId metadata, request = .createUpload userId metadata → after.db = before.db)
  | admitted (userId metadata) (input) (call : request = .createUpload userId metadata)
      (owner : input.userId.toUuid = userId.toUuid) (stores : Admitted input pid before after)

structure QuotaStep (request : UploadRequest) (pid : ℕ) (before after : World) : Prop where
  others : ∀ other, other ≠ pid → World.KeepsLocked other before after
  stores : StoresAdmitted request pid before after

/-- While a thread has the lock of a user, no upload of the user is stored. -/
def CountsKept (pid : ℕ) (before after : World) : Prop :=
  ∀ userId : Uuid, Holds before.locks pid .update (.quota (uploadQuotaKey userId.text)) →
    UploadsKept (uploadsOf userId before.db.profileUploads) (uploadsOf userId after.db.profileUploads)

theorem UploadsKept.trans {uploads uploads' uploads'' : List ProfileUpload}
    (h : UploadsKept uploads uploads') (h' : UploadsKept uploads' uploads'') :
    UploadsKept uploads uploads'' := by
  induction h generalizing uploads'' with
  | nil => exact h'
  | cons hhead _ ih =>
      cases h' with
      | cons hhead' htail' => exact .cons (hhead.trans hhead') (ih htail')

theorem UploadsKept.uploadsOf {uploads uploads' : List ProfileUpload}
    (h : UploadsKept uploads uploads') (userId : Uuid) :
    UploadsKept (uploadsOf userId uploads) (uploadsOf userId uploads') := by
  refine List.rel_filter (fun upload upload' hkept => ?_) h
  simp only [decide_eq_true_eq, hkept.userId]

theorem CountsKept.of_db_eq {pid : ℕ} {before after : World} (hdb : after.db = before.db) :
    CountsKept pid before after := by
  intro userId _
  rw [hdb]
  exact .refl _

def quotaLogic : Logic World UploadRequest Failure Unit where
  invariant := QuotaInvariant
  rely pid before after := World.KeepsLocked pid before after ∧ CountsKept pid before after
  guarantee := QuotaStep
  allowed _ _ := True
  requires _ _ := True
  ensures _ _ _ _ := True
  rely_refl pid w := ⟨.refl pid w, .of_db_eq rfl⟩
  rely_trans := by
    intro pid before between after h h'
    refine ⟨h.1.trans h'.1, fun userId hheld => ?_⟩
    exact (h.2 userId hheld).trans (h'.2 userId (h.1.locks hheld))
  guarantee_refl _ _ w := ⟨fun other _ => .refl other w, .kept (.refl _) fun _ _ _ => rfl⟩
  rely_of_guarantee := by
    intro request pid other before after hother h
    refine ⟨h.others other hother, fun userId hheld => ?_⟩
    cases h.stores with
    | kept rows created => exact rows.uploadsOf userId
    | admitted userId' metadata input call owner stores =>
        -- The thread with the lock keeps every other one from storing an upload of the user.
        have hne : ¬ (pendingUpload input).userId = userId := by
          rintro rfl
          exact not_free_of_holds hheld (Ne.symm hother) (by rfl) stores.locked
        rw [stores.stored, uploadsOf, uploadsOf, List.filter_append,
          List.filter_cons_of_neg (by simpa using hne), List.filter_nil, List.append_nil]
        exact .refl _

section Invariant

variable {request : UploadRequest} {pid : ℕ} {w before after : World} {β : Type}
  {uploads uploads' : List ProfileUpload}

theorem UploadQuotas.kept (h : UploadQuotas uploads) (hkept : UploadsKept uploads uploads') :
    UploadQuotas uploads' where
  active := by
    intro userId
    apply (h.active userId).steps hkept
    intro upload upload' hrow
    exact ⟨hrow.createdAt, by rw [hrow.userId], fun _ => hrow.active⟩
  recent := by
    intro userId start
    refine (Pointwise.countP_le hkept fun hrow hcounts => ?_).trans (h.recent userId start)
    simp only [inClosedWindow, hrow.userId, hrow.createdAt] at hcounts
    exact hcounts

theorem UploadsKept.lifetime (h : UploadsKept uploads uploads')
    (hlifetime : ∀ upload ∈ uploads, upload.expiresAt = upload.createdAt + uploadUrlTtlMs) :
    ∀ upload ∈ uploads', upload.expiresAt = upload.createdAt + uploadUrlTtlMs := by
  induction h with
  | nil => exact hlifetime
  | cons hhead _ ih =>
      intro upload hupload
      rcases List.mem_cons.1 hupload with rfl | hmem
      · rw [hhead.expiresAt, hhead.createdAt]
        exact hlifetime _ List.mem_cons_self
      · exact ih (fun upload hupload => hlifetime upload (List.mem_cons_of_mem _ hupload)) upload hmem

theorem QuotaInvariant.kept (hinv : QuotaInvariant before)
    (hkept : UploadsKept before.db.profileUploads after.db.profileUploads)
    (hexclusive : Exclusive after.locks) : QuotaInvariant after where
  exclusive := hexclusive
  unique := by
    unfold UniqueKey
    rw [hkept.ids]
    exact hinv.unique
  lifetime := hkept.lifetime hinv.lifetime
  quotas := hinv.quotas.kept hkept

/-- The two counts, on the uploads of the user. -/
theorem countUploads_eq (input : CreatePendingInput) (db : Database) :
    (countUploads input db).active =
        (uploadsOf input.userId.toUuid db.profileUploads).countP
          (fun upload => isActiveUpload input.now upload && isRecentUpload input upload) ∧
      (countUploads input db).recent =
        (uploadsOf input.userId.toUuid db.profileUploads).countP (isRecentUpload input) := by
  unfold countUploads uploadsOf
  dsimp only
  rw [List.countP_filter, List.countP_filter, List.countP_filter, ← List.countP_eq_length_filter]
  constructor <;>
  · apply List.countP_congr
    intro upload _
    simp only [isRecentUpload, Bool.and_eq_true, decide_eq_true_eq]
    tauto

/-- The counts do not grow while no upload of the user is stored. -/
theorem countUploads_le {input : CreatePendingInput} {db db' : Database}
    (hkept : UploadsKept (uploadsOf input.userId.toUuid db.profileUploads)
      (uploadsOf input.userId.toUuid db'.profileUploads)) :
    (countUploads input db').active ≤ (countUploads input db).active ∧
      (countUploads input db').recent ≤ (countUploads input db).recent := by
  have hrecent {upload upload' : ProfileUpload} (hrow : RowKept upload upload')
      (h : isRecentUpload input upload') : isRecentUpload input upload := by
    rwa [isRecentUpload, hrow.userId, hrow.createdAt] at h
  rw [(countUploads_eq input db).1, (countUploads_eq input db).2, (countUploads_eq input db').1,
    (countUploads_eq input db').2]
  refine ⟨Pointwise.countP_le hkept fun hrow hcounts => ?_, Pointwise.countP_le hkept hrecent⟩
  obtain ⟨hactive, hin⟩ := Bool.and_eq_true_iff.1 hcounts
  exact Bool.and_eq_true_iff.2 ⟨hrow.active hactive, hrecent hrow hin⟩

/-- The uploads that the new one is counted against. -/
theorem Admitted.quotas {input : CreatePendingInput} (h : Admitted input pid before after)
    (hinv : QuotaInvariant before) : UploadQuotas after.db.profileUploads where
  active := by
    intro userId
    rw [h.stored]
    refine (hinv.quotas.active userId).append (fun hle hactive => ?_) fun howner => ?_
    · simp only [isActiveUpload, decide_eq_true_eq] at hactive ⊢
      exact ⟨hactive.1, lt_of_le_of_lt hle hactive.2⟩
    · obtain rfl := of_decide_eq_true howner
      refine lt_of_le_of_lt ?_ h.active
      rw [(countUploads_eq input before.db).1, uploadsOf, List.countP_filter]
      apply List.countP_mono_left
      intro upload hupload hcounts
      obtain ⟨hsame, hactive⟩ := Bool.and_eq_true_iff.1 hcounts
      simp only [pendingUpload] at hsame hactive
      -- An active upload is younger than five minutes, so it is among those that are counted.
      have hexpires : input.now < upload.expiresAt := by
        simp only [isActiveUpload, decide_eq_true_eq] at hactive
        exact hactive.2
      rw [hinv.lifetime upload hupload] at hexpires
      have harithmetic : ∀ now createdAt : ℤ, now < createdAt + uploadUrlTtlMs →
          now - uploadCreateWindowMs ≤ createdAt := by
        unfold uploadUrlTtlMs uploadCreateWindowMs
        omega
      have hrecent : isRecentUpload input upload :=
        decide_eq_true ⟨of_decide_eq_true hsame, harithmetic _ _ hexpires⟩
      exact Bool.and_eq_true_iff.2 ⟨Bool.and_eq_true_iff.2 ⟨hactive, hrecent⟩, hsame⟩
  recent := by
    intro userId
    rw [h.stored]
    refine (hinv.quotas.recent userId).append fun howner => ?_
    obtain rfl := of_decide_eq_true howner
    refine lt_of_eq_of_lt ?_ h.recent
    rw [(countUploads_eq input before.db).2, uploadsOf, List.countP_filter]
    apply List.countP_congr
    intro upload _
    simp only [pendingUpload, isRecentUpload, Bool.and_eq_true, decide_eq_true_eq]
    constructor
    · rintro ⟨hsame, hrecent⟩
      exact ⟨⟨of_decide_eq_true hsame, of_decide_eq_true hrecent⟩, of_decide_eq_true hsame⟩
    · rintro ⟨⟨hsame, hrecent⟩, -⟩
      exact ⟨decide_eq_true hsame, decide_eq_true hrecent⟩

/-- A step that leaves the table alone. -/
theorem quotaStep_of_db_eq (hdb : after.db = before.db)
    (hlocks : ∀ other, other ≠ pid → ∀ {mode row}, Holds before.locks other mode row →
      Holds after.locks other mode row) : QuotaStep request pid before after where
  others := fun other hother => .of_db_eq hdb (hlocks other hother)
  stores := by
    refine .kept ?_ fun _ _ _ => hdb
    rw [hdb]
    exact .refl _

theorem QuotaInvariant.of_db_eq (hinv : QuotaInvariant before) (hdb : after.db = before.db)
    (hexclusive : Exclusive after.locks) : QuotaInvariant after :=
  hinv.kept (by rw [hdb]; exact .refl _) hexclusive

theorem quota_lockNeutral : LockNeutral quotaLogic request where
  acquire := fun hinv hfree => ⟨hinv.of_db_eq rfl (hinv.exclusive.acquire hfree),
    quotaStep_of_db_eq rfl fun _ _ _ _ => Holds.acquire⟩
  unlock := fun {pid _} hinv => ⟨hinv.of_db_eq rfl (hinv.exclusive.release pid),
    quotaStep_of_db_eq rfl fun _ hother _ _ h => h.release (Ne.symm hother)⟩
  rely := And.left

theorem quota_later_true : quotaLogic.Later pid (fun _ => True) w := fun _ _ _ => trivial

/-! ### Creating an upload -/

/-- The lock of the user is held, and the counts are no more than they were. -/
structure Counted (input : CreatePendingInput) (counts : UploadCounts) (pid : ℕ) (w : World) :
    Prop where
  held : Holds w.locks pid .update (.quota (uploadQuotaKey input.userId.toUuid.text))
  active : (countUploads input w.db).active ≤ counts.active
  recent : (countUploads input w.db).recent ≤ counts.recent

theorem stable_counted {input : CreatePendingInput} {counts : UploadCounts} :
    quotaLogic.Stable pid (Counted input counts pid) := by
  intro s before hrely _ h
  obtain ⟨hactive, hrecent⟩ := countUploads_le (hrely.2 input.userId.toUuid h.held)
  exact ⟨hrely.1.locks h.held, hactive.trans h.active, hrecent.trans h.recent⟩

/-- A commit under the lock finds the room that the counts have left. -/
theorem holds_insertPending {userId : UuidText} {metadata : UploadMetadata}
    {input : CreatePendingInput} {counts : UploadCounts}
    (hrequest : request = .createUpload userId metadata)
    (howner : input.userId.toUuid = userId.toUuid)
    (hlifetime : input.expiresAt = input.now + uploadUrlTtlMs)
    (hcheck : checkQuotas counts = .ok ()) (hcounted : Counted input counts pid w) :
    quotaLogic.Holds request pid (commit (insertPending input)) (fun _ _ => True)
      (fun _ _ => True) w := by
  obtain ⟨hactive, hrecent⟩ := checkQuotas_eq_ok_iff.1 hcheck
  refine holds_commit _ (stable_counted.later hcounted) ?_ ?_ fun _ _ _ _ => quota_later_true
  · intro before upload db hbefore hinv hok hunlocked _
    obtain ⟨hunique, hdb⟩ := insertPending_ok hok
    have hfree : Free before.locks pid .update
        (.quota (uploadQuotaKey input.userId.toUuid.text)) := by
      intro lock hlock hrow hother
      by_contra hconflict
      rw [Bool.not_eq_false] at hconflict
      exact hother (hinv.exclusive lock hlock _ hbefore.held hrow hconflict)
    have hstores : Admitted input pid before ((before.withDb db).unlock pid) :=
      ⟨lt_of_le_of_lt hbefore.active hactive, lt_of_le_of_lt hbefore.recent hrecent, hfree, hdb⟩
    refine ⟨⟨hinv.exclusive.release pid, ?_, ?_, hstores.quotas hinv⟩,
      ⟨fun other hother => ?_, .admitted userId metadata input hrequest howner hstores⟩,
      quota_later_true, fun _ => quota_later_true⟩
    · rw [hstores.stored]
      exact hunique
    · rw [hstores.stored]
      intro row hrow
      rcases List.mem_append.1 hrow with hold | hnew
      · exact hinv.lifetime row hold
      · rw [List.mem_singleton.1 hnew]
        exact hlifetime
    · exact .of_unlocked hunlocked hother fun hheld => hheld.release (Ne.symm hother)
  · intro before failure _ hinv _
    exact ⟨hinv.of_db_eq rfl hinv.exclusive, quotaStep_of_db_eq rfl fun _ _ _ _ => id,
      quota_later_true⟩

theorem holds_createPendingTransaction {userId : UuidText} {metadata : UploadMetadata}
    {input : CreatePendingInput} (hrequest : request = .createUpload userId metadata)
    (howner : input.userId = userId.toUuid.toUuidText)
    (hlifetime : input.expiresAt = input.now + uploadUrlTtlMs) :
    quotaLogic.Holds request pid (createPendingTransaction input) (fun _ _ => True)
      (fun _ _ => True) w := by
  have hstored : input.userId.toUuid = userId.toUuid := by
    rw [howner]
    exact Uuid.toUuid_eq _
  -- The text of the lock is the one of the stored identifier.
  have htext : input.userId.toUuid.text = input.userId.text := by rw [hstored, howner]
  refine holds_rollback quota_lockNeutral ?_ fun _ _ => quota_later_true
  refine holds_select_bind quota_lockNeutral (fun _ => True) quota_later_true
    (fun free _ _ => ?_) fun _ _ => quota_later_true
  have hheld : Holds (acquire pid .update [.quota (uploadQuotaKey input.userId.text)] free.locks) pid
      .update (.quota (uploadQuotaKey input.userId.toUuid.text)) := by
    rw [htext]
    exact holds_acquire (List.mem_singleton_self _)
  have hkept : quotaLogic.Stable pid fun w =>
      Holds w.locks pid .update (.quota (uploadQuotaKey input.userId.toUuid.text)) :=
    fun _ _ hrely _ h => hrely.1.locks h
  refine Logic.Holds.bind (holds_query _ (hkept.later hheld)
    (fun counting hcounting _ => Logic.Holds.later ?_) fun _ _ _ _ => quota_later_true)
  refine Logic.Holds.bind (holds_ofExcept (fun _ hcheck => Logic.Holds.later ?_)
    fun _ _ => quota_later_true)
  exact holds_insertPending hrequest hstored hlifetime hcheck
    ⟨hcounting, Nat.le_refl _, Nat.le_refl _⟩

theorem holds_createUploadLocked {config : UploadConfig} {userId : UuidText}
    {metadata : UploadMetadata} (hrequest : request = .createUpload userId metadata) :
    quotaLogic.Holds request pid (createUploadLocked config userId.toUuid metadata)
      (fun _ _ => True) (fun _ _ => True) w := by
  refine Logic.Holds.bind (holds_ofExcept (fun _ _ => Logic.Holds.later ?_)
    fun _ _ => quota_later_true)
  refine Logic.Holds.bind (Logic.holds_anything fun id => Logic.Holds.later ?_)
  refine Logic.Holds.bind (holds_clock fun now => Logic.Holds.later ?_)
  refine Logic.Holds.bind (Logic.holds_anything fun presigned => Logic.Holds.later ?_)
  refine Logic.Holds.bind (holds_ofExcept (fun _ _ => Logic.Holds.later ?_)
    fun _ _ => quota_later_true)
  exact holds_createPendingTransaction hrequest rfl rfl

end Invariant

/-! ### Every run -/

def quotaCode (config : UploadConfig) : UploadRequest → Prog World UploadRequest Failure Unit
  | .createUpload userId metadata => do
      let _ ← createUploadLocked config userId.toUuid metadata
      return ()
  | request => uploadCode config request

/-- Any number of calls, where the statements of `createPending` are steps of their own. -/
def quotaSystem (config : UploadConfig) : System World UploadRequest Failure Unit where
  code := quotaCode config
  accepts := (uploadSystem config).accepts
  environment := StoreStep
  rollback := World.rollback

def QuotaRun (config : UploadConfig) (c c' : Config World UploadRequest Failure Unit) : Prop :=
  Reachable (quotaSystem config) (fun _ _ => True) c c'

theorem holds_quotaCode {config : UploadConfig} {request : UploadRequest} {pid : ℕ} {w : World} :
    quotaLogic.Holds request pid (quotaCode config request) (fun _ _ => True) (fun _ _ => True)
      w := by
  have hothers (hrequest : ∀ userId metadata, request ≠ .createUpload userId metadata) :
      quotaLogic.Holds request pid (uploadCode config request) (fun _ _ => True) (fun _ _ => True)
        w := by
    have hreplaces (input : ReplaceProfileInput) :
        (replaceProfile input : Prog World UploadRequest Failure (List UserProfilePhoto)).Stays
          (QuietStep pid) pid :=
      stays_replaceProfile quietKind input fun _ _ _ _ _ _ => writeProfile_kept.only
    refine Logic.holds_of_takes
      (takes_uploadCode quietKind quietCalls
        (fun _ _ => ⟨fun _ _ => .of_db_eq rfl id, id, fun _ => .refl _⟩) hrequest
        fun input _ => hreplaces input) (fun hinv _ hstep => ?_)
      fun _ _ => trivial
    have hkept := hstep.uploads hinv.unique
    exact ⟨hinv.kept hkept (hstep.exclusive hinv.exclusive), hstep.others,
      .kept hkept fun userId metadata h => absurd h (hrequest userId metadata)⟩
  cases request with
  | createUpload userId metadata =>
      refine Logic.Holds.bind ((holds_createUploadLocked rfl).mono (fun _ _ _ _ => ?_)
        fun _ _ _ h => h)
      exact Logic.holds_pure quota_later_true
  | _ => exact hothers (by simp)

theorem quota_sound (config : UploadConfig) : quotaLogic.Sound (quotaSystem config) where
  accepts := fun _ _ => trivial
  code := fun pid _ _ _ => holds_quotaCode
  environment := by
    intro before after h _ hinv
    have hsame : after.db = before.db ∧ after.locks = before.locks := by
      cases h with
      | moves hmoves => cases hmoves <;> exact ⟨rfl, rfl⟩
      | staged key staging => exact ⟨rfl, rfl⟩
    refine ⟨hinv.of_db_eq hsame.1 (by rw [hsame.2]; exact hinv.exclusive), fun pid => ?_⟩
    exact ⟨.of_db_eq hsame.1 fun hheld => by rwa [hsame.2], .of_db_eq hsame.1⟩
  rollback := by
    intro before pid hinv
    refine ⟨hinv.of_db_eq rfl (hinv.exclusive.release pid), fun other hother => ?_⟩
    exact ⟨World.keepsLocked_rollback pid before hother, .of_db_eq rfl⟩

section Runs

variable {config : UploadConfig} {db : Database} {c : Config World UploadRequest Failure Unit}

theorem QuotaRun.good (hnone : db.profileUploads = [])
    (hrun : QuotaRun config (.idle (.ofDatabase db)) c) : quotaLogic.Good c := by
  have hstart : QuotaInvariant (World.ofDatabase db) := by
    have hempty : (World.ofDatabase db).db.profileUploads = [] := hnone
    refine ⟨exclusive_nil, ?_, ?_, ?_⟩ <;> rw [hempty]
    · exact List.nodup_nil
    · exact fun upload hupload => by cases hupload
    · exact ⟨fun _ => .nil, fun _ => .nil⟩
  exact (quota_sound config).reachable (Logic.good_idle hstart fun _ => trivial) hrun

/-- In every run: at every time that is not before the clocks of the uploads of a user, at most
five of them are active; in every closed hour the user has created at most twenty; and a step
of a creation changes nothing but to store its upload while both counts have room, which it
never does once its counts were at a limit. -/
theorem upload_quotas (hnone : db.profileUploads = [])
    (hrun : QuotaRun config (.idle (.ofDatabase db)) c) :
    (∀ userId now, (∀ upload ∈ c.state.db.profileUploads, upload.userId = userId →
        upload.createdAt ≤ now) →
      (c.state.db.profileUploads.countP fun upload =>
        upload.userId = userId && isActiveUpload now upload) ≤ 5) ∧
    (∀ userId start, (c.state.db.profileUploads.countP fun upload => upload.userId = userId &&
      decide (start ≤ upload.createdAt ∧ upload.createdAt ≤ start + 60 * 60 * 1000)) ≤ 20) ∧
    (∀ (pid : ℕ) (userId : UuidText) (metadata : UploadMetadata) (β : Type)
      (act : ℕ → World → β → World → Prop) (next : β → Prog World UploadRequest Failure Unit)
      (reply : β) (after : World),
      c.threads[pid]? = some ⟨.createUpload userId metadata, .step act next⟩ →
      act pid c.state reply after → after.db = c.state.db ∨
        ∃ input : CreatePendingInput, input.userId.toUuid = userId.toUuid ∧
          (countUploads input c.state.db).active < 5 ∧
          (countUploads input c.state.db).recent < 20 ∧
          after.db = { c.state.db with
            profileUploads := c.state.db.profileUploads ++ [pendingUpload input] }) ∧
    ∀ (pid : ℕ) (input : CreatePendingInput) (counts : UploadCounts),
      5 ≤ counts.active ∨ 20 ≤ counts.recent →
        (transaction (createCounted input counts) :
          Prog World UploadRequest Failure ProfileUpload).Takes
            (fun before after => after.db = before.db) pid := by
  have hgood := hrun.good hnone
  refine ⟨fun userId now hnow => ?_, fun userId => ?_, ?_, ?_⟩
  · exact hgood.invariant.quotas.active userId now fun upload hupload howner =>
      hnow upload hupload (of_decide_eq_true howner)
  · exact hgood.invariant.quotas.recent userId
  · intro pid userId metadata β act next reply after hthread hact
    cases (Logic.Sound.guarantee hgood hthread hact trivial).stores with
    | kept rows created => exact Or.inl (created userId metadata rfl)
    | admitted userId' metadata' input call owner stores =>
        obtain ⟨rfl, rfl⟩ := UploadRequest.createUpload.inj call
        exact Or.inr ⟨input, owner, stores.active, stores.recent, stores.stored⟩
  · intro pid input counts hfull
    have hrefused : checkQuotas counts ≠ .ok () := by
      rw [Ne, checkQuotas_eq_ok_iff]
      unfold maxActiveUploadsPerUser maxUploadCreatesPerWindow
      omega
    unfold createCounted
    cases hcheck : checkQuotas counts with
    | ok done => exact absurd hcheck hrefused
    | error failure =>
        -- What is left is the rollback.
        refine ⟨?_, fun _ => trivial⟩
        intro before reply after hact
        rw [hact]

/-! ### Two uploads -/

/-- An upload of the account, by its number and the clock of its creation. -/
def numberedInput (id : Uuid) (now : Timestamp) : CreatePendingInput where
  id := id
  userId := leavingId.toUuid.toUuidText
  stagingKey := stagingKey leavingId.toUuid.toUuidText id .jpeg
  expectedContentType := ImageType.jpeg.contentType
  expectedSizeBytes := 1
  expiresAt := now + uploadUrlTtlMs
  now := now

def otherUploadId : UuidText where
  text := "b0000000-0000-4000-8000-000000000002".toList
  wellFormed := rfl

/-- The upload with the later clock is stored first. -/
def twoUploads : Database :=
  { oneAccount with
    profileUploads := [pendingUpload (numberedInput oneUploadId.toUuid 1),
      pendingUpload (numberedInput otherUploadId.toUuid 0)] }

/-- A creation that meets no other call. -/
theorem QuotaRun.create {w : World} {threads : List (Thread World UploadRequest Failure Unit)}
    {db' : Database} {upload : ProfileUpload} (id : Uuid) (now : Timestamp)
    (hrun : QuotaRun oneConfig (.idle (.ofDatabase db)) ⟨w, threads⟩) (hlocks : w.locks = [])
    (hclock : w.clocks now)
    (hok : createPending (numberedInput id now) w.db = .ok (upload, db')) :
    QuotaRun oneConfig (.idle (.ofDatabase db)) ⟨w.withDb db', threads ++ [createThread]⟩ := by
  have hallowed : ∀ before after : World, True := fun _ _ => trivial
  have hcreated : Runs (fun _ _ => True) threads.length
      (createPendingTransaction (numberedInput id now) : Prog World UploadRequest Failure _) w
        (.done upload) (w.withDb db') := createPending_runs hok hlocks hallowed
  have haccepted : (quotaSystem oneConfig).accepts (.createUpload leavingId oneMetadata) :=
    fun _ h => by cases h
  refine Reachable.serve hrun haccepted trivial ?_
  refine .step id w rfl trivial (.step now w ⟨hclock, rfl⟩ trivial ?_)
  exact .step (.ok ()) w rfl trivial (hcreated.bind fun _ => .done ())

theorem twoUploads_run : QuotaRun oneConfig (.idle (.ofDatabase oneAccount))
    ⟨World.ofDatabase twoUploads, [createThread, createThread]⟩ := by
  have hstart : QuotaRun oneConfig (.idle (.ofDatabase oneAccount)) (.idle (.ofDatabase oneAccount)) :=
    Relation.ReflTransGen.refl
  exact (hstart.create oneUploadId.toUuid 1 rfl trivial rfl).create otherUploadId.toUuid 0 rfl trivial
    rfl

/-- Both uploads are active, at the time of the first one's clock. -/
theorem upload_quotas_twoUploads :
    QuotaRun oneConfig (.idle (.ofDatabase oneAccount))
        ⟨World.ofDatabase twoUploads, [createThread, createThread]⟩ ∧
      (twoUploads.profileUploads.countP fun upload =>
        upload.userId = leavingId.toUuid && isActiveUpload 1 upload) = 2 ∧
      (twoUploads.profileUploads.countP fun upload =>
        upload.userId = leavingId.toUuid && isActiveUpload 1 upload) ≤ 5 := by
  refine ⟨twoUploads_run, by decide, ?_⟩
  have hnone : oneAccount.profileUploads = [] := rfl
  obtain ⟨hactive, -⟩ := upload_quotas hnone twoUploads_run
  apply hactive leavingId.toUuid 1
  intro upload hupload _
  rcases List.mem_pair.1 hupload with rfl | rfl <;> decide

end Runs

end ChatTea.Upload
