import ChatTea.Lib.Pointwise
import ChatTea.Upload.Programs

/-!
# What the calls of the upload system write

Every program of the upload system is made of the same calls, so that what each of these
writes says what any step of any program does. A call other than the creation of an upload
stores no upload, and brings none back that has been verified or has failed.

## Main definitions

* `RowKept`, `UploadsKept` — what such a call does to the uploads
* `CallsWrite` — what each call of which the programs are made writes

## Main results

* one lemma for each call of the repositories, named after it
* `takes_uploadCode`, `stays_createUpload` — from the calls to every program
-/

namespace ChatTea.Upload

open Interleaving RowLocks Table Transaction Users

/-! ### What the calls do to the uploads -/

/-- A row keeps its owner and its times, and is not brought back. -/
structure RowKept (upload upload' : ProfileUpload) : Prop where
  id : upload'.id = upload.id
  userId : upload'.userId = upload.userId
  createdAt : upload'.createdAt = upload.createdAt
  expiresAt : upload'.expiresAt = upload.expiresAt
  settled : Settled upload → Settled upload'

namespace RowKept

variable {upload upload' upload'' : ProfileUpload}

theorem refl (upload : ProfileUpload) : RowKept upload upload :=
  ⟨rfl, rfl, rfl, rfl, fun hsettled => hsettled⟩

theorem trans (h : RowKept upload upload') (h' : RowKept upload' upload'') :
    RowKept upload upload'' where
  id := h'.id.trans h.id
  userId := h'.userId.trans h.userId
  createdAt := h'.createdAt.trans h.createdAt
  expiresAt := h'.expiresAt.trans h.expiresAt
  settled := fun hsettled => h'.settled (h.settled hsettled)

/-- An upload that is active was active before. -/
theorem active {now : Timestamp} (h : RowKept upload upload') (hactive : isActiveUpload now upload') :
    isActiveUpload now upload := by
  simp only [isActiveUpload, decide_eq_true_eq] at hactive ⊢
  refine ⟨?_, h.expiresAt ▸ hactive.2⟩
  rw [← not_settled_iff]
  intro hsettled
  exact not_settled_iff.2 hactive.1 (h.settled hsettled)

end RowKept

/-- Every row of the table is kept, and no other is stored. -/
abbrev UploadsKept (uploads uploads' : List ProfileUpload) : Prop :=
  List.Forall₂ RowKept uploads uploads'

theorem UploadsKept.refl (uploads : List ProfileUpload) : UploadsKept uploads uploads :=
  List.forall₂_same.2 fun upload _ => .refl upload

theorem UploadsKept.ids {uploads uploads' : List ProfileUpload} (h : UploadsKept uploads uploads') :
    uploads'.map ProfileUpload.id = uploads.map ProfileUpload.id := by
  induction h with
  | nil => rfl
  | cons hhead _ ih => rw [List.map_cons, List.map_cons, hhead.id, ih]

/-- A call that stores no upload and brings none back. -/
def KeepsUploads {β : Type} (call : Call Database Failure β) : Prop :=
  ∀ db value db', UniqueKey ProfileUpload.id db.profileUploads → call db = .ok (value, db') →
    UploadsKept db.profileUploads db'.profileUploads

/-- Such a call that writes no other table. -/
def UpdatesUploads {β : Type} (call : Call Database Failure β) : Prop :=
  ∀ db value db', UniqueKey ProfileUpload.id db.profileUploads → call db = .ok (value, db') →
    ∃ uploads, UploadsKept db.profileUploads uploads ∧ { db with profileUploads := uploads } = db'

section Calls

variable {β : Type} {call : Call Database Failure β}

theorem UpdatesUploads.keeps (h : UpdatesUploads call) : KeepsUploads call := by
  intro db value db' hunique hok
  obtain ⟨uploads, hkept, rfl⟩ := h db value db' hunique hok
  exact hkept

theorem KeepsUploads.of_eq
    (h : ∀ db value db', call db = .ok (value, db') → db'.profileUploads = db.profileUploads) :
    KeepsUploads call := by
  intro db value db' _ hok
  rw [h db value db' hok]
  exact .refl _

theorem updateUploads_kept {cond : ProfileUpload → Bool} {set : ProfileUpload → ProfileUpload}
    {db : Database} {updated : List ProfileUpload × Database}
    (hok : updateUploads cond set db = .ok updated)
    (hset : ∀ upload ∈ db.profileUploads, cond upload → RowKept upload (set upload)) :
    ∃ uploads, UploadsKept db.profileUploads uploads ∧
      { db with profileUploads := uploads } = updated.2 := by
  obtain ⟨written, hwrite, hdone⟩ := bind_eq_ok_iff.1 hok
  obtain ⟨-, rfl⟩ := writeUploads_eq_ok_iff.1 hwrite
  obtain rfl := pure_eq_ok_iff.1 hdone
  exact ⟨_, forall₂_updateWhere RowKept.refl hset, rfl⟩

theorem claimFinalize_kept {input : ClaimFinalizeInput} : UpdatesUploads (claimFinalize input) := by
  intro db value db' hunique hok
  unfold claimFinalize at hok
  split at hok
  next => cases hok
  next upload hfound =>
    obtain ⟨hmem, -⟩ := mem_of_findUpload hfound
    -- Both updates are of the row that was found, which is not settled.
    have hset {set : ProfileUpload → ProfileUpload} (hkept : RowKept upload (set upload)) :
        ∀ row ∈ db.profileUploads, (decide (row.id = upload.id)) = true → RowKept row (set row) := by
      intro row hrow hid
      obtain rfl := hunique.eq_of_key hrow hmem (of_decide_eq_true hid)
      exact hkept
    split_ifs at hok with hverified hfailed hexpired hbusy
    · obtain ⟨-, rfl⟩ := Prod.mk.inj (Except.ok.inj hok)
      exact ⟨_, .refl _, rfl⟩
    · have hunsettled : ¬ Settled upload := by simp [Settled, hverified, hfailed]
      obtain ⟨updated, hupdate, hrest⟩ := bind_eq_ok_iff.1 hok
      have hkept := updateUploads_kept hupdate
        (hset ⟨rfl, rfl, rfl, rfl, fun hsettled => absurd hsettled hunsettled⟩)
      dsimp only at hrest
      split at hrest
      next => cases hrest
      next =>
        obtain ⟨-, rfl⟩ := Prod.mk.inj (Except.ok.inj hrest)
        exact hkept
    · obtain ⟨-, rfl⟩ := Prod.mk.inj (Except.ok.inj hok)
      exact ⟨_, .refl _, rfl⟩
    · have hunsettled : ¬ Settled upload := by simp [Settled, hverified, hfailed]
      obtain ⟨updated, hupdate, hrest⟩ := bind_eq_ok_iff.1 hok
      have hkept := updateUploads_kept hupdate
        (hset ⟨rfl, rfl, rfl, rfl, fun hsettled => absurd hsettled hunsettled⟩)
      dsimp only at hrest
      split at hrest
      next => cases hrest
      next =>
        obtain ⟨-, rfl⟩ := Prod.mk.inj (Except.ok.inj hrest)
        exact hkept

theorem prepareFinalObject_kept {input : FinalObjectInput} :
    UpdatesUploads (prepareFinalObject input) := by
  intro db value db' _ hok
  obtain ⟨updated, hupdate, hrest⟩ := bind_eq_ok_iff.1 hok
  obtain ⟨done, -, hdone⟩ := bind_eq_ok_iff.1 hrest
  obtain ⟨-, rfl⟩ := Prod.mk.inj (Except.ok.inj hdone)
  exact updateUploads_kept hupdate fun upload _ _ => ⟨rfl, rfl, rfl, rfl, id⟩

theorem writeVerified_kept {input : FinalObjectInput} : UpdatesUploads (writeVerified input) := by
  intro db value db' _ hok
  obtain ⟨updated, hupdate, hdone⟩ := bind_eq_ok_iff.1 hok
  obtain ⟨-, rfl⟩ := Prod.mk.inj (Except.ok.inj hdone)
  exact updateUploads_kept hupdate fun upload _ _ => ⟨rfl, rfl, rfl, rfl, fun _ => Or.inl rfl⟩

/-- An update of one statement. -/
theorem update_only_kept {cond : ProfileUpload → Bool} {set : ProfileUpload → ProfileUpload}
    (hset : ∀ upload, cond upload → RowKept upload (set upload)) :
    UpdatesUploads fun db => do
      let (_, db) ← updateUploads cond set db
      return ((), db) := by
  intro db value db' _ hok
  obtain ⟨updated, hupdate, hdone⟩ := bind_eq_ok_iff.1 hok
  obtain ⟨-, rfl⟩ := Prod.mk.inj (Except.ok.inj hdone)
  exact updateUploads_kept hupdate fun upload _ => hset upload

theorem markFailed_kept {uploadId : Uuid} {failureCode : String} {lease : Timestamp} :
    UpdatesUploads (markFailed uploadId failureCode lease) :=
  update_only_kept fun _ _ => ⟨rfl, rfl, rfl, rfl, fun _ => Or.inr rfl⟩

/-- Only a row in processing is released. -/
theorem releaseFinalizeLease_kept {uploadId : Uuid} {lease : Timestamp} :
    UpdatesUploads (releaseFinalizeLease uploadId lease) := by
  apply update_only_kept
  intro upload hlease
  have hstatus := (status_of_hasLease hlease).2.1
  exact ⟨rfl, rfl, rfl, rfl, fun hsettled => absurd hsettled (not_settled_iff.2 (Or.inr hstatus))⟩

theorem markStagingDeleted_kept {uploadId : Uuid} {now : Timestamp} :
    UpdatesUploads (markStagingDeleted uploadId now) :=
  update_only_kept fun _ _ => ⟨rfl, rfl, rfl, rfl, id⟩

theorem claimCleanupBatch_kept {input : ClaimCleanupInput} {candidates : List ProfileUpload} :
    UpdatesUploads (claimCleanupBatch input candidates) := by
  intro db value db' _ hok
  unfold claimCleanupBatch at hok
  split at hok
  next =>
    obtain ⟨-, rfl⟩ := Prod.mk.inj (Except.ok.inj hok)
    exact ⟨_, .refl _, rfl⟩
  next =>
    obtain ⟨updated, hupdate, hdone⟩ := bind_eq_ok_iff.1 hok
    obtain ⟨-, rfl⟩ := Prod.mk.inj (Except.ok.inj hdone)
    refine updateUploads_kept hupdate fun upload _ _ => ⟨rfl, rfl, rfl, rfl, fun _ => ?_⟩
    obtain ⟨hverified, hothers⟩ := claimForCleanup_status input.leaseExpiresAt upload
    by_cases hstatus : upload.status = .verified
    · exact Or.inl (hverified hstatus)
    · exact Or.inr (hothers hstatus)

theorem applyCleanupResult_kept {input : CleanupResultInput} :
    UpdatesUploads (applyCleanupResult input) := by
  apply update_only_kept
  intro upload _
  obtain ⟨hid, huserId, -, hstatus, -⟩ := recordCleanup_columns input upload
  have htimes : (recordCleanup input upload).createdAt = upload.createdAt ∧
      (recordCleanup input upload).expiresAt = upload.expiresAt := by
    cases hstaging : input.stagingDeleted <;> cases hfinal : input.finalDeleted <;>
      simp [recordCleanup, recordFinalDeleted, hstaging, hfinal]
  refine ⟨hid, huserId, htimes.1, htimes.2, fun hsettled => ?_⟩
  unfold Settled
  rwa [hstatus]

theorem writeAnonymized_kept {input : DeletionJobInput} {matchRooms : List RowId} :
    KeepsUploads (writeAnonymized input matchRooms) := by
  intro db value db' _ hok
  rw [(writeAnonymized_ok hok).uploads, anonymizeUploads_eq]
  apply forall₂_updateWhere RowKept.refl
  intro upload _ _
  obtain ⟨hid, huserId, -, hstatus, -⟩ := deleteOwner_columns input.now upload
  have htimes : (deleteOwner input.now upload).createdAt = upload.createdAt ∧
      (deleteOwner input.now upload).expiresAt = upload.expiresAt := by
    unfold deleteOwner
    split <;> exact ⟨rfl, rfl⟩
  exact ⟨hid, huserId, htimes.1, htimes.2, fun _ => Or.inr hstatus⟩

theorem writeProfile_kept {input : ReplaceProfileInput} {now : Timestamp}
    {photos : List PhotoAuthority} {drawn : ℕ → Uuid} :
    KeepsUploads (writeProfile input now photos drawn) :=
  .of_eq fun _ _ _ hok => (writeProfile_ok hok).1

theorem writeSchedule_kept {userId : Uuid} {now completedAt scheduledFor : Timestamp}
    {scheduled : Bool} {sessions tokenIds : List RowId} :
    KeepsUploads (writeSchedule userId now completedAt scheduledFor scheduled sessions tokenIds) :=
  .of_eq fun _ _ _ hok => (writeSchedule_frame hok).1

theorem claimDueDeletionBatch_kept {input : ClaimDeletionInput} {candidates : List Uuid} :
    KeepsUploads (claimDueDeletionBatch input candidates) :=
  .of_eq fun _ _ _ hok => (claimDueDeletionBatch_frame hok).1

theorem restoreScheduledDeletion_kept {userId : UuidText} {now : Timestamp} :
    KeepsUploads (restoreScheduledDeletion userId now) := by
  apply KeepsUploads.of_eq
  intro db value db' hok
  obtain ⟨-, rfl⟩ := Prod.mk.inj (Except.ok.inj hok)
  rfl

theorem releaseDeletionLease_kept {input : DeletionJobInput} :
    KeepsUploads (releaseDeletionLease input) := by
  apply KeepsUploads.of_eq
  intro db value db' hok
  obtain ⟨-, rfl⟩ := Prod.mk.inj (Except.ok.inj hok)
  rfl

/-- The creation of an upload stores one more. -/
theorem createPending_ok {input : CreatePendingInput} {db db' : Database} {upload : ProfileUpload}
    (h : createPending input db = .ok (upload, db')) :
    UniqueKey ProfileUpload.id (db.profileUploads ++ [pendingUpload input]) ∧
      { db with profileUploads := db.profileUploads ++ [pendingUpload input] } = db' := by
  simp only [createPending, bind_eq_ok_iff, throwIf_eq_ok_iff, require_eq_ok_iff, pure_eq_ok_iff,
    exists_const, writeUploads_eq_ok_iff] at h
  obtain ⟨-, -, -, written, ⟨hconstraints, rfl⟩, hdone⟩ := h
  obtain ⟨-, rfl⟩ := Prod.mk.inj hdone
  exact ⟨hconstraints.id_unique, rfl⟩

end Calls

/-! ### The programs -/

/-- What each call writes of which the programs are made, but for the creation of an upload and
the commit of new photos. -/
structure CallsWrite (keeps : Database → Database → Prop) : Prop where
  claimFinalize : ∀ input, WritesOnly keeps (claimFinalize input)
  prepareFinalObject : ∀ input, WritesOnly keeps (prepareFinalObject input)
  writeVerified : ∀ input, WritesOnly keeps (writeVerified input)
  markFailed : ∀ uploadId failureCode lease, WritesOnly keeps (markFailed uploadId failureCode lease)
  releaseFinalizeLease : ∀ uploadId lease, WritesOnly keeps (releaseFinalizeLease uploadId lease)
  markStagingDeleted : ∀ uploadId now, WritesOnly keeps (markStagingDeleted uploadId now)
  claimCleanupBatch : ∀ input candidates, WritesOnly keeps (claimCleanupBatch input candidates)
  applyCleanupResult : ∀ input, WritesOnly keeps (applyCleanupResult input)
  writeSchedule : ∀ userId now completedAt scheduledFor scheduled sessions tokenIds, WritesOnly keeps
    (writeSchedule userId now completedAt scheduledFor scheduled sessions tokenIds)
  restoreScheduledDeletion : ∀ userId now, WritesOnly keeps (restoreScheduledDeletion userId now)
  claimDueDeletionBatch : ∀ input candidates,
    WritesOnly keeps (claimDueDeletionBatch input candidates)
  releaseDeletionLease : ∀ input, WritesOnly keeps (releaseDeletionLease input)
  writeAnonymized : ∀ input matchRooms, WritesOnly keeps (writeAnonymized input matchRooms)

section Programs

variable {ι : Type} {pid : ℕ} {keeps : Database → Database → Prop} {kind : World → World → Prop}

/-- A request to the store leaves the database and the locks alone. -/
theorem stays_issue (hstore : ∀ before requests, kind before { before with requests := requests })
    {storeRequest : StoreRequestKind} {key : Text} :
    (issue storeRequest key : Prog World ι Failure ℕ).Stays kind pid := by
  refine ⟨?_, fun _ => trivial⟩
  rintro before number after ⟨-, rfl⟩
  exact hstore before _

theorem stays_answer (h : StepKind pid keeps kind) {number : ℕ} :
    (answer number : Prog World ι Failure Bool).Stays kind pid := by
  refine ⟨?_, fun _ => trivial⟩
  intro before reply after hact
  cases hact <;> exact h.same before

variable (h : StepKind pid keeps kind) (hcalls : CallsWrite keeps)
  (hstore : ∀ before requests, kind before { before with requests := requests })

include h

/-- The creation of an upload is one call. -/
theorem stays_createUpload {config : UploadConfig} {userId : UuidText} {metadata : UploadMetadata}
    (hcreate : ∀ input, WritesOnly keeps (createPending input)) :
    (createUpload config userId metadata : Prog World ι Failure ProfileUpload).Stays kind pid := by
  refine (stays_ofExcept _).bind fun _ => h.anything.bind fun id => h.clock.bind fun now => ?_
  refine h.anything.bind fun presigned => (stays_ofExcept _).bind fun _ => ?_
  exact h.statement (hcreate _)

include hcalls hstore

theorem stays_finalizeClaimed (config : UploadConfig) (userId : UuidText) (now : Timestamp)
    (upload : ProfileUpload) :
    (finalizeClaimed config userId now upload : Prog World ι Failure VerifiedUpload).Stays kind
      pid := by
  apply (stays_ofExcept _).bind
  intro lease
  apply Prog.Stays.bind
  · apply h.anything.bind
    intro object
    cases object with
    | bytes bytes => trivial
    | invalid code => exact (h.statement (hcalls.markFailed _ _ _)).bind fun _ => trivial
    | unavailable => exact (h.statement (hcalls.releaseFinalizeLease _ _)).bind fun _ => trivial
  intro bytes
  apply Prog.Stays.bind
  · apply h.anything.bind
    intro normalized
    cases normalized with
    | some normalized => trivial
    | none => exact (h.statement (hcalls.markFailed _ _ _)).bind fun _ => trivial
  intro normalized
  apply (stays_ofExcept _).bind
  intro baseUrl
  apply (h.statement (hcalls.prepareFinalObject _)).bind
  intro _
  apply Prog.Stays.bind
  · refine (stays_issue hstore).bind fun number => (stays_answer h).bind fun stored => ?_
    cases stored with
    | true => trivial
    | false => exact (h.statement (hcalls.releaseFinalizeLease _ _)).bind fun _ => trivial
  intro _
  apply Prog.Stays.bind
  · apply (h.statement (hcalls.writeVerified _)).bind
    intro verified
    cases verified with
    | some upload => trivial
    | none => exact h.select.bind fun existing => stays_ofExcept existing
  intro verified
  apply Prog.Stays.bind
  · refine (stays_issue hstore).bind fun number => (stays_answer h).bind fun deleted => ?_
    cases deleted with
    | true => exact h.statement (hcalls.markStagingDeleted _ _)
    | false => trivial
  exact fun _ => stays_ofExcept _

theorem stays_finalizeUpload (config : UploadConfig) (userId uploadId : UuidText) :
    (finalizeUpload config userId uploadId : Prog World ι Failure VerifiedUpload).Stays kind pid := by
  apply h.clock.bind
  intro now
  apply (h.statement (hcalls.claimFinalize _)).bind
  intro claim
  cases claim with
  | claimed upload => exact stays_finalizeClaimed h hcalls hstore config userId now upload
  | verified upload => exact stays_ofExcept _
  | expired upload => trivial
  | busy upload => trivial

theorem stays_cleanupJob (job : CleanupJob) :
    (cleanupJob job : Prog World ι Failure Bool).Stays kind pid := by
  have hsend (key : Option Text) :
      (sendDelete key : Prog World ι Failure (Option ℕ)).Stays kind pid := by
    cases key with
    | some key => exact (stays_issue hstore).bind fun _ => trivial
    | none => trivial
  have hawait (number : Option ℕ) :
      (awaitDelete number : Prog World ι Failure Bool).Stays kind pid := by
    cases number with
    | some number => exact stays_answer h
    | none => trivial
  refine (hsend _).bind fun staging => (hsend _).bind fun final => ?_
  refine (hawait staging).bind fun stagingDeleted => (hawait final).bind fun finalDeleted => ?_
  apply (stays_ofExcept _).bind
  intro lease
  exact (h.statement (hcalls.applyCleanupResult _)).bind fun _ => trivial

/-- Every call but the creation of an upload. -/
theorem takes_uploadCode {config : UploadConfig} {request : UploadRequest}
    (hcreates : ∀ userId metadata, request ≠ .createUpload userId metadata)
    (hreplaces : ∀ input, request = .replaceProfile input →
      (replaceProfile input :
        Prog World UploadRequest Failure (List UserProfilePhoto)).Stays kind pid) :
    (uploadCode config request).Takes kind pid := by
  cases request with
  | createUpload userId metadata => exact absurd rfl (hcreates userId metadata)
  | finalizeUpload userId uploadId =>
      exact (stays_finalizeUpload h hcalls hstore config userId uploadId).takes.bind fun _ => trivial
  | cleanupExpiredStagingBatch now limit =>
      refine Prog.Takes.bind ?_ fun _ => trivial
      apply (stays_ofExcept _).takes.bind
      intro _
      apply (h.choosing fun _ => hcalls.claimCleanupBatch _ _).takes.bind
      intro claimed
      exact (Prog.Takes.forkAll _).bind fun _ => trivial
  | cleanupJob job => exact (stays_cleanupJob h hcalls hstore job).takes.bind fun _ => trivial
  | replaceProfile input => exact (hreplaces input rfl).takes.bind fun _ => trivial
  | scheduleDeletion userId scheduledFor =>
      refine (stays_scheduleDeletion h userId scheduledFor fun now completedAt scheduled sessions
        tokenIds => ?_).takes.bind fun _ => trivial
      exact hcalls.writeSchedule _ _ _ _ _ _ _
  | restoreScheduledDeletion userId now =>
      exact (h.statement (hcalls.restoreScheduledDeletion _ _)).takes.bind fun _ => trivial
  | claimDueDeletionBatch input =>
      exact (h.choosing fun _ => hcalls.claimDueDeletionBatch _ _).takes.bind fun _ => trivial
  | releaseDeletionLease input =>
      exact (h.statement (hcalls.releaseDeletionLease input)).takes
  | anonymizeDeletedAccount input =>
      exact (stays_anonymizeDeletedAccount h input fun _ => hcalls.writeAnonymized _ _).takes

end Programs

end ChatTea.Upload
