import ChatTea.Upload.Staging

/-!
# Staging objects that nobody deletes

Every program of the service keeps the invariant of staging objects, in any interleaving with the
puts of clients, as long as these come in time. A put after the deletion was recorded leaves an
object for good: the cleanup only looks at rows that still owe a deletion.

## Main results

* `staging_sound` — every program keeps the invariant
* `staging_owed` — as long as clients put in time, every staging object is owed a deletion
* `reuploaded_orphaned` — a put after the deletion leaves an object that nobody will delete
-/

namespace ChatTea.Upload

open Interleaving RowLocks Table Transaction Users

/-! ### The logic -/

/-- A job is started for a row of the table. -/
def UploadRequest.Staged (w : World) : UploadRequest → Prop
  | .createUpload _ _ => True
  | .finalizeUpload _ _ => True
  | .cleanupExpiredStagingBatch _ _ => True
  | .cleanupJob job => HasRow job.upload w
  | _ => False

/-- A logic in which the writes of a call account for the deletions that they record. -/
class TracksStaging (L : Logic World UploadRequest Failure Unit) : Prop where
  unique : ∀ {w}, L.invariant w → UniqueKey ProfileUpload.id w.db.profileUploads
  onward : ∀ {pid before after}, L.rely pid before after → StagingOnward before after
  write : ∀ {request pid w db}, L.invariant w →
    StagingWrite (fun key => Landed .delete key w) w.db db →
      L.invariant (w.withDb db) ∧ L.guarantee request pid w (w.withDb db)
  reject : ∀ {request pid w} (failure : Failure), L.invariant w →
    L.invariant (w.reject failure) ∧ L.guarantee request pid w (w.reject failure)
  send : ∀ {request pid kind key w}, L.invariant w → (kind = .put → ∃ id, IsFinalKey id key) →
    L.invariant (send kind key w) ∧ L.guarantee request pid w (send kind key w)
  /-- Jobs may be started for rows of the table. -/
  job : ∀ {job w}, HasRow job.upload w → L.requires (.cleanupJob job) w

def stagingLogic : Logic World UploadRequest Failure Unit where
  invariant := StagingInvariant
  rely _ := StagingOnward
  guarantee _ _ := StagingOnward
  allowed := PutsInTime
  requires request w := request.Staged w
  ensures _ _ _ _ := True
  rely_refl _ := .refl
  rely_trans h h' := h.trans h'
  guarantee_refl _ _ := .refl
  rely_of_guarantee _ h := h

instance : TracksStaging stagingLogic where
  unique hinv := StagingInvariant.unique hinv
  onward h := h
  write hinv hwrite := ⟨StagingInvariant.write hinv hwrite, hwrite.onward⟩
  reject _ hinv := ⟨StagingInvariant.of_same hinv rfl rfl rfl, .of_db_eq rfl (.refl _)⟩
  send hinv hput := ⟨StagingInvariant.send hinv hput, .of_db_eq rfl (.append _ _)⟩
  job h := h

section Programs

variable {L : Logic World UploadRequest Failure Unit} [TracksStaging L] {request : UploadRequest}
  {pid : ℕ} {w : World} {config : UploadConfig} {β : Type} {returns : β → World → Prop}
  {upload : ProfileUpload}

omit [TracksStaging L] in
theorem staging_later {w : World} : L.Later pid (fun _ => True) w :=
  fun _ _ _ => trivial

/-- What the writes of the others keep is stable. -/
theorem staging_stable {assertion : World → Prop}
    (hkeep : ∀ {s t}, assertion s → StagingOnward s t → assertion t) : L.Stable pid assertion :=
  fun _ _ hrely _ h => hkeep h (TracksStaging.onward hrely)

/-- A call whose writes keep the rows. -/
theorem callChecks_staging {call : Call Database Failure β} {result : β → Database → Prop}
    {before : World} (hinv : L.invariant before)
    (hcall : ∀ value db, call before.db = .ok (value, db) →
      StagingWrite (fun key => Landed .delete key before) before.db db ∧ result value db)
    (hreturns : ∀ value after, StagingOnward before after → result value after.db →
      L.Later pid (returns value) after) :
    CallChecks L request pid call returns (fun _ _ => True) before where
  returned value db h _ _ := by
    obtain ⟨hwrite, hresult⟩ := hcall value db h
    obtain ⟨hafter, hguar⟩ := TracksStaging.write hinv hwrite
    exact ⟨hafter, hguar, hreturns value _ hwrite.onward hresult, fun _ => staging_later⟩
  threw failure _ := by
    obtain ⟨hafter, hguar⟩ := TracksStaging.reject failure hinv
    exact ⟨hafter, hguar, staging_later⟩
  unreachable _ := staging_later

theorem holds_staging {call : Call Database Failure β} (result : β → Database → Prop)
    (assertion : World → Prop)
    (hkeep : ∀ {s t}, assertion s → StagingOnward s t → assertion t) (hassertion : assertion w)
    (hcall : ∀ before value db, assertion before →
      UniqueKey ProfileUpload.id before.db.profileUploads → call before.db = .ok (value, db) →
        StagingWrite (fun key => Landed .delete key before) before.db db ∧ result value db)
    (hreturns : ∀ value after, assertion after → result value after.db →
      L.Later pid (returns value) after) :
    L.Holds request pid (statement call) returns (fun _ _ => True) w := by
  apply holds_statement assertion ((staging_stable hkeep).later hassertion)
  intro before hbefore hinv
  have hunique := TracksStaging.unique hinv
  apply callChecks_staging hinv (fun value db => hcall before value db hbefore hunique)
  intro value after honward hresult
  exact hreturns value after (hkeep hbefore honward) hresult

/-- A call after which nothing needs to be known. -/
theorem holds_stagingWrite {call : Call Database Failure β}
    (hcall : ∀ before value db, call before.db = .ok (value, db) →
      StagingWrite (fun key => Landed .delete key before) before.db db)
    (hreturns : ∀ value after, L.Later pid (returns value) after) :
    L.Holds request pid (statement call) returns (fun _ _ => True) w := by
  apply holds_staging (fun _ _ => True) (fun _ => True) (fun _ _ => trivial) trivial
  · exact fun before value db _ _ h => ⟨hcall before value db h, trivial⟩
  · exact fun value after _ _ => hreturns value after

/-- A request is sent: a delete, or a put for a published object. -/
theorem holds_stagingIssue {kind : StoreRequestKind} {key : Text} {returns : ℕ → World → Prop}
    (assertion : World → Prop)
    (hkeep : ∀ {s t}, assertion s → StagingOnward s t → assertion t) (hassertion : assertion w)
    (hput : kind = .put → ∃ id, IsFinalKey id key)
    (hreturns : ∀ number after, assertion after → Sent kind key number after →
      L.Later pid (returns number) after) :
    L.Holds request pid (issue kind key) returns (fun _ _ => True) w := by
  apply Logic.holds_step assertion (staging_stable hkeep) hassertion
  rintro before number after hbefore hinv ⟨rfl, rfl⟩ _
  have honward : StagingOnward before (send kind key before) := .of_db_eq rfl (.append _ _)
  obtain ⟨hafter, hguar⟩ := TracksStaging.send hinv hput
  refine ⟨hafter, hguar, ?_⟩
  refine hreturns _ _ (hkeep hbefore honward) ⟨⟨kind, key, false, true⟩, ?_, rfl, rfl⟩
  rw [List.getElem?_append_right (Nat.le_refl _), Nat.sub_self]
  rfl

/-- A success means that the request has taken effect. -/
theorem holds_stagingAnswer {kind : StoreRequestKind} {key : Text} {number : ℕ}
    {returns : Bool → World → Prop} (assertion : World → Prop)
    (hkeep : ∀ {s t}, assertion s → StagingOnward s t → assertion t) (hassertion : assertion w)
    (hsent : Sent kind key number w)
    (hreturns : ∀ reply after, assertion after → (reply = true → Landed kind key after) →
      L.Later pid (returns reply) after) :
    L.Holds request pid (answer number) returns (fun _ _ => True) w := by
  apply Logic.holds_step (fun w => assertion w ∧ Sent kind key number w)
    (staging_stable fun h honward => ⟨hkeep h.1 honward, honward.sent h.2⟩) ⟨hassertion, hsent⟩
  rintro before reply after ⟨hbefore, hsent⟩ hinv hact _
  cases hact with
  | success sent landed =>
      exact ⟨hinv, L.guarantee_refl _ _ _, hreturns _ _ hbefore fun _ => hsent.landed sent landed⟩
  | failure =>
      exact ⟨hinv, L.guarantee_refl _ _ _, hreturns _ _ hbefore fun h => by cases h⟩

theorem hasRow_keep {s t : World} (h : HasRow upload s) (honward : StagingOnward s t) :
    HasRow upload t := honward.rows upload h

theorem hasRow_of_mem (h : upload ∈ w.db.profileUploads) : HasRow upload w := ⟨upload, h, rfl, rfl⟩

/-- The row of an upload is known by its identifier. -/
theorem HasRow.key_eq (h : HasRow upload w)
    (hunique : UniqueKey ProfileUpload.id w.db.profileUploads)
    {row : ProfileUpload} (hrow : row ∈ w.db.profileUploads) (hid : row.id = upload.id) :
    row.stagingKey = upload.stagingKey := by
  obtain ⟨row', hrow', hid', hkey⟩ := h
  have hsame : row = row' := hunique.eq_of_key hrow hrow' (hid.trans hid'.symm)
  rw [hsame, hkey]

/-! ### Programs -/

theorem staging_createUpload {userId : UuidText} {metadata : UploadMetadata} :
    L.Holds request pid (createUpload config userId metadata)
      (fun _ _ => True) (fun _ _ => True) w := by
  refine Logic.Holds.bind (holds_ofExcept (fun _ _ => Logic.Holds.later ?_)
    fun _ _ => staging_later)
  refine Logic.Holds.bind (Logic.holds_anything fun id => Logic.Holds.later ?_)
  refine Logic.Holds.bind (holds_clock fun now => Logic.Holds.later ?_)
  refine Logic.Holds.bind (Logic.holds_anything fun presigned => Logic.Holds.later ?_)
  refine Logic.Holds.bind (holds_ofExcept (fun _ _ => Logic.Holds.later ?_)
    fun _ _ => staging_later)
  apply holds_stagingWrite
  · exact fun _ _ _ h => createPending_staging h
  · exact fun _ _ => staging_later

theorem staging_releaseFinalizeLease {uploadId : Uuid} {lease : Timestamp} :
    L.Holds request pid (statement (releaseFinalizeLease uploadId lease))
      (fun _ _ => True) (fun _ _ => True) w := by
  apply holds_stagingWrite
  · exact fun _ _ _ h => updateOnly_staging h fun row _ _ => ⟨rfl, rfl, Or.inl rfl⟩
  · exact fun _ _ => staging_later

theorem staging_markFailed {uploadId : Uuid} {failureCode : String} {lease : Timestamp} :
    L.Holds request pid (statement (markFailed uploadId failureCode lease))
      (fun _ _ => True) (fun _ _ => True) w := by
  apply holds_stagingWrite
  · exact fun _ _ _ h => updateOnly_staging h fun row _ _ => ⟨rfl, rfl, Or.inl rfl⟩
  · exact fun _ _ => staging_later

omit [TracksStaging L] in
/-- A statement before a throw. -/
theorem staging_throws {program : Prog World UploadRequest Failure Unit} {failure : Failure}
    (h : L.Holds request pid program (fun _ _ => True) (fun _ _ => True) w) :
    L.Holds request pid (program >>= fun _ => throw failure) returns
      (fun _ _ => True) w :=
  Logic.Holds.bind (h.mono (fun _ _ _ _ => Logic.holds_throw staging_later) fun _ _ _ h => h)

theorem staging_readStagingObject {lease : Timestamp} {returns : List UInt8 → World → Prop}
    (hreturns : ∀ bytes, L.Later pid (returns bytes) w) :
    L.Holds request pid (readStagingObject upload lease) returns
      (fun _ _ => True) w := by
  refine Logic.Holds.bind (Logic.holds_anything fun object => Logic.Holds.later ?_)
  cases object with
  | bytes bytes => exact Logic.holds_pure (hreturns bytes)
  | invalid code => exact staging_throws staging_markFailed
  | unavailable => exact staging_throws staging_releaseFinalizeLease

theorem staging_normalizeImage {lease : Timestamp} {bytes : List UInt8}
    {returns : List UInt8 → World → Prop}
    (hreturns : ∀ normalized, L.Later pid (returns normalized) w) :
    L.Holds request pid (normalizeImage upload lease bytes) returns
      (fun _ _ => True) w := by
  refine Logic.Holds.bind (Logic.holds_anything fun normalized => Logic.Holds.later ?_)
  cases normalized with
  | some normalized => exact Logic.holds_pure (hreturns normalized)
  | none => exact staging_throws staging_markFailed

theorem staging_putFinalObject {input : FinalObjectInput} {returns : Unit → World → Prop}
    (hkey : ∃ id, IsFinalKey id input.finalKey) (hrow : HasRow upload w)
    (hreturns : ∀ after, HasRow upload after → L.Later pid (returns ()) after) :
    L.Holds request pid (putFinalObject input) returns (fun _ _ => True) w := by
  refine Logic.Holds.bind (holds_stagingIssue (HasRow upload) hasRow_keep hrow (fun _ => hkey)
    fun number w hrow hsent => Logic.Holds.later ?_)
  refine Logic.Holds.bind (holds_stagingAnswer (HasRow upload) hasRow_keep hrow hsent
    fun stored w hrow _ => Logic.Holds.later ?_)
  cases stored with
  | true => exact Logic.holds_pure (hreturns w hrow)
  | false => exact staging_throws staging_releaseFinalizeLease

theorem staging_markVerified {input : FinalObjectInput} {returns : ProfileUpload → World → Prop}
    (hrow : HasRow upload w)
    (hreturns : ∀ verified after, HasRow upload after →
      L.Later pid (returns verified) after) :
    L.Holds request pid (markVerified input) returns (fun _ _ => True) w := by
  refine Logic.Holds.bind (holds_staging (fun _ _ => True) (HasRow upload) hasRow_keep hrow
    (fun _ _ _ _ _ h => ⟨writeVerified_staging h, trivial⟩)
    fun verified w hrow _ => Logic.Holds.later ?_)
  cases verified with
  | some verified => exact Logic.holds_pure (hreturns verified w hrow)
  | none =>
      have hlater : L.Later pid (HasRow upload) w := (staging_stable hasRow_keep).later hrow
      refine Logic.Holds.bind (holds_query (HasRow upload) hlater
        (fun before hrow _ => Logic.Holds.later ?_) fun _ _ _ _ => staging_later)
      exact holds_ofExcept (fun existing _ => hreturns existing before hrow)
        fun _ _ => staging_later

/-- The deletion of a staging object is recorded once it has taken effect. -/
theorem staging_deleteStagingObject {now : Timestamp} {returns : Unit → World → Prop}
    (hrow : HasRow upload w) (hreturns : ∀ after, L.Later pid (returns ()) after) :
    L.Holds request pid (deleteStagingObject upload now) returns
      (fun _ _ => True) w := by
  refine Logic.Holds.bind (holds_stagingIssue (HasRow upload) hasRow_keep hrow
    (fun h => by cases h) fun number w hrow hsent => Logic.Holds.later ?_)
  refine Logic.Holds.bind (holds_stagingAnswer (HasRow upload) hasRow_keep hrow hsent
    fun stored w hrow hlanded => Logic.Holds.later ?_)
  cases stored with
  | false => exact Logic.holds_pure (hreturns w)
  | true =>
      apply holds_staging (fun _ _ => True)
        (fun w => HasRow upload w ∧ Landed .delete upload.stagingKey w)
      · exact fun h honward => ⟨hasRow_keep h.1 honward, h.2.keep honward.requests⟩
      · exact ⟨hrow, hlanded rfl⟩
      · intro before _ db hbefore hunique hcall
        refine ⟨markStagingDeleted_staging hcall fun row hmem hid => ?_, trivial⟩
        rw [hbefore.1.key_eq hunique hmem hid]
        exact hbefore.2
      · exact fun _ after _ _ => hreturns after

theorem staging_finalizeClaimed {userId : UuidText} {now : Timestamp} (hrow : HasRow upload w) :
    L.Holds request pid (finalizeClaimed config userId now upload)
      (fun _ _ => True) (fun _ _ => True) w := by
  refine Logic.Holds.bind (holds_ofExcept (fun lease _ => Logic.Holds.later ?_)
    fun _ _ => staging_later)
  refine Logic.Holds.bind (staging_readStagingObject fun bytes => Logic.Holds.later ?_)
  refine Logic.Holds.bind (staging_normalizeImage fun normalized => Logic.Holds.later ?_)
  refine Logic.Holds.bind (holds_ofExcept (fun baseUrl _ => Logic.Holds.later ?_)
    fun _ _ => staging_later)
  refine Logic.Holds.bind (holds_staging (fun _ _ => True) (HasRow upload) hasRow_keep hrow
    (fun _ _ _ _ _ h => ⟨prepareFinalObject_staging h, trivial⟩)
    fun _ w hrow _ => Logic.Holds.later ?_)
  refine Logic.Holds.bind (staging_putFinalObject ⟨upload.id, userId, _, rfl⟩ hrow
    fun w hrow => Logic.Holds.later ?_)
  refine Logic.Holds.bind (staging_markVerified hrow fun verified w hrow => Logic.Holds.later ?_)
  refine Logic.Holds.bind (staging_deleteStagingObject hrow fun w => Logic.Holds.later ?_)
  exact holds_ofExcept (fun _ _ => staging_later) fun _ _ => staging_later

theorem staging_finalizeUpload {userId uploadId : UuidText} :
    L.Holds request pid (finalizeUpload config userId uploadId)
      (fun _ _ => True) (fun _ _ => True) w := by
  refine Logic.Holds.bind (holds_clock fun now => Logic.Holds.later ?_)
  refine Logic.Holds.bind (holds_staging _ (fun _ => True) (fun _ _ => trivial) trivial
    (fun _ _ _ _ hunique h => claimFinalize_staging hunique h)
    fun claim w _ hclaimed => Logic.Holds.later ?_)
  cases claim with
  | verified upload => exact holds_ofExcept (fun _ _ => staging_later) fun _ _ => staging_later
  | expired upload => exact Logic.holds_throw staging_later
  | busy upload => exact Logic.holds_throw staging_later
  | claimed upload => exact staging_finalizeClaimed (hasRow_of_mem (hclaimed upload rfl))

/-! ### Jobs -/

theorem staging_sendDelete {key : Option Text} {returns : Option ℕ → World → Prop}
    (assertion : World → Prop)
    (hkeep : ∀ {s t}, assertion s → StagingOnward s t → assertion t) (hassertion : assertion w)
    (hreturns : ∀ number after, assertion after → SentIf key number after →
      L.Later pid (returns number) after) :
    L.Holds request pid (sendDelete key) returns (fun _ _ => True) w := by
  cases key with
  | none => exact Logic.holds_pure (hreturns none w hassertion (Or.inl ⟨rfl, rfl⟩))
  | some text =>
      refine Logic.Holds.bind (holds_stagingIssue assertion hkeep hassertion (fun h => by cases h)
        fun number w hassertion hsent => Logic.Holds.later ?_)
      exact Logic.holds_pure
        (hreturns (some number) w hassertion (Or.inr ⟨text, number, rfl, rfl, hsent⟩))

theorem staging_awaitDelete {key : Option Text} {number : Option ℕ} {returns : Bool → World → Prop}
    (assertion : World → Prop)
    (hkeep : ∀ {s t}, assertion s → StagingOnward s t → assertion t) (hassertion : assertion w)
    (hsent : SentIf key number w)
    (hreturns : ∀ deleted after, assertion after →
      (deleted = true → ∀ text ∈ key, Landed .delete text after) →
        L.Later pid (returns deleted) after) :
    L.Holds request pid (awaitDelete number) returns (fun _ _ => True) w := by
  rcases hsent with ⟨rfl, rfl⟩ | ⟨text, sent, rfl, rfl, hsent⟩
  · exact Logic.holds_pure (hreturns true w hassertion fun _ text htext => by cases htext)
  · apply holds_stagingAnswer assertion hkeep hassertion hsent
    intro deleted after hafter hlanded
    apply hreturns deleted after hafter
    intro hdeleted text' htext'
    obtain rfl := Option.some.inj htext'
    exact hlanded hdeleted

/-- A job that owes the deletion of a staging object records it once it has taken effect. -/
theorem staging_cleanupJob {job : CleanupJob} (hrow : HasRow job.upload w) :
    L.Holds request pid (cleanupJob job) (fun _ _ => True) (fun _ _ => True) w := by
  let stagingObject := if stagingRequired job.upload then some job.upload.stagingKey else none
  let finalObject := if finalRequired job.upload then job.upload.finalKey else none
  refine Logic.Holds.bind (staging_sendDelete (HasRow job.upload) hasRow_keep hrow
    fun staging w hrow hsentStaging => Logic.Holds.later ?_)
  refine Logic.Holds.bind (staging_sendDelete
    (fun w => HasRow job.upload w ∧ SentIf stagingObject staging w)
    (fun h honward => ⟨hasRow_keep h.1 honward, honward.sentIf h.2⟩) ⟨hrow, hsentStaging⟩
    fun final w hsent hsentFinal => Logic.Holds.later ?_)
  refine Logic.Holds.bind (staging_awaitDelete
    (fun w => HasRow job.upload w ∧ SentIf finalObject final w)
    (fun h honward => ⟨hasRow_keep h.1 honward, honward.sentIf h.2⟩) ⟨hsent.1, hsentFinal⟩ hsent.2
    fun stagingDeleted w hsent hlanded => Logic.Holds.later ?_)
  have hrecorded : stagingRequired job.upload && stagingDeleted →
      Landed .delete job.upload.stagingKey w := by
    intro hboth
    obtain ⟨hrequired, hdeleted⟩ := Bool.and_eq_true_iff.1 hboth
    exact hlanded hdeleted _ (Option.mem_ite_none_right.2 ⟨hrequired, rfl⟩)
  refine Logic.Holds.bind (staging_awaitDelete (fun w => HasRow job.upload w ∧
      (stagingRequired job.upload && stagingDeleted → Landed .delete job.upload.stagingKey w))
    (fun h honward => ⟨hasRow_keep h.1 honward, fun hboth => (h.2 hboth).keep honward.requests⟩)
    ⟨hsent.1, hrecorded⟩ hsent.2 fun finalDeleted w hready _ => Logic.Holds.later ?_)
  refine Logic.Holds.bind (holds_ofExcept (fun lease _ => Logic.Holds.later ?_)
    fun _ _ => staging_later)
  refine Logic.Holds.bind (holds_staging (fun _ _ => True) (fun w => HasRow job.upload w ∧
      (stagingRequired job.upload && stagingDeleted → Landed .delete job.upload.stagingKey w))
    (fun h honward => ⟨hasRow_keep h.1 honward, fun hboth => (h.2 hboth).keep honward.requests⟩)
    hready (fun before _ db hbefore hunique hcall => ⟨applyCleanupResult_staging hcall ?_, trivial⟩)
    fun _ w _ _ => Logic.Holds.later (Logic.holds_pure staging_later))
  intro hboth row hmem hid
  rw [hbefore.1.key_eq hunique hmem hid]
  exact hbefore.2 hboth

theorem staging_cleanupExpiredStagingBatch {now : Timestamp} {limit : ℕ} :
    L.Holds request pid (cleanupExpiredStagingBatch UploadRequest.cleanupJob now limit)
      (fun _ _ => True) (fun _ _ => True) w := by
  refine Logic.Holds.bind (holds_ofExcept (fun _ _ => Logic.Holds.later ?_)
    fun _ _ => staging_later)
  have hclaim : L.Holds request pid (claimCleanup ⟨now, now + cleanupLeaseMs, limit⟩)
      (fun claimed w => ∀ upload ∈ claimed.jobs, HasRow upload w) (fun _ _ => True) w := by
    apply holds_choosing (fun _ => True) staging_later
    intro before candidates _ hinv _
    apply callChecks_staging hinv fun _ _ h =>
      claimCleanupBatch_staging (TracksStaging.unique hinv) h
    intro claimed after _ hclaimed later hrely _ upload hupload
    exact hasRow_keep (hasRow_of_mem (hclaimed upload hupload)) (TracksStaging.onward hrely)
  refine Logic.Holds.bind (hclaim.mono (fun claimed w _ hclaimed => ?_) fun _ _ _ h => h)
  have hstable : L.Stable pid fun w => ∀ upload ∈ claimed.jobs, HasRow upload w :=
    staging_stable fun h honward upload hupload => hasRow_keep (h upload hupload) honward
  refine Logic.Holds.bind (Logic.holds_forkAll _ hstable hclaimed ?_
    fun _ _ _ => Logic.holds_pure staging_later)
  intro child hchild before hbefore _
  obtain ⟨upload, hupload, rfl⟩ := List.mem_map.1 hchild
  exact TracksStaging.job (hbefore upload hupload)

omit [TracksStaging L] in
/-- The result of a call is dropped. -/
theorem staging_discard {program : Prog World UploadRequest Failure β}
    (h : L.Holds request pid program (fun _ _ => True) (fun _ _ => True) w) :
    L.Holds request pid (program >>= fun _ => pure ()) (fun _ _ => True)
      (fun _ _ => True) w :=
  Logic.Holds.bind (h.mono (fun _ _ _ _ => Logic.holds_pure staging_later) fun _ _ _ h => h)

end Programs

/-! ### The system -/

section System

variable {request : UploadRequest} {pid : ℕ} {w : World} {config : UploadConfig}

theorem staging_uploadCode (hstaged : request.Staged w) :
    stagingLogic.Holds request pid (uploadCode config request) (fun _ _ => True)
      (fun _ _ => True) w := by
  cases request with
  | createUpload userId metadata => exact staging_discard staging_createUpload
  | finalizeUpload userId uploadId => exact staging_discard staging_finalizeUpload
  | cleanupExpiredStagingBatch now limit =>
      exact staging_discard staging_cleanupExpiredStagingBatch
  | cleanupJob job => exact staging_discard (staging_cleanupJob hstaged)
  | replaceProfile input => exact hstaged.elim
  | scheduleDeletion userId scheduledFor => exact hstaged.elim
  | restoreScheduledDeletion userId now => exact hstaged.elim
  | claimDueDeletionBatch input => exact hstaged.elim
  | releaseDeletionLease input => exact hstaged.elim
  | anonymizeDeletedAccount input => exact hstaged.elim

/-- The calls keep the invariant next to puts that come in time. -/
theorem staging_sound (config : UploadConfig) : stagingLogic.Sound (stagingSystem config) where
  accepts := by
    intro request w hstages _
    cases request with
    | createUpload userId metadata => trivial
    | finalizeUpload userId uploadId => trivial
    | cleanupExpiredStagingBatch now limit => trivial
    | cleanupJob job => exact absurd hstages id
    | replaceProfile input => exact hstages
    | scheduleDeletion userId scheduledFor => exact hstages
    | restoreScheduledDeletion userId now => exact hstages
    | claimDueDeletionBatch input => exact hstages
    | releaseDeletionLease input => exact hstages
    | anonymizeDeletedAccount input => exact hstages
  code _ hstaged _ _ := staging_uploadCode hstaged
  environment := by
    intro before after hstep hintime hinv
    cases hstep with
    | moves hmoves =>
        have hrequests := requestsMove hmoves
        exact ⟨StagingInvariant.move hinv hmoves, fun _ => .of_db_eq hrequests.db hrequests.kept⟩
    | put created reading valid =>
        exact ⟨StagingInvariant.put hinv created hintime, fun _ => .of_db_eq rfl (.refl _)⟩
    | passes reading le =>
        exact ⟨StagingInvariant.of_same hinv rfl rfl rfl, fun _ => .of_db_eq rfl (.refl _)⟩
  rollback _ hinv :=
    ⟨StagingInvariant.of_same hinv rfl rfl rfl, fun _ _ => .of_db_eq rfl (.refl _)⟩

end System

/-! ### Every run -/

section Runs

variable {config : UploadConfig} {c : Config World UploadRequest Failure Unit} {db : Database}
  {start : Timestamp}

/-- A run of the system, from a configuration on. -/
def StagingRun (config : UploadConfig) (c c' : Config World UploadRequest Failure Unit) : Prop :=
  Reachable (stagingSystem config) (fun _ _ => True) c c'

/-- A run in which clients put in time. -/
def InTimeRun (config : UploadConfig) (c c' : Config World UploadRequest Failure Unit) : Prop :=
  Reachable (stagingSystem config) PutsInTime c c'

theorem stagingInvariant_startAt (hnew : NoUploads db) (start : Timestamp) :
    StagingInvariant (startAt start db) where
  unique := by
    change UniqueKey ProfileUpload.id db.profileUploads
    rw [hnew.uploads]
    exact List.nodup_nil
  puts _ hrequest := absurd hrequest List.not_mem_nil
  owned _ hkey := absurd hkey List.not_mem_nil
  recorded upload hupload := by
    have hnone : upload ∈ db.profileUploads := hupload
    rw [hnew.uploads] at hnone
    cases hnone
  gone _ _ _ := List.not_mem_nil

/-- **No orphans without late puts.** In every run in which no client puts a staging object after
a delete of it has taken effect, every staging object belongs to a row that owes its deletion. -/
theorem staging_owed (hnew : NoUploads db)
    (hrun : InTimeRun config (.idle (startAt start db)) c) :
    ∀ key ∈ c.state.objects, IsStagingKey key → Owed key c.state.db := by
  have hgood := (staging_sound config).reachable
    (Logic.good_idle (stagingInvariant_startAt hnew start) fun _ => trivial) hrun
  have hinv : StagingInvariant c.state := hgood.invariant
  intro key hstored hstaging
  obtain ⟨upload, hupload, hkey⟩ := hinv.owned key hstored hstaging
  refine ⟨upload, hupload, hkey, ?_⟩
  by_contra hdeleted
  have hlanded := hinv.recorded upload hupload hdeleted
  rw [hkey] at hlanded
  exact hinv.gone key hstaging hlanded hstored

end Runs

/-! ### A staging object that is deleted -/

def oneStagingKey : Text := createdUpload.stagingKey

/-- The service at an instant, with the upload as it is then. -/
def staged (now : Timestamp) (upload : ProfileUpload) (objects : List Text)
    (requests : List StoreRequest) : World :=
  { between (withUpload upload) objects requests with clocks := fun time => time = now }

theorem unlocked_staged (now : Timestamp) (upload : ProfileUpload) (objects : List Text)
    (requests : List StoreRequest) (pid : ℕ) (after : Database) :
    (staged now upload objects requests).Unlocked pid after :=
  World.unlocked_of_alone (fun lock hlock => by cases hlock) after

/-- The client creates an upload and puts its object. -/
theorem staged_run : InTimeRun oneConfig (.idle (startAt 0 oneAccount))
    ⟨staged 0 createdUpload [oneStagingKey] [], [createThread]⟩ := by
  have hsame {s t : World} (h : t.objects = s.objects) : PutsInTime s t :=
    fun _ _ _ hstored => h ▸ hstored
  have hstart : InTimeRun oneConfig (.idle (startAt 0 oneAccount))
      ⟨startAt 0 oneAccount, []⟩ := Relation.ReflTransGen.refl
  have hcreated : InTimeRun oneConfig (.idle (startAt 0 oneAccount))
      ⟨staged 0 createdUpload [] [], [createThread]⟩ := by
    refine hstart.serve trivial (hsame rfl) ?_
    refine .step oneUploadId.toUuid (startAt 0 oneAccount) rfl (hsame rfl) ?_
    refine .step 0 (startAt 0 oneAccount) ⟨rfl, rfl⟩ (hsame rfl) ?_
    refine .step (.ok ()) (startAt 0 oneAccount) rfl (hsame rfl) ?_
    refine .step (.ok createdUpload) (staged 0 createdUpload [] []) ?_ (hsame rfl) .refl
    exact Executes.returned rfl (World.unlocked_of_alone (fun lock hlock => by cases hlock) _)
  have hput : StagingStep (staged 0 createdUpload [] [])
      (staged 0 createdUpload [oneStagingKey] []) :=
    .put (List.mem_singleton_self createdUpload) rfl (by decide)
  apply hcreated.outside hput
  -- No delete was sent yet.
  rintro key - ⟨request, hrequest, -⟩
  cases hrequest

def stagingLanded : List StoreRequest :=
  putLanded ++ [⟨.delete, oneStagingKey, true, true⟩]

/-- The row after the finalizer has recorded the deletion. -/
def recordedUpload : ProfileUpload :=
  { verifiedUpload with stagingDeletedAt := some 1, cleanupLeaseExpiresAt := none }

def finalizedThread : Thread World UploadRequest Failure Unit :=
  ⟨.finalizeUpload leavingId oneUploadId, .done ()⟩

/-- The upload is finalized, and its staging object is deleted. -/
theorem recorded_run : InTimeRun oneConfig (.idle (startAt 0 oneAccount))
    ⟨staged 1 recordedUpload [oneFinalKey] stagingLanded, [createThread, finalizedThread]⟩ := by
  have hsame {s t : World} (h : t.objects = s.objects) : PutsInTime s t :=
    fun _ _ _ hstored => h ▸ hstored
  have hstaged : InTimeRun oneConfig (.idle (startAt 0 oneAccount))
      ⟨staged 1 createdUpload [oneStagingKey] [], [createThread]⟩ := by
    have hpasses : StagingStep (staged 0 createdUpload [oneStagingKey] [])
        (staged 1 createdUpload [oneStagingKey] []) := @StagingStep.passes _ 0 1 rfl (by decide)
    exact staged_run.outside hpasses (hsame rfl)
  -- The finalizer, up to the put of the published object.
  obtain ⟨rest, hput, rest', hverified, hrecorded⟩ : ∃ rest, InTimeRun oneConfig
      (.idle (startAt 0 oneAccount)) ⟨staged 1 preparedUpload [oneStagingKey] putPending,
        [createThread, ⟨.finalizeUpload leavingId oneUploadId, rest⟩]⟩ ∧ ∃ rest',
      Runs PutsInTime 1 rest
        (staged 1 preparedUpload [oneFinalKey, oneStagingKey] putLanded) rest'
        (staged 1 verifiedUpload [oneFinalKey, oneStagingKey] stagingPending) ∧
      Runs PutsInTime 1 rest'
        (staged 1 verifiedUpload [oneFinalKey] stagingLanded) (.done ())
        (staged 1 recordedUpload [oneFinalKey] stagingLanded) := by
    exact ⟨_, hstaged.serve trivial (hsame rfl)
        (.step 1 (staged 1 createdUpload [oneStagingKey] []) ⟨rfl, rfl⟩ (hsame rfl)
        (.step (.ok (.claimed claimedUpload)) (staged 1 claimedUpload [oneStagingKey] [])
          (Executes.returned rfl (unlocked_staged ..)) (hsame rfl)
        (.step (.bytes [0]) (staged 1 claimedUpload [oneStagingKey] []) rfl (hsame rfl)
        (.step (some [0]) (staged 1 claimedUpload [oneStagingKey] []) rfl (hsame rfl)
        (.step (.ok ()) (staged 1 preparedUpload [oneStagingKey] [])
          (Executes.returned rfl (unlocked_staged ..)) (hsame rfl)
        (.step 0 (staged 1 preparedUpload [oneStagingKey] putPending) ⟨rfl, rfl⟩ (hsame rfl)
          .refl)))))),
      _, .step true (staged 1 preparedUpload [oneFinalKey, oneStagingKey] putLanded)
          (Answers.success rfl rfl) (hsame rfl)
        (.step (.ok (some verifiedUpload))
          (staged 1 verifiedUpload [oneFinalKey, oneStagingKey] putLanded)
          (Executes.returned rfl (unlocked_staged ..)) (hsame rfl)
        (.step 1 (staged 1 verifiedUpload [oneFinalKey, oneStagingKey] stagingPending) ⟨rfl, rfl⟩
          (hsame rfl) .refl)),
      .step true (staged 1 verifiedUpload [oneFinalKey] stagingLanded)
          (Answers.success rfl rfl) (hsame rfl)
        (.step (.ok ()) (staged 1 recordedUpload [oneFinalKey] stagingLanded)
          (Executes.returned rfl (unlocked_staged ..)) (hsame rfl) .refl)⟩
  -- No delete was sent when the published object is put.
  have hlands : PutsInTime (staged 1 preparedUpload [oneStagingKey] putPending)
      (staged 1 preparedUpload [oneFinalKey, oneStagingKey] putLanded) := by
    rintro key - ⟨request, hrequest, hkind, -⟩
    obtain rfl := List.mem_singleton.1 hrequest
    cases hkind
  have hfinal := hput.outside (.moves (@World.StoreMoves.lands
    (staged 1 preparedUpload [oneStagingKey] putPending) 0
    ⟨.put, oneFinalKey, false, true⟩ rfl rfl)) hlands
  have hsent : InTimeRun oneConfig _ ⟨_, _⟩ :=
    Relation.ReflTransGen.trans hfinal (hverified.reachable _ rfl)
  have hends : PutsInTime (staged 1 verifiedUpload [oneFinalKey, oneStagingKey] stagingPending)
      (staged 1 verifiedUpload [oneFinalKey] stagingLanded) :=
    fun key _ _ hstored => List.mem_append_left [oneStagingKey] hstored
  have hdeleted := hsent.outside (.moves (@World.StoreMoves.lands
    (staged 1 verifiedUpload [oneFinalKey, oneStagingKey] stagingPending) 1
    ⟨.delete, oneStagingKey, false, true⟩ rfl rfl)) hends
  have hdone : InTimeRun oneConfig _ ⟨_, _⟩ :=
    Relation.ReflTransGen.trans hdeleted (hrecorded.reachable _ rfl)
  exact hdone

/-! ### A second upload -/

def secondUploadId : UuidText where
  text := "b0000000-0000-4000-8000-000000000031".toList
  wellFormed := rfl

def secondUpload : ProfileUpload := pendingUpload
  { id := secondUploadId.toUuid
    userId := leavingId
    stagingKey := stagingKey leavingId secondUploadId.toUuid .jpeg
    expectedContentType := ImageType.jpeg.contentType
    expectedSizeBytes := 1
    expiresAt := 1 + uploadUrlTtlMs
    now := 1 }

/-- The service with the second upload. -/
def stagedSecond (objects : List Text) : World :=
  { staged 1 recordedUpload objects stagingLanded with
    db := { oneAccount with profileUploads := [recordedUpload, secondUpload] } }

/-- When the staging object of an upload has been deleted, the user creates another upload and puts
its object, which is owed its deletion. -/
theorem staging_owed_staged :
    InTimeRun oneConfig (.idle (startAt 0 oneAccount))
        ⟨stagedSecond [secondUpload.stagingKey, oneFinalKey],
          [createThread, finalizedThread, createThread]⟩ ∧
      secondUpload.stagingKey ∈ (stagedSecond [secondUpload.stagingKey, oneFinalKey]).objects ∧
      Owed secondUpload.stagingKey (stagedSecond [secondUpload.stagingKey, oneFinalKey]).db := by
  have hsame {s t : World} (h : t.objects = s.objects) : PutsInTime s t :=
    fun _ _ _ hstored => h ▸ hstored
  have hcreated : InTimeRun oneConfig (.idle (startAt 0 oneAccount))
      ⟨stagedSecond [oneFinalKey], [createThread, finalizedThread, createThread]⟩ := by
    refine recorded_run.serve trivial (hsame rfl) ?_
    refine .step secondUploadId.toUuid (staged 1 recordedUpload [oneFinalKey] stagingLanded) rfl
      (hsame rfl) ?_
    refine .step 1 (staged 1 recordedUpload [oneFinalKey] stagingLanded) ⟨rfl, rfl⟩ (hsame rfl) ?_
    refine .step (.ok ()) (staged 1 recordedUpload [oneFinalKey] stagingLanded) rfl (hsame rfl) ?_
    refine .step (.ok secondUpload) (stagedSecond [oneFinalKey]) ?_ (hsame rfl) .refl
    exact Executes.returned rfl (unlocked_staged ..)
  have hput : StagingStep (stagedSecond [oneFinalKey])
      (stagedSecond [secondUpload.stagingKey, oneFinalKey]) :=
    @StagingStep.put _ secondUpload 1 (List.mem_cons_of_mem _ (List.mem_singleton_self _)) rfl
      (by decide)
  -- The only delete that has taken effect is of the other object.
  have hother : PutsInTime (stagedSecond [oneFinalKey])
      (stagedSecond [secondUpload.stagingKey, oneFinalKey]) := by
    rintro key - ⟨request, hrequest, hkind, hkey, -⟩ hstored
    rcases List.mem_cons.1 hstored with rfl | hstored
    · rcases List.mem_pair.1 hrequest with rfl | rfl
      · cases hkind
      · exact absurd hkey (by decide +kernel)
    · exact hstored
  have hrun : InTimeRun oneConfig (.idle (startAt 0 oneAccount))
      ⟨stagedSecond [secondUpload.stagingKey, oneFinalKey],
        [createThread, finalizedThread, createThread]⟩ := hcreated.outside hput hother
  refine ⟨hrun, List.mem_cons_self, staging_owed noUploads_oneAccount hrun _ List.mem_cons_self ?_⟩
  exact ⟨leavingId, secondUploadId.toUuid, .jpeg, rfl⟩

/-! ### A put that comes late -/

/-- The upload is finalized, its staging object is deleted, and the client puts it again while the
URL is good. -/
theorem reuploaded_run : ∃ threads,
    StagingRun oneConfig (.idle (startAt 0 oneAccount))
      ⟨staged 1 recordedUpload [oneStagingKey, oneFinalKey] stagingLanded, threads⟩ := by
  -- The URL is good for five minutes.
  have hagain : StagingStep (staged 1 recordedUpload [oneFinalKey] stagingLanded)
      (staged 1 recordedUpload [oneStagingKey, oneFinalKey] stagingLanded) :=
    @StagingStep.put _ recordedUpload 1 (List.mem_singleton_self _) rfl (by decide)
  exact ⟨_, (recorded_run.weaken fun _ _ _ => trivial).outside hagain trivial⟩

/-- So a staging object may be left that no row owes the deletion of. -/
theorem reuploaded_orphaned : ¬ ∀ config start db c, NoUploads db →
    StagingRun config (.idle (startAt start db)) c →
      ∀ key ∈ c.state.objects, IsStagingKey key → Owed key c.state.db := by
  intro h
  obtain ⟨threads, hrun⟩ := reuploaded_run
  obtain ⟨upload, hupload, -, hdeleted⟩ := h oneConfig 0 oneAccount _ noUploads_oneAccount hrun
    oneStagingKey List.mem_cons_self ⟨leavingId, oneUploadId.toUuid, .jpeg, rfl⟩
  obtain rfl := List.mem_singleton.1 hupload
  cases hdeleted

end ChatTea.Upload
