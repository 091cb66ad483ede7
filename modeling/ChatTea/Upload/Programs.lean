import ChatTea.Lib.Pointwise
import ChatTea.Upload.System

/-!
# The programs of the upload system

Each program of the system keeps the invariant of the store, whatever the other
threads do between its steps.

## Main results

* `holds_finalizeClaimed`, `holds_cleanupJob` — the finalizer and the cleanup worker
* `holds_replaceProfile` — new photos show uploads that stay verified until the commit
* `sound` — every program of the system
-/

namespace ChatTea.Upload

open Interleaving RowLocks Table Transaction Users

section Programs

variable {fenced : Bool} {request : UploadRequest} {pid : ℕ} {w : World} {config : UploadConfig}

/-! ### Finalizing -/

/-- The upload is verified or failed. -/
def SettledId (id : Uuid) (w : World) : Prop :=
  ∃ upload ∈ w.db.profileUploads, upload.id = id ∧ Settled upload

theorem SettledId.keep {id : Uuid} {before after : World} (h : SettledId id before)
    (hkept : Keeps before after) : SettledId id after := by
  obtain ⟨upload, hmem, hid, hsettled⟩ := h
  obtain ⟨upload', hmem', hprogress, -⟩ := hkept.rows upload hmem
  exact ⟨upload', hmem', hprogress.id.trans hid, hprogress.settled hsettled⟩

theorem holds_createUpload {userId : UuidText} {metadata : UploadMetadata}
    (hrequest : ∀ input, request ≠ .anonymizeDeletedAccount input) :
    (uploadLogic fenced).Holds request pid (createUpload config userId metadata)
      (fun _ _ => True) (fun _ _ => True) w := by
  refine Logic.Holds.bind (holds_ofExcept (fun _ _ => Logic.Holds.later ?_) fun _ _ => later_true)
  refine Logic.Holds.bind (Logic.holds_anything fun id => Logic.Holds.later ?_)
  refine Logic.Holds.bind (holds_clock fun now => Logic.Holds.later ?_)
  refine Logic.Holds.bind (Logic.holds_anything fun presigned => Logic.Holds.later ?_)
  refine Logic.Holds.bind (holds_ofExcept (fun _ _ => Logic.Holds.later ?_) fun _ _ => later_true)
  exact holds_writes (fun _ => True) (fun _ _ => trivial) trivial
    (fun before _ hinv => createPending_writes hinv ⟨userId, id, metadata.imageType, rfl⟩)
    hrequest fun _ _ _ _ _ => later_true

theorem holds_releaseFinalizeLease {uploadId : Uuid} {lease : Timestamp}
    (hrequest : ∀ input, request ≠ .anonymizeDeletedAccount input) :
    (uploadLogic fenced).Holds request pid (statement (releaseFinalizeLease uploadId lease))
      (fun _ _ => True) (fun _ _ => True) w :=
  holds_writes (fun _ => True) (fun _ _ => trivial) trivial
    (fun _ _ hinv => releaseFinalizeLease_writes hinv) hrequest fun _ _ _ _ _ => later_true

theorem holds_markFailed {uploadId : Uuid} {failureCode : String} {lease : Timestamp}
    (hrequest : ∀ input, request ≠ .anonymizeDeletedAccount input) :
    (uploadLogic fenced).Holds request pid (statement (markFailed uploadId failureCode lease))
      (fun _ _ => True) (fun _ _ => True) w :=
  holds_writes (fun _ => True) (fun _ _ => trivial) trivial
    (fun _ _ hinv => markFailed_writes hinv) hrequest fun _ _ _ _ _ => later_true

/-- A statement before a throw. -/
theorem holds_then_throw {β : Type} {program : Prog World UploadRequest Failure Unit}
    {failure : Failure} {returns : β → World → Prop}
    (h : (uploadLogic fenced).Holds request pid program (fun _ _ => True) (fun _ _ => True) w) :
    (uploadLogic fenced).Holds request pid
      (program >>= fun _ => throw failure) returns (fun _ _ => True) w :=
  Logic.Holds.bind (h.mono (fun _ _ _ _ => Logic.holds_throw later_true) fun _ _ _ h => h)

theorem holds_readStagingObject {upload : ProfileUpload} {lease : Timestamp}
    {returns : List UInt8 → World → Prop}
    (hrequest : ∀ input, request ≠ .anonymizeDeletedAccount input)
    (hreturns : ∀ bytes, (uploadLogic fenced).Later pid (returns bytes) w) :
    (uploadLogic fenced).Holds request pid (readStagingObject upload lease) returns
      (fun _ _ => True) w := by
  refine Logic.Holds.bind (Logic.holds_anything fun object => Logic.Holds.later ?_)
  cases object with
  | bytes bytes => exact Logic.holds_pure (hreturns bytes)
  | invalid code => exact holds_then_throw (holds_markFailed hrequest)
  | unavailable => exact holds_then_throw (holds_releaseFinalizeLease hrequest)

theorem holds_normalizeImage {upload : ProfileUpload} {lease : Timestamp} {bytes : List UInt8}
    {returns : List UInt8 → World → Prop}
    (hrequest : ∀ input, request ≠ .anonymizeDeletedAccount input)
    (hreturns : ∀ normalized, (uploadLogic fenced).Later pid (returns normalized) w) :
    (uploadLogic fenced).Holds request pid (normalizeImage upload lease bytes) returns
      (fun _ _ => True) w := by
  refine Logic.Holds.bind (Logic.holds_anything fun normalized => Logic.Holds.later ?_)
  cases normalized with
  | some normalized => exact Logic.holds_pure (hreturns normalized)
  | none => exact holds_then_throw (holds_markFailed hrequest)

/-- A put that is answered with a success has taken effect. -/
theorem holds_putFinalObject {input : FinalObjectInput} {returns : Unit → World → Prop}
    (hrequest : ∀ input, request ≠ .anonymizeDeletedAccount input)
    (hkey : ∃ id, IsFinalKey id input.finalKey)
    (hnamed : Named input.finalKey w ∨ Landed .delete input.finalKey w)
    (hreturns : ∀ after, Landed .put input.finalKey after →
      (uploadLogic fenced).Later pid (returns ()) after) :
    (uploadLogic fenced).Holds request pid (putFinalObject input) returns (fun _ _ => True) w := by
  refine Logic.Holds.bind (holds_issue
    (fun w => Named input.finalKey w ∨ Landed .delete input.finalKey w)
    named_or_deleted_keep hnamed (fun _ _ h => by cases h) (fun _ h _ => ⟨hkey, h⟩)
    fun number w _ hsent => Logic.Holds.later ?_)
  refine Logic.Holds.bind (holds_answer (fun _ => True) (fun _ _ => trivial) trivial hsent
    fun stored w _ hlanded => Logic.Holds.later ?_)
  cases stored with
  | true => exact Logic.holds_pure (hreturns w (hlanded rfl))
  | false => exact holds_then_throw (holds_releaseFinalizeLease hrequest)

/-- An upload is only marked verified once its object was put. -/
theorem holds_markVerified {input : FinalObjectInput} {returns : ProfileUpload → World → Prop}
    (hrequest : ∀ input, request ≠ .anonymizeDeletedAccount input)
    (hlanded : Landed .put input.finalKey w)
    (hreturns : ∀ upload after, SettledId input.uploadId after →
      (uploadLogic fenced).Later pid (returns upload) after) :
    (uploadLogic fenced).Holds request pid (markVerified input) returns (fun _ _ => True) w := by
  refine Logic.Holds.bind (holds_writes (Landed .put input.finalKey)
    (fun h hkept => h.keep hkept.requests) hlanded
    (fun before hbefore hinv => writeVerified_writes hinv hbefore) hrequest
    fun verified w _ hverified _ => Logic.Holds.later ?_)
  cases verified with
  | some upload =>
      obtain ⟨hmem, hid, hstatus⟩ := hverified upload rfl
      exact Logic.holds_pure (hreturns upload w ⟨upload, hmem, hid, Or.inl hstatus⟩)
  | none =>
      refine Logic.Holds.bind (holds_query (fun _ => True) later_true
        (fun before _ _ => Logic.Holds.later ?_) fun _ _ _ _ => later_true)
      refine holds_ofExcept (fun existing hexisting => ?_) fun _ _ => later_true
      obtain ⟨hmem, hid, hstatus⟩ := findVerified_ok hexisting
      exact hreturns existing before ⟨existing, hmem, hid, Or.inl hstatus⟩

theorem holds_deleteStagingObject {upload : ProfileUpload} {now : Timestamp}
    {returns : Unit → World → Prop}
    (hrequest : ∀ input, request ≠ .anonymizeDeletedAccount input)
    (hstaging : IsStagingKey upload.stagingKey) (hsettled : SettledId upload.id w)
    (hreturns : ∀ after, (uploadLogic fenced).Later pid (returns ()) after) :
    (uploadLogic fenced).Holds request pid (deleteStagingObject upload now) returns
      (fun _ _ => True) w := by
  refine Logic.Holds.bind (holds_issue (SettledId upload.id) SettledId.keep hsettled
    (fun _ _ _ => Or.inl hstaging) (fun _ _ h => by cases h)
    fun number w hsettled hsent => Logic.Holds.later ?_)
  refine Logic.Holds.bind (holds_answer (SettledId upload.id) SettledId.keep hsettled hsent
    fun deleted w hsettled _ => Logic.Holds.later ?_)
  cases deleted with
  | true =>
      exact holds_writes (SettledId upload.id) SettledId.keep hsettled
        (fun before hbefore hinv => markStagingDeleted_writes hinv hbefore) hrequest
        fun _ after _ _ _ => hreturns after
  | false => exact Logic.holds_pure (hreturns w)

theorem holds_finalizeClaimed {userId : UuidText} {now : Timestamp} {upload : ProfileUpload}
    (hrequest : ∀ input, request ≠ .anonymizeDeletedAccount input)
    (hstaging : IsStagingKey upload.stagingKey) :
    (uploadLogic fenced).Holds request pid (finalizeClaimed config userId now upload)
      (fun _ _ => True) (fun _ _ => True) w := by
  refine Logic.Holds.bind (holds_ofExcept (fun lease _ => Logic.Holds.later ?_)
    fun _ _ => later_true)
  refine Logic.Holds.bind (holds_readStagingObject hrequest fun bytes => Logic.Holds.later ?_)
  refine Logic.Holds.bind (holds_normalizeImage hrequest fun normalized => Logic.Holds.later ?_)
  refine Logic.Holds.bind (holds_ofExcept (fun baseUrl _ => Logic.Holds.later ?_)
    fun _ _ => later_true)
  have hkey : IsFinalKey upload.id (finalKey userId upload.id (config.contentHash normalized)) :=
    ⟨userId, _, rfl⟩
  refine Logic.Holds.bind (holds_writes (fun _ => True) (fun _ _ => trivial) trivial
    (fun before _ hinv => prepareFinalObject_writes hinv hkey) hrequest
    fun _ w _ hprepared _ => Logic.Holds.later ?_)
  refine Logic.Holds.bind (holds_putFinalObject hrequest ⟨_, hkey⟩ (Or.inl hprepared)
    fun w hlanded => Logic.Holds.later ?_)
  refine Logic.Holds.bind (holds_markVerified hrequest hlanded fun verified w hsettled =>
    Logic.Holds.later ?_)
  refine Logic.Holds.bind (holds_deleteStagingObject hrequest hstaging hsettled fun w =>
    Logic.Holds.later ?_)
  exact holds_ofExcept (fun _ _ => later_true) fun _ _ => later_true

theorem holds_finalizeUpload {userId uploadId : UuidText}
    (hrequest : ∀ input, request ≠ .anonymizeDeletedAccount input) :
    (uploadLogic fenced).Holds request pid (finalizeUpload config userId uploadId)
      (fun _ _ => True) (fun _ _ => True) w := by
  refine Logic.Holds.bind (holds_clock fun now => Logic.Holds.later ?_)
  refine Logic.Holds.bind (holds_writes (fun _ => True) (fun _ _ => trivial) trivial
    (fun before _ hinv => claimFinalize_writes hinv) hrequest
    fun claim w _ hclaimed hinv => Logic.Holds.later ?_)
  cases claim with
  | verified upload => exact holds_ofExcept (fun _ _ => later_true) fun _ _ => later_true
  | expired upload => exact Logic.holds_throw later_true
  | busy upload => exact Logic.holds_throw later_true
  | claimed upload =>
      have hmem := hclaimed upload rfl
      exact holds_finalizeClaimed hrequest (hinv.1.uploads.staging upload hmem)

/-! ### Cleaning up -/

theorem CleanupReady.keep {upload : ProfileUpload} {before after : World}
    (h : CleanupReady upload before) (hkept : Keeps before after) : CleanupReady upload after :=
  ⟨h.known.keep hkept, h.settled, h.row, h.staging, h.published⟩

/-- A row whose public object is to be deleted is a failed one. -/
theorem CleanupReady.condemned {upload : ProfileUpload} (h : CleanupReady upload w)
    (hrequired : finalRequired upload = true) : Condemned upload := by
  simp only [finalRequired, decide_eq_true_eq] at hrequired
  refine ⟨h.settled.resolve_left fun hverified => ?_, hrequired.1⟩
  exact hrequired.1 (h.row.verified hverified).2.2.2.2.2.1

/-- A delete that was sent, or none to send. -/
def SentIf (key : Option Text) (number : Option ℕ) (w : World) : Prop :=
  key = none ∧ number = none ∨
    ∃ text sent, key = some text ∧ number = some sent ∧ Sent .delete text sent w

theorem SentIf.keep {key : Option Text} {number : Option ℕ} {before after : World}
    (h : SentIf key number before) (hkept : Keeps before after) : SentIf key number after := by
  refine h.imp_right ?_
  rintro ⟨text, sent, hkey, hnumber, hsent⟩
  exact ⟨text, sent, hkey, hnumber, hsent.keep hkept⟩

/-- A delete is sent if there is a key to delete. -/
theorem holds_sendDelete {upload : ProfileUpload} {key : Option Text}
    {returns : Option ℕ → World → Prop} (assertion : World → Prop)
    (hkeep : ∀ {s t}, assertion s → Keeps s t → assertion t) (hassertion : assertion w)
    (hready : ∀ before, assertion before → CleanupReady upload before)
    (hdead : ∀ text ∈ key, IsStagingKey text ∨ Condemned upload ∧ IsFinalKey upload.id text)
    (hreturns : ∀ number after, assertion after → SentIf key number after →
      (uploadLogic fenced).Later pid (returns number) after) :
    (uploadLogic fenced).Holds request pid (sendDelete key) returns (fun _ _ => True) w := by
  cases key with
  | none => exact Logic.holds_pure (hreturns none w hassertion (Or.inl ⟨rfl, rfl⟩))
  | some text =>
      refine Logic.Holds.bind (holds_issue assertion hkeep hassertion (fun before hbefore _ => ?_)
        (fun _ _ h => by cases h) fun number w hassertion hsent => Logic.Holds.later ?_)
      · refine (hdead text rfl).imp_right ?_
        rintro ⟨hcondemned, hfinal⟩
        obtain ⟨upload', hmem, hprogress⟩ := (hready before hbefore).known
        refine ⟨upload', hmem, (hprogress.condemned hcondemned).1, ?_⟩
        rwa [hprogress.id]
      · exact Logic.holds_pure
          (hreturns (some number) w hassertion (Or.inr ⟨text, number, rfl, rfl, hsent⟩))

/-- The outcome of a delete: a success means that it has taken effect. -/
theorem holds_awaitDelete {key : Option Text} {number : Option ℕ} {returns : Bool → World → Prop}
    (assertion : World → Prop) (hkeep : ∀ {s t}, assertion s → Keeps s t → assertion t)
    (hassertion : assertion w) (hsent : SentIf key number w)
    (hreturns : ∀ deleted after, assertion after →
      (deleted = true → ∀ text ∈ key, Landed .delete text after) →
        (uploadLogic fenced).Later pid (returns deleted) after) :
    (uploadLogic fenced).Holds request pid (awaitDelete number) returns (fun _ _ => True) w := by
  rcases hsent with ⟨rfl, rfl⟩ | ⟨text, sent, rfl, rfl, hsent⟩
  · exact Logic.holds_pure (hreturns true w hassertion fun _ text htext => by cases htext)
  · refine holds_answer assertion hkeep hassertion hsent fun deleted after hafter hlanded => ?_
    refine hreturns deleted after hafter fun hdeleted text' htext' => ?_
    obtain rfl := Option.some.inj htext'
    exact hlanded hdeleted

/-- A result is recorded of the row that was claimed, and a deletion of its public object
only after the delete has taken effect. -/
theorem holds_applyCleanupResult {upload : ProfileUpload} {input : CleanupResultInput}
    {returns : Unit → World → Prop} (hrequest : ∀ input, request ≠ .anonymizeDeletedAccount input)
    (hid : input.uploadId = upload.id) (hready : CleanupReady upload w)
    (hdeleted : input.finalDeleted = true →
      Condemned upload ∧ ∀ key ∈ upload.finalKey, Landed .delete key w)
    (hreturns : ∀ after, (uploadLogic fenced).Later pid (returns ()) after) :
    (uploadLogic fenced).Holds request pid (statement (applyCleanupResult input)) returns
      (fun _ _ => True) w := by
  refine holds_writes (fun w => CleanupReady upload w ∧ (input.finalDeleted = true →
      Condemned upload ∧ ∀ key ∈ upload.finalKey, Landed .delete key w)) ?_ ⟨hready, hdeleted⟩
    (fun before hbefore hinv => applyCleanupResult_writes hinv ?_ ?_) hrequest
    fun _ after _ _ _ => hreturns after
  · intro s t h hkept
    refine ⟨h.1.keep hkept, fun hfinal => ⟨(h.2 hfinal).1, fun key hkey => ?_⟩⟩
    exact ((h.2 hfinal).2 key hkey).keep hkept.requests
  · intro row hrow hsame
    obtain ⟨row', hrow', hprogress⟩ := hbefore.1.known
    obtain rfl := hinv.eq_of_id hrow hrow' (by rw [hsame, hid, hprogress.id])
    exact hprogress.settled hbefore.1.settled
  · intro hfinal row hrow hsame
    obtain ⟨hcondemned, hlanded⟩ := hbefore.2 hfinal
    obtain ⟨row', hrow', hprogress⟩ := hbefore.1.known
    obtain rfl := hinv.eq_of_id hrow hrow' (by rw [hsame, hid, hprogress.id])
    refine ⟨hprogress.condemned hcondemned, fun key hkey => ?_⟩
    -- The row still has the key it was claimed with, or none.
    rcases (hprogress.failed hcondemned.1).2.2 with hkept | hnone
    · exact hlanded key (hkept ▸ hkey)
    · rw [hnone] at hkey
      cases hkey

theorem holds_cleanupJob {job : CleanupJob}
    (hrequest : ∀ input, request ≠ .anonymizeDeletedAccount input)
    (hready : CleanupReady job.upload w) :
    (uploadLogic fenced).Holds request pid (cleanupJob job) (fun _ _ => True)
      (fun _ _ => True) w := by
  let stagingObject := if stagingRequired job.upload then some job.upload.stagingKey else none
  let finalObject := if finalRequired job.upload then job.upload.finalKey else none
  have hstaging : ∀ text ∈ stagingObject,
      IsStagingKey text ∨ Condemned job.upload ∧ IsFinalKey job.upload.id text := by
    intro text htext
    obtain rfl := Option.some.inj (Option.mem_ite_none_right.1 htext).2
    exact Or.inl hready.staging
  have hfinal : ∀ text ∈ finalObject,
      IsStagingKey text ∨ Condemned job.upload ∧ IsFinalKey job.upload.id text := by
    intro text htext
    obtain ⟨hrequired, hkey⟩ := Option.mem_ite_none_right.1 htext
    exact Or.inr ⟨hready.condemned hrequired, hready.published text hkey⟩
  refine Logic.Holds.bind (holds_sendDelete (CleanupReady job.upload) CleanupReady.keep hready
    (fun _ => id) hstaging fun staging w hready hsentStaging => Logic.Holds.later ?_)
  refine Logic.Holds.bind (holds_sendDelete
    (fun w => CleanupReady job.upload w ∧ SentIf stagingObject staging w)
    (fun h hkept => ⟨h.1.keep hkept, h.2.keep hkept⟩) ⟨hready, hsentStaging⟩ (fun _ h => h.1)
    hfinal fun final w hsent hsentFinal => Logic.Holds.later ?_)
  refine Logic.Holds.bind (holds_awaitDelete
    (fun w => CleanupReady job.upload w ∧ SentIf finalObject final w)
    (fun h hkept => ⟨h.1.keep hkept, h.2.keep hkept⟩) ⟨hsent.1, hsentFinal⟩ hsent.2
    fun stagingDeleted w hsent _ => Logic.Holds.later ?_)
  refine Logic.Holds.bind (holds_awaitDelete (CleanupReady job.upload) CleanupReady.keep hsent.1
    hsent.2 fun finalDeleted w hready hlanded => Logic.Holds.later ?_)
  refine Logic.Holds.bind (holds_ofExcept (fun lease _ => Logic.Holds.later ?_)
    fun _ _ => later_true)
  refine Logic.Holds.bind (holds_applyCleanupResult hrequest rfl hready (fun hdeleted => ?_)
    fun w => Logic.Holds.later (Logic.holds_pure later_true))
  obtain ⟨hrequired, hdeleted⟩ := Bool.and_eq_true_iff.1 hdeleted
  refine ⟨hready.condemned hrequired, fun key hkey => hlanded hdeleted key ?_⟩
  exact Option.mem_ite_none_right.2 ⟨hrequired, hkey⟩

/-- The jobs of a batch are ready for the worker. -/
theorem holds_cleanupExpiredStagingBatch {now : Timestamp} {limit : ℕ}
    (hrequest : ∀ input, request ≠ .anonymizeDeletedAccount input) :
    (uploadLogic fenced).Holds request pid
      (cleanupExpiredStagingBatch UploadRequest.cleanupJob now limit) (fun _ _ => True)
      (fun _ _ => True) w := by
  refine Logic.Holds.bind (holds_ofExcept (fun _ _ => Logic.Holds.later ?_) fun _ _ => later_true)
  have hclaim : (uploadLogic fenced).Holds request pid
      (claimCleanup ⟨now, now + cleanupLeaseMs, limit⟩)
      (fun claimed w => ∀ upload ∈ claimed.jobs, CleanupReady upload w) (fun _ _ => True) w := by
    refine holds_choosing (fun _ => True) later_true fun before candidates _ hinv hcandidates => ?_
    refine callChecks_writes (claimCleanupBatch_writes hinv.1.uploads hcandidates) hrequest hinv
      fun claimed after hclaimed hafter _ => ?_
    refine (stable_of_keep fun h hkept upload hupload => (h upload hupload).keep hkept).later ?_
    intro upload hupload
    obtain ⟨hmem, hsettled⟩ := hclaimed upload hupload
    have huploads := hafter.1.uploads
    exact ⟨⟨upload, hmem, .refl upload⟩, hsettled, huploads.rows upload hmem,
      huploads.staging upload hmem, huploads.published upload hmem⟩
  refine Logic.Holds.bind (hclaim.mono (fun claimed w _ hclaimed => ?_) fun _ _ _ h => h)
  refine Logic.Holds.bind (Logic.holds_forkAll
    (fun w => ∀ upload ∈ claimed.jobs, CleanupReady upload w)
    (stable_of_keep fun h hkept upload hupload => (h upload hupload).keep hkept) hclaimed ?_
    fun _ _ _ => Logic.holds_pure later_true)
  intro child hchild before hbefore _ job hjob
  obtain ⟨upload, hupload, rfl⟩ := List.mem_map.1 hchild
  obtain rfl := UploadRequest.cleanupJob.inj hjob
  exact hbefore upload hupload

/-! ### Replacing a profile -/

/-- The new photos show the uploads that were found. -/
theorem resolves_of_inserted {input : ReplaceProfileInput} {uploads : List ProfileUpload}
    {legacyRows : List UserProfilePhoto} {photos : List PhotoAuthority} {drawn : ℕ → Uuid}
    {db : Database} {photo : UserProfilePhoto}
    (hsources : SourcesStored input uploads legacyRows db)
    (hphotos : orderedPhotos input uploads legacyRows = .ok photos)
    (hphoto : photo ∈ insertedPhotos input.userId.toUuid photos drawn) :
    Resolves db.profileUploads photo := by
  obtain ⟨⟨authority, position⟩, hauthority, rfl⟩ := List.mem_map.1 hphoto
  intro uploadId huploadId
  have hmem : authority ∈ photos := (List.mem_zipIdx hauthority).2.2 ▸ List.getElem_mem _
  obtain ⟨authorityId, -, hstands⟩ := Pointwise.exists_before (orderedPhotos_ok hphotos) hmem
  cases hstands with
  | legacy mem id => cases huploadId
  | @upload upload publicUrl mem id url shown =>
      obtain rfl : upload.id = uploadId := Option.some.inj huploadId
      obtain ⟨hrow, hfound⟩ := List.mem_filter.1 (hsources.uploads upload mem)
      obtain ⟨huser, hverified, -⟩ := of_decide_eq_true hfound
      exact ⟨upload, hrow, rfl, huser, hverified, url⟩

/-- New photos show uploads that stay verified until the commit. -/
theorem holds_replaceProfile {input : ReplaceProfileInput} :
    (uploadLogic fenced).Holds request pid (replaceProfile input) (fun _ _ => True)
      (fun _ _ => True) w := by
  refine holds_replacement lockNeutral
    (fun now uploads legacyRows photos drawn w hphotos hlocked => ?_) fun _ _ => later_true
  refine holds_commit _ hlocked ?_ ?_ fun _ _ _ _ => later_true
  · intro before inserted db hbefore hinv hcall hunlocked _
    obtain ⟨huploads, hmem⟩ := writeProfile_ok hcall
    have hwrite : UploadsWrite (stepEffects request before) before.db db :=
      .of_uploads_eq hinv.1.uploads huploads
    have hafter : (uploadLogic fenced).invariant (before.withDb db) := by
      refine invariant_write hinv hwrite fun photo hphoto => Or.inr ?_
      rw [huploads]
      rcases hmem photo hphoto with hold | hnew
      · exact hinv.1.photos photo hold
      · exact resolves_of_inserted hbefore.stored hphotos hnew
    refine ⟨invariant_withLocks hafter _, ⟨fun other hother => ?_, hwrite.rows, .refl _⟩,
      later_true, fun _ => later_true⟩
    exact .of_unlocked hunlocked hother fun hheld => hheld.release (Ne.symm hother)
  · intro before failure _ hinv hcall
    exact ⟨invariant_reject hinv (writeProfile_error hcall),
      uploadStep_of_db_eq rfl (.refl _) fun _ _ _ _ => id, later_true⟩

/-! ### Accounts -/

theorem writeSchedule_frame {userId : Uuid} {now completedAt scheduledFor : Timestamp}
    {scheduled : Bool} {sessions tokenIds : List RowId} {db db' : Database} {done : Unit}
    (h : writeSchedule userId now completedAt scheduledFor scheduled sessions tokenIds db
      = .ok (done, db')) :
    db'.profileUploads = db.profileUploads ∧ db'.userProfilePhotos = db.userProfilePhotos := by
  obtain ⟨-, rfl⟩ := Prod.mk.inj (Except.ok.inj h)
  exact ⟨rfl, rfl⟩

theorem holds_schedule {userId : UuidText} {scheduledFor : Timestamp} :
    (uploadLogic fenced).Holds request pid (scheduleDeletion userId scheduledFor)
      (fun _ _ => True) (fun _ _ => True) w := by
  refine holds_scheduling lockNeutral fun now completedAt scheduled sessions tokenIds w => ?_
  refine holds_commit (fun _ => True) later_true ?_ ?_ fun _ _ _ _ => later_true
  · intro before _ db _ hinv hcall hunlocked _
    obtain ⟨huploads, hphotos⟩ := writeSchedule_frame hcall
    have hwrite : UploadsWrite (stepEffects request before) before.db db :=
      .of_uploads_eq hinv.1.uploads huploads
    have hafter : (uploadLogic fenced).invariant (before.withDb db) := by
      refine invariant_write hinv hwrite fun photo hphoto => Or.inr ?_
      rw [huploads]
      exact hinv.1.photos photo (hphotos ▸ hphoto)
    refine ⟨invariant_withLocks hafter _, ⟨fun other hother => ?_, hwrite.rows, .refl _⟩,
      later_true, fun _ => later_true⟩
    exact .of_unlocked hunlocked hother fun hheld => hheld.release (Ne.symm hother)
  · intro before failure _ _ hcall
    cases hcall

/-- The erasure of an account takes its uploads and photos with it. -/
theorem holds_erasure {input : DeletionJobInput}
    (hrequest : request = .anonymizeDeletedAccount input) :
    (uploadLogic fenced).Holds request pid (anonymizeDeletedAccount input) (fun _ _ => True)
      (fun _ _ => True) w := by
  refine holds_anonymization lockNeutral (fun matchRooms w hlocked => ?_) fun _ _ => later_true
  refine holds_commit _ hlocked ?_ ?_ fun _ _ _ _ => later_true
  · intro before _ db hbefore hinv hcall hunlocked _
    have herases : (stepEffects request before).erases input.userId := by
      obtain ⟨user, huser, hcond⟩ := hbefore.claimed
      exact ⟨input, hrequest, rfl, user, huser, canAnonymize_iff.1 hcond⟩
    have hwrite := writeAnonymized_writes herases hcall
    have hafter : (uploadLogic fenced).invariant (before.withDb db) := by
      refine invariant_write hinv hwrite fun photo hphoto => Or.inl ?_
      rw [(writeAnonymized_ok hcall).photos] at hphoto
      obtain ⟨hmem, hother⟩ := List.mem_filter.1 hphoto
      refine ⟨hmem, ?_⟩
      rintro ⟨other, hsame, howner, -⟩
      obtain rfl := UploadRequest.anonymizeDeletedAccount.inj (hrequest.symm.trans hsame)
      simp [howner] at hother
    refine ⟨invariant_withLocks hafter _, ⟨fun other hother => ?_, hwrite.rows, .refl _⟩,
      later_true, fun _ => later_true⟩
    exact .of_unlocked hunlocked hother fun hheld => hheld.release (Ne.symm hother)
  · intro before failure hbefore hinv hcall
    have herases : (stepEffects request before).erases input.userId := by
      obtain ⟨user, huser, hcond⟩ := hbefore.claimed
      exact ⟨input, hrequest, rfl, user, huser, canAnonymize_iff.1 hcond⟩
    exact ⟨invariant_reject hinv (writeAnonymized_fails hinv.1.uploads herases hcall),
      uploadStep_of_db_eq rfl (.refl _) fun _ _ _ _ => id, later_true⟩

theorem claimDueDeletionBatch_frame {input : ClaimDeletionInput} {candidates : List Uuid}
    {db db' : Database} {claim : DeletionClaim}
    (h : claimDueDeletionBatch input candidates db = .ok (claim, db')) :
    db'.profileUploads = db.profileUploads ∧ db'.userProfilePhotos = db.userProfilePhotos := by
  unfold claimDueDeletionBatch at h
  split at h
  all_goals
    obtain ⟨-, rfl⟩ := Prod.mk.inj (Except.ok.inj h)
    exact ⟨rfl, rfl⟩

theorem holds_claimDeletionBatch {input : ClaimDeletionInput}
    (hrequest : ∀ input, request ≠ .anonymizeDeletedAccount input) :
    (uploadLogic fenced).Holds request pid (claimDeletions input) (fun _ _ => True)
      (fun _ _ => True) w := by
  refine holds_choosing (fun _ => True) later_true fun before candidates _ hinv _ => ?_
  refine callChecks_upload (fun _ _ => True) (fun value db hcall => ?_) (fun failure hcall => ?_)
    hrequest hinv fun _ _ _ _ _ => later_true
  · have hframe := claimDueDeletionBatch_frame hcall
    exact ⟨.of_uploads_eq hinv.1.uploads hframe.1, hframe.2, trivial⟩
  · unfold claimDueDeletionBatch at hcall
    split at hcall <;> cases hcall

/-! ### The system -/

/-- The result of a call is dropped. -/
theorem holds_discard {β : Type} {program : Prog World UploadRequest Failure β}
    (h : (uploadLogic fenced).Holds request pid program (fun _ _ => True) (fun _ _ => True) w) :
    (uploadLogic fenced).Holds request pid (program >>= fun _ => pure ()) (fun _ _ => True)
      (fun _ _ => True) w :=
  Logic.Holds.bind (h.mono (fun _ _ _ _ => Logic.holds_pure later_true) fun _ _ _ h => h)

theorem holds_uploadCode (hready : (uploadLogic fenced).requires request w) :
    (uploadLogic fenced).Holds request pid (uploadCode config request) (fun _ _ => True)
      (fun _ _ => True) w := by
  cases request with
  | createUpload userId metadata => exact holds_discard (holds_createUpload fun _ h => by cases h)
  | finalizeUpload userId uploadId =>
      exact holds_discard (holds_finalizeUpload fun _ h => by cases h)
  | cleanupExpiredStagingBatch now limit =>
      exact holds_discard (holds_cleanupExpiredStagingBatch fun _ h => by cases h)
  | cleanupJob job =>
      exact holds_discard (holds_cleanupJob (fun _ h => by cases h) (hready job rfl))
  | replaceProfile input => exact holds_discard holds_replaceProfile
  | scheduleDeletion userId scheduledFor => exact holds_discard holds_schedule
  | restoreScheduledDeletion userId now =>
      refine holds_discard (holds_account (fun h => ?_) (fun h => by cases h)
        (fun _ h => by cases h) fun _ _ => later_true)
      obtain ⟨-, rfl⟩ := Prod.mk.inj (Except.ok.inj h)
      exact ⟨rfl, rfl⟩
  | claimDueDeletionBatch input =>
      exact holds_discard (holds_claimDeletionBatch fun _ h => by cases h)
  | releaseDeletionLease input =>
      refine holds_account (fun h => ?_) (fun h => by cases h) (fun _ h => by cases h)
        fun _ _ => later_true
      obtain ⟨-, rfl⟩ := Prod.mk.inj (Except.ok.inj h)
      exact ⟨rfl, rfl⟩
  | anonymizeDeletedAccount input => exact holds_erasure rfl

/-- A step of the outside keeps the invariant. -/
theorem invariant_storeStep {after : World} (hinv : (uploadLogic fenced).invariant w)
    (h : StoreStep w after) (hallowed : (uploadLogic fenced).allowed w after) :
    (uploadLogic fenced).invariant after ∧ ∀ pid, (uploadLogic fenced).rely pid w after := by
  cases h with
  | moves hmoves =>
      have hkept := requestsMove hmoves
      have hrejections : after.rejections = w.rejections := by cases hmoves <;> rfl
      refine ⟨⟨hinv.1.move hmoves hrejections, fun hfenced => ?_⟩, fun pid => ?_⟩
      · exact (hinv.2 hfenced).move hmoves (hallowed hfenced)
      · exact ⟨hmoves.keepsLocked, .of_db_eq hkept.db hkept.kept⟩
  | staged key staging =>
      refine ⟨⟨hinv.1.stage key, fun hfenced => ?_⟩, fun pid => ?_⟩
      · exact (hinv.2 hfenced).stage staging
      · exact ⟨.of_db_eq rfl id, .of_db_eq rfl (.refl _)⟩

theorem sound (config : UploadConfig) (fenced : Bool) :
    (uploadLogic fenced).Sound (uploadSystem config) where
  accepts := fun haccepted _ job hjob => absurd hjob (haccepted job)
  code := fun pid hready _ _ => holds_uploadCode hready
  environment := fun h hallowed hinv => invariant_storeStep hinv h hallowed
  rollback := by
    intro before pid hinv
    obtain ⟨huploads, hunrejected, hdeletes, hputs, hstored, hphotos⟩ := hinv.1
    refine ⟨⟨⟨huploads, hunrejected, hdeletes, hputs, hstored, hphotos⟩, fun hfenced => ?_⟩,
      fun other hother => ⟨World.keepsLocked_rollback pid _ hother, .of_db_eq rfl (.refl _)⟩⟩
    obtain ⟨hnamed, hputs, hgone⟩ := hinv.2 hfenced
    exact ⟨hnamed, hputs, hgone⟩

end Programs

end ChatTea.Upload
