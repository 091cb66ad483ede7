import ChatTea.Upload.Programs

/-!
# Uploads and photos in every run

Three results on the runs of the upload system: the life cycle of an upload row,
profile photos that always resolve, and published objects that are never orphaned as
long as no put of one takes effect after a delete of it.

## Main results

* `upload_life_cycle` — rows, leases and the check of the table
* `photos_resolve` — every photo shows a verified upload whose object is stored
* `late_put_orphaned` — a put that takes effect after the cleanup leaves an orphan
* `not_orphaned` — without such puts there are none
-/

namespace ChatTea.Upload

open Interleaving RowLocks Table Transaction Users

/-- A database without uploads: no photo is taken from one. -/
structure NoUploads (db : Database) : Prop where
  uploads : db.profileUploads = []
  photos : ∀ photo ∈ db.userProfilePhotos, photo.uploadId = none

theorem NoUploads.storeInvariant {db : Database} (h : NoUploads db) :
    StoreInvariant (.ofDatabase db) := by
  have huploads : UploadsInvariant db := by
    refine ⟨?_, ?_, ?_, ?_⟩ <;> simp only [h.uploads]
    · exact ⟨List.nodup_nil, List.nodup_nil, List.nodup_nil, by simp⟩
    all_goals simp
  refine ⟨huploads, by simp [World.ofDatabase], by simp [DeletesDead, World.ofDatabase], ?_, ?_, ?_⟩
  · rintro key ⟨request, hrequest, -⟩
    cases hrequest
  · intro upload hupload
    have hnone : upload ∈ db.profileUploads := hupload
    rw [h.uploads] at hnone
    cases hnone
  · intro photo hphoto uploadId huploadId
    rw [h.photos photo hphoto] at huploadId
    cases huploadId

theorem fenced_ofDatabase (db : Database) : Fenced (.ofDatabase db) where
  named := fun key hkey => by cases hkey
  puts := fun request hrequest => by cases hrequest
  gone := fun id key _ _ hkey => by cases hkey

section Runs

variable {config : UploadConfig} {c c' : Config World UploadRequest Failure Unit} {db : Database}

/-- A run of the system, from a configuration on. -/
def UploadRun (config : UploadConfig) (c c' : Config World UploadRequest Failure Unit) : Prop :=
  Reachable (uploadSystem config) (fun _ _ => True) c c'

/-- A run in which no put of a published object takes effect after a delete of it. -/
def FencedRun (config : UploadConfig) (c c' : Config World UploadRequest Failure Unit) : Prop :=
  Reachable (uploadSystem config) PutsFenced c c'

theorem UploadRun.good (hnew : NoUploads db) (hrun : UploadRun config (.idle (.ofDatabase db)) c) :
    (uploadLogic false).Good c := by
  have hinv : (uploadLogic false).invariant (World.ofDatabase db) :=
    ⟨hnew.storeInvariant, fun h => by cases h⟩
  exact (sound config false).reachable (Logic.good_idle hinv fun _ => trivial)
    (hrun.weaken fun _ _ _ h => by cases h)

/-! ### The life cycle of an upload -/

/-- The lease of a finalizer keeps the cleanup away until it expires. -/
theorem RowInvariant.not_due {upload : ProfileUpload} (h : RowInvariant upload)
    (hprocessing : upload.status = .processing) :
    ∃ lease, upload.processingLeaseExpiresAt = some lease ∧
      ∀ now, now < lease → cleanupDue now upload = false := by
  obtain ⟨lease, hlease⟩ := Option.ne_none_iff_exists'.1 (h.leased hprocessing)
  refine ⟨lease, hlease, fun now hnow => ?_⟩
  have hstaging : stagingDue now upload = false := by
    have hlater : ¬ lease ≤ now := not_le.2 hnow
    simp [stagingDue, hprocessing, hlease, hlater]
  have hfinal : upload.cleanupLeaseExpiresAt.all (· ≤ now) = true → finalDue upload = false := by
    intro hfree
    by_contra howed
    simp only [finalDue, Bool.not_eq_false, decide_eq_true_eq] at howed
    have hfenced := (h.fenced hprocessing howed.1).trans hlease
    simp only [hfenced, Option.all_some, decide_eq_true_eq] at hfree
    exact absurd hfree (not_le.2 hnow)
  unfold cleanupDue
  rw [hstaging]
  by_cases hfree : upload.cleanupLeaseExpiresAt.all (· ≤ now) = true
  · simp [hfinal hfree]
  · simp [hfree]

/-- The rows of a run go on. -/
theorem UploadRun.keeps (hgood : (uploadLogic false).Good c) (hrun : UploadRun config c c') :
    Keeps c.state c'.state := by
  refine Logic.Sound.relates Keeps (sound config false) hgood
    (hrun.weaken fun _ _ _ h => by cases h) .refl .trans (fun _ hstep => hstep.keeps)
    (fun hinv hstep => ?_) fun pid s => .of_db_eq rfl (.refl _)
  exact ((invariant_storeStep hinv hstep fun h => by cases h).2 0).2

/-- A failed upload stays failed. -/
theorem UploadRun.failed (hgood : (uploadLogic false).Good c) (hrun : UploadRun config c c')
    {upload : ProfileUpload} (hupload : upload ∈ c.state.db.profileUploads)
    (hfailed : upload.status = .failed) :
    ∃ upload' ∈ c'.state.db.profileUploads, upload'.id = upload.id ∧ upload'.status = .failed := by
  obtain ⟨upload', hupload', hprogress, -⟩ := (hrun.keeps hgood).rows upload hupload
  exact ⟨upload', hupload', hprogress.id, (hprogress.failed hfailed).1⟩

/-- The object store and its clients do not write the database. -/
theorem StoreStep.keeps_db {before after : World} (h : StoreStep before after) : after.db = before.db := by
  cases h with
  | moves hmoves => exact (requestsMove hmoves).db
  | staged key staging => rfl

/-- A row that a step changes is one that a call takes through a step of its own. -/
theorem evolves_of_changed (hgood : (uploadLogic false).Good c)
    (hstep : Step (uploadSystem config) c c') {upload upload' : ProfileUpload}
    (hupload : upload ∈ c.state.db.profileUploads)
    (hupload' : upload' ∈ c'.state.db.profileUploads) (hid : upload'.id = upload.id)
    (hchanged : upload' ≠ upload) :
    ∃ (pid : ℕ) (thread : Thread World UploadRequest Failure Unit),
      c.threads[pid]? = some thread ∧
      UploadEvolves (stepEffects thread.request c.state) upload upload' := by
  have hinv := hgood.invariant.1.uploads
  have hinv' := ((sound config false).step hgood hstep fun h => by cases h).invariant.1.uploads
  -- A step that leaves the table alone leaves the row as it is.
  have hmoved : c'.state.db ≠ c.state.db := by
    intro hsame
    rw [hsame] at hupload'
    exact hchanged (hinv.eq_of_id hupload' hupload hid)
  rcases Logic.Sound.step_cases hgood hstep (fun h => by cases h) with
    hsame | ⟨pid, thread, hthread, hguar⟩ | ⟨pid, hrolled⟩ | hstore
  · exact absurd (congrArg World.db hsame) hmoved
  · exact ⟨pid, thread, hthread, hguar.rows.step_of_key hinv'.constraints.id_unique
      (fun h => h.progress.id) hupload hupload' hid⟩
  · exact absurd (congrArg World.db hrolled) hmoved
  · exact absurd hstore.keeps_db hmoved

/-- Only an erasure of its owner takes an upload out of the verified state. -/
theorem erased_of_left_verified (hgood : (uploadLogic false).Good c)
    (hstep : Step (uploadSystem config) c c') {upload upload' : ProfileUpload}
    (hupload : upload ∈ c.state.db.profileUploads) (hverified : upload.status = .verified)
    (hupload' : upload' ∈ c'.state.db.profileUploads) (hid : upload'.id = upload.id)
    (hleft : upload'.status ≠ .verified) :
    ∃ (pid : ℕ) (input : DeletionJobInput) (rest : Prog World UploadRequest Failure Unit),
      c.threads[pid]? = some ⟨.anonymizeDeletedAccount input, rest⟩ ∧
        input.userId = upload.userId ∧ CurrentClaim input c.state.db := by
  have hchanged : upload' ≠ upload := by
    rintro rfl
    exact hleft hverified
  obtain ⟨pid, ⟨request, rest⟩, hthread, hevolves⟩ :=
    evolves_of_changed hgood hstep hupload hupload' hid hchanged
  obtain ⟨input, rfl, howner, hclaim⟩ := hevolves.erases hverified hleft
  exact ⟨pid, input, rest, hthread, howner, hclaim⟩

/-- An update that finds no row changes nothing, whether or not it throws. -/
theorem updateUploads_of_none {β : Type} {cond : ProfileUpload → Bool}
    {set : ProfileUpload → ProfileUpload}
    {rest : List ProfileUpload × Database → Except Failure (β × Database)}
    (hnone : ∀ upload ∈ db.profileUploads, ¬ cond upload)
    (hrest : ∀ rows written value db', rest (rows, written) = .ok (value, db') → db' = written) :
    Transaction.commit (fun db => updateUploads cond set db >>= rest) db = db := by
  rcases commit_cases (fun db => updateUploads cond set db >>= rest) db with
    ⟨value, hcall⟩ | ⟨-, hcommit⟩
  · obtain ⟨⟨rows, written⟩, hupdate, hcall⟩ := bind_eq_ok_iff.1 hcall
    obtain ⟨written', hwrite, hupdate⟩ := bind_eq_ok_iff.1 hupdate
    obtain ⟨-, rfl⟩ := Prod.mk.inj (pure_eq_ok_iff.1 hupdate)
    obtain ⟨-, rfl⟩ := writeUploads_eq_ok_iff.1 hwrite
    rw [hrest rows _ value _ hcall, updateWhere_of_forall_not hnone]
  · exact hcommit

/-- A finalizer without the current lease finds no row. -/
theorem not_hasLease {upload : ProfileUpload} {uploadId : Uuid} {lease : Timestamp}
    (hinv : UploadsInvariant db) (hupload : upload ∈ db.profileUploads) (hid : upload.id = uploadId)
    (hstale : upload.processingLeaseExpiresAt ≠ some lease) :
    ∀ row ∈ db.profileUploads, ¬ hasLease uploadId lease row := by
  intro row hrow hlease
  obtain ⟨hrowId, -, hheld⟩ := status_of_hasLease hlease
  obtain rfl := hinv.eq_of_id hrow hupload (hrowId.trans hid.symm)
  exact hstale hheld

/-- In every run, an upload row is complete when verified and protected while it is
processed; no statement fails on the check of the table; a failed upload stays failed,
and a verified one stays verified until its owner is erased; and a finalizer whose
lease is not the row's changes nothing. -/
theorem upload_life_cycle (hnew : NoUploads db)
    (hrun : UploadRun config (.idle (.ofDatabase db)) c) :
    (∀ upload ∈ c.state.db.profileUploads,
      (upload.status = .verified → upload.finalKey ≠ none ∧ upload.publicUrl ≠ none ∧
        upload.finalContentType ≠ none ∧ upload.finalSizeBytes ≠ none ∧ upload.verifiedAt ≠ none ∧
        upload.finalDeletionPendingAt = none ∧ upload.finalDeletedAt = none) ∧
      FinalDeletionState upload ∧
      (upload.status = .processing → ∃ lease, upload.processingLeaseExpiresAt = some lease ∧
        ∀ now, now < lease → cleanupDue now upload = false)) ∧
    UploadConstraints c.state.db.profileUploads ∧
    .constraint finalDeletionStateCheck ∉ c.state.rejections ∧
    (∀ c', UploadRun config c c' → ∀ upload ∈ c.state.db.profileUploads, upload.status = .failed →
      ∃ upload' ∈ c'.state.db.profileUploads, upload'.id = upload.id ∧ upload'.status = .failed) ∧
    (∀ c', Step (uploadSystem config) c c' → ∀ upload ∈ c.state.db.profileUploads,
      upload.status = .verified → ∀ upload' ∈ c'.state.db.profileUploads, upload'.id = upload.id →
        upload'.status ≠ .verified → ∃ (pid : ℕ) (input : DeletionJobInput)
          (rest : Prog World UploadRequest Failure Unit),
            c.threads[pid]? = some ⟨.anonymizeDeletedAccount input, rest⟩ ∧
              input.userId = upload.userId ∧ CurrentClaim input c.state.db) ∧
    (∀ upload ∈ c.state.db.profileUploads, ∀ input : FinalObjectInput,
      upload.id = input.uploadId →
      upload.processingLeaseExpiresAt ≠ some input.processingLeaseExpiresAt →
        Transaction.commit (prepareFinalObject input) c.state.db = c.state.db ∧
        Transaction.commit (writeVerified input) c.state.db = c.state.db ∧
        (∀ failureCode, Transaction.commit
          (markFailed input.uploadId failureCode input.processingLeaseExpiresAt) c.state.db =
            c.state.db) ∧
        Transaction.commit
          (releaseFinalizeLease input.uploadId input.processingLeaseExpiresAt) c.state.db =
            c.state.db) := by
  have hgood := hrun.good hnew
  have hinv := hgood.invariant.1.uploads
  refine ⟨?_, hinv.constraints, hgood.invariant.1.unrejected, ?_, ?_, ?_⟩
  · intro upload hupload
    have hrow := hinv.rows upload hupload
    exact ⟨hrow.verified, hrow.state, hrow.not_due⟩
  · intro c' hrun' upload hupload hfailed
    exact hrun'.failed hgood hupload hfailed
  · intro c' hstep upload hupload hverified upload' hupload' hid hleft
    exact erased_of_left_verified hgood hstep hupload hverified hupload' hid hleft
  · intro upload hupload input hid hstale
    have hnone := not_hasLease hinv hupload hid hstale
    refine ⟨updateUploads_of_none (fun row hrow hcond => ?_) ?_, updateUploads_of_none
      (fun row hrow hcond => ?_) ?_, fun failureCode => updateUploads_of_none hnone ?_,
      updateUploads_of_none hnone ?_⟩
    · exact hnone row hrow (canPrepare_iff.1 hcond).1
    · intro rows written value db' h
      obtain ⟨-, -, h⟩ := bind_eq_ok_iff.1 h
      exact (Prod.mk.inj (Except.ok.inj h)).2.symm
    · exact hnone row hrow (canVerify_iff.1 hcond).1
    all_goals
      intro rows written value db' h
      exact (Prod.mk.inj (Except.ok.inj h)).2.symm

/-! ### Photos -/

/-- In every run, a photo that is taken from an upload shows a verified upload of its
user at its address, whose published object is stored; no delete was ever sent for
the object of a verified upload; and no photo shows an upload that has failed, is
someone else's or is queued for deletion. -/
theorem photos_resolve (hnew : NoUploads db)
    (hrun : UploadRun config (.idle (.ofDatabase db)) c) :
    (∀ photo ∈ c.state.db.userProfilePhotos, ∀ uploadId ∈ photo.uploadId,
      ∃ upload ∈ c.state.db.profileUploads, upload.id = uploadId ∧ upload.userId = photo.userId ∧
        upload.status = .verified ∧ upload.publicUrl = some photo.url ∧
          ∃ key, upload.finalKey = some key ∧ key ∈ c.state.objects) ∧
    (∀ upload ∈ c.state.db.profileUploads, upload.status = .verified → ∀ key ∈ upload.finalKey,
      ∀ request ∈ c.state.requests, request.kind = .delete → request.key ≠ key) ∧
    (∀ photo ∈ c.state.db.userProfilePhotos, ∀ upload ∈ c.state.db.profileUploads,
      photo.uploadId = some upload.id → upload.status ≠ .failed ∧ upload.userId = photo.userId ∧
        upload.finalDeletionPendingAt = none) := by
  have hinv := (hrun.good hnew).invariant.1
  refine ⟨?_, ?_, ?_⟩
  · intro photo hphoto uploadId huploadId
    obtain ⟨upload, hupload, hid, huser, hverified, hurl⟩ :=
      hinv.photos photo hphoto uploadId huploadId
    have hkey := (hinv.uploads.rows upload hupload).verified hverified
    obtain ⟨key, hkey⟩ := Option.ne_none_iff_exists'.1 hkey.1
    have hstored := hinv.stored upload hupload hverified key hkey
    exact ⟨upload, hupload, hid, huser, hverified, hurl, key, hkey, hstored⟩
  · intro upload hupload hverified key hkey request hrequest hdelete
    exact hinv.deletes.not_sent hinv.uploads hupload hkey (by simp [hverified]) hrequest hdelete
  · intro photo hphoto upload hupload hshown
    obtain ⟨shown, hmem, hid, huser, hverified, -⟩ := hinv.photos photo hphoto upload.id hshown
    obtain rfl := hinv.uploads.eq_of_id hmem hupload hid
    refine ⟨by simp [hverified], huser, ?_⟩
    exact ((hinv.uploads.rows shown hmem).verified hverified).2.2.2.2.2.1

/-! ### Orphans -/

/-- A row that is verified, or owes the deletion of its object, has this key. -/
def Accounted (key : Text) (db : Database) : Prop :=
  ∃ upload ∈ db.profileUploads, upload.finalKey = some key ∧
    (upload.status = .verified ∨
      upload.finalDeletionPendingAt ≠ none ∧ upload.finalDeletedAt = none)

/-- In every run in which no put of a published object takes effect after a delete of it,
every published object belongs to a row that is verified or owes its deletion. -/
theorem not_orphaned (hnew : NoUploads db)
    (hrun : FencedRun config (.idle (.ofDatabase db)) c) :
    ∀ id key, IsFinalKey id key → key ∈ c.state.objects → Accounted key c.state.db := by
  have hinv : (uploadLogic true).invariant (World.ofDatabase db) :=
    ⟨hnew.storeInvariant, fun _ => fenced_ofDatabase db⟩
  have hgood : (uploadLogic true).Good c := (sound config true).reachable (Logic.good_idle hinv fun _ => trivial)
    (hrun.weaken fun _ _ hfenced _ => hfenced)
  intro id key hfinal hstored
  obtain ⟨upload, hupload, hkey⟩ := ((hgood.invariant.2 rfl).named key hstored).resolve_left
    fun hstaging => hstaging.not_final id hfinal
  have hrow := hgood.invariant.1.uploads.rows upload hupload
  refine ⟨upload, hupload, hkey, ?_⟩
  by_cases hverified : upload.status = .verified
  · exact Or.inl hverified
  · refine Or.inr ⟨hrow.owed (by simp [hkey]) hverified, ?_⟩
    by_contra hdeleted
    simp [(hrow.deleted hdeleted).2] at hkey

end Runs

/-! ### One upload -/

def oneConfig : UploadConfig where
  profilePublicBaseUrl := .ok "https://photos".toList
  contentHash := fun _ => "0".toList

def oneMetadata : UploadMetadata where
  imageType := .jpeg
  sizeBytes := 1
  positive := by decide
  bounded := by decide

def oneUploadId : UuidText where
  text := "b0000000-0000-4000-8000-000000000001".toList
  wellFormed := rfl

def createdUpload : ProfileUpload := pendingUpload
  { id := oneUploadId.toUuid
    userId := leavingId
    stagingKey := stagingKey leavingId oneUploadId.toUuid .jpeg
    expectedContentType := ImageType.jpeg.contentType
    expectedSizeBytes := 1
    expiresAt := 0 + uploadUrlTtlMs
    now := 0 }

def claimedUpload : ProfileUpload := claimUpload (1 + finalizeLeaseMs) createdUpload

def oneFinalKey : Text := finalKey leavingId oneUploadId.toUuid "0".toList

def oneObject : FinalObjectInput where
  uploadId := oneUploadId.toUuid
  userId := leavingId
  finalKey := oneFinalKey
  publicUrl := "https://photos".toList ++ '/' :: oneFinalKey
  finalContentType := finalContentType
  finalSizeBytes := 1
  processingLeaseExpiresAt := 1 + finalizeLeaseMs
  now := 1

def preparedUpload : ProfileUpload := prepareUpload oneObject claimedUpload

def verifiedUpload : ProfileUpload := verifyUpload oneObject preparedUpload

def withUpload (upload : ProfileUpload) : Database := { oneAccount with profileUploads := [upload] }

/-- A state between two steps, with no locks held. -/
def between (db : Database) (objects : List Text) (requests : List StoreRequest) : World :=
  { World.ofDatabase db with objects := objects, requests := requests }

theorem putsFenced_of_objects {s t : World} (h : t.objects = s.objects) : PutsFenced s t :=
  fun _ _ _ _ hkey => h ▸ hkey

theorem noUploads_oneAccount : NoUploads oneAccount where
  uploads := rfl
  photos := fun photo hphoto => by cases hphoto

theorem FencedRun.uploadRun {config : UploadConfig} {c c' : Config World UploadRequest Failure Unit}
    (h : FencedRun config c c') : UploadRun config c c' :=
  h.weaken fun _ _ _ => trivial

/-- The threads after the upload was created, and while its object is being put. -/
def createThread : Thread World UploadRequest Failure Unit :=
  ⟨.createUpload leavingId oneMetadata, .done ()⟩

def putPending : List StoreRequest := [⟨.put, oneFinalKey, false, true⟩]

theorem UploadRun.move {config : UploadConfig} {c : Config World UploadRequest Failure Unit}
    {s t : World} {threads : List (Thread World UploadRequest Failure Unit)}
    (h : UploadRun config c ⟨s, threads⟩) (hmoves : s.StoreMoves t) :
    UploadRun config c ⟨t, threads⟩ :=
  Reachable.outside h (.moves hmoves) trivial

theorem unlocked_between (db : Database) (objects : List Text) (requests : List StoreRequest)
    (pid : ℕ) (after : Database) : (between db objects requests).Unlocked pid after :=
  World.unlocked_of_alone (fun lock hlock => by cases hlock) after

def putLanded : List StoreRequest := [⟨.put, oneFinalKey, true, true⟩]

def stagingPending : List StoreRequest :=
  putLanded ++ [⟨.delete, createdUpload.stagingKey, false, true⟩]

/-- The upload is created and finalized up to the put of its object; once that has taken
effect, the finalizer goes on to mark the upload verified. -/
theorem put_run : ∃ rest, FencedRun oneConfig (.idle (.ofDatabase oneAccount))
    ⟨between (withUpload preparedUpload) [] putPending,
      [createThread, ⟨.finalizeUpload leavingId oneUploadId, rest⟩]⟩ ∧
    Runs PutsFenced 1 rest (between (withUpload preparedUpload) [oneFinalKey] putLanded) (.done ())
      (between (withUpload verifiedUpload) [oneFinalKey] stagingPending) := by
  have hsame {s t : World} (h : t.objects = s.objects) : PutsFenced s t := putsFenced_of_objects h
  have hstart : FencedRun oneConfig (.idle (.ofDatabase oneAccount))
      ⟨between oneAccount [] [], []⟩ := Relation.ReflTransGen.refl
  have hcreated : FencedRun oneConfig (.idle (.ofDatabase oneAccount))
      ⟨between (withUpload createdUpload) [] [], [createThread]⟩ := by
    refine hstart.serve (fun _ h => by cases h) (hsame rfl) ?_
    refine .step oneUploadId.toUuid (between oneAccount [] []) rfl (hsame rfl) ?_
    refine .step 0 (between oneAccount [] []) ⟨trivial, rfl⟩ (hsame rfl) ?_
    refine .step (.ok ()) (between oneAccount [] []) rfl (hsame rfl) ?_
    exact .step (.ok createdUpload) (between (withUpload createdUpload) [] [])
      (Executes.returned rfl (unlocked_between ..)) (hsame rfl) .refl
  -- What is left of the finalizer is what its first steps leave.
  exact ⟨_, hcreated.serve (fun _ h => by cases h) (hsame rfl)
      (.step 1 (between (withUpload createdUpload) [] []) ⟨trivial, rfl⟩ (hsame rfl)
      (.step (.ok (.claimed claimedUpload)) (between (withUpload claimedUpload) [] [])
        (Executes.returned rfl (unlocked_between ..)) (hsame rfl)
      (.step (.bytes [0]) (between (withUpload claimedUpload) [] []) rfl (hsame rfl)
      (.step (some [0]) (between (withUpload claimedUpload) [] []) rfl (hsame rfl)
      (.step (.ok ()) (between (withUpload preparedUpload) [] [])
        (Executes.returned rfl (unlocked_between ..)) (hsame rfl)
      (.step 0 (between (withUpload preparedUpload) [] putPending) ⟨rfl, rfl⟩ (hsame rfl) .refl)))))),
    .step true (between (withUpload preparedUpload) [oneFinalKey] putLanded)
      (Answers.success rfl rfl) (hsame rfl)
    (.step (.ok (some verifiedUpload))
      (between (withUpload verifiedUpload) [oneFinalKey] putLanded)
      (Executes.returned rfl (unlocked_between ..)) (hsame rfl)
    (.step 1 (between (withUpload verifiedUpload) [oneFinalKey] stagingPending) ⟨rfl, rfl⟩ (hsame rfl)
    (.step false (between (withUpload verifiedUpload) [oneFinalKey] stagingPending)
      Answers.failure (hsame rfl) .refl)))⟩

def onePhotoInput : ReplaceProfileInput where
  userId := leavingId
  userName := "tea"
  birthDate := "2000-01-01"
  region := "Seoul"
  interestedGender := .everyone
  intro := ""
  photoUploadIds := [oneUploadId]

def onePhoto : UserProfilePhoto where
  id := oneUploadId.toUuid
  userId := leavingId.toUuid
  uploadId := some oneUploadId.toUuid
  url := oneObject.publicUrl
  position := 0

def withPhoto : Database :=
  { withUpload verifiedUpload with
    users := [replaceColumns onePhotoInput 2 (.visible leavingId.toUuid)]
    userProfilePhotos := [onePhoto] }

/-- The user shows a photo that is taken from the upload. -/
def photoShown : Config World UploadRequest Failure Unit where
  state := between withPhoto [oneFinalKey] stagingPending
  threads := [createThread, ⟨.finalizeUpload leavingId oneUploadId, .done ()⟩,
    ⟨.replaceProfile onePhotoInput, .done ()⟩]

theorem photoShown_run : FencedRun oneConfig (.idle (.ofDatabase oneAccount)) photoShown := by
  have hsame {s t : World} (h : t.objects = s.objects) : PutsFenced s t := putsFenced_of_objects h
  obtain ⟨rest, hrun, hfinalized⟩ := put_run
  -- No delete was sent yet, so the put may take effect.
  have hlanded : FencedRun oneConfig (.idle (.ofDatabase oneAccount))
      ⟨between (withUpload preparedUpload) [oneFinalKey] putLanded,
        [createThread, ⟨.finalizeUpload leavingId oneUploadId, rest⟩]⟩ := by
    have hlands : World.StoreMoves (between (withUpload preparedUpload) [] putPending)
        (between (withUpload preparedUpload) [oneFinalKey] putLanded) :=
      @World.StoreMoves.lands _ 0 ⟨.put, oneFinalKey, false, true⟩ rfl rfl
    refine Relation.ReflTransGen.tail hrun ⟨.environment (.moves hlands), ?_⟩
    rintro id key - ⟨request, hrequest, hdelete, -⟩
    obtain rfl := List.mem_singleton.1 hrequest
    cases hdelete
  have hverified : FencedRun oneConfig (.idle (.ofDatabase oneAccount))
      ⟨between (withUpload verifiedUpload) [oneFinalKey] stagingPending,
        [createThread, ⟨.finalizeUpload leavingId oneUploadId, .done ()⟩]⟩ :=
    Relation.ReflTransGen.trans hlanded (hfinalized.reachable _ rfl)
  let before : World := between (withUpload verifiedUpload) [oneFinalKey] stagingPending
  let shared : World := before.withLocks [⟨2, .share, .upload oneUploadId.toUuid⟩]
  let locked : World := before.withLocks
    [⟨2, .noKeyUpdate, .user leavingId.toUuid⟩, ⟨2, .share, .upload oneUploadId.toUuid⟩]
  have hbefore : ∀ lock ∈ before.locks, lock.holder = 2 := fun lock hlock => by cases hlock
  have hshared : ∀ lock ∈ shared.locks, lock.holder = 2 := by decide
  have hlocked : ∀ lock ∈ locked.locks, lock.holder = 2 := by decide
  refine hverified.serve (fun _ h => by cases h) (hsame rfl) ?_
  refine .step 2 before ⟨trivial, rfl⟩ (hsame rfl) ?_
  refine .step (.ok [verifiedUpload]) shared (Selects.locked fun _ _ => free_of_alone hbefore)
    (hsame rfl) ?_
  refine .step (.ok []) shared (Selects.locked fun _ _ => free_of_alone hshared) (hsame rfl) ?_
  refine .step (.ok true) locked (Selects.locked fun _ _ => free_of_alone hshared) (hsame rfl) ?_
  refine .step (fun _ => oneUploadId.toUuid) locked rfl (hsame rfl) ?_
  exact .step (.ok [onePhoto]) (between withPhoto [oneFinalKey] stagingPending)
    (Commits.committed rfl (World.unlocked_of_alone hlocked withPhoto)) (hsame rfl) .refl

/-- The upload of the photo is complete, and stays verified until its owner is erased. -/
theorem upload_life_cycle_photoShown :
    UploadRun oneConfig (.idle (.ofDatabase oneAccount)) photoShown ∧
      verifiedUpload.finalKey ≠ none ∧
      ∀ c', Step (uploadSystem oneConfig) photoShown c' → ∀ upload ∈ c'.state.db.profileUploads,
        upload.id = verifiedUpload.id → upload.status ≠ .verified →
          ∃ (pid : ℕ) (input : DeletionJobInput) (rest : Prog World UploadRequest Failure Unit),
            photoShown.threads[pid]? = some ⟨.anonymizeDeletedAccount input, rest⟩ ∧
              input.userId = leavingId.toUuid ∧ CurrentClaim input withPhoto := by
  have hrun := photoShown_run.uploadRun
  obtain ⟨hrows, -, -, -, hleft, -⟩ := upload_life_cycle noUploads_oneAccount hrun
  have hmem : verifiedUpload ∈ photoShown.state.db.profileUploads := List.mem_singleton_self _
  exact ⟨hrun, ((hrows _ hmem).1 rfl).1, fun c' hstep => hleft c' hstep _ hmem rfl⟩

/-- The photo shows the upload, whose object is stored. -/
theorem photos_resolve_photoShown :
    UploadRun oneConfig (.idle (.ofDatabase oneAccount)) photoShown ∧
      ∃ upload ∈ photoShown.state.db.profileUploads, upload.id = oneUploadId.toUuid ∧
        upload.publicUrl = some onePhoto.url ∧
          ∃ key, upload.finalKey = some key ∧ key ∈ photoShown.state.objects := by
  have hrun := photoShown_run.uploadRun
  obtain ⟨upload, hupload, hid, -, -, hurl, hkey⟩ :=
    (photos_resolve noUploads_oneAccount hrun).1 onePhoto (List.mem_singleton_self _)
      oneUploadId.toUuid rfl
  exact ⟨hrun, upload, hupload, hid, hurl, hkey⟩

/-- The published object belongs to the upload. -/
theorem not_orphaned_photoShown :
    FencedRun oneConfig (.idle (.ofDatabase oneAccount)) photoShown ∧
      oneFinalKey ∈ photoShown.state.objects ∧ Accounted oneFinalKey photoShown.state.db := by
  have hstored : oneFinalKey ∈ photoShown.state.objects := List.mem_singleton_self _
  exact ⟨photoShown_run, hstored, not_orphaned noUploads_oneAccount photoShown_run
    oneUploadId.toUuid oneFinalKey ⟨leavingId, _, rfl⟩ hstored⟩

/-! ### A put that comes late -/

def cleaningUpload : ProfileUpload := claimForCleanup (1000000 + cleanupLeaseMs) preparedUpload

def cleaningJob : CleanupJob := ⟨cleaningUpload, 1000000⟩

def cleanedUpload : ProfileUpload := recordCleanup
  { uploadId := oneUploadId.toUuid
    cleanupLeaseExpiresAt := 1000000 + cleanupLeaseMs
    stagingDeleted := true
    finalDeleted := true
    nextAttemptAt := none
    now := 1000000 } cleaningUpload

/-- The put of the finalizer and the deletes of the worker, landed or not, in flight or not. -/
def threeRequests (putLanded stagingLanded finalLanded inFlight : Bool) : List StoreRequest :=
  [⟨.put, oneFinalKey, putLanded, inFlight⟩,
    ⟨.delete, createdUpload.stagingKey, stagingLanded, inFlight⟩,
    ⟨.delete, oneFinalKey, finalLanded, inFlight⟩]

/-- The put of a finalizer whose lease has expired takes effect after the cleanup has
deleted the object and recorded it: the object stays, and no row has its key. -/
theorem late_put_run : ∃ threads, UploadRun oneConfig (.idle (.ofDatabase oneAccount))
    ⟨between (withUpload cleanedUpload) [oneFinalKey] (threeRequests true true true false),
      threads⟩ := by
  obtain ⟨rest, hrun, -⟩ := put_run
  let finalizer : Thread World UploadRequest Failure Unit :=
    ⟨.finalizeUpload leavingId oneUploadId, rest⟩
  -- The worker claims the row and starts its job.
  have hclaimed : ∃ thread, UploadRun oneConfig (.idle (.ofDatabase oneAccount))
      ⟨between (withUpload cleaningUpload) [] putPending, [createThread, finalizer, thread,
        ⟨.cleanupJob cleaningJob, uploadCode oneConfig (.cleanupJob cleaningJob)⟩]⟩ := by
    have hcandidates : CleanupCandidates ⟨1000000, 1000000 + cleanupLeaseMs, 1⟩
        (withUpload preparedUpload) [preparedUpload] := by
      refine ⟨fun upload hupload => ?_, List.nodup_singleton _, Nat.le_refl _⟩
      obtain rfl := List.mem_singleton.1 hupload
      exact ⟨List.mem_singleton_self _, by decide⟩
    have haccepted : (uploadSystem oneConfig).accepts (.cleanupExpiredStagingBatch 1000000 1) :=
      fun _ h => by cases h
    have hserved := hrun.uploadRun.serve haccepted trivial
      (.step (.ok ⟨[cleaningUpload], false⟩) (between (withUpload cleaningUpload) [] putPending)
        ⟨_, hcandidates, Executes.returned rfl (unlocked_between ..)⟩ trivial .refl)
    exact ⟨_, hserved.spawn trivial⟩
  obtain ⟨worker, hclaimed⟩ := hclaimed
  -- It sends both deletes; they take effect, it records that, and the late put lands.
  have hcleaned : ∃ waiting done, Runs (fun _ _ : World => True) 3
      (uploadCode oneConfig (.cleanupJob cleaningJob))
      (between (withUpload cleaningUpload) [] putPending) waiting
      (between (withUpload cleaningUpload) [] (threeRequests false false false true)) ∧
    Runs (fun _ _ : World => True) 3 waiting
      (between (withUpload cleaningUpload) [] (threeRequests false true true true)) done
      (between (withUpload cleanedUpload) [] (threeRequests false true true true)) := by
    exact ⟨_, _,
      .step 1 (between (withUpload cleaningUpload) []
          (putPending ++ [⟨.delete, createdUpload.stagingKey, false, true⟩])) ⟨rfl, rfl⟩ trivial
        (.step 2 (between (withUpload cleaningUpload) [] (threeRequests false false false true))
          ⟨rfl, rfl⟩ trivial .refl),
      .step true (between (withUpload cleaningUpload) [] (threeRequests false true true true))
          (Answers.success rfl rfl) trivial
        (.step true (between (withUpload cleaningUpload) [] (threeRequests false true true true))
          (Answers.success rfl rfl) trivial
        (.step (.ok ()) (between (withUpload cleanedUpload) [] (threeRequests false true true true))
          (Executes.returned rfl (unlocked_between ..)) trivial .refl))⟩
  obtain ⟨waiting, done, hsent, hrecorded⟩ := hcleaned
  have hwaiting : UploadRun oneConfig _ ⟨_, _⟩ :=
    Relation.ReflTransGen.trans hclaimed (hsent.reachable _ rfl)
  have hdeleted := (hwaiting.move (@World.StoreMoves.lands
    (between (withUpload cleaningUpload) [] (threeRequests false false false true)) 1
    ⟨.delete, createdUpload.stagingKey, false, true⟩ rfl rfl)).move (@World.StoreMoves.lands
    (between (withUpload cleaningUpload) [] (threeRequests false true false true)) 2
    ⟨.delete, oneFinalKey, false, true⟩ rfl rfl)
  have hdone : UploadRun oneConfig _ ⟨_, _⟩ :=
    Relation.ReflTransGen.trans hdeleted (hrecorded.reachable _ rfl)
  have hlate := hdone.move (@World.StoreMoves.lands
    (between (withUpload cleanedUpload) [] (threeRequests false true true true)) 0
    ⟨.put, oneFinalKey, false, true⟩ rfl rfl)
  have hsettled := ((hlate.move (@World.StoreMoves.settles
    (between (withUpload cleanedUpload) [oneFinalKey] (threeRequests true true true true)) 0
    ⟨.put, oneFinalKey, true, true⟩ rfl)).move (@World.StoreMoves.settles _ 1
    ⟨.delete, createdUpload.stagingKey, true, true⟩ rfl)).move (@World.StoreMoves.settles _ 2
    ⟨.delete, oneFinalKey, true, true⟩ rfl)
  exact ⟨_, hsettled⟩

/-- So an object may be orphaned with no request in flight. -/
theorem late_put_orphaned : ¬ ∀ config db c, NoUploads db →
    UploadRun config (.idle (.ofDatabase db)) c →
      (∀ request ∈ c.state.requests, request.inFlight = false) →
        ∀ id key, IsFinalKey id key → key ∈ c.state.objects → Accounted key c.state.db := by
  intro h
  obtain ⟨threads, hrun⟩ := late_put_run
  have hquiet : ∀ request ∈ threeRequests true true true false, request.inFlight = false := by
    simp [threeRequests]
  obtain ⟨upload, hupload, hkey, -⟩ := h oneConfig oneAccount _ noUploads_oneAccount hrun hquiet
    oneUploadId.toUuid oneFinalKey ⟨leavingId, _, rfl⟩ (List.mem_singleton_self _)
  obtain rfl := List.mem_singleton.1 hupload
  cases hkey

end ChatTea.Upload
