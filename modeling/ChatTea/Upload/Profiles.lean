import ChatTea.Upload.Safety
import ChatTea.Upload.Steps
import ChatTea.Users.Resubmit

/-!
# Profiles in every run

The photos of all users keep their invariant in every run, and a step of `replaceProfile`
changes nothing or leaves the photos that were named. The identifiers of new uploads come from
`randomUUID`, so the runs are those in which such an identifier passes the validation and is not
the one of a photo.

## Main definitions

* `DrawsFresh` — what the identifier of a new upload is
* `replacementLogic` — the invariant of the photos, and what a step of a replacement does

## Main results

* `replacement_sound` — every program keeps the invariant
* `profile_replacement` — replacing a profile is exact and atomic, and what is shown may be sent
  back
-/

namespace ChatTea.Upload

open Interleaving Ordered RowLocks Table Transaction Users

/-- The identifier of a new upload passes the validation, and no photo without an upload has
it. -/
def DrawsFresh (isUuid : Text → Bool) (before after : Database) : Prop :=
  ∀ upload ∈ after.profileUploads, (∀ old ∈ before.profileUploads, old.id ≠ upload.id) →
    isUuid upload.id.text ∧
      ∀ photo ∈ before.userProfilePhotos, photo.uploadId = none → photo.id ≠ upload.id

/-- Writes that keep the invariant of the photos if they store fresh uploads only. -/
def KeepsPhotos (isUuid : Text → Bool) (before after : Database) : Prop :=
  DrawsFresh isUuid before after → PhotosInvariant isUuid before → PhotosInvariant isUuid after

section Calls

variable {isUuid : Text → Bool} {β : Type} {call : Call Database Failure β}

theorem keepsPhotos_refl (db : Database) : KeepsPhotos isUuid db db := fun _ h => h

theorem UpdatesUploads.keepsPhotos (h : UpdatesUploads call) :
    WritesOnly (KeepsPhotos isUuid) call := by
  intro db value db' hok _ hinv
  obtain ⟨uploads, hkept, rfl⟩ := h db value db' hinv.rows hok
  exact hinv.of_sublist hkept.ids (.refl _) fun _ => Or.inl rfl

theorem keepsPhotos_of_frame
    (h : ∀ db value db', call db = .ok (value, db') →
      db'.profileUploads = db.profileUploads ∧ db'.userProfilePhotos = db.userProfilePhotos) :
    WritesOnly (KeepsPhotos isUuid) call := by
  intro db value db' hok _ hinv
  obtain ⟨huploads, hphotos⟩ := h db value db' hok
  refine hinv.of_sublist (congrArg _ huploads) ?_ fun userId => Or.inl ?_
  · rw [hphotos]
  · unfold photosOf
    rw [hphotos]

/-- An erasure takes all photos of the account. -/
theorem writeAnonymized_keepsPhotos {input : DeletionJobInput} {matchRooms : List RowId} :
    WritesOnly (KeepsPhotos isUuid) (writeAnonymized input matchRooms) := by
  intro db value db' hok _ hinv
  have hphotos := (writeAnonymized_ok hok).photos
  refine hinv.of_sublist (writeAnonymized_kept db value db' hinv.rows hok).ids ?_ fun userId => ?_
  · rw [hphotos]
    exact List.filter_sublist
  · unfold photosOf
    rw [hphotos, List.filter_filter]
    by_cases hsame : userId = input.userId
    · right
      apply List.filter_eq_nil_iff.2
      simp [hsame]
    · left
      apply List.filter_congr
      intro photo _
      by_cases howner : photo.userId = userId <;> simp [howner, hsame]

/-- The identifier of a new upload is fresh. -/
theorem createPending_keepsPhotos {input : CreatePendingInput} :
    WritesOnly (KeepsPhotos isUuid) (createPending input) := by
  intro db value db' hok hfresh hinv
  obtain ⟨hunique, rfl⟩ := createPending_ok hok
  have hnew : ∀ old ∈ db.profileUploads, old.id ≠ (pendingUpload input).id := by
    unfold UniqueKey at hunique
    rw [List.map_append, List.nodup_append] at hunique
    intro old hold
    exact hunique.2.2 _ (List.mem_map.2 ⟨old, hold, rfl⟩) _ (List.mem_singleton_self _)
  obtain ⟨hvalid, hapart⟩ := hfresh (pendingUpload input)
    (List.mem_append_right _ (List.mem_singleton_self _)) hnew
  obtain ⟨hids, huploads, hplaces, hpositions, hnumbered, hstored, haddressed, -, hapart', hvalidPhotos,
    hvalidUploads⟩ := hinv
  refine ⟨hids, huploads, hplaces, hpositions, hnumbered, ?_, haddressed, hunique, ?_, hvalidPhotos, ?_⟩
  · intro photo hphoto uploadId huploadId
    obtain ⟨upload, hupload, hid⟩ := hstored photo hphoto uploadId huploadId
    exact ⟨upload, List.mem_append_left _ hupload, hid⟩
  · intro photo hphoto hbare upload hupload
    rcases List.mem_append.1 hupload with hold | hcreated
    · exact hapart' photo hphoto hbare upload hold
    · obtain rfl := List.mem_singleton.1 hcreated
      exact hapart photo hphoto hbare
  · intro upload hupload
    rcases List.mem_append.1 hupload with hold | hcreated
    · exact hvalidUploads upload hold
    · obtain rfl := List.mem_singleton.1 hcreated
      exact hvalid

theorem photosCalls : CallsWrite (KeepsPhotos isUuid) where
  claimFinalize _ := claimFinalize_kept.keepsPhotos
  prepareFinalObject _ := prepareFinalObject_kept.keepsPhotos
  writeVerified _ := writeVerified_kept.keepsPhotos
  markFailed _ _ _ := markFailed_kept.keepsPhotos
  releaseFinalizeLease _ _ := releaseFinalizeLease_kept.keepsPhotos
  markStagingDeleted _ _ := markStagingDeleted_kept.keepsPhotos
  claimCleanupBatch _ _ := claimCleanupBatch_kept.keepsPhotos
  applyCleanupResult _ := applyCleanupResult_kept.keepsPhotos
  writeSchedule _ _ _ _ _ _ _ := keepsPhotos_of_frame fun _ _ _ => writeSchedule_frame
  restoreScheduledDeletion _ _ := by
    apply keepsPhotos_of_frame
    intro db value db' hok
    obtain ⟨-, rfl⟩ := Prod.mk.inj (Except.ok.inj hok)
    exact ⟨rfl, rfl⟩
  claimDueDeletionBatch _ _ := keepsPhotos_of_frame fun _ _ _ => claimDueDeletionBatch_frame
  releaseDeletionLease _ := by
    apply keepsPhotos_of_frame
    intro db value db' hok
    obtain ⟨-, rfl⟩ := Prod.mk.inj (Except.ok.inj hok)
    exact ⟨rfl, rfl⟩
  writeAnonymized _ _ := writeAnonymized_keepsPhotos

end Calls

/-! ### The logic of the photos -/

/-- A step keeps what the other threads have locked, and one of a replacement changes nothing or
leaves the photos that were named. -/
structure ReplacementStep (request : UploadRequest) (pid : ℕ) (before after : World) : Prop where
  others : ∀ other, other ≠ pid → World.KeepsLocked other before after
  replaces : ∀ input, request = .replaceProfile input →
    after.db = before.db ∨ Replaced input before.db after.db

def replacementLogic (isUuid : Text → Bool) : Logic World UploadRequest Failure Unit where
  invariant w := PhotosInvariant isUuid w.db
  rely := World.KeepsLocked
  guarantee := ReplacementStep
  allowed before after := DrawsFresh isUuid before.db after.db
  requires _ _ := True
  ensures _ _ _ _ := True
  rely_refl := .refl
  rely_trans h h' := h.trans h'
  guarantee_refl _ _ w := ⟨fun other _ => .refl other w, fun _ _ => Or.inl rfl⟩
  rely_of_guarantee hother h := h.others _ hother

section Logic

variable {isUuid : Text → Bool} {config : UploadConfig} {request : UploadRequest} {pid : ℕ}
  {w : World}

theorem replacement_lockNeutral : LockNeutral (replacementLogic isUuid) request where
  acquire := fun hinv _ =>
    ⟨hinv, fun _ _ => .of_db_eq rfl Holds.acquire, fun _ _ => Or.inl rfl⟩
  unlock := fun hinv => ⟨hinv, fun _ hother => .of_db_eq rfl fun h => h.release (Ne.symm hother),
    fun _ _ => Or.inl rfl⟩
  rely := id

theorem replacement_later_true : (replacementLogic isUuid).Later pid (fun _ => True) w :=
  fun _ _ _ => trivial

/-- The commit finds what the photos are taken from as the selects have locked it. -/
theorem replacement_replaceProfile {input : ReplaceProfileInput} :
    (replacementLogic isUuid).Holds (.replaceProfile input) pid (replaceProfile input)
      (fun _ _ => True) (fun _ _ => True) w := by
  refine holds_replacement replacement_lockNeutral
    (fun now uploads legacyRows photos drawn w hphotos hlocked => ?_)
    fun _ _ => replacement_later_true
  refine holds_commit _ hlocked ?_ ?_ fun _ _ _ _ => replacement_later_true
  · intro before inserted db hbefore hinv hcall hunlocked _
    refine ⟨PhotosInvariant.write hinv hbefore.stored hphotos hcall, ⟨fun other hother => ?_, ?_⟩,
      replacement_later_true, fun _ => replacement_later_true⟩
    · exact .of_unlocked hunlocked hother fun hheld => hheld.release (Ne.symm hother)
    · intro input' hinput
      obtain rfl := UploadRequest.replaceProfile.inj hinput
      exact Or.inr (PhotosInvariant.replaced hinv hbefore.stored hphotos hcall)
  · intro before failure _ hinv _
    exact ⟨hinv, ⟨fun _ _ => .of_db_eq rfl id, fun _ _ => Or.inl rfl⟩, replacement_later_true⟩

/-- What a step of any other call does. -/
def PhotosStep (isUuid : Text → Bool) (pid : ℕ) (before after : World) : Prop :=
  (∀ other, other ≠ pid → World.KeepsLocked other before after) ∧
    KeepsPhotos isUuid before.db after.db

theorem photosKind : StepKind pid (KeepsPhotos isUuid) (PhotosStep isUuid pid) :=
  kind_of_callStep keepsPhotos_refl fun hstep => ⟨hstep.others, hstep.writes⟩

theorem replacement_uploadCode :
    (replacementLogic isUuid).Holds request pid (uploadCode config request) (fun _ _ => True)
      (fun _ _ => True) w := by
  have hothers (hreplaces : ∀ input, request ≠ .replaceProfile input)
      (htakes : (uploadCode config request).Takes (PhotosStep isUuid pid) pid) :
      (replacementLogic isUuid).Holds request pid (uploadCode config request) (fun _ _ => True)
        (fun _ _ => True) w := by
    refine Logic.holds_of_takes htakes (fun hinv hfresh hstep => ?_) fun _ _ => trivial
    exact ⟨hstep.2 hfresh hinv, hstep.1, fun input h => absurd h (hreplaces input)⟩
  have hcalls (hcreates : ∀ userId metadata, request ≠ .createUpload userId metadata)
      (hreplaces : ∀ input, request ≠ .replaceProfile input) :
      (uploadCode config request).Takes (PhotosStep isUuid pid) pid :=
    takes_uploadCode photosKind photosCalls
      (fun _ _ => ⟨fun _ _ => .of_db_eq rfl id, keepsPhotos_refl _⟩) hcreates
      fun input h => absurd h (hreplaces input)
  cases request with
  | replaceProfile input =>
      refine Logic.Holds.bind (replacement_replaceProfile.mono (fun _ _ _ _ => ?_) fun _ _ _ h => h)
      exact Logic.holds_pure replacement_later_true
  | createUpload userId metadata =>
      apply hothers (fun _ h => by cases h)
      exact (stays_createUpload photosKind fun _ => createPending_keepsPhotos).takes.bind
        fun _ => trivial
  | _ => exact hothers (fun _ h => by cases h) (hcalls (fun _ _ h => by cases h) fun _ h => by cases h)

theorem replacement_sound (config : UploadConfig) :
    (replacementLogic isUuid).Sound (uploadSystem config) where
  accepts := fun _ _ => trivial
  code := fun pid _ _ _ => replacement_uploadCode
  environment := by
    intro before after h _ hinv
    have hsame : after.db = before.db ∧ after.locks = before.locks := by
      cases h with
      | moves hmoves => cases hmoves <;> exact ⟨rfl, rfl⟩
      | staged key staging => exact ⟨rfl, rfl⟩
    refine ⟨?_, fun pid => .of_db_eq hsame.1 fun hheld => by rwa [hsame.2]⟩
    change PhotosInvariant isUuid after.db
    rwa [hsame.1]
  rollback := fun {before pid} hinv =>
    ⟨hinv, fun other hother => World.keepsLocked_rollback pid before hother⟩

end Logic

/-! ### Every run -/

/-- A run in which the identifiers of new uploads are fresh. -/
def FreshRun (isUuid : Text → Bool) (config : UploadConfig)
    (c c' : Config World UploadRequest Failure Unit) : Prop :=
  Reachable (uploadSystem config) (fun before after => DrawsFresh isUuid before.db after.db) c c'

section Runs

variable {isUuid : Text → Bool} {config : UploadConfig} {db : Database} {pid : ℕ}
  {c : Config World UploadRequest Failure Unit}

theorem FreshRun.good (hphotos : PhotosInvariant isUuid db)
    (hrun : FreshRun isUuid config (.idle (.ofDatabase db)) c) :
    (replacementLogic isUuid).Good c := by
  have hstart : (replacementLogic isUuid).invariant (World.ofDatabase db) := hphotos
  exact (replacement_sound config).reachable (Logic.good_idle hstart fun _ => trivial) hrun

/-- A replacement stores no upload. -/
theorem FreshRun.uploads_eq (hrun : FreshRun isUuid config (.idle (.ofDatabase db)) c)
    {input : ReplaceProfileInput} {β : Type} {act : ℕ → World → β → World → Prop}
    {next : β → Prog World UploadRequest Failure Unit} {reply : β} {after : World}
    (hthread : c.threads[pid]? = some ⟨.replaceProfile input, .step act next⟩)
    (hact : act pid c.state reply after) :
    after.db.profileUploads = c.state.db.profileUploads := by
  let kind (before after : World) : Prop := after.db.profileUploads = before.db.profileUploads
  have hkind (pid : ℕ) :
      StepKind pid (fun before after => after.profileUploads = before.profileUploads) kind :=
    kind_of_callStep (fun _ => rfl) fun hstep => hstep.writes
  let takes (pid : ℕ) (thread : Thread World UploadRequest Failure Unit) : Prop :=
    ∀ input, thread.request = .replaceProfile input → thread.rest.Takes kind pid
  have hcode (pid : ℕ) (request : UploadRequest) : takes pid ⟨request, uploadCode config request⟩ := by
    intro input hinput
    obtain rfl : request = .replaceProfile input := hinput
    refine Prog.Takes.bind (stays_replaceProfile (hkind pid) input
      fun _ _ _ _ _ _ _ _ _ hok => ?_).takes fun _ => trivial
    exact (writeProfile_ok hok).1
  have htakes : takes pid ⟨.replaceProfile input, .step act next⟩ :=
    hrun.threads takes hcode (fun _ _ _ _ _ reply h input hinput => (h input hinput).2 reply)
      (fun _ _ _ _ h => h) (fun _ _ _ _ => trivial) (fun _ _ h => by cases h) pid _ hthread
  exact (htakes input rfl).1 _ _ _ hact

/-- In every run, if `replaceProfile` succeeds, the photos of the user are the items that the
identifiers name, in their order; identifiers that are unknown, of someone else, of an upload
that is not verified or repeated, also in another case, are refused, and nothing changes; a step
of it that comes between those of other calls changes nothing or leaves the photos that were
named; and the identifiers under which the photos are shown pass the validation and are
accepted, and what is shown stays the same. -/
theorem profile_replacement (hnew : NoUploads db) (hphotos : PhotosInvariant isUuid db)
    (hrun : FreshRun isUuid config (.idle (.ofDatabase db)) c) :
    (∀ (input : ReplaceProfileInput) (pid : ℕ),
      (replaceProfile input : Prog World UploadRequest Failure (List UserProfilePhoto)).Alone pid
        (fun photos after => Replaced input c.state.db after.db ∧
          photos = findProfilePhotos input.userId.toUuid after.db)
        (fun _ after => after.db = c.state.db ∨ Replaced input c.state.db after.db) c.state) ∧
    (∀ (input : ReplaceProfileInput) (pid : ℕ),
      (¬ (input.photoUploadIds.map UuidText.toUuid).Nodup ∨
        ∃ authorityId ∈ input.photoUploadIds,
          ¬ Referable c.state.db input.userId.toUuid authorityId.toUuid) →
      (replaceProfile input : Prog World UploadRequest Failure (List UserProfilePhoto)).Alone pid
        (fun _ _ => False) (fun _ after => after.db = c.state.db) c.state) ∧
    (∀ (pid : ℕ) (input : ReplaceProfileInput) (β : Type) (act : ℕ → World → β → World → Prop)
      (next : β → Prog World UploadRequest Failure Unit) (reply : β) (after : World),
      c.threads[pid]? = some ⟨.replaceProfile input, .step act next⟩ →
      act pid c.state reply after → after.db = c.state.db ∨ Replaced input c.state.db after.db) ∧
    ∀ (input : ReplaceProfileInput), Resubmits input c.state.db →
      findProfilePhotos input.userId.toUuid c.state.db ≠ [] →
      c.state.db.hasUser input.userId.toUuid →
        validatePhotoUploadIds isUuid (input.photoUploadIds.map UuidText.text) =
          .ok (input.photoUploadIds.map UuidText.text) ∧
        (∀ now drawn,
          FreshIds drawn (findProfilePhotos input.userId.toUuid c.state.db).length c.state.db →
          ∃ photos after, replaceProfileNow input now drawn c.state.db = .ok (photos, after) ∧
            ∀ pid, Returns pid
              (replaceProfile input : Prog World UploadRequest Failure (List UserProfilePhoto))
              (.ofDatabase c.state.db) photos after) ∧
        ∀ pid,
          (replaceProfile input : Prog World UploadRequest Failure (List UserProfilePhoto)).Alone pid
            (fun _ after => shownPhotos input.userId.toUuid after.db =
              shownPhotos input.userId.toUuid c.state.db)
            (fun _ after => shownPhotos input.userId.toUuid after.db =
              shownPhotos input.userId.toUuid c.state.db) c.state := by
  have hgood := hrun.good hphotos
  have hinv : PhotosInvariant isUuid c.state.db := hgood.invariant
  have hresolves : ∀ photo ∈ c.state.db.userProfilePhotos, Resolves c.state.db.profileUploads photo := by
    have hupload : UploadRun config (.idle (.ofDatabase db)) c := hrun.weaken fun _ _ _ => trivial
    exact (hupload.good hnew).invariant.1.photos
  refine ⟨fun input pid => ?_, fun input pid hbad => ?_, ?_, fun input hinput hshown huser => ?_⟩
  · apply (alone_replaceProfile rfl).mono
    · rintro photos after ⟨now, drawn, hcall⟩
      exact ⟨hinv.replaced_now hcall, inserted_of_now hcall⟩
    · rintro failure after (hsame | ⟨now, drawn, photos, hcall⟩)
      · exact Or.inl hsame
      · exact Or.inr (hinv.replaced_now hcall)
  · have hrefused {after : Database} (h : Replaced input c.state.db after) : False := by
      rcases hbad with hrepeated | ⟨authorityId, hmem, hunknown⟩
      · exact hrepeated h.distinct
      · exact hunknown (h.referable authorityId hmem)
    apply (alone_replaceProfile rfl).mono
    · rintro photos after ⟨now, drawn, hcall⟩
      exact hrefused (hinv.replaced_now hcall)
    · rintro failure after (hsame | ⟨now, drawn, photos, hcall⟩)
      · exact hsame
      · exact (hrefused (hinv.replaced_now hcall)).elim
  · intro pid input β act next reply after hthread hact
    have hfresh : DrawsFresh isUuid c.state.db after.db := by
      intro upload hupload hnew
      rw [hrun.uploads_eq hthread hact] at hupload
      exact absurd rfl (hnew upload hupload)
    exact (Logic.Sound.guarantee hgood hthread hact hfresh).replaces input rfl
  · refine ⟨validate_resubmitted hinv hinput hshown, fun now drawn hfresh => ?_, fun pid => ?_⟩
    · obtain ⟨photos, after, hcall⟩ :=
        replaceProfileNow_resubmitted hinv hresolves hinput huser hshown hfresh now
      exact ⟨photos, after, hcall, fun pid =>
        returns_replaceProfile (quiet_ofDatabase pid c.state.db) trivial hcall⟩
    · apply (alone_replaceProfile rfl).mono
      · rintro photos after ⟨now, drawn, hcall⟩
        exact shownPhotos_resubmitted hinv hresolves hinput hcall
      · rintro failure after (hsame | ⟨now, drawn, photos, hcall⟩)
        · rw [hsame]
        · exact shownPhotos_resubmitted hinv hresolves hinput hcall

end Runs

/-! ### A photo from before there were uploads -/

def legacyId : UuidText where
  text := "c0000000-0000-4000-8000-0000000000c1".toList
  wellFormed := rfl

def legacyPhoto : UserProfilePhoto where
  id := legacyId.toUuid
  userId := leavingId.toUuid
  uploadId := none
  url := "https://legacy/1.jpg".toList
  position := 0

def legacyAccount : Database := { oneAccount with userProfilePhotos := [legacyPhoto] }

def legacyInput : ReplaceProfileInput where
  userId := leavingId
  userName := "tea"
  birthDate := "2000-01-01"
  region := "Seoul"
  interestedGender := .everyone
  intro := ""
  photoUploadIds := [legacyId.toUuid.toUuidText]

/-- An upload was created, but is not finalized. -/
def uploadPending : Config World UploadRequest Failure Unit where
  state := .ofDatabase { legacyAccount with profileUploads := [createdUpload] }
  threads := [createThread]

theorem photosInvariant_legacyAccount : PhotosInvariant isUuidText legacyAccount := by
  have hone {photo : UserProfilePhoto} (hphoto : photo ∈ legacyAccount.userProfilePhotos) :
      photo = legacyPhoto := List.mem_singleton.1 hphoto
  refine
    { ids := List.nodup_singleton _
      uploads := List.nodup_nil
      places := List.nodup_singleton _
      positions := fun photo hphoto => ?_
      numbered := fun userId => ?_
      stored := fun photo hphoto uploadId huploadId => ?_
      addressed := fun photo hphoto huploadId => ?_
      rows := List.nodup_nil
      apart := fun _ _ _ _ hupload => by cases hupload
      validPhotos := fun photo hphoto _ => ?_
      validUploads := fun _ hupload => by cases hupload }
  · rw [hone hphoto]
    exact Nat.zero_le 2
  · by_cases howner : legacyPhoto.userId = userId
    · have hphotos : photosOf userId legacyAccount = [legacyPhoto] :=
        List.filter_cons_of_pos (decide_eq_true howner)
      rw [hphotos]
      exact Numbered.of_map_eq rfl
    · have hphotos : photosOf userId legacyAccount = [] :=
        List.filter_cons_of_neg (by simpa using howner)
      rw [hphotos]
      exact Numbered.of_map_eq rfl
  · rw [hone hphoto] at huploadId
    cases huploadId
  · rw [hone hphoto] at huploadId
    exact absurd rfl huploadId
  · rw [hone hphoto]
    rfl

theorem uploadPending_run :
    FreshRun isUuidText oneConfig (.idle (.ofDatabase legacyAccount)) uploadPending := by
  have hsame : DrawsFresh isUuidText legacyAccount legacyAccount := fun _ hupload => by cases hupload
  have hcreated : DrawsFresh isUuidText legacyAccount uploadPending.state.db := by
    intro upload hupload _
    obtain rfl := List.mem_singleton.1 hupload
    refine ⟨oneUploadId.toUuid.wellFormed, fun photo hphoto _ => ?_⟩
    obtain rfl := List.mem_singleton.1 hphoto
    decide
  have hstart : FreshRun isUuidText oneConfig (.idle (.ofDatabase legacyAccount))
      ⟨.ofDatabase legacyAccount, []⟩ := Relation.ReflTransGen.refl
  refine hstart.serve (fun _ h => by cases h) hsame ?_
  refine .step oneUploadId.toUuid (.ofDatabase legacyAccount) rfl hsame ?_
  refine .step 0 (.ofDatabase legacyAccount) ⟨trivial, rfl⟩ hsame ?_
  refine .step (.ok ()) (.ofDatabase legacyAccount) rfl hsame ?_
  exact .step (.ok createdUpload) uploadPending.state
    (Executes.returned rfl (World.unlocked_of_alone (fun lock hlock => by cases hlock) _)) hcreated .refl

/-- The identifier of the pending upload is refused, and the photo that is shown may be sent
back. -/
theorem profile_replacement_legacyPhoto :
    FreshRun isUuidText oneConfig (.idle (.ofDatabase legacyAccount)) uploadPending ∧
      (replaceProfile onePhotoInput :
        Prog World UploadRequest Failure (List UserProfilePhoto)).Alone 1 (fun _ _ => False)
          (fun _ after => after.db = uploadPending.state.db) uploadPending.state ∧
      ∃ photos after, replaceProfileNow legacyInput 1 (fun _ => oneUploadId.toUuid)
        uploadPending.state.db = .ok (photos, after) := by
  have hnew : NoUploads legacyAccount := by
    refine ⟨rfl, fun photo hphoto => ?_⟩
    obtain rfl := List.mem_singleton.1 hphoto
    rfl
  have hrun := uploadPending_run
  obtain ⟨-, hrefused, -, hresubmits⟩ :=
    profile_replacement hnew photosInvariant_legacyAccount hrun
  refine ⟨hrun, hrefused onePhotoInput 1 (Or.inr ⟨oneUploadId, List.mem_singleton_self _, ?_⟩), ?_⟩
  · rintro (⟨upload, hupload, -, hverified, -⟩ | ⟨photo, hphoto, -, -, hid⟩)
    · obtain rfl := List.mem_singleton.1 hupload
      cases hverified
    · obtain rfl := List.mem_singleton.1 hphoto
      revert hid
      decide
  · obtain ⟨-, hcalls, -⟩ := hresubmits legacyInput rfl (List.cons_ne_nil legacyPhoto []) rfl
    have hlength : (findProfilePhotos legacyInput.userId.toUuid uploadPending.state.db).length = 1 :=
      rfl
    have hfresh : FreshIds (fun _ => oneUploadId.toUuid)
        (findProfilePhotos legacyInput.userId.toUuid uploadPending.state.db).length
        uploadPending.state.db := by
      rw [hlength]
      refine ⟨fun i hi j hj _ => by omega, fun _ _ photo hphoto => ?_⟩
      obtain rfl := List.mem_singleton.1 hphoto
      decide
    obtain ⟨photos, after, hcall, -⟩ := hcalls 1 _ hfresh
    exact ⟨photos, after, hcall⟩

end ChatTea.Upload
