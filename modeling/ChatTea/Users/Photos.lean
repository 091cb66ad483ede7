import ChatTea.Auth.Service
import ChatTea.Database.Alone
import ChatTea.Lib.Ordered
import ChatTea.Lib.Pointwise

/-!
# The photos of a profile

A profile names its new photos by identifiers of two kinds: of uploads, and of photos from
before there were uploads. `replaceProfile` looks both up, deletes the old rows and stores new
ones, numbered in the order of the input. A profile is shown with the same two kinds of
identifiers, so that a client may send back what it was shown.

## Main definitions

* `validatePhotoUploadIds` — the photo identifiers that `validateProfileInput` lets through
* `shownPhotos` — the photos of `toUserPayload`
* `Replaced` — the photos are the ones that were named, in their order
* `PhotosInvariant` — what holds of the photos of all users
* `replaceProfileNow` — the call on a database that no one else writes to

## Main results

* `PhotosInvariant.replaced` — a call that writes leaves the photos that were named
* `alone_replaceProfile`, `returns_replaceProfile` — alone, the call does what
  `replaceProfileNow` does
-/

namespace ChatTea.Users

open Interleaving Ordered RowLocks Table Transaction

variable {ι : Type}

/-! ### What a profile is asked for and shows -/

def profilePhotoMinCount : ℕ := 1

def profilePhotoMaxCount : ℕ := 3

/-- The photo identifiers that `validateProfileInput` lets through; `isUuid` is `validate` of
the `uuid` package. -/
def validatePhotoUploadIds (isUuid : Text → Bool) (input : List Text) : Except Failure (List Text) := do
  let photoUploadIds := input.map Auth.trim
  throwIf (.error "PROFILE_PHOTO_COUNT_INVALID")
    (photoUploadIds.length < profilePhotoMinCount ∨ profilePhotoMaxCount < photoUploadIds.length)
  throwIf photoUploadInvalid
    (¬ photoUploadIds.Nodup ∨ (photoUploadIds.zip input).any fun (id, given) => ¬ isUuid id ∨ id ≠ given)
  return photoUploadIds

def photosOf (userId : Uuid) (db : Database) : List UserProfilePhoto :=
  db.userProfilePhotos.filter fun photo => photo.userId = userId

def findProfilePhotos (userId : Uuid) (db : Database) : List UserProfilePhoto :=
  orderByAsc UserProfilePhoto.position (photosOf userId db)

structure ProfilePhotoPayload where
  id : Uuid
  url : Text
  position : ℕ
deriving DecidableEq

/-- The identifier under which a photo is shown. -/
def shownId (photo : UserProfilePhoto) : Uuid := photo.uploadId.getD photo.id

def toPhotoPayload (photo : UserProfilePhoto) : ProfilePhotoPayload where
  id := shownId photo
  url := photo.url
  position := photo.position

/-- The photos of `toUserPayload`. -/
def shownPhotos (userId : Uuid) (db : Database) : List ProfilePhotoPayload :=
  (findProfilePhotos userId db).map toPhotoPayload

/-! ### The photos that were named -/

/-- The photo is the item that an identifier names: a verified upload of the user, or a photo
of the user that has no upload. -/
inductive Shows (db : Database) (userId authorityId : Uuid) (photo : UserProfilePhoto) : Prop
  | upload {upload} (mem : upload ∈ db.profileUploads) (owner : upload.userId = userId)
      (verified : upload.status = .verified) (id : upload.id = authorityId)
      (taken : photo.uploadId = some upload.id) (url : upload.publicUrl = some photo.url)
      (addressed : photo.url ≠ [])
  | legacy {old} (mem : old ∈ db.userProfilePhotos) (owner : old.userId = userId)
      (bare : old.uploadId = none) (id : old.id = authorityId) (kept : photo.id = old.id)
      (taken : photo.uploadId = none) (url : photo.url = old.url)

/-- The photos of the user are the items that the input names, each once, numbered in its
order; the photos of others and the uploads are the same. -/
structure Replaced (input : ReplaceProfileInput) (before after : Database) : Prop where
  photos : List.Forall₂ (fun named photo => photo.position = named.2 ∧
      Shows before input.userId.toUuid named.1.toUuid photo)
    input.photoUploadIds.zipIdx (findProfilePhotos input.userId.toUuid after)
  distinct : (input.photoUploadIds.map UuidText.toUuid).Nodup
  others : after.userProfilePhotos.filter (fun photo => photo.userId ≠ input.userId.toUuid) =
    before.userProfilePhotos.filter fun photo => photo.userId ≠ input.userId.toUuid
  users : ∃ now, after.users = updateWhere (fun user => user.userId = input.userId.toUuid)
    (replaceColumns input now) before.users
  frame : { before with users := after.users, userProfilePhotos := after.userProfilePhotos } = after

/-- An identifier of an item that the user may show. -/
def Referable (db : Database) (userId authorityId : Uuid) : Prop :=
  (∃ upload ∈ db.profileUploads, upload.userId = userId ∧ upload.status = .verified ∧
    upload.id = authorityId) ∨
  ∃ photo ∈ db.userProfilePhotos, photo.userId = userId ∧ photo.uploadId = none ∧
    photo.id = authorityId

/-- What holds of the photos of all users: the constraints of the table, and that the photos
of a user are numbered. No identifier is one of a photo without an upload and of an upload, and
those that are shown pass the validation. -/
structure PhotosInvariant (isUuid : Text → Bool) (db : Database) : Prop where
  ids : UniqueKey UserProfilePhoto.id db.userProfilePhotos
  uploads : (db.userProfilePhotos.filterMap UserProfilePhoto.uploadId).Nodup
  places : (db.userProfilePhotos.map photoPlace).Nodup
  positions : ∀ photo ∈ db.userProfilePhotos, photo.position ≤ 2
  numbered : ∀ userId, Numbered UserProfilePhoto.position (photosOf userId db)
  stored : ∀ photo ∈ db.userProfilePhotos, ∀ uploadId ∈ photo.uploadId,
    ∃ upload ∈ db.profileUploads, upload.id = uploadId
  addressed : ∀ photo ∈ db.userProfilePhotos, photo.uploadId ≠ none → photo.url ≠ []
  rows : UniqueKey ProfileUpload.id db.profileUploads
  apart : ∀ photo ∈ db.userProfilePhotos, photo.uploadId = none →
    ∀ upload ∈ db.profileUploads, photo.id ≠ upload.id
  validPhotos : ∀ photo ∈ db.userProfilePhotos, photo.uploadId = none → isUuid photo.id.text
  validUploads : ∀ upload ∈ db.profileUploads, isUuid upload.id.text

theorem Shows.referable {db : Database} {userId authorityId : Uuid} {photo : UserProfilePhoto}
    (h : Shows db userId authorityId photo) : Referable db userId authorityId := by
  cases h with
  | upload mem owner verified id taken url addressed => exact Or.inl ⟨_, mem, owner, verified, id⟩
  | legacy mem owner bare id kept taken url => exact Or.inr ⟨_, mem, owner, bare, id⟩

/-- What is named is shown under its name. -/
theorem Shows.shownId {db : Database} {userId authorityId : Uuid} {photo : UserProfilePhoto}
    (h : Shows db userId authorityId photo) : shownId photo = authorityId := by
  cases h with
  | upload mem owner verified id taken url addressed =>
      unfold Users.shownId
      rw [taken]
      exact id
  | legacy mem owner bare id kept taken url =>
      unfold Users.shownId
      rw [taken]
      exact kept.trans id

/-- What is named in order is shown under the names. -/
theorem map_shownId_of_shows {db : Database} {userId : Uuid} {authorityIds : List UuidText}
    {photos : List UserProfilePhoto}
    (h : List.Forall₂ (fun named photo => photo.position = named.2 ∧
      Shows db userId named.1.toUuid photo) authorityIds.zipIdx photos) :
    photos.map shownId = authorityIds.map UuidText.toUuid := by
  rw [Pointwise.map_eq (f := fun named => UuidText.toUuid named.1) h
    fun _ _ _ hnamed => hnamed.2.shownId]
  conv_rhs => rw [← List.zipIdx_map_fst 0 authorityIds]
  rw [List.map_map]
  rfl

theorem Replaced.referable {input : ReplaceProfileInput} {before after : Database}
    (h : Replaced input before after) :
    ∀ authorityId ∈ input.photoUploadIds,
      Referable before input.userId.toUuid authorityId.toUuid := by
  intro authorityId hmem
  obtain ⟨position, hposition⟩ := List.mem_iff_getElem?.1 hmem
  obtain ⟨photo, -, -, hshows⟩ :=
    Pointwise.exists_after h.photos (List.mk_mem_zipIdx_iff_getElem?.2 hposition)
  exact hshows.referable

section Invariant

variable {isUuid : Text → Bool} {db : Database} {userId : Uuid} {photo other : UserProfilePhoto}

theorem mem_photosOf : photo ∈ photosOf userId db ↔
    photo ∈ db.userProfilePhotos ∧ photo.userId = userId := by
  rw [photosOf, List.mem_filter, decide_eq_true_eq]

theorem mem_findProfilePhotos : photo ∈ findProfilePhotos userId db ↔
    photo ∈ db.userProfilePhotos ∧ photo.userId = userId :=
  (perm_orderByAsc _ _).mem_iff.trans mem_photosOf

namespace PhotosInvariant

variable (h : PhotosInvariant isUuid db)

include h

/-- A photo is read at its number. -/
theorem map_position (userId : Uuid) :
    (findProfilePhotos userId db).map UserProfilePhoto.position =
      List.range (findProfilePhotos userId db).length := by
  rw [findProfilePhotos, (h.numbered userId).map_orderByAsc, (perm_orderByAsc _ _).length_eq]

/-- Photos that are shown alike are the same. -/
theorem eq_of_shownId (hphoto : photo ∈ db.userProfilePhotos) (hother : other ∈ db.userProfilePhotos)
    (hshown : shownId other = shownId photo) : other = photo := by
  have hupload {first second : UserProfilePhoto} (hfirst : first ∈ db.userProfilePhotos)
      (hsecond : second ∈ db.userProfilePhotos) (hbare : first.uploadId = none) {uploadId : Uuid}
      (huploadId : second.uploadId = some uploadId) : shownId first ≠ shownId second := by
    obtain ⟨upload, hupload, rfl⟩ := h.stored second hsecond uploadId huploadId
    simpa [shownId, hbare, huploadId] using h.apart first hfirst hbare upload hupload
  cases hphotoId : photo.uploadId with
  | none =>
      cases hotherId : other.uploadId with
      | none =>
          simp only [shownId, hphotoId, hotherId, Option.getD_none] at hshown
          exact h.ids.eq_of_key hother hphoto hshown
      | some uploadId => exact absurd hshown.symm (hupload hphoto hother hphotoId hotherId)
  | some uploadId =>
      cases hotherId : other.uploadId with
      | none => exact absurd hshown (hupload hother hphoto hotherId hphotoId)
      | some otherId =>
          simp only [shownId, hphotoId, hotherId, Option.getD_some] at hshown
          exact eq_of_nodup_filterMap h.uploads hother hphoto (hotherId.trans (congrArg some hshown))
            hphotoId

/-- No two photos are shown under one identifier. -/
theorem nodup_shownId (userId : Uuid) : ((findProfilePhotos userId db).map shownId).Nodup := by
  apply List.Nodup.map_on
  · intro photo hphoto other hother hshown
    exact (h.eq_of_shownId (mem_findProfilePhotos.1 hphoto).1 (mem_findProfilePhotos.1 hother).1
      hshown.symm).symm
  · have hnodup : (photosOf userId db).Nodup := (List.Nodup.of_map _ h.ids).filter _
    exact (perm_orderByAsc _ _).nodup_iff.2 hnodup

/-- Photos may go, all of a user at once, while no upload comes or goes. -/
theorem of_sublist {after : Database}
    (hids : after.profileUploads.map ProfileUpload.id = db.profileUploads.map ProfileUpload.id)
    (hphotos : after.userProfilePhotos.Sublist db.userProfilePhotos)
    (howners : ∀ userId, photosOf userId after = photosOf userId db ∨ photosOf userId after = []) :
    PhotosInvariant isUuid after := by
  have hknown {rows rows' : List ProfileUpload} {upload : ProfileUpload}
      (hrows : rows'.map ProfileUpload.id = rows.map ProfileUpload.id) (hupload : upload ∈ rows) :
      ∃ upload' ∈ rows', upload'.id = upload.id :=
    List.mem_map.1 (hrows ▸ List.mem_map_of_mem hupload)
  refine
    { ids := h.ids.sublist (hphotos.map _)
      uploads := h.uploads.sublist (hphotos.filterMap _)
      places := h.places.sublist (hphotos.map _)
      positions := fun photo hphoto => h.positions photo (hphotos.subset hphoto)
      numbered := ?_
      stored := ?_
      addressed := fun photo hphoto => h.addressed photo (hphotos.subset hphoto)
      rows := ?_
      apart := ?_
      validPhotos := fun photo hphoto => h.validPhotos photo (hphotos.subset hphoto)
      validUploads := ?_ }
  · intro userId
    rcases howners userId with hsame | hnone
    · rw [hsame]
      exact h.numbered userId
    · rw [hnone]
      exact Numbered.of_map_eq rfl
  · intro photo hphoto uploadId huploadId
    obtain ⟨upload, hupload, hid⟩ := h.stored photo (hphotos.subset hphoto) uploadId huploadId
    obtain ⟨upload', hupload', hid'⟩ := hknown hids hupload
    exact ⟨upload', hupload', hid'.trans hid⟩
  · unfold UniqueKey
    rw [hids]
    exact h.rows
  · intro photo hphoto hbare upload hupload
    obtain ⟨old, hold, hid⟩ := hknown hids.symm hupload
    rw [← hid]
    exact h.apart photo (hphotos.subset hphoto) hbare old hold
  · intro upload hupload
    obtain ⟨old, hold, hid⟩ := hknown hids.symm hupload
    rw [← hid]
    exact h.validUploads old hold

end PhotosInvariant

end Invariant

/-! ### Storing new photos -/

section Write

variable {isUuid : Text → Bool} {input : ReplaceProfileInput} {now : Timestamp}
  {uploads : List ProfileUpload} {legacyRows : List UserProfilePhoto} {photos : List PhotoAuthority}
  {drawn : ℕ → Uuid} {before after db : Database} {inserted : List UserProfilePhoto} {userId : Uuid}

theorem userId_of_inserted {photo : UserProfilePhoto}
    (h : photo ∈ insertedPhotos userId photos drawn) : photo.userId = userId := by
  obtain ⟨entry, -, rfl⟩ := List.mem_map.1 h
  rfl

theorem map_position_inserted :
    (insertedPhotos userId photos drawn).map UserProfilePhoto.position =
      List.range (insertedPhotos userId photos drawn).length := by
  unfold insertedPhotos
  rw [List.map_map, List.length_map, List.length_zipIdx, List.range_eq_range']
  exact List.zipIdx_map_snd 0 photos

/-- The photos of a user are the new ones, or the old ones of another. -/
theorem photosOf_of_replaced {other : Uuid}
    (h : after.userProfilePhotos = replacedPhotos userId photos drawn before) :
    photosOf other after =
      if other = userId then insertedPhotos userId photos drawn else photosOf other before := by
  unfold photosOf
  rw [h, replacedPhotos, List.filter_append, List.filter_filter]
  split
  next hsame =>
    subst hsame
    have hold : (before.userProfilePhotos.filter fun photo =>
        decide (photo.userId = other) && decide (photo.userId ≠ other)) = [] := by
      apply List.filter_eq_nil_iff.2
      simp
    rw [hold, List.nil_append]
    apply List.filter_eq_self.2
    exact fun photo hphoto => decide_eq_true (userId_of_inserted hphoto)
  next hother =>
    have hnew : (insertedPhotos userId photos drawn).filter
        (fun photo => decide (photo.userId = other)) = [] := by
      apply List.filter_eq_nil_iff.2
      intro photo hphoto
      rw [userId_of_inserted hphoto]
      simpa using Ne.symm hother
    rw [hnew, List.append_nil]
    apply List.filter_congr
    intro photo _
    by_cases howner : photo.userId = other
    · simp [howner, hother]
    · simp [howner]

theorem findProfilePhotos_of_replaced
    (h : after.userProfilePhotos = replacedPhotos userId photos drawn before) :
    findProfilePhotos userId after = insertedPhotos userId photos drawn := by
  rw [findProfilePhotos, photosOf_of_replaced h, if_pos rfl]
  exact orderByAsc_of_map_eq map_position_inserted

theorem others_of_replaced :
    (replacedPhotos userId photos drawn before).filter (fun photo => photo.userId ≠ userId) =
      before.userProfilePhotos.filter fun photo => photo.userId ≠ userId := by
  rw [replacedPhotos, List.filter_append, List.filter_filter]
  have hnew : (insertedPhotos userId photos drawn).filter
      (fun photo => decide (photo.userId ≠ userId)) = [] := by
    apply List.filter_eq_nil_iff.2
    intro photo hphoto
    simp [userId_of_inserted hphoto]
  rw [hnew, List.append_nil]
  simp

/-- The new photos show what the identifiers name. -/
theorem shows_of_inserted (hsources : SourcesStored input uploads legacyRows db)
    (hphotos : orderedPhotos input uploads legacyRows = .ok photos) :
    List.Forall₂ (fun named photo => photo.position = named.2 ∧
        Shows db input.userId.toUuid named.1.toUuid photo)
      input.photoUploadIds.zipIdx (insertedPhotos input.userId.toUuid photos drawn) := by
  unfold insertedPhotos
  rw [List.forall₂_map_right_iff]
  apply (Pointwise.zipIdx (orderedPhotos_ok hphotos) 0).imp
  rintro ⟨authorityId, number⟩ ⟨authority, position⟩ ⟨rfl, hstands⟩
  refine ⟨rfl, ?_⟩
  cases hstands with
  | @upload upload publicUrl mem id url shown =>
      obtain ⟨hmem, hfound⟩ := List.mem_filter.1 (hsources.uploads upload mem)
      obtain ⟨howner, hverified, -⟩ := of_decide_eq_true hfound
      exact .upload hmem howner hverified (Uuid.text_eq_iff.1 id).1 rfl url shown
  | @legacy photo mem id =>
      obtain ⟨hmem, hfound⟩ := List.mem_filter.1 (hsources.legacyRows photo mem)
      obtain ⟨howner, hbare, -⟩ := of_decide_eq_true hfound
      exact .legacy hmem howner hbare (Uuid.text_eq_iff.1 id).1 rfl rfl rfl

theorem exists_shows_of_inserted {photo : UserProfilePhoto}
    (hsources : SourcesStored input uploads legacyRows db)
    (hphotos : orderedPhotos input uploads legacyRows = .ok photos)
    (hphoto : photo ∈ insertedPhotos input.userId.toUuid photos drawn) :
    ∃ authorityId, Shows db input.userId.toUuid authorityId photo := by
  obtain ⟨named, -, -, hshows⟩ :=
    Pointwise.exists_before (shows_of_inserted hsources hphotos) hphoto
  exact ⟨named.1.toUuid, hshows⟩

namespace PhotosInvariant

variable (h : PhotosInvariant isUuid before) (hsources : SourcesStored input uploads legacyRows before)
  (hphotos : orderedPhotos input uploads legacyRows = .ok photos)
  (hwrite : writeProfile input now photos drawn before = .ok (inserted, after))

include h hsources hphotos hwrite

theorem write : PhotosInvariant isUuid after := by
  obtain ⟨hallowed, -, rfl⟩ := writeProfile_eq_ok_iff.1 hwrite
  have hcases {photo : UserProfilePhoto}
      (hphoto : photo ∈ replacedPhotos input.userId.toUuid photos drawn before) :
      photo ∈ before.userProfilePhotos ∨
        photo ∈ insertedPhotos input.userId.toUuid photos drawn :=
    (List.mem_append.1 hphoto).imp_left fun hold => (List.mem_filter.1 hold).1
  -- A photo that has no upload was there before.
  have hbare {photo : UserProfilePhoto}
      (hphoto : photo ∈ replacedPhotos input.userId.toUuid photos drawn before)
      (hnone : photo.uploadId = none) :
      ∃ old ∈ before.userProfilePhotos, old.uploadId = none ∧ photo.id = old.id := by
    rcases hcases hphoto with hold | hnew
    · exact ⟨photo, hold, hnone, rfl⟩
    · obtain ⟨authorityId, hshows⟩ := exists_shows_of_inserted hsources hphotos hnew
      cases hshows with
      | upload mem owner verified id taken url addressed =>
          rw [taken] at hnone
          cases hnone
      | legacy mem owner bare id kept taken url => exact ⟨_, mem, bare, kept⟩
  refine
    { ids := hallowed.ids
      uploads := hallowed.uploads
      places := hallowed.places
      positions := ?_
      numbered := ?_
      stored := ?_
      addressed := ?_
      rows := h.rows
      apart := ?_
      validPhotos := ?_
      validUploads := h.validUploads }
  · intro photo hphoto
    exact (hcases hphoto).elim (h.positions photo) (hallowed.positions photo)
  · intro userId
    rw [photosOf_of_replaced rfl]
    split
    · exact Numbered.of_map_eq map_position_inserted
    · exact h.numbered userId
  · intro photo hphoto
    exact (hcases hphoto).elim (h.stored photo) (hallowed.stored photo)
  · intro photo hphoto huploadId
    rcases hcases hphoto with hold | hnew
    · exact h.addressed photo hold huploadId
    · obtain ⟨authorityId, hshows⟩ := exists_shows_of_inserted hsources hphotos hnew
      cases hshows with
      | upload mem owner verified id taken url addressed => exact addressed
      | legacy mem owner bare id kept taken url => exact absurd taken huploadId
  · intro photo hphoto hnone
    obtain ⟨old, hold, hnone', hid⟩ := hbare hphoto hnone
    rw [hid]
    exact h.apart old hold hnone'
  · intro photo hphoto hnone
    obtain ⟨old, hold, hnone', hid⟩ := hbare hphoto hnone
    rw [hid]
    exact h.validPhotos old hold hnone'

/-- A call that writes leaves the photos that were named. -/
theorem replaced : Replaced input before after := by
  have hafter := h.write hsources hphotos hwrite
  obtain ⟨-, -, hstored⟩ := writeProfile_eq_ok_iff.1 hwrite
  have hrows : after.userProfilePhotos =
      replacedPhotos input.userId.toUuid photos drawn before := by rw [← hstored]
  have hshows : List.Forall₂ (fun named photo => photo.position = named.2 ∧
        Shows before input.userId.toUuid named.1.toUuid photo)
      input.photoUploadIds.zipIdx (findProfilePhotos input.userId.toUuid after) := by
    rw [findProfilePhotos_of_replaced hrows]
    exact shows_of_inserted hsources hphotos
  refine ⟨hshows, ?_, ?_, ⟨now, ?_⟩, ?_⟩
  · rw [← map_shownId_of_shows hshows]
    exact hafter.nodup_shownId _
  · rw [hrows]
    exact others_of_replaced
  · rw [← hstored]
  · rw [← hstored]

end PhotosInvariant

end Write

/-! ### The call alone -/

/-- `replaceProfile` on a database that no one else writes to, at a time and with the
identifiers that PostgreSQL draws. -/
def replaceProfileNow (input : ReplaceProfileInput) (now : Timestamp) (drawn : ℕ → Uuid) :
    Call Database Failure (List UserProfilePhoto) := fun db => do
  throwIf photoUploadInvalid (input.photoUploadIds = [])
  let photos ← orderedPhotos input (verifiedUploads input db) (legacyPhotos input db)
  throwIf (.error "USER_NOT_FOUND") (¬ db.hasUser input.userId.toUuid)
  writeProfile input now photos drawn db

section Now

variable {isUuid : Text → Bool} {input : ReplaceProfileInput} {now : Timestamp} {drawn : ℕ → Uuid}
  {before after db : Database} {inserted : List UserProfilePhoto} {pid : ℕ} {w : World}

theorem replaceProfileNow_eq_ok_iff :
    replaceProfileNow input now drawn before = .ok (inserted, after) ↔
      input.photoUploadIds ≠ [] ∧ ∃ photos,
        orderedPhotos input (verifiedUploads input before) (legacyPhotos input before) = .ok photos ∧
          before.hasUser input.userId.toUuid ∧
            writeProfile input now photos drawn before = .ok (inserted, after) := by
  simp only [replaceProfileNow, bind_eq_ok_iff, throwIf_eq_ok_iff, exists_const, not_not]

theorem PhotosInvariant.replaced_now (h : PhotosInvariant isUuid before)
    (hcall : replaceProfileNow input now drawn before = .ok (inserted, after)) :
    Replaced input before after := by
  obtain ⟨-, photos, hphotos, -, hwrite⟩ := replaceProfileNow_eq_ok_iff.1 hcall
  exact h.replaced ⟨fun _ => id, fun _ => id⟩ hphotos hwrite

/-- The call returns the photos of the user. -/
theorem inserted_of_now (hcall : replaceProfileNow input now drawn before = .ok (inserted, after)) :
    inserted = findProfilePhotos input.userId.toUuid after := by
  obtain ⟨-, photos, -, -, hwrite⟩ := replaceProfileNow_eq_ok_iff.1 hcall
  obtain ⟨-, rfl, rfl⟩ := writeProfile_eq_ok_iff.1 hwrite
  exact (findProfilePhotos_of_replaced rfl).symm

/-- Alone, the program returns what the call returns, and throws with nothing changed; the
answer of a commit may still be lost. -/
theorem alone_replaceProfile (hdb : w.db = db) :
    (replaceProfile input : Prog World ι Failure (List UserProfilePhoto)).Alone pid
      (fun inserted after => ∃ now drawn,
        replaceProfileNow input now drawn db = .ok (inserted, after.db))
      (fun _ after => after.db = db ∨ ∃ now drawn inserted,
        replaceProfileNow input now drawn db = .ok (inserted, after.db)) w := by
  apply alone_transaction
  · apply alone_clock_bind
    intro now
    apply alone_ofExcept_bind _ fun _ _ => Or.inl hdb
    intro _ hnonempty
    rw [throwIf_eq_ok_iff] at hnonempty
    apply alone_select_bind hdb _ fun _ _ h => Or.inl h
    intro w hdb
    apply alone_select_bind hdb _ fun _ _ h => Or.inl h
    intro w hdb
    apply alone_ofExcept_bind _ fun _ _ => Or.inl hdb
    intro photos hphotos
    apply alone_select_bind hdb _ fun _ _ h => Or.inl h
    intro w hdb
    apply alone_ofExcept_bind _ fun _ _ => Or.inl hdb
    intro _ huser
    rw [throwIf_eq_ok_iff, not_not] at huser
    apply alone_anything_bind
    intro drawn
    have hcall {inserted : List UserProfilePhoto} {after : Database}
        (hwrite : writeProfile input now photos drawn db = .ok (inserted, after)) :
        replaceProfileNow input now drawn db = .ok (inserted, after) :=
      replaceProfileNow_eq_ok_iff.2 ⟨hnonempty, photos, hphotos, huser, hwrite⟩
    apply alone_commit hdb
    · rintro inserted after w hwrite rfl
      exact ⟨now, drawn, hcall hwrite⟩
    · exact fun _ _ h => Or.inl h
    · rintro failure inserted after w hwrite rfl
      exact Or.inr ⟨now, drawn, inserted, hcall hwrite⟩
  · intro failure before after hsame h
    rw [hsame]
    exact h

/-- What the call returns, some run of the program alone returns. -/
theorem returns_replaceProfile {clocks : Timestamp → Prop} (hw : Quiet pid before clocks w)
    (hnow : clocks now) (hcall : replaceProfileNow input now drawn before = .ok (inserted, after)) :
    Returns pid (replaceProfile input : Prog World ι Failure (List UserProfilePhoto)) w inserted
      after := by
  obtain ⟨hnonempty, photos, hphotos, huser, hwrite⟩ := replaceProfileNow_eq_ok_iff.1 hcall
  apply returns_transaction
  apply returns_clock_bind hw hnow
  apply returns_ofExcept_bind (throwIf_of_not hnonempty)
  apply returns_select_bind hw
  intro w hw
  apply returns_select_bind hw
  intro w hw
  apply returns_ofExcept_bind hphotos
  apply returns_select_bind hw
  intro w hw
  apply returns_ofExcept_bind (throwIf_of_not (not_not.2 huser))
  apply returns_anything_bind drawn
  exact returns_commit hw hwrite

end Now

end ChatTea.Users
