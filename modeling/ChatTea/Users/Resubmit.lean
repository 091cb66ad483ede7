import ChatTea.Upload.Objects
import ChatTea.Users.Photos

/-!
# Sending back the photos that are shown

A client that edits a profile sends back the identifiers under which its photos are shown. They
pass the validation, `replaceProfile` accepts them, and what is shown stays the same: a photo
that has no upload keeps its row, and one that has an upload gets a new row for it.

## Main definitions

* `Resubmits` — the identifiers are the ones that are shown
* `FreshIds` — the identifiers that PostgreSQL draws are new

## Main results

* `orderedPhotos_resubmitted` — the identifiers stand for the photos that are shown
* `replaceProfileNow_resubmitted` — the call succeeds
* `shownPhotos_resubmitted` — it changes nothing that is shown
* `validate_resubmitted` — the identifiers pass the validation
-/

namespace ChatTea.Users

open Ordered Table Transaction

/-- The identifiers are the ones under which the photos of the user are shown. -/
def Resubmits (input : ReplaceProfileInput) (db : Database) : Prop :=
  input.photoUploadIds =
    (findProfilePhotos input.userId.toUuid db).map fun photo => (shownId photo).toUuidText

/-- The identifiers drawn for so many rows differ from each other and from those of the photos. -/
structure FreshIds (drawn : ℕ → Uuid) (count : ℕ) (db : Database) : Prop where
  distinct : ∀ i < count, ∀ j < count, drawn i = drawn j → i = j
  new : ∀ i < count, ∀ photo ∈ db.userProfilePhotos, photo.id ≠ drawn i

/-- What a photo is taken from when its identifier is sent back. -/
def authorityOf (photo : UserProfilePhoto) : PhotoAuthority :=
  if photo.uploadId = none then ⟨some photo.id, none, photo.url⟩
  else ⟨none, photo.uploadId, photo.url⟩

/-- The row that is stored for the photo then. -/
def refreshed (drawn : ℕ → Uuid) (photo : UserProfilePhoto) : UserProfilePhoto :=
  if photo.uploadId = none then photo else { photo with id := drawn photo.position }

section Refreshed

variable {drawn : ℕ → Uuid} {photo : UserProfilePhoto}

@[simp] theorem userId_refreshed : (refreshed drawn photo).userId = photo.userId := by
  unfold refreshed
  split <;> rfl

@[simp] theorem uploadId_refreshed : (refreshed drawn photo).uploadId = photo.uploadId := by
  unfold refreshed
  split <;> rfl

@[simp] theorem position_refreshed : (refreshed drawn photo).position = photo.position := by
  unfold refreshed
  split <;> rfl

/-- It is shown as before. -/
theorem toPhotoPayload_refreshed : toPhotoPayload (refreshed drawn photo) = toPhotoPayload photo := by
  unfold refreshed
  split
  next => rfl
  next huploadId =>
    obtain ⟨uploadId, hsome⟩ := Option.ne_none_iff_exists'.1 huploadId
    simp [toPhotoPayload, shownId, hsome]

end Refreshed

section Resubmitted

variable {isUuid : Text → Bool} {input : ReplaceProfileInput} {db : Database} {drawn : ℕ → Uuid}
  {now : Timestamp} {photo : UserProfilePhoto} {authority : PhotoAuthority}
  (h : PhotosInvariant isUuid db)
  (hresolves : ∀ photo ∈ db.userProfilePhotos, Upload.Resolves db.profileUploads photo)
  (hinput : Resubmits input db)

include hinput

theorem toUuid_resubmitted : input.photoUploadIds.map UuidText.toUuid =
    (findProfilePhotos input.userId.toUuid db).map shownId := by
  rw [hinput, List.map_map]
  exact List.map_congr_left fun photo _ => Uuid.toUuid_eq _

omit hinput

include h hresolves

/-- A photo's identifier stands for what the photo is taken from. -/
theorem eq_authorityOf (hphoto : photo ∈ db.userProfilePhotos)
    (hstands : StandsFor (verifiedUploads input db) (legacyPhotos input db) (shownId photo).text
      authority) : authority = authorityOf photo := by
  cases hstands with
  | @upload upload publicUrl mem id url shown =>
      obtain ⟨hupload, -⟩ := List.mem_filter.1 mem
      have hid : upload.id = shownId photo := Uuid.ext id
      cases huploadId : photo.uploadId with
      | none =>
          rw [shownId, huploadId, Option.getD_none] at hid
          exact absurd hid.symm (h.apart photo hphoto huploadId upload hupload)
      | some uploadId =>
          rw [shownId, huploadId, Option.getD_some] at hid
          subst hid
          obtain ⟨upload', hupload', hid', -, -, hurl⟩ := hresolves photo hphoto upload.id huploadId
          obtain rfl := h.rows.eq_of_key hupload' hupload hid'
          obtain rfl : publicUrl = photo.url := Option.some.inj (url.symm.trans hurl)
          simp [authorityOf, huploadId]
  | @legacy old mem id =>
      obtain ⟨hold, hfound⟩ := List.mem_filter.1 mem
      obtain ⟨-, hbare, -⟩ := of_decide_eq_true hfound
      have hshown : shownId old = shownId photo := by
        rw [shownId, hbare, Option.getD_none]
        exact Uuid.ext id
      obtain rfl := h.eq_of_shownId hphoto hold hshown
      simp [authorityOf, hbare]

include hinput

theorem exists_orderedPhotos_resubmitted :
    ∃ photos, orderedPhotos input (verifiedUploads input db) (legacyPhotos input db) = .ok photos := by
  have hids := toUuid_resubmitted hinput
  apply exists_orderedPhotos
  · intro upload hupload
    obtain ⟨hmem, hfound⟩ := List.mem_filter.1 hupload
    obtain ⟨-, -, hnamed⟩ := of_decide_eq_true hfound
    rw [hids] at hnamed
    obtain ⟨photo, hphoto, hshown⟩ := List.mem_map.1 hnamed
    have hphoto := (mem_findProfilePhotos.1 hphoto).1
    cases huploadId : photo.uploadId with
    | none =>
        rw [shownId, huploadId, Option.getD_none] at hshown
        exact absurd hshown (h.apart photo hphoto huploadId upload hmem)
    | some uploadId =>
        rw [shownId, huploadId, Option.getD_some] at hshown
        obtain ⟨upload', hmem', hid, -, -, hurl⟩ := hresolves photo hphoto uploadId huploadId
        obtain rfl := h.rows.eq_of_key hmem' hmem (hid.trans hshown)
        exact ⟨photo.url, hurl, h.addressed photo hphoto (by simp [huploadId])⟩
  · have htexts {α : Type} {key : α → Uuid} {rows rows' : List α} (hunique : UniqueKey key rows)
        (hsublist : rows'.Sublist rows) : (rows'.map fun row => (key row).text).Nodup := by
      have hnodup : (rows'.map key).Nodup := hunique.sublist (hsublist.map key)
      have hmapped := hnodup.map Uuid.text_injective
      rwa [List.map_map] at hmapped
    apply List.nodup_append.2
    refine ⟨htexts h.rows List.filter_sublist, htexts h.ids List.filter_sublist, ?_⟩
    intro text huploads _ hphotos htext
    obtain ⟨upload, hupload, rfl⟩ := List.mem_map.1 huploads
    obtain ⟨photo, hphoto, rfl⟩ := List.mem_map.1 hphotos
    obtain ⟨hphoto, hfound⟩ := List.mem_filter.1 hphoto
    obtain ⟨-, hbare, -⟩ := of_decide_eq_true hfound
    exact h.apart photo hphoto hbare upload (List.mem_filter.1 hupload).1 (Uuid.ext htext.symm)
  · intro authorityId hmem
    have hnamed : authorityId.toUuid ∈ input.photoUploadIds.map UuidText.toUuid :=
      List.mem_map.2 ⟨authorityId, hmem, rfl⟩
    rw [hinput] at hmem
    obtain ⟨photo, hphoto, rfl⟩ := List.mem_map.1 hmem
    rw [Uuid.toUuid_eq] at hnamed
    obtain ⟨hphoto, howner⟩ := mem_findProfilePhotos.1 hphoto
    cases huploadId : photo.uploadId with
    | none =>
        have hshown : shownId photo = photo.id := by rw [shownId, huploadId, Option.getD_none]
        refine Or.inr ⟨photo, List.mem_filter.2 ⟨hphoto, decide_eq_true ⟨howner, huploadId, ?_⟩⟩, ?_⟩
        · rwa [← hshown]
        · rw [hshown]
    | some uploadId =>
        have hshown : shownId photo = uploadId := by rw [shownId, huploadId, Option.getD_some]
        obtain ⟨upload, hupload, hid, huser, hverified, -⟩ :=
          hresolves photo hphoto uploadId huploadId
        refine Or.inl ⟨upload, List.mem_filter.2 ⟨hupload,
          decide_eq_true ⟨huser.trans howner, hverified, ?_⟩⟩, ?_⟩
        · rwa [hid, ← hshown]
        · rw [hid, hshown]

/-- The identifiers stand for the photos that are shown. -/
theorem orderedPhotos_resubmitted :
    orderedPhotos input (verifiedUploads input db) (legacyPhotos input db) =
      .ok ((findProfilePhotos input.userId.toUuid db).map authorityOf) := by
  obtain ⟨photos, hphotos⟩ := exists_orderedPhotos_resubmitted h hresolves hinput
  have hstands := orderedPhotos_ok hphotos
  rw [hinput, List.forall₂_map_left_iff] at hstands
  have hsame : photos = (findProfilePhotos input.userId.toUuid db).map authorityOf := by
    rw [← List.map_id photos]
    apply Pointwise.map_eq hstands
    intro photo hphoto authority hauthority
    exact eq_authorityOf h hresolves (mem_findProfilePhotos.1 hphoto).1 hauthority
  rw [hphotos, hsame]

end Resubmitted

/-! ### The rows that are stored -/

section Stored

variable {isUuid : Text → Bool} {db : Database} {drawn : ℕ → Uuid} {userId : Uuid}

/-- The photos of a user and those of the others are all photos. -/
theorem perm_photos (userId : Uuid) (db : Database) :
    (db.userProfilePhotos.filter (fun photo => photo.userId ≠ userId) ++
      findProfilePhotos userId db).Perm db.userProfilePhotos := by
  have hsplit : (photosOf userId db ++
      db.userProfilePhotos.filter fun photo => photo.userId ≠ userId).Perm db.userProfilePhotos := by
    have hperm := List.filter_append_perm (fun photo : UserProfilePhoto => photo.userId = userId)
      db.userProfilePhotos
    simpa [photosOf] using hperm
  exact (List.perm_append_comm.trans ((perm_orderByAsc _ _).append_right _)).trans hsplit

theorem nodup_findProfilePhotos (h : PhotosInvariant isUuid db) (userId : Uuid) :
    (findProfilePhotos userId db).Nodup := List.Nodup.of_map _ (h.nodup_shownId userId)

variable (h : PhotosInvariant isUuid db)

include h

theorem insertedPhotos_shown :
    insertedPhotos userId ((findProfilePhotos userId db).map authorityOf) drawn =
      (findProfilePhotos userId db).map (refreshed drawn) := by
  unfold insertedPhotos
  rw [List.zipIdx_map, zipIdx_of_map_eq (h.map_position userId), List.map_map, List.map_map]
  apply List.map_congr_left
  intro photo hphoto
  obtain rfl := (mem_findProfilePhotos.1 hphoto).2
  cases huploadId : photo.uploadId with
  | none =>
      obtain ⟨id, owner, uploadId, url, position⟩ := photo
      obtain rfl : uploadId = none := huploadId
      rfl
  | some uploadId => simp [refreshed, authorityOf, huploadId]

theorem position_lt {photo : UserProfilePhoto} (hphoto : photo ∈ findProfilePhotos userId db) :
    photo.position < (findProfilePhotos userId db).length := by
  rw [← List.mem_range, ← h.map_position userId]
  exact List.mem_map.2 ⟨photo, hphoto, rfl⟩

theorem length_le (userId : Uuid) : (findProfilePhotos userId db).length ≤ profilePhotoMaxCount := by
  by_contra hlong
  have hthird : 3 ∈ (findProfilePhotos userId db).map UserProfilePhoto.position := by
    rw [h.map_position userId, List.mem_range]
    unfold profilePhotoMaxCount at hlong
    omega
  obtain ⟨photo, hphoto, hposition⟩ := List.mem_map.1 hthird
  have hle := h.positions photo (mem_findProfilePhotos.1 hphoto).1
  omega

/-- The identifiers of the new rows are those of no other. -/
theorem nodup_ids_refreshed
    (hfresh : FreshIds drawn (findProfilePhotos userId db).length db) :
    ((db.userProfilePhotos.filter (fun photo => photo.userId ≠ userId) ++
      (findProfilePhotos userId db).map (refreshed drawn)).map UserProfilePhoto.id).Nodup := by
  have hkeeps {photo : UserProfilePhoto} (hphoto : photo ∈ findProfilePhotos userId db) :
      (photo.uploadId = none ∧ (refreshed drawn photo).id = photo.id) ∨
        (refreshed drawn photo).id = drawn photo.position ∧
          ∀ other ∈ db.userProfilePhotos, other.id ≠ drawn photo.position := by
    unfold refreshed
    split
    next hbare => exact Or.inl ⟨hbare, rfl⟩
    next => exact Or.inr ⟨rfl, hfresh.new _ (position_lt h hphoto)⟩
  rw [List.map_append, List.map_map]
  apply List.nodup_append.2
  refine ⟨h.ids.sublist (List.filter_sublist.map _), ?_, ?_⟩
  · apply (nodup_findProfilePhotos h userId).map_on
    intro photo hphoto other hother hsame
    have hphoto' := mem_findProfilePhotos.1 hphoto
    have hother' := mem_findProfilePhotos.1 hother
    rw [Function.comp_apply, Function.comp_apply] at hsame
    rcases hkeeps hphoto with ⟨-, hid⟩ | ⟨hid, hnew⟩ <;>
      rcases hkeeps hother with ⟨-, hid'⟩ | ⟨hid', hnew'⟩ <;> rw [hid, hid'] at hsame
    · exact h.ids.eq_of_key hphoto'.1 hother'.1 hsame
    · exact absurd hsame (hnew' photo hphoto'.1)
    · exact absurd hsame.symm (hnew other hother'.1)
    · have hposition := hfresh.distinct _ (position_lt h hphoto) _ (position_lt h hother) hsame
      have hplace : photoPlace photo = photoPlace other :=
        Prod.ext (hphoto'.2.trans hother'.2.symm) hposition
      exact UniqueKey.eq_of_key h.places hphoto'.1 hother'.1 hplace
  · intro id hothers _ hmine hsame
    obtain ⟨other, hother, rfl⟩ := List.mem_map.1 hothers
    obtain ⟨photo, hphoto, rfl⟩ := List.mem_map.1 hmine
    obtain ⟨hother, howner⟩ := List.mem_filter.1 hother
    have hphoto' := mem_findProfilePhotos.1 hphoto
    rw [Function.comp_apply] at hsame
    rcases hkeeps hphoto with ⟨-, hid⟩ | ⟨hid, hnew⟩ <;> rw [hid] at hsame
    · obtain rfl := h.ids.eq_of_key hother hphoto'.1 hsame
      exact of_decide_eq_true howner hphoto'.2
    · exact hnew other hother hsame

theorem photosAllowed_shown (hfresh : FreshIds drawn (findProfilePhotos userId db).length db) :
    PhotosAllowed (replacedPhotos userId ((findProfilePhotos userId db).map authorityOf) drawn db)
      (insertedPhotos userId ((findProfilePhotos userId db).map authorityOf) drawn) db := by
  unfold replacedPhotos
  rw [insertedPhotos_shown h]
  have hmem {photo : UserProfilePhoto}
      (hphoto : photo ∈ (findProfilePhotos userId db).map (refreshed drawn)) :
      ∃ old ∈ db.userProfilePhotos, refreshed drawn old = photo := by
    obtain ⟨old, hold, rfl⟩ := List.mem_map.1 hphoto
    exact ⟨old, (mem_findProfilePhotos.1 hold).1, rfl⟩
  -- The places and the uploads are the same as before, in another order.
  refine ⟨?_, nodup_ids_refreshed h hfresh, ?_, ?_, ?_⟩
  · intro photo hphoto
    obtain ⟨old, hold, rfl⟩ := hmem hphoto
    rw [position_refreshed]
    exact h.positions old hold
  · have hsame : photoPlace ∘ refreshed drawn = photoPlace := by
      funext photo
      simp [photoPlace]
    rw [List.map_append, List.map_map, hsame, ← List.map_append]
    exact ((perm_photos userId db).map _).nodup_iff.2 h.places
  · have hsame : UserProfilePhoto.uploadId ∘ refreshed drawn = UserProfilePhoto.uploadId := by
      funext photo
      simp
    rw [List.filterMap_append, List.filterMap_map, hsame, ← List.filterMap_append]
    exact ((perm_photos userId db).filterMap _).nodup_iff.2 h.uploads
  · intro photo hphoto
    obtain ⟨old, hold, rfl⟩ := hmem hphoto
    rw [uploadId_refreshed]
    exact h.stored old hold

end Stored

/-! ### The call -/

/-- An identifier is not cut by `trim`. -/
theorem trim_uuid (id : Uuid) : Auth.trim id.text = id.text := by
  have hdigits : (('-' :: hexDigits).all fun c => ¬ Auth.isSpace c) = true := by decide
  have hchars : ∀ c ∈ id.text, Auth.isSpace c = false := by
    intro c hc
    obtain ⟨position, hposition⟩ := List.mem_iff_getElem?.1 hc
    have hchar := (isUuidText_iff.1 id.wellFormed).2 c position
      (List.mk_mem_zipIdx_iff_getElem?.2 hposition)
    have hmem : c ∈ '-' :: hexDigits := by
      unfold isUuidChar at hchar
      split at hchar
      · exact List.mem_cons.2 (Or.inl (of_decide_eq_true hchar))
      · exact List.mem_cons_of_mem _ (of_decide_eq_true hchar)
    simpa using List.all_eq_true.1 hdigits c hmem
  have hkeeps {text : Text} (htext : ∀ c ∈ text, Auth.isSpace c = false) :
      text.dropWhile Auth.isSpace = text := by
    cases text with
    | nil => rfl
    | cons c rest => simp [htext c List.mem_cons_self]
  unfold Auth.trim
  rw [hkeeps hchars, hkeeps fun c hc => hchars c (List.mem_reverse.1 hc), List.reverse_reverse]

section Call

variable {isUuid : Text → Bool} {input : ReplaceProfileInput} {db : Database} {drawn : ℕ → Uuid}
  (h : PhotosInvariant isUuid db)

include h

/-- The identifiers that are shown pass the validation. -/
theorem validate_resubmitted (hinput : Resubmits input db)
    (hshown : findProfilePhotos input.userId.toUuid db ≠ []) :
    validatePhotoUploadIds isUuid (input.photoUploadIds.map UuidText.text) =
      .ok (input.photoUploadIds.map UuidText.text) := by
  have htexts : input.photoUploadIds.map UuidText.text =
      (findProfilePhotos input.userId.toUuid db).map fun photo => (shownId photo).text := by
    rw [hinput, List.map_map]
    rfl
  have htrim : (input.photoUploadIds.map UuidText.text).map Auth.trim =
      input.photoUploadIds.map UuidText.text := by
    rw [htexts, List.map_map]
    exact List.map_congr_left fun photo _ => trim_uuid (shownId photo)
  have hlength : (input.photoUploadIds.map UuidText.text).length =
      (findProfilePhotos input.userId.toUuid db).length := by rw [htexts, List.length_map]
  have hpositive := List.length_pos_iff.2 hshown
  have hmax := length_le h input.userId.toUuid
  have hnodup : (input.photoUploadIds.map UuidText.text).Nodup := by
    have hmapped := (h.nodup_shownId input.userId.toUuid).map Uuid.text_injective
    rw [List.map_map] at hmapped
    rwa [htexts]
  have hvalid : ∀ text ∈ input.photoUploadIds.map UuidText.text, isUuid text = true := by
    intro text htext
    rw [htexts] at htext
    obtain ⟨photo, hphoto, rfl⟩ := List.mem_map.1 htext
    have hphoto := (mem_findProfilePhotos.1 hphoto).1
    cases huploadId : photo.uploadId with
    | none =>
        rw [shownId, huploadId, Option.getD_none]
        exact h.validPhotos photo hphoto huploadId
    | some uploadId =>
        obtain ⟨upload, hupload, rfl⟩ := h.stored photo hphoto uploadId huploadId
        rw [shownId, huploadId, Option.getD_some]
        exact h.validUploads upload hupload
  unfold validatePhotoUploadIds
  simp only [htrim, bind_eq_ok_iff, throwIf_eq_ok_iff, pure_eq_ok_iff, exists_const, and_true]
  refine ⟨?_, ?_⟩
  · unfold profilePhotoMinCount
    omega
  · rw [not_or, not_not]
    refine ⟨hnodup, fun hany => ?_⟩
    rw [List.zip_eq_zipWith, List.zipWith_self, List.any_map] at hany
    obtain ⟨text, htext, hbad⟩ := List.any_eq_true.1 hany
    simp [hvalid text htext] at hbad

/-- The call succeeds with identifiers that are new. -/
theorem replaceProfileNow_resubmitted
    (hresolves : ∀ photo ∈ db.userProfilePhotos, Upload.Resolves db.profileUploads photo)
    (hinput : Resubmits input db) (huser : db.hasUser input.userId.toUuid)
    (hshown : findProfilePhotos input.userId.toUuid db ≠ [])
    (hfresh : FreshIds drawn (findProfilePhotos input.userId.toUuid db).length db) (now : Timestamp) :
    ∃ inserted after, replaceProfileNow input now drawn db = .ok (inserted, after) := by
  have hnonempty : input.photoUploadIds ≠ [] := by
    rw [hinput]
    simpa using hshown
  exact ⟨_, _, replaceProfileNow_eq_ok_iff.2 ⟨hnonempty, _,
    orderedPhotos_resubmitted h hresolves hinput, huser,
    writeProfile_eq_ok_iff.2 ⟨photosAllowed_shown h hfresh, rfl, rfl⟩⟩⟩

/-- A call that succeeds changes nothing that is shown. -/
theorem shownPhotos_resubmitted {now : Timestamp} {inserted : List UserProfilePhoto}
    {after : Database}
    (hresolves : ∀ photo ∈ db.userProfilePhotos, Upload.Resolves db.profileUploads photo)
    (hinput : Resubmits input db)
    (hcall : replaceProfileNow input now drawn db = .ok (inserted, after)) :
    shownPhotos input.userId.toUuid after = shownPhotos input.userId.toUuid db := by
  obtain ⟨-, photos, hphotos, -, hwrite⟩ := replaceProfileNow_eq_ok_iff.1 hcall
  rw [orderedPhotos_resubmitted h hresolves hinput] at hphotos
  obtain rfl := Except.ok.inj hphotos
  obtain ⟨-, -, rfl⟩ := writeProfile_eq_ok_iff.1 hwrite
  unfold shownPhotos
  rw [findProfilePhotos_of_replaced rfl, insertedPhotos_shown h, List.map_map]
  exact List.map_congr_left fun photo _ => toPhotoPayload_refreshed

end Call

end ChatTea.Users
