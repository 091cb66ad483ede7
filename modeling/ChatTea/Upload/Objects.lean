import ChatTea.Database.Rules
import ChatTea.Upload.Rows

/-!
# Uploads, photos and stored objects

What holds between the upload rows, the photo rows, the stored objects and the
requests that were sent to the object store, and why each kind of step keeps it: a
write of the database, a request that is sent, and a request that takes effect.

## Main definitions

* `Landed`, `Sent`, `Known` — what a thread remembers of requests and rows
* `Keeps` — no step undoes what these say
* `StoreInvariant` — no delete is for an object in use, and photos resolve
* `Fenced`, `PutsFenced` — every object belongs to a row, as long as no put of a
  published object takes effect after a delete of it

## Main results

* `StoreInvariant.write`, `StoreInvariant.send`, `StoreInvariant.move`
* `Fenced.write`, `Fenced.send`, `Fenced.move`
-/

namespace ChatTea.Upload

open Table Transaction

/-! ### What stays known -/

/-- Requests are never taken back, nor what they have done. -/
def RequestsKept (before after : List StoreRequest) : Prop :=
  ∀ (number : ℕ) (request : StoreRequest), before[number]? = some request →
    ∃ request' : StoreRequest, after[number]? = some request' ∧ request'.kind = request.kind ∧
      request'.key = request.key ∧ (request.landed = true → request'.landed = true)

/-- A request of the kind for the key has taken effect. -/
def Landed (kind : StoreRequestKind) (key : Text) (w : World) : Prop :=
  ∃ request ∈ w.requests, request.kind = kind ∧ request.key = key ∧ request.landed = true

/-- The request of this number. -/
def Sent (kind : StoreRequestKind) (key : Text) (number : ℕ) (w : World) : Prop :=
  ∃ request, w.requests[number]? = some request ∧ request.kind = kind ∧ request.key = key

/-- The row of an upload has gone on from where it was seen. -/
def Known (upload : ProfileUpload) (w : World) : Prop :=
  ∃ upload' ∈ w.db.profileUploads, Progress upload upload'

/-- Some row has the key of the published object. -/
def Named (key : Text) (w : World) : Prop :=
  ∃ upload ∈ w.db.profileUploads, upload.finalKey = some key

/-- Steps go on with rows and requests, and a row loses the key of its published object
only after a delete of it. -/
structure Keeps (before after : World) : Prop where
  rows : ∀ upload ∈ before.db.profileUploads, ∃ upload' ∈ after.db.profileUploads,
    Progress upload upload' ∧
      ∀ key ∈ upload.finalKey, upload'.finalKey = some key ∨ Landed .delete key after
  requests : RequestsKept before.requests after.requests

section Kept

variable {before between after w : World} {kind : StoreRequestKind} {key : Text} {number : ℕ}
  {upload : ProfileUpload}

theorem RequestsKept.refl (requests : List StoreRequest) : RequestsKept requests requests :=
  fun _ request h => ⟨request, h, rfl, rfl, id⟩

theorem RequestsKept.trans {requests requests' requests'' : List StoreRequest}
    (h : RequestsKept requests requests') (h' : RequestsKept requests' requests'') :
    RequestsKept requests requests'' := by
  intro number request hsent
  obtain ⟨request', hsent', hkind, hkey, hlanded⟩ := h number request hsent
  obtain ⟨request'', hsent'', hkind', hkey', hlanded'⟩ := h' number request' hsent'
  exact ⟨request'', hsent'', hkind'.trans hkind, hkey'.trans hkey, fun hl => hlanded' (hlanded hl)⟩

theorem RequestsKept.append (requests : List StoreRequest) (request : StoreRequest) :
    RequestsKept requests (requests ++ [request]) := by
  intro number sent hsent
  refine ⟨sent, ?_, rfl, rfl, id⟩
  have hlt : number < requests.length := (List.getElem?_eq_some_iff.1 hsent).1
  rwa [List.getElem?_append_left hlt]

/-- A request may change in whether it has landed and whether it is in flight. -/
theorem RequestsKept.set {requests : List StoreRequest} {request request' : StoreRequest}
    (hsent : requests[number]? = some request) (hkind : request'.kind = request.kind)
    (hkey : request'.key = request.key) (hlanded : request.landed = true → request'.landed = true) :
    RequestsKept requests (requests.set number request') := by
  intro other sent hother
  by_cases hsame : number = other
  · subst hsame
    obtain rfl : request = sent := Option.some.inj (hsent.symm.trans hother)
    have hlt : number < requests.length := (List.getElem?_eq_some_iff.1 hsent).1
    exact ⟨request', List.getElem?_set_self hlt, hkind, hkey, hlanded⟩
  · exact ⟨sent, by rwa [List.getElem?_set_ne hsame], rfl, rfl, id⟩

theorem Sent.keep (h : Sent kind key number before) (hkept : Keeps before after) :
    Sent kind key number after := by
  obtain ⟨request, hsent, hkind, hkey⟩ := h
  obtain ⟨request', hsent', hkind', hkey', -⟩ := hkept.requests number request hsent
  exact ⟨request', hsent', hkind'.trans hkind, hkey'.trans hkey⟩

theorem Landed.keep (h : Landed kind key before) (hkept : RequestsKept before.requests after.requests) :
    Landed kind key after := by
  obtain ⟨request, hmem, hkind, hkey, hlanded⟩ := h
  obtain ⟨number, hsent⟩ := List.mem_iff_getElem?.1 hmem
  obtain ⟨request', hsent', hkind', hkey', hlanded'⟩ := hkept number request hsent
  exact ⟨request', List.mem_of_getElem? hsent', hkind'.trans hkind, hkey'.trans hkey, hlanded' hlanded⟩

/-- A request that has taken effect is one of its kind and key that has. -/
theorem Sent.landed {request : StoreRequest} (h : Sent kind key number w)
    (hsent : w.requests[number]? = some request) (hlanded : request.landed = true) :
    Landed kind key w := by
  obtain ⟨request', hsent', hkind, hkey⟩ := h
  obtain rfl : request = request' := Option.some.inj (hsent.symm.trans hsent')
  exact ⟨request, List.mem_of_getElem? hsent, hkind, hkey, hlanded⟩

theorem Known.keep (h : Known upload before) (hkept : Keeps before after) : Known upload after := by
  obtain ⟨upload', hmem, hprogress⟩ := h
  obtain ⟨upload'', hmem', hprogress', -⟩ := hkept.rows upload' hmem
  exact ⟨upload'', hmem', hprogress.trans hprogress'⟩

/-- A published object has a row, or a delete of it has taken effect. -/
theorem named_or_deleted_keep (h : Named key before ∨ Landed .delete key before)
    (hkept : Keeps before after) : Named key after ∨ Landed .delete key after := by
  rcases h with ⟨upload, hmem, hkey⟩ | hdeleted
  · obtain ⟨upload', hmem', -, hkeys⟩ := hkept.rows upload hmem
    exact (hkeys key hkey).imp_left fun hkey' => ⟨upload', hmem', hkey'⟩
  · exact Or.inr (hdeleted.keep hkept.requests)

theorem Keeps.of_db_eq (hdb : after.db = before.db)
    (hrequests : RequestsKept before.requests after.requests) : Keeps before after where
  rows := by
    rw [hdb]
    exact fun upload hmem => ⟨upload, hmem, .refl upload, fun key hkey => Or.inl hkey⟩
  requests := hrequests

theorem Keeps.refl (w : World) : Keeps w w := .of_db_eq rfl (.refl _)

theorem Keeps.trans (h : Keeps before between) (h' : Keeps between after) : Keeps before after where
  rows := by
    intro upload hmem
    obtain ⟨upload', hmem', hprogress, hkeys⟩ := h.rows upload hmem
    obtain ⟨upload'', hmem'', hprogress', hkeys'⟩ := h'.rows upload' hmem'
    refine ⟨upload'', hmem'', hprogress.trans hprogress', fun key hkey => ?_⟩
    rcases hkeys key hkey with hkey' | hdeleted
    · exact hkeys' key hkey'
    · exact Or.inr (hdeleted.keep h'.requests)
  requests := h.requests.trans h'.requests

/-- A write of the table goes on with its rows, when it forgets deleted objects only. -/
theorem Keeps.of_evolve {effects : Effects}
    (hrows : Evolve (UploadEvolves effects) IsNew before.db.profileUploads after.db.profileUploads)
    (hforgets : ∀ key, effects.forgets key → Landed .delete key before)
    (hrequests : RequestsKept before.requests after.requests) : Keeps before after where
  rows := by
    intro upload hmem
    obtain ⟨upload', hmem', hevolves⟩ := hrows.forth upload hmem
    refine ⟨upload', hmem', hevolves.progress, fun key hkey => ?_⟩
    rcases hevolves.finalKey with (hsame | ⟨hgone, -⟩) | ⟨hnone, -⟩
    · exact Or.inl (hsame.trans hkey)
    · exact Or.inr ((hforgets key (hgone key hkey)).keep hrequests)
    · rw [hnone] at hkey
      cases hkey
  requests := hrequests

end Kept

/-! ### The invariant -/

/-- A delete is for a staging object or for the object of a failed upload. -/
def DeletesDead (requests : List StoreRequest) (uploads : List ProfileUpload) : Prop :=
  ∀ request ∈ requests, request.kind = .delete → IsStagingKey request.key ∨
    ∃ upload ∈ uploads, upload.status = .failed ∧ IsFinalKey upload.id request.key

/-- The photo shows a verified upload of its user, or none. -/
def Resolves (uploads : List ProfileUpload) (photo : UserProfilePhoto) : Prop :=
  ∀ uploadId ∈ photo.uploadId, ∃ upload ∈ uploads, upload.id = uploadId ∧
    upload.userId = photo.userId ∧ upload.status = .verified ∧ upload.publicUrl = some photo.url

structure StoreInvariant (w : World) : Prop where
  uploads : UploadsInvariant w.db
  unrejected : .constraint finalDeletionStateCheck ∉ w.rejections
  deletes : DeletesDead w.requests w.db.profileUploads
  /-- A put that has taken effect has stored its object, unless it was deleted again. -/
  puts : ∀ key, Landed .put key w → key ∈ w.objects ∨
    ∃ request ∈ w.requests, request.kind = .delete ∧ request.key = key
  stored : ∀ upload ∈ w.db.profileUploads, upload.status = .verified →
    ∀ key ∈ upload.finalKey, key ∈ w.objects
  photos : ∀ photo ∈ w.db.userProfilePhotos, Resolves w.db.profileUploads photo

/-- Every stored object belongs to a row. -/
structure Fenced (w : World) : Prop where
  named : ∀ key ∈ w.objects, IsStagingKey key ∨ Named key w
  puts : ∀ request ∈ w.requests, request.kind = .put → (∃ id, IsFinalKey id request.key) ∧
    (Named request.key w ∨ Landed .delete request.key w)
  gone : ∀ id key, IsFinalKey id key → Landed .delete key w → key ∉ w.objects

/-- No published object comes back after a delete of it. -/
def PutsFenced (before after : World) : Prop :=
  ∀ id key, IsFinalKey id key → Landed .delete key before → key ∈ after.objects →
    key ∈ before.objects

section Invariant

variable {w after : World} {effects : Effects} {request : StoreRequest} {key : Text} {number : ℕ}
  {upload upload' : ProfileUpload}

/-- No delete was sent for the object of an upload that has not failed. -/
theorem DeletesDead.not_sent {db : Database} {requests : List StoreRequest}
    (h : DeletesDead requests db.profileUploads) (hinv : UploadsInvariant db)
    (hupload : upload ∈ db.profileUploads) (hkey : key ∈ upload.finalKey)
    (halive : upload.status ≠ .failed) (hrequest : request ∈ requests)
    (hdelete : request.kind = .delete) : request.key ≠ key := by
  rintro rfl
  have hfinal := hinv.published upload hupload _ hkey
  rcases h request hrequest hdelete with hstaging | ⟨failed, hmem, hfailed, hfinal'⟩
  · exact hstaging.not_final _ hfinal
  · obtain rfl := hinv.eq_of_id hmem hupload (hfinal'.id_eq hfinal)
    exact halive hfailed

theorem DeletesDead.evolve {requests : List StoreRequest} {uploads uploads' : List ProfileUpload}
    (h : DeletesDead requests uploads)
    (hrows : Evolve (UploadEvolves effects) IsNew uploads uploads') :
    DeletesDead requests uploads' := by
  intro request hrequest hdelete
  refine (h request hrequest hdelete).imp_right ?_
  rintro ⟨upload, hmem, hfailed, hfinal⟩
  obtain ⟨upload', hmem', hevolves⟩ := hrows.forth upload hmem
  refine ⟨upload', hmem', (hevolves.progress.failed hfailed).1, ?_⟩
  rwa [hevolves.progress.id]

/-- A photo resolves as long as its owner is not erased. -/
theorem Resolves.evolve {uploads uploads' : List ProfileUpload} {photo : UserProfilePhoto}
    (h : Resolves uploads photo) (hrows : Evolve (UploadEvolves effects) IsNew uploads uploads')
    (howner : ¬ effects.erases photo.userId) : Resolves uploads' photo := by
  intro uploadId huploadId
  obtain ⟨upload, hmem, hid, huser, hverified, hurl⟩ := h uploadId huploadId
  obtain ⟨upload', hmem', hevolves⟩ := hrows.forth upload hmem
  have hprogress := hevolves.progress
  have hkept : upload'.status = .verified := by
    by_contra hleft
    exact howner (huser ▸ hevolves.erases hverified hleft)
  rcases hprogress.verified hverified with hfailed | ⟨-, -, hurl'⟩
  · rw [hkept] at hfailed
    cases hfailed
  · exact ⟨upload', hmem', hprogress.id.trans hid, hprogress.userId.trans huser, hkept,
      hurl'.trans hurl⟩

/-- A write of the database. -/
theorem StoreInvariant.write (hinv : StoreInvariant w) {db : Database}
    (hwrite : UploadsWrite effects w.db db)
    (hpublishes : ∀ key, effects.publishes key → Landed .put key w)
    (hphotos : ∀ photo ∈ db.userProfilePhotos,
      photo ∈ w.db.userProfilePhotos ∧ ¬ effects.erases photo.userId ∨
        Resolves db.profileUploads photo) : StoreInvariant (w.withDb db) where
  uploads := hinv.uploads.write hwrite
  unrejected := hinv.unrejected
  deletes := hinv.deletes.evolve hwrite.rows
  puts := hinv.puts
  stored := by
    intro upload' hupload' hverified key hkey
    rcases hwrite.rows.back upload' hupload' with ⟨upload, hupload, hevolves⟩ | ⟨input, rfl, -⟩
    · rcases hevolves.publishes hverified with hbefore | hpublished
      · rcases hevolves.progress.verified hbefore with hfailed | ⟨-, hsame, -⟩
        · rw [hverified] at hfailed
          cases hfailed
        · exact hinv.stored upload hupload hbefore key (hsame ▸ hkey)
      · -- The put of a newly verified upload has taken effect and no delete was sent.
        refine (hinv.puts key (hpublishes key (hpublished key hkey))).resolve_right ?_
        rintro ⟨request, hrequest, hdelete, hsame⟩
        exact (hinv.deletes.evolve hwrite.rows).not_sent (hinv.uploads.write hwrite) hupload' hkey
          (by simp [hverified]) hrequest hdelete hsame
    · cases hverified
  photos := by
    intro photo hphoto
    rcases hphotos photo hphoto with ⟨hbefore, howner⟩ | hresolves
    · exact (hinv.photos photo hbefore).evolve hwrite.rows howner
    · exact hresolves

theorem StoreInvariant.reject (hinv : StoreInvariant w) {failure : Failure}
    (hfailure : failure ≠ .constraint finalDeletionStateCheck) : StoreInvariant (w.reject failure) where
  uploads := hinv.uploads
  unrejected := by
    unfold World.reject
    rw [List.mem_cons, not_or]
    exact ⟨Ne.symm hfailure, hinv.unrejected⟩
  deletes := hinv.deletes
  puts := hinv.puts
  stored := hinv.stored
  photos := hinv.photos

/-- Locks are not part of the invariant. -/
theorem StoreInvariant.withLocks (hinv : StoreInvariant w) (locks : List (RowLocks.Lock LockedRow)) :
    StoreInvariant (w.withLocks locks) :=
  ⟨hinv.uploads, hinv.unrejected, hinv.deletes, hinv.puts, hinv.stored, hinv.photos⟩

/-- A world with one more request, not answered yet. -/
def send (kind : StoreRequestKind) (key : Text) (w : World) : World :=
  { w with requests := w.requests ++ [⟨kind, key, false, true⟩] }

theorem landed_send {kind kind' : StoreRequestKind} {key' : Text}
    (h : Landed kind key (send kind' key' w)) : Landed kind key w := by
  obtain ⟨request, hmem, hkind, hkey, hlanded⟩ := h
  rcases List.mem_append.1 hmem with hold | hnew
  · exact ⟨request, hold, hkind, hkey, hlanded⟩
  · rw [List.mem_singleton.1 hnew] at hlanded
    cases hlanded

theorem keeps_send {kind : StoreRequestKind} : Keeps w (send kind key w) :=
  .of_db_eq rfl (.append _ _)

/-- A request is sent; a delete only for an object that is not in use. -/
theorem StoreInvariant.send (hinv : StoreInvariant w) {kind : StoreRequestKind}
    (hdead : kind = .delete → IsStagingKey key ∨
      ∃ upload ∈ w.db.profileUploads, upload.status = .failed ∧ IsFinalKey upload.id key) :
    StoreInvariant (send kind key w) where
  uploads := hinv.uploads
  unrejected := hinv.unrejected
  deletes := by
    intro request hrequest hdelete
    rcases List.mem_append.1 hrequest with hold | hnew
    · exact hinv.deletes request hold hdelete
    · obtain rfl := List.mem_singleton.1 hnew
      exact hdead hdelete
  puts := by
    intro key' hlanded
    refine (hinv.puts key' (landed_send hlanded)).imp_right ?_
    rintro ⟨request, hrequest, hdelete⟩
    exact ⟨request, List.mem_append_left _ hrequest, hdelete⟩
  stored := hinv.stored
  photos := hinv.photos

/-- The requests after a step of the store are those before, but for what became of them. -/
theorem mem_of_mem_set {requests : List StoreRequest} {request' other : StoreRequest}
    (hsent : requests[number]? = some request) (hother : other ∈ requests.set number request')
    (hkind : request'.kind = request.kind) (hkey : request'.key = request.key) :
    ∃ old ∈ requests, old.kind = other.kind ∧ old.key = other.key ∧
      (other.landed = true → old.landed = true ∨ other = request') := by
  rcases List.mem_or_eq_of_mem_set hother with hold | rfl
  · exact ⟨other, hold, rfl, rfl, Or.inl⟩
  · exact ⟨request, List.mem_of_getElem? hsent, hkind.symm, hkey.symm, fun _ => Or.inr rfl⟩

/-- What a step of the store leaves of the requests. -/
structure RequestsMove (w after : World) : Prop where
  db : after.db = w.db
  kept : RequestsKept w.requests after.requests
  back : ∀ request' ∈ after.requests, ∃ request ∈ w.requests,
    request.kind = request'.kind ∧ request.key = request'.key

theorem requestsMove (h : w.StoreMoves after) : RequestsMove w after := by
  cases h with
  | @lands number request sent inFlight =>
      refine ⟨rfl, .set sent rfl rfl fun _ => rfl, fun other hother => ?_⟩
      obtain ⟨old, hold, hkind, hkey, -⟩ := mem_of_mem_set sent hother rfl rfl
      exact ⟨old, hold, hkind, hkey⟩
  | @settles number request sent =>
      refine ⟨rfl, .set sent rfl rfl id, fun other hother => ?_⟩
      obtain ⟨old, hold, hkind, hkey, -⟩ := mem_of_mem_set sent hother rfl rfl
      exact ⟨old, hold, hkind, hkey⟩

/-- A step of the store: a request takes effect, and which objects there are then. -/
inductive ObjectsMove (w after : World) : Prop
  | lands (request : StoreRequest) (sent : request ∈ w.requests)
      (objects : after.objects = w.applied request)
      (landed : ∀ kind key, Landed kind key after →
        Landed kind key w ∨ request.kind = kind ∧ request.key = key)
      (taken : Landed request.kind request.key after)
  | settles (objects : after.objects = w.objects)
      (landed : ∀ kind key, Landed kind key after → Landed kind key w)

theorem objectsMove (h : w.StoreMoves after) : ObjectsMove w after := by
  cases h with
  | @lands number request sent inFlight =>
      refine .lands request (List.mem_of_getElem? sent) rfl ?_ ?_
      · rintro kind key ⟨other, hother, rfl, rfl, hlanded⟩
        obtain ⟨old, hold, hkind, hkey, hwas⟩ := mem_of_mem_set sent hother rfl rfl
        rcases hwas hlanded with hbefore | rfl
        · exact Or.inl ⟨old, hold, hkind, hkey, hbefore⟩
        · exact Or.inr ⟨rfl, rfl⟩
      · have hlt : number < w.requests.length := (List.getElem?_eq_some_iff.1 sent).1
        exact ⟨_, List.mem_of_getElem? (List.getElem?_set_self hlt), rfl, rfl, rfl⟩
  | @settles number request sent =>
      refine .settles rfl ?_
      rintro kind key ⟨other, hother, rfl, rfl, hlanded⟩
      rcases List.mem_or_eq_of_mem_set hother with hold | rfl
      · exact ⟨other, hold, rfl, rfl, hlanded⟩
      · exact ⟨request, List.mem_of_getElem? sent, rfl, rfl, hlanded⟩

theorem mem_applied {request : StoreRequest} :
    key ∈ w.applied request ↔ request.kind = .put ∧ (key = request.key ∨ key ∈ w.objects) ∨
      request.kind = .delete ∧ key ∈ w.objects ∧ key ≠ request.key := by
  unfold World.applied
  cases request.kind <;> simp

/-- A request takes effect, or never will again. -/
theorem StoreInvariant.move (hinv : StoreInvariant w) (h : w.StoreMoves after)
    (hrejections : after.rejections = w.rejections) : StoreInvariant after where
  uploads := by
    rw [(requestsMove h).db]
    exact hinv.uploads
  unrejected := by
    rw [hrejections]
    exact hinv.unrejected
  deletes := by
    intro request' hrequest' hdelete
    obtain ⟨request, hrequest, hkind, hkey⟩ := (requestsMove h).back request' hrequest'
    rw [(requestsMove h).db, ← hkey]
    exact hinv.deletes request hrequest (hkind.trans hdelete)
  puts := by
    intro key hlanded
    have hsent : ∀ request ∈ w.requests, request.kind = .delete → request.key = key →
        ∃ request ∈ after.requests, request.kind = .delete ∧ request.key = key := by
      intro request hrequest hdelete hkey
      obtain ⟨number, hsent⟩ := List.mem_iff_getElem?.1 hrequest
      obtain ⟨request', hsent', hkind', hkey', -⟩ := (requestsMove h).kept number request hsent
      exact ⟨request', List.mem_of_getElem? hsent', hkind'.trans hdelete, hkey'.trans hkey⟩
    have hbefore : Landed .put key w → key ∈ w.objects ∨
        ∃ request ∈ after.requests, request.kind = .delete ∧ request.key = key := by
      intro hlanded
      refine (hinv.puts key hlanded).imp_right ?_
      rintro ⟨request, hrequest, hdelete, hkey⟩
      exact hsent request hrequest hdelete hkey
    cases objectsMove h with
    | settles objects landed =>
        rw [objects]
        exact hbefore (landed .put key hlanded)
    | lands request sent objects landed taken =>
        rw [objects, mem_applied]
        cases hkind : request.kind with
        | put =>
            rcases landed .put key hlanded with hlanded | ⟨-, hkey⟩
            · exact (hbefore hlanded).imp_left fun hstored => Or.inl ⟨rfl, Or.inr hstored⟩
            · exact Or.inl (Or.inl ⟨rfl, Or.inl hkey.symm⟩)
        | delete =>
            have hlanded : Landed .put key w :=
              (landed .put key hlanded).resolve_right fun hput => by simp [hkind] at hput
            by_cases hkey : request.key = key
            · exact Or.inr (hsent request sent hkind hkey)
            · exact (hbefore hlanded).imp_left fun hstored =>
                Or.inr ⟨rfl, hstored, Ne.symm hkey⟩
  stored := by
    intro upload hupload hverified key hkey
    rw [(requestsMove h).db] at hupload
    have hstored := hinv.stored upload hupload hverified key hkey
    cases objectsMove h with
    | settles objects landed => rwa [objects]
    | lands request sent objects landed taken =>
        rw [objects, mem_applied]
        cases hkind : request.kind with
        | put => exact Or.inl ⟨rfl, Or.inr hstored⟩
        | delete =>
            have hother : request.key ≠ key := hinv.deletes.not_sent hinv.uploads hupload hkey
              (by simp [hverified]) sent hkind
            exact Or.inr ⟨rfl, hstored, Ne.symm hother⟩
  photos := by
    rw [(requestsMove h).db]
    exact hinv.photos

/-- A client stores an object in the staging area. -/
theorem StoreInvariant.stage (hinv : StoreInvariant w) (key : Text) :
    StoreInvariant { w with objects := key :: w.objects } where
  uploads := hinv.uploads
  unrejected := hinv.unrejected
  deletes := hinv.deletes
  puts := fun key' hlanded => (hinv.puts key' hlanded).imp_left (List.mem_cons_of_mem _)
  stored := fun upload hupload hverified key' hkey =>
    List.mem_cons_of_mem _ (hinv.stored upload hupload hverified key' hkey)
  photos := hinv.photos

/-! ### Objects belong to rows -/

/-- A write of the database that forgets deleted objects only. -/
theorem Fenced.write (h : Fenced w) (hinv : StoreInvariant w) {db : Database}
    (hkept : Keeps w (w.withDb db)) : Fenced (w.withDb db) where
  named := by
    intro key hkey
    rcases h.named key hkey with hstaging | ⟨upload, hupload, hnamed⟩
    · exact Or.inl hstaging
    · refine (named_or_deleted_keep (Or.inl ⟨upload, hupload, hnamed⟩) hkept).elim Or.inr ?_
      intro hdeleted
      have hfinal := hinv.uploads.published upload hupload key hnamed
      exact absurd hkey (h.gone _ key hfinal hdeleted)
  puts := fun request hrequest hput =>
    (h.puts request hrequest hput).imp_right fun hnamed => named_or_deleted_keep hnamed hkept
  gone := h.gone

/-- A put is sent while a row has its key, or after the object was deleted. -/
theorem Fenced.send (h : Fenced w) {kind : StoreRequestKind}
    (hput : kind = .put → (∃ id, IsFinalKey id key) ∧ (Named key w ∨ Landed .delete key w)) :
    Fenced (send kind key w) where
  named := h.named
  puts := by
    intro request hrequest hkind
    have hkept : ∀ key', Named key' w ∨ Landed .delete key' w →
        Named key' (Upload.send kind key w) ∨ Landed .delete key' (Upload.send kind key w) :=
      fun key' hnamed => named_or_deleted_keep hnamed keeps_send
    rcases List.mem_append.1 hrequest with hold | hnew
    · exact (h.puts request hold hkind).imp_right (hkept _)
    · obtain rfl := List.mem_singleton.1 hnew
      exact (hput hkind).imp_right (hkept key)
  gone := fun id key' hfinal hdeleted => h.gone id key' hfinal (landed_send hdeleted)

/-- A request takes effect, and brings no object back. -/
theorem Fenced.move (h : Fenced w) (hmoves : w.StoreMoves after)
    (hfenced : PutsFenced w after) : Fenced after where
  named := by
    intro key hkey
    have hnamed : key ∈ w.objects → IsStagingKey key ∨ Named key after := by
      intro hstored
      refine (h.named key hstored).imp_right ?_
      rintro ⟨upload, hupload, hnamed⟩
      exact ⟨upload, by rwa [(requestsMove hmoves).db], hnamed⟩
    cases objectsMove hmoves with
    | settles objects landed => exact hnamed (objects ▸ hkey)
    | lands request sent objects landed taken =>
        rw [objects, mem_applied] at hkey
        rcases hkey with ⟨hput, rfl | hstored⟩ | ⟨-, hstored, -⟩
        · obtain ⟨⟨id, hfinal⟩, ⟨upload, hupload, hkey⟩ | hdeleted⟩ := h.puts request sent hput
          · exact Or.inr ⟨upload, by rwa [(requestsMove hmoves).db], hkey⟩
          · refine hnamed (hfenced id request.key hfinal hdeleted ?_)
            rw [objects, mem_applied]
            exact Or.inl ⟨hput, Or.inl rfl⟩
        · exact hnamed hstored
        · exact hnamed hstored
  puts := by
    intro request' hrequest' hput
    obtain ⟨request, hrequest, hkind, hkey⟩ := (requestsMove hmoves).back request' hrequest'
    have hkept : Keeps w after := .of_db_eq (requestsMove hmoves).db (requestsMove hmoves).kept
    rw [← hkey]
    exact (h.puts request hrequest (hkind.trans hput)).imp_right
      fun hnamed => named_or_deleted_keep hnamed hkept
  gone := by
    intro id key hfinal hdeleted hstored
    cases objectsMove hmoves with
    | settles objects landed =>
        rw [objects] at hstored
        exact h.gone id key hfinal (landed _ _ hdeleted) hstored
    | lands request sent objects landed taken =>
        rcases landed _ _ hdeleted with hbefore | ⟨hdelete, rfl⟩
        · exact h.gone id key hfinal hbefore (hfenced id key hfinal hbefore hstored)
        · rw [objects, mem_applied] at hstored
          rcases hstored with ⟨hput, -⟩ | ⟨-, -, hother⟩
          · rw [hdelete] at hput
            cases hput
          · exact hother rfl

/-- A client stores an object in the staging area. -/
theorem Fenced.stage (h : Fenced w) (hstaging : IsStagingKey key) :
    Fenced { w with objects := key :: w.objects } where
  named := by
    intro key' hkey'
    rcases List.mem_cons.1 hkey' with rfl | hstored
    · exact Or.inl hstaging
    · exact h.named key' hstored
  puts := h.puts
  gone := by
    intro id key' hfinal hdeleted hkey'
    rcases List.mem_cons.1 hkey' with rfl | hstored
    · exact hstaging.not_final id hfinal
    · exact h.gone id key' hfinal hdeleted hstored

end Invariant

end ChatTea.Upload
