import ChatTea.Upload.Safety

/-!
# Staging objects

Clients store staging objects with presigned URLs, as often as they like until a URL expires.
The service deletes the object of an upload once and records that; the object of an upload that
is finalized is deleted while its URL is still good.

## Main definitions

* `stagingSystem` — uploads are created, finalized and cleaned up, next to the puts of clients
* `Owed` — a row still owes the deletion of an object
* `PutsInTime` — no staging object comes back after it was deleted

## Main results

* `staging_owed` — as long as clients put in time, every staging object is owed a deletion
* `reuploaded_orphaned` — a put after the deletion leaves an object that nobody will delete
-/

namespace ChatTea.Upload

open Interleaving RowLocks Table Transaction Users

/-! ### The system -/

/-- A step of the outside: of the object store; of a client, who stores an object with the
presigned URL of an upload before it expires; or of the clock. -/
inductive StagingStep (w : World) : World → Prop
  | moves {after} (moves : w.StoreMoves after) : StagingStep w after
  | put {upload now} (created : upload ∈ w.db.profileUploads) (reading : w.clocks now)
      (valid : now < upload.expiresAt) :
      StagingStep w { w with objects := upload.stagingKey :: w.objects }
  | passes {now later} (reading : w.clocks now) (le : now ≤ later) :
      StagingStep w { w with clocks := fun time => time = later }

/-- The calls that concern staging objects; the jobs of a batch are started by the batch. -/
def UploadRequest.Stages : UploadRequest → Prop
  | .createUpload _ _ => True
  | .finalizeUpload _ _ => True
  | .cleanupExpiredStagingBatch _ _ => True
  | _ => False

def stagingSystem (config : UploadConfig) : System World UploadRequest Failure Unit where
  code := uploadCode config
  accepts := UploadRequest.Stages
  environment := StagingStep
  rollback := World.rollback

/-- The service at an instant, with nothing going on. -/
def startAt (now : Timestamp) (db : Database) : World :=
  { World.ofDatabase db with clocks := fun time => time = now }

/-- A row that owes the deletion of the staging object. -/
def Owed (key : Text) (db : Database) : Prop :=
  ∃ upload ∈ db.profileUploads, upload.stagingKey = key ∧ upload.stagingDeletedAt = none

/-- No staging object comes back after a delete of it has taken effect. -/
def PutsInTime (before after : World) : Prop :=
  ∀ key, IsStagingKey key → Landed .delete key before → key ∈ after.objects → key ∈ before.objects

/-! ### The invariant -/

/-- What a call does to the columns of the staging object: it may record a deletion. -/
structure StagingEvolves (deleted : Text → Prop) (upload upload' : ProfileUpload) : Prop where
  id : upload'.id = upload.id
  stagingKey : upload'.stagingKey = upload.stagingKey
  stagingDeletedAt : upload'.stagingDeletedAt = upload.stagingDeletedAt ∨ deleted upload.stagingKey

/-- A call keeps the rows, and stores new ones whose object was not deleted. -/
structure StagingWrite (deleted : Text → Prop) (db db' : Database) : Prop where
  rows : Evolve (StagingEvolves deleted) (fun upload => upload.stagingDeletedAt = none)
    db.profileUploads db'.profileUploads
  unique : UniqueKey ProfileUpload.id db'.profileUploads

/-- Staging objects have rows, and a deletion is only recorded of an object that is gone. -/
structure StagingInvariant (w : World) : Prop where
  unique : UniqueKey ProfileUpload.id w.db.profileUploads
  puts : ∀ request ∈ w.requests, request.kind = .put → ∃ id, IsFinalKey id request.key
  owned : ∀ key ∈ w.objects, IsStagingKey key →
    ∃ upload ∈ w.db.profileUploads, upload.stagingKey = key
  recorded : ∀ upload ∈ w.db.profileUploads, upload.stagingDeletedAt ≠ none →
    Landed .delete upload.stagingKey w
  gone : ∀ key, IsStagingKey key → Landed .delete key w → key ∉ w.objects

/-- The row of an upload. -/
def HasRow (upload : ProfileUpload) (w : World) : Prop :=
  ∃ row ∈ w.db.profileUploads, row.id = upload.id ∧ row.stagingKey = upload.stagingKey

/-- Rows keep their staging keys, and requests stay. -/
structure StagingOnward (before after : World) : Prop where
  rows : ∀ upload, HasRow upload before → HasRow upload after
  requests : RequestsKept before.requests after.requests

section Invariant

variable {w before between after : World} {deleted : Text → Prop} {db db' : Database}
  {upload : ProfileUpload} {kind : StoreRequestKind} {key : Text} {number : ℕ}

theorem StagingOnward.of_db_eq (hdb : after.db = before.db)
    (hrequests : RequestsKept before.requests after.requests) : StagingOnward before after where
  rows upload h := by
    unfold HasRow at h ⊢
    rwa [hdb]
  requests := hrequests

theorem StagingOnward.refl (w : World) : StagingOnward w w := .of_db_eq rfl (.refl _)

theorem StagingOnward.trans (h : StagingOnward before between) (h' : StagingOnward between after) :
    StagingOnward before after where
  rows upload hrow := h'.rows upload (h.rows upload hrow)
  requests := h.requests.trans h'.requests

theorem StagingOnward.sent (h : StagingOnward before after) (hsent : Sent kind key number before) :
    Sent kind key number after := by
  obtain ⟨request, hsent, hkind, hkey⟩ := hsent
  obtain ⟨request', hsent', hkind', hkey', -⟩ := h.requests number request hsent
  exact ⟨request', hsent', hkind'.trans hkind, hkey'.trans hkey⟩

theorem StagingOnward.sentIf {key : Option Text} {number : Option ℕ}
    (h : StagingOnward before after) (hsent : SentIf key number before) :
    SentIf key number after := by
  apply hsent.imp_right
  rintro ⟨text, sent, hkey, hnumber, hsent⟩
  exact ⟨text, sent, hkey, hnumber, h.sent hsent⟩

theorem StagingWrite.onward (h : StagingWrite deleted w.db db) : StagingOnward w (w.withDb db) where
  rows upload := by
    rintro ⟨row, hrow, hid, hkey⟩
    obtain ⟨row', hrow', hevolves⟩ := h.rows.forth row hrow
    exact ⟨row', hrow', hevolves.id.trans hid, hevolves.stagingKey.trans hkey⟩
  requests := .refl _

/-- A call that records deletions that have taken effect leaves no others recorded. -/
theorem StagingWrite.recorded (hwrite : StagingWrite (fun key => Landed .delete key w) w.db db)
    (h : ∀ upload ∈ w.db.profileUploads, upload.stagingDeletedAt ≠ none →
      Landed .delete upload.stagingKey w) :
    ∀ upload ∈ db.profileUploads, upload.stagingDeletedAt ≠ none →
      Landed .delete upload.stagingKey (w.withDb db) := by
  intro upload' hupload' hdeleted
  rcases hwrite.rows.back upload' hupload' with ⟨upload, hupload, hevolves⟩ | hnew
  · rw [hevolves.stagingKey]
    rcases hevolves.stagingDeletedAt with hsame | hlanded
    · exact h upload hupload (hsame ▸ hdeleted)
    · exact hlanded
  · exact absurd hnew hdeleted

/-- A call keeps the invariant when it records deletions that have taken effect. -/
theorem StagingInvariant.write (h : StagingInvariant w)
    (hwrite : StagingWrite (fun key => Landed .delete key w) w.db db) :
    StagingInvariant (w.withDb db) where
  unique := hwrite.unique
  puts := h.puts
  owned key hkey hstaging := by
    obtain ⟨upload, hupload, hown⟩ := h.owned key hkey hstaging
    obtain ⟨upload', hupload', hevolves⟩ := hwrite.rows.forth upload hupload
    exact ⟨upload', hupload', hevolves.stagingKey.trans hown⟩
  recorded := hwrite.recorded h.recorded
  gone := h.gone

/-- Locks, errors and clocks are not part of the invariant. -/
theorem StagingInvariant.of_same (h : StagingInvariant w) (hdb : after.db = w.db)
    (hrequests : after.requests = w.requests) (hobjects : after.objects = w.objects) :
    StagingInvariant after where
  unique := hdb ▸ h.unique
  puts := hrequests ▸ h.puts
  owned := hdb ▸ hobjects ▸ h.owned
  recorded := by
    unfold Landed
    rw [hdb, hrequests]
    exact h.recorded
  gone := by
    unfold Landed
    rw [hobjects, hrequests]
    exact h.gone

/-- A request is sent; a put for a published object only. -/
theorem StagingInvariant.send (h : StagingInvariant w)
    (hput : kind = .put → ∃ id, IsFinalKey id key) : StagingInvariant (send kind key w) where
  unique := h.unique
  puts request hrequest hkind := by
    rcases List.mem_append.1 hrequest with hold | hnew
    · exact h.puts request hold hkind
    · obtain rfl := List.mem_singleton.1 hnew
      exact hput hkind
  owned := h.owned
  recorded upload hupload hdeleted :=
    (h.recorded upload hupload hdeleted).keep (RequestsKept.append _ _)
  gone key' hstaging hlanded := h.gone key' hstaging (landed_send hlanded)

/-- A request takes effect, or never will again. -/
theorem StagingInvariant.move (h : StagingInvariant w) (hmoves : w.StoreMoves after) :
    StagingInvariant after := by
  have hrequests := requestsMove hmoves
  have hputs : ∀ request' ∈ after.requests, request'.kind = .put →
      ∃ id, IsFinalKey id request'.key := by
    intro request' hrequest' hput
    obtain ⟨request, hrequest, hkind, hkey⟩ := hrequests.back request' hrequest'
    rw [← hkey]
    exact h.puts request hrequest (hkind.trans hput)
  have hrecorded : ∀ upload ∈ after.db.profileUploads, upload.stagingDeletedAt ≠ none →
      Landed .delete upload.stagingKey after := by
    rw [hrequests.db]
    intro upload hupload hdeleted
    exact (h.recorded upload hupload hdeleted).keep hrequests.kept
  have hunique : UniqueKey ProfileUpload.id after.db.profileUploads := hrequests.db ▸ h.unique
  cases objectsMove hmoves with
  | settles objects landed =>
      refine ⟨hunique, hputs, ?_, hrecorded, ?_⟩
      · rw [objects, hrequests.db]
        exact h.owned
      · intro key hstaging hlanded
        rw [objects]
        exact h.gone key hstaging (landed _ key hlanded)
  | lands request sent objects landed taken =>
      -- Only published objects are put by the service.
      have hold (key : Text) (hstaging : IsStagingKey key) (hstored : key ∈ after.objects) :
          key ∈ w.objects ∧ (request.kind = .delete → key ≠ request.key) := by
        rw [objects, mem_applied] at hstored
        rcases hstored with ⟨hput, rfl | hstored⟩ | ⟨-, hstored, hother⟩
        · obtain ⟨id, hfinal⟩ := h.puts request sent hput
          exact absurd hfinal (hstaging.not_final id)
        · refine ⟨hstored, fun hdelete => ?_⟩
          rw [hput] at hdelete
          cases hdelete
        · exact ⟨hstored, fun _ => hother⟩
      refine ⟨hunique, hputs, ?_, hrecorded, ?_⟩
      · rw [hrequests.db]
        intro key hkey hstaging
        exact h.owned key (hold key hstaging hkey).1 hstaging
      · intro key hstaging hlanded hstored
        obtain ⟨hbefore, hother⟩ := hold key hstaging hstored
        rcases landed _ key hlanded with hlanded | ⟨hdelete, hsame⟩
        · exact h.gone key hstaging hlanded hbefore
        · exact hother hdelete hsame.symm

/-- A client puts an object in time. -/
theorem StagingInvariant.put (h : StagingInvariant w) (hupload : upload ∈ w.db.profileUploads)
    (hintime : PutsInTime w { w with objects := upload.stagingKey :: w.objects }) :
    StagingInvariant { w with objects := upload.stagingKey :: w.objects } where
  unique := h.unique
  puts := h.puts
  owned key hkey hstaging := by
    rcases List.mem_cons.1 hkey with rfl | hstored
    · exact ⟨upload, hupload, rfl⟩
    · exact h.owned key hstored hstaging
  recorded := h.recorded
  gone key hstaging hlanded hstored :=
    h.gone key hstaging hlanded (hintime key hstaging hlanded hstored)

end Invariant

/-! ### What each call does to staging columns -/

section Calls

variable {deleted : Text → Prop} {db db' : Database} {upload : ProfileUpload}
  {cond : ProfileUpload → Bool} {set : ProfileUpload → ProfileUpload}

theorem StagingEvolves.same (deleted : Text → Prop) (upload : ProfileUpload) :
    StagingEvolves deleted upload upload := ⟨rfl, rfl, Or.inl rfl⟩

theorem StagingWrite.nothing (hunique : UniqueKey ProfileUpload.id db.profileUploads) :
    StagingWrite deleted db db :=
  ⟨Evolve.refl (StagingEvolves.same deleted) _, hunique⟩

/-- An update of rows. -/
theorem updateUploads_staging (deleted : Text → Prop) {rows : List ProfileUpload}
    (hcall : updateUploads cond set db = .ok (rows, db'))
    (hset : ∀ upload ∈ db.profileUploads, cond upload →
      StagingEvolves deleted upload (set upload)) :
    StagingWrite deleted db db' ∧ rows = returning cond set db.profileUploads ∧
      db'.profileUploads = updateWhere cond set db.profileUploads := by
  obtain ⟨written, hwrite, h⟩ := bind_eq_ok_iff.1 hcall
  obtain ⟨rfl, rfl⟩ := Prod.mk.inj (Except.ok.inj h)
  obtain ⟨hconstraints, rfl⟩ := writeUploads_eq_ok_iff.1 hwrite
  exact ⟨⟨Evolve.updateWhere (StagingEvolves.same deleted) hset, hconstraints.id_unique⟩, rfl, rfl⟩

/-- An update that returns nothing. -/
theorem updateOnly_staging {done : Unit}
    (hcall : (updateUploads cond set db >>= fun updated => pure ((), updated.2)) = .ok (done, db'))
    (hset : ∀ upload ∈ db.profileUploads, cond upload →
      StagingEvolves deleted upload (set upload)) : StagingWrite deleted db db' := by
  obtain ⟨⟨rows, written⟩, hupdate, h⟩ := bind_eq_ok_iff.1 hcall
  obtain ⟨-, rfl⟩ := Prod.mk.inj (Except.ok.inj h)
  exact (updateUploads_staging deleted hupdate hset).1

theorem createPending_staging {input : CreatePendingInput}
    (hcall : createPending input db = .ok (upload, db')) : StagingWrite deleted db db' := by
  simp only [createPending, bind_eq_ok_iff, pure_eq_ok_iff] at hcall
  obtain ⟨-, -, -, -, -, -, written, hwrite, h⟩ := hcall
  obtain ⟨-, rfl⟩ := Prod.mk.inj h
  obtain ⟨hconstraints, rfl⟩ := writeUploads_eq_ok_iff.1 hwrite
  exact ⟨Evolve.insert (StagingEvolves.same deleted) rfl, hconstraints.id_unique⟩

/-- A claim that the finalizer goes on with is of a row of the table. -/
theorem claimFinalize_staging {input : ClaimFinalizeInput} {claim : FinalizeUploadClaim}
    (hunique : UniqueKey ProfileUpload.id db.profileUploads)
    (hcall : claimFinalize input db = .ok (claim, db')) :
    StagingWrite deleted db db' ∧
      ∀ upload, claim = .claimed upload → upload ∈ db'.profileUploads := by
  unfold claimFinalize at hcall
  split at hcall
  next => cases hcall
  next upload hfound =>
    split_ifs at hcall with hverified hfailed hexpired hbusy
    · obtain ⟨rfl, rfl⟩ := Prod.mk.inj (Except.ok.inj hcall)
      exact ⟨.nothing hunique, fun _ h => by cases h⟩
    · obtain ⟨⟨rows, written⟩, hupdate, h⟩ := bind_eq_ok_iff.1 hcall
      have hwrite := (updateUploads_staging deleted hupdate fun row _ _ =>
        ⟨rfl, rfl, Or.inl rfl⟩).1
      cases rows with
      | nil => cases h
      | cons expired rest =>
          obtain ⟨rfl, rfl⟩ := Prod.mk.inj (Except.ok.inj h)
          exact ⟨hwrite, fun _ h => by cases h⟩
    · obtain ⟨rfl, rfl⟩ := Prod.mk.inj (Except.ok.inj hcall)
      exact ⟨.nothing hunique, fun _ h => by cases h⟩
    · obtain ⟨⟨rows, written⟩, hupdate, h⟩ := bind_eq_ok_iff.1 hcall
      obtain ⟨hwrite, hrows, hwritten⟩ := updateUploads_staging deleted hupdate
        fun row _ _ => ⟨rfl, rfl, Or.inl rfl⟩
      cases rows with
      | nil => cases h
      | cons claimed rest =>
          obtain ⟨rfl, rfl⟩ := Prod.mk.inj (Except.ok.inj h)
          refine ⟨hwrite, fun upload' hclaim => ?_⟩
          obtain rfl := FinalizeUploadClaim.claimed.inj hclaim
          have hmem := List.mem_cons_self (a := claimed) (l := rest)
          rw [hrows] at hmem
          rw [hwritten]
          exact (mem_of_returning hmem).1

theorem prepareFinalObject_staging {input : FinalObjectInput} {done : Unit}
    (hcall : prepareFinalObject input db = .ok (done, db')) : StagingWrite deleted db db' := by
  obtain ⟨⟨rows, written⟩, hupdate, h⟩ := bind_eq_ok_iff.1 hcall
  obtain ⟨-, -, h⟩ := bind_eq_ok_iff.1 h
  obtain ⟨-, rfl⟩ := Prod.mk.inj (Except.ok.inj h)
  exact (updateUploads_staging deleted hupdate fun row _ _ => ⟨rfl, rfl, Or.inl rfl⟩).1

theorem writeVerified_staging {input : FinalObjectInput} {verified : Option ProfileUpload}
    (hcall : writeVerified input db = .ok (verified, db')) : StagingWrite deleted db db' := by
  obtain ⟨⟨rows, written⟩, hupdate, h⟩ := bind_eq_ok_iff.1 hcall
  obtain ⟨-, rfl⟩ := Prod.mk.inj (Except.ok.inj h)
  exact (updateUploads_staging deleted hupdate fun row _ _ => ⟨rfl, rfl, Or.inl rfl⟩).1

/-- A finalizer records that it has deleted the staging object of its upload. -/
theorem markStagingDeleted_staging {uploadId : Uuid} {now : Timestamp} {done : Unit}
    (hcall : markStagingDeleted uploadId now db = .ok (done, db'))
    (hdeleted : ∀ row ∈ db.profileUploads, row.id = uploadId → deleted row.stagingKey) :
    StagingWrite deleted db db' :=
  updateOnly_staging hcall fun row hrow hid =>
    ⟨rfl, rfl, Or.inr (hdeleted row hrow (of_decide_eq_true hid))⟩

/-- The jobs of a batch are rows of the table. -/
theorem claimCleanupBatch_staging {input : ClaimCleanupInput} {candidates : List ProfileUpload}
    {claimed : CleanupUploadClaim} (hunique : UniqueKey ProfileUpload.id db.profileUploads)
    (hcall : claimCleanupBatch input candidates db = .ok (claimed, db')) :
    StagingWrite deleted db db' ∧ ∀ upload ∈ claimed.jobs, upload ∈ db'.profileUploads := by
  unfold claimCleanupBatch at hcall
  split at hcall
  next =>
    obtain ⟨rfl, rfl⟩ := Prod.mk.inj (Except.ok.inj hcall)
    exact ⟨.nothing hunique, fun _ h => absurd h List.not_mem_nil⟩
  next =>
    obtain ⟨⟨rows, written⟩, hupdate, h⟩ := bind_eq_ok_iff.1 hcall
    obtain ⟨hwrite, rfl, hwritten⟩ := updateUploads_staging deleted hupdate
      fun row _ _ => ⟨rfl, rfl, Or.inl rfl⟩
    obtain ⟨rfl, rfl⟩ := Prod.mk.inj (Except.ok.inj h)
    refine ⟨hwrite, fun upload hupload => ?_⟩
    rw [hwritten]
    exact (mem_of_returning hupload).1

theorem recordCleanup_staging (input : CleanupResultInput) (upload : ProfileUpload) :
    (recordCleanup input upload).id = upload.id ∧
      (recordCleanup input upload).stagingKey = upload.stagingKey ∧
      (recordCleanup input upload).stagingDeletedAt =
        if input.stagingDeleted then some input.now else upload.stagingDeletedAt := by
  unfold recordCleanup recordFinalDeleted
  cases input.stagingDeleted <;> cases input.finalDeleted <;> exact ⟨rfl, rfl, rfl⟩

/-- A job records the deletion that it has waited for. -/
theorem applyCleanupResult_staging {input : CleanupResultInput} {done : Unit}
    (hcall : applyCleanupResult input db = .ok (done, db'))
    (hdeleted : input.stagingDeleted = true → ∀ row ∈ db.profileUploads, row.id = input.uploadId →
      deleted row.stagingKey) : StagingWrite deleted db db' := by
  apply updateOnly_staging hcall
  intro row hrow hcond
  simp only [hasCleanupLease, decide_eq_true_eq] at hcond
  obtain ⟨hid, hkey, hrecorded⟩ := recordCleanup_staging input row
  refine ⟨hid, hkey, ?_⟩
  cases hstaging : input.stagingDeleted with
  | true => exact Or.inr (hdeleted hstaging row hrow hcond.1)
  | false =>
      rw [hstaging] at hrecorded
      exact Or.inl hrecorded

end Calls

end ChatTea.Upload
