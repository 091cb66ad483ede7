import ChatTea.Upload.Orphans

/-!
# The cleanup of uploads

A row owes the deletion of an object until the deletion is recorded. Whatever finalizers,
workers, erasures and the object store do, such a row comes up for cleanup again, and a
deletion is recorded only once the store has carried it out.

## Main definitions

* `OwesDeletion` — a deletion is not recorded yet
* `recordLogic` — recorded deletions of staging objects have taken effect

## Main results

* `cleanupDue_eventually` — a row that owes a deletion comes up for cleanup
* `UploadEvolves.recordsFinal` — what a call records of a public object
* `record_sound` — every call keeps the invariant of recorded deletions
* `cleanup_never_forgets` — deletions stay due until they are carried out, in every run
-/

namespace ChatTea.Upload

open Interleaving RowLocks Table Transaction Users

/-! ### One row -/

/-- A deletion is not recorded yet: of the staging object, or of a public one. -/
def OwesDeletion (upload : ProfileUpload) : Prop :=
  upload.stagingDeletedAt = none ∨
    upload.finalDeletionPendingAt ≠ none ∧ upload.finalDeletedAt = none

theorem stagingDue_of_late {upload : ProfileUpload} {now : Timestamp} (hrow : RowInvariant upload)
    (howed : upload.stagingDeletedAt = none) (hexpired : upload.expiresAt ≤ now)
    (hleased : upload.processingLeaseExpiresAt.all (· ≤ now) = true) :
    stagingDue now upload = true := by
  unfold stagingDue
  rw [howed]
  cases hstatus : upload.status with
  | failed => rfl
  | verified => rfl
  | pending => simp [hexpired]
  | processing =>
      -- A row in processing has a lease, so the comparison is not with null.
      obtain ⟨lease, hlease⟩ := Option.ne_none_iff_exists'.1 (hrow.leased hstatus)
      rw [hlease] at hleased ⊢
      simpa [hexpired] using hleased

/-- A lease is over in the end. -/
theorem all_le_of_late (lease : Option Timestamp) :
    ∃ since, ∀ now, since ≤ now → lease.all (· ≤ now) = true := by
  cases lease with
  | none => exact ⟨0, fun _ _ => rfl⟩
  | some lease => exact ⟨lease, fun now hnow => decide_eq_true hnow⟩

/-- A row that owes a deletion comes up for cleanup. -/
theorem cleanupDue_eventually {upload : ProfileUpload} (hrow : RowInvariant upload)
    (howed : OwesDeletion upload) : ∃ since, ∀ now, since ≤ now → cleanupDue now upload = true := by
  obtain ⟨free, hfree⟩ := all_le_of_late upload.cleanupLeaseExpiresAt
  obtain ⟨released, hreleased⟩ := all_le_of_late upload.processingLeaseExpiresAt
  refine ⟨max free (max released upload.expiresAt), fun now hnow => ?_⟩
  obtain ⟨hnow, hreleasedNow, hexpired⟩ :
      free ≤ now ∧ released ≤ now ∧ upload.expiresAt ≤ now := by
    simpa only [max_le_iff] using hnow
  have hdue : stagingDue now upload = true ∨ finalDue upload = true := by
    rcases howed with hstaging | hfinal
    · exact Or.inl (stagingDue_of_late hrow hstaging hexpired (hreleased now hreleasedNow))
    · exact Or.inr (decide_eq_true hfinal)
  exact decide_eq_true ⟨hfree now hnow, hdue⟩

/-- A call that records the deletion of a public object has the store delete it first. -/
theorem UploadEvolves.recordsFinal {effects : Effects} {upload upload' : ProfileUpload}
    (h : UploadEvolves effects upload upload') (hrow : RowInvariant upload)
    (hbefore : upload.finalDeletedAt = none) (hafter : upload'.finalDeletedAt ≠ none) :
    ∃ key, upload.finalKey = some key ∧ effects.forgets key := by
  cases h with
  | same => exact absurd hbefore hafter
  | expired unsettled => exact absurd hbefore hafter
  | claimed leaseExpiresAt unsettled => exact absurd hbefore hafter
  | prepared input held key => exact absurd rfl hafter
  | verified input held stored => exact absurd rfl hafter
  | failed failureCode lease held => exact absurd hbefore hafter
  | released lease held => exact absurd hbefore hafter
  | stagingDeleted now settled => exact absurd hbefore hafter
  | cleanupClaimed now leaseExpiresAt due => exact absurd hbefore hafter
  | cleanedUp input settled condemned =>
      have hrecorded := (recordCleanup_columns input upload).2.2.2.2.2.2
      cases hfinal : input.finalDeleted with
      | false =>
          rw [hfinal, hbefore] at hrecorded
          exact absurd hrecorded hafter
      | true =>
          obtain ⟨⟨-, hpending⟩, hforgets⟩ := condemned hfinal
          -- The check of the table leaves a condemned row its key.
          have hkey : upload.finalKey ≠ none := by
            rcases hrow.state with ⟨hnone, -⟩ | ⟨-, hkey | hdeleted⟩
            · exact absurd hnone hpending
            · exact hkey
            · exact absurd hbefore hdeleted
          obtain ⟨key, hkey⟩ := Option.ne_none_iff_exists'.1 hkey
          exact ⟨key, hkey, hforgets key hkey⟩
  | ownerDeleted now owner =>
      rw [(deleteOwner_columns now upload).2.2.2.2.2.1] at hafter
      exact absurd hbefore hafter

/-- A result under a lease that no row has changes nothing. -/
theorem applyCleanupResult_stale {db : Database} {input : CleanupResultInput}
    (hstale : ∀ upload ∈ db.profileUploads, upload.id = input.uploadId →
      upload.cleanupLeaseExpiresAt ≠ some input.cleanupLeaseExpiresAt) :
    Transaction.commit (applyCleanupResult input) db = db := by
  apply updateUploads_of_none
  · intro upload hupload hcond
    simp only [hasCleanupLease, decide_eq_true_eq] at hcond
    exact hstale upload hupload hcond.1 hcond.2
  · intro rows written value db' h
    exact (Prod.mk.inj (Except.ok.inj h)).2.symm

/-! ### Recorded deletions of staging objects -/

/-- The deletion of a staging object is recorded only after it has taken effect. -/
def StagingRecorded (w : World) : Prop :=
  ∀ upload ∈ w.db.profileUploads, upload.stagingDeletedAt ≠ none →
    Landed .delete upload.stagingKey w

/-- What a step of a call does to the staging columns. -/
structure RecordStep (before after : World) : Prop where
  onward : StagingOnward before after
  rows : Evolve (StagingEvolves fun key => Landed .delete key before)
    (fun upload => upload.stagingDeletedAt = none) before.db.profileUploads after.db.profileUploads

theorem recordStep_of_db_eq {before after : World} (hdb : after.db = before.db)
    (hrequests : RequestsKept before.requests after.requests) : RecordStep before after where
  onward := .of_db_eq hdb hrequests
  rows := by
    rw [hdb]
    exact Evolve.refl (StagingEvolves.same _) _

def recordLogic : Logic World UploadRequest Failure Unit where
  invariant w := UniqueKey ProfileUpload.id w.db.profileUploads ∧ StagingRecorded w
  rely _ := StagingOnward
  guarantee _ _ := RecordStep
  allowed _ _ := True
  requires request w := ∀ job, request = .cleanupJob job → HasRow job.upload w
  ensures _ _ _ _ := True
  rely_refl _ := .refl
  rely_trans h h' := h.trans h'
  guarantee_refl _ _ _ := recordStep_of_db_eq rfl (.refl _)
  rely_of_guarantee _ h := h.onward

section Record

variable {request : UploadRequest} {pid : ℕ} {w after : World} {config : UploadConfig}

theorem StagingRecorded.of_requests (h : StagingRecorded w) (hdb : after.db = w.db)
    (hrequests : RequestsKept w.requests after.requests) : StagingRecorded after := by
  unfold StagingRecorded
  rw [hdb]
  intro upload hupload hdeleted
  exact (h upload hupload hdeleted).keep hrequests

/-- A step that leaves the database alone. -/
theorem record_of_db_eq (hinv : recordLogic.invariant w) (hdb : after.db = w.db)
    (hrequests : RequestsKept w.requests after.requests) :
    recordLogic.invariant after ∧ recordLogic.guarantee request pid w after := by
  refine ⟨⟨?_, hinv.2.of_requests hdb hrequests⟩, recordStep_of_db_eq hdb hrequests⟩
  rw [hdb]
  exact hinv.1

instance : TracksStaging recordLogic where
  unique hinv := hinv.1
  onward h := h
  write hinv hwrite := ⟨⟨hwrite.unique, hwrite.recorded hinv.2⟩, hwrite.onward, hwrite.rows⟩
  reject _ hinv := record_of_db_eq hinv rfl (.refl _)
  send hinv _ := record_of_db_eq hinv rfl (.append _ _)
  job h := by
    intro job hjob
    obtain rfl := UploadRequest.cleanupJob.inj hjob
    exact h

/-! ### The calls on accounts and profiles -/

/-- What the staging object of a row is and whether its deletion is recorded. -/
def stagingColumns (upload : ProfileUpload) : Uuid × Text × Option Timestamp :=
  (upload.id, upload.stagingKey, upload.stagingDeletedAt)

/-- A step that has nothing to do with staging objects. -/
structure StepsAside (before after : World) : Prop where
  columns : after.db.profileUploads.map stagingColumns = before.db.profileUploads.map stagingColumns
  requests : after.requests = before.requests

theorem StepsAside.record (h : StepsAside w after) (hinv : recordLogic.invariant w) :
    recordLogic.invariant after ∧ recordLogic.guarantee request pid w after := by
  have hrows : Evolve (StagingEvolves fun key => Landed .delete key w)
      (fun upload => upload.stagingDeletedAt = none) w.db.profileUploads
        after.db.profileUploads := by
    have hsame {rows rows' : List ProfileUpload} {upload : ProfileUpload}
        (hrows : rows'.map stagingColumns = rows.map stagingColumns) (hupload : upload ∈ rows) :
        ∃ upload' ∈ rows', stagingColumns upload' = stagingColumns upload :=
      List.mem_map.1 (hrows ▸ List.mem_map_of_mem hupload)
    constructor
    · intro upload hupload
      obtain ⟨upload', hupload', hcolumns⟩ := hsame h.columns hupload
      simp only [stagingColumns, Prod.mk.injEq] at hcolumns
      exact ⟨upload', hupload', hcolumns.1, hcolumns.2.1, Or.inl hcolumns.2.2⟩
    · intro upload' hupload'
      obtain ⟨upload, hupload, hcolumns⟩ := hsame h.columns.symm hupload'
      simp only [stagingColumns, Prod.mk.injEq] at hcolumns
      exact Or.inl ⟨upload, hupload, hcolumns.1.symm, hcolumns.2.1.symm, Or.inl hcolumns.2.2.symm⟩
  have hids : after.db.profileUploads.map ProfileUpload.id =
      w.db.profileUploads.map ProfileUpload.id := by
    have hfirst := congrArg (List.map Prod.fst) h.columns
    rwa [List.map_map, List.map_map] at hfirst
  have hwrite : StagingWrite (fun key => Landed .delete key w) w.db after.db := by
    refine ⟨hrows, ?_⟩
    unfold UniqueKey
    rw [hids]
    exact hinv.1
  have hrequests : RequestsKept w.requests after.requests := by
    rw [h.requests]
    exact .refl _
  have hrecorded : StagingRecorded (w.withDb after.db) := hwrite.recorded hinv.2
  exact ⟨⟨hwrite.unique, hrecorded.of_requests rfl hrequests⟩,
    ⟨hwrite.onward.rows, hrequests⟩, hrows⟩

/-- Whatever a call writes besides, its steps leave the staging columns alone. -/
theorem asideKind : StepKind pid (fun before after =>
    after.profileUploads.map stagingColumns = before.profileUploads.map stagingColumns)
    StepsAside :=
  kind_of_callStep (fun _ => rfl) fun hstep => ⟨hstep.writes, hstep.requests⟩

theorem writesAside_of_eq {β : Type} {call : Call Database Failure β}
    (h : ∀ db value db', call db = .ok (value, db') → db'.profileUploads = db.profileUploads) :
    WritesOnly (fun before after =>
      after.profileUploads.map stagingColumns = before.profileUploads.map stagingColumns) call := by
  intro db value db' hok
  rw [h db value db' hok]

/-- An erasure fails the uploads of the account, and keeps what their staging objects are. -/
theorem anonymizeUploads_stagingColumns (input : DeletionJobInput) (uploads : List ProfileUpload) :
    (anonymizeUploads input uploads).map stagingColumns = uploads.map stagingColumns := by
  unfold anonymizeUploads updateWhere
  rw [List.map_map, List.map_map]
  apply List.map_congr_left
  intro upload _
  simp only [Function.comp_apply]
  split <;> split <;> rfl

/-- A call that takes only steps that have nothing to do with staging objects. -/
theorem holds_aside {β : Type} {program : Prog World UploadRequest Failure β}
    (hstays : program.Stays StepsAside pid) :
    recordLogic.Holds request pid program (fun _ _ => True) (fun _ _ => True) w :=
  Logic.holds_of_stays hstays fun hinv _ hstep => hstep.record hinv

theorem record_uploadCode (hready : recordLogic.requires request w) :
    recordLogic.Holds request pid (uploadCode config request) (fun _ _ => True)
      (fun _ _ => True) w := by
  cases request with
  | createUpload userId metadata => exact staging_discard staging_createUpload
  | finalizeUpload userId uploadId => exact staging_discard staging_finalizeUpload
  | cleanupExpiredStagingBatch now limit =>
      exact staging_discard staging_cleanupExpiredStagingBatch
  | cleanupJob job => exact staging_discard (staging_cleanupJob (hready job rfl))
  | replaceProfile input =>
      apply staging_discard
      apply holds_aside
      apply stays_replaceProfile asideKind
      exact fun _ _ _ _ _ _ => writesAside_of_eq fun _ _ _ hok => (writeProfile_ok hok).1
  | scheduleDeletion userId scheduledFor =>
      apply staging_discard
      apply holds_aside
      apply stays_scheduleDeletion asideKind
      intro now completedAt scheduled sessions tokenIds
      exact writesAside_of_eq fun _ _ _ hok => (writeSchedule_frame hok).1
  | restoreScheduledDeletion userId now =>
      apply staging_discard
      apply holds_aside
      apply asideKind.statement
      apply writesAside_of_eq
      intro db value db' hok
      obtain ⟨-, rfl⟩ := Prod.mk.inj (Except.ok.inj hok)
      rfl
  | claimDueDeletionBatch input =>
      apply staging_discard
      apply holds_aside
      apply asideKind.choosing
      exact fun candidates => writesAside_of_eq fun _ _ _ hok =>
        (claimDueDeletionBatch_frame hok).1
  | releaseDeletionLease input =>
      apply holds_aside
      apply asideKind.statement
      apply writesAside_of_eq
      intro db value db' hok
      obtain ⟨-, rfl⟩ := Prod.mk.inj (Except.ok.inj hok)
      rfl
  | anonymizeDeletedAccount input =>
      apply holds_aside
      apply stays_anonymizeDeletedAccount asideKind
      intro matchRooms db value db' hok
      rw [(writeAnonymized_ok hok).uploads]
      exact anonymizeUploads_stagingColumns input db.profileUploads

theorem record_sound (config : UploadConfig) : recordLogic.Sound (uploadSystem config) where
  accepts := fun haccepted _ job hjob => absurd hjob (haccepted job)
  code _ hready _ _ := record_uploadCode hready
  environment := by
    intro before after hstep _ hinv
    have hrequests : RequestsKept before.requests after.requests := by
      cases hstep with
      | moves hmoves => exact (requestsMove hmoves).kept
      | staged key staging => exact .refl _
    refine ⟨⟨?_, hinv.2.of_requests hstep.keeps_db hrequests⟩, fun _ =>
      .of_db_eq hstep.keeps_db hrequests⟩
    rw [hstep.keeps_db]
    exact hinv.1
  rollback _ hinv :=
    ⟨⟨hinv.1, hinv.2.of_requests rfl (.refl _)⟩, fun _ _ => .of_db_eq rfl (.refl _)⟩

end Record

/-! ### Every run -/

section Runs

variable {config : UploadConfig} {c c' : Config World UploadRequest Failure Unit} {db : Database}

theorem stagingRecorded (hnew : NoUploads db)
    (hrun : UploadRun config (.idle (.ofDatabase db)) c) : StagingRecorded c.state := by
  have hinv : recordLogic.invariant (World.ofDatabase db) := by
    constructor
    · change UniqueKey ProfileUpload.id db.profileUploads
      rw [hnew.uploads]
      exact List.nodup_nil
    · intro upload hupload
      have hnone : upload ∈ db.profileUploads := hupload
      rw [hnew.uploads] at hnone
      cases hnone
  exact ((record_sound config).reachable (Logic.good_idle hinv fun _ => trivial) hrun).invariant.2

/-- The deletion of a public object is recorded only after one has taken effect. -/
def FinalRecorded (w : World) : Prop :=
  ∀ upload ∈ w.db.profileUploads, upload.finalDeletedAt ≠ none →
    ∃ key, IsFinalKey upload.id key ∧ Landed .delete key w

theorem finalRecorded (hnew : NoUploads db)
    (hrun : UploadRun config (.idle (.ofDatabase db)) c) : FinalRecorded c.state := by
  have hkeep {before after : World} (hdb : after.db = before.db)
      (hrequests : RequestsKept before.requests after.requests) (h : FinalRecorded before) :
      FinalRecorded after := by
    unfold FinalRecorded
    rw [hdb]
    intro upload hupload hdeleted
    obtain ⟨key, hkey, hlanded⟩ := h upload hupload hdeleted
    exact ⟨key, hkey, hlanded.keep hrequests⟩
  have hstart : FinalRecorded (World.ofDatabase db) := by
    intro upload hupload
    have hnone : upload ∈ db.profileUploads := hupload
    rw [hnew.uploads] at hnone
    cases hnone
  have hgood : (uploadLogic false).Good (.idle (World.ofDatabase db)) :=
    UploadRun.good hnew (Relation.ReflTransGen.refl : UploadRun config _ _)
  apply (sound config false).preserves FinalRecorded hgood hrun (fun _ _ _ h => by cases h) hstart
  · -- A step of a call records what the store has deleted for it.
    intro request pid before after hinv hguar _ h upload' hupload' hdeleted
    rcases hguar.rows.back upload' hupload' with ⟨upload, hupload, hevolves⟩ | ⟨input, rfl, -⟩
    · rw [hevolves.progress.id]
      by_cases hbefore : upload.finalDeletedAt = none
      · obtain ⟨key, hkey, hforgets⟩ :=
          hevolves.recordsFinal (hinv.1.uploads.rows upload hupload) hbefore hdeleted
        exact ⟨key, hinv.1.uploads.published upload hupload key hkey,
          Landed.keep hforgets hguar.requests⟩
      · obtain ⟨key, hkey, hlanded⟩ := h upload hupload hbefore
        exact ⟨key, hkey, hlanded.keep hguar.requests⟩
    · exact absurd rfl hdeleted
  · intro before after hstep
    apply hkeep hstep.keeps_db
    cases hstep with
    | moves hmoves => exact (requestsMove hmoves).kept
    | staged key staging => exact .refl _
  · exact fun pid before => hkeep rfl (.refl _)

/-- What a step takes from a row of the table has been deleted. -/
theorem deleted_of_step (hgood : (uploadLogic false).Good c)
    (hstep : Step (uploadSystem config) c c') {upload upload' : ProfileUpload}
    (hupload : upload ∈ c.state.db.profileUploads)
    (hupload' : upload' ∈ c'.state.db.profileUploads) (hid : upload'.id = upload.id) :
    (upload.finalDeletedAt = none → upload'.finalDeletedAt ≠ none →
      ∃ key, upload.finalKey = some key ∧ Landed .delete key c.state) ∧
    ∀ key, upload.finalKey = some key → upload'.finalKey ≠ some key →
      Landed .delete key c.state := by
  by_cases hsame : upload' = upload
  · subst hsame
    exact ⟨fun hbefore hafter => absurd hbefore hafter, fun key hkey hlost => absurd hkey hlost⟩
  obtain ⟨pid, thread, -, hevolves⟩ := evolves_of_changed hgood hstep hupload hupload' hid hsame
  have hrow := hgood.invariant.1.uploads.rows upload hupload
  refine ⟨hevolves.recordsFinal hrow, fun key hkey hlost => ?_⟩
  rcases hevolves.finalKey with (hkept | ⟨hforgets, -⟩) | ⟨hnone, -⟩
  · exact absurd (hkept.trans hkey) hlost
  · exact hforgets key hkey
  · rw [hnone] at hkey
    cases hkey

/-- In every run, a row that owes a deletion comes up for cleanup, whatever has become of its
leases; a deletion is recorded, and the key of a public object taken from its row, only after the
store has carried the deletion out; and a worker whose lease is not the row's changes nothing. -/
theorem cleanup_never_forgets (hnew : NoUploads db)
    (hrun : UploadRun config (.idle (.ofDatabase db)) c) :
    (∀ upload ∈ c.state.db.profileUploads, OwesDeletion upload →
      ∃ since, ∀ now, since ≤ now → cleanupDue now upload = true) ∧
    (∀ upload ∈ c.state.db.profileUploads,
      (upload.stagingDeletedAt ≠ none → Landed .delete upload.stagingKey c.state) ∧
      (upload.finalDeletedAt ≠ none →
        ∃ key, IsFinalKey upload.id key ∧ Landed .delete key c.state)) ∧
    (∀ c', Step (uploadSystem config) c c' →
      ∀ upload ∈ c.state.db.profileUploads, ∀ upload' ∈ c'.state.db.profileUploads,
        upload'.id = upload.id →
          (upload.finalDeletedAt = none → upload'.finalDeletedAt ≠ none →
            ∃ key, upload.finalKey = some key ∧ Landed .delete key c.state) ∧
          ∀ key, upload.finalKey = some key → upload'.finalKey ≠ some key →
            Landed .delete key c.state) ∧
    ∀ input : CleanupResultInput,
      (∀ upload ∈ c.state.db.profileUploads, upload.id = input.uploadId →
        upload.cleanupLeaseExpiresAt ≠ some input.cleanupLeaseExpiresAt) →
      Transaction.commit (applyCleanupResult input) c.state.db = c.state.db := by
  have hgood := hrun.good hnew
  refine ⟨?_, ?_, ?_, fun input => applyCleanupResult_stale⟩
  · intro upload hupload howed
    exact cleanupDue_eventually (hgood.invariant.1.uploads.rows upload hupload) howed
  · intro upload hupload
    exact ⟨stagingRecorded hnew hrun upload hupload, finalRecorded hnew hrun upload hupload⟩
  · intro c' hstep upload hupload upload' hupload' hid
    exact deleted_of_step hgood hstep hupload hupload' hid

end Runs

/-- The upload of a shown photo still owes the deletion of its staging object, and a lease that
nobody has changes nothing of it. -/
theorem cleanup_never_forgets_photoShown :
    UploadRun oneConfig (.idle (.ofDatabase oneAccount)) photoShown ∧
      OwesDeletion verifiedUpload ∧
      (∃ since, ∀ now, since ≤ now → cleanupDue now verifiedUpload = true) ∧
      Transaction.commit (applyCleanupResult ⟨oneUploadId.toUuid, 5, true, true, none, 5⟩)
        withPhoto = withPhoto := by
  have hrun := photoShown_run.uploadRun
  obtain ⟨hdue, -, -, hstale⟩ := cleanup_never_forgets noUploads_oneAccount hrun
  have howed : OwesDeletion verifiedUpload := Or.inl rfl
  refine ⟨hrun, howed, hdue _ (List.mem_singleton_self _) howed, hstale _ ?_⟩
  intro upload hupload _
  obtain rfl := List.mem_singleton.1 hupload
  decide

end ChatTea.Upload
