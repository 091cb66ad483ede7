import ChatTea.Notification.Batches
import ChatTea.Notification.Repository

/-!
# The outbox in the course of time

Notifications put jobs into the outbox, batches claim them and store their results, and the rest
of the service cancels and deletes them. Whatever the order of these transactions, a job has a
ticket only after it was sent.

## Main definitions

* `OutboxReady` — what every transaction leaves
* `OtherPushWrites`, `OutboxRun` — what the outbox goes through
* `ClaimedJobs` — the jobs of a claim

## Main results

* `OutboxRun.ready` — the outbox is ready after every run
* `registerPushToken_other` — a registration is one of the other writes
* `claimSendBatch_claimed`, `claimReceiptBatch_claimed` — what a claim returns
-/

namespace ChatTea.Notification

open Table Transaction
open Users (cancelPush deletePushTokens isOpenPush)

variable {now : Timestamp} {db db' : Database} {row : PushOutbox} {values : PushOutboxValues}

/-- What every transaction leaves: a job that is not sent has no ticket. -/
structure OutboxReady (db : Database) : Prop where
  ids : UniqueKey PushOutbox.id db.pushOutbox
  drawn : ∀ row ∈ db.pushOutbox, row.id < db.nextRowId
  unsent : ∀ row ∈ db.pushOutbox, row.status = .queued ∨ row.status = .sending → row.ticketId = none

/-- The rest of the service cancels jobs and deletes them. -/
structure OtherPushWrites (before after : Database) : Prop where
  ids : (after.pushOutbox.map (·.id)).Sublist (before.pushOutbox.map (·.id))
  kept : ∀ row' ∈ after.pushOutbox, ∃ row ∈ before.pushOutbox, row'.id = row.id ∧
    row'.ticketId = row.ticketId ∧ (row'.status = row.status ∨ row'.status = .cancelled)
  drawn : before.nextRowId ≤ after.nextRowId

/-- What the outbox goes through, one transaction after the other. -/
inductive OutboxRun : Database → Prop
  | start {db : Database} (h : db.pushOutbox = []) : OutboxRun db
  | notify {db db' : Database} {input : CreateNotificationInput} {enqueuePush : Bool}
      {now : Timestamp} {notification : ChatTea.Notification} (hrun : OutboxRun db)
      (h : createWithPushOutbox input enqueuePush now db = .ok (notification, db')) : OutboxRun db'
  | claimSend {db db' : Database} {now leaseExpiresAt : Timestamp} {scan : Scan} {limit : ℕ}
      {claimed : PushClaimBatch} (hrun : OutboxRun db)
      (h : claimSendBatch now leaseExpiresAt scan limit db = .ok (claimed, db')) : OutboxRun db'
  | applySend {db db' : Database} {results : List PushSendResult} {now : Timestamp}
      (hrun : OutboxRun db) (h : applySendResults results now db = .ok ((), db')) : OutboxRun db'
  | claimReceipts {db db' : Database} {now leaseExpiresAt : Timestamp} {scan : Scan} {limit : ℕ}
      {claimed : PushClaimBatch} (hrun : OutboxRun db)
      (h : claimReceiptBatch now leaseExpiresAt scan limit db = .ok (claimed, db')) : OutboxRun db'
  | applyReceipts {db db' : Database} {results : List PushReceiptResult} {now : Timestamp}
      (hrun : OutboxRun db) (h : applyReceiptResults results now db = .ok ((), db')) : OutboxRun db'
  | other {db db' : Database} (hrun : OutboxRun db) (h : OtherPushWrites db db') : OutboxRun db'

theorem OtherPushWrites.ready (h : OtherPushWrites db db') (hready : OutboxReady db) :
    OutboxReady db' where
  ids := h.ids.nodup hready.ids
  drawn := by
    intro row' hrow'
    obtain ⟨row, hrow, hid, -⟩ := h.kept row' hrow'
    have hdrawn : row.id < db.nextRowId := hready.drawn row hrow
    rw [hid]
    exact hdrawn.trans_le h.drawn
  unsent := by
    intro row' hrow' hstatus
    obtain ⟨row, hrow, -, hticket, hsame⟩ := h.kept row' hrow'
    rw [hticket]
    apply hready.unsent row hrow
    rcases hsame with hsame | hcancelled
    · rwa [hsame] at hstatus
    · rw [hcancelled] at hstatus
      simp at hstatus

theorem OtherPushWrites.refl (db : Database) : OtherPushWrites db db where
  ids := List.Sublist.refl _
  kept row' hrow' := ⟨row', hrow', rfl, rfl, Or.inl rfl⟩
  drawn := le_rfl

theorem OtherPushWrites.trans {db'' : Database} (h : OtherPushWrites db db')
    (h' : OtherPushWrites db' db'') : OtherPushWrites db db'' where
  ids := h'.ids.trans h.ids
  kept := by
    intro row'' hrow''
    obtain ⟨row', hrow', hid', hticket', hstatus'⟩ := h'.kept row'' hrow''
    obtain ⟨row, hrow, hid, hticket, hstatus⟩ := h.kept row' hrow'
    refine ⟨row, hrow, hid'.trans hid, hticket'.trans hticket, ?_⟩
    rcases hstatus' with hsame | hcancelled
    · rwa [hsame]
    · exact Or.inr hcancelled
  drawn := h.drawn.trans h'.drawn

/-- An update that cancels jobs, or leaves their status alone. -/
theorem OtherPushWrites.of_updateWhere {cond : PushOutbox → Bool} {set : PushOutbox → PushOutbox}
    (hset : ∀ row, (set row).id = row.id ∧ (set row).ticketId = row.ticketId ∧
      ((set row).status = row.status ∨ (set row).status = .cancelled))
    (hrows : db'.pushOutbox = updateWhere cond set db.pushOutbox)
    (hdrawn : db.nextRowId ≤ db'.nextRowId) : OtherPushWrites db db' where
  ids := by
    have hids : (updateWhere cond set db.pushOutbox).map (·.id) = db.pushOutbox.map (·.id) :=
      map_key_updateWhere fun row => (hset row).1
    rw [hrows, hids]
  kept := by
    intro row' hrow'
    rw [hrows, mem_updateWhere] at hrow'
    rcases hrow' with ⟨row, hrow, -, rfl⟩ | ⟨hrow, -⟩
    · exact ⟨row, hrow, hset row⟩
    · exact ⟨row', hrow, rfl, rfl, Or.inl rfl⟩
  drawn := hdrawn

theorem deletePushTokens_other (cond : PushToken → Bool) (db : Database) :
    OtherPushWrites db (deletePushTokens cond db) := by
  apply OtherPushWrites.of_updateWhere _ (rfl : (deletePushTokens cond db).pushOutbox = _) le_rfl
  exact fun _ => ⟨rfl, rfl, Or.inl rfl⟩

theorem cancelJobs_other (pushTokenId : RowId) (statuses : PushOutboxStatus → Bool)
    (now : Timestamp) (db : Database) :
    OtherPushWrites db (cancelJobs pushTokenId statuses now db) := by
  apply OtherPushWrites.of_updateWhere _
    (rfl : (cancelJobs pushTokenId statuses now db).pushOutbox = _) le_rfl
  exact fun _ => ⟨rfl, rfl, Or.inr rfl⟩

/-- A write outside the outbox. -/
theorem OtherPushWrites.of_same (hrows : db'.pushOutbox = db.pushOutbox)
    (hdrawn : db.nextRowId ≤ db'.nextRowId) : OtherPushWrites db db' where
  ids := by rw [hrows]
  kept row' hrow' := ⟨row', hrows ▸ hrow', rfl, rfl, Or.inl rfl⟩
  drawn := hdrawn

theorem dropRequested_other (requested : Option PushToken) (now : Timestamp) (db : Database) :
    OtherPushWrites db (dropRequested requested now db) := by
  cases requested with
  | none => exact .refl db
  | some requested =>
      exact (cancelJobs_other requested.id isOpenPush now db).trans (deletePushTokens_other _ _)

theorem moveJobs_other (pushTokenId : RowId) (token : String) (now : Timestamp) (db : Database) :
    OtherPushWrites db (moveJobs pushTokenId token now db) := by
  have hqueued : OtherPushWrites db { db with
      pushOutbox :=
        updateWhere (fun row => row.pushTokenId = some pushTokenId ∧ row.status = .queued)
          (fun row => { row with tokenSnapshot := token }) db.pushOutbox } := by
    apply OtherPushWrites.of_updateWhere
    case hrows => exact rfl
    case hset => exact fun _ => ⟨rfl, rfl, Or.inl rfl⟩
    case hdrawn => exact le_rfl
  exact hqueued.trans (cancelJobs_other pushTokenId isInFlightPush now _)

/-- A registration is one of the other writes. -/
theorem registerPushToken_other {input : RegisterPushTokenInput}
    (h : registerPushToken input now db = .ok ((), db')) : OtherPushWrites db db' := by
  obtain ⟨_, -, h⟩ := bind_eq_ok_iff.1 h
  split at h
  next deviceToken hdevice =>
    split at h
    · obtain ⟨-, rfl⟩ := Prod.mk.inj (pure_eq_ok_iff.1 h)
      exact .of_same rfl le_rfl
    · obtain ⟨db₁, hupdate, h⟩ := bind_eq_ok_iff.1 h
      obtain ⟨-, rfl⟩ := Prod.mk.inj (pure_eq_ok_iff.1 h)
      obtain ⟨_, -, hupdate⟩ := bind_eq_ok_iff.1 hupdate
      obtain rfl := pure_eq_ok_iff.1 hupdate
      exact ((dropRequested_other _ now db).trans (moveJobs_other _ _ now _)).trans
        (.of_same rfl le_rfl)
  next hdevice =>
    obtain ⟨db₁, hinsert, h⟩ := bind_eq_ok_iff.1 h
    obtain ⟨-, rfl⟩ := Prod.mk.inj (pure_eq_ok_iff.1 h)
    simp only [insertToken, bind_eq_ok_iff, require_eq_ok_iff, pure_eq_ok_iff] at hinsert
    obtain ⟨-, -, -, -, -, -, rfl⟩ := hinsert
    exact (dropRequested_other _ now db).trans (.of_same rfl (Nat.le_succ _))

/-! ### Notifications -/

/-- New jobs are drawn in turn, and have no ticket. -/
theorem insertPushOutbox_ready {input : CreateNotificationInput} {notificationId : RowId}
    {tokens : List PushToken} (h : OutboxReady db) :
    OutboxReady (insertPushOutbox input notificationId now tokens db) := by
  let created (new : PushToken × ℕ) : PushOutbox :=
    createdPush input notificationId now new.1 (db.nextRowId + new.2)
  have hnew (row : PushOutbox) (hrow : row ∈ tokens.zipIdx.map created) :
      db.nextRowId ≤ row.id ∧ row.id < db.nextRowId + tokens.length ∧ row.ticketId = none := by
    obtain ⟨⟨token, position⟩, hmem, rfl⟩ := List.mem_map.1 hrow
    have hposition : position < tokens.length := by
      have hlt := (List.mem_zipIdx hmem).2.1
      rwa [Nat.zero_add] at hlt
    exact ⟨Nat.le_add_right _ _, Nat.add_lt_add_left hposition _, rfl⟩
  constructor
  · unfold UniqueKey
    change ((db.pushOutbox ++ tokens.zipIdx.map created).map (fun row : PushOutbox => row.id)).Nodup
    rw [List.map_append, List.nodup_append]
    refine ⟨h.ids, ?_, ?_⟩
    · -- The new identifiers follow one another.
      have hids : (tokens.zipIdx.map created).map (·.id) =
          (tokens.zipIdx.map Prod.snd).map (db.nextRowId + ·) := by
        rw [List.map_map, List.map_map]
        rfl
      rw [hids, List.zipIdx_map_snd]
      exact List.Nodup.map (fun _ _ hsame => Nat.add_left_cancel hsame) List.nodup_range'
    · intro id hid id' hid' hsame
      obtain ⟨row, hrow, rfl⟩ := List.mem_map.1 hid
      obtain ⟨row', hrow', rfl⟩ := List.mem_map.1 hid'
      have hold : row.id < db.nextRowId := h.drawn row hrow
      have hfresh := (hnew row' hrow').1
      rw [← hsame] at hfresh
      exact absurd hold (not_lt.2 hfresh)
  · intro row hrow
    rcases List.mem_append.1 hrow with hold | hfresh
    · have hdrawn : row.id < db.nextRowId := h.drawn row hold
      exact Nat.lt_add_right _ hdrawn
    · exact (hnew row hfresh).2.1
  · intro row hrow hstatus
    rcases List.mem_append.1 hrow with hold | hfresh
    · exact h.unsent row hold hstatus
    · exact (hnew row hfresh).2.2

theorem createWithPushOutbox_ready {input : CreateNotificationInput} {enqueuePush : Bool}
    {notification : ChatTea.Notification} (h : OutboxReady db)
    (hcreated : createWithPushOutbox input enqueuePush now db = .ok (notification, db')) :
    OutboxReady db' := by
  obtain ⟨⟨created, inserted⟩, hinsert, hrest⟩ := bind_eq_ok_iff.1 hcreated
  simp only [insertNotification, bind_eq_ok_iff, require_eq_ok_iff, pure_eq_ok_iff,
    Prod.mk.injEq, exists_const] at hinsert
  obtain ⟨-, -, rfl, rfl⟩ := hinsert
  have hinserted : OutboxReady { db with
      notifications := db.notifications ++ [createdNotification input now db.nextRowId]
      nextRowId := db.nextRowId + 1 } := by
    apply OtherPushWrites.ready _ h
    apply OtherPushWrites.of_same
    · rfl
    · exact Nat.le_succ _
  cases enqueuePush with
  | false =>
      obtain ⟨rfl, rfl⟩ := Prod.mk.inj (pure_eq_ok_iff.1 hrest)
      exact hinserted
  | true =>
      obtain ⟨rfl, rfl⟩ := Prod.mk.inj (pure_eq_ok_iff.1 hrest)
      exact insertPushOutbox_ready hinserted

/-! ### Claims -/

/-- The jobs of a claim, in the outbox. -/
structure ClaimedJobs (status : PushOutboxStatus) (jobs : List PushOutbox) (db : Database) :
    Prop where
  unique : UniqueKey PushOutbox.id db.pushOutbox
  mem : ∀ job ∈ jobs, job ∈ db.pushOutbox
  claimed : ∀ job ∈ jobs, job.status = status
  nodup : (jobs.map (·.id)).Nodup

section Claims

variable {due : PushOutbox → Bool} {time : PushOutbox → Option Timestamp}
  {mark : PushOutbox → PushOutbox} {scan : Scan} {limit : ℕ} {claimed : PushClaimBatch}
  {status : PushOutboxStatus}

/-- A claim marks rows that are due, and returns them. -/
theorem claimBatch_ok (hids : UniqueKey PushOutbox.id db.pushOutbox)
    (h : claimBatch due time mark scan limit db = .ok (claimed, db')) :
    ∃ isSelected : PushOutbox → Bool, (∀ row ∈ db.pushOutbox, isSelected row → due row) ∧
      claimed.jobs.Perm (returning isSelected mark db.pushOutbox) ∧
        db' = { db with pushOutbox := updateWhere isSelected mark db.pushOutbox } := by
  unfold claimBatch at h
  dsimp only at h
  split at h
  · obtain ⟨rfl, rfl⟩ := Prod.mk.inj (Except.ok.inj h)
    refine ⟨fun _ => false, fun _ _ hfalse => absurd hfalse Bool.false_ne_true, ?_, ?_⟩
    · simp [returning]
    · rw [updateWhere_of_forall_not fun _ _ => Bool.false_ne_true]
  · obtain ⟨rfl, rfl⟩ := Prod.mk.inj (Except.ok.inj h)
    refine ⟨_, ?_, scan.perm _, rfl⟩
    intro row hrow hselected
    -- A row with the identifier of a selected one is the selected one.
    obtain ⟨found, hfound, hid⟩ := List.mem_map.1 (of_decide_eq_true hselected)
    have hmem := (List.mem_mergeSort.1 (List.mem_of_mem_take hfound))
    obtain ⟨hfound', hdue⟩ := List.mem_filter.1 hmem
    obtain rfl := hids.eq_of_key hfound' hrow hid
    exact (of_decide_eq_true hdue).1

theorem claimBatch_ready (hmark : ∀ row, (mark row).id = row.id)
    (hunsent : ∀ row ∈ db.pushOutbox, due row →
      (mark row).status = .queued ∨ (mark row).status = .sending → (mark row).ticketId = none)
    (hready : OutboxReady db) (h : claimBatch due time mark scan limit db = .ok (claimed, db')) :
    OutboxReady db' := by
  obtain ⟨isSelected, hdue, -, rfl⟩ := claimBatch_ok hready.ids h
  constructor
  · exact hready.ids.updateWhere hmark
  · intro row hrow
    rcases mem_updateWhere.1 hrow with ⟨old, hold, -, rfl⟩ | ⟨hrow, -⟩
    · have hdrawn : old.id < db.nextRowId := hready.drawn old hold
      rwa [hmark]
    · exact hready.drawn row hrow
  · intro row hrow hstatus
    rcases mem_updateWhere.1 hrow with ⟨old, hold, hselected, rfl⟩ | ⟨hrow, -⟩
    · exact hunsent old hold (hdue old hold hselected) hstatus
    · exact hready.unsent row hrow hstatus

theorem claimBatch_claimed (hmark : ∀ row, (mark row).id = row.id ∧ (mark row).status = status)
    (hids : UniqueKey PushOutbox.id db.pushOutbox)
    (h : claimBatch due time mark scan limit db = .ok (claimed, db')) :
    ClaimedJobs status claimed.jobs db' := by
  obtain ⟨isSelected, -, hperm, rfl⟩ := claimBatch_ok hids h
  have hreturned (job : PushOutbox) (hjob : job ∈ claimed.jobs) :
      ∃ old ∈ db.pushOutbox, isSelected old ∧ mark old = job := by
    obtain ⟨old, hold, rfl⟩ := List.mem_map.1 (hperm.mem_iff.1 hjob)
    exact ⟨old, (List.mem_filter.1 hold).1, (List.mem_filter.1 hold).2, rfl⟩
  constructor
  · exact hids.updateWhere fun row => (hmark row).1
  · intro job hjob
    obtain ⟨old, hold, hselected, rfl⟩ := hreturned job hjob
    exact mem_updateWhere.2 (Or.inl ⟨old, hold, hselected, rfl⟩)
  · intro job hjob
    obtain ⟨old, -, -, rfl⟩ := hreturned job hjob
    exact (hmark old).2
  · have hsame : (returning isSelected mark db.pushOutbox).map (·.id) =
        (db.pushOutbox.filter isSelected).map (·.id) := by
      rw [returning, List.map_map]
      exact List.map_congr_left fun row _ => (hmark row).1
    rw [(hperm.map _).nodup_iff, hsame]
    exact List.Nodup.sublist (List.Sublist.map _ List.filter_sublist) hids

theorem unsent_of_sendDue (hready : OutboxReady db) (hrow : row ∈ db.pushOutbox)
    (hdue : sendDue now row) : row.ticketId = none := by
  apply hready.unsent row hrow
  simp only [sendDue, decide_eq_true_eq] at hdue
  exact hdue.imp And.left And.left

variable {leaseExpiresAt : Timestamp}

/-- A claimed job has no ticket yet. -/
theorem claimSendBatch_claimed (hready : OutboxReady db)
    (h : claimSendBatch now leaseExpiresAt scan limit db = .ok (claimed, db')) :
    ClaimedJobs .sending claimed.jobs db' ∧ ∀ job ∈ claimed.jobs, job.ticketId = none := by
  unfold claimSendBatch at h
  have hclaimed : ClaimedJobs .sending claimed.jobs db' := by
    apply claimBatch_claimed _ hready.ids h
    exact fun _ => ⟨rfl, rfl⟩
  refine ⟨hclaimed, ?_⟩
  obtain ⟨isSelected, hdue, hperm, -⟩ := claimBatch_ok hready.ids h
  intro job hjob
  obtain ⟨old, hold, rfl⟩ := List.mem_map.1 (hperm.mem_iff.1 hjob)
  obtain ⟨hrow, hselected⟩ := List.mem_filter.1 hold
  have hunsent : old.ticketId = none := unsent_of_sendDue hready hrow (hdue old hrow hselected)
  exact hunsent

theorem claimReceiptBatch_claimed (hready : OutboxReady db)
    (h : claimReceiptBatch now leaseExpiresAt scan limit db = .ok (claimed, db')) :
    ClaimedJobs .receiptChecking claimed.jobs db' := by
  unfold claimReceiptBatch at h
  apply claimBatch_claimed _ hready.ids h
  exact fun _ => ⟨rfl, rfl⟩

end Claims

/-! ### Results -/

section Results

variable {id : RowId} {isClaimed : PushOutbox → Bool} {token : Option RowId}
  {outcome : Except Failure PushOutboxValues}

theorem applyResult_nextRowId (h : applyResult id isClaimed outcome token now db = .ok db') :
    db'.nextRowId = db.nextRowId := by
  obtain ⟨values, -, h⟩ := bind_eq_ok_iff.1 h
  obtain ⟨⟨updated, db₁⟩, hupdate, hrest⟩ := bind_eq_ok_iff.1 h
  obtain ⟨_, -, hupdated⟩ := bind_eq_ok_iff.1 hupdate
  obtain ⟨rfl, rfl⟩ := Prod.mk.inj (pure_eq_ok_iff.1 hupdated)
  cases token with
  | none =>
      obtain rfl := pure_eq_ok_iff.1 hrest
      rfl
  | some pushTokenId =>
      cases hany : db.pushOutbox.any isClaimed with
      | false =>
          rw [hany] at hrest
          obtain rfl := pure_eq_ok_iff.1 hrest
          rfl
      | true =>
          rw [hany] at hrest
          obtain rfl := pure_eq_ok_iff.1 hrest
          rfl

/-- A result that puts no ticket into a job that is not sent. -/
theorem applyResult_ready (hclaimed : ∀ row, isClaimed row → row.id = id)
    (hset : ∀ values row, outcome = .ok values → row ∈ db.pushOutbox → isClaimed row →
      values.status = .queued ∨ values.status = .sending → (values.set row).ticketId = none)
    (hready : OutboxReady db) (h : applyResult id isClaimed outcome token now db = .ok db') :
    OutboxReady db' := by
  have hdrawn := applyResult_nextRowId h
  obtain ⟨values, hvalues, -, hmoves⟩ := applyResult_ok hclaimed h
  split at hmoves
  · have hids : db'.pushOutbox.map (·.id) = db.pushOutbox.map (·.id) :=
      Pointwise.map_eq hmoves fun _ _ _ hclears => hclears.id_eq.trans written_id
    constructor
    · unfold UniqueKey
      have hnodup : (db.pushOutbox.map (·.id)).Nodup := hready.ids
      rwa [← hids] at hnodup
    · intro row' hrow'
      obtain ⟨row, hrow, hclears⟩ := Pointwise.exists_before hmoves hrow'
      have hold : row.id < db.nextRowId := hready.drawn row hrow
      rwa [hclears.id_eq, written_id, hdrawn]
    · intro row' hrow' hstatus
      obtain ⟨row, hrow, hclears⟩ := Pointwise.exists_before hmoves hrow'
      rw [hclears.status_eq] at hstatus
      rw [hclears.ticketId_eq]
      by_cases hown : isClaimed row
      · rw [written, if_pos hown] at hstatus ⊢
        exact hset values row hvalues hrow hown hstatus
      · rw [written_ticketId hown]
        apply hready.unsent row hrow
        rw [written, if_neg hown] at hstatus
        split at hstatus
        · rcases hstatus with hstatus | hstatus <;> cases hstatus
        · exact hstatus
  · rwa [hmoves]

theorem applySendResult_ready {result : PushSendResult} (hready : OutboxReady db)
    (h : applySendResult now db result = .ok db') : OutboxReady db' := by
  apply applyResult_ready _ _ hready h
  · intro row hrow
    simp only [isClaimedJob, decide_eq_true_eq] at hrow
    exact hrow.1
  · intro values row hvalues hrow hclaimed hstatus
    simp only [isClaimedJob, decide_eq_true_eq] at hclaimed
    have hunsent := hready.unsent row hrow (Or.inr hclaimed.2.1)
    rw [set_ticketId, hunsent, Option.or_none]
    -- Only a result that is accepted brings a ticket, and its job is not queued.
    unfold sendResultValues at hvalues
    split at hvalues
    · split at hvalues
      · obtain rfl := Except.ok.inj hvalues
        simp at hstatus
      · cases hvalues
    · split at hvalues
      · obtain rfl := Except.ok.inj hvalues
        rfl
      · cases hvalues
    · obtain rfl := Except.ok.inj hvalues
      rfl
    · obtain rfl := Except.ok.inj hvalues
      rfl

theorem applyReceiptResult_ready {result : PushReceiptResult} (hready : OutboxReady db)
    (h : applyReceiptResult now db result = .ok db') : OutboxReady db' := by
  apply applyResult_ready _ _ hready h
  · intro row hrow
    simp only [isClaimedJob, decide_eq_true_eq] at hrow
    exact hrow.1
  · intro values row hvalues _ _ hstatus
    unfold receiptResultValues at hvalues
    split at hvalues
    · obtain rfl := Except.ok.inj hvalues
      simp at hstatus
    · split at hvalues
      · obtain rfl := Except.ok.inj hvalues
        simp at hstatus
      · cases hvalues
    · obtain rfl := Except.ok.inj hvalues
      simp at hstatus
    · obtain rfl := Except.ok.inj hvalues
      simp at hstatus

end Results

/-- In every state that the outbox comes to, a job has a ticket only after it was sent. -/
theorem OutboxRun.ready (hrun : OutboxRun db) : OutboxReady db := by
  induction hrun with
  | start h =>
      constructor <;> simp [UniqueKey, h]
  | notify hrun h ih => exact createWithPushOutbox_ready ih h
  | claimSend hrun h ih =>
      unfold claimSendBatch at h
      apply claimBatch_ready _ _ ih h
      · exact fun _ => rfl
      · intro row hrow hdue _
        have hunsent : row.ticketId = none := unsent_of_sendDue ih hrow hdue
        exact hunsent
  | applySend hrun h ih =>
      obtain ⟨db₁, hloop, hend⟩ := bind_eq_ok_iff.1 h
      obtain ⟨-, rfl⟩ := Prod.mk.inj (pure_eq_ok_iff.1 hend)
      exact foldlM_ok OutboxReady ih
        (fun result _ before after hbefore hround => applySendResult_ready hbefore hround) hloop
  | claimReceipts hrun h ih =>
      unfold claimReceiptBatch at h
      apply claimBatch_ready _ _ ih h
      · exact fun _ => rfl
      · intro row _ _ hstatus
        rcases hstatus with hstatus | hstatus <;> cases hstatus
  | applyReceipts hrun h ih =>
      obtain ⟨db₁, hloop, hend⟩ := bind_eq_ok_iff.1 h
      obtain ⟨-, rfl⟩ := Prod.mk.inj (pure_eq_ok_iff.1 hend)
      exact foldlM_ok OutboxReady ih
        (fun result _ before after hbefore hround => applyReceiptResult_ready hbefore hround) hloop
  | other hrun h ih => exact h.ready ih

end ChatTea.Notification
