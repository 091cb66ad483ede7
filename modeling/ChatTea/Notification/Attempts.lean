import ChatTea.Notification.Calls
import ChatTea.Notification.Delivery

/-!
# Attempts

An attempt is a claim of a job and what its worker stores for it. The result names the job and the
number of the attempt, and is stored only while the job is still claimed for that attempt.

## Main definitions

* `StoredResult` — the result of an attempt, of either phase
* `StoredResult.For` — what a worker may make of a job that it has claimed
* `storedResults` — the results of a batch that are stored
* `unregisteredBySend`, `unregisteredByReceipts` — the tokens that Expo no longer knows

## Main results

* `sendResults_for`, `receiptResults_for` — the results of a batch are ones of its jobs
* `claim_ok`, `claim_push` — a claim keeps the invariant
* `applyStored_push`, `applyAll_push` — so do the results
* `storedResults_spec` — a result that is stored ends its attempt
* `removed_spec` — a batch gives up only tokens that Expo no longer knows
-/

namespace ChatTea.Notification

open Table Transaction
open Users (cancelPush deletePushTokens isOpenPush)

/-! ### Results of either phase -/

structure StoredResult where
  id : RowId
  attempt : ℕ
  values : Except Failure PushOutboxValues
  invalidates : Option RowId

def PushSendResult.toStored (now : Timestamp) (result : PushSendResult) : StoredResult where
  id := result.id
  attempt := result.attempt
  values := sendResultValues result now
  invalidates := result.invalidatePushTokenId

def PushReceiptResult.toStored (now : Timestamp) (result : PushReceiptResult) : StoredResult where
  id := result.id
  attempt := result.attempt
  values := receiptResultValues result now
  invalidates := result.invalidatePushTokenId

/-- The job of a result, while it is claimed for the attempt of the result. -/
def StoredResult.isClaimed (phase : PushPhase) (result : StoredResult) : PushOutbox → Bool :=
  isClaimedJob phase.status phase.attempts result.id result.attempt

/-- One round of the loop over the results. -/
def applyStored (phase : PushPhase) (now : Timestamp) (db : Database) (result : StoredResult) :
    Except Failure Database :=
  applyResult result.id (result.isClaimed phase) result.values result.invalidates now db

def applyAll (phase : PushPhase) (now : Timestamp) (results : List StoredResult) :
    Call Database Failure Unit := fun db => do
  let db ← results.foldlM (applyStored phase now) db
  return ((), db)

theorem applySendResults_eq (results : List PushSendResult) (now : Timestamp) :
    applySendResults results now = applyAll .send now (results.map (PushSendResult.toStored now)) := by
  funext db
  unfold applySendResults applyAll
  rw [List.foldlM_map]
  rfl

theorem applyReceiptResults_eq (results : List PushReceiptResult) (now : Timestamp) :
    applyReceiptResults results now =
      applyAll .receipt now (results.map (PushReceiptResult.toStored now)) := by
  funext db
  unfold applyReceiptResults applyAll
  rw [List.foldlM_map]
  rfl

/-- A result that a worker may make of a job. -/
structure StoredResult.For (phase : PushPhase) (job : PushOutbox) (unregistered : List String)
    (result : StoredResult) : Prop where
  id : result.id = job.id
  attempt : result.attempt = phase.attempts job
  fits : ∀ values, result.values = .ok values → Fits phase result.attempt values
  /-- The push token that is given up is the one of the job, which has come to its end. -/
  invalidates : ∀ pushTokenId, result.invalidates = some pushTokenId →
    job.pushTokenId = some pushTokenId ∧ job.tokenSnapshot ∈ unregistered ∧
      ∀ values, result.values = .ok values → ¬ isOpenPush values.status

variable {phase : PushPhase} {now : Timestamp} {job row row' : PushOutbox} {unregistered : List String}
  {result : StoredResult} {results : List StoredResult} {db db' : Database}
  {values : PushOutboxValues}

theorem not_isOpenPush_failed : ¬ isOpenPush .failedPermanent := by decide

theorem fits_failed (phase : PushPhase) (attempt : ℕ) (code message : Option (Option String)) :
    Fits phase attempt { status := .failedPermanent, completedAt := some now
                         lastErrorCode := code, lastErrorMessage := message } :=
  .closed (by decide) (fun h => nomatch h)

theorem fits_exhausted (phase : PushPhase) (attempt : ℕ) (code message : Option (Option String)) :
    Fits phase attempt { status := .exhausted, completedAt := some now
                         lastErrorCode := code, lastErrorMessage := message } :=
  .closed (by decide) (fun h => nomatch h)

theorem fits_retried (phase : PushPhase) {attempt : ℕ} {nextAttemptAt : Timestamp}
    {code message : Option (Option String)} (hleft : attempt < phase.maxAttempts) :
    Fits phase attempt { status := phase.waiting, nextAttemptAt := some nextAttemptAt
                         lastErrorCode := code, lastErrorMessage := message } :=
  .retried hleft

/-- A job that is sent again, or has been sent too often. -/
theorem retrySendResult_for (job : PushOutbox) (unregistered : List String) (now : Timestamp)
    (errorCode : String) (errorMessage : Option String) :
    ((retrySendResult job now errorCode errorMessage).toStored now).For .send job unregistered := by
  unfold retrySendResult
  split
  next hmax =>
    refine ⟨rfl, rfl, fun values hvalues => ?_, fun _ hnone => nomatch hnone⟩
    obtain rfl := Except.ok.inj hvalues
    exact fits_exhausted .send _ _ _
  next hmax =>
    refine ⟨rfl, rfl, fun values hvalues => ?_, fun _ hnone => nomatch hnone⟩
    obtain rfl := Except.ok.inj hvalues
    exact fits_retried .send (Nat.lt_of_not_le hmax)

theorem ticketResult_for (ticket : Option ExpoGatewayTicket) (now : Timestamp)
    (hunregistered : ticket.any (·.isUnregistered) → job.tokenSnapshot ∈ unregistered) :
    ((ticketResult job ticket now).toStored now).For .send job unregistered := by
  unfold ticketResult
  split
  · exact retrySendResult_for job unregistered now _ _
  next id =>
    refine ⟨rfl, rfl, fun values hvalues => ?_, fun _ hnone => nomatch hnone⟩
    simp only [PushSendResult.toStored, sendResultValues] at hvalues
    split at hvalues
    next ticketId time hticket htime =>
      obtain rfl := Except.ok.inj hvalues
      obtain ⟨hid, hnamed⟩ := Option.filter_eq_some_iff.1 hticket
      exact .accepted (of_decide_eq_true hnamed)
    next => cases hvalues
  next message errorCode =>
    split
    · exact retrySendResult_for job unregistered now _ _
    · split
      · exact retrySendResult_for job unregistered now _ _
      · constructor
        · rfl
        · rfl
        · intro values hvalues
          obtain rfl := Except.ok.inj hvalues
          exact fits_failed .send _ _ _
        · intro pushTokenId hgiven
          have hgiven : invalidatedToken job errorCode = some pushTokenId := hgiven
          unfold invalidatedToken at hgiven
          split at hgiven
          next hdevice =>
            refine ⟨hgiven, hunregistered (by simpa [ExpoGatewayTicket.isUnregistered] using hdevice),
              fun values hvalues => ?_⟩
            obtain rfl := Except.ok.inj hvalues
            exact not_isOpenPush_failed
          next => cases hgiven

theorem retryReceiptResult_for (job : PushOutbox) (unregistered : List String) (now : Timestamp)
    (errorCode : String) (errorMessage : Option String) :
    ((retryReceiptResult job now errorCode errorMessage).toStored now).For .receipt job
      unregistered := by
  unfold retryReceiptResult
  split
  next hmax =>
    refine ⟨rfl, rfl, fun values hvalues => ?_, fun _ hnone => nomatch hnone⟩
    obtain rfl := Except.ok.inj hvalues
    exact fits_exhausted .receipt _ _ _
  next hmax =>
    refine ⟨rfl, rfl, fun values hvalues => ?_, fun _ hnone => nomatch hnone⟩
    obtain rfl := Except.ok.inj hvalues
    exact fits_retried .receipt (Nat.lt_of_not_le hmax)

theorem receiptResult_for (receipt : Option ExpoGatewayReceipt) (now : Timestamp)
    (hunregistered : receipt.any (·.isUnregistered) → job.tokenSnapshot ∈ unregistered) :
    ((receiptResult job receipt now).toStored now).For .receipt job unregistered := by
  unfold receiptResult
  split
  · exact retryReceiptResult_for job unregistered now _ _
  · refine ⟨rfl, rfl, fun values hvalues => ?_, fun _ hnone => nomatch hnone⟩
    obtain rfl := Except.ok.inj hvalues
    exact .closed (by decide) fun _ => rfl
  next message errorCode =>
    constructor
    · rfl
    · rfl
    · intro values hvalues
      obtain rfl := Except.ok.inj hvalues
      exact fits_failed .receipt _ _ _
    · intro pushTokenId hgiven
      have hgiven : invalidatedToken job errorCode = some pushTokenId := hgiven
      unfold invalidatedToken at hgiven
      split at hgiven
      next hdevice =>
        refine ⟨hgiven, hunregistered (by simpa [ExpoGatewayReceipt.isUnregistered] using hdevice),
          fun values hvalues => ?_⟩
        obtain rfl := Except.ok.inj hvalues
        exact not_isOpenPush_failed
      next => cases hgiven

/-! ### The tokens that Expo no longer knows -/

/-- The tokens of the jobs whose tickets say that the device is not registered. -/
def unregisteredBySend (jobs : List PushOutbox)
    (answer : Except (Option String) (List ExpoGatewayTicket)) : List String :=
  match answer with
  | .ok tickets =>
      if tickets.length = jobs.length then
        jobs.zipIdx.filterMap fun (job, index) =>
          if tickets[index]?.any (·.isUnregistered) then some job.tokenSnapshot else none
      else []
  | .error _ => []

/-- The tokens of the jobs whose receipts say that the device is not registered. -/
def unregisteredByReceipts (client : ExpoClient) (jobs : List PushOutbox) : List String :=
  if (ticketIdsOf jobs).length ≠ jobs.length then []
  else
    match ExpoPushGateway.getReceipts client (ticketIdsOf jobs) with
    | .ok receipts => jobs.filterMap fun job =>
        if (receipts (job.ticketId.getD "")).any (·.isUnregistered) then some job.tokenSnapshot
        else none
    | .error _ => []

/-- Every result of a batch is one of a job of the batch. -/
theorem sendResults_for {jobs : List PushOutbox}
    {answer : Except (Option String) (List ExpoGatewayTicket)} :
    ∀ result ∈ (sendResults jobs answer now).map (PushSendResult.toStored now),
      ∃ job ∈ jobs, result.For .send job (unregisteredBySend jobs answer) := by
  intro result hresult
  obtain ⟨sent, hsent, rfl⟩ := List.mem_map.1 hresult
  unfold sendResults at hsent
  split at hsent
  next tickets =>
    split at hsent
    next hlength =>
      obtain ⟨⟨job, index⟩, hjob, rfl⟩ := List.mem_map.1 hsent
      refine ⟨job, List.fst_mem_of_mem_zipIdx hjob, ticketResult_for _ _ fun hgone => ?_⟩
      simp only [unregisteredBySend, hlength, if_true]
      refine List.mem_filterMap.2 ⟨(job, index), hjob, ?_⟩
      rw [if_pos hgone]
    next =>
      obtain ⟨job, hjob, rfl⟩ := List.mem_map.1 hsent
      exact ⟨job, hjob, retrySendResult_for job _ now _ _⟩
  next =>
    obtain ⟨job, hjob, rfl⟩ := List.mem_map.1 hsent
    exact ⟨job, hjob, retrySendResult_for job _ now _ _⟩

theorem receiptResults_for {client : ExpoClient} {jobs : List PushOutbox} :
    ∀ result ∈ (receiptResults client jobs now).map (PushReceiptResult.toStored now),
      ∃ job ∈ jobs, result.For .receipt job (unregisteredByReceipts client jobs) := by
  intro result hresult
  obtain ⟨checked, hchecked, rfl⟩ := List.mem_map.1 hresult
  unfold receiptResults at hchecked
  split at hchecked
  next hlength =>
    obtain ⟨job, hjob, rfl⟩ := List.mem_map.1 hchecked
    refine ⟨job, hjob, ?_⟩
    split
    · exact retryReceiptResult_for job _ now _ _
    · refine ⟨rfl, rfl, fun values hvalues => ?_, fun _ hnone => nomatch hnone⟩
      obtain rfl := Except.ok.inj hvalues
      exact fits_failed .receipt _ _ _
  next hlength =>
    split at hchecked
    next receipts hreceipts =>
      obtain ⟨job, hjob, rfl⟩ := List.mem_map.1 hchecked
      refine ⟨job, hjob, receiptResult_for _ _ fun hgone => ?_⟩
      unfold unregisteredByReceipts
      rw [if_neg hlength, hreceipts]
      refine List.mem_filterMap.2 ⟨job, hjob, ?_⟩
      rw [if_pos hgone]
    next =>
      obtain ⟨job, hjob, rfl⟩ := List.mem_map.1 hchecked
      exact ⟨job, hjob, retryReceiptResult_for job _ now _ _⟩

/-! ### A claim -/

section Claim

variable {scan : Scan} {limit : ℕ} {claimed : PushClaimBatch}

theorem claim_ok (hdb : PushInvariant db) (h : phase.claim now scan limit db = .ok (claimed, db')) :
    ∃ isSelected : PushOutbox → Bool, (∀ row ∈ db.pushOutbox, isSelected row → phase.due now row) ∧
      claimed.jobs.Perm (returning isSelected (phase.mark (now + pushLeaseMs)) db.pushOutbox) ∧
        db' = { db with
          pushOutbox := updateWhere isSelected (phase.mark (now + pushLeaseMs)) db.pushOutbox } :=
  claimBatch_ok hdb.ids h

/-- The jobs that a claim returns are the ones that it has marked. -/
structure Marks (phase : PushPhase) (now : Timestamp) (isSelected : PushOutbox → Bool)
    (jobs : List PushOutbox) (db : Database) : Prop where
  due : ∀ row ∈ db.pushOutbox, isSelected row → phase.due now row
  mem : ∀ job, job ∈ jobs ↔
    ∃ row ∈ db.pushOutbox, isSelected row ∧ phase.mark (now + pushLeaseMs) row = job
  nodup : (jobs.map (·.id)).Nodup

theorem claim_marks (hdb : PushInvariant db) (h : phase.claim now scan limit db = .ok (claimed, db')) :
    ∃ isSelected, Marks phase now isSelected claimed.jobs db ∧ db' = { db with
      pushOutbox := updateWhere isSelected (phase.mark (now + pushLeaseMs)) db.pushOutbox } := by
  obtain ⟨isSelected, hdue, hperm, hdb'⟩ := claim_ok hdb h
  refine ⟨isSelected, ⟨hdue, fun job => ?_, ?_⟩, hdb'⟩
  · rw [hperm.mem_iff, returning, List.mem_map]
    simp only [List.mem_filter, and_assoc]
  · have hids : (returning isSelected (phase.mark (now + pushLeaseMs)) db.pushOutbox).map (·.id) =
        (db.pushOutbox.filter isSelected).map (·.id) := by
      rw [returning, List.map_map]
      exact List.map_congr_left fun row _ => mark_id
    rw [(hperm.map _).nodup_iff, hids]
    exact List.Nodup.sublist (List.Sublist.map _ List.filter_sublist) hdb.ids

/-- A row has the number of a returned job exactly if it was marked. -/
theorem Marks.id_mem_iff {isSelected : PushOutbox → Bool} {jobs : List PushOutbox}
    (h : Marks phase now isSelected jobs db) (hdb : PushInvariant db) (hrow : row ∈ db.pushOutbox) :
    row.id ∈ jobs.map (·.id) ↔ isSelected row := by
  constructor
  · intro hmem
    obtain ⟨job, hjob, hid⟩ := List.mem_map.1 hmem
    obtain ⟨old, hold, hselected, rfl⟩ := (h.mem job).1 hjob
    rwa [← hdb.ids.eq_of_key hold hrow (mark_id.symm.trans hid)]
  · intro hselected
    exact List.mem_map.2 ⟨_, (h.mem _).2 ⟨row, hrow, hselected, rfl⟩, mark_id⟩

theorem sameAddress_mark (leaseExpiresAt : Timestamp) (hdue : phase.due now row) :
    SameAddress row (phase.mark leaseExpiresAt row) where
  pushTokenId := by cases phase <;> rfl
  tokenSnapshot := by cases phase <;> rfl
  notificationId := by cases phase <;> rfl
  isOpen _ := by
    rcases due_cases hdue with hstatus | ⟨hstatus, -⟩
    · rw [hstatus]
      exact phase.isOpen_waiting
    · exact isOpen_of_claimed hstatus

/-- A claim keeps the invariant, and no job goes back on anything. -/
theorem claim_push (hdb : PushInvariant db) (h : phase.claim now scan limit db = .ok (claimed, db')) :
    PushInvariant db' ∧ Descends PushOutbox.id Became db.pushOutbox db'.pushOutbox := by
  obtain ⟨isSelected, hdue, -, rfl⟩ := claim_ok hdb h
  constructor
  · constructor
    · exact hdb.ids.updateWhere fun _ => mark_id
    · intro row hrow
      rcases mem_updateWhere.1 hrow with ⟨old, hold, -, rfl⟩ | ⟨hrow, -⟩
      · rw [mark_id]
        exact hdb.drawn old hold
      · exact hdb.drawn row hrow
    · intro row hrow
      rcases mem_updateWhere.1 hrow with ⟨old, hold, hselected, rfl⟩ | ⟨hrow, -⟩
      · exact (hdb.jobs old hold).mark (hdue old hold hselected)
      · exact hdb.jobs row hrow
    · exact ⟨hdb.tokens.ids, hdb.tokens.tokens, hdb.tokens.devices, hdb.tokens.drawn⟩
    · exact hdb.notificationIds
    · exact hdb.notificationDrawn
    · intro row hrow hopen
      rcases mem_updateWhere.1 hrow with ⟨old, hold, hselected, rfl⟩ | ⟨hrow, -⟩
      · have hsame := sameAddress_mark (now + pushLeaseMs) (hdue old hold hselected)
        exact hsame.addressed (hdb.addressed old hold (hsame.isOpen hopen))
      · exact hdb.addressed row hrow hopen
  · apply descends_updateWhere
    · exact fun row _ _ => .refl row
    · exact fun _ => mark_id
    · exact fun row hrow hselected => became_mark (hdue row hrow hselected)

end Claim

/-! ### What is stored -/

theorem isClaimed_iff : result.isClaimed phase row ↔
    row.id = result.id ∧ row.status = phase.status ∧ phase.attempts row = result.attempt := by
  simp [StoredResult.isClaimed, isClaimedJob]

/-- The update of the job of a result. -/
theorem pushChange_set (hfits : Fits phase result.attempt values) (db : Database) :
    PushChange db { db with
      pushOutbox := updateWhere (result.isClaimed phase) values.set db.pushOutbox } := by
  apply pushChange_of_rows
  case htokens => rfl
  case hnotifications => rfl
  case hnext => rfl
  intro hdb
  apply descends_updateWhere
  · exact fun row hrow _ => ⟨Tended.refl (hdb.jobs row hrow), fun _ => .refl row⟩
  · exact fun _ => rfl
  · intro row hrow hclaimed
    obtain ⟨-, hstatus, hattempts⟩ := isClaimed_iff.1 hclaimed
    refine ⟨tended_set (hdb.jobs row hrow) hstatus (hattempts ▸ hfits), fun _ => ?_⟩
    exact ⟨rfl, rfl, rfl, fun _ => isOpen_of_claimed hstatus⟩

/-- The two ways a round of the loop goes that is not refused. -/
theorem applyStored_ok (h : applyStored phase now db result = .ok db') :
    ∃ values, result.values = .ok values ∧
      let written : Database := { db with
        pushOutbox := updateWhere (result.isClaimed phase) values.set db.pushOutbox }
      db' = written ∨ ∃ pushTokenId, result.invalidates = some pushTokenId ∧
        db.pushOutbox.any (result.isClaimed phase) ∧
          db' = invalidatePushToken pushTokenId result.id now written := by
  obtain ⟨values, hvalues, h⟩ := bind_eq_ok_iff.1 h
  obtain ⟨⟨updated, written⟩, hupdate, hrest⟩ := bind_eq_ok_iff.1 h
  obtain ⟨_, -, hupdated⟩ := bind_eq_ok_iff.1 hupdate
  obtain ⟨rfl, rfl⟩ := Prod.mk.inj (pure_eq_ok_iff.1 hupdated)
  refine ⟨values, hvalues, ?_⟩
  cases hgiven : result.invalidates with
  | none =>
      rw [hgiven] at hrest
      exact Or.inl (pure_eq_ok_iff.1 hrest).symm
  | some pushTokenId =>
      rw [hgiven] at hrest
      dsimp only at hrest
      split at hrest
      next hany => exact Or.inr ⟨pushTokenId, rfl, hany, (pure_eq_ok_iff.1 hrest).symm⟩
      next => exact Or.inl (pure_eq_ok_iff.1 hrest).symm

/-- A push token is given up after its job has come to its end. -/
theorem invalidatePushToken_push (pushTokenId : RowId) {id : RowId} (now : Timestamp)
    (hended : ∀ row ∈ db.pushOutbox, row.id = id → ¬ isOpenPush row.status) :
    PushChange db (invalidatePushToken pushTokenId id now db) := by
  let others : PushOutbox → Bool := fun row =>
    row.pushTokenId = some pushTokenId ∧ row.id ≠ id ∧ isOpenPush row.status
  have hcancel : PushChange db { db with
      pushOutbox := updateWhere others (cancelPush now) db.pushOutbox } := by
    apply pushChange_cancel
    exact fun row hrow => (of_decide_eq_true hrow).2.2
  refine hcancel.trans (pushChange_deletePushTokens fun _ token _ htoken row hrow href hopen => ?_)
  have hid : token.id = pushTokenId := of_decide_eq_true htoken
  rcases mem_updateWhere.1 hrow with ⟨old, -, -, rfl⟩ | ⟨hrow, hkept⟩
  · exact absurd hopen not_isOpenPush_cancelled
  · by_cases hown : row.id = id
    · exact hended row hrow hown hopen
    · apply hkept
      simp [others, href, hid, hown, hopen]

/-- The job of a result that is stored has the status of the result. -/
theorem status_of_set (hdb : PushInvariant db) (hclaimed : row ∈ db.pushOutbox)
    (hresult : result.isClaimed phase row)
    (hrow' : row' ∈ updateWhere (result.isClaimed phase) values.set db.pushOutbox)
    (hid : row'.id = result.id) : row'.status = values.status := by
  have hsame : row.id = result.id := (isClaimed_iff.1 hresult).1
  rcases mem_updateWhere.1 hrow' with ⟨old, -, -, rfl⟩ | ⟨hold, hnot⟩
  · rfl
  · rw [hdb.ids.eq_of_key hold hclaimed (hid.trans hsame.symm)] at hnot
    exact absurd hresult hnot

/-- A round of the loop keeps the invariant. -/
theorem applyStored_push (hfor : result.For phase job unregistered)
    (h : applyStored phase now db result = .ok db') : PushChange db db' := by
  obtain ⟨values, hvalues, hdone⟩ := applyStored_ok h
  have hset := pushChange_set (hfor.fits values hvalues) db
  rcases hdone with rfl | ⟨pushTokenId, hgiven, hany, rfl⟩
  · exact hset
  · obtain ⟨-, -, hended⟩ := hfor.invalidates pushTokenId hgiven
    obtain ⟨row, hrow, hclaimed⟩ := List.any_eq_true.1 hany
    refine .of_invariant fun hdb => hset.trans (invalidatePushToken_push pushTokenId now ?_)
    intro row' hrow' hid
    rw [status_of_set hdb hrow hclaimed hrow' hid]
    exact hended values hvalues

/-- The results of a batch keep the invariant. -/
theorem applyAll_push (hfor : ∀ result ∈ results, ∃ job, result.For phase job unregistered)
    {done : Unit} (h : applyAll phase now results db = .ok (done, db')) : PushChange db db' := by
  obtain ⟨after, hfold, hafter⟩ := bind_eq_ok_iff.1 h
  obtain ⟨-, rfl⟩ := Prod.mk.inj (pure_eq_ok_iff.1 hafter)
  apply foldlM_ok (PushChange db) (.refl db) _ hfold
  intro result hresult before after hbefore hround
  obtain ⟨job, hjob⟩ := hfor result hresult
  exact hbefore.trans (applyStored_push hjob hround)

/-! ### Which results are stored -/

/-- The results whose jobs are still claimed when their turn comes. -/
def storedResults (phase : PushPhase) (now : Timestamp) :
    List StoredResult → Database → List StoredResult
  | [], _ => []
  | result :: results, db =>
      match applyStored phase now db result with
      | .error _ => []
      | .ok after =>
          if db.pushOutbox.any (result.isClaimed phase) then
            result :: storedResults phase now results after
          else storedResults phase now results after

/-- A result that is stored was one of a claimed job, and ends its attempt. -/
structure EndsAttempt (phase : PushPhase) (result : StoredResult) (before after : Database) :
    Prop where
  claimed : ∃ row ∈ before.pushOutbox, result.isClaimed phase row
  ended : ∀ row' ∈ after.pushOutbox, row'.id = result.id → row'.status ≠ phase.status

/-- A job that is claimed later was claimed for the same attempt before. -/
theorem PushChange.claimed_before (h : PushChange db db') (hdb : PushInvariant db)
    (hrow' : row' ∈ db'.pushOutbox) (hstatus : row'.status = phase.status) :
    ∃ row ∈ db.pushOutbox, row.id = row'.id ∧
      row' = { row with pushTokenId := row'.pushTokenId } := by
  rcases (h.rows hdb).rows row' hrow' with ⟨row, hrow, hid, htended⟩ | ⟨-, hfresh⟩
  · exact ⟨row, hrow, hid.symm, htended.held hstatus⟩
  · exact absurd hstatus (hfresh phase).2

theorem attempts_of_untied {token : Option RowId} (h : row' = { row with pushTokenId := token })
    (phase : PushPhase) : phase.attempts row' = phase.attempts row := by
  rw [h]
  cases phase <;> rfl

/-- After the update of its job, the attempt of a result has ended. -/
theorem applyStored_ends (hdb : PushInvariant db) (hfor : result.For phase job unregistered)
    (hany : db.pushOutbox.any (result.isClaimed phase))
    (h : applyStored phase now db result = .ok db') :
    ∀ row' ∈ db'.pushOutbox, row'.id = result.id → row'.status ≠ phase.status := by
  obtain ⟨values, hvalues, hdone⟩ := applyStored_ok h
  obtain ⟨row, hrow, hclaimed⟩ := List.any_eq_true.1 hany
  have hne : values.status ≠ phase.status := (hfor.fits values hvalues).status_ne phase
  rcases hdone with rfl | ⟨pushTokenId, hgiven, -, rfl⟩
  · intro row' hrow' hid
    rw [status_of_set hdb hrow hclaimed hrow' hid]
    exact hne
  · obtain ⟨-, -, hended⟩ := hfor.invalidates pushTokenId hgiven
    have hset := (pushChange_set (hfor.fits values hvalues) db).invariant hdb
    have hclosed : ∀ row' ∈ updateWhere (result.isClaimed phase) values.set db.pushOutbox,
        row'.id = result.id → ¬ isOpenPush row'.status := by
      intro row' hrow' hid
      rw [status_of_set hdb hrow hclaimed hrow' hid]
      exact hended values hvalues
    intro row' hrow' hid hstatus
    obtain ⟨old, hold, hsame, heq⟩ :=
      (invalidatePushToken_push pushTokenId now hclosed).claimed_before hset hrow' hstatus
    apply hclosed old hold (hsame.trans hid)
    rw [← Became.status_eq heq, hstatus]
    exact phase.isOpen_status

/-- Each stored result ends the attempt of its job, and no two are of one job. -/
theorem storedResults_spec (hfor : ∀ result ∈ results, ∃ job, result.For phase job unregistered)
    (hdb : PushInvariant db) {done : Unit} (h : applyAll phase now results db = .ok (done, db')) :
    ((storedResults phase now results db).map (·.id)).Nodup ∧
      ∀ result ∈ storedResults phase now results db,
        result ∈ results ∧ EndsAttempt phase result db db' := by
  induction results generalizing db with
  | nil => exact ⟨List.nodup_nil, fun _ hresult => absurd hresult List.not_mem_nil⟩
  | cons result results ih =>
      obtain ⟨final, hfold, hfinal⟩ := bind_eq_ok_iff.1 h
      obtain ⟨-, rfl⟩ := Prod.mk.inj (pure_eq_ok_iff.1 hfinal)
      rw [List.foldlM_cons] at hfold
      obtain ⟨after, hround, hrest⟩ := bind_eq_ok_iff.1 hfold
      obtain ⟨job, hjob⟩ := hfor result List.mem_cons_self
      have hlater : ∀ later ∈ results, ∃ job, later.For phase job unregistered :=
        fun later hmem => hfor later (List.mem_cons_of_mem _ hmem)
      have hchange := applyStored_push hjob hround
      have hafter : PushInvariant after := hchange.invariant hdb
      have hrun : applyAll phase now results after = .ok ((), final) := by
        simp only [applyAll, hrest]
        rfl
      obtain ⟨hnodup, hspec⟩ := ih hlater hafter hrun
      -- A result that is stored later is one of a job that is claimed now.
      have hnow : ∀ later ∈ storedResults phase now results after,
          later ∈ result :: results ∧ EndsAttempt phase later db final := by
        intro later hmem
        obtain ⟨hin, hends⟩ := hspec later hmem
        refine ⟨List.mem_cons_of_mem _ hin, ?_, hends.ended⟩
        obtain ⟨row', hrow', hclaimed⟩ := hends.claimed
        obtain ⟨hid, hstatus, hattempts⟩ := isClaimed_iff.1 hclaimed
        obtain ⟨row, hrow, hsame, heq⟩ := hchange.claimed_before hdb hrow' hstatus
        refine ⟨row, hrow, isClaimed_iff.2 ⟨hsame.trans hid, ?_, ?_⟩⟩
        · rw [← Became.status_eq heq, hstatus]
        · rw [← attempts_of_untied heq, hattempts]
      simp only [storedResults, hround]
      split
      next hany =>
        have hended := applyStored_ends hdb hjob hany hround
        constructor
        · rw [List.map_cons, List.nodup_cons]
          refine ⟨fun hmem => ?_, hnodup⟩
          obtain ⟨later, hlater, hsame⟩ := List.mem_map.1 hmem
          obtain ⟨row', hrow', hclaimed⟩ := (hspec later hlater).2.claimed
          obtain ⟨hid, hstatus, -⟩ := isClaimed_iff.1 hclaimed
          exact hended row' hrow' (hid.trans hsame) hstatus
        · intro later hmem
          rcases List.mem_cons.1 hmem with rfl | hmem
          · refine ⟨List.mem_cons_self, List.any_eq_true.1 hany, ?_⟩
            intro row' hrow' hid hstatus
            obtain ⟨row, hrow, hsame, heq⟩ :=
              (applyAll_push hlater hrun).claimed_before hafter hrow' hstatus
            apply hended row hrow (hsame.trans hid)
            rw [← Became.status_eq heq, hstatus]
          · exact hnow later hmem
      next => exact ⟨hnodup, hnow⟩

/-! ### Which push tokens are given up -/

/-- The push tokens that are gone. -/
def removedTokens (before after : Database) : List PushToken :=
  before.pushTokens.filter fun token => after.pushTokens.all fun other => other.id ≠ token.id

/-- A worker remembers a job as it was when it claimed it. -/
def Remembered (phase : PushPhase) (job : PushOutbox) (db : Database) : Prop :=
  ∀ row ∈ db.pushOutbox, row.id = job.id → row.status = phase.status →
    phase.attempts row = phase.attempts job → row = { job with pushTokenId := row.pushTokenId } ∧
      (row.pushTokenId = job.pushTokenId ∨ row.pushTokenId = none)

theorem PushChange.remembered (h : PushChange db db') (hdb : PushInvariant db)
    (hjob : Remembered phase job db) : Remembered phase job db' := by
  intro row' hrow' hid hstatus hattempts
  rcases (h.rows hdb).rows row' hrow' with ⟨row, hrow, hsame, htended⟩ | ⟨-, hfresh⟩
  · have heq := htended.held hstatus
    have hstatus' : row.status = phase.status := (Became.status_eq heq).symm.trans hstatus
    obtain ⟨hrow, htoken⟩ := hjob row hrow (hsame.symm.trans hid) hstatus'
      ((attempts_of_untied heq phase).symm.trans hattempts)
    constructor
    · rw [heq, hrow]
    · rcases htended.became.pushTokenId with hkept | hnone
      · rwa [hkept]
      · exact Or.inr hnone
  · exact absurd hstatus (hfresh phase).2

/-- A round removes at most the token of its job. -/
theorem applyStored_tokens (h : applyStored phase now db result = .ok db') {token : PushToken}
    (htoken : token ∈ db.pushTokens) : token ∈ db'.pushTokens ∨
      result.invalidates = some token.id ∧ db.pushOutbox.any (result.isClaimed phase) := by
  obtain ⟨values, -, hdone⟩ := applyStored_ok h
  rcases hdone with rfl | ⟨pushTokenId, hgiven, hany, rfl⟩
  · exact Or.inl htoken
  · by_cases hid : token.id = pushTokenId
    · rw [hid]
      exact Or.inr ⟨hgiven, hany⟩
    · refine Or.inl (List.mem_filter.2 ⟨htoken, ?_⟩)
      simpa using hid

/-- A batch gives up a push token only if Expo no longer knows the value that it has. -/
theorem removed_spec (hfor : ∀ result ∈ results, ∃ job, result.For phase job unregistered ∧
      Remembered phase job db) (hdb : PushInvariant db) {done : Unit}
    (h : applyAll phase now results db = .ok (done, db')) {token : PushToken}
    (htoken : token ∈ db.pushTokens) :
    token ∈ db'.pushTokens ∨ token.token ∈ unregistered := by
  induction results generalizing db with
  | nil =>
      obtain ⟨-, rfl⟩ := Prod.mk.inj (pure_eq_ok_iff.1 h)
      exact Or.inl htoken
  | cons result results ih =>
      obtain ⟨final, hfold, hfinal⟩ := bind_eq_ok_iff.1 h
      obtain ⟨-, rfl⟩ := Prod.mk.inj (pure_eq_ok_iff.1 hfinal)
      rw [List.foldlM_cons] at hfold
      obtain ⟨after, hround, hrest⟩ := bind_eq_ok_iff.1 hfold
      obtain ⟨job, hjob, hremembered⟩ := hfor result List.mem_cons_self
      have hchange := applyStored_push hjob hround
      rcases applyStored_tokens hround htoken with hkept | ⟨hgiven, hany⟩
      · have hrun : applyAll phase now results after = .ok ((), final) := by
          simp only [applyAll, hrest]
          rfl
        refine ih (fun later hmem => ?_) (hchange.invariant hdb) hrun hkept
        obtain ⟨job, hjob, hremembered⟩ := hfor later (List.mem_cons_of_mem _ hmem)
        exact ⟨job, hjob, hchange.remembered hdb hremembered⟩
      · -- The job is as it was claimed, and has the value of its token.
        right
        obtain ⟨row, hrow, hclaimed⟩ := List.any_eq_true.1 hany
        obtain ⟨hid, hstatus, hattempts⟩ := isClaimed_iff.1 hclaimed
        obtain ⟨heq, htokenId⟩ := hremembered row hrow (hid.trans hjob.id) hstatus
          (hattempts.trans hjob.attempt)
        obtain ⟨hjobToken, hunregistered, -⟩ := hjob.invalidates token.id hgiven
        obtain ⟨owner, howner, notification, -, href, hvalue, -⟩ :=
          hdb.addressed row hrow (isOpen_of_claimed hstatus)
        have hsame : owner.id = token.id := by
          rcases htokenId with hkept | hnone
          · exact Option.some.inj (href.symm.trans (hkept.trans hjobToken))
          · rw [href] at hnone
            cases hnone
        obtain rfl := hdb.tokens.ids.eq_of_key howner htoken hsame
        have hsnapshot : row.tokenSnapshot = job.tokenSnapshot := by rw [heq]
        rwa [← hvalue, hsnapshot]

end ChatTea.Notification
