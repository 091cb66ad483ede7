import ChatTea.Lib.Pointwise
import ChatTea.Lib.Sweep
import ChatTea.Notification.Outbox

/-!
# What a batch makes of its jobs

The loops of `applySendResults` and `applyReceiptResults` store one result after the other. A
result goes to the row of its job while that row is still claimed; one that reports a device that
is gone cancels the other jobs of its push token. What becomes of a row is read off the results,
and so is whether the whole transaction goes through.

## Main definitions

* `JobResult` — a claimed job with the values that are stored for it
* `resultBatch` — which rows a result writes and cancels
* `Traced` — a row before and after some results
* `Storable` — no result is refused

## Main results

* `applyJobResult_traced` — one round of the loop
* `storeResults_ok_iff` — the transaction goes through exactly when no result is refused
* `isStored_iff` — a result is in the outbox exactly when nothing has cancelled its job
-/

namespace ChatTea.Notification

open Pointwise Sweep Table Transaction
open Users (cancelPush deletePushTokens isOpenPush)

/-- A claimed job, what is stored for it, and the push token that is given up with it. -/
structure JobResult where
  job : PushOutbox
  values : Except Failure PushOutboxValues
  invalidates : Option RowId

namespace JobResult

/-- The ticket that is stored. -/
def ticketId (result : JobResult) : Option String :=
  match result.values with
  | .ok values => values.ticketId
  | .error _ => none

/-- The job goes on after its result. -/
def leavesOpen (result : JobResult) : Bool :=
  match result.values with
  | .ok values => isOpenPush values.status
  | .error _ => false

end JobResult

/-- A row has the push token that a result gives up. -/
def hitsToken (token : Option RowId) (row : PushOutbox) : Prop :=
  token ≠ none ∧ row.pushTokenId = token

/-- Which rows a result writes, which ones it cancels, and whether its own stays open. -/
def resultBatch : Batch JobResult PushOutbox where
  owns result row := result.job.id = row.id
  hits result row := hitsToken result.invalidates row
  leavesOpen result := result.leavesOpen

/-- The row has the values of an update. -/
def HoldsValues (values : PushOutboxValues) (row : PushOutbox) : Prop := values.set row = row

variable {now : Timestamp} {db db' : Database} {row row' row'' other : PushOutbox}
  {values : PushOutboxValues} {result : JobResult} {done results : List JobResult}
  {isClaimed : PushOutbox → Bool} {token : Option RowId}

/-! ### Updates of a row -/

@[simp] theorem set_id (values : PushOutboxValues) (row : PushOutbox) : (values.set row).id = row.id :=
  rfl

@[simp] theorem set_status (values : PushOutboxValues) (row : PushOutbox) :
    (values.set row).status = values.status := rfl

@[simp] theorem set_pushTokenId (values : PushOutboxValues) (row : PushOutbox) :
    (values.set row).pushTokenId = row.pushTokenId := rfl

@[simp] theorem set_ticketId (values : PushOutboxValues) (row : PushOutbox) :
    (values.set row).ticketId = values.ticketId.or row.ticketId := rfl

theorem or_or_self {α : Type} (value old : Option α) : value.or (value.or old) = value.or old := by
  cases value <;> rfl

/-- Storing values twice is storing them once. -/
theorem holdsValues_set (values : PushOutboxValues) (row : PushOutbox) :
    HoldsValues values (values.set row) := by
  have hgetD {α : Type} (value : Option α) (old : α) : value.getD (value.getD old) = value.getD old := by
    cases value <;> rfl
  simp [HoldsValues, PushOutboxValues.set, or_or_self, hgetD]

/-- A row may lose its push token on the way. -/
def Clears (token : Option RowId) (row row' : PushOutbox) : Prop :=
  row' = row ∨ hitsToken token row ∧ row' = { row with pushTokenId := none }

theorem Clears.id_eq (h : Clears token row row') : row'.id = row.id := by
  rcases h with rfl | ⟨-, rfl⟩ <;> rfl

theorem Clears.status_eq (h : Clears token row row') : row'.status = row.status := by
  rcases h with rfl | ⟨-, rfl⟩ <;> rfl

theorem Clears.ticketId_eq (h : Clears token row row') : row'.ticketId = row.ticketId := by
  rcases h with rfl | ⟨-, rfl⟩ <;> rfl

theorem Clears.holdsValues (h : Clears token row row') (hvalues : HoldsValues values row) :
    HoldsValues values row' := by
  rcases h with rfl | ⟨-, rfl⟩
  · exact hvalues
  · have hset : values.set { row with pushTokenId := none } =
        { values.set row with pushTokenId := none } := rfl
    rw [HoldsValues, hset, hvalues]

theorem Clears.eq_of_not_hit (h : Clears token row row') (hnot : ¬ hitsToken token row) :
    row' = row := h.resolve_right fun hhit => hnot hhit.1

open Classical in
/-- What a round of the loop makes of a row before push tokens are deleted. -/
noncomputable def written (isClaimed : PushOutbox → Bool) (values : PushOutboxValues) (id : RowId)
    (token : Option RowId) (now : Timestamp) (row : PushOutbox) : PushOutbox :=
  if isClaimed row then values.set row
  else if hitsToken token row ∧ row.id ≠ id ∧ isOpenPush row.status then cancelPush now row
  else row

/-! ### One round of the loop -/

/-- Deleting a push token clears it in some rows. -/
theorem deletePushTokens_clears (pushTokenId : RowId) (db : Database) :
    List.Forall₂ (Clears (some pushTokenId)) db.pushOutbox
      (deletePushTokens (fun token => token.id = pushTokenId) db).pushOutbox := by
  apply forall₂_updateWhere
  · exact fun _ => Or.inl rfl
  · intro row _ hcond
    simp only [decide_eq_true_eq, List.any_eq_true] at hcond
    obtain ⟨token, -, hid, hrow⟩ := hcond
    right
    refine ⟨⟨Option.some_ne_none _, ?_⟩, rfl⟩
    rw [hrow, hid]

/-- The two updates of a round, row by row. -/
theorem updateWhere_cancel {id pushTokenId : RowId} (hclaimed : ∀ row, isClaimed row → row.id = id)
    (rows : List PushOutbox) :
    updateWhere (fun row => row.pushTokenId = some pushTokenId ∧ row.id ≠ id ∧ isOpenPush row.status)
        (cancelPush now) (updateWhere isClaimed values.set rows) =
      rows.map (written isClaimed values id (some pushTokenId) now) := by
  unfold updateWhere
  rw [List.map_map]
  apply List.map_congr_left
  intro row _
  by_cases hrow : isClaimed row
  · simp [written, hrow, hclaimed row hrow]
  · by_cases hhit : row.pushTokenId = some pushTokenId ∧ row.id ≠ id ∧ isOpenPush row.status
    · simp [written, hrow, hhit, hitsToken]
    · have hnot : ¬ (hitsToken (some pushTokenId) row ∧ row.id ≠ id ∧ isOpenPush row.status) :=
        fun h => hhit ⟨h.1.2, h.2⟩
      rw [written, if_neg hrow, if_neg hnot]
      simp only [Function.comp_apply]
      rw [if_neg hrow, if_neg fun h => hhit (of_decide_eq_true h)]

/-- What a round that is not refused does to the outbox. -/
theorem applyResult_ok {id : RowId} {outcome : Except Failure PushOutboxValues}
    (hclaimed : ∀ row, isClaimed row → row.id = id)
    (h : applyResult id isClaimed outcome token now db = .ok db') :
    ∃ values, outcome = .ok values ∧
      (∀ row ∈ db.pushOutbox, isClaimed row → ∀ ticketId ∈ values.ticketId,
        ∀ other ∈ db.pushOutbox, other.id ≠ row.id → other.ticketId ≠ some ticketId) ∧
      if db.pushOutbox.any isClaimed then
        List.Forall₂ (fun row row' => Clears token (written isClaimed values id token now row) row')
          db.pushOutbox db'.pushOutbox
      else db' = db := by
  obtain ⟨values, houtcome, h⟩ := bind_eq_ok_iff.1 h
  obtain ⟨⟨updated, db₁⟩, hupdate, hrest⟩ := bind_eq_ok_iff.1 h
  obtain ⟨_, hrequire, hupdated⟩ := bind_eq_ok_iff.1 hupdate
  obtain ⟨rfl, rfl⟩ := Prod.mk.inj (pure_eq_ok_iff.1 hupdated)
  refine ⟨values, houtcome, require_eq_ok_iff.1 hrequire, ?_⟩
  by_cases hany : db.pushOutbox.any isClaimed
  · rw [if_pos hany]
    cases token with
    | none =>
        obtain rfl := pure_eq_ok_iff.1 hrest
        rw [updateWhere, List.forall₂_map_right_iff, List.forall₂_same]
        intro row _
        left
        simp [written, hitsToken]
    | some pushTokenId =>
        simp only [hany, if_true] at hrest
        obtain rfl := pure_eq_ok_iff.1 hrest
        rw [← List.forall₂_map_left_iff (f := written isClaimed values id (some pushTokenId) now),
          ← updateWhere_cancel hclaimed]
        have hclears := deletePushTokens_clears pushTokenId { db with
          pushOutbox := updateWhere
            (fun row => row.pushTokenId = some pushTokenId ∧ row.id ≠ id ∧ isOpenPush row.status)
            (cancelPush now) (updateWhere isClaimed values.set db.pushOutbox) }
        exact hclears
  · rw [if_neg hany]
    have hnone : ∀ row ∈ db.pushOutbox, ¬ isClaimed row := by simpa using hany
    have hfalse : db.pushOutbox.any isClaimed = false := by simpa using hany
    rw [updateWhere_of_forall_not hnone, hfalse] at hrest
    cases token with
    | none => exact (pure_eq_ok_iff.1 hrest).symm
    | some pushTokenId => exact (pure_eq_ok_iff.1 hrest).symm

/-- When a round is not refused. -/
theorem applyResult_ok_iff {id : RowId} {outcome : Except Failure PushOutboxValues} :
    (∃ db', applyResult id isClaimed outcome token now db = .ok db') ↔
      ∃ values, outcome = .ok values ∧
        ∀ row ∈ db.pushOutbox, isClaimed row → ∀ ticketId ∈ values.ticketId,
          ∀ other ∈ db.pushOutbox, other.id ≠ row.id → other.ticketId ≠ some ticketId := by
  constructor
  · rintro ⟨db', h⟩
    obtain ⟨values, houtcome, h⟩ := bind_eq_ok_iff.1 h
    obtain ⟨_, hupdate, -⟩ := bind_eq_ok_iff.1 h
    obtain ⟨_, hrequire, -⟩ := bind_eq_ok_iff.1 hupdate
    exact ⟨values, houtcome, require_eq_ok_iff.1 hrequire⟩
  · rintro ⟨values, rfl, hfree⟩
    have hupdate : updateJob isClaimed values db = .ok (db.pushOutbox.any isClaimed,
        { db with pushOutbox := updateWhere isClaimed values.set db.pushOutbox }) := by
      rw [updateJob, require_of hfree]
      rfl
    simp only [applyResult, bind, Except.bind, hupdate]
    cases token with
    | none => exact ⟨_, rfl⟩
    | some pushTokenId =>
        cases db.pushOutbox.any isClaimed
        · exact ⟨_, rfl⟩
        · exact ⟨_, rfl⟩

/-! ### The rows while the loop goes on -/

/-- One round of the loop, for a claimed job. -/
def applyJobResult (status : PushOutboxStatus) (attempts : PushOutbox → ℕ) (now : Timestamp)
    (db : Database) (result : JobResult) : Except Failure Database :=
  applyResult result.job.id
    (isClaimedJob status attempts result.job.id (attempts result.job)) result.values
    result.invalidates now db

/-- A result of a claimed job. -/
structure JobResult.Valid (status : PushOutboxStatus) (rows : List PushOutbox) (result : JobResult) :
    Prop where
  mem : result.job ∈ rows
  claimed : result.job.status = status
  /-- The push token that is given up is the one of the job, whose result is the last one. -/
  token : ∀ pushTokenId, result.invalidates = some pushTokenId →
    result.job.pushTokenId = some pushTokenId ∧ result.leavesOpen = false
  notCancelled : ∀ values, result.values = .ok values → values.status ≠ .cancelled
  /-- A job that gets a ticket has had none. -/
  unsent : result.ticketId ≠ none → result.job.ticketId = none

/-- What is known of a row in a phase. -/
def StateAt (row row' : PushOutbox) : Phase JobResult → Prop
  | .claimed => row' = row
  | .written writer => ∃ values, writer.values = .ok values ∧ HoldsValues values row' ∧
      row'.status = values.status ∧ (writer.leavesOpen → row'.pushTokenId = row.pushTokenId)
  | .closed _ => row'.status = .cancelled

/-- A row when the loop starts and after some rounds. -/
structure Traced (done : List JobResult) (row row' : PushOutbox) : Prop where
  id : row'.id = row.id
  ticket : row'.ticketId = ((resultBatch.phase done row).writer.bind JobResult.ticketId).or row.ticketId
  state : isOpenPush row.status → StateAt row row' (resultBatch.phase done row)

theorem traced_nil (row : PushOutbox) : Traced [] row row where
  id := rfl
  ticket := rfl
  state _ := rfl

theorem not_isOpenPush_cancelled : ¬ isOpenPush .cancelled := by decide

/-- A row that the result neither writes nor cancels. -/
theorem written_eq_self {id : RowId} (hclaimed : ¬ isClaimed row)
    (hnot : ¬ (hitsToken token row ∧ row.id ≠ id ∧ isOpenPush row.status)) :
    written isClaimed values id token now row = row := by
  rw [written, if_neg hclaimed, if_neg hnot]

/-- A row that the result cancels. -/
theorem written_eq_cancel {id : RowId} (hclaimed : ¬ isClaimed row)
    (hhit : hitsToken token row ∧ row.id ≠ id ∧ isOpenPush row.status) :
    written isClaimed values id token now row = cancelPush now row := by
  rw [written, if_neg hclaimed, if_pos hhit]

/-- A row that the result does not write keeps its ticket. -/
theorem written_ticketId {id : RowId} (hclaimed : ¬ isClaimed row) :
    (written isClaimed values id token now row).ticketId = row.ticketId := by
  rw [written, if_neg hclaimed]
  split <;> rfl

theorem written_id {id : RowId} : (written isClaimed values id token now row).id = row.id := by
  unfold written
  split
  · rfl
  · split <;> rfl

section Round

variable {status : PushOutboxStatus} {attempts : PushOutbox → ℕ} {rows : List PushOutbox}

/-- The row of a result that no earlier one has come to. -/
theorem traced_own (hvalid : result.Valid status rows) (hopen : isOpenPush status)
    (hvalues : result.values = .ok values) (htraced : Traced done result.job row')
    (hphase : resultBatch.phase done result.job = .claimed)
    (hclears : Clears result.invalidates
      (written (isClaimedJob status attempts result.job.id (attempts result.job)) values
        result.job.id result.invalidates now row') row'') :
    Traced (done ++ [result]) result.job row'' := by
  have hsame : row' = result.job := by
    have hstate := htraced.state (by rwa [hvalid.claimed])
    rwa [hphase] at hstate
  have hnext : resultBatch.phase (done ++ [result]) result.job = .written result := by
    rw [Batch.phase_concat, hphase]
    exact Batch.step_owns rfl
  have hclaimed : isClaimedJob status attempts result.job.id (attempts result.job) result.job := by
    simp [isClaimedJob, hvalid.claimed]
  rw [hsame, written, if_pos hclaimed] at hclears
  constructor
  · rw [hclears.id_eq, set_id]
  · rw [hclears.ticketId_eq, set_ticketId, hnext]
    simp [Phase.writer, JobResult.ticketId, hvalues]
  · intro _
    rw [hnext]
    refine ⟨values, hvalues, hclears.holdsValues (holdsValues_set _ _), ?_, ?_⟩
    · rw [hclears.status_eq, set_status]
    · -- A result that gives up the push token is the last one of its job.
      intro hleaves
      have hnone : result.invalidates = none := by
        by_contra hsome
        obtain ⟨pushTokenId, htoken⟩ := Option.ne_none_iff_exists'.1 hsome
        rw [(hvalid.token pushTokenId htoken).2] at hleaves
        cases hleaves
      rw [hclears.eq_of_not_hit fun hhit => hhit.1 hnone, set_pushTokenId]

/-- The row of another job, under a result whose own job is still claimed. -/
theorem traced_other (hne : row.id ≠ result.job.id)
    (htraced : Traced done row row')
    (hclears : Clears result.invalidates
      (written (isClaimedJob status attempts result.job.id (attempts result.job)) values
        result.job.id result.invalidates now row') row'') :
    Traced (done ++ [result]) row row'' := by
  have howns : ¬ resultBatch.owns result row := fun h => hne h.symm
  have hclaimed : ¬ isClaimedJob status attempts result.job.id (attempts result.job) row' := by
    simp only [isClaimedJob, decide_eq_true_eq, htraced.id]
    exact fun h => hne h.1
  have hid : row'.id ≠ result.job.id := by rwa [htraced.id]
  have hphase : resultBatch.phase (done ++ [result]) row = resultBatch.step row (resultBatch.phase done row) result :=
    Batch.phase_concat _ _ _ _
  have hwriter : (resultBatch.phase (done ++ [result]) row).writer = (resultBatch.phase done row).writer := by
    rw [hphase]
    by_cases hfree : resultBatch.phase done row = .claimed
    · rw [hfree]
      by_cases hhits : resultBatch.hits result row
      · rw [Batch.step_hits howns hhits]
        rfl
      · rw [Batch.step_passes howns hhits]
    · exact Batch.writer_step _ hfree
  constructor
  · rw [hclears.id_eq, written_id, htraced.id]
  · rw [hclears.ticketId_eq, written_ticketId hclaimed, htraced.ticket, hwriter]
  intro hisOpen
  have hstate := htraced.state hisOpen
  rw [hphase]
  cases hbefore : resultBatch.phase done row with
  | claimed =>
      rw [hbefore] at hstate
      obtain rfl : row' = row := hstate
      by_cases hhits : hitsToken result.invalidates row'
      · rw [Batch.step_hits howns hhits]
        rw [written_eq_cancel hclaimed ⟨hhits, hid, hisOpen⟩] at hclears
        exact hclears.status_eq
      · rw [Batch.step_passes howns hhits]
        rw [written_eq_self hclaimed fun h => hhits h.1] at hclears
        exact hclears.eq_of_not_hit hhits
  | written writer =>
      rw [hbefore] at hstate
      obtain ⟨stored, hstored, hholds, hrow', hkept⟩ := hstate
      have hleaves : writer.leavesOpen = isOpenPush row'.status := by
        rw [JobResult.leavesOpen, hstored, hrow']
      by_cases hclose : hitsToken result.invalidates row ∧ writer.leavesOpen
      · have hhits : hitsToken result.invalidates row' := by
          rw [hitsToken, hkept hclose.2]
          exact hclose.1
        rw [Batch.step_closes hclose.1 hclose.2]
        rw [written_eq_cancel hclaimed ⟨hhits, hid, hleaves ▸ hclose.2⟩] at hclears
        exact hclears.status_eq
      · have hstays : ¬ (hitsToken result.invalidates row' ∧ row'.id ≠ result.job.id ∧
            isOpenPush row'.status) := by
          rintro ⟨hhits, -, hopen⟩
          rw [← hleaves] at hopen
          rw [hitsToken, hkept hopen] at hhits
          exact hclose ⟨hhits, hopen⟩
        rw [Batch.step_leaves hclose]
        rw [written_eq_self hclaimed hstays] at hclears
        refine ⟨stored, hstored, hclears.holdsValues hholds, ?_, ?_⟩
        · rw [hclears.status_eq, hrow']
        · intro hopen
          have hnot : ¬ hitsToken result.invalidates row' := by
            intro hhits
            rw [hitsToken, hkept hopen] at hhits
            exact hclose ⟨hhits, hopen⟩
          rw [hclears.eq_of_not_hit hnot, hkept hopen]
  | closed writer =>
      rw [hbefore] at hstate
      have hrow' : row'.status = .cancelled := hstate
      have hstays : ¬ (hitsToken result.invalidates row' ∧ row'.id ≠ result.job.id ∧
          isOpenPush row'.status) := by
        rintro ⟨-, -, hopen⟩
        rw [hrow'] at hopen
        exact not_isOpenPush_cancelled hopen
      rw [written_eq_self hclaimed hstays] at hclears
      rw [Batch.step_closed]
      exact hclears.status_eq.trans hrow'

/-- A result whose job has been cancelled finds the rows that it would cancel closed as well. -/
theorem phase_concat_of_cancelled (hvalid : result.Valid status rows)
    (hdone : ∀ earlier ∈ done, earlier.Valid status rows ∧ earlier.job.id ≠ result.job.id)
    (hcancelled : resultBatch.phase done result.job ≠ .claimed)
    (howns : row.id = result.job.id → row = result.job) :
    resultBatch.phase (done ++ [result]) row = resultBatch.phase done row := by
  -- The job has been hit, because no earlier result is one of it.
  have hhit : ∃ earlier ∈ done, hitsToken earlier.invalidates result.job := by
    by_contra hnone
    apply hcancelled
    apply Batch.phase_eq_claimed_iff.2
    intro earlier hearlier
    exact ⟨(hdone earlier hearlier).2, fun h => hnone ⟨earlier, hearlier, h⟩⟩
  obtain ⟨earlier, hearlier, hsome, htoken⟩ := hhit
  rw [Batch.phase_concat]
  have hfinal : ∀ other ∈ done, resultBatch.hits other row → resultBatch.owns other row →
      ¬ resultBatch.leavesOpen other := by
    intro other hother hhits _
    obtain ⟨pushTokenId, hinvalidates⟩ := Option.ne_none_iff_exists'.1 hhits.1
    change ¬ other.leavesOpen
    rw [((hdone other hother).1.token _ hinvalidates).2]
    exact Bool.false_ne_true
  apply Batch.step_eq_self
  · intro hclaimed hown
    rw [howns hown.symm] at hclaimed
    exact hcancelled hclaimed
  · by_cases hhits : resultBatch.hits result row
    · right
      obtain ⟨pushTokenId, hinvalidates⟩ := Option.ne_none_iff_exists'.1 hhits.1
      have hsame : row.pushTokenId = result.job.pushTokenId := by
        rw [(hvalid.token _ hinvalidates).1, hhits.2, hinvalidates]
      exact Batch.not_isOpen_of_hit hfinal hearlier ⟨hsome, hsame.trans htoken⟩
    · exact Or.inl hhits

/-- No earlier result is one of the job. -/
def IsNew (status : PushOutboxStatus) (rows : List PushOutbox) (done : List JobResult)
    (result : JobResult) : Prop :=
  ∀ earlier ∈ done, earlier.Valid status rows ∧ earlier.job.id ≠ result.job.id

/-- The job of the next result is claimed in the outbox exactly when nothing has cancelled it. -/
theorem any_isClaimedJob_iff {current : List PushOutbox} (hunique : UniqueKey PushOutbox.id rows)
    (hopen : isOpenPush status) (hvalid : result.Valid status rows)
    (hdone : IsNew status rows done result) (htraced : List.Forall₂ (Traced done) rows current) :
    current.any (isClaimedJob status attempts result.job.id (attempts result.job)) ↔
      resultBatch.phase done result.job = .claimed := by
  have hisOpen : isOpenPush result.job.status := by rwa [hvalid.claimed]
  constructor
  · intro hany
    obtain ⟨row', hrow', hclaimed⟩ := List.any_eq_true.1 hany
    simp only [isClaimedJob, decide_eq_true_eq] at hclaimed
    obtain ⟨row, hrow, htrace⟩ := exists_before htraced hrow'
    obtain rfl : row = result.job :=
      hunique.eq_of_key hrow hvalid.mem (htrace.id.symm.trans hclaimed.1)
    have hstate := htrace.state hisOpen
    cases hphase : resultBatch.phase done result.job with
    | claimed => rfl
    | written writer =>
        have hwriter : (resultBatch.phase done result.job).writer = some writer := by
          rw [hphase]
          rfl
        obtain ⟨pre, post, hsplit, howns, -⟩ := Batch.writer_phase_iff.1 hwriter
        exact absurd howns (hdone writer (by simp [hsplit])).2
    | closed writer =>
        rw [hphase] at hstate
        have hcancelled : row'.status = .cancelled := hstate
        rw [hclaimed.2.1] at hcancelled
        rw [hcancelled] at hopen
        exact absurd hopen not_isOpenPush_cancelled
  · intro hphase
    obtain ⟨row', hrow', htrace⟩ := exists_after htraced hvalid.mem
    have hstate := htrace.state hisOpen
    rw [hphase] at hstate
    obtain rfl : row' = result.job := hstate
    exact List.any_eq_true.2 ⟨result.job, hrow', by simp [isClaimedJob, hvalid.claimed]⟩

/-- One round of the loop. -/
theorem applyJobResult_traced (hunique : UniqueKey PushOutbox.id rows) (hopen : isOpenPush status)
    (hvalid : result.Valid status rows) (hdone : IsNew status rows done result)
    (htraced : List.Forall₂ (Traced done) rows db.pushOutbox)
    (h : applyJobResult status attempts now db result = .ok db') :
    List.Forall₂ (Traced (done ++ [result])) rows db'.pushOutbox := by
  have hid : ∀ row, isClaimedJob status attempts result.job.id (attempts result.job) row →
      row.id = result.job.id := by
    intro row hrow
    simp only [isClaimedJob, decide_eq_true_eq] at hrow
    exact hrow.1
  obtain ⟨values, hvalues, -, hmoves⟩ := applyResult_ok hid h
  have hlive : db.pushOutbox.any
      (isClaimedJob status attempts result.job.id (attempts result.job)) ↔
        resultBatch.phase done result.job = .claimed :=
    any_isClaimedJob_iff hunique hopen hvalid hdone htraced
  split at hmoves
  next hany =>
    apply forall₂_trans htraced hmoves
    intro row hrow mid last htrace hclears
    by_cases hown : row.id = result.job.id
    · obtain rfl := hunique.eq_of_key hrow hvalid.mem hown
      exact traced_own hvalid hopen hvalues htrace (hlive.1 hany) hclears
    · exact traced_other hown htrace hclears
  next hnot =>
    -- The job has been cancelled, and its result changes nothing.
    subst hmoves
    have hcancelled : resultBatch.phase done result.job ≠ .claimed := fun hphase =>
      hnot (hlive.2 hphase)
    have hsame (row : PushOutbox) (hrow : row ∈ rows) :
        resultBatch.phase (done ++ [result]) row = resultBatch.phase done row :=
      phase_concat_of_cancelled hvalid hdone hcancelled fun hown =>
        hunique.eq_of_key hrow hvalid.mem hown
    apply forall₂_trans htraced (List.forall₂_same.2 fun row _ => rfl : List.Forall₂ Eq _ _)
    rintro row hrow mid last htrace rfl
    constructor
    · exact htrace.id
    · rw [hsame row hrow]
      exact htrace.ticket
    · rw [hsame row hrow]
      exact htrace.state

/-! ### Refused tickets -/

/-- Neither the outbox nor an earlier result has the ticket of a result. -/
structure Admits (rows : List PushOutbox) (pre : List JobResult) (result : JobResult) : Prop where
  values : ∃ values, result.values = .ok values
  /-- Unless an earlier result has cancelled the job. -/
  ticket : (∀ earlier ∈ pre, ¬ hitsToken earlier.invalidates result.job) →
    ∀ ticketId ∈ result.ticketId, (∀ row ∈ rows, row.ticketId ≠ some ticketId) ∧
      ∀ first earlier rest, pre = first ++ earlier :: rest →
        (∀ other ∈ first, ¬ hitsToken other.invalidates earlier.job) →
          earlier.ticketId ≠ some ticketId

/-- No result of a batch is refused. -/
def Storable (rows : List PushOutbox) (results : List JobResult) : Prop :=
  ∀ pre result post, results = pre ++ result :: post → Admits rows pre result

/-- The results are of jobs of their own. -/
def ValidResults (status : PushOutboxStatus) (rows : List PushOutbox) (results : List JobResult) :
    Prop :=
  (∀ result ∈ results, result.Valid status rows) ∧ (results.map (·.job.id)).Nodup

/-- No earlier result has hit or written the job. -/
theorem phase_claimed_iff (hdone : IsNew status rows done result) :
    resultBatch.phase done result.job = .claimed ↔
      ∀ earlier ∈ done, ¬ hitsToken earlier.invalidates result.job := by
  rw [Batch.phase_eq_claimed_iff]
  constructor
  · exact fun h earlier hearlier => (h earlier hearlier).2
  · exact fun h earlier hearlier => ⟨(hdone earlier hearlier).2, h earlier hearlier⟩

/-- A ticket is in the outbox as it was, or some result has brought it. -/
theorem ticket_free_iff {ticketId : String} (hdone : ValidResults status rows done)
    (hunique : UniqueKey PushOutbox.id rows) (hrow : row ∈ rows) (htrace : Traced done row row') :
    row'.ticketId ≠ some ticketId ↔ row.ticketId ≠ some ticketId ∧
      ∀ first earlier rest, done = first ++ earlier :: rest → earlier.job = row →
        (∀ other ∈ first, ¬ hitsToken other.invalidates earlier.job) →
          earlier.ticketId ≠ some ticketId := by
  have hwriter (earlier : JobResult) : (resultBatch.phase done row).writer = some earlier ↔
      ∃ first rest, done = first ++ earlier :: rest ∧ earlier.job = row ∧
        ∀ other ∈ first, ¬ hitsToken other.invalidates earlier.job := by
    rw [Batch.writer_phase_iff]
    constructor
    · rintro ⟨first, rest, hsplit, howns, hfree⟩
      have hjob : earlier.job = row :=
        hunique.eq_of_key (hdone.1 earlier (by simp [hsplit])).mem hrow howns
      refine ⟨first, rest, hsplit, hjob, fun other hother => ?_⟩
      rw [hjob]
      exact (hfree other hother).2
    · rintro ⟨first, rest, hsplit, hjob, hfree⟩
      refine ⟨first, rest, hsplit, congrArg _ hjob, fun other hother => ⟨?_, ?_⟩⟩
      · -- Two results of one batch are of different jobs.
        intro howns
        have hnodup := hdone.2
        rw [hsplit, List.map_append, List.map_cons] at hnodup
        have hdisjoint := (List.nodup_append.1 hnodup).2.2 other.job.id
          (List.mem_map_of_mem hother) earlier.job.id List.mem_cons_self
        exact hdisjoint (howns.trans (congrArg _ hjob).symm)
      · rw [← hjob]
        exact hfree other hother
  rw [htrace.ticket]
  cases hphase : (resultBatch.phase done row).writer with
  | none =>
      change row.ticketId ≠ some ticketId ↔ _
      constructor
      · intro hfree
        refine ⟨hfree, ?_⟩
        intro first earlier rest hsplit hjob hnone
        have hsome := (hwriter earlier).2 ⟨first, rest, hsplit, hjob, hnone⟩
        rw [hphase] at hsome
        cases hsome
      · exact fun h => h.1
  | some writer =>
      obtain ⟨first, rest, hsplit, hjob, hnone⟩ := (hwriter writer).1 hphase
      have hvalid : writer.Valid status rows := hdone.1 writer (by simp [hsplit])
      change writer.ticketId.or row.ticketId ≠ some ticketId ↔ _
      constructor
      · intro hfree
        constructor
        · intro hold
          have hunsent : writer.ticketId = none := by
            by_contra hsome
            have hempty := hvalid.unsent hsome
            rw [hjob, hold] at hempty
            cases hempty
          rw [hunsent] at hfree
          exact hfree hold
        · intro first' earlier rest' hsplit' hjob' hnone' hticket
          have hsame := (hwriter earlier).2 ⟨first', rest', hsplit', hjob', hnone'⟩
          rw [hphase] at hsame
          obtain rfl := Option.some.inj hsame
          rw [hticket] at hfree
          exact hfree rfl
      · rintro ⟨hold, hbrought⟩
        have hown := hbrought first writer rest hsplit hjob hnone
        cases hticket : writer.ticketId with
        | none => exact hold
        | some stored => rwa [hticket] at hown

/-- A round goes through exactly when its result is not refused. -/
theorem applyJobResult_ok_iff (hunique : UniqueKey PushOutbox.id rows) (hopen : isOpenPush status)
    (hvalid : result.Valid status rows) (hdone : ValidResults status rows done)
    (hnew : IsNew status rows done result)
    (htraced : List.Forall₂ (Traced done) rows db.pushOutbox) :
    (∃ db', applyJobResult status attempts now db result = .ok db') ↔ Admits rows done result := by
  have hlive : db.pushOutbox.any
      (isClaimedJob status attempts result.job.id (attempts result.job)) ↔
        ∀ earlier ∈ done, ¬ hitsToken earlier.invalidates result.job :=
    (any_isClaimedJob_iff hunique hopen hvalid hnew htraced).trans (phase_claimed_iff hnew)
  unfold applyJobResult
  rw [applyResult_ok_iff]
  constructor
  · rintro ⟨values, hvalues, hfree⟩
    refine ⟨⟨values, hvalues⟩, fun hnone ticketId hticket => ?_⟩
    obtain ⟨row', hrow', hclaimed⟩ := List.any_eq_true.1 (hlive.2 hnone)
    have hid : row'.id = result.job.id := by
      simp only [isClaimedJob, decide_eq_true_eq] at hclaimed
      exact hclaimed.1
    have hbrings : ticketId ∈ values.ticketId := by
      rw [JobResult.ticketId, hvalues] at hticket
      exact hticket
    have hothers (row : PushOutbox) (hrow : row ∈ rows) (hne : row.id ≠ result.job.id) :
        row.ticketId ≠ some ticketId ∧
          ∀ first earlier rest, done = first ++ earlier :: rest → earlier.job = row →
            (∀ other ∈ first, ¬ hitsToken other.invalidates earlier.job) →
              earlier.ticketId ≠ some ticketId := by
      obtain ⟨other, hother, htrace⟩ := exists_after htraced hrow
      apply (ticket_free_iff hdone hunique hrow htrace).1
      apply hfree row' hrow' hclaimed ticketId hbrings other hother
      rwa [htrace.id, hid]
    constructor
    · intro row hrow
      by_cases hown : row.id = result.job.id
      · obtain rfl := hunique.eq_of_key hrow hvalid.mem hown
        have hsome : result.ticketId ≠ none := by
          rw [hticket]
          exact Option.some_ne_none ticketId
        rw [hvalid.unsent hsome]
        exact fun h => nomatch h
      · exact (hothers row hrow hown).1
    · intro first earlier rest hsplit hnone'
      have hearlier : earlier ∈ done := by simp [hsplit]
      exact (hothers earlier.job (hdone.1 earlier hearlier).mem (hnew earlier hearlier).2).2
        first earlier rest hsplit rfl hnone'
  · rintro ⟨⟨values, hvalues⟩, hticket⟩
    refine ⟨values, hvalues, ?_⟩
    intro row' hrow' hclaimed ticketId hbrings other' hother' _
    have hnone := hlive.1 (List.any_eq_true.2 ⟨row', hrow', hclaimed⟩)
    have hstored : ticketId ∈ result.ticketId := by
      rw [JobResult.ticketId, hvalues]
      exact hbrings
    obtain ⟨hold, hbrought⟩ := hticket hnone ticketId hstored
    obtain ⟨other, hother, htrace⟩ := exists_before htraced hother'
    apply (ticket_free_iff hdone hunique hother htrace).2
    exact ⟨hold other hother, fun first earlier rest hsplit _ hnone' =>
      hbrought first earlier rest hsplit hnone'⟩

/-! ### The whole loop -/

theorem ValidResults.isNew (h : ValidResults status rows (done ++ result :: results)) :
    IsNew status rows done result := by
  intro earlier hearlier
  refine ⟨h.1 earlier (by simp [hearlier]), ?_⟩
  have hnodup := h.2
  rw [List.map_append, List.map_cons] at hnodup
  exact (List.nodup_append.1 hnodup).2.2 _ (List.mem_map_of_mem hearlier) _ List.mem_cons_self

theorem ValidResults.left (h : ValidResults status rows (done ++ results)) :
    ValidResults status rows done := by
  have hnodup := h.2
  rw [List.map_append] at hnodup
  exact ⟨fun result hresult => h.1 result (List.mem_append_left _ hresult),
    (List.nodup_append.1 hnodup).1⟩

theorem storeResults_from (hunique : UniqueKey PushOutbox.id rows) (hopen : isOpenPush status)
    (hvalid : ValidResults status rows (done ++ results))
    (htraced : List.Forall₂ (Traced done) rows db.pushOutbox) :
    ((∃ db', results.foldlM (applyJobResult status attempts now) db = .ok db') ↔
      ∀ pre result post, results = pre ++ result :: post → Admits rows (done ++ pre) result) ∧
    ∀ db', results.foldlM (applyJobResult status attempts now) db = .ok db' →
      List.Forall₂ (Traced (done ++ results)) rows db'.pushOutbox := by
  induction results generalizing done db with
  | nil =>
      constructor
      · exact ⟨fun _ pre result post h => by simp at h, fun _ => ⟨db, rfl⟩⟩
      · intro db' h
        obtain rfl := pure_eq_ok_iff.1 h
        rwa [List.append_nil]
  | cons result results ih =>
      have hnew := hvalid.isNew
      have hresult : result.Valid status rows := hvalid.1 result (by simp)
      have hround : (∃ db', applyJobResult status attempts now db result = .ok db') ↔
          Admits rows done result :=
        applyJobResult_ok_iff hunique hopen hresult hvalid.left hnew htraced
      have hrest : ValidResults status rows ((done ++ [result]) ++ results) := by
        rwa [List.append_assoc]
      have hnext {db₁ : Database} (h : applyJobResult status attempts now db result = .ok db₁) :=
        ih hrest (applyJobResult_traced hunique hopen hresult hnew htraced h)
      constructor
      · constructor
        · rintro ⟨db', h⟩
          rw [List.foldlM_cons] at h
          obtain ⟨db₁, hfirst, hends⟩ := bind_eq_ok_iff.1 h
          intro pre other post hsplit
          cases pre with
          | nil =>
              obtain ⟨rfl, rfl⟩ := List.cons.inj hsplit
              rw [List.append_nil]
              exact hround.1 ⟨db₁, hfirst⟩
          | cons head pre =>
              obtain ⟨rfl, htail⟩ := List.cons.inj hsplit
              have hlater := (hnext hfirst).1.1 ⟨db', hends⟩ pre other post htail
              rwa [List.append_assoc] at hlater
        · intro hadmits
          obtain ⟨db₁, hfirst⟩ := hround.2 (by simpa using hadmits [] result results rfl)
          obtain ⟨db', hends⟩ := (hnext hfirst).1.2 fun pre other post hsplit => by
            have hlater := hadmits (result :: pre) other post (by rw [hsplit]; rfl)
            rwa [List.append_assoc]
          refine ⟨db', ?_⟩
          rw [List.foldlM_cons, hfirst]
          exact hends
      · intro db' h
        rw [List.foldlM_cons] at h
        obtain ⟨db₁, hfirst, hends⟩ := bind_eq_ok_iff.1 h
        have hlater := (hnext hfirst).2 db' hends
        rwa [List.append_assoc] at hlater

/-- The transaction goes through exactly when no result is refused. -/
theorem storeResults_ok_iff (hunique : UniqueKey PushOutbox.id db.pushOutbox)
    (hopen : isOpenPush status) (hvalid : ValidResults status db.pushOutbox results) :
    (∃ db', results.foldlM (applyJobResult status attempts now) db = .ok db') ↔
      Storable db.pushOutbox results := by
  have hstart : List.Forall₂ (Traced []) db.pushOutbox db.pushOutbox :=
    List.forall₂_same.2 fun row _ => traced_nil row
  exact (storeResults_from hunique hopen (by simpa using hvalid) hstart).1

theorem storeResults_traced (hunique : UniqueKey PushOutbox.id db.pushOutbox)
    (hopen : isOpenPush status) (hvalid : ValidResults status db.pushOutbox results)
    (h : results.foldlM (applyJobResult status attempts now) db = .ok db') :
    List.Forall₂ (Traced results) db.pushOutbox db'.pushOutbox := by
  have hstart : List.Forall₂ (Traced []) db.pushOutbox db.pushOutbox :=
    List.forall₂_same.2 fun row _ => traced_nil row
  exact (storeResults_from hunique hopen (by simpa using hvalid) hstart).2 db' h

/-- The outbox has the values of a result in the row of its job. -/
def IsStored (result : JobResult) (db : Database) : Prop :=
  ∃ row ∈ db.pushOutbox, row.id = result.job.id ∧ ∃ values, result.values = .ok values ∧
    HoldsValues values row

/-- A result is in the outbox exactly when no other one has cancelled its job. -/
theorem isStored_iff {pre post : List JobResult} (hunique : UniqueKey PushOutbox.id db.pushOutbox)
    (hopen : isOpenPush status) (hvalid : ValidResults status db.pushOutbox (pre ++ result :: post))
    (h : (pre ++ result :: post).foldlM (applyJobResult status attempts now) db = .ok db') :
    IsStored result db' ↔ (∀ other ∈ pre, ¬ hitsToken other.invalidates result.job) ∧
      (result.leavesOpen → ∀ other ∈ post, ¬ hitsToken other.invalidates result.job) := by
  have htraced := storeResults_traced hunique hopen hvalid h
  have hresult : result.Valid status db.pushOutbox := hvalid.1 result (by simp)
  have hisOpen : isOpenPush result.job.status := by rwa [hresult.claimed]
  have hfree : ∀ other ∈ pre, ¬ resultBatch.owns other result.job := fun other hother =>
    (hvalid.isNew other hother).2
  have hphase : resultBatch.phase (pre ++ result :: post) result.job = .written result ↔ _ :=
    Batch.phase_eq_written_iff rfl hfree
  refine Iff.trans ?_ hphase
  constructor
  · rintro ⟨row', hrow', hid, values, hvalues, hholds⟩
    obtain ⟨row, hrow, htrace⟩ := exists_before htraced hrow'
    obtain rfl : row = result.job :=
      hunique.eq_of_key hrow hresult.mem (htrace.id.symm.trans hid)
    have hstate := htrace.state hisOpen
    cases hbecame : resultBatch.phase (pre ++ result :: post) result.job with
    | claimed =>
        have hnot := Batch.phase_eq_claimed_iff.1 hbecame result (by simp)
        exact absurd rfl hnot.1
    | written writer =>
        have hwriter : (resultBatch.phase (pre ++ result :: post) result.job).writer =
            some writer := by
          rw [hbecame]
          rfl
        obtain ⟨first, rest, hsplit, howns, -⟩ := Batch.writer_phase_iff.1 hwriter
        have hmem : writer ∈ pre ++ result :: post := by simp [hsplit]
        rw [List.inj_on_of_nodup_map hvalid.2 hmem (by simp) howns]
    | closed writer =>
        rw [hbecame] at hstate
        have hcancelled : row'.status = .cancelled := hstate
        have hstatus : values.status = row'.status := congrArg PushOutbox.status hholds
        exact absurd (hstatus.trans hcancelled) (hresult.notCancelled values hvalues)
  · intro hwritten
    obtain ⟨row', hrow', htrace⟩ := exists_after htraced hresult.mem
    have hstate := htrace.state hisOpen
    rw [hwritten] at hstate
    obtain ⟨values, hvalues, hholds, -⟩ := hstate
    exact ⟨row', hrow', htrace.id, values, hvalues, hholds⟩

end Round

end ChatTea.Notification
