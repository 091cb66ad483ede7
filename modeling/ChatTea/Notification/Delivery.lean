import ChatTea.Notification.Batches
import ChatTea.Notification.OutboxRuns
import Mathlib

/-!
# Batches of pushes and the answers of Expo

A ticket belongs to the job at its own place, and a receipt to the job with its own ticket. What a
batch makes of an answer is stored in one transaction, so that one ticket that cannot be stored
keeps all other results of the batch out of the outbox.

## Main definitions

* `SendBatchRight`, `ReceiptBatchRight` — each job of a batch gets its own result, and it is stored
* `TicketsKept`, `ReceiptsKept` — the answers that let it

## Main results

* `sendBatch_iff`, `receiptBatch_iff` — the exact condition for either batch
* `push_batches` — both of them, in every state of the outbox
-/

namespace ChatTea.Notification

open Table Transaction
open Users (cancelPush deletePushTokens isOpenPush)

variable {now : Timestamp} {db db' : Database} {job row : PushOutbox} {ticket : ExpoGatewayTicket}
  {receipt : Option ExpoGatewayReceipt} {pushTokenId : RowId} {values : PushOutboxValues}

/-! ### The result of one ticket -/

/-- Expo no longer knows the device. -/
def ExpoGatewayTicket.isUnregistered : ExpoGatewayTicket → Bool
  | .ok _ => false
  | .error _ errorCode => errorCode = some "DeviceNotRegistered"

/-- The row is one of the push token of a job. -/
def SameToken (job row : PushOutbox) : Prop :=
  job.pushTokenId ≠ none ∧ row.pushTokenId = job.pushTokenId

/-- The job goes on when its ticket is stored. -/
def goesOn (job : PushOutbox) : ExpoGatewayTicket → Bool
  | .ok _ => true
  | .error _ errorCode =>
      (errorCode = some "MessageRateExceeded" ∨ errorCode = some "ProviderError") ∧
        job.sendAttempts < maxPushSendAttempts

def ofSendResult (now : Timestamp) (job : PushOutbox) (result : PushSendResult) : JobResult where
  job := job
  values := sendResultValues result now
  invalidates := result.invalidatePushTokenId

/-- What is stored for a ticket. -/
def ofTicket (now : Timestamp) (sent : PushOutbox × ExpoGatewayTicket) : JobResult :=
  ofSendResult now sent.1 (ticketResult sent.1 (some sent.2) now)

/-- A result is one of a job. -/
structure ResultOf (job : PushOutbox) (result : PushSendResult) : Prop where
  id : result.id = job.id
  attempt : result.attempt = job.sendAttempts

theorem retrySendResult_of (job : PushOutbox) (now : Timestamp) (errorCode : String)
    (errorMessage : Option String) : ResultOf job (retrySendResult job now errorCode errorMessage) := by
  unfold retrySendResult
  split <;> exact ⟨rfl, rfl⟩

theorem ticketResult_of (job : PushOutbox) (ticket : Option ExpoGatewayTicket) (now : Timestamp) :
    ResultOf job (ticketResult job ticket now) := by
  unfold ticketResult
  split
  · exact retrySendResult_of _ _ _ _
  · exact ⟨rfl, rfl⟩
  · split
    · exact retrySendResult_of _ _ _ _
    · split
      · exact retrySendResult_of _ _ _ _
      · exact ⟨rfl, rfl⟩

/-- What is stored for a job that is sent again, or not any more. -/
theorem retrySendResult_values (job : PushOutbox) (now : Timestamp) (errorCode : String)
    (errorMessage : Option String) : ∃ values,
      sendResultValues (retrySendResult job now errorCode errorMessage) now = .ok values ∧
        values.ticketId = none ∧
        values.status = if maxPushSendAttempts ≤ job.sendAttempts then .exhausted else .queued := by
  unfold retrySendResult
  split
  · exact ⟨_, rfl, rfl, rfl⟩
  · exact ⟨_, rfl, rfl, rfl⟩

theorem retrySendResult_invalidates (job : PushOutbox) (now : Timestamp) (errorCode : String)
    (errorMessage : Option String) :
    (retrySendResult job now errorCode errorMessage).invalidatePushTokenId = none := by
  unfold retrySendResult
  split <;> rfl

/-- The three ways a ticket may go. -/
theorem ofTicket_cases (job : PushOutbox) (ticket : ExpoGatewayTicket) (now : Timestamp) :
    (∃ id, ticket = .ok id ∧ (ofTicket now (job, ticket)).invalidates = none ∧
      if id = "" then ∃ failure, (ofTicket now (job, ticket)).values = .error failure
      else ∃ values, (ofTicket now (job, ticket)).values = .ok values ∧ values.ticketId = some id ∧
        values.status = .receiptPending) ∨
    (∃ message errorCode, ticket = .error message errorCode ∧
      (errorCode = some "MessageRateExceeded" ∨ errorCode = some "ProviderError") ∧
      (ofTicket now (job, ticket)).invalidates = none ∧
      ∃ values, (ofTicket now (job, ticket)).values = .ok values ∧ values.ticketId = none ∧
        values.status = if maxPushSendAttempts ≤ job.sendAttempts then .exhausted else .queued) ∨
    ∃ message errorCode, ticket = .error message errorCode ∧
      ¬ (errorCode = some "MessageRateExceeded" ∨ errorCode = some "ProviderError") ∧
      (ofTicket now (job, ticket)).invalidates = invalidatedToken job errorCode ∧
      ∃ values, (ofTicket now (job, ticket)).values = .ok values ∧ values.ticketId = none ∧
        values.status = .failedPermanent := by
  cases ticket with
  | ok id =>
      left
      refine ⟨id, rfl, rfl, ?_⟩
      split
      next hid =>
        subst hid
        exact ⟨_, rfl⟩
      next hid =>
        have hname : truthy (some id) = some id := by simp [truthy, hid]
        simp only [ofTicket, ofSendResult, ticketResult, sendResultValues, hname]
        exact ⟨_, rfl, rfl, rfl⟩
  | error message errorCode =>
      right
      by_cases hrate : errorCode = some "MessageRateExceeded"
      · left
        refine ⟨message, errorCode, rfl, Or.inl hrate, ?_⟩
        simp only [ofTicket, ofSendResult, ticketResult, if_pos hrate]
        exact ⟨retrySendResult_invalidates _ _ _ _, retrySendResult_values _ _ _ _⟩
      · by_cases hprovider : errorCode = some "ProviderError"
        · left
          refine ⟨message, errorCode, rfl, Or.inr hprovider, ?_⟩
          simp only [ofTicket, ofSendResult, ticketResult, if_neg hrate, if_pos hprovider]
          exact ⟨retrySendResult_invalidates _ _ _ _, retrySendResult_values _ _ _ _⟩
        · right
          refine ⟨message, errorCode, rfl, not_or.2 ⟨hrate, hprovider⟩, ?_⟩
          simp only [ofTicket, ofSendResult, ticketResult, if_neg hrate, if_neg hprovider]
          exact ⟨trivial, _, rfl, rfl, rfl⟩

/-- A ticket is stored unless it has no name. -/
theorem ofTicket_values : (∃ values, (ofTicket now (job, ticket)).values = .ok values) ↔
    ticket ≠ .ok "" := by
  rcases ofTicket_cases job ticket now with ⟨id, rfl, -, hvalues⟩ |
    ⟨message, errorCode, rfl, -, -, values, hvalues, -⟩ |
    ⟨message, errorCode, rfl, -, -, values, hvalues, -⟩
  · split at hvalues
    next hid =>
      obtain ⟨failure, hfailure⟩ := hvalues
      subst hid
      simp [hfailure]
    next hid =>
      obtain ⟨values, hvalues, -⟩ := hvalues
      simp [hvalues, hid]
  · simp [hvalues]
  · simp [hvalues]

theorem ofTicket_ticketId {id : String} :
    (ofTicket now (job, ticket)).ticketId = some id ↔ ticket = .ok id ∧ id ≠ "" := by
  unfold JobResult.ticketId
  rcases ofTicket_cases job ticket now with ⟨name, rfl, -, hvalues⟩ |
    ⟨message, errorCode, rfl, -, -, values, hvalues, hticket, -⟩ |
    ⟨message, errorCode, rfl, -, -, values, hvalues, hticket, -⟩
  · split at hvalues
    next hname =>
      obtain ⟨failure, hfailure⟩ := hvalues
      rw [hfailure]
      constructor
      · exact fun h => nomatch h
      · rintro ⟨hsame, hid⟩
        rw [hname] at hsame
        exact absurd (ExpoGatewayTicket.ok.inj hsame).symm hid
    next hname =>
      obtain ⟨values, hvalues, hticket, -⟩ := hvalues
      rw [hvalues]
      change values.ticketId = some id ↔ _
      rw [hticket]
      constructor
      · intro hsame
        obtain rfl := Option.some.inj hsame
        exact ⟨rfl, hname⟩
      · rintro ⟨hsame, -⟩
        rw [ExpoGatewayTicket.ok.inj hsame]
  · rw [hvalues]
    simp [hticket]
  · rw [hvalues]
    simp [hticket]

theorem ofTicket_leavesOpen : (ofTicket now (job, ticket)).leavesOpen ↔
    goesOn job ticket ∧ ticket ≠ .ok "" := by
  unfold JobResult.leavesOpen
  rcases ofTicket_cases job ticket now with ⟨name, rfl, -, hvalues⟩ |
    ⟨message, errorCode, rfl, hcode, -, values, hvalues, -, hstatus⟩ |
    ⟨message, errorCode, rfl, hcode, -, values, hvalues, -, hstatus⟩
  · split at hvalues
    next hname =>
      obtain ⟨failure, hfailure⟩ := hvalues
      subst hname
      simp [hfailure]
    next hname =>
      obtain ⟨values, hvalues, -, hstatus⟩ := hvalues
      simp [hvalues, hstatus, hname, goesOn, isOpenPush]
  · rw [hvalues]
    change isOpenPush values.status ↔ _
    rw [hstatus]
    by_cases hmax : maxPushSendAttempts ≤ job.sendAttempts
    · simp [hmax, isOpenPush, goesOn]
    · simp [hmax, isOpenPush, goesOn, hcode, not_le.1 hmax]
  · rw [hvalues]
    change isOpenPush values.status ↔ _
    rw [hstatus]
    simp [isOpenPush, goesOn, hcode]

/-- Only a ticket of an unknown device gives up the push token of its job. -/
theorem hitsToken_ofTicket : hitsToken (ofTicket now (job, ticket)).invalidates row ↔
    ticket.isUnregistered ∧ SameToken job row := by
  rcases ofTicket_cases job ticket now with ⟨name, rfl, hnone, -⟩ |
    ⟨message, errorCode, rfl, hcode, hnone, -⟩ | ⟨message, errorCode, rfl, hcode, htoken, -⟩
  · rw [hnone]
    simp [hitsToken, ExpoGatewayTicket.isUnregistered]
  · rw [hnone]
    rcases hcode with rfl | rfl <;> simp [hitsToken, ExpoGatewayTicket.isUnregistered]
  · rw [htoken]
    by_cases hdevice : errorCode = some "DeviceNotRegistered"
    · simp [hitsToken, invalidatedToken, hdevice, ExpoGatewayTicket.isUnregistered, SameToken]
    · simp [hitsToken, invalidatedToken, hdevice, ExpoGatewayTicket.isUnregistered]

/-! ### The tickets of a batch -/

/-- A job with its ticket gives up the push token of a row. -/
def GivesUp (sent : PushOutbox × ExpoGatewayTicket) (row : PushOutbox) : Prop :=
  sent.2.isUnregistered ∧ SameToken sent.1 row

/-- A ticket of its own: it has a name that neither another ticket of the batch nor a row of the
outbox has, or it reports an error. -/
def IsSound (rows : List PushOutbox) (earlier : List (PushOutbox × ExpoGatewayTicket))
    (ticket : ExpoGatewayTicket) (later : List (PushOutbox × ExpoGatewayTicket)) : Prop :=
  ∀ id, ticket = .ok id → id ≠ "" ∧ (∀ sent ∈ earlier ++ later, sent.2 ≠ .ok id) ∧
    ∀ row ∈ rows, row.ticketId ≠ some id

/-- Answers that let each sound ticket of a batch be stored. -/
structure TicketsKept (rows : List PushOutbox) (batch : List (PushOutbox × ExpoGatewayTicket)) :
    Prop where
  named : ∀ sent ∈ batch, sent.2 ≠ .ok ""
  /-- The tickets of the jobs that nothing has cancelled by then are new. -/
  free : ∀ earlier job id later, batch = earlier ++ (job, .ok id) :: later →
    (∀ sent ∈ earlier, ¬ GivesUp sent job) → (∀ row ∈ rows, row.ticketId ≠ some id) ∧
      ∀ first other rest, earlier = first ++ (other, .ok id) :: rest →
        ∃ sent ∈ first, GivesUp sent other
  /-- No other job of the batch gives up the push token of a job with a sound ticket, unless it
  comes later and the job has ended. -/
  undisturbed : ∀ earlier job ticket later, batch = earlier ++ (job, ticket) :: later →
    IsSound rows earlier ticket later → (∀ sent ∈ earlier, ¬ GivesUp sent job) ∧
      (goesOn job ticket → ∀ sent ∈ later, ¬ GivesUp sent job)

section Tickets

variable {batch earlier later : List (PushOutbox × ExpoGatewayTicket)} {rows : List PushOutbox}
  {jobs : List PushOutbox} {tickets : List ExpoGatewayTicket}

theorem not_hitsToken_map : (∀ result ∈ earlier.map (ofTicket now), ¬ hitsToken result.invalidates row) ↔
    ∀ sent ∈ earlier, ¬ GivesUp sent row := by
  simp only [List.forall_mem_map]
  apply forall₂_congr
  rintro ⟨job, ticket⟩ _
  rw [hitsToken_ofTicket]
  rfl

/-- When nothing of a batch is refused. -/
theorem storable_tickets_iff : Storable rows (batch.map (ofTicket now)) ↔
    (∀ sent ∈ batch, sent.2 ≠ .ok "") ∧
      ∀ earlier job id later, batch = earlier ++ (job, .ok id) :: later →
        (∀ sent ∈ earlier, ¬ GivesUp sent job) → (∀ row ∈ rows, row.ticketId ≠ some id) ∧
          ∀ first other rest, earlier = first ++ (other, .ok id) :: rest →
            ∃ sent ∈ first, GivesUp sent other := by
  unfold Storable
  rw [Sweep.forall_split_map]
  constructor
  · intro h
    have hnamed : ∀ sent ∈ batch, sent.2 ≠ .ok "" := by
      intro sent hsent
      obtain ⟨earlier, later, hsplit⟩ := List.append_of_mem hsent
      exact ofTicket_values.1 (h earlier sent later hsplit).values
    refine ⟨hnamed, ?_⟩
    intro earlier job id later hsplit hnone
    have hid : id ≠ "" := by
      rintro rfl
      exact hnamed (job, .ok "") (by simp [hsplit]) rfl
    obtain ⟨hrows, hearlier⟩ := (h earlier (job, .ok id) later hsplit).ticket
      (not_hitsToken_map.2 hnone) id (ofTicket_ticketId.2 ⟨rfl, hid⟩)
    refine ⟨hrows, ?_⟩
    intro first other rest hfirst
    by_contra hnot
    apply hearlier (first.map (ofTicket now)) (ofTicket now (other, .ok id))
      (rest.map (ofTicket now))
    · rw [hfirst, List.map_append, List.map_cons]
    · exact not_hitsToken_map.2 fun sent hsent hgives => hnot ⟨sent, hsent, hgives⟩
    · exact ofTicket_ticketId.2 ⟨rfl, hid⟩
  · rintro ⟨hnamed, hfree⟩ earlier ⟨job, ticket⟩ later hsplit
    constructor
    · exact ofTicket_values.2 (hnamed (job, ticket) (by simp [hsplit]))
    · intro hnone id hid
      obtain ⟨rfl, -⟩ := ofTicket_ticketId.1 hid
      obtain ⟨hrows, hearlier⟩ := hfree earlier job id later hsplit (not_hitsToken_map.1 hnone)
      refine ⟨hrows, ?_⟩
      intro images image rest hfirst hnone' hticket
      obtain ⟨first, tail, hearlier', rfl, htail⟩ := List.map_eq_append_iff.1 hfirst
      obtain ⟨⟨other, ticket⟩, others, rfl, rfl, rfl⟩ := List.map_eq_cons_iff.1 htail
      obtain ⟨rfl, -⟩ := ofTicket_ticketId.1 hticket
      obtain ⟨sent, hsent, hgives⟩ := hearlier first other others hearlier'
      exact not_hitsToken_map.1 hnone' sent hsent hgives

theorem ofTicket_valid (hmem : job ∈ rows) (hstatus : job.status = .sending)
    (hunsent : job.ticketId = none) : (ofTicket now (job, ticket)).Valid .sending rows where
  mem := hmem
  claimed := hstatus
  token := by
    intro pushTokenId htoken
    have hhits : hitsToken (ofTicket now (job, ticket)).invalidates
        { job with pushTokenId := some pushTokenId } := by
      rw [htoken]
      exact ⟨Option.some_ne_none _, rfl⟩
    obtain ⟨hunregistered, hsome, hsame⟩ := hitsToken_ofTicket.1 hhits
    refine ⟨hsame.symm, ?_⟩
    have hends : ¬ (ofTicket now (job, ticket)).leavesOpen := by
      rw [ofTicket_leavesOpen]
      cases ticket with
      | ok id => cases hunregistered
      | error message errorCode =>
          simp only [ExpoGatewayTicket.isUnregistered, decide_eq_true_eq] at hunregistered
          simp [goesOn, hunregistered]
    simpa using hends
  notCancelled := by
    intro values hvalues
    rcases ofTicket_cases job ticket now with ⟨name, rfl, -, hname⟩ |
      ⟨message, errorCode, rfl, -, -, stored, hstored, -, hstatus⟩ |
      ⟨message, errorCode, rfl, -, -, stored, hstored, -, hstatus⟩
    · split at hname
      · obtain ⟨failure, hfailure⟩ := hname
        rw [hfailure] at hvalues
        cases hvalues
      · obtain ⟨stored, hstored, -, hstatus⟩ := hname
        obtain rfl := Except.ok.inj (hstored.symm.trans hvalues)
        simp [hstatus]
    · obtain rfl := Except.ok.inj (hstored.symm.trans hvalues)
      rw [hstatus]
      split <;> simp
    · obtain rfl := Except.ok.inj (hstored.symm.trans hvalues)
      simp [hstatus]
  unsent _ := hunsent

/-- The loop over some results is the loop over what is stored for them. -/
theorem foldlM_applySendResult {α : Type} (items : List α) (jobOf : α → PushOutbox)
    (resultOf : α → PushSendResult) (h : ∀ item ∈ items, ResultOf (jobOf item) (resultOf item))
    (db : Database) :
    (items.map resultOf).foldlM (applySendResult now) db =
      (items.map fun item => ofSendResult now (jobOf item) (resultOf item)).foldlM
        (applyJobResult .sending (·.sendAttempts) now) db := by
  induction items generalizing db with
  | nil => rfl
  | cons item items ih =>
      have hitem := h item List.mem_cons_self
      have hround : applySendResult now db (resultOf item) = applyJobResult .sending
          (·.sendAttempts) now db (ofSendResult now (jobOf item) (resultOf item)) := by
        unfold applySendResult applyJobResult ofSendResult
        rw [hitem.id, hitem.attempt]
      rw [List.map_cons, List.map_cons, List.foldlM_cons, List.foldlM_cons, hround]
      apply bind_congr_ok
      intro next _
      exact ih (fun other hother => h other (List.mem_cons_of_mem _ hother)) next

theorem ClaimedJobs.validResults {status : PushOutboxStatus} {α : Type} {items : List α}
    {resultOf : α → JobResult} (h : ClaimedJobs status jobs db)
    (hjobs : items.map (fun item => (resultOf item).job) = jobs)
    (hvalid : ∀ item ∈ items, (resultOf item).Valid status db.pushOutbox) :
    ValidResults status db.pushOutbox (items.map resultOf) := by
  constructor
  · exact List.forall_mem_map.2 hvalid
  · have hids : (items.map resultOf).map (fun result => result.job.id) = jobs.map (·.id) := by
      rw [← hjobs, List.map_map, List.map_map]
      rfl
    rw [hids]
    exact h.nodup

/-- With as many tickets as jobs each job gets the ticket at its own place. -/
theorem sendResults_matched (hlength : tickets.length = jobs.length) :
    sendResults jobs (.ok tickets) now =
      (jobs.zip tickets).map fun sent => ticketResult sent.1 (some sent.2) now := by
  rw [sendResults, if_pos hlength]
  apply List.ext_getElem?
  intro index
  rw [List.getElem?_map, List.getElem?_map, List.getElem?_zipIdx, List.zip_eq_zipWith,
    List.getElem?_zipWith]
  by_cases hindex : index < jobs.length
  · have hticket : index < tickets.length := hlength ▸ hindex
    simp [List.getElem?_eq_getElem hindex, List.getElem?_eq_getElem hticket]
  · simp [List.getElem?_eq_none (not_lt.1 hindex)]

theorem retry_valid (errorCode : String) (errorMessage : Option String) (hmem : job ∈ rows)
    (hstatus : job.status = .sending) :
    (ofSendResult now job (retrySendResult job now errorCode errorMessage)).Valid .sending rows := by
  obtain ⟨values, hvalues, hticket, hends⟩ :=
    retrySendResult_values job now errorCode errorMessage
  have hnone := retrySendResult_invalidates job now errorCode errorMessage
  constructor
  · exact hmem
  · exact hstatus
  · intro pushTokenId htoken
    change (retrySendResult job now errorCode errorMessage).invalidatePushTokenId = _ at htoken
    rw [hnone] at htoken
    cases htoken
  · intro stored hstored
    obtain rfl := Except.ok.inj (hvalues.symm.trans hstored)
    rw [hends]
    split <;> simp
  · intro hsome
    have hno : (ofSendResult now job (retrySendResult job now errorCode errorMessage)).ticketId =
        none := by
      have hstores : (ofSendResult now job (retrySendResult job now errorCode errorMessage)).values =
          .ok values := hvalues
      rw [JobResult.ticketId, hstores]
      exact hticket
    exact absurd hno hsome

/-- Results that bring no ticket and give up no push token are all stored. -/
theorem quiet_stored {status : PushOutboxStatus} {attempts : PushOutbox → ℕ}
    {results : List JobResult} (hunique : UniqueKey PushOutbox.id db.pushOutbox)
    (hopen : isOpenPush status) (hvalid : ValidResults status db.pushOutbox results)
    (hquiet : ∀ result ∈ results, result.invalidates = none ∧ result.ticketId = none ∧
      ∃ values, result.values = .ok values) :
    ∃ db', results.foldlM (applyJobResult status attempts now) db = .ok db' ∧
      ∀ result ∈ results, IsStored result db' := by
  have hnothing (result : JobResult) (hresult : result ∈ results) (row : PushOutbox) :
      ¬ hitsToken result.invalidates row := fun h => h.1 (hquiet result hresult).1
  have hstorable : Storable db.pushOutbox results := by
    intro pre result post hsplit
    obtain ⟨-, hticket, hvalues⟩ := hquiet result (by simp [hsplit])
    refine ⟨hvalues, fun _ ticketId hmem => ?_⟩
    rw [hticket] at hmem
    cases hmem
  obtain ⟨db', hends⟩ := (storeResults_ok_iff hunique hopen hvalid).2 hstorable
  refine ⟨db', hends, fun result hresult => ?_⟩
  obtain ⟨pre, post, rfl⟩ := List.append_of_mem hresult
  apply (isStored_iff hunique hopen hvalid hends).2
  constructor
  · exact fun other hother => hnothing other (List.mem_append_left _ hother) _
  · intro _ other hother
    exact hnothing other (List.mem_append_right _ (List.mem_cons_of_mem _ hother)) _

/-- A batch without tickets of its own is sent again later, job for job. -/
theorem retries_stored (h : ClaimedJobs .sending jobs db) (errorCode : String)
    (errorMessage : Option String) :
    ∃ db', (jobs.map fun job => retrySendResult job now errorCode errorMessage).foldlM
        (applySendResult now) db = .ok db' ∧
      ∀ job ∈ jobs, IsStored
        (ofSendResult now job (retrySendResult job now errorCode errorMessage)) db' := by
  have hvalid : ValidResults .sending db.pushOutbox (jobs.map fun job =>
      ofSendResult now job (retrySendResult job now errorCode errorMessage)) := by
    apply h.validResults (List.map_id' jobs)
    exact fun job hjob => retry_valid errorCode errorMessage (h.mem job hjob) (h.claimed job hjob)
  have hquiet : ∀ result ∈ jobs.map (fun job =>
      ofSendResult now job (retrySendResult job now errorCode errorMessage)),
      result.invalidates = none ∧ result.ticketId = none ∧
        ∃ values, result.values = .ok values := by
    intro result hresult
    obtain ⟨job, -, rfl⟩ := List.mem_map.1 hresult
    obtain ⟨values, hvalues, hticket, -⟩ := retrySendResult_values job now errorCode errorMessage
    refine ⟨retrySendResult_invalidates job now errorCode errorMessage, ?_, values, hvalues⟩
    simp only [JobResult.ticketId, ofSendResult, hvalues, hticket]
  obtain ⟨db', hends, hstored⟩ := quiet_stored h.unique (by decide) hvalid hquiet
  refine ⟨db', ?_, fun job hjob => hstored _ (List.mem_map_of_mem hjob)⟩
  rw [foldlM_applySendResult jobs (fun job => job) _ fun job _ => retrySendResult_of _ _ _ _]
  exact hends

/-- The exact condition on the tickets of a batch. -/
theorem tickets_iff (h : ClaimedJobs .sending jobs db) (hunsent : ∀ job ∈ jobs, job.ticketId = none)
    (hlength : tickets.length = jobs.length) :
    (∃ db', (sendResults jobs (.ok tickets) now).foldlM (applySendResult now) db = .ok db' ∧
      ∀ earlier job ticket later, jobs.zip tickets = earlier ++ (job, ticket) :: later →
        IsSound db.pushOutbox earlier ticket later → IsStored (ofTicket now (job, ticket)) db') ↔
      TicketsKept db.pushOutbox (jobs.zip tickets) := by
  have hjobs : (jobs.zip tickets).map (fun sent => (ofTicket now sent).job) = jobs :=
    List.map_fst_zip (le_of_eq hlength.symm)
  have hmem (sent : PushOutbox × ExpoGatewayTicket) (hsent : sent ∈ jobs.zip tickets) :
      sent.1 ∈ jobs := (List.of_mem_zip hsent).1
  have hvalid : ValidResults .sending db.pushOutbox ((jobs.zip tickets).map (ofTicket now)) :=
    h.validResults hjobs fun sent hsent => ofTicket_valid (h.mem _ (hmem sent hsent))
      (h.claimed _ (hmem sent hsent)) (hunsent _ (hmem sent hsent))
  have hloop : (sendResults jobs (.ok tickets) now).foldlM (applySendResult now) db =
      ((jobs.zip tickets).map (ofTicket now)).foldlM
        (applyJobResult .sending (·.sendAttempts) now) db := by
    rw [sendResults_matched hlength]
    exact foldlM_applySendResult _ Prod.fst _ (fun sent _ => ticketResult_of _ _ _) db
  have hopen : isOpenPush .sending := by decide
  have hstored {db' : Database} (hends : ((jobs.zip tickets).map (ofTicket now)).foldlM
      (applyJobResult .sending (·.sendAttempts) now) db = .ok db')
      {earlier later : List (PushOutbox × ExpoGatewayTicket)} {job : PushOutbox}
      {ticket : ExpoGatewayTicket} (hsplit : jobs.zip tickets = earlier ++ (job, ticket) :: later)
      (hnamed : ticket ≠ .ok "") :
      IsStored (ofTicket now (job, ticket)) db' ↔ (∀ sent ∈ earlier, ¬ GivesUp sent job) ∧
        (goesOn job ticket → ∀ sent ∈ later, ¬ GivesUp sent job) := by
    rw [hsplit, List.map_append, List.map_cons] at hvalid hends
    rw [isStored_iff h.unique hopen hvalid hends, ofTicket_leavesOpen]
    have hjob : (ofTicket now (job, ticket)).job = job := rfl
    rw [hjob, not_hitsToken_map, not_hitsToken_map]
    simp only [hnamed, ne_eq, not_false_eq_true, and_true]
  rw [hloop]
  constructor
  · rintro ⟨db', hends, hall⟩
    obtain ⟨hnamed, hfree⟩ :=
      storable_tickets_iff.1 ((storeResults_ok_iff h.unique hopen hvalid).1 ⟨db', hends⟩)
    refine ⟨hnamed, hfree, ?_⟩
    intro earlier job ticket later hsplit hsound
    apply (hstored hends hsplit _).1 (hall earlier job ticket later hsplit hsound)
    exact hnamed (job, ticket) (by simp [hsplit])
  · intro hkept
    obtain ⟨db', hends⟩ := (storeResults_ok_iff h.unique hopen hvalid).2
      (storable_tickets_iff.2 ⟨hkept.named, hkept.free⟩)
    refine ⟨db', hends, ?_⟩
    intro earlier job ticket later hsplit hsound
    apply (hstored hends hsplit _).2 (hkept.undisturbed earlier job ticket later hsplit hsound)
    exact hkept.named (job, ticket) (by simp [hsplit])

end Tickets

/-! ### The receipts of a batch -/

def ExpoGatewayReceipt.isUnregistered : ExpoGatewayReceipt → Bool
  | .ok => false
  | .error _ errorCode => errorCode = some "DeviceNotRegistered"

def ofReceiptResult (now : Timestamp) (job : PushOutbox) (result : PushReceiptResult) : JobResult where
  job := job
  values := receiptResultValues result now
  invalidates := result.invalidatePushTokenId

/-- A result of a job that can be stored. -/
structure ReceiptOf (now : Timestamp) (job : PushOutbox) (result : PushReceiptResult) : Prop where
  id : result.id = job.id
  attempt : result.attempt = job.receiptAttempts
  values : ∃ values, receiptResultValues result now = .ok values ∧ values.ticketId = none ∧
    values.status ≠ .cancelled ∧ (isOpenPush values.status ↔ result.kind = .retry)
  token : ∀ pushTokenId, result.invalidatePushTokenId = some pushTokenId →
    job.pushTokenId = some pushTokenId ∧ result.kind ≠ .retry

theorem retryReceiptResult_of (job : PushOutbox) (now : Timestamp) (errorCode : String)
    (errorMessage : Option String) :
    ReceiptOf now job (retryReceiptResult job now errorCode errorMessage) := by
  unfold retryReceiptResult
  split
  · exact ⟨rfl, rfl, ⟨_, rfl, rfl, by simp, by simp [isOpenPush]⟩, fun _ h => nomatch h⟩
  · exact ⟨rfl, rfl, ⟨_, rfl, rfl, by simp, by simp [isOpenPush]⟩, fun _ h => nomatch h⟩

theorem retryReceiptResult_spec (job : PushOutbox) (now : Timestamp) (errorCode : String)
    (errorMessage : Option String) :
    (retryReceiptResult job now errorCode errorMessage).invalidatePushTokenId = none ∧
      ((retryReceiptResult job now errorCode errorMessage).kind = .retry ↔
        job.receiptAttempts < maxPushReceiptAttempts) ∧
      (retryReceiptResult job now errorCode errorMessage).kind ≠ .delivered := by
  unfold retryReceiptResult
  split
  next hmax => simpa using hmax
  next hmax => simpa using hmax

theorem receiptResult_of (job : PushOutbox) (receipt : Option ExpoGatewayReceipt) (now : Timestamp) :
    ReceiptOf now job (receiptResult job receipt now) := by
  unfold receiptResult
  split
  · exact retryReceiptResult_of _ _ _ _
  · exact ⟨rfl, rfl, ⟨_, rfl, rfl, by simp, by simp [isOpenPush]⟩, fun _ h => nomatch h⟩
  · refine ⟨rfl, rfl, ⟨_, rfl, rfl, by simp, by simp [isOpenPush]⟩, ?_⟩
    intro pushTokenId htoken
    have htoken : invalidatedToken job _ = some pushTokenId := htoken
    unfold invalidatedToken at htoken
    split at htoken
    · exact ⟨htoken, by simp⟩
    · cases htoken

theorem missingTicket_of (job : PushOutbox) (now : Timestamp) : ReceiptOf now job
    { id := job.id, attempt := job.receiptAttempts, kind := .permanent
      errorCode := some "ExpoTicketMissing" } :=
  ⟨rfl, rfl, ⟨_, rfl, rfl, by simp, by simp [isOpenPush]⟩, fun _ h => nomatch h⟩

/-- The job is asked about again when its receipt is stored. -/
def isAskedAgain (job : PushOutbox) (receipt : Option ExpoGatewayReceipt) : Bool :=
  receipt = none ∧ job.receiptAttempts < maxPushReceiptAttempts

theorem receiptResult_retry :
    (receiptResult job receipt now).kind = .retry ↔ isAskedAgain job receipt := by
  unfold receiptResult isAskedAgain
  cases receipt with
  | none =>
      change (retryReceiptResult job now "ExpoReceiptMissing" none).kind = .retry ↔ _
      rw [(retryReceiptResult_spec _ _ _ _).2.1]
      simp
  | some receipt => cases receipt <;> simp

theorem hitsToken_receiptResult :
    hitsToken (receiptResult job receipt now).invalidatePushTokenId row ↔
      receipt.any (·.isUnregistered) ∧ SameToken job row := by
  cases receipt with
  | none =>
      have hnone : (receiptResult job none now).invalidatePushTokenId = none :=
        (retryReceiptResult_spec _ _ _ _).1
      rw [hnone]
      simp [hitsToken]
  | some receipt =>
      cases receipt with
      | ok => simp [hitsToken, receiptResult, ExpoGatewayReceipt.isUnregistered]
      | error message errorCode =>
          by_cases hdevice : errorCode = some "DeviceNotRegistered"
          · simp [hitsToken, receiptResult, invalidatedToken, hdevice,
              ExpoGatewayReceipt.isUnregistered, SameToken]
          · simp [hitsToken, receiptResult, invalidatedToken, hdevice,
              ExpoGatewayReceipt.isUnregistered]

section Receipts

variable {jobs earlier later : List PushOutbox} {resultOf : PushOutbox → PushReceiptResult}

theorem foldlM_applyReceiptResult (h : ∀ job ∈ jobs, ReceiptOf now job (resultOf job))
    (db : Database) :
    (jobs.map resultOf).foldlM (applyReceiptResult now) db =
      (jobs.map fun job => ofReceiptResult now job (resultOf job)).foldlM
        (applyJobResult .receiptChecking (·.receiptAttempts) now) db := by
  induction jobs generalizing db with
  | nil => rfl
  | cons job jobs ih =>
      have hjob := h job List.mem_cons_self
      have hround : applyReceiptResult now db (resultOf job) = applyJobResult .receiptChecking
          (·.receiptAttempts) now db (ofReceiptResult now job (resultOf job)) := by
        unfold applyReceiptResult applyJobResult ofReceiptResult
        rw [hjob.id, hjob.attempt]
      rw [List.map_cons, List.map_cons, List.foldlM_cons, List.foldlM_cons, hround]
      apply bind_congr_ok
      intro next _
      exact ih (fun other hother => h other (List.mem_cons_of_mem _ hother)) next

/-- The results of a receipt batch are stored in any case, except for jobs that another one has
cancelled. -/
theorem receipts_stored (h : ClaimedJobs .receiptChecking jobs db)
    (hof : ∀ job ∈ jobs, ReceiptOf now job (resultOf job)) :
    ∃ db', (jobs.map resultOf).foldlM (applyReceiptResult now) db = .ok db' ∧
      ∀ earlier job later, jobs = earlier ++ job :: later →
        (IsStored (ofReceiptResult now job (resultOf job)) db' ↔
          (∀ other ∈ earlier, ¬ hitsToken (resultOf other).invalidatePushTokenId job) ∧
            ((resultOf job).kind = .retry →
              ∀ other ∈ later, ¬ hitsToken (resultOf other).invalidatePushTokenId job)) := by
  have hticket (job : PushOutbox) (hjob : job ∈ jobs) :
      (ofReceiptResult now job (resultOf job)).ticketId = none := by
    obtain ⟨values, hvalues, hnone, -⟩ := (hof job hjob).values
    simp only [JobResult.ticketId, ofReceiptResult, hvalues, hnone]
  have hleaves (job : PushOutbox) (hjob : job ∈ jobs) :
      (ofReceiptResult now job (resultOf job)).leavesOpen ↔ (resultOf job).kind = .retry := by
    obtain ⟨values, hvalues, -, -, hopen⟩ := (hof job hjob).values
    simp only [JobResult.leavesOpen, ofReceiptResult, hvalues, hopen]
  have hvalid : ValidResults .receiptChecking db.pushOutbox
      (jobs.map fun job => ofReceiptResult now job (resultOf job)) := by
    apply h.validResults (List.map_id' jobs)
    intro job hjob
    refine ⟨h.mem job hjob, h.claimed job hjob, ?_, ?_, ?_⟩
    · intro pushTokenId htoken
      obtain ⟨hsame, hkind⟩ := (hof job hjob).token pushTokenId htoken
      refine ⟨hsame, ?_⟩
      simpa using (hleaves job hjob).not.2 hkind
    · intro values hvalues
      obtain ⟨stored, hstored, -, hstatus, -⟩ := (hof job hjob).values
      obtain rfl := Except.ok.inj (hstored.symm.trans hvalues)
      exact hstatus
    · exact fun hsome => absurd (hticket job hjob) hsome
  have hopen : isOpenPush .receiptChecking := by decide
  have hstorable : Storable db.pushOutbox
      (jobs.map fun job => ofReceiptResult now job (resultOf job)) := by
    unfold Storable
    rw [Sweep.forall_split_map]
    intro earlier job later hsplit
    have hjob : job ∈ jobs := by simp [hsplit]
    obtain ⟨values, hvalues, -⟩ := (hof job hjob).values
    refine ⟨⟨values, hvalues⟩, fun _ ticketId hmem => ?_⟩
    rw [hticket job hjob] at hmem
    cases hmem
  obtain ⟨db', hends⟩ := (storeResults_ok_iff h.unique hopen hvalid).2 hstorable
  refine ⟨db', (foldlM_applyReceiptResult hof db).trans hends, ?_⟩
  intro earlier job later hsplit
  have hjob : job ∈ jobs := by simp [hsplit]
  rw [hsplit, List.map_append, List.map_cons] at hvalid hends
  rw [isStored_iff h.unique hopen hvalid hends, List.forall_mem_map, List.forall_mem_map,
    hleaves job hjob]
  rfl

/-- Receipts that let each job of a batch get its own one: no other job gives up its push token,
unless it comes later and the job has ended. -/
def ReceiptsKept (jobs : List PushOutbox) (receipts : String → Option ExpoGatewayReceipt) : Prop :=
  ∀ earlier job later, jobs = earlier ++ job :: later →
    (∀ other ∈ earlier, ¬ ((receipts (other.ticketId.getD "")).any (·.isUnregistered) ∧
      SameToken other job)) ∧
    (isAskedAgain job (receipts (job.ticketId.getD "")) → ∀ other ∈ later,
      ¬ ((receipts (other.ticketId.getD "")).any (·.isUnregistered) ∧ SameToken other job))

end Receipts

/-! ### Batches -/

section Batches

variable {client : ExpoClient} {scan : Scan} {limit : ℤ} {size : ℕ} {claimed : PushClaimBatch}
  {claimedDb : Database}

/-- What the gateway returns for a batch. -/
def sendAnswer (client : ExpoClient) (jobs : List PushOutbox) :
    Except (Option String) (List ExpoGatewayTicket) :=
  ExpoPushGateway.send client (jobs.map expoMessage)

/-- A batch with a ticket for each job. -/
def AnswersEach (client : ExpoClient) (jobs : List PushOutbox) (tickets : List ExpoGatewayTicket) :
    Prop := sendAnswer client jobs = .ok tickets ∧ tickets.length = jobs.length

/-- What a summary counts are the results, each of them once. -/
structure CountsEach (jobs : List PushOutbox) (summary : MaintenanceBatchResult) : Prop where
  claimed : summary.claimed = jobs.length
  total : summary.succeeded + summary.retryScheduled + summary.permanentlyFailed = jobs.length

/-- Each job of a claim gets its own result, and each sound one is stored. -/
structure SendBatchRight (client : ExpoClient) (now : Timestamp) (jobs : List PushOutbox)
    (claimedDb : Database) (outcome : Except Failure MaintenanceBatchResult × Database) : Prop where
  each : (sendResults jobs (sendAnswer client jobs) now).length = jobs.length
  paired : ∀ tickets, AnswersEach client jobs tickets → ∀ (index : ℕ) job, jobs[index]? = some job →
    (sendResults jobs (sendAnswer client jobs) now)[index]? =
      some (ticketResult job tickets[index]? now)
  /-- Without a ticket for each job none is taken for accepted. -/
  unaccepted : (∀ tickets, ¬ AnswersEach client jobs tickets) →
    ∀ result ∈ sendResults jobs (sendAnswer client jobs) now, result.kind ≠ .accepted
  summary : ∃ summary, outcome.1 = .ok summary ∧ CountsEach jobs summary
  stored : ∀ tickets, AnswersEach client jobs tickets → ∀ earlier job ticket later,
    jobs.zip tickets = earlier ++ (job, ticket) :: later →
      IsSound claimedDb.pushOutbox earlier ticket later →
        IsStored (ofTicket now (job, ticket)) outcome.2
  retried : (∀ tickets, ¬ AnswersEach client jobs tickets) → ∀ (index : ℕ) job result,
    jobs[index]? = some job →
      (sendResults jobs (sendAnswer client jobs) now)[index]? = some result →
        IsStored (ofSendResult now job result) outcome.2

theorem length_sendResults (jobs : List PushOutbox)
    (answer : Except (Option String) (List ExpoGatewayTicket)) (now : Timestamp) :
    (sendResults jobs answer now).length = jobs.length := by
  unfold sendResults
  split
  · split <;> simp
  · simp

theorem summarizeSendResults_counts (results : List PushSendResult) (hasMore : Bool) :
    (summarizeSendResults results hasMore).succeeded +
        (summarizeSendResults results hasMore).retryScheduled +
        (summarizeSendResults results hasMore).permanentlyFailed = results.length := by
  unfold summarizeSendResults
  dsimp only
  induction results with
  | nil => rfl
  | cons result results ih =>
      have hone (kind : PushSendKind) : (if decide (kind = .accepted) = true then 1 else 0) +
          (if decide (kind = .retry) = true then 1 else 0) +
          (if decide (kind = .permanent ∨ kind = .exhausted) = true then 1 else 0) = 1 := by
        cases kind <;> rfl
      have hresult := hone result.kind
      simp only [List.countP_cons, List.length_cons]
      omega

/-- A batch with jobs goes on to its results, and then stores them. -/
theorem processPushOutboxBatch_eq (hlimit : validateBatchLimit limit = .ok size)
    (hclaim : claimSendBatch now (now + pushLeaseMs) scan size db = .ok (claimed, claimedDb))
    (hsome : claimed.jobs ≠ []) : processPushOutboxBatch true client scan now limit db =
      match (sendResults claimed.jobs (sendAnswer client claimed.jobs) now).foldlM
          (applySendResult now) claimedDb with
      | .ok db' => (.ok (summarizeSendResults
          (sendResults claimed.jobs (sendAnswer client claimed.jobs) now) claimed.hasMore), db')
      | .error failure => (.error failure, claimedDb) := by
  have hclaimed : transact (claimSendBatch now (now + pushLeaseMs) scan size) db =
      (.ok claimed, claimedDb) := by
    rw [transact, hclaim]
  have hstored : transact (applySendResults
      (sendResults claimed.jobs (sendAnswer client claimed.jobs) now) now) claimedDb =
      match (sendResults claimed.jobs (sendAnswer client claimed.jobs) now).foldlM
          (applySendResult now) claimedDb with
      | .ok db' => (.ok (), db')
      | .error failure => (.error failure, claimedDb) := by
    unfold transact applySendResults
    cases (sendResults claimed.jobs (sendAnswer client claimed.jobs) now).foldlM
      (applySendResult now) claimedDb <;> rfl
  unfold processPushOutboxBatch
  simp only [not_true_eq_false, if_false, hlimit]
  simp only [bind, ExceptT.bind, ExceptT.mk, ExceptT.bindCont, StateT.bind, pure, StateT.pure,
    hclaimed, if_neg hsome]
  unfold sendAnswer at hstored ⊢
  rw [hstored]
  cases (sendResults claimed.jobs (ExpoPushGateway.send client (claimed.jobs.map expoMessage))
    now).foldlM (applySendResult now) claimedDb <;> rfl

theorem sendResults_getElem? {jobs : List PushOutbox} {tickets : List ExpoGatewayTicket} {index : ℕ}
    (hlength : tickets.length = jobs.length) (hjob : jobs[index]? = some job) :
    (sendResults jobs (.ok tickets) now)[index]? = some (ticketResult job tickets[index]? now) := by
  rw [sendResults, if_pos hlength, List.getElem?_map, List.getElem?_zipIdx, hjob]
  simp

/-- Without a ticket for each job the whole batch is sent again later. -/
theorem sendResults_unmatched {jobs : List PushOutbox}
    (hnone : ∀ tickets, ¬ AnswersEach client jobs tickets) : ∃ errorCode errorMessage,
      sendResults jobs (sendAnswer client jobs) now =
        jobs.map fun job => retrySendResult job now errorCode errorMessage := by
  cases hanswer : sendAnswer client jobs with
  | ok tickets =>
      have hlength : tickets.length ≠ jobs.length := fun h => hnone tickets ⟨hanswer, h⟩
      rw [sendResults, if_neg hlength]
      exact ⟨_, _, rfl⟩
  | error thrown => exact ⟨_, _, rfl⟩

theorem retrySendResult_ne_accepted (job : PushOutbox) (now : Timestamp) (errorCode : String)
    (errorMessage : Option String) :
    (retrySendResult job now errorCode errorMessage).kind ≠ .accepted := by
  unfold retrySendResult
  split <;> simp

/-- A send batch does right by its jobs exactly when its tickets let it. -/
theorem sendBatch_iff (hready : OutboxReady db) (hlimit : validateBatchLimit limit = .ok size)
    (hclaim : claimSendBatch now (now + pushLeaseMs) scan size db = .ok (claimed, claimedDb))
    (hsome : claimed.jobs ≠ []) :
    SendBatchRight client now claimed.jobs claimedDb
        (processPushOutboxBatch true client scan now limit db) ↔
      ∀ tickets, AnswersEach client claimed.jobs tickets →
        TicketsKept claimedDb.pushOutbox (claimed.jobs.zip tickets) := by
  obtain ⟨hjobs, hunsent⟩ := claimSendBatch_claimed hready hclaim
  have heach := length_sendResults claimed.jobs (sendAnswer client claimed.jobs) now
  have hcounts : CountsEach claimed.jobs (summarizeSendResults
      (sendResults claimed.jobs (sendAnswer client claimed.jobs) now) claimed.hasMore) :=
    ⟨heach, (summarizeSendResults_counts _ _).trans heach⟩
  rw [processPushOutboxBatch_eq hlimit hclaim hsome]
  by_cases hmatched : ∃ tickets, AnswersEach client claimed.jobs tickets
  · obtain ⟨tickets, hanswers⟩ := hmatched
    have hsame {tickets' : List ExpoGatewayTicket}
        (h : AnswersEach client claimed.jobs tickets') : tickets' = tickets :=
      Except.ok.inj (h.1.symm.trans hanswers.1)
    have hiff := @tickets_iff now claimedDb claimed.jobs tickets hjobs hunsent hanswers.2
    rw [hanswers.1] at hcounts ⊢
    constructor
    · intro hright tickets' hanswers'
      obtain rfl := hsame hanswers'
      apply hiff.1
      obtain ⟨summary, hsummary, -⟩ := hright.summary
      cases hloop : (sendResults claimed.jobs (.ok tickets') now).foldlM (applySendResult now)
          claimedDb with
      | error failure =>
          rw [hloop] at hsummary
          cases hsummary
      | ok db' =>
          have hstored := hright.stored tickets' hanswers'
          rw [hloop] at hstored
          exact ⟨db', rfl, hstored⟩
    · intro hkept
      obtain ⟨db', hloop, hstored⟩ := hiff.2 (hkept tickets hanswers)
      rw [hloop]
      constructor
      · exact heach
      · intro tickets' hanswers' index job hjob
        obtain rfl := hsame hanswers'
        rw [hanswers'.1]
        exact sendResults_getElem? hanswers'.2 hjob
      · exact fun hnone => absurd hanswers (hnone tickets)
      · exact ⟨_, rfl, hcounts⟩
      · intro tickets' hanswers'
        obtain rfl := hsame hanswers'
        exact hstored
      · exact fun hnone => absurd hanswers (hnone tickets)
  · have hnone : ∀ tickets, ¬ AnswersEach client claimed.jobs tickets := not_exists.1 hmatched
    obtain ⟨errorCode, errorMessage, hresults⟩ :
        ∃ errorCode errorMessage, sendResults claimed.jobs (sendAnswer client claimed.jobs) now =
          claimed.jobs.map fun job => retrySendResult job now errorCode errorMessage :=
      sendResults_unmatched hnone
    obtain ⟨db', hloop, hstored⟩ := retries_stored hjobs errorCode errorMessage
    rw [hresults] at hcounts ⊢
    rw [hloop]
    constructor
    · exact fun _ tickets hanswers => absurd hanswers (hnone tickets)
    · intro _
      constructor
      · exact heach
      · exact fun tickets hanswers => absurd hanswers (hnone tickets)
      · intro _ result hresult
        rw [hresults] at hresult
        obtain ⟨job, -, rfl⟩ := List.mem_map.1 hresult
        exact retrySendResult_ne_accepted _ _ _ _
      · exact ⟨_, rfl, hcounts⟩
      · exact fun tickets hanswers => absurd hanswers (hnone tickets)
      · intro _ index job result hjob hresult
        rw [hresults, List.getElem?_map, hjob] at hresult
        obtain rfl := Option.some.inj hresult
        exact hstored job (List.mem_of_getElem? hjob)

/-- A batch whose jobs all have tickets gets receipts. -/
def AsksEach (client : ExpoClient) (jobs : List PushOutbox)
    (receipts : String → Option ExpoGatewayReceipt) : Prop :=
  (ticketIdsOf jobs).length = jobs.length ∧
    ExpoPushGateway.getReceipts client (ticketIdsOf jobs) = .ok receipts

/-- Each job of a claim gets the result of the receipt of its own ticket, and it is stored. -/
structure ReceiptBatchRight (client : ExpoClient) (now : Timestamp) (jobs : List PushOutbox)
    (outcome : Except Failure MaintenanceBatchResult × Database) : Prop where
  each : (receiptResults client jobs now).length = jobs.length
  paired : ∀ receipts, AsksEach client jobs receipts → ∀ (index : ℕ) job,
    jobs[index]? = some job → (receiptResults client jobs now)[index]? =
      some (receiptResult job (receipts (job.ticketId.getD "")) now)
  /-- Without receipts for the whole batch none is taken for delivered. -/
  undelivered : (∀ receipts, ¬ AsksEach client jobs receipts) →
    ∀ result ∈ receiptResults client jobs now, result.kind ≠ .delivered
  summary : ∃ summary, outcome.1 = .ok summary ∧ CountsEach jobs summary
  stored : ∀ (index : ℕ) job result, jobs[index]? = some job →
    (receiptResults client jobs now)[index]? = some result →
      IsStored (ofReceiptResult now job result) outcome.2

theorem summarizeReceiptResults_counts (results : List PushReceiptResult) (hasMore : Bool) :
    (summarizeReceiptResults results hasMore).succeeded +
        (summarizeReceiptResults results hasMore).retryScheduled +
        (summarizeReceiptResults results hasMore).permanentlyFailed = results.length := by
  unfold summarizeReceiptResults
  dsimp only
  induction results with
  | nil => rfl
  | cons result results ih =>
      have hone (kind : PushReceiptKind) : (if decide (kind = .delivered) = true then 1 else 0) +
          (if decide (kind = .retry) = true then 1 else 0) +
          (if decide (kind = .permanent ∨ kind = .exhausted) = true then 1 else 0) = 1 := by
        cases kind <;> rfl
      have hresult := hone result.kind
      simp only [List.countP_cons, List.length_cons]
      omega

theorem processPushReceiptBatch_eq (hlimit : validateBatchLimit limit = .ok size)
    (hclaim : claimReceiptBatch now (now + pushLeaseMs) scan size db = .ok (claimed, claimedDb))
    (hsome : claimed.jobs ≠ []) : processPushReceiptBatch true client scan now limit db =
      match (receiptResults client claimed.jobs now).foldlM (applyReceiptResult now) claimedDb with
      | .ok db' => (.ok (summarizeReceiptResults (receiptResults client claimed.jobs now)
          claimed.hasMore), db')
      | .error failure => (.error failure, claimedDb) := by
  have hclaimed : transact (claimReceiptBatch now (now + pushLeaseMs) scan size) db =
      (.ok claimed, claimedDb) := by
    rw [transact, hclaim]
  have hstored : transact (applyReceiptResults (receiptResults client claimed.jobs now) now)
      claimedDb =
      match (receiptResults client claimed.jobs now).foldlM (applyReceiptResult now) claimedDb with
      | .ok db' => (.ok (), db')
      | .error failure => (.error failure, claimedDb) := by
    unfold transact applyReceiptResults
    cases (receiptResults client claimed.jobs now).foldlM (applyReceiptResult now) claimedDb <;> rfl
  unfold processPushReceiptBatch
  simp only [not_true_eq_false, if_false, hlimit]
  simp only [bind, ExceptT.bind, ExceptT.mk, ExceptT.bindCont, StateT.bind, pure, StateT.pure,
    hclaimed, if_neg hsome]
  rw [hstored]
  cases (receiptResults client claimed.jobs now).foldlM (applyReceiptResult now) claimedDb <;> rfl

theorem receiptResults_matched {jobs : List PushOutbox}
    {receipts : String → Option ExpoGatewayReceipt} (h : AsksEach client jobs receipts) :
    receiptResults client jobs now =
      jobs.map fun job => receiptResult job (receipts (job.ticketId.getD "")) now := by
  rw [receiptResults, if_neg (not_not_intro h.1), h.2]

/-- Without receipts for the whole batch no job is delivered, and no push token given up. -/
theorem receiptResults_unmatched {jobs : List PushOutbox}
    (hnone : ∀ receipts, ¬ AsksEach client jobs receipts) : ∃ resultOf,
      receiptResults client jobs now = jobs.map resultOf ∧ ∀ job, ReceiptOf now job (resultOf job) ∧
        (resultOf job).kind ≠ .delivered ∧ (resultOf job).invalidatePushTokenId = none := by
  unfold receiptResults
  by_cases hlength : (ticketIdsOf jobs).length = jobs.length
  · rw [if_neg (not_not_intro hlength)]
    cases hanswer : ExpoPushGateway.getReceipts client (ticketIdsOf jobs) with
    | ok receipts => exact absurd ⟨hlength, hanswer⟩ (hnone receipts)
    | error thrown =>
        refine ⟨_, rfl, fun job => ⟨retryReceiptResult_of _ _ _ _, ?_, ?_⟩⟩
        · exact (retryReceiptResult_spec _ _ _ _).2.2
        · exact (retryReceiptResult_spec _ _ _ _).1
  · rw [if_pos hlength]
    refine ⟨_, rfl, fun job => ?_⟩
    split
    · exact ⟨retryReceiptResult_of _ _ _ _, (retryReceiptResult_spec _ _ _ _).2.2,
        (retryReceiptResult_spec _ _ _ _).1⟩
    · exact ⟨missingTicket_of job now, by simp, rfl⟩

/-- A receipt batch does right by its jobs exactly when its receipts let it. -/
theorem receiptBatch_iff (hready : OutboxReady db) (hlimit : validateBatchLimit limit = .ok size)
    (hclaim : claimReceiptBatch now (now + pushLeaseMs) scan size db = .ok (claimed, claimedDb))
    (hsome : claimed.jobs ≠ []) :
    ReceiptBatchRight client now claimed.jobs
        (processPushReceiptBatch true client scan now limit db) ↔
      ∀ receipts, AsksEach client claimed.jobs receipts → ReceiptsKept claimed.jobs receipts := by
  have hjobs := claimReceiptBatch_claimed hready hclaim
  -- In any case the results are those of the jobs, one by one.
  have hright {resultOf : PushOutbox → PushReceiptResult}
      (hresults : receiptResults client claimed.jobs now = claimed.jobs.map resultOf)
      (hof : ∀ job, ReceiptOf now job (resultOf job)) {db' : Database}
      (hloop : (claimed.jobs.map resultOf).foldlM (applyReceiptResult now) claimedDb = .ok db')
      (hpaired : ∀ receipts, AsksEach client claimed.jobs receipts → ∀ job,
        resultOf job = receiptResult job (receipts (job.ticketId.getD "")) now)
      (hundelivered : (∀ receipts, ¬ AsksEach client claimed.jobs receipts) →
        ∀ job, (resultOf job).kind ≠ .delivered) :
      ReceiptBatchRight client now claimed.jobs
          (processPushReceiptBatch true client scan now limit db) ↔
        ∀ earlier job later, claimed.jobs = earlier ++ job :: later →
          IsStored (ofReceiptResult now job (resultOf job)) db' := by
    rw [processPushReceiptBatch_eq hlimit hclaim hsome, hresults, hloop]
    have heach : (claimed.jobs.map resultOf).length = claimed.jobs.length := List.length_map _
    constructor
    · intro h earlier job later hsplit
      have hjob : claimed.jobs[earlier.length]? = some job := by simp [hsplit]
      apply h.stored earlier.length job (resultOf job) hjob
      rw [hresults, List.getElem?_map, hjob]
      rfl
    · intro h
      constructor
      · rw [hresults, heach]
      · intro receipts hasks index job hjob
        rw [hresults, List.getElem?_map, hjob, ← hpaired receipts hasks job]
        rfl
      · intro hnone result hresult
        rw [hresults] at hresult
        obtain ⟨job, -, rfl⟩ := List.mem_map.1 hresult
        exact hundelivered hnone job
      · exact ⟨_, rfl, heach, (summarizeReceiptResults_counts _ _).trans heach⟩
      · intro index job result hjob hresult
        rw [hresults, List.getElem?_map, hjob] at hresult
        obtain rfl := Option.some.inj hresult
        obtain ⟨earlier, later, hsplit⟩ := List.append_of_mem (List.mem_of_getElem? hjob)
        exact h earlier job later hsplit
  by_cases hmatched : ∃ receipts, AsksEach client claimed.jobs receipts
  · obtain ⟨receipts, hasks⟩ := hmatched
    have hsame {receipts' : String → Option ExpoGatewayReceipt}
        (h : AsksEach client claimed.jobs receipts') : receipts' = receipts :=
      Except.ok.inj (h.2.symm.trans hasks.2)
    have hof : ∀ job ∈ claimed.jobs,
        ReceiptOf now job (receiptResult job (receipts (job.ticketId.getD "")) now) :=
      fun job _ => receiptResult_of job _ now
    obtain ⟨db', hloop, hstored⟩ := receipts_stored hjobs hof
    rw [hright (receiptResults_matched hasks) (fun job => receiptResult_of _ _ _) hloop]
    · constructor
      · intro h receipts' hasks' earlier job later hsplit
        obtain rfl := hsame hasks'
        have hjob := (hstored earlier job later hsplit).1 (h earlier job later hsplit)
        simpa only [hitsToken_receiptResult, receiptResult_retry] using hjob
      · intro hkept earlier job later hsplit
        apply (hstored earlier job later hsplit).2
        simpa only [hitsToken_receiptResult, receiptResult_retry] using
          hkept receipts hasks earlier job later hsplit
    · intro receipts' hasks' job
      rw [hsame hasks']
    · exact fun hnone => absurd hasks (hnone receipts)
  · have hnone : ∀ receipts, ¬ AsksEach client claimed.jobs receipts := not_exists.1 hmatched
    obtain ⟨resultOf, hresults, hof⟩ :
        ∃ resultOf, receiptResults client claimed.jobs now = claimed.jobs.map resultOf ∧
          ∀ job, ReceiptOf now job (resultOf job) ∧ (resultOf job).kind ≠ .delivered ∧
            (resultOf job).invalidatePushTokenId = none := receiptResults_unmatched hnone
    obtain ⟨db', hloop, hstored⟩ := receipts_stored hjobs fun job _ => (hof job).1
    rw [hright hresults (fun job => (hof job).1) hloop]
    · constructor
      · exact fun _ receipts hasks => absurd hasks (hnone receipts)
      · intro _ earlier job later hsplit
        have hno (other row : PushOutbox) :
            ¬ hitsToken (resultOf other).invalidatePushTokenId row := fun h => h.1 (hof other).2.2
        exact (hstored earlier job later hsplit).2
          ⟨fun other _ => hno other job, fun _ other _ => hno other job⟩
    · exact fun receipts hasks => absurd hasks (hnone receipts)
    · exact fun _ job => (hof job).2.1

/-- In every state of the outbox, a batch gives each of its jobs the result of its own ticket or
receipt, and stores it, exactly when the answers let it. -/
theorem push_batches (hrun : OutboxRun db) :
    (∀ client scan now limit size claimed claimedDb, validateBatchLimit limit = .ok size →
      claimSendBatch now (now + pushLeaseMs) scan size db = .ok (claimed, claimedDb) →
      claimed.jobs ≠ [] →
      (SendBatchRight client now claimed.jobs claimedDb
          (processPushOutboxBatch true client scan now limit db) ↔
        ∀ tickets, AnswersEach client claimed.jobs tickets →
          TicketsKept claimedDb.pushOutbox (claimed.jobs.zip tickets))) ∧
    ∀ client scan now limit size claimed claimedDb, validateBatchLimit limit = .ok size →
      claimReceiptBatch now (now + pushLeaseMs) scan size db = .ok (claimed, claimedDb) →
      claimed.jobs ≠ [] →
      (ReceiptBatchRight client now claimed.jobs
          (processPushReceiptBatch true client scan now limit db) ↔
        ∀ receipts, AsksEach client claimed.jobs receipts →
          ReceiptsKept claimed.jobs receipts) := by
  constructor
  · intro client scan now limit size claimed claimedDb hlimit hclaim hsome
    exact sendBatch_iff hrun.ready hlimit hclaim hsome
  · intro client scan now limit size claimed claimedDb hlimit hclaim hsome
    exact receiptBatch_iff hrun.ready hlimit hclaim hsome

end Batches

/-! ### Three pushes to one phone -/

def onePhone : Database := { noTokens with
  pushTokens := [{ id := 0, userId := phoneOwner, deviceId := upperDevice.toUuid,
                   token := "ExponentPushToken[phone]", platform := "ios" }]
  nextRowId := 1 }

def news : CreateNotificationInput where
  userId := phoneOwner.toUuidText
  type := .like
  title := "news"
  body := "somebody likes you"
  route := none
  sourceId := none

/-- Another notification of the owner of the phone. -/
def notified (db : Database) : Database :=
  insertPushOutbox news db.nextRowId 0 (tokensOf phoneOwner db) { db with
    notifications := db.notifications ++ [createdNotification news 0 db.nextRowId]
    nextRowId := db.nextRowId + 1 }

def threeJobs : Database := notified (notified (notified onePhone))

/-- No row is locked, and an update returns its rows in turn. -/
def inOrder : Scan where
  locked _ := false
  arrange rows := rows
  perm _ := .refl _

def sendingJobs : List PushOutbox := threeJobs.pushOutbox.map (markSending (10 + pushLeaseMs))

def sendingDb : Database := { threeJobs with pushOutbox := sendingJobs }

theorem outboxRun_threeJobs : OutboxRun threeJobs := by
  have hnotify (db : Database) (huser : db.users = noTokens.users) :
      createWithPushOutbox news true 0 db =
        .ok (createdNotification news 0 db.nextRowId, notified db) := by
    have howner : db.hasUser news.userId.toUuid := by
      rw [Database.hasUser, huser]
      decide
    have htitle : news.title.length ≤ 80 := by decide
    simp only [createWithPushOutbox, insertNotification, require_of howner, require_of htitle]
    rfl
  have hstart : OutboxRun onePhone := .start rfl
  exact ((hstart.notify (hnotify _ rfl)).notify (hnotify _ rfl)).notify (hnotify _ rfl)

/-- All three jobs are claimed. -/
theorem claimSendBatch_threeJobs :
    claimSendBatch 10 (10 + pushLeaseMs) inOrder 100 threeJobs =
      .ok (⟨sendingJobs, false⟩, sendingDb) := by
  have hsorted : threeJobs.pushOutbox.Pairwise
      fun row other => comesFirst (fun row => some row.nextAttemptAt) row other := by
    decide
  have hcandidates : candidates (sendDue 10) (fun row => some row.nextAttemptAt) inOrder 100 threeJobs =
      threeJobs.pushOutbox := by
    have hdue : (threeJobs.pushOutbox.filter fun row => sendDue 10 row ∧ ¬ inOrder.locked row.id) =
        threeJobs.pushOutbox := by
      decide
    rw [candidates, hdue, List.mergeSort_of_pairwise hsorted]
    rfl
  unfold claimSendBatch claimBatch
  dsimp only
  rw [hcandidates]
  rfl

/-- Expo answers with a ticket for each message. -/
def expoOf (tickets : List ExpoPushTicket) : ExpoClient where
  sendPushNotificationsAsync _ := .ok tickets
  getPushNotificationReceiptsAsync _ := .ok fun _ => none

/-- A ticket of its own for each job. -/
def ownTickets : List (PushOutbox × ExpoGatewayTicket) :=
  sendingJobs.zip [.ok "a", .ok "b", .ok "c"]

theorem ticketsKept_own : TicketsKept sendingDb.pushOutbox ownTickets := by
  have hregistered : ∀ sent ∈ ownTickets, sent.2.isUnregistered = false := by decide
  have hgives (sent : PushOutbox × ExpoGatewayTicket) (row : PushOutbox)
      (hsent : sent ∈ ownTickets) : ¬ GivesUp sent row := by
    intro hgives
    rw [GivesUp, hregistered sent hsent] at hgives
    exact Bool.false_ne_true hgives.1
  have hunsent : ∀ row ∈ sendingDb.pushOutbox, row.ticketId = none := by decide
  have hdistinct : (ownTickets.map Prod.snd).Nodup := by decide
  constructor
  · decide
  · intro earlier job id later hsplit _
    constructor
    · intro row hrow
      rw [hunsent row hrow]
      simp
    · rintro first other rest rfl
      -- No two tickets are the same.
      simp [hsplit, List.nodup_append] at hdistinct
  · intro earlier job ticket later hsplit _
    constructor
    · intro sent hsent
      apply hgives
      rw [hsplit]
      exact List.mem_append_left _ hsent
    · intro _ sent hsent
      apply hgives
      rw [hsplit]
      exact List.mem_append_right _ (List.mem_cons_of_mem _ hsent)

/-- Three good tickets are stored. -/
theorem push_batches_own : SendBatchRight (expoOf [.ok "a", .ok "b", .ok "c"]) 10 sendingJobs
    sendingDb (processPushOutboxBatch true (expoOf [.ok "a", .ok "b", .ok "c"]) inOrder 10 100
      threeJobs) := by
  have hlimit : validateBatchLimit 100 = .ok 100 := rfl
  apply ((push_batches outboxRun_threeJobs).1 _ _ _ _ _ _ _ hlimit claimSendBatch_threeJobs
    (by decide)).2
  rintro tickets ⟨hanswer, -⟩
  obtain rfl : [.ok "a", .ok "b", .ok "c"] = tickets := Except.ok.inj hanswer
  exact ticketsKept_own

/-- Expo repeats a ticket, and the third job, which was sent, is left to be sent again. -/
theorem push_batches_repeated : OutboxRun threeJobs ∧
    IsSound sendingDb.pushOutbox (sendingJobs.zip [.ok "a", .ok "a"]) (.ok "c") [] ∧
    ¬ SendBatchRight (expoOf [.ok "a", .ok "a", .ok "c"]) 10 sendingJobs sendingDb
      (processPushOutboxBatch true (expoOf [.ok "a", .ok "a", .ok "c"]) inOrder 10 100
        threeJobs) ∧
    (processPushOutboxBatch true (expoOf [.ok "a", .ok "a", .ok "c"]) inOrder 10 100
      threeJobs).2 = sendingDb := by
  have hlimit : validateBatchLimit 100 = .ok 100 := rfl
  have hrefused : (sendResults sendingJobs (sendAnswer (expoOf [.ok "a", .ok "a", .ok "c"])
      sendingJobs) 10).foldlM (applySendResult 10) sendingDb =
        .error (.constraint "push_outbox_ticket_unique") := by
    rfl
  rw [processPushOutboxBatch_eq hlimit claimSendBatch_threeJobs (by decide), hrefused]
  refine ⟨outboxRun_threeJobs, ?_, ?_, rfl⟩
  · rintro id hid
    cases hid
    decide
  · intro hright
    obtain ⟨summary, hsummary, -⟩ := hright.summary
    cases hsummary

end ChatTea.Notification
