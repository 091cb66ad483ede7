import ChatTea.Notification.Runs

/-!
# What the delivery of pushes guarantees

From an outbox without jobs, in every run of requests and workers: a job never goes back on what it
has become, an attempt has one worker and one result, a message is handed to Expo a bounded number
of times, and only a token that Expo does not know is given up.

## Main definitions

* `EmptyOutbox` — where the runs start
* `PushRun` — the runs

## Main results

* `job_life`, `attempts_fenced`, `deliveries_bounded`, `open_jobs_addressed`, `removed_reported`
* `performs_sendBatch`, `performs_receiptBatch` — the batches, when nothing comes between their steps
-/

namespace ChatTea.Notification

open History Interleaving Table Transaction
open Users (isOpenPush)

/-- An outbox that no job was put into yet. -/
structure EmptyOutbox (db : Database) : Prop where
  pushOutbox : db.pushOutbox = []
  tokens : TokenTable db
  notificationIds : UniqueKey ChatTea.Notification.id db.notifications
  notificationDrawn : ∀ row ∈ db.notifications, row.id < db.nextRowId

abbrev PushConfig := Config PushWorld PushRequest Failure Unit

/-- The runs of the system. -/
def PushRun (c c' : PushConfig) : Prop := Reachable pushSystem (fun _ _ => True) c c'

variable {db : Database} {c c' : PushConfig} {pid : ℕ} {row row' : PushOutbox} {phase : PushPhase}

theorem EmptyOutbox.invariant (h : EmptyOutbox db) : PushWorldInvariant (.start db) := by
  have hnone (row : PushOutbox) (hrow : row ∈ db.pushOutbox) : False := by
    rw [h.pushOutbox] at hrow
    cases hrow
  constructor
  · constructor
    · rw [Chronicle.start, UniqueKey, h.pushOutbox]
      exact List.nodup_nil
    · exact fun row hrow => (hnone row hrow).elim
    · exact fun row hrow => (hnone row hrow).elim
    · exact h.tokens
    · exact h.notificationIds
    · exact h.notificationDrawn
    · exact fun row hrow => (hnone row hrow).elim
  · constructor
    · exact fun row hrow => (hnone row hrow).elim
    · exact fun _ _ _ _ _ _ hmem => absurd hmem List.not_mem_nil
    · exact fun _ _ _ => Nat.zero_le _
    · exact fun row hrow => (hnone row hrow).elim
    · exact fun _ _ _ _ _ hmem => absurd hmem List.not_mem_nil
    · exact fun _ _ => Nat.zero_le _
    · exact fun _ _ _ => Nat.zero_le _
    · exact fun _ _ _ _ hmem => absurd hmem List.not_mem_nil
    · exact fun _ _ _ _ _ _ _ _ hafter => absurd hafter not_after_nil
  · exact fun pid => ⟨fun _ => Nat.zero_le _, fun _ _ _ hmem => absurd hmem List.not_mem_nil,
      fun _ hmem => absurd hmem List.not_mem_nil⟩

theorem PushRun.good (hdb : EmptyOutbox db) (hrun : PushRun (.idle (.start db)) c) :
    pushLogic.Good c :=
  pushLogic_sound.reachable (Logic.good_idle hdb.invariant fun _ => rfl) hrun

theorem PushRun.invariant (hdb : EmptyOutbox db) (hrun : PushRun (.idle (.start db)) c) :
    PushWorldInvariant c.state := (PushRun.good hdb hrun).invariant

/-- From one state of a run to a later one no job goes back on anything. -/
theorem PushRun.moves (hdb : EmptyOutbox db) (hrun : PushRun (.idle (.start db)) c)
    (hlater : PushRun c c') : Moves c.state c'.state := by
  apply pushLogic_sound.relates Moves (PushRun.good hdb hrun) hlater
  · exact Moves.refl
  · exact fun h h' => h.trans h'
  · exact fun _ hguarantee => hguarantee.2
  · exact fun hinv hmoves => (environment_moves hmoves.1 hmoves.2 hinv).2
  · exact fun _ w => Moves.refl w

/-! ### A lease that runs out -/

theorem emptyOutbox_onePhone : EmptyOutbox onePhone where
  pushOutbox := rfl
  tokens := ⟨List.nodup_singleton _, List.nodup_singleton _, List.nodup_singleton _, by decide⟩
  notificationIds := List.nodup_nil
  notificationDrawn _ h := nomatch h

/-- A job that is alone in the outbox is claimed when it is due. -/
theorem claimSendBatch_only {now leaseExpiresAt : Timestamp} (hrows : db.pushOutbox = [row])
    (hdue : sendDue now row) (hlease : now < leaseExpiresAt) :
    claimSendBatch now leaseExpiresAt inOrder 100 db =
      .ok (⟨[markSending leaseExpiresAt row], false⟩,
        { db with pushOutbox := [markSending leaseExpiresAt row] }) := by
  have hcandidates : candidates (sendDue now) (fun row => some row.nextAttemptAt) inOrder 100 db =
      [row] := by
    simp [candidates, hrows, hdue, inOrder]
  have hmore : sendDue now (markSending leaseExpiresAt row) = false := by
    simp [sendDue, markSending, hlease]
  unfold claimSendBatch claimBatch
  dsimp only
  rw [hcandidates, hrows]
  simp [returning, updateWhere, inOrder, hmore]

/-- One job, and Expo does not know the phone any more. -/
def forgotten : ExpoClient := expoOf [.error "unknown" (some "DeviceNotRegistered")]

def onePush : PushOutbox := createdPush news 1 0 (onePhone.pushTokens.head (by decide)) 2

/-- The first worker claims the job, and stops. -/
def firstClaim : PushClaimBatch := ⟨[markSending (10 + pushLeaseMs) onePush], false⟩

def firstDb : Database := { notified onePhone with pushOutbox := firstClaim.jobs }

/-- The second worker claims it as soon as the lease has run out. -/
def secondClaim : PushClaimBatch :=
  ⟨firstClaim.jobs.map (markSending (10 + pushLeaseMs + pushLeaseMs)), false⟩

def secondDb : Database := { firstDb with pushOutbox := secondClaim.jobs }

def forgottenResults : List PushSendResult :=
  sendResults secondClaim.jobs (ExpoPushGateway.send forgotten (secondClaim.jobs.map expoMessage))
    (10 + pushLeaseMs)

/-- The job has ended and the push token is gone. -/
def forgottenDb : Database := { secondDb with
  pushOutbox := (updateWhere (fun _ => true) (PushOutboxValues.set
    { status := .failedPermanent, completedAt := some (10 + pushLeaseMs)
      lastErrorCode := some (some "DeviceNotRegistered"), lastErrorMessage := some (some "unknown") })
        secondDb.pushOutbox).map fun row => { row with pushTokenId := none }
  pushTokens := [] }

/-- What the run has noted. -/
def lapsedLog : List (ℕ × PushEvent) :=
  [(2, .removed (onePhone.pushTokens.head (by decide))), (2, .stored .send 2 2),
    (2, .reported "ExponentPushToken[phone]"), (2, .handed 2 2),
    (2, .claimed .send 2 2 (10 + pushLeaseMs) true), (1, .claimed .send 2 1 10 false)]

/-- The first worker has claimed the job and stopped. -/
def abandoned : PushConfig where
  state := ⟨firstDb, [(1, .claimed .send 2 1 10 false)]⟩
  threads := [⟨.notify news true, .done ()⟩, ⟨.sendBatch true 10 100, .stopped⟩]

/-- The second worker was told that the phone is gone. -/
def lapsed : PushConfig where
  state := ⟨forgottenDb, lapsedLog⟩
  threads := [⟨.notify news true, .done ()⟩, ⟨.sendBatch true 10 100, .stopped⟩,
    ⟨.sendBatch true (10 + pushLeaseMs) 100, .done ()⟩]

theorem pushRun_abandoned : PushRun (.idle (.start onePhone)) abandoned := by
  have hnotify : createWithPushOutbox news true 0 onePhone =
      .ok (createdNotification news 0 onePhone.nextRowId, notified onePhone) := by
    have howner : onePhone.hasUser news.userId.toUuid := by decide
    have htitle : news.title.length ≤ 80 := by decide
    simp only [createWithPushOutbox, insertNotification, require_of howner, require_of htitle]
    rfl
  have hclaim : claimSendBatch 10 (10 + pushLeaseMs) inOrder 100 (notified onePhone) =
      .ok (firstClaim, firstDb) := claimSendBatch_only rfl (by decide) (by decide)
  have hnotified : PushRun (.idle (.start onePhone)) ⟨(Chronicle.start onePhone).advance 0
      (notified onePhone) [], [⟨.notify news true, .done ()⟩]⟩ := by
    apply Reachable.serve .refl trivial trivial
    exact .step 0 _ rfl trivial (.step (.ok _) _ (.committed hnotify) trivial .refl)
  have hclaimed := hnotified.serve (show pushSystem.accepts (.sendBatch true 10 100) from trivial)
    trivial
    (.step inOrder _ rfl trivial (.step (.ok firstClaim) _ (.committed hclaim) trivial .refl))
  exact hclaimed.halt trivial

theorem pushRun_lapsed : PushRun abandoned lapsed := by
  have hclaim : claimSendBatch (10 + pushLeaseMs) (10 + pushLeaseMs + pushLeaseMs) inOrder 100
      firstDb = .ok (secondClaim, secondDb) := claimSendBatch_only rfl (by decide) (by decide)
  have hstore : applySendResults forgottenResults (10 + pushLeaseMs) secondDb =
      .ok ((), forgottenDb) := rfl
  exact Reachable.serve .refl
    (show pushSystem.accepts (.sendBatch true (10 + pushLeaseMs) 100) from trivial) trivial
    (.step inOrder _ rfl trivial
      (.step (.ok secondClaim) _ (.committed hclaim) trivial
        (.step forgotten _ rfl trivial
          (.step (.ok ()) _ (.committed hstore) trivial .refl))))

/-! ### Every run -/

/-- **The life of a job.** In every state of a run a job is what its status says, and one that has
not ended is due for a worker from some time on; whatever happens later, it goes back on nothing. -/
theorem job_life (hdb : EmptyOutbox db) (hrun : PushRun (.idle (.start db)) c)
    (hlater : PushRun c c') :
    (∀ row ∈ c.state.current.pushOutbox, JobInvariant row ∧ (isOpenPush row.status →
      ∃ (phase : PushPhase) (time : Timestamp), ∀ now, time ≤ now → phase.due now row)) ∧
    ∀ row ∈ c.state.current.pushOutbox, ∀ row' ∈ c'.state.current.pushOutbox,
      row'.id = row.id → Became row row' := by
  have hinv := PushRun.invariant hdb hrun
  have hmoves := PushRun.moves hdb hrun hlater
  constructor
  · intro row hrow
    have hjob := hinv.tables.jobs row hrow
    exact ⟨hjob, hjob.eventually_due⟩
  · intro row hrow row' hrow' hid
    exact hmoves.became hinv.tables.ids (hinv.tables.drawn row hrow) hrow hrow' hid

theorem job_life_lapsed : (∃ row ∈ firstDb.pushOutbox, ∃ row' ∈ forgottenDb.pushOutbox,
      row'.id = row.id) ∧
    ∀ row ∈ firstDb.pushOutbox, ∀ row' ∈ forgottenDb.pushOutbox, row'.id = row.id → Became row row' :=
  ⟨by decide, (job_life emptyOutbox_onePhone pushRun_abandoned pushRun_lapsed).2⟩

/-- **One worker and one result for an attempt.** However the workers interleave, and wherever they
stop, an attempt of a job is claimed once, its result is stored once, by the worker that has
claimed it, and never after a later attempt was claimed. -/
theorem attempts_fenced (hdb : EmptyOutbox db) (hrun : PushRun (.idle (.start db)) c)
    (phase : PushPhase) (id : RowId) (attempt : ℕ) :
    count (PushEvent.isClaimOf phase id attempt) c.state.log ≤ 1 ∧
    count (PushEvent.isStored phase id attempt) c.state.log ≤ 1 ∧
    ∀ pid, (pid, PushEvent.stored phase id attempt) ∈ c.state.log →
      (∃ claimedAt again,
        (pid, PushEvent.claimed phase id attempt claimedAt again) ∈ c.state.log) ∧
      ∀ pid' attempt' claimedAt again, After c.state.log (pid, .stored phase id attempt)
        (pid', .claimed phase id attempt' claimedAt again) → attempt' ≤ attempt := by
  have hinv := PushRun.invariant hdb hrun
  refine ⟨hinv.log.claimedOnce phase id attempt, hinv.log.storedOnce phase id attempt, ?_⟩
  intro pid hstored
  constructor
  · obtain ⟨claimedAt, again, hclaimed⟩ := (hinv.own pid).stored _ _ _ (mem_own.2 hstored)
    exact ⟨claimedAt, again, mem_own.1 hclaimed⟩
  · exact fun pid' attempt' claimedAt again => hinv.log.fenced _ _ _ _ _ _ _ _

/-- The result of the second attempt is stored once, by the second worker. -/
theorem attempts_fenced_lapsed : (2, PushEvent.stored .send 2 2) ∈ lapsedLog ∧
    count (PushEvent.isStored .send 2 2) lapsedLog ≤ 1 ∧
    ∃ claimedAt again, (2, PushEvent.claimed .send 2 2 claimedAt again) ∈ lapsedLog := by
  have hrun := pushRun_abandoned.trans pushRun_lapsed
  obtain ⟨-, honce, hstored⟩ := attempts_fenced emptyOutbox_onePhone hrun .send 2 2
  have hmem : (2, PushEvent.stored .send 2 2) ∈ lapsedLog := by decide
  exact ⟨hmem, honce, (hstored 2 hmem).1⟩

/-- **A message is handed to Expo a bounded number of times.** It is handed over once for each
attempt at most, and no more often than attempts are allowed and leases have run out; a job is
claimed again only a whole lease after the claim before. -/
theorem deliveries_bounded (hdb : EmptyOutbox db) (hrun : PushRun (.idle (.start db)) c)
    (id : RowId) :
    (∀ attempt, count (PushEvent.isHanded fun id' attempt' => id' = id ∧ attempt' = attempt)
      c.state.log ≤ 1) ∧
    count (PushEvent.isHanded fun id' _ => id' = id) c.state.log ≤
      maxPushSendAttempts + count (PushEvent.isAgain .send id) c.state.log ∧
    (∀ phase : PushPhase, count (PushEvent.isClaim phase id) c.state.log ≤
      phase.maxAttempts + count (PushEvent.isAgain phase id) c.state.log) ∧
    ∀ pid phase attempt claimedAt,
      (pid, PushEvent.claimed phase id attempt claimedAt true) ∈ c.state.log →
        ∃ pid' attempt' claimedAt' again, attempt = attempt' + 1 ∧
          (pid', PushEvent.claimed phase id attempt' claimedAt' again) ∈ c.state.log ∧
            claimedAt' + pushLeaseMs ≤ claimedAt := by
  have hinv := PushRun.invariant hdb hrun
  have hhanded (which : RowId → ℕ → Bool) : count (PushEvent.isHanded which) c.state.log ≤
      count (PushEvent.isSend which) c.state.log :=
    count_le_of_own fun pid => (hinv.own pid).handed which
  refine ⟨?_, ?_, fun phase => hinv.log.bounded phase id, ?_⟩
  · intro attempt
    have hsends : PushEvent.isSend (fun id' attempt' => id' = id ∧ attempt' = attempt) =
        PushEvent.isClaimOf .send id attempt := by
      funext event
      cases event with
      | claimed phase => cases phase <;> simp [PushEvent.isSend, PushEvent.isClaimOf]
      | _ => rfl
    have hle := hhanded fun id' attempt' => id' = id ∧ attempt' = attempt
    rw [hsends] at hle
    exact hle.trans (hinv.log.claimedOnce .send id attempt)
  · have hsends : PushEvent.isSend (fun id' _ => id' = id) = PushEvent.isClaim .send id := by
      funext event
      cases event with
      | claimed phase => cases phase <;> simp [PushEvent.isSend, PushEvent.isClaim]
      | _ => rfl
    have hle := hhanded fun id' _ => id' = id
    rw [hsends] at hle
    exact hle.trans (hinv.log.bounded .send id)
  · intro pid phase attempt claimedAt hmem
    exact hinv.log.spaced pid phase id attempt claimedAt hmem

/-- The job is claimed again, a lease after the claim of the worker that stopped. -/
theorem deliveries_bounded_lapsed : count (PushEvent.isAgain .send 2) lapsedLog = 1 ∧
    count (PushEvent.isHanded fun id' _ => id' = 2) lapsedLog ≤
      maxPushSendAttempts + count (PushEvent.isAgain .send 2) lapsedLog := by
  have hrun := pushRun_abandoned.trans pushRun_lapsed
  exact ⟨by decide, (deliveries_bounded emptyOutbox_onePhone hrun 2).2.1⟩

/-- **An open job goes to its owner.** A job that has not ended has the value of a push token, and
the only row with that value belongs to the user of its notification. -/
theorem open_jobs_addressed (hdb : EmptyOutbox db) (hrun : PushRun (.idle (.start db)) c)
    (hrow : row ∈ c.state.current.pushOutbox) (hopen : isOpenPush row.status) :
    ∃ notification ∈ c.state.current.notifications, notification.id = row.notificationId ∧
      (∃ token ∈ c.state.current.pushTokens, token.token = row.tokenSnapshot) ∧
      ∀ token ∈ c.state.current.pushTokens, token.token = row.tokenSnapshot →
        token.userId = notification.userId ∧ row.pushTokenId = some token.id := by
  have hinv := (PushRun.invariant hdb hrun).tables
  obtain ⟨token, htoken, notification, hnotification, hid, hvalue, hof, howner⟩ :=
    hinv.addressed row hrow hopen
  refine ⟨notification, hnotification, hof.symm, ⟨token, htoken, hvalue.symm⟩, ?_⟩
  intro other hother hsame
  obtain rfl : other = token := hinv.tokens.tokens.eq_of_key hother htoken (hsame.trans hvalue)
  exact ⟨howner, hid⟩

/-- The abandoned job still belongs to the owner of the phone. -/
theorem open_jobs_addressed_abandoned : ∀ row ∈ firstDb.pushOutbox,
    ∃ notification ∈ firstDb.notifications, notification.id = row.notificationId ∧
      (∃ token ∈ firstDb.pushTokens, token.token = row.tokenSnapshot) ∧
      ∀ token ∈ firstDb.pushTokens, token.token = row.tokenSnapshot →
        token.userId = notification.userId ∧ row.pushTokenId = some token.id := by
  intro row hrow
  have hopen : ∀ row ∈ firstDb.pushOutbox, isOpenPush row.status := by decide
  exact open_jobs_addressed emptyOutbox_onePhone pushRun_abandoned hrow (hopen row hrow)

/-- **Only a token that Expo does not know is given up.** A worker deletes the row of a push token
only if Expo has answered that worker that it does not know the very value that the row has. -/
theorem removed_reported (hdb : EmptyOutbox db) (hrun : PushRun (.idle (.start db)) c)
    {token : PushToken} (hremoved : (pid, PushEvent.removed token) ∈ c.state.log) :
    (pid, PushEvent.reported token.token) ∈ c.state.log := by
  have hown := (PushRun.invariant hdb hrun).own pid
  exact mem_own.1 (hown.removed token (mem_own.2 hremoved))

theorem removed_reported_lapsed : (2, PushEvent.reported "ExponentPushToken[phone]") ∈ lapsedLog := by
  have hremoved : (2, PushEvent.removed (onePhone.pushTokens.head (by decide))) ∈ lapsedLog :=
    List.mem_cons_self
  exact removed_reported emptyOutbox_onePhone (pushRun_abandoned.trans pushRun_lapsed) hremoved

/-! ### A worker that no one disturbs -/

section Alone

variable {ι : Type}

theorem performs_call {α : Type} (call : Call Database Failure α)
    (notes : α → Database → Database → List PushEvent) :
    Chronicle.Performs pid (Chronicle.transact call notes : Prog PushWorld ι Failure α)
      (Notification.transact call) := by
  apply Chronicle.performs_transact
  · intro current value after hreturns
    change Notification.transact call current = _
    rw [Notification.transact, hreturns]
  · intro current failure hthrows
    change Notification.transact call current = _
    rw [Notification.transact, hthrows]

/-- The batch is the one that runs from its first to its last statement. -/
theorem performs_sendBatch (pushEnabled : Bool) (client : ExpoClient) (scan : Scan)
    (now : Timestamp) (limit : ℤ) :
    Chronicle.Performs pid (sendBatch pushEnabled now limit : Prog PushWorld ι Failure _)
      (processPushOutboxBatch pushEnabled client scan now limit) := by
  unfold sendBatch processPushOutboxBatch
  split
  · exact Chronicle.performs_pure _
  apply (Chronicle.performs_ofExcept _).bind
  intro limit
  apply Chronicle.performs_anything scan
  apply (performs_call _ _).bind
  intro claimed
  split
  · exact Chronicle.performs_pure _
  apply Chronicle.performs_consult client
  apply (performs_call _ _).bind
  exact fun _ => Chronicle.performs_pure _

theorem performs_receiptBatch (pushEnabled : Bool) (client : ExpoClient) (scan : Scan)
    (now : Timestamp) (limit : ℤ) :
    Chronicle.Performs pid (receiptBatch pushEnabled now limit : Prog PushWorld ι Failure _)
      (processPushReceiptBatch pushEnabled client scan now limit) := by
  unfold receiptBatch processPushReceiptBatch
  split
  · exact Chronicle.performs_pure _
  apply (Chronicle.performs_ofExcept _).bind
  intro limit
  apply Chronicle.performs_anything scan
  apply (performs_call _ _).bind
  intro claimed
  split
  · exact Chronicle.performs_pure _
  apply Chronicle.performs_consult client
  apply (performs_call _ _).bind
  exact fun _ => Chronicle.performs_pure _

end Alone

end ChatTea.Notification
