import ChatTea.Lib.Chronicle
import ChatTea.Notification.Attempts

/-!
# The delivery of pushes as a system

Any number of requests and workers use the outbox at a time. A batch of a worker claims jobs, asks
Expo about them and stores what it makes of the answer; it may stop between any two of these, Expo
may answer anything, and the answer of the database may be lost. Each transaction of the repository
is one step, and it is noted what was claimed, handed to Expo and stored.

## Main definitions

* `PushEvent` — what is noted
* `sendBatch`, `receiptBatch` — the batches
* `pushSystem` — the system
* `LogInvariant` — what the notes say about the jobs
* `OwnBalanced` — what the notes of one thread say

## Main results

* `LogInvariant.change`, `LogInvariant.claim` — every transaction keeps the notes right
* `pushLogic_sound` — so does every run
-/

namespace ChatTea.Notification

open History Interleaving Table Transaction
open Users (DeletionJobInput isOpenPush)

/-! ### What is noted -/

inductive PushEvent where
  /-- A worker has claimed a job, at a time of its clock; `again` if the job was claimed already. -/
  | claimed (phase : PushPhase) (id : RowId) (attempt : ℕ) (claimedAt : Timestamp) (again : Bool)
  /-- The message of a job was handed to Expo. -/
  | handed (id : RowId) (attempt : ℕ)
  /-- Expo has answered that it does not know the token. -/
  | reported (token : String)
  /-- The result of an attempt was stored. -/
  | stored (phase : PushPhase) (id : RowId) (attempt : ℕ)
  /-- A worker has given up a push token. -/
  | removed (token : PushToken)
deriving DecidableEq

namespace PushEvent

/-- The job was claimed. -/
def isClaim (phase : PushPhase) (id : RowId) : PushEvent → Bool
  | .claimed phase' id' _ _ _ => phase' = phase ∧ id' = id
  | _ => false

/-- The job was claimed although another worker had claimed it. -/
def isAgain (phase : PushPhase) (id : RowId) : PushEvent → Bool
  | .claimed phase' id' _ _ again => phase' = phase ∧ id' = id ∧ again
  | _ => false

/-- The job was claimed for the attempt. -/
def isClaimOf (phase : PushPhase) (id : RowId) (attempt : ℕ) : PushEvent → Bool
  | .claimed phase' id' attempt' _ _ => phase' = phase ∧ id' = id ∧ attempt' = attempt
  | _ => false

/-- The message of one of some attempts was handed to Expo. -/
def isHanded (which : RowId → ℕ → Bool) : PushEvent → Bool
  | .handed id attempt => which id attempt
  | _ => false

/-- A job was claimed to be sent in one of some attempts. -/
def isSend (which : RowId → ℕ → Bool) : PushEvent → Bool
  | .claimed .send id attempt _ _ => which id attempt
  | _ => false

def isStored (phase : PushPhase) (id : RowId) (attempt : ℕ) : PushEvent → Bool
  | .stored phase' id' attempt' => phase' = phase ∧ id' = id ∧ attempt' = attempt
  | _ => false

end PushEvent

/-- The tables, and what was done to them. -/
abbrev PushWorld := Chronicle Database PushEvent

/-! ### The batches -/

/-- The job was claimed already. -/
def wasClaimed (phase : PushPhase) (db : Database) (job : PushOutbox) : Bool :=
  db.pushOutbox.any fun row => row.id = job.id ∧ row.status = phase.status

def claimNotes (phase : PushPhase) (now : Timestamp) (claimed : PushClaimBatch)
    (before _after : Database) : List PushEvent :=
  claimed.jobs.map fun job =>
    .claimed phase job.id (phase.attempts job) now (wasClaimed phase before job)

def sendNotes (jobs : List PushOutbox) (client : ExpoClient) : List PushEvent :=
  (unregisteredBySend jobs (ExpoPushGateway.send client (jobs.map expoMessage))).map .reported ++
    jobs.map fun job => .handed job.id job.sendAttempts

def receiptNotes (jobs : List PushOutbox) (client : ExpoClient) : List PushEvent :=
  (unregisteredByReceipts client jobs).map .reported

def storeNotes (phase : PushPhase) (now : Timestamp) (results : List StoredResult)
    (_done : Unit) (before after : Database) : List PushEvent :=
  (removedTokens before after).map .removed ++
    (storedResults phase now results before).map fun result =>
      .stored phase result.id result.attempt

/-- Nothing is noted. -/
def noNotes {α : Type} (_value : α) (_before _after : Database) : List PushEvent := []

section Programs

variable {ι : Type}

/-- `processPushOutboxBatch` -/
def sendBatch (pushEnabled : Bool) (now : Timestamp) (limit : ℤ) :
    Prog PushWorld ι Failure MaintenanceBatchResult := do
  if ¬ pushEnabled then return emptyBatch
  let limit ← MonadExcept.ofExcept (validateBatchLimit limit)
  let scan ← Prog.anything Scan
  let claimed ← Chronicle.transact (claimSendBatch now (now + pushLeaseMs) scan limit)
    (claimNotes .send now)
  if claimed.jobs = [] then return { emptyBatch with hasMore := claimed.hasMore }
  let client ← Chronicle.consult (sendNotes claimed.jobs)
  let results := sendResults claimed.jobs
    (ExpoPushGateway.send client (claimed.jobs.map expoMessage)) now
  Chronicle.transact (applySendResults results now)
    (storeNotes .send now (results.map (PushSendResult.toStored now)))
  return summarizeSendResults results claimed.hasMore

/-- `processPushReceiptBatch` -/
def receiptBatch (pushEnabled : Bool) (now : Timestamp) (limit : ℤ) :
    Prog PushWorld ι Failure MaintenanceBatchResult := do
  if ¬ pushEnabled then return emptyBatch
  let limit ← MonadExcept.ofExcept (validateBatchLimit limit)
  let scan ← Prog.anything Scan
  let claimed ← Chronicle.transact (claimReceiptBatch now (now + pushLeaseMs) scan limit)
    (claimNotes .receipt now)
  if claimed.jobs = [] then return { emptyBatch with hasMore := claimed.hasMore }
  let client ← Chronicle.consult (receiptNotes claimed.jobs)
  let results := receiptResults client claimed.jobs now
  Chronicle.transact (applyReceiptResults results now)
    (storeNotes .receipt now (results.map (PushReceiptResult.toStored now)))
  return summarizeReceiptResults results claimed.hasMore

end Programs

/-! ### The system -/

inductive PushRequest where
  | notify (input : CreateNotificationInput) (enqueuePush : Bool)
  | markRead (userId : Uuid) (notificationId : RowId)
  | registerPushToken (input : RegisterPushTokenInput)
  | unregisterPushToken (input : UnregisterPushTokenInput)
  | scheduleDeletion (userId : UuidText) (scheduledFor : Timestamp)
  | anonymize (input : DeletionJobInput)
  | sendBatch (pushEnabled : Bool) (now : Timestamp) (limit : ℤ)
  | receiptBatch (pushEnabled : Bool) (now : Timestamp) (limit : ℤ)

/-- A call with a reading of the clock, and nothing noted. -/
def quietCall {ι α : Type} (call : Timestamp → Call Database Failure α) :
    Prog PushWorld ι Failure Unit := do
  let now ← Prog.anything Timestamp
  let _ ← Chronicle.transact (call now) noNotes
  return ()

def pushCode : PushRequest → Prog PushWorld PushRequest Failure Unit
  | .notify input enqueuePush => quietCall (createWithPushOutbox input enqueuePush)
  | .markRead userId notificationId => quietCall (markRead userId notificationId)
  | .registerPushToken input => quietCall (registerPushToken input)
  | .unregisterPushToken input => quietCall (unregisterPushToken input)
  | .scheduleDeletion userId scheduledFor => do
      let completedAt ← Prog.anything Timestamp
      quietCall fun now => scheduleDeletionNow userId now completedAt scheduledFor
  | .anonymize input => quietCall fun _ => anonymizeNow input
  | .sendBatch pushEnabled now limit => do
      let _ ← sendBatch pushEnabled now limit
      return ()
  | .receiptBatch pushEnabled now limit => do
      let _ ← receiptBatch pushEnabled now limit
      return ()

/-- The rest of the service leaves the tables of the notifications alone. -/
structure Elsewhere (before after : Database) : Prop where
  pushOutbox : after.pushOutbox = before.pushOutbox
  pushTokens : after.pushTokens = before.pushTokens
  notifications : after.notifications = before.notifications
  nextRowId : before.nextRowId ≤ after.nextRowId

def pushSystem : System PushWorld PushRequest Failure Unit where
  code := pushCode
  accepts _ := True
  environment before after := after.log = before.log ∧ Elsewhere before.current after.current
  rollback _ w := w

/-! ### What the notes say about the jobs -/

structure LogInvariant (db : Database) (log : List (ℕ × PushEvent)) : Prop where
  /-- The number of attempts of a job is the number of its claims. -/
  attempts : ∀ row ∈ db.pushOutbox, ∀ phase : PushPhase,
    count (PushEvent.isClaim phase row.id) log = phase.attempts row
  numbered : ∀ pid phase id attempt claimedAt again,
    (pid, PushEvent.claimed phase id attempt claimedAt again) ∈ log →
      id < db.nextRowId ∧ ∀ row ∈ db.pushOutbox, row.id = id → attempt ≤ phase.attempts row
  /-- An attempt of a job is claimed once. -/
  claimedOnce : ∀ phase id attempt, count (PushEvent.isClaimOf phase id attempt) log ≤ 1
  leased : ∀ row ∈ db.pushOutbox, ∀ phase : PushPhase, row.status = phase.status →
    ∃ pid claimedAt again,
      (pid, PushEvent.claimed phase row.id (phase.attempts row) claimedAt again) ∈ log ∧
        row.leaseExpiresAt = some (claimedAt + pushLeaseMs)
  /-- A job is claimed again only after the lease of the attempt before has run out. -/
  spaced : ∀ pid phase id attempt claimedAt,
    (pid, PushEvent.claimed phase id attempt claimedAt true) ∈ log →
      ∃ pid' attempt' claimedAt' again, attempt = attempt' + 1 ∧
        (pid', PushEvent.claimed phase id attempt' claimedAt' again) ∈ log ∧
          claimedAt' + pushLeaseMs ≤ claimedAt
  bounded : ∀ (phase : PushPhase) id, count (PushEvent.isClaim phase id) log ≤
    phase.maxAttempts + count (PushEvent.isAgain phase id) log
  /-- The result of an attempt is stored once. -/
  storedOnce : ∀ phase id attempt, count (PushEvent.isStored phase id attempt) log ≤ 1
  stored : ∀ pid phase id attempt, (pid, PushEvent.stored phase id attempt) ∈ log →
    id < db.nextRowId ∧ ∀ row ∈ db.pushOutbox, row.id = id →
      attempt ≤ phase.attempts row ∧ (phase.attempts row = attempt → row.status ≠ phase.status)

  /-- A stored result is the one of the newest claim. -/
  fenced : ∀ pid phase id attempt pid' attempt' claimedAt again,
    After log (pid, PushEvent.stored phase id attempt)
      (pid', PushEvent.claimed phase id attempt' claimedAt again) → attempt' ≤ attempt

variable {db db' : Database} {log : List (ℕ × PushEvent)} {pid : ℕ} {events : List PushEvent}
  {phase : PushPhase} {now : Timestamp} {row row' job : PushOutbox} {jobs : List PushOutbox}

/-- What a transaction other than a claim notes. -/
structure Settles (before after : Database) (events : List PushEvent) : Prop where
  unclaimed : ∀ phase id attempt claimedAt again,
    PushEvent.claimed phase id attempt claimedAt again ∉ events
  once : ∀ phase id attempt, events.countP (PushEvent.isStored phase id attempt) ≤ 1
  ends : ∀ phase id attempt, PushEvent.stored phase id attempt ∈ events →
    (∃ row ∈ before.pushOutbox, row.id = id ∧ row.status = phase.status ∧
      phase.attempts row = attempt) ∧
      ∀ row' ∈ after.pushOutbox, row'.id = id → row'.status ≠ phase.status

/-- Notes that say nothing of claims and results. -/
theorem settles_of_none (hnone : ∀ event ∈ events,
    (∃ id attempt, event = .handed id attempt) ∨ (∃ token, event = .reported token) ∨
      ∃ token, event = .removed token) : Settles db db' events where
  unclaimed phase id attempt claimedAt again hmem := by
    rcases hnone _ hmem with ⟨_, _, h⟩ | ⟨_, h⟩ | ⟨_, h⟩ <;> cases h
  once phase id attempt := by
    rw [List.countP_eq_zero.2]
    · exact Nat.zero_le _
    · intro event hmem
      rcases hnone _ hmem with ⟨_, _, rfl⟩ | ⟨_, rfl⟩ | ⟨_, rfl⟩ <;> exact Bool.false_ne_true
  ends phase id attempt hmem := by
    rcases hnone _ hmem with ⟨_, _, h⟩ | ⟨_, h⟩ | ⟨_, h⟩ <;> cases h

/-- Notes without claims do not change a count of claims. -/
theorem count_unclaimed {kind : PushEvent → Bool}
    (hkind : ∀ event, kind event → ∃ phase id attempt claimedAt again,
      event = .claimed phase id attempt claimedAt again)
    (hevents : ∀ phase id attempt claimedAt again,
      PushEvent.claimed phase id attempt claimedAt again ∉ events) :
    count kind (stamp pid events ++ log) = count kind log := by
  rw [count_stamp_append, List.countP_eq_zero.2, Nat.zero_add]
  intro event hmem hevent
  obtain ⟨phase, id, attempt, claimedAt, again, rfl⟩ := hkind event hevent
  exact hevents _ _ _ _ _ hmem

theorem isClaim_claimed {id : RowId} (event : PushEvent) (h : event.isClaim phase id) :
    ∃ phase id attempt claimedAt again, event = .claimed phase id attempt claimedAt again := by
  cases event with
  | claimed => exact ⟨_, _, _, _, _, rfl⟩
  | _ => cases h

theorem isAgain_claimed {id : RowId} (event : PushEvent) (h : event.isAgain phase id) :
    ∃ phase id attempt claimedAt again, event = .claimed phase id attempt claimedAt again := by
  cases event with
  | claimed => exact ⟨_, _, _, _, _, rfl⟩
  | _ => cases h

theorem isClaimOf_claimed {id : RowId} {attempt : ℕ} (event : PushEvent)
    (h : event.isClaimOf phase id attempt) :
    ∃ phase id attempt claimedAt again, event = .claimed phase id attempt claimedAt again := by
  cases event with
  | claimed => exact ⟨_, _, _, _, _, rfl⟩
  | _ => cases h

/-- A job whose number is drawn only now was never claimed. -/
theorem LogInvariant.count_eq_zero (h : LogInvariant db log) {id : RowId} (hid : db.nextRowId ≤ id) :
    count (PushEvent.isClaim phase id) log = 0 := by
  apply History.count_eq_zero.2
  rintro ⟨pid, event⟩ hmem hclaim
  cases event with
  | claimed phase' id' attempt claimedAt again =>
      obtain ⟨-, rfl⟩ := of_decide_eq_true hclaim
      exact absurd (h.numbered _ _ _ _ _ _ hmem).1 (Nat.not_lt.2 hid)
  | _ => cases hclaim

/-- The notes after a step are the ones of the step and the old ones. -/
theorem mem_noted {entry : ℕ × PushEvent} (h : entry ∈ stamp pid events ++ log) :
    (entry.1 = pid ∧ entry.2 ∈ events) ∨ entry ∈ log :=
  (List.mem_append.1 h).imp_left mem_stamp.1

/-- A transaction other than a claim keeps the notes right. -/
theorem LogInvariant.change (h : LogInvariant db log) (hdb : PushInvariant db)
    (hchange : PushChange db db') (hevents : Settles db db' events) :
    LogInvariant db' (stamp pid events ++ log) := by
  have hrows := hchange.rows hdb
  -- What has become of the job with a number, if it is still there.
  have hold (row' : PushOutbox) (hrow' : row' ∈ db'.pushOutbox) (hid : row'.id < db.nextRowId) :
      ∃ row ∈ db.pushOutbox, row'.id = row.id ∧ Tended row row' := by
    rcases hrows.rows row' hrow' with hstep | ⟨hnew, -⟩
    · exact hstep
    · exact absurd hid (Nat.not_lt.2 hnew)
  constructor
  · intro row' hrow' phase
    rw [count_unclaimed isClaim_claimed hevents.unclaimed]
    rcases hrows.rows row' hrow' with ⟨row, hrow, hid, htended⟩ | ⟨hnew, hfresh⟩
    · rw [hid, h.attempts row hrow phase, htended.attempts phase]
    · rw [h.count_eq_zero hnew, (hfresh phase).1]
  · intro pid' phase id attempt claimedAt again hmem
    rcases mem_noted hmem with ⟨-, hnew⟩ | hmem
    · exact absurd hnew (hevents.unclaimed _ _ _ _ _)
    · obtain ⟨hdrawn, hle⟩ := h.numbered _ _ _ _ _ _ hmem
      refine ⟨hdrawn.trans_le hrows.drawn, fun row' hrow' hid => ?_⟩
      subst hid
      obtain ⟨row, hrow, hid, htended⟩ := hold row' hrow' hdrawn
      rw [htended.attempts phase]
      exact hle row hrow hid.symm
  · intro phase id attempt
    rw [count_unclaimed isClaimOf_claimed hevents.unclaimed]
    exact h.claimedOnce phase id attempt
  · intro row' hrow' phase hstatus
    obtain ⟨row, hrow, hid, heq⟩ := hchange.claimed_before hdb hrow' hstatus
    have hbefore : row.status = phase.status := (Became.status_eq heq).symm.trans hstatus
    obtain ⟨pid', claimedAt, again, hmem, hlease⟩ := h.leased row hrow phase hbefore
    refine ⟨pid', claimedAt, again, ?_, ?_⟩
    · rw [attempts_of_untied heq, ← hid]
      exact List.mem_append_right _ hmem
    · rw [heq]
      exact hlease
  · intro pid' phase id attempt claimedAt hmem
    rcases mem_noted hmem with ⟨-, hnew⟩ | hmem
    · exact absurd hnew (hevents.unclaimed _ _ _ _ _)
    · obtain ⟨pid', attempt', claimedAt', again, hnext, hearlier, hle⟩ := h.spaced _ _ _ _ _ hmem
      exact ⟨pid', attempt', claimedAt', again, hnext, List.mem_append_right _ hearlier, hle⟩
  · intro phase id
    rw [count_unclaimed isClaim_claimed hevents.unclaimed,
      count_unclaimed isAgain_claimed hevents.unclaimed]
    exact h.bounded phase id
  · intro phase id attempt
    rw [count_stamp_append]
    have hold := h.storedOnce phase id attempt
    by_cases hnew : PushEvent.stored phase id attempt ∈ events
    · -- The attempt has only ended now.
      obtain ⟨⟨row, hrow, rfl, hstatus, hattempts⟩, -⟩ := hevents.ends phase id attempt hnew
      have hnone : count (PushEvent.isStored phase row.id attempt) log = 0 := by
        apply History.count_eq_zero.2
        rintro ⟨pid', event⟩ hmem hstored
        cases event with
        | stored phase' id' attempt' =>
            obtain ⟨rfl, rfl, rfl⟩ := of_decide_eq_true hstored
            exact ((h.stored _ _ _ _ hmem).2 row hrow rfl).2 hattempts hstatus
        | _ => cases hstored
      have honce := hevents.once phase row.id attempt
      omega
    · have hnone : events.countP (PushEvent.isStored phase id attempt) = 0 := by
        apply List.countP_eq_zero.2
        intro event hmem hstored
        cases event with
        | stored phase' id' attempt' =>
            obtain ⟨rfl, rfl, rfl⟩ := of_decide_eq_true hstored
            exact hnew hmem
        | _ => cases hstored
      omega
  · intro pid' phase id attempt hmem
    rcases mem_noted hmem with ⟨-, hnew⟩ | hmem
    · obtain ⟨⟨row, hrow, rfl, hstatus, rfl⟩, hended⟩ := hevents.ends phase id attempt hnew
      refine ⟨(hdb.drawn row hrow).trans_le hrows.drawn, fun row' hrow' hid => ?_⟩
      have htended := hrows.became hdb.ids (hdb.drawn row hrow) hrow hrow' hid
      refine ⟨Nat.le_of_eq (htended.attempts phase).symm, fun _ => hended row' hrow' hid⟩
    · obtain ⟨hdrawn, hstored⟩ := h.stored _ _ _ _ hmem
      refine ⟨hdrawn.trans_le hrows.drawn, fun row' hrow' hid => ?_⟩
      subst hid
      obtain ⟨row, hrow, hid, htended⟩ := hold row' hrow' hdrawn
      obtain ⟨hle, hfree⟩ := hstored row hrow hid.symm
      rw [htended.attempts phase]
      refine ⟨hle, fun hattempts hstatus => hfree hattempts ?_⟩
      exact htended.became.status_of_held hstatus (htended.attempts phase)
  · intro pid' phase id attempt holder attempt' claimedAt again hafter
    rcases hafter.of_append with hnew | hbefore
    · -- The row is still claimed for the newest attempt.
      obtain ⟨⟨row, hrow, rfl, -, rfl⟩, -⟩ := hevents.ends phase id attempt (mem_stamp.1 hnew).2
      rcases mem_noted hafter.earlier_mem with ⟨-, hclaimed⟩ | hclaimed
      · exact absurd hclaimed (hevents.unclaimed _ _ _ _ _)
      · exact (h.numbered _ _ _ _ _ _ hclaimed).2 row hrow rfl
    · exact h.fenced _ _ _ _ _ _ _ _ hbefore

/-! ### The notes of a claim -/

section Claim

variable {isSelected : PushOutbox → Bool} {claimed : PushClaimBatch} {scan : Scan} {limit : ℕ}

/-- A claim is noted once for each of its jobs. -/
theorem countP_claimNotes (phase' : PushPhase) (id : RowId) :
    (claimNotes phase now claimed db db').countP (PushEvent.isClaim phase' id) =
      if phase' = phase then (claimed.jobs.map (·.id)).count id else 0 := by
  rw [claimNotes, List.countP_map, List.count, List.countP_map]
  split
  next hsame =>
    subst hsame
    apply List.countP_congr
    intro job _
    simp [PushEvent.isClaim]
  next hother =>
    apply List.countP_eq_zero.2
    intro job _
    simp [PushEvent.isClaim, Ne.symm hother]

theorem mem_claimNotes {phase' : PushPhase} {id : RowId} {attempt : ℕ} {claimedAt : Timestamp}
    {again : Bool} : PushEvent.claimed phase' id attempt claimedAt again ∈
        claimNotes phase now claimed db db' ↔
      ∃ job ∈ claimed.jobs, phase' = phase ∧ id = job.id ∧ attempt = phase.attempts job ∧
        claimedAt = now ∧ again = wasClaimed phase db job := by
  simp only [claimNotes, List.mem_map, PushEvent.claimed.injEq]
  constructor
  · rintro ⟨job, hjob, rfl, rfl, rfl, rfl, rfl⟩
    exact ⟨job, hjob, rfl, rfl, rfl, rfl, rfl⟩
  · rintro ⟨job, hjob, rfl, rfl, rfl, rfl, rfl⟩
    exact ⟨job, hjob, rfl, rfl, rfl, rfl, rfl⟩

/-- Whether a marked job was claimed already can be read off its row. -/
theorem wasClaimed_mark (hdb : PushInvariant db) (hrow : row ∈ db.pushOutbox)
    (leaseExpiresAt : Timestamp) :
    wasClaimed phase db (phase.mark leaseExpiresAt row) ↔ row.status = phase.status := by
  simp only [wasClaimed, mark_id, List.any_eq_true, decide_eq_true_eq]
  constructor
  · rintro ⟨other, hother, hid, hstatus⟩
    rwa [← hdb.ids.eq_of_key hother hrow hid]
  · exact fun hstatus => ⟨row, hrow, rfl, hstatus⟩

/-- At most as many claims go on from a claim as there are claims. -/
theorem countP_again (db' : Database) (hmarks : Marks phase now isSelected claimed.jobs db)
    (hdb : PushInvariant db) (hrow : row ∈ db.pushOutbox) (hselected : isSelected row)
    (hstatus : row.status = phase.status) :
    1 ≤ (claimNotes phase now claimed db db').countP (PushEvent.isAgain phase row.id) := by
  have hjob : phase.mark (now + pushLeaseMs) row ∈ claimed.jobs :=
    (hmarks.mem _).2 ⟨row, hrow, hselected, rfl⟩
  apply List.countP_pos_iff.2
  refine ⟨_, List.mem_map_of_mem hjob, ?_⟩
  simp [PushEvent.isAgain, (wasClaimed_mark hdb hrow _).2 hstatus]

theorem claimNotes_not_stored (event : PushEvent) (h : event ∈ claimNotes phase now claimed db db')
    (phase' : PushPhase) (id : RowId) (attempt : ℕ) : event ≠ .stored phase' id attempt := by
  obtain ⟨job, -, rfl⟩ := List.mem_map.1 h
  exact PushEvent.noConfusion

/-- A claim keeps the notes right. -/
theorem LogInvariant.claim (h : LogInvariant db log) (hdb : PushInvariant db)
    (hclaim : phase.claim now scan limit db = .ok (claimed, db')) :
    LogInvariant db' (stamp pid (claimNotes phase now claimed db db') ++ log) := by
  obtain ⟨isSelected, hmarks, hdb'⟩ := claim_marks hdb hclaim
  let mark := phase.mark (now + pushLeaseMs)
  have hrows : db'.pushOutbox = updateWhere isSelected mark db.pushOutbox := by rw [hdb']
  have hnext : db'.nextRowId = db.nextRowId := by rw [hdb']
  -- The claims of the job of a row before the step.
  have hcount (row : PushOutbox) (hrow : row ∈ db.pushOutbox) (phase' : PushPhase) :
      (claimNotes phase now claimed db db').countP (PushEvent.isClaim phase' row.id) =
        if phase' = phase ∧ isSelected row then 1 else 0 := by
    rw [countP_claimNotes]
    by_cases hsame : phase' = phase
    · by_cases hselected : isSelected row
      · rw [if_pos hsame, if_pos ⟨hsame, hselected⟩]
        exact List.count_eq_one_of_mem hmarks.nodup ((hmarks.id_mem_iff hdb hrow).2 hselected)
      · rw [if_pos hsame, if_neg fun h => hselected h.2]
        exact List.count_eq_zero.2 fun hmem => hselected ((hmarks.id_mem_iff hdb hrow).1 hmem)
    · rw [if_neg hsame, if_neg fun h => hsame h.1]
  constructor
  · intro row' hrow' phase'
    rw [hrows] at hrow'
    rw [count_stamp_append]
    rcases mem_updateWhere.1 hrow' with ⟨row, hrow, hselected, rfl⟩ | ⟨hrow, hnot⟩
    · rw [mark_id, hcount row hrow, h.attempts row hrow]
      by_cases hsame : phase' = phase
      · rw [if_pos ⟨hsame, hselected⟩, hsame, mark_attempts, Nat.add_comm]
      · rw [if_neg fun h => hsame h.1, mark_attempts_other hsame, Nat.zero_add]
    · rw [hcount row' hrow, h.attempts row' hrow, if_neg fun h => hnot h.2, Nat.zero_add]
  · intro pid' phase' id attempt claimedAt again hmem
    rw [hnext]
    rcases mem_noted hmem with ⟨-, hnew⟩ | hold
    · obtain ⟨job, hjob, rfl, rfl, rfl, rfl, rfl⟩ := mem_claimNotes.1 hnew
      obtain ⟨row, hrow, hselected, rfl⟩ := (hmarks.mem job).1 hjob
      rw [mark_id]
      refine ⟨hdb.drawn row hrow, fun row' hrow' hid => ?_⟩
      rw [hrows] at hrow'
      rcases mem_updateWhere.1 hrow' with ⟨other, hother, -, rfl⟩ | ⟨hother, hnot⟩
      · rw [mark_id] at hid
        rw [hdb.ids.eq_of_key hother hrow hid]
      · rw [hdb.ids.eq_of_key hother hrow hid] at hnot
        exact absurd hselected hnot
    · obtain ⟨hdrawn, hle⟩ := h.numbered _ _ _ _ _ _ hold
      refine ⟨hdrawn, fun row' hrow' hid => ?_⟩
      rw [hrows] at hrow'
      rcases mem_updateWhere.1 hrow' with ⟨row, hrow, -, rfl⟩ | ⟨hrow, -⟩
      · rw [mark_id] at hid
        exact (hle row hrow hid).trans (mark_attempts_le phase')
      · exact hle row' hrow hid
  · intro phase' id attempt
    rw [count_stamp_append]
    have hold := h.claimedOnce phase' id attempt
    have hsub : (claimNotes phase now claimed db db').countP (PushEvent.isClaimOf phase' id attempt) ≤
        (claimNotes phase now claimed db db').countP (PushEvent.isClaim phase' id) := by
      apply List.countP_mono_left
      intro event _ hevent
      cases event with
      | claimed =>
          obtain ⟨hphase, hid, -⟩ := of_decide_eq_true hevent
          exact decide_eq_true ⟨hphase, hid⟩
      | _ => cases hevent
    by_cases hnew : ∃ event ∈ claimNotes phase now claimed db db',
        PushEvent.isClaimOf phase' id attempt event
    · -- The number of the attempt has only been reached now.
      obtain ⟨event, hmem, hevent⟩ := hnew
      obtain ⟨job, hjob, rfl⟩ := List.mem_map.1 hmem
      obtain ⟨rfl, rfl, rfl⟩ := of_decide_eq_true hevent
      obtain ⟨row, hrow, hselected, rfl⟩ := (hmarks.mem job).1 hjob
      rw [mark_id, mark_attempts] at hold ⊢
      rw [mark_id, mark_attempts, hcount row hrow] at hsub
      have hnone : count (PushEvent.isClaimOf phase row.id (phase.attempts row + 1)) log = 0 := by
        apply History.count_eq_zero.2
        rintro ⟨pid', event⟩ hmem hclaimOf
        cases event with
        | claimed phase' id' attempt' claimedAt again =>
            obtain ⟨rfl, rfl, rfl⟩ := of_decide_eq_true hclaimOf
            have hle := (h.numbered _ _ _ _ _ _ hmem).2 row hrow rfl
            omega
        | _ => cases hclaimOf
      split at hsub <;> omega
    · have hnone : (claimNotes phase now claimed db db').countP
          (PushEvent.isClaimOf phase' id attempt) = 0 :=
        List.countP_eq_zero.2 fun event hmem hevent => hnew ⟨event, hmem, hevent⟩
      omega
  · intro row' hrow' phase' hstatus
    rw [hrows] at hrow'
    rcases mem_updateWhere.1 hrow' with ⟨row, hrow, hselected, rfl⟩ | ⟨hrow, -⟩
    · rw [mark_status] at hstatus
      obtain rfl := PushPhase.status_injective hstatus
      have hjob : mark row ∈ claimed.jobs := (hmarks.mem _).2 ⟨row, hrow, hselected, rfl⟩
      refine ⟨pid, now, wasClaimed phase db (mark row), List.mem_append_left _ ?_, ?_⟩
      · exact mem_stamp.2 ⟨rfl, mem_claimNotes.2 ⟨_, hjob, rfl, rfl, rfl, rfl, rfl⟩⟩
      · cases phase <;> rfl
    · obtain ⟨pid', claimedAt, again, hmem, hlease⟩ := h.leased row' hrow phase' hstatus
      exact ⟨pid', claimedAt, again, List.mem_append_right _ hmem, hlease⟩
  · intro pid' phase' id attempt claimedAt hmem
    rcases mem_noted hmem with ⟨-, hnew⟩ | hold
    · obtain ⟨job, hjob, rfl, rfl, rfl, rfl, hagain⟩ := mem_claimNotes.1 hnew
      obtain ⟨row, hrow, hselected, rfl⟩ := (hmarks.mem job).1 hjob
      have hstatus := (wasClaimed_mark hdb hrow _).1 hagain.symm
      obtain ⟨pid', claimedAt', again, hmem, hlease⟩ := h.leased row hrow phase' hstatus
      -- The job was due because its lease has run out.
      obtain ⟨lease, hlease', hle⟩ : ∃ lease, row.leaseExpiresAt = some lease ∧ lease ≤ claimedAt := by
        rcases due_cases (hmarks.due row hrow hselected) with hwaiting | ⟨-, hexpired⟩
        · exact absurd (hstatus.symm.trans hwaiting) (phase'.status_ne_waiting phase')
        · exact hexpired
      obtain rfl := Option.some.inj (hlease.symm.trans hlease')
      refine ⟨pid', phase'.attempts row, claimedAt', again, mark_attempts, ?_, hle⟩
      rw [mark_id]
      exact List.mem_append_right _ hmem
    · obtain ⟨pid', attempt', claimedAt', again, hnext, hearlier, hle⟩ := h.spaced _ _ _ _ _ hold
      exact ⟨pid', attempt', claimedAt', again, hnext, List.mem_append_right _ hearlier, hle⟩
  · intro phase' id
    have hbefore := h.bounded phase' id
    rw [count_stamp_append, count_stamp_append]
    by_cases hsame : phase' = phase
    · subst hsame
      by_cases hmem : id ∈ claimed.jobs.map (·.id)
      · obtain ⟨job, hjob, rfl⟩ := List.mem_map.1 hmem
        obtain ⟨row, hrow, hselected, rfl⟩ := (hmarks.mem job).1 hjob
        rw [mark_id] at hbefore ⊢
        rw [hcount row hrow, if_pos ⟨rfl, hselected⟩]
        rcases due_cases (hmarks.due row hrow hselected) with hwaiting | ⟨hstatus, -⟩
        · -- A job that waits has attempts left.
          have hattempts := h.attempts row hrow phase'
          have hleft := (hdb.jobs row hrow).left phase' hwaiting
          omega
        · have hagain := countP_again db' hmarks hdb hrow hselected hstatus
          omega
      · have hnone : (claimNotes phase' now claimed db db').countP (PushEvent.isClaim phase' id) = 0 := by
          rw [countP_claimNotes, if_pos rfl]
          exact List.count_eq_zero.2 hmem
        omega
    · have hnone : (claimNotes phase now claimed db db').countP (PushEvent.isClaim phase' id) = 0 := by
        rw [countP_claimNotes, if_neg hsame]
      omega
  · intro phase' id attempt
    have hnone : (claimNotes phase now claimed db db').countP
        (PushEvent.isStored phase' id attempt) = 0 := by
      apply List.countP_eq_zero.2
      intro event hmem hevent
      obtain ⟨job, -, rfl⟩ := List.mem_map.1 hmem
      cases hevent
    rw [count_stamp_append, hnone, Nat.zero_add]
    exact h.storedOnce phase' id attempt
  · intro pid' phase' id attempt hmem
    rcases mem_noted hmem with ⟨-, hnew⟩ | hold
    · exact absurd rfl (claimNotes_not_stored _ hnew phase' id attempt)
    · obtain ⟨hdrawn, hstored⟩ := h.stored _ _ _ _ hold
      rw [hnext]
      refine ⟨hdrawn, fun row' hrow' hid => ?_⟩
      rw [hrows] at hrow'
      rcases mem_updateWhere.1 hrow' with ⟨row, hrow, -, rfl⟩ | ⟨hrow, -⟩
      · rw [mark_id] at hid
        obtain ⟨hle, hfree⟩ := hstored row hrow hid
        refine ⟨hle.trans (mark_attempts_le phase'), fun hattempts hstatus => ?_⟩
        rw [mark_status] at hstatus
        obtain rfl := PushPhase.status_injective hstatus
        rw [mark_attempts] at hattempts
        omega
      · exact hstored row' hrow hid
  · intro pid' phase' id attempt holder attempt' claimedAt again hafter
    rcases hafter.of_append with hnew | hbefore
    · exact absurd rfl (claimNotes_not_stored _ (mem_stamp.1 hnew).2 phase' id attempt)
    · exact h.fenced _ _ _ _ _ _ _ _ hbefore

end Claim

end ChatTea.Notification
