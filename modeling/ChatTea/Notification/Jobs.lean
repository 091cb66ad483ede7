import ChatTea.Lib.Descent
import ChatTea.Notification.OutboxRuns

/-!
# The life of a job

A job of the outbox waits to be sent, is being sent, waits for its receipt, has its receipt looked
up, and ends. Everything that transactions do to a job is one of a few statements; what a job
always satisfies, and what it never goes back on, is proved of each of them.

## Main definitions

* `PushPhase` — sending, and looking up the receipt
* `JobInvariant` — what a job satisfies at any time
* `Became` — what a job never goes back on
* `Fits` — the values that the result of an attempt may store
* `Tended` — what every statement but a claim makes of a job

## Main results

* `tended_cancel`, `tended_untie`, `tended_move`, `tended_set` — the statements
* `JobInvariant.mark`, `became_mark` — a claim
* `JobInvariant.eventually_due` — a job that has not ended is due at some time
-/

namespace ChatTea.Notification

open Table
open Users (cancelPush isOpenPush)

/-! ### The two phases -/

/-- A job is sent, and then its receipt is looked up. -/
inductive PushPhase where
  | send
  | receipt
deriving DecidableEq, Repr

namespace PushPhase

/-- The status of a job that a worker has claimed. -/
def status : PushPhase → PushOutboxStatus
  | .send => .sending
  | .receipt => .receiptChecking

/-- The status of a job that waits for a worker. -/
def waiting : PushPhase → PushOutboxStatus
  | .send => .queued
  | .receipt => .receiptPending

def attempts : PushPhase → PushOutbox → ℕ
  | .send => fun row => row.sendAttempts
  | .receipt => fun row => row.receiptAttempts

def maxAttempts : PushPhase → ℕ
  | .send => maxPushSendAttempts
  | .receipt => maxPushReceiptAttempts

def due (now : Timestamp) : PushPhase → PushOutbox → Bool
  | .send => sendDue now
  | .receipt => receiptDue now

/-- What a claim writes. -/
def mark (leaseExpiresAt : Timestamp) : PushPhase → PushOutbox → PushOutbox
  | .send => markSending leaseExpiresAt
  | .receipt => markChecking leaseExpiresAt

/-- The order in which a claim takes the jobs. -/
def time : PushPhase → PushOutbox → Option Timestamp
  | .send => fun row => some row.nextAttemptAt
  | .receipt => fun row => row.receiptAvailableAt

/-- The claim of a phase. -/
def claim (phase : PushPhase) (now : Timestamp) (scan : Scan) (limit : ℕ) :
    Transaction.Call Database Failure PushClaimBatch :=
  claimBatch (phase.due now) phase.time (phase.mark (now + pushLeaseMs)) scan limit

theorem status_ne_waiting (phase other : PushPhase) : phase.status ≠ other.waiting := by
  cases phase <;> cases other <;> decide

theorem status_injective {phase other : PushPhase} (h : phase.status = other.status) :
    phase = other := by
  cases phase <;> cases other <;> simp_all [status]

theorem isOpen_status (phase : PushPhase) : isOpenPush phase.status := by
  cases phase <;> decide

theorem isOpen_waiting (phase : PushPhase) : isOpenPush phase.waiting := by
  cases phase <;> decide

end PushPhase

/-- A job that has not ended waits for a worker or is claimed by one. -/
theorem isOpenPush_iff (status : PushOutboxStatus) :
    isOpenPush status ↔ ∃ phase : PushPhase, status = phase.waiting ∨ status = phase.status := by
  constructor
  · intro h
    cases status with
    | queued => exact ⟨.send, Or.inl rfl⟩
    | sending => exact ⟨.send, Or.inr rfl⟩
    | receiptPending => exact ⟨.receipt, Or.inl rfl⟩
    | receiptChecking => exact ⟨.receipt, Or.inr rfl⟩
    | delivered => cases h
    | failedPermanent => cases h
    | exhausted => cases h
    | cancelled => cases h
  · rintro ⟨phase, rfl | rfl⟩
    · exact phase.isOpen_waiting
    · exact phase.isOpen_status

/-! ### What a job satisfies -/

/-- Expo has taken the job. -/
def wasAccepted : PushOutboxStatus → Bool
  | .receiptPending => true
  | .receiptChecking => true
  | .delivered => true
  | _ => false

/-- What a job satisfies at any time. -/
structure JobInvariant (row : PushOutbox) : Prop where
  leased : row.leaseExpiresAt.isSome ↔ ∃ phase : PushPhase, row.status = phase.status
  completed : row.completedAt.isSome ↔ ¬ isOpenPush row.status
  unsent : row.status = .queued ∨ row.status = .sending →
    row.ticketId = none ∧ row.sentAt = none ∧ row.receiptAvailableAt = none ∧
      row.receiptAttempts = 0
  accepted : wasAccepted row.status → (∃ ticketId, row.ticketId = some ticketId ∧ ticketId ≠ "") ∧
    row.sentAt.isSome ∧ row.receiptAvailableAt.isSome
  /-- A job that waits may be tried again. -/
  left : ∀ phase : PushPhase, row.status = phase.waiting → phase.attempts row < phase.maxAttempts

/-- What a job never goes back on. -/
structure Became (row row' : PushOutbox) : Prop where
  notificationId : row'.notificationId = row.notificationId
  content : row'.title = row.title ∧ row'.body = row.body ∧ row'.route = row.route
  pushTokenId : row'.pushTokenId = row.pushTokenId ∨ row'.pushTokenId = none
  ticketId : row.ticketId ≠ none → row'.ticketId = row.ticketId
  attempts : ∀ phase : PushPhase, phase.attempts row ≤ phase.attempts row'
  /-- A job that is still claimed for the same attempt was not touched. -/
  held : ∀ phase : PushPhase, row'.status = phase.status →
    phase.attempts row' = phase.attempts row → row' = { row with pushTokenId := row'.pushTokenId }
  /-- A job that has ended stays as it is. -/
  ended : ¬ isOpenPush row.status → row' = { row with pushTokenId := row'.pushTokenId }

variable {row row' row'' : PushOutbox} {phase : PushPhase} {now : Timestamp}
  {values : PushOutboxValues} {attempt : ℕ}

namespace Became

theorem refl (row : PushOutbox) : Became row row where
  notificationId := rfl
  content := ⟨rfl, rfl, rfl⟩
  pushTokenId := Or.inl rfl
  ticketId _ := rfl
  attempts _ := Nat.le_refl _
  held _ _ _ := rfl
  ended _ := rfl

/-- The rows agree up to the reference to a push token. -/
theorem status_eq {token : Option RowId} (h : row' = { row with pushTokenId := token }) :
    row'.status = row.status := by rw [h]

theorem trans (h : Became row row') (h' : Became row' row'') : Became row row'' where
  notificationId := h'.notificationId.trans h.notificationId
  content := by
    obtain ⟨htitle, hbody, hroute⟩ := h.content
    obtain ⟨htitle', hbody', hroute'⟩ := h'.content
    exact ⟨htitle'.trans htitle, hbody'.trans hbody, hroute'.trans hroute⟩
  pushTokenId := by
    rcases h'.pushTokenId with hsame | hnone
    · rw [hsame]
      exact h.pushTokenId
    · exact Or.inr hnone
  ticketId hticket := by
    have hsame : row'.ticketId = row.ticketId := h.ticketId hticket
    rw [← hsame] at hticket ⊢
    exact h'.ticketId hticket
  attempts phase := (h.attempts phase).trans (h'.attempts phase)
  held := by
    intro phase hstatus hattempts
    -- No attempt was made in between.
    have hbefore : phase.attempts row' = phase.attempts row := by
      have hfirst := h.attempts phase
      have hsecond := h'.attempts phase
      omega
    have hlater := h'.held phase hstatus (hattempts.trans hbefore.symm)
    have hearlier := h.held phase ((status_eq hlater).symm.trans hstatus) hbefore
    rw [hlater, hearlier]
  ended := by
    intro hclosed
    have hearlier := h.ended hclosed
    have hlater := h'.ended (by rwa [status_eq hearlier])
    rw [hlater, hearlier]

/-- A job that is still claimed for an attempt has been so ever since. -/
theorem status_of_held (h : Became row row') (hstatus : row'.status = phase.status)
    (hattempts : phase.attempts row' = phase.attempts row) : row.status = phase.status :=
  (status_eq (h.held phase hstatus hattempts)).symm.trans hstatus

end Became

/-! ### What a result stores -/

/-- The values that the result of an attempt may store. -/
inductive Fits : PushPhase → ℕ → PushOutboxValues → Prop
  | accepted {attempt ticketId receiptAvailableAt now code message} (named : ticketId ≠ "") :
      Fits .send attempt { status := .receiptPending, ticketId := some ticketId
                           receiptAvailableAt := some receiptAvailableAt
                           nextAttemptAt := some receiptAvailableAt, sentAt := some now
                           lastErrorCode := code, lastErrorMessage := message }
  | retried {phase attempt nextAttemptAt code message} (left : attempt < phase.maxAttempts) :
      Fits phase attempt { status := phase.waiting, nextAttemptAt := some nextAttemptAt
                           lastErrorCode := code, lastErrorMessage := message }
  | closed {phase attempt status now code message} (ended : ¬ isOpenPush status)
      (delivered : status = .delivered → phase = .receipt) :
      Fits phase attempt { status := status, completedAt := some now
                           lastErrorCode := code, lastErrorMessage := message }

/-- What every statement but a claim makes of a job. -/
structure Tended (row row' : PushOutbox) : Prop where
  invariant : JobInvariant row'
  became : Became row row'
  attempts : ∀ phase : PushPhase, phase.attempts row' = phase.attempts row

theorem Tended.refl (h : JobInvariant row) : Tended row row := ⟨h, .refl row, fun _ => rfl⟩

theorem Tended.trans (h : Tended row row') (h' : Tended row' row'') : Tended row row'' where
  invariant := h'.invariant
  became := h.became.trans h'.became
  attempts phase := (h'.attempts phase).trans (h.attempts phase)

/-- A job that is claimed afterwards was so before, for the same attempt. -/
theorem Tended.held (h : Tended row row') (hstatus : row'.status = phase.status) :
    row' = { row with pushTokenId := row'.pushTokenId } :=
  h.became.held phase hstatus (h.attempts phase)

/-- No worker has ever claimed the job. -/
def Unclaimed (row : PushOutbox) : Prop :=
  ∀ phase : PushPhase, phase.attempts row = 0 ∧ row.status ≠ phase.status

theorem Tended.unclaimed (h : Tended row row') (hrow : Unclaimed row) : Unclaimed row' := by
  intro phase
  obtain ⟨hnone, hfree⟩ := hrow phase
  refine ⟨(h.attempts phase).trans hnone, fun hclaimed => hfree ?_⟩
  exact h.became.status_of_held hclaimed (h.attempts phase)

/-- A job is cancelled. -/
theorem tended_cancel (now : Timestamp) (hopen : isOpenPush row.status) :
    Tended row (cancelPush now row) where
  invariant := by
    constructor
    · simp only [cancelPush, Option.isSome_none, Bool.false_eq_true, false_iff, not_exists]
      intro phase
      cases phase <;> decide
    · simp only [cancelPush, Option.isSome_some, true_iff]
      decide
    · rintro (hstatus | hstatus) <;> cases hstatus
    · intro haccepted
      cases haccepted
    · intro phase hstatus
      cases phase <;> cases hstatus
  became := by
    constructor
    · rfl
    · exact ⟨rfl, rfl, rfl⟩
    · exact Or.inl rfl
    · exact fun _ => rfl
    · intro phase
      cases phase <;> exact Nat.le_refl _
    · intro phase hstatus _
      cases phase <;> cases hstatus
    · exact fun hclosed => absurd hopen hclosed
  attempts phase := by cases phase <;> rfl

/-- A job loses its reference to a push token. -/
theorem tended_untie (h : JobInvariant row) : Tended row { row with pushTokenId := none } where
  invariant := ⟨h.leased, h.completed, h.unsent, h.accepted, fun phase hstatus => by
    have hleft := h.left phase hstatus
    cases phase <;> exact hleft⟩
  became := by
    constructor
    · rfl
    · exact ⟨rfl, rfl, rfl⟩
    · exact Or.inr rfl
    · exact fun _ => rfl
    · intro phase
      cases phase <;> exact Nat.le_refl _
    · exact fun _ _ _ => rfl
    · exact fun _ => rfl
  attempts phase := by cases phase <;> rfl

/-- A job that waits to be sent goes to another token. -/
theorem tended_move (token : String) (h : JobInvariant row) (hqueued : row.status = .queued) :
    Tended row { row with tokenSnapshot := token } where
  invariant := ⟨h.leased, h.completed, h.unsent, h.accepted, fun phase hstatus => by
    have hleft := h.left phase hstatus
    cases phase <;> exact hleft⟩
  became := by
    constructor
    · rfl
    · exact ⟨rfl, rfl, rfl⟩
    · exact Or.inl rfl
    · exact fun _ => rfl
    · intro phase
      cases phase <;> exact Nat.le_refl _
    · intro phase hstatus _
      have hclaimed : row.status = phase.status := hstatus
      rw [hqueued] at hclaimed
      exact absurd hclaimed.symm (phase.status_ne_waiting .send)
    · intro hclosed
      rw [hqueued] at hclosed
      exact absurd (by decide) hclosed
  attempts phase := by cases phase <;> rfl

theorem isOpen_of_claimed (hstatus : row.status = phase.status) : isOpenPush row.status := by
  rw [hstatus]
  exact phase.isOpen_status

/-- A job that has not ended has no time of its end. -/
theorem JobInvariant.incomplete (h : JobInvariant row) (hopen : isOpenPush row.status) :
    row.completedAt = none := by
  simpa using fun hsome => h.completed.1 hsome hopen

@[simp] theorem set_attempts (values : PushOutboxValues) (row : PushOutbox) (phase : PushPhase) :
    phase.attempts (values.set row) = phase.attempts row := by
  cases phase <;> rfl

/-- A job that a result is stored for is no longer claimed. -/
theorem Fits.status_ne (h : Fits phase attempt values) (other : PushPhase) :
    values.status ≠ other.status := by
  cases h with
  | accepted => cases other <;> exact PushOutboxStatus.noConfusion
  | retried left => exact Ne.symm (other.status_ne_waiting phase)
  | closed ended =>
      rintro rfl
      exact ended other.isOpen_status

/-- Expo has taken a job that is sent. -/
theorem JobInvariant.set_accepted {ticketId : String} {time sentAt : Timestamp}
    {code message : Option (Option String)} (h : JobInvariant row) (hstatus : row.status = .sending)
    (hnamed : ticketId ≠ "") (hvalues : values = { status := .receiptPending, ticketId := some ticketId
                                                   receiptAvailableAt := some time
                                                   nextAttemptAt := some time, sentAt := some sentAt
                                                   lastErrorCode := code, lastErrorMessage := message }) :
    JobInvariant (values.set row) := by
  subst hvalues
  have hsending : row.status = PushPhase.send.status := hstatus
  have hincomplete := h.incomplete (isOpen_of_claimed hsending)
  obtain ⟨-, -, -, hunasked⟩ := h.unsent (Or.inr hstatus)
  constructor
  · simp only [PushOutboxValues.set, Option.isSome_none, Bool.false_eq_true, false_iff, not_exists]
    intro other
    cases other <;> exact PushOutboxStatus.noConfusion
  · simp [PushOutboxValues.set, hincomplete, isOpenPush]
  · rintro (hqueued | hsending)
    · cases hqueued
    · cases hsending
  · intro _
    simp [PushOutboxValues.set, hnamed]
  · intro other hwaiting
    cases other with
    | send => cases hwaiting
    | receipt =>
        have hleft : row.receiptAttempts < maxPushReceiptAttempts := by
          rw [hunasked]
          decide
        exact hleft

/-- A job that will be tried again. -/
theorem JobInvariant.set_retried {time : Timestamp} {code message : Option (Option String)}
    (h : JobInvariant row) (hstatus : row.status = phase.status)
    (hleft : phase.attempts row < phase.maxAttempts)
    (hvalues : values = { status := phase.waiting, nextAttemptAt := some time
                          lastErrorCode := code, lastErrorMessage := message }) :
    JobInvariant (values.set row) := by
  subst hvalues
  have hincomplete := h.incomplete (isOpen_of_claimed hstatus)
  have hwaits := phase.isOpen_waiting
  constructor
  · simp only [PushOutboxValues.set, Option.isSome_none, Bool.false_eq_true, false_iff, not_exists]
    exact fun other => Ne.symm (other.status_ne_waiting phase)
  · simp [PushOutboxValues.set, hincomplete, hwaits]
  · intro hunsent
    cases phase with
    | send => simpa [PushOutboxValues.set] using h.unsent (Or.inr hstatus)
    | receipt => simp [PushOutboxValues.set, PushPhase.waiting] at hunsent
  · intro haccepted
    cases phase with
    | send => cases haccepted
    | receipt =>
        have hbefore : wasAccepted row.status := by
          rw [hstatus]
          rfl
        simpa [PushOutboxValues.set] using h.accepted hbefore
  · intro other hwaiting
    have hsame : phase = other := by
      cases phase <;> cases other <;> first | rfl | cases hwaiting
    rw [set_attempts, ← hsame]
    exact hleft

/-- A job that ends. -/
theorem JobInvariant.set_closed {status : PushOutboxStatus} {time : Timestamp}
    {code message : Option (Option String)} (h : JobInvariant row) (hstatus : row.status = phase.status)
    (hended : ¬ isOpenPush status) (hdelivered : status = .delivered → phase = .receipt)
    (hvalues : values = { status := status, completedAt := some time
                          lastErrorCode := code, lastErrorMessage := message }) :
    JobInvariant (values.set row) := by
  subst hvalues
  constructor
  · simp only [PushOutboxValues.set, Option.isSome_none, Bool.false_eq_true, false_iff, not_exists]
    rintro other rfl
    exact hended other.isOpen_status
  · simpa [PushOutboxValues.set] using hended
  · intro hunsent
    have hopen : isOpenPush status := by
      rcases hunsent with hqueued | hsending
      · have hqueued : status = .queued := hqueued
        rw [hqueued]
        rfl
      · have hsending : status = .sending := hsending
        rw [hsending]
        rfl
    exact absurd hopen hended
  · intro haccepted
    have hended' : status = .delivered := by
      have haccepted : wasAccepted status := haccepted
      cases status with
      | delivered => rfl
      | receiptPending => exact absurd rfl hended
      | receiptChecking => exact absurd rfl hended
      | queued => cases haccepted
      | sending => cases haccepted
      | failedPermanent => cases haccepted
      | exhausted => cases haccepted
      | cancelled => cases haccepted
    have hbefore : wasAccepted row.status := by
      rw [hstatus, hdelivered hended']
      rfl
    simpa [PushOutboxValues.set] using h.accepted hbefore
  · intro other hwaiting
    have hwaiting : status = other.waiting := hwaiting
    rw [hwaiting] at hended
    exact absurd other.isOpen_waiting hended

/-- The result of an attempt is stored. -/
theorem tended_set (h : JobInvariant row) (hstatus : row.status = phase.status)
    (hfits : Fits phase (phase.attempts row) values) : Tended row (values.set row) where
  invariant := by
    cases hfits with
    | accepted named => exact h.set_accepted hstatus named rfl
    | retried left => exact h.set_retried hstatus left rfl
    | closed ended delivered => exact h.set_closed hstatus ended delivered rfl
  became := by
    constructor
    · rfl
    · exact ⟨rfl, rfl, rfl⟩
    · exact Or.inl rfl
    · intro hticket
      cases hfits with
      | accepted => exact absurd (h.unsent (Or.inr hstatus)).1 hticket
      | retried => rfl
      | closed => rfl
    · intro other
      rw [set_attempts]
    · exact fun other hclaimed _ => absurd hclaimed (hfits.status_ne other)
    · exact fun hclosed => absurd (isOpen_of_claimed hstatus) hclosed
  attempts := set_attempts values row

/-! ### A claim -/

/-- A job that is due waits or is claimed with a lease that has run out. -/
theorem due_cases (h : phase.due now row) : row.status = phase.waiting ∨
    row.status = phase.status ∧ ∃ lease, row.leaseExpiresAt = some lease ∧ lease ≤ now := by
  cases phase with
  | send =>
      simp only [PushPhase.due, sendDue, decide_eq_true_eq, Option.any_eq_true] at h
      rcases h with ⟨hqueued, -⟩ | ⟨hsending, lease, hlease, hle⟩
      · exact Or.inl hqueued
      · exact Or.inr ⟨hsending, lease, hlease, hle⟩
  | receipt =>
      simp only [PushPhase.due, receiptDue, decide_eq_true_eq, Option.any_eq_true] at h
      rcases h with ⟨hpending, -⟩ | ⟨hchecking, lease, hlease, hle⟩
      · exact Or.inl hpending
      · exact Or.inr ⟨hchecking, lease, hlease, hle⟩

section Mark

variable {leaseExpiresAt : Timestamp}

@[simp] theorem mark_id : (phase.mark leaseExpiresAt row).id = row.id := by
  cases phase <;> rfl

@[simp] theorem mark_status : (phase.mark leaseExpiresAt row).status = phase.status := by
  cases phase <;> rfl

@[simp] theorem mark_attempts :
    phase.attempts (phase.mark leaseExpiresAt row) = phase.attempts row + 1 := by
  cases phase <;> rfl

theorem mark_attempts_le (other : PushPhase) :
    other.attempts row ≤ other.attempts (phase.mark leaseExpiresAt row) := by
  cases phase <;> cases other <;> simp [PushPhase.attempts, PushPhase.mark, markSending, markChecking]

theorem mark_attempts_other {other : PushPhase} (hother : other ≠ phase) :
    other.attempts (phase.mark leaseExpiresAt row) = other.attempts row := by
  cases phase <;> cases other <;> first | rfl | exact absurd rfl hother

theorem JobInvariant.mark (h : JobInvariant row) (hdue : phase.due now row) :
    JobInvariant (phase.mark leaseExpiresAt row) := by
  have hopen : isOpenPush row.status := by
    rcases due_cases hdue with hstatus | ⟨hstatus, -⟩
    · rw [hstatus]
      exact phase.isOpen_waiting
    · exact isOpen_of_claimed hstatus
  have hincomplete := h.incomplete hopen
  cases phase with
  | send =>
      have hunsent : row.status = .queued ∨ row.status = .sending := by
        rcases due_cases hdue with hstatus | ⟨hstatus, -⟩
        · exact Or.inl hstatus
        · exact Or.inr hstatus
      constructor
      · exact ⟨fun _ => ⟨.send, rfl⟩, fun _ => rfl⟩
      · simp [PushPhase.mark, markSending, hincomplete, isOpenPush]
      · exact fun _ => h.unsent hunsent
      · intro haccepted
        cases haccepted
      · intro other hwaiting
        cases other <;> cases hwaiting
  | receipt =>
      have haccepted : wasAccepted row.status := by
        rcases due_cases hdue with hstatus | ⟨hstatus, -⟩
        · rw [hstatus]
          rfl
        · rw [hstatus]
          rfl
      constructor
      · exact ⟨fun _ => ⟨.receipt, rfl⟩, fun _ => rfl⟩
      · simp [PushPhase.mark, markChecking, hincomplete, isOpenPush]
      · rintro (hstatus | hstatus) <;> cases hstatus
      · exact fun _ => h.accepted haccepted
      · intro other hwaiting
        cases other <;> cases hwaiting

theorem became_mark (hdue : phase.due now row) : Became row (phase.mark leaseExpiresAt row) where
  notificationId := by cases phase <;> rfl
  content := by cases phase <;> exact ⟨rfl, rfl, rfl⟩
  pushTokenId := by cases phase <;> exact Or.inl rfl
  ticketId _ := by cases phase <;> rfl
  attempts := mark_attempts_le
  held := by
    intro other hstatus hattempts
    rw [mark_status] at hstatus
    obtain rfl := PushPhase.status_injective hstatus
    rw [mark_attempts] at hattempts
    omega
  ended := by
    intro hclosed
    rcases due_cases hdue with hstatus | ⟨hstatus, -⟩
    · rw [hstatus] at hclosed
      exact absurd phase.isOpen_waiting hclosed
    · exact absurd (isOpen_of_claimed hstatus) hclosed

end Mark

/-! ### Jobs are not forgotten -/

/-- A job that has not ended is due from some time on, unless something happens to it. -/
theorem JobInvariant.eventually_due (h : JobInvariant row) (hopen : isOpenPush row.status) :
    ∃ (phase : PushPhase) (time : Timestamp), ∀ now, time ≤ now → phase.due now row := by
  obtain ⟨phase, hwaiting | hclaimed⟩ := (isOpenPush_iff _).1 hopen
  · refine ⟨phase, ?_⟩
    cases phase with
    | send =>
        refine ⟨row.nextAttemptAt, fun now hnow => ?_⟩
        have hqueued : row.status = .queued := hwaiting
        simp [PushPhase.due, sendDue, hqueued, hnow]
    | receipt =>
        have hpending : row.status = .receiptPending := hwaiting
        obtain ⟨-, -, havailable⟩ := h.accepted (by rw [hpending]; rfl)
        obtain ⟨available, hsome⟩ := Option.isSome_iff_exists.1 havailable
        refine ⟨max available row.nextAttemptAt, fun now hnow => ?_⟩
        obtain ⟨hfirst, hsecond⟩ := max_le_iff.1 hnow
        simp [PushPhase.due, receiptDue, hpending, hsome, hfirst, hsecond]
  · obtain ⟨lease, hlease⟩ := Option.isSome_iff_exists.1 (h.leased.2 ⟨phase, hclaimed⟩)
    refine ⟨phase, lease, fun now hnow => ?_⟩
    cases phase with
    | send =>
        have hsending : row.status = .sending := hclaimed
        simp [PushPhase.due, sendDue, hsending, hlease, hnow]
    | receipt =>
        have hchecking : row.status = .receiptChecking := hclaimed
        simp [PushPhase.due, receiptDue, hchecking, hlease, hnow]

end ChatTea.Notification
