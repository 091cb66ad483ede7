import ChatTea.Auth.Reset

/-!
# Phone codes

A code is guessed at a few times at most and used up once, for the purpose it was
requested for. The bounds count what the threads have entered in the history, so they
hold of all calls together.

## Main definitions

* `CodeChange` — what one step does to the codes
* `CodeInvariant` — the claims and the successes of each code
* `Usable`, `Authorises` — what a success needs, and what a failed reset keeps

## Main results

* `keeps_codeInvariant` — it holds in every run
* `code_authorises_once` — claims and successes under every interleaving
-/

namespace ChatTea.Auth

open History Interleaving Phone RowLocks Table Transaction

variable {config : AuthConfig} {request : AuthRequest} {pid : ℕ} {w : World} {s : AuthState}
  {trace : Trace} {tables : AuthTables} {id : RowId}

/-! ### What one step does to the codes -/

/-- The entry is one of a code that is used up. -/
def isSuccessOf (id : RowId) : Event → Bool
  | .verifiedCode other _ => other = id
  | .resetPassword other _ => other = id
  | _ => false

/-- The entries by which codes are judged. -/
def Event.ofCode : Event → Bool
  | .reservedCode _ | .claimedAttempt _ _ | .verifiedCode _ _ | .resetPassword _ _ => true
  | _ => false

theorem Succeeds.isSuccessOf {purposes : List String} {event : Event}
    (h : Succeeds id purposes event) : isSuccessOf id event := by
  cases h <;> exact decide_eq_true rfl

theorem Succeeds.ofCode {purposes : List String} {event : Event} (h : Succeeds id purposes event) :
    Event.ofCode event := by
  cases h <;> rfl

theorem exists_succeeds {event : Event} (h : isSuccessOf id event) :
    ∃ purposes, Succeeds id purposes event := by
  cases event with
  | verifiedCode other now =>
      obtain rfl := of_decide_eq_true h
      exact ⟨_, .verified now⟩
  | resetPassword other userId =>
      obtain rfl := of_decide_eq_true h
      exact ⟨_, .reset userId⟩
  | _ => cases h

def isClaim : Event → Bool
  | .claimedAttempt _ _ => true
  | _ => false

/-- The thread has claimed an attempt at the code, which had been sent, for one of the
purposes. -/
def ClaimedFor (pid : ℕ) (log : List (ℕ × Event)) (id : RowId) (purposes : List String) : Prop :=
  ∃ row, row.id = id ∧ row.codeHash ≠ "pending" ∧ (pid, .claimedAttempt row purposes) ∈ log

inductive CodeChange (pid : ℕ) (s : AuthState) : List Event → List PhoneVerification → Prop
  | kept {events} (quiet : ∀ event ∈ events, ¬ Event.ofCode event) :
      CodeChange pid s events s.tables.verifications
  | reserved {row} (isNew : IsNewVerification row.id s.log) (unclaimed : row.attemptCount = 0) :
      CodeChange pid s [.reservedCode row] (s.tables.verifications ++ [row])
  | activated {codeHash expiresAt} (cond : PhoneVerification → Bool)
      (pending : ∀ row, cond row → row.codeHash = "pending") (sent : codeHash ≠ "pending") :
      CodeChange pid s [] (updateWhere cond (activateColumns codeHash expiresAt)
        s.tables.verifications)
  | deleted (keep : PhoneVerification → Bool) :
      CodeChange pid s [] (s.tables.verifications.filter keep)
  | claimed {row purposes} (cond : PhoneVerification → Bool)
      (mem : row ∈ s.tables.verifications) (current : cond row)
      (only : ∀ other, cond other → other.id = row.id) (purpose : row.purpose ∈ purposes)
      (under : row.attemptCount < 5)
      (first : ∀ row purposes, (pid, .claimedAttempt row purposes) ∉ s.log) :
      CodeChange pid s [.claimedAttempt (countAttempt row) purposes]
        (updateWhere cond countAttempt s.tables.verifications)
  | succeeded {row purposes event verifiedAt} (cond : PhoneVerification → Bool)
      (mem : row ∈ s.tables.verifications) (current : cond row)
      (only : ∀ other, cond other → other.id = row.id) (unverified : row.verifiedAt = none)
      (succeeds : Succeeds row.id purposes event) (claimed : ClaimedFor pid s.log row.id purposes) :
      CodeChange pid s [event] (updateWhere cond (verifyColumns verifiedAt) s.tables.verifications)

/-- A row with the identifier was reserved. -/
def WasReserved (id : RowId) (log : List (ℕ × Event)) : Prop :=
  ∃ q row, (q, .reservedCode row) ∈ log ∧ row.id = id

/-- The code of the row was sent, and has not expired at a time. -/
structure Unexpired (id : RowId) (now : Timestamp) (s : AuthState) : Prop where
  reserved : WasReserved id s.log
  row : ∀ row ∈ s.tables.verifications, row.id = id → row.codeHash ≠ "pending" ∧ now < row.expiresAt

/-- What has been claimed of the codes and what they have authorised. -/
structure CodeInvariant (s : AuthState) : Prop where
  unique : UniqueKey PhoneVerification.id s.tables.verifications
  reserved : ∀ row ∈ s.tables.verifications, WasReserved row.id s.log
  entered : ∀ {p event id}, (p, event) ∈ s.log → isClaimOf id event ∨ isSuccessOf id event →
    WasReserved id s.log
  purpose : ∀ {p row purposes}, (p, .claimedAttempt row purposes) ∈ s.log →
    row.purpose ∈ purposes ∧
      ∀ other ∈ s.tables.verifications, other.id = row.id → other.purpose = row.purpose
  activated : ∀ {p row purposes}, (p, .claimedAttempt row purposes) ∈ s.log →
    row.codeHash ≠ "pending" →
      ∀ other ∈ s.tables.verifications, other.id = row.id → other.codeHash ≠ "pending"
  claims : ∀ p, (own p s.log).countP isClaim ≤ 1
  counted : ∀ row ∈ s.tables.verifications, count (isClaimOf row.id) s.log = row.attemptCount
  attempts : ∀ id, count (isClaimOf id) s.log ≤ 5
  unused : ∀ row ∈ s.tables.verifications, row.verifiedAt = none →
    count (isSuccessOf row.id) s.log = 0
  once : ∀ id, count (isSuccessOf id) s.log ≤ 1
  accepted : ∀ {p id now}, (p, .acceptedCode id now) ∈ s.log →
    ClaimedFor p s.log id ["password_reset"]
  unexpired : ∀ {p id now}, (p, .acceptedCode id now) ∈ s.log → Unexpired id now s
  preceded : ∀ {p id purposes event}, (p, event) ∈ s.log → Succeeds id purposes event →
    ∃ row, row.id = id ∧ After s.log (p, event) (p, .claimedAttempt row purposes)

/-- A guess was claimed. -/
theorem Guessed.claimedFor {purposes : List String} (h : Guessed pid w id purposes) :
    ClaimedFor pid w.log id purposes := by
  obtain ⟨row, hid, hsent, hclaimed, -⟩ := h
  exact ⟨row, hid, hsent, hclaimed⟩

/-- A row that a thread has guessed is one of a code that had been sent. -/
theorem Guessed.sent {purposes : List String} (hinv : CodeInvariant (authState w))
    (h : Guessed pid w id purposes) :
    ∀ row ∈ w.db.phoneVerifications, row.id = id → row.codeHash ≠ "pending" := by
  obtain ⟨claimed, hclaimed, hsent, hentry, -⟩ := h
  exact fun row hmem hid => hinv.activated hentry hsent row hmem (hid.trans hclaimed.symm)

/-- A row that a thread has guessed and may verify has not expired. -/
theorem Guessed.unexpired {purposes : List String} {now : Timestamp} {row : PhoneVerification}
    (hinv : CodeInvariant (authState w)) (h : Guessed pid w id purposes)
    (hmem : row ∈ w.db.phoneVerifications) (hcan : canVerify id now w.db row) :
    Unexpired id now (authState w) where
  reserved := by
    rw [← (of_decide_eq_true hcan).1]
    exact hinv.reserved row hmem
  row := by
    intro other hother hid
    obtain ⟨hsame, -, hnow, -⟩ := of_decide_eq_true hcan
    obtain rfl := hinv.unique.eq_of_key hother hmem (hid.trans hsame.symm)
    exact ⟨h.sent hinv other hother hid, hnow⟩

theorem isLatest_row {db : Database} {row : PhoneVerification} {now : Timestamp}
    (h : canVerify id now db row) : row.id = id ∧ row.verifiedAt = none :=
  ⟨(of_decide_eq_true h).1, (of_decide_eq_true h).2.1⟩

/-- A change as it bears on the codes. -/
theorem AuthChange.code (hinv : CodeInvariant (authState w))
    (h : AuthChange config request pid w trace tables) :
    CodeChange pid (authState w) trace.events tables.verifications := by
  cases h with
  | reservedCode call reserves => exact .reserved reserves.isNew reserves.unclaimed
  | activatedCode call sent =>
      exact .activated _ (fun row hcond => (of_decide_eq_true hcond).2.1) sent
  | deletedCode call => exact .deleted _
  | claimedAttempt call mem current reading first =>
      obtain ⟨hid, -, hpurpose, -, -, hunder, -⟩ := of_decide_eq_true current
      refine .claimed _ mem current (fun other hcond => ?_) hpurpose hunder first
      exact (of_decide_eq_true hcond).1.trans hid.symm
  | verifiedCode call mem current guessed =>
      obtain ⟨rfl, hunverified⟩ := isLatest_row current
      refine .succeeded _ mem current (fun other hcond => ?_) hunverified (.verified _)
        guessed.claimedFor
      exact (isLatest_row hcond).1
  | resetPassword call accepted mem same unverified owner phone hashed all =>
      rw [← same]
      rw [← same] at accepted
      refine .succeeded _ mem (decide_eq_true rfl) (fun other hcond => ?_) unverified (.reset _)
        (hinv.accepted accepted)
      exact of_decide_eq_true hcond
  | rotatedSession call busy signed name validated current =>
      exact .kept (by simp [rotationTrace, Event.ofCode])
  | _ => exact .kept (by simp [Event.ofCode])

/-! ### What the changes keep -/

section Change

variable {events : List Event} {rows : List PhoneVerification}

theorem WasReserved.enter (h : WasReserved id s.log) :
    WasReserved id (s.enter pid trace tables).log := by
  obtain ⟨q, row, hmem, hid⟩ := h
  exact ⟨q, row, List.mem_append_right _ hmem, hid⟩

theorem ClaimedFor.enter {p : ℕ} {purposes : List String} (h : ClaimedFor p s.log id purposes) :
    ClaimedFor p (s.enter pid trace tables).log id purposes := by
  obtain ⟨row, hid, hsent, hmem⟩ := h
  exact ⟨row, hid, hsent, List.mem_append_right _ hmem⟩

theorem countP_of_quiet (hquiet : ∀ event ∈ events, ¬ Event.ofCode event) (id : RowId) :
    events.countP (isClaimOf id) = 0 ∧ events.countP (isSuccessOf id) = 0 := by
  constructor
  · refine List.countP_eq_zero.2 fun event hmem hclaim => hquiet event hmem ?_
    cases event <;> first | rfl | cases hclaim
  · refine List.countP_eq_zero.2 fun event hmem hsuccess => hquiet event hmem ?_
    obtain ⟨_, hsucceeds⟩ := exists_succeeds hsuccess
    exact hsucceeds.ofCode

/-- A row of which a change claims or verifies another one is not counted. -/
theorem isClaimOf_countAttempt {row : PhoneVerification} {purposes : List String} :
    isClaimOf id (.claimedAttempt (countAttempt row) purposes) = decide (row.id = id) := rfl

theorem Succeeds.isSuccessOf_eq {purposes : List String} {event : Event} {other : RowId}
    (h : Succeeds id purposes event) : Auth.isSuccessOf other event = decide (id = other) := by
  cases h <;> rfl

theorem Succeeds.isClaimOf_eq {purposes : List String} {event : Event} {other : RowId}
    (h : Succeeds id purposes event) : isClaimOf other event = false := by
  cases h <;> rfl

/-- A row after a change is an old one with one more attempt for each that was claimed, and
unverified only if it was and no success was entered; or it is new. -/
theorem CodeChange.row_of_mem (hinv : CodeInvariant s) (h : CodeChange pid s events rows)
    {row : PhoneVerification} (hmem : row ∈ rows) :
    (∃ old ∈ s.tables.verifications, old.id = row.id ∧ old.purpose = row.purpose ∧
      (old.codeHash ≠ "pending" → row.codeHash ≠ "pending" ∧ row.expiresAt = old.expiresAt) ∧
      row.attemptCount = old.attemptCount + events.countP (isClaimOf row.id) ∧
        (row.verifiedAt = none →
          old.verifiedAt = none ∧ events.countP (isSuccessOf row.id) = 0)) ∨
      (events = [.reservedCode row] ∧ IsNewVerification row.id s.log ∧ row.attemptCount = 0) := by
  -- A row is new, or comes from one row whose entries in the history it counts.
  cases h with
  | kept quiet =>
      obtain ⟨hclaims, hsuccesses⟩ := countP_of_quiet quiet row.id
      refine Or.inl ⟨row, hmem, rfl, rfl, fun hsent => ⟨hsent, rfl⟩, ?_, fun hnone => ⟨hnone, hsuccesses⟩⟩
      rw [hclaims, Nat.add_zero]
  | reserved isNew unclaimed =>
      rcases List.mem_append.1 hmem with hold | hnew
      · exact Or.inl ⟨row, hold, rfl, rfl, fun hsent => ⟨hsent, rfl⟩, rfl, fun hnone => ⟨hnone, rfl⟩⟩
      · obtain rfl := List.mem_singleton.1 hnew
        exact Or.inr ⟨rfl, isNew, unclaimed⟩
  | activated cond pending sent =>
      rcases mem_updateWhere.1 hmem with ⟨old, hold, hcond, rfl⟩ | ⟨hold, -⟩
      · refine Or.inl ⟨old, hold, rfl, rfl, fun hsent => ?_, rfl, fun hnone => ⟨hnone, rfl⟩⟩
        exact absurd (pending old hcond) hsent
      · exact Or.inl ⟨row, hold, rfl, rfl, fun hsent => ⟨hsent, rfl⟩, rfl, fun hnone => ⟨hnone, rfl⟩⟩
  | deleted keep =>
      exact Or.inl ⟨row, List.mem_of_mem_filter hmem, rfl, rfl, fun hsent => ⟨hsent, rfl⟩, rfl,
        fun hnone => ⟨hnone, rfl⟩⟩
  | @claimed target purposes cond mem current only purpose under first =>
      refine Or.inl ?_
      rcases mem_updateWhere.1 hmem with ⟨old, hold, hcond, rfl⟩ | ⟨hold, hnot⟩
      · refine ⟨old, hold, rfl, rfl, fun hsent => ⟨hsent, rfl⟩, ?_, fun hnone => ⟨hnone, rfl⟩⟩
        have hsame : target.id = (countAttempt old).id := (only old hcond).symm
        rw [List.countP_singleton, isClaimOf_countAttempt, decide_eq_true hsame]
        rfl
      · have hother : target.id ≠ row.id := by
          intro hsame
          rw [hinv.unique.eq_of_key hold mem hsame.symm] at hnot
          exact hnot current
        refine ⟨row, hold, rfl, rfl, fun hsent => ⟨hsent, rfl⟩, ?_, fun hnone => ⟨hnone, rfl⟩⟩
        simp [isClaimOf_countAttempt, hother]
  | @succeeded target purposes event verifiedAt cond mem current only unverified succeeds claimed =>
      refine Or.inl ?_
      rcases mem_updateWhere.1 hmem with ⟨old, hold, hcond, rfl⟩ | ⟨hold, hnot⟩
      · refine ⟨old, hold, rfl, rfl, fun hsent => ⟨hsent, rfl⟩, ?_,
          fun hnone => absurd hnone (Option.some_ne_none _)⟩
        simp [succeeds.isClaimOf_eq, verifyColumns]
      · have hother : target.id ≠ row.id := by
          intro hsame
          rw [hinv.unique.eq_of_key hold mem hsame.symm] at hnot
          exact hnot current
        refine ⟨row, hold, rfl, rfl, fun hsent => ⟨hsent, rfl⟩, ?_, fun hnone => ⟨hnone, ?_⟩⟩
        · simp [succeeds.isClaimOf_eq]
        · simp [succeeds.isSuccessOf_eq, hother]

/-- An attempt is claimed at a row that has some left, alone in its step. -/
theorem CodeChange.of_claim {event : Event} (h : CodeChange pid s events rows) (hmem : event ∈ events)
    (hclaim : isClaimOf id event) :
    events = [event] ∧ ∃ row ∈ s.tables.verifications, row.id = id ∧ row.attemptCount < 5 ∧
      ∃ purposes, row.purpose ∈ purposes ∧ event = .claimedAttempt (countAttempt row) purposes := by
  cases h with
  | kept quiet =>
      refine absurd ?_ (quiet event hmem)
      cases event <;> first | rfl | cases hclaim
  | reserved isNew unclaimed =>
      obtain rfl := List.mem_singleton.1 hmem
      cases hclaim
  | activated cond pending sent => cases hmem
  | deleted keep => cases hmem
  | @claimed target purposes cond mem current only purpose under first =>
      obtain rfl := List.mem_singleton.1 hmem
      exact ⟨rfl, target, mem, of_decide_eq_true hclaim, under, purposes, purpose, rfl⟩
  | succeeded cond mem current only unverified succeeds claimed =>
      obtain rfl := List.mem_singleton.1 hmem
      rw [succeeds.isClaimOf_eq] at hclaim
      cases hclaim

/-- A success uses up a row that is unverified, alone in its step. -/
theorem CodeChange.of_success {event : Event} {purposes : List String}
    (h : CodeChange pid s events rows) (hmem : event ∈ events) (hsucceeds : Succeeds id purposes event) :
    events = [event] ∧ ClaimedFor pid s.log id purposes ∧
      ∃ row ∈ s.tables.verifications, row.id = id ∧ row.verifiedAt = none := by
  cases h with
  | kept quiet => exact absurd hsucceeds.ofCode (quiet event hmem)
  | reserved isNew unclaimed =>
      obtain rfl := List.mem_singleton.1 hmem
      cases hsucceeds
  | activated cond pending sent => cases hmem
  | deleted keep => cases hmem
  | claimed cond mem current only purpose under first =>
      obtain rfl := List.mem_singleton.1 hmem
      cases hsucceeds
  | succeeded cond mem current only unverified succeeds claimed =>
      obtain rfl := List.mem_singleton.1 hmem
      have hid : _ = id := of_decide_eq_true (succeeds.isSuccessOf_eq.symm.trans hsucceeds.isSuccessOf)
      subst hid
      cases succeeds <;> cases hsucceeds <;> exact ⟨rfl, claimed, _, mem, rfl, unverified⟩

theorem not_wasReserved (h : IsNewVerification id s.log) : ¬ WasReserved id s.log := by
  rintro ⟨q, row, hmem, hid⟩
  exact h _ hmem row rfl hid

/-- What a change enters about a code is about one that was reserved. -/
theorem CodeChange.wasReserved (hinv : CodeInvariant s) (h : CodeChange pid s events rows)
    {event : Event} (hmem : event ∈ events) (habout : isClaimOf id event ∨ isSuccessOf id event) :
    WasReserved id s.log := by
  rcases habout with hclaim | hsuccess
  · obtain ⟨-, row, hrow, rfl, -⟩ := h.of_claim hmem hclaim
    exact hinv.reserved row hrow
  · obtain ⟨_, hsucceeds⟩ := exists_succeeds hsuccess
    obtain ⟨-, -, row, hrow, rfl, -⟩ := h.of_success hmem hsucceeds
    exact hinv.reserved row hrow

/-- A code that was sent keeps the time at which it expires. -/
theorem Unexpired.enter {now : Timestamp} (hinv : CodeInvariant s)
    (h : CodeChange pid s trace.events tables.verifications) (hunexpired : Unexpired id now s) :
    Unexpired id now (s.enter pid trace tables) where
  reserved := hunexpired.reserved.enter
  row := by
    intro row hmem hid
    rcases h.row_of_mem hinv hmem with ⟨old, hold, hold_id, -, hkept, -⟩ | ⟨-, hnew, -⟩
    · obtain ⟨hsent, hnow⟩ := hunexpired.row old hold (hold_id.trans hid)
      obtain ⟨hsent, hsame⟩ := hkept hsent
      exact ⟨hsent, hsame ▸ hnow⟩
    · rw [hid] at hnew
      exact absurd hunexpired.reserved (not_wasReserved hnew)

/-- A code that was never reserved has not been claimed and has authorised nothing. -/
theorem CodeInvariant.count_of_new (hinv : CodeInvariant s) (hnew : ¬ WasReserved id s.log) :
    count (isClaimOf id) s.log = 0 ∧ count (isSuccessOf id) s.log = 0 :=
  ⟨count_eq_zero.2 fun _ hmem hclaim => hnew (hinv.entered hmem (Or.inl hclaim)),
    count_eq_zero.2 fun _ hmem hsuccess => hnew (hinv.entered hmem (Or.inr hsuccess))⟩

theorem CodeChange.unique (hinv : CodeInvariant s) (h : CodeChange pid s events rows) :
    UniqueKey PhoneVerification.id rows := by
  cases h with
  | kept quiet => exact hinv.unique
  | reserved isNew unclaimed =>
      refine hinv.unique.append fun row hmem hsame => not_wasReserved isNew ?_
      rw [← hsame]
      exact hinv.reserved row hmem
  | activated cond pending sent => exact hinv.unique.updateWhere fun _ => rfl
  | deleted keep => exact hinv.unique.sublist (List.filter_sublist.map _)
  | claimed cond mem current only purpose under first => exact hinv.unique.updateWhere fun _ => rfl
  | succeeded cond mem current only unverified succeeds claimed =>
      exact hinv.unique.updateWhere fun _ => rfl

/-- A thread claims at most one attempt. -/
theorem CodeChange.claims (hinv : CodeInvariant s) (h : CodeChange pid s events rows) :
    events.countP isClaim + (own pid s.log).countP isClaim ≤ 1 := by
  have hold := hinv.claims pid
  cases h with
  | kept quiet =>
      have hnone : events.countP isClaim = 0 := by
        refine List.countP_eq_zero.2 fun event hmem hclaim => quiet event hmem ?_
        cases event <;> first | rfl | cases hclaim
      rwa [hnone, Nat.zero_add]
  | claimed cond mem current only purpose under first =>
      have hnone : (own pid s.log).countP isClaim = 0 := by
        refine List.countP_eq_zero.2 fun event hmem hclaim => ?_
        cases event with
        | claimedAttempt row purposes => exact first row purposes (mem_own.1 hmem)
        | _ => cases hclaim
      rw [hnone]
      exact Nat.le_refl _
  | reserved isNew unclaimed => exact hold.trans' (by simp [isClaim])
  | activated cond pending sent => exact hold.trans' (by simp)
  | deleted keep => exact hold.trans' (by simp)
  | succeeded cond mem current only unverified succeeds claimed =>
      refine hold.trans' ?_
      cases succeeds <;> simp [isClaim]

theorem CodeInvariant.enter (hinv : CodeInvariant s)
    (h : CodeChange pid s trace.events tables.verifications)
    (haccepted : ∀ id now, .acceptedCode id now ∈ trace.events →
      ClaimedFor pid s.log id ["password_reset"] ∧ Unexpired id now s) :
    CodeInvariant (s.enter pid trace tables) where
  unique := h.unique hinv
  reserved := by
    intro row hmem
    rcases h.row_of_mem hinv hmem with ⟨old, hold, hid, -⟩ | ⟨hevents, -⟩
    · rw [← hid]
      exact (hinv.reserved old hold).enter
    · refine ⟨pid, row, AuthState.mem_enter.2 (Or.inl ⟨rfl, ?_⟩), rfl⟩
      rw [hevents]
      exact List.mem_singleton_self _
  entered := by
    intro p event id hp habout
    rcases AuthState.mem_enter.1 hp with ⟨-, hnew⟩ | hold
    · exact (h.wasReserved hinv hnew habout).enter
    · exact (hinv.entered hold habout).enter
  purpose := by
    intro p row purposes hp
    -- Rows of one identifier have one purpose, before the change and after it.
    have hpurpose : row.purpose ∈ purposes ∧ WasReserved row.id s.log ∧
        ∀ other ∈ s.tables.verifications, other.id = row.id → other.purpose = row.purpose := by
      rcases AuthState.mem_enter.1 hp with ⟨-, hnew⟩ | hold
      · obtain ⟨-, target, htarget, hid, -, purposes', hmem, hevent⟩ :=
          h.of_claim hnew (decide_eq_true (rfl : row.id = row.id))
        obtain ⟨rfl, rfl⟩ := Event.claimedAttempt.inj hevent
        refine ⟨hmem, hinv.reserved target htarget, fun other hother hsame => ?_⟩
        rw [hinv.unique.eq_of_key hother htarget hsame]
        rfl
      · obtain ⟨hmem, hsame⟩ := hinv.purpose hold
        exact ⟨hmem, hinv.entered hold (Or.inl (decide_eq_true rfl)), hsame⟩
    obtain ⟨hmem, hreserved, hsame⟩ := hpurpose
    refine ⟨hmem, fun other hother hid => ?_⟩
    rcases h.row_of_mem hinv hother with ⟨old, hold, hold_id, hold_purpose, -⟩ | ⟨-, hnew, -⟩
    · rw [← hold_purpose]
      exact hsame old hold (hold_id.trans hid)
    · rw [hid] at hnew
      exact absurd hreserved (not_wasReserved hnew)
  activated := by
    intro p row purposes hp hsent other hother hid
    have hactivated : WasReserved row.id s.log ∧
        ∀ other ∈ s.tables.verifications, other.id = row.id → other.codeHash ≠ "pending" := by
      rcases AuthState.mem_enter.1 hp with ⟨-, hnew⟩ | hold
      · obtain ⟨-, target, htarget, hid, -, purposes', -, hevent⟩ :=
          h.of_claim hnew (decide_eq_true (rfl : row.id = row.id))
        obtain ⟨rfl, rfl⟩ := Event.claimedAttempt.inj hevent
        refine ⟨hinv.reserved target htarget, fun other hother hsame => ?_⟩
        rw [hinv.unique.eq_of_key hother htarget hsame]
        exact hsent
      · exact ⟨hinv.entered hold (Or.inl (decide_eq_true rfl)), hinv.activated hold hsent⟩
    rcases h.row_of_mem hinv hother with ⟨old, hold, hold_id, -, hkept, -⟩ | ⟨-, hnew, -⟩
    · exact (hkept (hactivated.2 old hold (hold_id.trans hid))).1
    · rw [hid] at hnew
      exact absurd hactivated.1 (not_wasReserved hnew)
  claims := by
    intro p
    by_cases hp : p = pid
    · subst hp
      rw [AuthState.enter, own_stamp_append_self, List.countP_append]
      exact h.claims hinv
    · rw [AuthState.enter, own_stamp_append_other hp]
      exact hinv.claims p
  counted := by
    intro row hmem
    rw [AuthState.enter, count_stamp_append]
    rcases h.row_of_mem hinv hmem with ⟨old, hold, hid, -, -, hattempts, -⟩ | ⟨hevents, hnew, hzero⟩
    · rw [hattempts, ← hinv.counted old hold, hid, Nat.add_comm]
    · rw [hevents, (hinv.count_of_new (not_wasReserved hnew)).1, hzero]
      rfl
  attempts := by
    intro id
    rw [AuthState.enter, count_stamp_append]
    by_cases hclaim : ∃ event ∈ trace.events, isClaimOf id event
    · obtain ⟨event, hmem, hclaim⟩ := hclaim
      obtain ⟨hevents, row, hrow, rfl, hunder, -⟩ := h.of_claim hmem hclaim
      rw [hevents, List.countP_singleton, if_pos hclaim, hinv.counted row hrow]
      omega
    · have hnone : trace.events.countP (isClaimOf id) = 0 :=
        List.countP_eq_zero.2 fun event hmem hevent => hclaim ⟨event, hmem, hevent⟩
      rw [hnone, Nat.zero_add]
      exact hinv.attempts id
  unused := by
    intro row hmem hunverified
    rw [AuthState.enter, count_stamp_append]
    rcases h.row_of_mem hinv hmem with ⟨old, hold, hid, -, -, -, hkept⟩ | ⟨hevents, hnew, -⟩
    · obtain ⟨hnone, hzero⟩ := hkept hunverified
      rw [hzero, ← hid, hinv.unused old hold hnone]
    · rw [hevents, (hinv.count_of_new (not_wasReserved hnew)).2]
      rfl
  once := by
    intro id
    rw [AuthState.enter, count_stamp_append]
    by_cases hsuccess : ∃ event ∈ trace.events, isSuccessOf id event
    · obtain ⟨event, hmem, hsuccess⟩ := hsuccess
      obtain ⟨purposes, hsucceeds⟩ := exists_succeeds hsuccess
      obtain ⟨hevents, -, row, hrow, rfl, hunverified⟩ := h.of_success hmem hsucceeds
      rw [hevents, List.countP_singleton, if_pos hsuccess, hinv.unused row hrow hunverified]
    · have hnone : trace.events.countP (isSuccessOf id) = 0 :=
        List.countP_eq_zero.2 fun event hmem hevent => hsuccess ⟨event, hmem, hevent⟩
      rw [hnone, Nat.zero_add]
      exact hinv.once id
  accepted := by
    intro p id now hp
    rcases AuthState.mem_enter.1 hp with ⟨rfl, hnew⟩ | hold
    · exact (haccepted id now hnew).1.enter
    · exact (hinv.accepted hold).enter
  unexpired := by
    intro p id now hp
    rcases AuthState.mem_enter.1 hp with ⟨-, hnew⟩ | hold
    · exact (haccepted id now hnew).2.enter hinv h
    · exact (hinv.unexpired hold).enter hinv h
  preceded := by
    intro p id purposes event hp hsucceeds
    rcases AuthState.mem_enter.1 hp with ⟨rfl, hnew⟩ | hold
    · obtain ⟨hevents, ⟨row, hid, -, hmem⟩, -⟩ := h.of_success hnew hsucceeds
      refine ⟨row, hid, ?_⟩
      rw [AuthState.enter, hevents]
      exact after_cons.2 (Or.inr ⟨rfl, hmem⟩)
    · obtain ⟨row, hid, hafter⟩ := hinv.preceded hold hsucceeds
      exact ⟨row, hid, hafter.append _⟩

end Change

/-! ### Every run -/

theorem keeps_codeInvariant (config : AuthConfig) : Keeps config anyStep CodeInvariant where
  change := by
    intro request pid w trace tables after _ hchange _ _ hinv
    refine hinv.enter (hchange.code hinv) fun id now haccepted => ?_
    cases hchange with
    | acceptedCode call mem current guessed =>
        obtain ⟨rfl, rfl⟩ := Event.acceptedCode.inj (List.mem_singleton.1 haccepted)
        exact ⟨guessed.claimedFor, guessed.unexpired hinv mem (of_decide_eq_true current).1⟩
    | rotatedSession call busy signed name validated current => cases List.mem_singleton.1 haccepted
    | _ => simp at haccepted
  forget := fun _ hinv => ⟨hinv.unique, hinv.reserved, hinv.entered, hinv.purpose, hinv.activated,
    hinv.claims, hinv.counted, hinv.attempts, hinv.unused, hinv.once, hinv.accepted,
    fun hmem => ⟨(hinv.unexpired hmem).reserved, (hinv.unexpired hmem).row⟩, hinv.preceded⟩

theorem codeInvariant_start {db : Database} (hnone : db.phoneVerifications = []) :
    CodeInvariant (startState db) := by
  have hrows : (startState db).tables.verifications = [] := hnone
  have hmem {row : PhoneVerification} : row ∉ (startState db).tables.verifications := by
    rw [hrows]
    exact List.not_mem_nil
  have hlog {entry : ℕ × Event} : entry ∉ (startState db).log := List.not_mem_nil
  refine ⟨?_, fun _ h => absurd h hmem, fun h => absurd h hlog, fun h => absurd h hlog,
    fun h => absurd h hlog, fun _ => Nat.zero_le _, fun _ h => absurd h hmem,
    fun _ => Nat.zero_le _, fun _ h => absurd h hmem, fun _ => Nat.zero_le _,
    fun h => absurd h hlog, fun h => absurd h hlog, fun h => absurd h hlog⟩
  rw [hrows]
  exact List.nodup_nil

/-! ### When a code is used up -/

/-- A code that may authorise: it was sent, it has not expired at a time, it has authorised
nothing, and its phone has no newer row. -/
def Usable (id : RowId) (now : Timestamp) (db : Database) : Prop :=
  ∃ row ∈ db.phoneVerifications, row.id = id ∧ row.codeHash ≠ "pending" ∧ now < row.expiresAt ∧
    row.verifiedAt = none ∧ isLatest db row

/-- A password reset that does not commit changes no account and no session, and of the codes
at most the attempts at the one it claims. -/
inductive ResetKeeps (pid : ℕ) (before after : World) : Prop
  | kept (users : after.db.users = before.db.users)
      (sessions : after.db.refreshTokens = before.db.refreshTokens)
      (codes : after.db.phoneVerifications = before.db.phoneVerifications)
  | claimed {row} (users : after.db.users = before.db.users)
      (sessions : after.db.refreshTokens = before.db.refreshTokens)
      (entered : after.log = (pid, .claimedAttempt (countAttempt row) ["password_reset"]) ::
        before.log)
      (mem : row ∈ before.db.phoneVerifications)
      (codes : after.db.phoneVerifications =
        updateWhere (fun other => other.id = row.id) countAttempt before.db.phoneVerifications)

/-- What a step of a call does about codes: the entries it makes, each of a code that is
usable then, and of a password reset that does not commit, what it keeps. -/
structure Authorises (request : AuthRequest) (pid : ℕ) (events : List Event)
    (before after : World) : Prop where
  entered : after.log = stamp pid events ++ before.log
  verified : ∀ id now, .verifiedCode id now ∈ events → before.clocks now ∧ Usable id now before.db
  accepted : ∀ id now, .acceptedCode id now ∈ events → before.clocks now ∧ Usable id now before.db
  reset : ∀ id userId, .resetPassword id userId ∈ events →
    ∃ now, (pid, .acceptedCode id now) ∈ before.log ∧ ∃ row ∈ before.db.phoneVerifications,
      row.id = id ∧ row.codeHash ≠ "pending" ∧ now < row.expiresAt ∧ row.verifiedAt = none
  keeps : (∃ input, request = .resetPasswordWithPhone input) →
    (∃ id userId, .resetPassword id userId ∈ events) ∨ ResetKeeps pid before after

/-- A row that a thread has guessed and may verify is usable: the guess was one of a code that
had been sent. -/
theorem Guessed.usable {purposes : List String} {now : Timestamp} {row : PhoneVerification}
    (hinv : CodeInvariant (authState w)) (h : Guessed pid w id purposes)
    (hmem : row ∈ w.db.phoneVerifications) (hcan : canVerify id now w.db row) :
    Usable id now w.db := by
  obtain ⟨hid, hunverified, hunexpired, -, hlatest⟩ := of_decide_eq_true hcan
  exact ⟨row, hmem, hid, h.sent hinv row hmem hid, hunexpired, hunverified, hlatest⟩

theorem AuthChange.resetKeeps {input : ResetPasswordInput} {after : World}
    (hinv : CodeInvariant (authState w))
    (h : AuthChange config (.resetPasswordWithPhone input) pid w trace tables)
    (htables : authTables after.db = tables) (hlog : after.log = stamp pid trace.events ++ w.log) :
    (∃ id userId, .resetPassword id userId ∈ trace.events) ∨ ResetKeeps pid w after := by
  have hkept (husers : tables.users = w.db.users) (hsessions : tables.sessions = w.db.refreshTokens)
      (hcodes : tables.verifications = w.db.phoneVerifications) : ResetKeeps pid w after := by
    subst htables
    exact .kept husers hsessions hcodes
  cases h with
  | resetPassword call accepted mem same unverified owner phone hashed all =>
      exact Or.inl ⟨_, _, List.mem_singleton_self _⟩
  | @claimedAttempt claim now row call mem current reading first =>
      have hpurposes : ["password_reset"] = claim.purposes := Option.some.inj call
      rw [← hpurposes] at hlog
      refine Or.inr (.claimed (congrArg AuthTables.users htables)
        (congrArg AuthTables.sessions htables) hlog mem ?_)
      have hcodes : after.db.phoneVerifications = _ := congrArg AuthTables.verifications htables
      rw [hcodes]
      refine updateWhere_congr fun other hother => ?_
      -- The row that may be claimed is the only one with its identifier.
      by_cases hsame : other.id = row.id
      · rw [hinv.unique.eq_of_key hother mem hsame, current]
        exact (decide_eq_true rfl).symm
      · rw [decide_eq_false hsame]
        refine decide_eq_false fun hcond => hsame ?_
        exact hcond.1.trans (of_decide_eq_true current).1.symm
  | savedSession call busy signed name => cases call
  | rotatedSession call busy signed name validated current => cases call
  | deletedSession call => cases call
  | reservedCode call reserves => cases call
  | activatedCode call sent => cases call
  | deletedCode call => cases call
  | verifiedCode call mem current guessed => simp [AuthRequest.guesses] at call
  | attachedPhone call phoneUse kakaoUse busy number_eq fits => cases call
  | createdUser call phoneUse kakaoUse first isNew number_eq own needs => cases call
  | managed call keeps => cases call
  | erased call current => cases call
  | _ => exact Or.inr (hkept rfl rfl rfl)

/-- Every step of a call goes about codes as it should. -/
theorem AuthStep.authorises {after : World} (hinv : CodeInvariant (authState w))
    (h : AuthStep config request pid w after) : ∃ events, Authorises request pid events w after := by
  rcases h.change with ⟨trace, hchange, hlog, -⟩ | ⟨htables, hlog, -⟩
  · have hkeeps : (∃ input, request = .resetPasswordWithPhone input) →
        (∃ id userId, .resetPassword id userId ∈ trace.events) ∨ ResetKeeps pid w after := by
      rintro ⟨input, rfl⟩
      exact hchange.resetKeeps hinv rfl hlog
    refine ⟨trace.events, hlog, fun id now hmem => ?_, fun id now hmem => ?_,
      fun id userId hmem => ?_, hkeeps⟩
    · generalize authTables after.db = tables at hchange
      cases hchange with
      | verifiedCode call mem current guessed reading =>
          obtain ⟨rfl, rfl⟩ := Event.verifiedCode.inj (List.mem_singleton.1 hmem)
          exact ⟨reading, guessed.usable hinv mem current⟩
      | rotatedSession call busy signed name validated current => cases List.mem_singleton.1 hmem
      | _ => simp at hmem
    · generalize authTables after.db = tables at hchange
      cases hchange with
      | acceptedCode call mem current guessed reading =>
          obtain ⟨rfl, rfl⟩ := Event.acceptedCode.inj (List.mem_singleton.1 hmem)
          exact ⟨reading, guessed.usable hinv mem (of_decide_eq_true current).1⟩
      | rotatedSession call busy signed name validated current => cases List.mem_singleton.1 hmem
      | _ => simp at hmem
    · -- The reset commits after the update that found the code usable.
      generalize authTables after.db = tables at hchange
      cases hchange with
      | resetPassword call accepted mem same unverified owner phone hashed all =>
          obtain ⟨rfl, -⟩ := Event.resetPassword.inj (List.mem_singleton.1 hmem)
          obtain ⟨hsent, hnow⟩ := (hinv.unexpired accepted).row _ mem same
          exact ⟨_, accepted, _, mem, same, hsent, hnow, unverified⟩
      | rotatedSession call busy signed name validated current => cases List.mem_singleton.1 hmem
      | _ => simp at hmem
  · refine ⟨[], hlog, fun _ _ h => ?_, fun _ _ h => ?_, fun _ _ h => ?_, fun _ => Or.inr ?_⟩
    · cases h
    · cases h
    · cases h
    · exact .kept (congrArg AuthTables.users htables) (congrArg AuthTables.sessions htables)
        (congrArg AuthTables.verifications htables)

/-- The states that runs reach from a database without codes, whatever the clocks may show. -/
def CodeRun (config : AuthConfig) (clocks : Timestamp → Prop) (db : Database)
    (c : Config World AuthRequest Failure AuthReply) : Prop :=
  Reachable (authSystem config) anyStep (.idle { World.ofDatabase db with clocks := clocks }) c

variable {clocks : Timestamp → Prop} {db : Database} {c : Config World AuthRequest Failure AuthReply}

theorem CodeRun.good_start : (authLogic config).Good
    (.idle { World.ofDatabase db with clocks := clocks } : Config World AuthRequest Failure AuthReply) :=
  Logic.good_idle exclusive_nil fun _ => ⟨rfl, rfl⟩

theorem CodeRun.good (hrun : CodeRun config clocks db c) : (authLogic config).Good c :=
  (sound config).reachable good_start (Reachable.weaken hrun fun _ _ _ => trivial)

/-- The clocks show what they may show all along. -/
theorem CodeRun.clocks_eq (hrun : CodeRun config clocks db c) : c.state.clocks = clocks := by
  refine (sound config).preserves (fun w => w.clocks = clocks) good_start hrun (fun _ _ _ => trivial)
    rfl ?_ (fun hmoves => hmoves.elim) ?_
  · exact fun _ hstep _ h => hstep.clocks.trans h
  · exact fun _ _ h => h

theorem CodeRun.invariant (hnone : db.phoneVerifications = []) (hrun : CodeRun config clocks db c) :
    CodeInvariant (authState c.state) :=
  (keeps_codeInvariant config).reachable good_start hrun (codeInvariant_start hnone)

/-- Whatever the threads do: a code authorises at most once, and at most five attempts at it
are claimed; a success comes after an attempt that its thread has claimed for one of the
purposes of the outcome; a call that returns has used a code up; and a step that uses a code
up finds it usable, by a reading that the clocks may show. -/
theorem code_authorises_once (config : AuthConfig) (clocks : Timestamp → Prop) (db : Database)
    (hnone : db.phoneVerifications = []) (c : Config World AuthRequest Failure AuthReply)
    (hrun : CodeRun config clocks db c) :
    (∀ id, count (isSuccessOf id) c.state.log ≤ 1) ∧
      (∀ id, count (isClaimOf id) c.state.log ≤ 5) ∧
      (∀ p, (own p c.state.log).countP isClaim ≤ 1) ∧
      (∀ p id purposes event, (p, event) ∈ c.state.log → Succeeds id purposes event →
        ∃ row, row.id = id ∧ row.purpose ∈ purposes ∧
          After c.state.log (p, event) (p, .claimedAttempt row purposes)) ∧
      (∀ pid request reply, c.threads[pid]? = some ⟨request, .done reply⟩ →
        Authorised request pid c.state) ∧
      ∀ (β : Type) (act : ℕ → World → β → World → Prop) next pid request reply after,
        c.threads[pid]? = some ⟨request, .step act next⟩ → act pid c.state reply after →
          c.state.clocks = clocks ∧ ∃ events, Authorises request pid events c.state after := by
  have hinv := hrun.invariant hnone
  refine ⟨hinv.once, hinv.attempts, hinv.claims, ?_, ?_, ?_⟩
  · intro p id purposes event hmem hsucceeds
    obtain ⟨row, hid, hafter⟩ := hinv.preceded hmem hsucceeds
    exact ⟨row, hid, (hinv.purpose hafter.earlier_mem).1, hafter⟩
  · intro pid request reply hthread
    exact (Logic.Sound.ensures hrun.good hthread).2
  · intro β act next pid request reply after hthread hact
    have hstep : AuthStep config request pid c.state after :=
      Logic.Sound.guarantee hrun.good hthread hact trivial
    exact ⟨hrun.clocks_eq, hstep.authorises hinv⟩

/-! ### A code that signs up -/

def codePhone : String := "+821012345678"

def codeRequest : AuthRequest := .requestPhoneCode ⟨"01012345678".toList, "signup"⟩ none

def codeSignup : AuthRequest := .verifyPhoneCode ⟨"01012345678".toList, "000000".toList⟩ oneDevice

def reserveCode : ReserveInput :=
  reserveInput codePhone "signup" (AuthConfig.plain.sha256 "no-ip".toList)

def codeCandidate : Text := pepperedCode .plain codePhone "000000".toList

def signupCode : PhoneVerification :=
  activateColumns (plainHash 0 codeCandidate) 300000 (newVerification reserveCode 0 8)

def signupTokenText : Text :=
  sign AuthConfig.plain AuthConfig.plain.signupTokenSecret
    (phoneClaims .plain codePhone 8 kakaoUserId 5 (5 + signupTokenSeconds))

def signupToken : PhoneVerificationToken where
  tokenHash := AuthConfig.plain.hashToken signupTokenText
  phoneE164 := codePhone
  verificationId := 8
  expiresAt := 5000 + signupTokenSeconds * 1000
  usedAt := none

/-- The codes and the tokens of one phone. -/
def codeTables (codes : List PhoneVerification) (tokens : List PhoneVerificationToken) : Database :=
  { Database.ofUsers [] with
    phoneVerifications := codes
    phoneVerificationTokens := tokens }

def requestLog : List (ℕ × Event) :=
  [(0, .hashed codeCandidate (plainHash 0 codeCandidate)),
    (0, .reservedCode (newVerification reserveCode 0 8))]

def requestedCode : World := { World.ofDatabase (codeTables [signupCode] []) with log := requestLog }

def signedUpCode : World :=
  { World.ofDatabase (codeTables [verifyColumns 5000 (countAttempt signupCode)] [signupToken]) with
    log := [(1, .verifiedCode 8 5000), (1, .comparedCode (countAttempt signupCode) true),
      (1, .claimedAttempt (countAttempt signupCode) ["signup", "login"])] ++ requestLog }

/-- A step that deletes no code. -/
def RetainsCodes (before after : World) : Prop :=
  ∀ id ∈ before.db.phoneVerifications.map PhoneVerification.id,
    id ∈ after.db.phoneVerifications.map PhoneVerification.id

section Runs

variable {allowed : World → World → Prop}
  (hallowed : ∀ before after, RetainsCodes before after → allowed before after)

include hallowed

/-- The quota locks of a thread, whatever their order, next to locks on rows. -/
theorem lockQuotaKeys_runs (pid : ℕ) (keys : List String) (w : World)
    (hown : ∀ lock ∈ w.locks, lock.holder = pid ∨ ∀ key, lock.row ≠ .quota key) :
    ∃ locks, release pid locks = release pid w.locks ∧
      Runs allowed pid (lockQuotaKeys keys : Prog World AuthRequest Failure Unit) w (.done ())
        (w.withLocks locks) := by
  induction keys generalizing w with
  | nil => exact ⟨w.locks, rfl, .refl⟩
  | cons key keys ih =>
      let locked : World := w.withLocks (acquire pid .update [.quota key] w.locks)
      have hlocked : ∀ lock ∈ locked.locks, lock.holder = pid ∨ ∀ key, lock.row ≠ .quota key := by
        intro lock hmem
        rcases List.mem_append.1 hmem with hnew | hold
        · obtain ⟨row, -, rfl⟩ := List.mem_map.1 hnew
          exact Or.inl rfl
        · exact hown lock hold
      have hfree : ∀ row ∈ [LockedRow.quota key], Free w.locks pid .update row := by
        intro row hrow lock hlock hsame hother
        obtain rfl := List.mem_singleton.1 hrow
        exact absurd hsame ((hown lock hlock).resolve_left hother key)
      have hsame : release pid locked.locks = release pid w.locks := by
        simp [locked, World.withLocks, acquire, release]
      obtain ⟨locks, hreleased, hruns⟩ := ih locked hlocked
      refine ⟨locks, hreleased.trans hsame, .step (.ok ()) locked ?_ (hallowed _ _ fun _ h => h) hruns⟩
      exact Locks.locked hfree

/-- The code is reserved, sent and activated. -/
theorem codeRequest_runs : Runs allowed 0 (authCode .plain codeRequest)
    (.ofDatabase (codeTables [] [])) (.done .done) requestedCode := by
  let before : World := .ofDatabase (codeTables [] [])
  let row : PhoneVerification := newVerification reserveCode 0 8
  let reserved : World :=
    { World.ofDatabase (codeTables [row] []) with log := [(0, .reservedCode row)] }
  let hashed : World := { reserved with
    log := (0, .hashed codeCandidate (plainHash 0 codeCandidate)) :: reserved.log }
  obtain ⟨locks, hreleased, hlocked⟩ := lockQuotaKeys_runs hallowed 0
    ((quotaKeys codePhone (AuthConfig.plain.sha256 "no-ip".toList)).mergeSort (· ≤ ·)) before
    fun _ hmem => absurd hmem List.not_mem_nil
  have hlocks : ∀ lock ∈ locks, lock.holder = 0 := fun lock hmem => by
    simpa using List.filter_eq_nil_iff.1 hreleased lock hmem
  let locked : World := before.withLocks locks
  refine .step 0 before rfl (hallowed _ _ fun _ h => h) ?_
  refine ((((hlocked.bind _).tryCatch _).bind _).trans ?_)
  refine .step 0 locked ⟨trivial, rfl⟩ (hallowed _ _ fun _ h => h) ?_
  refine .step (.ok none) locked (Locks.locked fun _ hmem => absurd hmem List.not_mem_nil)
    (hallowed _ _ fun _ h => h) ?_
  refine .step (.ok 0) locked (Locks.locked fun _ hmem => absurd hmem List.not_mem_nil)
    (hallowed _ _ fun _ h => h) ?_
  refine .step (.ok 0) locked (Locks.locked fun _ hmem => absurd hmem List.not_mem_nil)
    (hallowed _ _ fun _ h => h) ?_
  have hcommits : Records (fun row => { events := [.reservedCode row] })
      (insertVerification reserveCode 0 8) 0 locked (.ok row)
      (locked.commit 0 reserved.db { events := [.reservedCode row] }) :=
    .committed rfl (World.unlocked_of_alone hlocks _)
  have hreserved : locked.commit 0 reserved.db { events := [.reservedCode row] } = reserved :=
    congrArg reserved.withLocks hreleased
  rw [hreserved] at hcommits
  have hnew : IsNewVerification 8 locked.log := fun _ hmem => absurd hmem List.not_mem_nil
  refine .step (.ok row) reserved ⟨8, hnew, hcommits⟩
    (hallowed _ _ fun _ h => absurd h List.not_mem_nil) ?_
  have halone : ∀ lock ∈ ([] : List (Lock LockedRow)), lock.holder = 0 := by decide
  have hhash : IsNewHash (plainHash 0 codeCandidate) reserved.log := by
    intro entry hmem candidate hentry
    rw [List.mem_singleton.1 hmem] at hentry
    cases hentry
  refine .step (plainHash 0 codeCandidate) hashed ⟨⟨0, rfl⟩, hhash, rfl⟩
    (hallowed _ _ fun _ h => h) ?_
  refine .step true hashed rfl (hallowed _ _ fun _ h => h) ?_
  refine .step 0 hashed ⟨trivial, rfl⟩ (hallowed _ _ fun _ h => h) ?_
  exact .step (.ok (some signupCode)) requestedCode
    ⟨(), trivial, .committed rfl (World.unlocked_of_alone halone _)⟩
    (hallowed _ _ fun _ h => h) .refl

/-- The code is guessed, verified and changed for a token. -/
theorem codeSignup_runs : Runs allowed 1 (authCode .plain codeSignup) requestedCode
    (.done (.verificationToken signupTokenText)) signedUpCode := by
  let claimed : World := { World.ofDatabase (codeTables [countAttempt signupCode] []) with
    log := (1, .claimedAttempt (countAttempt signupCode) ["signup", "login"]) :: requestLog }
  let compared : World := { claimed with
    log := (1, .comparedCode (countAttempt signupCode) true) :: claimed.log }
  let verified : World :=
    { World.ofDatabase (codeTables [verifyColumns 5000 (countAttempt signupCode)] []) with
      log := (1, .verifiedCode 8 5000) :: compared.log }
  have halone : ∀ lock ∈ ([] : List (Lock LockedRow)), lock.holder = 1 := by decide
  refine .step (.ok (some signupCode)) requestedCode
    (Locks.locked fun _ hmem => absurd hmem List.not_mem_nil) (hallowed _ _ fun _ h => h) ?_
  refine .step 5000 requestedCode ⟨trivial, rfl⟩ (hallowed _ _ fun _ h => h) ?_
  refine .step (.ok (some (countAttempt signupCode))) claimed
    ⟨(), trivial, .committed rfl (World.unlocked_of_alone halone _)⟩ (hallowed _ _ fun _ h => h) ?_
  refine .step () compared rfl (hallowed _ _ fun _ h => h) ?_
  refine .step 5000 compared ⟨trivial, rfl⟩ (hallowed _ _ fun _ h => h) ?_
  refine .step 5000 compared ⟨trivial, rfl⟩ (hallowed _ _ fun _ h => h) ?_
  refine .step (.ok (some (verifyColumns 5000 (countAttempt signupCode)))) verified
    ⟨(), trivial, .committed rfl (World.unlocked_of_alone halone _)⟩ (hallowed _ _ fun _ h => h) ?_
  refine .step (.ok none) verified (Locks.locked fun _ hmem => absurd hmem List.not_mem_nil)
    (hallowed _ _ fun _ h => h) ?_
  refine .step kakaoUserId verified rfl (hallowed _ _ fun _ h => h) ?_
  refine .step 5000 verified ⟨trivial, rfl⟩ (hallowed _ _ fun _ h => h) ?_
  refine .step 5000 verified ⟨trivial, rfl⟩ (hallowed _ _ fun _ h => h) ?_
  refine .step (.ok ()) signedUpCode
    ⟨(), trivial, .committed rfl (World.unlocked_of_alone halone _)⟩ (hallowed _ _ fun _ h => h) ?_
  exact .step () _ rfl (hallowed _ _ fun _ h => h) .refl

end Runs

/-- A code is requested, guessed and used up for a token. -/
theorem codeSignup_run : CodeRun .plain (fun _ => True) (codeTables [] [])
    ⟨signedUpCode, [⟨codeRequest, .done .done⟩,
      ⟨codeSignup, .done (.verificationToken signupTokenText)⟩]⟩ := by
  have hstart : CodeRun .plain (fun _ => True) (codeTables [] [])
      (.idle { World.ofDatabase (codeTables [] []) with clocks := fun _ => True }) :=
    Relation.ReflTransGen.refl
  have hrequested : CodeRun .plain (fun _ => True) (codeTables [] [])
      ⟨requestedCode, [⟨codeRequest, .done .done⟩]⟩ :=
    hstart.serve trivial trivial (codeRequest_runs fun _ _ _ => trivial)
  exact hrequested.serve trivial trivial (codeSignup_runs fun _ _ _ => trivial)

theorem code_authorises_once_signup :
    CodeRun .plain (fun _ => True) (codeTables [] [])
        ⟨signedUpCode, [⟨codeRequest, .done .done⟩,
          ⟨codeSignup, .done (.verificationToken signupTokenText)⟩]⟩ ∧
      count (isSuccessOf 8) signedUpCode.log ≤ 1 ∧
      ∃ row, row.id = 8 ∧ row.purpose ∈ ["signup", "login"] ∧
        After signedUpCode.log (1, .verifiedCode 8 5000) (1, .claimedAttempt row ["signup", "login"]) := by
  have hsafe := code_authorises_once .plain _ _ rfl _ codeSignup_run
  have hmem : (1, .verifiedCode 8 5000) ∈ signedUpCode.log := List.mem_cons_self
  exact ⟨codeSignup_run, hsafe.1 8, hsafe.2.2.2.1 1 8 _ _ hmem (.verified 5000)⟩

/-! ### A reset that a newer code overtakes -/

def newerRequest : AuthRequest := .requestPhoneCode ⟨"01012345678".toList, "password_reset"⟩ none

def newerCode : PhoneVerification :=
  newVerification (reserveInput codePhone "password_reset"
    (AuthConfig.plain.sha256 "no-ip".toList)) 60000 9

/-- What a reset has entered when it has found its code usable. -/
def acceptedLog : List (ℕ × Event) := stamp 0 (resetLog.tail.map Prod.snd)

/-- What is left of a request that has reserved its code. -/
def sendNewer : Prog World AuthRequest Failure AuthReply := do
  tryCatch (sendCode .plain newerCode codePhone (padCode 0)) fun _ => cleanUpRequest newerCode
  return .done

/-- A code is reserved while a reset has locked an older one. -/
theorem newerRequest_runs : Runs anyStep 1 (authCode .plain newerRequest)
    (acceptedReset 0 (claimedCodes [loginToken] [] [] 0) [] acceptedLog) sendNewer
    (acceptedReset 0 (claimedCodes [loginToken] [newerCode] [] 0) []
      ((1, .reservedCode newerCode) :: acceptedLog)) := by
  let before : World := acceptedReset 0 (claimedCodes [loginToken] [] [] 0) [] acceptedLog
  let reserved : World := acceptedReset 0 (claimedCodes [loginToken] [newerCode] [] 0) []
    ((1, .reservedCode newerCode) :: acceptedLog)
  have hrows : ∀ lock ∈ before.locks, lock.holder = 1 ∨ ∀ key, lock.row ≠ .quota key := by
    intro lock hmem
    rcases List.mem_cons.1 hmem with rfl | hmem
    · exact Or.inr fun _ => LockedRow.noConfusion
    · rw [List.mem_singleton.1 hmem]
      exact Or.inr fun _ => LockedRow.noConfusion
  have hany : ∀ before after : World, RetainsCodes before after → anyStep before after :=
    fun _ _ _ => trivial
  obtain ⟨locks, hreleased, hlocked⟩ := lockQuotaKeys_runs hany 1
    ((quotaKeys codePhone (AuthConfig.plain.sha256 "no-ip".toList)).mergeSort (· ≤ ·)) before hrows
  let locked : World := before.withLocks locks
  refine .step 0 before rfl trivial ?_
  refine ((((hlocked.bind _).tryCatch _).bind _).trans ?_)
  refine .step 60000 locked ⟨trivial, rfl⟩ trivial ?_
  refine .step (.ok (some (countAttempt resetCode))) locked
    (Locks.locked fun _ hmem => absurd hmem List.not_mem_nil) trivial ?_
  refine .step (.ok 1) locked (Locks.locked fun _ hmem => absurd hmem List.not_mem_nil) trivial ?_
  refine .step (.ok 0) locked (Locks.locked fun _ hmem => absurd hmem List.not_mem_nil) trivial ?_
  -- The reset has locked its code and the account; the request only inserts a row.
  have hunlocked : locked.Unlocked 1 reserved.db := by
    refine ⟨fun row hrow hgone => absurd ?_ hgone, fun userId row hrow hnew => absurd ?_ hnew⟩
    · cases row with
      | verification row => exact List.mem_append_left [newerCode] hrow
      | _ => exact hrow
    · cases row with
      | _ => exact hrow
  have hcommits : Records (fun row => { events := [.reservedCode row] })
      (insertVerification (reserveInput codePhone "password_reset"
        (AuthConfig.plain.sha256 "no-ip".toList)) 60000 9) 1 locked (.ok newerCode)
      (locked.commit 1 reserved.db { events := [.reservedCode newerCode] }) :=
    .committed rfl hunlocked
  have hreserved : locked.commit 1 reserved.db { events := [.reservedCode newerCode] } = reserved :=
    congrArg reserved.withLocks hreleased
  rw [hreserved] at hcommits
  have hnew : IsNewVerification 9 locked.log := by
    intro entry hmem row hentry
    have hnone : ∀ entry ∈ acceptedLog, ∀ row, entry.2 ≠ .reservedCode row := by
      simp [acceptedLog, resetLog, stamp]
    exact absurd hentry (hnone entry hmem row)
  exact .step (.ok newerCode) reserved ⟨9, hnew, hcommits⟩ trivial .refl

/-- A reset finds its code usable, a newer code of the phone is reserved, and the reset
commits. -/
theorem reset_of_superseded : ∃ c, CodeRun .plain (fun _ => True)
      (resetTables oldHash [loginToken] resetCode [] 0) c ∧
    ∃ row newer, row ∈ c.state.db.phoneVerifications ∧ newer ∈ c.state.db.phoneVerifications ∧
      newer.phoneE164 = row.phoneE164 ∧ isNewer newer row ∧
        After c.state.log (0, .resetPassword row.id kakaoUserId) (1, .reservedCode newer) := by
  have hstart : CodeRun .plain (fun _ => True) (resetTables oldHash [loginToken] resetCode [] 0)
      (.idle { World.ofDatabase (resetTables oldHash [loginToken] resetCode [] 0) with
        clocks := fun _ => True }) := Relation.ReflTransGen.refl
  have hany : ∀ before after : World, before.reading = [] → anyStep before after :=
    fun _ _ _ => trivial
  have haccepted : Runs anyStep 0 (authCode .plain passwordReset)
      (.ofDatabase (resetTables oldHash [loginToken] resetCode [] 0)) finishReset
      (acceptedReset 0 (claimedCodes [loginToken] [] [] 0) [] acceptedLog) :=
    passwordReset_accepts 0 [] [] hany fun _ hmem => absurd hmem List.not_mem_nil
  have hold : ∀ row ∈ [newerCode], row.id ≠ 8 := by decide
  have hown : ∀ session ∈ ([] : List RefreshToken), session.userId = kakaoUserId :=
    fun _ hmem => absurd hmem List.not_mem_nil
  have hended : Runs anyStep 0 finishReset
      (acceptedReset 0 (claimedCodes [loginToken] [newerCode] [] 0) []
        ((1, .reservedCode newerCode) :: acceptedLog)) (.done .done) _ :=
    finishReset_runs 0 [] _ hany hold hown
  have hreset : CodeRun .plain (fun _ => True) (resetTables oldHash [loginToken] resetCode [] 0)
      ⟨acceptedReset 0 (claimedCodes [loginToken] [] [] 0) [] acceptedLog,
        [⟨passwordReset, finishReset⟩]⟩ :=
    hstart.serve trivial trivial haccepted
  have hnewer : CodeRun .plain (fun _ => True) (resetTables oldHash [loginToken] resetCode [] 0)
      ⟨acceptedReset 0 (claimedCodes [loginToken] [newerCode] [] 0) []
          ((1, .reservedCode newerCode) :: acceptedLog),
        [⟨passwordReset, finishReset⟩, ⟨newerRequest, sendNewer⟩]⟩ :=
    hreset.serve trivial trivial newerRequest_runs
  refine ⟨_, Relation.ReflTransGen.trans hnewer (hended.reachable _ rfl),
    verifyColumns 5000 (countAttempt resetCode), newerCode, List.mem_cons_self,
    List.mem_cons_of_mem _ List.mem_cons_self, rfl, rfl, ?_⟩
  exact after_cons.2 (Or.inr ⟨rfl, List.mem_cons_self⟩)

end ChatTea.Auth
