import ChatTea.Lib.SlidingWindow
import ChatTea.Phone.Codes

/-!
# Quotas of codes

A code is reserved under the locks of its phone and its address, at a reading of the clock
taken under them, and counted against all rows that are less than an hour older; so the
quotas hold of every hour, even if the clock steps back. If no code is deleted that was
sent, the codes of an hour that may be guessed are all retained, and each is compared five
times at most.

## Main definitions

* `WithinQuotas` — the retained rows of every phone and every address
* `DeletesPending` — a step that deletes no code that was sent
* `isGuess` — the comparisons with the codes of a phone in an hour

## Main results

* `keeps_withinQuotas`, `keeps_guessInvariant` — what every step keeps
* `codes_within_quotas` — the quotas, and the comparisons that they leave
-/

namespace ChatTea.Auth

open History Interleaving Phone RowLocks SlidingWindow Table Transaction

variable {config : AuthConfig} {request : AuthRequest} {pid : ℕ} {w : World} {s : AuthState}
  {trace : Trace} {tables : AuthTables} {id : RowId} {events : List Event}
  {rows left : List PhoneVerification}

/-! ### Requests -/

/-- The rows of a phone are a minute apart; in every hour there are at most five of a phone
and twenty of an address. -/
structure WithinQuotas (rows : List PhoneVerification) : Prop where
  apart : Spaced PhoneVerification.createdAt
    (fun row row' => row.phoneE164 = row'.phoneE164) 60000 rows
  phone : ∀ phoneE164, Bounded PhoneVerification.createdAt
    (fun row => row.phoneE164 = phoneE164) hourMs 5 rows
  ip : ∀ requestIpHash, Bounded PhoneVerification.createdAt
    (fun row => row.requestIpHash = requestIpHash) hourMs 20 rows

theorem withinQuotas_nil : WithinQuotas [] := ⟨.nil, fun _ => .nil, fun _ => .nil⟩

/-- The quotas are about the stamps of the rows. -/
theorem WithinQuotas.of_stamps (h : WithinQuotas rows)
    (hstamps : (left.map quotaStamp).Sublist (rows.map quotaStamp)) : WithinQuotas left where
  apart := by
    have hrows : Spaced (fun stamp : RowId × String × String × Timestamp => stamp.2.2.2)
        (fun stamp stamp' => stamp.2.1 = stamp'.2.1) 60000 (rows.map quotaStamp) :=
      (spaced_map quotaStamp).2 h.apart
    exact (spaced_map quotaStamp).1 (hrows.sublist hstamps)
  phone := by
    intro phoneE164
    have hrows : Bounded (fun stamp : RowId × String × String × Timestamp => stamp.2.2.2)
        (fun stamp => stamp.2.1 = phoneE164) hourMs 5 (rows.map quotaStamp) :=
      (bounded_map quotaStamp).2 (h.phone phoneE164)
    exact (bounded_map quotaStamp).1 (hrows.sublist hstamps)
  ip := by
    intro requestIpHash
    have hrows : Bounded (fun stamp : RowId × String × String × Timestamp => stamp.2.2.2)
        (fun stamp => stamp.2.2.1 = requestIpHash) hourMs 20 (rows.map quotaStamp) :=
      (bounded_map quotaStamp).2 (h.ip requestIpHash)
    exact (bounded_map quotaStamp).1 (hrows.sublist hstamps)

/-- A reserved row is counted against those that are less than an hour older. -/
theorem WithinQuotas.reserve {row : PhoneVerification} (h : WithinQuotas w.db.phoneVerifications)
    (hreserves : Reserves pid w row) : WithinQuotas (w.db.phoneVerifications ++ [row]) where
  apart := h.apart.append hreserves.cooldown
  phone := by
    intro phoneE164
    refine (h.phone phoneE164).append fun hphone => ?_
    obtain rfl := of_decide_eq_true hphone
    refine lt_of_eq_of_lt (List.countP_congr fun other _ => ?_) hreserves.phoneQuota
    simp
  ip := by
    intro requestIpHash
    refine (h.ip requestIpHash).append fun hip => ?_
    obtain rfl := of_decide_eq_true hip
    refine lt_of_eq_of_lt (List.countP_congr fun other _ => ?_) hreserves.ipQuota
    simp

theorem AuthChange.withinQuotas (h : AuthChange config request pid w trace tables)
    (hquotas : WithinQuotas w.db.phoneVerifications) : WithinQuotas tables.verifications := by
  have hupdated {cond : PhoneVerification → Bool} {set : PhoneVerification → PhoneVerification}
      (hset : ∀ row, quotaStamp (set row) = quotaStamp row) :
      WithinQuotas (updateWhere cond set w.db.phoneVerifications) := by
    refine hquotas.of_stamps ?_
    rw [map_key_updateWhere hset]
  cases h with
  | reservedCode call reserves => exact hquotas.reserve reserves
  | activatedCode call sent => exact hupdated fun _ => rfl
  | deletedCode call => exact hquotas.of_stamps (List.filter_sublist.map _)
  | claimedAttempt call mem current => exact hupdated fun _ => rfl
  | verifiedCode call mem current guessed => exact hupdated fun _ => rfl
  | resetPassword call accepted mem same unverified owner phone hashed all =>
      exact hupdated fun _ => rfl
  | _ => exact hquotas

theorem keeps_withinQuotas (config : AuthConfig) (allowed : World → World → Prop) :
    Keeps config allowed fun s => WithinQuotas s.tables.verifications where
  change := fun _ hchange _ _ h => hchange.withinQuotas h
  forget := fun _ h => h

/-! ### Comparisons -/

/-- The codes that the step deletes were never sent. -/
def DeletesPending (before after : World) : Prop :=
  ∀ row ∈ before.db.phoneVerifications,
    (∀ other ∈ after.db.phoneVerifications, other.id ≠ row.id) → row.codeHash = "pending"

/-- A comparison with a code that was sent to the phone, of a row from an hour. -/
def isGuess (phoneE164 : String) (start : Timestamp) : Event → Bool
  | .comparedCode row _ => row.phoneE164 = phoneE164 ∧ row.codeHash ≠ "pending" ∧
      inWindow PhoneVerification.createdAt start hourMs row
  | _ => false

/-- Who has compared a code has claimed an attempt for it, and what was sent is still there. -/
structure GuessInvariant (s : AuthState) : Prop where
  claimed : ∀ {p row valid}, (p, .comparedCode row valid) ∈ s.log →
    ∃ purposes, (p, .claimedAttempt row purposes) ∈ s.log
  fewer : ∀ p id,
    (own p s.log).countP (isComparisonOf id) ≤ (own p s.log).countP (isClaimOf id)
  retained : ∀ {p row purposes}, (p, .claimedAttempt row purposes) ∈ s.log →
    row.codeHash ≠ "pending" →
      ∃ kept ∈ s.tables.verifications, quotaStamp kept = quotaStamp row ∧ kept.codeHash ≠ "pending"

/-- A row that was sent is retained by a step that deletes none of these. -/
theorem CodeChange.retains (hinv : CodeInvariant s) (h : CodeChange pid s events rows)
    (hdeletes : ∀ row ∈ s.tables.verifications, (∀ other ∈ rows, other.id ≠ row.id) →
      row.codeHash = "pending") {row : PhoneVerification} (hmem : row ∈ s.tables.verifications)
    (hsent : row.codeHash ≠ "pending") :
    ∃ kept ∈ rows, quotaStamp kept = quotaStamp row ∧ kept.codeHash ≠ "pending" := by
  have hupdated {cond : PhoneVerification → Bool} {set : PhoneVerification → PhoneVerification}
      (hset : ∀ row, quotaStamp (set row) = quotaStamp row)
      (hcode : ∀ row, row.codeHash ≠ "pending" → (set row).codeHash ≠ "pending") :
      ∃ kept ∈ updateWhere cond set s.tables.verifications,
        quotaStamp kept = quotaStamp row ∧ kept.codeHash ≠ "pending" := by
    refine ⟨_, List.mem_map_of_mem hmem, ?_⟩
    split
    · exact ⟨hset row, hcode row hsent⟩
    · exact ⟨rfl, hsent⟩
  cases h with
  | kept quiet => exact ⟨row, hmem, rfl, hsent⟩
  | reserved isNew unclaimed => exact ⟨row, List.mem_append_left _ hmem, rfl, hsent⟩
  | activated cond only sent => exact hupdated (fun _ => rfl) fun _ _ => sent
  | deleted keep =>
      have hkept : ∃ other ∈ s.tables.verifications.filter keep, other.id = row.id := by
        by_contra hnone
        refine hsent (hdeletes row hmem fun other hother hsame => hnone ⟨other, hother, hsame⟩)
      obtain ⟨other, hother, hsame⟩ := hkept
      obtain rfl := hinv.unique.eq_of_key (List.mem_of_mem_filter hother) hmem hsame
      exact ⟨other, hother, rfl, hsent⟩
  | claimed cond mem current only purpose under first => exact hupdated (fun _ => rfl) fun _ h => h
  | succeeded cond mem current only unverified succeeds claimed =>
      exact hupdated (fun _ => rfl) fun _ h => h

/-- What a change enters about comparisons. -/
theorem AuthChange.fewer (h : AuthChange config request pid w trace tables) (id : RowId)
    (hfewer : (own pid w.log).countP (isComparisonOf id) ≤ (own pid w.log).countP (isClaimOf id)) :
    (trace.events ++ own pid w.log).countP (isComparisonOf id) ≤
      (trace.events ++ own pid w.log).countP (isClaimOf id) := by
  rw [List.countP_append, List.countP_append]
  cases h with
  | @comparedCode row purposes valid call claimed once sent =>
      by_cases hid : row.id = id
      · subst hid
        simp only [List.countP_cons, List.countP_nil, isComparisonOf, isClaimOf, decide_true, if_true]
        omega
      · simpa [isComparisonOf, isClaimOf, hid] using hfewer
  | rotatedSession call busy signed name validated current =>
      simpa [rotationTrace, isComparisonOf, isClaimOf] using hfewer
  | claimedAttempt call mem current reading first =>
      refine Nat.add_le_add ?_ hfewer
      simp [isComparisonOf]
  | _ => simpa [isComparisonOf, isClaimOf] using hfewer

theorem GuessInvariant.enter (hcodes : CodeInvariant (authState w))
    (hinv : GuessInvariant (authState w)) (h : AuthChange config request pid w trace tables)
    (hdeletes : ∀ row ∈ w.db.phoneVerifications,
      (∀ other ∈ tables.verifications, other.id ≠ row.id) → row.codeHash = "pending") :
    GuessInvariant ((authState w).enter pid trace tables) where
  claimed := by
    intro p row valid hmem
    have hclaimed : ∃ purposes, (p, .claimedAttempt row purposes) ∈ w.log := by
      rcases AuthState.mem_enter.1 hmem with ⟨rfl, hnew⟩ | hold
      · cases h with
        | comparedCode call claimed once sent =>
            obtain ⟨rfl, -⟩ := Event.comparedCode.inj (List.mem_singleton.1 hnew)
            exact ⟨_, claimed⟩
        | rotatedSession call busy signed name validated current => cases List.mem_singleton.1 hnew
        | _ => simp at hnew
      · exact hinv.claimed hold
    obtain ⟨purposes, hentry⟩ := hclaimed
    exact ⟨purposes, List.mem_append_right _ hentry⟩
  fewer := by
    intro p id
    by_cases hp : p = pid
    · subst hp
      rw [AuthState.enter, own_stamp_append_self]
      exact h.fewer id (hinv.fewer p id)
    · rw [AuthState.enter, own_stamp_append_other hp]
      exact hinv.fewer p id
  retained := by
    intro p row purposes hmem hsent
    have hrow : ∃ kept ∈ w.db.phoneVerifications,
        quotaStamp kept = quotaStamp row ∧ kept.codeHash ≠ "pending" := by
      rcases AuthState.mem_enter.1 hmem with ⟨-, hnew⟩ | hold
      · obtain ⟨-, target, htarget, -, -, purposes', -, hevent⟩ :=
          (h.code hcodes).of_claim hnew (decide_eq_true (rfl : row.id = row.id))
        obtain ⟨rfl, rfl⟩ := Event.claimedAttempt.inj hevent
        exact ⟨target, htarget, rfl, hsent⟩
      · exact hinv.retained hold hsent
    obtain ⟨kept, hkept, hstamp, hcode⟩ := hrow
    obtain ⟨next, hnext, hsame, hnextCode⟩ :=
      (h.code hcodes).retains hcodes hdeletes hkept hcode
    exact ⟨next, hnext, hsame.trans hstamp, hnextCode⟩

theorem keeps_guessInvariant (config : AuthConfig) :
    Keeps config DeletesPending fun s => CodeInvariant s ∧ GuessInvariant s where
  change := by
    intro request pid w trace tables after hexclusive hchange hallowed hafter ⟨hcodes, hguesses⟩
    refine ⟨(keeps_codeInvariant config).change hexclusive hchange trivial hafter hcodes, ?_⟩
    refine hguesses.enter hcodes hchange fun row hmem hgone => hallowed row hmem fun other hother => ?_
    have htables : after.db.phoneVerifications = tables.verifications :=
      congrArg (fun s => s.tables.verifications) hafter
    rw [htables] at hother
    exact hgone other hother
  forget := fun hreading h => ⟨(keeps_codeInvariant config).forget hreading h.1,
    h.2.claimed, h.2.fewer, h.2.retained⟩

/-- The comparisons with the codes of a phone in an hour: five for each of the five rows. -/
theorem guesses_le (hcodes : CodeInvariant s) (hinv : GuessInvariant s)
    (hquotas : WithinQuotas s.tables.verifications) (phoneE164 : String) (start : Timestamp) :
    count (isGuess phoneE164 start) s.log ≤ 25 := by
  let kept := s.tables.verifications.filter fun row =>
    decide (row.phoneE164 = phoneE164) && inWindow PhoneVerification.createdAt start hourMs row
  have hkept : kept.length ≤ 5 := by
    rw [← List.countP_eq_length_filter]
    exact hquotas.phone phoneE164 start
  have hcover : ∀ entry ∈ s.log, isGuess phoneE164 start entry.2 →
      ∃ id ∈ kept.map PhoneVerification.id, isComparisonOf id entry.2 := by
    rintro ⟨p, event⟩ hmem hguess
    cases event with
    | comparedCode row valid =>
        obtain ⟨hphone, hsent, hwindow⟩ := of_decide_eq_true hguess
        obtain ⟨purposes, hclaimed⟩ := hinv.claimed hmem
        obtain ⟨other, hother, hstamp, -⟩ := hinv.retained hclaimed hsent
        obtain ⟨hid, hsame, -, htime⟩ : other.id = row.id ∧ other.phoneE164 = row.phoneE164 ∧
            other.requestIpHash = row.requestIpHash ∧ other.createdAt = row.createdAt := by
          simpa [quotaStamp] using hstamp
        refine ⟨row.id, List.mem_map.2 ⟨other, List.mem_filter.2 ⟨hother, ?_⟩, hid⟩,
          decide_eq_true rfl⟩
        rw [inWindow, htime, hsame]
        exact Bool.and_eq_true_iff.2 ⟨decide_eq_true hphone, hwindow⟩
    | _ => cases hguess
  have hbound : ∀ id ∈ kept.map PhoneVerification.id, count (isComparisonOf id) s.log ≤ 5 := by
    intro id _
    calc
      count (isComparisonOf id) s.log ≤ count (isClaimOf id) s.log :=
        count_le_of_own fun p => hinv.fewer p id
      _ ≤ 5 := hcodes.attempts id
  calc
    count (isGuess phoneE164 start) s.log ≤ (kept.map PhoneVerification.id).length * 5 :=
      count_le_mul hcover hbound
    _ ≤ 25 := by
      rw [List.length_map]
      omega

/-! ### Every run -/

variable {allowed : World → World → Prop} {db : Database}
  {c : Config World AuthRequest Failure AuthReply}

theorem guessInvariant_start (db : Database) : GuessInvariant (startState db) :=
  ⟨fun h => absurd h List.not_mem_nil, fun _ _ => Nat.le_refl _, fun h => absurd h List.not_mem_nil⟩

/-- Whatever the threads do and the clock shows: the retained rows of a phone are at least a
minute apart, and in every half-open hour there are at most five of a phone and twenty of an
address; and if no code is deleted that was sent, at most 25 comparisons are made with the
codes that were sent to a phone and are of one hour. -/
theorem codes_within_quotas (config : AuthConfig) (db : Database) (hnone : db.phoneVerifications = [])
    (c : Config World AuthRequest Failure AuthReply) :
    (AuthRun config anyStep db c → WithinQuotas c.state.db.phoneVerifications) ∧
      (AuthRun config DeletesPending db c →
        ∀ phoneE164 start, count (isGuess phoneE164 start) c.state.log ≤ 25) := by
  have hstart : WithinQuotas (startState db).tables.verifications := by
    have hrows : (startState db).tables.verifications = [] := hnone
    rw [hrows]
    exact withinQuotas_nil
  refine ⟨fun hrun => ?_, fun hrun phoneE164 start => ?_⟩
  · exact hrun.keeps (keeps_withinQuotas config anyStep) hstart
  · have hquotas := hrun.keeps (keeps_withinQuotas config DeletesPending) hstart
    obtain ⟨hcodes, hguesses⟩ := hrun.keeps (keeps_guessInvariant config)
      ⟨codeInvariant_start hnone, guessInvariant_start db⟩
    exact guesses_le hcodes hguesses hquotas phoneE164 start

/-- A code is requested and guessed, and nothing is deleted. -/
theorem codes_within_quotas_signup :
    AuthRun .plain DeletesPending (codeTables [] [])
        ⟨signedUpCode, [⟨codeRequest, .done .done⟩,
          ⟨codeSignup, .done (.verificationToken signupTokenText)⟩]⟩ ∧
      WithinQuotas signedUpCode.db.phoneVerifications ∧
      count (isGuess codePhone 0) signedUpCode.log ≤ 25 := by
  have hkept : ∀ before after, RetainsCodes before after → DeletesPending before after := by
    intro before after hretains row hmem hgone
    obtain ⟨other, hother, hsame⟩ := List.mem_map.1 (hretains row.id (List.mem_map_of_mem hmem))
    exact absurd hsame (hgone other hother)
  have hstart : AuthRun .plain DeletesPending (codeTables [] []) (atRest (codeTables [] [])) :=
    Relation.ReflTransGen.refl
  have hrequested : AuthRun .plain DeletesPending (codeTables [] [])
      ⟨requestedCode, [⟨codeRequest, .done .done⟩]⟩ :=
    hstart.serve trivial (hkept _ _ fun _ h => h) (codeRequest_runs hkept)
  have hrun : AuthRun .plain DeletesPending (codeTables [] []) ⟨signedUpCode,
      [⟨codeRequest, .done .done⟩, ⟨codeSignup, .done (.verificationToken signupTokenText)⟩]⟩ :=
    hrequested.serve trivial (hkept _ _ fun _ h => h) (codeSignup_runs hkept)
  obtain ⟨hquotas, hguesses⟩ := codes_within_quotas .plain (codeTables [] []) rfl _
  exact ⟨hrun, hquotas (Reachable.weaken hrun fun _ _ _ => trivial), hguesses hrun codePhone 0⟩

end ChatTea.Auth
