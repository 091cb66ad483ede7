import ChatTea.Auth.Logins
import Mathlib.Data.Finset.Max
import Mathlib.Data.Prod.Lex

/-!
# The phone calls, step by step

A request is counted while the quotas of its phone and its address are locked, so that
what it has counted can only have become less when its row is inserted. A guess enters
that it has claimed an attempt before it compares the code, once for each attempt.

## Main definitions

* `Counted` — a bound on the requests that count under a locked quota

## Main results

* `exists_latest` — a phone with a row has a latest one
* `holds_requestPhoneCode`, `holds_verifyPhoneCode`, `holds_resetPasswordWithPhone` — the calls
-/

namespace ChatTea.Phone

open Auth History Interleaving RowLocks Table Transaction Users

variable {config : AuthConfig} {request : AuthRequest} {pid : ℕ} {w : World} {known : Known}

/-! ### The latest row of a phone -/

/-- The order of creation. -/
def created (row : PhoneVerification) : ℤ ×ₗ ℕ := toLex (row.createdAt, row.id)

theorem isNewer_iff {newer row : PhoneVerification} :
    isNewer newer row ↔ created row < created newer := by
  rw [created, created, Prod.Lex.toLex_lt_toLex, isNewer, decide_eq_true_eq, eq_comm (a := row.createdAt)]

theorem isLatest_iff {db : Database} {row : PhoneVerification} : isLatest db row ↔
    ∀ newer ∈ db.phoneVerifications, newer.phoneE164 = row.phoneE164 → created newer ≤ created row := by
  simp only [isLatest, List.all_eq_true, decide_eq_true_eq, isNewer_iff, not_and, not_lt]

/-- A phone with a row has a latest one. -/
theorem exists_latest {db : Database} {row : PhoneVerification} (h : row ∈ db.phoneVerifications) :
    ∃ latest ∈ db.phoneVerifications, latest.phoneE164 = row.phoneE164 ∧ isLatest db latest ∧
      row.createdAt ≤ latest.createdAt := by
  have hmem : ∀ {other}, other ∈ (db.phoneVerifications.filter fun other =>
      other.phoneE164 = row.phoneE164).toFinset ↔
        other ∈ db.phoneVerifications ∧ other.phoneE164 = row.phoneE164 := by simp
  obtain ⟨latest, hlatest, hnewest⟩ :=
    Finset.exists_max_image _ created ⟨row, hmem.2 ⟨h, rfl⟩⟩
  obtain ⟨hlatest, hphone⟩ := hmem.1 hlatest
  refine ⟨latest, hlatest, hphone, isLatest_iff.2 fun newer hnewer hsame => ?_, ?_⟩
  · exact hnewest newer (hmem.2 ⟨hnewer, hsame.trans hphone⟩)
  · exact Prod.Lex.monotone_fst _ _ (hnewest row (hmem.2 ⟨h, rfl⟩))

/-! ### Requests under a quota -/

/-- A bound on the requests that count under a quota that the thread has locked. -/
def Counted (pid : ℕ) (key : String) (cond : RowId × String × String × Timestamp → Bool)
    (bound : ℕ) (w : World) : Prop :=
  Holds w.locks pid .update (.quota key) ∧ (quotaRows key w.db.phoneVerifications).countP cond ≤ bound

theorem stable_counted {key : String} {cond : RowId × String × String × Timestamp → Bool}
    {bound : ℕ} : (authLogic config).Stable pid (Counted pid key cond bound) := by
  rintro s before hrely - ⟨hheld, hcount⟩
  exact ⟨hrely.locked.locks hheld, ((hrely.quota key hheld).countP_le).trans hcount⟩

/-- The requests of a condition that entails a key all count under that key. -/
theorem countP_quotaRows {key : String} {cond : RowId × String × String × Timestamp → Bool}
    {rows : List PhoneVerification}
    (hcond : ∀ stamp, cond stamp → key ∈ quotaKeys stamp.2.1 stamp.2.2.1) :
    (quotaRows key rows).countP cond = rows.countP fun row => cond (quotaStamp row) := by
  rw [quotaRows, List.countP_filter, List.countP_map]
  refine List.countP_congr fun row _ => ?_
  have hrow := hcond (quotaStamp row)
  simp only [Function.comp_apply, Bool.and_eq_true, decide_eq_true_eq]
  exact ⟨fun h => h.1, fun h => ⟨h, hrow h⟩⟩

/-- The thread has locked some quotas. -/
def Quotas (pid : ℕ) (keys : List String) (w : World) : Prop :=
  ∀ key ∈ keys, Holds w.locks pid .update (.quota key)

theorem stable_quotas {keys : List String} : (authLogic config).Stable pid (Quotas pid keys) :=
  fun _ _ hrely _ h key hmem => hrely.locked.locks (h key hmem)

theorem stable_both {first second : World → Prop} (hfirst : (authLogic config).Stable pid first)
    (hsecond : (authLogic config).Stable pid second) :
    (authLogic config).Stable pid fun w => first w ∧ second w :=
  fun _ _ hrely hinv h => ⟨hfirst hrely hinv h.1, hsecond hrely hinv h.2⟩

theorem holds_lockQuotaKeys {keys held : List String} (h : Quotas pid held w) :
    (authLogic config).Holds request pid (lockQuotaKeys keys) (fun _ => Quotas pid (held ++ keys))
      (fun _ _ => True) w := by
  induction keys generalizing held w with
  | nil =>
      refine Logic.holds_pure (stable_quotas.later ?_)
      rwa [List.append_nil]
  | cons key keys ih =>
      refine holds_via (fun _ => Quotas pid (held ++ [key])) ?_ fun _ s hlocked => ?_
      · refine holds_locking _ stable_quotas h fun before hbefore => ⟨.nothing, ?_⟩
        refine stable_quotas.later fun other hmem => ?_
        rcases List.mem_append.1 hmem with hold | hnew
        · exact (hbefore other hold).acquire
        · exact holds_acquire (by simpa using hnew)
      · rw [List.append_cons]
        exact ih hlocked

/-- A query of a thread that has locked some quotas: what it counts stays a bound. -/
theorem holds_counting {β : Type} {read : Database → β} {keys : List String} {key : String}
    {assertion : World → Prop} (fact : β → Prop) {cond : RowId × String × String × Timestamp → Bool}
    {bound : ℕ} (hkey : key ∈ keys) (hcond : ∀ stamp, cond stamp → key ∈ quotaKeys stamp.2.1 stamp.2.2.1)
    (hstable : (authLogic config).Stable pid assertion) (h : Quotas pid keys w ∧ assertion w)
    (hlocks : ∀ before, assertion before → assertion (before.note pid {}))
    (hread : ∀ db, fact (read db) →
      (db.phoneVerifications.countP fun row => cond (quotaStamp row)) ≤ bound) :
    (authLogic config).Holds request pid (find (fun _ => {}) read)
      (fun value s => (Quotas pid keys s ∧ assertion s) ∧
        (fact value → Counted pid key cond bound s)) (fun _ _ => True) w := by
  refine holds_locking _ (stable_both stable_quotas hstable) h fun before hbefore => ?_
  refine ⟨.nothing, fun later hrely hinv => ⟨?_, fun hfact => ?_⟩⟩
  · exact stable_both stable_quotas hstable hrely hinv ⟨hbefore.1, hlocks before hbefore.2⟩
  · refine (stable_counted : (authLogic config).Stable _ _) hrely hinv ⟨hbefore.1 key hkey, ?_⟩
    change (quotaRows key before.db.phoneVerifications).countP cond ≤ bound
    rw [countP_quotaRows hcond]
    exact hread before.db hfact

/-! ### Reserving a code -/

/-- The stamps of the requests of a phone in the cooldown before a time. -/
def inCooldown (phoneE164 : String) (now : Timestamp)
    (stamp : RowId × String × String × Timestamp) : Bool :=
  stamp.2.1 = phoneE164 ∧ now - stamp.2.2.2 < 60000

/-- The stamps of some requests after a time. -/
def isSince (cond : RowId × String × String × Timestamp → Bool) (since : Timestamp)
    (stamp : RowId × String × String × Timestamp) : Bool :=
  cond stamp ∧ since < stamp.2.2.2

theorem key_of_isSince {cond : RowId × String × String × Timestamp → Bool} {since : Timestamp}
    {key : String} (hcond : ∀ stamp, cond stamp → key ∈ quotaKeys stamp.2.1 stamp.2.2.1) :
    ∀ stamp, isSince cond since stamp → key ∈ quotaKeys stamp.2.1 stamp.2.2.1 := by
  intro stamp hstamp
  simp only [isSince, decide_eq_true_eq] at hstamp
  exact hcond stamp hstamp.1

/-- No request of a phone is too recent if its latest one is not. -/
theorem cooldown_of_latest {phoneE164 : String} {now : Timestamp} {db : Database}
    (h : ¬ (findLatest phoneE164 db).any fun row => now - row.createdAt < 60000) :
    (db.phoneVerifications.countP fun row => inCooldown phoneE164 now (quotaStamp row)) ≤ 0 := by
  refine Nat.le_of_eq (List.countP_eq_zero.2 fun row hrow hrecent => h ?_)
  obtain ⟨hphone, hrecent⟩ := of_decide_eq_true hrecent
  have hphone : row.phoneE164 = phoneE164 := hphone
  obtain ⟨newest, hnewest, hsame, hlatest, -⟩ := exists_latest hrow
  have hfind : (findLatest phoneE164 db).isSome := by
    rw [findLatest, List.find?_isSome]
    exact ⟨newest, hnewest, by simp [hsame, hphone, hlatest]⟩
  obtain ⟨latest, hfound⟩ := Option.isSome_iff_exists.1 hfind
  have hcond := List.find?_some hfound
  simp only [decide_eq_true_eq] at hcond
  -- The row that is found is at least as recent as the one at hand.
  have hle : created row ≤ created latest :=
    isLatest_iff.1 hcond.2 row hrow (hphone.trans hcond.1.symm)
  have htime : row.createdAt ≤ latest.createdAt := Prod.Lex.monotone_fst _ _ hle
  rw [hfound]
  simp only [Option.any_some, decide_eq_true_eq]
  exact lt_of_le_of_lt (Int.sub_le_sub_left htime now) hrecent

theorem insertVerification_ok {input : ReserveInput} {now : Timestamp} {id : RowId}
    {row : PhoneVerification} {before after : Database}
    (h : insertVerification input now id before = .ok (row, after)) :
    row = newVerification input now id ∧ (∀ other ∈ before.phoneVerifications, other.id ≠ id) ∧
      authTables after = { authTables before with
        verifications := before.phoneVerifications ++ [row] } := by
  obtain ⟨_, hunused, h⟩ := bind_eq_ok_iff.1 h
  obtain ⟨rfl, rfl⟩ := Prod.mk.inj (pure_eq_ok_iff.1 h)
  exact ⟨rfl, require_eq_ok_iff.1 hunused, rfl⟩

theorem holds_reserveVerification {phoneE164 purpose requestIpHash : String}
    (hcall : request.requestsCode) :
    (authLogic config).Holds request pid
      (reserveVerification (reserveInput phoneE164 purpose requestIpHash)) (fun _ _ => True)
      (fun _ _ => True) w := by
  have hend : ∀ reservation s, (authLogic config).Holds request pid (endTransaction reservation)
      (fun (_ : Reservation) _ => True) (fun _ _ => True) s := fun reservation s =>
    (holds_endTransaction at_own).mono (fun _ _ _ _ => trivial) fun _ _ _ h => h
  have hphoneKey : "phone:" ++ phoneE164 ∈
      (quotaKeys phoneE164 requestIpHash).mergeSort (· ≤ ·) := by simp [quotaKeys]
  have hipKey : "ip:" ++ requestIpHash ∈
      (quotaKeys phoneE164 requestIpHash).mergeSort (· ≤ ·) := by simp [quotaKeys]
  have hphoneStamp : ∀ stamp : RowId × String × String × Timestamp,
      decide (stamp.2.1 = phoneE164) = true →
        "phone:" ++ phoneE164 ∈ quotaKeys stamp.2.1 stamp.2.2.1 := by
    intro stamp hstamp
    simp [quotaKeys, of_decide_eq_true hstamp]
  have hipStamp : ∀ stamp : RowId × String × String × Timestamp,
      decide (stamp.2.2.1 = requestIpHash) = true →
        "ip:" ++ requestIpHash ∈ quotaKeys stamp.2.1 stamp.2.2.1 := by
    intro stamp hstamp
    simp [quotaKeys, of_decide_eq_true hstamp]
  have hnone : Quotas pid [] w := fun _ hmem => by cases hmem
  refine holds_body (holds_then (holds_lockQuotaKeys hnone) fun _ s hquotas => ?_)
  refine holds_time fun now => holds_check fun _ _ => ?_
  have hcooldownStamp : ∀ stamp, inCooldown phoneE164 now stamp = true →
      "phone:" ++ phoneE164 ∈ quotaKeys stamp.2.1 stamp.2.2.1 := fun stamp hstamp =>
    hphoneStamp stamp (decide_eq_true (of_decide_eq_true hstamp).1)
  refine holds_then (holds_counting
    (fun latest => ¬ latest.any fun row => now - row.createdAt < 60000) hphoneKey hcooldownStamp
    stable_true ⟨hquotas, trivial⟩ (fun _ _ => trivial) fun db => cooldown_of_latest)
    fun latest s hlatest => ?_
  obtain ⟨⟨hquotas, -⟩, hcooldown⟩ := hlatest
  split
  · exact hend _ _
  rename_i hcool
  refine holds_then (holds_counting (fun count => count < 5) hphoneKey (key_of_isSince hphoneStamp)
    stable_counted ⟨hquotas, hcooldown hcool⟩ (fun _ h => h) fun db => Nat.le_of_lt_succ)
    fun phoneRequests s hphoneRequests => ?_
  obtain ⟨⟨hquotas, hcooldown⟩, hphoneCount⟩ := hphoneRequests
  split
  · exact hend _ _
  rename_i hphoneLimit
  have hphoneCount := hphoneCount (Nat.lt_of_not_le hphoneLimit)
  refine holds_then (holds_counting (fun count => count < 20) hipKey (key_of_isSince hipStamp)
    (stable_both stable_counted stable_counted) ⟨hquotas, hcooldown, hphoneCount⟩ (fun _ h => h)
    fun db => Nat.le_of_lt_succ) fun ipRequests s hipRequests => ?_
  obtain ⟨⟨hquotas, hcooldown, hphoneCount⟩, hipCount⟩ := hipRequests
  split
  · exact hend _ _
  rename_i hipLimit
  have hipCount := hipCount (Nat.lt_of_not_le hipLimit)
  refine holds_via (fun _ _ => True) ?_ fun _ _ _ => Logic.holds_pure later_true
  refine holds_draw _ (stable_both stable_quotas (stable_both (stable_both stable_counted
    stable_counted) stable_counted)) ⟨hquotas, ⟨hcooldown, hphoneCount⟩, hipCount⟩ ?_
    fun _ _ _ _ _ _ => later_true
  rintro before id row db ⟨hquotas, ⟨⟨-, hcooldown⟩, -, hphoneCount⟩, -, hipCount⟩ hnew hok
  obtain ⟨rfl, hunused, hdb⟩ := insertVerification_ok hok
  rw [countP_quotaRows hcooldownStamp] at hcooldown
  rw [countP_quotaRows (key_of_isSince hphoneStamp)] at hphoneCount
  rw [countP_quotaRows (key_of_isSince hipStamp)] at hipCount
  rw [hdb]
  refine .reservedCode hcall ⟨hnew, hunused, rfl, rfl, rfl, fun other hother hsame => ?_,
    Nat.lt_succ_of_le hphoneCount, Nat.lt_succ_of_le hipCount, fun key hkey => hquotas key ?_⟩
  · by_contra hrecent
    refine List.countP_eq_zero.1 (Nat.le_zero.1 hcooldown) other hother (decide_eq_true ⟨hsame, ?_⟩)
    exact lt_of_not_ge hrecent
  · exact List.mem_mergeSort.2 hkey

/-! ### Sending a code -/

theorem bcryptHash_ne_pending {hash : String} {candidate : Text}
    (h : ∃ salt, hash = config.bcryptHash salt candidate) : hash ≠ "pending" := by
  obtain ⟨salt, rfl⟩ := h
  intro hpending
  have hcompare := config.compare_of_prefix salt candidate candidate rfl
  rw [hpending, config.compare_pending] at hcompare
  cases hcompare

theorem holds_sendCode {verification : PhoneVerification} {phoneE164 : String} {code : Text}
    (hcall : request.requestsCode) :
    (authLogic config).Holds request pid (sendCode config verification phoneE164 code)
      (fun _ _ => True) (fun _ _ => True) w := by
  refine holds_then (holds_hash at_own) fun codeHash s hhash => ?_
  refine holds_outside fun sent => holds_check fun _ _ => ?_
  refine holds_via (fun _ _ => True) ?_ fun activated s _ => holds_check fun _ _ =>
    Logic.holds_pure later_true
  refine holds_time fun now => ?_
  refine (holds_record (fun _ => True) at_own fun before activated db _ hok => ⟨?_, trivial⟩).mono
    (fun _ _ _ _ => trivial) fun _ _ _ h => h
  obtain ⟨-, rfl⟩ := Prod.mk.inj (pure_eq_ok_iff.1 hok)
  exact .activatedCode hcall (bcryptHash_ne_pending hhash.1)

theorem holds_cleanUpRequest {verification : PhoneVerification} {returns : Unit → World → Prop}
    (hcall : request.requestsCode) :
    (authLogic config).Holds request pid (cleanUpRequest verification) returns (fun _ _ => True)
      w := by
  refine holds_via (fun _ _ => True) (holds_catch ?_ fun _ _ => Logic.holds_pure later_true)
    fun _ _ _ => Logic.holds_throw later_true
  refine (holds_record (fun _ => True) at_own fun before done db _ hok => ⟨?_, trivial⟩).mono
    (fun _ _ _ _ => trivial) fun _ _ _ h => h
  obtain ⟨_, -, hok⟩ := bind_eq_ok_iff.1 hok
  obtain ⟨-, rfl⟩ := Prod.mk.inj (pure_eq_ok_iff.1 hok)
  exact .deletedCode hcall

theorem holds_requestPhoneCode {input : RequestPhoneCodeInput} {ip : Option Text}
    (hcall : request.requestsCode) :
    (authLogic config).Holds request pid (requestPhoneCode config input ip) (Answered request pid)
      (fun _ _ => True) w := by
  refine holds_check fun _ _ => holds_check fun phoneE164 _ => holds_outside fun drawn => ?_
  refine holds_then (holds_reserveVerification hcall) fun reservation s _ => ?_
  cases reservation with
  | reserved verification =>
      refine holds_via (fun _ _ => True) (holds_catch (holds_sendCode hcall) fun _ _ =>
        holds_cleanUpRequest hcall) fun _ _ _ => holds_reply fun _ _ => AuthReply.noConfusion
  | _ => exact Logic.holds_throw later_true

/-! ### Guessing a code -/

/-- The entries of a thread that has guessed a code. -/
def guessEvents (row : PhoneVerification) (purposes : List String) : List Event :=
  [.comparedCode row true, .claimedAttempt row purposes]

theorem guessed_of_at {row : PhoneVerification} {purposes : List String}
    (h : At pid known w) (hevents : guessEvents row purposes ⊆ known.events)
    (hsent : row.codeHash ≠ "pending") : Guessed pid w row.id purposes :=
  ⟨row, rfl, hsent, h.mem.2 (hevents (List.mem_cons_of_mem _ List.mem_cons_self)),
    h.mem.2 (hevents List.mem_cons_self)⟩

theorem holds_getUsable {phoneE164 : String} {purpose : Option String} (h : At pid known w) :
    (authLogic config).Holds request pid (getUsableVerification phoneE164 purpose)
      (fun _ => At pid known) (fun _ _ => True) w := by
  refine holds_then (holds_find (fun _ => True) h fun before _ => ⟨.nothing, trivial⟩) ?_
  rintro found s ⟨-, hat⟩
  refine holds_check fun row _ => holds_check fun _ _ => holds_check fun _ _ => ?_
  exact holds_check fun _ _ => Logic.holds_pure (stable_at.later hat)

/-- An update that finds no row of the codes changes nothing. -/
theorem authTables_of_find?_eq_none {cond : PhoneVerification → Bool}
    {set : PhoneVerification → PhoneVerification} {db : Database}
    (h : db.phoneVerifications.find? cond = none) :
    authTables { db with phoneVerifications := updateWhere cond set db.phoneVerifications } =
      authTables db := by
  rw [updateWhere_of_forall_not (List.find?_eq_none.1 h)]

theorem holds_claim {input : ClaimInput} (hcall : request.guesses = some input.purposes)
    (h : At pid {} w) :
    (authLogic config).Holds request pid (claimVerificationAttempt input)
      (fun claimed s => ∀ row ∈ claimed, At pid ⟨[.claimedAttempt row input.purposes], [], []⟩ s)
      (fun _ _ => True) w := by
  refine holds_reading _ stable_at h fun now s hat hnow => ?_
  refine (holds_recordAt (fun _ => True) hat hnow fun before claimed db hbefore hreading hok =>
    ⟨?_, trivial⟩).mono
    (fun claimed s _ hclaimed => ?_) fun _ _ _ h => h
  · obtain ⟨rfl, rfl⟩ := Prod.mk.inj (pure_eq_ok_iff.1 hok)
    have hfirst : ∀ row purposes, (pid, .claimedAttempt row purposes) ∉ before.log :=
      fun row purposes hmem => absurd (hbefore.mem.1 hmem) List.not_mem_nil
    cases hfound : before.db.phoneVerifications.find? (canClaim input now before.db) with
    | none =>
        rw [authTables_of_find?_eq_none hfound]
        exact .nothing
    | some row =>
        exact .claimedAttempt hcall (List.mem_of_find?_eq_some hfound) (List.find?_some hfound)
          hreading hfirst
  · rintro row hrow
    obtain rfl := Option.mem_def.1 hrow
    exact hclaimed.2

/-- A claimed attempt is compared once. -/
theorem holds_compareCode {row : PhoneVerification} {phoneE164 : String} {code : Text}
    {purposes : List String} (hcall : request.guesses = some purposes)
    (h : At pid ⟨[.claimedAttempt row purposes], [], []⟩ w) :
    (authLogic config).Holds request pid (compareCode config row phoneE164 code)
      (fun _ s => row.codeHash ≠ "pending" ∧ At pid ⟨guessEvents row purposes, [], []⟩ s)
      (fun _ _ => True) w := by
  have hsent : config.bcryptCompare (pepperedCode config phoneE164 code) row.codeHash = true →
      row.codeHash ≠ "pending" := by
    intro hvalid hpending
    rw [hpending, config.compare_pending] at hvalid
    cases hvalid
  refine holds_then (holds_entry h fun before hbefore => ?_) fun _ s hat => ?_
  · refine .comparedCode hcall (hbefore.mem.2 List.mem_cons_self) ?_ hsent
    rw [hbefore.events]
    simp [isComparisonOf, isClaimOf]
  · refine holds_ofExcept (fun _ hvalid => ?_) fun _ _ => later_true
    have hvalid := require_eq_ok_iff.1 hvalid
    rw [hvalid] at hat
    exact (stable_and stable_at).later ⟨hsent hvalid, hat⟩

theorem holds_guessCode {id : RowId} {phoneE164 : String} {purposes : List String} {code : Text}
    (hcall : request.guesses = some purposes) (h : At pid {} w) :
    (authLogic config).Holds request pid (guessCode config id phoneE164 purposes code)
      (fun row s => row.codeHash ≠ "pending" ∧ At pid ⟨guessEvents row purposes, [], []⟩ s)
      (fun _ _ => True) w := by
  refine holds_then (holds_claim hcall h) fun claimed s hclaimed => ?_
  refine holds_check fun row hrow => ?_
  have hat := hclaimed row (requireFound_eq_ok hrow)
  refine holds_then (holds_compareCode hcall hat) fun _ s hcompared => ?_
  exact Logic.holds_pure ((stable_and stable_at).later hcompared)

/-! ### Verifying a code -/

theorem holds_markVerified {row : PhoneVerification}
    (hcall : request.guesses = some ["signup", "login"]) (hsent : row.codeHash ≠ "pending")
    (h : At pid ⟨guessEvents row ["signup", "login"], [], []⟩ w) :
    (authLogic config).Holds request pid (markVerified row.id)
      (fun verified s => ∀ found ∈ verified, ∃ now,
        At pid ⟨.verifiedCode row.id now :: guessEvents row ["signup", "login"], [], []⟩ s)
      (fun _ _ => True) w := by
  refine holds_time fun verifiedAt => holds_reading _ stable_at h fun now s hat hnow => ?_
  refine (holds_recordAt (fun _ => True) hat hnow fun before verified db hbefore hreading hok =>
    ⟨?_, trivial⟩).mono
    (fun verified s _ hverified => ?_) fun _ _ _ h => h
  · obtain ⟨rfl, rfl⟩ := Prod.mk.inj (pure_eq_ok_iff.1 hok)
    cases hfound : before.db.phoneVerifications.find? (canVerify row.id now before.db) with
    | none =>
        rw [authTables_of_find?_eq_none hfound]
        exact .nothing
    | some found =>
        exact .verifiedCode hcall (List.mem_of_find?_eq_some hfound) (List.find?_some hfound)
          (guessed_of_at hbefore (List.Subset.refl _) hsent) hreading
  · rintro found hfound
    obtain rfl := Option.mem_def.1 hfound
    exact ⟨now, hverified.2⟩

theorem holds_findUserByPhone {phoneE164 : String} (h : At pid known w) (hearly : Early known) :
    (authLogic config).Holds request pid (findUserByPhone phoneE164)
      (fun found => At pid (known.note { accounts := (found.map User.userId).toList }))
      (fun _ _ => True) w := by
  refine (holds_find (fun _ => True) h fun before hbefore => ⟨?_, trivial⟩).mono
    (fun _ _ _ hfound => hfound.2) fun _ _ _ h => h
  cases hfound : before.db.users.find? fun user => user.phone = some phoneE164 with
  | none => exact .nothing
  | some user =>
      have hphone := List.find?_some hfound
      simp only [decide_eq_true_eq] at hphone
      refine .found (.phone user (List.mem_of_find?_eq_some hfound) rfl ?_) (hearly.first hbefore)
      rw [hphone]
      exact Option.some_ne_none _

theorem holds_issuePhoneToken {phoneE164 : String} {verificationId : RowId} :
    (authLogic config).Holds request pid
      (do
        let token ← issuePhoneToken config phoneE164 verificationId
        return AuthReply.verificationToken token) (Answered request pid) (fun _ _ => True) w := by
  refine holds_via (fun _ _ => True) ?_ fun _ _ _ => holds_reply fun _ _ => AuthReply.noConfusion
  refine holds_outside fun nonce => holds_time fun signedAt => holds_time fun now => ?_
  refine holds_then (holds_record (fun _ => True) at_own fun before _ db _ hok => ⟨?_, trivial⟩)
    fun _ _ _ => Logic.holds_pure later_true
  obtain ⟨_, hunique, hok⟩ := bind_eq_ok_iff.1 hok
  obtain ⟨_, -, hok⟩ := bind_eq_ok_iff.1 hok
  obtain ⟨-, rfl⟩ := Prod.mk.inj (pure_eq_ok_iff.1 hok)
  exact .createdPhoneToken (require_eq_ok_iff.1 hunique) rfl

theorem holds_verifyPhoneCode {input : VerifyPhoneCodeInput} {deviceId : UuidText}
    (hlogs : request.logsIn) (hcall : request.guesses = some ["signup", "login"]) (h : At pid {} w) :
    (authLogic config).Holds request pid (verifyPhoneCode config input deviceId)
      (fun reply s => Answered request pid reply s ∧ Authorised request pid s) (fun _ _ => True) w := by
  refine holds_check fun phoneE164 _ => ?_
  refine holds_then (holds_getUsable h) fun verification s hat => holds_check fun _ _ => ?_
  refine holds_then (holds_guessCode hcall hat) fun row s hguessed => ?_
  refine holds_then (holds_markVerified hcall hguessed.1 hguessed.2) fun verified s hverified => ?_
  refine holds_check fun found hfound => ?_
  obtain ⟨now, hat⟩ := hverified found (requireFound_eq_ok hfound)
  have hearly : Early ⟨.verifiedCode row.id now :: guessEvents row ["signup", "login"], [], []⟩ := by
    simp [Early, guessEvents, Event.storesSession, Event.ofTokens]
  have hauthorised : Authorised request pid s := by
    intro purposes hpurposes
    obtain rfl := Option.some.inj (hcall.symm.trans hpurposes)
    refine ⟨row.id, .verifiedCode row.id now, .verified now, ?_⟩
    rw [hat.events]
    exact List.mem_cons_self
  refine Logic.Holds.frame ?_ hauthorised stable_authorised AuthStep.authorised
  refine holds_then (holds_findUserByPhone hat hearly) fun user s hat => ?_
  cases user with
  | none => exact holds_issuePhoneToken
  | some user =>
      have hspent : HasSpent config request (.verifiedCode row.id now ::
          guessEvents row ["signup", "login"]) :=
        hasSpent_of_none (AuthRequest.uses_of_guesses hcall)
      exact holds_issueTokens hlogs hat List.mem_cons_self hspent hearly.unstored

/-! ### Resetting a password -/

/-- The account of a reset is locked, and with it what refers to it. -/
structure Resetting (pid : ℕ) (known : Known) (user : User) (w : World) : Prop where
  at_known : At pid known w
  owner : .user user ∈ known.rows
  locked : Holds w.locks pid .update (.user user.userId)

theorem stable_resetting {user : User} : (authLogic config).Stable pid (Resetting pid known user) :=
  fun _ _ hrely _ h => ⟨h.at_known.keep hrely, h.owner, hrely.locked.locks h.locked⟩

/-- All sessions of an account have been found. -/
def FoundSessions (user : User) (sessions : List RowId) (w : World) : Prop :=
  ∀ session ∈ w.db.refreshTokens, session.userId = user.userId → session.id ∈ sessions

/-- A locked account gets no new session. -/
theorem stable_foundSessions {user : User} {sessions : List RowId} :
    (authLogic config).Stable pid
      (fun w => Resetting pid known user w ∧ FoundSessions user sessions w) := by
  rintro s before hrely hinv ⟨hresetting, hfound⟩
  refine ⟨stable_resetting hrely hinv hresetting, fun session hmem hsame => ?_⟩
  obtain ⟨old, hold, hid, huser⟩ := hrely.locked.references user.userId (.session session.id)
    ⟨session, hmem, rfl, hsame⟩ hresetting.locked
  rw [← hid]
  exact hfound old hold huser

theorem holds_lockOwner {phoneE164 : String} (h : At pid known w) :
    (authLogic config).Holds request pid
      (lock (fun _ => {}) .update (userRows fun user => user.phone = some phoneE164)
        fun db => db.users.find? fun user => user.phone = some phoneE164)
      (fun found s => ∀ user ∈ found, user.phone = some phoneE164 ∧
        Resetting pid (known.lock [.user user]) user s) (fun _ _ => True) w := by
  refine holds_locking (At pid known) stable_at h fun before hbefore => ⟨.nothing, ?_⟩
  intro later hrely hinv user huser
  have hphone := List.find?_some huser
  simp only [decide_eq_true_eq] at hphone
  have hmem : user ∈ before.db.users := List.mem_of_find?_eq_some huser
  have hkey : .user user.userId ∈ userRows (fun user => user.phone = some phoneE164) before.db :=
    List.mem_map.2 ⟨user, List.mem_filter.2 ⟨hmem, decide_eq_true hphone⟩, rfl⟩
  refine ⟨hphone, (stable_resetting : (authLogic config).Stable _ _) hrely hinv ⟨?_, ?_, ?_⟩⟩
  · refine hbefore.lock rfl fun row hrow => ?_
    obtain rfl := List.mem_singleton.1 hrow
    exact ⟨hmem, hkey⟩
  · exact List.mem_cons_self
  · exact holds_acquire hkey

/-- The code of a reset that was found usable stays so. -/
theorem holds_acceptCode {input : ResetInput} {now : Timestamp} {user : User}
    (hcall : request.guesses = some ["password_reset"])
    (hguessed : ∀ before, At pid known before →
      Guessed pid before input.verificationId ["password_reset"])
    (h : Resetting pid known user w) (hnow : w.clocks now) :
    (authLogic config).Holds request pid
      (lock (fun verified =>
          { events := if verified then [.acceptedCode input.verificationId now] else [] })
        .noKeyUpdate
        (fun db => (db.phoneVerifications.filter (canReset input now db)).map
          fun row => .verification row.id)
        fun db => db.phoneVerifications.any (canReset input now db))
      (fun verified s => verified = true → ∃ row, row.id = input.verificationId ∧
        row.verifiedAt = none ∧ Resetting pid ⟨.acceptedCode input.verificationId now :: known.events,
          known.accounts, .verification row :: known.rows⟩ user s) (fun _ _ => True) w := by
  refine holds_locking _ (stable_reading stable_resetting) ⟨h, hnow⟩ fun before hboth => ?_
  obtain ⟨hbefore, hreading⟩ := hboth
  cases hany : before.db.phoneVerifications.any (canReset input now before.db) with
  | false => exact ⟨.nothing, fun _ _ _ hverified => by cases hverified⟩
  | true =>
      obtain ⟨row, hmem, hcan⟩ := List.any_eq_true.1 hany
      refine ⟨.acceptedCode hcall hmem hcan (hguessed before hbefore.at_known) hreading,
        ?_⟩
      intro later hrely hinv _
      simp only [canReset, canVerify, decide_eq_true_eq] at hcan
      have hkey : LockedRow.verification row.id ∈ (before.db.phoneVerifications.filter
          (canReset input now before.db)).map fun row => LockedRow.verification row.id :=
        List.mem_map.2 ⟨row, List.mem_filter.2 ⟨hmem, by
          simp only [canReset, canVerify, decide_eq_true_eq]
          exact hcan⟩, rfl⟩
      have hlocked : At pid (known.lock [.verification row]) (before.withLocks (acquire pid .noKeyUpdate
          ((before.db.phoneVerifications.filter (canReset input now before.db)).map fun row =>
            .verification row.id) before.locks)) := by
        refine hbefore.at_known.lock rfl fun other hother => ?_
        obtain rfl := List.mem_singleton.1 hother
        exact ⟨hmem, hkey⟩
      refine ⟨row, hcan.1.1, hcan.1.2.1,
        (stable_resetting : (authLogic config).Stable _ _) hrely hinv ⟨?_, ?_, ?_⟩⟩
      · exact hlocked.note { events := [.acceptedCode input.verificationId now] }
      · exact List.mem_cons_of_mem _ hbefore.owner
      · exact hbefore.locked.acquire

theorem holds_findSessions {user : User} (h : Resetting pid known user w) :
    (authLogic config).Holds request pid
      (lock (fun _ => {}) .update (fun db => (sessionsOf user.userId db).map .session)
        (sessionsOf user.userId))
      (fun sessions s => Resetting pid known user s ∧ FoundSessions user sessions s)
      (fun _ _ => True) w := by
  refine holds_locking _ stable_resetting h fun before hbefore => ⟨.nothing, ?_⟩
  refine stable_foundSessions.later ⟨⟨?_, hbefore.owner, hbefore.locked.acquire⟩, ?_⟩
  · exact hbefore.at_known.lock rfl fun _ hmem => absurd hmem List.not_mem_nil
  · intro session hmem hsame
    exact List.mem_map.2 ⟨session, List.mem_filter.2 ⟨hmem, decide_eq_true hsame⟩, rfl⟩

theorem writeReset_ok {input : ResetInput} {userId : Uuid} {verifiedAt : Timestamp}
    {sessions : List RowId} {before after : Database} {found : Option User}
    (h : writeReset input userId verifiedAt sessions before = .ok (found, after)) :
    authTables after = { authTables before with
      users := updateWhere (fun user => user.userId = userId)
        (fun user => { user with password := input.password }) before.users
      sessions := before.refreshTokens.filter fun session => session.id ∉ sessions
      verifications := updateWhere (fun row => row.id = input.verificationId)
        (verifyColumns verifiedAt) before.phoneVerifications } := by
  obtain ⟨_, -, h⟩ := bind_eq_ok_iff.1 h
  obtain ⟨-, rfl⟩ := Prod.mk.inj (pure_eq_ok_iff.1 h)
  rfl

theorem holds_resetPasswordWithVerification {input : ResetInput} {candidate : Text}
    (hcall : request.guesses = some ["password_reset"])
    (hguessed : ∀ before, At pid known before →
      Guessed pid before input.verificationId ["password_reset"])
    (hhashed : .hashed candidate input.password ∈ known.events) (h : At pid known w) :
    (authLogic config).Holds request pid (resetPasswordWithVerification input)
      (fun user s => ∀ found ∈ user, Authorised request pid s) (fun _ _ => True) w := by
  have hend : ∀ s, (authLogic config).Holds request pid (endTransaction (none : Option User))
      (fun user s => ∀ found ∈ user, Authorised request pid s) (fun _ _ => True) s := by
    intro s
    refine (holds_endTransaction at_own).mono ?_ fun _ _ _ h => h
    rintro _ s - ⟨rfl, -⟩ found hfound
    cases hfound
  refine holds_body (holds_then (holds_lockOwner h) fun owner s howner => ?_)
  cases owner with
  | none => exact hend s
  | some user =>
      obtain ⟨hphone, hresetting⟩ := howner user rfl
      refine holds_time fun verifiedAt => ?_
      refine holds_reading _ stable_resetting hresetting fun now s hresetting hnow => ?_
      have hguessed' : ∀ before, At pid (known.lock [.user user]) before →
          Guessed pid before input.verificationId ["password_reset"] := fun before hbefore =>
        hguessed before ⟨hbefore.events, hbefore.accounts, fun row hmem =>
          hbefore.rows row (List.mem_cons_of_mem _ hmem)⟩
      refine holds_then (holds_acceptCode hcall hguessed' hresetting hnow)
        fun verified s haccepted => ?_
      split
      · exact hend s
      rename_i hverified
      obtain ⟨row, hsame, hunverified, hresetting⟩ := haccepted (by simpa using hverified)
      refine holds_then (holds_findSessions hresetting) fun sessions s hfound => ?_
      -- All is locked: the account, its sessions and the row of the code.
      refine holds_draw _ stable_foundSessions hfound ?_ ?_
      · rintro before _ updated db ⟨hresetting, hall⟩ - hok
        have hat := hresetting.at_known
        rw [writeReset_ok hok]
        exact .resetPassword hcall (hat.mem.2 List.mem_cons_self) (hat.has List.mem_cons_self) hsame
          hunverified (hat.has hresetting.owner) hphone
          (hat.mem.2 (List.mem_cons_of_mem _ hhashed)) hall
      · intro before _ updated db _ _ later hrely hinv _ _ purposes hpurposes
        obtain rfl := Option.some.inj (hcall.symm.trans hpurposes)
        refine ⟨input.verificationId, _, .reset user.userId, ?_⟩
        rw [hrely.events]
        exact mem_own.2 (List.mem_append_left _ (mem_stamp.2 ⟨rfl, List.mem_cons_self⟩))

theorem holds_resetPasswordWithPhone {input : ResetPasswordInput}
    (hcall : request.guesses = some ["password_reset"]) (h : At pid {} w) :
    (authLogic config).Holds request pid (resetPasswordWithPhone config input)
      (fun reply s => Answered request pid reply s ∧ Authorised request pid s) (fun _ _ => True) w := by
  refine holds_check fun nextPassword _ => holds_check fun phoneE164 _ => ?_
  refine holds_then (holds_getUsable h) fun verification s hat => ?_
  refine holds_then (holds_guessCode hcall hat) fun row s hguessed => ?_
  obtain ⟨hsent, hat⟩ := hguessed
  refine holds_then (holds_hash hat) fun password s hhash => ?_
  refine holds_via (fun user s => ∀ found ∈ user, Authorised request pid s) ?_ ?_
  · refine holds_resetPasswordWithVerification hcall (fun before hbefore => ?_) List.mem_cons_self
      hhash.2
    exact guessed_of_at hbefore (List.subset_cons_self _ _) hsent
  · intro user s hauthorised
    refine holds_check fun found hfound => ?_
    refine Logic.Holds.frame (holds_reply fun _ _ => AuthReply.noConfusion)
      (hauthorised found (requireFound_eq_ok hfound)) stable_authorised AuthStep.authorised

end ChatTea.Phone
