import ChatTea.Auth.Deletion

/-!
# Sessions from before a password reset

A password reset deletes every session of its account. A login that has found the
account with its old password may save another one later; no session from before a
reset is left where no such login is under way when a reset commits.

## Main definitions

* `WrittenBy` — the stored hash goes back to one that a login has saved
* `ResetsIdle` — a reset while no login that has found the account goes on
* `OldPasswordEnded` — what a reset ends

## Main results

* `keeps_oldPasswordEnded` — under the condition it holds in every run
* `reset_ends_old_sessions` — no session is left of a login from before a reset
-/

namespace ChatTea.Auth

open History Interleaving Phone RowLocks Table Transaction Users

variable {config : AuthConfig} {request : AuthRequest} {pid p q : ℕ} {w : World} {s : AuthState}
  {trace : Trace} {tables : AuthTables} {log : List (ℕ × Event)} {hash : String}

/-- The hash was saved by a thread, or has replaced one that was. -/
inductive WrittenBy (log : List (ℕ × Event)) (p : ℕ) : String → Prop
  | saved {userId deviceId hash} (mem : (p, .savedSession userId deviceId hash) ∈ log) :
      WrittenBy log p hash
  | rotated {q userId deviceId expected next} (written : WrittenBy log p expected)
      (mem : (q, .rotatedSession userId deviceId expected next) ∈ log) : WrittenBy log p next

/-- When the step resets the password of an account, no login that has found it is still
under way. -/
def ResetsIdle (before after : World) : Prop :=
  ∀ q id userId, after.log = (q, .resetPassword id userId) :: before.log →
    ∀ p user, (p, .foundByEmail user) ∈ before.log → user.userId = userId →
      (p, userId) ∉ before.reading

/-- A reset ends the logins that have found the account before it, and their sessions. -/
structure OldPasswordEnded (s : AuthState) : Prop where
  idle : ∀ {p user}, (p, .foundByEmail user) ∈ s.log → (p, user.userId) ∈ s.reading →
    ∀ q id, ¬ After s.log (q, .resetPassword id user.userId) (p, .foundByEmail user)
  ended : ∀ session ∈ s.tables.sessions, ∀ p user, WrittenBy s.log p session.refreshToken →
    user.userId = session.userId →
      ∀ q id, ¬ After s.log (q, .resetPassword id user.userId) (p, .foundByEmail user)

/-! ### Who has written a hash -/

theorem WrittenBy.wasStored (h : WrittenBy s.log p hash) : WasStored hash s := by
  cases h with
  | saved mem => exact ⟨_, mem, _, _, .saved⟩
  | rotated written mem => exact ⟨_, mem, _, _, .rotated _⟩

/-- The entries of a step that stores no hash say nothing about who has written one. -/
theorem WrittenBy.of_quiet {events : List Event}
    (hquiet : ∀ event ∈ events, ¬ Event.storesSession event)
    (h : WrittenBy (stamp pid events ++ log) p hash) : WrittenBy log p hash := by
  induction h with
  | saved mem =>
      rcases List.mem_append.1 mem with hnew | hold
      · exact absurd rfl (hquiet _ (mem_stamp.1 hnew).2)
      · exact .saved hold
  | rotated written mem ih =>
      rcases List.mem_append.1 mem with hnew | hold
      · exact absurd rfl (hquiet _ (mem_stamp.1 hnew).2)
      · exact .rotated ih hold

/-- A hash that was never stored is written by the thread that saves it first. -/
theorem WrittenBy.of_saved {userId : Uuid} {deviceId new : String}
    (hinv : SessionInvariant config s) (hnew : ¬ WasStored new s)
    (h : WrittenBy ((pid, .savedSession userId deviceId new) :: s.log) p hash) :
    WrittenBy s.log p hash ∨ (hash = new ∧ p = pid) := by
  induction h with
  | saved mem =>
      rcases List.mem_cons.1 mem with heq | hold
      · obtain ⟨rfl, hevent⟩ := Prod.mk.inj heq
        exact Or.inr ⟨(Event.savedSession.inj hevent).2.2, rfl⟩
      · exact Or.inl (.saved hold)
  | rotated written mem ih =>
      rcases List.mem_cons.1 mem with heq | hold
      · cases (Prod.mk.inj heq).2
      · rcases ih with hexpected | ⟨rfl, -⟩
        · exact Or.inl (.rotated hexpected hold)
        · exact absurd (hinv.rotated_gone hold).stored hnew

/-- A hash that was never stored goes back to the one it replaces. -/
theorem WrittenBy.of_rotated {userId : Uuid} {deviceId expected next : String}
    (hinv : SessionInvariant config s) (hnew : ¬ WasStored next s) (hexpected : WasStored expected s)
    (h : WrittenBy ((pid, .rotatedSession userId deviceId expected next) :: s.log) p hash) :
    WrittenBy s.log p hash ∨ (hash = next ∧ WrittenBy s.log p expected) := by
  induction h with
  | saved mem =>
      rcases List.mem_cons.1 mem with heq | hold
      · cases (Prod.mk.inj heq).2
      · exact Or.inl (.saved hold)
  | rotated written mem ih =>
      rcases List.mem_cons.1 mem with heq | hold
      · obtain ⟨-, -, rfl, rfl⟩ := Event.rotatedSession.inj (Prod.mk.inj heq).2
        rcases ih with hwritten | ⟨rfl, -⟩
        · exact Or.inr ⟨rfl, hwritten⟩
        · exact absurd hexpected hnew
      · rcases ih with hwritten | ⟨rfl, -⟩
        · exact Or.inl (.rotated hwritten hold)
        · exact absurd (hinv.rotated_gone hold).stored hnew

/-- Only a reset is later than anything by a reset. -/
theorem after_of_enter {events : List Event} {id : RowId} {userId : Uuid} {earlier : ℕ × Event}
    (hquiet : .resetPassword id userId ∉ events)
    (h : After (stamp pid events ++ log) (q, .resetPassword id userId) earlier) :
    After log (q, .resetPassword id userId) earlier := by
  induction events with
  | nil => exact h
  | cons event events ih =>
      rcases after_cons.1 h with hold | ⟨heq, -⟩
      · exact ih (fun hmem => hquiet (List.mem_cons_of_mem _ hmem)) hold
      · exact absurd (List.mem_cons.2 (Or.inl (Prod.mk.inj heq).2.symm)) hquiet

/-! ### What one step does -/

theorem AuthChange.first_of_accounts {userId : Uuid}
    (h : AuthChange config request pid w trace tables) (hmem : userId ∈ trace.accounts) :
    ∀ user, (pid, .foundByEmail user) ∉ w.log := by
  cases h with
  | foundByEmail mem password first => exact first
  | found reaches first => exact first
  | createdUser call phoneUse kakaoUse first isNew number_eq own needs => exact first
  | rotatedSession call busy signed name validated current => exact absurd hmem List.not_mem_nil
  | _ => exact absurd hmem List.not_mem_nil

/-- A reset deletes every session of its account. -/
theorem AuthChange.of_reset {id : RowId} {userId : Uuid}
    (h : AuthChange config request pid w trace tables)
    (hmem : .resetPassword id userId ∈ trace.events) :
    trace = { events := [.resetPassword id userId] } ∧
      ∀ session ∈ tables.sessions, session.userId ≠ userId := by
  cases h with
  | resetPassword call accepted mem same unverified owner phone hashed all =>
      obtain ⟨rfl, rfl⟩ := Event.resetPassword.inj (List.mem_singleton.1 hmem)
      refine ⟨rfl, fun session hsession hsame => ?_⟩
      obtain ⟨hold, hkept⟩ := List.mem_filter.1 hsession
      exact of_decide_eq_true hkept (all session hold hsame)
  | rotatedSession call busy signed name validated current =>
      cases List.mem_singleton.1 hmem
  | _ => simp at hmem

/-- Who has written the hash of a session: as before, or the thread that saves it. -/
theorem AuthChange.written (hinv : SessionInvariant config (authState w))
    (h : AuthChange config request pid w trace tables) {session : RefreshToken}
    (hmem : session ∈ tables.sessions)
    (hwritten : WrittenBy (stamp pid trace.events ++ w.log) p session.refreshToken) :
    (∃ old ∈ w.db.refreshTokens, old.userId = session.userId ∧
      WrittenBy w.log p old.refreshToken) ∨ (p = pid ∧ (p, session.userId) ∈ w.reading) := by
  have hkept {events : List Event} (hold : session ∈ w.db.refreshTokens)
      (hquiet : ∀ event ∈ events, ¬ Event.storesSession event)
      (hwritten : WrittenBy (stamp pid events ++ w.log) p session.refreshToken) :
      ∃ old ∈ w.db.refreshTokens, old.userId = session.userId ∧
        WrittenBy w.log p old.refreshToken := ⟨session, hold, rfl, hwritten.of_quiet hquiet⟩
  have hstored (hold : session ∈ w.db.refreshTokens) : WasStored session.refreshToken (authState w) := by
    obtain ⟨entry, hentry, hstores⟩ := hinv.stored session hold
    exact ⟨entry, hentry, _, _, hstores⟩
  cases h with
  | savedSession call busy signed name =>
      have hnew := (signed.mayStore name).unstored_hash hinv
      rcases WrittenBy.of_saved hinv hnew hwritten with hbefore | ⟨hhash, rfl⟩
      · rcases mem_putSession hmem with hold | ⟨-, -, hhash⟩
        · exact Or.inl ⟨session, hold, rfl, hbefore⟩
        · rw [hhash] at hbefore
          exact absurd (WrittenBy.wasStored hbefore) hnew
      · rcases mem_putSession hmem with hold | ⟨huser, -, -⟩
        · exact absurd (hhash ▸ hstored hold) hnew
        · rw [huser]
          exact Or.inr ⟨rfl, busy⟩
  | @rotatedSession input now deviceId call busy signed name validated current =>
      have hnew := (signed.mayStore name).unstored_hash hinv
      obtain ⟨row, hrow, hcan⟩ := List.any_eq_true.1 current
      have hexpected : WasStored input.expectedRefreshToken (authState w) := by
        obtain ⟨entry, hentry, hstores⟩ := hinv.stored row hrow
        rw [(of_decide_eq_true hcan).2.1] at hstores
        exact ⟨entry, hentry, _, _, hstores⟩
      rcases WrittenBy.of_rotated hinv hnew hexpected hwritten with hbefore | ⟨hhash, hbefore⟩
      · rcases mem_updateWhere.1 hmem with ⟨old, hold, -, rfl⟩ | ⟨hold, -⟩
        · exact absurd (WrittenBy.wasStored hbefore) hnew
        · exact Or.inl ⟨session, hold, rfl, hbefore⟩
      · rcases mem_updateWhere.1 hmem with ⟨old, hold, hcond, rfl⟩ | ⟨hold, -⟩
        · have hcurrent := (of_decide_eq_true hcond).2.1
          rw [← hcurrent] at hbefore
          exact Or.inl ⟨old, hold, rfl, hbefore⟩
        · exact absurd (hhash ▸ hstored hold) hnew
  | deletedSession call =>
      exact Or.inl (hkept (List.mem_of_mem_filter hmem) (by simp) hwritten)
  | resetPassword call accepted mem same unverified owner phone hashed all =>
      exact Or.inl (hkept (List.mem_of_mem_filter hmem) (by simp [Event.storesSession]) hwritten)
  | managed call keeps =>
      exact Or.inl (hkept (List.mem_of_mem_filter hmem) (by simp) hwritten)
  | erased call current =>
      exact Or.inl (hkept (List.mem_of_mem_filter hmem) (by simp) hwritten)
  | _ => exact Or.inl (hkept hmem (by simp [Event.storesSession]) hwritten)

/-! ### Runs -/

theorem OldPasswordEnded.enter {after : World} (hinv : SessionInvariant config (authState w))
    (h : OldPasswordEnded (authState w)) (hchange : AuthChange config request pid w trace tables)
    (hafter : authState after = (authState w).enter pid trace tables)
    (hallowed : ResetsIdle w after) :
    OldPasswordEnded ((authState w).enter pid trace tables) where
  idle := by
    intro p user hfound hbusy q id hlater
    by_cases hreset : .resetPassword id user.userId ∈ trace.events
    · -- The reset is the step itself, and the login is still under way.
      obtain ⟨rfl, -⟩ := hchange.of_reset hreset
      have hlog : after.log = (pid, .resetPassword id user.userId) :: w.log :=
        congrArg AuthState.log hafter
      rcases AuthState.mem_enter.1 hfound with ⟨-, hnew⟩ | hold
      · cases List.mem_singleton.1 hnew
      · exact hallowed pid id user.userId hlog p user hold rfl hbusy
    · have hbefore := after_of_enter hreset hlater
      rcases List.mem_append.1 hbusy with hnew | hold
      · obtain ⟨rfl, haccount⟩ := mem_stamp.1 hnew
        exact hchange.first_of_accounts haccount user hbefore.earlier_mem
      · exact h.idle hbefore.earlier_mem hold q id hbefore
  ended := by
    intro session hmem p user hwritten hsame q id hlater
    by_cases hreset : .resetPassword id user.userId ∈ trace.events
    · exact (hchange.of_reset hreset).2 session hmem hsame.symm
    · have hbefore := after_of_enter hreset hlater
      rcases hchange.written hinv hmem hwritten with ⟨old, hold, huser, hold'⟩ | ⟨rfl, hbusy⟩
      · exact h.ended old hold p user hold' (hsame.trans huser.symm) q id hbefore
      · rw [← hsame] at hbusy
        exact h.idle hbefore.earlier_mem hbusy q id hbefore

theorem keeps_oldPasswordEnded (config : AuthConfig) :
    Keeps config ResetsIdle fun s => SessionInvariant config s ∧ OldPasswordEnded s where
  change := fun _ hchange hallowed hafter h =>
    ⟨h.1.enter hchange.session, h.2.enter h.1 hchange hafter hallowed⟩
  forget := fun hreading h => ⟨keeps_sessionInvariant.forget hreading h.1,
    fun hfound hbusy => h.2.idle hfound (hreading hbusy), h.2.ended⟩

/-- If no password is reset while a login that has found the account goes on, then no
session of an account goes back to a login that found it before a reset. -/
theorem reset_ends_old_sessions (config : AuthConfig) (db : Database)
    (hnew : db.refreshTokens = []) (c : Config World AuthRequest Failure AuthReply)
    (hrun : AuthRun config ResetsIdle db c) :
    ∀ session ∈ c.state.db.refreshTokens, ∀ p q user id,
      WrittenBy c.state.log p session.refreshToken → user.userId = session.userId →
        ¬ After c.state.log (q, .resetPassword id user.userId) (p, .foundByEmail user) := by
  intro session hmem p q user id hwritten hsame
  have hstart : OldPasswordEnded (startState db) := by
    refine ⟨fun hfound => absurd hfound List.not_mem_nil, fun session hmem => ?_⟩
    rw [startState, authTables, hnew] at hmem
    exact absurd hmem List.not_mem_nil
  obtain ⟨-, hended⟩ :=
    hrun.keeps (keeps_oldPasswordEnded config) ⟨sessionInvariant_start hnew, hstart⟩
  exact hended.ended session hmem p user hwritten hsame q id

/-! ### Logins before and after a reset -/

def oldHash : String := plainHash 7 "password1".toList

def newHash : String := plainHash 8 "password2".toList

def ownerWith (password : String) : User := { kakaoUser with password := password }

/-- A token of the account's phone. -/
def phoneToken (token : Text) : PhoneVerificationToken where
  tokenHash := AuthConfig.plain.hashToken token
  phoneE164 := "+821012345678"
  verificationId := 7
  expiresAt := 300000
  usedAt := none

def loginToken : PhoneVerificationToken := phoneToken "token".toList

def resetCode : PhoneVerification where
  id := 8
  phoneE164 := "+821012345678"
  codeHash := plainHash 0 (pepperedCode .plain "+821012345678" "000000".toList)
  purpose := "password_reset"
  expiresAt := 300000
  verifiedAt := none
  attemptCount := 0
  requestIpHash := ""
  createdAt := 0

/-- The tables in which logins and a reset meet. -/
def resetTables (password : String) (tokens : List PhoneVerificationToken)
    (code : PhoneVerification) (sessions : List RefreshToken) (rows : ℕ) : Database :=
  { Database.ofUsers [ownerWith password] with
    phoneVerificationTokens := tokens
    phoneVerifications := [code]
    refreshTokens := sessions
    nextRowId := rows }

/-- A login with a password and a token of the phone. -/
def loginWith (password token : Text) : AuthRequest :=
  .signin ⟨"user@example.test".toList, password, token⟩ oneDevice

def passwordLogin : AuthRequest := loginWith "password1".toList "token".toList

def passwordReset : AuthRequest :=
  .resetPasswordWithPhone ⟨"01012345678".toList, "000000".toList, "password2".toList⟩

/-- What a login has entered when it has hashed its token. -/
def hashedLog (pid salt : ℕ) (stored : String) (token : Text) : List (ℕ × Event) :=
  [(pid, .hashed (refreshToken .plain kakaoUserId oneDevice 5) (hashAt salt 5)),
    (pid, .consumedTokens ⟨some (phoneToken token).tokenHash, none, none⟩),
    (pid, .foundPhoneToken (phoneToken token)),
    (pid, .foundByEmail (ownerWith stored))]

/-- What the login with the old password enters. -/
def loginLog : List (ℕ × Event) := hashedLog 0 0 oldHash "token".toList

/-- What the reset enters. -/
def resetLog : List (ℕ × Event) :=
  [(1, .resetPassword 8 kakaoUserId),
    (1, .acceptedCode 8 5000),
    (1, .hashed "password2".toList newHash),
    (1, .comparedCode (countAttempt resetCode) true),
    (1, .claimedAttempt (countAttempt resetCode) ["password_reset"])]

/-- The step resets no password. -/
def ResetsNothing (before after : World) : Prop :=
  ∀ q id userId, after.log ≠ (q, .resetPassword id userId) :: before.log

theorem ResetsNothing.idle {before after : World} (h : ResetsNothing before after) :
    ResetsIdle before after :=
  fun q id userId hlog => absurd hlog (h q id userId)

theorem resetsNothing_of_log_eq {before after : World} (hlog : after.log = before.log) :
    ResetsNothing before after := by
  intro q id userId hreset
  rw [hlog] at hreset
  exact List.cons_ne_self _ _ hreset.symm

theorem usable_phoneToken (token : Text) :
    usableToken (phoneToken token).tokenHash 5000 (phoneToken token) = true :=
  decide_eq_true ⟨rfl, rfl, (by decide : (5000 : Timestamp) < 300000)⟩

section Tokens

variable {token : Text} {earlier later : List PhoneVerificationToken}
  (hothers : ∀ row ∈ earlier ++ later, ¬ usableToken (phoneToken token).tokenHash 5000 row)

include hothers

theorem find?_phoneToken : (earlier ++ phoneToken token :: later).find?
    (usableToken (phoneToken token).tokenHash 5000) = some (phoneToken token) := by
  rw [List.find?_append, List.find?_eq_none.2 fun row hmem =>
    hothers row (List.mem_append_left _ hmem)]
  exact List.find?_cons_of_pos (usable_phoneToken token)

theorem updateWhere_phoneToken :
    updateWhere (usableToken (phoneToken token).tokenHash 5000) (useToken 5000)
        (earlier ++ phoneToken token :: later) =
      earlier ++ useToken 5000 (phoneToken token) :: later := by
  have hearlier : updateWhere (usableToken (phoneToken token).tokenHash 5000) (useToken 5000)
      earlier = earlier :=
    updateWhere_of_forall_not fun row hmem => hothers row (List.mem_append_left _ hmem)
  have hlater : updateWhere (usableToken (phoneToken token).tokenHash 5000) (useToken 5000)
      later = later :=
    updateWhere_of_forall_not fun row hmem => hothers row (List.mem_append_right _ hmem)
  have htoken : updateWhere (usableToken (phoneToken token).tokenHash 5000) (useToken 5000)
      (phoneToken token :: later) = useToken 5000 (phoneToken token) :: later := by
    rw [updateWhere, List.map_cons, if_pos (usable_phoneToken token)]
    exact congrArg (useToken 5000 (phoneToken token) :: ·) hlater
  rw [updateWhere, List.map_append]
  exact congrArg₂ (· ++ ·) hearlier htoken

end Tokens

section Login

variable {allowed : World → World → Prop} {pid : ℕ}
  (hallowed : ∀ before after : World, ResetsNothing before after → allowed before after)

include hallowed

/-- The login finds the account by its e-mail. -/
theorem findSigninUser_runs {stored : String} {password token : Text} {w : World}
    (husers : w.db.users = [ownerWith stored]) (hset : stored ≠ "") :
    Runs allowed pid (findSigninUser ⟨"user@example.test".toList, password, token⟩
        "user@example.test".toList : Prog World AuthRequest _ _) w
      (.done (some (ownerWith stored)))
      (w.note pid ⟨[kakaoUserId], [.foundByEmail (ownerWith stored)]⟩) := by
  have hfound : w.db.users.find? (fun user => user.email = "user@example.test") =
      some (ownerWith stored) := by
    rw [husers]
    rfl
  have hpassword : (ownerWith stored).password ≠ "" := hset
  have hlocks : Locks signinTrace .keyShare (fun _ => [])
      (fun db => db.users.find? fun user => user.email = "user@example.test") pid w
      (.ok (some (ownerWith stored))) (w.note pid (signinTrace (some (ownerWith stored)))) :=
    Locks.found hfound
  rw [signinTrace, if_neg hpassword] at hlocks
  refine .step _ _ hlocks (hallowed _ _ ?_) .refl
  intro q id userId hreset
  cases hreset

/-- The phone token is found. -/
theorem requirePhoneVerificationToken_runs {token : Text} {row : PhoneVerificationToken} {w : World}
    (hclock : w.clocks 5000) (hfound : w.db.phoneVerificationTokens.find?
      (usableToken (AuthConfig.plain.hashToken token) 5000) = some row) :
    Runs allowed pid (requirePhoneVerificationToken .plain token : Prog World AuthRequest _ _) w
      (.done row) (w.note pid { events := [.foundPhoneToken row] }) := by
  have hlocks : Locks (fun found => { events := (found.map Event.foundPhoneToken).toList })
      .keyShare (fun _ => []) (fun db => db.phoneVerificationTokens.find?
        (usableToken (AuthConfig.plain.hashToken token) 5000)) pid w (.ok (some row))
      (w.note pid { events := [.foundPhoneToken row] }) := Locks.found hfound
  refine .step 5000 w ⟨hclock, rfl⟩ (hallowed _ _ (resetsNothing_of_log_eq rfl)) ?_
  refine .step _ _ hlocks (hallowed _ _ ?_) .refl
  intro q id userId hreset
  cases hreset

/-- The phone token is used up. -/
theorem consumePhoneVerificationToken_runs {token : Text} {row : PhoneVerificationToken}
    {used : List PhoneVerificationToken} {w : World} (hclock : w.clocks 5000)
    (halone : ∀ lock ∈ w.locks, lock.holder = pid)
    (hfound : w.db.phoneVerificationTokens.find?
      (usableToken (AuthConfig.plain.hashToken token) 5000) = some row)
    (hused : updateWhere (usableToken (AuthConfig.plain.hashToken token) 5000) (useToken 5000)
      w.db.phoneVerificationTokens = used) :
    Runs allowed pid (consumePhoneVerificationToken .plain token : Prog World AuthRequest _ _) w
      (.done (some (useToken 5000 row)))
      (w.commit pid { w.db with phoneVerificationTokens := used }
        { events := [.consumedTokens ⟨some (AuthConfig.plain.hashToken token), none, none⟩] }) := by
  have hwrites : writePhoneConsumption ⟨AuthConfig.plain.hashToken token, 5000, 5000⟩ w.db =
      .ok (some (useToken 5000 row), { w.db with phoneVerificationTokens := used }) := by
    rw [writePhoneConsumption, hfound, usePhoneTokens, hused]
    rfl
  have hsame : allowed w w := hallowed _ _ (resetsNothing_of_log_eq rfl)
  refine .step 5000 w ⟨hclock, rfl⟩ hsame ?_
  refine .step 5000 w ⟨hclock, rfl⟩ hsame ?_
  refine .step _ _ ⟨(), trivial, .committed hwrites (World.unlocked_of_alone halone _)⟩
    (hallowed _ _ ?_) .refl
  intro q id userId hreset
  cases hreset

/-- A login up to the hash of its token. -/
theorem login_hashes (pid salt : ℕ) {password token : Text} {stored : String}
    {earlier later : List PhoneVerificationToken} {code : PhoneVerification}
    {sessions : List RefreshToken} {rows : ℕ} {log : List (ℕ × Event)}
    (hmatches : AuthConfig.plain.bcryptCompare password stored = true)
    (hothers : ∀ row ∈ earlier ++ later, ¬ usableToken (phoneToken token).tokenHash 5000 row)
    (hlog : IsNewHash (hashAt salt 5) log) :
    Runs allowed pid (authCode .plain (loginWith password token))
      { World.ofDatabase
          (resetTables stored (earlier ++ phoneToken token :: later) code sessions rows) with
        log := log }
      (saveKakaoSession salt)
      (hashedLogin pid
        (resetTables stored (earlier ++ useToken 5000 (phoneToken token) :: later) code sessions rows)
        (hashedLog pid salt stored token ++ log)) := by
  let used : Database :=
    resetTables stored (earlier ++ useToken 5000 (phoneToken token) :: later) code sessions rows
  let found : World := hashedLogin pid
    (resetTables stored (earlier ++ phoneToken token :: later) code sessions rows)
    ((pid, .foundByEmail (ownerWith stored)) :: log)
  let proved : World := found.note pid { events := [.foundPhoneToken (phoneToken token)] }
  let consumed : World := hashedLogin pid used
    ((pid, .consumedTokens ⟨some (phoneToken token).tokenHash, none, none⟩) :: proved.log)
  have hnone : ∀ lock ∈ ([] : List (Lock LockedRow)), lock.holder = pid :=
    fun _ hmem => absurd hmem List.not_mem_nil
  have hsame {w : World} : allowed w w := hallowed _ _ (resetsNothing_of_log_eq rfl)
  have hset : stored ≠ "" := by
    rintro rfl
    rw [AuthConfig.plain.compare_empty] at hmatches
    cases hmatches
  have hproves : Runs allowed pid (requirePhoneVerificationToken .plain token :
      Prog World AuthRequest _ _) found (.done (phoneToken token)) proved :=
    requirePhoneVerificationToken_runs hallowed trivial (find?_phoneToken hothers)
  have hconsumes : Runs allowed pid (consumePhoneVerificationToken .plain token :
      Prog World AuthRequest _ _) proved (.done (some (useToken 5000 (phoneToken token)))) consumed :=
    consumePhoneVerificationToken_runs hallowed trivial hnone (find?_phoneToken hothers)
      (updateWhere_phoneToken hothers)
  have hrestores : Runs allowed pid (restoreIfWithinGrace (ownerWith stored).userId.toUuidText :
      Prog World AuthRequest _ _) consumed (.done false) consumed := by
    refine .step 5000 consumed ⟨trivial, rfl⟩ hsame ?_
    exact .step (.ok false) consumed
      (Executes.returned rfl (World.unlocked_of_alone hnone _)) hsame .refl
  have hnew : IsNewHash (hashAt salt 5) consumed.log := by
    intro entry hmem candidate hentry
    have hmem' : entry ∈ _ :: _ :: _ :: log := hmem
    simp only [List.mem_cons] at hmem'
    rcases hmem' with rfl | rfl | rfl | hmem
    · cases hentry
    · cases hentry
    · cases hentry
    · exact hlog entry hmem candidate hentry
  refine (Runs.tryCatch ?_ _).bind _
  refine Runs.head (Runs.ofExcept rfl) ?_
  refine Runs.head (findSigninUser_runs hallowed rfl hset) ?_
  refine Runs.head (Runs.ofExcept rfl) ?_
  refine Runs.head (Runs.ofExcept (require_of hmatches)) ?_
  refine Runs.head hproves ?_
  refine Runs.head (Runs.ofExcept (throwIf_of_not (not_not.2 rfl))) ?_
  refine Runs.head hconsumes ?_
  refine Runs.head (Runs.ofExcept rfl) ?_
  refine Runs.head hrestores ?_
  -- The access token and the refresh token are signed, and the latter is hashed.
  refine .step 5000 consumed ⟨trivial, rfl⟩ hsame ?_
  refine .step 5000 consumed ⟨trivial, rfl⟩ hsame ?_
  refine .step (hashAt salt 5) _ ⟨⟨salt, rfl⟩, hnew, rfl⟩ (hallowed _ _ ?_) .refl
  intro q id userId hreset
  cases hreset

end Login

/-- The tables with an attempt claimed at the code, and newer codes. -/
def claimedCodes (tokens : List PhoneVerificationToken) (newer : List PhoneVerification)
    (sessions : List RefreshToken) (rows : ℕ) : Database :=
  { resetTables oldHash tokens resetCode sessions rows with
    phoneVerifications := countAttempt resetCode :: newer }

/-- The tables with the code used up, and newer codes. -/
def usedCodes (tokens : List PhoneVerificationToken) (newer : List PhoneVerification) (rows : ℕ) :
    Database :=
  { resetTables newHash tokens resetCode [] rows with
    phoneVerifications := verifyColumns 5000 (countAttempt resetCode) :: newer }

/-- A reset that has found its code usable in some tables. -/
def acceptedReset (pid : ℕ) (db : Database) (reading : List (ℕ × Uuid))
    (log : List (ℕ × Event)) : World :=
  { World.ofDatabase db with
    locks := [⟨pid, .noKeyUpdate, .verification 8⟩, ⟨pid, .update, .user kakaoUserId⟩]
    reading := reading
    log := log }

/-- What is left of a reset that has found its code usable. -/
def finishReset : Prog World AuthRequest Failure AuthReply := do
  let user ← transaction do
    let sessions ← lock (fun _ => {}) .update
      (fun db => (sessionsOf kakaoUserId db).map .session) (sessionsOf kakaoUserId)
    record (fun _ => { events := [.resetPassword 8 kakaoUserId] })
      (writeReset ⟨8, "+821012345678", newHash⟩ kakaoUserId 5000 sessions)
  let _ ← MonadExcept.ofExcept (requireFound phoneVerificationRequired user)
  return .done

section Runs

variable {allowed : World → World → Prop} (pid : ℕ) {tokens : List PhoneVerificationToken}
  {sessions : List RefreshToken} {rows : ℕ} (reading : List (ℕ × Uuid)) (log : List (ℕ × Event))

/-- The writes of the reset use its code up and end all sessions of the account. -/
theorem writeReset_used {newer : List PhoneVerification} (hnewer : ∀ row ∈ newer, row.id ≠ 8)
    (hown : ∀ session ∈ sessions, session.userId = kakaoUserId) :
    writeReset ⟨8, "+821012345678", newHash⟩ kakaoUserId 5000
        (sessionsOf kakaoUserId (claimedCodes tokens newer sessions rows))
        (claimedCodes tokens newer sessions rows) =
      .ok (some (ownerWith newHash), usedCodes tokens newer rows) := by
  have hkept : updateWhere (fun row => row.id = 8) (verifyColumns 5000) newer = newer :=
    updateWhere_of_forall_not fun row hmem hid => hnewer row hmem (of_decide_eq_true hid)
  have hended : sessions.filter (fun session =>
      session.id ∉ sessionsOf kakaoUserId (claimedCodes tokens newer sessions rows)) = [] := by
    refine List.filter_eq_nil_iff.2 fun session hmem hkept => of_decide_eq_true hkept ?_
    exact List.mem_map_of_mem (List.mem_filter.2 ⟨hmem, decide_eq_true (hown session hmem)⟩)
  have hwrites (codes : List PhoneVerification) (kept : List RefreshToken)
      (hcodes : updateWhere (fun row => row.id = 8) (verifyColumns 5000) newer = codes)
      (hsessions : sessions.filter (fun session =>
        session.id ∉ sessionsOf kakaoUserId (claimedCodes tokens newer sessions rows)) = kept) :
      writeReset ⟨8, "+821012345678", newHash⟩ kakaoUserId 5000
        (sessionsOf kakaoUserId (claimedCodes tokens newer sessions rows))
        (claimedCodes tokens newer sessions rows) =
      .ok (some (ownerWith newHash), { resetTables newHash tokens resetCode kept rows with
        phoneVerifications := verifyColumns 5000 (countAttempt resetCode) :: codes }) := by
    subst hcodes hsessions
    rfl
  exact hwrites newer [] hkept hended

variable (hallowed : ∀ before after : World, before.reading = reading → allowed before after)

include hallowed

/-- The reset up to the statement that finds its code usable. -/
theorem passwordReset_accepts (hlog : IsNewHash newHash log) :
    Runs allowed pid (authCode .plain passwordReset)
      { World.ofDatabase (resetTables oldHash tokens resetCode sessions rows) with
        reading := reading
        log := log } finishReset
      (acceptedReset pid (claimedCodes tokens [] sessions rows) reading
        (stamp pid (resetLog.tail.map Prod.snd) ++ log)) := by
  let before : World := { World.ofDatabase (resetTables oldHash tokens resetCode sessions rows) with
    reading := reading
    log := log }
  let claimed : World :=
    { World.ofDatabase (resetTables oldHash tokens (countAttempt resetCode) sessions rows) with
      reading := reading
      log := (pid, .claimedAttempt (countAttempt resetCode) ["password_reset"]) :: log }
  let compared : World := { claimed with
    log := (pid, .comparedCode (countAttempt resetCode) true) :: claimed.log }
  let hashed : World := { compared with
    log := (pid, .hashed "password2".toList newHash) :: compared.log }
  let owned : World := hashed.withLocks [⟨pid, .update, .user kakaoUserId⟩]
  have hnone : ∀ lock ∈ before.locks, lock.holder = pid := fun _ hmem => absurd hmem List.not_mem_nil
  have howned : ∀ lock ∈ owned.locks, lock.holder = pid := by
    intro lock hmem
    rw [List.mem_singleton.1 hmem]
  refine .step (.ok (some resetCode)) before
    (Locks.locked fun _ hmem => absurd hmem List.not_mem_nil) (hallowed _ _ rfl) ?_
  refine .step 5000 before ⟨trivial, rfl⟩ (hallowed _ _ rfl) ?_
  refine .step (.ok (some (countAttempt resetCode))) claimed
    ⟨(), trivial, .committed rfl (World.unlocked_of_alone hnone _)⟩ (hallowed _ _ rfl) ?_
  refine .step () compared rfl (hallowed _ _ rfl) ?_
  have hnew : IsNewHash newHash compared.log := by
    intro entry hmem candidate hentry
    simp only [compared, claimed, List.mem_cons] at hmem
    rcases hmem with rfl | rfl | hmem
    · cases hentry
    · cases hentry
    · exact hlog entry hmem candidate hentry
  refine .step newHash hashed ⟨⟨8, rfl⟩, hnew, rfl⟩ (hallowed _ _ rfl) ?_
  -- The transaction locks the account first, and then updates the row of the code.
  refine .step (.ok (some (ownerWith oldHash))) owned
    (Locks.locked fun _ _ => free_of_alone hnone) (hallowed _ _ rfl) ?_
  refine .step 5000 owned ⟨trivial, rfl⟩ (hallowed _ _ rfl) ?_
  refine .step 5000 owned ⟨trivial, rfl⟩ (hallowed _ _ rfl) ?_
  exact .step (.ok true) _ (Locks.locked fun _ _ => free_of_alone howned) (hallowed _ _ rfl) .refl

/-- The rest of the reset, whatever codes have been requested meanwhile. -/
theorem finishReset_runs {newer : List PhoneVerification} (hnewer : ∀ row ∈ newer, row.id ≠ 8)
    (hown : ∀ session ∈ sessions, session.userId = kakaoUserId) :
    Runs allowed pid finishReset
      (acceptedReset pid (claimedCodes tokens newer sessions rows) reading log) (.done .done)
      { World.ofDatabase (usedCodes tokens newer rows) with
        reading := reading
        log := (pid, .resetPassword 8 kakaoUserId) :: log } := by
  let accepted : World := acceptedReset pid (claimedCodes tokens newer sessions rows) reading log
  let ended : World := accepted.withLocks
    (acquire pid .update ((sessionsOf kakaoUserId accepted.db).map .session) accepted.locks)
  have haccepted : ∀ lock ∈ accepted.locks, lock.holder = pid := by
    intro lock hmem
    rcases List.mem_cons.1 hmem with rfl | hmem
    · rfl
    · rw [List.mem_singleton.1 hmem]
  have hended : ∀ lock ∈ ended.locks, lock.holder = pid := acquire_of_alone haccepted
  refine .step (.ok (sessionsOf kakaoUserId accepted.db)) ended
    (Locks.locked fun _ _ => free_of_alone haccepted) (hallowed _ _ rfl) ?_
  have hcommits : Records (fun _ => { events := [.resetPassword 8 kakaoUserId] })
      (writeReset ⟨8, "+821012345678", newHash⟩ kakaoUserId 5000
        (sessionsOf kakaoUserId accepted.db)) pid ended
      (.ok (some (ownerWith newHash))) (ended.commit pid (usedCodes tokens newer rows)
        { events := [.resetPassword 8 kakaoUserId] }) :=
    .committed (writeReset_used hnewer hown) (World.unlocked_of_alone hended _)
  have hdone : ended.commit pid (usedCodes tokens newer rows)
      { events := [.resetPassword 8 kakaoUserId] } =
        { World.ofDatabase (usedCodes tokens newer rows) with
          reading := reading
          log := (pid, .resetPassword 8 kakaoUserId) :: log } := by
    rw [World.commit_of_alone hended]
    simp only [ended, accepted, acceptedReset, World.ofDatabase, World.withLocks]
    rfl
  rw [hdone] at hcommits
  exact .step (.ok (some (ownerWith newHash))) _ ⟨(), trivial, hcommits⟩ (hallowed _ _ rfl) .refl

/-- The reset, whatever logins have done before. -/
theorem passwordReset_runs (hlog : IsNewHash newHash log)
    (hown : ∀ session ∈ sessions, session.userId = kakaoUserId) :
    Runs allowed pid (authCode .plain passwordReset)
      { World.ofDatabase (resetTables oldHash tokens resetCode sessions rows) with
        reading := reading
        log := log } (.done .done)
      { World.ofDatabase (usedCodes tokens [] rows) with
        reading := reading
        log := stamp pid (resetLog.map Prod.snd) ++ log } :=
  (passwordReset_accepts pid reading log hallowed hlog).trans
    (finishReset_runs pid reading (stamp pid (resetLog.tail.map Prod.snd) ++ log) hallowed
      (fun _ hmem => absurd hmem List.not_mem_nil) hown)

end Runs

/-- The other login of the account, with the new password. -/
def nextLogin : AuthRequest := loginWith "password2".toList "next".toList

def nextToken : PhoneVerificationToken := phoneToken "next".toList

/-- The session of the other login. -/
def nextSession : RefreshToken := { sessionAt 1 5 with id := 1 }

/-- The tables of a run in which a login, a reset and another login follow each other. -/
def beforeLogins : Database := resetTables oldHash [loginToken, nextToken] resetCode [] 0

/-- What the login with the old password leaves. -/
def firstLogin : World :=
  { World.ofDatabase (resetTables oldHash [useToken 5000 loginToken, nextToken] resetCode
      [sessionAt 0 5] 1) with
    log := savedLog 0 0 ++ loginLog }

/-- What the reset leaves after it. -/
def resetAfterLogin : World :=
  { World.ofDatabase (usedCodes [useToken 5000 loginToken, nextToken] [] 1) with
    log := resetLog ++ firstLogin.log }

/-- What the login with the new password leaves after both. -/
def loggedInAgain : World :=
  { World.ofDatabase (resetTables newHash [useToken 5000 loginToken, useToken 5000 nextToken]
      (verifyColumns 5000 (countAttempt resetCode)) [nextSession] 2) with
    log := savedLog 2 1 ++ (hashedLog 2 1 newHash "next".toList ++ resetAfterLogin.log) }

theorem isNewHash_loginLog : IsNewHash newHash loginLog := by
  intro entry hmem candidate hentry
  simp only [loginLog, hashedLog, List.mem_cons, List.not_mem_nil, or_false] at hmem
  rcases hmem with rfl | rfl | rfl | rfl
  · -- The salts differ.
    have hsalt := AuthConfig.plain.bcryptHash_salt _ _ _ _ (Event.hashed.inj hentry).2
    cases hsalt
  · cases hentry
  · cases hentry
  · cases hentry

/-- The login with the old password, up to the hash of its token. -/
theorem passwordLogin_hashes {allowed : World → World → Prop} {others : List PhoneVerificationToken}
    (hothers : ∀ token ∈ others, token.tokenHash ≠ loginToken.tokenHash)
    (hallowed : ∀ before after : World, ResetsNothing before after → allowed before after) :
    Runs allowed 0 (authCode .plain passwordLogin)
      (.ofDatabase (resetTables oldHash (loginToken :: others) resetCode [] 0)) (saveKakaoSession 0)
      (hashedLogin 0 (resetTables oldHash (useToken 5000 loginToken :: others) resetCode [] 0)
        loginLog) := by
  have hkept : ∀ token ∈ [] ++ others, ¬ usableToken loginToken.tokenHash 5000 token :=
    fun token hmem husable => hothers token hmem (of_decide_eq_true husable).1
  exact login_hashes hallowed 0 0 (AuthConfig.plain.compare_of_prefix 7 _ _ rfl) hkept
    fun _ hmem => absurd hmem List.not_mem_nil

/-- A login, a reset that finds no login under way, and a login with the new password: the session
that is left is the one of the second login. -/
theorem reset_ends_old_sessions_reset :
    AuthRun .plain ResetsIdle beforeLogins
        ⟨loggedInAgain, [⟨passwordLogin, .done kakaoTokens⟩, ⟨passwordReset, .done .done⟩,
          ⟨nextLogin, .done kakaoTokens⟩]⟩ ∧
      ∀ session ∈ loggedInAgain.db.refreshTokens, ∀ p q user id,
        WrittenBy loggedInAgain.log p session.refreshToken → user.userId = session.userId →
          ¬ After loggedInAgain.log (q, .resetPassword id user.userId) (p, .foundByEmail user) := by
  have hstart : AuthRun .plain ResetsIdle beforeLogins (atRest beforeLogins) :=
    Relation.ReflTransGen.refl
  have hsame {w : World} : ResetsIdle w w := (resetsNothing_of_log_eq rfl).idle
  have hnothing : ∀ before after : World, ResetsNothing before after → ResetsIdle before after :=
    fun _ _ h => h.idle
  have hother : ∀ token ∈ [nextToken], token.tokenHash ≠ loginToken.tokenHash := by
    decide +kernel
  have hfirst : AuthRun .plain ResetsIdle beforeLogins
      ⟨firstLogin, [⟨passwordLogin, .done kakaoTokens⟩]⟩ :=
    hstart.serve trivial hsame ((passwordLogin_hashes hother hnothing).trans
      (saveKakaoSession_runs 0 0 rfl fun _ _ _ h => hnothing _ _ h))
  -- The login has returned, so the reset finds none under way.
  have hidle : ∀ before after : World, before.reading = [] → ResetsIdle before after := by
    intro before after hreading q id userId _ p user _ _
    rw [hreading]
    exact List.not_mem_nil
  have hfirstLog : IsNewHash newHash firstLogin.log := by
    intro entry hmem candidate hentry
    rcases List.mem_append.1 hmem with hsaved | hbefore
    · simp only [savedLog, List.mem_cons, List.not_mem_nil, or_false] at hsaved
      rcases hsaved with rfl | rfl <;> cases hentry
    · exact isNewHash_loginLog entry hbefore candidate hentry
  have hown : ∀ session ∈ [sessionAt 0 5], session.userId = kakaoUserId := by
    intro session hmem
    rw [List.mem_singleton.1 hmem]
    rfl
  have hreset : AuthRun .plain ResetsIdle beforeLogins
      ⟨resetAfterLogin, [⟨passwordLogin, .done kakaoTokens⟩, ⟨passwordReset, .done .done⟩]⟩ :=
    hfirst.serve trivial hsame (passwordReset_runs 1 [] firstLogin.log hidle hfirstLog hown)
  have hresetLog : IsNewHash (hashAt 1 5) resetAfterLogin.log := by
    intro entry hmem candidate hentry
    simp only [resetAfterLogin, firstLogin, resetLog, savedLog, loginLog, hashedLog,
      List.cons_append, List.nil_append, List.mem_cons, List.not_mem_nil, or_false] at hmem
    have hsalt {salt : ℕ} {candidate : Text} (hdiffers : salt ≠ 1) :
        plainHash salt candidate ≠ hashAt 1 5 :=
      fun hsame => hdiffers (AuthConfig.plain.bcryptHash_salt _ _ _ _ hsame)
    rcases hmem with rfl | rfl | rfl | rfl | rfl | rfl | rfl | rfl | rfl | rfl | rfl
    all_goals first
      | exact hsalt (by decide) (Event.hashed.inj hentry).2
      | cases hentry
  have hnext : AuthRun .plain ResetsIdle beforeLogins
      ⟨loggedInAgain, [⟨passwordLogin, .done kakaoTokens⟩, ⟨passwordReset, .done .done⟩,
        ⟨nextLogin, .done kakaoTokens⟩]⟩ := by
    have hkept : ∀ token ∈ [useToken 5000 loginToken] ++ [],
        ¬ usableToken nextToken.tokenHash 5000 token := by
      intro token hmem husable
      rw [List.mem_singleton.1 hmem] at husable
      exact absurd (of_decide_eq_true husable).2.1 (Option.some_ne_none _)
    have hhashes : Runs ResetsIdle 2 (authCode .plain nextLogin) resetAfterLogin
        (saveKakaoSession 1)
        (hashedLogin 2 (usedCodes [useToken 5000 loginToken, useToken 5000 nextToken] [] 1)
          (hashedLog 2 1 newHash "next".toList ++ resetAfterLogin.log)) :=
      login_hashes hnothing 2 1 (AuthConfig.plain.compare_of_prefix 8 _ _ rfl) hkept hresetLog
    refine hreset.serve trivial hsame (hhashes.trans ?_)
    exact saveKakaoSession_runs 2 1 rfl fun _ _ _ h => hnothing _ _ h
  exact ⟨hnext, reset_ends_old_sessions .plain _ rfl _ hnext⟩

/-! ### A login that a reset overtakes -/

/-- What the login that a reset has overtaken leaves. -/
def overtaken : World :=
  { World.ofDatabase (resetTables newHash [useToken 5000 loginToken]
      (verifyColumns 5000 (countAttempt resetCode)) [sessionAt 0 5] 1) with
    log := savedLog 0 0 ++ (resetLog ++ loginLog) }

/-- A login that has compared with the old password saves its session after the reset. -/
theorem old_password_logs_in :
    AuthRun .plain anyStep (resetTables oldHash [loginToken] resetCode [] 0)
        ⟨overtaken, [⟨passwordLogin, .done kakaoTokens⟩, ⟨passwordReset, .done .done⟩]⟩ ∧
      ∃ session ∈ overtaken.db.refreshTokens, ∃ user id,
        WrittenBy overtaken.log 0 session.refreshToken ∧ user.userId = session.userId ∧
          After overtaken.log (1, .resetPassword id user.userId) (0, .foundByEmail user) := by
  have hnone {row : PhoneVerificationToken} (hmem : row ∈ []) :
      row.tokenHash ≠ loginToken.tokenHash := absurd hmem List.not_mem_nil
  have hstart : AuthRun .plain anyStep (resetTables oldHash [loginToken] resetCode [] 0)
      (atRest (resetTables oldHash [loginToken] resetCode [] 0)) := Relation.ReflTransGen.refl
  have hlogin : AuthRun .plain anyStep (resetTables oldHash [loginToken] resetCode [] 0)
      ⟨hashedLogin 0 (resetTables oldHash [useToken 5000 loginToken] resetCode [] 0) loginLog,
        [⟨passwordLogin, saveKakaoSession 0⟩]⟩ :=
    hstart.serve trivial trivial
      (passwordLogin_hashes (fun _ hmem => hnone hmem) fun _ _ _ => trivial)
  have hown : ∀ session ∈ ([] : List RefreshToken), session.userId = kakaoUserId :=
    fun _ hmem => absurd hmem List.not_mem_nil
  have hreset : AuthRun .plain anyStep (resetTables oldHash [loginToken] resetCode [] 0)
      ⟨hashedLogin 0 (usedCodes [useToken 5000 loginToken] [] 0) (resetLog ++ loginLog),
        [⟨passwordLogin, saveKakaoSession 0⟩, ⟨passwordReset, .done .done⟩]⟩ :=
    hlogin.serve trivial trivial (passwordReset_runs 1 [(0, kakaoUserId)] loginLog
      (fun _ _ _ => trivial) isNewHash_loginLog hown)
  have hrest : Runs anyStep 0 (saveKakaoSession 0)
      (hashedLogin 0 (usedCodes [useToken 5000 loginToken] [] 0) (resetLog ++ loginLog))
      (.done kakaoTokens) overtaken := saveKakaoSession_runs 0 0 rfl fun _ _ _ _ => trivial
  have hsaved : (0, .savedSession kakaoUserId (deviceName oneDevice) (hashAt 0 5)) ∈
      overtaken.log := List.mem_cons_of_mem _ List.mem_cons_self
  refine ⟨Relation.ReflTransGen.trans hreset (hrest.reachable _ rfl), sessionAt 0 5,
    List.mem_singleton_self _, ownerWith oldHash, 8, .saved hsaved, rfl, ?_⟩
  simp [overtaken, savedLog, resetLog, loginLog, hashedLog, after_cons, ownerWith, kakaoUser,
    User.visible]

end ChatTea.Auth
