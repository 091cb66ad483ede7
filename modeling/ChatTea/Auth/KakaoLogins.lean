import ChatTea.Auth.Service
import ChatTea.Auth.Runs
import Mathlib

/-!
# Kakao logins within one second

A Kakao login that does not end in a session signs a token for the signup and stores its hash,
which is the primary key of the table. The claims of the token are the Kakao user and the times in
whole seconds, so that two such logins of one Kakao user within a second sign the same token, and
the second one fails.

## Main definitions

* `KakaoLogin`, `runKakaoLogin` — one login after the other, with what it draws
* `Issues` — the login does not end in a session
* `Repeatable` — no login of a sequence fails on a token that is stored

## Main results

* `kakaoClaims_inj` — the claims of a token tell the Kakao user and the second
* `runs_kakaoLogin` — the program alone does what the login does
* `repeatable_iff` — when a sequence of logins is repeatable
-/

namespace ChatTea.Auth

open Interleaving Table Transaction Users

/-! ### The claims of a token -/

section Claims

variable {config : AuthConfig} {p q : Text} {iat iat' : ℤ}

/-- The text of a JSON string tells where it ends. -/
def Delimited (jsonString : Text → Text) : Prop :=
  ∀ p q rest rest', jsonString p ++ rest = jsonString q ++ rest' → p = q ∧ rest = rest'

/-- A text without a comma in front of a comma is told by the whole. -/
theorem eq_of_comma {first first' rest rest' : Text} (hfirst : ',' ∉ first) (hfirst' : ',' ∉ first')
    (h : first ++ ',' :: rest = first' ++ ',' :: rest') : first = first' := by
  rcases List.append_eq_append_iff.1 h with ⟨between, hlonger, hrest⟩ | ⟨between, hlonger, hrest⟩
  · cases between with
    | nil => rw [hlonger, List.append_nil]
    | cons c between =>
        have hc : ',' = c := (List.cons.inj hrest).1
        exact absurd (by rw [hlonger, hc]; simp) hfirst'
  · cases between with
    | nil => rw [hlonger, List.append_nil]
    | cons c between =>
        have hc : ',' = c := (List.cons.inj hrest).1
        exact absurd (by rw [hlonger, hc]; simp) hfirst

/-- The digits of a number and its sign. -/
theorem comma_not_mem_toString (n : ℤ) : ',' ∉ (toString n).toList := by
  have hdigits (k : ℕ) : ',' ∉ (Nat.repr k).toList := by
    intro hmem
    rw [Nat.toList_repr] at hmem
    have hdigit := Nat.isDigit_of_mem_toDigits (by decide) (by decide) hmem
    exact absurd hdigit (by decide)
  cases n with
  | ofNat k => exact hdigits k
  | negSucc k =>
      have hsign : (toString (Int.negSucc k)).toList = '-' :: (Nat.repr k.succ).toList := by
        have htext : toString (Int.negSucc k) = "-" ++ Nat.repr k.succ := rfl
        rw [htext, String.toList_append]
        rfl
      rw [hsign]
      intro hmem
      rcases List.mem_cons.1 hmem with hminus | hmem
      · exact absurd hminus (by decide)
      · exact hdigits k.succ hmem

/-- The claims of a token tell the Kakao user and the second. -/
theorem kakaoClaims_inj (hjson : Delimited config.jsonString) {exp exp' : ℤ}
    (h : kakaoClaims config p iat exp = kakaoClaims config q iat' exp') : p = q ∧ iat = iat' := by
  unfold kakaoClaims at h
  simp only [List.append_assoc] at h
  obtain ⟨hp, hrest⟩ := hjson _ _ _ _ (List.append_cancel_left h)
  refine ⟨hp, ?_⟩
  have htexts := List.append_cancel_left hrest
  have hiat : (toString iat).toList = (toString iat').toList :=
    eq_of_comma (comma_not_mem_toString _) (comma_not_mem_toString _) htexts
  exact Int.repr_injective (String.toList_injective hiat)

end Claims

/-! ### One login after the other -/

/-- A login with a Kakao profile, what the clocks show and what is drawn on the way. -/
structure KakaoLogin where
  profile : KakaoProfile
  /-- `loginWithKakaoAccessToken`, which logs in an account that has a phone. -/
  byAccessToken : Bool
  deviceId : UuidText
  signedAt : Timestamp
  storedAt : Timestamp
  restoredAt : Timestamp
  refreshTokenHash : String
  refreshTokenExp : ℤ

/-- What a call answers, and the tables that it leaves. -/
def attempt {β : Type} (call : Call Database Failure β) (db : Database) :
    Except Failure β × Database :=
  match call db with
  | .ok (value, db') => (.ok value, db')
  | .error failure => (.error failure, db)

theorem attempt_of_ok {β : Type} {call : Call Database Failure β} {value : β} {db db' : Database}
    (h : call db = .ok (value, db')) : attempt call db = (.ok value, db') := by
  rw [attempt, h]

theorem attempt_of_error {β : Type} {call : Call Database Failure β} {failure : Failure}
    {db : Database} (h : call db = .error failure) : attempt call db = (.error failure, db) := by
  rw [attempt, h]

/-- The account of a Kakao user. -/
def identifiedUser (providerUserId : Text) (db : Database) : Option User :=
  (db.authIdentities.find? fun row =>
    row.provider = "kakao" ∧ row.providerUserId = String.ofList providerUserId).bind
      fun identity => findUser identity.userId db

/-- The token that is signed for a Kakao user at a second. -/
def kakaoToken (config : AuthConfig) (providerUserId : Text) (iat : ℤ) : Text :=
  sign config config.kakaoSignupTokenSecret
    (kakaoClaims config providerUserId iat (iat + signupTokenSeconds))

/-- The row of a token. -/
def kakaoTokenRow (config : AuthConfig) (profile : KakaoProfile) (userId : Option Uuid)
    (iat : ℤ) (storedAt : Timestamp) : KakaoPhoneVerificationToken where
  tokenHash := config.hashToken (kakaoToken config profile.providerUserId iat)
  userId := userId
  providerUserId := String.ofList profile.providerUserId
  email := (normalizeOptionalEmail profile.email).map String.ofList
  expiresAt := storedAt + signupTokenSeconds * 1000
  usedAt := none

/-- The account that a login ends in a session of. -/
def sessionUser (login : KakaoLogin) (db : Database) : Option User :=
  if login.byAccessToken then
    (identifiedUser login.profile.providerUserId db).filter fun user => user.phone.any (· ≠ "")
  else none

/-- The end of a login in a session: what signing and hashing have given is saved. -/
def saveSession (login : KakaoLogin) (user : User) : Call Database Failure (Option Text) := fun db => do
  throwIf (.error "refresh token exp is undefined") (login.refreshTokenExp = 0)
  let (_, db) ← saveRefreshToken ⟨user.userId, deviceName login.deviceId, login.refreshTokenHash,
    login.refreshTokenExp * 1000⟩ db
  return (none, db)

/-- The end of a login in a token for a signup. -/
def storeKakaoToken (config : AuthConfig) (login : KakaoLogin) (userId : Option Uuid) :
    Call Database Failure (Option Text) := fun db => do
  let (_, db) ← createKakaoPhoneVerificationToken
    (kakaoTokenRow config login.profile userId (login.signedAt / 1000) login.storedAt) db
  return (some (kakaoToken config login.profile.providerUserId (login.signedAt / 1000)), db)

/-- A login that no other call disturbs; its answer is the token, if it is not a session. -/
def runKakaoLogin (config : AuthConfig) (login : KakaoLogin) (db : Database) :
    Except Failure (Option Text) × Database :=
  match sessionUser login db with
  | some user => attempt (saveSession login user)
      (Transaction.commit (restoreScheduledDeletion user.userId.toUuidText login.restoredAt) db)
  | none => attempt (storeKakaoToken config login
      ((identifiedUser login.profile.providerUserId db).map User.userId)) db

/-- The answers of a sequence of logins, and the tables after it. -/
def kakaoLogins (config : AuthConfig) : List KakaoLogin → Database →
    List (Except Failure (Option Text)) × Database
  | [], db => ([], db)
  | login :: logins, db =>
      let (answer, db) := runKakaoLogin config login db
      let (answers, db) := kakaoLogins config logins db
      (answer :: answers, db)

/-- An equal token is stored. -/
def tokenIsStored : Failure := .constraint "kakaoSignupToken_pkey"

/-- No login of the sequence fails because an equal token is stored. -/
def Repeatable (config : AuthConfig) (logins : List KakaoLogin) (db : Database) : Prop :=
  ∀ answer ∈ (kakaoLogins config logins db).1, answer ≠ .error tokenIsStored

/-- The login does not end in a session, but signs a token for a signup. -/
def Issues (login : KakaoLogin) (db : Database) : Prop := sessionUser login db = none

instance (login : KakaoLogin) (db : Database) : Decidable (Issues login db) :=
  inferInstanceAs (Decidable (_ = _))

/-- The Kakao user of a login, and the second in which its token is signed. -/
def userAndSecond (login : KakaoLogin) : Text × ℤ :=
  (login.profile.providerUserId, login.signedAt / 1000)

/-- The hash of the token that a login signs. -/
def issuedHash (config : AuthConfig) (login : KakaoLogin) : String :=
  config.hashToken (kakaoToken config login.profile.providerUserId (login.signedAt / 1000))

def storedHashes (db : Database) : List String := db.kakaoPhoneVerificationTokens.map (·.tokenHash)

/-! ### What a login leaves -/

section Login

variable {config : AuthConfig} {login other : KakaoLogin} {db db' : Database}

/-- The accounts of the Kakao users, and whether they have a phone. -/
structure SameAccounts (db db' : Database) : Prop where
  identities : db'.authIdentities = db.authIdentities
  phones : ∀ userId, (findUser userId db').map (·.phone) = (findUser userId db).map (·.phone)

theorem sessionUser_eq_none (h : SameAccounts db db') :
    sessionUser other db' = none ↔ sessionUser other db = none := by
  have hidentified : (identifiedUser other.profile.providerUserId db').map (·.phone) =
      (identifiedUser other.profile.providerUserId db).map (·.phone) := by
    unfold identifiedUser
    rw [h.identities, Option.map_bind, Option.map_bind]
    congr 1
    funext identity
    exact h.phones identity.userId
  have hfilter (found : Option User) : (found.filter fun user => user.phone.any (· ≠ "")) = none ↔
      (found.map (·.phone)).all fun phone => ! phone.any (· ≠ "") := by
    cases found with
    | none => simp
    | some user => simp [Option.filter]
  unfold sessionUser
  split
  · rw [hfilter, hfilter, hidentified]
  · rfl

theorem sameAccounts_of_users (hidentities : db'.authIdentities = db.authIdentities)
    (husers : db'.users = db.users) : SameAccounts db db' where
  identities := hidentities
  phones userId := by
    unfold findUser
    rw [husers]

/-- Restoring an account changes its deletion only. -/
theorem sameAccounts_restore (userId : UuidText) (now : Timestamp) (db : Database) :
    SameAccounts db (Transaction.commit (restoreScheduledDeletion userId now) db) where
  identities := rfl
  phones other := by
    have hlookup : findUser other (Transaction.commit (restoreScheduledDeletion userId now) db) =
        (findUser other db).map fun user =>
          if canRestore userId.toUuid now user then restoreColumns user else user := by
      have hkey : ∀ user, (restoreColumns user).userId = user.userId := fun _ => rfl
      exact lookup_updateWhere hkey other
    rw [hlookup, Option.map_map]
    congr 1
    funext user
    simp only [Function.comp_apply]
    split <;> rfl

/-- A login that ends in a session restores the account and saves the session. -/
theorem kakaoLogin_session (hissues : ¬ Issues login db) :
    (runKakaoLogin config login db).1 ≠ .error tokenIsStored ∧
      storedHashes (runKakaoLogin config login db).2 = storedHashes db ∧
      SameAccounts db (runKakaoLogin config login db).2 := by
  obtain ⟨user, huser⟩ := Option.ne_none_iff_exists'.1 hissues
  set restored := Transaction.commit
    (restoreScheduledDeletion user.userId.toUuidText login.restoredAt) db with hrestored
  have hsame : SameAccounts db restored := sameAccounts_restore _ _ db
  have hhashes : storedHashes restored = storedHashes db := rfl
  unfold runKakaoLogin
  rw [huser]
  simp only [← hrestored]
  cases hsave : saveSession login user restored with
  | ok saved =>
      obtain ⟨_, -, hsaved⟩ := bind_eq_ok_iff.1 hsave
      obtain ⟨⟨_, after⟩, hinsert, hreturn⟩ := bind_eq_ok_iff.1 hsaved
      obtain ⟨_, -, hinserted⟩ := bind_eq_ok_iff.1 hinsert
      obtain ⟨-, rfl⟩ := Prod.mk.inj (Except.ok.inj hinserted)
      obtain rfl := Except.ok.inj hreturn
      rw [attempt_of_ok hsave]
      refine ⟨?_, hhashes, ⟨hsame.identities, hsame.phones⟩⟩
      intro hfailed
      cases hfailed
  | error failure =>
      rw [attempt_of_error hsave]
      refine ⟨?_, hhashes, hsame⟩
      intro hstored
      obtain rfl := Except.error.inj hstored
      -- The failures of a session are other ones.
      rcases bind_eq_error_iff.1 hsave with hexp | ⟨_, -, hsaved⟩
      · exact absurd (throwIf_eq_error_iff.1 hexp).2 (by decide)
      · rcases bind_eq_error_iff.1 hsaved with hinsert | ⟨_, -, hreturn⟩
        · rcases bind_eq_error_iff.1 hinsert with huser | ⟨_, -, hinserted⟩
          · exact absurd (require_eq_error_iff.1 huser).2 (by decide)
          · cases hinserted
        · cases hreturn

theorem hasUser_of_findUser {userId : Uuid} {user : User} (h : findUser userId db = some user) :
    db.hasUser user.userId := by
  obtain ⟨hmem, -⟩ := mem_of_lookup h
  exact List.any_eq_true.2 ⟨user, hmem, decide_eq_true rfl⟩

/-- The account that an identity leads to is there. -/
theorem hasUser_of_identified {providerUserId : Text} :
    ∀ userId ∈ (identifiedUser providerUserId db).map User.userId, db.hasUser userId := by
  intro userId huserId
  obtain ⟨user, huser, rfl⟩ := Option.map_eq_some_iff.1 huserId
  obtain ⟨identity, -, hfound⟩ := Option.bind_eq_some_iff.1 huser
  exact hasUser_of_findUser hfound

/-- A login that finds an equal token fails. -/
theorem kakaoLogin_stored (hissues : Issues login db)
    (hstored : issuedHash config login ∈ storedHashes db) :
    runKakaoLogin config login db = (.error tokenIsStored, db) := by
  obtain ⟨row, hrow, hhash⟩ := List.mem_map.1 hstored
  have hnone : sessionUser login db = none := hissues
  have hrefused : ¬ ∀ row ∈ db.kakaoPhoneVerificationTokens,
      row.tokenHash ≠ issuedHash config login := fun h => h row hrow hhash
  have hcreate (userId : Option Uuid) : storeKakaoToken config login userId db =
      .error tokenIsStored := by
    apply bind_eq_error_iff.2
    left
    apply bind_eq_error_iff.2
    left
    exact require_eq_error_iff.2 ⟨hrefused, rfl⟩
  unfold runKakaoLogin
  rw [hnone]
  exact attempt_of_error (hcreate _)

/-- A login that finds no equal token stores its own. -/
theorem kakaoLogin_issued (hissues : Issues login db)
    (hnew : issuedHash config login ∉ storedHashes db) :
    (runKakaoLogin config login db).1 ≠ .error tokenIsStored ∧
      storedHashes (runKakaoLogin config login db).2 = storedHashes db ++ [issuedHash config login] ∧
      SameAccounts db (runKakaoLogin config login db).2 := by
  have hnone : sessionUser login db = none := hissues
  have hunique : ∀ row ∈ db.kakaoPhoneVerificationTokens,
      row.tokenHash ≠ issuedHash config login :=
    fun row hrow hhash => hnew (List.mem_map.2 ⟨row, hrow, hhash⟩)
  set token := kakaoTokenRow config login.profile
    ((identifiedUser login.profile.providerUserId db).map User.userId) (login.signedAt / 1000)
    login.storedAt with htoken
  have hcreate : createKakaoPhoneVerificationToken token db = .ok ((), { db with
      kakaoPhoneVerificationTokens := db.kakaoPhoneVerificationTokens ++ [token] }) := by
    apply bind_eq_ok_iff.2
    refine ⟨(), require_of hunique, ?_⟩
    apply bind_eq_ok_iff.2
    exact ⟨(), require_of hasUser_of_identified, rfl⟩
  have hstore : storeKakaoToken config login
      ((identifiedUser login.profile.providerUserId db).map User.userId) db =
      .ok (some (kakaoToken config login.profile.providerUserId (login.signedAt / 1000)), { db with
        kakaoPhoneVerificationTokens := db.kakaoPhoneVerificationTokens ++ [token] }) :=
    bind_eq_ok_iff.2 ⟨_, hcreate, rfl⟩
  unfold runKakaoLogin
  rw [hnone]
  simp only
  rw [attempt_of_ok hstore]
  refine ⟨?_, ?_, sameAccounts_of_users rfl rfl⟩
  · intro hfailed
    cases hfailed
  · change (db.kakaoPhoneVerificationTokens ++ [token]).map (·.tokenHash) = _
    rw [List.map_append]
    rfl

/-! ### Sequences of logins -/

/-- A sequence is repeatable when the hashes of its tokens are new and different. -/
theorem repeatable_iff_nodup {logins : List KakaoLogin} (hunique : (storedHashes db).Nodup) :
    Repeatable config logins db ↔ (storedHashes db ++
      (logins.filter (Issues · db)).map (issuedHash config)).Nodup := by
  induction logins generalizing db with
  | nil =>
      simp only [List.filter_nil, List.map_nil, List.append_nil, hunique, iff_true]
      intro answer hanswer
      cases hanswer
  | cons login logins ih =>
      have hcons : Repeatable config (login :: logins) db ↔
          (runKakaoLogin config login db).1 ≠ .error tokenIsStored ∧
            Repeatable config logins (runKakaoLogin config login db).2 := by
        have hanswers : (kakaoLogins config (login :: logins) db).1 = (runKakaoLogin config login db).1 ::
            (kakaoLogins config logins (runKakaoLogin config login db).2).1 := rfl
        unfold Repeatable
        rw [hanswers]
        exact List.forall_mem_cons
      -- What the others do is decided by the accounts, which stay as they are.
      have hfilter (h : SameAccounts db (runKakaoLogin config login db).2) :
          logins.filter (Issues · (runKakaoLogin config login db).2) = logins.filter (Issues · db) := by
        apply List.filter_congr
        intro other _
        rw [decide_eq_decide]
        exact sessionUser_eq_none h
      by_cases hissues : Issues login db
      · rw [hcons, List.filter_cons, if_pos (decide_eq_true hissues), List.map_cons]
        by_cases hstored : issuedHash config login ∈ storedHashes db
        · rw [kakaoLogin_stored hissues hstored]
          constructor
          · intro h
            exact absurd rfl h.1
          · intro h
            exact absurd rfl ((List.nodup_append.1 h).2.2 _ hstored _ List.mem_cons_self)
        · obtain ⟨hanswer, hhashes, hsame⟩ := kakaoLogin_issued hissues hstored
          have hunique' : (storedHashes (runKakaoLogin config login db).2).Nodup := by
            rw [hhashes, List.nodup_append]
            refine ⟨hunique, List.nodup_singleton _, ?_⟩
            rintro hash hhash _ hlast rfl
            rw [List.mem_singleton.1 hlast] at hhash
            exact hstored hhash
          rw [ih hunique', hfilter hsame, hhashes, List.append_assoc, List.singleton_append]
          exact ⟨And.right, fun h => ⟨hanswer, h⟩⟩
      · obtain ⟨hanswer, hhashes, hsame⟩ := @kakaoLogin_session config _ _ hissues
        have hunique' : (storedHashes (runKakaoLogin config login db).2).Nodup := by
          rw [hhashes]
          exact hunique
        have hskip : ¬ decide (Issues login db) = true := by simpa using hissues
        rw [hcons, List.filter_cons, if_neg hskip, ih hunique', hfilter hsame, hhashes]
        exact ⟨And.right, fun h => ⟨hanswer, h⟩⟩

end Login

/-- The program that signs and stores a token does what the call does, if it is not disturbed. -/
theorem runs_issueKakaoToken {ι : Type} {config : AuthConfig} {login : KakaoLogin}
    {userId : Option Uuid} {pid : ℕ} {w : World} (hsigned : w.clocks login.signedAt)
    (hstored : w.clocks login.storedAt) (halone : ∀ lock ∈ w.locks, lock.holder = pid) :
    match storeKakaoToken config login userId w.db with
    | .ok (token, db) => ∃ text, token = some text ∧
        Runs anyStep pid (issueKakaoToken config login.profile userId : Prog World ι Failure Text) w
          (.done text) (w.commit pid db {})
    | .error failure =>
        Runs anyStep pid (issueKakaoToken config login.profile userId : Prog World ι Failure Text) w
          (.fail failure) (w.reject failure) := by
  cases hstore : storeKakaoToken config login userId w.db with
  | ok result =>
      obtain ⟨⟨⟨⟩, db⟩, hcreate, hreturn⟩ := bind_eq_ok_iff.1 hstore
      obtain rfl := Except.ok.inj hreturn
      refine ⟨_, rfl, ?_⟩
      refine .step login.signedAt w ⟨hsigned, rfl⟩ trivial ?_
      refine .step login.storedAt w ⟨hstored, rfl⟩ trivial ?_
      exact .step (.ok ()) _
        ⟨(), trivial, .committed hcreate (World.unlocked_of_alone halone db)⟩ trivial .refl
  | error failure =>
      have hcreate := (bind_eq_error_iff.1 hstore).resolve_right fun ⟨_, _, hreturn⟩ => nomatch hreturn
      refine .step login.signedAt w ⟨hsigned, rfl⟩ trivial ?_
      refine .step login.storedAt w ⟨hstored, rfl⟩ trivial ?_
      exact .step (.error failure) _ ⟨(), trivial, .rejected hcreate⟩ trivial .refl

/-! ### The programs of the logins -/

/-- The request of a login. -/
def KakaoLogin.request (login : KakaoLogin) (accessToken : Text) : AuthRequest :=
  if login.byAccessToken then .loginWithKakaoAccessToken accessToken login.deviceId
  else .loginWithKakao login.profile

/-- What a login draws can be drawn: the clocks show its readings, and its hash is a new one of
the refresh token of the account that it ends in a session of. -/
structure KakaoLogin.Drawn (config : AuthConfig) (login : KakaoLogin) (w : World) : Prop where
  signedAt : w.clocks login.signedAt
  storedAt : w.clocks login.storedAt
  restoredAt : w.clocks login.restoredAt
  isNew : IsNewHash login.refreshTokenHash w.log
  session : ∀ user ∈ sessionUser login w.db, validateUuid user.userId.toUuidText = .ok () ∧
    ∃ issuedAt salt, w.clocks issuedAt ∧
      login.refreshTokenExp = issuedAt / 1000 + config.refreshTokenExp ∧
      login.refreshTokenHash = config.bcryptHash salt
        (refreshToken config user.userId login.deviceId (issuedAt / 1000))

/-- The program has ended with the answer. -/
inductive Ended : Except Failure (Option Text) → Prog World AuthRequest Failure AuthReply → Prop
  | session (userId payload) : Ended (.ok none) (.done (.tokens userId payload))
  | token (text) : Ended (.ok (some text)) (.done (.verificationToken text))
  | failed (failure) : Ended (.error failure) (.fail failure)

section Programs

variable {config : AuthConfig} {login : KakaoLogin} {pid : ℕ} {w : World}

/-- A program ends as a call that is tried, with its tables. -/
def RunsTo (pid : ℕ) (program : Prog World AuthRequest Failure AuthReply) (w : World)
    (attempted : Except Failure (Option Text) × Database) : Prop :=
  ∃ ended after, Runs anyStep pid program w ended after ∧ Ended attempted.1 ended ∧
    after.db = attempted.2

/-- A program that has returned goes on with the rest of the sequence. -/
theorem RunsTo.head {β : Type} {program : Prog World AuthRequest Failure β} {value : β}
    {between : World} {rest : β → Prog World AuthRequest Failure AuthReply}
    {attempted : Except Failure (Option Text) × Database}
    (hfirst : Runs anyStep pid program w (.done value) between)
    (hrest : RunsTo pid (rest value) between attempted) :
    RunsTo pid (program >>= rest) w attempted := by
  obtain ⟨ended, after, hruns, hended, hdb⟩ := hrest
  exact ⟨ended, after, hfirst.head hruns, hended, hdb⟩

theorem RunsTo.tracked {program : Prog World AuthRequest Failure AuthReply}
    {attempted : Except Failure (Option Text) × Database} (h : RunsTo pid program w attempted) :
    RunsTo pid (tracked program) w attempted := by
  obtain ⟨answer, db⟩ := attempted
  obtain ⟨ended, after, hruns, hended, hdb⟩ := h
  have hended' : Ended answer ended := hended
  refine ⟨ended, after.forget pid, ?_, hended, hdb⟩
  refine ((hruns.tryCatch _).bind _).trans ?_
  cases hended' with
  | session userId payload => exact .step () _ rfl trivial .refl
  | token text => exact .step () _ rfl trivial .refl
  | failed failure => exact .step () _ rfl trivial .refl

/-- The lookup of the account of a Kakao user. -/
theorem runs_findUserByIdentity (providerUserId : Text) : ∃ reading,
    Runs anyStep pid (findUserByIdentity "kakao" (String.ofList providerUserId) :
        Prog World AuthRequest Failure (Option User)) w
      (.done (identifiedUser providerUserId w.db)) { w with reading := reading } := by
  cases hidentity : w.db.authIdentities.find? fun row =>
      row.provider = "kakao" ∧ row.providerUserId = String.ofList providerUserId with
  | none =>
      have hnobody : identifiedUser providerUserId w.db = none := by
        rw [identifiedUser, hidentity]
        rfl
      rw [hnobody]
      exact ⟨w.reading, .step (.ok none) w (Locks.found hidentity) trivial .refl⟩
  | some identity =>
      have huser : identifiedUser providerUserId w.db = findUser identity.userId w.db := by
        rw [identifiedUser, hidentity]
        rfl
      let busy : World := w.note pid { accounts := [identity.userId] }
      rw [huser]
      refine ⟨busy.reading, ?_⟩
      refine .step (.ok (some identity)) busy (Locks.found hidentity) trivial ?_
      exact .step (.ok (findUser identity.userId w.db)) busy (Locks.found rfl) trivial .refl

/-- The end of a login in a token. -/
theorem runsTo_issueKakaoToken (userId : Option Uuid) (hsigned : w.clocks login.signedAt)
    (hstored : w.clocks login.storedAt) (halone : ∀ lock ∈ w.locks, lock.holder = pid) :
    RunsTo pid (do
        let token ← issueKakaoToken config login.profile userId
        return .verificationToken token) w
      (attempt (storeKakaoToken config login userId) w.db) := by
  have hruns := @runs_issueKakaoToken AuthRequest config login userId pid w hsigned hstored halone
  cases hstore : storeKakaoToken config login userId w.db with
  | ok result =>
      obtain ⟨token, db⟩ := result
      rw [hstore] at hruns
      obtain ⟨text, rfl, hruns⟩ := hruns
      rw [attempt_of_ok hstore]
      exact ⟨_, _, hruns.bind _, .token text, rfl⟩
  | error failure =>
      rw [hstore] at hruns
      rw [attempt_of_error hstore]
      exact ⟨_, _, hruns.bind _, .failed failure, rfl⟩

/-- The end of a login whose refresh token has been hashed. -/
theorem runsTo_saveSession {user : User} (accessToken refreshToken : Text)
    (hexp : ¬ login.refreshTokenExp = 0) (halone : ∀ lock ∈ w.locks, lock.holder = pid) :
    RunsTo pid (do
        record (fun _ => { events :=
            [.savedSession user.userId (deviceName login.deviceId) login.refreshTokenHash] })
          (saveRefreshToken ⟨user.userId, deviceName login.deviceId, login.refreshTokenHash,
            login.refreshTokenExp * 1000⟩)
        note [.issuedTokens user.userId]
        return .tokens user.userId ⟨accessToken, refreshToken⟩) w
      (attempt (saveSession login user) w.db) := by
  have hpasses : throwIf (Failure.error "refresh token exp is undefined")
      (login.refreshTokenExp = 0) = .ok () := throwIf_of_not hexp
  cases hsave : saveRefreshToken ⟨user.userId, deviceName login.deviceId, login.refreshTokenHash,
      login.refreshTokenExp * 1000⟩ w.db with
  | ok result =>
      obtain ⟨⟨⟩, db⟩ := result
      have hsession : saveSession login user w.db = .ok (none, db) :=
        bind_eq_ok_iff.2 ⟨(), hpasses, bind_eq_ok_iff.2 ⟨_, hsave, rfl⟩⟩
      rw [attempt_of_ok hsession]
      let saved : World := w.commit pid db { events :=
        [.savedSession user.userId (deviceName login.deviceId) login.refreshTokenHash] }
      exact ⟨_, saved.note pid { events := [.issuedTokens user.userId] },
        .step (.ok ()) saved
          ⟨(), trivial, .committed hsave (World.unlocked_of_alone halone db)⟩ trivial
          (.step () _ rfl trivial .refl), .session _ _, rfl⟩
  | error failure =>
      have hsession : saveSession login user w.db = .error failure :=
        bind_eq_error_iff.2 (Or.inr ⟨(), hpasses, bind_eq_error_iff.2 (Or.inl hsave)⟩)
      rw [attempt_of_error hsession]
      exact ⟨_, _, .step (.error failure) _ ⟨(), trivial, .rejected hsave⟩ trivial .refl,
        .failed failure, rfl⟩

/-- The end of a login in a session. -/
theorem runsTo_issueTokens {user : User} {issuedAt : Timestamp} {salt : ℕ}
    (hissued : w.clocks issuedAt)
    (hexp : login.refreshTokenExp = issuedAt / 1000 + config.refreshTokenExp)
    (hhash : login.refreshTokenHash = config.bcryptHash salt
      (refreshToken config user.userId login.deviceId (issuedAt / 1000)))
    (hnew : IsNewHash login.refreshTokenHash w.log)
    (halone : ∀ lock ∈ w.locks, lock.holder = pid) :
    RunsTo pid (issueTokens config user login.deviceId) w
      (attempt (saveSession login user) w.db) := by
  have haccess : Runs anyStep pid (createAccessToken config user : Prog World AuthRequest _ _) w
      (.done _) w := .step issuedAt w ⟨hissued, rfl⟩ trivial .refl
  have hrefresh : Runs anyStep pid
      (createRefreshToken config user login.deviceId : Prog World AuthRequest _ _) w
      (.done ⟨refreshToken config user.userId login.deviceId (issuedAt / 1000),
        login.refreshTokenExp⟩) w := by
    rw [hexp]
    exact .step issuedAt w ⟨hissued, rfl⟩ trivial .refl
  refine RunsTo.head haccess (RunsTo.head hrefresh ?_)
  by_cases hzero : login.refreshTokenExp = 0
  · -- A token without an expiry is refused before it is hashed.
    let unsigned : Failure := .error "refresh token exp is undefined"
    have hthrows : (throwIf unsigned (login.refreshTokenExp = 0) : Except Failure Unit) =
        .error unsigned := throwIf_eq_error_iff.2 ⟨hzero, rfl⟩
    have hfails : saveSession login user w.db = .error unsigned :=
      bind_eq_error_iff.2 (Or.inl hthrows)
    rw [attempt_of_error hfails]
    refine ⟨_, w, ?_, .failed _, rfl⟩
    rw [prepareRefreshToken, hthrows]
    exact .refl
  · let hashed : World := w.note pid { events :=
      [.hashed (refreshToken config user.userId login.deviceId (issuedAt / 1000))
        login.refreshTokenHash] }
    have hprepare : Runs anyStep pid (prepareRefreshToken config user.userId login.deviceId
        ⟨refreshToken config user.userId login.deviceId (issuedAt / 1000), login.refreshTokenExp⟩ :
          Prog World AuthRequest _ _) w
        (.done ⟨user.userId, deviceName login.deviceId, login.refreshTokenHash,
          login.refreshTokenExp * 1000⟩) hashed := by
      rw [prepareRefreshToken, throwIf_of_not hzero]
      exact .step login.refreshTokenHash hashed ⟨⟨salt, hhash⟩, hnew, rfl⟩ trivial .refl
    exact RunsTo.head hprepare (runsTo_saveSession (w := hashed) _ _ hzero halone)

/-- The program of a login that no other call disturbs answers and leaves what the login does. -/
theorem runs_kakaoLogin {accessToken : Text} (htoken : trim accessToken ≠ [])
    (hdrawn : login.Drawn config w) (halone : ∀ lock ∈ w.locks, lock.holder = pid) :
    RunsTo pid (authCode config (login.request accessToken)) w (runKakaoLogin config login w.db) := by
  obtain ⟨reading, hfinds⟩ := @runs_findUserByIdentity pid w login.profile.providerUserId
  let busy : World := { w with reading := reading }
  have hbusy : ∀ lock ∈ busy.locks, lock.holder = pid := halone
  unfold runKakaoLogin
  by_cases hbutton : login.byAccessToken
  · have hrequest : login.request accessToken =
        .loginWithKakaoAccessToken accessToken login.deviceId := if_pos hbutton
    have hsession : sessionUser login w.db = (identifiedUser login.profile.providerUserId w.db).filter
        fun user => user.phone.any (· ≠ "") := if_pos hbutton
    rw [hrequest]
    refine RunsTo.tracked ?_
    have hprofile : Runs anyStep pid (getKakaoProfile accessToken : Prog World AuthRequest _ _) w
        (.done login.profile) w := by
      rw [getKakaoProfile, throwIf_of_not htoken]
      exact .step (some login.profile) w rfl trivial .refl
    refine RunsTo.head hprofile (RunsTo.head hfinds ?_)
    rw [← hsession]
    cases huser : sessionUser login w.db with
    | none =>
        -- Without an account that has a phone, the login signs a token for the signup.
        exact runsTo_issueKakaoToken (w := busy) _ hdrawn.signedAt hdrawn.storedAt hbusy
    | some user =>
        obtain ⟨hversion, issuedAt, salt, hissued, hexp, hhash⟩ := hdrawn.session user huser
        -- The account is restored in its row; the login goes on with the row it has found.
        let restored : World := { busy with
          db := Transaction.commit
            (restoreScheduledDeletion user.userId.toUuidText login.restoredAt) w.db }
        let wasHidden : Bool := returning (canRestore user.userId.toUuid login.restoredAt)
          restoreColumns w.db.users ≠ []
        have hrestores : Runs anyStep pid (restoreIfWithinGrace user.userId.toUuidText :
            Prog World AuthRequest _ _) busy (.done wasHidden) restored := by
          rw [restoreIfWithinGrace, hversion]
          refine .step login.restoredAt busy ⟨hdrawn.restoredAt, rfl⟩ trivial ?_
          exact .step (.ok wasHidden) restored
            (Executes.returned rfl (World.unlocked_of_alone hbusy _)) trivial .refl
        exact RunsTo.head hrestores (runsTo_issueTokens (w := restored) hissued hexp hhash
          hdrawn.isNew hbusy)
  · have hrequest : login.request accessToken = .loginWithKakao login.profile := if_neg hbutton
    have hnone : sessionUser login w.db = none := if_neg hbutton
    rw [hrequest, hnone]
    refine RunsTo.tracked (RunsTo.head hfinds ?_)
    exact runsTo_issueKakaoToken (w := busy) _ hdrawn.signedAt hdrawn.storedAt hbusy

end Programs

/-! ### When a sequence is repeatable -/

/-- Tokens of different claims have different hashes, among the tokens of some logins. -/
def HashesApart (config : AuthConfig) (logins : List KakaoLogin) : Prop :=
  ∀ login ∈ logins, ∀ other ∈ logins, issuedHash config login = issuedHash config other →
    kakaoClaims config login.profile.providerUserId (login.signedAt / 1000)
        (login.signedAt / 1000 + signupTokenSeconds) =
      kakaoClaims config other.profile.providerUserId (other.signedAt / 1000)
        (other.signedAt / 1000 + signupTokenSeconds)

section Repeatable

variable {config : AuthConfig} {logins : List KakaoLogin} {db : Database}

/-- Logins sign equal tokens exactly when they are of one Kakao user and one second. -/
theorem issuedHash_eq_iff (hjson : Delimited config.jsonString) (hapart : HashesApart config logins)
    {login other : KakaoLogin} (hlogin : login ∈ logins) (hother : other ∈ logins) :
    issuedHash config login = issuedHash config other ↔ userAndSecond login = userAndSecond other := by
  constructor
  · intro hhash
    obtain ⟨huser, hsecond⟩ := kakaoClaims_inj hjson (hapart login hlogin other hother hhash)
    exact Prod.ext huser hsecond
  · intro hsame
    obtain ⟨huser, hsecond⟩ := Prod.mk.inj hsame
    rw [issuedHash, issuedHash, huser, hsecond]

/-- A sequence of Kakao logins is repeatable exactly when no two of those that sign a token are
of one Kakao user and within one second. -/
theorem repeatable_iff (hjson : Delimited config.jsonString) (hapart : HashesApart config logins)
    (hnone : db.kakaoPhoneVerificationTokens = []) :
    Repeatable config logins db ↔
      ((logins.filter (Issues · db)).map userAndSecond).Nodup := by
  have hhashes : storedHashes db = [] := by
    rw [storedHashes, hnone]
    rfl
  have hunique : (storedHashes db).Nodup := by
    rw [hhashes]
    exact List.nodup_nil
  rw [repeatable_iff_nodup hunique, hhashes, List.nil_append, List.Nodup, List.Nodup,
    List.pairwise_map, List.pairwise_map]
  constructor
  · intro h
    apply h.imp_of_mem
    intro login other hlogin hother hne hsame
    apply hne
    exact (issuedHash_eq_iff hjson hapart (List.mem_of_mem_filter hlogin)
      (List.mem_of_mem_filter hother)).2 hsame
  · intro h
    apply h.imp_of_mem
    intro login other hlogin hother hne hsame
    apply hne
    exact (issuedHash_eq_iff hjson hapart (List.mem_of_mem_filter hlogin)
      (List.mem_of_mem_filter hother)).1 hsame

end Repeatable

/-! ### Two logins within a second -/

def isSpecial (c : Char) : Bool := c = '"' ∨ c = '\\'

/-- The characters of a JSON string, the quotation marks and backslashes escaped. -/
def escaped : Text → Text
  | [] => []
  | c :: text => if isSpecial c then '\\' :: c :: escaped text else c :: escaped text

def quoted (text : Text) : Text := '"' :: (escaped text ++ ['"'])

/-- Only a quotation mark that is not escaped ends the string. -/
theorem escaped_inj {p q rest rest' : Text}
    (h : escaped p ++ '"' :: rest = escaped q ++ '"' :: rest') : p = q ∧ rest = rest' := by
  induction p generalizing q with
  | nil =>
      cases q with
      | nil => exact ⟨rfl, (List.cons.inj h).2⟩
      | cons d q =>
          unfold escaped at h
          by_cases hd : isSpecial d
          · rw [if_pos hd] at h
            exact absurd (List.cons.inj h).1 (by decide)
          · rw [if_neg hd] at h
            exact absurd (by rw [← (List.cons.inj h).1]; decide) hd
  | cons c p ih =>
      cases q with
      | nil =>
          unfold escaped at h
          by_cases hc : isSpecial c
          · rw [if_pos hc] at h
            exact absurd (List.cons.inj h).1 (by decide)
          · rw [if_neg hc] at h
            exact absurd (by rw [(List.cons.inj h).1]; decide) hc
      | cons d q =>
          simp only [escaped] at h
          by_cases hc : isSpecial c
          · by_cases hd : isSpecial d
            · rw [if_pos hc, if_pos hd] at h
              obtain ⟨hcd, hrest⟩ := List.cons.inj (List.cons.inj h).2
              obtain ⟨rfl, rfl⟩ := ih hrest
              exact ⟨by rw [hcd], rfl⟩
            · rw [if_pos hc, if_neg hd] at h
              exact absurd (by rw [← (List.cons.inj h).1]; decide) hd
          · by_cases hd : isSpecial d
            · rw [if_neg hc, if_pos hd] at h
              exact absurd (by rw [(List.cons.inj h).1]; decide) hc
            · rw [if_neg hc, if_neg hd] at h
              obtain ⟨hcd, hrest⟩ := List.cons.inj h
              obtain ⟨rfl, rfl⟩ := ih hrest
              exact ⟨by rw [hcd], rfl⟩

theorem delimited_quoted : Delimited quoted := by
  intro p q rest rest' h
  apply escaped_inj
  have htail : (escaped p ++ ['"']) ++ rest = (escaped q ++ ['"']) ++ rest' := (List.cons.inj h).2
  rw [List.append_assoc, List.append_assoc] at htail
  exact htail

/-- An environment whose JSON strings tell where they end. -/
def escaping : AuthConfig := { AuthConfig.plain with jsonString := quoted }

def kakaoProfile : KakaoProfile := ⟨"4201".toList, none, none⟩

/-- A tap on the button of the signup page. -/
def kakaoTap (signedAt : Timestamp) : KakaoLogin where
  profile := kakaoProfile
  byAccessToken := false
  deviceId := ⟨"ca000000-0000-4000-8000-000000000045".toList, by decide⟩
  signedAt := signedAt
  storedAt := signedAt
  restoredAt := 0
  refreshTokenHash := ""
  refreshTokenExp := 0

/-- Two taps within a second: the second login fails. -/
theorem kakao_doubleTap :
    ¬ Repeatable AuthConfig.plain [kakaoTap 1000, kakaoTap 1900] (Database.ofUsers []) := by
  have hunique : (storedHashes (Database.ofUsers [])).Nodup := List.nodup_nil
  rw [repeatable_iff_nodup hunique]
  have hsame : issuedHash AuthConfig.plain (kakaoTap 1000) =
      issuedHash AuthConfig.plain (kakaoTap 1900) := rfl
  intro h
  change ([] ++ [issuedHash AuthConfig.plain (kakaoTap 1000),
    issuedHash AuthConfig.plain (kakaoTap 1900)]).Nodup at h
  rw [hsame] at h
  simp at h

/-- Two taps with a second between them. -/
theorem repeatable_patientTaps :
    Repeatable escaping [kakaoTap 1000, kakaoTap 2000] (Database.ofUsers []) := by
  have hapart : HashesApart escaping [kakaoTap 1000, kakaoTap 2000] := by
    have hdifferent : issuedHash escaping (kakaoTap 1000) ≠ issuedHash escaping (kakaoTap 2000) := by
      decide +kernel
    intro login hlogin other hother hhash
    rcases List.mem_pair.1 hlogin with rfl | rfl <;> rcases List.mem_pair.1 hother with rfl | rfl
    · rfl
    · exact absurd hhash hdifferent
    · exact absurd hhash.symm hdifferent
    · rfl
  exact (repeatable_iff delimited_quoted hapart rfl).2 (by decide)

end ChatTea.Auth
