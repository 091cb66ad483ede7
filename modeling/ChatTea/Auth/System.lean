import ChatTea.Phone.Service
import ChatTea.Users.Rules

/-!
# Authentication under every interleaving

The logins, the sessions, the phone codes and the deletion of accounts, called any
number of times with any arguments and interleaved at will. What one step of a call can
do is said once, as the change of a few tables together with what the step enters in
the history; the invariants of the service follow from that alone.

## Main definitions

* `AuthRequest`, `authSystem` — the calls and the system they run in
* `AuthTables` — the tables that the calls read
* `AuthChange` — what one step of a call does
* `AuthStep`, `AuthRely` — a step, and what it keeps for the other threads
-/

namespace ChatTea.Auth

open History Interleaving Phone RowLocks Table Transaction Users

/-! ### The system -/

inductive AuthRequest where
  | signup (input : SignupInput) (deviceId : UuidText)
  | signin (input : SigninInput) (deviceId : UuidText)
  | loginWithKakao (profile : KakaoProfile)
  | loginWithKakaoAccessToken (accessToken : Text) (deviceId : UuidText)
  | completeKakaoPhoneSignup (input : KakaoSignupInput) (deviceId : UuidText)
  | refresh (userId : Uuid) (deviceId : UuidText) (token : Text)
  | logout (userId : Uuid) (deviceId : UuidText) (token : Text)
  | requestPhoneCode (input : RequestPhoneCodeInput) (ip : Option Text)
  | verifyPhoneCode (input : VerifyPhoneCodeInput) (deviceId : UuidText)
  | resetPasswordWithPhone (input : ResetPasswordInput)
  | beginAccountDeletion (userId : UuidText)
  | processDueAccountDeletionBatch (now : Timestamp) (limit : ℕ)
  | deletionJob (input : DeletionJobInput)

def authCode (config : AuthConfig) : AuthRequest → Prog World AuthRequest Failure AuthReply
  | .signup input deviceId => tracked (signup config input deviceId)
  | .signin input deviceId => tracked (signin config input deviceId)
  | .loginWithKakao profile => tracked (loginWithKakao config profile)
  | .loginWithKakaoAccessToken accessToken deviceId =>
      tracked (loginWithKakaoAccessToken config accessToken deviceId)
  | .completeKakaoPhoneSignup input deviceId =>
      tracked (completeKakaoPhoneSignup config input deviceId)
  | .refresh userId deviceId token => tracked (refresh config userId deviceId token)
  | .logout userId deviceId token => tracked (logout config userId deviceId token)
  | .requestPhoneCode input ip => requestPhoneCode config input ip
  | .verifyPhoneCode input deviceId => tracked (verifyPhoneCode config input deviceId)
  | .resetPasswordWithPhone input => resetPasswordWithPhone config input
  | .beginAccountDeletion userId => do
      let _ ← beginAccountDeletion userId
      return .done
  | .processDueAccountDeletionBatch now limit => do
      let _ ← processDueAccountDeletionBatch .deletionJob now limit
      return .done
  | .deletionJob input => do
      deletionJob input
      return .done

/-- Any number of calls with any arguments, in any order. -/
def authSystem (config : AuthConfig) : System World AuthRequest Failure AuthReply where
  code := authCode config
  accepts := fun _ => True
  environment := fun _ _ => False
  rollback := World.rollback

namespace AuthRequest

/-- The calls that may save a session. -/
def logsIn : AuthRequest → Bool
  | .signup _ _ | .signin _ _ | .loginWithKakaoAccessToken _ _
  | .completeKakaoPhoneSignup _ _ | .verifyPhoneCode _ _ => true
  | _ => false

def refreshes : AuthRequest → Bool
  | .refresh _ _ _ => true
  | _ => false

def logsOut : AuthRequest → Bool
  | .logout _ _ _ => true
  | _ => false

def requestsCode : AuthRequest → Bool
  | .requestPhoneCode _ _ => true
  | _ => false

/-- What a call guesses a code for. -/
def guesses : AuthRequest → Option (List String)
  | .verifyPhoneCode _ _ => some ["signup", "login"]
  | .resetPasswordWithPhone _ => some ["password_reset"]
  | _ => none

/-- The calls that change accounts without a token or a code. -/
def manages : AuthRequest → Bool
  | .signin _ _ | .loginWithKakaoAccessToken _ _ | .completeKakaoPhoneSignup _ _
  | .beginAccountDeletion _ | .processDueAccountDeletionBatch _ _ | .deletionJob _ => true
  | _ => false

/-- The phone token and the Kakao token that a call is to use up, by their hashes. -/
def uses (config : AuthConfig) : AuthRequest → Option (Option String × Option String)
  | .signup input _ => some (some (config.hashToken input.phoneVerificationToken), none)
  | .signin input _ => some (some (config.hashToken input.phoneVerificationToken), none)
  | .completeKakaoPhoneSignup input _ =>
      some ((input.phoneVerificationToken.filter (· ≠ [])).map config.hashToken,
        some (config.hashToken input.kakaoPhoneVerificationToken))
  | _ => none

end AuthRequest

/-! ### What one step does -/

/-- The tables that the calls read. -/
structure AuthTables where
  users : List User
  sessions : List RefreshToken
  identities : List AuthIdentity
  verifications : List PhoneVerification
  phoneTokens : List PhoneVerificationToken
  kakaoTokens : List KakaoPhoneVerificationToken

def authTables (db : Database) : AuthTables where
  users := db.users
  sessions := db.refreshTokens
  identities := db.authIdentities
  verifications := db.phoneVerifications
  phoneTokens := db.phoneVerificationTokens
  kakaoTokens := db.kakaoPhoneVerificationTokens

/-- How a call other than `signin` finds an account. -/
inductive Reaches (db : Database) (userId : Uuid) : Prop
  | phone (user) (mem : user ∈ db.users) (same : user.userId = userId) (phone : user.phone ≠ none)
  | identity (row) (mem : row ∈ db.authIdentities) (same : row.userId = userId)
  | session (row) (mem : row ∈ db.refreshTokens) (same : row.userId = userId)
  | kakaoToken (row) (mem : row ∈ db.kakaoPhoneVerificationTokens) (unused : row.usedAt = none)
      (same : row.userId = some userId)

/-- A step that uses a phone token up, or none. -/
inductive UsesPhone (tokens : List PhoneVerificationToken) :
    Option String → List PhoneVerificationToken → Prop
  | none : UsesPhone tokens none tokens
  | some (input : UseInput) (usable : ∃ token ∈ tokens, usableToken input.tokenHash input.now token) :
      UsesPhone tokens (some input.tokenHash)
        (updateWhere (usableToken input.tokenHash input.now) (useToken input.usedAt) tokens)

inductive UsesKakao (tokens : List KakaoPhoneVerificationToken) :
    Option String → List KakaoPhoneVerificationToken → Prop
  | none : UsesKakao tokens none tokens
  | some (input : UseInput)
      (usable : ∃ token ∈ tokens, usableKakaoToken input.tokenHash input.now token) :
      UsesKakao tokens (some input.tokenHash)
        (updateWhere (usableKakaoToken input.tokenHash input.now) (useKakaoToken input.usedAt) tokens)

/-- The number is the one of the phone token, as the thread found it or as it is. -/
def NumberOf (pid : ℕ) (w : World) (phoneToken : Option String) (number : String) : Prop :=
  ∃ token, phoneToken = some token.tokenHash ∧ token.phoneE164 = number ∧
    (token ∈ w.db.phoneVerificationTokens ∨ (pid, .foundPhoneToken token) ∈ w.log)

/-- The number is one of a phone token that the thread has found, and the account had no
other when the thread found it. -/
def Fits (pid : ℕ) (w : World) (userId : Uuid) (number : String) : Prop :=
  ∃ user token, (pid, .foundAccount user) ∈ w.log ∧ user.userId = userId ∧
    (pid, .foundPhoneToken token) ∈ w.log ∧ token.phoneE164 = number ∧
      ∀ phone ∈ user.phone, phone = "" ∨ phone = number

/-- The thread has used up the tokens that its call is to use up. -/
def Spent (config : AuthConfig) (request : AuthRequest) (pid : ℕ) (w : World) : Prop :=
  ∀ phone kakao, request.uses config = some (phone, kakao) →
    ∃ created, (pid, .consumedTokens ⟨phone, kakao, created⟩) ∈ w.log

/-- The thread has guessed the code of a row for one of some purposes, and rightly. -/
def Guessed (pid : ℕ) (w : World) (id : RowId) (purposes : List String) : Prop :=
  ∃ row, row.id = id ∧ row.codeHash ≠ "pending" ∧ (pid, .claimedAttempt row purposes) ∈ w.log ∧
    (pid, .comparedCode row true) ∈ w.log

def Event.storesSession : Event → Bool
  | .savedSession _ _ _ => true
  | .rotatedSession _ _ _ _ => true
  | _ => false

def isClaimOf (id : RowId) : Event → Bool
  | .claimedAttempt row _ => row.id = id
  | _ => false

def isComparisonOf (id : RowId) : Event → Bool
  | .comparedCode row _ => row.id = id
  | _ => false

/-- The hash is one of a refresh token of the user and the device that the thread has
made and not stored. -/
structure SignedBy (config : AuthConfig) (pid : ℕ) (w : World) (userId : Uuid)
    (deviceId : UuidText) (hash : String) : Prop where
  hashed : ∃ iat, (pid, .hashed (refreshToken config userId deviceId iat) hash) ∈ w.log
  unstored : ∀ event, (pid, event) ∈ w.log → ¬ Event.storesSession event

/-- What a call may do to an account without touching its credentials. -/
structure KeepsCredentials (set : User → User) : Prop where
  userId : ∀ user, (set user).userId = user.userId
  email : ∀ user, (set user).email = user.email
  phone : ∀ user, (set user).phone = user.phone
  password : ∀ user, (set user).password = user.password
  deletedAt : ∀ user, (set user).deletedAt = user.deletedAt

/-- The fields of a row by which requests are counted. -/
def quotaStamp (row : PhoneVerification) : RowId × String × String × Timestamp :=
  (row.id, row.phoneE164, row.requestIpHash, row.createdAt)

/-- A new code, reserved within the quotas of its phone and its address. -/
structure Reserves (pid : ℕ) (w : World) (row : PhoneVerification) : Prop where
  isNew : IsNewVerification row.id w.log
  unused : ∀ other ∈ w.db.phoneVerifications, other.id ≠ row.id
  pending : row.codeHash = "pending"
  unverified : row.verifiedAt = none
  unclaimed : row.attemptCount = 0
  cooldown : ∀ other ∈ w.db.phoneVerifications, other.phoneE164 = row.phoneE164 →
    60000 ≤ row.createdAt - other.createdAt
  phoneQuota : countSince (fun other => other.phoneE164 = row.phoneE164) (row.createdAt - hourMs)
    w.db < 5
  ipQuota : countSince (fun other => other.requestIpHash = row.requestIpHash)
    (row.createdAt - hourMs) w.db < 20
  locked : ∀ key ∈ quotaKeys row.phoneE164 row.requestIpHash, Holds w.locks pid .update (.quota key)

/-- No account has the e-mail or the number of a new one, and none its identities. -/
structure IsFree (db : Database) (input : NewUser) (identities : List AuthIdentity) : Prop where
  email : ∀ user ∈ db.users, user.email ≠ input.email
  phone : ∀ number ∈ input.phone, ∀ user ∈ db.users, user.phone ≠ some number
  identity : ∀ identity ∈ identities, ∀ row ∈ db.authIdentities,
    ¬ (row.provider = identity.provider ∧ row.providerUserId = identity.providerUserId)

/-- What one step of a call does to the tables, and what it enters in the history. -/
inductive AuthChange (config : AuthConfig) (request : AuthRequest) (pid : ℕ) (w : World) :
    Trace → AuthTables → Prop
  | nothing : AuthChange config request pid w {} (authTables w.db)
  | hashed {candidate hash} (salted : ∃ salt, hash = config.bcryptHash salt candidate)
      (isNew : IsNewHash hash w.log) :
      AuthChange config request pid w { events := [.hashed candidate hash] } (authTables w.db)
  | foundByEmail {user} (mem : user ∈ w.db.users) (password : user.password ≠ "")
      (first : ∀ user', (pid, .foundByEmail user') ∉ w.log) :
      AuthChange config request pid w ⟨[user.userId], [.foundByEmail user]⟩ (authTables w.db)
  | found {userId} (reaches : Reaches w.db userId)
      (first : ∀ user', (pid, .foundByEmail user') ∉ w.log) :
      AuthChange config request pid w { accounts := [userId] } (authTables w.db)
  | foundPhoneToken {token} (mem : token ∈ w.db.phoneVerificationTokens) :
      AuthChange config request pid w { events := [.foundPhoneToken token] } (authTables w.db)
  | foundAccount {user} (mem : user ∈ w.db.users) :
      AuthChange config request pid w { events := [.foundAccount user] } (authTables w.db)
  | issuedTokens {userId} (busy : (pid, userId) ∈ w.reading) (spent : Spent config request pid w) :
      AuthChange config request pid w { events := [.issuedTokens userId] } (authTables w.db)
  | validatedSession {userId deviceId hash} (call : request.refreshes ∨ request.logsOut)
      (once : ∀ userId deviceId hash, (pid, .validatedSession userId deviceId hash) ∉ w.log) :
      AuthChange config request pid w { events := [.validatedSession userId deviceId hash] }
        (authTables w.db)
  | savedSession {input deviceId id} (call : request.logsIn) (busy : (pid, input.userId) ∈ w.reading)
      (signed : SignedBy config pid w input.userId deviceId input.refreshToken)
      (name : input.deviceId = deviceName deviceId) :
      AuthChange config request pid w
        { events := [.savedSession input.userId input.deviceId input.refreshToken] }
        { authTables w.db with sessions := putSession input id w.db.refreshTokens }
  | rotatedSession {input now deviceId} (call : request.refreshes)
      (busy : (pid, input.userId) ∈ w.reading)
      (signed : SignedBy config pid w input.userId deviceId input.refreshToken)
      (name : input.deviceId = deviceName deviceId)
      (validated : (pid, .validatedSession input.userId input.deviceId input.expectedRefreshToken) ∈
        w.log)
      (current : w.db.refreshTokens.any (canRotate input now)) :
      AuthChange config request pid w (rotationTrace input true)
        { authTables w.db with
          sessions := updateWhere (canRotate input now) (sessionColumns input.toSessionInput)
            w.db.refreshTokens }
  | deletedSession {userId deviceId} (call : request.logsOut) :
      AuthChange config request pid w {}
        { authTables w.db with
          sessions := w.db.refreshTokens.filter fun session => ¬ isSession userId deviceId session }
  | reservedCode {row} (call : request.requestsCode) (reserves : Reserves pid w row) :
      AuthChange config request pid w { events := [.reservedCode row] }
        { authTables w.db with verifications := w.db.phoneVerifications ++ [row] }
  | activatedCode {id codeHash expiresAt} (call : request.requestsCode)
      (sent : codeHash ≠ "pending") :
      AuthChange config request pid w {}
        { authTables w.db with
          verifications := updateWhere (canActivate id w.db) (activateColumns codeHash expiresAt)
            w.db.phoneVerifications }
  | deletedCode {id} (call : request.requestsCode) :
      AuthChange config request pid w {}
        { authTables w.db with
          verifications := w.db.phoneVerifications.filter fun row => row.id ≠ id }
  | claimedAttempt {input now row} (call : request.guesses = some input.purposes)
      (mem : row ∈ w.db.phoneVerifications) (current : canClaim input now w.db row)
      (reading : w.clocks now)
      (first : ∀ row purposes, (pid, .claimedAttempt row purposes) ∉ w.log) :
      AuthChange config request pid w
        { events := [.claimedAttempt (countAttempt row) input.purposes] }
        { authTables w.db with
          verifications := updateWhere (canClaim input now w.db) countAttempt w.db.phoneVerifications }
  | comparedCode {row purposes valid} (call : request.guesses = some purposes)
      (claimed : (pid, .claimedAttempt row purposes) ∈ w.log)
      (once : (own pid w.log).countP (isComparisonOf row.id) <
        (own pid w.log).countP (isClaimOf row.id))
      (sent : valid = true → row.codeHash ≠ "pending") :
      AuthChange config request pid w { events := [.comparedCode row valid] } (authTables w.db)
  | verifiedCode {id row now verifiedAt} (call : request.guesses = some ["signup", "login"])
      (mem : row ∈ w.db.phoneVerifications) (current : canVerify id now w.db row)
      (guessed : Guessed pid w id ["signup", "login"]) (reading : w.clocks now) :
      AuthChange config request pid w { events := [.verifiedCode id now] }
        { authTables w.db with
          verifications := updateWhere (canVerify id now w.db) (verifyColumns verifiedAt)
            w.db.phoneVerifications }
  | acceptedCode {input now row} (call : request.guesses = some ["password_reset"])
      (mem : row ∈ w.db.phoneVerifications) (current : canReset input now w.db row)
      (guessed : Guessed pid w input.verificationId ["password_reset"]) (reading : w.clocks now) :
      AuthChange config request pid w { events := [.acceptedCode input.verificationId now] }
        (authTables w.db)
  | resetPassword {input : ResetInput} {user row verifiedAt now candidate}
      {sessions : List RowId}
      (call : request.guesses = some ["password_reset"])
      (accepted : (pid, .acceptedCode input.verificationId now) ∈ w.log)
      (mem : row ∈ w.db.phoneVerifications) (same : row.id = input.verificationId)
      (unverified : row.verifiedAt = none)
      (owner : user ∈ w.db.users) (phone : user.phone = some input.phoneE164)
      (hashed : (pid, .hashed candidate input.password) ∈ w.log)
      (all : ∀ session ∈ w.db.refreshTokens, session.userId = user.userId → session.id ∈ sessions) :
      AuthChange config request pid w
        { events := [.resetPassword input.verificationId user.userId] }
        { authTables w.db with
          users := updateWhere (fun other => other.userId = user.userId)
            (fun other => { other with password := input.password }) w.db.users
          sessions := w.db.refreshTokens.filter fun session => session.id ∉ sessions
          verifications := updateWhere (fun other => other.id = input.verificationId)
            (verifyColumns verifiedAt) w.db.phoneVerifications }
  | createdPhoneToken {token} (unique : ∀ row ∈ w.db.phoneVerificationTokens,
        row.tokenHash ≠ token.tokenHash) (unused : token.usedAt = none) :
      AuthChange config request pid w {}
        { authTables w.db with phoneTokens := w.db.phoneVerificationTokens ++ [token] }
  | createdKakaoToken {token} (unique : ∀ row ∈ w.db.kakaoPhoneVerificationTokens,
        row.tokenHash ≠ token.tokenHash) (unused : token.usedAt = none)
      (busy : ∀ userId ∈ token.userId, (pid, userId) ∈ w.reading) :
      AuthChange config request pid w {}
        { authTables w.db with kakaoTokens := w.db.kakaoPhoneVerificationTokens ++ [token] }
  | usedTokens {phone kakao phoneTokens kakaoTokens} (call : request.uses config = some (phone, kakao))
      (phoneUse : UsesPhone w.db.phoneVerificationTokens phone phoneTokens)
      (kakaoUse : UsesKakao w.db.kakaoPhoneVerificationTokens kakao kakaoTokens)
      (alone : phone = none ∨ kakao = none) (login : request.manages)
      (busy : ∃ userId, (pid, userId) ∈ w.reading) (unfailed : (pid, .keptTokens) ∉ w.log) :
      AuthChange config request pid w { events := [.consumedTokens ⟨phone, kakao, none⟩] }
        { authTables w.db with phoneTokens := phoneTokens, kakaoTokens := kakaoTokens }
  | attachedPhone {phone kakao phoneTokens kakaoTokens userId number}
      (call : request.uses config = some (phone, kakao))
      (phoneUse : UsesPhone w.db.phoneVerificationTokens phone phoneTokens)
      (kakaoUse : UsesKakao w.db.kakaoPhoneVerificationTokens kakao kakaoTokens)
      (busy : (pid, userId) ∈ w.reading) (number_eq : NumberOf pid w phone number)
      (fits : Fits pid w userId number) (login : request.manages)
      (unfailed : (pid, .keptTokens) ∉ w.log) :
      AuthChange config request pid w { events := [.consumedTokens ⟨phone, kakao, none⟩] }
        { authTables w.db with
          users := updateWhere (fun user => user.userId = userId)
            (fun user => { user with phone := some number }) w.db.users
          phoneTokens := phoneTokens
          kakaoTokens := kakaoTokens }
  | createdUser {phone kakao phoneTokens kakaoTokens identities} {input : NewUser}
      (call : request.uses config = some (phone, kakao))
      (phoneUse : UsesPhone w.db.phoneVerificationTokens phone phoneTokens)
      (kakaoUse : UsesKakao w.db.kakaoPhoneVerificationTokens kakao kakaoTokens)
      (first : ∀ user', (pid, .foundByEmail user') ∉ w.log)
      (isNew : ∀ user ∈ w.db.users, user.userId ≠ input.userId)
      (number_eq : ∀ number ∈ input.phone, NumberOf pid w phone number)
      (own : ∀ identity ∈ identities, identity.userId = input.userId)
      (needs : phone ≠ none ∨ kakao ≠ none) (free : IsFree w.db input identities)
      (identified : kakao ≠ none → identities ≠ []) (unfailed : (pid, .keptTokens) ∉ w.log) :
      AuthChange config request pid w
        ⟨[input.userId], [.consumedTokens ⟨phone, kakao, some input.userId⟩]⟩
        { authTables w.db with
          users := w.db.users ++ [input.row]
          identities := w.db.authIdentities ++ identities
          phoneTokens := phoneTokens
          kakaoTokens := kakaoTokens }
  | keptTokens (unspent : ∀ consumption, (pid, .consumedTokens consumption) ∉ w.log) :
      AuthChange config request pid w { events := [.keptTokens] } (authTables w.db)
  | managed {cond : User → Bool} {set : User → User} {keep : RefreshToken → Bool}
      (call : request.manages) (keeps : KeepsCredentials set) :
      AuthChange config request pid w {}
        { authTables w.db with
          users := updateWhere cond set w.db.users
          sessions := w.db.refreshTokens.filter keep }
  | erased {input : DeletionJobInput} (call : request = .deletionJob input)
      (current : ∃ user ∈ w.db.users, canAnonymize input user) :
      AuthChange config request pid w {}
        { authTables w.db with
          users := updateWhere (fun user => user.userId = input.userId) (anonymizeColumns input.now)
            w.db.users
          sessions := w.db.refreshTokens.filter fun session => session.userId ≠ input.userId
          identities := w.db.authIdentities.filter fun row => row.userId ≠ input.userId }

/-- The reply of a call that returns tokens is in the history, and so is the rotation of
one that refreshes. -/
def Answered (request : AuthRequest) (pid : ℕ) (reply : AuthReply) (w : World) : Prop :=
  ∀ userId payload, reply = .tokens userId payload → .issuedTokens userId ∈ own pid w.log ∧
    (request.refreshes → ∃ deviceId expected next,
      .rotatedSession userId deviceId expected next ∈ own pid w.log)

/-- The entry of a step that uses a code up for one of some purposes. -/
inductive Succeeds (id : RowId) : List String → Event → Prop
  | verified (now) : Succeeds id ["signup", "login"] (.verifiedCode id now)
  | reset (userId) : Succeeds id ["password_reset"] (.resetPassword id userId)

/-- A call that has guessed a code and has returned has used a code up. -/
def Authorised (request : AuthRequest) (pid : ℕ) (w : World) : Prop :=
  ∀ purposes, request.guesses = some purposes →
    ∃ id event, Succeeds id purposes event ∧ event ∈ own pid w.log

/-! ### Steps of the threads -/

/-- The rows whose requests count under a quota key. -/
def quotaRows (key : String) (rows : List PhoneVerification) :
    List (RowId × String × String × Timestamp) :=
  (rows.map quotaStamp).filter fun stamp => key ∈ quotaKeys stamp.2.1 stamp.2.2.1

/-- What a thread may rely on between its steps: its locks protect their rows and their
quotas, and no other makes entries in its name. -/
structure AuthRely (pid : ℕ) (before after : World) : Prop where
  locked : World.KeepsLocked pid before after
  events : own pid after.log = own pid before.log
  accounts : own pid after.reading = own pid before.reading
  quota : ∀ key, Holds before.locks pid .update (.quota key) →
    (quotaRows key after.db.phoneVerifications).Sublist (quotaRows key before.db.phoneVerifications)
  clocks : after.clocks = before.clocks

theorem AuthRely.refl (pid : ℕ) (w : World) : AuthRely pid w w :=
  ⟨.refl pid w, rfl, rfl, fun _ _ => List.Sublist.refl _, rfl⟩

theorem AuthRely.trans {pid : ℕ} {w₁ w₂ w₃ : World} (h : AuthRely pid w₁ w₂)
    (h' : AuthRely pid w₂ w₃) : AuthRely pid w₁ w₃ where
  locked := h.locked.trans h'.locked
  events := h'.events.trans h.events
  accounts := h'.accounts.trans h.accounts
  quota := fun key hheld => (h'.quota key (h.locked.locks hheld)).trans (h.quota key hheld)
  clocks := h'.clocks.trans h.clocks

/-- One step of a thread: a change with its entries, or the end of the call. -/
structure AuthStep (config : AuthConfig) (request : AuthRequest) (pid : ℕ) (before after : World) :
    Prop where
  change : (∃ trace, AuthChange config request pid before trace (authTables after.db) ∧
      after.log = stamp pid trace.events ++ before.log ∧
      after.reading = stamp pid trace.accounts ++ before.reading) ∨
    (authTables after.db = authTables before.db ∧ after.log = before.log ∧
      after.reading = before.reading.filter fun entry => entry.1 ≠ pid)
  others : ∀ other, other ≠ pid → AuthRely other before after
  clocks : after.clocks = before.clocks

theorem AuthStep.refl (config : AuthConfig) (request : AuthRequest) (pid : ℕ) (w : World) :
    AuthStep config request pid w w where
  change := Or.inl ⟨{}, .nothing, rfl, rfl⟩
  others := fun other _ => .refl other w
  clocks := rfl

def authLogic (config : AuthConfig) : Logic World AuthRequest Failure AuthReply where
  invariant w := Exclusive w.locks
  rely := AuthRely
  guarantee := AuthStep config
  allowed _ _ := True
  requires _ _ := True
  ensures request pid reply w := Answered request pid reply w ∧ Authorised request pid w
  fresh pid w := own pid w.log = [] ∧ own pid w.reading = []
  rely_refl := .refl
  rely_trans := .trans
  guarantee_refl := .refl config
  rely_of_guarantee hother h := h.others _ hother
  fresh_of_rely := fun hrely hfresh => by rwa [hrely.events, hrely.accounts]

section Quota

variable {config : AuthConfig} {request : AuthRequest} {pid other : ℕ} {w : World} {trace : Trace}
  {tables : AuthTables} {key : String} {rows : List PhoneVerification}

theorem quotaRows_updateWhere {cond : PhoneVerification → Bool}
    {set : PhoneVerification → PhoneVerification} (hset : ∀ row, quotaStamp (set row) = quotaStamp row) :
    (quotaRows key (updateWhere cond set rows)).Sublist (quotaRows key rows) := by
  rw [quotaRows, map_key_updateWhere hset, quotaRows]

theorem quotaRows_filter (cond : PhoneVerification → Bool) :
    (quotaRows key (rows.filter cond)).Sublist (quotaRows key rows) :=
  (List.filter_sublist.map _).filter _

theorem quotaRows_append {row : PhoneVerification}
    (hkey : key ∉ quotaKeys row.phoneE164 row.requestIpHash) :
    (quotaRows key (rows ++ [row])).Sublist (quotaRows key rows) := by
  simp [quotaRows, quotaStamp, hkey]

/-- No step adds to the requests that count under a key another thread has locked. -/
theorem AuthChange.quota (h : AuthChange config request pid w trace tables)
    (hexclusive : Exclusive w.locks) (hother : other ≠ pid)
    (hheld : Holds w.locks other .update (.quota key)) :
    (quotaRows key tables.verifications).Sublist (quotaRows key w.db.phoneVerifications) := by
  cases h with
  | reservedCode call reserves =>
      -- The thread that reserves holds the locks of both keys of its row.
      have hkey : key ∉ quotaKeys _ _ := fun hkey =>
        hother (hexclusive.holder_eq (reserves.locked key hkey) hheld)
      exact quotaRows_append hkey
  | activatedCode call sent =>
      exact quotaRows_updateWhere fun _ => rfl
  | deletedCode call => exact quotaRows_filter _
  | claimedAttempt call mem current =>
      exact quotaRows_updateWhere fun _ => rfl
  | verifiedCode call mem current guessed =>
      exact quotaRows_updateWhere fun _ => rfl
  | resetPassword call accepted mem same unverified owner phone hashed all =>
      exact quotaRows_updateWhere fun _ => rfl
  | _ => exact List.Sublist.refl _

end Quota

end ChatTea.Auth
