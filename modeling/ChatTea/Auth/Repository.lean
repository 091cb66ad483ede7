import ChatTea.Auth.Token
import ChatTea.Users.Repository

/-!
# The authentication repository

The embedding of `AuthRepository`: accounts by e-mail and identity, sessions, and the
single-use tokens of phone and Kakao verifications with the transactions that consume
them. A session is saved, rotated and deleted by one statement each; a transaction that
consumes tokens locks the rows it has found usable and writes all it does when it ends.

## Main definitions

* `saveRefreshToken`, `rotateRefreshToken`, `deleteRefreshToken` — sessions
* `findPhoneVerificationToken`, `consumePhoneVerificationToken` — a phone token
* `signupWithPhoneVerificationToken`, `createKakaoUserWithToken`,
  `createKakaoPhoneUserWithTokens` — new accounts
* `attachPhoneWithKakaoPhoneVerificationTokens`,
  `consumeKakaoPhoneVerificationTokenForUser` — tokens for an account that exists
-/

namespace ChatTea.Auth

open History Interleaving RowLocks Table Transaction Users

variable {ι : Type}

/-! ### Looking accounts up -/

/-- The row of a user. -/
def findUser (userId : Uuid) (db : Database) : Option User := lookup User.userId userId db.users

/-- Someone who signs in has found an account, if it has a password at all. -/
def signinTrace : Option User → Trace
  | some user => if user.password = "" then {} else ⟨[user.userId], [.foundByEmail user]⟩
  | none => {}

/-- The account that a sign-in finds by its e-mail, recorded with the lookup. -/
def signinUser (email : String) : Prog World ι Failure (Option User) :=
  find signinTrace fun db => db.users.find? fun user => user.email = email

/-- The account of a user of another provider: the identity first, then its user. -/
def findUserByIdentity (provider providerUserId : String) : Prog World ι Failure (Option User) := do
  let identity ← find (fun identity => { accounts := (identity.map AuthIdentity.userId).toList })
    fun db => db.authIdentities.find? fun row =>
      row.provider = provider ∧ row.providerUserId = providerUserId
  match identity with
  | none => return none
  | some identity => find (fun _ => {}) (findUser identity.userId)

/-! ### Sessions -/

/-- The columns of a session to be stored. -/
structure SessionInput where
  userId : Uuid
  deviceId : String
  refreshToken : String
  refreshTokenExp : Timestamp

/-- The sessions of a user and a device; there is at most one. -/
def isSession (userId : Uuid) (deviceId : String) (session : RefreshToken) : Bool :=
  session.userId = userId ∧ session.deviceId = deviceId

/-- What storing again changes of a session. -/
def sessionColumns (input : SessionInput) (session : RefreshToken) : RefreshToken :=
  { session with refreshToken := input.refreshToken, refreshTokenExp := input.refreshTokenExp }

/-- A session that did not exist. -/
def newSession (input : SessionInput) (id : RowId) : RefreshToken where
  id := id
  userId := input.userId
  deviceId := input.deviceId
  refreshToken := input.refreshToken
  refreshTokenExp := input.refreshTokenExp

/-- `INSERT … ON CONFLICT ("userId", "deviceId") DO UPDATE`. -/
def putSession (input : SessionInput) (id : RowId) (sessions : List RefreshToken) :
    List RefreshToken :=
  if sessions.any (isSession input.userId input.deviceId) then
    updateWhere (isSession input.userId input.deviceId) (sessionColumns input) sessions
  else sessions ++ [newSession input id]

/-- Stores a session, over the one of the same user and device. -/
def saveRefreshToken (input : SessionInput) : Call Database Failure Unit := fun db => do
  require (.constraint "refreshToken_userId_fkey")
    (db.refreshTokens.any (isSession input.userId input.deviceId) ∨ db.hasUser input.userId)
  return ((), { db with
    refreshTokens := putSession input db.nextRowId db.refreshTokens
    nextRowId := db.nextRowId + 1 })

/-- A session to be stored in place of the one with the expected hash. -/
structure RotateInput extends SessionInput where
  expectedRefreshToken : String

/-- The session is still the one that was validated, and has not expired. -/
def canRotate (input : RotateInput) (now : Timestamp) (session : RefreshToken) : Bool :=
  isSession input.userId input.deviceId session ∧
    session.refreshToken = input.expectedRefreshToken ∧ now < session.refreshTokenExp

/-- The guarded update of a rotation, and whether it hit. -/
def writeRotation (input : RotateInput) (now : Timestamp) : Call Database Failure Bool := fun db =>
  return (db.refreshTokens.any (canRotate input now), { db with
    refreshTokens := updateWhere (canRotate input now) (sessionColumns input.toSessionInput)
      db.refreshTokens })

/-- The end of a transaction that writes nothing. -/
def endTransaction {β : Type} (value : β) : Prog World ι Failure β :=
  record (fun _ => {}) fun db => return (value, db)

/-- What a rotation records: the hash it replaced and the new one. -/
def rotationTrace (input : RotateInput) (rotated : Bool) : Trace :=
  if rotated then
    { events := [.rotatedSession input.userId input.deviceId input.expectedRefreshToken
        input.refreshToken] }
  else {}

/-- The rotation: the user's row is locked, then the session is replaced if it still has the
expected hash. -/
def rotateRefreshToken (input : RotateInput) : Prog World ι Failure Bool :=
  transaction do
    let found ← lock (fun _ => {}) .update (userRows fun user => user.userId = input.userId)
      fun db => db.hasUser input.userId
    if ¬ found then endTransaction false
    else do
      let now ← clock
      record (rotationTrace input) (writeRotation input now)

/-- The stored session of a user and a device. -/
def findRefreshToken (userId : Uuid) (deviceId : String) :
    Prog World ι Failure (Option RefreshToken) :=
  find (fun session => { accounts := (session.map RefreshToken.userId).toList })
    fun db => db.refreshTokens.find? (isSession userId deviceId)

/-- Ends the session of a user and a device. -/
def deleteRefreshToken (userId : Uuid) (deviceId : String) : Call Database Failure Unit := fun db =>
  return ((), { db with
    refreshTokens := db.refreshTokens.filter fun session => ¬ isSession userId deviceId session })

/-! ### Tokens -/

/-- The phone tokens that a call may still use. -/
def usableToken (tokenHash : String) (now : Timestamp) (token : PhoneVerificationToken) : Bool :=
  token.tokenHash = tokenHash ∧ token.usedAt = none ∧ now < token.expiresAt

/-- The Kakao tokens that a call may still use. -/
def usableKakaoToken (tokenHash : String) (now : Timestamp)
    (token : KakaoPhoneVerificationToken) : Bool :=
  token.tokenHash = tokenHash ∧ token.usedAt = none ∧ now < token.expiresAt

/-- A phone token that is used up. -/
def useToken (usedAt : Timestamp) (token : PhoneVerificationToken) : PhoneVerificationToken :=
  { token with usedAt := some usedAt }

/-- A Kakao token that is used up. -/
def useKakaoToken (usedAt : Timestamp) (token : KakaoPhoneVerificationToken) :
    KakaoPhoneVerificationToken :=
  { token with usedAt := some usedAt }

/-- The two readings of the clock of an update that uses a token up. -/
structure UseInput where
  tokenHash : String
  usedAt : Timestamp
  now : Timestamp

/-- Uses up the phone token with the hash, if it is usable. -/
def usePhoneTokens (input : UseInput) (db : Database) : Database :=
  { db with
    phoneVerificationTokens := updateWhere (usableToken input.tokenHash input.now)
      (useToken input.usedAt) db.phoneVerificationTokens }

/-- Uses up the Kakao token with the hash, if it is usable. -/
def useKakaoTokens (input : UseInput) (db : Database) : Database :=
  { db with
    kakaoPhoneVerificationTokens := updateWhere (usableKakaoToken input.tokenHash input.now)
      (useKakaoToken input.usedAt) db.kakaoPhoneVerificationTokens }

/-- Stores a Kakao token. Its hash is the primary key. -/
def createKakaoPhoneVerificationToken (token : KakaoPhoneVerificationToken) :
    Call Database Failure Unit := fun db => do
  require (.constraint "kakaoSignupToken_pkey")
    (∀ row ∈ db.kakaoPhoneVerificationTokens, row.tokenHash ≠ token.tokenHash)
  require (.constraint "kakaoPhoneVerificationToken_userId_fkey")
    (∀ userId ∈ token.userId, db.hasUser userId)
  return ((), { db with
    kakaoPhoneVerificationTokens := db.kakaoPhoneVerificationTokens ++ [token] })

/-- The usable row of a Kakao token that a request brings. -/
def findKakaoPhoneVerificationToken (config : AuthConfig) (token : Text) :
    Prog World ι Failure (Option KakaoPhoneVerificationToken) := do
  let now ← clock
  find (fun found => { accounts := (found.bind KakaoPhoneVerificationToken.userId).toList })
    fun db => db.kakaoPhoneVerificationTokens.find? (usableKakaoToken (config.hashToken token) now)

/-- The usable row of a phone token that a request brings. -/
def findPhoneVerificationToken (config : AuthConfig) (token : Text) :
    Prog World ι Failure (Option PhoneVerificationToken) := do
  let now ← clock
  find (fun found => { events := (found.map Event.foundPhoneToken).toList })
    fun db => db.phoneVerificationTokens.find? (usableToken (config.hashToken token) now)

/-- What a write that is to use tokens up enters, by what it returns. -/
def consumptionTrace {β : Type} (consumption : Consumption) : Option β → Trace
  | some _ => ⟨consumption.created.toList, [.consumedTokens consumption]⟩
  | none => { events := [.keptTokens] }

/-- The entries of the history that say that tokens were used up. -/
def isConsumption : Event → Bool
  | .consumedTokens _ => true
  | _ => false

/-- The entry of a failure to use tokens up. A transaction that takes effect and whose answer
is lost has used them up. -/
def noteKept : Prog World ι Failure Unit :=
  .atomic fun pid w _ after =>
    after = if (own pid w.log).any isConsumption then w else w.note pid { events := [.keptTokens] }

/-- An operation that is to use tokens up; if it throws, it has failed. -/
def consuming {β : Type} (operation : Prog World ι Failure β) : Prog World ι Failure β :=
  tryCatch operation fun failure => do
    noteKept
    throw failure

/-- The update of a consumption, which returns the row it hit. -/
def writePhoneConsumption (input : UseInput) :
    Call Database Failure (Option PhoneVerificationToken) := fun db =>
  return ((db.phoneVerificationTokens.find? (usableToken input.tokenHash input.now)).map
      (useToken input.usedAt),
    usePhoneTokens input db)

/-- Uses up a phone token in one statement. -/
def consumePhoneVerificationToken (config : AuthConfig) (token : Text) :
    Prog World ι Failure (Option PhoneVerificationToken) := do
  let usedAt ← clock
  let now ← clock
  consuming (record (consumptionTrace ⟨some (config.hashToken token), none, none⟩)
    (writePhoneConsumption ⟨config.hashToken token, usedAt, now⟩))

/-- An update of an open transaction that uses a phone token up; its row stays locked. -/
def lockPhoneToken (config : AuthConfig) (token : Text) :
    Prog World ι Failure (UseInput × Option PhoneVerificationToken) := do
  let usedAt ← clock
  let now ← clock
  let found ← lock (fun _ => {}) .noKeyUpdate
    (fun db => (db.phoneVerificationTokens.filter (usableToken (config.hashToken token) now)).map
      fun row => .phoneToken row.tokenHash)
    fun db => db.phoneVerificationTokens.find? (usableToken (config.hashToken token) now)
  return (⟨config.hashToken token, usedAt, now⟩, found)

/-- Reads a Kakao token under a row lock, for a transaction that will use it up. -/
def lockKakaoToken (config : AuthConfig) (token : Text) :
    Prog World ι Failure (UseInput × Option KakaoPhoneVerificationToken) := do
  let usedAt ← clock
  let now ← clock
  let found ← lock (fun _ => {}) .noKeyUpdate
    (fun db => (db.kakaoPhoneVerificationTokens.filter
      (usableKakaoToken (config.hashToken token) now)).map fun row => .kakaoToken row.tokenHash)
    fun db => db.kakaoPhoneVerificationTokens.find? (usableKakaoToken (config.hashToken token) now)
  return (⟨config.hashToken token, usedAt, now⟩, found)

/-! ### Transactions that consume tokens -/

/-- What a new account is created from. -/
structure NewUser where
  userId : Uuid
  email : String
  phone : Option String
  password : String
  userName : String
  gender : Gender

/-- The row of a new account. -/
def NewUser.row (input : NewUser) : User where
  userId := input.userId
  email := input.email
  phone := input.phone
  password := input.password
  userName := input.userName
  gender := input.gender
  intro := ""
  birthDate := none
  region := none
  interestedGender := none
  profileCompletedAt := none
  hiddenAt := none
  deletionScheduledAt := none
  deletionLeaseExpiresAt := none
  deletionAttempts := 0
  deletedAt := none

/-- Inserts an account. Its id, e-mail and phone have to be free. -/
def insertUser (input : NewUser) (db : Database) : Except Failure Database := do
  require (.constraint "users_pkey") (∀ user ∈ db.users, user.userId ≠ input.userId)
  require (.constraint "users_email_key") (∀ user ∈ db.users, user.email ≠ input.email)
  require (.constraint "users_phone_key")
    (∀ phone ∈ input.phone, ∀ user ∈ db.users, user.phone ≠ some phone)
  return { db with users := db.users ++ [input.row] }

/-- Inserts an identity, which belongs to one account only. -/
def insertIdentity (identity : AuthIdentity) (db : Database) : Except Failure Database := do
  require (.constraint "authIdentity_provider_providerUserId_unique")
    (∀ row ∈ db.authIdentities,
      ¬ (row.provider = identity.provider ∧ row.providerUserId = identity.providerUserId))
  return { db with authIdentities := db.authIdentities ++ [identity] }

/-- The phone token is gone when the transaction comes to use it. -/
def phoneTokenConsumeFailed : Failure := .error "PhoneVerificationTokenConsumeFailedError"

/-- The Kakao token is gone when the transaction comes to use it. -/
def kakaoTokenConsumeFailed : Failure := .error "KakaoPhoneVerificationTokenConsumeFailedError"

/-- `if (!token) throw …`. -/
def requireFound {β : Type} (failure : Failure) : Option β → Except Failure β
  | some value => .ok value
  | none => .error failure

/-- The writes of a signup. -/
def writeSignup (use : UseInput) (input : NewUser) : Call Database Failure (Option User) :=
  fun db => do
    let db ← insertUser input (usePhoneTokens use db)
    return (some input.row, db)

/-- A signup: one transaction that uses the phone token up and inserts the account. -/
def signupWithPhoneVerificationToken (config : AuthConfig) (input : NewUser) (token : Text) :
    Prog World ι Failure (Option User) :=
  consuming <| transaction do
    let (use, found) ← lockPhoneToken config token
    match found with
    | none => do
        noteKept
        endTransaction none
    | some phoneVerificationToken =>
        record (consumptionTrace ⟨some use.tokenHash, none, some input.userId⟩)
          (writeSignup use { input with phone := some phoneVerificationToken.phoneE164 })

/-- The writes of an attachment of a phone to an account. -/
def writeAttachment (phoneUse kakaoUse : UseInput) (userId : Uuid) (phone : String) :
    Call Database Failure (Option User) := fun db => do
  let db := useKakaoTokens kakaoUse (usePhoneTokens phoneUse db)
  require (.constraint "users_phone_key")
    (db.hasUser userId → ∀ user ∈ db.users, user.userId ≠ userId → user.phone ≠ some phone)
  let users := updateWhere (fun user => user.userId = userId)
    (fun user => { user with phone := some phone }) db.users
  return (lookup User.userId userId users, { db with users := users })

/-- The account, its new phone and the two tokens that stand for it. -/
structure AttachInput where
  userId : Uuid
  phone : String
  phoneVerificationToken : Text
  kakaoPhoneVerificationToken : Text

/-- Attaches a phone: one transaction that uses both tokens up and updates the account. -/
def attachPhoneWithKakaoPhoneVerificationTokens (config : AuthConfig) (input : AttachInput) :
    Prog World ι Failure (Option User) :=
  consuming <| transaction do
    let (phoneUse, phoneVerificationToken) ← lockPhoneToken config input.phoneVerificationToken
    let (kakaoUse, kakaoToken) ← lockKakaoToken config input.kakaoPhoneVerificationToken
    let _ ← MonadExcept.ofExcept (requireFound phoneTokenConsumeFailed phoneVerificationToken)
    let _ ← MonadExcept.ofExcept (requireFound kakaoTokenConsumeFailed kakaoToken)
    record (fun _ => { events :=
        [.consumedTokens ⟨some phoneUse.tokenHash, some kakaoUse.tokenHash, none⟩] })
      (writeAttachment phoneUse kakaoUse input.userId input.phone)

/-- Uses up a Kakao token for an account that has a phone already. -/
def consumeKakaoPhoneVerificationTokenForUser (config : AuthConfig) (userId : Uuid) (token : Text) :
    Prog World ι Failure (Option User) :=
  consuming <| transaction do
    let (use, kakaoToken) ← lockKakaoToken config token
    let _ ← MonadExcept.ofExcept (requireFound kakaoTokenConsumeFailed kakaoToken)
    let user ← find (fun _ => {}) (findUser userId)
    record (fun _ => { events := [.consumedTokens ⟨none, some use.tokenHash, none⟩] })
      fun db => return (user, useKakaoTokens use db)

/-- The identity of a Kakao user. -/
def kakaoIdentity (userId : Uuid) (providerUserId : String) : AuthIdentity :=
  ⟨userId, "kakao", providerUserId⟩

/-- The writes of a Kakao account without a phone. -/
def writeKakaoUser (use : UseInput) (input : NewUser) (providerUserId : String) :
    Call Database Failure User := fun db => do
  let db ← insertUser input (useKakaoTokens use db)
  let db ← insertIdentity (kakaoIdentity input.userId providerUserId) db
  return (input.row, db)

/-- A Kakao account without a phone: one transaction that uses the Kakao token up. -/
def createKakaoUserWithToken (config : AuthConfig) (input : NewUser) (providerUserId : String)
    (token : Text) : Prog World ι Failure User :=
  consuming <| transaction do
    let (use, kakaoToken) ← lockKakaoToken config token
    let _ ← MonadExcept.ofExcept (requireFound kakaoTokenConsumeFailed kakaoToken)
    record (fun _ => ⟨[input.userId],
        [.consumedTokens ⟨none, some use.tokenHash, some input.userId⟩]⟩)
      (writeKakaoUser use { input with phone := none } providerUserId)

/-- A Kakao account with a phone: one transaction that uses both tokens up. -/
def createKakaoPhoneUserWithTokens (config : AuthConfig) (input : NewUser)
    (providerUserId : String) (phoneToken kakaoToken : Text) : Prog World ι Failure User :=
  consuming <| transaction do
    let (phoneUse, phoneVerificationToken) ← lockPhoneToken config phoneToken
    let (kakaoUse, kakaoToken) ← lockKakaoToken config kakaoToken
    let _ ← MonadExcept.ofExcept (requireFound phoneTokenConsumeFailed phoneVerificationToken)
    let _ ← MonadExcept.ofExcept (requireFound kakaoTokenConsumeFailed kakaoToken)
    record (fun _ => ⟨[input.userId], [.consumedTokens
        ⟨some phoneUse.tokenHash, some kakaoUse.tokenHash, some input.userId⟩]⟩)
      fun db => writeKakaoUser kakaoUse input providerUserId (usePhoneTokens phoneUse db)

end ChatTea.Auth
