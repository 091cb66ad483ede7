import ChatTea.Auth.Repository

/-!
# The phone repository

The embedding of `PhoneRepository`: codes that are reserved within the quotas of a phone
and an address, activated when they have been sent, guessed at, and used up by one login
or signup or by one password reset. The quotas are counted under advisory locks; the
updates of a code are single statements that read the clock of the database.

## Main definitions

* `reserveVerification`, `activateVerification`, `deleteVerification` — a request
* `latestVerification`, `claimVerificationAttempt`, `markVerified` — a guess
* `resetPasswordWithVerification` — a new password
-/

namespace ChatTea.Phone

open Auth Interleaving RowLocks Table Transaction Users

variable {ι : Type}

/-- `newer` comes after a row in the order of creation. -/
def isNewer (newer row : PhoneVerification) : Bool :=
  row.createdAt < newer.createdAt ∨ (newer.createdAt = row.createdAt ∧ row.id < newer.id)

/-- `isLatestVerification`: no row of the phone is newer. -/
def isLatest (db : Database) (row : PhoneVerification) : Bool :=
  db.phoneVerifications.all fun newer => ¬ (newer.phoneE164 = row.phoneE164 ∧ isNewer newer row)

/-- The account with a number. -/
def findUserByPhone (phoneE164 : String) : Prog World ι Failure (Option User) :=
  find (fun user => { accounts := (user.map User.userId).toList })
    fun db => db.users.find? fun user => user.phone = some phoneE164

/-- The latest code of a number. -/
def findLatest (phoneE164 : String) (db : Database) : Option PhoneVerification :=
  db.phoneVerifications.find? fun row => row.phoneE164 = phoneE164 ∧ isLatest db row

/-- Reads the latest code of a number. -/
def latestVerification (phoneE164 : String) : Prog World ι Failure (Option PhoneVerification) :=
  find (fun _ => {}) (findLatest phoneE164)

/-! ### Requesting a code -/

/-- A code to be reserved, with the quotas. -/
structure ReserveInput where
  phoneE164 : String
  purpose : String
  requestIpHash : String
  cooldownMs : ℤ
  phoneLimit : ℕ
  ipLimit : ℕ

/-- What a reservation comes to. -/
inductive Reservation where
  | reserved (verification : PhoneVerification)
  | retryTooSoon
  | phoneLimit
  | ipLimit

/-- The keys of the advisory locks under which the requests of a row are counted. -/
def quotaKeys (phoneE164 requestIpHash : String) : List String :=
  ["phone:" ++ phoneE164, "ip:" ++ requestIpHash]

/-- `lockVerificationQuotaKey` for each of some keys. -/
def lockQuotaKeys : List String → Prog World ι Failure Unit
  | [] => return ()
  | key :: keys => do
      lock (fun _ => {}) .update (fun _ => [.quota key]) fun _ => ()
      lockQuotaKeys keys

/-- How many codes of a kind were created after a time. -/
def countSince (cond : PhoneVerification → Bool) (since : Timestamp) (db : Database) : ℕ :=
  db.phoneVerifications.countP fun row => cond row ∧ since < row.createdAt

/-- The window of the quotas, in milliseconds. -/
def hourMs : ℤ := 60 * 60 * 1000

/-- `Number.isSafeInteger`. -/
def isSafeInteger (value : ℤ) : Bool := -(2 ^ 53 - 1) ≤ value ∧ value ≤ 2 ^ 53 - 1

/-- The row of a reserved code. It has expired until it is activated. -/
def newVerification (input : ReserveInput) (now : Timestamp) (id : RowId) : PhoneVerification where
  id := id
  phoneE164 := input.phoneE164
  codeHash := "pending"
  purpose := input.purpose
  expiresAt := now
  verifiedAt := none
  attemptCount := 0
  requestIpHash := input.requestIpHash
  createdAt := now

/-- Inserts a code. -/
def insertVerification (input : ReserveInput) (now : Timestamp) (id : RowId) :
    Call Database Failure PhoneVerification := fun db => do
  require (.constraint "phoneVerification_pkey") (∀ row ∈ db.phoneVerifications, row.id ≠ id)
  let row := newVerification input now id
  return (row, { db with phoneVerifications := db.phoneVerifications ++ [row] })

/-- A drawn identifier is none that was ever drawn. -/
def IsNewVerification (id : RowId) (log : List (ℕ × Event)) : Prop :=
  ∀ entry ∈ log, ∀ row, entry.2 = .reservedCode row → row.id ≠ id

/-- Reserves a code within the quotas, under the locks of the number and the address. -/
def reserveVerification (input : ReserveInput) : Prog World ι Failure Reservation :=
  transaction do
    lockQuotaKeys ((quotaKeys input.phoneE164 input.requestIpHash).mergeSort (· ≤ ·))
    let now ← clock
    MonadExcept.ofExcept (require (.error "DATABASE_CLOCK_UNAVAILABLE") (isSafeInteger now))
    let latest ← latestVerification input.phoneE164
    if latest.any fun row => now - row.createdAt < input.cooldownMs then
      endTransaction .retryTooSoon
    else do
      let since := now - hourMs
      let phoneRequests ← find (fun _ => {})
        (countSince (fun row => row.phoneE164 = input.phoneE164) since)
      if input.phoneLimit ≤ phoneRequests then endTransaction .phoneLimit
      else do
        let ipRequests ← find (fun _ => {})
          (countSince (fun row => row.requestIpHash = input.requestIpHash) since)
        if input.ipLimit ≤ ipRequests then endTransaction .ipLimit
        else do
          let verification ← recording IsNewVerification
            (fun row => { events := [.reservedCode row] }) (insertVerification input now)
          return .reserved verification

/-- Only a pending code that is the latest of its number can be activated. -/
def canActivate (id : RowId) (db : Database) (row : PhoneVerification) : Bool :=
  row.id = id ∧ row.codeHash = "pending" ∧ isLatest db row

/-- A code that can be used until a time. -/
def activateColumns (codeHash : String) (expiresAt : Timestamp) (row : PhoneVerification) :
    PhoneVerification :=
  { row with codeHash := codeHash, expiresAt := expiresAt }

/-- `UPDATE … WHERE … RETURNING` of the codes. -/
def updateVerification (cond : Database → PhoneVerification → Bool)
    (set : PhoneVerification → PhoneVerification) :
    Call Database Failure (Option PhoneVerification) := fun db =>
  return ((db.phoneVerifications.find? (cond db)).map set,
    { db with phoneVerifications := updateWhere (cond db) set db.phoneVerifications })

/-- Activates a code that has been sent. -/
def activateVerification (id : RowId) (codeHash : String) (ttlMs : ℤ) :
    Prog World ι Failure (Option PhoneVerification) := do
  let now ← clock
  record (fun _ => {}) (updateVerification (canActivate id) (activateColumns codeHash (now + ttlMs)))

/-- Deletes a code that no token refers to. -/
def deleteVerification (id : RowId) : Call Database Failure Unit := fun db => do
  require (.constraint "phoneVerificationToken_verificationId_fkey")
    (∀ token ∈ db.phoneVerificationTokens, token.verificationId ≠ id)
  return ((), { db with
    phoneVerifications := db.phoneVerifications.filter fun row => row.id ≠ id })

/-! ### Guessing a code -/

/-- A guess of a code, for one of the purposes. -/
structure ClaimInput where
  id : RowId
  phoneE164 : String
  purposes : List String

/-- The code may still be guessed at. -/
def canClaim (input : ClaimInput) (now : Timestamp) (db : Database) (row : PhoneVerification) :
    Bool :=
  row.id = input.id ∧ row.phoneE164 = input.phoneE164 ∧ row.purpose ∈ input.purposes ∧
    row.verifiedAt = none ∧ now < row.expiresAt ∧ row.attemptCount < 5 ∧ isLatest db row

/-- One more guess. -/
def countAttempt (row : PhoneVerification) : PhoneVerification :=
  { row with attemptCount := row.attemptCount + 1 }

/-- Counts a guess before it is compared. -/
def claimVerificationAttempt (input : ClaimInput) :
    Prog World ι Failure (Option PhoneVerification) := do
  let now ← clock
  record (fun claimed => { events := (claimed.map fun row =>
      Event.claimedAttempt row input.purposes).toList })
    (updateVerification (canClaim input now) countAttempt)

/-- A guessed code may be used up. -/
def canVerify (id : RowId) (now : Timestamp) (db : Database) (row : PhoneVerification) : Bool :=
  row.id = id ∧ row.verifiedAt = none ∧ now < row.expiresAt ∧ 0 < row.attemptCount ∧
    isLatest db row

/-- A code that has been used. -/
def verifyColumns (verifiedAt : Timestamp) (row : PhoneVerification) : PhoneVerification :=
  { row with verifiedAt := some verifiedAt }

/-- Uses a code up, if it can still be used. -/
def markVerified (id : RowId) : Prog World ι Failure (Option PhoneVerification) := do
  let verifiedAt ← clock
  let now ← clock
  record (fun verified => { events := (verified.map fun _ => Event.verifiedCode id now).toList })
    (updateVerification (canVerify id now) (verifyColumns verifiedAt))

/-- Stores a phone token. Its hash is the primary key. -/
def createPhoneVerificationToken (token : PhoneVerificationToken) : Call Database Failure Unit :=
  fun db => do
    require (.constraint "signupToken_pkey")
      (∀ row ∈ db.phoneVerificationTokens, row.tokenHash ≠ token.tokenHash)
    require (.constraint "phoneVerificationToken_verificationId_fkey")
      (db.phoneVerifications.any fun row => row.id = token.verificationId)
    return ((), { db with phoneVerificationTokens := db.phoneVerificationTokens ++ [token] })

/-! ### Resetting a password -/

/-- A code and the password to be set with it. -/
structure ResetInput where
  verificationId : RowId
  phoneE164 : String
  password : String

/-- The code can still be used, and was sent to the number for a reset. -/
def canReset (input : ResetInput) (now : Timestamp) (db : Database) (row : PhoneVerification) :
    Bool :=
  canVerify input.verificationId now db row ∧ row.phoneE164 = input.phoneE164 ∧
    row.purpose = "password_reset"

/-- The writes of a reset of the account it has locked, with the sessions it has found. -/
def writeReset (input : ResetInput) (userId : Uuid) (verifiedAt : Timestamp)
    (sessions : List RowId) : Call Database Failure (Option User) := fun db => do
  let users := updateWhere (fun user => user.userId = userId)
    (fun user => { user with password := input.password }) db.users
  let user ← requireFound (.error "PASSWORD_RESET_USER_UPDATE_FAILED")
    (lookup User.userId userId users)
  return (some user, deleteSessions sessions { db with
    users := users
    phoneVerifications := updateWhere (fun row => row.id = input.verificationId)
      (verifyColumns verifiedAt) db.phoneVerifications })

/-- Sets the password: one transaction that uses the code up and ends all sessions. -/
def resetPasswordWithVerification (input : ResetInput) : Prog World ι Failure (Option User) :=
  transaction do
    let lockedUser ← lock (fun _ => {}) .update
      (userRows fun user => user.phone = some input.phoneE164)
      fun db => db.users.find? fun user => user.phone = some input.phoneE164
    match lockedUser with
    | none => endTransaction none
    | some lockedUser => do
        let verifiedAt ← clock
        let now ← clock
        let verified ← lock
          (fun verified =>
            { events := if verified then [.acceptedCode input.verificationId now] else [] })
          .noKeyUpdate
          (fun db => (db.phoneVerifications.filter (canReset input now db)).map
            fun row => .verification row.id)
          fun db => db.phoneVerifications.any (canReset input now db)
        if ¬ verified then endTransaction none
        else do
          let sessions ← lock (fun _ => {}) .update
            (fun db => (sessionsOf lockedUser.userId db).map .session)
            (sessionsOf lockedUser.userId)
          record (fun _ => { events :=
              [.resetPassword input.verificationId lockedUser.userId] })
            (writeReset input lockedUser.userId verifiedAt sessions)

end ChatTea.Phone
