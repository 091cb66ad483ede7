import ChatTea.Auth.Repository
import ChatTea.Users.Service
import Mathlib.Data.List.SplitOn

/-!
# The authentication service

The embedding of `AuthService` with the checks of `auth-input.ts`: signing up and in,
the logins by way of Kakao, refreshing and ending a session. A call that returns tokens
enters this in the history in its last step.

## Main definitions

* `issueTokens`, `refresh`, `logout`, `validateUserRefreshToken` — sessions
* `signup`, `signin`, `loginWithKakao`, `loginWithKakaoAccessToken`,
  `completeKakaoPhoneSignup` — the logins
-/

namespace ChatTea.Auth

open Interleaving Transaction Users

variable {ι : Type}

/-! ### Error messages -/

def authRequired : Failure := .error "로그인 필요합니다."

def invalidPhoneVerificationToken : Failure := .error "phoneVerificationToken이 잘못되었습니다."

def invalidKakaoPhoneVerificationToken : Failure :=
  .error "kakaoPhoneVerificationToken이 잘못되었습니다."

def phoneVerificationRequired : Failure := .error "전화번호 인증이 필요합니다."

def duplicateUser : Failure := .error "이미 가입된 이메일 또는 전화번호입니다."

def termsNotAccepted : Failure := .error "필수 약관 동의가 필요합니다."

/-! ### Input checks -/

/-- What `trim` and `\s` of JavaScript take for white space. -/
def isSpace (c : Char) : Bool :=
  c ∈ "\t\n\x0b\x0c\r \u00a0\u1680\u2028\u2029\u202f\u205f\u3000\ufeff".toList ∨
    0x2000 ≤ c.toNat ∧ c.toNat ≤ 0x200a

def trim (text : Text) : Text := ((text.dropWhile isSpace).reverse.dropWhile isSpace).reverse

def isEmailLabel (label : Text) : Bool := label ≠ [] ∧ label.all fun c => ¬ isSpace c

/-- `EMAIL_PATTERN`: labels between dots on both sides of one `@`, two at least after it. -/
def matchesEmailPattern (email : Text) : Bool :=
  match email.splitOn '@' with
  | [name, domain] =>
      (name.splitOn '.').all isEmailLabel ∧ (domain.splitOn '.').all isEmailLabel ∧
        2 ≤ (domain.splitOn '.').length
  | _ => false

def isValidEmail (email : Text) : Bool := matchesEmailPattern email ∧ email.length ≤ 255

def normalizeEmail (input : Text) : Except Failure Text := do
  require (.error "이메일 형식이 잘못되었습니다.") (isValidEmail (trim input))
  return trim input

def normalizeOptionalEmail (input : Option Text) : Option Text :=
  (input.map trim).filter isValidEmail

def normalizeUserName (input : Text) : Except Failure Text := do
  throwIf (.error "사용자 이름이 잘못되었습니다.") (trim input = [] ∨ 40 < (trim input).length)
  return trim input

def validatePassword (input : Text) : Except Failure Text := do
  throwIf (.error "비밀번호 형식이 잘못되었습니다.")
    ((utf8 input).length < 8 ∨ 72 < (utf8 input).length)
  return input

def normalizeSigninEmail (input : Text) : Except Failure Text := do
  throwIf authRequired (trim input = [] ∨ 255 < (trim input).length)
  return trim input

/-! ### Sessions -/

structure TokenPayload where
  accessToken : Text
  refreshToken : Text
deriving DecidableEq

/-- What a call returns. -/
inductive AuthReply where
  | tokens (userId : Uuid) (payload : TokenPayload)
  | verificationToken (token : Text)
  | done
deriving DecidableEq

/-- A signed refresh token with the `exp` that decoding it gives. -/
structure SignedToken where
  text : Text
  exp : ℤ

section Sessions

variable (config : AuthConfig)

def createAccessToken (user : User) : Prog World ι Failure Text := do
  let now ← clock
  let iat := now / 1000
  return sign config config.accessTokenSecret
    (accessClaims user.userId iat (iat + config.accessTokenExp))

def createRefreshToken (user : User) (deviceId : UuidText) : Prog World ι Failure SignedToken := do
  let now ← clock
  let iat := now / 1000
  return ⟨refreshToken config user.userId deviceId iat, iat + config.refreshTokenExp⟩

/-- The name of a device in its session. -/
def deviceName (deviceId : UuidText) : String := String.ofList deviceId.text

def prepareRefreshToken (userId : Uuid) (deviceId : UuidText) (token : SignedToken) :
    Prog World ι Failure SessionInput := do
  MonadExcept.ofExcept (throwIf (.error "refresh token exp is undefined") (token.exp = 0))
  let hash ← hash config token.text
  return ⟨userId, deviceName deviceId, hash, token.exp * 1000⟩

def issueTokens (user : User) (deviceId : UuidText) : Prog World ι Failure AuthReply := do
  let accessToken ← createAccessToken config user
  let refreshToken ← createRefreshToken config user deviceId
  let session ← prepareRefreshToken config user.userId deviceId refreshToken
  record (fun _ => { events :=
      [.savedSession session.userId session.deviceId session.refreshToken] })
    (saveRefreshToken session)
  note [.issuedTokens user.userId]
  return .tokens user.userId ⟨accessToken, refreshToken.text⟩

/-- The session that a refresh token is accepted for. -/
def acceptSession (token : Text) (now : Timestamp) (saved : RefreshToken) : Option RefreshToken :=
  if saved.refreshTokenExp ≤ now then none
  else if config.bcryptCompare token saved.refreshToken then some saved
  else none

def validateUserRefreshToken (userId : Uuid) (deviceId : UuidText) (token : Text) :
    Prog World ι Failure (Option RefreshToken) := do
  let savedToken ← findRefreshToken userId (deviceName deviceId)
  match savedToken with
  | none => return none
  | some savedToken => do
      let now ← clock
      let accepted := acceptSession config token now savedToken
      note (accepted.map fun session =>
        .validatedSession userId (deviceName deviceId) session.refreshToken).toList
      return accepted

/-- The strategy that guards `refresh` and `logout`. -/
def validateSession (userId : Uuid) (deviceId : UuidText) (token : Text) :
    Prog World ι Failure RefreshToken := do
  let validated ← validateUserRefreshToken config userId deviceId token
  MonadExcept.ofExcept (requireFound (.error "refresh token is wrong") validated)

def refresh (userId : Uuid) (deviceId : UuidText) (token : Text) :
    Prog World ι Failure AuthReply := do
  let validated ← validateSession config userId deviceId token
  let user ← find (fun _ => {}) (findUser userId)
  let user ← MonadExcept.ofExcept (requireFound (.error "유저 아이디가 잘못되었습니다.") user)
  let accessToken ← createAccessToken config user
  let nextRefreshToken ← createRefreshToken config user deviceId
  let next ← prepareRefreshToken config userId deviceId nextRefreshToken
  let rotated ← rotateRefreshToken ⟨next, validated.refreshToken⟩
  MonadExcept.ofExcept (throwIf authRequired (¬ rotated))
  note [.issuedTokens userId]
  return .tokens userId ⟨accessToken, nextRefreshToken.text⟩

def logout (userId : Uuid) (deviceId : UuidText) (token : Text) :
    Prog World ι Failure AuthReply := do
  let _ ← validateSession config userId deviceId token
  record (fun _ => {}) (deleteRefreshToken userId (deviceName deviceId))
  return .done

end Sessions

/-! ### Errors of the repository -/

def mapTokenConsumeError {β : Type} (operation : Prog World ι Failure β) :
    Prog World ι Failure β :=
  tryCatch operation fun failure =>
    if failure = phoneTokenConsumeFailed then throw invalidPhoneVerificationToken
    else if failure = kakaoTokenConsumeFailed then throw invalidKakaoPhoneVerificationToken
    else throw failure

/-- The unique constraints of the tables that the calls of this service insert into. -/
def uniqueConstraints : List String :=
  ["users_pkey", "users_email_key", "users_phone_key",
    "authIdentity_provider_providerUserId_unique", "kakaoSignupToken_pkey"]

/-- PostgreSQL's code of a violated constraint, which is unique or a foreign key. -/
def sqlState (constraint : String) : String :=
  if constraint ∈ uniqueConstraints then "23505" else "23503"

/-- What a `catch` can see of an error: its own `code`, and the one of its `cause`. -/
structure ThrownError where
  code : Option String
  causeCode : Option String

/-- A failed query throws a `DrizzleQueryError`, whose cause is the error of PostgreSQL. -/
def thrownError : Failure → ThrownError
  | .constraint name => { code := none, causeCode := some (sqlState name) }
  | .error _ => { code := none, causeCode := none }

def isUniqueViolation (failure : Failure) : Bool := (thrownError failure).code = some "23505"

def mapDuplicateUserError {β : Type} (operation : Prog World ι Failure β) :
    Prog World ι Failure β :=
  tryCatch operation fun failure =>
    if isUniqueViolation failure then throw duplicateUser else throw failure

/-! ### Signing up and in -/

section Logins

variable (config : AuthConfig)

/-- The token, or the error that it is none. -/
def requirePhoneVerificationToken (token : Text) :
    Prog World ι Failure PhoneVerificationToken := do
  let found ← findPhoneVerificationToken config token
  MonadExcept.ofExcept (requireFound invalidPhoneVerificationToken found)

structure SignupInput where
  email : Text
  password : Text
  userName : Text
  gender : Gender
  phoneVerificationToken : Text
  termsAccepted : Bool

def signup (input : SignupInput) (deviceId : UuidText) : Prog World ι Failure AuthReply := do
  MonadExcept.ofExcept (require termsNotAccepted input.termsAccepted)
  let email ← MonadExcept.ofExcept (normalizeEmail input.email)
  let userName ← MonadExcept.ofExcept (normalizeUserName input.userName)
  let password ← MonadExcept.ofExcept (validatePassword input.password)
  let _ ← requirePhoneVerificationToken config input.phoneVerificationToken
  let userId ← .anything Uuid
  let passwordHash ← hash config password
  let user ← mapDuplicateUserError (signupWithPhoneVerificationToken config
    ⟨userId, String.ofList email, none, passwordHash, String.ofList userName, input.gender⟩
    input.phoneVerificationToken)
  let user ← MonadExcept.ofExcept (requireFound invalidPhoneVerificationToken user)
  issueTokens config user deviceId

structure SigninInput where
  email : Text
  password : Text
  phoneVerificationToken : Text

/-- The account of the trimmed e-mail, or else of the e-mail as it was entered. -/
def findSigninUser (input : SigninInput) (email : Text) : Prog World ι Failure (Option User) := do
  let user ← signinUser (String.ofList email)
  match user with
  | some user => return some user
  | none => if email ≠ input.email then signinUser (String.ofList input.email) else return none

def signin (input : SigninInput) (deviceId : UuidText) : Prog World ι Failure AuthReply := do
  let email ← MonadExcept.ofExcept (normalizeSigninEmail input.email)
  let user ← findSigninUser input email
  let user ← MonadExcept.ofExcept (requireFound authRequired user)
  MonadExcept.ofExcept
    (require authRequired (config.bcryptCompare input.password user.password))
  let phoneVerificationToken ← requirePhoneVerificationToken config input.phoneVerificationToken
  MonadExcept.ofExcept
    (throwIf phoneVerificationRequired (user.phone ≠ some phoneVerificationToken.phoneE164))
  let consumed ← consumePhoneVerificationToken config input.phoneVerificationToken
  let _ ← MonadExcept.ofExcept (requireFound invalidPhoneVerificationToken consumed)
  let _ ← restoreIfWithinGrace user.userId.toUuidText
  issueTokens config user deviceId

/-! ### Kakao -/

structure KakaoProfile where
  providerUserId : Text
  email : Option Text
  userName : Option Text

def kakaoClaims (providerUserId : Text) (iat exp : ℤ) : Text :=
  "\x7b\"provider\":\"kakao\",\"providerUserId\":".toList ++ config.jsonString providerUserId ++
    ",\"iat\":".toList ++ (toString iat).toList ++ ",\"exp\":".toList ++ (toString exp).toList ++
      "\x7d".toList

def signupTokenSeconds : ℤ := 15 * 60

/-- `createKakaoPhoneVerificationToken` of the service: sign a token and save its hash. -/
def issueKakaoToken (profile : KakaoProfile) (userId : Option Uuid) : Prog World ι Failure Text := do
  let signedAt ← clock
  let iat := signedAt / 1000
  let token := sign config config.kakaoSignupTokenSecret
    (kakaoClaims config profile.providerUserId iat (iat + signupTokenSeconds))
  let now ← clock
  record (fun _ => {}) (createKakaoPhoneVerificationToken
    { tokenHash := config.hashToken token
      userId := userId
      providerUserId := String.ofList profile.providerUserId
      email := (normalizeOptionalEmail profile.email).map String.ofList
      expiresAt := now + signupTokenSeconds * 1000
      usedAt := none })
  return token

/-- What Kakao says of an access token: a profile, or nothing usable. -/
def getKakaoProfile (accessToken : Text) : Prog World ι Failure KakaoProfile := do
  MonadExcept.ofExcept (throwIf authRequired (trim accessToken = []))
  let profile ← .anything (Option KakaoProfile)
  MonadExcept.ofExcept (requireFound authRequired profile)

def loginWithKakao (profile : KakaoProfile) : Prog World ι Failure AuthReply := do
  let foundUser ← findUserByIdentity "kakao" (String.ofList profile.providerUserId)
  let token ← issueKakaoToken config profile (foundUser.map User.userId)
  return .verificationToken token

def loginWithKakaoAccessToken (accessToken : Text) (deviceId : UuidText) :
    Prog World ι Failure AuthReply := do
  let profile ← getKakaoProfile accessToken
  let foundUser ← findUserByIdentity "kakao" (String.ofList profile.providerUserId)
  match foundUser.filter fun user => user.phone.any (· ≠ "") with
  | some user => do
      let _ ← restoreIfWithinGrace user.userId.toUuidText
      issueTokens config user deviceId
  | none => do
      let token ← issueKakaoToken config profile (foundUser.map User.userId)
      return .verificationToken token

structure KakaoSignupInput where
  phoneVerificationToken : Option Text
  kakaoPhoneVerificationToken : Text
  userName : Text
  gender : Option Gender
  termsAccepted : Bool

/-- `normalizeEmail` of the address that Kakao gave, or of one made from the identity. -/
def kakaoEmail (kakaoToken : KakaoPhoneVerificationToken) : Except Failure Text :=
  normalizeEmail ((kakaoToken.email.map String.toList).getD
    ("kakao_".toList ++ (config.hashToken kakaoToken.providerUserId.toList).toList.take 32 ++
      "@kakao.local".toList))

def invalidGender : Failure := .error "성별이 잘못되었습니다."

/-- The new account of someone Kakao knows, with a password that nobody knows. -/
def newKakaoUser (input : KakaoSignupInput) (kakaoToken : KakaoPhoneVerificationToken)
    (phone : Option String) : Prog World ι Failure NewUser := do
  let gender ← MonadExcept.ofExcept (requireFound invalidGender input.gender)
  let email ← MonadExcept.ofExcept (kakaoEmail config kakaoToken)
  let userName ← MonadExcept.ofExcept (normalizeUserName input.userName)
  let userId ← .anything Uuid
  let password ← .anything Uuid
  let passwordHash ← hash config password.text
  return ⟨userId, String.ofList email, phone, passwordHash, String.ofList userName, gender⟩

/-- Without a phone token: the account of the Kakao token, or a new one without a phone. -/
def completeWithoutPhone (input : KakaoSignupInput) (deviceId : UuidText) :
    Prog World ι Failure AuthReply := do
  let kakaoToken ← findKakaoPhoneVerificationToken config input.kakaoPhoneVerificationToken
  let kakaoToken ← MonadExcept.ofExcept
    (requireFound invalidKakaoPhoneVerificationToken kakaoToken)
  match kakaoToken.userId with
  | some userId => do
      let user ← mapTokenConsumeError
        (consumeKakaoPhoneVerificationTokenForUser config userId input.kakaoPhoneVerificationToken)
      let user ← MonadExcept.ofExcept (requireFound invalidKakaoPhoneVerificationToken user)
      let _ ← restoreIfWithinGrace user.userId.toUuidText
      issueTokens config user deviceId
  | none => do
      let newUser ← newKakaoUser config input kakaoToken none
      let createdUser ← mapDuplicateUserError (mapTokenConsumeError
        (createKakaoUserWithToken config newUser kakaoToken.providerUserId
          input.kakaoPhoneVerificationToken))
      issueTokens config createdUser deviceId

/-- `Promise.all` of the two lookups, which take place in either order. -/
def findBothTokens (phoneToken kakaoToken : Text) :
    Prog World ι Failure (PhoneVerificationToken × Option KakaoPhoneVerificationToken) := do
  let phoneFirst ← .anything Bool
  if phoneFirst then do
    let phoneVerificationToken ← requirePhoneVerificationToken config phoneToken
    let kakaoToken ← findKakaoPhoneVerificationToken config kakaoToken
    return (phoneVerificationToken, kakaoToken)
  else do
    let kakaoToken ← findKakaoPhoneVerificationToken config kakaoToken
    let phoneVerificationToken ← requirePhoneVerificationToken config phoneToken
    return (phoneVerificationToken, kakaoToken)

/-- With a phone token: its number goes to the account of the Kakao token, or to a new one. -/
def completeWithPhone (input : KakaoSignupInput) (phoneToken : Text) (deviceId : UuidText) :
    Prog World ι Failure AuthReply := do
  let (phoneVerificationToken, kakaoToken) ←
    findBothTokens config phoneToken input.kakaoPhoneVerificationToken
  let kakaoToken ← MonadExcept.ofExcept
    (requireFound invalidKakaoPhoneVerificationToken kakaoToken)
  match kakaoToken.userId with
  | some userId => do
      let user ← find (fun user => { events := (user.map Event.foundAccount).toList })
        (findUser userId)
      let user ← MonadExcept.ofExcept (requireFound invalidKakaoPhoneVerificationToken user)
      MonadExcept.ofExcept (throwIf phoneVerificationRequired
        (user.phone.any fun phone => phone ≠ "" ∧ phone ≠ phoneVerificationToken.phoneE164))
      let updatedUser ← mapDuplicateUserError (mapTokenConsumeError
        (attachPhoneWithKakaoPhoneVerificationTokens config
          ⟨user.userId, phoneVerificationToken.phoneE164, phoneToken,
            input.kakaoPhoneVerificationToken⟩))
      let updatedUser ← MonadExcept.ofExcept
        (requireFound invalidKakaoPhoneVerificationToken updatedUser)
      let _ ← restoreIfWithinGrace updatedUser.userId.toUuidText
      issueTokens config updatedUser deviceId
  | none => do
      let newUser ← newKakaoUser config input kakaoToken (some phoneVerificationToken.phoneE164)
      let user ← mapDuplicateUserError (mapTokenConsumeError
        (createKakaoPhoneUserWithTokens config newUser kakaoToken.providerUserId phoneToken
          input.kakaoPhoneVerificationToken))
      issueTokens config user deviceId

def completeKakaoPhoneSignup (input : KakaoSignupInput) (deviceId : UuidText) :
    Prog World ι Failure AuthReply := do
  MonadExcept.ofExcept (require termsNotAccepted input.termsAccepted)
  match input.phoneVerificationToken.filter (· ≠ []) with
  | none => completeWithoutPhone config input deviceId
  | some phoneToken => completeWithPhone config input phoneToken deviceId

end Logins

end ChatTea.Auth
