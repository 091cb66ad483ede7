import ChatTea.Auth.Service
import ChatTea.Phone.Repository

/-!
# The phone service

The embedding of `PhoneService`: requesting a code, verifying one to log in or to get a
token for signing up, and resetting a password with one.

## Main definitions

* `requestPhoneCode`, `verifyPhoneCode`, `resetPasswordWithPhone` — the calls
* `getUsableVerification`, `compareCode` — what a guess goes through
-/

namespace ChatTea.Phone

open Auth Interleaving Transaction

variable {ι : Type}

/-! ### Error messages -/

/-- The answer to a wrong code, which is the same for a missing one. -/
def invalidPhoneCode : Failure := .error "인증번호가 잘못되었습니다."

/-- The message with the code could not be sent. -/
def smsSendFailed : Failure := .error "인증번호 발송에 실패했습니다."

/-- `reservationErrors`. -/
def reservationError : Reservation → Option Failure
  | .reserved _ => none
  | .retryTooSoon => some (.error "인증번호 재요청은 60초 후 가능합니다.")
  | .phoneLimit => some (.error "전화번호 요청 횟수를 초과했습니다.")
  | .ipLimit => some (.error "IP 요청 횟수를 초과했습니다.")

/-! ### The calls -/

section Calls

variable (config : AuthConfig)

/-- A Korean mobile number in the form in which it is stored. -/
def normalizeKoreanPhone (phone : Text) : Except Failure String :=
  let digits := phone.filter Char.isDigit
  if "010".toList.isPrefixOf digits ∧ digits.length = 11 then
    .ok (String.ofList ("+82".toList ++ digits.drop 1))
  else if "8210".toList.isPrefixOf digits ∧ digits.length = 12 then
    .ok (String.ofList ('+' :: digits))
  else .error (.error "한국 휴대폰 번호만 사용할 수 있습니다.")

/-- What is hashed of a code. -/
def pepperedCode (phoneE164 : String) (code : Text) : Text :=
  phoneE164.toList ++ ':' :: code ++ ':' :: config.phoneCodePepper

/-- `String(code).padStart(6, "0")`. -/
def padCode (drawn : ℕ) : Text :=
  let digits := (toString drawn).toList
  List.replicate (6 - digits.length) '0' ++ digits

/-- The request of a code. -/
structure RequestPhoneCodeInput where
  phone : Text
  purpose : String

/-- What a code may be requested for. -/
def purposes : List String := ["signup", "login", "password_reset"]

/-- The quotas of a request. -/
def reserveInput (phoneE164 purpose requestIpHash : String) : ReserveInput where
  phoneE164 := phoneE164
  purpose := purpose
  requestIpHash := requestIpHash
  cooldownMs := 60000
  phoneLimit := 5
  ipLimit := 20

/-- Send the code of a reserved row and activate it. -/
def sendCode (verification : PhoneVerification) (phoneE164 : String) (code : Text) :
    Prog World ι Failure Unit := do
  let codeHash ← hash config (pepperedCode config phoneE164 code)
  let sent ← .anything Bool
  MonadExcept.ofExcept (require smsSendFailed sent)
  let activated ← activateVerification verification.id codeHash (5 * 60000)
  let _ ← MonadExcept.ofExcept
    (requireFound (.error "PHONE_VERIFICATION_ACTIVATION_FAILED") activated)

/-- What is left of a request that failed is deleted, if the database lets it. -/
def cleanUpRequest (verification : PhoneVerification) : Prog World ι Failure Unit := do
  tryCatch (record (fun _ => {}) (deleteVerification verification.id)) fun _ => return ()
  throw smsSendFailed

/-- Requests a code: it is reserved, sent, and can be used only once it has been sent. -/
def requestPhoneCode (input : RequestPhoneCodeInput) (ip : Option Text) :
    Prog World ι Failure AuthReply := do
  MonadExcept.ofExcept
    (require (.error "전화번호 인증 목적이 잘못되었습니다.") (input.purpose ∈ purposes))
  let phoneE164 ← MonadExcept.ofExcept (normalizeKoreanPhone input.phone)
  let requestIpHash := config.sha256 ((ip.filter (· ≠ [])).getD "no-ip".toList)
  let drawn ← .anything (Fin 1000000)
  let reservation ← reserveVerification (reserveInput phoneE164 input.purpose requestIpHash)
  match reservation with
  | .reserved verification => do
      tryCatch (sendCode config verification phoneE164 (padCode drawn)) fun _ =>
        cleanUpRequest verification
      return .done
  | refusal => throw ((reservationError refusal).getD smsSendFailed)

/-- The latest code of a number, unless it is used, has another purpose or was guessed too often. -/
def getUsableVerification (phoneE164 : String) (purpose : Option String) :
    Prog World ι Failure PhoneVerification := do
  let verification ← latestVerification phoneE164
  let verification ← MonadExcept.ofExcept (requireFound invalidPhoneCode verification)
  MonadExcept.ofExcept (throwIf invalidPhoneCode (verification.verifiedAt ≠ none))
  MonadExcept.ofExcept (throwIf invalidPhoneCode (purpose.any (verification.purpose ≠ ·)))
  MonadExcept.ofExcept
    (throwIf (.error "인증 실패 횟수를 초과했습니다.") (5 ≤ verification.attemptCount))
  return verification

/-- Compare a guess with the code of a row. -/
def compareCode (claimed : PhoneVerification) (phoneE164 : String) (code : Text) :
    Prog World ι Failure Unit := do
  let valid := config.bcryptCompare (pepperedCode config phoneE164 code) claimed.codeHash
  note [.comparedCode claimed valid]
  MonadExcept.ofExcept (require invalidPhoneCode valid)

/-- A guess: an attempt is claimed and the code compared. -/
def guessCode (id : RowId) (phoneE164 : String) (purposes : List String) (code : Text) :
    Prog World ι Failure PhoneVerification := do
  let claimed ← claimVerificationAttempt ⟨id, phoneE164, purposes⟩
  let claimed ← MonadExcept.ofExcept (requireFound invalidPhoneCode claimed)
  compareCode config claimed phoneE164 code
  return claimed

/-- The claims of a phone token, as they are signed. -/
def phoneClaims (phoneE164 : String) (verificationId : RowId) (nonce : Uuid) (iat exp : ℤ) : Text :=
  "\x7b\"phoneE164\":".toList ++ config.jsonString phoneE164.toList ++
    ",\"verificationId\":\"".toList ++ (toString verificationId).toList ++
      "\",\"nonce\":\"".toList ++ nonce.text ++ "\",\"iat\":".toList ++ (toString iat).toList ++
        ",\"exp\":".toList ++ (toString exp).toList ++ "\x7d".toList

/-- `createPhoneVerificationToken` of the service: sign a token and save its hash. -/
def issuePhoneToken (phoneE164 : String) (verificationId : RowId) : Prog World ι Failure Text := do
  let nonce ← .anything Uuid
  let signedAt ← clock
  let iat := signedAt / 1000
  let token := sign config config.signupTokenSecret
    (phoneClaims config phoneE164 verificationId nonce iat (iat + signupTokenSeconds))
  let now ← clock
  record (fun _ => {}) (createPhoneVerificationToken
    { tokenHash := config.hashToken token
      phoneE164 := phoneE164
      verificationId := verificationId
      expiresAt := now + signupTokenSeconds * 1000
      usedAt := none })
  return token

/-- The request that verifies a code. -/
structure VerifyPhoneCodeInput where
  phone : Text
  code : Text

/-- Verifies a code: it gives a phone token, or the tokens of the account with the number. -/
def verifyPhoneCode (input : VerifyPhoneCodeInput) (deviceId : UuidText) :
    Prog World ι Failure AuthReply := do
  let phoneE164 ← MonadExcept.ofExcept (normalizeKoreanPhone input.phone)
  let verification ← getUsableVerification phoneE164 none
  MonadExcept.ofExcept (throwIf invalidPhoneCode
    (verification.purpose ≠ "signup" ∧ verification.purpose ≠ "login"))
  let claimed ← guessCode config verification.id phoneE164 ["signup", "login"] input.code
  let verified ← markVerified claimed.id
  let verified ← MonadExcept.ofExcept (requireFound invalidPhoneCode verified)
  let user ← findUserByPhone phoneE164
  match user with
  | some user => issueTokens config user deviceId
  | none => do
      let token ← issuePhoneToken config phoneE164 verified.id
      return .verificationToken token

/-- The request that resets a password. -/
structure ResetPasswordInput where
  phone : Text
  code : Text
  password : Text

/-- Resets a password with a code. -/
def resetPasswordWithPhone (input : ResetPasswordInput) : Prog World ι Failure AuthReply := do
  let nextPassword ← MonadExcept.ofExcept (validatePassword input.password)
  let phoneE164 ← MonadExcept.ofExcept (normalizeKoreanPhone input.phone)
  let verification ← getUsableVerification phoneE164 (some "password_reset")
  let claimed ← guessCode config verification.id phoneE164 ["password_reset"] input.code
  let password ← hash config nextPassword
  let user ← resetPasswordWithVerification ⟨claimed.id, phoneE164, password⟩
  let _ ← MonadExcept.ofExcept (requireFound phoneVerificationRequired user)
  return .done

end Calls

end ChatTea.Phone
