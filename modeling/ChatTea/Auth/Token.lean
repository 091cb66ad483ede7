import ChatTea.Database.Recording
import ChatTea.Lib.Base64Url

/-!
# Hashes and signed tokens

What the authentication code takes from its libraries. A signed token is the compact
form of a JSON Web Token: the header, the claims and the signature, each in base64url,
with the claims in the order in which the code and `jsonwebtoken` add them. Of bcrypt
it is assumed that `compare` looks at no more than the first 72 bytes of a candidate
and matches no text that is not a hash, and that a hash contains its salt.

## Main definitions

* `AuthConfig` — the hash functions, the secrets and the lifetimes
* `sign`, `accessClaims`, `refreshClaims` — the tokens
* `hash` — `bcrypt.hash`, with a salt that was never drawn before
* `AuthConfig.plain` — an environment in which the laws hold

## Main results

* `take_refreshToken` — the first 72 bytes of a refresh token are decided by its user
-/

namespace ChatTea.Auth

open Interleaving

def utf8 (text : Text) : List UInt8 := text.flatMap String.utf8EncodeChar

/-- The hash functions of the libraries, and the environment of the service. -/
structure AuthConfig where
  /-- SHA-256 in hexadecimal. -/
  sha256 : Text → String
  /-- `bcrypt.hash` with a salt. -/
  bcryptHash : ℕ → Text → String
  bcryptCompare : Text → String → Bool
  /-- The signature of an HS256 token, in base64url. -/
  hs256 : Text → Text → Text
  compare_of_prefix : ∀ salt candidate other, (utf8 candidate).take 72 = (utf8 other).take 72 →
    bcryptCompare other (bcryptHash salt candidate) = true
  compare_pending : ∀ candidate, bcryptCompare candidate "pending" = false
  compare_empty : ∀ candidate, bcryptCompare candidate "" = false
  bcryptHash_salt : ∀ salt salt' candidate candidate',
    bcryptHash salt candidate = bcryptHash salt' candidate' → salt = salt'
  /-- `JSON.stringify` of a string. -/
  jsonString : Text → Text
  accessTokenSecret : Text
  refreshTokenSecret : Text
  kakaoSignupTokenSecret : Text
  signupTokenSecret : Text
  phoneCodePepper : Text
  /-- In seconds. -/
  accessTokenExp : ℤ
  refreshTokenExp : ℤ

/-- `hashToken`. -/
def AuthConfig.hashToken (config : AuthConfig) (token : Text) : String := config.sha256 token

/-! ### Signed tokens -/

def tokenHeader : Text := "\x7b\"alg\":\"HS256\",\"typ\":\"JWT\"\x7d".toList

def encodeText (text : Text) : Text := Base64Url.encode (utf8 text)

/-- The compact form of a token. -/
def sign (config : AuthConfig) (secret claims : Text) : Text :=
  let input := encodeText tokenHeader ++ '.' :: encodeText claims
  input ++ '.' :: config.hs256 secret input

/-- `iat`, `exp`, `aud` and `iss`, which `jsonwebtoken` adds after the claims of the code. -/
def registeredClaims (iat exp : ℤ) : Text :=
  ",\"iat\":".toList ++ (toString iat).toList ++ ",\"exp\":".toList ++ (toString exp).toList ++
    ",\"aud\":\"chattea-mobile\",\"iss\":\"chattea-api\"\x7d".toList

def claimsStart : Text := "\x7b\"userId\":\"".toList

def userClaim (userId : Uuid) : Text := claimsStart ++ userId.text

def accessClaims (userId : Uuid) (iat exp : ℤ) : Text :=
  userClaim userId ++ "\",\"tokenType\":\"access\"".toList ++ registeredClaims iat exp

def refreshClaims (userId : Uuid) (deviceId : UuidText) (iat exp : ℤ) : Text :=
  userClaim userId ++ "\",\"deviceId\":\"".toList ++ deviceId.text ++
    "\",\"tokenType\":\"refresh\"".toList ++ registeredClaims iat exp

/-- The refresh token that is signed for a device at a second. -/
def refreshToken (config : AuthConfig) (userId : Uuid) (deviceId : UuidText) (iat : ℤ) : Text :=
  sign config config.refreshTokenSecret
    (refreshClaims userId deviceId iat (iat + config.refreshTokenExp))

theorem utf8_append (first rest : Text) : utf8 (first ++ rest) = utf8 first ++ utf8 rest :=
  List.flatMap_append

/-- A text of ASCII characters has one byte for each. -/
theorem length_utf8 {text : Text} (h : ∀ c ∈ text, c.val.toNat ≤ 127) :
    (utf8 text).length = text.length := by
  induction text with
  | nil => rfl
  | cons c text ih =>
      have hc : c.val.toNat ≤ 127 := h c List.mem_cons_self
      have hbyte : (String.utf8EncodeChar c).length = 1 := by
        unfold String.utf8EncodeChar
        rw [if_pos hc]
        rfl
      have htext := ih fun c hmem => h c (List.mem_cons_of_mem _ hmem)
      rw [utf8, List.flatMap_cons, List.length_append, hbyte, List.length_cons, ← htext, utf8]
      omega

theorem ascii_of_mem_encode {bytes : List UInt8} {c : Char} (h : c ∈ Base64Url.encode bytes) :
    c.val.toNat ≤ 127 := by
  have halphabet : Base64Url.alphabet.all fun c => c.val.toNat ≤ 127 := by decide
  exact of_decide_eq_true (List.all_eq_true.1 halphabet c (Base64Url.mem_alphabet_of_mem_encode h))

theorem ascii_of_mem_uuid {userId : Uuid} {c : Char} (h : c ∈ userId.text) : c.val.toNat ≤ 127 := by
  have hdigits : hexDigits.all fun c => c.val.toNat ≤ 127 := by decide
  obtain ⟨position, hposition⟩ := List.mem_iff_getElem?.1 h
  have hchar := (isUuidText_iff.1 userId.wellFormed).2 c position
    (List.mk_mem_zipIdx_iff_getElem?.2 hposition)
  unfold isUuidChar at hchar
  split at hchar
  · obtain rfl : c = '-' := by simpa using hchar
    decide
  · exact of_decide_eq_true (List.all_eq_true.1 hdigits c (by simpa using hchar))

theorem length_encodeText_tokenHeader : (encodeText tokenHeader).length = 36 := by
  have hall : tokenHeader.all fun c => c.val.toNat ≤ 127 := by decide
  have hascii : ∀ c ∈ tokenHeader, c.val.toNat ≤ 127 := by simpa using hall
  have hlength : tokenHeader.length = 3 * 9 := by decide
  exact Base64Url.length_encode ((length_utf8 hascii).trans hlength)

/-- The start of the claims of a user: 27 bytes, which are nine groups of base64url. -/
def claimsFront (userId : Uuid) : Text := claimsStart ++ userId.text.take 16

theorem length_utf8_claimsFront (userId : Uuid) : (utf8 (claimsFront userId)).length = 3 * 9 := by
  have hall : claimsStart.all fun c => c.val.toNat ≤ 127 := by decide
  have hstart : ∀ c ∈ claimsStart, c.val.toNat ≤ 127 := by simpa using hall
  have hlength : claimsStart.length = 11 := by decide
  rw [length_utf8]
  · rw [claimsFront, List.length_append, List.length_take, userId.length_text, hlength]
    omega
  · intro c hc
    rcases List.mem_append.1 hc with hname | hid
    · exact hstart c hname
    · exact ascii_of_mem_uuid (List.mem_of_mem_take hid)

/-- The start of a token of a user: the header and the start of the claims. -/
def tokenFront (userId : Uuid) : Text :=
  encodeText tokenHeader ++ '.' :: encodeText (claimsFront userId)

theorem length_tokenFront (userId : Uuid) : (tokenFront userId).length = 73 := by
  have hclaims : (encodeText (claimsFront userId)).length = 36 :=
    Base64Url.length_encode (length_utf8_claimsFront userId)
  simp [tokenFront, length_encodeText_tokenHeader, hclaims]

/-- A refresh token starts with what depends on its user alone. -/
theorem refreshToken_eq_append (config : AuthConfig) (userId : Uuid) (deviceId : UuidText) (iat : ℤ) :
    ∃ rest, refreshToken config userId deviceId iat = tokenFront userId ++ rest := by
  obtain ⟨claims, hclaims⟩ : ∃ claims, refreshClaims userId deviceId iat
      (iat + config.refreshTokenExp) = claimsFront userId ++ claims := by
    refine ⟨userId.text.drop 16 ++ ("\",\"deviceId\":\"".toList ++ deviceId.text ++
      "\",\"tokenType\":\"refresh\"".toList ++
        registeredClaims iat (iat + config.refreshTokenExp)), ?_⟩
    rw [claimsFront, List.append_assoc, ← List.append_assoc (userId.text.take 16),
      List.take_append_drop]
    simp only [refreshClaims, userClaim, List.append_assoc]
  have hencoded : encodeText (refreshClaims userId deviceId iat (iat + config.refreshTokenExp)) =
      encodeText (claimsFront userId) ++ encodeText claims := by
    rw [hclaims, encodeText, utf8_append]
    exact Base64Url.encode_append (length_utf8_claimsFront userId) _
  refine ⟨encodeText claims ++ '.' :: config.hs256 config.refreshTokenSecret
    (encodeText tokenHeader ++ '.' :: (encodeText (claimsFront userId) ++ encodeText claims)), ?_⟩
  simp only [refreshToken, sign, hencoded, tokenFront, List.append_assoc, List.cons_append]

/-- All refresh tokens of a user agree in what bcrypt looks at. -/
theorem take_refreshToken (config : AuthConfig) (userId : Uuid) (deviceId deviceId' : UuidText)
    (iat iat' : ℤ) :
    (utf8 (refreshToken config userId deviceId iat)).take 72 =
      (utf8 (refreshToken config userId deviceId' iat')).take 72 := by
  have hlength : 72 ≤ (utf8 (tokenFront userId)).length := by
    rw [length_utf8, length_tokenFront]
    · decide
    · intro c hc
      rcases List.mem_append.1 hc with hheader | htail
      · exact ascii_of_mem_encode hheader
      · rcases List.mem_cons.1 htail with rfl | hclaims
        · decide
        · exact ascii_of_mem_encode hclaims
  obtain ⟨rest, hrest⟩ := refreshToken_eq_append config userId deviceId iat
  obtain ⟨rest', hrest'⟩ := refreshToken_eq_append config userId deviceId' iat'
  rw [hrest, hrest', utf8_append, utf8_append, List.take_append_of_le_length hlength,
    List.take_append_of_le_length hlength]

/-! ### Hashing -/

def IsNewHash (hash : String) (log : List (ℕ × Event)) : Prop :=
  ∀ entry ∈ log, ∀ candidate, entry.2 ≠ .hashed candidate hash

/-- `bcrypt.hash`, which draws a salt. -/
def hash {ι : Type} (config : AuthConfig) (candidate : Text) : Prog World ι Failure String :=
  .atomic fun pid w hash after =>
    (∃ salt, hash = config.bcryptHash salt candidate) ∧ IsNewHash hash w.log ∧
      after = w.note pid { events := [.hashed candidate hash] }

/-! ### An environment in which the laws hold -/

/-- What bcrypt looks at. -/
def bcryptInput (candidate : Text) : Text :=
  ((utf8 candidate).take 72).map fun byte => Char.ofNat byte.toNat

def plainHash (salt : ℕ) (candidate : Text) : String :=
  String.ofList (List.replicate salt 'a' ++ '$' :: bcryptInput candidate)

def plainCompare (candidate : Text) (hash : String) : Bool :=
  hash.toList.dropWhile (· = 'a') = '$' :: bcryptInput candidate

theorem dropWhile_plainHash (salt : ℕ) (candidate : Text) :
    (plainHash salt candidate).toList.dropWhile (· = 'a') = '$' :: bcryptInput candidate := by
  rw [plainHash, String.toList_ofList]
  induction salt with
  | zero => rfl
  | succ salt ih => simp [List.replicate_succ]

theorem length_takeWhile_plainHash (salt : ℕ) (candidate : Text) :
    ((plainHash salt candidate).toList.takeWhile (· = 'a')).length = salt := by
  rw [plainHash, String.toList_ofList]
  induction salt with
  | zero => rfl
  | succ salt ih => simp [List.replicate_succ]

/-- A hash is its salt with what bcrypt looks at. -/
def AuthConfig.plain : AuthConfig where
  sha256 := String.ofList
  bcryptHash := plainHash
  bcryptCompare := plainCompare
  hs256 := fun secret input => encodeText (secret ++ input)
  compare_of_prefix := by
    intro salt candidate other hprefix
    rw [plainCompare, dropWhile_plainHash, bcryptInput, bcryptInput, hprefix]
    exact decide_eq_true rfl
  compare_pending := fun candidate => rfl
  compare_empty := fun candidate => rfl
  bcryptHash_salt := by
    intro salt salt' candidate candidate' hhash
    rw [← length_takeWhile_plainHash salt candidate, hhash, length_takeWhile_plainHash]
  jsonString := fun text => '"' :: text ++ ['"']
  accessTokenSecret := "access".toList
  refreshTokenSecret := "refresh".toList
  kakaoSignupTokenSecret := "kakao".toList
  signupTokenSecret := "signup".toList
  phoneCodePepper := "pepper".toList
  accessTokenExp := 900
  refreshTokenExp := 1209600

end ChatTea.Auth
