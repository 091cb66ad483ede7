import ChatTea.Database.Schema
import ChatTea.Lib.History

/-!
# What threads have done

The entries of the history by which runs are judged. No code of the service reads
it: an entry is made in the step in which the thing happens.

## Main definitions

* `Event` — the entries
* `Consumption` — the single-use tokens that one transaction has used up
-/

namespace ChatTea

/-- The tokens that one transaction has used up, by their hashes, and the account it
has created with them. -/
structure Consumption where
  phoneToken : Option String
  kakaoToken : Option String
  created : Option Uuid
deriving DecidableEq

inductive Event where
  /-- `bcrypt.hash` has returned. -/
  | hashed (candidate : Text) (hash : String)
  /-- `signin` has found an account with a password. -/
  | foundByEmail (user : User)
  /-- A refresh token was accepted for a stored session. -/
  | validatedSession (userId : Uuid) (deviceId hash : String)
  | savedSession (userId : Uuid) (deviceId hash : String)
  | rotatedSession (userId : Uuid) (deviceId expected next : String)
  /-- A call is about to return tokens of an account. -/
  | issuedTokens (userId : Uuid)
  | foundPhoneToken (token : PhoneVerificationToken)
  /-- A signup by way of Kakao has found the account that its number is for. -/
  | foundAccount (user : User)
  | consumedTokens (consumption : Consumption)
  /-- A transaction that was to use tokens up has failed. -/
  | keptTokens
  | reservedCode (row : PhoneVerification)
  /-- An attempt at a code was claimed for one of some purposes. -/
  | claimedAttempt (row : PhoneVerification) (purposes : List String)
  /-- A code was compared with the one of a row. -/
  | comparedCode (row : PhoneVerification) (valid : Bool)
  /-- A code was used up by a login or a signup, by a reading of the clock. -/
  | verifiedCode (id : RowId) (now : Timestamp)
  /-- A password reset has found its code usable, by a reading of the clock. -/
  | acceptedCode (id : RowId) (now : Timestamp)
  | resetPassword (id : RowId) (userId : Uuid)
deriving DecidableEq

end ChatTea
