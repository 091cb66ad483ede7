import ChatTea.Auth.Service
import ChatTea.Chat.Statements
import Mathlib

/-!
# The environment

What a process finds in its environment is checked and normalized once, before anything else runs:
`environment.ts`, with `createPostgresSslOptions` of `postgres.ts`. A value that is set has to be
readable everywhere; in production all that is needed has to be set, to what is fit for production.

## Main definitions

* `ConfigValue`, `Configuration` — what is in the environment
* `Runtime` — what `node` and the URL parser decide
* `parseTrustedProxy`, `parsePort`, `parseTokenLifetime`, `createPostgresSslOptions` — one value
* `Draft` — the keys that are refused so far, and the values that are normalized so far
* `validateEnvironment` — the check

## Main results

* `Draft.check_invalid`, `Draft.check_normalized` — what a check of one key does
* `Draft.rejectWhere_invalid`, `Draft.rejectWhere_eq` — what a loop over keys does
-/

namespace ChatTea.Environment

open Auth (trim)
open Chat (utf16Length)

/-! ### Values -/

/-- A value of the environment: a text, or what a loader may have put there. -/
inductive ConfigValue where
  | text (value : Text)
  /-- A number that is an integer. -/
  | number (value : ℤ)
  | boolean (value : Bool)
  /-- Anything else: `null`, an object, a number that is no integer. -/
  | other
deriving DecidableEq

/-- The value of each key; a key that is not set has none. -/
abbrev Configuration := String → Option ConfigValue

structure Url where
  protocol : Text
  username : Text
  password : Text

/-- What the platform decides. -/
structure Runtime where
  /-- `isIP` of `node:net`: 4, 6, or 0 for what is no address. -/
  isIP : Text → ℕ
  /-- `new URL(value)`, or that it throws. -/
  url : Text → Option Url
  /-- `Number(value)`, if that is an integer. -/
  number : Text → Option ℤ
  toLowerCase : Text → Text

variable (runtime : Runtime)

def valueText : Option ConfigValue → Text
  | some (.text value) => trim value
  | _ => []

def valueFor (config : Configuration) (key : String) : Text := valueText (config key)

def isHttpsUrl (value : Text) : Bool :=
  (runtime.url value).any fun url =>
    url.protocol = "https:".toList ∧ url.username = [] ∧ url.password = []

/-- `^(?:dev|test)(?:-|$)` without regard to case. -/
def isDevelopmentValue (value : Text) : Bool :=
  ["dev".toList, "test".toList].any fun word =>
    (value.take word.length).map Char.toLower = word ∧
      ((value.drop word.length).head? = none ∨ (value.drop word.length).head? = some '-')

/-! ### Parsers -/

/-- The number that decimal digits stand for. -/
def decimal (digits : Text) : ℕ :=
  digits.foldl (fun number c => 10 * number + (c.toNat - '0'.toNat)) 0

/-- `^\d+$` -/
def isDecimal (text : Text) : Bool := text ≠ [] ∧ text.all Char.isDigit

/-- What is before and behind the last `/`. -/
def splitLast (entry : Text) : Option (Text × Text) :=
  match entry.reverse.span (· ≠ '/') with
  | (_, []) => none
  | (suffix, _ :: start) => some (start.reverse, suffix.reverse)

def trustProxyNames : List Text :=
  ["loopback".toList, "linklocal".toList, "uniquelocal".toList]

/-- The longest prefix of a range of addresses. -/
def maxPrefix (family : ℕ) : ℕ := if family = 4 then 32 else if family = 6 then 128 else 0

/-- An address, a name of addresses, or a range of addresses that is not all of them. -/
def isTrustedEntry (entry : Text) : Bool :=
  if trustProxyNames.contains entry ∨ runtime.isIP entry ≠ 0 then true else
  match splitLast entry with
  | none => false
  | some (address, digits) =>
      address ≠ [] ∧ isDecimal digits ∧ 0 < decimal digits ∧
        decimal digits ≤ maxPrefix (runtime.isIP address)

inductive TrustedProxy where
  | nothing
  | entries (entries : List Text)
deriving DecidableEq

def parseTrustedProxy (value : Option ConfigValue) : Option TrustedProxy :=
  match value with
  | some (.text value) =>
      let normalized := runtime.toLowerCase (trim value)
      if normalized = "false".toList then some .nothing else
      if normalized = [] then none else
      let entries := (normalized.splitOn ',').map trim
      if entries.all (isTrustedEntry runtime) then some (.entries entries) else none
  | _ => none

def parsePort (value : Option ConfigValue) : Option ℤ :=
  let parsed := match value with
    | some (.number value) => some value
    | value => runtime.number (valueText value)
  parsed.filter fun port => 1 ≤ port ∧ port ≤ 65535

def tokenLifetimeMaxSeconds : ℤ := 365 * 24 * 60 * 60

def tokenLifetimeMultiplier (unit : Text) : Option ℕ :=
  match unit with
  | [] => some 1
  | ['s'] => some 1
  | ['m'] => some 60
  | ['h'] => some (60 * 60)
  | ['d'] => some (24 * 60 * 60)
  | _ => none

/-- The numbers that are too large to be exact are too large for a lifetime. -/
def parseTokenLifetime (value : Option ConfigValue) : Option ℤ :=
  match value with
  | some (.number value) =>
      (some value).filter fun value => 1 ≤ value ∧ value ≤ tokenLifetimeMaxSeconds
  | some (.text value) => do
      let (digits, unit) := (trim value).span Char.isDigit
      if digits = [] then none else
      let multiplier ← tokenLifetimeMultiplier unit
      (some ((decimal digits * multiplier : ℕ) : ℤ)).filter fun seconds =>
        seconds < 2 ^ 53 ∧ 1 ≤ seconds ∧ seconds ≤ tokenLifetimeMaxSeconds
  | _ => none

structure SslOptions where
  rejectUnauthorized : Bool
  ca : Option Text
deriving DecidableEq

/-- `replaceAll("\\n", "\n")` -/
def unescapeNewlines : Text → Text
  | '\\' :: 'n' :: rest => '\n' :: unescapeNewlines rest
  | c :: rest => c :: unescapeNewlines rest
  | [] => []

/-- The options of the connection; without any it is not encrypted. -/
def createPostgresSslOptions (enabled : Option ConfigValue) (ca : Option Text) :
    Except Failure (Option SslOptions) :=
  if enabled = none ∨ enabled = some (.boolean false) ∨ enabled = some (.text "false".toList) then
    .ok none
  else if enabled ≠ some (.boolean true) ∧ enabled ≠ some (.text "true".toList) then
    .error (.error "POSTGRES_SSL_INVALID")
  else
    .ok (some { rejectUnauthorized := true
                ca := (ca.map fun ca => unescapeNewlines (trim ca)).filter (· ≠ []) })

/-! ### The check -/

def requiredProductionKeys : List String :=
  ["POSTGRES_HOST", "POSTGRES_PORT", "POSTGRES_USERNAME", "POSTGRES_PASSWORD", "POSTGRES_DATABASE",
    "POSTGRES_SSL", "JWT_ACCESS_TOKEN_SECRET", "JWT_REFRESH_TOKEN_SECRET", "JWT_ACCESS_TOKEN_EXP",
    "JWT_REFRESH_TOKEN_EXP", "SIGNUP_TOKEN_SECRET", "KAKAO_SIGNUP_TOKEN_SECRET", "KAKAO_CLIENT_ID",
    "KAKAO_CALLBACK_URL", "PHONE_CODE_PEPPER", "SMS_PROVIDER_URL", "SMS_PROVIDER_AUTHORIZATION",
    "SMS_SENDER_ID", "R2_ACCOUNT_ID", "R2_ACCESS_KEY_ID", "R2_SECRET_ACCESS_KEY", "R2_BUCKET",
    "R2_PUBLIC_BASE_URL", "REVENUECAT_WEBHOOK_SECRET", "REVENUECAT_IOS_APP_ID",
    "REVENUECAT_ANDROID_APP_ID", "CLIENT_URL", "TRUST_PROXY"]

def productionSecretKeys : List String :=
  ["POSTGRES_PASSWORD", "JWT_ACCESS_TOKEN_SECRET", "JWT_REFRESH_TOKEN_SECRET", "SIGNUP_TOKEN_SECRET",
    "KAKAO_SIGNUP_TOKEN_SECRET", "PHONE_CODE_PEPPER", "SMS_PROVIDER_AUTHORIZATION",
    "R2_SECRET_ACCESS_KEY", "REVENUECAT_WEBHOOK_SECRET"]

def httpsUrlKeys : List String :=
  ["KAKAO_CALLBACK_URL", "SMS_PROVIDER_URL", "R2_PUBLIC_BASE_URL", "CLIENT_URL"]

def productionIdentifierKeys : List String :=
  ["KAKAO_CLIENT_ID", "SMS_SENDER_ID", "REVENUECAT_IOS_APP_ID", "REVENUECAT_ANDROID_APP_ID"]

/-- The keys that are invalid, each once, and the values so far. -/
structure Draft where
  invalid : List String
  normalized : Configuration

namespace Draft

def reject (key : String) (draft : Draft) : Draft :=
  { draft with invalid := draft.invalid.insert key }

def set (key : String) (value : ConfigValue) (draft : Draft) : Draft :=
  { draft with normalized := Function.update draft.normalized key (some value) }

/-- A key that is set is replaced by what is read from it, or invalid. -/
def check (config : Configuration) (key : String) (parsed : Option ConfigValue) (draft : Draft) :
    Draft :=
  if config key = none then draft else
  match parsed with
  | none => draft.reject key
  | some value => draft.set key value

def rejectWhen (bad : Bool) (key : String) (draft : Draft) : Draft :=
  if bad then draft.reject key else draft

/-- A loop over keys. -/
def rejectWhere (keys : List String) (bad : String → Bool) (draft : Draft) : Draft :=
  keys.foldl (fun draft key => draft.rejectWhen (bad key) key) draft

end Draft

/-- Only a boolean or a text may say whether the connection is encrypted. -/
def parsePostgresSsl (config : Configuration) : Option ConfigValue :=
  match config "POSTGRES_SSL" with
  | some (.number _) => none
  | some .other => none
  | enabled =>
      match createPostgresSslOptions enabled (some (valueFor config "POSTGRES_SSL_CA")) with
      | .error _ => none
      | .ok _ =>
          some (.boolean (enabled = some (.boolean true) ∨ enabled = some (.text "true".toList)))

def trustedProxyText : TrustedProxy → Text
  | .nothing => "false".toList
  | .entries entries => [','].intercalate entries

/-- `EXPO_PUSH_ENABLED`, which is false if it is not set. -/
def parseExpoPushEnabled (value : Option ConfigValue) : Option ConfigValue :=
  match value.getD (.boolean false) with
  | .boolean value => some (.boolean value)
  | .text value =>
      if value = "true".toList ∨ value = "false".toList then some (.boolean (value = "true".toList))
      else none
  | _ => none

def checkExpoPushEnabled (config : Configuration) (draft : Draft) : Draft :=
  match parseExpoPushEnabled (config "EXPO_PUSH_ENABLED") with
  | some value => draft.set "EXPO_PUSH_ENABLED" value
  | none => draft.reject "EXPO_PUSH_ENABLED"

/-- What is checked everywhere. -/
def normalize (config : Configuration) : Draft :=
  let draft : Draft := ⟨[], config⟩
  let draft := draft.check config "POSTGRES_PORT"
    ((parsePort runtime (config "POSTGRES_PORT")).map .number)
  let draft := draft.check config "JWT_ACCESS_TOKEN_EXP"
    ((parseTokenLifetime (config "JWT_ACCESS_TOKEN_EXP")).map .number)
  let draft := draft.check config "JWT_REFRESH_TOKEN_EXP"
    ((parseTokenLifetime (config "JWT_REFRESH_TOKEN_EXP")).map .number)
  let draft := draft.check config "POSTGRES_SSL" (parsePostgresSsl config)
  let draft := checkExpoPushEnabled config draft
  draft.check config "TRUST_PROXY"
    ((parseTrustedProxy runtime (config "TRUST_PROXY")).map fun proxy =>
      .text (trustedProxyText proxy))

/-- What is checked in production. -/
def checkProduction (config : Configuration) (draft : Draft) : Draft :=
  let same (key other : String) : Bool := valueFor config key = valueFor config other
  let draft := draft.rejectWhere requiredProductionKeys fun key => valueFor config key = []
  let draft := draft.rejectWhere productionSecretKeys fun key =>
    utf16Length (valueFor config key) < 16 ∨ isDevelopmentValue (valueFor config key) ∨
      valueFor config key = "chattea-dev".toList
  let draft := draft.rejectWhere httpsUrlKeys fun key => ¬ isHttpsUrl runtime (valueFor config key)
  let draft := draft.rejectWhere productionIdentifierKeys fun key =>
    isDevelopmentValue (valueFor config key)
  let draft := draft.rejectWhere ["REVENUECAT_IOS_APP_ID", "REVENUECAT_ANDROID_APP_ID"] fun _ =>
    same "REVENUECAT_IOS_APP_ID" "REVENUECAT_ANDROID_APP_ID"
  let draft := draft.rejectWhere ["JWT_ACCESS_TOKEN_SECRET", "JWT_REFRESH_TOKEN_SECRET"] fun _ =>
    same "JWT_ACCESS_TOKEN_SECRET" "JWT_REFRESH_TOKEN_SECRET"
  let draft :=
    draft.rejectWhen (parseTrustedProxy runtime (config "TRUST_PROXY") = none) "TRUST_PROXY"
  draft.rejectWhen (draft.normalized "POSTGRES_SSL" = some (.boolean false) ∧
    valueFor config "POSTGRES_HOST" ≠ "postgres".toList) "POSTGRES_SSL"

/-- The keys in order, behind the name of the error. -/
def Draft.finish (error : String) (draft : Draft) : Except Failure Configuration :=
  if draft.invalid = [] then .ok draft.normalized
  else .error (.error (error ++ ",".intercalate (draft.invalid.insertionSort (· ≤ ·))))

def isProduction (config : Configuration) : Bool :=
  config "NODE_ENV" = some (.text "production".toList)

def validateEnvironment (config : Configuration) : Except Failure Configuration :=
  let draft := normalize runtime config
  if isProduction config then
    (checkProduction runtime config draft).finish "PRODUCTION_CONFIG_INVALID:"
  else draft.finish "CONFIG_INVALID:"

/-! ### What a check does -/

namespace Draft

variable {draft : Draft} {config : Configuration} {key other : String} {bad : String → Bool}
  {parsed : Option ConfigValue} {keys : List String}

theorem reject_invalid_ne_nil : (draft.reject key).invalid ≠ [] :=
  List.ne_nil_of_mem List.mem_insert_self

/-- Nothing is invalid if nothing was, and what is set can be read. -/
theorem check_invalid : (draft.check config key parsed).invalid = [] ↔
    draft.invalid = [] ∧ (config key ≠ none → parsed ≠ none) := by
  unfold check
  split
  next hunset => simp [hunset]
  next hset =>
    cases parsed with
    | none => simp [hset, reject_invalid_ne_nil]
    | some value => simp [set]

theorem check_normalized_of_ne (hother : other ≠ key) :
    (draft.check config key parsed).normalized other = draft.normalized other := by
  unfold check
  split
  · rfl
  · cases parsed with
    | none => rfl
    | some value => exact Function.update_of_ne hother _ _

/-- A key that is set has what was read from it. -/
theorem check_normalized (hkept : draft.normalized key = config key)
    (hread : config key ≠ none → parsed ≠ none) :
    (draft.check config key parsed).normalized key = (config key).bind fun _ => parsed := by
  unfold check
  split
  next hunset => rw [hkept, hunset, Option.bind_none]
  next hset =>
    obtain ⟨value, hvalue⟩ := Option.ne_none_iff_exists'.1 hset
    obtain ⟨value', rfl⟩ := Option.ne_none_iff_exists'.1 (hread hset)
    rw [hvalue, Option.bind_some]
    exact Function.update_self _ _ _

@[simp] theorem rejectWhen_normalized {cond : Bool} :
    (draft.rejectWhen cond key).normalized = draft.normalized := by
  cases cond <;> rfl

theorem rejectWhen_invalid {cond : Bool} :
    (draft.rejectWhen cond key).invalid = [] ↔ draft.invalid = [] ∧ cond = false := by
  cases cond with
  | false => simp [rejectWhen]
  | true => simp [rejectWhen, reject_invalid_ne_nil]

theorem rejectWhen_of_good {cond : Bool} (hgood : cond = false) :
    draft.rejectWhen cond key = draft := by
  rw [hgood]
  rfl

@[simp] theorem rejectWhere_normalized :
    (draft.rejectWhere keys bad).normalized = draft.normalized := by
  unfold rejectWhere
  induction keys generalizing draft with
  | nil => rfl
  | cons key keys ih => rw [List.foldl_cons, ih, rejectWhen_normalized]

theorem rejectWhere_invalid : (draft.rejectWhere keys bad).invalid = [] ↔
    draft.invalid = [] ∧ ∀ key ∈ keys, bad key = false := by
  unfold rejectWhere
  induction keys generalizing draft with
  | nil => simp
  | cons key keys ih =>
      rw [List.foldl_cons, ih, rejectWhen_invalid, List.forall_mem_cons, and_assoc]

/-- A loop in which no key is bad. -/
theorem rejectWhere_of_good (hgood : ∀ key ∈ keys, bad key = false) :
    draft.rejectWhere keys bad = draft := by
  unfold rejectWhere
  induction keys with
  | nil => rfl
  | cons key keys ih =>
      rw [List.forall_mem_cons] at hgood
      rw [List.foldl_cons, hgood.1]
      exact ih hgood.2

/-- The keys of a loop that are bad, the last one first. -/
theorem rejectWhere_eq (hnodup : keys.Nodup) (hnew : ∀ key ∈ keys, key ∉ draft.invalid) :
    draft.rejectWhere keys bad =
      { draft with invalid := (keys.filter bad).reverse ++ draft.invalid } := by
  unfold rejectWhere
  induction keys generalizing draft with
  | nil => rfl
  | cons key keys ih =>
      rw [List.forall_mem_cons] at hnew
      rw [List.nodup_cons] at hnodup
      rw [List.foldl_cons]
      cases hbad : bad key with
      | false =>
          rw [List.filter_cons_of_neg (by simp [hbad])]
          exact ih hnodup.2 hnew.2
      | true =>
          have hinsert : (draft.rejectWhen true key).invalid = key :: draft.invalid :=
            List.insert_of_not_mem hnew.1
          rw [ih hnodup.2, hinsert, List.filter_cons_of_pos hbad, List.reverse_cons,
            List.append_assoc]
          · rfl
          · intro other hother
            rw [hinsert, List.mem_cons, not_or]
            exact ⟨fun hsame => hnodup.1 (hsame ▸ hother), hnew.2 other hother⟩

end Draft

end ChatTea.Environment
