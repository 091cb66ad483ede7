import ChatTea.Environment.Proxies

/-!
# What a checked environment promises

What a process reads of an environment that was accepted is fit for what it is read for: the port of
the database, the lifetimes of tokens, the proxies that are trusted. Outside production to check the
result again changes nothing. In production the result is never accepted again, since the numbers
and booleans it was normalized to are no texts.

## Main definitions

* `Readable`, `Normalized` — what is accepted everywhere, and what it becomes
* `Fit` — what is accepted in production
* `Promises`, `ProductionPromises` — what a reader may rely on

## Main results

* `validateEnvironment_eq_ok` — what is accepted
* `normalize_again` — to normalize a result changes nothing
* `environment_validated` — what is promised
-/

namespace ChatTea.Environment

open Auth (trim)
open Chat (utf16Length)

variable {runtime : Runtime} {config normalized : Configuration} {text : Text}

/-! ### The other values are read back -/

theorem parsePort_bounds {value : Option ConfigValue} {port : ℤ}
    (h : parsePort runtime value = some port) : 1 ≤ port ∧ port ≤ 65535 := by
  have hbounds := (Option.filter_eq_some_iff.1 h).2
  exact of_decide_eq_true hbounds

theorem parsePort_number {value : Option ConfigValue} {port : ℤ}
    (h : parsePort runtime value = some port) :
    parsePort runtime (some (.number port)) = some port := by
  unfold parsePort
  exact Option.filter_eq_some_iff.2 ⟨rfl, decide_eq_true (parsePort_bounds h)⟩

theorem parseTokenLifetime_bounds {value : Option ConfigValue} {seconds : ℤ}
    (h : parseTokenLifetime value = some seconds) :
    1 ≤ seconds ∧ seconds ≤ tokenLifetimeMaxSeconds := by
  cases value with
  | none => cases h
  | some value =>
      cases value with
      | boolean _ => cases h
      | other => cases h
      | number _ =>
          simp only [parseTokenLifetime] at h
          exact of_decide_eq_true (Option.filter_eq_some_iff.1 h).2
      | text text =>
          simp only [parseTokenLifetime] at h
          split at h
          · cases h
          · obtain ⟨multiplier, -, h⟩ := Option.bind_eq_some_iff.1 h
            exact (of_decide_eq_true (Option.filter_eq_some_iff.1 h).2).2

theorem parseTokenLifetime_number {value : Option ConfigValue} {seconds : ℤ}
    (h : parseTokenLifetime value = some seconds) :
    parseTokenLifetime (some (.number seconds)) = some seconds := by
  unfold parseTokenLifetime
  exact Option.filter_eq_some_iff.2 ⟨rfl, decide_eq_true (parseTokenLifetime_bounds h)⟩

theorem createPostgresSslOptions_boolean (encrypted : Bool) (ca : Option Text) :
    ∃ options, createPostgresSslOptions (some (.boolean encrypted)) ca = .ok options := by
  cases encrypted <;> exact ⟨_, rfl⟩

theorem parsePostgresSsl_boolean {value : ConfigValue} (h : parsePostgresSsl config = some value) :
    ∃ encrypted, value = .boolean encrypted := by
  unfold parsePostgresSsl at h
  split at h
  · cases h
  · cases h
  · split at h
    · cases h
    · exact ⟨_, (Option.some.inj h).symm⟩

theorem parsePostgresSsl_of_boolean {encrypted : Bool}
    (h : config "POSTGRES_SSL" = some (.boolean encrypted)) :
    parsePostgresSsl config = some (.boolean encrypted) := by
  unfold parsePostgresSsl
  rw [h]
  cases encrypted <;> rfl

theorem createPostgresSslOptions_of_ne (hfalse : text ≠ "false".toList)
    (htrue : text ≠ "true".toList) (ca : Option Text) :
    createPostgresSslOptions (some (.text text)) ca = .error (.error "POSTGRES_SSL_INVALID") := by
  simp only [createPostgresSslOptions, Option.some.injEq, ConfigValue.text.injEq, hfalse, htrue,
    reduceCtorEq, or_self, ne_eq, not_false_eq_true, and_self, if_true, if_false]

/-- The boolean that is read stands for the same options. -/
theorem createPostgresSslOptions_of_parse {raw value : ConfigValue}
    (hraw : config "POSTGRES_SSL" = some raw) (h : parsePostgresSsl config = some value)
    (ca : Option Text) :
    createPostgresSslOptions (some raw) ca = createPostgresSslOptions (some value) ca := by
  unfold parsePostgresSsl at h
  rw [hraw] at h
  cases raw with
  | number _ => cases h
  | other => cases h
  | boolean encrypted =>
      cases encrypted
      · obtain rfl := Option.some.inj h
        rfl
      · obtain rfl := Option.some.inj h
        rfl
  | text text =>
      -- Any other text than these two was refused.
      by_cases hfalse : text = "false".toList
      · subst hfalse
        obtain rfl := Option.some.inj h
        rfl
      by_cases htrue : text = "true".toList
      · subst htrue
        obtain rfl := Option.some.inj h
        rfl
      · simp only [createPostgresSslOptions_of_ne hfalse htrue] at h
        cases h

theorem parseExpoPushEnabled_boolean {value : Option ConfigValue} {read : ConfigValue}
    (h : parseExpoPushEnabled value = some read) : ∃ enabled, read = .boolean enabled := by
  unfold parseExpoPushEnabled at h
  split at h
  · exact ⟨_, (Option.some.inj h).symm⟩
  · split at h
    · exact ⟨_, (Option.some.inj h).symm⟩
    · cases h
  · cases h

/-! ### What is checked everywhere -/

def normalizedKeys : List String :=
  ["POSTGRES_PORT", "JWT_ACCESS_TOKEN_EXP", "JWT_REFRESH_TOKEN_EXP", "POSTGRES_SSL",
    "EXPO_PUSH_ENABLED", "TRUST_PROXY"]

/-- What is set can be read. -/
structure Readable (runtime : Runtime) (config : Configuration) : Prop where
  port : config "POSTGRES_PORT" ≠ none → parsePort runtime (config "POSTGRES_PORT") ≠ none
  accessLifetime : config "JWT_ACCESS_TOKEN_EXP" ≠ none →
    parseTokenLifetime (config "JWT_ACCESS_TOKEN_EXP") ≠ none
  refreshLifetime : config "JWT_REFRESH_TOKEN_EXP" ≠ none →
    parseTokenLifetime (config "JWT_REFRESH_TOKEN_EXP") ≠ none
  ssl : config "POSTGRES_SSL" ≠ none → parsePostgresSsl config ≠ none
  push : parseExpoPushEnabled (config "EXPO_PUSH_ENABLED") ≠ none
  proxy : config "TRUST_PROXY" ≠ none → parseTrustedProxy runtime (config "TRUST_PROXY") ≠ none

/-- The result has what was read where something was set. -/
structure Normalized (runtime : Runtime) (config normalized : Configuration) : Prop where
  port : normalized "POSTGRES_PORT" = (config "POSTGRES_PORT").bind fun _ =>
    (parsePort runtime (config "POSTGRES_PORT")).map .number
  accessLifetime : normalized "JWT_ACCESS_TOKEN_EXP" = (config "JWT_ACCESS_TOKEN_EXP").bind fun _ =>
    (parseTokenLifetime (config "JWT_ACCESS_TOKEN_EXP")).map .number
  refreshLifetime : normalized "JWT_REFRESH_TOKEN_EXP" =
    (config "JWT_REFRESH_TOKEN_EXP").bind fun _ =>
      (parseTokenLifetime (config "JWT_REFRESH_TOKEN_EXP")).map .number
  ssl : normalized "POSTGRES_SSL" = (config "POSTGRES_SSL").bind fun _ => parsePostgresSsl config
  push : normalized "EXPO_PUSH_ENABLED" = parseExpoPushEnabled (config "EXPO_PUSH_ENABLED")
  proxy : normalized "TRUST_PROXY" = (config "TRUST_PROXY").bind fun _ =>
    (parseTrustedProxy runtime (config "TRUST_PROXY")).map fun proxy =>
      .text (trustedProxyText proxy)
  kept : ∀ key ∉ normalizedKeys, normalized key = config key

theorem checkExpoPushEnabled_invalid {draft : Draft} :
    (checkExpoPushEnabled config draft).invalid = [] ↔
      draft.invalid = [] ∧ parseExpoPushEnabled (config "EXPO_PUSH_ENABLED") ≠ none := by
  unfold checkExpoPushEnabled
  cases parseExpoPushEnabled (config "EXPO_PUSH_ENABLED") with
  | none => simp [Draft.reject_invalid_ne_nil]
  | some value => simp [Draft.set]

theorem checkExpoPushEnabled_of_ne {draft : Draft} {other : String}
    (hother : other ≠ "EXPO_PUSH_ENABLED") :
    (checkExpoPushEnabled config draft).normalized other = draft.normalized other := by
  unfold checkExpoPushEnabled
  cases parseExpoPushEnabled (config "EXPO_PUSH_ENABLED") with
  | none => rfl
  | some value => exact Function.update_of_ne hother _ _

theorem checkExpoPushEnabled_self {draft : Draft}
    (hread : parseExpoPushEnabled (config "EXPO_PUSH_ENABLED") ≠ none) :
    (checkExpoPushEnabled config draft).normalized "EXPO_PUSH_ENABLED" =
      parseExpoPushEnabled (config "EXPO_PUSH_ENABLED") := by
  unfold checkExpoPushEnabled
  obtain ⟨value, hvalue⟩ := Option.ne_none_iff_exists'.1 hread
  simp only [hvalue, Draft.set, Function.update_self]

theorem map_ne_none {α : Type} {f : α → ConfigValue} {read : Option α} :
    read.map f ≠ none ↔ read ≠ none :=
  not_congr Option.map_eq_none_iff

/-- Nothing is invalid if all that is set can be read. -/
theorem normalize_invalid : (normalize runtime config).invalid = [] ↔ Readable runtime config := by
  unfold normalize
  rw [Draft.check_invalid, checkExpoPushEnabled_invalid, Draft.check_invalid, Draft.check_invalid,
    Draft.check_invalid, Draft.check_invalid]
  rw [map_ne_none, map_ne_none, map_ne_none, map_ne_none]
  constructor
  · rintro ⟨⟨⟨⟨⟨⟨-, hport⟩, haccess⟩, hrefresh⟩, hssl⟩, hpush⟩, hproxy⟩
    exact ⟨hport, haccess, hrefresh, hssl, hpush, hproxy⟩
  · intro h
    exact ⟨⟨⟨⟨⟨⟨rfl, h.port⟩, h.accessLifetime⟩, h.refreshLifetime⟩, h.ssl⟩, h.push⟩, h.proxy⟩

/-- A key that is not normalized keeps its value. -/
theorem normalize_kept {key : String} (hkey : key ∉ normalizedKeys) :
    (normalize runtime config).normalized key = config key := by
  have hne : ∀ other ∈ normalizedKeys, key ≠ other :=
    fun other hother hsame => hkey (hsame ▸ hother)
  simp only [normalizedKeys, List.forall_mem_cons] at hne
  obtain ⟨hport, haccess, hrefresh, hssl, hpush, hproxy, -⟩ := hne
  unfold normalize
  rw [Draft.check_normalized_of_ne hproxy, checkExpoPushEnabled_of_ne hpush,
    Draft.check_normalized_of_ne hssl, Draft.check_normalized_of_ne hrefresh,
    Draft.check_normalized_of_ne haccess, Draft.check_normalized_of_ne hport]

/-- What is read stands in place of what was set. -/
theorem normalize_normalized (h : Readable runtime config) :
    Normalized runtime config (normalize runtime config).normalized where
  -- What is checked later leaves a key alone, and what was checked before has left it as it was.
  port := by
    unfold normalize
    rw [Draft.check_normalized_of_ne, checkExpoPushEnabled_of_ne, Draft.check_normalized_of_ne,
      Draft.check_normalized_of_ne, Draft.check_normalized_of_ne]
    · exact Draft.check_normalized rfl fun hset => map_ne_none.2 (h.port hset)
    all_goals decide
  accessLifetime := by
    unfold normalize
    rw [Draft.check_normalized_of_ne, checkExpoPushEnabled_of_ne, Draft.check_normalized_of_ne,
      Draft.check_normalized_of_ne]
    · refine Draft.check_normalized ?_ fun hset => map_ne_none.2 (h.accessLifetime hset)
      rw [Draft.check_normalized_of_ne]
      decide
    all_goals decide
  refreshLifetime := by
    unfold normalize
    rw [Draft.check_normalized_of_ne, checkExpoPushEnabled_of_ne, Draft.check_normalized_of_ne]
    · refine Draft.check_normalized ?_ fun hset => map_ne_none.2 (h.refreshLifetime hset)
      rw [Draft.check_normalized_of_ne, Draft.check_normalized_of_ne]
      all_goals decide
    all_goals decide
  ssl := by
    unfold normalize
    rw [Draft.check_normalized_of_ne, checkExpoPushEnabled_of_ne]
    · refine Draft.check_normalized ?_ h.ssl
      rw [Draft.check_normalized_of_ne, Draft.check_normalized_of_ne, Draft.check_normalized_of_ne]
      all_goals decide
    all_goals decide
  push := by
    unfold normalize
    rw [Draft.check_normalized_of_ne (by decide)]
    exact checkExpoPushEnabled_self h.push
  proxy := by
    unfold normalize
    refine Draft.check_normalized ?_ fun hset => map_ne_none.2 (h.proxy hset)
    rw [checkExpoPushEnabled_of_ne, Draft.check_normalized_of_ne, Draft.check_normalized_of_ne,
      Draft.check_normalized_of_ne, Draft.check_normalized_of_ne]
    all_goals decide
  kept _ hkey := normalize_kept hkey

/-- The result is determined. -/
theorem Normalized.unique {first second : Configuration} (hfirst : Normalized runtime config first)
    (hsecond : Normalized runtime config second) : first = second := by
  funext key
  by_cases hkey : key ∈ normalizedKeys
  · simp only [normalizedKeys, List.mem_cons, List.not_mem_nil, or_false] at hkey
    rcases hkey with rfl | rfl | rfl | rfl | rfl | rfl
    · rw [hfirst.port, hsecond.port]
    · rw [hfirst.accessLifetime, hsecond.accessLifetime]
    · rw [hfirst.refreshLifetime, hsecond.refreshLifetime]
    · rw [hfirst.ssl, hsecond.ssl]
    · rw [hfirst.push, hsecond.push]
    · rw [hfirst.proxy, hsecond.proxy]
  · rw [hfirst.kept key hkey, hsecond.kept key hkey]

/-! ### A second check -/

section Reread

variable {α : Type} {parse : Option ConfigValue → Option α} {write : α → ConfigValue}
  {value value' : Option ConfigValue}

/-- A value that is written as it is read back can be read again. -/
theorem reread_ne_none
    (hback : ∀ read, parse value = some read → parse (some (write read)) = some read)
    (hvalue : value' = value.bind fun _ => (parse value).map write) (hset : value' ≠ none) :
    parse value' ≠ none := by
  cases value with
  | none => exact absurd hvalue hset
  | some raw =>
      rw [Option.bind_some] at hvalue
      obtain ⟨read, hread⟩ := Option.ne_none_iff_exists'.1 (map_ne_none.1 (hvalue ▸ hset))
      rw [hvalue, hread, Option.map_some, hback read hread]
      exact Option.some_ne_none read

/-- And it is written again as it is. -/
theorem reread_eq
    (hback : ∀ read, parse value = some read → parse (some (write read)) = some read)
    (hvalue : value' = value.bind fun _ => (parse value).map write) :
    value' = value'.bind fun _ => (parse value').map write := by
  cases value with
  | none =>
      rw [Option.bind_none] at hvalue
      rw [hvalue, Option.bind_none]
  | some raw =>
      rw [Option.bind_some] at hvalue
      cases hread : parse (some raw) with
      | none =>
          rw [hread, Option.map_none] at hvalue
          rw [hvalue, Option.bind_none]
      | some read =>
          rw [hread, Option.map_some] at hvalue
          rw [hvalue, Option.bind_some, hback read hread, Option.map_some]

/-- What is set stands for what is read from it. -/
theorem exists_read (hagain : value = value.bind fun _ => (parse value).map write)
    (hset : value ≠ none) : ∃ read, parse value = some read ∧ value = some (write read) := by
  obtain ⟨raw, rfl⟩ := Option.ne_none_iff_exists'.1 hset
  rw [Option.bind_some] at hagain
  obtain ⟨read, hread, hwrite⟩ := Option.map_eq_some_iff.1 hagain.symm
  exact ⟨read, hread, hwrite ▸ rfl⟩

end Reread

theorem Normalized.ssl_cases (hnormalized : Normalized runtime config normalized) :
    normalized "POSTGRES_SSL" = none ∨
      ∃ encrypted, normalized "POSTGRES_SSL" = some (.boolean encrypted) := by
  rw [hnormalized.ssl]
  cases config "POSTGRES_SSL" with
  | none => exact Or.inl rfl
  | some raw =>
      rw [Option.bind_some]
      cases hread : parsePostgresSsl config with
      | none => exact Or.inl rfl
      | some value =>
          obtain ⟨encrypted, rfl⟩ := parsePostgresSsl_boolean hread
          exact Or.inr ⟨encrypted, rfl⟩

theorem Normalized.push_cases (h : Readable runtime config)
    (hnormalized : Normalized runtime config normalized) :
    ∃ enabled, normalized "EXPO_PUSH_ENABLED" = some (.boolean enabled) := by
  obtain ⟨value, hvalue⟩ := Option.ne_none_iff_exists'.1 h.push
  obtain ⟨enabled, rfl⟩ := parseExpoPushEnabled_boolean hvalue
  exact ⟨enabled, hnormalized.push.trans hvalue⟩

/-- What a result has can be read. -/
theorem Normalized.readable (hlaws : runtime.Lawful) (h : Readable runtime config)
    (hnormalized : Normalized runtime config normalized) : Readable runtime normalized where
  port := reread_ne_none (fun _ hread => parsePort_number hread) hnormalized.port
  accessLifetime :=
    reread_ne_none (fun _ hread => parseTokenLifetime_number hread) hnormalized.accessLifetime
  refreshLifetime :=
    reread_ne_none (fun _ hread => parseTokenLifetime_number hread) hnormalized.refreshLifetime
  ssl hset := by
    rcases hnormalized.ssl_cases with hnone | ⟨encrypted, hencrypted⟩
    · exact absurd hnone hset
    · rw [parsePostgresSsl_of_boolean hencrypted]
      exact Option.some_ne_none _
  push := by
    obtain ⟨enabled, henabled⟩ := hnormalized.push_cases h
    rw [henabled]
    exact Option.some_ne_none _
  proxy := reread_ne_none (fun _ hread => parseTrustedProxy_text hlaws hread) hnormalized.proxy

/-- To read a result and write it again changes nothing. -/
theorem Normalized.again (hlaws : runtime.Lawful) (h : Readable runtime config)
    (hnormalized : Normalized runtime config normalized) :
    Normalized runtime normalized normalized where
  port := reread_eq (fun _ hread => parsePort_number hread) hnormalized.port
  accessLifetime :=
    reread_eq (fun _ hread => parseTokenLifetime_number hread) hnormalized.accessLifetime
  refreshLifetime :=
    reread_eq (fun _ hread => parseTokenLifetime_number hread) hnormalized.refreshLifetime
  ssl := by
    rcases hnormalized.ssl_cases with hnone | ⟨encrypted, hencrypted⟩
    · rw [hnone, Option.bind_none]
    · rw [parsePostgresSsl_of_boolean hencrypted, hencrypted, Option.bind_some]
  push := by
    obtain ⟨enabled, henabled⟩ := hnormalized.push_cases h
    rw [henabled]
    rfl
  proxy := reread_eq (fun _ hread => parseTrustedProxy_text hlaws hread) hnormalized.proxy
  kept _ _ := rfl

theorem normalize_again (hlaws : runtime.Lawful) (h : Readable runtime config)
    (hnormalized : Normalized runtime config normalized) :
    normalize runtime normalized = ⟨[], normalized⟩ := by
  have hreadable := hnormalized.readable hlaws h
  have hinvalid := normalize_invalid.2 hreadable
  have hsame := (normalize_normalized hreadable).unique (hnormalized.again hlaws h)
  calc normalize runtime normalized
      = ⟨(normalize runtime normalized).invalid, (normalize runtime normalized).normalized⟩ := rfl
    _ = ⟨[], normalized⟩ := by rw [hinvalid, hsame]

/-! ### What is promised -/

/-- What a reader of the result may rely on. -/
structure Promises (runtime : Runtime) (config normalized : Configuration) : Prop where
  port : normalized "POSTGRES_PORT" ≠ none →
    ∃ port : ℤ, normalized "POSTGRES_PORT" = some (.number port) ∧ 1 ≤ port ∧ port ≤ 65535
  lifetime : ∀ key ∈ ["JWT_ACCESS_TOKEN_EXP", "JWT_REFRESH_TOKEN_EXP"], normalized key ≠ none →
    ∃ seconds : ℤ, normalized key = some (.number seconds) ∧ 1 ≤ seconds ∧
      seconds ≤ tokenLifetimeMaxSeconds
  /-- The connection is encrypted as it would be with the value that was set. -/
  ssl : ∀ ca, ∃ options, createPostgresSslOptions (normalized "POSTGRES_SSL") ca = .ok options ∧
    createPostgresSslOptions (config "POSTGRES_SSL") ca = .ok options
  push : ∃ enabled, normalized "EXPO_PUSH_ENABLED" = some (.boolean enabled)
  /-- The same proxies are trusted as with the value that was set, and no range of all addresses. -/
  proxy : parseTrustedProxy runtime (normalized "TRUST_PROXY") =
    parseTrustedProxy runtime (config "TRUST_PROXY")
  entries : ∀ entries,
    parseTrustedProxy runtime (normalized "TRUST_PROXY") = some (.entries entries) →
    entries ≠ [] ∧ ∀ entry ∈ entries, isTrustedEntry runtime entry
  kept : ∀ key ∉ normalizedKeys, normalized key = config key

theorem Normalized.promises (hlaws : runtime.Lawful) (h : Readable runtime config)
    (hnormalized : Normalized runtime config normalized) : Promises runtime config normalized where
  port hset := by
    obtain ⟨port, hread, hport⟩ := exists_read (hnormalized.again hlaws h).port hset
    exact ⟨port, hport, parsePort_bounds hread⟩
  lifetime key hkey hset := by
    simp only [List.mem_cons, List.not_mem_nil, or_false] at hkey
    rcases hkey with rfl | rfl
    · obtain ⟨seconds, hread, hseconds⟩ :=
        exists_read (hnormalized.again hlaws h).accessLifetime hset
      exact ⟨seconds, hseconds, parseTokenLifetime_bounds hread⟩
    · obtain ⟨seconds, hread, hseconds⟩ :=
        exists_read (hnormalized.again hlaws h).refreshLifetime hset
      exact ⟨seconds, hseconds, parseTokenLifetime_bounds hread⟩
  ssl ca := by
    rw [hnormalized.ssl]
    cases hraw : config "POSTGRES_SSL" with
    | none => exact ⟨none, rfl, rfl⟩
    | some raw =>
        have hset : config "POSTGRES_SSL" ≠ none := hraw ▸ Option.some_ne_none raw
        obtain ⟨value, hvalue⟩ := Option.ne_none_iff_exists'.1 (h.ssl hset)
        obtain ⟨encrypted, rfl⟩ := parsePostgresSsl_boolean hvalue
        obtain ⟨options, hoptions⟩ := createPostgresSslOptions_boolean encrypted ca
        rw [Option.bind_some, hvalue, createPostgresSslOptions_of_parse hraw hvalue]
        exact ⟨options, hoptions, hoptions⟩
  push := hnormalized.push_cases h
  proxy := by
    rw [hnormalized.proxy]
    cases hraw : config "TRUST_PROXY" with
    | none => rfl
    | some raw =>
        have hset : config "TRUST_PROXY" ≠ none := hraw ▸ Option.some_ne_none raw
        obtain ⟨proxy, hproxy⟩ := Option.ne_none_iff_exists'.1 (h.proxy hset)
        rw [hraw] at hproxy
        rw [Option.bind_some, hproxy, Option.map_some]
        exact parseTrustedProxy_text hlaws hproxy
  entries entries hentries := by
    have hall := parseTrustedProxy_entries hlaws hentries
    exact ⟨hall.1, fun entry hentry => (hall.2 entry hentry).1⟩
  kept := hnormalized.kept

/-- What is fit for production. -/
structure Fit (runtime : Runtime) (config : Configuration) (ssl : Option ConfigValue) : Prop where
  secret : ∀ key ∈ productionSecretKeys, 16 ≤ utf16Length (valueFor config key) ∧
    isDevelopmentValue (valueFor config key) = false ∧ valueFor config key ≠ "chattea-dev".toList
  url : ∀ key ∈ httpsUrlKeys, isHttpsUrl runtime (valueFor config key)
  identifier : ∀ key ∈ productionIdentifierKeys, isDevelopmentValue (valueFor config key) = false
  apps : valueFor config "REVENUECAT_IOS_APP_ID" ≠ valueFor config "REVENUECAT_ANDROID_APP_ID"
  tokens : valueFor config "JWT_ACCESS_TOKEN_SECRET" ≠ valueFor config "JWT_REFRESH_TOKEN_SECRET"
  proxy : parseTrustedProxy runtime (config "TRUST_PROXY") ≠ none
  /-- Only the database beside the process is spoken to in the clear. -/
  database : ssl = some (.boolean false) → valueFor config "POSTGRES_HOST" = "postgres".toList

theorem checkProduction_invalid {draft : Draft} :
    (checkProduction runtime config draft).invalid = [] ↔
      draft.invalid = [] ∧ (∀ key ∈ requiredProductionKeys, valueFor config key ≠ []) ∧
        Fit runtime config (draft.normalized "POSTGRES_SSL") := by
  simp only [checkProduction, Draft.rejectWhen_invalid, Draft.rejectWhere_invalid,
    Draft.rejectWhere_normalized, Draft.rejectWhen_normalized, decide_eq_false_iff_not]
  constructor
  · rintro ⟨⟨⟨⟨⟨⟨⟨⟨hinvalid, hrequired⟩, hsecret⟩, hurl⟩, hidentifier⟩, happs⟩, htokens⟩, hproxy⟩,
      hdatabase⟩
    refine ⟨hinvalid, hrequired, ?_, ?_, hidentifier, ?_, ?_, hproxy, ?_⟩
    · intro key hkey
      have hone := hsecret key hkey
      simp only [not_or, Bool.not_eq_true, not_lt] at hone
      exact hone
    · intro key hkey
      exact not_not.1 (hurl key hkey)
    · exact happs "REVENUECAT_IOS_APP_ID" (by decide)
    · exact htokens "JWT_ACCESS_TOKEN_SECRET" (by decide)
    · exact fun hclear => not_not.1 fun hhost => hdatabase ⟨hclear, hhost⟩
  · rintro ⟨hinvalid, hrequired, h⟩
    refine ⟨⟨⟨⟨⟨⟨⟨⟨hinvalid, hrequired⟩, ?_⟩, ?_⟩, h.identifier⟩, fun _ _ => h.apps⟩,
      fun _ _ => h.tokens⟩, h.proxy⟩, fun hclear => hclear.2 (h.database hclear.1)⟩
    · intro key hkey
      simp only [not_or, Bool.not_eq_true, not_lt]
      exact h.secret key hkey
    · intro key hkey
      exact not_not.2 (h.url key hkey)

theorem Normalized.valueFor_eq (hnormalized : Normalized runtime config normalized) {key : String}
    (hkey : key ∉ normalizedKeys) : valueFor normalized key = valueFor config key := by
  unfold valueFor
  rw [hnormalized.kept key hkey]

/-- What is fit stays fit. -/
theorem Normalized.fit (hlaws : runtime.Lawful) (h : Readable runtime config)
    (hnormalized : Normalized runtime config normalized) {ssl : Option ConfigValue}
    (hfit : Fit runtime config ssl) : Fit runtime normalized ssl := by
  have hsecrets : ∀ key ∈ productionSecretKeys, key ∉ normalizedKeys := by decide
  have hurls : ∀ key ∈ httpsUrlKeys, key ∉ normalizedKeys := by decide
  have hidentifiers : ∀ key ∈ productionIdentifierKeys, key ∉ normalizedKeys := by decide
  constructor
  · intro key hkey
    rw [hnormalized.valueFor_eq (hsecrets key hkey)]
    exact hfit.secret key hkey
  · intro key hkey
    rw [hnormalized.valueFor_eq (hurls key hkey)]
    exact hfit.url key hkey
  · intro key hkey
    rw [hnormalized.valueFor_eq (hidentifiers key hkey)]
    exact hfit.identifier key hkey
  · rw [hnormalized.valueFor_eq (hidentifiers _ (by decide)),
      hnormalized.valueFor_eq (hidentifiers _ (by decide))]
    exact hfit.apps
  · rw [hnormalized.valueFor_eq (hsecrets _ (by decide)),
      hnormalized.valueFor_eq (hsecrets _ (by decide))]
    exact hfit.tokens
  · rw [(hnormalized.promises hlaws h).proxy]
    exact hfit.proxy
  · rw [hnormalized.valueFor_eq (by decide)]
    exact hfit.database

/-- Where all is fit, only the keys that are missing are invalid. -/
theorem checkProduction_eq {ssl : Option ConfigValue}
    (hssl : config "POSTGRES_SSL" = ssl) (hfit : Fit runtime config ssl) :
    checkProduction runtime config ⟨[], config⟩ =
      ⟨(requiredProductionKeys.filter fun key => valueFor config key = []).reverse, config⟩ := by
  have hnodup : requiredProductionKeys.Nodup := by decide
  unfold checkProduction
  dsimp only
  -- From the last check to the second one nothing is rejected; the first looks at missing keys.
  rw [Draft.rejectWhen_of_good, Draft.rejectWhen_of_good, Draft.rejectWhere_of_good,
    Draft.rejectWhere_of_good, Draft.rejectWhere_of_good, Draft.rejectWhere_of_good,
    Draft.rejectWhere_of_good, Draft.rejectWhere_eq hnodup fun _ _ => List.not_mem_nil]
  · rw [List.append_nil]
  · intro key hkey
    rw [decide_eq_false_iff_not, not_or, not_or, not_lt, Bool.not_eq_true]
    exact hfit.secret key hkey
  · intro key hkey
    rw [decide_eq_false_iff_not, not_not]
    exact hfit.url key hkey
  · exact hfit.identifier
  · exact fun _ _ => decide_eq_false hfit.apps
  · exact fun _ _ => decide_eq_false hfit.tokens
  · exact decide_eq_false hfit.proxy
  · rw [decide_eq_false_iff_not]
    simp only [Draft.rejectWhen_normalized, Draft.rejectWhere_normalized]
    rintro ⟨hclear, hhost⟩
    exact hhost (hfit.database (hssl ▸ hclear))

/-- The required keys whose values are no texts in a result. -/
def untextedKeys : List String :=
  ["POSTGRES_PORT", "POSTGRES_SSL", "JWT_ACCESS_TOKEN_EXP", "JWT_REFRESH_TOKEN_EXP"]

theorem Promises.untexted (hpromises : Promises runtime config normalized)
    (hnormalized : Normalized runtime config normalized) {key : String}
    (hkey : key ∈ untextedKeys) :
    valueFor normalized key = [] := by
  unfold valueFor
  by_cases hset : normalized key = none
  · rw [hset]
    rfl
  simp only [untextedKeys, List.mem_cons, List.not_mem_nil, or_false] at hkey
  rcases hkey with rfl | rfl | hlifetime
  · obtain ⟨port, hport, -⟩ := hpromises.port hset
    rw [hport]
    rfl
  · obtain ⟨encrypted, hencrypted⟩ := hnormalized.ssl_cases.resolve_left hset
    rw [hencrypted]
    rfl
  · obtain ⟨seconds, hseconds, -⟩ := hpromises.lifetime key (by simpa using hlifetime) hset
    rw [hseconds]
    rfl

/-- A text that is blank trusts nobody and does not say so. -/
theorem valueText_ne_nil_of_proxy (hlaws : runtime.Lawful) {value : Option ConfigValue}
    (h : parseTrustedProxy runtime value ≠ none) : valueText value ≠ [] := by
  have hlower : runtime.toLowerCase [] = [] :=
    hlaws.lower_ascii [] fun c hc => absurd hc List.not_mem_nil
  intro hnil
  apply h
  cases value with
  | none => rfl
  | some value =>
      cases value with
      | number _ => rfl
      | boolean _ => rfl
      | other => rfl
      | text text =>
          have htrim : trim text = [] := hnil
          simp only [parseTrustedProxy, htrim, hlower, if_true]
          rfl

/-- In a result that production accepted, the numbers and booleans are what is missing. -/
theorem Normalized.missing (hlaws : runtime.Lawful) (h : Readable runtime config)
    (hnormalized : Normalized runtime config normalized)
    (hproxy : parseTrustedProxy runtime (config "TRUST_PROXY") ≠ none)
    (hrequired : ∀ key ∈ requiredProductionKeys, valueFor config key ≠ []) :
    (requiredProductionKeys.filter fun key => valueFor normalized key = []) = untextedKeys := by
  have hpromises := hnormalized.promises hlaws h
  have hkeys : ∀ key ∈ requiredProductionKeys, key ∉ untextedKeys →
      key = "TRUST_PROXY" ∨ key ∉ normalizedKeys := by decide
  have hmissing : ∀ key ∈ requiredProductionKeys,
      decide (valueFor normalized key = []) = decide (key ∈ untextedKeys) := by
    intro key hkey
    rw [decide_eq_decide]
    constructor
    · intro hnil
      by_contra hkept
      rcases hkeys key hkey hkept with rfl | hkept
      -- The proxies are a text again, and no blank one.
      · exact valueText_ne_nil_of_proxy hlaws (hpromises.proxy ▸ hproxy) hnil
      · exact hrequired key hkey (hnormalized.valueFor_eq hkept ▸ hnil)
    · exact fun huntexted => hpromises.untexted hnormalized huntexted
  rw [List.filter_congr hmissing]
  decide

theorem bind_const_ne_none {value parsed : Option ConfigValue} (hset : value ≠ none)
    (hparsed : parsed ≠ none) : (value.bind fun _ => parsed) ≠ none := by
  obtain ⟨raw, rfl⟩ := Option.ne_none_iff_exists'.1 hset
  exact hparsed

/-- What is set stays set. -/
theorem Normalized.set (h : Readable runtime config)
    (hnormalized : Normalized runtime config normalized) {key : String} (hset : config key ≠ none) :
    normalized key ≠ none := by
  by_cases hkey : key ∈ normalizedKeys
  · simp only [normalizedKeys, List.mem_cons, List.not_mem_nil, or_false] at hkey
    rcases hkey with rfl | rfl | rfl | rfl | rfl | rfl
    · rw [hnormalized.port]
      exact bind_const_ne_none hset (map_ne_none.2 (h.port hset))
    · rw [hnormalized.accessLifetime]
      exact bind_const_ne_none hset (map_ne_none.2 (h.accessLifetime hset))
    · rw [hnormalized.refreshLifetime]
      exact bind_const_ne_none hset (map_ne_none.2 (h.refreshLifetime hset))
    · rw [hnormalized.ssl]
      exact bind_const_ne_none hset (h.ssl hset)
    · rw [hnormalized.push]
      exact h.push
    · rw [hnormalized.proxy]
      exact bind_const_ne_none hset (map_ne_none.2 (h.proxy hset))
  · rw [hnormalized.kept key hkey]
    exact hset

/-- What is promised in production: all that is needed is set, to what is fit. -/
structure ProductionPromises (runtime : Runtime) (normalized : Configuration) : Prop where
  set : ∀ key ∈ requiredProductionKeys, normalized key ≠ none
  required : ∀ key ∈ requiredProductionKeys, key ∉ untextedKeys → valueFor normalized key ≠ []
  fit : Fit runtime normalized (normalized "POSTGRES_SSL")

theorem Normalized.productionPromises (hlaws : runtime.Lawful) (h : Readable runtime config)
    (hnormalized : Normalized runtime config normalized)
    (hrequired : ∀ key ∈ requiredProductionKeys, valueFor config key ≠ [])
    (hfit : Fit runtime config (normalized "POSTGRES_SSL")) :
    ProductionPromises runtime normalized where
  set key hkey := by
    refine hnormalized.set h fun hunset => hrequired key hkey ?_
    rw [valueFor, hunset]
    rfl
  required key hkey hkept := by
    intro hnil
    have hmissing := hnormalized.missing hlaws h hfit.proxy hrequired
    exact hkept (hmissing ▸ List.mem_filter.2 ⟨hkey, decide_eq_true hnil⟩)
  fit := hnormalized.fit hlaws h hfit

theorem finish_eq_ok {error : String} {draft : Draft} :
    draft.finish error = .ok normalized ↔ draft.invalid = [] ∧ draft.normalized = normalized := by
  unfold Draft.finish
  split
  next hinvalid => simp [hinvalid]
  next hinvalid => simp [hinvalid]

theorem isProduction_eq (hnormalized : Normalized runtime config normalized) :
    isProduction normalized = isProduction config := by
  unfold isProduction
  rw [hnormalized.kept "NODE_ENV" (by decide)]

/-- What is accepted, and what it becomes. -/
theorem validateEnvironment_eq_ok : validateEnvironment runtime config = .ok normalized ↔
    Readable runtime config ∧ Normalized runtime config normalized ∧
      (isProduction config → (∀ key ∈ requiredProductionKeys, valueFor config key ≠ []) ∧
        Fit runtime config (normalized "POSTGRES_SSL")) := by
  have hsame : Readable runtime config →
      ((normalize runtime config).normalized = normalized ↔ Normalized runtime config normalized) :=
    fun h => ⟨fun hsame => hsame ▸ normalize_normalized h, (normalize_normalized h).unique⟩
  unfold validateEnvironment
  dsimp only
  split
  next hproduction =>
    -- In production more keys are rejected, but no more is normalized.
    have hkept : (checkProduction runtime config (normalize runtime config)).normalized =
        (normalize runtime config).normalized := by
      simp only [checkProduction, Draft.rejectWhen_normalized, Draft.rejectWhere_normalized]
    rw [finish_eq_ok, checkProduction_invalid, hkept, normalize_invalid]
    constructor
    · rintro ⟨⟨h, hrequired, hfit⟩, rfl⟩
      exact ⟨h, normalize_normalized h, fun _ => ⟨hrequired, hfit⟩⟩
    · rintro ⟨h, hnormalized, hfit⟩
      obtain rfl := (hsame h).2 hnormalized
      exact ⟨⟨h, hfit hproduction⟩, rfl⟩
  next hproduction =>
    rw [finish_eq_ok, normalize_invalid]
    constructor
    · rintro ⟨h, hnormalized⟩
      exact ⟨h, (hsame h).1 hnormalized, fun h => absurd h hproduction⟩
    · rintro ⟨h, hnormalized, -⟩
      exact ⟨h, (hsame h).2 hnormalized⟩

theorem validateEnvironment_of_valid (hproduction : isProduction config)
    (hvalid : (checkProduction runtime config (normalize runtime config)).invalid = []) :
    validateEnvironment runtime config =
      .ok (checkProduction runtime config (normalize runtime config)).normalized := by
  unfold validateEnvironment
  dsimp only
  rw [if_pos hproduction, finish_eq_ok]
  exact ⟨hvalid, rfl⟩

/-- A result that production accepted is refused in production, for the keys that are no texts. -/
theorem validateEnvironment_again (hlaws : runtime.Lawful) (h : Readable runtime config)
    (hnormalized : Normalized runtime config normalized) (hproduction : isProduction config)
    (hrequired : ∀ key ∈ requiredProductionKeys, valueFor config key ≠ [])
    (hfit : Fit runtime config (normalized "POSTGRES_SSL")) :
    validateEnvironment runtime normalized = .error (.error
      ("PRODUCTION_CONFIG_INVALID:" ++ ",".intercalate
        ["JWT_ACCESS_TOKEN_EXP", "JWT_REFRESH_TOKEN_EXP", "POSTGRES_PORT", "POSTGRES_SSL"])) := by
  have hsorted : untextedKeys.reverse.insertionSort (· ≤ ·) =
      ["JWT_ACCESS_TOKEN_EXP", "JWT_REFRESH_TOKEN_EXP", "POSTGRES_PORT", "POSTGRES_SSL"] := by
    decide
  unfold validateEnvironment
  dsimp only
  rw [isProduction_eq hnormalized, if_pos hproduction, normalize_again hlaws h hnormalized,
    checkProduction_eq rfl (hnormalized.fit hlaws h hfit),
    hnormalized.missing hlaws h hfit.proxy hrequired, ← hsorted]
  rfl

/-- What is promised of a result, in production and outside of it. -/
theorem environment_validated (hlaws : runtime.Lawful)
    (h : validateEnvironment runtime config = .ok normalized) :
    Promises runtime config normalized ∧
      (isProduction config → ProductionPromises runtime normalized ∧
        validateEnvironment runtime normalized = .error (.error
          ("PRODUCTION_CONFIG_INVALID:" ++ ",".intercalate
            ["JWT_ACCESS_TOKEN_EXP", "JWT_REFRESH_TOKEN_EXP", "POSTGRES_PORT", "POSTGRES_SSL"]))) ∧
      (¬ isProduction config → validateEnvironment runtime normalized = .ok normalized) := by
  obtain ⟨hreadable, hnormalized, hproduction⟩ := validateEnvironment_eq_ok.1 h
  refine ⟨hnormalized.promises hlaws hreadable, fun hin => ?_, fun hout => ?_⟩
  · obtain ⟨hrequired, hfit⟩ := hproduction hin
    exact ⟨hnormalized.productionPromises hlaws hreadable hrequired hfit,
      validateEnvironment_again hlaws hreadable hnormalized hin hrequired hfit⟩
  · refine validateEnvironment_eq_ok.2
      ⟨hnormalized.readable hlaws hreadable, hnormalized.again hlaws hreadable, fun hin => ?_⟩
    exact absurd (isProduction_eq hnormalized ▸ hin) hout

/-! ### A production environment -/

def exampleRuntime : Runtime where
  isIP address := if address = "10.0.0.0".toList then 4 else 0
  url value := if "https://".toList.isPrefixOf value then some ⟨"https:".toList, [], []⟩ else none
  number text := if isDecimal text then some (decimal text) else none
  toLowerCase := List.map Char.toLower

theorem exampleRuntime_lawful : exampleRuntime.Lawful where
  ip_chars {address} h c hc := by
    have haddress : address = "10.0.0.0".toList := by
      by_contra hother
      exact h (if_neg hother)
    have hall : "10.0.0.0".toList.all fun c => c.isAlphanum ∨ c ∈ ".:%-".toList := by decide
    exact of_decide_eq_true (List.all_eq_true.1 hall c (haddress ▸ hc))
  ip_separator {address} h := by
    have haddress : address = "10.0.0.0".toList := by
      by_contra hother
      exact h (if_neg hother)
    have hdot : "10.0.0.0".toList.contains '.' := by decide
    exact Or.inl (haddress ▸ List.contains_iff_mem.1 hdot)
  lower_not_upper text c hc := by
    obtain ⟨c, -, rfl⟩ := List.mem_map.1 hc
    exact Char.isUpper_toLower_eq_false c
  lower_ascii text htext := by
    have hkept : text.map Char.toLower = text.map id := by
      apply List.map_congr_left
      intro c hc
      exact Char.toLower_eq_of_not_isUpper (Bool.not_eq_true _ ▸ (htext c hc).2)
    exact hkept.trans (List.map_id text)

def productionEnvironment : Configuration := fun key =>
  let values : List (String × String) :=
    [("NODE_ENV", "production"), ("POSTGRES_HOST", "postgres"), ("POSTGRES_PORT", "5432"),
      ("POSTGRES_USERNAME", "chattea"), ("POSTGRES_PASSWORD", "database-secret-at-least-16"),
      ("POSTGRES_DATABASE", "chattea"), ("POSTGRES_SSL", "true"),
      ("JWT_ACCESS_TOKEN_SECRET", "access-secret-at-least-16"),
      ("JWT_REFRESH_TOKEN_SECRET", "refresh-secret-at-least-16"), ("JWT_ACCESS_TOKEN_EXP", "15m"),
      ("JWT_REFRESH_TOKEN_EXP", "30d"), ("SIGNUP_TOKEN_SECRET", "signup-secret-at-least-16"),
      ("KAKAO_SIGNUP_TOKEN_SECRET", "kakao-secret-at-least-16"),
      ("KAKAO_CLIENT_ID", "kakao-client-id"),
      ("KAKAO_CALLBACK_URL", "https://api.example.com/auth/kakao/callback"),
      ("PHONE_CODE_PEPPER", "phone-pepper-at-least-16"),
      ("SMS_PROVIDER_URL", "https://sms.example.com/send"),
      ("SMS_PROVIDER_AUTHORIZATION", "sms-authorization-at-least-16"), ("SMS_SENDER_ID", "chattea"),
      ("R2_ACCOUNT_ID", "r2-account"), ("R2_ACCESS_KEY_ID", "r2-access"),
      ("R2_SECRET_ACCESS_KEY", "r2-secret-at-least-16"), ("R2_BUCKET", "profile-images"),
      ("R2_PUBLIC_BASE_URL", "https://images.example.com"),
      ("REVENUECAT_WEBHOOK_SECRET", "revenuecat-secret-at-least-16"),
      ("REVENUECAT_IOS_APP_ID", "app-chattea-ios"),
      ("REVENUECAT_ANDROID_APP_ID", "app-chattea-android"),
      ("CLIENT_URL", "https://app.example.com"), ("TRUST_PROXY", " Loopback, 10.0.0.0/8")]
  (values.lookup key).map fun value => .text value.toList

/-- The environment is accepted, and the proxies are written without blanks and in lower case. -/
theorem environment_validated_production : ∃ normalized,
    validateEnvironment exampleRuntime productionEnvironment = .ok normalized ∧
      normalized "TRUST_PROXY" = some (.text "loopback,10.0.0.0/8".toList) ∧
      Promises exampleRuntime productionEnvironment normalized ∧
      ProductionPromises exampleRuntime normalized := by
  have hvalid : (checkProduction exampleRuntime productionEnvironment
      (normalize exampleRuntime productionEnvironment)).invalid = [] := by decide +kernel
  have hproduction : isProduction productionEnvironment := by decide +kernel
  have hok := validateEnvironment_of_valid hproduction hvalid
  have hall := environment_validated exampleRuntime_lawful hok
  exact ⟨_, hok, by decide +kernel, hall.1, (hall.2.1 hproduction).1⟩

end ChatTea.Environment
