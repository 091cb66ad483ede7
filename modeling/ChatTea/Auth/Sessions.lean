import ChatTea.Auth.Runs

/-!
# Stored sessions

A session holds the hash of the refresh token that was issued last for its device. A
hash is stored once, by the thread that made it; when a rotation or a deletion has
removed it, no session ever has it again.

## Main definitions

* `SessionChange` — what one step does to sessions and hashes
* `SessionInvariant` — where the stored hashes come from
* `Gone` — a hash that was stored and is no longer

## Main results

* `keeps_sessionInvariant`, `keeps_gone` — they hold in every run
* `refresh_at_most_once` — refreshing under every interleaving
-/

namespace ChatTea.Auth

open History Interleaving RowLocks Table Transaction

variable {config : AuthConfig} {request : AuthRequest} {pid : ℕ} {w : World} {s : AuthState}

/-! ### What one step does to sessions -/

/-- The entries about sessions and hashes. -/
def Event.ofSession : Event → Bool
  | .hashed _ _ | .validatedSession _ _ _ | .savedSession _ _ _ | .rotatedSession _ _ _ _ => true
  | _ => false

/-- The entry of a step that stores a hash in the session of a device. -/
inductive Stores (userId : Uuid) (deviceId hash : String) : Event → Prop
  | saved : Stores userId deviceId hash (.savedSession userId deviceId hash)
  | rotated (expected) : Stores userId deviceId hash (.rotatedSession userId deviceId expected hash)

/-- The entry is one of a step that stores a hash. -/
theorem Stores.storesSession {userId : Uuid} {deviceId hash : String} {event : Event}
    (h : Stores userId deviceId hash event) : Event.storesSession event := by
  cases h <;> rfl

theorem Event.storesSession_iff {event : Event} :
    Event.storesSession event ↔ ∃ userId deviceId hash, Stores userId deviceId hash event := by
  constructor
  · intro h
    cases event with
    | savedSession userId deviceId hash => exact ⟨_, _, _, .saved⟩
    | rotatedSession userId deviceId expected next => exact ⟨_, _, _, .rotated _⟩
    | _ => cases h
  · rintro ⟨userId, deviceId, hash, h⟩
    exact h.storesSession

/-- The thread may store the hash, which it has made for a token of the device. -/
structure MayStore (config : AuthConfig) (pid : ℕ) (s : AuthState) (userId : Uuid)
    (deviceId hash : String) : Prop where
  hashed : ∃ device iat, deviceId = deviceName device ∧
    (pid, .hashed (refreshToken config userId device iat) hash) ∈ s.log
  unstored : ∀ event, (pid, event) ∈ s.log → ¬ Event.storesSession event

inductive SessionChange (config : AuthConfig) (request : AuthRequest) (pid : ℕ) (s : AuthState) :
    List Event → List RefreshToken → Prop
  | kept {events} (quiet : ∀ event ∈ events, ¬ Event.ofSession event) :
      SessionChange config request pid s events s.tables.sessions
  | deleted {events} (keep : RefreshToken → Bool) (call : ¬ request.refreshes)
      (quiet : ∀ event ∈ events, ¬ Event.ofSession event) :
      SessionChange config request pid s events (s.tables.sessions.filter keep)
  | hashed {candidate hash} (salted : ∃ salt, hash = config.bcryptHash salt candidate)
      (isNew : IsNewHash hash s.log) :
      SessionChange config request pid s [.hashed candidate hash] s.tables.sessions
  | validated {userId deviceId hash}
      (once : ∀ userId deviceId hash, (pid, .validatedSession userId deviceId hash) ∉ s.log) :
      SessionChange config request pid s [.validatedSession userId deviceId hash] s.tables.sessions
  | saved {input id} (call : ¬ request.refreshes)
      (may : MayStore config pid s input.userId input.deviceId input.refreshToken) :
      SessionChange config request pid s
        [.savedSession input.userId input.deviceId input.refreshToken]
        (putSession input id s.tables.sessions)
  | rotated {input now} (may : MayStore config pid s input.userId input.deviceId input.refreshToken)
      (validated : (pid, .validatedSession input.userId input.deviceId input.expectedRefreshToken) ∈
        s.log)
      (current : s.tables.sessions.any (canRotate input now)) :
      SessionChange config request pid s
        [.rotatedSession input.userId input.deviceId input.expectedRefreshToken input.refreshToken]
        (updateWhere (canRotate input now) (sessionColumns input.toSessionInput) s.tables.sessions)

theorem SignedBy.mayStore {userId : Uuid} {deviceId : UuidText} {hash name : String}
    (h : SignedBy config pid w userId deviceId hash) (hname : name = deviceName deviceId) :
    MayStore config pid (authState w) userId name hash := by
  obtain ⟨⟨iat, hiat⟩, hunstored⟩ := h
  exact ⟨⟨deviceId, iat, hname, hiat⟩, hunstored⟩

theorem AuthRequest.eq_refresh (h : request.refreshes) :
    ∃ userId deviceId token, request = .refresh userId deviceId token := by
  cases request with
  | refresh userId deviceId token => exact ⟨userId, deviceId, token, rfl⟩
  | _ => cases h

/-- A change as it bears on the sessions. -/
theorem AuthChange.session {trace : Trace} {tables : AuthTables}
    (h : AuthChange config request pid w trace tables) :
    SessionChange config request pid (authState w) trace.events tables.sessions := by
  cases h with
  | hashed salted isNew => exact .hashed salted isNew
  | validatedSession call once => exact .validated once
  | savedSession call busy signed name =>
      refine .saved (fun hrefreshes => ?_) (signed.mayStore name)
      exact request.not_logsIn hrefreshes call
  | rotatedSession call busy signed name validated current =>
      exact .rotated (signed.mayStore name) validated current
  | deletedSession call =>
      refine .deleted _ (fun hrefreshes => ?_) (by simp)
      obtain ⟨_, _, _, rfl⟩ := AuthRequest.eq_refresh hrefreshes
      cases call
  | resetPassword call accepted mem same unverified owner phone hashed all =>
      refine .deleted _ (fun hrefreshes => ?_) (by simp [Event.ofSession])
      obtain ⟨_, _, _, rfl⟩ := AuthRequest.eq_refresh hrefreshes
      cases call
  | managed call keeps =>
      refine .deleted _ (fun hrefreshes => ?_) (by simp)
      obtain ⟨_, _, _, rfl⟩ := AuthRequest.eq_refresh hrefreshes
      cases call
  | erased call current =>
      refine .deleted _ (fun hrefreshes => ?_) (by simp)
      rw [call] at hrefreshes
      cases hrefreshes
  | _ => exact .kept (by simp [Event.ofSession])

/-! ### Where the stored hashes come from -/

def sessionKey (session : RefreshToken) : Uuid × String := (session.userId, session.deviceId)

/-- A hash was stored in the session of some device. -/
def WasStored (hash : String) (s : AuthState) : Prop :=
  ∃ entry ∈ s.log, ∃ userId deviceId, Stores userId deviceId hash entry.2

/-- A hash was stored and no session has it any more. -/
structure Gone (hash : String) (s : AuthState) : Prop where
  stored : WasStored hash s
  gone : ∀ session ∈ s.tables.sessions, session.refreshToken ≠ hash

structure SessionInvariant (config : AuthConfig) (s : AuthState) : Prop where
  hashed_once : ∀ {p q candidate candidate' hash}, (p, .hashed candidate hash) ∈ s.log →
    (q, .hashed candidate' hash) ∈ s.log → p = q ∧ candidate = candidate'
  salted : ∀ {p candidate hash}, (p, .hashed candidate hash) ∈ s.log →
    ∃ salt, hash = config.bcryptHash salt candidate
  signed : ∀ {p userId deviceId hash event}, (p, event) ∈ s.log →
    Stores userId deviceId hash event → ∃ device iat, deviceId = deviceName device ∧
      (p, .hashed (refreshToken config userId device iat) hash) ∈ s.log
  stored_once : ∀ {p event event'}, (p, event) ∈ s.log → (p, event') ∈ s.log →
    Event.storesSession event → Event.storesSession event' → event = event'
  unique : UniqueKey sessionKey s.tables.sessions
  stored : ∀ session ∈ s.tables.sessions, ∃ entry ∈ s.log,
    Stores session.userId session.deviceId session.refreshToken entry.2
  validated_once : ∀ {p userId deviceId hash userId' deviceId' hash'},
    (p, .validatedSession userId deviceId hash) ∈ s.log →
      (p, .validatedSession userId' deviceId' hash') ∈ s.log → hash = hash'
  rotated_validated : ∀ {p userId deviceId expected next},
    (p, .rotatedSession userId deviceId expected next) ∈ s.log →
      (p, .validatedSession userId deviceId expected) ∈ s.log
  rotated_gone : ∀ {p userId deviceId expected next},
    (p, .rotatedSession userId deviceId expected next) ∈ s.log → Gone expected s
  rotated_once : ∀ {p q userId deviceId expected next userId' deviceId' next'},
    (p, .rotatedSession userId deviceId expected next) ∈ s.log →
      (q, .rotatedSession userId' deviceId' expected next') ∈ s.log → p = q

/-- A hash that a thread may store was never stored. -/
theorem MayStore.unstored_hash {userId : Uuid} {deviceId hash : String}
    (h : MayStore config pid s userId deviceId hash) (hinv : SessionInvariant config s) :
    ¬ WasStored hash s := by
  rintro ⟨⟨p, event⟩, hmem, userId', deviceId', hstores⟩
  obtain ⟨device, iat, -, hhashed⟩ := h.hashed
  obtain ⟨device', iat', -, hhashed'⟩ := hinv.signed hmem hstores
  obtain ⟨rfl, -⟩ := hinv.hashed_once hhashed' hhashed
  exact h.unstored event hmem hstores.storesSession

/-- A hash belongs to the session of one device. -/
theorem SessionInvariant.eq_of_hash (hinv : SessionInvariant config s) {session session' : RefreshToken}
    (hsession : session ∈ s.tables.sessions) (hsession' : session' ∈ s.tables.sessions)
    (hhash : session.refreshToken = session'.refreshToken) : session = session' := by
  obtain ⟨⟨p, event⟩, hmem, hstores⟩ := hinv.stored session hsession
  obtain ⟨⟨q, event'⟩, hmem', hstores'⟩ := hinv.stored session' hsession'
  obtain ⟨device, iat, -, hhashed⟩ := hinv.signed hmem hstores
  obtain ⟨device', iat', -, hhashed'⟩ := hinv.signed hmem' hstores'
  rw [← hhash] at hhashed'
  obtain ⟨rfl, -⟩ := hinv.hashed_once hhashed hhashed'
  have hevent : event = event' :=
    hinv.stored_once hmem hmem' hstores.storesSession hstores'.storesSession
  refine hinv.unique.eq_of_key hsession hsession' ?_
  dsimp only at hstores hstores'
  rw [← hevent] at hstores'
  -- One entry stores in the session of one device.
  unfold sessionKey
  generalize session.userId = userId, session.deviceId = deviceId, session.refreshToken = hash,
    session'.userId = userId', session'.deviceId = deviceId', session'.refreshToken = hash'
    at hstores hstores'
  cases hstores <;> cases hstores' <;> rfl

theorem mem_putSession {input : SessionInput} {id : RowId} {sessions : List RefreshToken}
    {session : RefreshToken} (h : session ∈ putSession input id sessions) :
    session ∈ sessions ∨ (session.userId = input.userId ∧ session.deviceId = input.deviceId ∧
      session.refreshToken = input.refreshToken) := by
  unfold putSession at h
  split at h
  · rcases mem_updateWhere.1 h with ⟨old, hold, hcond, rfl⟩ | ⟨hold, -⟩
    · have hsame := of_decide_eq_true hcond
      exact Or.inr ⟨hsame.1, hsame.2, rfl⟩
    · exact Or.inl hold
  · rcases List.mem_append.1 h with hold | hnew
    · exact Or.inl hold
    · obtain rfl := List.mem_singleton.1 hnew
      exact Or.inr ⟨rfl, rfl, rfl⟩

theorem UniqueKey.putSession {input : SessionInput} {id : RowId} {sessions : List RefreshToken}
    (h : UniqueKey sessionKey sessions) : UniqueKey sessionKey (putSession input id sessions) := by
  unfold Auth.putSession
  split
  · exact h.updateWhere fun _ => rfl
  · rename_i hnone
    refine h.append fun session hmem hsame => hnone (List.any_eq_true.2 ⟨session, hmem, ?_⟩)
    exact decide_eq_true (Prod.mk.inj hsame)

section Change

variable {trace : Trace} {tables : AuthTables} {hash : String}

theorem WasStored.enter (h : WasStored hash s) : WasStored hash (s.enter pid trace tables) := by
  obtain ⟨entry, hmem, hstores⟩ := h
  exact ⟨entry, List.mem_append_right _ hmem, hstores⟩

/-- A session after a change is an old one, or has a hash that was never stored. -/
theorem SessionChange.session_of_mem (hinv : SessionInvariant config s)
    (hchange : SessionChange config request pid s trace.events tables.sessions)
    {session : RefreshToken} (hmem : session ∈ tables.sessions) :
    session ∈ s.tables.sessions ∨ (¬ WasStored session.refreshToken s ∧
      ∃ event ∈ trace.events, Stores session.userId session.deviceId session.refreshToken event) := by
  obtain ⟨accounts, events⟩ := trace
  obtain ⟨users, sessions, identities, verifications, phoneTokens, kakaoTokens⟩ := tables
  dsimp only at hchange hmem ⊢
  cases hchange with
  | kept quiet => exact Or.inl hmem
  | deleted keep call quiet => exact Or.inl (List.mem_of_mem_filter hmem)
  | hashed salted isNew => exact Or.inl hmem
  | validated once => exact Or.inl hmem
  | saved call may =>
      rcases mem_putSession hmem with hold | ⟨huser, hdevice, hhash⟩
      · exact Or.inl hold
      · rw [huser, hdevice, hhash]
        exact Or.inr ⟨may.unstored_hash hinv, _, List.mem_singleton_self _, .saved⟩
  | rotated may validated current =>
      rcases mem_updateWhere.1 hmem with ⟨old, hold, hcond, rfl⟩ | ⟨hold, -⟩
      · have hcond := of_decide_eq_true hcond
        obtain ⟨huser, hdevice⟩ := of_decide_eq_true hcond.1
        refine Or.inr ⟨may.unstored_hash hinv, _, List.mem_singleton_self _, ?_⟩
        rw [← huser, ← hdevice]
        exact .rotated _
      · exact Or.inl hold

/-- A hash that has gone does not come back. -/
theorem Gone.enter (hinv : SessionInvariant config s) (h : Gone hash s)
    (hchange : SessionChange config request pid s trace.events tables.sessions) :
    Gone hash (s.enter pid trace tables) := by
  refine ⟨h.stored.enter, fun session hmem hsame => ?_⟩
  rcases hchange.session_of_mem hinv hmem with hold | ⟨hnew, -⟩
  · exact h.gone session hold hsame
  · rw [hsame] at hnew
    exact hnew h.stored

/-- The hash that a rotation expects has gone when it has been replaced. -/
theorem gone_of_rotated (hinv : SessionInvariant config s)
    (hchange : SessionChange config request pid s trace.events tables.sessions)
    {userId : Uuid} {deviceId expected next : String}
    (hevent : .rotatedSession userId deviceId expected next ∈ trace.events) :
    Gone expected (s.enter pid trace tables) ∧ ¬ Gone expected s ∧
      (pid, .validatedSession userId deviceId expected) ∈ s.log := by
  obtain ⟨accounts, events⟩ := trace
  obtain ⟨users, sessions, identities, verifications, phoneTokens, kakaoTokens⟩ := tables
  dsimp only at hchange hevent
  cases hchange with
  | kept quiet => exact absurd rfl (quiet _ hevent)
  | deleted keep call quiet => exact absurd rfl (quiet _ hevent)
  | hashed salted isNew => cases List.mem_singleton.1 hevent
  | validated once => cases List.mem_singleton.1 hevent
  | saved call may => cases List.mem_singleton.1 hevent
  | @rotated input now may validated current =>
      obtain ⟨rfl, rfl, rfl, rfl⟩ := Event.rotatedSession.inj (List.mem_singleton.1 hevent)
      obtain ⟨row, hrow, hcan⟩ := List.any_eq_true.1 current
      have hexpected : row.refreshToken = input.expectedRefreshToken :=
        (of_decide_eq_true hcan).2.1
      have hstored : WasStored input.expectedRefreshToken s := by
        obtain ⟨entry, hmem, hstores⟩ := hinv.stored row hrow
        rw [hexpected] at hstores
        exact ⟨entry, hmem, _, _, hstores⟩
      refine ⟨⟨hstored.enter, fun session hmem hsame => ?_⟩, fun hgone => ?_, validated⟩
      · rcases mem_updateWhere.1 hmem with ⟨old, hold, hcond, rfl⟩ | ⟨hold, hkept⟩
        · have hnew : ¬ WasStored input.refreshToken s := may.unstored_hash hinv
          have hsame : input.refreshToken = input.expectedRefreshToken := hsame
          rw [hsame] at hnew
          exact hnew hstored
        · -- The row that the update has met is the only one with its hash.
          rw [hinv.eq_of_hash hold hrow (hsame.trans hexpected.symm)] at hkept
          exact hkept hcan
      · exact hgone.gone row hrow hexpected

/-- A hash that a change enters is new. -/
theorem SessionChange.of_hashed {events : List Event} {sessions : List RefreshToken} {candidate : Text}
    (h : SessionChange config request pid s events sessions)
    (hevent : .hashed candidate hash ∈ events) : events = [.hashed candidate hash] ∧
      IsNewHash hash s.log ∧ ∃ salt, hash = config.bcryptHash salt candidate := by
  cases h with
  | kept quiet => exact absurd rfl (quiet _ hevent)
  | deleted keep call quiet => exact absurd rfl (quiet _ hevent)
  | hashed salted isNew =>
      obtain ⟨rfl, rfl⟩ := Event.hashed.inj (List.mem_singleton.1 hevent)
      exact ⟨rfl, isNew, salted⟩
  | _ => cases List.mem_singleton.1 hevent

/-- A hash that a change stores is one its thread may store. -/
theorem SessionChange.of_stores {events : List Event} {sessions : List RefreshToken} {userId : Uuid}
    {deviceId : String} {event : Event} (h : SessionChange config request pid s events sessions)
    (hevent : event ∈ events) (hstores : Stores userId deviceId hash event) :
    events = [event] ∧ MayStore config pid s userId deviceId hash := by
  have hsession : Event.ofSession event := by cases hstores <;> rfl
  cases h with
  | kept quiet => exact absurd hsession (quiet _ hevent)
  | deleted keep call quiet => exact absurd hsession (quiet _ hevent)
  | saved call may =>
      obtain rfl := List.mem_singleton.1 hevent
      cases hstores
      exact ⟨rfl, may⟩
  | rotated may validated current =>
      obtain rfl := List.mem_singleton.1 hevent
      cases hstores
      exact ⟨rfl, may⟩
  | _ =>
      obtain rfl := List.mem_singleton.1 hevent
      cases hstores

theorem SessionChange.of_validated {events : List Event} {sessions : List RefreshToken}
    {userId : Uuid} {deviceId : String} (h : SessionChange config request pid s events sessions)
    (hevent : .validatedSession userId deviceId hash ∈ events) :
    events = [.validatedSession userId deviceId hash] ∧
      ∀ userId deviceId hash, (pid, .validatedSession userId deviceId hash) ∉ s.log := by
  cases h with
  | kept quiet => exact absurd rfl (quiet _ hevent)
  | deleted keep call quiet => exact absurd rfl (quiet _ hevent)
  | validated once =>
      obtain ⟨rfl, rfl, rfl⟩ := Event.validatedSession.inj (List.mem_singleton.1 hevent)
      exact ⟨rfl, once⟩
  | _ => cases List.mem_singleton.1 hevent

theorem SessionChange.unique {events : List Event} {sessions : List RefreshToken}
    (h : SessionChange config request pid s events sessions)
    (hunique : UniqueKey sessionKey s.tables.sessions) : UniqueKey sessionKey sessions := by
  cases h with
  | deleted keep call quiet => exact hunique.sublist (List.filter_sublist.map _)
  | saved call may => exact UniqueKey.putSession hunique
  | rotated may validated current => exact hunique.updateWhere fun _ => rfl
  | _ => exact hunique

theorem SessionInvariant.enter (hinv : SessionInvariant config s)
    (h : SessionChange config request pid s trace.events tables.sessions) :
    SessionInvariant config (s.enter pid trace tables) where
  hashed_once := by
    intro p q candidate candidate' hash hp hq
    rw [AuthState.mem_enter] at hp hq
    rcases hp with ⟨rfl, hp⟩ | hp <;> rcases hq with ⟨rfl, hq⟩ | hq
    · rw [(h.of_hashed hp).1] at hq
      obtain ⟨rfl, -⟩ := Event.hashed.inj (List.mem_singleton.1 hq)
      exact ⟨rfl, rfl⟩
    · exact absurd rfl ((h.of_hashed hp).2.1 _ hq _)
    · exact absurd rfl ((h.of_hashed hq).2.1 _ hp _)
    · exact hinv.hashed_once hp hq
  salted := by
    intro p candidate hash hp
    rw [AuthState.mem_enter] at hp
    rcases hp with ⟨rfl, hp⟩ | hp
    · exact (h.of_hashed hp).2.2
    · exact hinv.salted hp
  signed := by
    intro p userId deviceId hash event hp hstores
    have hsigned : ∃ device iat, deviceId = deviceName device ∧
        (p, .hashed (refreshToken config userId device iat) hash) ∈ s.log := by
      rw [AuthState.mem_enter] at hp
      rcases hp with ⟨rfl, hp⟩ | hp
      · exact (h.of_stores hp hstores).2.hashed
      · exact hinv.signed hp hstores
    obtain ⟨device, iat, hname, hhashed⟩ := hsigned
    exact ⟨device, iat, hname, AuthState.mem_enter.2 (Or.inr hhashed)⟩
  stored_once := by
    intro p event event' hp hp' hstores hstores'
    obtain ⟨userId, deviceId, hash, hstores⟩ := Event.storesSession_iff.1 hstores
    obtain ⟨userId', deviceId', hash', hstores'⟩ := Event.storesSession_iff.1 hstores'
    rw [AuthState.mem_enter] at hp hp'
    rcases hp with ⟨rfl, hp⟩ | hp <;> rcases hp' with ⟨hpid, hp'⟩ | hp'
    · rw [(h.of_stores hp hstores).1] at hp'
      exact (List.mem_singleton.1 hp').symm
    · exact absurd hstores'.storesSession ((h.of_stores hp hstores).2.unstored _ hp')
    · rw [hpid] at hp
      exact absurd hstores.storesSession ((h.of_stores hp' hstores').2.unstored _ hp)
    · exact hinv.stored_once hp hp' hstores.storesSession hstores'.storesSession
  unique := h.unique hinv.unique
  stored := by
    intro session hmem
    rcases h.session_of_mem hinv hmem with hold | ⟨-, event, hevent, hstores⟩
    · obtain ⟨entry, hentry, hstores⟩ := hinv.stored session hold
      exact ⟨entry, List.mem_append_right _ hentry, hstores⟩
    · exact ⟨(pid, event), AuthState.mem_enter.2 (Or.inl ⟨rfl, hevent⟩), hstores⟩
  validated_once := by
    intro p userId deviceId hash userId' deviceId' hash' hp hp'
    rw [AuthState.mem_enter] at hp hp'
    rcases hp with ⟨rfl, hp⟩ | hp <;> rcases hp' with ⟨hpid, hp'⟩ | hp'
    · rw [(h.of_validated hp).1] at hp'
      exact (Event.validatedSession.inj (List.mem_singleton.1 hp')).2.2.symm
    · exact absurd hp' ((h.of_validated hp).2 _ _ _)
    · rw [hpid] at hp
      exact absurd hp ((h.of_validated hp').2 _ _ _)
    · exact hinv.validated_once hp hp'
  rotated_validated := by
    intro p userId deviceId expected next hp
    refine AuthState.mem_enter.2 (Or.inr ?_)
    rw [AuthState.mem_enter] at hp
    rcases hp with ⟨rfl, hp⟩ | hp
    · exact (gone_of_rotated hinv h hp).2.2
    · exact hinv.rotated_validated hp
  rotated_gone := by
    intro p userId deviceId expected next hp
    rw [AuthState.mem_enter] at hp
    rcases hp with ⟨rfl, hp⟩ | hp
    · exact (gone_of_rotated hinv h hp).1
    · exact (hinv.rotated_gone hp).enter hinv h
  rotated_once := by
    intro p q userId deviceId expected next userId' deviceId' next' hp hq
    rw [AuthState.mem_enter] at hp hq
    rcases hp with ⟨rfl, hp⟩ | hp <;> rcases hq with ⟨hpid, hq⟩ | hq
    · exact hpid.symm
    · exact absurd (hinv.rotated_gone hq) (gone_of_rotated hinv h hp).2.1
    · exact absurd (hinv.rotated_gone hp) (gone_of_rotated hinv h hq).2.1
    · exact hinv.rotated_once hp hq

end Change

theorem keeps_sessionInvariant : Keeps config anyStep (SessionInvariant config) where
  change := fun _ hchange _ _ hinv => hinv.enter hchange.session
  forget := fun _ hinv => ⟨hinv.hashed_once, hinv.salted, hinv.signed, hinv.stored_once, hinv.unique,
    hinv.stored, hinv.validated_once, hinv.rotated_validated,
    fun hmem => ⟨(hinv.rotated_gone hmem).stored, (hinv.rotated_gone hmem).gone⟩, hinv.rotated_once⟩

theorem sessionInvariant_start {db : Database} (h : db.refreshTokens = []) :
    SessionInvariant config (startState db) where
  hashed_once := fun hp _ => absurd hp List.not_mem_nil
  salted := fun hp => absurd hp List.not_mem_nil
  signed := fun hp _ => absurd hp List.not_mem_nil
  stored_once := fun hp _ _ _ => absurd hp List.not_mem_nil
  unique := by
    have hnone : (startState db).tables.sessions = [] := h
    rw [hnone]
    exact List.nodup_nil
  stored := by
    intro session hmem
    have hmem : session ∈ db.refreshTokens := hmem
    rw [h] at hmem
    cases hmem
  validated_once := fun hp _ => absurd hp List.not_mem_nil
  rotated_validated := fun hp => absurd hp List.not_mem_nil
  rotated_gone := fun hp => absurd hp List.not_mem_nil
  rotated_once := fun hp _ => absurd hp List.not_mem_nil

/-! ### Revoked tokens -/

/-- What `validateUserRefreshToken` makes of the session it finds. -/
def validated (config : AuthConfig) (db : Database) (userId : Uuid) (deviceId : UuidText)
    (token : Text) (now : Timestamp) : Option RefreshToken :=
  (db.refreshTokens.find? (isSession userId (deviceName deviceId))).bind
    (acceptSession config token now)

/-- A refresh token that was issued for a device, and that a rotation or a deletion has
revoked; the one that is stored now is another one. -/
structure Revoked (config : AuthConfig) (userId : Uuid) (deviceId : UuidText) (token : Text)
    (w : World) : Prop where
  issued : ∃ iat, token = refreshToken config userId deviceId iat
  gone : ∃ pid hash, (pid, .hashed token hash) ∈ w.log ∧ Gone hash (authState w)
  replaced : ∀ session ∈ w.db.refreshTokens, isSession userId (deviceName deviceId) session →
    ∀ pid, (pid, .hashed token session.refreshToken) ∉ w.log

/-- A session accepts every refresh token of its user until it expires. -/
theorem SessionInvariant.accepts (hinv : SessionInvariant config (authState w))
    {session : RefreshToken} (hmem : session ∈ w.db.refreshTokens) (deviceId : UuidText) (iat : ℤ)
    {now : Timestamp} (hunexpired : now < session.refreshTokenExp) :
    acceptSession config (refreshToken config session.userId deviceId iat) now session =
      some session := by
  obtain ⟨entry, hentry, hstores⟩ := hinv.stored session hmem
  obtain ⟨device, iat', -, hhashed⟩ := hinv.signed hentry hstores
  obtain ⟨salt, hhash⟩ := hinv.salted hhashed
  have hcompare : config.bcryptCompare (refreshToken config session.userId deviceId iat)
      session.refreshToken = true := by
    rw [hhash]
    exact config.compare_of_prefix _ _ _ (take_refreshToken config session.userId _ _ _ _)
  rw [acceptSession, if_neg (not_le.2 hunexpired), if_pos hcompare]

/-- A revoked refresh token is rejected exactly if its device has no session that has
not expired. -/
theorem revoked_rejected_iff (config : AuthConfig) (db : Database) (hnew : db.refreshTokens = [])
    (c : Config World AuthRequest Failure AuthReply) (hrun : AuthRun config anyStep db c) :
    ∀ userId deviceId token now, Revoked config userId deviceId token c.state →
      (validated config c.state.db userId deviceId token now = none ↔
        ∀ session ∈ c.state.db.refreshTokens, isSession userId (deviceName deviceId) session →
          session.refreshTokenExp ≤ now) := by
  intro userId deviceId token now hrevoked
  have hinv : SessionInvariant config (authState c.state) :=
    hrun.keeps keeps_sessionInvariant (sessionInvariant_start hnew)
  obtain ⟨iat, rfl⟩ := hrevoked.issued
  unfold validated
  constructor
  · intro hrejected session hmem hsession
    by_contra hunexpired
    obtain ⟨found, hfound⟩ := Option.isSome_iff_exists.1 (List.find?_isSome.2 ⟨session, hmem, hsession⟩)
    -- A device has one session, so the one that is found has not expired either.
    have hsame : found = session := by
      have hother := List.find?_some hfound
      have hother := of_decide_eq_true hother
      have hsession := of_decide_eq_true hsession
      refine hinv.unique.eq_of_key (List.mem_of_find?_eq_some hfound) hmem ?_
      exact Prod.ext (hother.1.trans hsession.1.symm) (hother.2.trans hsession.2.symm)
    have huser : session.userId = userId := (of_decide_eq_true hsession).1
    have haccepted := hinv.accepts hmem deviceId iat (lt_of_not_ge hunexpired)
    rw [hfound, hsame, Option.bind_some, ← huser, haccepted] at hrejected
    cases hrejected
  · intro hexpired
    cases hfound : c.state.db.refreshTokens.find? (isSession userId (deviceName deviceId)) with
    | none => rfl
    | some session =>
        have hexp := hexpired session (List.mem_of_find?_eq_some hfound) (List.find?_some hfound)
        rw [Option.bind_some, acceptSession, if_pos hexp]

/-- A device and, by the same text, the account of someone Kakao knows. -/
def oneDevice : UuidText where
  text := "a0000000-0000-4000-8000-000000000001".toList
  wellFormed := rfl

def kakaoUserId : Uuid := oneDevice.toUuid

def kakaoUser : User := { User.visible kakaoUserId with phone := some "+821012345678" }

def kakaoAccount : Database :=
  { Database.ofUsers [kakaoUser] with authIdentities := [⟨kakaoUserId, "kakao", "1"⟩] }

/-- The hash of the refresh token of a second. -/
def hashAt (salt : ℕ) (iat : ℤ) : String :=
  plainHash salt (refreshToken .plain kakaoUserId oneDevice iat)

def sessionAt (salt : ℕ) (iat : ℤ) : RefreshToken where
  id := 0
  userId := kakaoUserId
  deviceId := deviceName oneDevice
  refreshToken := hashAt salt iat
  refreshTokenExp := (iat + 1209600) * 1000

def kakaoLogin : AuthRequest := .loginWithKakaoAccessToken "kakao".toList oneDevice

def kakaoTokens : AuthReply :=
  .tokens kakaoUserId
    ⟨sign .plain "access".toList (accessClaims kakaoUserId 5 905),
      refreshToken .plain kakaoUserId oneDevice 5⟩

/-- The account after a login at the fifth second. -/
def loggedIn : World :=
  { World.ofDatabase { kakaoAccount with refreshTokens := [sessionAt 0 5], nextRowId := 1 } with
    log := [(0, .issuedTokens kakaoUserId),
      (0, .savedSession kakaoUserId (deviceName oneDevice) (hashAt 0 5)),
      (0, .hashed (refreshToken .plain kakaoUserId oneDevice 5) (hashAt 0 5))] }

theorem free_of_unlocked {mode : Mode} {row : LockedRow} : Free [] pid mode row :=
  fun _ hmem => absurd hmem List.not_mem_nil

theorem loggedIn_run : AuthRun .plain anyStep kakaoAccount
    ⟨loggedIn, [⟨kakaoLogin, .done kakaoTokens⟩]⟩ := by
  let before : World := .ofDatabase kakaoAccount
  let busy : World := { before with reading := [(0, kakaoUserId)] }
  let hashed : World := { busy with
    log := [(0, .hashed (refreshToken .plain kakaoUserId oneDevice 5) (hashAt 0 5))] }
  let saved : World := { hashed with
    db := { kakaoAccount with refreshTokens := [sessionAt 0 5], nextRowId := 1 }
    log := (0, .savedSession kakaoUserId (deviceName oneDevice) (hashAt 0 5)) :: hashed.log }
  have hfree : ∀ row ∈ ([] : List LockedRow), Free [] 0 .keyShare row := fun _ _ => free_of_unlocked
  have halone : ∀ lock ∈ ([] : List (Lock LockedRow)), lock.holder = 0 := by decide
  have hstart : AuthRun .plain anyStep kakaoAccount ⟨before, []⟩ := Relation.ReflTransGen.refl
  refine hstart.serve trivial trivial ?_
  refine .step (some ⟨"1".toList, none, none⟩) before rfl trivial ?_
  refine .step (.ok (some ⟨kakaoUserId, "kakao", "1"⟩)) busy (Locks.locked hfree) trivial ?_
  refine .step (.ok (some kakaoUser)) busy (Locks.locked hfree) trivial ?_
  refine .step 5000 busy ⟨trivial, rfl⟩ trivial ?_
  refine .step (.ok false) busy (Executes.returned rfl (World.unlocked_of_alone halone _)) trivial ?_
  refine .step 5000 busy ⟨trivial, rfl⟩ trivial ?_
  refine .step 5000 busy ⟨trivial, rfl⟩ trivial ?_
  have hnew : IsNewHash (hashAt 0 5) busy.log := fun _ hmem => absurd hmem List.not_mem_nil
  refine .step (hashAt 0 5) hashed ⟨⟨0, rfl⟩, hnew, rfl⟩ trivial ?_
  refine .step (.ok ()) saved ⟨(), trivial, .committed rfl (World.unlocked_of_alone halone _)⟩
    trivial ?_
  refine .step () _ rfl trivial ?_
  exact .step () _ rfl trivial .refl

def kakaoRefresh : AuthRequest :=
  .refresh kakaoUserId oneDevice (refreshToken .plain kakaoUserId oneDevice 5)

def refreshedTokens : AuthReply :=
  .tokens kakaoUserId
    ⟨sign .plain "access".toList (accessClaims kakaoUserId 6 906),
      refreshToken .plain kakaoUserId oneDevice 6⟩

/-- The account after a refresh at the sixth second. -/
def refreshed : World :=
  { World.ofDatabase { kakaoAccount with refreshTokens := [sessionAt 1 6], nextRowId := 1 } with
    log := [(1, .issuedTokens kakaoUserId),
      (1, .rotatedSession kakaoUserId (deviceName oneDevice) (hashAt 0 5) (hashAt 1 6)),
      (1, .hashed (refreshToken .plain kakaoUserId oneDevice 6) (hashAt 1 6)),
      (1, .validatedSession kakaoUserId (deviceName oneDevice) (hashAt 0 5))] ++ loggedIn.log }

theorem hashAt_ne {salt salt' : ℕ} {iat iat' : ℤ} (h : salt ≠ salt') : hashAt salt iat ≠ hashAt salt' iat' :=
  fun hsame => h (AuthConfig.plain.bcryptHash_salt _ _ _ _ hsame)

/-- The session is found and the token accepted. -/
theorem validateSession_runs {w : World} {userId : Uuid} {deviceId : UuidText} {token : Text}
    {session : RefreshToken} (now : Timestamp) (hnow : w.clocks now)
    (hfound : w.db.refreshTokens.find? (isSession userId (deviceName deviceId)) = some session)
    (haccepted : acceptSession config token now session = some session) :
    Runs anyStep pid (validateSession config userId deviceId token : Prog World AuthRequest _ _) w
      (.done session)
      (w.note pid ⟨[session.userId],
        [.validatedSession userId (deviceName deviceId) session.refreshToken]⟩) := by
  let found : World := w.note pid { accounts := [session.userId] }
  refine .step (.ok (some session)) found (Locks.found hfound) trivial ?_
  refine .step now found ⟨hnow, rfl⟩ trivial ?_
  refine .step () _ rfl trivial ?_
  change Runs anyStep pid (MonadExcept.ofExcept (requireFound (.error "refresh token is wrong")
    (acceptSession config token now session))) (found.note pid { events :=
      ((acceptSession config token now session).map fun session =>
        .validatedSession userId (deviceName deviceId) session.refreshToken).toList }) _ _
  rw [haccepted]
  exact .refl

theorem reachable_refreshed : Reachable (authSystem .plain) anyStep
    ⟨loggedIn, [⟨kakaoLogin, .done kakaoTokens⟩]⟩
    ⟨refreshed, [⟨kakaoLogin, .done kakaoTokens⟩, ⟨kakaoRefresh, .done refreshedTokens⟩]⟩ := by
  refine Reachable.serve Relation.ReflTransGen.refl trivial trivial ?_
  have hfound : loggedIn.db.refreshTokens.find? (isSession kakaoUserId (deviceName oneDevice)) =
      some (sessionAt 0 5) := List.find?_cons_of_pos (decide_eq_true ⟨rfl, rfl⟩)
  have haccepted : acceptSession .plain (refreshToken .plain kakaoUserId oneDevice 5) 6000
      (sessionAt 0 5) = some (sessionAt 0 5) := by
    have hcompare : AuthConfig.plain.bcryptCompare (refreshToken .plain kakaoUserId oneDevice 5)
        (hashAt 0 5) = true := AuthConfig.plain.compare_of_prefix _ _ _ rfl
    have hunexpired : ¬ (sessionAt 0 5).refreshTokenExp ≤ 6000 := by decide
    rw [acceptSession, if_neg hunexpired]
    exact if_pos hcompare
  refine (((validateSession_runs 6000 trivial hfound haccepted).bind _).tryCatch _).bind _ |>.trans ?_
  let validated : World := { loggedIn with
    reading := [(1, kakaoUserId)]
    log := (1, .validatedSession kakaoUserId (deviceName oneDevice) (hashAt 0 5)) :: loggedIn.log }
  let hashed : World := { validated with
    log := (1, .hashed (refreshToken .plain kakaoUserId oneDevice 6) (hashAt 1 6)) :: validated.log }
  let locked : World := hashed.withLocks [⟨1, .update, .user kakaoUserId⟩]
  let rotated : World := { hashed with
    db := { kakaoAccount with refreshTokens := [sessionAt 1 6], nextRowId := 1 }
    log := (1, .rotatedSession kakaoUserId (deviceName oneDevice) (hashAt 0 5) (hashAt 1 6)) ::
      hashed.log }
  have hfree : ∀ lock ∈ ([] : List (Lock LockedRow)), lock.holder = 1 := by decide
  have halone : ∀ lock ∈ locked.locks, lock.holder = 1 := by decide
  refine .step (.ok (some kakaoUser)) validated (Locks.found rfl) trivial ?_
  refine .step 6000 validated ⟨trivial, rfl⟩ trivial ?_
  refine .step 6000 validated ⟨trivial, rfl⟩ trivial ?_
  have hnew : IsNewHash (hashAt 1 6) validated.log := by
    intro entry hmem candidate hentry
    simp only [validated, loggedIn, List.mem_cons, List.not_mem_nil, or_false] at hmem
    rcases hmem with rfl | rfl | rfl | rfl
    · cases hentry
    · cases hentry
    · cases hentry
    · exact hashAt_ne (by decide) (Event.hashed.inj hentry).2
  refine .step (hashAt 1 6) hashed ⟨⟨1, rfl⟩, hnew, rfl⟩ trivial ?_
  refine .step (.ok true) locked (Locks.locked fun _ _ => free_of_alone hfree) trivial ?_
  refine .step 6000 locked ⟨trivial, rfl⟩ trivial ?_
  let input : RotateInput :=
    ⟨⟨kakaoUserId, deviceName oneDevice, hashAt 1 6, 1209606000⟩, hashAt 0 5⟩
  have hcan : canRotate input 6000 (sessionAt 0 5) = true :=
    decide_eq_true ⟨decide_eq_true ⟨rfl, rfl⟩, rfl, by decide⟩
  have hrotates : writeRotation input 6000 locked.db = .ok (true, rotated.db) := by
    have hsessions : locked.db.refreshTokens = [sessionAt 0 5] := rfl
    rw [writeRotation, hsessions, List.any_cons, hcan, updateWhere, List.map_singleton, if_pos hcan]
    rfl
  refine .step (.ok true) rotated
    ⟨(), trivial, .committed hrotates (World.unlocked_of_alone halone _)⟩ trivial ?_
  refine .step () _ rfl trivial ?_
  exact .step () _ rfl trivial .refl

theorem refreshed_run : AuthRun .plain anyStep kakaoAccount
    ⟨refreshed, [⟨kakaoLogin, .done kakaoTokens⟩, ⟨kakaoRefresh, .done refreshedTokens⟩]⟩ :=
  Relation.ReflTransGen.trans loggedIn_run reachable_refreshed

theorem gone_refreshed : Gone (hashAt 0 5) (authState refreshed) where
  stored := ⟨(0, .savedSession kakaoUserId (deviceName oneDevice) (hashAt 0 5)),
    by simp [authState, refreshed, loggedIn], _, _, .saved⟩
  gone := by
    intro session hmem
    obtain rfl := List.mem_singleton.1 hmem
    exact hashAt_ne (by decide)

theorem revoked_refreshed : Revoked .plain kakaoUserId oneDevice
    (refreshToken .plain kakaoUserId oneDevice 5) refreshed where
  issued := ⟨5, rfl⟩
  gone := ⟨0, hashAt 0 5, by simp [refreshed, loggedIn], gone_refreshed⟩
  replaced := by
    intro session hmem _ pid hhashed
    obtain rfl := List.mem_singleton.1 hmem
    have hother : refreshToken .plain kakaoUserId oneDevice 5 ≠
        refreshToken .plain kakaoUserId oneDevice 6 := by decide +kernel
    have hhash : hashAt 1 6 ≠ hashAt 0 5 := hashAt_ne (by decide)
    simp [refreshed, loggedIn, hother, sessionAt, hhash] at hhashed

/-- The token of the login is revoked by the refresh, and is accepted after it. -/
theorem revoked_token_accepted :
    AuthRun .plain anyStep kakaoAccount
        ⟨refreshed, [⟨kakaoLogin, .done kakaoTokens⟩, ⟨kakaoRefresh, .done refreshedTokens⟩]⟩ ∧
      Revoked .plain kakaoUserId oneDevice (refreshToken .plain kakaoUserId oneDevice 5) refreshed ∧
      validated .plain refreshed.db kakaoUserId oneDevice
        (refreshToken .plain kakaoUserId oneDevice 5) 7000 ≠ none := by
  refine ⟨refreshed_run, revoked_refreshed, fun hrejected => ?_⟩
  have hfound : refreshed.db.refreshTokens.find? (isSession kakaoUserId (deviceName oneDevice)) =
      some (sessionAt 1 6) := List.find?_cons_of_pos (decide_eq_true ⟨rfl, rfl⟩)
  have haccepted : acceptSession .plain (refreshToken .plain kakaoUserId oneDevice 5) 7000
      (sessionAt 1 6) = some (sessionAt 1 6) := by
    have hcompare : AuthConfig.plain.bcryptCompare (refreshToken .plain kakaoUserId oneDevice 5)
        (hashAt 1 6) = true :=
      AuthConfig.plain.compare_of_prefix _ _ _ (take_refreshToken .plain kakaoUserId _ _ _ _)
    have hunexpired : ¬ (sessionAt 1 6).refreshTokenExp ≤ 7000 := by decide
    rw [acceptSession, if_neg hunexpired]
    exact if_pos hcompare
  rw [validated, hfound, Option.bind_some, haccepted] at hrejected
  cases hrejected

/-- It is rejected when the session that took its place has expired. -/
theorem revoked_rejected_iff_refreshed :
    validated .plain refreshed.db kakaoUserId oneDevice
        (refreshToken .plain kakaoUserId oneDevice 5) 1209606000 = none ↔
      ∀ session ∈ refreshed.db.refreshTokens, isSession kakaoUserId (deviceName oneDevice) session →
        session.refreshTokenExp ≤ 1209606000 :=
  revoked_rejected_iff .plain kakaoAccount rfl _ refreshed_run kakaoUserId oneDevice _ _
    revoked_refreshed

/-! ### Refreshing -/

/-- A hash has gone, and who rotated away from it did so before. -/
def GoneSince (hash : String) (log : List (ℕ × Event)) (s : AuthState) : Prop :=
  Gone hash s ∧ ∀ p userId deviceId next, (p, .rotatedSession userId deviceId hash next) ∈ s.log →
    (p, .rotatedSession userId deviceId hash next) ∈ log

theorem keeps_goneSince (config : AuthConfig) (hash : String) (log : List (ℕ × Event)) :
    Keeps config anyStep fun s => SessionInvariant config s ∧ GoneSince hash log s where
  change := by
    rintro request pid w trace tables after - hchange - - ⟨hinv, hgone, hsince⟩
    refine ⟨hinv.enter hchange.session, hgone.enter hinv hchange.session, ?_⟩
    intro p userId deviceId next hmem
    rw [AuthState.mem_enter] at hmem
    rcases hmem with ⟨rfl, hnew⟩ | hold
    · exact absurd hgone (gone_of_rotated hinv hchange.session hnew).2.1
    · exact hsince p userId deviceId next hold
  forget := fun hreading h =>
    ⟨keeps_sessionInvariant.forget hreading h.1, ⟨h.2.1.stored, h.2.1.gone⟩, h.2.2⟩

theorem keeps_wasStored (config : AuthConfig) (hash : String) :
    Keeps config anyStep fun s => SessionInvariant config s ∧ WasStored hash s where
  change := fun _ hchange _ _ h => ⟨h.1.enter hchange.session, h.2.enter⟩
  forget := fun hreading h => ⟨keeps_sessionInvariant.forget hreading h.1, h.2⟩

/-- What a step of a refresh does to the sessions: nothing, or it replaces the hash that
its thread has validated, and says so. -/
inductive RefreshStep (pid : ℕ) (before after : World) : Prop
  | kept (sessions : after.db.refreshTokens = before.db.refreshTokens)
  | rotated {userId deviceId expected next} (exp : Timestamp)
      (validated : (pid, .validatedSession userId deviceId expected) ∈ before.log)
      (entered : after.log = (pid, .rotatedSession userId deviceId expected next) :: before.log)
      (current : ∃ session ∈ before.db.refreshTokens, session.userId = userId ∧
        session.deviceId = deviceId ∧ session.refreshToken = expected)
      (sessions : after.db.refreshTokens =
        updateWhere (fun session => session.refreshToken = expected)
          (fun session => { session with refreshToken := next, refreshTokenExp := exp })
          before.db.refreshTokens)

theorem SessionChange.refreshStep {before after : World} {events : List Event}
    (hinv : SessionInvariant config (authState before))
    (h : SessionChange config request pid (authState before) events after.db.refreshTokens)
    (hlog : after.log = stamp pid events ++ before.log) (hcall : request.refreshes) :
    RefreshStep pid before after := by
  generalize hsessions : after.db.refreshTokens = sessions at h
  cases h with
  | deleted keep call quiet => exact absurd hcall call
  | saved call may => exact absurd hcall call
  | @rotated input now may validated current =>
      obtain ⟨row, hrow, hcan⟩ := List.any_eq_true.1 current
      obtain ⟨hsession, hexpected, -⟩ := of_decide_eq_true hcan
      obtain ⟨huser, hdevice⟩ := of_decide_eq_true hsession
      refine .rotated input.refreshTokenExp validated hlog
        ⟨row, hrow, huser, hdevice, hexpected⟩ ?_
      rw [hsessions]
      refine updateWhere_congr fun old hold => ?_
      -- The row that is current is the only one with its hash.
      by_cases hsame : old.refreshToken = input.expectedRefreshToken
      · rw [hinv.eq_of_hash hold hrow (hsame.trans hexpected.symm), hcan]
        exact (decide_eq_true hexpected).symm
      · rw [decide_eq_false hsame]
        exact decide_eq_false fun hcan => hsame hcan.2.1
  | _ => exact .kept hsessions

/-- Of the refreshes that have validated one stored hash at most one succeeds; a step of
a refresh replaces the hash that was validated or changes no session; and when a rotation
or a deletion has removed a stored hash, no session has it again, and no refresh that has
validated it rotates any more. -/
theorem refresh_at_most_once (config : AuthConfig) (db : Database) (hnew : db.refreshTokens = [])
    (c : Config World AuthRequest Failure AuthReply) (hrun : AuthRun config anyStep db c) :
    (∀ p q userId device token reply userId' device' token' reply' user name hash user' name'
        payload payload',
      c.threads[p]? = some ⟨.refresh userId device token, .done (.tokens reply payload)⟩ →
        c.threads[q]? = some ⟨.refresh userId' device' token', .done (.tokens reply' payload')⟩ →
          (p, .validatedSession user name hash) ∈ c.state.log →
            (q, .validatedSession user' name' hash) ∈ c.state.log → p = q) ∧
      (∀ (β : Type) (act : ℕ → World → β → World → Prop) next pid userId device token reply after,
        c.threads[pid]? = some ⟨.refresh userId device token, .step act next⟩ →
          act pid c.state reply after → RefreshStep pid c.state after) ∧
      ∀ session ∈ c.state.db.refreshTokens, ∀ c' c'',
        Reachable (authSystem config) anyStep c c' →
          (∀ other ∈ c'.state.db.refreshTokens, other.refreshToken ≠ session.refreshToken) →
            Reachable (authSystem config) anyStep c' c'' →
              GoneSince session.refreshToken c'.state.log (authState c''.state) := by
  have hinv : SessionInvariant config (authState c.state) :=
    hrun.keeps keeps_sessionInvariant (sessionInvariant_start hnew)
  refine ⟨?_, ?_, ?_⟩
  · intro p q userId device token reply userId' device' token' reply' user name hash user' name'
      payload payload' hp hq hvalidated hvalidated'
    obtain ⟨-, hrotated⟩ := hrun.answered hp reply payload rfl
    obtain ⟨-, hrotated'⟩ := hrun.answered hq reply' payload' rfl
    obtain ⟨deviceId, expected, next, hmem⟩ := hrotated rfl
    obtain ⟨deviceId', expected', next', hmem'⟩ := hrotated' rfl
    rw [mem_own] at hmem hmem'
    -- Each has rotated away from the hash it has validated.
    have hexpected : hash = expected :=
      hinv.validated_once hvalidated (hinv.rotated_validated hmem)
    have hexpected' : hash = expected' :=
      hinv.validated_once hvalidated' (hinv.rotated_validated hmem')
    rw [← hexpected] at hmem
    rw [← hexpected'] at hmem'
    exact hinv.rotated_once hmem hmem'
  · intro β act next pid userId device token reply after hthread hact
    obtain ⟨hchange, -⟩ := hrun.step hthread hact
    rcases hchange with ⟨trace, hchange, hlog, -⟩ | ⟨htables, -, -⟩
    · exact hchange.session.refreshStep hinv hlog rfl
    · exact .kept (congrArg AuthTables.sessions htables)
  · intro session hsession c' c'' hreach hremoved hreach'
    have hstored : WasStored session.refreshToken (authState c.state) := by
      obtain ⟨entry, hmem, hstores⟩ := hinv.stored session hsession
      exact ⟨entry, hmem, _, _, hstores⟩
    obtain ⟨hinv', hstored'⟩ :=
      (keeps_wasStored config session.refreshToken).reachable hrun.good hreach ⟨hinv, hstored⟩
    have hgood' : (authLogic config).Good c' :=
      (sound config).reachable hrun.good (Reachable.weaken hreach fun _ _ _ => trivial)
    have hkept := (keeps_goneSince config session.refreshToken c'.state.log).reachable hgood' hreach'
      ⟨hinv', ⟨hstored', hremoved⟩, fun _ _ _ _ hmem => hmem⟩
    exact hkept.2

/-- The hash of the login has gone since the refresh. -/
theorem refresh_at_most_once_refreshed :
    AuthRun .plain anyStep kakaoAccount ⟨loggedIn, [⟨kakaoLogin, .done kakaoTokens⟩]⟩ ∧
      GoneSince (hashAt 0 5) refreshed.log (authState refreshed) := by
  have hsafe := refresh_at_most_once .plain kakaoAccount rfl _ loggedIn_run
  have hgone := hsafe.2.2 (sessionAt 0 5) (List.mem_singleton_self _) _ _ reachable_refreshed
    gone_refreshed.gone Relation.ReflTransGen.refl
  exact ⟨loggedIn_run, hgone⟩

end ChatTea.Auth
