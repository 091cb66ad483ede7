import ChatTea.Auth.Rules

/-!
# The authentication calls, step by step

Every step of every call is one of the changes; a call that returns tokens has entered
so. The repository calls come first, each with what the thread knows when it returns.

## Main results

* `holds_issueTokens`, `holds_lockPhoneToken`, `holds_guessCode` and so on — the parts
* `sound` — the whole system
-/

namespace ChatTea.Auth

open History Interleaving Phone RowLocks Table Transaction Users

variable {config : AuthConfig} {request : AuthRequest} {pid : ℕ} {w : World} {known : Known}
  {events : List Event} {accounts : List Uuid}

/-- What a thread has returned tokens for is not undone by others. -/
theorem stable_answered {reply : AuthReply} :
    (authLogic config).Stable pid (Answered request pid reply) :=
  fun _ _ hrely _ h userId payload hreply => by
    rw [hrely.events]
    exact h userId payload hreply

/-- A reply without tokens answers for nothing. -/
theorem answered_of_ne {reply : AuthReply} (hreply : ∀ userId payload, reply ≠ .tokens userId payload) :
    Answered request pid reply w :=
  fun userId payload h => absurd h (hreply userId payload)

/-- An authorisation is an entry of the thread's own, which others leave alone. -/
theorem stable_authorised : (authLogic config).Stable pid (Authorised request pid) := by
  intro s before hrely _ h purposes hcall
  rw [hrely.events]
  exact h purposes hcall

/-- A thread takes no entry of its own back. -/
theorem AuthStep.mem_own {before after : World} {event : Event}
    (h : AuthStep config request pid before after) (hmem : event ∈ own pid before.log) :
    event ∈ own pid after.log := by
  rcases h.change with ⟨trace, -, hlog, -⟩ | ⟨-, hlog, -⟩
  · rw [hlog, own_stamp_append_self]
    exact List.mem_append_right _ hmem
  · rw [hlog]
    exact hmem

/-- A thread that was authorised stays so. -/
theorem AuthStep.authorised {before after : World} (h : AuthStep config request pid before after)
    (hbefore : Authorised request pid before) : Authorised request pid after := by
  intro purposes hcall
  obtain ⟨id, event, hsucceeds, hmem⟩ := hbefore purposes hcall
  exact ⟨id, event, hsucceeds, h.mem_own hmem⟩

/-- A call that returns no tokens. -/
theorem holds_reply {reply : AuthReply} (hreply : ∀ userId payload, reply ≠ .tokens userId payload) :
    (authLogic config).Holds request pid (pure reply : Prog World AuthRequest Failure AuthReply)
      (Answered request pid) (fun _ _ => True) w :=
  Logic.holds_pure (stable_answered.later (answered_of_ne hreply))

/-- The end of a transaction changes nothing that the thread knows. -/
theorem holds_endTransaction {β : Type} {value : β} (h : At pid known w) :
    (authLogic config).Holds request pid (endTransaction value)
      (fun result s => result = value ∧ At pid (known.commit {}) s) (fun _ _ => True) w := by
  refine holds_record (fun result => result = value) h fun before result db _ hcall => ?_
  obtain ⟨rfl, rfl⟩ := Prod.mk.inj (pure_eq_ok_iff.1 hcall)
  exact ⟨.nothing, rfl⟩

/-! ### Sessions -/

/-- The calls that refresh a session do not save one. -/
theorem AuthRequest.not_logsIn (request : AuthRequest) (h : request.refreshes) :
    ¬ request.logsIn := by
  cases request with
  | refresh userId deviceId token => exact Bool.false_ne_true
  | _ => cases h

theorem AuthRequest.uses_of_refreshes (h : request.refreshes) : request.uses config = none := by
  cases request with
  | refresh userId deviceId token => rfl
  | _ => cases h

theorem AuthRequest.uses_of_guesses {purposes : List String}
    (h : request.guesses = some purposes) : request.uses config = none := by
  cases request with
  | verifyPhoneCode input deviceId => rfl
  | resetPasswordWithPhone input => rfl
  | _ => cases h

/-- Among what a thread has entered are the tokens that its call is to use up. -/
def HasSpent (config : AuthConfig) (request : AuthRequest) (events : List Event) : Prop :=
  ∀ phone kakao, request.uses config = some (phone, kakao) →
    ∃ created, .consumedTokens ⟨phone, kakao, created⟩ ∈ events

/-- A call without tokens has none to use up. -/
theorem hasSpent_of_none (h : request.uses config = none) : HasSpent config request events := by
  intro phone kakao hcall
  rw [h] at hcall
  cases hcall

/-- The entry of a consumption shows what the call has used up. -/
theorem hasSpent_of_mem {phone kakao : Option String} {created : Option Uuid}
    (h : request.uses config = some (phone, kakao))
    (hmem : .consumedTokens ⟨phone, kakao, created⟩ ∈ events) : HasSpent config request events := by
  intro phone' kakao' hcall
  obtain ⟨rfl, rfl⟩ := Prod.mk.inj (Option.some.inj (h.symm.trans hcall))
  exact ⟨created, hmem⟩

theorem HasSpent.mono {later : List Event} (h : HasSpent config request events)
    (hlater : events ⊆ later) : HasSpent config request later := by
  intro phone kakao hcall
  obtain ⟨created, hmem⟩ := h phone kakao hcall
  exact ⟨created, hlater hmem⟩

/-- What a thread knows of its consumption is in the history. -/
theorem HasSpent.spent (h : HasSpent config request known.events) (hat : At pid known w) :
    Spent config request pid w := by
  intro phone kakao hcall
  obtain ⟨created, hmem⟩ := h phone kakao hcall
  exact ⟨created, hat.mem.2 hmem⟩

/-- What storing a session leaves. -/
theorem saveRefreshToken_ok {input : SessionInput} {before after : Database} {done : Unit}
    (h : saveRefreshToken input before = .ok (done, after)) :
    authTables after = { authTables before with
      sessions := putSession input before.nextRowId before.refreshTokens } := by
  obtain ⟨-, -, h⟩ := bind_eq_ok_iff.1 h
  obtain ⟨-, rfl⟩ := Prod.mk.inj (pure_eq_ok_iff.1 h)
  rfl

/-- The hash of a signed token, which the thread has not stored. -/
def HasSigned (config : AuthConfig) (known : Known) (userId : Uuid) (deviceId : UuidText)
    (hash : String) : Prop :=
  (∃ iat, .hashed (refreshToken config userId deviceId iat) hash ∈ known.events) ∧
    ∀ event ∈ known.events, ¬ Event.storesSession event

/-- The thread that signed a token is the one that its entry names. -/
theorem HasSigned.signedBy {userId : Uuid} {deviceId : UuidText} {hash : String}
    (h : HasSigned config known userId deviceId hash) (hat : At pid known w) :
    SignedBy config pid w userId deviceId hash := by
  obtain ⟨⟨iat, hiat⟩, hunstored⟩ := h
  exact ⟨⟨iat, hat.mem.2 hiat⟩, fun event hevent => hunstored event (hat.mem.1 hevent)⟩

/-- Signing and hashing the token of a session. -/
theorem holds_session {user : User} {userId : Uuid} {deviceId : UuidText} (huser : user.userId = userId)
    (h : At pid known w) (hunstored : ∀ event ∈ known.events, ¬ Event.storesSession event)
    {β : Type} {returns : β → World → Prop}
    {rest : SignedToken → SessionInput → Prog World AuthRequest Failure β}
    (hrest : ∀ token session s, session.userId = userId → session.deviceId = deviceName deviceId →
      HasSigned config { known with events := .hashed token.text session.refreshToken :: known.events }
        userId deviceId session.refreshToken →
      At pid { known with events := .hashed token.text session.refreshToken :: known.events } s →
        (authLogic config).Holds request pid (rest token session) returns (fun _ _ => True) s) :
    (authLogic config).Holds request pid
      (do
        let token ← createRefreshToken config user deviceId
        let session ← prepareRefreshToken config userId deviceId token
        rest token session) returns (fun _ _ => True) w := by
  subst huser
  refine holds_via (fun token s => At pid known s ∧
      ∃ iat, token.text = refreshToken config user.userId deviceId iat) ?_ ?_
  · refine holds_time fun now => Logic.holds_pure ?_
    exact fun s hrely _ => ⟨h.keep hrely, _, rfl⟩
  · rintro token s ⟨hat, iat, htoken⟩
    refine holds_via (fun session s => session.userId = user.userId ∧
        session.deviceId = deviceName deviceId ∧ At pid { known with
          events := .hashed token.text session.refreshToken :: known.events } s) ?_ ?_
    · refine holds_check fun _ _ => holds_then (holds_hash hat) fun hash s hhash => ?_
      exact Logic.holds_pure fun s' hrely _ => ⟨rfl, rfl, hhash.2.keep hrely⟩
    · rintro session s ⟨huser, hdevice, hat⟩
      refine hrest token session s huser hdevice ⟨⟨iat, ?_⟩, ?_⟩ hat
      · rw [← htoken]
        exact List.mem_cons_self
      · intro event hevent
        rcases List.mem_cons.1 hevent with rfl | hold
        · exact Bool.false_ne_true
        · exact hunstored event hold

/-- Signing an access token changes no table. -/
theorem holds_createAccessToken {user : User} (h : At pid known w) :
    (authLogic config).Holds request pid (createAccessToken config user)
      (fun _ => At pid known) (fun _ _ => True) w :=
  holds_time fun _ => Logic.holds_pure (stable_at.later h)

/-- The last steps of a call that returns tokens. -/
theorem holds_issued {userId : Uuid} {payload : TokenPayload} (h : At pid known w)
    (hbusy : userId ∈ known.accounts) (hspent : HasSpent config request known.events)
    (hrotated : request.refreshes → ∃ deviceId expected next,
      .rotatedSession userId deviceId expected next ∈ known.events) :
    (authLogic config).Holds request pid
      (do
        note [.issuedTokens userId]
        return AuthReply.tokens userId payload) (Answered request pid) (fun _ _ => True) w := by
  refine holds_then (holds_entry h fun before hbefore =>
    .issuedTokens (hbefore.busy hbusy) (hspent.spent hbefore)) ?_
  intro _ s hat
  refine Logic.holds_pure (stable_answered.later fun userId' payload' hreply => ?_)
  obtain ⟨rfl, -⟩ := AuthReply.tokens.inj hreply
  rw [hat.events]
  refine ⟨List.mem_cons_self, fun hcall => ?_⟩
  obtain ⟨deviceId, expected, next, hmem⟩ := hrotated hcall
  exact ⟨deviceId, expected, next, List.mem_cons_of_mem _ hmem⟩

/-- Tokens are returned once the session is stored and its entry made. -/
theorem holds_issueTokens {user : User} {deviceId : UuidText} (hcall : request.logsIn)
    (h : At pid known w) (hbusy : user.userId ∈ known.accounts)
    (hspent : HasSpent config request known.events)
    (hunstored : ∀ event ∈ known.events, ¬ Event.storesSession event) :
    (authLogic config).Holds request pid (issueTokens config user deviceId) (Answered request pid)
      (fun _ _ => True) w := by
  refine holds_then (holds_createAccessToken h) fun accessToken s hat => ?_
  refine holds_session rfl hat hunstored fun token session s huser hdevice hsigned hat => ?_
  refine holds_then (holds_record (fun _ => True) hat fun before _ db hbefore hok => ?_) ?_
  · rw [saveRefreshToken_ok hok]
    rw [← huser] at hsigned hbusy
    exact ⟨.savedSession hcall (hbefore.busy hbusy) (hsigned.signedBy hbefore) hdevice, trivial⟩
  · rintro _ s ⟨-, hat⟩
    refine holds_issued hat hbusy (hspent.mono fun event hmem => ?_)
      fun hrefreshes => absurd hcall (request.not_logsIn hrefreshes)
    exact List.mem_cons_of_mem _ (List.mem_cons_of_mem _ hmem)

/-- A session that is found was stored under its user and device. -/
theorem holds_findSession {userId : Uuid} {deviceId : String} (h : At pid known w)
    (hfirst : ∀ user, .foundByEmail user ∉ known.events) :
    (authLogic config).Holds request pid (findRefreshToken userId deviceId)
      (fun found s => (∀ session ∈ found, isSession userId deviceId session) ∧
        At pid (known.note { accounts := (found.map RefreshToken.userId).toList }) s)
      (fun _ _ => True) w := by
  refine holds_find (fun found => ∀ session ∈ found, isSession userId deviceId session) h
    fun before hbefore => ?_
  cases hfound : before.db.refreshTokens.find? (isSession userId deviceId) with
  | none => exact ⟨.nothing, fun _ hmem => by cases hmem⟩
  | some session =>
      have hmem := List.mem_of_find?_eq_some hfound
      refine ⟨.found (.session session hmem rfl) fun user => ?_, ?_⟩
      · rw [hbefore.mem]
        exact hfirst user
      · rintro _ ⟨⟩
        exact List.find?_some hfound

/-- What a thread knows when it has validated a session. -/
def validatedAt (userId : Uuid) (deviceId : UuidText) (session : RefreshToken) : Known :=
  ⟨[.validatedSession userId (deviceName deviceId) session.refreshToken], [userId], []⟩

/-- A session that has been validated is one of its user, which keeps the thread busy. -/
theorem holds_validateSession {userId : Uuid} {deviceId : UuidText} {token : Text}
    (hcall : request.refreshes ∨ request.logsOut) (h : At pid {} w) :
    (authLogic config).Holds request pid (validateSession config userId deviceId token)
      (fun session => At pid (validatedAt userId deviceId session)) (fun _ _ => True) w := by
  refine holds_via (fun validated s => ∀ session ∈ validated,
      At pid (validatedAt userId deviceId session) s) ?_ fun validated s hvalidated => ?_
  · refine holds_then (holds_findSession h fun _ => List.not_mem_nil) fun found s hfound => ?_
    obtain ⟨hsession, hat⟩ := hfound
    cases found with
    | none => exact Logic.holds_pure fun _ _ _ _ hmem => by cases hmem
    | some saved =>
        have hsame : saved.userId = userId := by
          have hsaved := hsession saved rfl
          simp only [isSession, decide_eq_true_eq] at hsaved
          exact hsaved.1
        have hat : At pid ⟨[], [userId], []⟩ s := by
          rw [← hsame]
          exact hat
        refine holds_time fun now => ?_
        cases haccepted : acceptSession config token now saved with
        | none =>
            refine holds_then (holds_entry hat fun _ _ => .nothing) fun _ _ _ => ?_
            exact Logic.holds_pure fun _ _ _ _ hmem => by cases hmem
        | some session =>
            refine holds_then (holds_entry hat fun before hbefore => ?_) fun _ s hat => ?_
            · refine .validatedSession hcall fun userId' deviceId' hash hmem => ?_
              rw [hbefore.mem] at hmem
              exact List.not_mem_nil hmem
            · refine Logic.holds_pure fun later hrely _ session' hsession => ?_
              obtain rfl := Option.mem_some.1 hsession
              exact hat.keep hrely
  · cases validated with
    | none => exact holds_ofExcept (fun _ hok => by cases hok) fun _ _ => later_true
    | some session =>
        refine holds_ofExcept (fun value hok => ?_) fun _ _ => later_true
        obtain rfl := Except.ok.inj hok
        exact stable_at.later (hvalidated session rfl)

/-- What a rotation leaves. -/
theorem writeRotation_ok {input : RotateInput} {now : Timestamp} {before after : Database}
    {rotated : Bool} (h : writeRotation input now before = .ok (rotated, after)) :
    rotated = before.refreshTokens.any (canRotate input now) ∧
      authTables after = { authTables before with
        sessions := updateWhere (canRotate input now) (sessionColumns input.toSessionInput)
          before.refreshTokens } := by
  obtain ⟨hrotated, rfl⟩ := Prod.mk.inj (pure_eq_ok_iff.1 h)
  exact ⟨hrotated.symm, rfl⟩

/-- A rotation comes after the validation of the hash it replaces. -/
theorem holds_rotate {input : RotateInput} {deviceId : UuidText} (hcall : request.refreshes)
    (h : At pid known w) (hbusy : input.userId ∈ known.accounts)
    (hvalidated :
      .validatedSession input.userId input.deviceId input.expectedRefreshToken ∈ known.events)
    (hname : input.deviceId = deviceName deviceId)
    (hsigned : HasSigned config known input.userId deviceId input.refreshToken) :
    (authLogic config).Holds request pid (rotateRefreshToken input)
      (fun rotated => At pid (known.commit (rotationTrace input rotated))) (fun _ _ => True) w := by
  refine holds_body ?_
  refine holds_then (holds_lockRows (fun _ => True) (fun _ => []) h rfl
    fun before _ => ⟨.nothing, trivial, fun _ hmem => by cases hmem⟩) ?_
  rintro found s ⟨-, hat⟩
  -- Without a row of the user the transaction ends and nothing has been rotated.
  split
  · refine (holds_endTransaction hat).mono ?_ fun _ _ _ h => h
    rintro rotated s _ ⟨rfl, hat⟩
    exact hat
  · refine holds_time fun now => ?_
    refine (holds_record (fun _ => True) hat fun before rotated db hbefore hok => ?_).mono
      (fun _ _ _ hrotated => hrotated.2) fun _ _ _ h => h
    obtain ⟨rfl, hdb⟩ := writeRotation_ok hok
    refine ⟨?_, trivial⟩
    rw [hdb]
    cases hany : before.db.refreshTokens.any (canRotate input now) with
    | true =>
        exact .rotatedSession hcall (hbefore.busy hbusy) (hsigned.signedBy hbefore) hname
          (hbefore.mem.2 hvalidated) hany
    | false =>
        have hnone : ∀ session ∈ before.db.refreshTokens, ¬ canRotate input now session := by
          simpa using hany
        rw [updateWhere_of_forall_not hnone]
        exact .nothing

/-- Looking an account up changes nothing. -/
theorem holds_findUser {userId : Uuid} (h : At pid known w) :
    (authLogic config).Holds request pid (find (fun _ => {}) (findUser userId))
      (fun found s => (∀ user : User, user ∈ found → user.userId = userId) ∧ At pid known s)
      (fun _ _ => True) w := by
  refine holds_find (fun found => ∀ user : User, user ∈ found → user.userId = userId) h fun before _ => ?_
  refine ⟨.nothing, fun user hmem => ?_⟩
  exact (mem_of_lookup hmem).2

/-- A refresh: the token is validated, then rotated, then answered with. -/
theorem holds_refresh {userId : Uuid} {deviceId : UuidText} {token : Text}
    (hcall : request.refreshes) (h : At pid {} w) :
    (authLogic config).Holds request pid (refresh config userId deviceId token) (Answered request pid)
      (fun _ _ => True) w := by
  refine holds_then (holds_validateSession (Or.inl hcall) h) fun validated s hat => ?_
  refine holds_then (holds_findUser hat) fun found s hfound => ?_
  obtain ⟨hsame, hat⟩ := hfound
  refine holds_check fun user huser => ?_
  have huser : user.userId = userId := by
    cases found with
    | none => cases huser
    | some found =>
        obtain rfl := Except.ok.inj huser
        exact hsame found rfl
  refine holds_then (holds_createAccessToken hat) fun accessToken s hat => ?_
  refine holds_session huser hat (by simp [validatedAt, Event.storesSession]) ?_
  intro token session s hsession hdevice hsigned hat
  have hvalidated : Event.validatedSession session.userId session.deviceId validated.refreshToken ∈
      (Event.hashed token.text session.refreshToken :: (validatedAt userId deviceId validated).events) := by
    rw [hsession, hdevice]
    exact List.mem_cons_of_mem _ List.mem_cons_self
  have hsigned : HasSigned config { validatedAt userId deviceId validated with
      events := .hashed token.text session.refreshToken ::
        (validatedAt userId deviceId validated).events } session.userId deviceId
      session.refreshToken := by
    rw [hsession]
    exact hsigned
  have hbusy : session.userId ∈ (validatedAt userId deviceId validated).accounts := by
    rw [hsession]
    exact List.mem_cons_self
  refine holds_then (holds_rotate hcall hat hbusy hvalidated hdevice hsigned) ?_
  intro rotated s hat
  refine holds_check fun _ hrotated => ?_
  obtain rfl : rotated = true := by simpa using throwIf_eq_ok_iff.1 hrotated
  refine holds_issued hat List.mem_cons_self (hasSpent_of_none (AuthRequest.uses_of_refreshes hcall))
    fun _ => ?_
  rw [← hsession]
  exact ⟨_, _, _, List.mem_cons_self⟩

/-- A logout deletes the session whose token was validated. -/
theorem holds_logout {userId : Uuid} {deviceId : UuidText} {token : Text}
    (hcall : request.logsOut) (h : At pid {} w) :
    (authLogic config).Holds request pid (logout config userId deviceId token) (Answered request pid)
      (fun _ _ => True) w := by
  refine holds_then (holds_validateSession (Or.inr hcall) h) fun validated s hat => ?_
  refine holds_then (holds_record (fun _ => True) hat fun before done db _ hok => ?_) ?_
  · obtain ⟨-, rfl⟩ := Prod.mk.inj (pure_eq_ok_iff.1 hok)
    exact ⟨.deletedSession hcall, trivial⟩
  · exact fun _ _ _ => holds_reply fun _ _ => AuthReply.noConfusion

/-! ### Accounts -/

/-- A write of accounts that leaves their credentials and the sessions alone. -/
theorem authChange_users {cond : User → Bool} {set : User → User} (hcall : request.manages)
    (hset : KeepsCredentials set) : AuthChange config request pid w {}
      { authTables w.db with users := updateWhere cond set w.db.users } := by
  have hall : w.db.refreshTokens.filter (fun _ => true) = w.db.refreshTokens := by simp
  have hchange : AuthChange config request pid w {} { authTables w.db with
      users := updateWhere cond set w.db.users
      sessions := w.db.refreshTokens.filter fun _ => true } := .managed hcall hset
  rw [hall] at hchange
  exact hchange

/-- A restoration is one of the changes, and the thread knows what it knew. -/
theorem holds_restore {userId : UuidText} (hcall : request.manages)
    (h : At pid ⟨events, accounts, []⟩ w) :
    (authLogic config).Holds request pid (restoreIfWithinGrace userId)
      (fun _ => At pid ⟨events, accounts, []⟩) (fun _ _ => True) w := by
  refine holds_check fun _ _ => holds_time fun now => ?_
  refine holds_account h fun before found db hok => ?_
  obtain ⟨-, rfl⟩ := Prod.mk.inj (pure_eq_ok_iff.1 hok)
  exact authChange_users hcall ⟨fun _ => rfl, fun _ => rfl, fun _ => rfl, fun _ => rfl, fun _ => rfl⟩

/-- Each step that schedules a deletion is one of the changes. -/
theorem holds_beginAccountDeletion {userId : UuidText} (hcall : request.manages) :
    (authLogic config).Holds request pid (beginAccountDeletion userId) (fun _ _ => True)
      (fun _ _ => True) w := by
  refine holds_time fun now => holds_check fun _ _ => ?_
  refine holds_via (fun _ _ => True) (holds_query (fun _ => True) later_true
    (fun _ _ _ => later_true) fun _ _ _ _ => later_true) fun user s _ => holds_check fun _ _ => ?_
  refine holds_scheduling lockNeutral fun now completedAt scheduled sessions tokenIds s => ?_
  refine holds_ending (fun _ => True) later_true fun before _ db _ hok => ?_
  obtain ⟨-, rfl⟩ := Prod.mk.inj (pure_eq_ok_iff.1 hok)
  cases scheduled with
  | true =>
      exact .managed hcall
        ⟨fun _ => rfl, fun _ => rfl, fun _ => rfl, fun _ => rfl, fun _ => rfl⟩
  | false =>
      have hsame : updateWhere (fun _ => false) id before.db.users = before.db.users :=
        updateWhere_of_forall_not fun _ _ => Bool.false_ne_true
      have hchange : AuthChange config request pid before {} { authTables before.db with
          users := updateWhere (fun _ => false) id before.db.users
          sessions := before.db.refreshTokens.filter fun session => session.id ∉ sessions } :=
        .managed hcall ⟨fun _ => rfl, fun _ => rfl, fun _ => rfl, fun _ => rfl, fun _ => rfl⟩
      rw [hsame] at hchange
      exact hchange

/-- Each step of an erasure, or of the release of its claim, is one of the changes. -/
theorem holds_deletionJob {input : DeletionJobInput} (hcall : request = .deletionJob input) :
    (authLogic config).Holds request pid (deletionJob input) (fun _ _ => True) (fun _ _ => True)
      w := by
  refine holds_catch ?_ fun failure s => ?_
  · refine holds_anonymization lockNeutral (fun matchRooms s hclaimed => ?_) fun _ _ => later_true
    refine holds_ending _ hclaimed fun before _ db hbefore hok => ?_
    have hdb := writeAnonymized_ok hok
    have htables : authTables db = { authTables before.db with
        users := updateWhere (fun user => user.userId = input.userId) (anonymizeColumns input.now)
          before.db.users
        sessions := before.db.refreshTokens.filter fun session => session.userId ≠ input.userId
        identities := before.db.authIdentities.filter fun row => row.userId ≠ input.userId } := by
      simp only [authTables, hdb.users, hdb.sessions, hdb.identities, hdb.verifications,
        hdb.phoneTokens, hdb.kakaoTokens]
    rw [htables]
    exact .erased hcall hbefore.claimed
  · have hmanages : request.manages := by rw [hcall]; rfl
    refine (holds_account at_own fun before _ db hok => ?_).mono (fun _ _ _ _ => trivial)
      fun _ _ _ _ => trivial
    obtain ⟨-, rfl⟩ := Prod.mk.inj (pure_eq_ok_iff.1 hok)
    exact authChange_users hmanages
      ⟨fun _ => rfl, fun _ => rfl, fun _ => rfl, fun _ => rfl, fun _ => rfl⟩

/-- Each step that claims accounts is one of the changes. -/
theorem holds_claimDeletions {input : ClaimDeletionInput} (hcall : request.manages) :
    (authLogic config).Holds request pid (claimDeletions input) (fun _ _ => True)
      (fun _ _ => True) w := by
  refine Logic.Holds.mono (holds_choosing _ (stable_at.later at_own)
    fun before candidates hbefore hinv _ => callChecks_account hinv hbefore fun claim db hok => ?_)
      (fun _ _ _ _ => trivial) fun _ _ _ h => h
  unfold claimDueDeletionBatch at hok
  split at hok
  · obtain ⟨-, rfl⟩ := Prod.mk.inj (pure_eq_ok_iff.1 hok)
    exact .nothing
  · obtain ⟨-, rfl⟩ := Prod.mk.inj (pure_eq_ok_iff.1 hok)
    exact authChange_users hcall
      ⟨fun _ => rfl, fun _ => rfl, fun _ => rfl, fun _ => rfl, fun _ => rfl⟩

/-- Each step of the batch that claims and erases is one of the changes. -/
theorem holds_deletionBatch {now : Timestamp} {limit : ℕ} (hcall : request.manages) :
    (authLogic config).Holds request pid (processDueAccountDeletionBatch .deletionJob now limit)
      (fun _ _ => True) (fun _ _ => True) w := by
  refine holds_check fun _ _ => holds_then (holds_claimDeletions hcall) fun claimed s _ => ?_
  refine holds_via (fun _ _ => True) ?_ fun _ _ _ => Logic.holds_pure later_true
  exact Logic.holds_forkAll (fun _ => True) stable_true trivial (fun _ _ _ _ _ => trivial)
    fun _ _ _ => trivial

/-! ### Tokens -/

/-- A phone token that is found usable has its entry. -/
theorem holds_findPhoneToken {token : Text} (h : At pid known w) :
    (authLogic config).Holds request pid (requirePhoneVerificationToken config token)
      (fun found s => found.tokenHash = config.hashToken token ∧
        At pid (known.note { events := [.foundPhoneToken found] }) s) (fun _ _ => True) w := by
  refine holds_via (fun found s => (∀ row ∈ found, row.tokenHash = config.hashToken token) ∧
    At pid (known.note { events := (found.map Event.foundPhoneToken).toList }) s) ?_ ?_
  · refine holds_time fun now => holds_find
      (fun found : Option PhoneVerificationToken =>
        ∀ row ∈ found, row.tokenHash = config.hashToken token) h fun before _ => ?_
    cases hfound : before.db.phoneVerificationTokens.find?
        (usableToken (config.hashToken token) now) with
    | none => exact ⟨.nothing, fun _ hmem => by cases hmem⟩
    | some row =>
        refine ⟨.foundPhoneToken (List.mem_of_find?_eq_some hfound), ?_⟩
        rintro _ ⟨⟩
        have husable := List.find?_some hfound
        simp only [usableToken, decide_eq_true_eq] at husable
        exact husable.1
  · rintro found s ⟨hhash, hat⟩
    cases found with
    | none => exact holds_ofExcept (fun _ hok => by cases hok) fun _ _ => later_true
    | some row =>
        refine holds_ofExcept (fun value hok => ?_) fun _ _ => later_true
        obtain rfl := Except.ok.inj hok
        exact (stable_and stable_at).later ⟨hhash row rfl, hat⟩

/-- A locked phone token is the one that is used up. -/
theorem usesPhone_of_kept {use : UseInput} {row : PhoneVerificationToken} (hat : At pid known w)
    (hrow : .phoneToken row ∈ known.rows) (husable : usableToken use.tokenHash use.now row) :
    UsesPhone w.db.phoneVerificationTokens (some use.tokenHash)
      (usePhoneTokens use w.db).phoneVerificationTokens :=
  .some use ⟨row, hat.has hrow, husable⟩

/-- A locked Kakao token is the one that is used up. -/
theorem usesKakao_of_kept {use : UseInput} {row : KakaoPhoneVerificationToken} (hat : At pid known w)
    (hrow : .kakaoToken row ∈ known.rows) (husable : usableKakaoToken use.tokenHash use.now row) :
    UsesKakao w.db.kakaoPhoneVerificationTokens (some use.tokenHash)
      (useKakaoTokens use w.db).kakaoPhoneVerificationTokens :=
  .some use ⟨row, hat.has hrow, husable⟩

/-- A phone token that a transaction has found usable stays locked, and so usable. -/
theorem holds_lockPhoneToken {token : Text} (h : At pid known w) :
    (authLogic config).Holds request pid (lockPhoneToken config token)
      (fun locked s => (locked.1.tokenHash = config.hashToken token ∧
          ∀ row ∈ locked.2, usableToken locked.1.tokenHash locked.1.now row) ∧
        At pid (known.lock (locked.2.toList.map .phoneToken)) s) (fun _ _ => True) w := by
  refine holds_time fun usedAt => holds_time fun now => holds_then
    (holds_lockRows (fun found : Option PhoneVerificationToken =>
        ∀ row ∈ found, usableToken (config.hashToken token) now row)
      (fun found => found.toList.map .phoneToken) h rfl fun before _ => ⟨.nothing, ?_, ?_⟩) ?_
  · exact fun row hmem => List.find?_some hmem
  · intro row hmem
    obtain ⟨found, hfound, rfl⟩ := List.mem_map.1 hmem
    have hsome := Option.mem_toList.1 hfound
    have hrow := List.mem_of_find?_eq_some hsome
    exact ⟨hrow, List.mem_map.2 ⟨found, List.mem_filter.2 ⟨hrow, List.find?_some hsome⟩, rfl⟩⟩
  · rintro found s ⟨husable, hat⟩
    exact Logic.holds_pure ((stable_and stable_at).later ⟨⟨rfl, husable⟩, hat⟩)

/-- A Kakao token that a transaction has found usable stays locked, and so usable. -/
theorem holds_lockKakaoToken {token : Text} (h : At pid known w) :
    (authLogic config).Holds request pid (lockKakaoToken config token)
      (fun locked s => (locked.1.tokenHash = config.hashToken token ∧
          ∀ row ∈ locked.2, usableKakaoToken locked.1.tokenHash locked.1.now row) ∧
        At pid (known.lock (locked.2.toList.map .kakaoToken)) s) (fun _ _ => True) w := by
  refine holds_time fun usedAt => holds_time fun now => holds_then
    (holds_lockRows (fun found : Option KakaoPhoneVerificationToken =>
        ∀ row ∈ found, usableKakaoToken (config.hashToken token) now row)
      (fun found => found.toList.map .kakaoToken) h rfl fun before _ => ⟨.nothing, ?_, ?_⟩) ?_
  · exact fun row hmem => List.find?_some hmem
  · intro row hmem
    obtain ⟨found, hfound, rfl⟩ := List.mem_map.1 hmem
    have hsome := Option.mem_toList.1 hfound
    have hrow := List.mem_of_find?_eq_some hsome
    exact ⟨hrow, List.mem_map.2 ⟨found, List.mem_filter.2 ⟨hrow, List.find?_some hsome⟩, rfl⟩⟩
  · rintro found s ⟨husable, hat⟩
    exact Logic.holds_pure ((stable_and stable_at).later ⟨⟨rfl, husable⟩, hat⟩)

/-- What tells whether a thread has used tokens up. -/
def Event.ofTokens : Event → Bool
  | .consumedTokens _ | .keptTokens => true
  | _ => false

/-- The thread has neither used tokens up nor failed to. -/
def Unspent (known : Known) : Prop := ∀ event ∈ known.events, ¬ Event.ofTokens event

theorem Unspent.lock {rows : List TableRow} (h : Unspent known) : Unspent (known.lock rows) := h

theorem Unspent.unfailed (h : Unspent known) (hat : At pid known w) : (pid, .keptTokens) ∉ w.log := by
  rw [hat.mem]
  exact fun hmem => h _ hmem rfl

theorem Unspent.unspent (h : Unspent known) (hat : At pid known w) (consumption : Consumption) :
    (pid, .consumedTokens consumption) ∉ w.log := by
  rw [hat.mem]
  exact fun hmem => h _ hmem rfl

/-- A phone token is used up by the statement that finds it. -/
theorem holds_consumePhoneToken {token : Text} (hmanages : request.manages)
    (hcall : request.uses config = some (some (config.hashToken token), none)) (h : At pid known w)
    {userId : Uuid} (hbusy : userId ∈ known.accounts) (hunspent : Unspent known) :
    (authLogic config).Holds request pid (consumePhoneVerificationToken config token)
      (fun consumed => At pid (known.commit
        (consumptionTrace ⟨some (config.hashToken token), none, none⟩ consumed)))
      (fun _ _ => True) w := by
  refine holds_time fun usedAt => holds_time fun now => holds_consuming ?_
  refine Logic.Holds.mono (holds_record (fun _ => True) h fun before consumed db hbefore hok => ?_)
    (fun _ _ _ h => h.2) fun _ _ _ h => h
  obtain ⟨rfl, rfl⟩ := Prod.mk.inj (pure_eq_ok_iff.1 hok)
  refine ⟨?_, trivial⟩
  cases hfound : before.db.phoneVerificationTokens.find?
      (usableToken (config.hashToken token) now) with
  | none =>
      have hnone := List.find?_eq_none.1 hfound
      have hsame : usePhoneTokens ⟨config.hashToken token, usedAt, now⟩ before.db = before.db := by
        rw [usePhoneTokens, updateWhere_of_forall_not hnone]
      rw [hsame]
      exact .keptTokens (hunspent.unspent hbefore)
  | some row =>
      exact .usedTokens hcall (.some ⟨config.hashToken token, usedAt, now⟩
        ⟨row, List.mem_of_find?_eq_some hfound, List.find?_some hfound⟩) .none (Or.inr rfl) hmanages
        ⟨userId, hbefore.busy hbusy⟩ (hunspent.unfailed hbefore)

/-! ### New accounts -/

/-- What an inserted account leaves, and that its keys were free. -/
theorem insertUser_ok {input : NewUser} {before after : Database}
    (h : insertUser input before = .ok after) :
    after = { before with users := before.users ++ [input.row] } ∧
      (∀ user ∈ before.users, user.userId ≠ input.userId) ∧ IsFree before input [] := by
  simp only [insertUser, bind_eq_ok_iff, require_eq_ok_iff, pure_eq_ok_iff, exists_const] at h
  obtain ⟨hnew, hemail, hphone, rfl⟩ := h
  exact ⟨rfl, hnew, hemail, hphone, fun _ hmem => absurd hmem List.not_mem_nil⟩

/-- What a Kakao account without a phone leaves, and that its keys were free. -/
theorem writeKakaoUser_ok {use : UseInput} {input : NewUser} {providerUserId : String}
    {before after : Database} {user : User}
    (h : writeKakaoUser use input providerUserId before = .ok (user, after)) :
    user = input.row ∧ (∀ other ∈ before.users, other.userId ≠ input.userId) ∧
      IsFree before input [kakaoIdentity input.userId providerUserId] ∧
        authTables after = { authTables (useKakaoTokens use before) with
          users := before.users ++ [input.row]
          identities := before.authIdentities ++ [kakaoIdentity input.userId providerUserId] } := by
  obtain ⟨inserted, hinserted, h⟩ := bind_eq_ok_iff.1 h
  obtain ⟨rfl, hnew, hfree⟩ := insertUser_ok hinserted
  obtain ⟨identified, hidentified, h⟩ := bind_eq_ok_iff.1 h
  obtain ⟨_, hunique, hidentified⟩ := bind_eq_ok_iff.1 hidentified
  obtain rfl := pure_eq_ok_iff.1 hidentified
  obtain ⟨rfl, rfl⟩ := Prod.mk.inj (pure_eq_ok_iff.1 h)
  refine ⟨rfl, hnew, ⟨hfree.email, hfree.phone, fun identity hmem => ?_⟩, rfl⟩
  rw [List.mem_singleton.1 hmem]
  exact require_eq_ok_iff.1 hunique

/-- The error of a duplicate may be another one; the rest is as in the operation. -/
theorem holds_mapDuplicate {β : Type} {operation : Prog World AuthRequest Failure β}
    {returns : β → World → Prop}
    (h : (authLogic config).Holds request pid operation returns (fun _ _ => True) w) :
    (authLogic config).Holds request pid (mapDuplicateUserError operation) returns
      (fun _ _ => True) w := by
  refine holds_catch h fun failure s => ?_
  split <;> exact Logic.holds_throw later_true

/-- The error of a missing token may be another one; the rest is as in the operation. -/
theorem holds_mapConsume {β : Type} {operation : Prog World AuthRequest Failure β}
    {returns : β → World → Prop}
    (h : (authLogic config).Holds request pid operation returns (fun _ _ => True) w) :
    (authLogic config).Holds request pid (mapTokenConsumeError operation) returns
      (fun _ _ => True) w := by
  refine holds_catch h fun failure s => ?_
  split
  · exact Logic.holds_throw later_true
  · split <;> exact Logic.holds_throw later_true

/-- What a call other than `signin` has entered before it uses tokens up. -/
def Early (known : Known) : Prop :=
  ∀ event ∈ known.events, (∀ user, event ≠ .foundByEmail user) ∧ ¬ Event.storesSession event ∧
    ¬ Event.ofTokens event

namespace Early

theorem first (h : Early known) (hat : At pid known w) (user : User) :
    (pid, .foundByEmail user) ∉ w.log := by
  rw [hat.mem]
  exact fun hmem => (h _ hmem).1 user rfl

theorem unstored (h : Early known) : ∀ event ∈ known.events, ¬ Event.storesSession event :=
  fun event hmem => (h event hmem).2.1

theorem unspent (h : Early known) : Unspent known := fun event hmem => (h event hmem).2.2

theorem lock {rows : List TableRow} (h : Early known) : Early (known.lock rows) := h

theorem note {new : Trace} (h : Early known) (hnew : ∀ event ∈ new.events,
    (∀ user, event ≠ .foundByEmail user) ∧ ¬ Event.storesSession event ∧ ¬ Event.ofTokens event) :
    Early (known.note new) := by
  intro event hmem
  rcases List.mem_append.1 hmem with hmem | hold
  · exact hnew event hmem
  · exact h event hold

/-- What uses tokens up stores no session. -/
theorem unstored_commit {new : Trace} (h : Early known)
    (hnew : ∀ event ∈ new.events, ¬ Event.storesSession event) :
    ∀ event ∈ (known.commit new).events, ¬ Event.storesSession event := by
  intro event hmem
  rcases List.mem_append.1 hmem with hmem | hold
  · exact hnew event hmem
  · exact h.unstored event hold

end Early

theorem early_nil : Early ⟨[], accounts, []⟩ := fun _ hmem => by cases hmem

/-- The transaction of a signup uses its token up, or keeps it. -/
theorem holds_signupTransaction {input : NewUser} {token : Text} (hcall : request.uses config =
    some (some (config.hashToken token), none)) (h : At pid known w) (hearly : Early known) :
    (authLogic config).Holds request pid (signupWithPhoneVerificationToken config input token)
      (fun created s => ∀ user ∈ created, user.userId = input.userId ∧
        At pid (known.commit ⟨[input.userId],
          [.consumedTokens ⟨some (config.hashToken token), none, some input.userId⟩]⟩) s)
      (fun _ _ => True) w := by
  refine holds_consuming (holds_body (holds_then (holds_lockPhoneToken h) ?_))
  rintro ⟨use, found⟩ s ⟨⟨huse, husable⟩, hat⟩
  cases found with
  | none =>
      refine holds_then holds_noteKept fun _ s _ => ?_
      refine (holds_endTransaction at_own).mono (fun created s _ hcreated => ?_) fun _ _ _ h => h
      rw [hcreated.1]
      exact fun _ hmem => by cases hmem
  | some row =>
      refine Logic.Holds.mono (holds_record
        (fun created : Option User => created = some { input with phone := some row.phoneE164 }.row)
        hat fun before created db hbefore hok => ?_) (fun created s _ hcreated => ?_) fun _ _ _ h => h
      · obtain ⟨inserted, hinserted, hok⟩ := bind_eq_ok_iff.1 hok
        obtain ⟨rfl, rfl⟩ := Prod.mk.inj (pure_eq_ok_iff.1 hok)
        obtain ⟨rfl, hnew, hfree⟩ := insertUser_ok hinserted
        have hkept : .phoneToken row ∈ (known.lock [.phoneToken row]).rows := List.mem_cons_self
        have husable := husable row rfl
        have hhash : row.tokenHash = use.tokenHash := by
          simp only [usableToken, decide_eq_true_eq] at husable
          exact husable.1
        have hrow : row ∈ before.db.phoneVerificationTokens := hbefore.has hkept
        have hchange : AuthChange config request pid before
            ⟨[input.userId], [.consumedTokens ⟨some use.tokenHash, none, some input.userId⟩]⟩
            { authTables before.db with
              users := before.db.users ++ [{ input with phone := some row.phoneE164 }.row]
              identities := before.db.authIdentities ++ []
              phoneTokens := (usePhoneTokens use before.db).phoneVerificationTokens
              kakaoTokens := before.db.kakaoPhoneVerificationTokens } := by
          refine .createdUser (huse ▸ hcall) (usesPhone_of_kept hbefore hkept husable) .none ?_ hnew
            ?_ (fun _ hmem => by cases hmem) (Or.inl (Option.some_ne_none _))
            ⟨hfree.email, hfree.phone, fun _ hmem => absurd hmem List.not_mem_nil⟩
            (fun hnone => absurd rfl hnone) (hearly.lock.unspent.unfailed hbefore)
          · exact hearly.lock.first hbefore
          · rintro _ ⟨⟩
            exact ⟨row, by rw [hhash], rfl, Or.inl hrow⟩
        rw [List.append_nil] at hchange
        exact ⟨hchange, rfl⟩
      · rw [hcreated.1]
        rintro _ ⟨⟩
        have hat := hcreated.2
        rw [hcreated.1, huse] at hat
        exact ⟨rfl, hat⟩

end ChatTea.Auth
