import ChatTea.Auth.Programs

/-!
# The logins, step by step

Signing up and in, and the logins by way of Kakao: each is put together from the parts
of the repository, and what its thread knows of itself grows with every part.

## Main results

* `holds_signup`, `holds_signin`, `holds_loginWithKakao`,
  `holds_loginWithKakaoAccessToken`, `holds_completeKakaoPhoneSignup` — the calls
-/

namespace ChatTea.Auth

open History Interleaving RowLocks Table Transaction Users

variable {config : AuthConfig} {request : AuthRequest} {pid : ℕ} {w : World} {known : Known}
  {events : List Event} {accounts : List Uuid}

theorem requireFound_eq_ok {β : Type} {failure : Failure} {found : Option β} {value : β}
    (h : requireFound failure found = .ok value) : found = some value := by
  cases found with
  | none => cases h
  | some found => rw [Except.ok.inj h]

/-! ### Signing up -/

theorem holds_signup {input : SignupInput} {deviceId : UuidText} (hlogs : request.logsIn)
    (hcall : request.uses config = some (some (config.hashToken input.phoneVerificationToken), none))
    (h : At pid {} w) :
    (authLogic config).Holds request pid (signup config input deviceId) (Answered request pid)
      (fun _ _ => True) w := by
  refine holds_check fun _ _ => holds_check fun email _ => holds_check fun userName _ => ?_
  refine holds_check fun password _ => ?_
  refine holds_then (holds_findPhoneToken h) fun found s hfound => ?_
  refine holds_outside fun userId => ?_
  refine holds_then (holds_hash hfound.2) fun passwordHash s hhash => ?_
  have hearly : Early ((Known.note {} { events := [.foundPhoneToken found] }).note
      { events := [.hashed password passwordHash] }) :=
    (early_nil.note (by simp [Event.storesSession, Event.ofTokens])).note
      (by simp [Event.storesSession, Event.ofTokens])
  refine holds_then (holds_mapDuplicate (holds_signupTransaction hcall hhash.2 hearly)) ?_
  intro created s hcreated
  refine holds_check fun user huser => ?_
  obtain ⟨hid, hat⟩ := hcreated user (requireFound_eq_ok huser)
  refine holds_issueTokens hlogs hat ?_ (hasSpent_of_mem hcall List.mem_cons_self) ?_
  · rw [hid]
    exact List.mem_cons_self
  · exact hearly.unstored_commit (by simp [Event.storesSession])

/-! ### Signing in -/

/-- Whoever has found an account with a password is busy with it. -/
theorem holds_signinUser {email : String} (h : At pid {} w) :
    (authLogic config).Holds request pid (signinUser email)
      (fun found => At pid (Known.note {} (signinTrace found))) (fun _ _ => True) w := by
  refine (holds_find (fun _ => True) h fun before hbefore => ⟨?_, trivial⟩).mono
    (fun _ _ _ hfound => hfound.2) fun _ _ _ h => h
  cases hfound : before.db.users.find? fun user => user.email = email with
  | none => exact .nothing
  | some user =>
      by_cases hpassword : user.password = ""
      · rw [signinTrace, if_pos hpassword]
        exact .nothing
      · rw [signinTrace, if_neg hpassword]
        refine .foundByEmail (List.mem_of_find?_eq_some hfound) hpassword fun user' => ?_
        rw [hbefore.mem]
        exact List.not_mem_nil

theorem holds_findSigninUser {input : SigninInput} {email : Text} (h : At pid {} w) :
    (authLogic config).Holds request pid (findSigninUser input email)
      (fun found => At pid (Known.note {} (signinTrace found))) (fun _ _ => True) w := by
  refine holds_then (holds_signinUser h) fun found s hat => ?_
  cases found with
  | some user => exact Logic.holds_pure (stable_at.later hat)
  | none =>
      dsimp only
      split
      · exact holds_signinUser hat
      · exact Logic.holds_pure (stable_at.later hat)

/-- A password that was compared with success is one of an account that has one. -/
theorem signinTrace_of_compare {password : Text} {user : User}
    (hcompare : config.bcryptCompare password user.password = true) :
    signinTrace (some user) = ⟨[user.userId], [.foundByEmail user]⟩ := by
  refine if_neg fun hempty => ?_
  rw [hempty, config.compare_empty] at hcompare
  cases hcompare

theorem holds_signin {input : SigninInput} {deviceId : UuidText} (hlogs : request.logsIn)
    (hmanages : request.manages)
    (hcall : request.uses config = some (some (config.hashToken input.phoneVerificationToken), none))
    (h : At pid {} w) :
    (authLogic config).Holds request pid (signin config input deviceId) (Answered request pid)
      (fun _ _ => True) w := by
  refine holds_check fun email _ => ?_
  refine holds_then (holds_findSigninUser h) fun found s hat => ?_
  refine holds_check fun user huser => holds_check fun _ hcompare => ?_
  rw [requireFound_eq_ok huser, signinTrace_of_compare (require_eq_ok_iff.1 hcompare)] at hat
  refine holds_then (holds_findPhoneToken hat) fun phoneToken s hphone => ?_
  refine holds_check fun _ _ => ?_
  have hunspent : Unspent ((Known.note {} ⟨[user.userId], [.foundByEmail user]⟩).note
      { events := [.foundPhoneToken phoneToken] }) := by
    simp [Unspent, Known.note, Event.ofTokens]
  refine holds_then (holds_consumePhoneToken hmanages hcall hphone.2 List.mem_cons_self hunspent)
    fun consumed s hat => ?_
  refine holds_check fun _ hconsumed => ?_
  rw [requireFound_eq_ok hconsumed] at hat
  refine holds_then (holds_restore hmanages hat) fun _ s hat => ?_
  refine holds_issueTokens hlogs hat List.mem_cons_self
    (hasSpent_of_mem hcall List.mem_cons_self) ?_
  simp [Known.note, consumptionTrace, Event.storesSession]

/-! ### Kakao tokens -/

/-- A thread that knows itself to be busy with the accounts of some rows. -/
def BusyWith (pid : ℕ) (known : Known) (found : List Uuid) (w : World) : Prop :=
  ∃ accounts, (∀ userId ∈ found, userId ∈ accounts) ∧ At pid { known with accounts := accounts } w

theorem stable_busyWith {found : List Uuid} :
    (authLogic config).Stable pid (BusyWith pid known found) := by
  rintro s before hrely - ⟨accounts, hfound, hat⟩
  exact ⟨accounts, hfound, hat.keep hrely⟩

theorem holds_findUserByIdentity {provider providerUserId : String} (h : At pid known w)
    (hearly : Early known) :
    (authLogic config).Holds request pid (findUserByIdentity provider providerUserId)
      (fun found => BusyWith pid known (found.map User.userId).toList) (fun _ _ => True) w := by
  refine holds_then (holds_find (fun _ => True) h fun before hbefore => ⟨?_, trivial⟩) ?_
  · cases hfound : before.db.authIdentities.find? fun row =>
        row.provider = provider ∧ row.providerUserId = providerUserId with
    | none => exact .nothing
    | some row =>
        exact .found (.identity row (List.mem_of_find?_eq_some hfound) rfl) (hearly.first hbefore)
  · rintro identity s ⟨-, hat⟩
    cases identity with
    | none =>
        refine Logic.holds_pure (stable_busyWith.later ⟨known.accounts, ?_, hat⟩)
        exact fun _ hmem => by cases hmem
    | some identity =>
        refine (holds_findUser hat).mono (fun found s _ hfound => ?_) fun _ _ _ h => h
        refine ⟨_, fun userId hmem => ?_, hfound.2⟩
        obtain ⟨user, huser, rfl⟩ := Option.map_eq_some_iff.1 (Option.mem_toList.1 hmem)
        rw [hfound.1 user huser]
        exact List.mem_cons_self

theorem createKakaoToken_ok {token : KakaoPhoneVerificationToken} {before after : Database}
    {done : Unit} (h : createKakaoPhoneVerificationToken token before = .ok (done, after)) :
    (∀ row ∈ before.kakaoPhoneVerificationTokens, row.tokenHash ≠ token.tokenHash) ∧
      authTables after = { authTables before with
        kakaoTokens := before.kakaoPhoneVerificationTokens ++ [token] } := by
  obtain ⟨_, hunique, h⟩ := bind_eq_ok_iff.1 h
  obtain ⟨_, -, h⟩ := bind_eq_ok_iff.1 h
  obtain ⟨-, rfl⟩ := Prod.mk.inj (pure_eq_ok_iff.1 h)
  exact ⟨require_eq_ok_iff.1 hunique, rfl⟩

/-- A Kakao token is issued for an account the thread is busy with, or for none. -/
theorem holds_issueKakaoToken {profile : KakaoProfile} {user : Option User}
    (h : BusyWith pid known (user.map User.userId).toList w) :
    (authLogic config).Holds request pid
      (do
        let token ← issueKakaoToken config profile (user.map User.userId)
        return AuthReply.verificationToken token) (Answered request pid) (fun _ _ => True) w := by
  obtain ⟨accounts, hbusy, hat⟩ := h
  refine holds_via (fun _ _ => True) ?_ fun _ _ _ => holds_reply fun _ _ => AuthReply.noConfusion
  refine holds_time fun signedAt => holds_time fun now => ?_
  refine holds_then (holds_record (fun _ => True) hat fun before _ db hbefore hok => ?_)
    fun _ _ _ => Logic.holds_pure later_true
  obtain ⟨hunique, hdb⟩ := createKakaoToken_ok hok
  rw [hdb]
  refine ⟨.createdKakaoToken hunique rfl fun userId hmem => hbefore.busy (hbusy userId ?_), trivial⟩
  exact Option.mem_toList.2 hmem

theorem holds_loginWithKakao {profile : KakaoProfile} (h : At pid {} w) :
    (authLogic config).Holds request pid (loginWithKakao config profile) (Answered request pid)
      (fun _ _ => True) w := by
  refine holds_then (holds_findUserByIdentity h early_nil) fun found s hbusy => ?_
  exact holds_issueKakaoToken hbusy

theorem holds_loginWithKakaoAccessToken {accessToken : Text} {deviceId : UuidText}
    (hlogs : request.logsIn) (hmanages : request.manages) (hnone : request.uses config = none)
    (h : At pid {} w) :
    (authLogic config).Holds request pid (loginWithKakaoAccessToken config accessToken deviceId)
      (Answered request pid) (fun _ _ => True) w := by
  refine holds_via (fun _ => At pid {}) ?_ fun profile s hat => ?_
  · refine holds_check fun _ _ => holds_outside fun profile => ?_
    exact holds_ofExcept (fun _ _ => stable_at.later h) fun _ _ => later_true
  · refine holds_then (holds_findUserByIdentity hat early_nil) fun found s hbusy => ?_
    cases hfound : found.filter fun user => user.phone.any (· ≠ "") with
    | none => exact holds_issueKakaoToken hbusy
    | some user =>
        obtain ⟨accounts, haccounts, hat⟩ := hbusy
        have huser : found = some user := (Option.filter_eq_some_iff.1 hfound).1
        refine holds_then (holds_restore hmanages hat) fun _ s hat => ?_
        refine holds_issueTokens hlogs hat (haccounts user.userId ?_) (hasSpent_of_none hnone)
          early_nil.unstored
        rw [huser]
        exact List.mem_singleton_self _

/-! ### Completing a signup by way of Kakao -/

/-- Without a match there is nothing to be busy with. -/
theorem holds_findKakaoToken {token : Text} (h : At pid known w) (hearly : Early known) :
    (authLogic config).Holds request pid (findKakaoPhoneVerificationToken config token)
      (fun found => BusyWith pid known
        (found.bind KakaoPhoneVerificationToken.userId).toList) (fun _ _ => True) w := by
  refine holds_time fun now => ?_
  refine (holds_find (fun _ => True) h fun before hbefore => ⟨?_, trivial⟩).mono
    (fun found s _ hfound => ?_) fun _ _ _ h => h
  · cases hfound : before.db.kakaoPhoneVerificationTokens.find?
        (usableKakaoToken (config.hashToken token) now) with
    | none => exact .nothing
    | some row =>
        have husable := List.find?_some hfound
        simp only [usableKakaoToken, decide_eq_true_eq] at husable
        cases huser : row.userId with
        | none =>
            rw [show (some row).bind KakaoPhoneVerificationToken.userId = none from huser]
            exact .nothing
        | some userId =>
            rw [show (some row).bind KakaoPhoneVerificationToken.userId = some userId from huser]
            exact .found (.kakaoToken row (List.mem_of_find?_eq_some hfound) husable.2.1 huser)
              (hearly.first hbefore)
  · exact ⟨_, fun userId hmem => List.mem_append_left _ hmem, hfound.2⟩

/-- The end of a transaction that has locked some rows. -/
theorem holds_recordLocked {β : Type} {trace : β → Trace} {call : Call Database Failure β}
    {rows : List TableRow} (fact : β → Prop) (h : At pid (known.lock rows) w)
    (hcall : ∀ before value db, At pid (known.lock rows) before →
      call before.db = .ok (value, db) →
        AuthChange config request pid before (trace value) (authTables db) ∧ fact value) :
    (authLogic config).Holds request pid (record trace call)
      (fun value s => fact value ∧ At pid (known.commit (trace value)) s) (fun _ _ => True) w :=
  (holds_record fact h hcall).mono (fun _ _ _ hreturns => hreturns) fun _ _ _ h => h

theorem holds_consumeKakaoForUser {userId : Uuid} {token : Text} (hmanages : request.manages)
    (hcall : request.uses config = some (none, some (config.hashToken token))) (h : At pid known w)
    (hbusy : userId ∈ known.accounts) (hunspent : Unspent known) :
    (authLogic config).Holds request pid
      (consumeKakaoPhoneVerificationTokenForUser config userId token)
      (fun found s => (∀ user : User, user ∈ found → user.userId = userId) ∧ At pid (known.commit
        { events := [.consumedTokens ⟨none, some (config.hashToken token), none⟩] }) s)
      (fun _ _ => True) w := by
  refine holds_consuming (holds_body (holds_then (holds_lockKakaoToken h) ?_))
  rintro ⟨use, found⟩ s ⟨⟨huse, husable⟩, hat⟩
  refine holds_check fun row hrow => ?_
  rw [requireFound_eq_ok hrow] at husable hat
  refine holds_then (holds_findUser hat) fun user s huser => ?_
  have huse : use.tokenHash = config.hashToken token := huse
  rw [← huse] at hcall ⊢
  refine holds_recordLocked (fun found => ∀ user : User, user ∈ found → user.userId = userId) huser.2
    fun before found db hbefore hok => ?_
  obtain ⟨rfl, rfl⟩ := Prod.mk.inj (pure_eq_ok_iff.1 hok)
  exact ⟨.usedTokens hcall .none (usesKakao_of_kept hbefore List.mem_cons_self (husable row rfl))
    (Or.inl rfl) hmanages ⟨userId, hbefore.busy hbusy⟩ (hunspent.lock.unfailed hbefore), huser.1⟩

theorem holds_newKakaoUser {input : KakaoSignupInput} {kakaoToken : KakaoPhoneVerificationToken}
    {phone : Option String} (h : At pid known w) (hearly : Early known) {β : Type}
    {returns : β → World → Prop} {rest : NewUser → Prog World AuthRequest Failure β}
    (hrest : ∀ newUser event s, newUser.phone = phone →
      Early ⟨event :: known.events, known.accounts, known.rows⟩ →
        At pid ⟨event :: known.events, known.accounts, known.rows⟩ s →
          (authLogic config).Holds request pid (rest newUser) returns (fun _ _ => True) s) :
    (authLogic config).Holds request pid (newKakaoUser config input kakaoToken phone >>= rest) returns
      (fun _ _ => True) w := by
  refine holds_via (fun newUser s => newUser.phone = phone ∧ ∃ event,
    Early ⟨event :: known.events, known.accounts, known.rows⟩ ∧
      At pid ⟨event :: known.events, known.accounts, known.rows⟩ s) ?_ ?_
  · refine holds_check fun gender _ => holds_check fun email _ => holds_check fun userName _ => ?_
    refine holds_outside fun userId => holds_outside fun password => ?_
    refine holds_then (holds_hash h) fun passwordHash s hhash => ?_
    have hnoted : Early (known.note { events := [.hashed password.text passwordHash] }) :=
      hearly.note (by simp [Event.storesSession, Event.ofTokens])
    exact Logic.holds_pure fun later hrely _ => ⟨rfl, _, hnoted, hhash.2.keep hrely⟩
  · rintro newUser s ⟨hphone, event, hearly, hat⟩
    exact hrest newUser event s hphone hearly hat

theorem holds_createKakaoUser {input : NewUser} {providerUserId : String} {token : Text}
    (hcall : request.uses config = some (none, some (config.hashToken token))) (h : At pid known w)
    (hearly : Early known) :
    (authLogic config).Holds request pid (createKakaoUserWithToken config input providerUserId token)
      (fun user s => user.userId = input.userId ∧ At pid (known.commit ⟨[input.userId],
        [.consumedTokens ⟨none, some (config.hashToken token), some input.userId⟩]⟩) s)
      (fun _ _ => True) w := by
  refine holds_consuming (holds_body (holds_then (holds_lockKakaoToken h) ?_))
  rintro ⟨use, found⟩ s ⟨⟨huse, husable⟩, hat⟩
  refine holds_check fun row hrow => ?_
  rw [requireFound_eq_ok hrow] at husable hat
  have huse : use.tokenHash = config.hashToken token := huse
  rw [← huse] at hcall ⊢
  refine holds_recordLocked (fun user : User => user.userId = input.userId) hat
    fun before user db hbefore hok => ?_
  obtain ⟨rfl, hnew, hfree, hdb⟩ := writeKakaoUser_ok hok
  rw [hdb]
  refine ⟨.createdUser hcall .none (usesKakao_of_kept hbefore List.mem_cons_self (husable row rfl))
    (hearly.lock.first hbefore) hnew (fun _ hmem => by cases hmem) ?_
    (Or.inr (Option.some_ne_none _))
    ⟨hfree.email, fun _ hmem => by (cases hmem), hfree.identity⟩
    (fun _ => List.cons_ne_nil _ _) (hearly.lock.unspent.unfailed hbefore), rfl⟩
  rintro identity hmem
  rw [List.mem_singleton.1 hmem]
  rfl

/-- The parts of a call that are common to all its ways to an account that exists. -/
theorem holds_restoredTokens {user : User} {deviceId : UuidText} (hlogs : request.logsIn)
    (hmanages : request.manages) (h : At pid ⟨events, accounts, []⟩ w)
    (hbusy : user.userId ∈ accounts) (hspent : HasSpent config request events)
    (hunstored : ∀ event ∈ events, ¬ Event.storesSession event) :
    (authLogic config).Holds request pid
      (do
        let _ ← restoreIfWithinGrace user.userId.toUuidText
        issueTokens config user deviceId) (Answered request pid) (fun _ _ => True) w := by
  refine holds_then (holds_restore hmanages h) fun _ s hat => ?_
  exact holds_issueTokens hlogs hat hbusy hspent hunstored

theorem holds_completeWithoutPhone {input : KakaoSignupInput} {deviceId : UuidText}
    (hlogs : request.logsIn) (hmanages : request.manages)
    (hcall : request.uses config =
      some (none, some (config.hashToken input.kakaoPhoneVerificationToken))) (h : At pid {} w) :
    (authLogic config).Holds request pid (completeWithoutPhone config input deviceId) (Answered request pid)
      (fun _ _ => True) w := by
  refine holds_then (holds_findKakaoToken h early_nil) fun found s hbusy => ?_
  refine holds_check fun kakaoToken hfound => ?_
  rw [requireFound_eq_ok hfound] at hbusy
  obtain ⟨accounts, haccounts, hat⟩ := hbusy
  have hearly : Early ⟨[], accounts, []⟩ := early_nil
  cases huser : kakaoToken.userId with
  | some userId =>
      refine holds_then (holds_mapConsume (holds_consumeKakaoForUser hmanages hcall hat
        (haccounts userId (Option.mem_toList.2 huser)) hearly.unspent)) ?_
      rintro updated s ⟨hsame, hat⟩
      refine holds_check fun user hupdated => ?_
      have hid := hsame user (requireFound_eq_ok hupdated)
      refine holds_restoredTokens hlogs hmanages hat ?_
        (hasSpent_of_mem hcall List.mem_cons_self)
        (hearly.unstored_commit (by simp [Event.storesSession]))
      rw [hid]
      exact haccounts userId (Option.mem_toList.2 huser)
  | none =>
      refine holds_newKakaoUser hat hearly fun newUser event s _ hearly hat => ?_
      refine holds_then (holds_mapDuplicate (holds_mapConsume
        (holds_createKakaoUser hcall hat hearly))) ?_
      rintro user s ⟨hid, hat⟩
      refine holds_issueTokens hlogs hat ?_ (hasSpent_of_mem hcall List.mem_cons_self)
        (hearly.unstored_commit (by simp [Event.storesSession]))
      rw [hid]
      exact List.mem_cons_self

/-- What a thread knows after it has looked both tokens up, in either order. -/
structure FoundBoth (config : AuthConfig) (pid : ℕ) (phoneToken : Text)
    (found : PhoneVerificationToken × Option KakaoPhoneVerificationToken) (known : Known)
    (w : World) : Prop where
  hash : found.1.tokenHash = config.hashToken phoneToken
  entered : .foundPhoneToken found.1 ∈ known.events
  busy : ∀ userId ∈ found.2.bind KakaoPhoneVerificationToken.userId, userId ∈ known.accounts
  early : Early known
  unlocked : known.rows = []
  at_known : At pid known w

theorem holds_findBothTokens {phoneToken kakaoToken : Text} (h : At pid {} w) :
    (authLogic config).Holds request pid (findBothTokens config phoneToken kakaoToken)
      (fun found s => ∃ known, FoundBoth config pid phoneToken found known s) (fun _ _ => True) w := by
  refine holds_outside fun phoneFirst => ?_
  split
  · refine holds_then (holds_findPhoneToken h) fun found s hfound => ?_
    have hearly : Early (Known.note {} { events := [.foundPhoneToken found] }) :=
      early_nil.note (by simp [Event.storesSession, Event.ofTokens])
    refine holds_then (holds_findKakaoToken hfound.2 hearly) fun kakao s hbusy => ?_
    obtain ⟨accounts, haccounts, hat⟩ := hbusy
    refine Logic.holds_pure fun later hrely _ => ⟨_, hfound.1, List.mem_cons_self, ?_, ?_, ?_,
      hat.keep hrely⟩
    · exact fun userId hmem => haccounts userId (Option.mem_toList.2 hmem)
    · exact hearly
    · rfl
  · refine holds_then (holds_findKakaoToken h early_nil) fun kakao s hbusy => ?_
    obtain ⟨accounts, haccounts, hat⟩ := hbusy
    refine holds_then (holds_findPhoneToken hat) fun found s hfound => ?_
    have hearly : Early (Known.note ⟨[], accounts, []⟩ { events := [.foundPhoneToken found] }) :=
      early_nil.note (by simp [Event.storesSession, Event.ofTokens])
    refine Logic.holds_pure fun later hrely _ => ⟨_, hfound.1, List.mem_cons_self, ?_, hearly, rfl,
      hfound.2.keep hrely⟩
    exact fun userId hmem => haccounts userId (Option.mem_toList.2 hmem)

theorem writeAttachment_ok {phoneUse kakaoUse : UseInput} {userId : Uuid} {phone : String}
    {before after : Database} {found : Option User}
    (h : writeAttachment phoneUse kakaoUse userId phone before = .ok (found, after)) :
    (∀ user : User, user ∈ found → user.userId = userId) ∧
      authTables after = { authTables (useKakaoTokens kakaoUse (usePhoneTokens phoneUse before)) with
        users := updateWhere (fun user => user.userId = userId)
          (fun user => { user with phone := some phone }) before.users } := by
  obtain ⟨_, -, h⟩ := bind_eq_ok_iff.1 h
  obtain ⟨rfl, rfl⟩ := Prod.mk.inj (pure_eq_ok_iff.1 h)
  exact ⟨fun user hmem => (mem_of_lookup hmem).2, rfl⟩

theorem holds_attach {input : AttachInput} {token : PhoneVerificationToken}
    (hmanages : request.manages) (hunspent : Unspent known)
    (hcall : request.uses config = some (some (config.hashToken input.phoneVerificationToken),
      some (config.hashToken input.kakaoPhoneVerificationToken))) (h : At pid known w)
    (hbusy : input.userId ∈ known.accounts) (hentered : .foundPhoneToken token ∈ known.events)
    (hhash : token.tokenHash = config.hashToken input.phoneVerificationToken)
    (hphone : input.phone = token.phoneE164) {account : User}
    (haccount : .foundAccount account ∈ known.events) (hid : account.userId = input.userId)
    (hfits : ∀ phone ∈ account.phone, phone = "" ∨ phone = input.phone) :
    (authLogic config).Holds request pid (attachPhoneWithKakaoPhoneVerificationTokens config input)
      (fun found s => (∀ user : User, user ∈ found → user.userId = input.userId) ∧
        At pid (known.commit { events := [.consumedTokens
          ⟨some (config.hashToken input.phoneVerificationToken),
            some (config.hashToken input.kakaoPhoneVerificationToken), none⟩] }) s)
      (fun _ _ => True) w := by
  refine holds_consuming (holds_body (holds_then (holds_lockPhoneToken h) ?_))
  rintro ⟨phoneUse, phoneFound⟩ s ⟨⟨hphoneUse, hphoneUsable⟩, hat⟩
  refine holds_then (holds_lockKakaoToken hat) ?_
  rintro ⟨kakaoUse, kakaoFound⟩ s ⟨⟨hkakaoUse, hkakaoUsable⟩, hat⟩
  refine holds_check fun phoneRow hphoneRow => holds_check fun kakaoRow hkakaoRow => ?_
  rw [requireFound_eq_ok hphoneRow] at hphoneUsable hat
  rw [requireFound_eq_ok hkakaoRow] at hkakaoUsable hat
  have hat : At pid (known.lock [.kakaoToken kakaoRow, .phoneToken phoneRow]) s := hat
  have hphoneUse : phoneUse.tokenHash = _ := hphoneUse
  have hkakaoUse : kakaoUse.tokenHash = _ := hkakaoUse
  rw [← hphoneUse, ← hkakaoUse] at hcall ⊢
  refine holds_recordLocked (fun found => ∀ user : User, user ∈ found → user.userId = input.userId)
    hat fun before found db hbefore hok => ?_
  obtain ⟨hfound, hdb⟩ := writeAttachment_ok hok
  rw [hdb]
  refine ⟨.attachedPhone hcall (usesPhone_of_kept hbefore ?_ (hphoneUsable phoneRow rfl))
    (usesKakao_of_kept hbefore List.mem_cons_self (hkakaoUsable kakaoRow rfl)) (hbefore.busy hbusy) ?_
    ⟨account, token, hbefore.mem.2 haccount, hid, hbefore.mem.2 hentered, hphone.symm, hfits⟩
    hmanages (hunspent.lock.unfailed hbefore), hfound⟩
  · exact List.mem_cons_of_mem _ List.mem_cons_self
  · refine ⟨token, ?_, hphone.symm, Or.inr (hbefore.mem.2 hentered)⟩
    rw [hphoneUse, hhash]

theorem holds_createKakaoPhoneUser {input : NewUser} {providerUserId : String}
    {phoneToken kakaoToken : Text} {token : PhoneVerificationToken}
    (hcall : request.uses config =
      some (some (config.hashToken phoneToken), some (config.hashToken kakaoToken)))
    (h : At pid known w) (hearly : Early known) (hentered : .foundPhoneToken token ∈ known.events)
    (hhash : token.tokenHash = config.hashToken phoneToken)
    (hphone : input.phone = some token.phoneE164) :
    (authLogic config).Holds request pid
      (createKakaoPhoneUserWithTokens config input providerUserId phoneToken kakaoToken)
      (fun user s => user.userId = input.userId ∧ At pid (known.commit ⟨[input.userId],
        [.consumedTokens ⟨some (config.hashToken phoneToken), some (config.hashToken kakaoToken),
          some input.userId⟩]⟩) s)
      (fun _ _ => True) w := by
  refine holds_consuming (holds_body (holds_then (holds_lockPhoneToken h) ?_))
  rintro ⟨phoneUse, phoneFound⟩ s ⟨⟨hphoneUse, hphoneUsable⟩, hat⟩
  refine holds_then (holds_lockKakaoToken hat) ?_
  rintro ⟨kakaoUse, kakaoFound⟩ s ⟨⟨hkakaoUse, hkakaoUsable⟩, hat⟩
  refine holds_check fun phoneRow hphoneRow => holds_check fun kakaoRow hkakaoRow => ?_
  rw [requireFound_eq_ok hphoneRow] at hphoneUsable hat
  rw [requireFound_eq_ok hkakaoRow] at hkakaoUsable hat
  have hat : At pid (known.lock [.kakaoToken kakaoRow, .phoneToken phoneRow]) s := hat
  have hphoneUse : phoneUse.tokenHash = _ := hphoneUse
  have hkakaoUse : kakaoUse.tokenHash = _ := hkakaoUse
  rw [← hphoneUse, ← hkakaoUse] at hcall ⊢
  refine holds_recordLocked (fun user : User => user.userId = input.userId) hat
    fun before user db hbefore hok => ?_
  obtain ⟨rfl, hnew, hfree, hdb⟩ := writeKakaoUser_ok hok
  rw [hdb]
  refine ⟨.createdUser hcall (usesPhone_of_kept hbefore ?_ (hphoneUsable phoneRow rfl))
    (usesKakao_of_kept hbefore List.mem_cons_self (hkakaoUsable kakaoRow rfl)) (hearly.lock.first hbefore) hnew ?_
    ?_ (Or.inl (Option.some_ne_none _)) ⟨hfree.email, hfree.phone, hfree.identity⟩
    (fun _ => List.cons_ne_nil _ _) (hearly.lock.unspent.unfailed hbefore), rfl⟩
  · exact List.mem_cons_of_mem _ List.mem_cons_self
  · intro number hnumber
    obtain rfl : token.phoneE164 = number := by
      rw [hphone] at hnumber
      exact Option.some.inj hnumber
    refine ⟨token, ?_, rfl, Or.inr (hbefore.mem.2 hentered)⟩
    rw [hphoneUse, hhash]
  · intro identity hmem
    rw [List.mem_singleton.1 hmem]
    rfl

/-- The lookup of the account enters the row that it finds. -/
theorem holds_findAccount {userId : Uuid} (h : At pid known w) :
    (authLogic config).Holds request pid
      (find (fun user => { events := (user.map Event.foundAccount).toList }) (findUser userId))
      (fun found s => (∀ user : User, user ∈ found → user.userId = userId) ∧
        At pid (known.note { events := (found.map Event.foundAccount).toList }) s)
      (fun _ _ => True) w := by
  refine holds_find (fun found => ∀ user : User, user ∈ found → user.userId = userId) h
    fun before _ => ?_
  cases hfound : findUser userId before.db with
  | none => exact ⟨.nothing, fun user hmem => by cases hmem⟩
  | some user =>
      obtain ⟨hmem, hid⟩ := mem_of_lookup (Option.mem_def.2 hfound)
      refine ⟨.foundAccount hmem, ?_⟩
      rintro _ ⟨⟩
      exact hid

/-- What the check of the service leaves of the number of an account. -/
theorem fits_of_check {phone : Option String} {number : String}
    (h : ¬ (phone.any fun phone => phone ≠ "" ∧ phone ≠ number) = true) :
    ∀ other ∈ phone, other = "" ∨ other = number := by
  rintro other rfl
  by_contra hother
  refine h (decide_eq_true ?_)
  exact not_or.1 hother

theorem holds_completeWithPhone {input : KakaoSignupInput} {phoneToken : Text}
    {deviceId : UuidText} (hlogs : request.logsIn) (hmanages : request.manages)
    (hcall : request.uses config = some (some (config.hashToken phoneToken),
      some (config.hashToken input.kakaoPhoneVerificationToken))) (h : At pid {} w) :
    (authLogic config).Holds request pid (completeWithPhone config input phoneToken deviceId)
      (Answered request pid) (fun _ _ => True) w := by
  refine holds_then (holds_findBothTokens h) ?_
  rintro ⟨phoneVerificationToken, found⟩ s ⟨⟨events, accounts, rows⟩, hboth⟩
  obtain rfl : rows = [] := hboth.unlocked
  have hearly := hboth.early
  refine holds_check fun kakaoToken hfound => ?_
  obtain rfl := requireFound_eq_ok hfound
  cases huser : kakaoToken.userId with
  | some userId =>
      refine holds_then (holds_findAccount hboth.at_known) fun found s huserFound => ?_
      obtain ⟨hsame, hat⟩ := huserFound
      refine holds_check fun user huserOk => holds_check fun _ hcheck => ?_
      obtain rfl := requireFound_eq_ok huserOk
      have hid := hsame user rfl
      have hfits : ∀ phone ∈ user.phone, phone = "" ∨ phone = phoneVerificationToken.phoneE164 :=
        fits_of_check (throwIf_eq_ok_iff.1 hcheck)
      have hearly : Early (Known.note ⟨events, accounts, []⟩ { events := [.foundAccount user] }) :=
        hearly.note (by simp [Event.storesSession, Event.ofTokens])
      have hbusy : user.userId ∈ accounts := hid ▸ hboth.busy userId huser
      refine holds_then (holds_mapDuplicate (holds_mapConsume
        (holds_attach hmanages hearly.unspent hcall hat hbusy (List.mem_cons_of_mem _ hboth.entered)
          hboth.hash rfl List.mem_cons_self rfl hfits))) ?_
      rintro updated s ⟨hupdated, hat⟩
      refine holds_check fun updatedUser hupdatedOk => ?_
      have hid := hupdated updatedUser (requireFound_eq_ok hupdatedOk)
      refine holds_restoredTokens hlogs hmanages hat ?_
        (hasSpent_of_mem hcall List.mem_cons_self)
        (hearly.unstored_commit (by simp [Event.storesSession]))
      rw [hid]
      exact hbusy
  | none =>
      refine holds_newKakaoUser hboth.at_known hearly fun newUser event s hphone hearly hat => ?_
      refine holds_then (holds_mapDuplicate (holds_mapConsume (holds_createKakaoPhoneUser hcall hat
        hearly (List.mem_cons_of_mem _ hboth.entered) hboth.hash hphone))) ?_
      rintro user s ⟨hid, hat⟩
      refine holds_issueTokens hlogs hat ?_ (hasSpent_of_mem hcall List.mem_cons_self)
        (hearly.unstored_commit (by simp [Event.storesSession]))
      rw [hid]
      exact List.mem_cons_self

theorem holds_completeKakaoPhoneSignup {input : KakaoSignupInput} {deviceId : UuidText}
    (hlogs : request.logsIn) (hmanages : request.manages)
    (hcall : request.uses config =
      some ((input.phoneVerificationToken.filter (· ≠ [])).map config.hashToken,
        some (config.hashToken input.kakaoPhoneVerificationToken))) (h : At pid {} w) :
    (authLogic config).Holds request pid (completeKakaoPhoneSignup config input deviceId)
      (Answered request pid) (fun _ _ => True) w := by
  refine holds_check fun _ _ => ?_
  cases hphone : input.phoneVerificationToken.filter (· ≠ []) with
  | none =>
      rw [hphone] at hcall
      exact holds_completeWithoutPhone hlogs hmanages hcall h
  | some phoneToken =>
      rw [hphone] at hcall
      exact holds_completeWithPhone hlogs hmanages hcall h

end ChatTea.Auth
