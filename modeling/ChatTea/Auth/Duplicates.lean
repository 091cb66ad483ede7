import ChatTea.Auth.Runs
import ChatTea.Auth.Sessions
import ChatTea.Lib.Failures

/-!
# Accounts that exist already

A sign-up is refused by the database when its e-mail, its phone number or its Kakao identity
belongs to an account. The service looks for the code of PostgreSQL on the error itself, where the
query layer does not put it, so the error goes on as it is.

## Main definitions

* `Rejects` — the database rejects a statement for a constraint
* `Unchanged` — the tables are as they were
* `DuplicatesReported` — every rejected sign-up fails with `duplicateUser`

## Main results

* `mapDuplicateUserError_rejected` — what the database rejects is not mapped
* `signup_fails_raw` — in every run, a rejected sign-up fails with the error of the database
-/

namespace ChatTea.Auth

open History Interleaving Phone RowLocks Table Transaction Users

/-- The database rejects a statement for a constraint. -/
def Rejects (failure : Failure) (before after : World) : Prop :=
  (∃ name, failure = .constraint name) ∧ after.rejections = failure :: before.rejections

/-- The tables are as they were. -/
def Unchanged (before after : World) : Prop := after.db = before.db

/-- The calls that sign someone up. -/
def AuthRequest.signsUp : AuthRequest → Bool
  | .signup _ _ | .completeKakaoPhoneSignup _ _ => true
  | _ => false

/-- Every call that signs up and is rejected for a unique constraint fails with `duplicateUser`,
and until then leaves the tables as they were. -/
def DuplicatesReported (config : AuthConfig) (db : Database) : Prop :=
  ∀ c, AuthRun config anyStep db c → ∀ pid request (β : Type) (act : ℕ → World → β → World → Prop)
    next reply after name, c.threads[pid]? = some ⟨request, .step act next⟩ → request.signsUp →
    act pid c.state reply after → Rejects (.constraint name) c.state after →
    name ∈ uniqueConstraints →
      Unchanged c.state after ∧ (next reply).Fails Unchanged pid duplicateUser

/-- What the database rejects, the program ends with. -/
abbrev PassesOn {ι β : Type} (pid : ℕ) (program : Prog World ι Failure β) : Prop :=
  program.Raises Rejects Unchanged pid

section Programs

variable {ι β : Type} {pid : ℕ} {w after : World} {failure : Failure} {config : AuthConfig}

/-- A step that enters no rejection rejects nothing. -/
theorem not_rejects (h : after.rejections = w.rejections) : ¬ Rejects failure w after := by
  rintro ⟨-, hrejected⟩
  rw [h] at hrejected
  exact List.cons_ne_self _ _ hrejected.symm

/-! ### Steps -/

theorem passesOn_clock : PassesOn pid (clock : Prog World ι Failure Timestamp) := by
  apply Prog.Raises.atomic
  rintro before reply _ failure ⟨-, rfl⟩
  exact not_rejects rfl

theorem passesOn_anything : PassesOn pid (.anything β : Prog World ι Failure β) := by
  apply Prog.Raises.atomic
  rintro before reply _ failure rfl
  exact not_rejects rfl

theorem passesOn_note (events : List Event) :
    PassesOn pid (note events : Prog World ι Failure Unit) := by
  apply Prog.Raises.atomic
  rintro before reply _ failure rfl
  exact not_rejects rfl

theorem passesOn_hash (candidate : Text) :
    PassesOn pid (hash config candidate : Prog World ι Failure String) := by
  apply Prog.Raises.atomic
  rintro before reply _ failure ⟨-, -, rfl⟩
  exact not_rejects rfl

theorem passesOn_lock {trace : β → Trace} {mode : Mode} {rows : Database → List LockedRow}
    {read : Database → β} : PassesOn pid (lock trace mode rows read : Prog World ι Failure β) := by
  apply Prog.Raises.attempt
  intro before reply after failure hact hrejects
  cases hact with
  | locked free => exact absurd hrejects (not_rejects rfl)
  | unreachable failure => exact absurd hrejects (not_rejects rfl)

theorem passesOn_find {trace : β → Trace} {read : Database → β} :
    PassesOn pid (find trace read : Prog World ι Failure β) :=
  passesOn_lock

/-- A write that is rejected throws its error, and writes nothing. -/
theorem passesOn_record {trace : β → Trace} {call : Call Database Failure β} :
    PassesOn pid (record trace call : Prog World ι Failure β) := by
  apply Prog.Raises.attempt
  rintro before reply after failure ⟨drawn, -, hact⟩ hrejects
  cases hact with
  | committed returns unlocked => exact absurd hrejects (not_rejects rfl)
  | rejected throws =>
      have hsame := (List.cons.inj hrejects.2).1
      exact ⟨rfl, congrArg Except.error hsame⟩
  | unreachable failure => exact absurd hrejects (not_rejects rfl)
  | answerLost failure returns unlocked => exact absurd hrejects (not_rejects rfl)

theorem passesOn_statement {call : Call Database Failure β} :
    PassesOn pid (statement call : Prog World ι Failure β) := by
  apply Prog.Raises.attempt
  intro before reply after failure hact hrejects
  cases hact with
  | returned returns unlocked => exact absurd hrejects (not_rejects rfl)
  | threw throws =>
      have hsame := (List.cons.inj hrejects.2).1
      exact ⟨rfl, congrArg Except.error hsame⟩
  | unreachable failure => exact absurd hrejects (not_rejects rfl)
  | answerLost failure returns unlocked => exact absurd hrejects (not_rejects rfl)

/-! ### Handlers -/

/-- The rollback of a transaction throws the error again. -/
theorem passesOn_transaction {body : Prog World ι Failure β} (h : PassesOn pid body) :
    PassesOn pid (transaction body) := by
  apply Prog.Raises.tryCatch h
  · intro failure
    apply Prog.Raises.bind _ fun _ => Prog.Raises.thrown failure
    apply Prog.Raises.atomic
    rintro before reply _ thrown rfl
    exact not_rejects rfl
  · intro failure before after _
    refine ⟨fun before => ⟨(), _, rfl⟩, ?_, fun _ => rfl⟩
    rintro before reply _ rfl
    rfl

theorem passesOn_noteKept : PassesOn pid (noteKept : Prog World ι Failure Unit) := by
  apply Prog.Raises.atomic
  rintro before reply _ failure rfl
  split <;> exact not_rejects rfl

/-- So does an operation that enters its failure. -/
theorem passesOn_consuming {operation : Prog World ι Failure β} (h : PassesOn pid operation) :
    PassesOn pid (consuming operation) := by
  apply Prog.Raises.tryCatch h
  · intro failure
    exact passesOn_noteKept.bind fun _ => Prog.Raises.thrown failure
  · intro failure before after _
    refine ⟨fun before => ⟨(), _, rfl⟩, ?_, fun _ => rfl⟩
    rintro before reply _ rfl
    split <;> rfl

theorem passesOn_tracked {call : Prog World ι Failure β} (h : PassesOn pid call) :
    PassesOn pid (tracked call) := by
  have hforget : PassesOn pid
      (.atomic fun pid w _ after => after = w.forget pid : Prog World ι Failure Unit) := by
    apply Prog.Raises.atomic
    rintro before reply _ failure rfl
    exact not_rejects rfl
  apply Prog.Raises.bind
  · apply Prog.Raises.tryCatch h
    · intro failure
      exact hforget.bind fun _ => trivial
    · intro failure before after _
      refine ⟨fun before => ⟨(), _, rfl⟩, ?_, fun _ => rfl⟩
      rintro before reply _ rfl
      rfl
  · intro result
    exact hforget.bind fun _ => trivial

theorem passesOn_mapTokenConsume {operation : Prog World ι Failure β} (h : PassesOn pid operation) :
    PassesOn pid (mapTokenConsumeError operation) := by
  apply Prog.Raises.tryCatch h
  · intro failure
    split
    · trivial
    · split <;> trivial
  · rintro _ before after ⟨⟨name, rfl⟩, -⟩
    rfl

/-- The error of a query has no code of its own. -/
theorem isUniqueViolation_eq_false (failure : Failure) : isUniqueViolation failure = false := by
  cases failure <;> rfl

/-- What the database rejects is not mapped. -/
theorem mapDuplicateUserError_rejected {operation : Prog World ι Failure β}
    (h : PassesOn pid operation) : PassesOn pid (mapDuplicateUserError operation) := by
  apply Prog.Raises.tryCatch h
  · intro failure
    split <;> trivial
  · intro failure before after _
    rw [isUniqueViolation_eq_false, if_neg Bool.false_ne_true]
    rfl

/-! ### Calls of the repository -/

theorem passesOn_lockPhoneToken (token : Text) :
    PassesOn pid (lockPhoneToken config token : Prog World ι Failure _) :=
  passesOn_clock.bind fun _ => passesOn_clock.bind fun _ => passesOn_lock.bind fun _ => .returned _

theorem passesOn_lockKakaoToken (token : Text) :
    PassesOn pid (lockKakaoToken config token : Prog World ι Failure _) :=
  passesOn_clock.bind fun _ => passesOn_clock.bind fun _ => passesOn_lock.bind fun _ => .returned _

theorem passesOn_signupTransaction (input : NewUser) (token : Text) :
    PassesOn pid (signupWithPhoneVerificationToken config input token : Prog World ι Failure _) := by
  apply passesOn_consuming
  apply passesOn_transaction
  apply (passesOn_lockPhoneToken token).bind
  rintro ⟨use, found⟩
  cases found with
  | none => exact passesOn_noteKept.bind fun _ => passesOn_record
  | some phoneVerificationToken => exact passesOn_record

theorem passesOn_attach (input : AttachInput) : PassesOn pid
    (attachPhoneWithKakaoPhoneVerificationTokens config input : Prog World ι Failure _) := by
  apply passesOn_consuming
  apply passesOn_transaction
  apply (passesOn_lockPhoneToken _).bind
  rintro ⟨phoneUse, phoneToken⟩
  apply (passesOn_lockKakaoToken _).bind
  rintro ⟨kakaoUse, kakaoToken⟩
  apply (Prog.Raises.check _).bind fun _ => ?_
  exact (Prog.Raises.check _).bind fun _ => passesOn_record

theorem passesOn_consumeKakao (userId : Uuid) (token : Text) : PassesOn pid
    (consumeKakaoPhoneVerificationTokenForUser config userId token : Prog World ι Failure _) := by
  apply passesOn_consuming
  apply passesOn_transaction
  apply (passesOn_lockKakaoToken _).bind
  rintro ⟨use, kakaoToken⟩
  apply (Prog.Raises.check _).bind fun _ => ?_
  exact passesOn_find.bind fun _ => passesOn_record

theorem passesOn_createKakaoUser (input : NewUser) (providerUserId : String) (token : Text) :
    PassesOn pid
      (createKakaoUserWithToken config input providerUserId token : Prog World ι Failure _) := by
  apply passesOn_consuming
  apply passesOn_transaction
  apply (passesOn_lockKakaoToken _).bind
  rintro ⟨use, kakaoToken⟩
  exact (Prog.Raises.check _).bind fun _ => passesOn_record

theorem passesOn_createKakaoPhoneUser (input : NewUser) (providerUserId : String)
    (phoneToken kakaoToken : Text) : PassesOn pid
      (createKakaoPhoneUserWithTokens config input providerUserId phoneToken kakaoToken :
        Prog World ι Failure _) := by
  apply passesOn_consuming
  apply passesOn_transaction
  apply (passesOn_lockPhoneToken _).bind
  rintro ⟨phoneUse, phoneFound⟩
  apply (passesOn_lockKakaoToken _).bind
  rintro ⟨kakaoUse, kakaoFound⟩
  apply (Prog.Raises.check _).bind fun _ => ?_
  exact (Prog.Raises.check _).bind fun _ => passesOn_record

/-! ### Calls of the service -/

theorem passesOn_requirePhoneToken (token : Text) :
    PassesOn pid (requirePhoneVerificationToken config token : Prog World ι Failure _) :=
  Prog.Raises.bind (passesOn_clock.bind fun _ => passesOn_find) fun _ => Prog.Raises.check _

theorem passesOn_findKakaoToken (token : Text) :
    PassesOn pid (findKakaoPhoneVerificationToken config token : Prog World ι Failure _) :=
  passesOn_clock.bind fun _ => passesOn_find

theorem passesOn_issueTokens (user : User) (deviceId : UuidText) :
    PassesOn pid (issueTokens config user deviceId : Prog World ι Failure _) := by
  apply Prog.Raises.bind (passesOn_clock.bind fun _ => .returned _)
  intro accessToken
  apply Prog.Raises.bind (passesOn_clock.bind fun _ => .returned _)
  intro refreshToken
  apply Prog.Raises.bind
    ((Prog.Raises.check _).bind fun _ => (passesOn_hash _).bind fun _ => .returned _)
  intro session
  exact passesOn_record.bind fun _ => (passesOn_note _).bind fun _ => .returned _

theorem passesOn_restore (userId : UuidText) :
    PassesOn pid (restoreIfWithinGrace userId : Prog World ι Failure _) :=
  (Prog.Raises.check _).bind fun _ => passesOn_clock.bind fun _ => passesOn_statement

theorem passesOn_newKakaoUser (input : KakaoSignupInput) (kakaoToken : KakaoPhoneVerificationToken)
    (phone : Option String) :
    PassesOn pid (newKakaoUser config input kakaoToken phone : Prog World ι Failure _) := by
  apply (Prog.Raises.check _).bind fun gender => ?_
  apply (Prog.Raises.check _).bind fun email => ?_
  apply (Prog.Raises.check _).bind fun userName => ?_
  apply passesOn_anything.bind fun userId => ?_
  exact passesOn_anything.bind fun password => (passesOn_hash _).bind fun _ => .returned _

theorem passesOn_signup (input : SignupInput) (deviceId : UuidText) :
    PassesOn pid (signup config input deviceId : Prog World ι Failure _) := by
  apply (Prog.Raises.check _).bind fun _ => ?_
  apply (Prog.Raises.check _).bind fun email => ?_
  apply (Prog.Raises.check _).bind fun userName => ?_
  apply (Prog.Raises.check _).bind fun password => ?_
  apply (passesOn_requirePhoneToken _).bind fun _ => ?_
  apply passesOn_anything.bind fun userId => ?_
  apply (passesOn_hash _).bind fun passwordHash => ?_
  apply (mapDuplicateUserError_rejected (passesOn_signupTransaction _ _)).bind fun user => ?_
  exact (Prog.Raises.check _).bind fun user => passesOn_issueTokens user deviceId

theorem passesOn_completeWithoutPhone (input : KakaoSignupInput) (deviceId : UuidText) :
    PassesOn pid (completeWithoutPhone config input deviceId : Prog World ι Failure _) := by
  apply (passesOn_findKakaoToken _).bind fun found => ?_
  apply (Prog.Raises.check _).bind fun kakaoToken => ?_
  cases kakaoToken.userId with
  | some userId =>
      apply (passesOn_mapTokenConsume (passesOn_consumeKakao _ _)).bind fun user => ?_
      apply (Prog.Raises.check _).bind fun user => ?_
      exact (passesOn_restore _).bind fun _ => passesOn_issueTokens user deviceId
  | none =>
      apply (passesOn_newKakaoUser _ _ _).bind fun newUser => ?_
      exact (mapDuplicateUserError_rejected (passesOn_mapTokenConsume
        (passesOn_createKakaoUser _ _ _))).bind fun user => passesOn_issueTokens user deviceId

theorem passesOn_findBothTokens (phoneToken kakaoToken : Text) :
    PassesOn pid (findBothTokens config phoneToken kakaoToken : Prog World ι Failure _) := by
  apply passesOn_anything.bind fun phoneFirst => ?_
  cases phoneFirst with
  | true =>
      exact (passesOn_requirePhoneToken _).bind fun _ =>
        (passesOn_findKakaoToken _).bind fun _ => .returned _
  | false =>
      exact (passesOn_findKakaoToken _).bind fun _ =>
        (passesOn_requirePhoneToken _).bind fun _ => .returned _

theorem passesOn_completeWithPhone (input : KakaoSignupInput) (phoneToken : Text)
    (deviceId : UuidText) :
    PassesOn pid (completeWithPhone config input phoneToken deviceId : Prog World ι Failure _) := by
  apply (passesOn_findBothTokens _ _).bind
  rintro ⟨phoneVerificationToken, found⟩
  apply (Prog.Raises.check _).bind fun kakaoToken => ?_
  cases kakaoToken.userId with
  | some userId =>
      apply passesOn_find.bind fun user => ?_
      apply (Prog.Raises.check _).bind fun user => ?_
      apply (Prog.Raises.check _).bind fun _ => ?_
      apply (mapDuplicateUserError_rejected (passesOn_mapTokenConsume
        (passesOn_attach _))).bind fun updatedUser => ?_
      apply (Prog.Raises.check _).bind fun updatedUser => ?_
      exact (passesOn_restore _).bind fun _ => passesOn_issueTokens updatedUser deviceId
  | none =>
      apply (passesOn_newKakaoUser _ _ _).bind fun newUser => ?_
      exact (mapDuplicateUserError_rejected (passesOn_mapTokenConsume
        (passesOn_createKakaoPhoneUser _ _ _ _))).bind fun user => passesOn_issueTokens user deviceId

theorem passesOn_completeKakaoPhoneSignup (input : KakaoSignupInput) (deviceId : UuidText) :
    PassesOn pid (completeKakaoPhoneSignup config input deviceId : Prog World ι Failure _) := by
  apply (Prog.Raises.check _).bind fun _ => ?_
  cases input.phoneVerificationToken.filter (· ≠ []) with
  | none => exact passesOn_completeWithoutPhone input deviceId
  | some phoneToken => exact passesOn_completeWithPhone input phoneToken deviceId

end Programs

/-! ### Runs -/

variable {config : AuthConfig}

theorem passesOn_authCode (pid : ℕ) (request : AuthRequest) (h : request.signsUp) :
    PassesOn pid (authCode config request) := by
  cases request with
  | signup input deviceId => exact passesOn_tracked (passesOn_signup input deviceId)
  | completeKakaoPhoneSignup input deviceId =>
      exact passesOn_tracked (passesOn_completeKakaoPhoneSignup input deviceId)
  | _ => cases h

/-- A rejected sign-up changes nothing from there on, and ends with the error of the database. -/
theorem passesOn_run {allowed : World → World → Prop} {db : Database}
    {c : Config World AuthRequest Failure AuthReply} (hrun : AuthRun config allowed db c) {pid : ℕ}
    {request : AuthRequest} {β : Type} {act : ℕ → World → β → World → Prop}
    {next : β → Prog World AuthRequest Failure AuthReply} {reply : β} {after : World} {name : String}
    (hthread : c.threads[pid]? = some ⟨request, .step act next⟩) (hsignup : request.signsUp)
    (hact : act pid c.state reply after) (hrejects : Rejects (.constraint name) c.state after) :
    Unchanged c.state after ∧ (next reply).Fails Unchanged pid (.constraint name) :=
  Reachable.raises passesOn_authCode hrun hthread hsignup hact hrejects

/-- **Duplicate accounts.** In every run, a call that signs someone up and is rejected for a
constraint leaves the tables as they were, and fails with the error of the database and not with
`duplicateUser`. -/
theorem signup_fails_raw {db : Database} {c : Config World AuthRequest Failure AuthReply}
    (hrun : AuthRun config anyStep db c) {pid : ℕ} {request : AuthRequest} {β : Type}
    {act : ℕ → World → β → World → Prop} {next : β → Prog World AuthRequest Failure AuthReply}
    {reply : β} {after : World} {name : String}
    (hthread : c.threads[pid]? = some ⟨request, .step act next⟩) (hsignup : request.signsUp)
    (hact : act pid c.state reply after) (hrejects : Rejects (.constraint name) c.state after) :
    Unchanged c.state after ∧ (next reply).Fails Unchanged pid (.constraint name) ∧
      ¬ (next reply).Fails Unchanged pid duplicateUser := by
  obtain ⟨hunchanged, hfails⟩ := passesOn_run hrun hthread hsignup hact hrejects
  refine ⟨hunchanged, hfails, ?_⟩
  intro hduplicate
  have : Nonempty World := ⟨after⟩
  cases hfails.unique hduplicate

/-! ### An e-mail that is taken -/

/-- The identifier that the new account draws. -/
def oneUserId : Uuid where
  text := "b0000000-0000-4000-8000-000000000002".toList
  wellFormed := by decide
  lowerCase := by decide

def freshToken (token : Text) : PhoneVerificationToken where
  tokenHash := AuthConfig.plain.hashToken token
  phoneE164 := "+821012345678"
  verificationId := 0
  expiresAt := 10000
  usedAt := none

/-- Someone has the e-mail, and a phone number was verified for somebody else. -/
def takenEmail : Database :=
  { Database.ofUsers [.visible kakaoUserId] with
    phoneVerificationTokens := [freshToken "token".toList] }

/-- A sign-up with the e-mail of the account. -/
def takenSignup : AuthRequest :=
  .signup ⟨"user@example.test".toList, "password1".toList, "user".toList, .female, "token".toList,
    true⟩ oneDevice

/-- The new account. -/
def takenUser : NewUser where
  userId := oneUserId
  email := "user@example.test"
  phone := none
  password := plainHash 0 "password1".toList
  userName := "user"
  gender := .female

/-- The sign-up from its insert on. -/
def insertTaken : Prog World AuthRequest Failure AuthReply :=
  tracked (do
    let user ← mapDuplicateUserError (consuming (transaction (record
      (consumptionTrace ⟨some (AuthConfig.plain.hashToken "token".toList), none,
        some takenUser.userId⟩)
      (writeSignup ⟨AuthConfig.plain.hashToken "token".toList, 5000, 5000⟩
        { takenUser with phone := some "+821012345678" }))))
    let user ← MonadExcept.ofExcept (requireFound invalidPhoneVerificationToken user)
    issueTokens .plain user oneDevice)

/-- What the sign-up has found and hashed, with the token it has locked. -/
def takenWorld : World :=
  { World.ofDatabase takenEmail with
    log := [(0, .hashed "password1".toList (plainHash 0 "password1".toList)),
      (0, .foundPhoneToken (freshToken "token".toList))]
    locks := acquire 0 .noKeyUpdate [.phoneToken (AuthConfig.plain.hashToken "token".toList)] [] }

/-- The sign-up up to its insert. -/
theorem takenSignup_runs : Runs anyStep 0 (authCode .plain takenSignup) (.ofDatabase takenEmail)
    insertTaken takenWorld := by
  let before : World := .ofDatabase takenEmail
  let found : World := { before with log := [(0, .foundPhoneToken (freshToken "token".toList))] }
  let hashed : World := { before with
    log := (0, .hashed "password1".toList (plainHash 0 "password1".toList)) :: found.log }
  have hnew : IsNewHash (plainHash 0 "password1".toList) found.log := by
    intro entry hmem candidate hentry
    obtain rfl := List.mem_singleton.1 hmem
    cases hentry
  have hemail : normalizeEmail "user@example.test".toList = .ok "user@example.test".toList := by
    decide +kernel
  have hname : normalizeUserName "user".toList = .ok "user".toList := by decide +kernel
  have hpassword : validatePassword "password1".toList = .ok "password1".toList := by decide +kernel
  have hfound : takenEmail.phoneVerificationTokens.find? (usableToken
      (AuthConfig.plain.hashToken "token".toList) 5000) = some (freshToken "token".toList) := by
    decide +kernel
  have hcode : authCode .plain takenSignup = tracked (do
      let _ ← requirePhoneVerificationToken .plain "token".toList
      let userId ← .anything Uuid
      let passwordHash ← hash .plain "password1".toList
      let user ← mapDuplicateUserError (signupWithPhoneVerificationToken .plain
        { takenUser with userId := userId, password := passwordHash } "token".toList)
      let user ← MonadExcept.ofExcept (requireFound invalidPhoneVerificationToken user)
      issueTokens .plain user oneDevice) := by
    unfold takenSignup authCode
    dsimp only
    unfold signup
    dsimp only
    rw [hemail, hname, hpassword]
    rfl
  rw [hcode]
  refine .step 5000 before ⟨trivial, rfl⟩ trivial ?_
  refine .step (.ok (some (freshToken "token".toList))) found (Locks.found hfound) trivial ?_
  refine .step oneUserId found rfl trivial ?_
  refine .step (plainHash 0 "password1".toList) hashed ⟨⟨0, rfl⟩, hnew, rfl⟩ trivial ?_
  refine .step 5000 hashed ⟨trivial, rfl⟩ trivial ?_
  refine .step 5000 hashed ⟨trivial, rfl⟩ trivial ?_
  refine .step (.ok (some (freshToken "token".toList))) takenWorld ?_ trivial .refl
  exact Locks.read hfound fun _ _ => free_of_unlocked

theorem takenSignup_reachable :
    AuthRun .plain anyStep takenEmail ⟨takenWorld, [⟨takenSignup, insertTaken⟩]⟩ :=
  Reachable.serve Relation.ReflTransGen.refl trivial trivial takenSignup_runs

/-- The database rejects the insert. -/
theorem insertTaken_rejected : writeSignup ⟨AuthConfig.plain.hashToken "token".toList, 5000, 5000⟩
    { takenUser with phone := some "+821012345678" } takenWorld.db =
      .error (.constraint "users_email_key") :=
  rfl

/-- The thread before its insert. -/
theorem takenSignup_thread : ∃ next : Except Failure (Option User) →
    Prog World AuthRequest Failure AuthReply,
    ([⟨takenSignup, insertTaken⟩] : List (Thread World AuthRequest Failure AuthReply))[0]? =
      some ⟨takenSignup, .step (fun pid w reply after => ∃ _ : Unit, True ∧ Records
        (consumptionTrace ⟨some (AuthConfig.plain.hashToken "token".toList), none,
          some takenUser.userId⟩)
        (writeSignup ⟨AuthConfig.plain.hashToken "token".toList, 5000, 5000⟩
          { takenUser with phone := some "+821012345678" }) pid w reply after) next⟩ :=
  ⟨_, rfl⟩

theorem signup_fails_raw_taken : ∃ next : Except Failure (Option User) →
    Prog World AuthRequest Failure AuthReply,
    Unchanged takenWorld (takenWorld.reject (.constraint "users_email_key")) ∧
      (next (.error (.constraint "users_email_key"))).Fails Unchanged 0
        (.constraint "users_email_key") ∧
      ¬ (next (.error (.constraint "users_email_key"))).Fails Unchanged 0 duplicateUser := by
  obtain ⟨next, hthread⟩ := takenSignup_thread
  exact ⟨next, signup_fails_raw takenSignup_reachable hthread rfl
    ⟨(), trivial, .rejected insertTaken_rejected⟩ ⟨⟨_, rfl⟩, rfl⟩⟩

/-- A sign-up with an e-mail that is taken does not fail as a duplicate account. -/
theorem duplicates_not_reported : ¬ DuplicatesReported .plain takenEmail := by
  intro hreported
  obtain ⟨next, hthread⟩ := takenSignup_thread
  have hrejects : Rejects (.constraint "users_email_key") takenWorld
      (takenWorld.reject (.constraint "users_email_key")) := ⟨⟨_, rfl⟩, rfl⟩
  obtain ⟨-, hduplicate⟩ := hreported _ takenSignup_reachable 0 _ _ _ next
    (.error (.constraint "users_email_key")) _ _ hthread rfl
    ⟨(), trivial, .rejected insertTaken_rejected⟩ hrejects (by decide)
  obtain ⟨-, hraw⟩ := passesOn_run takenSignup_reachable hthread rfl
    ⟨(), trivial, .rejected insertTaken_rejected⟩ hrejects
  have : Nonempty World := ⟨takenWorld⟩
  cases hraw.unique hduplicate

end ChatTea.Auth
