import ChatTea.Auth.Sessions
import ChatTea.Lib.Sequential

/-!
# Logging in within the grace period

An account whose deletion is scheduled is hidden until its owner comes back. Every login
that runs before the deadline is to bring it back; the one with a phone code does not.

## Main definitions

* `validate` — the strategy that guards the calls of a logged-in user
* `InGrace`, `Restored` — an account before and after its owner has come back
* `Standing` — what holds of an account while a call runs

## Main results

* `login_restores_iff` — the logins that restore the account
-/

namespace ChatTea.Auth

open Interleaving Phone RowLocks Table Transaction Users

/-- `JwtAccessTokenStrategy.validate` of an access token of the account. -/
def validate (userId : Uuid) (db : Database) : Bool :=
  (findUser userId db).any fun user => user.hiddenAt = none ∧ user.deletedAt = none

/-- What holds of an account, and of the clocks before a deadline. -/
structure Standing (userId : Uuid) (good : User → Prop) (deadline : Timestamp) (w : World) :
    Prop where
  known : ∃ user ∈ w.db.users, user.userId = userId
  good : ∀ user ∈ w.db.users, user.userId = userId → good user
  early : ∀ now, w.clocks now → now < deadline

/-- The deletion of the account is scheduled. -/
structure ScheduledFor (deadline : Timestamp) (user : User) : Prop where
  alive : user.deletedAt = none
  scheduled : user.deletionScheduledAt = some deadline

/-- The account is as if its deletion had never been scheduled. -/
structure Restored (user : User) : Prop where
  alive : user.deletedAt = none
  shown : user.hiddenAt = none
  unscheduled : user.deletionScheduledAt = none

/-- The deletion of the account is scheduled and not yet due. -/
abbrev InGrace (userId : Uuid) (deadline : Timestamp) : World → Prop :=
  Standing userId (ScheduledFor deadline) deadline

/-- The logins of an account that exists. -/
def AuthRequest.comesBack : AuthRequest → Bool
  | .signin _ _ | .loginWithKakaoAccessToken _ _ | .completeKakaoPhoneSignup _ _
  | .verifyPhoneCode _ _ => true
  | _ => false

def AuthRequest.verifiesCode : AuthRequest → Bool
  | .verifyPhoneCode _ _ => true
  | _ => false

/-! ### What the calls leave as it is -/

/-- An account after a write is one from before, maybe with another phone, or a new one. -/
structure KeepsAccounts (before after : List User) : Prop where
  known : ∀ user ∈ before, ∃ kept ∈ after, kept.userId = user.userId
  account : ∀ user ∈ after, (∃ old ∈ before, ∃ phone, user = { old with phone := phone }) ∨
    ∀ old ∈ before, old.userId ≠ user.userId

theorem KeepsAccounts.refl (users : List User) : KeepsAccounts users users where
  known := fun user hmem => ⟨user, hmem, rfl⟩
  account := fun user hmem => Or.inl ⟨user, hmem, user.phone, rfl⟩

theorem KeepsAccounts.append {users : List User} {user : User}
    (hnew : ∀ other ∈ users, other.userId ≠ user.userId) : KeepsAccounts users (users ++ [user]) where
  known := fun user hmem => ⟨user, List.mem_append_left _ hmem, rfl⟩
  account := by
    intro kept hmem
    rcases List.mem_append.1 hmem with hold | hmem
    · exact Or.inl ⟨kept, hold, kept.phone, rfl⟩
    · obtain rfl := List.mem_singleton.1 hmem
      exact Or.inr hnew

section Standing

variable {pid : ℕ} {userId : Uuid} {good : User → Prop} {deadline : Timestamp} {w after : World}

theorem Standing.keep (h : Standing userId good deadline w)
    (hphone : ∀ user phone, good user → good { user with phone := phone })
    (hkept : KeepsAccounts w.db.users after.db.users) (hclocks : after.clocks = w.clocks) :
    Standing userId good deadline after where
  known := by
    obtain ⟨user, hmem, rfl⟩ := h.known
    exact hkept.known user hmem
  good := by
    intro user hmem hsame
    rcases hkept.account user hmem with ⟨old, hold, phone, rfl⟩ | hnew
    · exact hphone old phone (h.good old hold hsame)
    · obtain ⟨other, hother, hid⟩ := h.known
      exact absurd (hid.trans hsame.symm) (hnew other hother)
  early := by
    rw [hclocks]
    exact h.early

/-- A step that touches no account and no clock. -/
theorem Standing.same (h : Standing userId good deadline w) (husers : after.db.users = w.db.users)
    (hclocks : after.clocks = w.clocks) : Standing userId good deadline after where
  known := by
    rw [husers]
    exact h.known
  good := by
    rw [husers]
    exact h.good
  early := by
    rw [hclocks]
    exact h.early

end Standing

/-! ### What each access to the database keeps -/

section Preserves

variable {ι β γ : Type} {pid : ℕ} {userId : Uuid} {good : User → Prop} {deadline : Timestamp}
  {config : AuthConfig}

theorem preserves_ofExcept {outcome : Except Failure β} {assertion : World → Prop} :
    (MonadExcept.ofExcept outcome : Prog World ι Failure β).Preserves pid assertion := by
  cases outcome with
  | ok value => trivial
  | error failure => trivial

theorem preserves_clock {assertion : World → Prop} :
    (clock : Prog World ι Failure Timestamp).Preserves pid assertion := by
  refine Prog.preserves_atomic fun before reply after hbefore hact => ?_
  rw [hact.2]
  exact hbefore

theorem preserves_lock {trace : β → Trace} {mode : Mode} {rows : Database → List LockedRow}
    {read : Database → β} :
    (lock trace mode rows read : Prog World ι Failure β).Preserves pid
      (Standing userId good deadline) := by
  refine Prog.preserves_attempt fun before reply after hbefore hact => ?_
  cases hact with
  | locked free => exact hbefore.same rfl rfl
  | unreachable failure => exact hbefore

theorem preserves_note {events : List Event} :
    (note events : Prog World ι Failure Unit).Preserves pid (Standing userId good deadline) := by
  refine Prog.preserves_atomic fun before reply after hbefore hact => ?_
  rw [hact]
  exact hbefore.same rfl rfl

theorem preserves_hash {candidate : Text} :
    (hash config candidate : Prog World ι Failure String).Preserves pid
      (Standing userId good deadline) := by
  refine Prog.preserves_atomic fun before reply after hbefore hact => ?_
  rw [hact.2.2]
  exact hbefore.same rfl rfl

/-- A write that keeps the accounts. -/
theorem preserves_recording {κ : Type} {isNew : κ → List (ℕ × Event) → Prop} {trace : β → Trace}
    {call : κ → Call Database Failure β}
    (hphone : ∀ user phone, good user → good { user with phone := phone })
    (hcall : ∀ drawn db value db', call drawn db = .ok (value, db') →
      KeepsAccounts db.users db'.users) :
    (recording isNew trace call : Prog World ι Failure β).Preserves pid
      (Standing userId good deadline) := by
  refine Prog.preserves_attempt fun before reply after hbefore hact => ?_
  obtain ⟨drawn, -, hact⟩ := hact
  cases hact with
  | committed returns unlocked => exact hbefore.keep hphone (hcall _ _ _ _ returns) rfl
  | rejected throws => exact hbefore.same rfl rfl
  | unreachable failure => exact hbefore
  | answerLost failure returns unlocked => exact hbefore.keep hphone (hcall _ _ _ _ returns) rfl

theorem preserves_transaction {body : Prog World ι Failure β}
    (hbody : body.Preserves pid (Standing userId good deadline)) :
    (transaction body).Preserves pid (Standing userId good deadline) := by
  refine Prog.Preserves.tryCatch hbody fun failure => Prog.Preserves.bind ?_ fun _ => trivial
  refine Prog.preserves_atomic fun before reply after hbefore hact => ?_
  rw [hact]
  exact hbefore.same rfl rfl

theorem preserves_consuming {operation : Prog World ι Failure β}
    (h : operation.Preserves pid (Standing userId good deadline)) :
    (consuming operation).Preserves pid (Standing userId good deadline) := by
  refine Prog.Preserves.tryCatch h fun failure => Prog.Preserves.bind ?_ fun _ => trivial
  refine Prog.preserves_atomic fun before reply after hbefore hact => ?_
  rw [hact]
  split
  · exact hbefore
  · exact hbefore.same rfl rfl

theorem preserves_mapError {operation : Prog World ι Failure β}
    (h : operation.Preserves pid (Standing userId good deadline)) :
    (mapTokenConsumeError operation).Preserves pid (Standing userId good deadline) ∧
      (mapDuplicateUserError operation).Preserves pid (Standing userId good deadline) := by
  constructor
  · refine Prog.Preserves.tryCatch h fun failure => ?_
    split
    · trivial
    · split <;> trivial
  · refine Prog.Preserves.tryCatch h fun failure => ?_
    split <;> trivial

/-! ### What the calls of the repositories keep -/

section Calls

variable (hphone : ∀ user phone, good user → good { user with phone := phone })

theorem preserves_findSigninUser {input : SigninInput} {email : Text} :
    (findSigninUser input email : Prog World ι Failure _).Preserves pid
      (Standing userId good deadline) := by
  refine Prog.Preserves.bind preserves_lock fun user => ?_
  cases user with
  | some user => trivial
  | none =>
      dsimp only
      split
      · exact preserves_lock
      · trivial

theorem preserves_requirePhoneVerificationToken {token : Text} :
    (requirePhoneVerificationToken config token : Prog World ι Failure _).Preserves pid
      (Standing userId good deadline) :=
  Prog.Preserves.bind (Prog.Preserves.bind preserves_clock fun _ => preserves_lock)
    fun _ => preserves_ofExcept

theorem preserves_findKakaoPhoneVerificationToken {token : Text} :
    (findKakaoPhoneVerificationToken config token : Prog World ι Failure _).Preserves pid
      (Standing userId good deadline) :=
  Prog.Preserves.bind preserves_clock fun _ => preserves_lock

theorem preserves_findUserByIdentity {provider providerUserId : String} :
    (findUserByIdentity provider providerUserId : Prog World ι Failure _).Preserves pid
      (Standing userId good deadline) := by
  refine Prog.Preserves.bind preserves_lock fun identity => ?_
  cases identity with
  | none => trivial
  | some identity => exact preserves_lock

theorem preserves_lockPhoneToken {token : Text} :
    (lockPhoneToken config token : Prog World ι Failure _).Preserves pid
      (Standing userId good deadline) :=
  Prog.Preserves.bind preserves_clock fun _ => Prog.Preserves.bind preserves_clock fun _ =>
    Prog.Preserves.bind preserves_lock fun _ => trivial

theorem preserves_lockKakaoToken {token : Text} :
    (lockKakaoToken config token : Prog World ι Failure _).Preserves pid
      (Standing userId good deadline) :=
  Prog.Preserves.bind preserves_clock fun _ => Prog.Preserves.bind preserves_clock fun _ =>
    Prog.Preserves.bind preserves_lock fun _ => trivial

include hphone

/-- A write that leaves the table of the accounts alone. -/
theorem preserves_aside {κ : Type} {isNew : κ → List (ℕ × Event) → Prop} {trace : β → Trace}
    {call : κ → Call Database Failure β}
    (hcall : ∀ drawn db value db', call drawn db = .ok (value, db') → db'.users = db.users) :
    (recording isNew trace call : Prog World ι Failure β).Preserves pid
      (Standing userId good deadline) := by
  refine preserves_recording hphone fun drawn db value db' hok => ?_
  rw [hcall drawn db value db' hok]
  exact .refl _

theorem preserves_consumePhoneVerificationToken {token : Text} :
    (consumePhoneVerificationToken config token : Prog World ι Failure _).Preserves pid
      (Standing userId good deadline) := by
  refine Prog.Preserves.bind preserves_clock fun _ => Prog.Preserves.bind preserves_clock fun _ => ?_
  refine preserves_consuming (preserves_aside hphone fun _ db value db' hok => ?_)
  obtain ⟨-, rfl⟩ := Prod.mk.inj (Except.ok.inj hok)
  rfl

theorem preserves_consumeKakaoPhoneVerificationTokenForUser {owner : Uuid} {token : Text} :
    (consumeKakaoPhoneVerificationTokenForUser config owner token :
      Prog World ι Failure _).Preserves pid (Standing userId good deadline) := by
  refine preserves_consuming (preserves_transaction
    (Prog.Preserves.bind preserves_lockKakaoToken fun locked => ?_))
  refine Prog.Preserves.bind preserves_ofExcept fun _ => Prog.Preserves.bind preserves_lock fun _ => ?_
  refine preserves_aside hphone fun _ db value db' hok => ?_
  obtain ⟨-, rfl⟩ := Prod.mk.inj (Except.ok.inj hok)
  rfl

theorem preserves_attachPhoneWithKakaoPhoneVerificationTokens {input : AttachInput} :
    (attachPhoneWithKakaoPhoneVerificationTokens config input :
      Prog World ι Failure _).Preserves pid (Standing userId good deadline) := by
  refine preserves_consuming (preserves_transaction
    (Prog.Preserves.bind preserves_lockPhoneToken fun phone => ?_))
  refine Prog.Preserves.bind preserves_lockKakaoToken fun kakao => ?_
  refine Prog.Preserves.bind preserves_ofExcept fun _ =>
    Prog.Preserves.bind preserves_ofExcept fun _ => ?_
  refine preserves_recording hphone fun _ db value db' hok => ?_
  obtain ⟨_, -, hok⟩ := bind_eq_ok_iff.1 hok
  obtain ⟨-, rfl⟩ := Prod.mk.inj (Except.ok.inj hok)
  constructor
  · intro user hmem
    refine ⟨_, List.mem_map_of_mem hmem, ?_⟩
    dsimp only
    split <;> rfl
  · intro user hmem
    rcases mem_updateWhere.1 hmem with ⟨old, hold, -, rfl⟩ | ⟨hold, -⟩
    · exact Or.inl ⟨old, hold, _, rfl⟩
    · exact Or.inl ⟨user, hold, user.phone, rfl⟩

theorem preserves_issueTokens {user : User} {deviceId : UuidText} :
    (issueTokens config user deviceId : Prog World ι Failure _).Preserves pid
      (Standing userId good deadline) := by
  refine Prog.Preserves.bind (Prog.Preserves.bind preserves_clock fun _ => trivial) fun _ => ?_
  refine Prog.Preserves.bind (Prog.Preserves.bind preserves_clock fun _ => trivial) fun token => ?_
  refine Prog.Preserves.bind (Prog.Preserves.bind preserves_ofExcept fun _ =>
    Prog.Preserves.bind preserves_hash fun _ => trivial) fun session => ?_
  refine Prog.Preserves.bind ?_ fun _ => Prog.Preserves.bind preserves_note fun _ => trivial
  refine preserves_aside hphone fun _ db value db' hok => ?_
  obtain ⟨_, -, hok⟩ := bind_eq_ok_iff.1 hok
  obtain ⟨-, rfl⟩ := Prod.mk.inj (Except.ok.inj hok)
  rfl

/-- A new account is not the one that stands. -/
theorem alone_createsUser {trace : User → Trace} {call : Call Database Failure User} {w : World}
    (hcall : ∀ db user db', call db = .ok (user, db') →
      db'.users = db.users ++ [user] ∧ ∀ other ∈ db.users, other.userId ≠ user.userId)
    (hw : Standing userId good deadline w) :
    (record trace call : Prog World ι Failure User).Alone pid
      (fun user s => Standing userId good deadline s ∧ user.userId ≠ userId)
      (fun _ _ => True) w := by
  refine Prog.alone_attempt (fun user after hact => ?_) fun _ _ _ => trivial
  obtain ⟨_, _, hact⟩ := hact
  cases hact with
  | @committed _ db returns unlocked =>
      obtain ⟨husers, hnew⟩ := hcall _ _ _ returns
      have hkept : KeepsAccounts w.db.users db.users := by
        rw [husers]
        exact .append hnew
      refine ⟨hw.keep hphone hkept rfl, ?_⟩
      · obtain ⟨other, hmem, hid⟩ := hw.known
        have hother := hnew other hmem
        rw [hid] at hother
        exact Ne.symm hother

end Calls

/-! ### Logging in -/

/-- If a reply has tokens of the account, then this holds of the account. -/
def Leaves (userId : Uuid) (good : User → Prop) (deadline : Timestamp) (reply : AuthReply)
    (w : World) : Prop :=
  ∀ payload, reply = .tokens userId payload → Standing userId good deadline w

theorem alone_issueTokens {user : User} {deviceId : UuidText} {w : World}
    (hphone : ∀ user phone, good user → good { user with phone := phone })
    (hw : user.userId = userId → Standing userId good deadline w) :
    (issueTokens config user deviceId : Prog World ι Failure _).Alone pid
      (Leaves userId good deadline) (fun _ _ => True) w := by
  by_cases hsame : user.userId = userId
  · exact ((preserves_issueTokens hphone).alone (hw hsame)).mono (fun _ _ hs _ _ => hs)
      fun _ _ _ => trivial
  · -- The tokens are not those of the account.
    refine Prog.alone_bind_of_forall fun accessToken s => ?_
    refine Prog.alone_bind_of_forall fun refreshToken s => ?_
    refine Prog.alone_bind_of_forall fun session s => ?_
    refine Prog.alone_bind_of_forall fun _ s => ?_
    refine Prog.alone_bind_of_forall fun _ s => ?_
    intro payload hreply
    exact absurd (AuthReply.tokens.inj hreply).1 hsame

/-- Before the deadline `restoreIfWithinGrace` restores the account. -/
theorem alone_restoreIfWithinGrace {user : User} {w : World} (hw : InGrace userId deadline w) :
    (restoreIfWithinGrace user.userId.toUuidText : Prog World ι Failure _).Alone pid
      (fun _ s => user.userId = userId → Standing userId Restored deadline s)
      (fun _ _ => True) w := by
  refine Prog.Preserves.alone_bind preserves_ofExcept hw fun _ w hw => Prog.Alone.bind ?_
  rintro now after ⟨hnow, rfl⟩
  refine Prog.alone_attempt (fun restored after hact hsame => ?_) fun _ _ _ => trivial
  cases hact with
  | returned returns unlocked =>
      obtain ⟨-, rfl⟩ := Prod.mk.inj (Except.ok.inj returns)
      have hkey : user.userId.toUuidText.toUuid = userId := by rw [Uuid.toUuid_eq, hsame]
      constructor
      · obtain ⟨old, hmem, hid⟩ := hw.known
        refine ⟨_, List.mem_map_of_mem hmem, ?_⟩
        split <;> exact hid
      · intro back hmem hid
        have hwithin : ∀ old ∈ after.db.users, old.userId = userId →
            canRestore user.userId.toUuidText.toUuid now old = true := by
          intro old hold hid
          have hgood := hw.good old hold hid
          refine decide_eq_true ⟨hid.trans hkey.symm, ?_, hgood.alive⟩
          rw [hgood.scheduled]
          exact decide_eq_true (hw.early now hnow)
        rcases mem_updateWhere.1 hmem with ⟨old, hold, -, rfl⟩ | ⟨hold, hnot⟩
        · exact ⟨(hw.good old hold hid).alive, rfl, rfl⟩
        · exact absurd (hwithin back hold hid) hnot
      · exact hw.early

theorem Restored.phone (user : User) (phone : Option String) (h : Restored user) :
    Restored { user with phone := phone } := ⟨h.alive, h.shown, h.unscheduled⟩

theorem ScheduledFor.phone (user : User) (phone : Option String) (h : ScheduledFor deadline user) :
    ScheduledFor deadline { user with phone := phone } := ⟨h.alive, h.scheduled⟩

/-- The end of a login that restores the account it has found. -/
theorem alone_comeBack {user : User} {deviceId : UuidText} {w : World}
    (hw : InGrace userId deadline w) :
    (restoreIfWithinGrace user.userId.toUuidText >>= fun _ => issueTokens config user deviceId :
      Prog World ι Failure _).Alone pid (Leaves userId Restored deadline) (fun _ _ => True) w :=
  Prog.Alone.bind ((alone_restoreIfWithinGrace hw).mono
    (fun _ _ hs => alone_issueTokens Restored.phone hs) fun _ _ _ => trivial)

theorem alone_signin {input : SigninInput} {deviceId : UuidText} {w : World}
    (hw : InGrace userId deadline w) :
    (signin config input deviceId : Prog World ι Failure _).Alone pid
      (Leaves userId Restored deadline) (fun _ _ => True) w := by
  refine Prog.Preserves.alone_bind preserves_ofExcept hw fun email w hw => ?_
  refine Prog.Preserves.alone_bind preserves_findSigninUser hw fun user w hw => ?_
  refine Prog.Preserves.alone_bind preserves_ofExcept hw fun user w hw => ?_
  refine Prog.Preserves.alone_bind preserves_ofExcept hw fun _ w hw => ?_
  refine Prog.Preserves.alone_bind preserves_requirePhoneVerificationToken hw fun token w hw => ?_
  refine Prog.Preserves.alone_bind preserves_ofExcept hw fun _ w hw => ?_
  refine Prog.Preserves.alone_bind
    (preserves_consumePhoneVerificationToken ScheduledFor.phone) hw fun consumed w hw => ?_
  refine Prog.Preserves.alone_bind preserves_ofExcept hw fun _ w hw => ?_
  exact alone_comeBack hw

theorem alone_loginWithKakaoAccessToken {accessToken : Text} {deviceId : UuidText} {w : World}
    (hw : InGrace userId deadline w) :
    (loginWithKakaoAccessToken config accessToken deviceId : Prog World ι Failure _).Alone pid
      (Leaves userId Restored deadline) (fun _ _ => True) w := by
  have hprofile : (getKakaoProfile accessToken : Prog World ι Failure _).Preserves pid
      (InGrace userId deadline) :=
    Prog.Preserves.bind preserves_ofExcept fun _ =>
      Prog.Preserves.bind Prog.preserves_anything fun _ => preserves_ofExcept
  refine Prog.Preserves.alone_bind hprofile hw fun profile w hw => ?_
  refine Prog.Preserves.alone_bind preserves_findUserByIdentity hw fun foundUser w hw => ?_
  split
  · exact alone_comeBack hw
  · -- A verification token is no session.
    refine Prog.alone_bind_of_forall fun token s payload hreply => ?_
    cases hreply

/-- What a wrapper that only maps errors returns. -/
theorem alone_mapError {β : Type} {operation : Prog World ι Failure β} {w : World}
    {returns : β → World → Prop} (h : operation.Alone pid returns (fun _ _ => True) w) :
    (mapTokenConsumeError operation).Alone pid returns (fun _ _ => True) w ∧
      (mapDuplicateUserError operation).Alone pid returns (fun _ _ => True) w := by
  constructor
  · refine Prog.Alone.tryCatch (h.mono (fun _ _ hs => hs) fun failure s _ => ?_)
    split
    · trivial
    · split <;> trivial
  · refine Prog.Alone.tryCatch (h.mono (fun _ _ hs => hs) fun failure s _ => ?_)
    split <;> trivial

theorem alone_transaction {β : Type} {body : Prog World ι Failure β} {w : World}
    {returns : β → World → Prop} (h : body.Alone pid returns (fun _ _ => True) w) :
    (transaction body).Alone pid returns (fun _ _ => True) w :=
  Prog.Alone.tryCatch (h.mono (fun _ _ hs => hs) fun _ _ _ _ _ _ => trivial)

theorem alone_consuming {β : Type} {operation : Prog World ι Failure β} {w : World}
    {returns : β → World → Prop} (h : operation.Alone pid returns (fun _ _ => True) w) :
    (consuming operation).Alone pid returns (fun _ _ => True) w :=
  Prog.Alone.tryCatch (h.mono (fun _ _ hs => hs) fun _ _ _ _ _ _ => trivial)

theorem preserves_newKakaoUser {input : KakaoSignupInput} {token : KakaoPhoneVerificationToken}
    {phone : Option String} :
    (newKakaoUser config input token phone : Prog World ι Failure _).Preserves pid
      (Standing userId good deadline) :=
  Prog.Preserves.bind preserves_ofExcept fun _ => Prog.Preserves.bind preserves_ofExcept fun _ =>
    Prog.Preserves.bind preserves_ofExcept fun _ => Prog.Preserves.bind Prog.preserves_anything fun _ =>
      Prog.Preserves.bind Prog.preserves_anything fun _ => Prog.Preserves.bind preserves_hash fun _ =>
        trivial

/-- A new account is none that has been there. -/
theorem writeKakaoUser_new {use : UseInput} {input : NewUser} {providerUserId : String}
    {db db' : Database} {user : User}
    (h : writeKakaoUser use input providerUserId db = .ok (user, db')) :
    db'.users = db.users ++ [user] ∧ ∀ other ∈ db.users, other.userId ≠ user.userId := by
  obtain ⟨rfl, hnew, -, htables⟩ := writeKakaoUser_ok h
  exact ⟨congrArg AuthTables.users htables, hnew⟩

theorem alone_createKakaoUserWithToken {input : NewUser} {providerUserId : String} {token : Text}
    {w : World} (hw : InGrace userId deadline w) :
    (createKakaoUserWithToken config input providerUserId token : Prog World ι Failure _).Alone pid
      (fun user s => InGrace userId deadline s ∧ user.userId ≠ userId) (fun _ _ => True) w := by
  refine alone_consuming (alone_transaction
    (Prog.Preserves.alone_bind preserves_lockKakaoToken hw fun locked w hw => ?_))
  refine Prog.Preserves.alone_bind preserves_ofExcept hw fun _ w hw => ?_
  exact alone_createsUser ScheduledFor.phone (fun _ _ _ hok => writeKakaoUser_new hok) hw

theorem alone_createKakaoPhoneUserWithTokens {input : NewUser} {providerUserId : String}
    {phoneToken kakaoToken : Text} {w : World} (hw : InGrace userId deadline w) :
    (createKakaoPhoneUserWithTokens config input providerUserId phoneToken kakaoToken :
      Prog World ι Failure _).Alone pid
      (fun user s => InGrace userId deadline s ∧ user.userId ≠ userId) (fun _ _ => True) w := by
  refine alone_consuming (alone_transaction
    (Prog.Preserves.alone_bind preserves_lockPhoneToken hw fun _ w hw => ?_))
  refine Prog.Preserves.alone_bind preserves_lockKakaoToken hw fun _ w hw => ?_
  refine Prog.Preserves.alone_bind preserves_ofExcept hw fun _ w hw => ?_
  refine Prog.Preserves.alone_bind preserves_ofExcept hw fun _ w hw => ?_
  refine alone_createsUser ScheduledFor.phone (fun db user db' hok => ?_) hw
  have hnew := writeKakaoUser_new hok
  exact hnew

/-- The end of a login that has made a new account. -/
theorem alone_createdUser {operation : Prog World ι Failure User} {deviceId : UuidText} {w : World}
    (h : operation.Alone pid (fun user s => InGrace userId deadline s ∧ user.userId ≠ userId)
      (fun _ _ => True) w) :
    (operation >>= fun user => issueTokens config user deviceId).Alone pid
      (Leaves userId Restored deadline) (fun _ _ => True) w :=
  Prog.Alone.bind (h.mono (fun _ _ hs => alone_issueTokens Restored.phone fun hsame =>
    absurd hsame hs.2) fun _ _ _ => trivial)

theorem alone_completeWithoutPhone {input : KakaoSignupInput} {deviceId : UuidText} {w : World}
    (hw : InGrace userId deadline w) :
    (completeWithoutPhone config input deviceId : Prog World ι Failure _).Alone pid
      (Leaves userId Restored deadline) (fun _ _ => True) w := by
  refine Prog.Preserves.alone_bind preserves_findKakaoPhoneVerificationToken hw fun token w hw => ?_
  refine Prog.Preserves.alone_bind preserves_ofExcept hw fun token w hw => ?_
  split
  · refine Prog.Preserves.alone_bind (preserves_mapError
      (preserves_consumeKakaoPhoneVerificationTokenForUser ScheduledFor.phone)).1 hw
      fun user w hw => ?_
    refine Prog.Preserves.alone_bind preserves_ofExcept hw fun user w hw => ?_
    exact alone_comeBack hw
  · refine Prog.Preserves.alone_bind preserves_newKakaoUser hw fun newUser w hw => ?_
    exact alone_createdUser (alone_mapError (alone_mapError (alone_createKakaoUserWithToken hw)).1).2

theorem preserves_findBothTokens {phoneToken kakaoToken : Text} :
    (findBothTokens config phoneToken kakaoToken : Prog World ι Failure _).Preserves pid
      (Standing userId good deadline) := by
  refine Prog.Preserves.bind Prog.preserves_anything fun phoneFirst => ?_
  split
  · exact Prog.Preserves.bind preserves_requirePhoneVerificationToken fun _ =>
      Prog.Preserves.bind preserves_findKakaoPhoneVerificationToken fun _ => trivial
  · exact Prog.Preserves.bind preserves_findKakaoPhoneVerificationToken fun _ =>
      Prog.Preserves.bind preserves_requirePhoneVerificationToken fun _ => trivial

theorem alone_completeWithPhone {input : KakaoSignupInput} {phoneToken : Text}
    {deviceId : UuidText} {w : World} (hw : InGrace userId deadline w) :
    (completeWithPhone config input phoneToken deviceId : Prog World ι Failure _).Alone pid
      (Leaves userId Restored deadline) (fun _ _ => True) w := by
  refine Prog.Preserves.alone_bind preserves_findBothTokens hw fun found w hw => ?_
  refine Prog.Preserves.alone_bind preserves_ofExcept hw fun token w hw => ?_
  split
  · refine Prog.Preserves.alone_bind preserves_lock hw fun user w hw => ?_
    refine Prog.Preserves.alone_bind preserves_ofExcept hw fun user w hw => ?_
    refine Prog.Preserves.alone_bind preserves_ofExcept hw fun _ w hw => ?_
    refine Prog.Preserves.alone_bind (preserves_mapError (preserves_mapError
      (preserves_attachPhoneWithKakaoPhoneVerificationTokens ScheduledFor.phone)).1).2 hw
      fun updated w hw => ?_
    refine Prog.Preserves.alone_bind preserves_ofExcept hw fun updated w hw => ?_
    exact alone_comeBack hw
  · refine Prog.Preserves.alone_bind preserves_newKakaoUser hw fun newUser w hw => ?_
    exact alone_createdUser
      (alone_mapError (alone_mapError (alone_createKakaoPhoneUserWithTokens hw)).1).2

theorem alone_completeKakaoPhoneSignup {input : KakaoSignupInput} {deviceId : UuidText} {w : World}
    (hw : InGrace userId deadline w) :
    (completeKakaoPhoneSignup config input deviceId : Prog World ι Failure _).Alone pid
      (Leaves userId Restored deadline) (fun _ _ => True) w := by
  refine Prog.Preserves.alone_bind preserves_ofExcept hw fun _ w hw => ?_
  split
  · exact alone_completeWithoutPhone hw
  · exact alone_completeWithPhone hw

/-- Its end changes nothing about a call. -/
theorem alone_tracked {call : Prog World ι Failure AuthReply} {w : World}
    (h : call.Alone pid (Leaves userId good deadline) (fun _ _ => True) w) :
    (tracked call).Alone pid (Leaves userId good deadline) (fun _ _ => True) w := by
  refine Prog.Alone.bind (Prog.Alone.tryCatch (h.mono (fun reply s hs => ?_) fun _ _ _ => ?_))
  · refine Prog.Alone.bind ?_
    rintro _ after rfl payload hreply
    exact (hs payload hreply).same rfl rfl
  · intro _ after _
    trivial

/-! ### The login with a phone code -/

theorem preserves_updateVerification {trace : Option PhoneVerification → Trace}
    {cond : Database → PhoneVerification → Bool} {set : PhoneVerification → PhoneVerification}
    (hphone : ∀ user phone, good user → good { user with phone := phone }) :
    (record trace (updateVerification cond set) : Prog World ι Failure _).Preserves pid
      (Standing userId good deadline) := by
  refine preserves_aside hphone fun _ db value db' hok => ?_
  obtain ⟨-, rfl⟩ := Prod.mk.inj (Except.ok.inj hok)
  rfl

theorem preserves_guessCode {id : RowId} {phoneE164 : String} {purposes : List String} {code : Text}
    (hphone : ∀ user phone, good user → good { user with phone := phone }) :
    (guessCode config id phoneE164 purposes code : Prog World ι Failure _).Preserves pid
      (Standing userId good deadline) := by
  refine Prog.Preserves.bind (Prog.Preserves.bind preserves_clock fun _ =>
    preserves_updateVerification hphone) fun claimed => ?_
  refine Prog.Preserves.bind preserves_ofExcept fun claimed => ?_
  exact Prog.Preserves.bind (Prog.Preserves.bind preserves_note fun _ => preserves_ofExcept)
    fun _ => trivial

theorem preserves_issuePhoneToken {phoneE164 : String} {id : RowId}
    (hphone : ∀ user phone, good user → good { user with phone := phone }) :
    (issuePhoneToken config phoneE164 id : Prog World ι Failure _).Preserves pid
      (Standing userId good deadline) := by
  refine Prog.Preserves.bind Prog.preserves_anything fun _ =>
    Prog.Preserves.bind preserves_clock fun _ => Prog.Preserves.bind preserves_clock fun _ => ?_
  refine Prog.Preserves.bind ?_ fun _ => trivial
  refine preserves_aside hphone fun _ db value db' hok => ?_
  obtain ⟨_, -, hok⟩ := bind_eq_ok_iff.1 hok
  obtain ⟨_, -, hok⟩ := bind_eq_ok_iff.1 hok
  obtain ⟨-, rfl⟩ := Prod.mk.inj (Except.ok.inj hok)
  rfl

/-- `verifyPhoneCode` leaves the account as it is. -/
theorem preserves_verifyPhoneCode {input : VerifyPhoneCodeInput} {deviceId : UuidText}
    (hphone : ∀ user phone, good user → good { user with phone := phone }) :
    (verifyPhoneCode config input deviceId : Prog World ι Failure _).Preserves pid
      (Standing userId good deadline) := by
  refine Prog.Preserves.bind preserves_ofExcept fun phoneE164 => ?_
  refine Prog.Preserves.bind (Prog.Preserves.bind preserves_lock fun _ =>
    Prog.Preserves.bind preserves_ofExcept fun _ => Prog.Preserves.bind preserves_ofExcept fun _ =>
      Prog.Preserves.bind preserves_ofExcept fun _ =>
        Prog.Preserves.bind preserves_ofExcept fun _ => trivial) fun verification => ?_
  refine Prog.Preserves.bind preserves_ofExcept fun _ => ?_
  refine Prog.Preserves.bind (preserves_guessCode hphone) fun claimed => ?_
  refine Prog.Preserves.bind (Prog.Preserves.bind preserves_clock fun _ =>
    Prog.Preserves.bind preserves_clock fun _ => preserves_updateVerification hphone)
    fun verified => ?_
  refine Prog.Preserves.bind preserves_ofExcept fun verified => ?_
  refine Prog.Preserves.bind preserves_lock fun user => ?_
  split
  · exact preserves_issueTokens hphone
  · exact Prog.Preserves.bind (preserves_issuePhoneToken hphone) fun _ => trivial

end Preserves

/-! ### The logins that restore -/

/-- The owner of the account is let in again, and no worker erases it. -/
structure IsBack (userId : Uuid) (db : Database) : Prop where
  restored : ∀ user ∈ db.users, user.userId = userId → Restored user
  accepted : validate userId db = true
  kept : ∀ input : DeletionJobInput, input.userId = userId →
    ∀ user ∈ db.users, canAnonymize input user = false

theorem Standing.isBack {userId : Uuid} {deadline : Timestamp} {w : World}
    (h : Standing userId Restored deadline w) : IsBack userId w.db where
  restored := h.good
  accepted := by
    unfold validate
    cases hfound : findUser userId w.db with
    | none =>
        obtain ⟨user, hmem, hid⟩ := h.known
        exact absurd hid (lookup_eq_none.1 hfound user hmem)
    | some user =>
        obtain ⟨hmem, hid⟩ := mem_of_lookup hfound
        have hback := h.good user hmem hid
        exact decide_eq_true ⟨hback.shown, hback.alive⟩
  kept := by
    intro input hinput user hmem
    refine decide_eq_false fun hcan => ?_
    have hback := h.good user hmem (hcan.1.trans hinput)
    rw [hback.unscheduled] at hcan
    cases hcan.2.2.1

/-- Every login but the one with a phone code restores the account. -/
theorem alone_authCode {config : AuthConfig} {request : AuthRequest} {userId : Uuid}
    {deadline : Timestamp} {w : World} {pid : ℕ} (hpath : request.comesBack = true)
    (hother : request.verifiesCode = false) (hgrace : InGrace userId deadline w) :
    (authCode config request).Alone pid (Leaves userId Restored deadline) (fun _ _ => True) w := by
  cases request with
  | signin input deviceId => exact alone_tracked (alone_signin hgrace)
  | loginWithKakaoAccessToken accessToken deviceId =>
      exact alone_tracked (alone_loginWithKakaoAccessToken hgrace)
  | completeKakaoPhoneSignup input deviceId =>
      exact alone_tracked (alone_completeKakaoPhoneSignup hgrace)
  | verifyPhoneCode input deviceId => cases hother
  | _ => cases hpath

/-- The login with a phone code leaves it scheduled for deletion. -/
theorem alone_verifiesCode {config : AuthConfig} {request : AuthRequest} {userId : Uuid}
    {deadline : Timestamp} {w : World} {pid : ℕ} (hverifies : request.verifiesCode = true)
    (hgrace : InGrace userId deadline w) :
    (authCode config request).Alone pid (Leaves userId (ScheduledFor deadline) deadline)
      (fun _ _ => True) w := by
  cases request with
  | verifyPhoneCode input deviceId =>
      refine alone_tracked (((preserves_verifyPhoneCode ScheduledFor.phone).alone hgrace).mono ?_ ?_)
      · exact fun _ _ hs _ _ => hs
      · exact fun _ _ _ => trivial
  | _ => cases hverifies

/-- A login of an account within its grace period that returns tokens brings the account
back exactly if it is not the login with a phone code. -/
theorem login_restores_iff (config : AuthConfig) (request : AuthRequest)
    (hpath : request.comesBack = true) (userId : Uuid) (deadline : Timestamp) (w w' : World)
    (hgrace : InGrace userId deadline w) (pid : ℕ) (payload : TokenPayload)
    (hruns : Runs anyStep pid (authCode config request) w (.done (.tokens userId payload)) w') :
    IsBack userId w'.db ↔ request.verifiesCode = false := by
  constructor
  · intro hback
    by_contra hverifies
    have hverifies := Bool.of_not_eq_false hverifies
    have hscheduled := (alone_verifiesCode hverifies hgrace).of_runs hruns payload rfl
    obtain ⟨user, hmem, hid⟩ := hscheduled.known
    have hdeadline := (hscheduled.good user hmem hid).scheduled
    rw [(hback.restored user hmem hid).unscheduled] at hdeadline
    cases hdeadline
  · intro hother
    exact ((alone_authCode hpath hother hgrace).of_runs hruns payload rfl).isBack

/-! ### The two kinds of login -/

/-- An account whose deletion is due at the hundredth second. -/
def leavingUser : User :=
  { kakaoUser with hiddenAt := some 0, deletionScheduledAt := some 100000 }

/-- It has asked for a code to log in with. -/
def sentCode : PhoneVerification where
  id := 0
  phoneE164 := "+821012345678"
  codeHash := plainHash 0 (pepperedCode .plain "+821012345678" "000000".toList)
  purpose := "login"
  expiresAt := 300000
  verifiedAt := none
  attemptCount := 0
  requestIpHash := ""
  createdAt := 0

/-- A world with some accounts, in which the deadline has not come. -/
def beforeDeadline (users : List User) (verifications : List PhoneVerification)
    (sessions : List RefreshToken) (rows : ℕ) : World :=
  { World.ofDatabase { Database.ofUsers users with
      authIdentities := [⟨kakaoUserId, "kakao", "1"⟩]
      phoneVerifications := verifications
      refreshTokens := sessions
      nextRowId := rows } with clocks := fun now => now < 100000 }

theorem inGrace_leaving (verifications : List PhoneVerification) (sessions : List RefreshToken)
    (rows : ℕ) :
    InGrace kakaoUserId 100000 (beforeDeadline [leavingUser] verifications sessions rows) where
  known := ⟨leavingUser, List.mem_singleton_self _, rfl⟩
  good := by
    intro user hmem _
    obtain rfl := List.mem_singleton.1 hmem
    exact ⟨rfl, rfl⟩
  early := fun _ hnow => hnow

/-- The login by way of Kakao restores the account. -/
theorem login_restores_iff_kakao : IsBack kakaoUserId
    (beforeDeadline [restoreColumns leavingUser] [] [sessionAt 0 5] 1).db ↔
      kakaoLogin.verifiesCode = false := by
  let before := beforeDeadline [leavingUser] [] [] 0
  let busy : World := { before with reading := [(0, kakaoUserId)] }
  let restored : World :=
    { beforeDeadline [restoreColumns leavingUser] [] [] 0 with reading := [(0, kakaoUserId)] }
  let hashed : World := { restored with
    log := [(0, .hashed (refreshToken .plain kakaoUserId oneDevice 5) (hashAt 0 5))] }
  let saved : World :=
    { beforeDeadline [restoreColumns leavingUser] [] [sessionAt 0 5] 1 with
      reading := [(0, kakaoUserId)]
      log := (0, .savedSession kakaoUserId (deviceName oneDevice) (hashAt 0 5)) :: hashed.log }
  let after : World := { saved with
    reading := []
    log := (0, .issuedTokens kakaoUserId) :: saved.log }
  have hfree : ∀ row ∈ ([] : List LockedRow), Free [] 0 .keyShare row := fun _ _ => free_of_unlocked
  have halone : ∀ lock ∈ ([] : List (Lock LockedRow)), lock.holder = 0 := by decide
  have hnow : (5000 : ℤ) < 100000 := by decide
  have hruns : Runs anyStep 0 (authCode .plain kakaoLogin) before (.done kakaoTokens) after := by
    refine .step (some ⟨"1".toList, none, none⟩) before rfl trivial ?_
    refine .step (.ok (some ⟨kakaoUserId, "kakao", "1"⟩)) busy (Locks.locked hfree) trivial ?_
    refine .step (.ok (some leavingUser)) busy (Locks.locked hfree) trivial ?_
    refine .step 5000 busy ⟨hnow, rfl⟩ trivial ?_
    refine .step (.ok true) restored
      (Executes.returned rfl (World.unlocked_of_alone halone _)) trivial ?_
    refine .step 5000 restored ⟨hnow, rfl⟩ trivial ?_
    refine .step 5000 restored ⟨hnow, rfl⟩ trivial ?_
    have hnew : IsNewHash (hashAt 0 5) restored.log := fun _ hmem => absurd hmem List.not_mem_nil
    refine .step (hashAt 0 5) hashed ⟨⟨0, rfl⟩, hnew, rfl⟩ trivial ?_
    refine .step (.ok ()) saved ⟨(), trivial, .committed rfl (World.unlocked_of_alone halone _)⟩
      trivial ?_
    refine .step () _ rfl trivial ?_
    exact .step () _ rfl trivial .refl
  exact login_restores_iff .plain kakaoLogin rfl kakaoUserId 100000 before after
    (inGrace_leaving [] [] 0) 0 _ hruns

def codeLogin : AuthRequest := .verifyPhoneCode ⟨"01012345678".toList, "000000".toList⟩ oneDevice

/-- What the login with a phone code leaves. -/
def codeLoggedIn : World :=
  { beforeDeadline [leavingUser] [verifyColumns 5000 (countAttempt sentCode)] [sessionAt 0 5] 1 with
    log := [(0, .issuedTokens kakaoUserId),
      (0, .savedSession kakaoUserId (deviceName oneDevice) (hashAt 0 5)),
      (0, .hashed (refreshToken .plain kakaoUserId oneDevice 5) (hashAt 0 5)),
      (0, .verifiedCode 0 5000),
      (0, .comparedCode (countAttempt sentCode) true),
      (0, .claimedAttempt (countAttempt sentCode) ["signup", "login"])] }

/-- The login with a phone code returns tokens, and the account stays hidden and is to be
erased. -/
theorem code_login_not_back :
    codeLogin.comesBack = true ∧
      InGrace kakaoUserId 100000 (beforeDeadline [leavingUser] [sentCode] [] 0) ∧
      Runs anyStep 0 (authCode .plain codeLogin) (beforeDeadline [leavingUser] [sentCode] [] 0)
        (.done kakaoTokens) codeLoggedIn ∧
      validate kakaoUserId codeLoggedIn.db = false ∧
      ∃ user ∈ codeLoggedIn.db.users, user.userId = kakaoUserId ∧
        user.deletionScheduledAt = some 100000 := by
  let before := beforeDeadline [leavingUser] [sentCode] [] 0
  let claimed : World := { beforeDeadline [leavingUser] [countAttempt sentCode] [] 0 with
    log := [(0, .claimedAttempt (countAttempt sentCode) ["signup", "login"])] }
  let compared : World := { claimed with
    log := (0, .comparedCode (countAttempt sentCode) true) :: claimed.log }
  let verified : World := { beforeDeadline [leavingUser]
      [verifyColumns 5000 (countAttempt sentCode)] [] 0 with
    log := (0, .verifiedCode 0 5000) :: compared.log }
  let busy : World := { verified with reading := [(0, kakaoUserId)] }
  let hashed : World := { busy with
    log := (0, .hashed (refreshToken .plain kakaoUserId oneDevice 5) (hashAt 0 5)) :: busy.log }
  let saved : World := { codeLoggedIn with
    reading := [(0, kakaoUserId)]
    log := (0, .savedSession kakaoUserId (deviceName oneDevice) (hashAt 0 5)) :: hashed.log }
  have hfree : ∀ row ∈ ([] : List LockedRow), Free [] 0 .keyShare row := fun _ _ => free_of_unlocked
  have halone : ∀ lock ∈ ([] : List (Lock LockedRow)), lock.holder = 0 := by decide
  have hnow : (5000 : ℤ) < 100000 := by decide
  refine ⟨rfl, inGrace_leaving _ _ _, ?_, rfl, leavingUser, List.mem_singleton_self _, rfl, rfl⟩
  refine .step (.ok (some sentCode)) before (Locks.locked hfree) trivial ?_
  refine .step 5000 before ⟨hnow, rfl⟩ trivial ?_
  refine .step (.ok (some (countAttempt sentCode))) claimed ⟨(), trivial, .committed rfl
    (World.unlocked_of_alone halone _)⟩ trivial ?_
  refine .step () compared rfl trivial ?_
  refine .step 5000 compared ⟨hnow, rfl⟩ trivial ?_
  refine .step 5000 compared ⟨hnow, rfl⟩ trivial ?_
  refine .step (.ok (some (verifyColumns 5000 (countAttempt sentCode)))) verified
    ⟨(), trivial, .committed rfl (World.unlocked_of_alone halone _)⟩ trivial ?_
  refine .step (.ok (some leavingUser)) busy (Locks.locked hfree) trivial ?_
  refine .step 5000 busy ⟨hnow, rfl⟩ trivial ?_
  refine .step 5000 busy ⟨hnow, rfl⟩ trivial ?_
  have hnew : IsNewHash (hashAt 0 5) busy.log := by
    intro entry hmem candidate hentry
    simp only [busy, verified, compared, claimed, List.mem_cons, List.not_mem_nil, or_false] at hmem
    rcases hmem with rfl | rfl | rfl <;> cases hentry
  refine .step (hashAt 0 5) hashed ⟨⟨0, rfl⟩, hnew, rfl⟩ trivial ?_
  refine .step (.ok ()) saved ⟨(), trivial, .committed rfl (World.unlocked_of_alone halone _)⟩
    trivial ?_
  refine .step () _ rfl trivial ?_
  exact .step () _ rfl trivial .refl

end ChatTea.Auth
