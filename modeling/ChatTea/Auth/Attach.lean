import ChatTea.Auth.Tokens

/-!
# Attaching a phone to an account of Kakao

A signup by way of Kakao looks its account up, checks that the account has no other number,
and then writes its own number in a transaction that does not look at the account again. So
the number that was checked may be out of date when the transaction ends.

## Main definitions

* `ChecksCurrent` — a number that was checked is still current when the transaction ends
* `NumbersKept`, `UsesUp`, `Attaches` — what becomes of the numbers and the tokens

## Main results

* `AuthRun.keepsNumbers` — a step under the condition keeps every number
* `verified_phone_kept` — no signup replaces a number in a run under the condition
* `verified_phone_replaced` — two signups that check before either of them writes
-/

namespace ChatTea.Auth

open History Interleaving Phone RowLocks SingleUse Table Transaction Users

variable {config : AuthConfig} {request : AuthRequest} {pid : ℕ} {w before after : World}
  {trace : Trace} {tables : AuthTables} {allowed : World → World → Prop} {db : Database}
  {c c' : Config World AuthRequest Failure AuthReply}

/-- When a call that has checked an account uses its tokens up, no step has given the account
a number since then that is not the one of the call. The empty text counts as no number for
the check, but would be one in the table. -/
def ChecksCurrent (before after : World) : Prop :=
  ∀ pid consumption, after.log = (pid, .consumedTokens consumption) :: before.log →
    ∀ account token, (pid, .foundAccount account) ∈ before.log →
      (pid, .foundPhoneToken token) ∈ before.log →
        ∀ user ∈ before.db.users, user.userId = account.userId → ∀ number, user.phone = some number →
          (account.phone = some number ∧ number ≠ "") ∨ number = token.phoneE164

/-- Every account that has a number still has it. -/
def NumbersKept (before after : List User) : Prop :=
  ∀ user ∈ before, ∀ number, user.phone = some number →
    ∃ user' ∈ after, user'.userId = user.userId ∧ user'.phone = some number

/-- A token becomes used. -/
def UsesUp (before after : World) : Prop :=
  (∃ token ∈ before.db.phoneVerificationTokens, ¬ phoneUsed token ∧
    ∃ next ∈ after.db.phoneVerificationTokens, next.tokenHash = token.tokenHash ∧ phoneUsed next) ∨
  ∃ token ∈ before.db.kakaoPhoneVerificationTokens, ¬ kakaoUsed token ∧
    ∃ next ∈ after.db.kakaoPhoneVerificationTokens, next.tokenHash = token.tokenHash ∧ kakaoUsed next

/-- The call attaches the number of its phone token to its account, which had none or the
same, or it creates an account. -/
inductive Attaches (pid : ℕ) (before after : World) : Prop
  | account {account token user} (found : (pid, .foundAccount account) ∈ before.log)
      (carries : (pid, .foundPhoneToken token) ∈ before.log) (mem : user ∈ before.db.users)
      (same : user.userId = account.userId)
      (fits : user.phone = none ∨ user.phone = some token.phoneE164)
      (written : { user with phone := some token.phoneE164 } ∈ after.db.users)
  | created {user} (mem : user ∈ after.db.users)
      (isNew : ∀ old ∈ before.db.users, old.userId ≠ user.userId)

/-- The calls that complete a signup by way of Kakao. -/
def AuthRequest.completesSignup : AuthRequest → Bool
  | .completeKakaoPhoneSignup _ _ => true
  | _ => false

/-- The call is to use a phone token up together with its Kakao token. -/
def AuthRequest.CarriesPhone (config : AuthConfig) (request : AuthRequest) : Prop :=
  ∃ phone kakao, request.uses config = some (some phone, some kakao)

/-! ### One step -/

theorem NumbersKept.refl (users : List User) : NumbersKept users users :=
  fun user hmem _ hnumber => ⟨user, hmem, rfl, hnumber⟩

theorem NumbersKept.trans {users users' users'' : List User} (h : NumbersKept users users')
    (h' : NumbersKept users' users'') : NumbersKept users users'' := by
  intro user hmem number hnumber
  obtain ⟨user', hmem', hsame, hnumber'⟩ := h user hmem number hnumber
  obtain ⟨user'', hmem'', hsame', hnumber''⟩ := h' user' hmem' number hnumber'
  exact ⟨user'', hmem'', hsame'.trans hsame, hnumber''⟩

/-- Other columns may change. -/
theorem NumbersKept.updateWhere {cond : User → Bool} {set : User → User} {users : List User}
    (hid : ∀ user, (set user).userId = user.userId)
    (hphone : ∀ user ∈ users, cond user → ∀ number, user.phone = some number →
      (set user).phone = some number) : NumbersKept users (updateWhere cond set users) := by
  intro user hmem number hnumber
  by_cases hcond : cond user = true
  · refine ⟨set user, mem_updateWhere.2 (Or.inl ⟨user, hmem, hcond, rfl⟩), hid user, ?_⟩
    exact hphone user hmem hcond number hnumber
  · exact ⟨user, mem_updateWhere.2 (Or.inr ⟨hmem, hcond⟩), rfl, hnumber⟩

/-- An account that fits when it is checked still fits under the condition. -/
theorem Fits.current {userId : Uuid} {number : String} {consumption : Consumption}
    (h : Fits pid w userId number) (hcurrent : ChecksCurrent w after)
    (hlog : after.log = (pid, .consumedTokens consumption) :: w.log) {user : User}
    (hmem : user ∈ w.db.users) (hsame : user.userId = userId) :
    user.phone = none ∨ user.phone = some number := by
  obtain ⟨account, token, hfound, hid, hcarries, rfl, hfits⟩ := h
  cases hphone : user.phone with
  | none => exact Or.inl rfl
  | some other =>
      apply Or.inr
      have hother := hcurrent pid consumption hlog account token hfound hcarries user hmem
        (hsame.trans hid.symm) other hphone
      rcases hother with ⟨haccount, hnamed⟩ | hown
      · rcases hfits other haccount with hempty | hown
        · exact absurd hempty hnamed
        · rw [hown]
      · rw [hown]

/-- A step of such a call keeps every number. -/
theorem AuthChange.keepsNumbers (h : AuthChange config request pid w trace tables)
    (hcall : request.completesSignup) (hcurrent : ChecksCurrent w after)
    (hlog : after.log = stamp pid trace.events ++ w.log) :
    NumbersKept w.db.users tables.users := by
  cases h with
  | resetPassword call accepted mem same unverified owner phone hashed all =>
      exact .updateWhere (fun _ => rfl) fun _ _ _ _ hnumber => hnumber
  | attachedPhone call phoneUse kakaoUse busy number_eq fits =>
      refine .updateWhere (fun _ => rfl) fun user hmem hcond other hother => ?_
      -- The account has the number that is written already.
      rcases fits.current hcurrent hlog hmem (of_decide_eq_true hcond) with hnone | hown
      · rw [hnone] at hother
        cases hother
      · exact hown.symm.trans hother
  | createdUser call phoneUse kakaoUse first isNew number_eq own needs =>
      exact fun user hmem _ hnumber => ⟨user, List.mem_append_left _ hmem, rfl, hnumber⟩
  | managed call keeps =>
      exact .updateWhere keeps.userId fun user _ _ _ hnumber => (keeps.phone user).trans hnumber
  | erased call current =>
      rw [call] at hcall
      cases hcall
  | _ => exact .refl _

/-- A step that uses tokens up attaches the number. -/
theorem AuthChange.attaches (h : AuthChange config request pid w trace tables)
    (hcarries : request.CarriesPhone config) (hcurrent : ChecksCurrent w after)
    (hlog : after.log = stamp pid trace.events ++ w.log) (hafter : authTables after.db = tables)
    (hfound : AccountsFound (authState w)) {consumption : Consumption}
    (hspent : .consumedTokens consumption ∈ trace.events) : Attaches pid w after := by
  obtain ⟨phone, kakao, hcarries⟩ := hcarries
  have husers : after.db.users = tables.users := congrArg AuthTables.users hafter
  cases h with
  | usedTokens call phoneUse kakaoUse alone =>
      -- Only a call with one token uses it up and does nothing else.
      rw [hcarries] at call
      obtain ⟨rfl, rfl⟩ := Prod.mk.inj (Option.some.inj call)
      rcases alone with hnone | hnone <;> cases hnone
  | @attachedPhone phone kakao _ _ userId number call phoneUse kakaoUse busy number_eq fits =>
      obtain ⟨account, token, hmem, hid, htoken, hnumber, -⟩ := id fits
      obtain ⟨user, huser, hsame⟩ := hfound.known hmem
      have hsame : user.userId = userId := hsame.trans hid
      refine .account hmem htoken huser (hsame.trans hid.symm) ?_ ?_
      · rw [hnumber]
        exact fits.current hcurrent hlog huser hsame
      · rw [husers, hnumber]
        exact mem_updateWhere.2 (Or.inl ⟨user, huser, decide_eq_true hsame, rfl⟩)
  | @createdUser phone kakao _ _ _ input call phoneUse kakaoUse first isNew number_eq own needs =>
      have hmem : input.row ∈ after.db.users := by
        rw [husers]
        exact List.mem_append_right _ (List.mem_singleton_self _)
      exact .created hmem isNew
  | rotatedSession call busy signed name validated current => cases List.mem_singleton.1 hspent
  | _ => simp at hspent

/-- A token that becomes used is entered. -/
theorem AuthChange.entered_of_usesUp {start : AuthTables}
    (h : AuthChange config request pid w trace (authTables after.db))
    (hinv : TokenInvariant start (authState w)) (huses : UsesUp w after) :
    ∃ consumption, .consumedTokens consumption ∈ trace.events := by
  obtain ⟨phone, kakao, hspending, hphone, hkakao⟩ := h.spending
  generalize trace.events = events at hspending
  cases hspending with
  | spent consumption call needs => exact ⟨consumption, List.mem_singleton_self _⟩
  | quiet none_spent =>
      rcases huses with ⟨token, hmem, hunused, next, hnext, hsame, hused⟩ |
        ⟨token, hmem, hunused, next, hnext, hsame, hused⟩
      · cases hphone.spent_of_used hinv.phone.unique hmem hunused hnext hsame hused
      · cases hkakao.spent_of_used hinv.kakao.unique hmem hunused hnext hsame hused

/-! ### A transaction that nothing is in the way of -/

/-- Steps that use no tokens up. -/
def EntersOther (before after : World) : Prop :=
  ∀ pid consumption, after.log ≠ (pid, .consumedTokens consumption) :: before.log

theorem entersOther_of_eq {before after : World} (h : after.log = before.log) :
    EntersOther before after := by
  intro pid consumption hlog
  rw [h] at hlog
  exact List.cons_ne_self _ _ hlog.symm

/-- Alone, the transaction attaches the number to an account that is free for it. -/
theorem attach_runs {ι : Type} {allowed : World → World → Prop} {config : AuthConfig} {input : AttachInput}
    {now : Timestamp} {phoneRow : PhoneVerificationToken} {kakaoRow : KakaoPhoneVerificationToken}
    {found : Option User} {w after : World} {pid : ℕ} {db : Database}
    (hlocks : w.locks = []) (hnow : w.clocks now)
    (hphone : w.db.phoneVerificationTokens.find?
      (usableToken (config.hashToken input.phoneVerificationToken) now) = some phoneRow)
    (hkakao : w.db.kakaoPhoneVerificationTokens.find?
      (usableKakaoToken (config.hashToken input.kakaoPhoneVerificationToken) now) = some kakaoRow)
    (hwrites : writeAttachment ⟨config.hashToken input.phoneVerificationToken, now, now⟩
      ⟨config.hashToken input.kakaoPhoneVerificationToken, now, now⟩ input.userId input.phone w.db =
        .ok (found, db))
    (hafter : after = { w with
      db := db
      log := (pid, .consumedTokens ⟨some (config.hashToken input.phoneVerificationToken),
        some (config.hashToken input.kakaoPhoneVerificationToken), none⟩) :: w.log })
    (hquiet : ∀ before after, EntersOther before after → allowed before after)
    (hallowed : ∀ locks, allowed (w.withLocks locks) after) :
    Runs allowed pid (attachPhoneWithKakaoPhoneVerificationTokens config input : Prog World ι Failure _)
      w (.done found) after := by
  -- The two updates lock their rows; what they write becomes visible with the commit.
  let once : World := w.withLocks (acquire pid .noKeyUpdate
    ((w.db.phoneVerificationTokens.filter
      (usableToken (config.hashToken input.phoneVerificationToken) now)).map
        fun row => .phoneToken row.tokenHash) w.locks)
  let twice : World := once.withLocks (acquire pid .noKeyUpdate
    ((w.db.kakaoPhoneVerificationTokens.filter
      (usableKakaoToken (config.hashToken input.kakaoPhoneVerificationToken) now)).map
        fun row => .kakaoToken row.tokenHash) once.locks)
  have hnone : ∀ lock ∈ w.locks, lock.holder = pid := by
    rw [hlocks]
    exact fun _ hmem => absurd hmem List.not_mem_nil
  have honce : ∀ lock ∈ once.locks, lock.holder = pid := acquire_of_alone hnone
  have htwice : ∀ lock ∈ twice.locks, lock.holder = pid := acquire_of_alone honce
  have hreleased : release pid twice.locks = w.locks := by
    rw [hlocks]
    exact List.filter_eq_nil_iff.2 fun lock hmem => by simp [htwice lock hmem]
  refine .step now w ⟨hnow, rfl⟩ (hquiet _ _ (entersOther_of_eq rfl)) ?_
  refine .step now w ⟨hnow, rfl⟩ (hquiet _ _ (entersOther_of_eq rfl)) ?_
  refine .step (.ok (some phoneRow)) once (Locks.read hphone fun _ _ => free_of_alone hnone)
    (hquiet _ _ (entersOther_of_eq rfl)) ?_
  refine .step now once ⟨hnow, rfl⟩ (hquiet _ _ (entersOther_of_eq rfl)) ?_
  refine .step now once ⟨hnow, rfl⟩ (hquiet _ _ (entersOther_of_eq rfl)) ?_
  refine .step (.ok (some kakaoRow)) twice (Locks.read hkakao fun _ _ => free_of_alone honce)
    (hquiet _ _ (entersOther_of_eq rfl)) ?_
  let trace : Trace := { events := [.consumedTokens
    ⟨some (config.hashToken input.phoneVerificationToken),
      some (config.hashToken input.kakaoPhoneVerificationToken), none⟩] }
  have hcommits : Records (fun _ => trace) _ pid twice (.ok found) (twice.commit pid db trace) :=
    .committed hwrites (World.unlocked_of_alone htwice _)
  have hsame : twice.commit pid db trace = after := by
    rw [hafter]
    exact congrArg (World.withLocks { w with db := db, log := stamp pid trace.events ++ w.log })
      hreleased
  rw [hsame] at hcommits
  exact .step (.ok found) after ⟨(), trivial, hcommits⟩ (hallowed _) .refl

/-- The writes of a transaction attach the number to an account that exists, if no other account
has it. -/
theorem writeAttachment_attaches {phoneUse kakaoUse : UseInput} {userId : Uuid} {phone : String}
    (hknown : ∃ user ∈ db.users, user.userId = userId)
    (hfree : ∀ user ∈ db.users, user.userId ≠ userId → user.phone ≠ some phone) :
    ∃ user after, writeAttachment phoneUse kakaoUse userId phone db = .ok (some user, after) ∧
      user ∈ after.users ∧ user.userId = userId ∧ user.phone = some phone := by
  let users : List User := Table.updateWhere (fun user => user.userId = userId)
    (fun user => { user with phone := some phone }) db.users
  obtain ⟨user, hlookup⟩ : ∃ user, lookup User.userId userId users = some user := by
    obtain ⟨old, hmem, hsame⟩ := hknown
    refine Option.ne_none_iff_exists'.1 fun hnone => ?_
    exact lookup_eq_none.1 hnone { old with phone := some phone }
      (mem_updateWhere.2 (Or.inl ⟨old, hmem, decide_eq_true hsame, rfl⟩)) hsame
  obtain ⟨hmem, hsame⟩ := mem_of_lookup hlookup
  refine ⟨user, { useKakaoTokens kakaoUse (usePhoneTokens phoneUse db) with users := users },
    bind_eq_ok_iff.2 ⟨(), require_of fun _ => hfree, ?_⟩, hmem, hsame, ?_⟩
  · exact congrArg (fun found => Except.ok (found,
      { useKakaoTokens kakaoUse (usePhoneTokens phoneUse db) with users := users })) hlookup
  · rcases mem_updateWhere.1 hmem with ⟨old, -, -, rfl⟩ | ⟨-, hother⟩
    · rfl
    · exact absurd (decide_eq_true hsame) hother

/-! ### Every run -/

/-- A call that is about to return tokens has used its own up. -/
def IssuesSpent (config : AuthConfig) (request : AuthRequest) (pid : ℕ) (w : World) : Prop :=
  ∀ userId, .issuedTokens userId ∈ own pid w.log → Spent config request pid w

theorem Spent.enter {events : List Event} (h : Spent config request pid w)
    (hlog : after.log = stamp pid events ++ w.log) : Spent config request pid after := by
  intro phone kakao hcall
  obtain ⟨created, hmem⟩ := h phone kakao hcall
  refine ⟨created, ?_⟩
  rw [hlog]
  exact List.mem_append_right _ hmem

theorem AuthRun.issuesSpent (hrun : AuthRun config allowed db c) :
    Logic.Serves (IssuesSpent config) c := by
  refine (sound config).serves (good_atRest db) hrun (fun _ _ _ => trivial) ?_ ?_ ?_ ?_ ?_
  · exact fun pid thread hthread => by simp [atRest, Config.idle] at hthread
  · intro request pid w hfresh userId hmem
    rw [hfresh.1] at hmem
    exact absurd hmem List.not_mem_nil
  · intro request pid w after hstep h userId hmem
    obtain ⟨trace, hchange, hlog⟩ := hstep.enters
    generalize authTables after.db = tables at hchange
    rw [hlog, own_stamp_append_self] at hmem
    rcases List.mem_append.1 hmem with hnew | hold
    · cases hchange with
      | issuedTokens busy spent => exact spent.enter hlog
      | rotatedSession call busy signed name validated current => cases List.mem_singleton.1 hnew
      | _ => simp at hnew
    · exact (h userId hold).enter hlog
  · intro request pid w after hrely h userId hmem
    rw [hrely.events] at hmem
    intro phone kakao hcall
    obtain ⟨created, hmem⟩ := h userId hmem phone kakao hcall
    refine ⟨created, ?_⟩
    rw [← mem_own, hrely.events, mem_own]
    exact hmem
  · exact fun h => h

/-- In a run every step of such a call keeps every number. -/
theorem AuthRun.keepsNumbers {β : Type} {act : ℕ → World → β → World → Prop}
    {next : β → Prog World AuthRequest Failure AuthReply} {reply : β}
    (hrun : AuthRun config allowed db c) (hcall : request.completesSignup)
    (hthread : c.threads[pid]? = some ⟨request, .step act next⟩)
    (hact : act pid c.state reply after) (hcurrent : ChecksCurrent c.state after) :
    NumbersKept c.state.db.users after.db.users := by
  obtain ⟨trace, hchange, hlog⟩ := (hrun.step hthread hact).enters
  exact hchange.keepsNumbers hcall hcurrent hlog

/-- While no other calls are served, the numbers stay. -/
theorem AuthRun.numbersKept (hrun : AuthRun config ChecksCurrent db c)
    (hlater : Reachable (authSystem config) ChecksCurrent c c')
    (hcalls : ∀ thread ∈ c'.threads, thread.request.completesSignup) :
    NumbersKept c.state.db.users c'.state.db.users := by
  induction hlater with
  | refl => exact .refl _
  | @tail between c' hbefore hstep ih =>
      obtain ⟨hstep, hallowed⟩ := hstep
      -- The threads that there are keep their requests.
      have hbetween : ∀ thread ∈ between.threads, thread.request.completesSignup := by
        intro thread hmem
        obtain ⟨thread', hmem', hsame⟩ := hstep.request_mem hmem
        rw [← hsame]
        exact hcalls thread' hmem'
      refine (ih hbetween).trans ?_
      cases hstep with
      | arrive accepted => exact .refl _
      | run thread acts =>
          have hmem := List.mem_of_getElem? thread
          exact AuthRun.keepsNumbers (Relation.ReflTransGen.trans hrun hbefore)
            (hbetween _ hmem) thread acts hallowed
      | fork thread => exact .refl _
      | stop running => exact .refl _
      | environment moves => exact moves.elim

/-- A transaction of a signup attaches its number to the account without a number that the
signup has found, if nothing is in its way: its tokens are usable, and no account has the number. -/
def AttachesAlone (config : AuthConfig) (w : World) : Prop :=
  ∀ pid (input : AttachInput) now phoneRow kakaoRow, w.locks = [] → w.clocks now →
    w.db.phoneVerificationTokens.find?
      (usableToken (config.hashToken input.phoneVerificationToken) now) = some phoneRow →
    w.db.kakaoPhoneVerificationTokens.find?
      (usableKakaoToken (config.hashToken input.kakaoPhoneVerificationToken) now) = some kakaoRow →
    (∀ account, (pid, .foundAccount account) ∈ w.log → account.userId = input.userId) →
    (∃ user ∈ w.db.users, user.userId = input.userId) →
    (∀ user ∈ w.db.users, user.userId = input.userId → user.phone = none) →
    (∀ user ∈ w.db.users, user.phone ≠ some input.phone) →
      ∃ user after, Runs ChecksCurrent pid
          (attachPhoneWithKakaoPhoneVerificationTokens config input : Prog World AuthRequest _ _) w
          (.done (some user)) after ∧
        user ∈ after.db.users ∧ user.userId = input.userId ∧ user.phone = some input.phone

theorem attachesAlone (config : AuthConfig) (w : World) : AttachesAlone config w := by
  intro pid input now phoneRow kakaoRow hlocks hnow hphone hkakao hfound hknown hnone hfree
  obtain ⟨user, db, hwrites, hmem, hsame, hnumber⟩ := writeAttachment_attaches hknown
    fun user hmem _ => hfree user hmem
  have hquiet : ∀ before after, EntersOther before after → ChecksCurrent before after :=
    fun _ _ hother pid consumption hlog => absurd hlog (hother pid consumption)
  refine ⟨user, _, attach_runs hlocks hnow hphone hkakao hwrites rfl hquiet fun locks => ?_,
    hmem, hsame, hnumber⟩
  -- The account had no number when it was looked up, and has none now.
  intro other consumption hlog account token haccount _ current hcurrent hid number hhas
  obtain ⟨rfl, -⟩ := Prod.mk.inj (List.cons.inj hlog).1
  rw [hnone current hcurrent (hid.trans (hfound account haccount))] at hhas
  cases hhas

/-- In a run in which every number that was checked is current when it counts, no signup by
way of Kakao changes the number of an account: each of its steps keeps all numbers, and uses
tokens up only to attach its number to its account, which had none or the same, or to create
an account. While only such calls are served all numbers stay, and a call that returns tokens
has used its own up. A signup that nothing is in the way of does attach its number. -/
theorem verified_phone_kept (config : AuthConfig) (db : Database)
    (hphone : UniqueKey PhoneVerificationToken.tokenHash db.phoneVerificationTokens)
    (hkakao : UniqueKey KakaoPhoneVerificationToken.tokenHash db.kakaoPhoneVerificationTokens)
    (c : Config World AuthRequest Failure AuthReply) (hrun : AuthRun config ChecksCurrent db c) :
    (∀ (β : Type) (act : ℕ → World → β → World → Prop) next pid request reply after,
        request.completesSignup → c.threads[pid]? = some ⟨request, .step act next⟩ →
          act pid c.state reply after → ChecksCurrent c.state after →
            NumbersKept c.state.db.users after.db.users ∧
              (request.CarriesPhone config → UsesUp c.state after → Attaches pid c.state after)) ∧
      (∀ c', Reachable (authSystem config) ChecksCurrent c c' →
        (∀ thread ∈ c'.threads, thread.request.completesSignup) →
          NumbersKept c.state.db.users c'.state.db.users) ∧
      (∀ pid request userId payload, request.completesSignup →
        c.threads[pid]? = some ⟨request, .done (.tokens userId payload)⟩ →
          Spent config request pid c.state) ∧
      AttachesAlone config c.state := by
  refine ⟨?_, fun c' hlater hcalls => hrun.numbersKept hlater hcalls, ?_,
    attachesAlone config c.state⟩
  · intro β act next pid request reply after hcall hthread hact hcurrent
    refine ⟨hrun.keepsNumbers hcall hthread hact hcurrent, fun hcarries huses => ?_⟩
    have htokens : TokenInvariant (authTables db) (authState c.state) :=
      hrun.keeps (keeps_tokenInvariant config _ ChecksCurrent) (tokenInvariant_start hphone hkakao)
    have hfound : AccountsFound (authState c.state) :=
      hrun.keeps (keeps_accountsFound config ChecksCurrent)
        ⟨fun hmem => absurd hmem List.not_mem_nil⟩
    obtain ⟨trace, hchange, hlog⟩ := (hrun.step hthread hact).enters
    obtain ⟨consumption, hspent⟩ := hchange.entered_of_usesUp htokens huses
    exact hchange.attaches hcarries hcurrent hlog rfl hfound hspent
  · intro pid request userId payload _ hthread
    obtain ⟨hissued, -⟩ := hrun.answered hthread userId payload rfl
    exact hrun.issuesSpent pid _ hthread userId hissued

/-! ### Signups that meet -/

/-- The tokens of a signup, and the number of its phone token. -/
structure CarriedTokens where
  phoneToken : Text
  kakaoToken : Text
  number : String

def CarriedTokens.signup (carried : CarriedTokens) : AuthRequest :=
  .completeKakaoPhoneSignup ⟨some carried.phoneToken, carried.kakaoToken, [], none, true⟩ oneDevice

def CarriedTokens.phoneRow (carried : CarriedTokens) (usedAt : Option Timestamp) :
    PhoneVerificationToken where
  tokenHash := AuthConfig.plain.hashToken carried.phoneToken
  phoneE164 := carried.number
  verificationId := 7
  expiresAt := 300000
  usedAt := usedAt

def CarriedTokens.kakaoRow (carried : CarriedTokens) (usedAt : Option Timestamp) :
    KakaoPhoneVerificationToken where
  tokenHash := AuthConfig.plain.hashToken carried.kakaoToken
  userId := some kakaoUserId
  providerUserId := "1"
  email := none
  expiresAt := 300000
  usedAt := usedAt

def firstTokens : CarriedTokens := ⟨"phone1".toList, "kakao1".toList, "+821011111111"⟩

def secondTokens : CarriedTokens := ⟨"phone2".toList, "kakao2".toList, "+821022222222"⟩

/-- An account with the tokens of two signups. -/
def attachTables (phone : Option String) (used used' : Option Timestamp) : Database :=
  { Database.ofUsers [{ User.visible kakaoUserId with phone := phone }] with
    phoneVerificationTokens := [firstTokens.phoneRow used, secondTokens.phoneRow used']
    kakaoPhoneVerificationTokens := [firstTokens.kakaoRow used, secondTokens.kakaoRow used'] }

/-- What is left of a signup that has found its account without a number. -/
def attachRest (carried : CarriedTokens) : Prog World AuthRequest Failure AuthReply :=
  tracked do
    let updatedUser ← mapDuplicateUserError (mapTokenConsumeError
      (attachPhoneWithKakaoPhoneVerificationTokens .plain
        ⟨kakaoUserId, carried.number, carried.phoneToken, carried.kakaoToken⟩))
    let updatedUser ← MonadExcept.ofExcept
      (requireFound invalidKakaoPhoneVerificationToken updatedUser)
    let _ ← restoreIfWithinGrace updatedUser.userId.toUuidText
    issueTokens .plain updatedUser oneDevice

/-- The account with a number. -/
def numbered (number : String) : User := { User.visible kakaoUserId with phone := some number }

/-- What is left of it when the number is attached. -/
def issueRest (user : User) : Prog World AuthRequest Failure AuthReply :=
  tracked do
    let _ ← restoreIfWithinGrace user.userId.toUuidText
    issueTokens .plain user oneDevice

/-- What a signup enters when it looks up. -/
def lookupLog (carried : CarriedTokens) (pid : ℕ) : List (ℕ × Event) :=
  [(pid, .foundAccount (User.visible kakaoUserId)), (pid, .foundPhoneToken (carried.phoneRow none))]

/-- What a signup enters when it attaches its number. -/
def attachEntry (carried : CarriedTokens) (pid : ℕ) : ℕ × Event :=
  (pid, .consumedTokens ⟨some (carried.phoneRow none).tokenHash,
    some (carried.kakaoRow none).tokenHash, none⟩)

/-- A signup up to where it has found its account without a number. -/
theorem lookups_runs {allowed : World → World → Prop} {carried : CarriedTokens} (pid : ℕ)
    (reading : List (ℕ × Uuid)) (log : List (ℕ × Event))
    (hcarried : carried = firstTokens ∨ carried = secondTokens)
    (hallowed : ∀ before after, EntersOther before after → allowed before after) :
    Runs allowed pid (authCode .plain carried.signup)
      { World.ofDatabase (attachTables none none none) with reading := reading, log := log }
      (attachRest carried)
      { World.ofDatabase (attachTables none none none) with
        reading := (pid, kakaoUserId) :: reading
        log := lookupLog carried pid ++ log } := by
  let before : World :=
    { World.ofDatabase (attachTables none none none) with reading := reading, log := log }
  let proved : World := { before with
    log := (pid, .foundPhoneToken (carried.phoneRow none)) :: log }
  let busy : World := { proved with reading := (pid, kakaoUserId) :: reading }
  have hcode : authCode .plain carried.signup = tracked (completeWithPhone .plain
      ⟨some carried.phoneToken, carried.kakaoToken, [], none, true⟩ carried.phoneToken oneDevice) := by
    rcases hcarried with rfl | rfl <;> rfl
  have hphone : (attachTables none none none).phoneVerificationTokens.find? (usableToken
      (AuthConfig.plain.hashToken carried.phoneToken) 5000) = some (carried.phoneRow none) := by
    rcases hcarried with rfl | rfl <;> decide +kernel
  have hkakao : (attachTables none none none).kakaoPhoneVerificationTokens.find? (usableKakaoToken
      (AuthConfig.plain.hashToken carried.kakaoToken) 5000) = some (carried.kakaoRow none) := by
    rcases hcarried with rfl | rfl <;> decide +kernel
  rw [hcode]
  refine .step true before rfl (hallowed _ _ (entersOther_of_eq rfl)) ?_
  refine .step 5000 before ⟨trivial, rfl⟩ (hallowed _ _ (entersOther_of_eq rfl)) ?_
  refine .step (.ok (some (carried.phoneRow none))) proved (Locks.found hphone) (hallowed _ _ ?_) ?_
  · intro _ _ h
    cases h
  refine .step 5000 proved ⟨trivial, rfl⟩ (hallowed _ _ (entersOther_of_eq rfl)) ?_
  refine .step (.ok (some (carried.kakaoRow none))) busy (Locks.found hkakao)
    (hallowed _ _ (entersOther_of_eq rfl)) ?_
  refine .step (.ok (some (User.visible kakaoUserId))) _ (Locks.found rfl) (hallowed _ _ ?_) .refl
  intro _ _ h
  cases h

/-- The rest of a signup up to where it has attached its number. -/
theorem attachRest_runs {allowed : World → World → Prop} {carried : CarriedTokens} {w after : World}
    {db : Database} (pid : ℕ) (hlocks : w.locks = []) (hclocks : w.clocks 5000)
    (hphone : w.db.phoneVerificationTokens.find? (usableToken
      (AuthConfig.plain.hashToken carried.phoneToken) 5000) = some (carried.phoneRow none))
    (hkakao : w.db.kakaoPhoneVerificationTokens.find? (usableKakaoToken
      (AuthConfig.plain.hashToken carried.kakaoToken) 5000) = some (carried.kakaoRow none))
    (hwrites : writeAttachment ⟨AuthConfig.plain.hashToken carried.phoneToken, 5000, 5000⟩
      ⟨AuthConfig.plain.hashToken carried.kakaoToken, 5000, 5000⟩ kakaoUserId carried.number w.db =
        .ok (some (numbered carried.number), db))
    (hafter : after = { w with db := db, log := attachEntry carried pid :: w.log })
    (hquiet : ∀ before after, EntersOther before after → allowed before after)
    (hallowed : ∀ locks, allowed (w.withLocks locks) after) :
    Runs allowed pid (attachRest carried) w (issueRest (numbered carried.number)) after := by
  have hattach : Runs allowed pid (attachPhoneWithKakaoPhoneVerificationTokens .plain
      ⟨kakaoUserId, carried.number, carried.phoneToken, carried.kakaoToken⟩ :
        Prog World AuthRequest Failure _) w (.done (some (numbered carried.number))) after :=
    attach_runs hlocks hclocks hphone hkakao hwrites hafter hquiet hallowed
  exact ((((hattach.tryCatch _).tryCatch _).bind _).tryCatch _).bind _

/-- A signup that has attached its number alone. -/
def attachedAlone : World :=
  { World.ofDatabase (attachTables (some firstTokens.number) (some 5000) none) with
    reading := [(0, kakaoUserId)]
    log := attachEntry firstTokens 0 :: lookupLog firstTokens 0 }

/-- What another signup leaves that has found the account with the number. -/
def refusedSecond : World :=
  { attachedAlone with
    log := [(1, .foundAccount (numbered firstTokens.number)),
      (1, .foundPhoneToken (secondTokens.phoneRow none))] ++ attachedAlone.log }

/-- A signup attaches its number; another one with its own tokens is refused, and the account
keeps the number. -/
theorem verified_phone_kept_alone :
    AuthRun .plain ChecksCurrent (attachTables none none none)
        ⟨attachedAlone, [⟨firstTokens.signup, issueRest (numbered firstTokens.number)⟩]⟩ ∧
      attachedAlone.db.users = [numbered firstTokens.number] ∧
      Reachable (authSystem .plain) ChecksCurrent
        ⟨attachedAlone, [⟨firstTokens.signup, issueRest (numbered firstTokens.number)⟩]⟩
        ⟨refusedSecond, [⟨firstTokens.signup, issueRest (numbered firstTokens.number)⟩,
          ⟨secondTokens.signup, .fail phoneVerificationRequired⟩]⟩ ∧
      NumbersKept attachedAlone.db.users refusedSecond.db.users := by
  have hquiet : ∀ before after, EntersOther before after → ChecksCurrent before after :=
    fun _ _ hother pid consumption hlog => absurd hlog (hother pid consumption)
  have hsame {w w' : World} (hlog : w'.log = w.log) : ChecksCurrent w w' :=
    hquiet _ _ (entersOther_of_eq hlog)
  let found : World := { World.ofDatabase (attachTables none none none) with
    reading := [(0, kakaoUserId)]
    log := lookupLog firstTokens 0 }
  have hlookup : Runs ChecksCurrent 0 (authCode .plain firstTokens.signup)
      (.ofDatabase (attachTables none none none)) (attachRest firstTokens) found :=
    lookups_runs 0 [] [] (Or.inl rfl) hquiet
  have hattach : Runs ChecksCurrent 0 (attachRest firstTokens) found
      (issueRest (numbered firstTokens.number)) attachedAlone := by
    refine attachRest_runs 0 rfl trivial rfl rfl rfl rfl hquiet fun locks => ?_
    -- The account had no number when it was looked up, and has none now.
    intro pid consumption _ account token _ _ user hmem _ number hnumber
    obtain rfl := List.mem_singleton.1 hmem
    cases hnumber
  have hstart : AuthRun .plain ChecksCurrent (attachTables none none none)
      (atRest (attachTables none none none)) := Relation.ReflTransGen.refl
  have hrun : AuthRun .plain ChecksCurrent (attachTables none none none)
      ⟨attachedAlone, [⟨firstTokens.signup, issueRest (numbered firstTokens.number)⟩]⟩ :=
    hstart.serve trivial (hsame rfl) (hlookup.trans hattach)
  have hrefused : Runs ChecksCurrent 1 (authCode .plain secondTokens.signup) attachedAlone
      (.fail phoneVerificationRequired) refusedSecond := by
    let proved : World := { attachedAlone with
      log := (1, .foundPhoneToken (secondTokens.phoneRow none)) :: attachedAlone.log }
    let busy : World := { proved with reading := (1, kakaoUserId) :: proved.reading }
    let looked : World := { busy with
      log := (1, .foundAccount (numbered firstTokens.number)) :: busy.log }
    refine .step true attachedAlone rfl (hsame rfl) ?_
    refine .step 5000 attachedAlone ⟨trivial, rfl⟩ (hsame rfl) ?_
    refine .step (.ok (some (secondTokens.phoneRow none))) proved (Locks.found rfl)
      (hquiet _ _ ?_) ?_
    · intro _ _ h
      cases h
    refine .step 5000 proved ⟨trivial, rfl⟩ (hsame rfl) ?_
    refine .step (.ok (some (secondTokens.kakaoRow none))) busy (Locks.found rfl) (hsame rfl) ?_
    refine .step (.ok (some (numbered firstTokens.number))) looked (Locks.found rfl)
      (hquiet _ _ ?_) ?_
    · intro _ _ h
      cases h
    exact .step () _ rfl (hsame rfl) .refl
  have hlater : Reachable (authSystem .plain) ChecksCurrent
      ⟨attachedAlone, [⟨firstTokens.signup, issueRest (numbered firstTokens.number)⟩]⟩
      ⟨refusedSecond, [⟨firstTokens.signup, issueRest (numbered firstTokens.number)⟩,
        ⟨secondTokens.signup, .fail phoneVerificationRequired⟩]⟩ :=
    Reachable.serve Relation.ReflTransGen.refl trivial (hsame rfl) hrefused
  have hphone : UniqueKey PhoneVerificationToken.tokenHash
      (attachTables none none none).phoneVerificationTokens := by
    unfold UniqueKey
    decide +kernel
  have hkakao : UniqueKey KakaoPhoneVerificationToken.tokenHash
      (attachTables none none none).kakaoPhoneVerificationTokens := by
    unfold UniqueKey
    decide +kernel
  obtain ⟨-, hkept, -⟩ := verified_phone_kept .plain (attachTables none none none) hphone hkakao _ hrun
  refine ⟨hrun, rfl, hlater, hkept _ hlater fun thread hmem => ?_⟩
  rcases List.mem_pair.1 hmem with rfl | rfl <;> rfl

/-- The state in which the first of two signups has attached its number. -/
def attachedOnce : World :=
  { World.ofDatabase (attachTables (some firstTokens.number) (some 5000) none) with
    reading := [(1, kakaoUserId), (0, kakaoUserId)]
    log := attachEntry firstTokens 0 :: (lookupLog secondTokens 1 ++ lookupLog firstTokens 0) }

/-- The state in which both have. -/
def attachedTwice : World :=
  { World.ofDatabase (attachTables (some secondTokens.number) (some 5000) (some 5000)) with
    reading := [(1, kakaoUserId), (0, kakaoUserId)]
    log := attachEntry secondTokens 1 :: attachedOnce.log }

/-- Two signups look the account up while it has no number; then each attaches its own, and
the second replaces the number of the first. -/
theorem verified_phone_replaced :
    AuthRun .plain anyStep (attachTables none none none)
        ⟨attachedOnce, [⟨firstTokens.signup, issueRest (numbered firstTokens.number)⟩,
          ⟨secondTokens.signup, attachRest secondTokens⟩]⟩ ∧
      Reachable (authSystem .plain) anyStep
        ⟨attachedOnce, [⟨firstTokens.signup, issueRest (numbered firstTokens.number)⟩,
          ⟨secondTokens.signup, attachRest secondTokens⟩]⟩
        ⟨attachedTwice, [⟨firstTokens.signup, issueRest (numbered firstTokens.number)⟩,
          ⟨secondTokens.signup, issueRest (numbered secondTokens.number)⟩]⟩ ∧
      numbered firstTokens.number ∈ attachedOnce.db.users ∧
      attachedTwice.db.users = [numbered secondTokens.number] ∧
      ¬ NumbersKept attachedOnce.db.users attachedTwice.db.users := by
  have hstart : AuthRun .plain anyStep (attachTables none none none)
      (atRest (attachTables none none none)) := Relation.ReflTransGen.refl
  have hlookup : Runs anyStep 0 (authCode .plain firstTokens.signup) _ (attachRest firstTokens) _ :=
    lookups_runs 0 [] [] (Or.inl rfl) fun _ _ _ => trivial
  have hlookup' : Runs anyStep 1 (authCode .plain secondTokens.signup) _ (attachRest secondTokens) _ :=
    lookups_runs 1 [(0, kakaoUserId)] (lookupLog firstTokens 0) (Or.inr rfl) fun _ _ _ => trivial
  have hfirst : AuthRun .plain anyStep (attachTables none none none)
      ⟨_, [⟨firstTokens.signup, attachRest firstTokens⟩]⟩ := hstart.serve trivial trivial hlookup
  have hsecond : AuthRun .plain anyStep (attachTables none none none)
      ⟨_, [⟨firstTokens.signup, attachRest firstTokens⟩, ⟨secondTokens.signup, attachRest secondTokens⟩]⟩ :=
    hfirst.serve trivial trivial hlookup'
  have hattach : Runs anyStep 0 (attachRest firstTokens)
      { World.ofDatabase (attachTables none none none) with
        reading := [(1, kakaoUserId), (0, kakaoUserId)]
        log := lookupLog secondTokens 1 ++ lookupLog firstTokens 0 }
      (issueRest (numbered firstTokens.number)) attachedOnce :=
    attachRest_runs 0 rfl trivial rfl rfl rfl rfl (fun _ _ _ => trivial) fun _ => trivial
  -- The second signup goes on with the row it read before, which had no number.
  have hreplace : Runs anyStep 1 (attachRest secondTokens) attachedOnce
      (issueRest (numbered secondTokens.number)) attachedTwice :=
    attachRest_runs 1 rfl trivial rfl rfl rfl rfl (fun _ _ _ => trivial) fun _ => trivial
  refine ⟨Relation.ReflTransGen.trans hsecond (hattach.reachable _ rfl), hreplace.reachable _ rfl,
    List.mem_singleton_self _, rfl, fun hkept => ?_⟩
  obtain ⟨user, hmem, -, hnumber⟩ := hkept (numbered firstTokens.number) (List.mem_singleton_self _) _ rfl
  obtain rfl := List.mem_singleton.1 hmem
  exact absurd (Option.some.inj hnumber) (by decide)

end ChatTea.Auth
