import ChatTea.Auth.Sessions

/-!
# Erased accounts

An account that nobody can reach and that no call is busy with stays so, whatever the
calls do. An erasure makes an account unreachable, except for the calls that have
found it before and the Kakao tokens that name it.

## Main definitions

* `Barred` — nothing leads to the account any more
* `ErasesIdle` — an erasure that no call and no Kakao token survives

## Main results

* `keeps_barred` — a barred account stays barred, and no call returns tokens for it
* `deleted_is_terminal` — under the condition an erasure is final
-/

namespace ChatTea.Auth

open History Interleaving RowLocks Table Transaction Users

variable {config : AuthConfig} {request : AuthRequest} {pid : ℕ} {w : World} {s : AuthState}
  {trace : Trace} {tables : AuthTables} {userId : Uuid}

/-- Nothing leads to the account any more: no phone or password, no session or identity,
no Kakao token that is left to use, and no call that has found it. -/
structure Barred (userId : Uuid) (s : AuthState) : Prop where
  known : ∃ user ∈ s.tables.users, user.userId = userId
  credentials : ∀ user ∈ s.tables.users, user.userId = userId → user.phone = none ∧ user.password = ""
  sessions : ∀ session ∈ s.tables.sessions, session.userId ≠ userId
  identities : ∀ row ∈ s.tables.identities, row.userId ≠ userId
  kakaoTokens : ∀ token ∈ s.tables.kakaoTokens, token.userId = some userId → token.usedAt ≠ none
  idle : ∀ pid, (pid, userId) ∉ s.reading

theorem AuthState.mem_enter_reading {other : ℕ} :
    (other, userId) ∈ (s.enter pid trace tables).reading ↔
      (other = pid ∧ userId ∈ trace.accounts) ∨ (other, userId) ∈ s.reading := by
  simp only [AuthState.enter, List.mem_append, mem_stamp]

theorem Barred.not_reaches (h : Barred userId (authState w)) : ¬ Reaches w.db userId := by
  rintro (⟨user, hmem, hsame, hphone⟩ | ⟨row, hmem, hsame⟩ | ⟨row, hmem, hsame⟩ |
    ⟨row, hmem, hunused, hsame⟩)
  · exact hphone (h.credentials user hmem hsame).1
  · exact h.identities row hmem hsame
  · exact h.sessions row hmem hsame
  · exact h.kakaoTokens row hmem hsame hunused

/-- No call begins to be busy with a barred account. -/
theorem AuthChange.accounts (h : AuthChange config request pid w trace tables)
    (hbarred : Barred userId (authState w)) : userId ∉ trace.accounts := by
  cases h with
  | foundByEmail mem password first =>
      intro hmem
      obtain rfl := List.mem_singleton.1 hmem
      exact password (hbarred.credentials _ mem rfl).2
  | found reaches first =>
      intro hmem
      obtain rfl := List.mem_singleton.1 hmem
      exact hbarred.not_reaches reaches
  | createdUser call phoneUse kakaoUse first isNew number_eq own needs =>
      intro hmem
      obtain rfl := List.mem_singleton.1 hmem
      obtain ⟨user, huser, hsame⟩ := hbarred.known
      exact isNew user huser hsame
  | rotatedSession call busy signed name validated current =>
      exact List.not_mem_nil
  | _ => exact List.not_mem_nil

/-! ### What the changes do to the tables of a barred account -/

/-- An account after a change is one from before, with another phone or password only if
some call was busy with it or it has a phone, or it is new. -/
theorem AuthChange.credentials (h : AuthChange config request pid w trace tables)
    (hbarred : Barred userId (authState w)) :
    ∀ user ∈ tables.users, user.userId = userId → user.phone = none ∧ user.password = "" := by
  have hold := hbarred.credentials
  cases h with
  | resetPassword call accepted mem same unverified owner phone hashed all =>
      intro user hmem hsame
      rcases mem_updateWhere.1 hmem with ⟨old, holdmem, hcond, rfl⟩ | ⟨holdmem, -⟩
      · have howner := of_decide_eq_true hcond
        have hnone := (hold _ owner (howner.symm.trans hsame)).1
        rw [hnone] at phone
        cases phone
      · exact hold user holdmem hsame
  | attachedPhone call phoneUse kakaoUse busy number_eq fits =>
      intro user hmem hsame
      rcases mem_updateWhere.1 hmem with ⟨old, holdmem, hcond, rfl⟩ | ⟨holdmem, -⟩
      · have hid := of_decide_eq_true hcond
        have hid : userId = _ := hsame.symm.trans hid
        rw [← hid] at busy
        exact absurd busy (hbarred.idle pid)
      · exact hold user holdmem hsame
  | createdUser call phoneUse kakaoUse first isNew number_eq own needs =>
      intro user hmem hsame
      rcases List.mem_append.1 hmem with holdmem | hnew
      · exact hold user holdmem hsame
      · obtain rfl := List.mem_singleton.1 hnew
        obtain ⟨other, hother, hid⟩ := hbarred.known
        exact absurd (hid.trans hsame.symm) (isNew other hother)
  | managed call keeps =>
      intro user hmem hsame
      rcases mem_updateWhere.1 hmem with ⟨old, holdmem, -, rfl⟩ | ⟨holdmem, -⟩
      · rw [keeps.userId] at hsame
        rw [keeps.phone, keeps.password]
        exact hold old holdmem hsame
      · exact hold user holdmem hsame
  | erased call current =>
      intro user hmem hsame
      rcases mem_updateWhere.1 hmem with ⟨old, holdmem, -, rfl⟩ | ⟨holdmem, -⟩
      · exact ⟨rfl, rfl⟩
      · exact hold user holdmem hsame
  | _ => exact hold

theorem AuthChange.sessions (h : AuthChange config request pid w trace tables)
    (hbarred : Barred userId (authState w)) : ∀ session ∈ tables.sessions, session.userId ≠ userId := by
  have hold := hbarred.sessions
  cases h with
  | savedSession call busy signed name =>
      intro session hmem hsame
      rcases mem_putSession hmem with holdmem | ⟨huser, -, -⟩
      · exact hold session holdmem hsame
      · rw [← huser, hsame] at busy
        exact hbarred.idle pid busy
  | rotatedSession call busy signed name validated current =>
      intro session hmem hsame
      rcases mem_updateWhere.1 hmem with ⟨old, holdmem, -, rfl⟩ | ⟨holdmem, -⟩
      · exact hold old holdmem hsame
      · exact hold session holdmem hsame
  | deletedSession call => exact fun session hmem => hold session (List.mem_of_mem_filter hmem)
  | resetPassword call accepted mem same unverified owner phone hashed all =>
      exact fun session hmem => hold session (List.mem_of_mem_filter hmem)
  | managed call keeps => exact fun session hmem => hold session (List.mem_of_mem_filter hmem)
  | erased call current => exact fun session hmem => hold session (List.mem_of_mem_filter hmem)
  | _ => exact hold

theorem AuthChange.identities (h : AuthChange config request pid w trace tables)
    (hbarred : Barred userId (authState w)) : ∀ row ∈ tables.identities, row.userId ≠ userId := by
  have hold := hbarred.identities
  cases h with
  | createdUser call phoneUse kakaoUse first isNew number_eq own needs =>
      intro row hmem hsame
      rcases List.mem_append.1 hmem with holdmem | hnew
      · exact hold row holdmem hsame
      · obtain ⟨user, huser, hid⟩ := hbarred.known
        exact isNew user huser (hid.trans (hsame.symm.trans (own row hnew)))
  | erased call current => exact fun row hmem => hold row (List.mem_of_mem_filter hmem)
  | _ => exact hold

/-- A token that has been used up stays so. -/
theorem usedAt_of_usesKakao {tokens after : List KakaoPhoneVerificationToken} {hash : Option String}
    (h : UsesKakao tokens hash after)
    (hold : ∀ token ∈ tokens, token.userId = some userId → token.usedAt ≠ none) :
    ∀ token ∈ after, token.userId = some userId → token.usedAt ≠ none := by
  cases h with
  | none => exact hold
  | some input usable =>
      intro token hmem hsame
      rcases mem_updateWhere.1 hmem with ⟨old, holdmem, -, rfl⟩ | ⟨holdmem, -⟩
      · exact Option.some_ne_none _
      · exact hold token holdmem hsame

theorem AuthChange.kakaoTokens (h : AuthChange config request pid w trace tables)
    (hbarred : Barred userId (authState w)) :
    ∀ token ∈ tables.kakaoTokens, token.userId = some userId → token.usedAt ≠ none := by
  have hold := hbarred.kakaoTokens
  cases h with
  | createdKakaoToken unique unused busy =>
      intro token hmem hsame
      rcases List.mem_append.1 hmem with holdmem | hnew
      · exact hold token holdmem hsame
      · obtain rfl := List.mem_singleton.1 hnew
        exact absurd (busy userId hsame) (hbarred.idle pid)
  | usedTokens call phoneUse kakaoUse alone => exact usedAt_of_usesKakao kakaoUse hold
  | attachedPhone call phoneUse kakaoUse busy number_eq fits => exact usedAt_of_usesKakao kakaoUse hold
  | createdUser call phoneUse kakaoUse first isNew number_eq own needs =>
      exact usedAt_of_usesKakao kakaoUse hold
  | _ => exact hold

/-- An account is never removed from its table. -/
theorem AuthChange.known (h : AuthChange config request pid w trace tables)
    (hknown : ∃ user ∈ w.db.users, user.userId = userId) :
    ∃ user ∈ tables.users, user.userId = userId := by
  obtain ⟨user, hmem, hsame⟩ := hknown
  have hupdate : ∀ {cond : User → Bool} {set : User → User}, (∀ user, (set user).userId = user.userId) →
      ∃ user ∈ updateWhere cond set w.db.users, user.userId = userId := by
    intro cond set hset
    refine ⟨if cond user then set user else user, List.mem_map.2 ⟨user, hmem, rfl⟩, ?_⟩
    split
    · rw [hset, hsame]
    · exact hsame
  cases h with
  | resetPassword call accepted mem same unverified owner phone hashed all =>
      exact hupdate fun _ => rfl
  | attachedPhone call phoneUse kakaoUse busy number_eq fits => exact hupdate fun _ => rfl
  | createdUser call phoneUse kakaoUse first isNew number_eq own needs =>
      exact ⟨user, List.mem_append_left _ hmem, hsame⟩
  | managed call keeps => exact hupdate keeps.userId
  | erased call current => exact hupdate fun _ => rfl
  | _ => exact ⟨user, hmem, hsame⟩

theorem AuthChange.barred (h : AuthChange config request pid w trace tables)
    (hbarred : Barred userId (authState w)) :
    Barred userId ((authState w).enter pid trace tables) where
  known := h.known hbarred.known
  credentials := h.credentials hbarred
  sessions := h.sessions hbarred
  identities := h.identities hbarred
  kakaoTokens := h.kakaoTokens hbarred
  idle := by
    intro other hmem
    rcases AuthState.mem_enter_reading.1 hmem with ⟨-, hnew⟩ | hold
    · exact h.accounts hbarred hnew
    · exact hbarred.idle other hold

/-- No call returns tokens for a barred account. -/
theorem AuthChange.not_issued (h : AuthChange config request pid w trace tables)
    (hbarred : Barred userId (authState w)) : .issuedTokens userId ∉ trace.events := by
  cases h with
  | issuedTokens busy spent =>
      intro hmem
      obtain rfl := Event.issuedTokens.inj (List.mem_singleton.1 hmem)
      exact hbarred.idle pid busy
  | _ => simp [rotationTrace]

/-- Nothing leads to an account, and the tokens that were issued for it were issued
before. -/
def BarredSince (userId : Uuid) (log : List (ℕ × Event)) (s : AuthState) : Prop :=
  Barred userId s ∧ ∀ p, (p, .issuedTokens userId) ∈ s.log → (p, .issuedTokens userId) ∈ log

theorem keeps_barred (config : AuthConfig) (allowed : World → World → Prop) (userId : Uuid)
    (log : List (ℕ × Event)) : Keeps config allowed (BarredSince userId log) where
  change := by
    rintro request pid w trace tables after - hchange - - ⟨hbarred, hsince⟩
    refine ⟨hchange.barred hbarred, fun p hmem => ?_⟩
    rcases AuthState.mem_enter.1 hmem with ⟨-, hnew⟩ | hold
    · exact absurd hnew (hchange.not_issued hbarred)
    · exact hsince p hold
  forget := fun hreading h => ⟨⟨h.1.known, h.1.credentials, h.1.sessions, h.1.identities,
    h.1.kakaoTokens, fun pid hmem => h.1.idle pid (hreading hmem)⟩, h.2⟩

/-! ### Erasures -/

/-- When the step erases an account, no call is busy with it, and no Kakao token that is
left to use names it. -/
def ErasesIdle (before after : World) : Prop :=
  ∀ user ∈ before.db.users, user.deletedAt = none →
    (∃ erased ∈ after.db.users, erased.userId = user.userId ∧ erased.deletedAt ≠ none) →
      (∀ pid, (pid, user.userId) ∉ before.reading) ∧
        ∀ token ∈ before.db.kakaoPhoneVerificationTokens, token.userId = some user.userId →
          token.usedAt ≠ none

/-- Nothing leads to an account that has been erased. -/
def Terminal (s : AuthState) : Prop :=
  ∀ user ∈ s.tables.users, user.deletedAt ≠ none → Barred user.userId s

theorem barred_of_erased {input : DeletionJobInput}
    (hknown : ∃ user ∈ w.db.users, user.userId = input.userId)
    (hidle : ∀ pid, (pid, input.userId) ∉ w.reading)
    (hused : ∀ token ∈ w.db.kakaoPhoneVerificationTokens, token.userId = some input.userId →
      token.usedAt ≠ none) :
    Barred input.userId ((authState w).enter pid {} { authTables w.db with
      users := updateWhere (fun user => user.userId = input.userId) (anonymizeColumns input.now)
        w.db.users
      sessions := w.db.refreshTokens.filter fun session => session.userId ≠ input.userId
      identities := w.db.authIdentities.filter fun row => row.userId ≠ input.userId }) where
  known := by
    obtain ⟨user, hmem, hsame⟩ := hknown
    refine ⟨anonymizeColumns input.now user, mem_updateWhere.2 (Or.inl ⟨user, hmem, ?_, rfl⟩), hsame⟩
    exact decide_eq_true hsame
  credentials := by
    intro user hmem hsame
    rcases mem_updateWhere.1 hmem with ⟨old, -, -, rfl⟩ | ⟨-, hother⟩
    · exact ⟨rfl, rfl⟩
    · exact absurd (decide_eq_true hsame) hother
  sessions := fun session hmem => of_decide_eq_true (List.mem_filter.1 hmem).2
  identities := fun row hmem => of_decide_eq_true (List.mem_filter.1 hmem).2
  kakaoTokens := hused
  idle := hidle

/-- An account is deleted after a change if it was before, or by its erasure. -/
theorem AuthChange.terminal (h : AuthChange config request pid w trace tables) {after : World}
    (hafter : authState after = (authState w).enter pid trace tables)
    (hallowed : ErasesIdle w after) (hterminal : Terminal (authState w)) :
    Terminal ((authState w).enter pid trace tables) := by
  intro user hmem hdeleted
  have hkept : (∃ old ∈ w.db.users, old.userId = user.userId ∧ old.deletedAt ≠ none) →
      Barred user.userId ((authState w).enter pid trace tables) := by
    rintro ⟨old, hold, hsame, hold_deleted⟩
    rw [← hsame]
    exact h.barred (hterminal old hold hold_deleted)
  have hmem' : user ∈ tables.users := hmem
  have herased : user ∈ after.db.users := by
    rw [show after.db.users = tables.users from congrArg (fun s => s.tables.users) hafter]
    exact hmem'
  cases h with
  | @erased input call current =>
      rcases mem_updateWhere.1 hmem' with ⟨old, hold, hcond, rfl⟩ | ⟨hold, -⟩
      · by_cases halive : old.deletedAt = none
        · have hid : old.userId = input.userId := of_decide_eq_true hcond
          obtain ⟨hidle, hused⟩ := hallowed old hold halive ⟨_, herased, rfl, hdeleted⟩
          have hsame : (anonymizeColumns input.now old).userId = input.userId := hid
          rw [hid] at hidle hused
          rw [hsame]
          exact barred_of_erased ⟨old, hold, hid⟩ hidle hused
        · exact hkept ⟨old, hold, rfl, halive⟩
      · exact hkept ⟨user, hold, rfl, hdeleted⟩
  | resetPassword call accepted mem same unverified owner phone hashed all =>
      rcases mem_updateWhere.1 hmem' with ⟨old, hold, -, rfl⟩ | ⟨hold, -⟩
      · exact hkept ⟨old, hold, rfl, hdeleted⟩
      · exact hkept ⟨user, hold, rfl, hdeleted⟩
  | attachedPhone call phoneUse kakaoUse busy number_eq fits =>
      rcases mem_updateWhere.1 hmem' with ⟨old, hold, -, rfl⟩ | ⟨hold, -⟩
      · exact hkept ⟨old, hold, rfl, hdeleted⟩
      · exact hkept ⟨user, hold, rfl, hdeleted⟩
  | createdUser call phoneUse kakaoUse first isNew number_eq own needs =>
      rcases List.mem_append.1 hmem' with hold | hnew
      · exact hkept ⟨user, hold, rfl, hdeleted⟩
      · obtain rfl := List.mem_singleton.1 hnew
        exact absurd rfl hdeleted
  | managed call keeps =>
      rcases mem_updateWhere.1 hmem' with ⟨old, hold, -, rfl⟩ | ⟨hold, -⟩
      · rw [keeps.deletedAt] at hdeleted
        exact hkept ⟨old, hold, (keeps.userId old).symm, hdeleted⟩
      · exact hkept ⟨user, hold, rfl, hdeleted⟩
  | _ => exact hkept ⟨user, hmem', rfl, hdeleted⟩

theorem keeps_terminal (config : AuthConfig) : Keeps config ErasesIdle Terminal where
  change := fun _ hchange hallowed hafter h => hchange.terminal hafter hallowed h
  forget := fun hreading h user hmem hdeleted =>
    let hbarred := h user hmem hdeleted
    ⟨hbarred.known, hbarred.credentials, hbarred.sessions, hbarred.identities, hbarred.kakaoTokens,
      fun pid hbusy => hbarred.idle pid (hreading hbusy)⟩

/-- If no account is erased while a call is busy with it or a Kakao token is left that
names it, then an erased account has no phone and no session, and all tokens that calls
ever return for it were issued before. -/
theorem deleted_is_terminal (config : AuthConfig) (db : Database)
    (halive : ∀ user ∈ db.users, user.deletedAt = none)
    (c : Config World AuthRequest Failure AuthReply) (hrun : AuthRun config ErasesIdle db c) :
    ∀ user ∈ c.state.db.users, user.deletedAt ≠ none →
      user.phone = none ∧ (∀ session ∈ c.state.db.refreshTokens, session.userId ≠ user.userId) ∧
        ∀ c', Reachable (authSystem config) anyStep c c' → ∀ pid request payload,
          c'.threads[pid]? = some ⟨request, .done (.tokens user.userId payload)⟩ →
            (pid, .issuedTokens user.userId) ∈ c.state.log := by
  intro user hmem hdeleted
  have hterminal : Terminal (authState c.state) :=
    hrun.keeps (keeps_terminal config) fun user hmem hdeleted =>
      absurd (halive user hmem) hdeleted
  have hbarred := hterminal user hmem hdeleted
  refine ⟨(hbarred.credentials user hmem rfl).1, hbarred.sessions, ?_⟩
  intro c' hreach pid request payload hthread
  have hsince := (keeps_barred config anyStep user.userId c.state.log).reachable hrun.good hreach
    ⟨hbarred, fun _ hmem => hmem⟩
  have hgood : (authLogic config).Good c' :=
    (sound config).reachable hrun.good (Reachable.weaken hreach fun _ _ _ => trivial)
  obtain ⟨hissued, -⟩ := (Logic.Sound.ensures hgood hthread).1 user.userId payload rfl
  exact hsince.2 pid (mem_own.1 hissued)

/-- A step after which no account is deleted erases none. -/
theorem erasesIdle_of_alive {before after : World}
    (halive : ∀ user ∈ after.db.users, user.deletedAt = none) : ErasesIdle before after := by
  rintro user - - ⟨erased, hmem, -, hdeleted⟩
  exact absurd (halive erased hmem) hdeleted

theorem erasesIdle_of_nil {before after : World} (hreading : before.reading = [])
    (htokens : before.db.kakaoPhoneVerificationTokens = []) : ErasesIdle before after := by
  intro user _ _ _
  rw [hreading, htokens]
  exact ⟨fun _ => List.not_mem_nil, fun _ hmem => absurd hmem List.not_mem_nil⟩

/-- An account that is due for deletion and claimed by a worker. -/
def claimedUser : User :=
  { kakaoUser with deletionScheduledAt := some 100, deletionLeaseExpiresAt := some 200 }

/-- The account with the sessions of its logins. -/
def claimedAccount (sessions : List RefreshToken) : Database :=
  { Database.ofUsers [claimedUser] with
    authIdentities := [⟨kakaoUserId, "kakao", "1"⟩]
    refreshTokens := sessions
    nextRowId := sessions.length }

def claimedJob : DeletionJobInput := ⟨⟨kakaoUserId, 200⟩, 150⟩

/-- What the erasure leaves, and the sessions that are saved after it. -/
def erasedAccount (drawn : ℕ) (sessions : List RefreshToken) : Database :=
  { Database.ofUsers [anonymizeColumns 150 claimedUser] with
    refreshTokens := sessions
    nextRowId := drawn }

/-- The writes of the erasure end all sessions of the account. -/
theorem writeAnonymized_claimed {sessions : List RefreshToken}
    (hown : ∀ session ∈ sessions, session.userId = kakaoUserId) :
    writeAnonymized claimedJob [] (claimedAccount sessions) =
      .ok ((), erasedAccount sessions.length []) := by
  have hended : sessions.filter (fun session => session.userId ≠ kakaoUserId) = [] :=
    List.filter_eq_nil_iff.2 fun session hmem => by simp [hown session hmem]
  exact congrArg (fun kept => Except.ok ((), erasedAccount sessions.length kept)) hended

/-- The erasure, whatever else goes on. -/
theorem claimedJob_runs {allowed : World → World → Prop} (pid : ℕ) {sessions : List RefreshToken}
    (hown : ∀ session ∈ sessions, session.userId = kakaoUserId) (reading : List (ℕ × Uuid))
    (log : List (ℕ × Event)) (hallowed : ∀ before after : World,
      before.db = claimedAccount sessions → before.reading = reading → allowed before after) :
    Runs allowed pid (authCode .plain (.deletionJob claimedJob))
      { World.ofDatabase (claimedAccount sessions) with reading := reading, log := log } (.done .done)
      { World.ofDatabase (erasedAccount sessions.length []) with
        reading := reading
        log := log } := by
  let before : World :=
    { World.ofDatabase (claimedAccount sessions) with reading := reading, log := log }
  let locked : World := before.withLocks [⟨pid, .update, .user kakaoUserId⟩]
  let ended : World := locked.withLocks
    (acquire pid .update ((sessionsOf kakaoUserId locked.db).map .session) locked.locks)
  have hnone : ∀ lock ∈ before.locks, lock.holder = pid := fun _ hmem => absurd hmem List.not_mem_nil
  have halone : ∀ lock ∈ locked.locks, lock.holder = pid := by
    intro lock hmem
    rw [List.mem_singleton.1 hmem]
  have hended : ∀ lock ∈ ended.locks, lock.holder = pid := acquire_of_alone halone
  have hunlocked : ended.Unlocked pid (erasedAccount sessions.length []) :=
    World.unlocked_of_alone hended _
  have hreleased : release pid ended.locks = [] :=
    List.filter_eq_nil_iff.2 fun lock hmem => by simp [hended lock hmem]
  -- The account has no rooms, uploads or photos; its sessions are locked before they are deleted.
  refine .step (.ok true) locked (Selects.locked fun _ _ => free_of_alone hnone)
    (hallowed _ _ rfl rfl) ?_
  refine .step (.ok []) locked (Selects.locked fun _ _ => free_of_alone halone)
    (hallowed _ _ rfl rfl) ?_
  refine .step (.ok ()) locked (Selects.locked fun _ _ => free_of_alone halone)
    (hallowed _ _ rfl rfl) ?_
  refine .step (.ok ()) locked (Selects.locked fun _ _ => free_of_alone halone)
    (hallowed _ _ rfl rfl) ?_
  refine .step (.ok ()) ended (Selects.locked fun _ _ => free_of_alone halone)
    (hallowed _ _ rfl rfl) ?_
  have hcommits : Commits (writeAnonymized claimedJob []) pid ended (.ok ()) _ :=
    .committed (writeAnonymized_claimed hown) hunlocked
  rw [hreleased] at hcommits
  exact .step (.ok ()) _ hcommits (hallowed _ _ rfl rfl) .refl

/-- What is left of a login when it has hashed its token. -/
def saveKakaoSession (salt : ℕ) : Prog World AuthRequest Failure AuthReply :=
  tracked do
    record (fun _ => { events :=
        [.savedSession kakaoUserId (deviceName oneDevice) (hashAt salt 5)] })
      (saveRefreshToken ⟨kakaoUserId, deviceName oneDevice, hashAt salt 5, 1209605000⟩)
    note [.issuedTokens kakaoUserId]
    return kakaoTokens

/-- A login that has hashed its token. -/
def hashedLogin (pid : ℕ) (db : Database) (log : List (ℕ × Event)) : World :=
  { World.ofDatabase db with reading := [(pid, kakaoUserId)], log := log }

/-- What a login enters when it saves its session. -/
def savedLog (pid salt : ℕ) : List (ℕ × Event) :=
  [(pid, .issuedTokens kakaoUserId),
    (pid, .savedSession kakaoUserId (deviceName oneDevice) (hashAt salt 5))]

/-- What the Kakao login has entered when it has hashed its token. -/
def kakaoLog : List (ℕ × Event) :=
  [(0, .hashed (refreshToken .plain kakaoUserId oneDevice 5) (hashAt 0 5))]

section Login

variable {allowed : World → World → Prop}

/-- The login up to the hash of its token. -/
theorem kakaoLogin_hashes
    (hallowed : ∀ before after : World, after.db = claimedAccount [] → allowed before after) :
    Runs allowed 0 (authCode .plain kakaoLogin) (.ofDatabase (claimedAccount []))
      (saveKakaoSession 0) (hashedLogin 0 (claimedAccount []) kakaoLog) := by
  let before : World := .ofDatabase (claimedAccount [])
  let busy : World := { before with reading := [(0, kakaoUserId)] }
  have hnone : ∀ lock ∈ ([] : List (Lock LockedRow)), lock.holder = 0 :=
    fun _ hmem => absurd hmem List.not_mem_nil
  have hfree : ∀ row ∈ ([] : List LockedRow), Free [] 0 .keyShare row := fun _ _ => free_of_unlocked
  refine .step (some ⟨"1".toList, none, none⟩) before rfl (hallowed _ _ rfl) ?_
  refine .step (.ok (some ⟨kakaoUserId, "kakao", "1"⟩)) busy (Locks.locked hfree)
    (hallowed _ _ rfl) ?_
  refine .step (.ok (some claimedUser)) busy (Locks.locked hfree) (hallowed _ _ rfl) ?_
  refine .step 5000 busy ⟨trivial, rfl⟩ (hallowed _ _ rfl) ?_
  refine .step (.ok false) busy
    (Executes.returned rfl (World.unlocked_of_alone hnone _)) (hallowed _ _ rfl) ?_
  refine .step 5000 busy ⟨trivial, rfl⟩ (hallowed _ _ rfl) ?_
  refine .step 5000 busy ⟨trivial, rfl⟩ (hallowed _ _ rfl) ?_
  have hnew : IsNewHash (hashAt 0 5) busy.log := fun _ hmem => absurd hmem List.not_mem_nil
  exact .step (hashAt 0 5) _ ⟨⟨0, rfl⟩, hnew, rfl⟩ (hallowed _ _ rfl) .refl

/-- The end of a login, whatever has gone on meanwhile. -/
theorem saveKakaoSession_runs (pid salt : ℕ) {db saved : Database} {log : List (ℕ × Event)}
    (hsave : saveRefreshToken ⟨kakaoUserId, deviceName oneDevice, hashAt salt 5, 1209605000⟩ db =
      .ok ((), saved))
    (hallowed : ∀ before after : World, after.db = saved →
      (∀ q id userId, after.log ≠ (q, .resetPassword id userId) :: before.log) →
        allowed before after) :
    Runs allowed pid (saveKakaoSession salt) (hashedLogin pid db log) (.done kakaoTokens)
      { World.ofDatabase saved with log := savedLog pid salt ++ log } := by
  have hnone : ∀ lock ∈ (hashedLogin pid db log).locks, lock.holder = pid :=
    fun _ hmem => absurd hmem List.not_mem_nil
  have hforgotten : [(pid, kakaoUserId)].filter (fun entry => entry.1 ≠ pid) = [] :=
    List.filter_cons_of_neg (by simp)
  refine .step (.ok ()) (hashedLogin pid saved ((savedLog pid salt).tail ++ log))
    ⟨(), trivial, .committed hsave (World.unlocked_of_alone hnone _)⟩ (hallowed _ _ rfl ?_) ?_
  · intro q id userId hlog
    cases hlog
  · refine .step () (hashedLogin pid saved (savedLog pid salt ++ log)) rfl (hallowed _ _ rfl ?_) ?_
    · intro q id userId hlog
      cases hlog
    · refine .step () _ ?_ (hallowed _ _ rfl ?_) .refl
      · exact congrArg (fun reading => { World.ofDatabase saved with
          reading := reading
          log := savedLog pid salt ++ log }) hforgotten.symm
      · intro q id userId hlog
        exact absurd hlog.symm (List.cons_ne_self _ _)

end Login

/-- What a login and then an erasure leave. -/
def erasedAfterLogin : World :=
  { World.ofDatabase (erasedAccount 1 []) with log := savedLog 0 0 ++ kakaoLog }

/-- An erasure that waits for a login is final: the session of the login has ended, and no call
returns tokens again. -/
theorem deleted_is_terminal_erased :
    AuthRun .plain ErasesIdle (claimedAccount []) ⟨erasedAfterLogin,
        [⟨kakaoLogin, .done kakaoTokens⟩, ⟨.deletionJob claimedJob, .done .done⟩]⟩ ∧
      ∀ user ∈ erasedAfterLogin.db.users, user.deletedAt ≠ none →
        user.phone = none ∧
          (∀ session ∈ erasedAfterLogin.db.refreshTokens, session.userId ≠ user.userId) ∧
          ∀ c', Reachable (authSystem .plain) anyStep ⟨erasedAfterLogin,
              [⟨kakaoLogin, .done kakaoTokens⟩, ⟨.deletionJob claimedJob, .done .done⟩]⟩ c' →
            ∀ pid request payload,
              c'.threads[pid]? = some ⟨request, .done (.tokens user.userId payload)⟩ →
                (pid, .issuedTokens user.userId) ∈ erasedAfterLogin.log := by
  have halive : ∀ user ∈ (claimedAccount []).users, user.deletedAt = none := by
    intro user hmem
    obtain rfl := List.mem_singleton.1 hmem
    rfl
  have hstart : AuthRun .plain ErasesIdle (claimedAccount []) ⟨.ofDatabase (claimedAccount []), []⟩ :=
    Relation.ReflTransGen.refl
  have hkeeps {sessions : List RefreshToken} : ∀ before after : World,
      after.db = claimedAccount sessions → ErasesIdle before after := by
    intro before after hdb
    refine erasesIdle_of_alive ?_
    rw [hdb]
    exact halive
  have hlogin : AuthRun .plain ErasesIdle (claimedAccount [])
      ⟨{ World.ofDatabase (claimedAccount [sessionAt 0 5]) with log := savedLog 0 0 ++ kakaoLog },
        [⟨kakaoLogin, .done kakaoTokens⟩]⟩ :=
    hstart.serve trivial (hkeeps _ _ rfl)
      ((kakaoLogin_hashes hkeeps).trans
        (saveKakaoSession_runs 0 0 rfl fun before after hdb _ => hkeeps before after hdb))
  -- The login has returned, so the erasure finds no call busy with the account.
  have hidle : ∀ before after : World, before.db = claimedAccount [sessionAt 0 5] →
      before.reading = [] → ErasesIdle before after := by
    intro before after hdb hreading
    refine erasesIdle_of_nil hreading ?_
    rw [hdb]
    rfl
  have hown : ∀ session ∈ [sessionAt 0 5], session.userId = kakaoUserId := by
    intro session hmem
    rw [List.mem_singleton.1 hmem]
    rfl
  have hrun : AuthRun .plain ErasesIdle (claimedAccount []) ⟨erasedAfterLogin,
      [⟨kakaoLogin, .done kakaoTokens⟩, ⟨.deletionJob claimedJob, .done .done⟩]⟩ :=
    hlogin.serve trivial (hkeeps _ _ rfl) (claimedJob_runs 1 hown [] _ hidle)
  exact ⟨hrun, deleted_is_terminal .plain (claimedAccount []) halive _ hrun⟩

/-! ### A login that an erasure overtakes -/

/-- What the login that was overtaken leaves. -/
def savedAfterErasure : World :=
  { World.ofDatabase (erasedAccount 1 [sessionAt 0 5]) with log := savedLog 0 0 ++ kakaoLog }

/-- A login that has found the account saves its session after the erasure, and returns
tokens. -/
theorem deleted_account_logs_in :
    AuthRun .plain anyStep (claimedAccount []) ⟨savedAfterErasure,
        [⟨kakaoLogin, .done kakaoTokens⟩, ⟨.deletionJob claimedJob, .done .done⟩]⟩ ∧
      (∃ user ∈ savedAfterErasure.db.users, user.userId = kakaoUserId ∧ user.deletedAt ≠ none) ∧
      ∃ session ∈ savedAfterErasure.db.refreshTokens, session.userId = kakaoUserId := by
  have hstart : AuthRun .plain anyStep (claimedAccount []) ⟨.ofDatabase (claimedAccount []), []⟩ :=
    Relation.ReflTransGen.refl
  -- The login comes to the hash of its token before the erasure, and saves it after.
  have hlogin : AuthRun .plain anyStep (claimedAccount [])
      ⟨hashedLogin 0 (claimedAccount []) kakaoLog, [⟨kakaoLogin, saveKakaoSession 0⟩]⟩ :=
    hstart.serve trivial trivial (kakaoLogin_hashes fun _ _ _ => trivial)
  have hown : ∀ session ∈ ([] : List RefreshToken), session.userId = kakaoUserId :=
    fun _ hmem => absurd hmem List.not_mem_nil
  have herased : AuthRun .plain anyStep (claimedAccount [])
      ⟨hashedLogin 0 (erasedAccount 0 []) kakaoLog,
        [⟨kakaoLogin, saveKakaoSession 0⟩, ⟨.deletionJob claimedJob, .done .done⟩]⟩ :=
    hlogin.serve trivial trivial (claimedJob_runs 1 hown _ _ fun _ _ _ _ => trivial)
  have hrest : Runs anyStep 0 (saveKakaoSession 0) (hashedLogin 0 (erasedAccount 0 []) kakaoLog)
      (.done kakaoTokens) savedAfterErasure := saveKakaoSession_runs 0 0 rfl fun _ _ _ _ => trivial
  refine ⟨Relation.ReflTransGen.trans herased (hrest.reachable _ rfl), ?_, ?_⟩
  · exact ⟨_, List.mem_singleton_self _, rfl, Option.some_ne_none _⟩
  · exact ⟨_, List.mem_singleton_self _, rfl⟩

end ChatTea.Auth
