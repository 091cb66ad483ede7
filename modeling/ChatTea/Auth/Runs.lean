import ChatTea.Phone.Programs

/-!
# Runs of the authentication calls

Every call is verified, so every step of every run is one of the changes. A property
of the tables, the history and the busy threads that each change keeps holds in every
state that a run reaches.

## Main definitions

* `atRest` — a database and nothing going on
* `AuthRun` — the runs from there, their steps restricted or not

## Main results

* `sound` — the whole system
* `AuthRun.keeps` — what every change keeps holds after every run
* `AuthRun.step` — every step a thread takes is a change
-/

namespace ChatTea.Auth

open History Interleaving Phone RowLocks Table Transaction Users

variable {config : AuthConfig} {request : AuthRequest} {pid : ℕ} {w before after : World}

/-- What holds when a call has returned. -/
abbrev Ensured (request : AuthRequest) (pid : ℕ) (reply : AuthReply) (w : World) : Prop :=
  Answered request pid reply w ∧ Authorised request pid w

/-- A call that guesses no code uses none up. -/
theorem holds_unguessed {call : Prog World AuthRequest Failure AuthReply}
    (hnone : request.guesses = none)
    (hcall : (authLogic config).Holds request pid call (Answered request pid) (fun _ _ => True) w) :
    (authLogic config).Holds request pid call (Ensured request pid) (fun _ _ => True) w := by
  refine hcall.mono (fun reply s _ hanswered => ⟨hanswered, fun purposes hcall => ?_⟩)
    fun _ _ _ h => h
  rw [hnone] at hcall
  cases hcall

/-- The end of a call: its thread is busy with no account. -/
theorem holds_call {call : Prog World AuthRequest Failure AuthReply}
    (hcall : (authLogic config).Holds request pid call (Ensured request pid) (fun _ _ => True) w) :
    (authLogic config).Holds request pid (tracked call) (Ensured request pid) (fun _ _ => True) w := by
  refine holds_tracked hcall (fun _ hinv => ⟨hinv, .forget⟩) (fun _ => ?_) fun _ _ hensured => hensured
  exact fun _ _ hrely hinv h =>
    ⟨stable_answered hrely hinv h.1, stable_authorised hrely hinv h.2⟩

/-- A call that returns nothing. -/
theorem holds_done {β : Type} {call : Prog World AuthRequest Failure β}
    (hcall : (authLogic config).Holds request pid call (fun _ _ => True) (fun _ _ => True) w) :
    (authLogic config).Holds request pid
      (do
        let _ ← call
        return AuthReply.done) (Answered request pid) (fun _ _ => True) w :=
  holds_then hcall fun _ _ _ => holds_reply fun _ _ => AuthReply.noConfusion

theorem holds_authCode (h : At pid {} w) :
    (authLogic config).Holds request pid (authCode config request) (Ensured request pid) (fun _ _ => True)
      w := by
  cases request with
  | signup input deviceId => exact holds_call (holds_unguessed rfl (holds_signup rfl rfl h))
  | signin input deviceId => exact holds_call (holds_unguessed rfl (holds_signin rfl rfl rfl h))
  | loginWithKakao profile => exact holds_call (holds_unguessed rfl (holds_loginWithKakao h))
  | loginWithKakaoAccessToken accessToken deviceId =>
      exact holds_call (holds_unguessed rfl (holds_loginWithKakaoAccessToken rfl rfl rfl h))
  | completeKakaoPhoneSignup input deviceId =>
      exact holds_call (holds_unguessed rfl (holds_completeKakaoPhoneSignup rfl rfl rfl h))
  | refresh userId deviceId token => exact holds_call (holds_unguessed rfl (holds_refresh rfl h))
  | logout userId deviceId token => exact holds_call (holds_unguessed rfl (holds_logout rfl h))
  | requestPhoneCode input ip => exact holds_unguessed rfl (holds_requestPhoneCode rfl)
  | verifyPhoneCode input deviceId => exact holds_call (holds_verifyPhoneCode rfl rfl h)
  | resetPasswordWithPhone input => exact holds_resetPasswordWithPhone rfl h
  | beginAccountDeletion userId =>
      exact holds_unguessed rfl (holds_done (holds_beginAccountDeletion rfl))
  | processDueAccountDeletionBatch now limit =>
      exact holds_unguessed rfl (holds_done (holds_deletionBatch rfl))
  | deletionJob input => exact holds_unguessed rfl (holds_done (holds_deletionJob rfl))

theorem sound (config : AuthConfig) : (authLogic config).Sound (authSystem config) where
  accepts := fun _ _ => trivial
  code := by
    rintro request w pid - - ⟨hlog, hreading⟩
    exact holds_authCode ⟨hlog, hreading, fun _ hmem => absurd hmem List.not_mem_nil⟩
  environment := fun hmoves => hmoves.elim
  rollback := by
    intro w pid hinv
    refine ⟨hinv.release pid, fun other hother => ?_⟩
    have hforgotten : AuthRely other w (w.forget pid) := authRely_forget hother
    exact ⟨w.keepsLocked_rollback pid hother, hforgotten.events, hforgotten.accounts,
      hforgotten.quota, hforgotten.clocks⟩

/-! ### Runs -/

/-- A database and nothing going on. -/
def atRest (db : Database) : Config World AuthRequest Failure AuthReply := .idle (.ofDatabase db)

/-- The configurations that runs reach from rest, of steps which are all allowed. -/
def AuthRun (config : AuthConfig) (allowed : World → World → Prop) (db : Database)
    (c : Config World AuthRequest Failure AuthReply) : Prop :=
  Reachable (authSystem config) allowed (atRest db) c

def anyStep (_ _ : World) : Prop := True

/-- What the changes are about. -/
structure AuthState where
  tables : AuthTables
  log : List (ℕ × Event)
  reading : List (ℕ × Uuid)

def authState (w : World) : AuthState := ⟨authTables w.db, w.log, w.reading⟩

/-- The state after a change. -/
def AuthState.enter (s : AuthState) (pid : ℕ) (trace : Trace) (tables : AuthTables) : AuthState where
  tables := tables
  log := stamp pid trace.events ++ s.log
  reading := stamp pid trace.accounts ++ s.reading

theorem AuthState.mem_enter {s : AuthState} {other : ℕ} {event : Event} {trace : Trace}
    {tables : AuthTables} : (other, event) ∈ (s.enter pid trace tables).log ↔
      (other = pid ∧ event ∈ trace.events) ∨ (other, event) ∈ s.log := by
  simp only [AuthState.enter, List.mem_append, mem_stamp]

def startState (db : Database) : AuthState := ⟨authTables db, [], []⟩

/-- A property that every change of a restricted run keeps. -/
structure Keeps (config : AuthConfig) (allowed : World → World → Prop) (holds : AuthState → Prop) :
    Prop where
  change : ∀ {request pid w trace tables after}, Exclusive w.locks →
    AuthChange config request pid w trace tables → allowed w after →
      authState after = (authState w).enter pid trace tables → holds (authState w) →
        holds ((authState w).enter pid trace tables)
  /-- A thread may be done with its accounts at any time. -/
  forget : ∀ {s : AuthState} {reading}, reading ⊆ s.reading → holds s →
    holds { s with reading := reading }

/-- The end of a call is as good as a change that enters nothing. -/
theorem AuthStep.enters (h : AuthStep config request pid before after) :
    ∃ trace, AuthChange config request pid before trace (authTables after.db) ∧
      after.log = stamp pid trace.events ++ before.log := by
  rcases h.change with ⟨trace, hchange, hlog, -⟩ | ⟨htables, hlog, -⟩
  · exact ⟨trace, hchange, hlog⟩
  · refine ⟨{}, ?_, hlog⟩
    rw [htables]
    exact .nothing

variable {allowed : World → World → Prop} {db : Database}
  {c c' : Config World AuthRequest Failure AuthReply} {holds : AuthState → Prop}

theorem good_atRest (db : Database) : (authLogic config).Good (atRest db) :=
  Logic.good_idle exclusive_nil fun _ => ⟨rfl, rfl⟩

theorem AuthRun.good (hrun : AuthRun config allowed db c) : (authLogic config).Good c :=
  (sound config).reachable (good_atRest db) (Reachable.weaken hrun fun _ _ _ => trivial)

theorem Keeps.step (hkeeps : Keeps config allowed holds) (hexclusive : Exclusive before.locks)
    (hstep : AuthStep config request pid before after) (hallowed : allowed before after)
    (h : holds (authState before)) : holds (authState after) := by
  obtain ⟨hchange, -⟩ := hstep
  rcases hchange with ⟨trace, hchange, hlog, hreading⟩ | ⟨htables, hlog, hreading⟩
  · have hafter : authState after = (authState before).enter pid trace (authTables after.db) := by
      rw [authState, hlog, hreading]
      rfl
    rw [hafter]
    exact hkeeps.change hexclusive hchange hallowed hafter h
  · have hafter : authState after = { authState before with reading := after.reading } := by
      rw [authState, htables, hlog]
      rfl
    rw [hafter]
    refine hkeeps.forget ?_ h
    rw [hreading]
    exact List.filter_sublist.subset

/-- What every change keeps holds after every run. -/
theorem Keeps.reachable (hkeeps : Keeps config allowed holds) (hgood : (authLogic config).Good c)
    (hrun : Reachable (authSystem config) allowed c c') (hstart : holds (authState c.state)) :
    holds (authState c'.state) := by
  refine (sound config).preserves (fun w => holds (authState w)) hgood hrun (fun _ _ _ => trivial)
    hstart ?_ (fun hmoves => hmoves.elim) fun pid w h => ?_
  · exact fun hinv hstep hallowed h => hkeeps.step hinv hstep hallowed h
  · exact hkeeps.forget List.filter_sublist.subset h

theorem AuthRun.keeps (hrun : AuthRun config allowed db c) (hkeeps : Keeps config allowed holds)
    (hstart : holds (startState db)) : holds (authState c.state) :=
  hkeeps.reachable (good_atRest db) hrun hstart

/-- Every step a thread takes is a change or the end of its call. -/
theorem AuthRun.step {β : Type} {act : ℕ → World → β → World → Prop}
    {next : β → Prog World AuthRequest Failure AuthReply} {reply : β}
    (hrun : AuthRun config allowed db c) (hthread : c.threads[pid]? = some ⟨request, .step act next⟩)
    (hact : act pid c.state reply after) : AuthStep config request pid c.state after :=
  Logic.Sound.guarantee hrun.good hthread hact trivial

/-- A call that has returned tokens has entered so. -/
theorem AuthRun.answered {reply : AuthReply} (hrun : AuthRun config allowed db c)
    (hthread : c.threads[pid]? = some ⟨request, .done reply⟩) :
    Answered request pid reply c.state :=
  (Logic.Sound.ensures hrun.good hthread).1

/-- A call that has guessed a code and has returned has used one up. -/
theorem AuthRun.authorised {reply : AuthReply} (hrun : AuthRun config allowed db c)
    (hthread : c.threads[pid]? = some ⟨request, .done reply⟩) :
    Authorised request pid c.state :=
  (Logic.Sound.ensures hrun.good hthread).2

end ChatTea.Auth
