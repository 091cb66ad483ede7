import ChatTea.Maintenance.Runner

/-!
# Processes that share the maintenance

However the cycles of any number of processes interleave, wherever connections break and processes
die: of the processes that execute jobs, all but one have lost the session that they took the lock
with; no session keeps the lock when it is not used for it; every cycle goes through all of the jobs
in order, or through none; and none begins after its process was told to stop.

## Main definitions

* `Phase` — what a process is doing, read off what it has done
* `Keeps` — what a process may rely on

## Main results

* `maintenance_sound` — every step keeps the invariant
* `maintenance_exclusive` — what that says about every run
-/

namespace ChatTea.Maintenance

open History Interleaving Notification

/-! ### What a process is doing -/

inductive Phase where
  | waiting
  | begun (now : Timestamp)
  /-- The jobs that are left to execute with the lock of a session. -/
  | working (session : ℕ) (now : Timestamp) (left : List MaintenanceJob)
  | ended

/-- What may come next; to be told to stop may come at any time. -/
inductive Phase.Next : Phase → MaintenanceEvent → Phase → Prop
  | begins {now} : Next .waiting (.began now) (.begun now)
  /-- The heartbeat of the last cycle was not written. -/
  | beginsAfterEnd {now} : Next .ended (.began now) (.begun now)
  /-- The last cycle did not come as far as the lock. -/
  | beginsAgain {now now'} : Next (.begun now) (.began now') (.begun now')
  | skips {now} : Next (.begun now) .skipped .ended
  | acquires {now session} :
      Next (.begun now) (.acquired session) (.working session now maintenanceJobs)
  | executes {session now job left outcome} :
      Next (.working session now (job :: left)) (.executed job ⟨now, 100⟩ outcome)
        (.working session now left)
  | finishes {session now} : Next (.working session now []) .finished .ended
  | beats : Next .ended .beat .waiting
  | told {phase} : Next phase .aborted phase

/-- The phase that a process is in after what it has done, the newest event first. -/
inductive InPhase : List MaintenanceEvent → Phase → Prop
  | start : InPhase [] .waiting
  | next {events phase event phase'} (before : InPhase events phase)
      (step : phase.Next event phase') : InPhase (event :: events) phase'

variable {w w' w'' : MaintenanceWorld} {pid other session cycles : ℕ} {now : Timestamp}
  {left : List MaintenanceJob} {events : List MaintenanceEvent} {sessions : Sessions}

theorem Phase.Next.eq {phase phase' phase'' : Phase} {event : MaintenanceEvent}
    (h : phase.Next event phase') (h' : phase.Next event phase'') : phase' = phase'' := by
  cases h <;> cases h' <;> rfl

theorem InPhase.eq {phase phase' : Phase} (h : InPhase events phase) (h' : InPhase events phase') :
    phase = phase' := by
  induction h generalizing phase' with
  | start =>
      cases h'
      rfl
  | next before step ih =>
      cases h' with
      | next before' step' =>
          obtain rfl := ih before'
          exact step.eq step'

/-- The process executes jobs, and took the lock with a session. -/
def Executing (pid session : ℕ) (w : MaintenanceWorld) : Prop :=
  ∃ now left, InPhase (own pid w.log) (.working session now left)

/-! ### What a process may rely on -/

/-- The session holds the lock once. -/
def HoldsLock (session : ℕ) (w : MaintenanceWorld) : Prop := w.current.lock = some (session, 0)

/-- The session has the lock only if it is gone. -/
def WithoutLock (session : ℕ) (w : MaintenanceWorld) : Prop :=
  ∀ again, w.current.lock = some (session, again) → w.current.broken session = true

/-- Others leave alone what a process has done, and the sessions that its lock service uses. -/
structure Keeps (pid : ℕ) (w w' : MaintenanceWorld) : Prop where
  phase : ∀ phase, InPhase (own pid w.log) phase ↔ InPhase (own pid w'.log) phase
  broken : ∀ session, w.current.broken session = true → w'.current.broken session = true
  place : ∀ session, w.current.place session = .lock pid → w'.current.place session = .lock pid
  lock : ∀ session, w.current.place session = .lock pid → HoldsLock session w →
    w'.current.broken session = true ∨ HoldsLock session w'
  free : ∀ session, w.current.place session = .lock pid → WithoutLock session w →
    WithoutLock session w'

theorem Keeps.refl (pid : ℕ) (w : MaintenanceWorld) : Keeps pid w w :=
  ⟨fun _ => Iff.rfl, fun _ h => h, fun _ h => h, fun _ _ h => Or.inr h, fun _ _ h => h⟩

theorem Keeps.trans (h : Keeps pid w w') (h' : Keeps pid w' w'') : Keeps pid w w'' where
  phase phase := (h.phase phase).trans (h'.phase phase)
  broken session hbroken := h'.broken session (h.broken session hbroken)
  place session hplace := h'.place session (h.place session hplace)
  lock session hplace hlock := by
    rcases h.lock session hplace hlock with hbroken | hlock'
    · exact Or.inl (h'.broken session hbroken)
    · exact h'.lock session (h.place session hplace) hlock'
  free session hplace hfree := h'.free session (h.place session hplace) (h.free session hplace hfree)

/-! ### The invariant -/

structure MaintenanceInvariant (w : MaintenanceWorld) : Prop where
  phases : ∀ pid, ∃ phase, InPhase (own pid w.log) phase
  /-- Whoever holds the lock uses it for that, or is gone. -/
  held : ∀ session again, w.current.lock = some (session, again) →
    w.current.broken session = true ∨ ∃ pid, w.current.place session = .lock pid
  /-- A process that executes jobs holds the lock, or its session is gone. -/
  executing : ∀ pid session, Executing pid session w → w.current.broken session = true ∨
    w.current.place session = .lock pid ∧ HoldsLock session w
  told : ∀ pid, (pid, .aborted) ∈ w.log → w.current.aborted pid = true
  stopped : ∀ pid now, ¬ After w.log (pid, .began now) (pid, .aborted)

/-- What has to be checked of a step of a process. -/
theorem MaintenanceInvariant.advance (hinv : MaintenanceInvariant w)
    (hothers : ∀ other, other ≠ pid → Keeps other w (w.advance pid sessions events))
    (haborted : sessions.aborted = w.current.aborted) (hevents : .aborted ∉ events)
    (hbegins : ∀ now, .began now ∈ events → w.current.aborted pid = false)
    (hphase : ∃ phase, InPhase (events ++ own pid w.log) phase)
    (hheld : ∀ session again, sessions.lock = some (session, again) →
      sessions.broken session = true ∨ ∃ pid, sessions.place session = .lock pid)
    (hexecuting : ∀ session, Executing pid session (w.advance pid sessions events) →
      sessions.broken session = true ∨ sessions.place session = .lock pid ∧
        sessions.lock = some (session, 0)) :
    MaintenanceInvariant (w.advance pid sessions events) where
  phases other := by
    by_cases hother : other = pid
    · subst hother
      rw [Chronicle.advance_log, own_stamp_append_self]
      exact hphase
    · rw [Chronicle.advance_log, own_stamp_append_other hother]
      exact hinv.phases other
  held := hheld
  executing other session hexec := by
    by_cases hother : other = pid
    · subst hother
      exact hexecuting session hexec
    · obtain ⟨now, left, hin⟩ := hexec
      have hbefore := ((hothers other hother).phase _).2 hin
      rcases hinv.executing other session ⟨now, left, hbefore⟩ with hbroken | ⟨hplace, hlock⟩
      · exact Or.inl ((hothers other hother).broken session hbroken)
      · rcases (hothers other hother).lock session hplace hlock with hbroken | hlock'
        · exact Or.inl hbroken
        · exact Or.inr ⟨(hothers other hother).place session hplace, hlock'⟩
  told other hmem := by
    rw [Chronicle.advance_current, haborted]
    rcases List.mem_append.1 hmem with hnow | hbefore
    · exact absurd (mem_stamp.1 hnow).2 hevents
    · exact hinv.told other hbefore
  stopped other now hafter := by
    rcases hafter.of_append with hnow | hbefore
    · obtain ⟨rfl, hbegan⟩ := mem_stamp.1 hnow
      rcases List.mem_append.1 hafter.earlier_mem with habort | habort
      · exact hevents (mem_stamp.1 habort).2
      · have htold := hinv.told _ habort
        rw [hbegins now hbegan] at htold
        cases htold
    · exact hinv.stopped other now hbefore

/-- A step that leaves the log alone. -/
theorem MaintenanceInvariant.meanwhile (hinv : MaintenanceInvariant w)
    (hkeeps : ∀ pid, Keeps pid w ⟨sessions, w.log⟩)
    (haborted : sessions.aborted = w.current.aborted)
    (hheld : ∀ session again, sessions.lock = some (session, again) →
      sessions.broken session = true ∨ ∃ pid, sessions.place session = .lock pid) :
    MaintenanceInvariant ⟨sessions, w.log⟩ where
  phases := hinv.phases
  held := hheld
  executing pid session hexec := by
    rcases hinv.executing pid session hexec with hbroken | ⟨hplace, hlock⟩
    · exact Or.inl ((hkeeps pid).broken session hbroken)
    · rcases (hkeeps pid).lock session hplace hlock with hbroken | hlock'
      · exact Or.inl hbroken
      · exact Or.inr ⟨(hkeeps pid).place session hplace, hlock'⟩
  told pid hmem := by
    rw [haborted]
    exact hinv.told pid hmem
  stopped := hinv.stopped

/-! ### What a step changes -/

/-- Nothing changes but what concerns one session, and no broken one comes back. -/
structure Affects (session : ℕ) (sessions sessions' : Sessions) : Prop where
  broken : ∀ other, sessions.broken other = true → sessions'.broken other = true
  place : ∀ other, other ≠ session → sessions'.place other = sessions.place other
  lock : ∀ other again, other ≠ session →
    (sessions'.lock = some (other, again) ↔ sessions.lock = some (other, again))
  aborted : sessions'.aborted = sessions.aborted

variable {sessions' sessions'' : Sessions}

theorem Affects.refl (session : ℕ) (sessions : Sessions) : Affects session sessions sessions :=
  ⟨fun _ h => h, fun _ _ => rfl, fun _ _ _ => Iff.rfl, rfl⟩

theorem Affects.trans (h : Affects session sessions sessions')
    (h' : Affects session sessions' sessions'') : Affects session sessions sessions'' where
  broken other hbroken := h'.broken other (h.broken other hbroken)
  place other hother := (h'.place other hother).trans (h.place other hother)
  lock other again hother := (h'.lock other again hother).trans (h.lock other again hother)
  aborted := h'.aborted.trans h.aborted

theorem affects_setPlace (sessions : Sessions) (session : ℕ) (place : Place) :
    Affects session sessions (sessions.setPlace session place) :=
  ⟨fun _ h => h, fun _ hother => Function.update_of_ne hother _ _, fun _ _ _ => Iff.rfl, rfl⟩

theorem breakOff_broken (sessions : Sessions) (session : ℕ) :
    (sessions.breakOff session).broken session = true := Function.update_self _ _ _

theorem affects_breakOff (sessions : Sessions) (session : ℕ) :
    Affects session sessions (sessions.breakOff session) := by
  refine ⟨fun other hbroken => ?_, fun _ _ => rfl, fun _ _ _ => Iff.rfl, rfl⟩
  by_cases hother : other = session
  · subst hother
    exact breakOff_broken sessions other
  · exact (Function.update_of_ne hother _ _).trans hbroken

theorem tryLock_place (sessions : Sessions) (session : ℕ) :
    (sessions.tryLock session).2.place = sessions.place := by
  unfold Sessions.tryLock
  split
  · rfl
  · split <;> rfl

theorem unlock_place (sessions : Sessions) (session : ℕ) :
    (sessions.unlock session).2.place = sessions.place := by
  unfold Sessions.unlock
  split
  · split <;> rfl
  · rfl

theorem affects_tryLock (sessions : Sessions) (session : ℕ) :
    Affects session sessions (sessions.tryLock session).2 := by
  unfold Sessions.tryLock
  split
  next hlock =>
    refine ⟨fun _ h => h, fun _ _ => rfl, fun other again hother => ?_, rfl⟩
    rw [hlock]
    constructor
    · intro hsome
      exact absurd (Prod.mk.inj (Option.some.inj hsome)).1.symm hother
    · intro hsome
      cases hsome
  next holder again hlock =>
    split
    next hholder =>
      refine ⟨fun _ h => h, fun _ _ => rfl, fun other again' hother => ?_, rfl⟩
      rw [hlock, hholder]
      constructor <;> intro hsome <;>
        exact absurd (Prod.mk.inj (Option.some.inj hsome)).1.symm hother
    · exact Affects.refl session sessions

theorem affects_unlock (sessions : Sessions) (session : ℕ) :
    Affects session sessions (sessions.unlock session).2 := by
  unfold Sessions.unlock
  split
  next holder again hlock =>
    split
    next hholder =>
      refine ⟨fun _ h => h, fun _ _ => rfl, fun other again' hother => ?_, rfl⟩
      rw [hlock, hholder]
      constructor
      · intro hsome
        dsimp only at hsome
        split at hsome
        · cases hsome
        · exact absurd (Prod.mk.inj (Option.some.inj hsome)).1.symm hother
      · intro hsome
        exact absurd (Prod.mk.inj (Option.some.inj hsome)).1.symm hother
    · exact Affects.refl session sessions
  · exact Affects.refl session sessions

theorem affects_release (sessions : Sessions) (pid session : ℕ) (destroy : Bool) :
    Affects session sessions (sessions.release pid session destroy) := by
  unfold Sessions.release
  split
  · exact (affects_setPlace sessions session .closed).trans (affects_breakOff _ session)
  · exact affects_setPlace sessions session (.idle pid)

/-- The processes that do not use the session notice nothing. -/
theorem Affects.keeps (h : Affects session w.current sessions)
    (hphase : own other w'.log = own other w.log) (hcurrent : w'.current = sessions)
    (hplace : w.current.place session ≠ .lock other) : Keeps other w w' := by
  subst hcurrent
  have hne : ∀ used, w.current.place used = .lock other → used ≠ session := by
    rintro used hused rfl
    exact hplace hused
  refine ⟨fun phase => by rw [hphase], h.broken, fun used hused => ?_, fun used hused hlock => ?_,
    fun used hused hfree again hlock => ?_⟩
  · exact (h.place used (hne used hused)).trans hused
  · exact Or.inr ((h.lock used 0 (hne used hused)).2 hlock)
  · exact h.broken used (hfree again ((h.lock used again (hne used hused)).1 hlock))

/-- What has to be checked of a step of a process that concerns one session. -/
theorem MaintenanceInvariant.affects (hinv : MaintenanceInvariant w)
    (h : Affects session w.current sessions)
    (hplace : ∀ other, other ≠ pid → w.current.place session ≠ .lock other)
    (hevents : .aborted ∉ events)
    (hbegins : ∀ now, .began now ∈ events → w.current.aborted pid = false)
    (hphase : ∃ phase, InPhase (events ++ own pid w.log) phase)
    (hheld : ∀ again, sessions.lock = some (session, again) →
      sessions.broken session = true ∨ ∃ pid, sessions.place session = .lock pid)
    (hexecuting : ∀ session, Executing pid session (w.advance pid sessions events) →
      sessions.broken session = true ∨ sessions.place session = .lock pid ∧
        sessions.lock = some (session, 0)) :
    MaintenanceInvariant (w.advance pid sessions events) ∧
      ∀ other, other ≠ pid → Keeps other w (w.advance pid sessions events) := by
  have hothers : ∀ other, other ≠ pid → Keeps other w (w.advance pid sessions events) :=
    fun other hother => h.keeps (own_stamp_append_other hother) rfl (hplace other hother)
  refine ⟨hinv.advance hothers h.aborted hevents hbegins hphase ?_ hexecuting, hothers⟩
  intro used again hlock
  by_cases hused : used = session
  · subst hused
    exact hheld again hlock
  · rw [h.place used hused]
    rcases hinv.held used again ((h.lock used again hused).1 hlock) with hbroken | hplace
    · exact Or.inl (h.broken used hbroken)
    · exact Or.inr hplace

/-! ### What a process knows -/

def maintenanceLogic : Logic MaintenanceWorld ℕ Text Unit where
  invariant := MaintenanceInvariant
  rely := Keeps
  guarantee _ pid w w' := ∀ other, other ≠ pid → Keeps other w w'
  allowed _ _ := True
  requires _ _ := True
  ensures _ _ _ _ := True
  fresh pid w := InPhase (own pid w.log) .waiting
  rely_refl := Keeps.refl
  rely_trans := Keeps.trans
  guarantee_refl _ _ w other _ := Keeps.refl other w
  rely_of_guarantee hother h := h _ hother
  fresh_of_rely h hfresh := (h.phase _).1 hfresh

def Knows (pid : ℕ) (phase : Phase) (w : MaintenanceWorld) : Prop := InPhase (own pid w.log) phase

/-- The lock service uses a session. -/
structure Uses (pid session : ℕ) (phase : Phase) (w : MaintenanceWorld) : Prop where
  phase : InPhase (own pid w.log) phase
  place : w.current.place session = .lock pid

/-- The session does not have the lock. -/
structure Unlocked (pid session : ℕ) (phase : Phase) (w : MaintenanceWorld) : Prop
    extends Uses pid session phase w where
  free : WithoutLock session w

/-- The session took the lock. -/
structure Locked (pid session : ℕ) (now : Timestamp) (left : List MaintenanceJob)
    (w : MaintenanceWorld) : Prop extends Uses pid session (.working session now left) w where
  lock : w.current.broken session = true ∨ HoldsLock session w

variable {phase : Phase}

theorem stable_knows : maintenanceLogic.Stable pid (Knows pid phase) :=
  fun _ _ hkeeps _ h => (hkeeps.phase phase).1 h

theorem stable_uses : maintenanceLogic.Stable pid (Uses pid session phase) :=
  fun _ _ hkeeps _ h => ⟨(hkeeps.phase phase).1 h.phase, hkeeps.place session h.place⟩

theorem stable_unlocked : maintenanceLogic.Stable pid (Unlocked pid session phase) :=
  fun _ _ hkeeps hinv h => ⟨stable_uses hkeeps hinv h.toUses, hkeeps.free session h.place h.free⟩

theorem stable_locked : maintenanceLogic.Stable pid (Locked pid session now left) := by
  intro w w' hkeeps hinv h
  refine ⟨stable_uses hkeeps hinv h.toUses, ?_⟩
  rcases h.lock with hbroken | hlock
  · exact Or.inl (hkeeps.broken session hbroken)
  · exact hkeeps.lock session h.place hlock

/-- Between cycles and before the lock. -/
def Phase.Rests : Phase → Prop
  | .working _ _ _ => False
  | _ => True

theorem not_executing (hrests : phase.Rests) (h : InPhase (own pid w.log) phase) (session : ℕ) :
    ¬ Executing pid session w := by
  rintro ⟨now, left, hworking⟩
  rw [h.eq hworking] at hrests
  exact hrests

/-- The session of a process that executes jobs. -/
theorem executing_eq {used : ℕ} (h : InPhase (own pid w.log) (.working session now left))
    (hexec : Executing pid used w) : used = session := by
  obtain ⟨now', left', hworking⟩ := hexec
  exact (Phase.working.inj (hworking.eq h)).1

theorem Uses.not_other (h : Uses pid session phase w) (other : ℕ) (hother : other ≠ pid) :
    w.current.place session ≠ .lock other := by
  rw [h.place]
  exact fun hsame => hother (Place.lock.inj hsame).symm

/-- A step after which the process does not execute jobs. -/
theorem MaintenanceInvariant.rests (hinv : MaintenanceInvariant w)
    (h : Affects session w.current sessions)
    (hplace : ∀ other, other ≠ pid → w.current.place session ≠ .lock other)
    (hevents : .aborted ∉ events)
    (hbegins : ∀ now, .began now ∈ events → w.current.aborted pid = false)
    (hphase : InPhase (events ++ own pid w.log) phase) (hrests : phase.Rests)
    (hheld : ∀ again, sessions.lock = some (session, again) →
      sessions.broken session = true ∨ ∃ pid, sessions.place session = .lock pid) :
    MaintenanceInvariant (w.advance pid sessions events) ∧
      (∀ other, other ≠ pid → Keeps other w (w.advance pid sessions events)) ∧
      Knows pid phase (w.advance pid sessions events) := by
  have hknows : Knows pid phase (w.advance pid sessions events) := by
    unfold Knows
    rw [Chronicle.advance_log, own_stamp_append_self]
    exact hphase
  obtain ⟨hafter, hothers⟩ := hinv.affects h hplace hevents hbegins ⟨phase, hphase⟩ hheld
    fun used hexec => absurd hexec (not_executing hrests hknows used)
  exact ⟨hafter, hothers, hknows⟩

/-- A step after which the process executes jobs. -/
theorem MaintenanceInvariant.works (hinv : MaintenanceInvariant w)
    (h : Affects session w.current sessions)
    (hplace : ∀ other, other ≠ pid → w.current.place session ≠ .lock other)
    (hevents : .aborted ∉ events) (hbegins : ∀ now, .began now ∉ events)
    (hphase : InPhase (events ++ own pid w.log) (.working session now left))
    (hkept : sessions.place session = .lock pid)
    (hlock : sessions.broken session = true ∨ sessions.lock = some (session, 0)) :
    MaintenanceInvariant (w.advance pid sessions events) ∧
      (∀ other, other ≠ pid → Keeps other w (w.advance pid sessions events)) ∧
      Locked pid session now left (w.advance pid sessions events) := by
  have hlocked : Locked pid session now left (w.advance pid sessions events) := by
    refine ⟨⟨?_, hkept⟩, hlock⟩
    rw [Chronicle.advance_log, own_stamp_append_self]
    exact hphase
  obtain ⟨hafter, hothers⟩ := hinv.affects h hplace hevents
    (fun now hbegan => absurd hbegan (hbegins now)) ⟨_, hphase⟩
    (fun again _ => Or.inr ⟨pid, hkept⟩) fun used hexec => by
      obtain rfl := executing_eq hlocked.phase hexec
      exact hlock.imp_right fun hheld => ⟨hkept, hheld⟩
  exact ⟨hafter, hothers, hlocked⟩

/-! ### The lock service -/

variable {request : ℕ}

theorem holds_connect (h : Knows pid phase w) (hrests : phase.Rests) :
    maintenanceLogic.Holds request pid (.attempt Connects)
      (fun session => Unlocked pid session phase) (fun _ => Knows pid phase) w := by
  apply Logic.holds_attempt _ (stable_knows.later h)
  intro before reply after hknows hinv hact _
  have hconnected : ∀ session, (∀ other, before.current.place session ≠ .lock other) →
      maintenanceLogic.invariant
          (before.advance pid (before.current.setPlace session (.lock pid)) []) ∧
        maintenanceLogic.guarantee request pid before
          (before.advance pid (before.current.setPlace session (.lock pid)) []) ∧
        Unlocked pid session phase
          (before.advance pid (before.current.setPlace session (.lock pid)) []) := by
    intro session hfree
    have hplace : (before.current.setPlace session (.lock pid)).place session = .lock pid :=
      Function.update_self _ _ _
    obtain ⟨hafter, hothers, hknows'⟩ := hinv.rests
      (affects_setPlace before.current session (.lock pid)) (fun other _ => hfree other)
      List.not_mem_nil (fun _ hmem => absurd hmem List.not_mem_nil) hknows hrests
      fun _ _ => Or.inr ⟨pid, hplace⟩
    refine ⟨hafter, hothers, ⟨hknows', hplace⟩, fun again hlock => ?_⟩
    -- Whoever holds the lock uses it for that, which the session does not.
    rcases hinv.held session again hlock with hbroken | ⟨user, huser⟩
    · exact hbroken
    · exact absurd huser (hfree user)
  cases hact with
  | reused idle =>
      obtain ⟨hafter, hothers, hunlocked⟩ := hconnected _ fun other => by
        rw [idle]
        exact Place.noConfusion
      exact ⟨hafter, hothers, stable_unlocked.later hunlocked⟩
  | opened unopened =>
      obtain ⟨hafter, hothers, hunlocked⟩ := hconnected _ fun other => by
        rw [unopened]
        exact Place.noConfusion
      exact ⟨hafter, hothers, stable_unlocked.later hunlocked⟩
  | unreachable failure =>
      exact ⟨hinv, maintenanceLogic.guarantee_refl _ _ _, stable_knows.later hknows⟩

theorem holds_tryLock (h : Unlocked pid session (.begun now) w) :
    maintenanceLogic.Holds request pid (tryLock session)
      (fun acquired w => if acquired then Locked pid session now maintenanceJobs w
        else Unlocked pid session (.begun now) w)
      (fun _ => Unlocked pid session (.begun now)) w := by
  apply Logic.holds_attempt _ (stable_unlocked.later h)
  intro before reply after hbefore hinv hact _
  -- The process has not got the lock, and may not have the session any more.
  have hwithout : ∀ sessions, Affects session before.current sessions →
      sessions.place session = .lock pid →
      (∀ again, sessions.lock = some (session, again) → sessions.broken session = true) →
      maintenanceLogic.invariant (before.advance pid sessions []) ∧
        maintenanceLogic.guarantee request pid before (before.advance pid sessions []) ∧
        maintenanceLogic.Later pid (Unlocked pid session (.begun now))
          (before.advance pid sessions []) := by
    intro sessions haffects hplace hfree
    obtain ⟨hafter, hothers, hknows⟩ := hinv.rests haffects hbefore.not_other List.not_mem_nil
      (fun _ hmem => absurd hmem List.not_mem_nil) hbefore.phase trivial
      fun _ _ => Or.inr ⟨pid, hplace⟩
    exact ⟨hafter, hothers, stable_unlocked.later ⟨⟨hknows, hplace⟩, hfree⟩⟩
  cases hact with
  | @answered value sessions alive returns =>
      unfold Sessions.tryLock at returns
      split at returns
      next hlock =>
        obtain ⟨rfl, rfl⟩ := Prod.mk.inj returns
        have haffects := affects_tryLock before.current session
        simp only [Sessions.tryLock, hlock] at haffects
        have hevents : .aborted ∉ [MaintenanceEvent.acquired session] := by simp
        have hbegins : ∀ now, .began now ∉ [MaintenanceEvent.acquired session] := by simp
        obtain ⟨hafter, hothers, hlocked⟩ := hinv.works haffects hbefore.not_other hevents hbegins
          (.next hbefore.phase .acquires) hbefore.place (Or.inr rfl)
        exact ⟨hafter, hothers, stable_locked.later hlocked⟩
      next holder again hlock =>
        split at returns
        next hholder =>
          have hbroken := hbefore.free again (hholder ▸ hlock)
          rw [alive] at hbroken
          cases hbroken
        · obtain ⟨rfl, rfl⟩ := Prod.mk.inj returns
          exact hwithout before.current (Affects.refl _ _) hbefore.place hbefore.free
  | refused failure => exact hwithout before.current (Affects.refl _ _) hbefore.place hbefore.free
  | lost failure =>
      exact hwithout _ (affects_breakOff before.current session) hbefore.place
        fun _ _ => breakOff_broken _ _
  | @answerLost value sessions failure alive returns =>
      have haffects := affects_tryLock before.current session
      have hplace := tryLock_place before.current session
      rw [returns] at haffects hplace
      exact hwithout _ (haffects.trans (affects_breakOff sessions session))
        ((congrFun hplace session).trans hbefore.place) fun _ _ => breakOff_broken _ _

theorem holds_executeJob {job : MaintenanceJob}
    (h : Locked pid session now (job :: left) w) :
    maintenanceLogic.Holds request pid (executeJob job ⟨now, 100⟩)
      (fun _ => Locked pid session now left) (fun _ _ => False) w := by
  have hconsult : maintenanceLogic.Holds request pid
      (Chronicle.consult fun outcome => [MaintenanceEvent.executed job ⟨now, 100⟩ outcome])
      (fun _ => Locked pid session now left) (fun _ _ => False) w := by
    apply Chronicle.holds_consult _ stable_locked h
    intro before outcome hbefore hinv
    have hevents : .aborted ∉ [MaintenanceEvent.executed job ⟨now, 100⟩ outcome] := by simp
    have hbegins : ∀ now', .began now' ∉ [MaintenanceEvent.executed job ⟨now, 100⟩ outcome] := by
      simp
    obtain ⟨hafter, hothers, hlocked⟩ := hinv.works (Affects.refl session before.current)
      hbefore.not_other hevents hbegins (.next hbefore.phase .executes) hbefore.place hbefore.lock
    exact ⟨hafter, hothers, stable_locked.later hlocked⟩
  apply hconsult.next (fun _ _ _ h => h)
  exact fun _ w _ hlocked => Logic.holds_pure (stable_locked.later hlocked)

theorem holds_executeJobs (h : Locked pid session now left w) :
    maintenanceLogic.Holds request pid (executeJobs ⟨now, 100⟩ left)
      (fun _ => Locked pid session now []) (fun _ _ => False) w := by
  induction left generalizing w with
  | nil => exact Logic.holds_pure (stable_locked.later h)
  | cons job left ih =>
      apply (holds_executeJob h).next (fun _ _ _ h => h)
      exact fun _ w _ hlocked => ih hlocked

/-- However the lock is given back, the session either does not have it any more, or is not known to
have given it back. -/
theorem holds_unlock (h : Locked pid session now [] w) :
    maintenanceLogic.Holds request pid (unlock session)
      (fun unlocked w => unlocked = true ∧ Unlocked pid session .ended w)
      (fun _ => Uses pid session .ended) w := by
  apply Logic.holds_attempt _ (stable_locked.later h)
  intro before reply after hbefore hinv hact _
  have hevents : .aborted ∉ [MaintenanceEvent.finished] := by simp
  have hbegins : ∀ now, .began now ∈ [MaintenanceEvent.finished] →
      before.current.aborted pid = false := by simp
  have hended : ∀ sessions, Affects session before.current sessions →
      sessions.place session = .lock pid →
      maintenanceLogic.invariant (before.advance pid sessions [.finished]) ∧
        maintenanceLogic.guarantee request pid before (before.advance pid sessions [.finished]) ∧
        Uses pid session .ended (before.advance pid sessions [.finished]) := by
    intro sessions haffects hplace
    obtain ⟨hafter, hothers, hknows⟩ := hinv.rests haffects hbefore.not_other hevents hbegins
      (.next hbefore.phase .finishes) trivial fun _ _ => Or.inr ⟨pid, hplace⟩
    exact ⟨hafter, hothers, hknows, hplace⟩
  cases hact with
  | @answered value sessions alive returns =>
      have haffects := affects_unlock before.current session
      have hplace := unlock_place before.current session
      rw [returns] at haffects hplace
      obtain ⟨hafter, hothers, huses⟩ := hended sessions haffects
        ((congrFun hplace session).trans hbefore.place)
      have hlock : before.current.lock = some (session, 0) :=
        hbefore.lock.resolve_left (by rw [alive]; exact Bool.false_ne_true)
      simp only [Sessions.unlock, hlock, if_true] at returns
      obtain ⟨rfl, rfl⟩ := Prod.mk.inj returns
      have hunlocked : Unlocked pid session .ended
          (before.advance pid { before.current with lock := none } [.finished]) :=
        ⟨huses, fun again hnone => absurd hnone (Option.some_ne_none _).symm⟩
      have hlater := stable_unlocked.later hunlocked
      exact ⟨hafter, hothers, fun later hrely hinv' => ⟨rfl, hlater later hrely hinv'⟩⟩
  | refused failure =>
      obtain ⟨hafter, hothers, huses⟩ := hended _ (Affects.refl _ _) hbefore.place
      exact ⟨hafter, hothers, stable_uses.later huses⟩
  | lost failure =>
      obtain ⟨hafter, hothers, huses⟩ := hended _ (affects_breakOff before.current session)
        hbefore.place
      exact ⟨hafter, hothers, stable_uses.later huses⟩
  | @answerLost value sessions failure alive returns =>
      have haffects := affects_unlock before.current session
      have hplace := unlock_place before.current session
      rw [returns] at haffects hplace
      obtain ⟨hafter, hothers, huses⟩ := hended _
        (haffects.trans (affects_breakOff sessions session))
        ((congrFun hplace session).trans hbefore.place)
      exact ⟨hafter, hothers, stable_uses.later huses⟩

/-- A session goes back to the pool only without the lock. -/
theorem holds_release {destroy : Bool} (h : Uses pid session phase w) (hrests : phase.Rests)
    (hdestroy : destroy = true ∨ Unlocked pid session phase w) :
    maintenanceLogic.Holds request pid (release session destroy) (fun _ => Knows pid phase)
      (fun _ _ => False) w := by
  have hstable : maintenanceLogic.Stable pid fun w => Uses pid session phase w ∧
      (destroy = true ∨ Unlocked pid session phase w) := by
    rintro w w' hkeeps hinv ⟨huses, hfree⟩
    exact ⟨stable_uses hkeeps hinv huses, hfree.imp_right (stable_unlocked hkeeps hinv)⟩
  apply Logic.holds_step _ hstable ⟨h, hdestroy⟩
  rintro before reply after ⟨huses, hfree⟩ hinv rfl _
  obtain ⟨hafter, hothers, hknows⟩ := hinv.rests
    (affects_release before.current pid session destroy) huses.not_other List.not_mem_nil
    (fun _ hmem => absurd hmem List.not_mem_nil) huses.phase hrests fun again hlock => by
      unfold Sessions.release at hlock ⊢
      split
      · exact Or.inl (breakOff_broken _ _)
      next hkept =>
        rw [if_neg hkept] at hlock
        obtain ⟨hdestroy, hbroken⟩ := not_or.1 hkept
        exact absurd ((hfree.resolve_left hdestroy).free again hlock) hbroken
  exact ⟨hafter, hothers, stable_knows.later hknows⟩

/-- A program that throws is verified like one that does not. -/
theorem holds_attempted {α : Type} {program : MaintenanceProg α}
    {returns : α → MaintenanceWorld → Prop} {throws : Text → MaintenanceWorld → Prop}
    (h : maintenanceLogic.Holds request pid program returns throws w)
    (hreturns : ∀ value, maintenanceLogic.Stable pid (returns value))
    (hthrows : ∀ error, maintenanceLogic.Stable pid (throws error)) :
    maintenanceLogic.Holds request pid (attempted program)
      (fun outcome w => match outcome with
        | .ok value => returns value w
        | .error error => throws error w) (fun _ _ => False) w := by
  apply Logic.Holds.tryCatch
  apply h.next
  · exact fun error w _ herror => Logic.holds_pure ((hthrows error).later herror)
  · exact fun value w _ hvalue => Logic.holds_pure ((hreturns value).later hvalue)

/-- The jobs are executed with the lock or not at all. -/
theorem holds_runExclusive (h : Knows pid (.begun now) w) :
    maintenanceLogic.Holds request pid (runExclusive (executeJobs ⟨now, 100⟩ maintenanceJobs))
      (fun outcome => match outcome with
        | .acquired => Knows pid .ended
        | .skipped => Knows pid (.begun now))
      (fun _ w => Knows pid .ended w ∨ Knows pid (.begun now) w) w := by
  unfold runExclusive
  apply (holds_connect h trivial).next (fun _ _ _ hknows => Or.inr hknows)
  intro session w _ hunlocked
  have htry : maintenanceLogic.Holds request pid
      (tryCatch (tryLock session) fun error => do
        release session false
        throw error)
      (fun acquired w => if acquired then Locked pid session now maintenanceJobs w
        else Unlocked pid session (.begun now) w)
      (fun _ w => Knows pid .ended w ∨ Knows pid (.begun now) w) w := by
    apply Logic.Holds.tryCatch
    refine (holds_tryLock hunlocked).mono (fun _ _ _ h => h) fun error w _ hunlocked => ?_
    apply (holds_release hunlocked.toUses trivial (Or.inr hunlocked)).next (fun _ _ _ h => h.elim)
    exact fun _ w _ hknows => Logic.holds_throw fun _ hrely hinv =>
      Or.inr (stable_knows hrely hinv hknows)
  apply htry.next (fun _ _ _ h => h)
  intro acquired w _ htried
  cases acquired with
  | false =>
      apply (holds_release (Unlocked.toUses htried) trivial (Or.inr htried)).next
        (fun _ _ _ h => h.elim)
      exact fun _ w _ hknows => Logic.holds_pure (stable_knows.later hknows)
  | true =>
      apply (holds_attempted (holds_executeJobs htried) (fun _ => stable_locked)
        fun _ _ _ _ _ h => h.elim).next (fun _ _ _ h => h.elim)
      intro done w _ hdone
      cases done with
      | error error => exact hdone.elim
      | ok _ =>
          have hunlock : maintenanceLogic.Holds request pid (attempted (unlock session)) _
              (fun _ _ => False) w := holds_attempted (holds_unlock hdone)
            (fun value w w' hkeeps hinv h => ⟨h.1, stable_unlocked hkeeps hinv h.2⟩)
            fun _ => stable_uses
          apply hunlock.next (fun _ _ _ h => h.elim)
          intro unlocked w _ hunlocked
          cases unlocked with
          | error error =>
              apply (holds_release hunlocked trivial (Or.inl rfl)).next (fun _ _ _ h => h.elim)
              exact fun _ w _ hknows => Logic.holds_throw fun _ hrely hinv =>
                Or.inl (stable_knows hrely hinv hknows)
          | ok unlocked =>
              obtain ⟨rfl, hunlocked⟩ := hunlocked
              apply (holds_release hunlocked.toUses trivial (Or.inr hunlocked)).next
                (fun _ _ _ h => h.elim)
              exact fun _ w _ hknows => Logic.holds_pure (stable_knows.later hknows)

/-! ### The loop -/

/-- Something is noted that concerns no session. -/
theorem MaintenanceInvariant.notes (hinv : MaintenanceInvariant w) {event : MaintenanceEvent}
    {phase' : Phase} (h : Knows pid phase w) (hnext : phase.Next event phase') (hrests : phase'.Rests)
    (hevent : event ≠ .aborted)
    (hbegins : ∀ now, event = .began now → w.current.aborted pid = false) :
    MaintenanceInvariant (w.advance pid w.current [event]) ∧
      (∀ other, other ≠ pid → Keeps other w (w.advance pid w.current [event])) ∧
      Knows pid phase' (w.advance pid w.current [event]) := by
  have hothers : ∀ other, other ≠ pid → Keeps other w (w.advance pid w.current [event]) := by
    intro other hother
    have hown : own other (w.advance pid w.current [event]).log = own other w.log :=
      own_stamp_append_other hother
    refine ⟨fun phase => by rw [hown], fun _ h => h, fun _ h => h, fun _ _ h => Or.inr h,
      fun _ _ h => h⟩
  have hknows : Knows pid phase' (w.advance pid w.current [event]) := by
    unfold Knows
    rw [Chronicle.advance_log, own_stamp_append_self]
    exact .next h hnext
  refine ⟨hinv.advance hothers rfl ?_ ?_ ⟨phase', .next h hnext⟩ hinv.held ?_, hothers, hknows⟩
  · exact fun hmem => hevent (List.mem_singleton.1 hmem).symm
  · exact fun now hmem => hbegins now (List.mem_singleton.1 hmem).symm
  · exact fun session hexec => absurd hexec (not_executing hrests hknows session)

theorem holds_note {event : MaintenanceEvent} {phase' : Phase} (h : Knows pid phase w)
    (hnext : phase.Next event phase') (hrests : phase'.Rests) (hevent : event ≠ .aborted)
    (hbegins : ∀ now, event ≠ .began now) :
    maintenanceLogic.Holds request pid (note event) (fun _ => Knows pid phase') (fun _ _ => False)
      w := by
  apply Logic.holds_step _ stable_knows h
  rintro before reply after hknows hinv rfl _
  obtain ⟨hafter, hothers, hknows'⟩ := hinv.notes hknows hnext hrests hevent
    fun now hbegan => absurd hbegan (hbegins now)
  exact ⟨hafter, hothers, stable_knows.later hknows'⟩

/-- The phases in which a process is between two cycles. -/
def Between (pid : ℕ) (w : MaintenanceWorld) : Prop :=
  Knows pid .waiting w ∨ Knows pid .ended w ∨ ∃ now, Knows pid (.begun now) w

theorem stable_between : maintenanceLogic.Stable pid (Between pid) := by
  rintro w w' hkeeps hinv (hwaiting | hended | ⟨now, hbegun⟩)
  · exact Or.inl (stable_knows hkeeps hinv hwaiting)
  · exact Or.inr (Or.inl (stable_knows hkeeps hinv hended))
  · exact Or.inr (Or.inr ⟨now, stable_knows hkeeps hinv hbegun⟩)

theorem holds_writeHeartbeat (h : Knows pid .ended w) :
    maintenanceLogic.Holds request pid writeHeartbeat (fun _ => Between pid) (fun _ => Between pid)
      w := by
  have hwritten : maintenanceLogic.Holds request pid (Prog.anything (Except Text Unit))
      (fun _ => Knows pid .ended) (fun _ => Between pid) w :=
    Logic.holds_anything fun _ => stable_knows.later h
  apply hwritten.next (fun _ _ _ h => h)
  intro written w _ hknows
  apply (Logic.holds_ofExcept _ stable_knows hknows).next (fun _ _ _ h => Or.inr (Or.inl h.1))
  rintro _ w - ⟨hknows, -⟩
  refine (holds_note hknows .beats trivial (by simp) (by simp)).mono ?_ fun _ _ _ h => h.elim
  exact fun _ _ _ hwaiting => Or.inl hwaiting

theorem holds_runCycle (h : Knows pid (.begun now) w) :
    maintenanceLogic.Holds request pid (runCycle now) (fun _ => Between pid) (fun _ => Between pid)
      w := by
  unfold runCycle
  apply (holds_runExclusive h).next
  · rintro error w - (hended | hbegun)
    · exact Or.inr (Or.inl hended)
    · exact Or.inr (Or.inr ⟨now, hbegun⟩)
  intro outcome w _ houtcome
  have hrest : ∀ w, Knows pid .ended w → maintenanceLogic.Holds request pid
      (do
        writeHeartbeat
        return outcome) (fun _ => Between pid) (fun _ => Between pid) w := by
    intro w hended
    apply (holds_writeHeartbeat hended).next (fun _ _ _ h => h)
    exact fun _ w _ hbetween => Logic.holds_pure (stable_between.later hbetween)
  cases outcome with
  | acquired => exact hrest w houtcome
  | skipped =>
      have hskipped : maintenanceLogic.Holds request pid (note .skipped) (fun _ => Knows pid .ended)
          (fun _ _ => False) w := holds_note houtcome .skips trivial (by simp) (by simp)
      apply hskipped.next (fun _ _ _ h => h.elim)
      exact fun _ w _ hended => hrest w hended

theorem holds_beginCycle (h : Between pid w) :
    maintenanceLogic.Holds request pid beginCycle
      (fun begun w => match begun with
        | none => Between pid w
        | some now => Knows pid (.begun now) w) (fun _ _ => False) w := by
  apply Logic.holds_step _ stable_between h
  intro before begun after hbetween hinv hact _
  cases begun with
  | none =>
      obtain ⟨-, rfl⟩ := hact
      exact ⟨hinv, maintenanceLogic.guarantee_refl _ _ _, stable_between.later hbetween⟩
  | some now =>
      obtain ⟨hrunning, rfl⟩ := hact
      have hbegins : ∀ phase, Knows pid phase before → phase.Next (.began now) (.begun now) →
          maintenanceLogic.invariant (before.advance pid before.current [.began now]) ∧
            maintenanceLogic.guarantee request pid before
              (before.advance pid before.current [.began now]) ∧
            maintenanceLogic.Later pid (Knows pid (.begun now))
              (before.advance pid before.current [.began now]) := by
        intro phase hknows hnext
        obtain ⟨hafter, hothers, hbegun⟩ := hinv.notes hknows hnext trivial (by simp)
          fun _ _ => hrunning
        exact ⟨hafter, hothers, stable_knows.later hbegun⟩
      rcases hbetween with hwaiting | hended | ⟨earlier, hbegun⟩
      · exact hbegins _ hwaiting .begins
      · exact hbegins _ hended .beginsAfterEnd
      · exact hbegins _ hbegun .beginsAgain

theorem holds_isAborted (h : Between pid w) :
    maintenanceLogic.Holds request pid isAborted (fun _ => Between pid) (fun _ _ => False) w := by
  apply Logic.holds_step _ stable_between h
  rintro before aborted after hbetween hinv ⟨-, rfl⟩ _
  exact ⟨hinv, maintenanceLogic.guarantee_refl _ _ _, stable_between.later hbetween⟩

theorem holds_runCycles (h : Between pid w) :
    maintenanceLogic.Holds request pid (runCycles cycles) (fun _ _ => True) (fun _ _ => True) w := by
  induction cycles generalizing w with
  | zero => trivial
  | succ cycles ih =>
      unfold runCycles
      apply (holds_beginCycle h).next (fun _ _ _ h => h.elim)
      intro begun w _ hbegun
      cases begun with
      | none => exact Logic.holds_pure fun _ _ _ => trivial
      | some now =>
          have hcycle : maintenanceLogic.Holds request pid
              (tryCatch (do let _ ← runCycle now; return ()) fun _ => return ())
              (fun _ => Between pid) (fun _ _ => True) w := by
            apply Logic.Holds.tryCatch
            apply (holds_runCycle hbegun).next
            · exact fun _ _ _ hbetween => Logic.holds_pure (stable_between.later hbetween)
            · exact fun _ _ _ hbetween => Logic.holds_pure (stable_between.later hbetween)
          apply hcycle.next (fun _ _ _ _ => trivial)
          intro _ w _ hbetween
          apply (holds_isAborted hbetween).next (fun _ _ _ _ => trivial)
          intro aborted w _ hbetween
          split
          · exact Logic.holds_pure fun _ _ _ => trivial
          apply (holds_isAborted hbetween).next (fun _ _ _ _ => trivial)
          intro aborted w _ hbetween
          split
          · exact Logic.holds_pure fun _ _ _ => trivial
          · exact ih hbetween

theorem holds_run (h : Knows pid .waiting w) :
    maintenanceLogic.Holds request pid (run cycles) (fun _ _ => True) (fun _ _ => True) w := by
  have hreset : maintenanceLogic.Holds request pid (Prog.anything (Except Text Unit))
      (fun _ => Knows pid .waiting) (fun _ _ => True) w :=
    Logic.holds_anything fun _ => stable_knows.later h
  apply hreset.next (fun _ _ _ _ => trivial)
  intro reset w _ hknows
  apply (Logic.holds_ofExcept _ stable_knows hknows).next (fun _ _ _ _ => trivial)
  exact fun _ w _ hwaiting => holds_runCycles (Or.inl hwaiting.1)

/-! ### Whatever happens besides -/

theorem keeps_breakOff (session : ℕ) :
    Keeps pid w ⟨w.current.breakOff session, w.log⟩ where
  phase _ := Iff.rfl
  broken := (affects_breakOff w.current session).broken
  place _ h := h
  lock _ _ h := Or.inr h
  free used _ h again hlock := (affects_breakOff w.current session).broken used (h again hlock)

/-- A session that no lock service uses goes somewhere else. -/
theorem MaintenanceInvariant.moves (hinv : MaintenanceInvariant w)
    (h : Affects session w.current sessions)
    (hplace : ∀ pid, w.current.place session ≠ .lock pid)
    (hlock : sessions.lock = w.current.lock) :
    MaintenanceInvariant ⟨sessions, w.log⟩ ∧ ∀ pid, Keeps pid w ⟨sessions, w.log⟩ := by
  have hkeeps : ∀ pid, Keeps pid w ⟨sessions, w.log⟩ := fun pid => h.keeps rfl rfl (hplace pid)
  refine ⟨hinv.meanwhile hkeeps h.aborted fun used again hused => ?_, hkeeps⟩
  rw [hlock] at hused
  rcases hinv.held used again hused with hbroken | ⟨user, huser⟩
  · exact Or.inl (h.broken used hbroken)
  · by_cases hsame : used = session
    · subst hsame
      exact absurd huser (hplace user)
    · exact Or.inr ⟨user, (h.place used hsame).trans huser⟩

theorem MaintenanceInvariant.besides (hinv : MaintenanceInvariant w) (h : Meanwhile w w') :
    MaintenanceInvariant w' ∧ ∀ pid, Keeps pid w w' := by
  cases h with
  | breaks session =>
      refine ⟨hinv.meanwhile (fun _ => keeps_breakOff session) rfl fun used again hused => ?_,
        fun _ => keeps_breakOff session⟩
      exact (hinv.held used again hused).imp_left ((affects_breakOff w.current session).broken used)
  | @ends session again held gone =>
      have hkeeps : ∀ pid, Keeps pid w ⟨{ w.current with lock := none }, w.log⟩ := by
        intro pid
        refine ⟨fun _ => Iff.rfl, fun _ h => h, fun _ h => h, fun used _ hlock => Or.inl ?_,
          fun _ _ _ _ hnone => absurd hnone (Option.some_ne_none _).symm⟩
        obtain rfl := (Prod.mk.inj (Option.some.inj (hlock.symm.trans held))).1
        exact gone
      exact ⟨hinv.meanwhile hkeeps rfl fun _ _ hnone => absurd hnone (Option.some_ne_none _).symm,
        hkeeps⟩
  | @lends session pid free =>
      refine hinv.moves (affects_setPlace w.current session _) (fun user huser => ?_) rfl
      rw [huser] at free
      rcases free with hfree | hfree <;> cases hfree
  | @returned session pid lent =>
      refine hinv.moves (affects_setPlace w.current session _) (fun user huser => ?_) rfl
      rw [huser] at lent
      cases lent
  | @closes session pid free =>
      refine hinv.moves ((affects_setPlace w.current session _).trans (affects_breakOff _ session))
        (fun user huser => ?_) rfl
      rw [huser] at free
      rcases free with hfree | hfree <;> cases hfree
  | aborts target =>
      have hkeeps : ∀ pid, Keeps pid w (w.advance target
          { w.current with aborted := Function.update w.current.aborted target true }
          [.aborted]) := by
        intro pid
        refine ⟨fun phase => ?_, fun _ h => h, fun _ h => h, fun _ _ h => Or.inr h, fun _ _ h => h⟩
        by_cases hpid : pid = target
        · subst hpid
          rw [Chronicle.advance_log, own_stamp_append_self]
          constructor
          · exact fun hphase => .next hphase .told
          · intro hphase
            cases hphase with
            | next before step =>
                cases step
                exact before
        · rw [Chronicle.advance_log, own_stamp_append_other hpid]
      refine ⟨⟨fun pid => ?_, hinv.held, fun pid session hexec => ?_, fun pid hmem => ?_,
        fun pid now hafter => ?_⟩, hkeeps⟩
      · obtain ⟨phase, hphase⟩ := hinv.phases pid
        exact ⟨phase, ((hkeeps pid).phase phase).1 hphase⟩
      · obtain ⟨now, left, hphase⟩ := hexec
        exact hinv.executing pid session ⟨now, left, ((hkeeps pid).phase _).2 hphase⟩
      · by_cases hpid : pid = target
        · subst hpid
          exact Function.update_self _ _ _
        · rcases List.mem_append.1 hmem with hnow | hbefore
          · exact absurd (mem_stamp.1 hnow).1 hpid
          · exact (Function.update_of_ne hpid _ _).trans (hinv.told pid hbefore)
      · rcases hafter.of_append with hnow | hbefore
        · have hevent := List.mem_singleton.1 (mem_stamp.1 hnow).2
          cases hevent
        · exact hinv.stopped pid now hbefore

/-- A process dies. -/
theorem MaintenanceInvariant.dies (hinv : MaintenanceInvariant w) (pid : ℕ) :
    MaintenanceInvariant (w.advance pid (w.current.drop pid) []) ∧
      ∀ other, other ≠ pid → Keeps other w (w.advance pid (w.current.drop pid) []) := by
  have hbroken : ∀ session, w.current.broken session = true →
      (w.current.drop pid).broken session = true := by
    intro session hbroken
    simp [Sessions.drop, hbroken]
  have hplace : ∀ session other, other ≠ pid → w.current.place session = .lock other →
      (w.current.drop pid).place session = .lock other := by
    intro session other hother hplace
    simp [Sessions.drop, hplace, Place.owner, hother]
  have hothers : ∀ other, other ≠ pid → Keeps other w (w.advance pid (w.current.drop pid) []) :=
    fun other hother => ⟨fun _ => Iff.rfl, hbroken, fun session => hplace session other hother,
      fun _ _ h => Or.inr h, fun session _ h again hlock => hbroken session (h again hlock)⟩
  -- What was used by the process is gone.
  have hgone : ∀ session, w.current.place session = .lock pid →
      (w.current.drop pid).broken session = true := by
    intro session hused
    simp [Sessions.drop, hused, Place.owner]
  refine ⟨hinv.advance hothers rfl List.not_mem_nil (fun _ hmem => absurd hmem List.not_mem_nil)
    (hinv.phases pid) (fun session again hlock => ?_) fun session hexec => ?_, hothers⟩
  · rcases hinv.held session again hlock with hold | ⟨user, huser⟩
    · exact Or.inl (hbroken session hold)
    · by_cases hsame : user = pid
      · subst hsame
        exact Or.inl (hgone session huser)
      · exact Or.inr ⟨user, hplace session user hsame huser⟩
  · rcases hinv.executing pid session hexec with hold | ⟨hused, -⟩
    · exact Or.inl (hbroken session hold)
    · exact Or.inl (hgone session hused)

theorem maintenance_sound : maintenanceLogic.Sound maintenanceSystem where
  accepts _ _ := trivial
  code _ _ _ hfresh := holds_run hfresh
  environment moves _ hinv := hinv.besides moves
  rollback pid hinv := hinv.dies pid

/-! ### Every run -/

/-- No session is open, and no process was told to stop. -/
def Sessions.none : Sessions where
  place _ := .unopened
  broken _ := false
  lock := Option.none
  aborted _ := false

abbrev MaintenanceConfiguration := Config MaintenanceWorld ℕ Text Unit

def MaintenanceRun (c : MaintenanceConfiguration) : Prop :=
  Reachable maintenanceSystem (fun _ _ => True) (.idle (.start .none)) c

theorem maintenanceInvariant_start : MaintenanceInvariant (.start .none) where
  phases _ := ⟨.waiting, .start⟩
  held _ _ hlock := absurd hlock (Option.some_ne_none _).symm
  executing _ _ hexec := by
    obtain ⟨now, left, hphase⟩ := hexec
    cases hphase
  told _ hmem := absurd hmem List.not_mem_nil
  stopped _ _ hafter := absurd hafter not_after_nil

/-- **One process at a time.** In every run of any number of processes, wherever connections break,
statements fail and processes die: of two processes that execute jobs, one has lost the session that
it took the lock with; whatever session holds the lock is used for it or is gone; what each process
does are cycles that go through all jobs in order with one time and one limit, or through none; and
no process begins a cycle after it was told to stop. -/
theorem maintenance_exclusive {c : MaintenanceConfiguration} (hrun : MaintenanceRun c) :
    (∀ pid other session session', pid ≠ other → Executing pid session c.state →
      Executing other session' c.state → c.state.current.broken session = true ∨
        c.state.current.broken session' = true) ∧
    (∀ session again, c.state.current.lock = some (session, again) →
      c.state.current.broken session = true ∨ ∃ pid, c.state.current.place session = .lock pid) ∧
    (∀ pid, ∃ phase, InPhase (own pid c.state.log) phase) ∧
    ∀ pid now, ¬ After c.state.log (pid, .began now) (pid, .aborted) := by
  have hgood : maintenanceLogic.Good c := maintenance_sound.reachable
    (Logic.good_idle maintenanceInvariant_start fun _ => .start) hrun
  have hinv := hgood.invariant
  refine ⟨fun pid other session session' hne hexec hexec' => ?_, hinv.held, hinv.phases,
    hinv.stopped⟩
  rcases hinv.executing pid session hexec with hbroken | ⟨hplace, hlock⟩
  · exact Or.inl hbroken
  rcases hinv.executing other session' hexec' with hbroken | ⟨hplace', hlock'⟩
  · exact Or.inr hbroken
  -- Both would hold the lock with the same session.
  obtain rfl := (Prod.mk.inj (Option.some.inj (hlock.symm.trans hlock'))).1
  exact absurd (Place.lock.inj (hplace.symm.trans hplace')) hne

/-! The session of a process breaks while it executes jobs, and another process takes the lock. -/

/-- The process has taken the lock with a new session. -/
def Sessions.lockedBy (sessions : Sessions) (pid session : ℕ) : Sessions :=
  { sessions.setPlace session (.lock pid) with lock := some (session, 0) }

theorem getsTo_locked (sessions : Sessions) (pid session : ℕ) (hunopened : sessions.place session = .unopened)
    (halive : sessions.broken session = false) (hfree : sessions.lock = none)
    (hrunning : sessions.aborted pid = false) :
    Chronicle.GetsTo pid (run 1) sessions (sessions.lockedBy pid session)
      [.acquired session, .began 0] := by
  let connected := sessions.setPlace session (.lock pid)
  have hreset : Chronicle.Reaches pid
      (Prog.anything (Except Text Unit) : MaintenanceProg (Except Text Unit)) sessions
      (Except.ok ()) sessions [] := Chronicle.reaches_anything (Except.ok ())
  have hbegin : Chronicle.Reaches pid beginCycle sessions (some 0) sessions [.began 0] :=
    fun log => .step (some 0) _ ⟨hrunning, rfl⟩ trivial .refl
  have hconnect : Chronicle.Reaches pid (.attempt Connects : MaintenanceProg ℕ) sessions session
      connected [] := fun log => .step (.ok session) _ (.opened hunopened) trivial .refl
  have htry : Chronicle.Reaches pid (tryLock session) connected true
      (sessions.lockedBy pid session) [.acquired session] := by
    intro log
    have hreturns : connected.tryLock session = (true, sessions.lockedBy pid session) := by
      have hnone : connected.lock = none := hfree
      unfold Sessions.tryLock
      rw [hnone]
      rfl
    exact .step (.ok true) _ (.answered halive hreturns) trivial .refl
  have hlock : Chronicle.GetsTo pid (runExclusive (executeJobs ⟨0, 100⟩ maintenanceJobs)) sessions
      (sessions.lockedBy pid session) [.acquired session] :=
    hconnect.getsTo_follow ((htry.tryCatch).getsTo.bind _)
  have hcycle : Chronicle.GetsTo pid (runCycle 0) sessions (sessions.lockedBy pid session)
      [.acquired session] := hlock.bind _
  have hcycles : Chronicle.GetsTo pid (runCycles 1) sessions (sessions.lockedBy pid session)
      ([.acquired session] ++ [.began 0]) := by
    apply hbegin.getsTo_bind
    exact ((hcycle.bind _).tryCatch _).bind _
  exact hreset.getsTo_follow hcycles

/-- The connection of the session breaks, and the server ends it. -/
theorem MaintenanceRun.lost {threads : List (Thread MaintenanceWorld ℕ Text Unit)}
    {log : List (ℕ × MaintenanceEvent)} {again : ℕ} (hrun : MaintenanceRun ⟨⟨sessions, log⟩, threads⟩)
    (hlock : sessions.lock = some (session, again)) :
    MaintenanceRun ⟨⟨{ sessions.breakOff session with lock := none }, log⟩, threads⟩ := by
  have hbroken : MaintenanceRun ⟨⟨sessions.breakOff session, log⟩, threads⟩ :=
    Reachable.outside hrun (Meanwhile.breaks session) trivial
  exact Reachable.outside hbroken (Meanwhile.ends hlock (breakOff_broken _ _)) trivial

theorem maintenance_exclusive_overlap : ∃ c, MaintenanceRun c ∧ Executing 0 0 c.state ∧
    Executing 1 1 c.state ∧
      (c.state.current.broken 0 = true ∨ c.state.current.broken 1 = true) := by
  obtain ⟨first, hfirst⟩ := getsTo_locked .none 0 0 rfl rfl rfl rfl
  have hlocked : MaintenanceRun ⟨⟨Sessions.none.lockedBy 0 0, _⟩, [⟨1, first⟩]⟩ :=
    Reachable.serve Relation.ReflTransGen.refl trivial trivial (hfirst [])
  let ended : Sessions := { (Sessions.none.lockedBy 0 0).breakOff 0 with lock := none }
  obtain ⟨second, hsecond⟩ := getsTo_locked ended 1 1 rfl rfl rfl rfl
  have hrun : MaintenanceRun ⟨⟨ended.lockedBy 1 1, _⟩, [⟨1, first⟩, ⟨1, second⟩]⟩ :=
    Reachable.serve (hlocked.lost rfl) trivial trivial (hsecond _)
  have hexec : Executing 0 0 ⟨ended.lockedBy 1 1, [(1, .acquired 1), (1, .began 0),
      (0, .acquired 0), (0, .began 0)]⟩ :=
    ⟨0, maintenanceJobs, .next (.next .start .begins) .acquires⟩
  have hexec' : Executing 1 1 ⟨ended.lockedBy 1 1, [(1, .acquired 1), (1, .began 0),
      (0, .acquired 0), (0, .began 0)]⟩ :=
    ⟨0, maintenanceJobs, .next (.next .start .begins) .acquires⟩
  exact ⟨_, hrun, hexec, hexec', (maintenance_exclusive hrun).1 0 1 0 1 (by decide) hexec hexec'⟩

end ChatTea.Maintenance
