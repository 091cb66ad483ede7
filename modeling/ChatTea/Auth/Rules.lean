import ChatTea.Auth.System

/-!
# Proof rules for the authentication calls

A call is verified against what it knows of itself: what it has entered in the history,
which accounts it is busy with, and which rows it keeps locked. No other thread changes
any of this, so every statement of a call asks for one change of the tables only.

## Main definitions

* `Known`, `At` — what a thread knows of itself, and that it is so

## Main results

* `holds_record`, `holds_find`, `holds_lockRows`, `holds_entry`, `holds_hash` — a write,
  a query, a locking statement, an entry and a hash
* `holds_then`, `holds_check`, `holds_outside`, `holds_time`, `holds_catch`, `holds_body`,
  `holds_consuming` — how a program is put together
-/

namespace ChatTea.Auth

open History Interleaving RowLocks Table Transaction

variable {config : AuthConfig} {request : AuthRequest} {pid other : ℕ} {w before after : World}
  {β γ κ : Type} {returns : β → World → Prop} {trace : β → Trace}

/-! ### What a thread knows of itself -/

/-- The events a thread has entered and the accounts it is busy with, the newest first,
and the rows it has locked. -/
structure Known where
  events : List Event := []
  accounts : List Uuid := []
  rows : List TableRow := []

def Known.note (known : Known) (new : Trace) : Known :=
  { known with events := new.events ++ known.events, accounts := new.accounts ++ known.accounts }

def Known.lock (known : Known) (rows : List TableRow) : Known :=
  { known with rows := rows ++ known.rows }

def Known.commit (known : Known) (new : Trace) : Known := { known.note new with rows := [] }

variable {known : Known} {events : List Event} {accounts : List Uuid}

/-- The thread has locked the row against changes. -/
def Kept (pid : ℕ) (row : TableRow) (w : World) : Prop :=
  w.db.Has row ∧ ∃ mode, mode.conflicts .noKeyUpdate = true ∧ Holds w.locks pid mode row.key

/-- What a thread knows of itself is so. -/
structure At (pid : ℕ) (known : Known) (w : World) : Prop where
  events : own pid w.log = known.events
  accounts : own pid w.reading = known.accounts
  rows : ∀ row ∈ known.rows, Kept pid row w

namespace At

theorem mem {event : Event} (h : At pid known w) : (pid, event) ∈ w.log ↔ event ∈ known.events := by
  rw [← mem_own, h.events]

theorem busy {userId : Uuid} (h : At pid known w) (hmem : userId ∈ known.accounts) :
    (pid, userId) ∈ w.reading := by
  rw [← mem_own, h.accounts]
  exact hmem

theorem has {row : TableRow} (h : At pid known w) (hmem : row ∈ known.rows) : w.db.Has row :=
  (h.rows row hmem).1

theorem keep (h : At pid known w) (hrely : AuthRely pid w before) : At pid known before where
  events := hrely.events.trans h.events
  accounts := hrely.accounts.trans h.accounts
  rows := by
    intro row hmem
    obtain ⟨hrow, mode, hmode, hheld⟩ := h.rows row hmem
    exact ⟨hrely.locked.rows row mode hrow hmode hheld, mode, hmode, hrely.locked.locks hheld⟩

theorem note (new : Trace) (h : At pid known w) : At pid (known.note new) (w.note pid new) where
  events := by
    rw [Known.note, ← h.events]
    exact own_stamp_append_self
  accounts := by
    rw [Known.note, ← h.accounts]
    exact own_stamp_append_self
  rows := h.rows

/-- The rows a statement has found are locked, and those that were locked still are. -/
theorem lock {mode : Mode} {keys : List LockedRow} {rows : List TableRow} (h : At pid known w)
    (hmode : mode.conflicts .noKeyUpdate = true)
    (hrows : ∀ row ∈ rows, w.db.Has row ∧ row.key ∈ keys) :
    At pid (known.lock rows) (w.withLocks (acquire pid mode keys w.locks)) where
  events := h.events
  accounts := h.accounts
  rows := by
    intro row hmem
    rcases List.mem_append.1 hmem with hnew | hold
    · obtain ⟨hrow, hkey⟩ := hrows row hnew
      exact ⟨hrow, mode, hmode, holds_acquire hkey⟩
    · obtain ⟨hrow, mode', hmode', hheld⟩ := h.rows row hold
      exact ⟨hrow, mode', hmode', hheld.acquire⟩

theorem commit (new : Trace) (db : Database) (h : At pid known w) :
    At pid (known.commit new) (w.commit pid db new) := by
  have hended : At pid { known with rows := [] } ((w.withDb db).unlock pid) :=
    ⟨h.events, h.accounts, fun _ hmem => by cases hmem⟩
  exact hended.note new

end At

/-- A thread whose entries are not known has made some. -/
theorem at_own : At pid ⟨own pid w.log, own pid w.reading, []⟩ w :=
  ⟨rfl, rfl, fun _ hmem => by cases hmem⟩

theorem stable_at : (authLogic config).Stable pid (At pid known) :=
  fun _ _ hrely _ h => h.keep hrely

theorem stable_and {fact : Prop} {assertion : World → Prop}
    (h : (authLogic config).Stable pid assertion) :
    (authLogic config).Stable pid fun w => fact ∧ assertion w :=
  fun _ _ hrely hinv hboth => ⟨hboth.1, h hrely hinv hboth.2⟩

theorem stable_true : (authLogic config).Stable pid fun _ => True := fun _ _ _ _ _ => trivial

theorem later_true {s : World} : (authLogic config).Later pid (fun _ => True) s :=
  fun _ _ _ => trivial

/-! ### Steps -/

theorem AuthStep.lock {rows : List LockedRow} {mode : Mode} {new : Trace}
    (hchange : AuthChange config request pid w new (authTables w.db))
    (hafter : after = (w.withLocks (acquire pid mode rows w.locks)).note pid new) :
    AuthStep config request pid w after := by
  subst hafter
  refine ⟨Or.inl ⟨new, hchange, rfl, rfl⟩, fun other hother => ⟨?_, ?_, ?_, ?_, rfl⟩, rfl⟩
  · exact .of_db_eq rfl Holds.acquire
  · exact own_stamp_append_other hother
  · exact own_stamp_append_other hother
  · exact fun key _ => List.Sublist.refl _

theorem AuthStep.commit {db : Database} {new : Trace} (hexclusive : Exclusive w.locks)
    (hchange : AuthChange config request pid w new (authTables db)) (hunlocked : w.Unlocked pid db) :
    AuthStep config request pid w (w.commit pid db new) := by
  refine ⟨Or.inl ⟨new, hchange, rfl, rfl⟩, fun other hother => ⟨?_, ?_, ?_, ?_, rfl⟩, rfl⟩
  · exact .of_unlocked hunlocked hother fun hheld => hheld.release (Ne.symm hother)
  · exact own_stamp_append_other hother
  · exact own_stamp_append_other hother
  · exact fun key hheld => hchange.quota hexclusive hother hheld

theorem AuthStep.write {db : Database}
    (hchange : AuthChange config request pid w {} (authTables db)) (hexclusive : Exclusive w.locks)
    (hunlocked : w.Unlocked pid db) : AuthStep config request pid w (w.withDb db) := by
  refine ⟨Or.inl ⟨{}, hchange, rfl, rfl⟩, fun other hother => ⟨?_, rfl, rfl, ?_, rfl⟩, rfl⟩
  · exact .of_unlocked hunlocked hother id
  · exact fun key hheld => hchange.quota hexclusive hother hheld

theorem AuthStep.note {new : Trace}
    (hchange : AuthChange config request pid w new (authTables w.db)) :
    AuthStep config request pid w (w.note pid new) := by
  refine ⟨Or.inl ⟨new, hchange, rfl, rfl⟩, fun other hother => ⟨?_, ?_, ?_, ?_, rfl⟩, rfl⟩
  · exact .of_db_eq rfl id
  · exact own_stamp_append_other hother
  · exact own_stamp_append_other hother
  · exact fun key _ => List.Sublist.refl _

/-- A step that changes nothing but locks and errors. -/
theorem AuthStep.of_eq (hdb : after.db = w.db) (hlog : after.log = w.log)
    (hreading : after.reading = w.reading) (hclocks : after.clocks = w.clocks)
    (hlocks : ∀ other, other ≠ pid → ∀ {mode row}, Holds w.locks other mode row →
      Holds after.locks other mode row) : AuthStep config request pid w after := by
  refine ⟨Or.inl ⟨{}, by rw [hdb]; exact .nothing, hlog, hreading⟩,
    fun other hother => ⟨.of_db_eq hdb (hlocks other hother), ?_, ?_, fun key _ => ?_, hclocks⟩,
    hclocks⟩
  · rw [hlog]
  · rw [hreading]
  · rw [hdb]

/-- A thread that is done with its accounts changes nothing for the others. -/
theorem authRely_forget (hother : other ≠ pid) : AuthRely other w (w.forget pid) := by
  have hfilter : (w.reading.filter fun entry => entry.1 ≠ pid).filter
      (fun entry => entry.1 = other) = w.reading.filter fun entry => entry.1 = other := by
    rw [List.filter_filter]
    refine List.filter_congr fun entry _ => ?_
    by_cases hentry : entry.1 = other
    · simp [hentry, hother]
    · simp [hentry]
  exact ⟨.of_db_eq rfl id, rfl, congrArg (List.map Prod.snd) hfilter,
    fun key _ => List.Sublist.refl _, rfl⟩

theorem AuthStep.forget : AuthStep config request pid w (w.forget pid) :=
  ⟨Or.inr ⟨rfl, rfl, rfl⟩, fun _ hother => authRely_forget hother, rfl⟩

theorem lockNeutral : LockNeutral (authLogic config) request where
  acquire := fun hinv hfree => ⟨hinv.acquire hfree, .of_eq rfl rfl rfl rfl fun _ _ _ _ => Holds.acquire⟩
  unlock := fun {pid} _ hinv => ⟨hinv.release pid,
    .of_eq rfl rfl rfl rfl fun _ hother _ _ hheld => hheld.release (Ne.symm hother)⟩
  rely := AuthRely.locked

/-! ### Rules -/

/-- A write that draws a value: it is one of the changes. -/
theorem holds_draw {isNew : κ → List (ℕ × Event) → Prop} {call : κ → Call Database Failure β}
    (assertion : World → Prop) (hstable : (authLogic config).Stable pid assertion) (h : assertion w)
    (hchange : ∀ before drawn value db, assertion before → isNew drawn before.log →
      call drawn before.db = .ok (value, db) →
        AuthChange config request pid before (trace value) (authTables db))
    (hreturns : ∀ before drawn value db, assertion before →
      call drawn before.db = .ok (value, db) →
        (authLogic config).Later pid (returns value) (before.commit pid db (trace value))) :
    (authLogic config).Holds request pid (recording isNew trace call) returns (fun _ _ => True) w := by
  refine holds_recording assertion (hstable.later h) ?_ ?_ fun _ _ _ _ => later_true
  · intro before drawn value db hbefore hinv hnew hcall hunlocked _
    have hstep := hchange before drawn value db hbefore hnew hcall
    exact ⟨hinv.release pid, .commit hinv hstep hunlocked,
      hreturns before drawn value db hbefore hcall, fun _ => later_true⟩
  · intro before failure _ hinv
    exact ⟨hinv, .of_eq rfl rfl rfl rfl fun _ _ _ _ => id, later_true⟩

/-- A write: what is known of its value, and what the thread has entered. -/
theorem holds_record {call : Call Database Failure β} (fact : β → Prop) (h : At pid known w)
    (hcall : ∀ before value db, At pid known before → call before.db = .ok (value, db) →
      AuthChange config request pid before (trace value) (authTables db) ∧ fact value) :
    (authLogic config).Holds request pid (record trace call)
      (fun value s => fact value ∧ At pid (known.commit (trace value)) s) (fun _ _ => True) w := by
  refine holds_draw (At pid known) stable_at h ?_ ?_
  · intro before _ value db hbefore _ hok
    exact (hcall before value db hbefore hok).1
  · intro before _ value db hbefore hok
    exact (stable_and stable_at).later
      ⟨(hcall before value db hbefore hok).2, hbefore.commit (trace value) db⟩

/-- What is known of a thread, with a reading that it has taken. -/
theorem stable_reading {now : Timestamp} {assertion : World → Prop}
    (h : (authLogic config).Stable pid assertion) :
    (authLogic config).Stable pid fun w => assertion w ∧ w.clocks now := by
  intro s before hrely hinv hboth
  refine ⟨h hrely hinv hboth.1, ?_⟩
  rw [hrely.clocks]
  exact hboth.2

/-- A write that uses a reading of the clock. -/
theorem holds_recordAt {call : Call Database Failure β} {now : Timestamp} (fact : β → Prop)
    (h : At pid known w) (hnow : w.clocks now)
    (hcall : ∀ before value db, At pid known before → before.clocks now →
      call before.db = .ok (value, db) →
        AuthChange config request pid before (trace value) (authTables db) ∧ fact value) :
    (authLogic config).Holds request pid (record trace call)
      (fun value s => fact value ∧ At pid (known.commit (trace value)) s) (fun _ _ => True) w := by
  refine holds_draw _ (stable_reading stable_at) ⟨h, hnow⟩ ?_ ?_
  · intro before _ value db hbefore _ hok
    exact (hcall before value db hbefore.1 hbefore.2 hok).1
  · intro before _ value db hbefore hok
    exact (stable_and stable_at).later
      ⟨(hcall before value db hbefore.1 hbefore.2 hok).2, hbefore.1.commit (trace value) db⟩

/-- A locking statement under an assertion of its thread. -/
theorem holds_locking {mode : Mode} {keys : Database → List LockedRow} {read : Database → β}
    (assertion : World → Prop) (hstable : (authLogic config).Stable pid assertion) (h : assertion w)
    (hread : ∀ before, assertion before →
      AuthChange config request pid before (trace (read before.db)) (authTables before.db) ∧
        (authLogic config).Later pid (returns (read before.db))
          ((before.withLocks (acquire pid mode (keys before.db) before.locks)).note pid
            (trace (read before.db)))) :
    (authLogic config).Holds request pid (lock trace mode keys read) returns (fun _ _ => True) w := by
  refine holds_lock assertion (hstable.later h) ?_ fun _ _ _ _ => later_true
  rintro before after hbefore hinv hfree rfl
  obtain ⟨hchange, hreturns⟩ := hread before hbefore
  exact ⟨hinv.acquire hfree, .lock hchange rfl, hreturns⟩

/-- A locking statement: what is known of its value, and the rows that stay locked. -/
theorem holds_lockRows {mode : Mode} {keys : Database → List LockedRow} {read : Database → β}
    (fact : β → Prop) (rows : β → List TableRow) (h : At pid known w)
    (hmode : mode.conflicts .noKeyUpdate = true)
    (hread : ∀ before, At pid known before →
      AuthChange config request pid before (trace (read before.db)) (authTables before.db) ∧
        fact (read before.db) ∧
          ∀ row ∈ rows (read before.db), before.db.Has row ∧ row.key ∈ keys before.db) :
    (authLogic config).Holds request pid (lock trace mode keys read)
      (fun value s => fact value ∧ At pid ((known.lock (rows value)).note (trace value)) s)
      (fun _ _ => True) w := by
  refine holds_locking (At pid known) stable_at h fun before hbefore => ?_
  obtain ⟨hchange, hfact, hrows⟩ := hread before hbefore
  refine ⟨hchange, (stable_and stable_at).later ⟨hfact, ?_⟩⟩
  exact (hbefore.lock hmode hrows).note (trace (read before.db))

/-- A query: what is known of its value, and what the thread has entered. -/
theorem holds_find {read : Database → β} (fact : β → Prop) (h : At pid known w)
    (hread : ∀ before, At pid known before →
      AuthChange config request pid before (trace (read before.db)) (authTables before.db) ∧
        fact (read before.db)) :
    (authLogic config).Holds request pid (find trace read)
      (fun value s => fact value ∧ At pid (known.note (trace value)) s) (fun _ _ => True) w := by
  refine holds_locking (At pid known) stable_at h fun before hbefore => ?_
  obtain ⟨hchange, hfact⟩ := hread before hbefore
  refine ⟨hchange, (stable_and stable_at).later ⟨hfact, ?_⟩⟩
  exact hbefore.note (trace (read before.db))

theorem holds_entry {new : List Event} (h : At pid known w)
    (hchange : ∀ before, At pid known before →
      AuthChange config request pid before { events := new } (authTables before.db)) :
    (authLogic config).Holds request pid (note new)
      (fun _ => At pid (known.note { events := new })) (fun _ _ => True) w := by
  refine holds_note (At pid known) (stable_at.later h) ?_
  rintro before after hbefore hinv rfl
  exact ⟨hinv, .note (hchange before hbefore), stable_at.later (hbefore.note { events := new })⟩

/-- A failure is entered unless the thread has used tokens up. -/
theorem holds_noteKept :
    (authLogic config).Holds request pid noteKept (fun _ _ => True) (fun _ _ => True) w := by
  refine Logic.holds_step (fun _ => True) stable_true trivial ?_
  rintro before _ after - hinv hact _
  by_cases hconsumed : (own pid before.log).any isConsumption = true
  · rw [if_pos hconsumed] at hact
    subst hact
    exact ⟨hinv, .refl _ _ _ _, later_true⟩
  · rw [if_neg hconsumed] at hact
    subst hact
    refine ⟨hinv, .note (.keptTokens fun consumption hmem => hconsumed ?_), later_true⟩
    exact List.any_eq_true.2 ⟨_, mem_own.2 hmem, rfl⟩

/-- `bcrypt.hash`: the thread knows the hash it has made. -/
theorem holds_hash {candidate : Text} (h : At pid known w) :
    (authLogic config).Holds request pid (hash config candidate)
      (fun hash s => (∃ salt, hash = config.bcryptHash salt candidate) ∧
        At pid (known.note { events := [.hashed candidate hash] }) s) (fun _ _ => True) w := by
  refine Logic.holds_step _ stable_at h ?_
  rintro before hash after hbefore hinv ⟨hsalted, hnew, rfl⟩ _
  refine ⟨hinv, .note (.hashed hsalted hnew), (stable_and stable_at).later ⟨hsalted, ?_⟩⟩
  exact hbefore.note { events := [.hashed candidate hash] }

/-- A write of the account calls, which is not entered in the history. -/
theorem callChecks_account {call : Call Database Failure β} (hinv : Exclusive before.locks)
    (hbefore : At pid ⟨events, accounts, []⟩ before)
    (hchange : ∀ value db, call before.db = .ok (value, db) →
      AuthChange config request pid before {} (authTables db)) :
    CallChecks (authLogic config) request pid call (fun _ => At pid ⟨events, accounts, []⟩)
      (fun _ _ => True) before where
  returned := by
    intro value db hcall hunlocked _
    have hafter : At pid ⟨events, accounts, []⟩ (before.withDb db) :=
      ⟨hbefore.events, hbefore.accounts, fun _ hmem => by cases hmem⟩
    exact ⟨hinv, .write (hchange value db hcall) hinv hunlocked, stable_at.later hafter,
      fun _ => later_true⟩
  threw := fun _ _ => ⟨hinv, .of_eq rfl rfl rfl rfl fun _ _ _ _ => id, later_true⟩
  unreachable := fun _ => later_true

theorem holds_account {call : Call Database Failure β} (h : At pid ⟨events, accounts, []⟩ w)
    (hchange : ∀ before value db, call before.db = .ok (value, db) →
      AuthChange config request pid before {} (authTables db)) :
    (authLogic config).Holds request pid (statement call)
      (fun _ => At pid ⟨events, accounts, []⟩) (fun _ _ => True) w :=
  holds_statement _ (stable_at.later h) fun before hbefore hinv =>
    callChecks_account hinv hbefore (hchange before)

/-- The end of a transaction of the account calls. -/
theorem holds_ending {call : Call Database Failure β} (assertion : World → Prop)
    (hassertion : (authLogic config).Later pid assertion w)
    (hchange : ∀ before value db, assertion before → call before.db = .ok (value, db) →
      AuthChange config request pid before {} (authTables db)) :
    (authLogic config).Holds request pid (commit call) (fun _ _ => True) (fun _ _ => True) w := by
  refine holds_commit assertion hassertion ?_ ?_ fun _ _ _ _ => later_true
  · intro before value db hbefore hinv hcall hunlocked _
    have hstep := hchange before value db hbefore hcall
    exact ⟨hinv.release pid, .commit hinv hstep hunlocked, later_true, fun _ => later_true⟩
  · intro before failure _ hinv _
    exact ⟨hinv, .of_eq rfl rfl rfl rfl fun _ _ _ _ => id, later_true⟩

section Silent

variable {program : Prog World AuthRequest Failure β} {rest : γ → Prog World AuthRequest Failure β}

/-- A program and the rest of its call. -/
theorem holds_then {first : Prog World AuthRequest Failure γ} {between : γ → World → Prop}
    (hfirst : (authLogic config).Holds request pid first between (fun _ _ => True) w)
    (hrest : ∀ value s, between value s →
      (authLogic config).Holds request pid (rest value) returns (fun _ _ => True) s) :
    (authLogic config).Holds request pid (first >>= rest) returns (fun _ _ => True) w :=
  Logic.Holds.bind (hfirst.mono (fun value s _ h => hrest value s h) fun _ _ _ h => h)

theorem holds_via {first : Prog World AuthRequest Failure γ} (between : γ → World → Prop)
    (hfirst : (authLogic config).Holds request pid first between (fun _ _ => True) w)
    (hrest : ∀ value s, between value s →
      (authLogic config).Holds request pid (rest value) returns (fun _ _ => True) s) :
    (authLogic config).Holds request pid (first >>= rest) returns (fun _ _ => True) w :=
  holds_then hfirst hrest

/-- A check that throws or goes on. -/
theorem holds_check {outcome : Except Failure γ}
    (hrest : ∀ value, outcome = .ok value →
      (authLogic config).Holds request pid (rest value) returns (fun _ _ => True) w) :
    (authLogic config).Holds request pid (MonadExcept.ofExcept outcome >>= rest) returns
      (fun _ _ => True) w :=
  Logic.Holds.bind (holds_ofExcept (fun value hvalue => (hrest value hvalue).later)
    fun _ _ => later_true)

/-- A value from outside may be any value. -/
theorem holds_outside (hrest : ∀ value,
      (authLogic config).Holds request pid (rest value) returns (fun _ _ => True) w) :
    (authLogic config).Holds request pid (Prog.anything γ >>= rest) returns (fun _ _ => True) w :=
  Logic.Holds.bind (Logic.holds_anything fun value => (hrest value).later)

theorem holds_time {rest : Timestamp → Prog World AuthRequest Failure β}
    (hrest : ∀ now,
      (authLogic config).Holds request pid (rest now) returns (fun _ _ => True) w) :
    (authLogic config).Holds request pid (clock >>= rest) returns (fun _ _ => True) w :=
  Logic.Holds.bind (holds_clock fun now => (hrest now).later)

/-- A reading of the clock is one that it may show from then on. -/
theorem holds_reading (assertion : World → Prop) (hstable : (authLogic config).Stable pid assertion)
    {rest : Timestamp → Prog World AuthRequest Failure β} (h : assertion w)
    (hrest : ∀ now s, assertion s → s.clocks now →
      (authLogic config).Holds request pid (rest now) returns (fun _ _ => True) s) :
    (authLogic config).Holds request pid (clock >>= rest) returns (fun _ _ => True) w := by
  refine Logic.Holds.bind (Logic.holds_step _ hstable h ?_)
  rintro before now after hbefore hinv ⟨hnow, rfl⟩ _
  refine ⟨hinv, .refl _ _ _ _, Logic.holds_pure ?_⟩
  exact (hrest now _ hbefore hnow).later

/-- What a call catches it may go on from in any state. -/
theorem holds_catch {handler : Failure → Prog World AuthRequest Failure β}
    (hprogram : (authLogic config).Holds request pid program returns (fun _ _ => True) w)
    (hhandler : ∀ failure s,
      (authLogic config).Holds request pid (handler failure) returns (fun _ _ => True) s) :
    (authLogic config).Holds request pid (tryCatch program handler) returns (fun _ _ => True) w :=
  Logic.Holds.tryCatch (hprogram.mono (fun _ _ _ h => h) fun failure s _ _ => hhandler failure s)

/-- A transaction gives back its locks when it throws. -/
theorem holds_body
    (hbody : (authLogic config).Holds request pid program returns (fun _ _ => True) w) :
    (authLogic config).Holds request pid (transaction program) returns (fun _ _ => True) w :=
  holds_rollback lockNeutral hbody fun _ _ => later_true

/-- An operation that is to use tokens up enters its failure. -/
theorem holds_consuming
    (hprogram : (authLogic config).Holds request pid program returns (fun _ _ => True) w) :
    (authLogic config).Holds request pid (consuming program) returns (fun _ _ => True) w :=
  holds_catch hprogram fun _ _ => holds_then holds_noteKept fun _ _ _ =>
    Logic.holds_throw later_true

end Silent

end ChatTea.Auth
