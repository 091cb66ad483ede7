import ChatTea.Migrations.Ledger

/-!
# Any number of calls of the runner

However calls interleave, fail and stop, and whatever directories they are given, what they make of
the database is what files make of it one at a time: the lock keeps them apart, a transaction that
was not committed leaves nothing, and a file that creates an index is named in the table only when
its index is finished.

## Main definitions

* `Keeps` — what a session may rely on
* `ledgerLogic` — the lock keeps the others away
* `Progress` — how far a call has come

## Main results

* `ledger_sound` — every step of a call is one of the work on its directory
* `migrations_ledger` — what that says about every run
-/

namespace ChatTea.Migrations

open History Interleaving Table

variable {σ : Type} {config : MigrationConfig σ} {accepts : Directory → Prop} {initial : Stored σ}
  {w w' w'' : MigrationWorld σ} {pid other : ℕ} {directory : Directory} {file sql name : Text}
  {done rest : List Text}

/-! ### What a session may rely on -/

/-- How far a call has come: everything so far is in the table, and what the call has done itself
are files of the directory, in turn. -/
structure Passed (config : MigrationConfig σ) (directory : Directory) (pid : ℕ) (done : List Text)
    (w : MigrationWorld σ) : Prop where
  recorded : ∀ file ∈ done, Recorded config directory w.current.migrations file
  order : ((own pid w.log).reverse.map MigrationEvent.file).Sublist done
  texts : ∀ event ∈ own pid w.log, directory.read event.file = some event.sql

def Progress (config : MigrationConfig σ) (directory : Directory) (pid : ℕ) (w : MigrationWorld σ) :
    Prop :=
  ∃ done rest, directory.sqlFiles = done ++ rest ∧ Passed config directory pid done w

/-- The rows of a table are never taken back. -/
def Grows (w w' : MigrationWorld σ) : Prop :=
  ∀ row ∈ w.current.migrations, row ∈ w'.current.migrations

/-- A session keeps what it has done and its transaction, and with the lock also the database. -/
structure Keeps (pid : ℕ) (w w' : MigrationWorld σ) : Prop where
  own : own pid w'.log = own pid w.log
  work : w'.current.work pid = w.current.work pid
  grows : Grows w w'
  locked : w.current.lock = some pid →
    w'.current.lock = some pid ∧ w'.current.stored = w.current.stored

theorem Keeps.refl (pid : ℕ) (w : MigrationWorld σ) : Keeps pid w w :=
  ⟨rfl, rfl, fun _ h => h, fun h => ⟨h, rfl⟩⟩

theorem Keeps.trans (h : Keeps pid w w') (h' : Keeps pid w' w'') : Keeps pid w w'' where
  own := h'.own.trans h.own
  work := h'.work.trans h.work
  grows row hrow := h'.grows row (h.grows row hrow)
  locked hlock := by
    obtain ⟨hlock', hstored⟩ := h.locked hlock
    obtain ⟨hlock'', hstored'⟩ := h'.locked hlock'
    exact ⟨hlock'', hstored'.trans hstored⟩

theorem Passed.keeps (h : Passed config directory pid done w)
    (hown : own pid w'.log = own pid w.log) (hgrows : Grows w w') :
    Passed config directory pid done w' where
  recorded file hfile := (h.recorded file hfile).grows hgrows
  order := by
    rw [hown]
    exact h.order
  texts := by
    rw [hown]
    exact h.texts

theorem Progress.keeps (h : Progress config directory pid w)
    (hown : own pid w'.log = own pid w.log) (hgrows : Grows w w') :
    Progress config directory pid w' := by
  obtain ⟨done, rest, hfiles, hpassed⟩ := h
  exact ⟨done, rest, hfiles, hpassed.keeps hown hgrows⟩

/-- What was made of the database is what files may make of it. -/
def LedgerInvariant (config : MigrationConfig σ) (accepts : Directory → Prop) (initial : Stored σ)
    (w : MigrationWorld σ) : Prop :=
  Replays config accepts initial (w.log.map Prod.snd) w.current.stored

/-- The lock keeps the other sessions away from the database. -/
def ledgerLogic (config : MigrationConfig σ) (accepts : Directory → Prop) (initial : Stored σ) :
    Logic (MigrationWorld σ) Directory MigrationFailure Unit where
  invariant := LedgerInvariant config accepts initial
  rely := Keeps
  guarantee directory pid w w' := (∀ other, other ≠ pid → Keeps other w w') ∧ Grows w w' ∧
    (Progress config directory pid w → Progress config directory pid w')
  allowed _ _ := True
  requires directory _ := accepts directory
  ensures directory _ _ w :=
    ∀ file ∈ directory.sqlFiles, Recorded config directory w.current.migrations file
  fresh pid w := own pid w.log = []
  rely_refl := Keeps.refl
  rely_trans := Keeps.trans
  guarantee_refl _ _ w := ⟨fun other _ => Keeps.refl other w, fun _ h => h, fun h => h⟩
  rely_of_guarantee hother h := h.1 _ hother
  fresh_of_rely h hfresh := h.own.trans hfresh

/-! ### Steps -/

/-- A session changes its own transaction, or it goes on with the work while it holds the lock. -/
structure Moves (config : MigrationConfig σ) (accepts : Directory → Prop) (pid : ℕ)
    (server server' : Server σ) (noted : List MigrationEvent) : Prop where
  lock : server'.lock = server.lock
  work : ∀ other, other ≠ pid → server'.work other = server.work other
  stored : noted = [] ∧ server'.stored = server.stored ∨
    server.lock = some pid ∧ Advances config accepts server.stored noted server'.stored

variable {server : Server σ} {noted : List MigrationEvent}

theorem Moves.refl (pid : ℕ) (server : Server σ) : Moves config accepts pid server server [] :=
  ⟨rfl, fun _ _ => rfl, Or.inl ⟨rfl, rfl⟩⟩

theorem moves_setWork (pid : ℕ) (server : Server σ) (work : Option (Work σ)) :
    Moves config accepts pid server (server.setWork pid work) [] :=
  ⟨rfl, fun _ hother => Function.update_of_ne hother _ _, Or.inl ⟨rfl, rfl⟩⟩

theorem Moves.migrations (h : Moves config accepts pid w.current server []) :
    server.migrations = w.current.migrations := by
  rcases h.stored with ⟨-, hsame⟩ | ⟨-, hstep⟩
  · exact congrArg Stored.migrations hsame
  · rcases hstep.migrations_eq with ⟨-, hsame⟩ | ⟨event, hnoted, -⟩
    · exact hsame
    · exact absurd hnoted (List.cons_ne_nil _ _).symm

theorem Moves.grows (h : Moves config accepts pid w.current server noted) :
    Grows w (w.advance pid server noted) := by
  intro row hrow
  change row ∈ server.stored.migrations
  rcases h.stored with ⟨-, hsame⟩ | ⟨-, hstep⟩
  · rw [hsame]
    exact hrow
  · rcases hstep.migrations_eq with ⟨-, hsame⟩ | ⟨event, -, hnew, -⟩
    · rw [hsame]
      exact hrow
    · rw [hnew]
      exact List.mem_append_left _ hrow

theorem Moves.invariant (h : Moves config accepts pid w.current server noted)
    (hinv : LedgerInvariant config accepts initial w) :
    LedgerInvariant config accepts initial (w.advance pid server noted) := by
  have hlog : (w.advance pid server noted).log.map Prod.snd = noted ++ w.log.map Prod.snd := by
    rw [Chronicle.advance_log, List.map_append, stamp, List.map_map]
    congr 1
    exact List.map_id noted
  unfold LedgerInvariant
  rw [hlog]
  rcases h.stored with ⟨rfl, hsame⟩ | ⟨-, hstep⟩
  · rw [Chronicle.advance_current, hsame]
    exact hinv
  · exact hinv.advance hstep

theorem Moves.keeps (h : Moves config accepts pid w.current server noted) (hother : other ≠ pid) :
    Keeps other w (w.advance pid server noted) where
  own := own_stamp_append_other hother
  work := h.work other hother
  grows := h.grows
  locked hlock := by
    refine ⟨h.lock.trans hlock, ?_⟩
    rcases h.stored with ⟨-, hsame⟩ | ⟨hpid, -⟩
    · exact hsame
    · exact absurd (Option.some.inj (hlock.symm.trans hpid)) hother

/-- A step of which nothing is noted. -/
theorem Moves.guarantee (h : Moves config accepts pid w.current server []) :
    (ledgerLogic config accepts initial).guarantee directory pid w (w.advance pid server []) :=
  ⟨fun _ hother => h.keeps hother, h.grows, fun hprogress => hprogress.keeps rfl h.grows⟩

/-- A statement of a session, of which nothing is noted. -/
theorem holds_query {α : Type} {call : ℕ → Query σ α} {returns : α → MigrationWorld σ → Prop}
    (assertion : MigrationWorld σ → Prop)
    (hstable : (ledgerLogic config accepts initial).Stable pid assertion) (hassertion : assertion w)
    (hreturns : ∀ value, (ledgerLogic config accepts initial).Stable pid (returns value))
    (hcall : ∀ before value server, assertion before →
      call pid before.current = .ok (value, server) →
        Moves config accepts pid before.current server [] ∧
          returns value (before.advance pid server [])) :
    (ledgerLogic config accepts initial).Holds directory pid (query call) returns
      (fun _ _ => True) w := by
  apply Chronicle.holds_statement assertion (hstable.later hassertion)
  · intro before value server hbefore hinv hok
    obtain ⟨hmoves, hvalue⟩ := hcall before value server hbefore hok
    exact ⟨hmoves.invariant hinv, hmoves.guarantee, (hreturns value).later hvalue,
      fun _ _ _ _ => trivial⟩
  · exact fun _ _ _ _ _ _ _ => trivial

/-! ### What a call knows -/

/-- The call holds the lock and has come so far. -/
structure At (config : MigrationConfig σ) (directory : Directory) (pid : ℕ) (done rest : List Text)
    (w : MigrationWorld σ) : Prop extends Passed config directory pid done w where
  lock : w.current.lock = some pid
  files : directory.sqlFiles = done ++ rest

/-- The table does not name the next file. -/
structure Pending (config : MigrationConfig σ) (directory : Directory) (pid : ℕ) (done : List Text)
    (file sql : Text) (rest : List Text) (w : MigrationWorld σ) : Prop
    extends At config directory pid done (file :: rest) w where
  read : directory.read file = some sql
  unrecorded : ∀ row ∈ w.current.migrations, row.name ≠ file

/-- The transaction of the next file has done so much. -/
structure Working (config : MigrationConfig σ) (directory : Directory) (pid : ℕ) (done : List Text)
    (file sql : Text) (rest : List Text) (makes : Catalog σ → Option (Catalog σ))
    (rows : List MigrationRow) (executed : List (Text × Text)) (w : MigrationWorld σ) : Prop
    extends Pending config directory pid done file sql rest w where
  work : ∃ catalog, w.current.work pid = some ⟨catalog, rows, executed⟩ ∧
    makes w.current.catalog = some catalog

/-- The name of the index of the next file stands for something of a kind. -/
structure Indexing (config : MigrationConfig σ) (directory : Directory) (pid : ℕ) (done : List Text)
    (file sql : Text) (rest : List Text) (name : Text) (kind : Option Relation → Prop)
    (w : MigrationWorld σ) : Prop extends Pending config directory pid done file sql rest w where
  relation : kind (w.current.catalog.relations name)

variable {makes : Catalog σ → Option (Catalog σ)} {rows : List MigrationRow}
  {executed : List (Text × Text)} {kind : Option Relation → Prop}

theorem isRecorded_eq_false {server : Server σ} :
    server.isRecorded file = false ↔ ∀ row ∈ server.migrations, row.name ≠ file := by
  simp [Server.isRecorded]

theorem Pending.next (h : Pending config directory pid done file sql rest w) :
    Next config directory w.current.stored.migrations done file sql rest :=
  ⟨h.files, h.read, h.recorded, h.unrecorded⟩

theorem stable_at :
    (ledgerLogic config accepts initial).Stable pid (At config directory pid done rest) := by
  intro w w' hkeeps _ h
  exact ⟨h.toPassed.keeps hkeeps.own hkeeps.grows, (hkeeps.locked h.lock).1, h.files⟩

theorem stable_pending : (ledgerLogic config accepts initial).Stable pid
    (Pending config directory pid done file sql rest) := by
  intro w w' hkeeps hinv h
  have hmigrations : w'.current.migrations = w.current.migrations :=
    congrArg Stored.migrations (hkeeps.locked h.lock).2
  refine ⟨stable_at hkeeps hinv h.toAt, h.read, ?_⟩
  rw [hmigrations]
  exact h.unrecorded

theorem stable_working : (ledgerLogic config accepts initial).Stable pid
    (Working config directory pid done file sql rest makes rows executed) := by
  intro w w' hkeeps hinv h
  have hcatalog : w'.current.catalog = w.current.catalog :=
    congrArg Stored.catalog (hkeeps.locked h.lock).2
  refine ⟨stable_pending hkeeps hinv h.toPending, ?_⟩
  rw [hkeeps.work, hcatalog]
  exact h.work

theorem stable_indexing : (ledgerLogic config accepts initial).Stable pid
    (Indexing config directory pid done file sql rest name kind) := by
  intro w w' hkeeps hinv h
  have hcatalog : w'.current.catalog = w.current.catalog :=
    congrArg Stored.catalog (hkeeps.locked h.lock).2
  refine ⟨stable_pending hkeeps hinv h.toPending, ?_⟩
  rw [hcatalog]
  exact h.relation

theorem At.moves (h : At config directory pid done rest w)
    (hmoves : Moves config accepts pid w.current server []) :
    At config directory pid done rest (w.advance pid server []) where
  toPassed := h.toPassed.keeps rfl hmoves.grows
  lock := hmoves.lock.trans h.lock
  files := h.files

theorem Pending.moves (h : Pending config directory pid done file sql rest w)
    (hmoves : Moves config accepts pid w.current server []) :
    Pending config directory pid done file sql rest (w.advance pid server []) where
  toAt := h.toAt.moves hmoves
  read := h.read
  unrecorded := by
    rw [Chronicle.advance_current, hmoves.migrations]
    exact h.unrecorded

theorem Pending.setWork (h : Pending config directory pid done file sql rest w)
    (work : Option (Work σ)) :
    Pending config directory pid done file sql rest
      (w.advance pid (w.current.setWork pid work) []) := by
  have hmoves : Moves config (fun _ => True) pid w.current (w.current.setWork pid work) [] :=
    moves_setWork pid w.current work
  exact h.moves hmoves

/-! ### The row of a file is written -/

theorem Passed.record (h : Passed config directory pid done w) {event : MigrationEvent}
    (hread : directory.read event.file = some event.sql)
    (hmigrations : server.migrations = w.current.migrations ++ [event.row config]) :
    Passed config directory pid (done ++ [event.file]) (w.advance pid server [event]) := by
  have hgrows : Grows w (w.advance pid server [event]) := by
    intro row hrow
    rw [Chronicle.advance_current, hmigrations]
    exact List.mem_append_left _ hrow
  have hown : own pid (w.advance pid server [event]).log = event :: own pid w.log := by
    rw [Chronicle.advance_log, own_stamp_append_self]
    rfl
  constructor
  · intro file hfile
    rcases List.mem_append.1 hfile with hbefore | hnow
    · exact (h.recorded file hbefore).grows hgrows
    · obtain rfl := List.mem_singleton.1 hnow
      refine ⟨event.sql, hread, ?_⟩
      rw [Chronicle.advance_current, hmigrations]
      exact List.mem_append_right _ (List.mem_singleton_self _)
  · rw [hown, List.reverse_cons, List.map_append]
    exact h.order.append (List.Sublist.refl _)
  · intro noted hmem
    rw [hown] at hmem
    rcases List.mem_cons.1 hmem with rfl | hbefore
    · exact hread
    · exact h.texts noted hbefore

/-- The step after which the table names the next file. -/
theorem Pending.record {event : MigrationEvent}
    (h : Pending config directory pid done event.file event.sql rest w)
    (hinv : LedgerInvariant config accepts initial w) (server : Server σ)
    (hstep : Advances config accepts w.current.stored [event] server.stored)
    (hlock : server.lock = w.current.lock)
    (hwork : ∀ other, other ≠ pid → server.work other = w.current.work other) :
    LedgerInvariant config accepts initial (w.advance pid server [event]) ∧
      (ledgerLogic config accepts initial).guarantee directory pid w
        (w.advance pid server [event]) ∧
      At config directory pid (done ++ [event.file]) rest (w.advance pid server [event]) := by
  have hmoves : Moves config accepts pid w.current server [event] :=
    ⟨hlock, hwork, Or.inr ⟨h.lock, hstep⟩⟩
  have hmigrations : server.migrations = w.current.migrations ++ [event.row config] := by
    rcases hstep.migrations_eq with ⟨hnone, -⟩ | ⟨noted, hnoted, hnew, -⟩
    · exact absurd hnone (List.cons_ne_nil _ _)
    · obtain rfl := List.singleton_inj.1 hnoted
      exact hnew
  have hpassed := h.toPassed.record h.read hmigrations
  have hfiles : directory.sqlFiles = (done ++ [event.file]) ++ rest := by
    rw [h.files, List.append_assoc]
    rfl
  exact ⟨hmoves.invariant hinv, ⟨fun _ hother => hmoves.keeps hother, hmoves.grows,
    fun _ => ⟨_, rest, hfiles, hpassed⟩⟩, hpassed, hlock.trans h.lock, hfiles⟩

/-! ### A file that is executed in a transaction -/

theorem holds_rollback {error : MigrationFailure} {returns : Unit → MigrationWorld σ → Prop} :
    (ledgerLogic config accepts initial).Holds directory pid
      (do
        query rollback
        throw error)
      returns (fun _ _ => True) w := by
  have hrollback : (ledgerLogic config accepts initial).Holds directory pid (query rollback)
      (fun _ _ => True) (fun _ _ => True) w := by
    apply holds_query (fun _ => True) (fun _ _ _ _ _ => trivial) trivial
      (fun _ _ _ _ _ _ => trivial)
    intro before value server _ hok
    obtain ⟨-, rfl⟩ := Prod.mk.inj (Except.ok.inj hok)
    exact ⟨moves_setWork pid before.current none, trivial⟩
  apply hrollback.next (fun _ _ _ _ => trivial)
  exact fun _ _ _ _ => Logic.holds_throw fun _ _ _ => trivial

theorem holds_applyInTransaction {executableSql : Text} (haccepts : accepts directory)
    (hasks : IsTransactional sql executableSql)
    (h : Pending config directory pid done file sql rest w) :
    (ledgerLogic config accepts initial).Holds directory pid
      (applyInTransaction config file sql executableSql)
      (fun _ => At config directory pid (done ++ [file]) rest) (fun _ _ => True) w := by
  unfold applyInTransaction
  have hbegin : (ledgerLogic config accepts initial).Holds directory pid (query begin)
      (fun _ => Working config directory pid done file sql rest some [] []) (fun _ _ => True) w := by
    apply holds_query _ stable_pending h (fun _ => stable_working)
    intro before value server hbefore hok
    obtain ⟨-, rfl⟩ := Prod.mk.inj (Except.ok.inj hok)
    exact ⟨moves_setWork pid before.current _, hbefore.setWork _, _, Function.update_self _ _ _, rfl⟩
  apply hbegin.next (fun _ _ _ _ => trivial)
  intro _ w _ hbegun
  apply Logic.Holds.tryCatch
  refine Logic.Holds.mono ?_ (fun _ _ _ h => h) fun failure w _ (_ : True) => holds_rollback
  -- The text of the file.
  have hexecute : (ledgerLogic config accepts initial).Holds directory pid
      (query (execute config.run file sql executableSql))
      (fun _ => Working config directory pid done file sql rest (config.run executableSql) []
        [(file, sql)]) (fun _ _ => True) w := by
    apply holds_query _ stable_working hbegun (fun _ => stable_working)
    intro before value server hbefore hok
    obtain ⟨catalog, hwork, hmade⟩ := hbefore.work
    obtain rfl := Option.some.inj hmade
    simp only [execute, hwork] at hok
    split at hok
    · cases hok
    next catalog hrun =>
      obtain ⟨-, rfl⟩ := Prod.mk.inj (Except.ok.inj hok)
      exact ⟨moves_setWork pid before.current _, hbefore.toPending.setWork _, _,
        Function.update_self _ _ _, hrun⟩
  apply hexecute.next (fun _ _ _ _ => trivial)
  intro _ w _ hexecuted
  -- The row of the file.
  have hinsert : (ledgerLogic config accepts initial).Holds directory pid
      (query (insertInTransaction (migrationRow config file sql)))
      (fun _ => Working config directory pid done file sql rest (config.run executableSql)
        [migrationRow config file sql] [(file, sql)]) (fun _ _ => True) w := by
    apply holds_query _ stable_working hexecuted (fun _ => stable_working)
    intro before value server hbefore hok
    obtain ⟨catalog, hwork, hmade⟩ := hbefore.work
    simp only [insertInTransaction, hwork] at hok
    split at hok
    · cases hok
    · obtain ⟨-, rfl⟩ := Prod.mk.inj (Except.ok.inj hok)
      exact ⟨moves_setWork pid before.current _, hbefore.toPending.setWork _, _,
        Function.update_self _ _ _, hmade⟩
  apply hinsert.next (fun _ _ _ _ => trivial)
  intro _ w _ hinserted
  -- Both take effect.
  have hcommit : (ledgerLogic config accepts initial).Holds directory pid
      (Chronicle.statement commit fun files _ _ =>
        files.map fun file => MigrationEvent.executed file.1 file.2)
      (fun _ => At config directory pid (done ++ [file]) rest) (fun _ _ => True) w := by
    apply Chronicle.holds_statement _ (stable_working.later hinserted)
    · intro before value server hbefore hinv hok
      obtain ⟨catalog, hwork, hmade⟩ := hbefore.work
      simp only [commit, hwork] at hok
      obtain ⟨rfl, rfl⟩ := Prod.mk.inj (Except.ok.inj hok)
      have hpending : Pending config directory pid done (MigrationEvent.executed file sql).file
          (MigrationEvent.executed file sql).sql rest before := hbefore.toPending
      obtain ⟨hafter, hguarantee, hat⟩ := hpending.record hinv
        (Server.setWork { before.current with
          catalog := catalog
          migrations := before.current.migrations ++ [migrationRow config file sql] } pid none)
        (.execute haccepts hbefore.toPending.next hasks hmade) rfl
        (fun _ hother => Function.update_of_ne hother _ _)
      exact ⟨hafter, hguarantee, stable_at.later hat, fun _ _ _ _ => trivial⟩
    · exact fun _ _ _ _ _ _ _ => trivial
  apply hcommit.next (fun _ _ _ _ => trivial)
  exact fun _ w _ hat => Logic.holds_pure (stable_at.later hat)

/-! ### A file that creates an index -/

/-- Nothing happens, or something is done to the index with a name. -/
def TouchesIndex (name : Text) (server server' : Server σ) : Prop :=
  server' = server ∨ ∃ relation, server.catalog.relations name ≠ some .other ∧
    relation ≠ some .other ∧ server' = server.setRelation name relation

theorem map_index_ne_other (state : Option IndexState) :
    state.map Relation.index ≠ some .other := by
  cases state <;> simp

theorem alterIndex_ok {alter : IndexState → Option IndexState} {value : Unit}
    {server server' : Server σ} (h : alterIndex name alter server = .ok (value, server')) :
    ∃ state, server.catalog.relations name = some (.index state) ∧
      server' = server.setRelation name ((alter state).map .index) := by
  unfold alterIndex at h
  split at h
  · cases h
  next state hstate =>
    obtain ⟨-, rfl⟩ := Prod.mk.inj (Except.ok.inj h)
    exact ⟨state, indexState_eq_some.1 hstate, rfl⟩

theorem touchesIndex_alterIndex {alter : IndexState → Option IndexState} {value : Unit}
    {server server' : Server σ} (h : alterIndex name alter server = .ok (value, server')) :
    TouchesIndex name server server' := by
  obtain ⟨state, hstate, rfl⟩ := alterIndex_ok h
  refine Or.inr ⟨_, ?_, map_index_ne_other _, rfl⟩
  rw [hstate]
  simp

theorem touchesIndex_registerIndex {ready value : Bool} {server server' : Server σ}
    (h : registerIndex name ready server = .ok (value, server')) :
    TouchesIndex name server server' := by
  unfold registerIndex at h
  split at h
  · obtain ⟨-, rfl⟩ := Prod.mk.inj (Except.ok.inj h)
    exact Or.inl rfl
  next hnone =>
    obtain ⟨-, rfl⟩ := Prod.mk.inj (Except.ok.inj h)
    refine Or.inr ⟨_, ?_, by simp, rfl⟩
    rw [hnone]
    simp

section Index

variable (haccepts : accepts directory) (hasks : IsConcurrent sql name)

include haccepts hasks

theorem Pending.touches (h : Pending config directory pid done file sql rest w)
    (htouches : TouchesIndex name w.current server) :
    Moves config accepts pid w.current server [] := by
  rcases htouches with rfl | ⟨relation, hbefore, hafter, rfl⟩
  · exact Moves.refl pid _
  · exact ⟨rfl, fun _ _ => rfl, Or.inr ⟨h.lock, .alter haccepts h.next hasks hbefore hafter⟩⟩

/-- A statement on the index of the next file. -/
theorem holds_indexQuery {α : Type} {call : Query σ α} {returned : α → Option Relation → Prop}
    (h : Indexing config directory pid done file sql rest name kind w)
    (htouches : ∀ server value server', call server = .ok (value, server') →
      TouchesIndex name server server')
    (hreturned : ∀ server value server', kind (server.catalog.relations name) →
      call server = .ok (value, server') → returned value (server'.catalog.relations name)) :
    (ledgerLogic config accepts initial).Holds directory pid (query fun _ => call)
      (fun value => Indexing config directory pid done file sql rest name (returned value))
      (fun _ _ => True) w := by
  apply holds_query _ stable_indexing h (fun _ => stable_indexing)
  intro before value server hbefore hok
  have hmoves := hbefore.toPending.touches haccepts hasks (htouches _ _ _ hok)
  exact ⟨hmoves, hbefore.toPending.moves hmoves, hreturned _ _ _ hbefore.relation hok⟩

/-- The state of the index is read. -/
theorem holds_concurrentIndexState
    (h : Indexing config directory pid done file sql rest name kind w) :
    (ledgerLogic config accepts initial).Holds directory pid
      (query fun _ => concurrentIndexState name)
      (fun found => Indexing config directory pid done file sql rest name fun relation =>
        kind relation ∧ ∀ state, found = some state → relation = some (.index state))
      (fun _ _ => True) w := by
  apply holds_indexQuery haccepts hasks h
  · intro server value server' hok
    exact Or.inl (Prod.mk.inj (Except.ok.inj hok)).2.symm
  · intro server value server' hkind hok
    obtain ⟨rfl, rfl⟩ := Prod.mk.inj (Except.ok.inj hok)
    exact ⟨hkind, fun state hstate => indexState_eq_some.1 hstate⟩

theorem holds_executeConcurrentIndex
    (h : Indexing config directory pid done file sql rest name (fun _ => True) w) :
    (ledgerLogic config accepts initial).Holds directory pid (executeConcurrentIndex name)
      (fun _ => Indexing config directory pid done file sql rest name fun _ => True)
      (fun _ _ => True) w := by
  have hready : (ledgerLogic config accepts initial).Holds directory pid (Prog.anything Bool)
      (fun _ => Indexing config directory pid done file sql rest name fun _ => True)
      (fun _ _ => True) w := Logic.holds_anything fun _ => stable_indexing.later h
  apply hready.next (fun _ _ _ _ => trivial)
  intro ready w _ h
  have hregister : (ledgerLogic config accepts initial).Holds directory pid
      (query fun _ => registerIndex name ready)
      (fun _ => Indexing config directory pid done file sql rest name fun _ => True)
      (fun _ _ => True) w :=
    holds_indexQuery haccepts hasks h (fun _ _ _ => touchesIndex_registerIndex)
      fun _ _ _ _ _ => trivial
  apply hregister.next (fun _ _ _ _ => trivial)
  intro registered w _ h
  split
  · exact holds_indexQuery haccepts hasks h (fun _ _ _ => touchesIndex_alterIndex)
      fun _ _ _ _ _ => trivial
  · exact Logic.holds_pure (stable_indexing.later h)

theorem holds_dropIndexConcurrently
    (h : Indexing config directory pid done file sql rest name (fun _ => True) w) :
    (ledgerLogic config accepts initial).Holds directory pid (dropIndexConcurrently name)
      (fun _ => Indexing config directory pid done file sql rest name fun _ => True)
      (fun _ _ => True) w := by
  have hready : (ledgerLogic config accepts initial).Holds directory pid (Prog.anything Bool)
      (fun _ => Indexing config directory pid done file sql rest name fun _ => True)
      (fun _ _ => True) w := Logic.holds_anything fun _ => stable_indexing.later h
  apply hready.next (fun _ _ _ _ => trivial)
  intro ready w _ h
  have hinvalidate : (ledgerLogic config accepts initial).Holds directory pid
      (query fun _ => invalidateIndex name ready)
      (fun _ => Indexing config directory pid done file sql rest name fun _ => True)
      (fun _ _ => True) w :=
    holds_indexQuery haccepts hasks h (fun _ _ _ => touchesIndex_alterIndex)
      fun _ _ _ _ _ => trivial
  apply hinvalidate.next (fun _ _ _ _ => trivial)
  intro _ w _ h
  exact holds_indexQuery haccepts hasks h (fun _ _ _ => touchesIndex_alterIndex)
    fun _ _ _ _ _ => trivial

/-- An index that is left as it is is the finished one of the file. -/
theorem holds_prepareConcurrentIndexTarget {marker : Text}
    (h : Indexing config directory pid done file sql rest name (fun _ => True) w) :
    (ledgerLogic config accepts initial).Holds directory pid
      (prepareConcurrentIndexTarget name marker)
      (fun executed => Indexing config directory pid done file sql rest name fun relation =>
        executed = true → relation = some (markedIndex marker)) (fun _ _ => True) w := by
  unfold prepareConcurrentIndexTarget
  apply (holds_concurrentIndexState haccepts hasks h).next (fun _ _ _ _ => trivial)
  intro found w _ hfound
  cases found with
  | none =>
      apply Logic.holds_pure
      exact stable_indexing.later ⟨hfound.toPending, fun hexecuted => absurd hexecuted (by decide)⟩
  | some state =>
      dsimp only
      split
      next hgood =>
        split
        · exact Logic.holds_throw fun _ _ _ => trivial
        next hmarker =>
          obtain ⟨valid, ready, marker'⟩ := state
          obtain ⟨rfl, rfl⟩ := hgood
          obtain rfl := not_not.1 hmarker
          exact Logic.holds_pure
            (stable_indexing.later ⟨hfound.toPending, fun _ => hfound.relation.2 _ rfl⟩)
      · apply (holds_dropIndexConcurrently haccepts hasks ⟨hfound.toPending, trivial⟩).next
          (fun _ _ _ _ => trivial)
        intro _ w _ hdropped
        apply Logic.holds_pure
        exact stable_indexing.later
          ⟨hdropped.toPending, fun hexecuted => absurd hexecuted (by decide)⟩

/-- Whatever the name stood for, now it is the finished index of the file. -/
theorem holds_markConcurrentIndexReady {marker : Text}
    (h : Indexing config directory pid done file sql rest name (fun _ => True) w) :
    (ledgerLogic config accepts initial).Holds directory pid (markConcurrentIndexReady name marker)
      (fun _ => Indexing config directory pid done file sql rest name fun relation =>
        relation = some (markedIndex marker)) (fun _ _ => True) w := by
  unfold markConcurrentIndexReady
  apply (holds_concurrentIndexState haccepts hasks h).next (fun _ _ _ _ => trivial)
  intro found w _ hfound
  split
  · exact Logic.holds_throw fun _ _ _ => trivial
  next hgood =>
    obtain ⟨state, rfl, hstate⟩ := Option.any_eq_true _ _ |>.1 (not_not.1 hgood)
    obtain ⟨valid, ready, marker'⟩ := state
    obtain ⟨rfl, rfl⟩ := of_decide_eq_true hstate
    have hcomment : (ledgerLogic config accepts initial).Holds directory pid
        (query fun _ => commentOnIndex name marker)
        (fun _ => Indexing config directory pid done file sql rest name fun relation =>
          relation = some (markedIndex marker)) (fun _ _ => True) w := by
      apply holds_indexQuery haccepts hasks hfound (fun _ _ _ => touchesIndex_alterIndex)
      intro server value server' hkind hok
      obtain ⟨state', hstate', rfl⟩ := alterIndex_ok hok
      have hsame := (hkind.2 _ rfl).symm.trans hstate'
      obtain rfl := Relation.index.inj (Option.some.inj hsame)
      exact setRelation_relations server _
    apply hcomment.next (fun _ _ _ _ => trivial)
    intro _ w _ hcommented
    apply (holds_concurrentIndexState haccepts hasks hcommented).next (fun _ _ _ _ => trivial)
    intro marked w _ hmarked
    split
    · exact Logic.holds_throw fun _ _ _ => trivial
    · exact Logic.holds_pure (stable_indexing.later ⟨hmarked.toPending, hmarked.relation.1⟩)

theorem holds_insertMigration
    (h : Indexing config directory pid done file sql rest name
      (fun relation => relation = some (fileIndex config file sql)) w) :
    (ledgerLogic config accepts initial).Holds directory pid
      (Chronicle.statement (fun _ => insertMigration (migrationRow config file sql))
        fun _ _ _ => [MigrationEvent.indexed file sql])
      (fun _ => At config directory pid (done ++ [file]) rest) (fun _ _ => True) w := by
  apply Chronicle.holds_statement _ (stable_indexing.later h)
  · intro before value server hbefore hinv hok
    unfold insertMigration at hok
    split at hok
    · cases hok
    · obtain ⟨-, rfl⟩ := Prod.mk.inj (Except.ok.inj hok)
      have hpending : Pending config directory pid done (MigrationEvent.indexed file sql).file
          (MigrationEvent.indexed file sql).sql rest before := hbefore.toPending
      obtain ⟨hafter, hguarantee, hat⟩ := hpending.record hinv
        { before.current with
          migrations := before.current.migrations ++ [migrationRow config file sql] }
        (.index haccepts hbefore.toPending.next hasks hbefore.relation) rfl fun _ _ => rfl
      exact ⟨hafter, hguarantee, stable_at.later hat, fun _ _ _ _ => trivial⟩
  · exact fun _ _ _ _ _ _ _ => trivial

theorem holds_applyConcurrentIndex (h : Pending config directory pid done file sql rest w) :
    (ledgerLogic config accepts initial).Holds directory pid
      (applyConcurrentIndex config file sql name)
      (fun _ => At config directory pid (done ++ [file]) rest) (fun _ _ => True) w := by
  unfold applyConcurrentIndex
  apply (holds_prepareConcurrentIndexTarget haccepts hasks ⟨h, trivial⟩).next
    (fun _ _ _ _ => trivial)
  intro alreadyExecuted w _ hprepared
  split
  · apply (holds_executeConcurrentIndex haccepts hasks ⟨hprepared.toPending, trivial⟩).next
      (fun _ _ _ _ => trivial)
    intro _ w _ hcreated
    apply (holds_markConcurrentIndexReady haccepts hasks hcreated).next (fun _ _ _ _ => trivial)
    exact fun _ w _ hmarked => holds_insertMigration haccepts hasks hmarked
  next hexecuted =>
    exact holds_insertMigration haccepts hasks
      ⟨hprepared.toPending, hprepared.relation (not_not.1 hexecuted)⟩

end Index

/-! ### The loop -/

/-- What the call reads of the table about the next file. -/
theorem holds_findMigration (h : At config directory pid done (file :: rest) w) :
    (ledgerLogic config accepts initial).Holds directory pid (query fun _ => findMigration file)
      (fun applied w => At config directory pid done (file :: rest) w ∧
        match applied with
        | some row => row ∈ w.current.migrations ∧ row.name = file
        | none => ∀ row ∈ w.current.migrations, row.name ≠ file) (fun _ _ => True) w := by
  apply holds_query _ stable_at h
  · rintro applied w w' hkeeps hinv ⟨hat, hfound⟩
    refine ⟨stable_at hkeeps hinv hat, ?_⟩
    have hmigrations : w'.current.migrations = w.current.migrations :=
      congrArg Stored.migrations (hkeeps.locked hat.lock).2
    rw [hmigrations]
    exact hfound
  · intro before applied server hbefore hok
    obtain ⟨rfl, rfl⟩ := Prod.mk.inj (Except.ok.inj hok)
    have hmoves : Moves config accepts pid before.current before.current [] := Moves.refl _ _
    refine ⟨hmoves, hbefore.moves hmoves, ?_⟩
    cases hfind : before.current.migrations.find? (·.name = file) with
    | some row =>
        have hname : row.name = file := by simpa using List.find?_some hfind
        exact ⟨List.mem_of_find?_eq_some hfind, hname⟩
    | none =>
        intro row hrow hname
        exact List.find?_eq_none.1 hfind row hrow (decide_eq_true hname)

/-- One round of the loop goes past a file only with the file in the table. -/
theorem holds_applyFile (haccepts : accepts directory)
    (h : At config directory pid done (file :: rest) w) :
    (ledgerLogic config accepts initial).Holds directory pid (applyFile config directory file)
      (fun _ => At config directory pid (done ++ [file]) rest) (fun _ _ => True) w := by
  unfold applyFile
  cases hread : directory.read file with
  | none => exact Logic.holds_throw fun _ _ _ => trivial
  | some sql =>
      dsimp only
      cases hparse : parseMigration sql with
      | error error => exact Logic.holds_throw fun _ _ _ => trivial
      | ok migration =>
          apply (holds_findMigration h).next (fun _ _ _ _ => trivial)
          rintro applied w - ⟨hat, hfound⟩
          obtain ⟨executableSql, mode⟩ := migration
          cases applied with
          | some row =>
              dsimp only
              split
              · exact Logic.holds_throw fun _ _ _ => trivial
              · next hchecksum =>
                obtain ⟨hrow, hname⟩ := hfound
                have hsame : migrationRow config file sql = row := by
                  rw [migrationRow, ← hname, ← not_not.1 hchecksum]
                apply Logic.holds_pure
                apply stable_at.later
                refine ⟨⟨?_, ?_, hat.texts⟩, hat.lock, ?_⟩
                · intro other hother
                  rcases List.mem_append.1 hother with hbefore | hnow
                  · exact hat.recorded other hbefore
                  · obtain rfl := List.mem_singleton.1 hnow
                    exact ⟨sql, hread, hsame ▸ hrow⟩
                · exact hat.order.trans (List.sublist_append_left _ _)
                · rw [hat.files, List.append_assoc]
                  rfl
          | none =>
              have hpending : Pending config directory pid done file sql rest w :=
                ⟨hat, hread, hfound⟩
              cases mode with
              | transactional => exact holds_applyInTransaction haccepts hparse hpending
              | concurrentIndex name =>
                  exact holds_applyConcurrentIndex haccepts ⟨executableSql, hparse⟩ hpending

theorem holds_applyFiles (haccepts : accepts directory)
    (h : At config directory pid done rest w) :
    (ledgerLogic config accepts initial).Holds directory pid (applyFiles config directory rest)
      (fun _ => At config directory pid directory.sqlFiles []) (fun _ _ => True) w := by
  induction rest generalizing done w with
  | nil =>
      have hall : directory.sqlFiles = done := by
        rw [h.files, List.append_nil]
      rw [hall]
      exact Logic.holds_pure (stable_at.later h)
  | cons file rest ih =>
      apply (holds_applyFile haccepts h).next (fun _ _ _ _ => trivial)
      exact fun _ w _ hat => ih hat

/-- A step on the lock. -/
theorem LedgerInvariant.lock (h : LedgerInvariant config accepts initial w) (lock : Option ℕ) :
    LedgerInvariant config accepts initial
      (w.advance pid { w.current with lock := lock } []) := h

/-- The lock is given back. -/
theorem holds_unlock {assertion : MigrationWorld σ → Prop}
    (hstable : (ledgerLogic config accepts initial).Stable pid assertion)
    (hkept : ∀ before server, server.migrations = before.current.migrations → assertion before →
      assertion (before.advance pid server [])) (h : assertion w) :
    (ledgerLogic config accepts initial).Holds directory pid (query unlock) (fun _ => assertion)
      (fun _ _ => True) w := by
  apply Chronicle.holds_statement _ (hstable.later h)
  · intro before value server hbefore hinv hok
    obtain ⟨-, rfl⟩ := Prod.mk.inj (Except.ok.inj hok)
    refine ⟨hinv.lock _, ⟨fun other hother => ?_, fun _ hrow => hrow, ?_⟩, ?_,
      fun _ _ _ _ => trivial⟩
    · refine ⟨rfl, rfl, fun _ hrow => hrow, fun hlock => ⟨?_, rfl⟩⟩
      have hother' : before.current.lock ≠ some pid := by
        rw [hlock]
        exact fun hsame => hother (Option.some.inj hsame)
      exact (if_neg hother').trans hlock
    · exact fun hprogress => hprogress.keeps rfl fun _ hrow => hrow
    · exact hstable.later (hkept before _ rfl hbefore)
  · exact fun _ _ _ _ _ _ _ => trivial

theorem holds_locks (hfresh : own pid w.log = []) :
    (ledgerLogic config accepts initial).Holds directory pid (.attempt Locks)
      (fun _ => At config directory pid [] directory.sqlFiles) (fun _ _ => True) w := by
  have hstable : (ledgerLogic config accepts initial).Stable pid fun w => own pid w.log = [] :=
    fun _ _ hkeeps _ hown => hkeeps.own.trans hown
  apply Logic.holds_attempt _ (hstable.later hfresh)
  intro before reply after hown hinv hact _
  cases hact with
  | locked free =>
      have hgrows : Grows before (before.advance pid { before.current with lock := some pid } []) :=
        fun _ hrow => hrow
      refine ⟨hinv.lock _, ⟨fun other hother => ?_, hgrows,
        fun hprogress => hprogress.keeps rfl hgrows⟩, stable_at.later ?_⟩
      · refine ⟨rfl, rfl, hgrows, fun hlock => ?_⟩
        rw [free] at hlock
        cases hlock
      · refine ⟨⟨fun _ hfile => absurd hfile List.not_mem_nil, ?_, ?_⟩, rfl, rfl⟩
        · rw [Chronicle.advance_log, stamp_nil, List.nil_append, hown]
          exact List.Sublist.refl _
        · intro event hevent
          rw [Chronicle.advance_log, stamp_nil, List.nil_append, hown] at hevent
          exact absurd hevent List.not_mem_nil
  | unreachable failure =>
      exact ⟨hinv, (ledgerLogic config accepts initial).guarantee_refl _ _ _, fun _ _ _ => trivial⟩

/-- The whole call. -/
theorem holds_runMigrations (haccepts : accepts directory) (hfresh : own pid w.log = []) :
    (ledgerLogic config accepts initial).Holds directory pid (runMigrations config directory)
      (fun _ w => ∀ file ∈ directory.sqlFiles, Recorded config directory w.current.migrations file)
      (fun _ _ => True) w := by
  unfold runMigrations
  apply (holds_locks hfresh).next (fun _ _ _ _ => trivial)
  intro _ w _ hlocked
  have hbody : (ledgerLogic config accepts initial).Holds directory pid
      (tryCatch
        (do
          query fun _ => createMigrations
          applyFiles config directory directory.sqlFiles)
        fun error => do
          query unlock
          throw error)
      (fun _ => At config directory pid directory.sqlFiles []) (fun _ _ => True) w := by
    apply Logic.Holds.tryCatch
    have happlied : (ledgerLogic config accepts initial).Holds directory pid
        (do
          query fun _ => createMigrations
          applyFiles config directory directory.sqlFiles)
        (fun _ => At config directory pid directory.sqlFiles []) (fun _ _ => True) w := by
      have hcreate : (ledgerLogic config accepts initial).Holds directory pid
          (query fun _ => createMigrations)
          (fun _ => At config directory pid [] directory.sqlFiles) (fun _ _ => True) w := by
        apply holds_query _ stable_at hlocked (fun _ => stable_at)
        intro before value server hbefore hok
        obtain ⟨-, rfl⟩ := Prod.mk.inj (Except.ok.inj hok)
        have hmoves : Moves config accepts pid before.current before.current [] := Moves.refl _ _
        exact ⟨hmoves, hbefore.moves hmoves⟩
      apply hcreate.next (fun _ _ _ _ => trivial)
      exact fun _ w _ hat => holds_applyFiles haccepts hat
    -- Whatever was thrown, the lock is given back.
    refine happlied.mono (fun _ _ _ hat => hat) fun error w _ _ => ?_
    have hunlock : (ledgerLogic config accepts initial).Holds directory pid (query unlock)
        (fun _ _ => True) (fun _ _ => True) w :=
      holds_unlock (fun _ _ _ _ _ => trivial) (fun _ _ _ _ => trivial) trivial
    apply hunlock.next (fun _ _ _ _ => trivial)
    exact fun _ _ _ _ => Logic.holds_throw fun _ _ _ => trivial
  apply hbody.next (fun _ _ _ _ => trivial)
  intro _ w _ hat
  have hstable : (ledgerLogic config accepts initial).Stable pid fun w =>
      ∀ file ∈ directory.sqlFiles, Recorded config directory w.current.migrations file :=
    fun _ _ hkeeps _ hall file hfile => (hall file hfile).grows hkeeps.grows
  apply holds_unlock hstable _ hat.recorded
  intro before server hmigrations hall file hfile
  rw [Chronicle.advance_current, hmigrations]
  exact hall file hfile

/-! ### Every run -/

theorem ledger_sound :
    (ledgerLogic config accepts initial).Sound (migrationSystem config accepts) where
  accepts haccepts _ := haccepts
  code _ haccepts _ hfresh := holds_runMigrations haccepts hfresh
  environment moves := moves.elim
  rollback := by
    intro before pid hinv
    refine ⟨hinv, fun other hother => ⟨rfl, ?_, fun _ hrow => hrow, fun hlock => ?_⟩⟩
    · exact Function.update_of_ne hother _ _
    · have hother' : before.current.lock ≠ some pid := by
        rw [hlock]
        exact fun hsame => hother (Option.some.inj hsame)
      exact ⟨(if_neg hother').trans hlock, rfl⟩

abbrev MigrationConfiguration (σ : Type) :=
  Config (MigrationWorld σ) Directory MigrationFailure Unit

/-- The runs of any number of calls on accepted directories. -/
def MigrationRun (config : MigrationConfig σ) (accepts : Directory → Prop) (server : Server σ)
    (c : MigrationConfiguration σ) : Prop :=
  Reachable (migrationSystem config accepts) (fun _ _ => True) (.idle (.start server)) c

theorem good_start (server : Server σ) :
    (ledgerLogic config accepts server.stored).Good (.idle (.start server)) := by
  have hstart : LedgerInvariant config accepts server.stored (.start server) := Replays.start
  exact Logic.good_idle hstart fun _ => rfl

theorem MigrationRun.good {c : MigrationConfiguration σ}
    (hrun : MigrationRun config accepts server c) :
    (ledgerLogic config accepts server.stored).Good c :=
  ledger_sound.reachable (good_start server) hrun

/-- How far each call of a run has come. -/
theorem MigrationRun.progress {c : MigrationConfiguration σ}
    (hrun : MigrationRun config accepts server c) :
    Logic.Serves (fun directory pid => Progress config directory pid) c := by
  refine ledger_sound.serves (good_start server) hrun ?_ ?_ ?_ ?_ ?_ ?_
  · exact fun _ _ _ => trivial
  · exact fun _ _ hthread => absurd hthread (by simp [Config.idle])
  · intro directory pid w hfresh
    refine ⟨[], directory.sqlFiles, rfl, fun _ hfile => absurd hfile List.not_mem_nil, ?_, ?_⟩
    · rw [hfresh]
      exact List.Sublist.refl _
    · rw [hfresh]
      exact fun _ hevent => absurd hevent List.not_mem_nil
  · exact fun hguarantee hprogress => hguarantee.2.2 hprogress
  · exact fun hkeeps hprogress => hprogress.keeps hkeeps.own hkeeps.grows
  · exact fun hprogress => hprogress.keeps rfl fun _ hrow => hrow

/-- **The table of migrations.** In every run of any number of calls, on whatever directories,
wherever they fail or stop: what became of the database is what files make of it one after the
other; the table lists exactly what was done, in its order, and nothing twice; every call goes
through its directory in order, and past no file that is not in the table with the text that the
directory has; and a call that returns has gone through all of it. -/
theorem migrations_ledger {c : MigrationConfiguration σ}
    (hrun : MigrationRun config accepts server c) :
    Replays config accepts server.stored (c.state.log.map Prod.snd) c.state.current.stored ∧
    c.state.current.migrations = server.migrations ++
      (c.state.log.map Prod.snd).reverse.map (MigrationEvent.row config) ∧
    (UniqueKey MigrationRow.name server.migrations →
      UniqueKey MigrationRow.name c.state.current.migrations) ∧
    (∀ (pid : ℕ) thread, c.threads[pid]? = some thread →
      Progress config thread.request pid c.state) ∧
    ∀ (pid : ℕ) (directory : Directory), c.threads[pid]? = some ⟨directory, .done ()⟩ →
      ∀ file ∈ directory.sqlFiles, Recorded config directory c.state.current.migrations file := by
  have hreplays : Replays config accepts server.stored (c.state.log.map Prod.snd)
      c.state.current.stored := hrun.good.invariant
  refine ⟨hreplays, hreplays.migrations_eq, hreplays.unique, hrun.progress, ?_⟩
  exact fun pid directory hthread => Logic.Sound.ensures hrun.good hthread

/-- A server that no call has run on. -/
def Server.fresh (catalog : Catalog σ) : Server σ := ⟨catalog, [], none, fun _ => none⟩

def createTokens : Text := "CREATE TABLE tokens (id integer);".toList

def tokensFile : Text := "0001_tokens.sql".toList

/-- The rest of the database is the list of the texts that were executed. -/
def recordingConfig : MigrationConfig (List Text) where
  sha256 text := if text = createTokens then
    "de10dc76228a77d2388c5b27e1bc7003de27b6f0a86c468ccb1f20a2e6da1446".toList else []
  run text catalog := some { catalog with rest := catalog.rest ++ [text] }

def tokensDirectory : Directory where
  files := [(tokensFile, createTokens), ("README.md".toList, [])]
  unique := by
    unfold UniqueKey
    decide

def emptyCatalog : Catalog (List Text) := ⟨fun _ => none, []⟩

def tokensDone : MigrationWorld (List Text) where
  current := { Server.fresh emptyCatalog with
    catalog := { emptyCatalog with rest := [createTokens] }
    migrations := [migrationRow recordingConfig tokensFile createTokens] }
  log := [(0, .executed tokensFile createTokens)]

theorem parse_createTokens : parseMigration createTokens = .ok ⟨createTokens, .transactional⟩ := by
  decide

theorem sqlFiles_tokensDirectory : tokensDirectory.sqlFiles = [tokensFile] := by decide

theorem migrationRun_tokens : MigrationRun recordingConfig (fun _ => True) (.fresh emptyCatalog)
    ⟨tokensDone, [⟨tokensDirectory, .done ()⟩]⟩ := by
  have hfile : Chronicle.Reaches 0 (applyFile recordingConfig tokensDirectory tokensFile)
      { Server.fresh emptyCatalog with lock := some 0 } ()
      { tokensDone.current with lock := some 0 } [.executed tokensFile createTokens] :=
    reaches_applyFile_transactional rfl parse_createTokens rfl rfl rfl
  have hfiles : Chronicle.Reaches 0
      (applyFiles recordingConfig tokensDirectory tokensDirectory.sqlFiles)
      { Server.fresh emptyCatalog with lock := some 0 } ()
      { tokensDone.current with lock := some 0 } [.executed tokensFile createTokens] := by
    rw [sqlFiles_tokensDirectory]
    exact hfile.finish (Chronicle.reaches_pure ())
  exact Reachable.serve Relation.ReflTransGen.refl trivial trivial
    (reaches_runMigrations rfl hfiles rfl [])

theorem migrations_ledger_tokens :
    Recorded recordingConfig tokensDirectory tokensDone.current.migrations tokensFile ∧
      UniqueKey MigrationRow.name tokensDone.current.migrations := by
  obtain ⟨-, -, hunique, -, hreturned⟩ := migrations_ledger migrationRun_tokens
  refine ⟨hreturned 0 tokensDirectory rfl tokensFile ?_, hunique List.nodup_nil⟩
  rw [sqlFiles_tokensDirectory]
  exact List.mem_singleton_self _

end ChatTea.Migrations
