import ChatTea.Lib.Chronicle
import ChatTea.Lib.Table
import ChatTea.Migrations.Parse

/-!
# The migration runner

`scripts/migrate.ts` takes an advisory lock of its session, and then goes through the files of a
directory in the order of their names. A file that the table of migrations does not name is
executed: in one transaction with its row, or, if it creates an index concurrently, statement by
statement, with a comment on the index that tells a later call that it is the one of the file.

Any number of calls run at a time. Every statement may fail or lose its answer, and a process may
die between any two of them; the server then rolls its transaction back and frees its lock. What a
file does to the database is a parameter, and so is the hash. Creating and dropping an index
concurrently takes two steps, and in between the index is there without being valid.

## Main definitions

* `Server` — the catalog, the table of migrations, the lock and the open transactions
* `runMigrations` — the program
* `migrationSystem` — any number of calls
-/

namespace ChatTea.Migrations

open Interleaving Table Transaction

/-! ### The server -/

structure IndexState where
  valid : Bool
  ready : Bool
  marker : Option Text
deriving DecidableEq

/-- What a name may stand for. -/
inductive Relation where
  | index (state : IndexState)
  | other
deriving DecidableEq

/-- What the files change; `σ` is whatever is not a name of a relation. -/
structure Catalog (σ : Type) where
  relations : Text → Option Relation
  rest : σ

def Catalog.setRelation {σ : Type} (catalog : Catalog σ) (name : Text) (relation : Option Relation) :
    Catalog σ :=
  { catalog with relations := Function.update catalog.relations name relation }

/-- A row of `_migrations`. -/
structure MigrationRow where
  name : Text
  checksum : Text
deriving DecidableEq

/-- A transaction in progress: what it would write, and the files that it has executed. -/
structure Work (σ : Type) where
  catalog : Catalog σ
  rows : List MigrationRow
  executed : List (Text × Text)

structure Server (σ : Type) where
  catalog : Catalog σ
  migrations : List MigrationRow
  /-- The session that holds the advisory lock. -/
  lock : Option ℕ
  work : ℕ → Option (Work σ)

inductive MigrationFailure where
  /-- What PostgreSQL or the connection throws. -/
  | postgres (message : Text)
  | noFile (file : Text)
  | parse (error : MigrationError)
  | checksumChanged (file : Text)
  | markerMismatch (name : Text)
  | postconditionFailed (name : Text)
  | markerPostconditionFailed (name : Text)
deriving DecidableEq

def MigrationFailure.message : MigrationFailure → Text
  | .postgres message => message
  | .noFile file => "ENOENT: no such file or directory, open '".toList ++ file ++ "'".toList
  | .parse error => error.message
  | .checksumChanged file => "migration checksum changed: ".toList ++ file
  | .markerMismatch name => "concurrent index marker mismatch: ".toList ++ name
  | .postconditionFailed name => "concurrent index postcondition failed: ".toList ++ name
  | .markerPostconditionFailed name =>
      "concurrent index marker postcondition failed: ".toList ++ name

abbrev Query (σ α : Type) := Call (Server σ) MigrationFailure α

variable {σ : Type}

namespace Server

def setRelation (server : Server σ) (name : Text) (relation : Option Relation) : Server σ :=
  { server with catalog := server.catalog.setRelation name relation }

def setWork (server : Server σ) (pid : ℕ) (work : Option (Work σ)) : Server σ :=
  { server with work := Function.update server.work pid work }

/-- The file is named in the table. -/
def isRecorded (server : Server σ) (file : Text) : Bool :=
  server.migrations.any fun row => row.name = file

/-- The state of the index with a name. -/
def indexState (server : Server σ) (name : Text) : Option IndexState :=
  match server.catalog.relations name with
  | some (.index state) => some state
  | _ => none

end Server

/-! ### Statements -/

/-- `pg_advisory_unlock` -/
def unlock (pid : ℕ) : Query σ Unit := fun server =>
  .ok ((), { server with lock := if server.lock = some pid then none else server.lock })

/-- `CREATE TABLE IF NOT EXISTS "_migrations"`: it has no rows before it is there. -/
def createMigrations : Query σ Unit := fun server => .ok ((), server)

def findMigration (file : Text) : Query σ (Option MigrationRow) := fun server =>
  .ok (server.migrations.find? (·.name = file), server)

def duplicateName : MigrationFailure :=
  .postgres "duplicate key value violates unique constraint \"_migrations_pkey\"".toList

/-- The row is written outside of a transaction. -/
def insertMigration (row : MigrationRow) : Query σ Unit := fun server =>
  if server.isRecorded row.name then .error duplicateName
  else .ok ((), { server with migrations := server.migrations ++ [row] })

def begin (pid : ℕ) : Query σ Unit := fun server =>
  .ok ((), server.setWork pid (some ⟨server.catalog, [], []⟩))

def noTransaction : MigrationFailure := .postgres "there is no transaction in progress".toList

/-- The text of a file is executed in the transaction. -/
def execute (run : Text → Catalog σ → Option (Catalog σ)) (file sql executableSql : Text) (pid : ℕ) :
    Query σ Unit := fun server =>
  match server.work pid with
  | none => .error noTransaction
  | some work =>
      match run executableSql work.catalog with
      | none => .error (.postgres "the statements of the file fail".toList)
      | some catalog => .ok ((), server.setWork pid
          (some { work with catalog := catalog, executed := work.executed ++ [(file, sql)] }))

/-- The row is written in the transaction. -/
def insertInTransaction (row : MigrationRow) (pid : ℕ) : Query σ Unit := fun server =>
  match server.work pid with
  | none => .error noTransaction
  | some work =>
      if server.isRecorded row.name ∨ work.rows.any fun other => other.name = row.name then
        .error duplicateName
      else .ok ((), server.setWork pid (some { work with rows := work.rows ++ [row] }))

/-- The files that were executed take effect. -/
def commit (pid : ℕ) : Query σ (List (Text × Text)) := fun server =>
  match server.work pid with
  | none => .error noTransaction
  | some work => .ok (work.executed, Server.setWork
      { server with catalog := work.catalog, migrations := server.migrations ++ work.rows } pid none)

def rollback (pid : ℕ) : Query σ Unit := fun server => .ok ((), server.setWork pid none)

def concurrentIndexState (name : Text) : Query σ (Option IndexState) := fun server =>
  .ok (server.indexState name, server)

/-- The first step of `CREATE INDEX CONCURRENTLY IF NOT EXISTS`. -/
def registerIndex (name : Text) (ready : Bool) : Query σ Bool := fun server =>
  match server.catalog.relations name with
  | some _ => .ok (false, server)
  | none => .ok (true, server.setRelation name (some (.index ⟨false, ready, none⟩)))

/-- Something is done to an index. -/
def alterIndex (name : Text) (alter : IndexState → Option IndexState) : Query σ Unit := fun server =>
  match server.indexState name with
  | none => .error (.postgres ("relation does not exist: ".toList ++ name))
  | some state => .ok ((), server.setRelation name ((alter state).map .index))

def validateIndex (name : Text) : Query σ Unit :=
  alterIndex name fun state => some { state with valid := true, ready := true }

/-- The first step of `DROP INDEX CONCURRENTLY`. -/
def invalidateIndex (name : Text) (ready : Bool) : Query σ Unit :=
  alterIndex name fun state => some { state with valid := false, ready := ready }

def removeIndex (name : Text) : Query σ Unit := alterIndex name fun _ => none

/-- `COMMENT ON INDEX` -/
def commentOnIndex (name marker : Text) : Query σ Unit :=
  alterIndex name fun state => some { state with marker := some marker }

/-! ### The files -/

/-- The files of a directory and what they hold. -/
structure Directory where
  files : List (Text × Text)
  unique : UniqueKey Prod.fst files

/-- The code units of a JavaScript string. -/
def codeUnits (text : Text) : List ℕ :=
  text.flatMap fun c =>
    if c.toNat < 0x10000 then [c.toNat]
    else [0xD800 + (c.toNat - 0x10000) / 0x400, 0xDC00 + (c.toNat - 0x10000) % 0x400]

def hasSqlSuffix (file : Text) : Bool := ".sql".toList.isSuffixOf file

namespace Directory

/-- `fs.readFile` -/
def read (directory : Directory) (file : Text) : Option Text :=
  (directory.files.find? (·.1 = file)).map Prod.snd

/-- The names that end in `.sql`, sorted. -/
def sqlFiles (directory : Directory) : List Text :=
  ((directory.files.map Prod.fst).filter hasSqlSuffix).insertionSort fun file other =>
    codeUnits file ≤ codeUnits other

end Directory

/-! ### The program -/

/-- The hash, and what executing the text of a file does to the catalog; it neither ends the
transaction that it runs in nor touches the table of migrations. -/
structure MigrationConfig (σ : Type) where
  sha256 : Text → Text
  run : Text → Catalog σ → Option (Catalog σ)

/-- What was done to the database. -/
inductive MigrationEvent where
  /-- The transaction that has executed a file was committed. -/
  | executed (file sql : Text)
  /-- The row of a file that creates an index was written. -/
  | indexed (file sql : Text)
deriving DecidableEq

namespace MigrationEvent

def file : MigrationEvent → Text
  | executed file _ => file
  | indexed file _ => file

def sql : MigrationEvent → Text
  | executed _ sql => sql
  | indexed _ sql => sql

end MigrationEvent

abbrev MigrationWorld (σ : Type) := Chronicle (Server σ) MigrationEvent

abbrev MigrationProg (σ α : Type) := Prog (MigrationWorld σ) Directory MigrationFailure α

/-- A statement of which nothing is noted. -/
def query {α : Type} (call : ℕ → Query σ α) : MigrationProg σ α :=
  Chronicle.statement call fun _ _ _ => []

/-- `pg_advisory_lock` waits until the lock is free. -/
inductive Locks (pid : ℕ) (w : MigrationWorld σ) : Except MigrationFailure Unit →
    MigrationWorld σ → Prop
  | locked (free : w.current.lock = none) :
      Locks pid w (.ok ()) (w.advance pid { w.current with lock := some pid } [])
  | unreachable (failure) : Locks pid w (.error failure) w

section Program

variable (config : MigrationConfig σ)

def concurrentIndexMarker (file checksum : Text) : Text :=
  "chattea:migration:".toList ++ config.sha256 (file ++ [Char.ofNat 0] ++ checksum)

/-- The row of a file. -/
def migrationRow (file sql : Text) : MigrationRow := ⟨file, config.sha256 sql⟩

/-- `CREATE INDEX CONCURRENTLY IF NOT EXISTS`, which is all that such a file executes. -/
def executeConcurrentIndex (name : Text) : MigrationProg σ Unit := do
  let ready ← Prog.anything Bool
  let registered ← query fun _ => registerIndex name ready
  if registered then query fun _ => validateIndex name

def dropIndexConcurrently (name : Text) : MigrationProg σ Unit := do
  let ready ← Prog.anything Bool
  query fun _ => invalidateIndex name ready
  query fun _ => removeIndex name

/-- Whether the index of the file is there already; one that is not valid is dropped. -/
def prepareConcurrentIndexTarget (name marker : Text) : MigrationProg σ Bool := do
  let state ← query fun _ => concurrentIndexState name
  match state with
  | none => return false
  | some state =>
      if state.valid ∧ state.ready then
        if state.marker ≠ some marker then throw (.markerMismatch name)
        return true
      dropIndexConcurrently name
      return false

def markConcurrentIndexReady (name marker : Text) : MigrationProg σ Unit := do
  let state ← query fun _ => concurrentIndexState name
  if ¬ state.any fun state => state.valid ∧ state.ready then throw (.postconditionFailed name)
  query fun _ => commentOnIndex name marker
  let marked ← query fun _ => concurrentIndexState name
  if marked.bind (·.marker) ≠ some marker then throw (.markerPostconditionFailed name)

/-- A file that is executed in a transaction. -/
def applyInTransaction (file sql executableSql : Text) : MigrationProg σ Unit := do
  query begin
  tryCatch
    (do
      query (execute config.run file sql executableSql)
      query (insertInTransaction (migrationRow config file sql))
      let _ ← Chronicle.statement commit fun files _ _ =>
        files.map fun file => MigrationEvent.executed file.1 file.2
      return ())
    fun error => do
      query rollback
      throw error

/-- A file that creates an index concurrently. -/
def applyConcurrentIndex (file sql name : Text) : MigrationProg σ Unit := do
  let marker := concurrentIndexMarker config file (config.sha256 sql)
  let alreadyExecuted ← prepareConcurrentIndexTarget name marker
  if ¬ alreadyExecuted then
    executeConcurrentIndex name
    markConcurrentIndexReady name marker
  Chronicle.statement (fun _ => insertMigration (migrationRow config file sql))
    fun _ _ _ => [MigrationEvent.indexed file sql]

/-- One round of the loop. -/
def applyFile (directory : Directory) (file : Text) : MigrationProg σ Unit := do
  match directory.read file with
  | none => throw (.noFile file)
  | some sql =>
      match parseMigration sql with
      | .error error => throw (.parse error)
      | .ok migration =>
          let applied ← query fun _ => findMigration file
          match applied with
          | some row => if row.checksum ≠ config.sha256 sql then throw (.checksumChanged file)
          | none =>
              match migration.mode with
              | .transactional => applyInTransaction config file sql migration.executableSql
              | .concurrentIndex name => applyConcurrentIndex config file sql name

def applyFiles (directory : Directory) : List Text → MigrationProg σ Unit
  | [] => return ()
  | file :: files => do
      applyFile config directory file
      applyFiles directory files

def runMigrations (directory : Directory) : MigrationProg σ Unit := do
  .attempt Locks
  -- Whatever is thrown from here on, the lock is given back.
  tryCatch
    (do
      query fun _ => createMigrations
      applyFiles config directory directory.sqlFiles)
    fun error => do
      query unlock
      throw error
  query unlock

/-- Any number of calls, on directories that may differ; what a session leaves when its process
dies is rolled back. -/
def migrationSystem (accepts : Directory → Prop) :
    System (MigrationWorld σ) Directory MigrationFailure Unit where
  code := runMigrations config
  accepts := accepts
  environment _ _ := False
  rollback pid w := w.advance pid { w.current with
    lock := if w.current.lock = some pid then none else w.current.lock
    work := Function.update w.current.work pid none } []

end Program

/-! ### A call that nothing disturbs -/

section Alone

open Chronicle (Reaches)

variable {config : MigrationConfig σ} {pid : ℕ} {server server' : Server σ} {file sql name : Text}

theorem reaches_query {α : Type} {call : ℕ → Query σ α} {value : α}
    (h : call pid server = .ok (value, server')) :
    Reaches pid (query call : MigrationProg σ α) server value server' [] :=
  Chronicle.reaches_statement h

@[simp] theorem setWork_setWork (server : Server σ) (work work' : Option (Work σ)) :
    (server.setWork pid work).setWork pid work' = server.setWork pid work' := by
  simp [Server.setWork]

@[simp] theorem setWork_work (server : Server σ) (work : Option (Work σ)) :
    (server.setWork pid work).work pid = work := Function.update_self _ _ _

theorem setWork_eq_self (h : server.work pid = none) : server.setWork pid none = server := by
  have hwork : Function.update server.work pid none = server.work := by
    rw [← h, Function.update_eq_self]
  rw [Server.setWork, hwork]

@[simp] theorem setRelation_setRelation (server : Server σ) (relation relation' : Option Relation) :
    (server.setRelation name relation).setRelation name relation' =
      server.setRelation name relation' := by
  simp [Server.setRelation, Catalog.setRelation]

@[simp] theorem setRelation_relations (server : Server σ) (relation : Option Relation) :
    (server.setRelation name relation).catalog.relations name = relation :=
  Function.update_self _ _ _

theorem setRelation_eq_self {relation : Option Relation}
    (h : server.catalog.relations name = relation) : server.setRelation name relation = server := by
  have hrelations : Function.update server.catalog.relations name relation =
      server.catalog.relations := by
    rw [← h, Function.update_eq_self]
  rw [Server.setRelation, Catalog.setRelation, hrelations]

theorem indexState_eq_some {state : IndexState} :
    server.indexState name = some state ↔
      server.catalog.relations name = some (.index state) := by
  unfold Server.indexState
  split
  next found hfound =>
    rw [hfound]
    simp
  next hnone =>
    constructor
    · exact fun hsome => nomatch hsome
    · exact fun hsome => (hnone state hsome).elim

@[simp] theorem indexState_setRelation (server : Server σ) (state : Option IndexState) :
    (server.setRelation name (state.map .index)).indexState name = state := by
  unfold Server.indexState
  rw [setRelation_relations]
  cases state <;> rfl

theorem alterIndex_eq {alter : IndexState → Option IndexState} {state : IndexState}
    (h : server.catalog.relations name = some (.index state)) :
    alterIndex name alter server = .ok ((), server.setRelation name ((alter state).map .index)) := by
  unfold alterIndex
  rw [indexState_eq_some.2 h]

/-- A file of which every statement succeeds takes effect together with its row. -/
theorem reaches_applyInTransaction {executableSql : Text} {catalog : Catalog σ}
    (hwork : server.work pid = none) (hnew : server.isRecorded file = false)
    (hrun : config.run executableSql server.catalog = some catalog) :
    Reaches pid (applyInTransaction config file sql executableSql) server ()
      { server with
        catalog := catalog
        migrations := server.migrations ++ [migrationRow config file sql] }
      [.executed file sql] := by
  let row := migrationRow config file sql
  have hexecute : execute config.run file sql executableSql pid
      (server.setWork pid (some ⟨server.catalog, [], []⟩)) =
        .ok ((), server.setWork pid (some ⟨catalog, [], [(file, sql)]⟩)) := by
    simp [execute, hrun]
  have hinsert : insertInTransaction row pid
      (server.setWork pid (some ⟨catalog, [], [(file, sql)]⟩)) =
        .ok ((), server.setWork pid (some ⟨catalog, [row], [(file, sql)]⟩)) := by
    have hnew : (server.setWork pid (some ⟨catalog, [], [(file, sql)]⟩)).isRecorded row.name =
        false := hnew
    simp [insertInTransaction, hnew]
  have hcommit : commit pid (server.setWork pid (some ⟨catalog, [row], [(file, sql)]⟩)) =
      .ok ([(file, sql)], { server with
        catalog := catalog, migrations := server.migrations ++ [row] }) := by
    have hfree := setWork_eq_self hwork
    simp only [commit, setWork_work]
    rw [← hfree]
    simp [Server.setWork]
  unfold applyInTransaction
  apply (reaches_query rfl).follow
  apply Reaches.tryCatch
  apply (reaches_query hexecute).follow
  apply (reaches_query hinsert).follow
  let server' : Server σ :=
    { server with catalog := catalog, migrations := server.migrations ++ [row] }
  have hcommitted : Reaches pid (Chronicle.statement commit fun files _ _ =>
      files.map fun file => MigrationEvent.executed file.1 file.2 : MigrationProg σ _)
      (server.setWork pid (some ⟨catalog, [row], [(file, sql)]⟩)) [(file, sql)] server'
      [.executed file sql] := Chronicle.reaches_statement hcommit
  exact Reaches.finish hcommitted (Chronicle.reaches_pure ())

/-- What a finished index of a file looks like. -/
def markedIndex (marker : Text) : Relation := .index ⟨true, true, some marker⟩

/-- The name is free, or it is an index that was not finished, or the one of the file. -/
def canIndex (marker : Text) : Option Relation → Bool
  | none => true
  | some (.index state) => ¬ (state.valid ∧ state.ready) ∨ state.marker = some marker
  | some .other => false

theorem reaches_markConcurrentIndexReady {marker : Text} {state : IndexState}
    (h : server.catalog.relations name = some (.index state)) (hvalid : state.valid)
    (hready : state.ready) :
    Reaches pid (markConcurrentIndexReady name marker) server ()
      (server.setRelation name (some (markedIndex marker))) [] := by
  have hstate := indexState_eq_some.2 h
  have hmarked : (server.setRelation name (some (markedIndex marker))).indexState name =
      some ⟨true, true, some marker⟩ := indexState_setRelation server (some ⟨true, true, some marker⟩)
  have hcomment : commentOnIndex name marker server =
      .ok ((), server.setRelation name (some (markedIndex marker))) := by
    rw [commentOnIndex, alterIndex_eq h]
    simp [markedIndex, hvalid, hready]
  unfold markConcurrentIndexReady
  apply (reaches_query rfl).follow
  have hgood : (server.indexState name).any fun state => state.valid ∧ state.ready := by
    simp [hstate, hvalid, hready]
  rw [if_neg (not_not.2 hgood)]
  apply (reaches_query hcomment).follow
  apply (reaches_query rfl).follow
  rw [if_neg (by simp [hmarked])]
  exact Chronicle.reaches_pure ()

theorem reaches_executeConcurrentIndex (h : server.catalog.relations name = none) :
    Reaches pid (executeConcurrentIndex name) server ()
      (server.setRelation name (some (.index ⟨true, true, none⟩))) [] := by
  have hregister : registerIndex name true server =
      .ok (true, server.setRelation name (some (.index ⟨false, true, none⟩))) := by
    unfold registerIndex
    rw [h]
  have hvalidate : validateIndex name
      (server.setRelation name (some (.index ⟨false, true, none⟩))) =
        .ok ((), server.setRelation name (some (.index ⟨true, true, none⟩))) := by
    rw [validateIndex, alterIndex_eq (setRelation_relations server _)]
    simp
  unfold executeConcurrentIndex
  apply (Chronicle.reaches_anything true).follow
  apply (reaches_query hregister).follow
  exact reaches_query hvalidate

/-- An index that was not finished is dropped. -/
theorem reaches_dropIndexConcurrently {state : IndexState}
    (h : server.catalog.relations name = some (.index state)) :
    Reaches pid (dropIndexConcurrently name) server () (server.setRelation name none) [] := by
  let dropped : Relation := .index { state with valid := false, ready := false }
  have hinvalidate : invalidateIndex name false server =
      .ok ((), server.setRelation name (some dropped)) := alterIndex_eq h
  have hremove : removeIndex name (server.setRelation name (some dropped)) =
      .ok ((), server.setRelation name none) := by
    rw [removeIndex, alterIndex_eq (setRelation_relations server _)]
    simp
  unfold dropIndexConcurrently
  apply (Chronicle.reaches_anything false).follow
  apply (reaches_query hinvalidate).follow
  exact reaches_query hremove

/-- Afterwards the index of the file is there, or the name is free. -/
theorem reaches_prepareConcurrentIndexTarget {marker : Text}
    (h : canIndex marker (server.catalog.relations name)) :
    Reaches pid (prepareConcurrentIndexTarget name marker) server true
        (server.setRelation name (some (markedIndex marker))) [] ∨
      Reaches pid (prepareConcurrentIndexTarget name marker) server false
        (server.setRelation name none) [] := by
  unfold prepareConcurrentIndexTarget
  cases hrelation : server.catalog.relations name with
  | none =>
      right
      have hstate : concurrentIndexState name server = .ok (none, server) := by
        unfold concurrentIndexState Server.indexState
        rw [hrelation]
      rw [setRelation_eq_self hrelation]
      apply (reaches_query hstate).follow
      exact Chronicle.reaches_pure false
  | some relation =>
      cases relation with
      | other => simp [canIndex, hrelation] at h
      | index state =>
          obtain ⟨valid, ready, found⟩ := state
          have hstate : concurrentIndexState name server =
              .ok (some ⟨valid, ready, found⟩, server) := by
            unfold concurrentIndexState
            rw [indexState_eq_some.2 hrelation]
          by_cases hgood : valid = true ∧ ready = true
          · left
            obtain ⟨rfl, rfl⟩ := hgood
            have hmarker : found = some marker := by simpa [canIndex, hrelation] using h
            subst hmarker
            have hsame : server.setRelation name (some (markedIndex marker)) = server :=
              setRelation_eq_self hrelation
            rw [hsame]
            apply (reaches_query hstate).follow
            dsimp only
            rw [if_pos ⟨rfl, rfl⟩, if_neg (not_not.2 rfl)]
            exact Chronicle.reaches_pure true
          · right
            apply (reaches_query hstate).follow
            dsimp only
            rw [if_neg hgood]
            exact (reaches_dropIndexConcurrently hrelation).follow (Chronicle.reaches_pure false)

/-- A file whose index can be built is recorded with its index. -/
theorem reaches_applyConcurrentIndex (hnew : server.isRecorded file = false)
    (hindex : canIndex (concurrentIndexMarker config file (config.sha256 sql))
      (server.catalog.relations name)) :
    Reaches pid (applyConcurrentIndex config file sql name) server ()
      { server.setRelation name
          (some (markedIndex (concurrentIndexMarker config file (config.sha256 sql)))) with
        migrations := server.migrations ++ [migrationRow config file sql] }
      [.indexed file sql] := by
  let marker := concurrentIndexMarker config file (config.sha256 sql)
  have hinsert : Reaches pid (Chronicle.statement
      (fun _ => insertMigration (migrationRow config file sql))
        fun _ _ _ => [MigrationEvent.indexed file sql] : MigrationProg σ Unit)
      (server.setRelation name (some (markedIndex marker))) ()
      { server.setRelation name (some (markedIndex marker)) with
        migrations := server.migrations ++ [migrationRow config file sql] }
      [.indexed file sql] := by
    apply Chronicle.reaches_statement
    have hnew : (server.setRelation name (some (markedIndex marker))).isRecorded
        (migrationRow config file sql).name = false := hnew
    simp only [insertMigration, hnew]
    rfl
  unfold applyConcurrentIndex
  rcases reaches_prepareConcurrentIndexTarget hindex with hdone | hfree
  · exact hdone.follow hinsert
  · apply hfree.follow
    rw [if_pos (by decide)]
    apply (reaches_executeConcurrentIndex (setRelation_relations server none)).follow
    rw [setRelation_setRelation]
    let built := server.setRelation name (some (.index ⟨true, true, none⟩))
    have hbuilt : built.catalog.relations name = some (.index ⟨true, true, none⟩) :=
      setRelation_relations server _
    have hmark : Reaches pid (markConcurrentIndexReady name marker) built ()
        (built.setRelation name (some (markedIndex marker))) [] :=
      reaches_markConcurrentIndexReady hbuilt rfl rfl
    rw [setRelation_setRelation] at hmark
    exact hmark.follow hinsert

variable {directory : Directory} {migration : Migration} {events : List MigrationEvent}

theorem reaches_findMigration_none (hnew : server.isRecorded file = false) :
    Reaches pid (query fun _ => findMigration file : MigrationProg σ _) server none server [] := by
  apply reaches_query
  have hfind : server.migrations.find? (·.name = file) = none := by
    rw [List.find?_eq_none]
    intro row hrow hname
    have hrecorded : server.isRecorded file = true := List.any_eq_true.2 ⟨row, hrow, hname⟩
    rw [hnew] at hrecorded
    cases hrecorded
  unfold findMigration
  rw [hfind]

/-- A file that the table has is passed over. -/
theorem reaches_applyFile_recorded (hread : directory.read file = some sql)
    (hparse : parseMigration sql = .ok migration)
    (hrow : server.migrations.find? (·.name = file) = some (migrationRow config file sql)) :
    Reaches pid (applyFile config directory file) server () server [] := by
  have hfound : findMigration file server =
      .ok (some (migrationRow config file sql), server) := by
    unfold findMigration
    rw [hrow]
  unfold applyFile
  rw [hread]
  dsimp only
  rw [hparse]
  dsimp only
  apply (reaches_query hfound).follow
  dsimp only
  have hsame : ¬ (migrationRow config file sql).checksum ≠ config.sha256 sql := not_not.2 rfl
  rw [if_neg hsame]
  exact Chronicle.reaches_pure ()

theorem reaches_applyFile_transactional {executableSql : Text} {catalog : Catalog σ}
    (hread : directory.read file = some sql)
    (hparse : parseMigration sql = .ok ⟨executableSql, .transactional⟩)
    (hwork : server.work pid = none) (hnew : server.isRecorded file = false)
    (hrun : config.run executableSql server.catalog = some catalog) :
    Reaches pid (applyFile config directory file) server ()
      { server with
        catalog := catalog
        migrations := server.migrations ++ [migrationRow config file sql] }
      [.executed file sql] := by
  unfold applyFile
  rw [hread]
  dsimp only
  rw [hparse]
  dsimp only
  apply (reaches_findMigration_none hnew).follow
  exact reaches_applyInTransaction hwork hnew hrun

theorem reaches_applyFile_concurrentIndex {executableSql : Text}
    (hread : directory.read file = some sql)
    (hparse : parseMigration sql = .ok ⟨executableSql, .concurrentIndex name⟩)
    (hnew : server.isRecorded file = false)
    (hindex : canIndex (concurrentIndexMarker config file (config.sha256 sql))
      (server.catalog.relations name)) :
    Reaches pid (applyFile config directory file) server ()
      { server.setRelation name
          (some (markedIndex (concurrentIndexMarker config file (config.sha256 sql)))) with
        migrations := server.migrations ++ [migrationRow config file sql] }
      [.indexed file sql] := by
  unfold applyFile
  rw [hread]
  dsimp only
  rw [hparse]
  dsimp only
  apply (reaches_findMigration_none hnew).follow
  exact reaches_applyConcurrentIndex hnew hindex

/-- The files are gone through between taking the lock and giving it back. -/
theorem reaches_runMigrations (hfree : server.lock = none)
    (h : Reaches pid (applyFiles config directory directory.sqlFiles)
      { server with lock := some pid } () server' events)
    (hlock : server'.lock = some pid) :
    Reaches pid (runMigrations config directory) server () { server' with lock := none } events := by
  have hlocks : Reaches pid (.attempt Locks : MigrationProg σ Unit) server ()
      { server with lock := some pid } [] :=
    fun log => .step (.ok ()) _ (.locked hfree) trivial .refl
  have hunlock : unlock pid server' = .ok ((), { server' with lock := none }) := by
    simp [unlock, hlock]
  have hcreate : Reaches pid (query fun _ => createMigrations : MigrationProg σ Unit)
      { server with lock := some pid } () { server with lock := some pid } [] := reaches_query rfl
  unfold runMigrations
  apply hlocks.follow
  exact Reaches.finish ((hcreate.follow h).tryCatch) (reaches_query hunlock)

end Alone

end ChatTea.Migrations
