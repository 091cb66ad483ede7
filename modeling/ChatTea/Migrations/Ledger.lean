import ChatTea.Lib.History
import ChatTea.Migrations.Runner

/-!
# What migrations do

The runner without its sessions, locks and failures: the files of a directory are done in their
order, each of them once; a file is executed and named in the table in one step, or its index is
built first, in any number of steps, and the file is named in the table once the index is finished.

## Main definitions

* `Stored` — what the runner leaves behind
* `Next` — the file that a call has come to
* `Replays` — what files may have made of a database

## Main results

* `Replays.migrations_eq` — the table is the list of what was done
* `Replays.unique` — and no file was done twice
-/

namespace ChatTea.Migrations

open Table

variable {σ : Type} {config : MigrationConfig σ} {accepts : Directory → Prop} {directory : Directory}
  {file sql : Text} {done rest : List Text} {rows rows' : List MigrationRow}

/-! ### Files -/

/-- What a call leaves behind. -/
structure Stored (σ : Type) where
  catalog : Catalog σ
  migrations : List MigrationRow

def Server.stored (server : Server σ) : Stored σ := ⟨server.catalog, server.migrations⟩

/-- A file that is executed in a transaction. -/
def IsTransactional (sql executableSql : Text) : Prop :=
  parseMigration sql = .ok ⟨executableSql, .transactional⟩

/-- A file that creates an index concurrently. -/
def IsConcurrent (sql name : Text) : Prop :=
  ∃ executableSql, parseMigration sql = .ok ⟨executableSql, .concurrentIndex name⟩

theorem IsConcurrent.eq {name other : Text} (h : IsConcurrent sql name)
    (h' : IsConcurrent sql other) : name = other := by
  obtain ⟨executableSql, hparse⟩ := h
  obtain ⟨executableSql', hparse'⟩ := h'
  have hmigration := Except.ok.inj (hparse.symm.trans hparse')
  exact MigrationMode.concurrentIndex.inj (Migration.mk.inj hmigration).2

/-- The finished index of a file. -/
def fileIndex (config : MigrationConfig σ) (file sql : Text) : Relation :=
  markedIndex (concurrentIndexMarker config file (config.sha256 sql))

/-- The table has the file with the text that the directory has. -/
def Recorded (config : MigrationConfig σ) (directory : Directory) (rows : List MigrationRow)
    (file : Text) : Prop :=
  ∃ sql, directory.read file = some sql ∧ migrationRow config file sql ∈ rows

theorem Recorded.grows (h : Recorded config directory rows file)
    (hgrows : ∀ row ∈ rows, row ∈ rows') : Recorded config directory rows' file := by
  obtain ⟨sql, hread, hrow⟩ := h
  exact ⟨sql, hread, hgrows _ hrow⟩

/-- Everything before the file is in the table, and the file is not. -/
structure Next (config : MigrationConfig σ) (directory : Directory) (rows : List MigrationRow)
    (done : List Text) (file sql : Text) (rest : List Text) : Prop where
  files : directory.sqlFiles = done ++ file :: rest
  read : directory.read file = some sql
  recorded : ∀ other ∈ done, Recorded config directory rows other
  unrecorded : ∀ row ∈ rows, row.name ≠ file

/-! ### What was done -/

/-- The row of what was done. -/
def MigrationEvent.row (config : MigrationConfig σ) (event : MigrationEvent) : MigrationRow :=
  migrationRow config event.file event.sql

/-- A change of the table or the database that the work on an accepted directory makes, with what is
noted of it. -/
inductive Advances (config : MigrationConfig σ) (accepts : Directory → Prop) (stored : Stored σ) :
    List MigrationEvent → Stored σ → Prop
  | execute {directory done file sql rest executableSql catalog} (accepted : accepts directory)
      (next : Next config directory stored.migrations done file sql rest)
      (asks : IsTransactional sql executableSql)
      (runs : config.run executableSql stored.catalog = some catalog) :
      Advances config accepts stored [.executed file sql]
        ⟨catalog, stored.migrations ++ [migrationRow config file sql]⟩
  /-- Something is done to the index of the file. -/
  | alter {directory done file sql rest name relation} (accepted : accepts directory)
      (next : Next config directory stored.migrations done file sql rest)
      (asks : IsConcurrent sql name) (before : stored.catalog.relations name ≠ some .other)
      (after : relation ≠ some .other) :
      Advances config accepts stored [] ⟨stored.catalog.setRelation name relation, stored.migrations⟩
  /-- The index of the file is finished. -/
  | index {directory done file sql rest name} (accepted : accepts directory)
      (next : Next config directory stored.migrations done file sql rest)
      (asks : IsConcurrent sql name)
      (finished : stored.catalog.relations name = some (fileIndex config file sql)) :
      Advances config accepts stored [.indexed file sql]
        ⟨stored.catalog, stored.migrations ++ [migrationRow config file sql]⟩

/-- What may have been made of a database in any number of such steps; the newest event is the first
one. -/
inductive Replays (config : MigrationConfig σ) (accepts : Directory → Prop) (initial : Stored σ) :
    List MigrationEvent → Stored σ → Prop
  | start : Replays config accepts initial [] initial
  | advance {events stored noted stored'} (before : Replays config accepts initial events stored)
      (step : Advances config accepts stored noted stored') :
      Replays config accepts initial (noted ++ events) stored'

variable {initial stored stored' : Stored σ} {events noted : List MigrationEvent}

/-- The table grows by what is noted, which is at most one file that it did not have. -/
theorem Advances.migrations_eq (h : Advances config accepts stored noted stored') :
    noted = [] ∧ stored'.migrations = stored.migrations ∨
      ∃ event, noted = [event] ∧ stored'.migrations = stored.migrations ++ [event.row config] ∧
        ∀ row ∈ stored.migrations, row.name ≠ event.file := by
  cases h with
  | execute accepted next asks runs => exact Or.inr ⟨_, rfl, rfl, next.unrecorded⟩
  | alter accepted next asks before after => exact Or.inl ⟨rfl, rfl⟩
  | index accepted next asks finished => exact Or.inr ⟨_, rfl, rfl, next.unrecorded⟩

/-- A property that every step keeps. -/
theorem Replays.kept (property : Stored σ → Prop)
    (h : Replays config accepts initial events stored) (hinitial : property initial)
    (hstep : ∀ stored noted stored', Advances config accepts stored noted stored' →
      property stored → property stored') : property stored := by
  induction h with
  | start => exact hinitial
  | advance before step ih => exact hstep _ _ _ step ih

/-- The rows of the table are what was done, in its order. -/
theorem Replays.migrations_eq (h : Replays config accepts initial events stored) :
    stored.migrations =
      initial.migrations ++ events.reverse.map (MigrationEvent.row config) := by
  induction h with
  | start => exact (List.append_nil _).symm
  | advance before step ih =>
      rcases step.migrations_eq with ⟨rfl, hsame⟩ | ⟨event, rfl, hnew, -⟩
      · exact hsame.trans ih
      · rw [hnew, ih, List.reverse_append, List.map_append, List.append_assoc]
        rfl

theorem Replays.unique (h : Replays config accepts initial events stored)
    (hinitial : UniqueKey MigrationRow.name initial.migrations) :
    UniqueKey MigrationRow.name stored.migrations := by
  refine h.kept (fun stored => UniqueKey MigrationRow.name stored.migrations) hinitial ?_
  intro stored noted stored' hstep hunique
  rcases hstep.migrations_eq with ⟨-, hsame⟩ | ⟨event, -, hnew, hunrecorded⟩
  · rw [hsame]
    exact hunique
  · rw [hnew]
    exact hunique.append hunrecorded

end ChatTea.Migrations
