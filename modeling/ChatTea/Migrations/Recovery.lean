import ChatTea.Migrations.System

/-!
# Starting the runner again

A call that fails or stops leaves the work on its directory half done. Most of the time the next call
goes on where it stopped, and ends with the database that one undisturbed call would have made. The
one exception is an index that was finished but not yet marked: the next call takes it for somebody
else's, and so does every call after it.

## Main definitions

* `settle` — what one undisturbed call makes of a database
* `Resumes` — what is left to do leads to a database
* `Stuck` — the next file has an index that is not marked as its own

## Main results

* `Replays.resumes` — nothing that calls do leads away from that database
* `reaches_settle` — an undisturbed call
* `stuck_sound` — no call gets past a file that is stuck
* `migrations_recover` — a call can be made up for exactly if nothing is stuck
-/

namespace ChatTea.Migrations

open History Interleaving Table

variable {σ : Type} {config : MigrationConfig σ} {directory : Directory} {goal : Stored σ}
  {stored stored' : Stored σ} {server : Server σ} {file sql name : Text}
  {done rest files : List Text} {pid : ℕ}

/-! ### An undisturbed call -/

/-- What becomes of a file that the table does not name. -/
def settleNew (config : MigrationConfig σ) (file sql : Text) (migration : Migration)
    (stored : Stored σ) : Option (Stored σ) :=
  match migration.mode with
  | .transactional =>
      (config.run migration.executableSql stored.catalog).map fun catalog =>
        ⟨catalog, stored.migrations ++ [migrationRow config file sql]⟩
  | .concurrentIndex name =>
      if canIndex (concurrentIndexMarker config file (config.sha256 sql))
          (stored.catalog.relations name) then
        some ⟨stored.catalog.setRelation name (some (fileIndex config file sql)),
          stored.migrations ++ [migrationRow config file sql]⟩
      else none

def settleFile (config : MigrationConfig σ) (directory : Directory) (file : Text)
    (stored : Stored σ) : Option (Stored σ) :=
  match directory.read file with
  | none => none
  | some sql =>
      match parseMigration sql with
      | .error _ => none
      | .ok migration =>
          if migrationRow config file sql ∈ stored.migrations then some stored
          else if stored.migrations.any (·.name = file) then none
          else settleNew config file sql migration stored

/-- What a call makes of a database when nothing fails, if it can be made at all. -/
def settle (config : MigrationConfig σ) (directory : Directory) :
    List Text → Stored σ → Option (Stored σ)
  | [], stored => some stored
  | file :: files, stored => (settleFile config directory file stored).bind
      (settle config directory files)

/-! ### What is left to do -/

/-- What is left to do about a file that the table does not name, and about those after it; the index
of the file may be in any state. -/
def ResumesNew (config : MigrationConfig σ) (directory : Directory) (goal : Stored σ)
    (file sql : Text) (migration : Migration) (files : List Text) (stored : Stored σ) : Prop :=
  match migration.mode with
  | .transactional => ∃ catalog, config.run migration.executableSql stored.catalog = some catalog ∧
      settle config directory files
        ⟨catalog, stored.migrations ++ [migrationRow config file sql]⟩ = some goal
  | .concurrentIndex name => stored.catalog.relations name ≠ some .other ∧
      settle config directory files
        ⟨stored.catalog.setRelation name (some (fileIndex config file sql)),
          stored.migrations ++ [migrationRow config file sql]⟩ = some goal

/-- Once the index of the next file is finished, what is left to do leads to a database. -/
def Resumes (config : MigrationConfig σ) (directory : Directory) (goal : Stored σ) :
    List Text → Stored σ → Prop
  | [], stored => stored = goal
  | file :: files, stored => ∃ sql migration, directory.read file = some sql ∧
      parseMigration sql = .ok migration ∧
      (migrationRow config file sql ∈ stored.migrations ∧
          Resumes config directory goal files stored ∨
        (∀ row ∈ stored.migrations, row.name ≠ file) ∧
          ResumesNew config directory goal file sql migration files stored)

theorem settleNew_resumes {migration : Migration}
    (h : (settleNew config file sql migration stored).bind (settle config directory files) =
      some goal) : ResumesNew config directory goal file sql migration files stored := by
  obtain ⟨executableSql, mode⟩ := migration
  cases mode with
  | transactional =>
      cases hrun : config.run executableSql stored.catalog with
      | none => simp [settleNew, hrun] at h
      | some catalog =>
          simp only [settleNew, hrun, Option.map_some, Option.bind_some] at h
          exact ⟨catalog, hrun, h⟩
  | concurrentIndex name =>
      simp only [settleNew] at h
      split at h
      next hindex =>
        refine ⟨fun hother => ?_, h⟩
        rw [hother] at hindex
        exact absurd hindex (by simp [canIndex])
      · cases h

theorem settle_resumes (h : settle config directory files stored = some goal) :
    Resumes config directory goal files stored := by
  induction files with
  | nil => exact Option.some.inj h
  | cons file files ih =>
      unfold settle settleFile at h
      cases hread : directory.read file with
      | none => simp [hread] at h
      | some sql =>
          cases hparse : parseMigration sql with
          | error error => simp [hread, hparse] at h
          | ok migration =>
              refine ⟨sql, migration, hread, hparse, ?_⟩
              simp only [hread, hparse] at h
              split at h
              next hrow => exact Or.inl ⟨hrow, ih h⟩
              next hrow =>
                split at h
                · cases h
                next hnew =>
                  refine Or.inr ⟨fun row hmem hname => hnew ?_, settleNew_resumes h⟩
                  exact List.any_eq_true.2 ⟨row, hmem, decide_eq_true hname⟩

/-- The next file has a finished index that is not marked as its own. -/
def Stuck (config : MigrationConfig σ) (directory : Directory) (stored : Stored σ) : Prop :=
  ∃ done file sql rest name marker,
    Next config directory stored.migrations done file sql rest ∧ IsConcurrent sql name ∧
      stored.catalog.relations name = some (.index ⟨true, true, marker⟩) ∧
      marker ≠ some (concurrentIndexMarker config file (config.sha256 sql))

theorem canIndex_eq_false {marker : Text} {relation : Option Relation}
    (h : canIndex marker relation = false) (hother : relation ≠ some .other) :
    ∃ found, relation = some (.index ⟨true, true, found⟩) ∧ found ≠ some marker := by
  cases relation with
  | none => simp [canIndex] at h
  | some relation =>
      cases relation with
      | other => exact absurd rfl hother
      | index state =>
          obtain ⟨valid, ready, found⟩ := state
          simp only [canIndex, decide_eq_false_iff_not, not_or, not_not] at h
          obtain ⟨⟨rfl, rfl⟩, hmarker⟩ := h
          exact ⟨found, rfl, hmarker⟩

/-- What is left to do can be done in one call, or a file is stuck. -/
theorem Resumes.settle_or_stuck (h : Resumes config directory goal rest stored)
    (hfiles : directory.sqlFiles = done ++ rest)
    (hdone : ∀ other ∈ done, Recorded config directory stored.migrations other) :
    settle config directory rest stored = some goal ∨ Stuck config directory stored := by
  induction rest generalizing done with
  | nil => exact Or.inl (congrArg some h)
  | cons file rest ih =>
      obtain ⟨sql, migration, hread, hparse, ⟨hrow, hrest⟩ | ⟨hnew, hleft⟩⟩ := h
      · have hsettle : settle config directory (file :: rest) stored =
            settle config directory rest stored := by
          simp [settle, settleFile, hread, hparse, hrow]
        rw [hsettle]
        apply ih hrest (hfiles.trans (List.append_cons done file rest))
        intro other hother
        rcases List.mem_append.1 hother with hbefore | hnow
        · exact hdone other hbefore
        · obtain rfl := List.mem_singleton.1 hnow
          exact ⟨sql, hread, hrow⟩
      · have hunrecorded : stored.migrations.any (·.name = file) = false := by
          simpa using hnew
        have hmissing : migrationRow config file sql ∉ stored.migrations :=
          fun hrow => hnew _ hrow rfl
        have hsettle : settle config directory (file :: rest) stored =
            (settleNew config file sql migration stored).bind (settle config directory rest) := by
          simp only [settle, settleFile, hread, hparse, hmissing, hunrecorded, if_false]
          rfl
        rw [hsettle]
        obtain ⟨executableSql, mode⟩ := migration
        cases mode with
        | transactional =>
            obtain ⟨catalog, hrun, hgoal⟩ := hleft
            left
            simp only [settleNew, hrun, Option.map_some, Option.bind_some]
            exact hgoal
        | concurrentIndex name =>
            obtain ⟨hother, hgoal⟩ := hleft
            simp only [settleNew]
            split
            · exact Or.inl hgoal
            next hindex =>
              obtain ⟨found, hfound, hmarker⟩ :=
                canIndex_eq_false (Bool.not_eq_true _ ▸ hindex) hother
              exact Or.inr ⟨done, file, sql, rest, name, found, ⟨hfiles, hread, hdone, hnew⟩,
                ⟨executableSql, hparse⟩, hfound, hmarker⟩

/-! ### Nothing leads away -/

/-- When all of the files are in the table, the database is the one that was to be made. -/
theorem Resumes.eq_goal (h : Resumes config directory goal files stored)
    (hdone : ∀ file ∈ files, Recorded config directory stored.migrations file) : stored = goal := by
  induction files with
  | nil => exact h
  | cons file files ih =>
      obtain ⟨sql, migration, hread, hparse, ⟨hrow, hrest⟩ | ⟨hnew, hleft⟩⟩ := h
      · exact ih hrest fun other hother => hdone other (List.mem_cons_of_mem _ hother)
      · obtain ⟨sql', -, hrow⟩ := hdone file List.mem_cons_self
        exact absurd rfl (hnew _ hrow)

/-- A step that concerns what comes after files that are done. -/
theorem Resumes.under (h : Resumes config directory goal (done ++ files) stored)
    (hdone : ∀ other ∈ done, Recorded config directory stored.migrations other)
    (hgrows : ∀ row ∈ stored.migrations, row ∈ stored'.migrations)
    (hstep : Resumes config directory goal files stored →
      Resumes config directory goal files stored') :
    Resumes config directory goal (done ++ files) stored' := by
  induction done with
  | nil => exact hstep h
  | cons other done ih =>
      obtain ⟨sql, migration, hread, hparse, ⟨hrow, hrest⟩ | ⟨hnew, -⟩⟩ := h
      · have hkept := ih hrest fun file hfile => hdone file (List.mem_cons_of_mem _ hfile)
        exact ⟨sql, migration, hread, hparse, Or.inl ⟨hgrows _ hrow, hkept⟩⟩
      · obtain ⟨sql', -, hrow⟩ := hdone other List.mem_cons_self
        exact absurd rfl (hnew _ hrow)

/-- What is left to do about the next file. -/
theorem Resumes.next (h : Resumes config directory goal (file :: rest) stored)
    (hread : directory.read file = some sql)
    (hunrecorded : ∀ row ∈ stored.migrations, row.name ≠ file) {migration : Migration}
    (hparse : parseMigration sql = .ok migration) :
    ResumesNew config directory goal file sql migration rest stored := by
  obtain ⟨sql', migration', hread', hparse', ⟨hrow, -⟩ | ⟨-, hleft⟩⟩ := h
  · exact absurd rfl (hunrecorded _ hrow)
  · obtain rfl := Option.some.inj (hread.symm.trans hread')
    obtain rfl := Except.ok.inj (hparse.symm.trans hparse')
    exact hleft

theorem Catalog.setRelation_setRelation (catalog : Catalog σ)
    (relation relation' : Option Relation) :
    (catalog.setRelation name relation).setRelation name relation' =
      catalog.setRelation name relation' := by
  simp [Catalog.setRelation]

theorem Catalog.setRelation_eq_self {catalog : Catalog σ} {relation : Option Relation}
    (h : catalog.relations name = relation) : catalog.setRelation name relation = catalog := by
  rw [Catalog.setRelation, ← h, Function.update_eq_self]

theorem Advances.resumes {noted : List MigrationEvent}
    (hstep : Advances config (· = directory) stored noted stored')
    (h : Resumes config directory goal directory.sqlFiles stored) :
    Resumes config directory goal directory.sqlFiles stored' := by
  cases hstep with
  | execute accepted next asks runs =>
      subst accepted
      rw [next.files] at h ⊢
      refine h.under next.recorded (fun _ => List.mem_append_left _) fun hnext => ?_
      obtain ⟨catalog, hrun, hgoal⟩ := hnext.next next.read next.unrecorded asks
      obtain rfl := Option.some.inj (runs.symm.trans hrun)
      exact ⟨_, _, next.read, asks, Or.inl ⟨List.mem_append_right _ (List.mem_singleton_self _),
        settle_resumes hgoal⟩⟩
  | alter accepted next asks before after =>
      subst accepted
      rw [next.files] at h ⊢
      refine h.under next.recorded (fun _ hrow => hrow) fun hnext => ?_
      obtain ⟨executableSql, hparse⟩ := asks
      obtain ⟨-, hgoal⟩ := hnext.next next.read next.unrecorded hparse
      refine ⟨_, _, next.read, hparse, Or.inr ⟨next.unrecorded, ?_, ?_⟩⟩
      · dsimp only [Catalog.setRelation]
        rw [Function.update_self]
        exact after
      · rw [Catalog.setRelation_setRelation]
        exact hgoal
  | index accepted next asks finished =>
      subst accepted
      rw [next.files] at h ⊢
      refine h.under next.recorded (fun _ => List.mem_append_left _) fun hnext => ?_
      obtain ⟨executableSql, hparse⟩ := asks
      obtain ⟨-, hgoal⟩ := hnext.next next.read next.unrecorded hparse
      rw [Catalog.setRelation_eq_self finished] at hgoal
      exact ⟨_, _, next.read, hparse, Or.inl ⟨List.mem_append_right _ (List.mem_singleton_self _),
        settle_resumes hgoal⟩⟩

/-- Whatever calls on a directory have done, what is left to do leads to the same database. -/
theorem Replays.resumes {initial : Stored σ} {events : List MigrationEvent}
    (h : Replays config (· = directory) initial events stored)
    (hgoal : settle config directory directory.sqlFiles initial = some goal) :
    Resumes config directory goal directory.sqlFiles stored :=
  h.kept (Resumes config directory goal directory.sqlFiles) (settle_resumes hgoal)
    fun _ _ _ hstep hresumes => hstep.resumes hresumes

/-! ### One more call -/

def Server.setStored (server : Server σ) (stored : Stored σ) : Server σ :=
  { server with catalog := stored.catalog, migrations := stored.migrations }

theorem settleNew_unique {migration : Migration}
    (h : settleNew config file sql migration stored = some stored')
    (hnew : ∀ row ∈ stored.migrations, row.name ≠ file)
    (hunique : UniqueKey MigrationRow.name stored.migrations) :
    UniqueKey MigrationRow.name stored'.migrations := by
  have hrow : UniqueKey MigrationRow.name (stored.migrations ++ [migrationRow config file sql]) :=
    hunique.append hnew
  obtain ⟨executableSql, mode⟩ := migration
  cases mode with
  | transactional =>
      obtain ⟨catalog, -, rfl⟩ := Option.map_eq_some_iff.1 h
      exact hrow
  | concurrentIndex name =>
      simp only [settleNew] at h
      split at h
      · obtain rfl := Option.some.inj h
        exact hrow
      · cases h

theorem reaches_settleFile (hwork : server.work pid = none)
    (hunique : UniqueKey MigrationRow.name server.migrations)
    (h : settleFile config directory file server.stored = some stored) :
    UniqueKey MigrationRow.name stored.migrations ∧
      ∃ events, Chronicle.Reaches pid (applyFile config directory file) server ()
        (server.setStored stored) events := by
  unfold settleFile at h
  cases hread : directory.read file with
  | none => simp [hread] at h
  | some sql =>
      cases hparse : parseMigration sql with
      | error error => simp [hread, hparse] at h
      | ok migration =>
          simp only [hread, hparse] at h
          split at h
          next hrow =>
            obtain rfl := Option.some.inj h
            refine ⟨hunique, [], reaches_applyFile_recorded hread hparse ?_⟩
            exact hunique.lookup_of_mem hrow
          next =>
            split at h
            · cases h
            next hnot =>
              have hunrecorded : server.isRecorded file = false := Bool.eq_false_iff.2 hnot
              refine ⟨settleNew_unique h (isRecorded_eq_false.1 hunrecorded) hunique, ?_⟩
              obtain ⟨executableSql, mode⟩ := migration
              cases mode with
              | transactional =>
                  obtain ⟨catalog, hrun, rfl⟩ := Option.map_eq_some_iff.1 h
                  exact ⟨_, reaches_applyFile_transactional hread hparse hwork hunrecorded hrun⟩
              | concurrentIndex name =>
                  simp only [settleNew] at h
                  split at h
                  next hindex =>
                    obtain rfl := Option.some.inj h
                    exact ⟨_, reaches_applyFile_concurrentIndex hread hparse hunrecorded hindex⟩
                  · cases h

theorem reaches_settle (hwork : server.work pid = none)
    (hunique : UniqueKey MigrationRow.name server.migrations)
    (h : settle config directory files server.stored = some goal) :
    ∃ events, Chronicle.Reaches pid (applyFiles config directory files) server ()
      (server.setStored goal) events := by
  induction files generalizing server with
  | nil =>
      obtain rfl := Option.some.inj h
      exact ⟨[], Chronicle.reaches_pure ()⟩
  | cons file files ih =>
      obtain ⟨stored, hfile, hrest⟩ := Option.bind_eq_some_iff.1 h
      obtain ⟨hunique', events, hreaches⟩ := reaches_settleFile hwork hunique hfile
      have hwork' : (server.setStored stored).work pid = none := hwork
      obtain ⟨events', hreaches'⟩ := ih hwork' hunique' hrest
      exact ⟨events' ++ events, hreaches.bind hreaches'⟩

/-- An undisturbed call makes the database that it is to make. -/
theorem reaches_runMigrations_settle (hfree : server.lock = none) (hwork : server.work pid = none)
    (hunique : UniqueKey MigrationRow.name server.migrations)
    (h : settle config directory directory.sqlFiles server.stored = some goal) :
    ∃ events, Chronicle.Reaches pid (runMigrations config directory) server ()
      (server.setStored goal) events := by
  have hlocked : ({ server with lock := some pid } : Server σ).work pid = none := hwork
  obtain ⟨events, hreaches⟩ := reaches_settle hlocked hunique h
  have hcall := reaches_runMigrations hfree hreaches rfl
  have hsame : { server.setStored goal with lock := none } = server.setStored goal := by
    rw [← hfree]
    rfl
  exact ⟨events, hsame ▸ hcall⟩

/-! ### A file that is stuck -/

/-- Nothing happens any more. -/
def stuckLogic (directory : Directory) (stored : Stored σ) :
    Logic (MigrationWorld σ) Directory MigrationFailure Unit where
  invariant w := w.current.stored = stored
  rely _ _ _ := True
  guarantee _ _ _ _ := True
  allowed _ _ := True
  requires request _ := request = directory
  ensures _ _ _ _ := False
  rely_refl _ _ := trivial
  rely_trans _ _ := trivial
  guarantee_refl _ _ _ := trivial
  rely_of_guarantee _ _ := trivial

section Stuck

variable {w : MigrationWorld σ} {request : Directory}

/-- A statement that leaves the database as it is. -/
theorem holds_idleQuery {α : Type} {call : ℕ → Query σ α} {returned : α → Prop}
    (hcall : ∀ server value server', server.stored = stored →
      call pid server = .ok (value, server') → server'.stored = stored ∧ returned value) :
    (stuckLogic directory stored).Holds request pid (query call) (fun value _ => returned value)
      (fun _ _ => True) w := by
  apply Chronicle.holds_statement (fun _ => True) (fun _ _ _ => trivial)
  · intro before value server _ hinv hok
    obtain ⟨hafter, hvalue⟩ := hcall _ _ _ hinv hok
    exact ⟨hafter, trivial, fun _ _ _ => hvalue, fun _ _ _ _ => trivial⟩
  · exact fun _ _ _ _ _ _ _ => trivial

theorem holds_findMigration_idle :
    (stuckLogic directory stored).Holds request pid (query fun _ => findMigration file)
      (fun applied _ => applied = stored.migrations.find? (·.name = file)) (fun _ _ => True) w := by
  apply holds_idleQuery
  rintro server value server' rfl hok
  obtain ⟨rfl, rfl⟩ := Prod.mk.inj (Except.ok.inj hok)
  exact ⟨rfl, rfl⟩

/-- A file that the table has. -/
theorem holds_applyFile_idle (h : Recorded config directory stored.migrations file) :
    (stuckLogic directory stored).Holds request pid (applyFile config directory file)
      (fun _ _ => True) (fun _ _ => True) w := by
  obtain ⟨sql, hread, hrow⟩ := h
  unfold applyFile
  rw [hread]
  dsimp only
  cases hparse : parseMigration sql with
  | error error => exact Logic.holds_throw fun _ _ _ => trivial
  | ok migration =>
      apply holds_findMigration_idle.next (fun _ _ _ _ => trivial)
      rintro applied w' - rfl
      cases hfind : stored.migrations.find? (·.name = file) with
      | none => exact absurd (decide_eq_true rfl) (List.find?_eq_none.1 hfind _ hrow)
      | some row =>
          dsimp only
          split
          · exact Logic.holds_throw fun _ _ _ => trivial
          · exact Logic.holds_pure fun _ _ _ => trivial

/-- The file that is stuck. -/
theorem holds_applyFile_stuck {marker : Option Text} (hread : directory.read file = some sql)
    (hunrecorded : ∀ row ∈ stored.migrations, row.name ≠ file) (hasks : IsConcurrent sql name)
    (hindex : stored.catalog.relations name = some (.index ⟨true, true, marker⟩))
    (hmarker : marker ≠ some (concurrentIndexMarker config file (config.sha256 sql))) :
    (stuckLogic directory stored).Holds request pid (applyFile config directory file)
      (fun _ _ => False) (fun _ _ => True) w := by
  obtain ⟨executableSql, hparse⟩ := hasks
  unfold applyFile
  rw [hread]
  dsimp only
  rw [hparse]
  dsimp only
  apply holds_findMigration_idle.next (fun _ _ _ _ => trivial)
  rintro applied w' - rfl
  have hfind : stored.migrations.find? (·.name = file) = none := by
    rw [List.find?_eq_none]
    exact fun row hrow hname => hunrecorded row hrow (of_decide_eq_true hname)
  rw [hfind]
  dsimp only
  have hprepare : (stuckLogic directory stored).Holds request pid
      (prepareConcurrentIndexTarget name (concurrentIndexMarker config file (config.sha256 sql)))
      (fun _ _ => False) (fun _ _ => True) w' := by
    unfold prepareConcurrentIndexTarget
    have hstate : (stuckLogic directory stored).Holds request pid
        (query fun _ => concurrentIndexState name)
        (fun found _ => found = some ⟨true, true, marker⟩) (fun _ _ => True) w' := by
      apply holds_idleQuery
      rintro server value server' rfl hok
      obtain ⟨rfl, rfl⟩ := Prod.mk.inj (Except.ok.inj hok)
      exact ⟨rfl, indexState_eq_some.2 hindex⟩
    apply hstate.next (fun _ _ _ _ => trivial)
    rintro found w'' - rfl
    dsimp only
    rw [if_pos ⟨rfl, rfl⟩, if_pos hmarker]
    exact Logic.holds_throw fun _ _ _ => trivial
  unfold applyConcurrentIndex
  apply hprepare.next (fun _ _ _ _ => trivial)
  exact fun _ _ _ h => h.elim

theorem holds_applyFiles_stuck
    (hdone : ∀ other ∈ done, Recorded config directory stored.migrations other)
    (hfile : ∀ w, (stuckLogic directory stored).Holds request pid (applyFile config directory file)
      (fun _ _ => False) (fun _ _ => True) w) :
    (stuckLogic directory stored).Holds request pid
      (applyFiles config directory (done ++ file :: rest)) (fun _ _ => False) (fun _ _ => True)
      w := by
  induction done generalizing w with
  | nil =>
      apply (hfile w).next (fun _ _ _ _ => trivial)
      exact fun _ _ _ h => h.elim
  | cons other done ih =>
      apply (holds_applyFile_idle (hdone other List.mem_cons_self)).next (fun _ _ _ _ => trivial)
      exact fun _ _ _ _ => ih fun file hmem => hdone file (List.mem_cons_of_mem _ hmem)

/-- No call gets past the file that is stuck, and none does anything about it. -/
theorem stuck_sound (h : Stuck config directory stored) :
    (stuckLogic directory stored).Sound (migrationSystem config (· = directory)) where
  accepts hrequest _ := hrequest
  code := by
    rintro request s pid rfl - -
    obtain ⟨done, file, sql, rest, name, marker, hnext, hasks, hindex, hmarker⟩ := h
    change Logic.Holds _ _ _ (runMigrations config request) _ _ _
    unfold runMigrations
    have hlocks : (stuckLogic request stored).Holds request pid (.attempt Locks)
        (fun _ _ => True) (fun _ _ => True) s := by
      apply Logic.holds_attempt (fun _ => True) (fun _ _ _ => trivial)
      intro before reply after _ hinv hact _
      cases hact with
      | locked free => exact ⟨hinv, trivial, fun _ _ _ => trivial⟩
      | unreachable failure => exact ⟨hinv, trivial, fun _ _ _ => trivial⟩
    have hunlock : ∀ w, (stuckLogic request stored).Holds request pid (query unlock)
        (fun _ _ => True) (fun _ _ => True) w := by
      intro w
      apply holds_idleQuery
      rintro server value server' rfl hok
      obtain ⟨-, rfl⟩ := Prod.mk.inj (Except.ok.inj hok)
      exact ⟨rfl, trivial⟩
    apply hlocks.next (fun _ _ _ _ => trivial)
    intro _ w _ _
    have hbody : (stuckLogic request stored).Holds request pid
        (tryCatch
          (do
            query fun _ => createMigrations
            applyFiles config request request.sqlFiles)
          fun error => do
            query unlock
            throw error)
        (fun _ _ => False) (fun _ _ => True) w := by
      apply Logic.Holds.tryCatch
      have hcreate : (stuckLogic request stored).Holds request pid (query fun _ => createMigrations)
          (fun _ _ => True) (fun _ _ => True) w := by
        apply holds_idleQuery
        rintro server value server' rfl hok
        obtain ⟨-, rfl⟩ := Prod.mk.inj (Except.ok.inj hok)
        exact ⟨rfl, trivial⟩
      have hfiles : (stuckLogic request stored).Holds request pid
          (do
            query fun _ => createMigrations
            applyFiles config request request.sqlFiles) (fun _ _ => False) (fun _ _ => True) w := by
        apply hcreate.next (fun _ _ _ _ => trivial)
        intro _ w _ _
        rw [hnext.files]
        exact holds_applyFiles_stuck hnext.recorded fun w =>
          holds_applyFile_stuck hnext.read hnext.unrecorded hasks hindex hmarker
      refine hfiles.mono (fun _ _ _ h => h) fun error w _ _ => ?_
      apply (hunlock w).next (fun _ _ _ _ => trivial)
      exact fun _ _ _ _ => Logic.holds_throw fun _ _ _ => trivial
    apply hbody.next (fun _ _ _ _ => trivial)
    exact fun _ _ _ h => h.elim
  environment moves := moves.elim
  rollback := fun _ hinv => ⟨hinv, fun _ _ => trivial⟩

end Stuck

/-- The runs of calls after a file is stuck. -/
theorem Stuck.forever (h : Stuck config directory server.stored) {c : MigrationConfiguration σ}
    (hrun : MigrationRun config (· = directory) server c) :
    c.state.current.stored = server.stored ∧
      ∀ pid : ℕ, c.threads[pid]? ≠ some ⟨directory, .done ()⟩ := by
  have hstart : (stuckLogic directory server.stored).Good (.idle (.start server)) :=
    Logic.good_idle rfl fun _ => trivial
  have hgood := (stuck_sound h).reachable hstart hrun
  exact ⟨hgood.invariant, fun pid hthread => Logic.Sound.ensures hgood hthread⟩

/-- **Starting again.** If an undisturbed call on a directory makes some database, then in every run
of any number of calls on it, wherever they fail or stop: once a call has returned the database is
that one; and if all processes are gone at any point, then either one more undisturbed call makes it,
or the next file is stuck, and then no call ever returns again, whatever else is tried. -/
theorem migrations_recover (hunique : UniqueKey MigrationRow.name server.migrations)
    (hgoal : settle config directory directory.sqlFiles server.stored = some goal)
    {c : MigrationConfiguration σ} (hrun : MigrationRun config (· = directory) server c) :
    (∀ pid : ℕ, c.threads[pid]? = some ⟨directory, .done ()⟩ → c.state.current.stored = goal) ∧
    ∀ server' : Server σ, server'.stored = c.state.current.stored →
      server'.lock = none → (∀ pid, server'.work pid = none) →
        (¬ Stuck config directory server'.stored ∧ ∃ log,
          MigrationRun config (· = directory) server'
            ⟨⟨server'.setStored goal, log⟩, [⟨directory, .done ()⟩]⟩) ∨
        (Stuck config directory server'.stored ∧ ∀ c', MigrationRun config (· = directory) server' c' →
          c'.state.current.stored = server'.stored ∧
            ∀ pid : ℕ, c'.threads[pid]? ≠ some ⟨directory, .done ()⟩) := by
  have hreplays : Replays config (· = directory) server.stored (c.state.log.map Prod.snd)
      c.state.current.stored := hrun.good.invariant
  have hresumes := hreplays.resumes hgoal
  constructor
  · intro pid hthread
    exact hresumes.eq_goal (Logic.Sound.ensures hrun.good hthread)
  · intro server' hstored hfree hwork
    rw [← hstored] at hreplays hresumes
    by_cases hstuck : Stuck config directory server'.stored
    · exact Or.inr ⟨hstuck, fun c' hrun' => hstuck.forever hrun'⟩
    · refine Or.inl ⟨hstuck, ?_⟩
      have hnone : ∀ other ∈ ([] : List Text),
          Recorded config directory server'.stored.migrations other :=
        fun _ hmem => absurd hmem List.not_mem_nil
      have hsettle := (hresumes.settle_or_stuck rfl hnone).resolve_right hstuck
      obtain ⟨events, hreaches⟩ := reaches_runMigrations_settle hfree (hwork 0)
        (hreplays.unique hunique) hsettle
      exact ⟨_, Reachable.serve Relation.ReflTransGen.refl rfl trivial (hreaches [])⟩

/-! A process dies after it has built the index, and before it has marked it. -/

def createTokensIndex : Text := ("-- chattea:migration-mode=non-transactional\n" ++
  "CREATE INDEX CONCURRENTLY IF NOT EXISTS tokens_idx ON tokens (id);").toList

def tokensIndexFile : Text := "0002_tokens_idx.sql".toList

def tokensIndex : Text := "tokens_idx".toList

def tokensIndexChecksum : Text :=
  "002556380a88a782d0ca0ef50d7234f0a6dca33bd3e0cad2aedc8b74c7856094".toList

def indexConfig : MigrationConfig (List Text) where
  sha256 text :=
    if text = createTokensIndex then tokensIndexChecksum
    else if text = tokensIndexFile ++ [Char.ofNat 0] ++ tokensIndexChecksum then
      "193dbe6ed41a56e1a73361bdedef3554f8ed7e5fac68f94c6bb78dca991dd152".toList
    else []
  run text catalog := some { catalog with rest := catalog.rest ++ [text] }

def indexDirectory : Directory where
  files := [(tokensIndexFile, createTokensIndex)]
  unique := List.nodup_singleton _

/-- The server after the process has died. -/
def unmarked : Server (List Text) :=
  (Server.fresh emptyCatalog).setRelation tokensIndex (some (.index ⟨true, true, none⟩))

theorem parse_createTokensIndex : parseMigration createTokensIndex =
    .ok ⟨createTokensIndex, .concurrentIndex tokensIndex⟩ := by
  decide +kernel

theorem sqlFiles_indexDirectory : indexDirectory.sqlFiles = [tokensIndexFile] := by decide

theorem read_indexDirectory : indexDirectory.read tokensIndexFile = some createTokensIndex := by
  simp [Directory.read, indexDirectory]

theorem getsTo_unmarked : Chronicle.GetsTo 0 (runMigrations indexConfig indexDirectory)
    (Server.fresh emptyCatalog) { unmarked with lock := some 0 } [] := by
  let locked : Server (List Text) := { Server.fresh emptyCatalog with lock := some 0 }
  have hlocks : Chronicle.Reaches 0 (.attempt Locks : MigrationProg (List Text) Unit)
      (Server.fresh emptyCatalog) () locked [] :=
    fun log => .step (.ok ()) _ (.locked rfl) trivial .refl
  have hcreate : Chronicle.Reaches 0
      (query fun _ => createMigrations : MigrationProg (List Text) Unit) locked () locked [] :=
    reaches_query rfl
  have hfind : Chronicle.Reaches 0
      (query fun _ => findMigration tokensIndexFile : MigrationProg (List Text) _) locked none
      locked [] := reaches_findMigration_none rfl
  have hprepare : Chronicle.Reaches 0 (prepareConcurrentIndexTarget tokensIndex
      (concurrentIndexMarker indexConfig tokensIndexFile (indexConfig.sha256 createTokensIndex)))
      locked false locked [] := by
    have hstate : concurrentIndexState tokensIndex locked = .ok (none, locked) := rfl
    exact (reaches_query hstate).follow (Chronicle.reaches_pure false)
  have hindex : Chronicle.GetsTo 0
      (applyConcurrentIndex indexConfig tokensIndexFile createTokensIndex tokensIndex) locked
      { unmarked with lock := some 0 } [] :=
    hprepare.getsTo_follow ((reaches_executeConcurrentIndex rfl).getsTo.bind _)
  have hfile : Chronicle.GetsTo 0 (applyFile indexConfig indexDirectory tokensIndexFile) locked
      { unmarked with lock := some 0 } [] := by
    unfold applyFile
    rw [read_indexDirectory]
    dsimp only
    rw [parse_createTokensIndex]
    exact hfind.getsTo_follow hindex
  have hfiles : Chronicle.GetsTo 0 (applyFiles indexConfig indexDirectory indexDirectory.sqlFiles)
      locked { unmarked with lock := some 0 } [] := by
    rw [sqlFiles_indexDirectory]
    exact hfile.bind _
  have hbody : Chronicle.GetsTo 0
      (do
        query fun _ => createMigrations
        applyFiles indexConfig indexDirectory indexDirectory.sqlFiles) locked
      { unmarked with lock := some 0 } [] := hcreate.getsTo_follow hfiles
  unfold runMigrations
  apply hlocks.getsTo_follow
  exact (hbody.tryCatch _).bind _

theorem migrationRun_unmarked : MigrationRun indexConfig (· = indexDirectory)
    (.fresh emptyCatalog) ⟨.start unmarked, [⟨indexDirectory, .stopped⟩]⟩ := by
  obtain ⟨program, hruns⟩ := getsTo_unmarked
  have hcalled : MigrationRun indexConfig (· = indexDirectory) (.fresh emptyCatalog)
      ⟨.start { unmarked with lock := some 0 }, [⟨indexDirectory, program⟩]⟩ :=
    Reachable.serve Relation.ReflTransGen.refl rfl trivial (hruns [])
  have hrollback : (migrationSystem indexConfig (· = indexDirectory)).rollback 0
      (.start { unmarked with lock := some 0 }) = .start unmarked := by
    have hwork : Function.update unmarked.work 0 none = unmarked.work :=
      Function.update_eq_self 0 unmarked.work
    simp only [migrationSystem, Chronicle.start, Chronicle.advance, hwork]
    rfl
  let running : MigrationConfiguration (List Text) :=
    ⟨.start { unmarked with lock := some 0 }, [⟨indexDirectory, program⟩]⟩
  have hthread : running.threads[0]? = some ⟨indexDirectory, program⟩ := rfl
  have hstop : Step (migrationSystem indexConfig (· = indexDirectory)) running
      ⟨.start unmarked, [⟨indexDirectory, .stopped⟩]⟩ := by
    rw [← hrollback]
    exact .stop hthread
  exact Relation.ReflTransGen.tail hcalled ⟨hstop, trivial⟩

theorem stuck_unmarked : Stuck indexConfig indexDirectory unmarked.stored := by
  refine ⟨[], tokensIndexFile, createTokensIndex, [], tokensIndex, none,
    ⟨sqlFiles_indexDirectory, read_indexDirectory, ?_, ?_⟩, ⟨_, parse_createTokensIndex⟩, ?_, by simp⟩
  · exact fun _ hmem => absurd hmem List.not_mem_nil
  · exact fun _ hrow => absurd hrow List.not_mem_nil
  · exact setRelation_relations (Server.fresh emptyCatalog) _

theorem settle_indexDirectory : settle indexConfig indexDirectory indexDirectory.sqlFiles
    (Server.fresh emptyCatalog).stored = some
      ⟨emptyCatalog.setRelation tokensIndex
        (some (fileIndex indexConfig tokensIndexFile createTokensIndex)),
        [migrationRow indexConfig tokensIndexFile createTokensIndex]⟩ := by
  rw [sqlFiles_indexDirectory]
  simp only [settle, settleFile, read_indexDirectory, parse_createTokensIndex]
  rfl

theorem migrations_recover_unmarked : Stuck indexConfig indexDirectory unmarked.stored ∧
    ∀ c, MigrationRun indexConfig (· = indexDirectory) unmarked c →
      ∀ pid : ℕ, c.threads[pid]? ≠ some ⟨indexDirectory, .done ()⟩ := by
  have hunique : UniqueKey MigrationRow.name (Server.fresh emptyCatalog).migrations :=
    List.nodup_nil
  have hrecover := (migrations_recover hunique settle_indexDirectory migrationRun_unmarked).2
    unmarked rfl rfl fun _ => rfl
  rcases hrecover with ⟨hnot, -⟩ | ⟨-, hforever⟩
  · exact absurd stuck_unmarked hnot
  · exact ⟨stuck_unmarked, fun c hrun => (hforever c hrun).2⟩

end ChatTea.Migrations
