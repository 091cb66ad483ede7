import Mathlib
import ChatTea.Database.Uuid
import ChatTea.Lib.PostgresLexer
import ChatTea.Lib.Regex

/-!
# Migration files

What `scripts/migrate.ts` reads from the text of a migration. The first line may ask for a run
outside of a transaction. The rest then has to be one statement that creates an index
concurrently, in the few forms that a regular expression knows, and the name of the index is read
from it.

## Main definitions

* `concurrentIndexStatement` — the regular expression, with its group
* `parseMigration` — the mode of a migration
* `CreatesIndex` — the text is run outside of a transaction, for the index of a name

## Main results

* `concurrentIndexStatement_eq_some` — a match has a text for each part of the expression
* `splitLines_spec` — a text is its first line, a line end and the lines behind it
* `CreatesIndex.parts` — the header and a statement whose lines may end in two ways
-/

namespace ChatTea.Migrations

open Postgres (lineFeed carriageReturn doubleQuote)

inductive MigrationError
  | unsupportedComment
  | unsupportedSyntax
  | invalidMode (firstLine : Text)
deriving DecidableEq

def MigrationError.message : MigrationError → Text
  | .unsupportedComment => "unsupported non-transactional SQL comment".toList
  | .unsupportedSyntax => "unsupported concurrent index syntax".toList
  | .invalidMode firstLine => "invalid migration mode: ".toList ++ firstLine

/-! ### Lines -/

def byteOrderMark : Char := Char.ofNat 0xFEFF

/-- `text.split(/\r?\n/)` -/
def splitLines : Text → List Text
  | [] => [[]]
  | c :: text =>
    let lines := splitLines text
    if c = lineFeed then [] :: lines
    -- The carriage return before a line feed belongs to the end of the line.
    else if c = carriageReturn ∧ text.head? = some lineFeed then lines
    else (c :: lines.headD []) :: lines.tail

/-- `lines.join("\n")` -/
def joinLines (lines : List Text) : Text := [lineFeed].intercalate lines

def contains (pattern text : Text) : Bool := text.tails.any pattern.isPrefixOf

/-! ### The statement of a concurrent index -/

def nonTransactionalHeader : Text := "-- chattea:migration-mode=non-transactional".toList

def migrationModePrefix : Text := "-- chattea:migration-mode=".toList

def isSqlWhitespace (c : Char) : Bool := c = ' ' || c = Char.ofNat 9 || c = lineFeed ||
  c = carriageReturn

def sqlWhitespace : Regex := .chars isSqlWhitespace

def keyword (word : String) : Regex := .caseless word.toList

def startsIdentifier (c : Char) : Bool := c.isAlpha || c == '_'

def continuesIdentifier (c : Char) : Bool := c.isAlphanum || c == '_' || c == '$'

/-- `[a-z_][a-z0-9_$]*`, in any case -/
def plainIdentifier : Regex := .seq (.chars startsIdentifier) (.star (.chars continuesIdentifier))

def sqlIdentifier : Regex :=
  .alt (.seqAll [.char doubleQuote, plainIdentifier, .char doubleQuote]) plainIdentifier

def indexColumn : Regex :=
  .seq sqlIdentifier
    (.optional (.seq (.plus sqlWhitespace) (.alt (keyword "ASC") (keyword "DESC"))))

def nullPredicate : Regex :=
  .seqAll [sqlIdentifier, .plus sqlWhitespace, keyword "IS", .plus sqlWhitespace,
    .optional (.seq (keyword "NOT") (.plus sqlWhitespace)), keyword "NULL"]

/-- The expression up to its group. -/
def beforeIndexName : Regex :=
  .seqAll [.star sqlWhitespace, keyword "CREATE", .plus sqlWhitespace,
    .optional (.seq (keyword "UNIQUE") (.plus sqlWhitespace)), keyword "INDEX",
    .plus sqlWhitespace, keyword "CONCURRENTLY", .plus sqlWhitespace, keyword "IF",
    .plus sqlWhitespace, keyword "NOT", .plus sqlWhitespace, keyword "EXISTS",
    .plus sqlWhitespace]

/-- The expression behind its group. -/
def afterIndexName : Regex :=
  .seqAll [.plus sqlWhitespace, keyword "ON", .plus sqlWhitespace, sqlIdentifier,
    .star sqlWhitespace, .char '(', .star sqlWhitespace, indexColumn,
    .star (.seqAll [.star sqlWhitespace, .char ',', .star sqlWhitespace, indexColumn]),
    .star sqlWhitespace, .char ')',
    .optional (.seqAll [.plus sqlWhitespace, keyword "WHERE", .plus sqlWhitespace, nullPredicate,
      .star (.seqAll [.plus sqlWhitespace, keyword "AND", .plus sqlWhitespace, nullPredicate])]),
    .star sqlWhitespace, .char ';', .star sqlWhitespace]

/-- `concurrentIndexStatement.exec(statement)`: the group of the first match. -/
def concurrentIndexStatement (statement : Text) : Option Text :=
  ((beforeIndexName.rests statement).flatMap fun fromName =>
    (plainIdentifier.rests fromName).filterMap fun afterName =>
      if [] ∈ afterIndexName.rests afterName then
        some (fromName.take (fromName.length - afterName.length))
      else none).head?

/-- A match has a text for each part of the expression. -/
theorem concurrentIndexStatement_eq_some {statement name : Text}
    (h : concurrentIndexStatement statement = some name) :
    ∃ before after, statement = before ++ (name ++ after) ∧ before ∈ beforeIndexName.language ∧
      name ∈ plainIdentifier.language ∧ after ∈ afterIndexName.language := by
  obtain ⟨fromName, hfrom, hname⟩ := List.mem_flatMap.1 (List.mem_of_mem_head? h)
  obtain ⟨afterName, hrest, hname⟩ := List.mem_filterMap.1 hname
  split at hname
  next hend =>
    obtain ⟨before, rfl, hbefore⟩ := (Regex.mem_rests_iff _ _ _).1 hfrom
    obtain ⟨group, rfl, hgroup⟩ := (Regex.mem_rests_iff _ _ _).1 hrest
    obtain ⟨after, hafterName, hafter⟩ := (Regex.mem_rests_iff _ _ _).1 hend
    rw [List.append_nil] at hafterName
    have htake : (group ++ afterName).take ((group ++ afterName).length - afterName.length) =
        group := by
      rw [List.length_append, Nat.add_sub_cancel, List.take_left]
    rw [htake] at hname
    obtain rfl := Option.some.inj hname
    exact ⟨before, afterName, rfl, hbefore, hgroup, hafterName ▸ hafter⟩
  next => cases hname

/-! ### The mode of a migration -/

inductive MigrationMode
  | transactional
  | concurrentIndex (name : Text)
deriving DecidableEq

structure Migration where
  executableSql : Text
  mode : MigrationMode
deriving DecidableEq

def parseConcurrentIndex (executableSql : Text) : Except MigrationError Text :=
  let statement := joinLines (splitLines executableSql).tail
  if contains "--".toList statement || contains "/*".toList statement then
    .error .unsupportedComment
  else
    match concurrentIndexStatement statement with
    | none => .error .unsupportedSyntax
    | some name => .ok name.lower

/-- `sql.replace(/^\uFEFF/, "")` -/
def withoutByteOrderMark (sql : Text) : Text :=
  if sql.head? = some byteOrderMark then sql.tail else sql

def parseMigration (sql : Text) : Except MigrationError Migration :=
  let executableSql := withoutByteOrderMark sql
  let firstLine := (splitLines executableSql).headD []
  if firstLine = nonTransactionalHeader then do
    let name ← parseConcurrentIndex executableSql
    return ⟨executableSql, .concurrentIndex name⟩
  else if migrationModePrefix.isPrefixOf firstLine then .error (.invalidMode firstLine)
  else .ok ⟨executableSql, .transactional⟩

/-- The text of a file that is run outside of a transaction, for an index of a name. -/
def CreatesIndex (sql executableSql name : Text) : Prop :=
  parseMigration sql = .ok ⟨executableSql, .concurrentIndex name⟩

/-! ### What is run, and what is parsed -/

/-- The lines of a text may end with a carriage return that is left out of another one. -/
inductive SameLines : Text → Text → Prop
  | nil : SameLines [] []
  | cons {text text' : Text} (c : Char) (h : SameLines text text') :
      SameLines (c :: text) (c :: text')
  | lineEnd {text text' : Text} (h : SameLines text text') :
      SameLines (carriageReturn :: lineFeed :: text) (lineFeed :: text')

theorem sameLines_splits : Regex.Splits SameLines where
  nil := by
    intro text h
    cases h
    rfl
  append := by
    intro text first second h
    induction first generalizing text with
    | nil => exact ⟨[], text, rfl, .nil, h⟩
    | cons c first ih =>
        cases h with
        | cons c h =>
            obtain ⟨first', second', rfl, hfirst, hsecond⟩ := ih h
            exact ⟨c :: first', second', rfl, .cons c hfirst, hsecond⟩
        | lineEnd h =>
            obtain ⟨first', second', rfl, hfirst, hsecond⟩ := ih h
            exact ⟨carriageReturn :: lineFeed :: first', second', rfl, .lineEnd hfirst, hsecond⟩

theorem SameLines.refl : ∀ text, SameLines text text
  | [] => .nil
  | c :: text => .cons c (refl text)

/-- A text without line feeds has one line. -/
theorem SameLines.eq {text text' : Text} (h : SameLines text' text) (hline : lineFeed ∉ text) :
    text' = text := by
  induction h with
  | nil => rfl
  | cons c h ih => rw [ih fun hmem => hline (List.mem_cons_of_mem c hmem)]
  | lineEnd h ih => exact absurd List.mem_cons_self hline

theorem splitLines_lineFeed (text : Text) :
    splitLines (lineFeed :: text) = [] :: splitLines text := by
  rw [splitLines]
  exact if_pos rfl

theorem splitLines_carriageReturn (text : Text) :
    splitLines (carriageReturn :: lineFeed :: text) = [] :: splitLines text := by
  rw [splitLines, if_neg (by decide), if_pos ⟨rfl, rfl⟩, splitLines_lineFeed]

/-- How a text begins: with the end of its first line, or with a character of it. -/
theorem splitLines_cases (c : Char) (text : Text) :
    c = lineFeed ∨ (c = carriageReturn ∧ ∃ later, text = lineFeed :: later) ∨
      splitLines (c :: text) = (c :: (splitLines text).headD []) :: (splitLines text).tail := by
  by_cases hfeed : c = lineFeed
  · exact Or.inl hfeed
  · by_cases hreturn : c = carriageReturn ∧ text.head? = some lineFeed
    · obtain ⟨hc, hhead⟩ := hreturn
      exact Or.inr (Or.inl ⟨hc, text.tail, (List.eq_cons_of_mem_head? hhead)⟩)
    · apply Or.inr
      apply Or.inr
      rw [splitLines, if_neg hfeed, if_neg hreturn]

theorem joinLines_cons {lines : List Text} (line : Text) (h : lines ≠ []) :
    joinLines (line :: lines) = line ++ lineFeed :: joinLines lines := by
  cases lines with
  | nil => exact absurd rfl h
  | cons next lines => rfl

theorem joinLines_cons_cons (c : Char) (line : Text) (lines : List Text) :
    joinLines ((c :: line) :: lines) = c :: joinLines (line :: lines) := by
  cases lines <;> rfl

theorem exists_splitLines (text : Text) : ∃ first others, splitLines text = first :: others := by
  induction text with
  | nil => exact ⟨[], [], rfl⟩
  | cons c text ih =>
      rcases splitLines_cases c text with rfl | ⟨rfl, later, rfl⟩ | hsplit
      · exact ⟨[], _, splitLines_lineFeed text⟩
      · exact ⟨[], _, splitLines_carriageReturn later⟩
      · exact ⟨_, _, hsplit⟩

/-- Joined again, the lines of a text are the lines that it had. -/
theorem sameLines_joinLines (text : Text) : SameLines text (joinLines (splitLines text)) := by
  induction text with
  | nil => exact .nil
  | cons c text ih =>
      rcases splitLines_cases c text with rfl | ⟨rfl, later, rfl⟩ | hsplit
      · obtain ⟨first, others, hlines⟩ := exists_splitLines text
        rw [splitLines_lineFeed, joinLines_cons [] (by rw [hlines]; exact List.cons_ne_nil _ _)]
        exact .cons lineFeed ih
      · -- The line feed is the first character of the rest, which keeps it.
        obtain ⟨first, others, hlines⟩ := exists_splitLines later
        have hne : splitLines later ≠ [] := by
          rw [hlines]
          exact List.cons_ne_nil _ _
        rw [splitLines_lineFeed, joinLines_cons [] hne] at ih
        rw [splitLines_carriageReturn, joinLines_cons [] hne]
        cases ih with
        | cons _ hlater => exact .lineEnd hlater
      · obtain ⟨first, others, hlines⟩ := exists_splitLines text
        rw [hsplit, joinLines_cons_cons]
        rw [hlines] at ih ⊢
        exact .cons c ih

/-- A text is its first line, a line end, and the lines behind it. -/
theorem splitLines_spec (text : Text) :
    ∃ first others lineEnd body, splitLines text = first :: others ∧
      text = first ++ (lineEnd ++ body) ∧ (∀ c ∈ (lineEnd ++ body).head?, Postgres.endsLine c) ∧
      lineEnd.all Postgres.isSpace ∧ SameLines body (joinLines others) := by
  induction text with
  | nil =>
      refine ⟨[], [], [], [], rfl, rfl, ?_, rfl, .nil⟩
      intro c hc
      cases hc
  | cons c text ih =>
      rcases splitLines_cases c text with rfl | ⟨rfl, later, rfl⟩ | hsplit
      · refine ⟨[], splitLines text, [lineFeed], text, splitLines_lineFeed text, rfl, ?_, rfl,
          sameLines_joinLines text⟩
        intro c hc
        obtain rfl := Option.some.inj hc
        rfl
      · refine ⟨[], splitLines later, [carriageReturn, lineFeed], later,
          splitLines_carriageReturn later, rfl, ?_, rfl, sameLines_joinLines later⟩
        intro c hc
        obtain rfl := Option.some.inj hc
        rfl
      · obtain ⟨first, others, lineEnd, body, hlines, rfl, hend, hspace, hbody⟩ := ih
        refine ⟨c :: first, others, lineEnd, body, ?_, rfl, hend, hspace, hbody⟩
        rw [hsplit, hlines]
        rfl

/-- A text that is run outside of a transaction is the header, a line end, and the text that the
expression matches, up to how the lines of it end. -/
theorem CreatesIndex.parts {sql executableSql name : Text}
    (h : CreatesIndex sql executableSql name) :
    ∃ lineEnd body statement group, executableSql = nonTransactionalHeader ++ (lineEnd ++ body) ∧
      (∀ c ∈ (lineEnd ++ body).head?, Postgres.endsLine c) ∧ lineEnd.all Postgres.isSpace ∧
      SameLines body statement ∧ concurrentIndexStatement statement = some group ∧
      name = group.lower := by
  unfold CreatesIndex parseMigration at h
  dsimp only at h
  split at h
  next hheader =>
    obtain ⟨first, others, lineEnd, body, hlines, htext, hend, hspace, hbody⟩ :=
      splitLines_spec (withoutByteOrderMark sql)
    rw [hlines] at hheader
    obtain rfl : first = nonTransactionalHeader := hheader
    cases hparse : parseConcurrentIndex (withoutByteOrderMark sql) with
    | error failure =>
        rw [hparse] at h
        cases h
    | ok found =>
        rw [hparse] at h
        obtain ⟨rfl, hmode⟩ := Migration.mk.inj (Except.ok.inj h)
        obtain rfl := MigrationMode.concurrentIndex.inj hmode
        unfold parseConcurrentIndex at hparse
        dsimp only at hparse
        rw [hlines, List.tail_cons] at hparse
        split at hparse
        next => cases hparse
        next =>
          split at hparse
          next => cases hparse
          next group hgroup =>
            exact ⟨lineEnd, body, _, group, htext, hend, hspace, hbody, hgroup,
              (Except.ok.inj hparse).symm⟩
  next =>
    split at h
    next => cases h
    next => cases Except.ok.inj h

end ChatTea.Migrations
