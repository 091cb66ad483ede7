import Mathlib
import ChatTea.Lib.PostgresGrammar
import ChatTea.Migrations.Parse

/-!
# What a file outside of a transaction runs

The expression of `scripts/migrate.ts` sees the lines of a file, joined by line feeds; PostgreSQL
sees the file. Both cut it alike: the header is a comment up to the end of its line, and every text
that the expression matches has the tokens of one statement, whose only semicolon is the last of
them. So a file that is run outside of a transaction can do no more than create the index whose
name the program has read.

## Main definitions

* `createIndexConcurrently` — the tokens of a statement that creates the index of a name

## Main results

* `follows_beforeIndexName`, `follows_afterIndexName` — the expression does not see how lines end
* `closes_beforeIndexName`, `closes_afterIndexName` — the tokens of what the expression matches
* `nonTransactional_one_statement` — what is run is one statement for the index of the parsed name
-/

namespace ChatTea.Migrations

open Postgres Regex

/-! ### Line ends -/

theorem SameLines.ne_nil {text text' : Text} (h : SameLines text' text) (hne : text ≠ []) :
    text' ≠ [] := by
  cases h with
  | nil => exact absurd rfl hne
  | cons c h => exact List.cons_ne_nil _ _
  | lineEnd h => exact List.cons_ne_nil _ _

/-- Line ends are whitespace however they are spelled. -/
theorem SameLines.all_whitespace {text text' : Text} (h : SameLines text' text)
    (hall : text.all isSqlWhitespace) : text'.all isSqlWhitespace := by
  induction h with
  | nil => rfl
  | cons c h ih =>
      rw [List.all_cons, Bool.and_eq_true] at hall ⊢
      exact ⟨hall.1, ih hall.2⟩
  | lineEnd h ih =>
      rw [List.all_cons, Bool.and_eq_true] at hall
      rw [List.all_cons, List.all_cons, ih hall.2]
      rfl

/-- Whitespace may have its line ends changed. -/
theorem follows_spaces : Follows SameLines (.star sqlWhitespace) := by
  intro text text' h htext
  exact mem_star_of_all (h.all_whitespace (mem_star_chars htext))

theorem follows_gap : Follows SameLines (.plus sqlWhitespace) := by
  intro text text' h htext
  obtain ⟨hne, hall⟩ := mem_plus_chars.1 htext
  exact mem_plus_chars.2 ⟨h.ne_nil hne, h.all_whitespace hall⟩

/-- An expression that accepts no line feed has no line ends to be changed. -/
theorem follows_chars {accepts : Char → Bool} (h : ¬ accepts lineFeed) :
    Follows SameLines (.chars accepts) := by
  intro text text' hlines htext
  obtain ⟨c, hc, rfl⟩ := htext
  have hline : lineFeed ∉ [c] := by
    intro hmem
    rw [List.mem_singleton.1 hmem] at h
    exact h hc
  rw [hlines.eq hline]
  exact ⟨c, hc, rfl⟩

theorem follows_char {c : Char} (h : c ≠ lineFeed) : Follows SameLines (.char c) := by
  apply follows_chars
  intro hc
  exact h (eq_of_beq hc).symm

/-- A key word has no line ends. -/
theorem follows_keyword {word : String} (h : lineFeed ∉ word.toList) :
    Follows SameLines (keyword word) := by
  apply Follows.seqAll sameLines_splits
  intro part hpart
  obtain ⟨letter, hletter, rfl⟩ := List.mem_map.1 hpart
  apply follows_chars
  intro hline
  have hupper : lineFeed.toUpper = lineFeed := by decide
  rw [hupper] at hline
  rw [← eq_of_beq hline] at hletter
  exact h hletter

theorem follows_plainIdentifier : Follows SameLines plainIdentifier :=
  (follows_chars (by decide)).seq sameLines_splits
    ((follows_chars (by decide)).star sameLines_splits)

theorem follows_sqlIdentifier : Follows SameLines sqlIdentifier := by
  have hquote : Follows SameLines (.char doubleQuote) := follows_char (by decide)
  apply Follows.alt _ follows_plainIdentifier
  apply Follows.seqAll sameLines_splits
  simp [hquote, follows_plainIdentifier]

theorem follows_indexColumn : Follows SameLines indexColumn := by
  have hdirection : Follows SameLines (.alt (keyword "ASC") (keyword "DESC")) :=
    (follows_keyword (by decide)).alt (follows_keyword (by decide))
  exact follows_sqlIdentifier.seq sameLines_splits
    ((follows_gap.seq sameLines_splits hdirection).optional sameLines_splits)

theorem follows_keyword_gap {word : String} (h : lineFeed ∉ word.toList) :
    Follows SameLines (.optional (.seq (keyword word) (.plus sqlWhitespace))) :=
  ((follows_keyword h).seq sameLines_splits follows_gap).optional sameLines_splits

theorem follows_nullPredicate : Follows SameLines nullPredicate := by
  apply Follows.seqAll sameLines_splits
  simp (disch := decide) [follows_sqlIdentifier, follows_gap, follows_keyword, follows_keyword_gap]

/-- Up to the name of the index, line ends stand in whitespace. -/
theorem follows_beforeIndexName : Follows SameLines beforeIndexName := by
  apply Follows.seqAll sameLines_splits
  simp (disch := decide) [follows_spaces, follows_gap, follows_keyword, follows_keyword_gap]

/-- From the name of the index on, line ends stand in whitespace. -/
theorem follows_afterIndexName : Follows SameLines afterIndexName := by
  have hcolumns : Follows SameLines
      (.star (.seqAll [.star sqlWhitespace, .char ',', .star sqlWhitespace, indexColumn])) := by
    apply Follows.star sameLines_splits
    apply Follows.seqAll sameLines_splits
    simp (disch := decide) [follows_spaces, follows_char, follows_indexColumn]
  have hand : Follows SameLines
      (.star (.seqAll [.plus sqlWhitespace, keyword "AND", .plus sqlWhitespace, nullPredicate])) := by
    apply Follows.star sameLines_splits
    apply Follows.seqAll sameLines_splits
    simp (disch := decide) [follows_gap, follows_keyword, follows_nullPredicate]
  have hwhere : Follows SameLines
      (.seqAll [.plus sqlWhitespace, keyword "WHERE", .plus sqlWhitespace, nullPredicate,
        .star (.seqAll [.plus sqlWhitespace, keyword "AND", .plus sqlWhitespace,
          nullPredicate])]) := by
    apply Follows.seqAll sameLines_splits
    simp (disch := decide) [follows_gap, follows_keyword, follows_nullPredicate, hand]
  apply Follows.seqAll sameLines_splits
  simp (disch := decide) [follows_spaces, follows_gap, follows_keyword, follows_char,
    follows_sqlIdentifier, follows_indexColumn, hcolumns, hwhere.optional sameLines_splits]

/-! ### The tokens of the expression -/

/-- A word that is not quoted. -/
def word (name : String) : Language Token := {[.word name.toList]}

/-- A symbol. -/
def sign (c : Char) : Language Token := {[.symbol c]}

/-- A column of the index, with its direction. -/
def column : Language Token := names * (word "asc" + word "desc" + 1)

/-- A condition of the index. -/
def nullTest : Language Token := names * (word "is" * (word "not" + 1) * word "null")

/-- `CREATE [UNIQUE] INDEX CONCURRENTLY IF NOT EXISTS name ON table (column [ASC | DESC], …)
[WHERE column IS [NOT] NULL AND …]` -/
def createIndexConcurrently (name : Text) : Language Token :=
  word "create" * (word "unique" + 1) * word "index" * word "concurrently" * word "if" *
    word "not" * word "exists" * {[.word name]} * word "on" * names * sign '(' * column *
    KStar.kstar (sign ',' * column) * sign ')' *
    (word "where" * nullTest * KStar.kstar (word "and" * nullTest) + 1)

/-- The whitespace of the expression is space to the lexer. -/
theorem isSpace_of_isSqlWhitespace (c : Char) (h : isSqlWhitespace c) : isSpace c := by
  simp only [isSqlWhitespace, Bool.or_eq_true, decide_eq_true_eq] at h
  rcases h with ((rfl | rfl) | rfl) | rfl <;> decide

/-- What starts an identifier of the expression starts a word. -/
theorem startsWord_of_startsIdentifier (c : Char) (h : startsIdentifier c) : startsWord c := by
  rw [startsIdentifier, Bool.or_eq_true] at h
  rcases h with halpha | hunderscore
  · exact startsWord_of_isAlpha halpha
  · rw [eq_of_beq hunderscore]
    decide

/-- What continues an identifier of the expression continues a word. -/
theorem continuesWord_of_continuesIdentifier (c : Char) (h : continuesIdentifier c) :
    continuesWord c := by
  simp only [continuesIdentifier, Char.isAlphanum, Bool.or_eq_true, beq_iff_eq] at h
  rcases h with ((halpha | hdigit) | rfl) | rfl
  · exact continuesWord_of_startsWord (startsWord_of_isAlpha halpha)
  · rw [continuesWord, continuesTag, hdigit, Bool.or_true, Bool.true_or]
  · decide
  · decide

theorem continuesWord_of_mem_plainIdentifier {text : Text} (h : text ∈ plainIdentifier.language) :
    ∀ c ∈ text, continuesWord c := by
  obtain ⟨_, ⟨first, hfirst, rfl⟩, rest, hrest, rfl⟩ := Language.mem_mul.1 h
  intro c hc
  rcases List.mem_cons.1 hc with rfl | hc
  · exact continuesWord_of_startsWord (startsWord_of_startsIdentifier _ hfirst)
  · exact continuesWord_of_continuesIdentifier c (List.all_eq_true.1 (mem_star_chars hrest) c hc)

/-- A key word, in any case, is the word in lower case. -/
theorem spells_keyword {upper lower : String} (hne : upper.toList ≠ [])
    (halpha : upper.toList.all Char.isAlpha)
    (hlower : truncated (upper.toList.map Char.toLower) = lower.toList) :
    Spells (keyword upper) (word lower) := by
  have hspells := spells_caseless hne halpha
  rwa [hlower] at hspells

theorem spells_sqlIdentifier : Spells sqlIdentifier names :=
  spells_name startsWord_of_startsIdentifier continuesWord_of_continuesIdentifier

/-- A column, and a direction behind space. -/
theorem spells_indexColumn : Spells indexColumn column := by
  have hdirection : Spells (.alt (keyword "ASC") (keyword "DESC")) (word "asc" + word "desc") :=
    (spells_keyword (by decide) (by decide) (by decide)).alt
      (spells_keyword (by decide) (by decide) (by decide))
  have hgap := (closes_gap isSpace_of_isSqlWhitespace).seq_spells hdirection
  rw [one_mul] at hgap
  exact spells_sqlIdentifier.seq hgap.optional
    (allOpen_gap isSpace_of_isSqlWhitespace).seq.separate.optional

theorem closes_keyword_gap {upper lower : String} (h : Spells (keyword upper) (word lower)) :
    Closes (.optional (.seq (keyword upper) (.plus sqlWhitespace))) (word lower + 1) := by
  have hgap := h.seq_closes (closes_gap isSpace_of_isSqlWhitespace)
    (allOpen_gap isSpace_of_isSqlWhitespace)
  rw [mul_one] at hgap
  exact hgap.optional

theorem spells_nullPredicate : Spells nullPredicate nullTest := by
  have hspace := isSpace_of_isSqlWhitespace
  have his : Spells (keyword "IS") (word "is") :=
    spells_keyword (by decide) (by decide) (by decide)
  have hnot : Spells (keyword "NOT") (word "not") :=
    spells_keyword (by decide) (by decide) (by decide)
  have hnull : Spells (keyword "NULL") (word "null") :=
    spells_keyword (by decide) (by decide) (by decide)
  have hend := hnull.seq closes_empty.spells allSeparate_empty
  have hall := spells_sqlIdentifier.seq_gap hspace
    (his.seq_gap hspace ((closes_keyword_gap hnot).seq_spells hend))
  rw [mul_one] at hall
  rw [nullTest, mul_assoc (word "is")]
  exact hall

/-- Up to the name of the index, the expression matches the beginning of one statement. -/
theorem closes_beforeIndexName : Closes beforeIndexName
    (word "create" * (word "unique" + 1) * word "index" * word "concurrently" * word "if" *
      word "not" * word "exists") := by
  have hspace := isSpace_of_isSqlWhitespace
  have hexists : Spells (keyword "EXISTS") (word "exists") :=
    spells_keyword (by decide) (by decide) (by decide)
  have hnot : Spells (keyword "NOT") (word "not") :=
    spells_keyword (by decide) (by decide) (by decide)
  have hif : Spells (keyword "IF") (word "if") :=
    spells_keyword (by decide) (by decide) (by decide)
  have hconcurrently : Spells (keyword "CONCURRENTLY") (word "concurrently") :=
    spells_keyword (by decide) (by decide) (by decide)
  have hindex : Spells (keyword "INDEX") (word "index") :=
    spells_keyword (by decide) (by decide) (by decide)
  have hunique : Spells (keyword "UNIQUE") (word "unique") :=
    spells_keyword (by decide) (by decide) (by decide)
  have hcreate : Spells (keyword "CREATE") (word "create") :=
    spells_keyword (by decide) (by decide) (by decide)
  -- From the last word back to the first one, each with the space behind it.
  have hfromExists := hexists.seq_gap_closes hspace closes_empty
  have hfromIf := hif.seq_gap_closes hspace (hnot.seq_gap_closes hspace hfromExists)
  have hfromIndex := hindex.seq_gap_closes hspace (hconcurrently.seq_gap_closes hspace hfromIf)
  have hall := (closes_spaces hspace).seq
    (hcreate.seq_gap_closes hspace ((closes_keyword_gap hunique).seq hfromIndex))
  rw [one_mul, mul_one] at hall
  simp only [mul_assoc]
  exact hall

/-- The conditions, with `AND` between them. -/
theorem spells_where : Spells
    (.seqAll [.plus sqlWhitespace, keyword "WHERE", .plus sqlWhitespace, nullPredicate,
      .star (.seqAll [.plus sqlWhitespace, keyword "AND", .plus sqlWhitespace, nullPredicate])])
    (word "where" * nullTest * KStar.kstar (word "and" * nullTest)) := by
  have hspace := isSpace_of_isSqlWhitespace
  have hwhere : Spells (keyword "WHERE") (word "where") :=
    spells_keyword (by decide) (by decide) (by decide)
  have hand : Spells (keyword "AND") (word "and") :=
    spells_keyword (by decide) (by decide) (by decide)
  -- A further condition begins with the space before its word.
  have hopen : AllOpen (.seqAll [.plus sqlWhitespace, keyword "AND", .plus sqlWhitespace,
      nullPredicate]) := (allOpen_gap hspace).seq
  have hround := (closes_gap hspace).seq_spells (hand.seq_gap hspace
    (spells_nullPredicate.seq closes_empty.spells allSeparate_empty))
  rw [one_mul, mul_one] at hround
  have hrounds := hround.star hopen.separate
  have hlast := (hrounds.seq closes_empty.spells allSeparate_empty)
  have hall := (closes_gap hspace).seq_spells (hwhere.seq_gap hspace
    (spells_nullPredicate.seq hlast (hopen.separate.star.seq allSeparate_empty)))
  rw [one_mul, mul_one] at hall
  rw [mul_assoc]
  exact hall

/-- The name of the index ends where the rest begins. -/
theorem allOpen_afterIndexName : AllOpen afterIndexName :=
  (allOpen_gap isSpace_of_isSqlWhitespace).seq

/-- From the name of the index on, the expression matches the rest of the statement, and a
semicolon. -/
theorem closes_afterIndexName : Closes afterIndexName
    (word "on" * names * sign '(' * column * KStar.kstar (sign ',' * column) * sign ')' *
      (word "where" * nullTest * KStar.kstar (word "and" * nullTest) + 1) * sign ';') := by
  have hspace := isSpace_of_isSqlWhitespace
  have hspaces := closes_spaces hspace
  have hapart := allSeparate_spaces hspace
  have hon : Spells (keyword "ON") (word "on") :=
    spells_keyword (by decide) (by decide) (by decide)
  have hopening : Closes (.char '(') (sign '(') := closes_char (by decide)
  have hcomma : Closes (.char ',') (sign ',') := closes_char (by decide)
  have hclosing : Closes (.char ')') (sign ')') := closes_char (by decide)
  have hsemicolon : Closes (.char ';') (sign ';') := closes_char (by decide)
  have hcommaOpen : AllOpen (.char ',') := allOpen_char (by decide)
  have hopeningOpen : AllOpen (.char '(') := allOpen_char (by decide)
  have hclosingOpen : AllOpen (.char ')') := allOpen_char (by decide)
  have hsemicolonOpen : AllOpen (.char ';') := allOpen_char (by decide)
  -- A further column begins with the space before its comma.
  have hround : Spells (.seqAll [.star sqlWhitespace, .char ',', .star sqlWhitespace, indexColumn])
      (1 * (sign ',' * (1 * (column * 1)))) :=
    hspaces.seq_spells (hcomma.seq_spells (hspaces.seq_spells
      (spells_indexColumn.seq closes_empty.spells allSeparate_empty)))
  have hroundOpen : AllOpen (.seqAll [.star sqlWhitespace, .char ',', .star sqlWhitespace,
      indexColumn]) := hapart.seq_open hcommaOpen.seq
  -- From the semicolon back to the name of the table.
  have hend := hspaces.seq (hsemicolon.seq (hspaces.seq closes_empty))
  have hwhere := spells_where.optional.seq_closes hend (hapart.seq_open hsemicolonOpen.seq)
  have hfromClosing := hspaces.seq (hclosing.seq hwhere)
  have hcolumns := (hround.star hroundOpen.separate).seq_closes hfromClosing
    (hapart.seq_open hclosingOpen.seq)
  have hfromColumn := spells_indexColumn.seq_closes hcolumns
    (hroundOpen.separate.star.seq_open (hapart.seq_open hclosingOpen.seq))
  have hfromOpening := hspaces.seq (hopening.seq (hspaces.seq hfromColumn))
  have hfromTable := spells_sqlIdentifier.seq_closes hfromOpening
    (hapart.seq_open hopeningOpen.seq)
  have hall := (closes_gap hspace).seq (hon.seq_gap_closes hspace hfromTable)
  simp only [one_mul, mul_one, mul_assoc] at hall
  simp only [mul_assoc]
  exact hall

/-! ### One statement -/

theorem onlyInStatement_word (name : String) : OnlyInStatement (word name) :=
  onlyInStatement_single _ rfl

/-- A statement has no semicolon and no comment in it. -/
theorem onlyInStatement_createIndexConcurrently (name : Text) :
    OnlyInStatement (createIndexConcurrently name) := by
  have hsign {c : Char} (h : c ≠ ';') : OnlyInStatement (sign c) :=
    onlyInStatement_single _ (bne_iff_ne.2 h)
  have hcolumn : OnlyInStatement column := onlyInStatement_names.mul
    (((onlyInStatement_word _).add (onlyInStatement_word _)).add onlyInStatement_one)
  have hnullTest : OnlyInStatement nullTest := onlyInStatement_names.mul
    (((onlyInStatement_word _).mul ((onlyInStatement_word _).add onlyInStatement_one)).mul
      (onlyInStatement_word _))
  have hwhere := ((onlyInStatement_word "where").mul hnullTest).mul
    ((onlyInStatement_word "and").mul hnullTest).kstar
  have hexists := (onlyInStatement_word "create").mul
      ((onlyInStatement_word "unique").add onlyInStatement_one)
    |>.mul (onlyInStatement_word "index") |>.mul (onlyInStatement_word "concurrently")
    |>.mul (onlyInStatement_word "if") |>.mul (onlyInStatement_word "not")
    |>.mul (onlyInStatement_word "exists")
  have htable := hexists.mul (onlyInStatement_single (.word name) rfl)
    |>.mul (onlyInStatement_word "on") |>.mul onlyInStatement_names
  have hcolumns := htable.mul (hsign (c := '(') (by decide)) |>.mul hcolumn
    |>.mul ((hsign (c := ',') (by decide)).mul hcolumn).kstar |>.mul (hsign (c := ')') (by decide))
  exact hcolumns.mul (hwhere.add onlyInStatement_one)

theorem mem_single_mul {token : Token} {G : Language Token} {tokens : List Token}
    (h : tokens ∈ ({[token]} : Language Token) * G) : ∃ rest, rest ∈ G ∧ tokens = token :: rest := by
  obtain ⟨_, rfl, rest, hrest, rfl⟩ := Language.mem_mul.1 h
  exact ⟨rest, hrest, rfl⟩

/-- A statement names its index behind `EXISTS`. -/
theorem createIndexConcurrently_cases {name : Text} {statement : List Token}
    (h : statement ∈ createIndexConcurrently name) :
    ∃ unique rest, (unique = [] ∨ unique = [.word "unique".toList]) ∧
      statement = [.word "create".toList] ++ unique ++ [.word "index".toList,
        .word "concurrently".toList, .word "if".toList, .word "not".toList, .word "exists".toList,
        .word name] ++ rest := by
  unfold createIndexConcurrently at h
  simp only [mul_assoc] at h
  obtain ⟨behindCreate, hcreate, rfl⟩ := mem_single_mul h
  obtain ⟨unique, hunique, behindUnique, hindex, rfl⟩ := Language.mem_mul.1 hcreate
  obtain ⟨behindIndex, hconcurrently, rfl⟩ := mem_single_mul hindex
  obtain ⟨behindConcurrently, hif, rfl⟩ := mem_single_mul hconcurrently
  obtain ⟨behindIf, hnot, rfl⟩ := mem_single_mul hif
  obtain ⟨behindNot, hexists, rfl⟩ := mem_single_mul hnot
  obtain ⟨behindExists, hname, rfl⟩ := mem_single_mul hexists
  obtain ⟨rest, -, rfl⟩ := mem_single_mul hname
  refine ⟨unique, rest, ?_, by simp⟩
  exact hunique.elim Or.inr fun hnone => Or.inl ((Language.mem_one unique).1 hnone)

theorem ne_nil_of_mem_createIndexConcurrently {name : Text} {statement : List Token}
    (h : statement ∈ createIndexConcurrently name) : statement ≠ [] := by
  obtain ⟨unique, rest, -, rfl⟩ := createIndexConcurrently_cases h
  exact List.cons_ne_nil _ _

/-- A statement up to the name of its index, and what follows the name. -/
theorem mem_createIndexConcurrently {name : Text} {first last : List Token}
    (hfirst : first ∈ word "create" * (word "unique" + 1) * word "index" * word "concurrently" *
      word "if" * word "not" * word "exists")
    (hlast : last ∈ word "on" * names * sign '(' * column * KStar.kstar (sign ',' * column) *
      sign ')' * (word "where" * nullTest * KStar.kstar (word "and" * nullTest) + 1)) :
    first ++ ([.word name] ++ last) ∈ createIndexConcurrently name := by
  have hname : [Token.word name] ∈ ({[.word name]} : Language Token) := rfl
  have hall := Language.append_mem_mul hfirst (Language.append_mem_mul hname hlast)
  simp only [createIndexConcurrently, mul_assoc] at hall ⊢
  exact hall

/-- The tokens of what is run: the header, and a statement for the index of the parsed name. -/
theorem lex_of_createsIndex {sql executableSql name : Text}
    (h : CreatesIndex sql executableSql name) :
    ∃ statement ∈ createIndexConcurrently (truncated name),
      lex executableSql =
        .ok (.comment nonTransactionalHeader :: (statement ++ [.symbol ';'])) := by
  obtain ⟨lineEnd, body, text, group, rfl, hend, hspace, hlines, hgroup, rfl⟩ := h.parts
  obtain ⟨before, after, rfl, hbefore, hplain, hafter⟩ := concurrentIndexStatement_eq_some hgroup
  -- What the expression matches, and the text that is run, differ in line ends only.
  obtain ⟨before', rest, rfl, hbefore', hrest⟩ := sameLines_splits.append hlines
  obtain ⟨group', after', rfl, hgroup', hafter'⟩ := sameLines_splits.append hrest
  have hline : lineFeed ∉ group := by
    intro hline
    have hcontinues := continuesWord_of_mem_plainIdentifier hplain lineFeed hline
    revert hcontinues
    decide
  obtain rfl := hgroup'.eq hline
  obtain ⟨first, hfirst, hscans⟩ :=
    closes_beforeIndexName _ (follows_beforeIndexName hbefore' hbefore)
  obtain ⟨_, hends, hscans'⟩ := closes_afterIndexName _ (follows_afterIndexName hafter' hafter)
  obtain ⟨last, hlast, semicolon, hsemicolon, rfl⟩ := Language.mem_mul.1 hends
  obtain rfl : semicolon = [.symbol ';'] := hsemicolon
  have hname := reads_plainName startsWord_of_startsIdentifier
    continuesWord_of_continuesIdentifier hplain
  have hopen := allOpen_afterIndexName _ (follows_afterIndexName hafter' hafter)
  have hbody := (scans_spaces hspace).append (hscans.append (hname.append_scans hscans' hopen))
  -- The header is a comment, and what is behind its line is read from there on.
  have hheader : nonTransactionalHeader = '-' :: '-' :: nonTransactionalHeader.drop 2 := by decide
  have hcomment : (nonTransactionalHeader.drop 2).all fun d => !endsLine d := by decide
  have hfile := lex_comment hcomment hend
  rw [← hheader, hbody.reads.lex] at hfile
  refine ⟨_, mem_createIndexConcurrently hfirst hlast, hfile.trans (congrArg Except.ok ?_)⟩
  simp [Text.lower]

/-- What is run is the header and one statement, for the index of the parsed name. Whatever a
server makes of such statements, as long as it touches no relation but their index, it touches no
other one here. -/
theorem nonTransactional_one_statement {sql executableSql name : Text}
    (h : CreatesIndex sql executableSql name) :
    ∃ statement ∈ createIndexConcurrently (truncated name),
      lex executableSql =
        .ok (.comment nonTransactionalHeader :: (statement ++ [.symbol ';'])) ∧
      statements (.comment nonTransactionalHeader :: (statement ++ [.symbol ';'])) = [statement] ∧
      ∀ {ρ : Type} (execute : List Token → (Text → Option ρ) → Text → Option ρ),
        (∀ index, ∀ statement ∈ createIndexConcurrently index, ∀ relations other, other ≠ index →
          execute statement relations other = relations other) →
        ∀ relations other, other ≠ truncated name →
          run execute executableSql relations other = relations other := by
  obtain ⟨statement, hstatement, hlex⟩ := lex_of_createsIndex h
  have hone : statements (.comment nonTransactionalHeader :: (statement ++ [.symbol ';'])) =
      [statement] := by
    rw [statements_comment]
    exact statements_single (ne_nil_of_mem_createIndexConcurrently hstatement)
      (onlyInStatement_createIndexConcurrently _ _ hstatement)
  refine ⟨statement, hstatement, hlex, hone, ?_⟩
  intro ρ execute hexecute relations other hother
  have hrun : run execute executableSql relations = execute statement relations := by
    unfold run
    rw [hlex]
    dsimp only
    rw [hone]
    rfl
  rw [hrun]
  exact hexecute _ _ hstatement relations other hother

/-- A file whose lines end in both ways. -/
def mixedSql : Text :=
  nonTransactionalHeader ++
    "\r\nCREATE INDEX CONCURRENTLY\r\n  IF NOT EXISTS Tokens_Idx ON push_tokens (device DESC);\n".toList

theorem mixedSql_createsIndex : CreatesIndex mixedSql mixedSql "tokens_idx".toList := by
  unfold CreatesIndex
  decide +kernel

/-- A server that knows its relations by name, and creates the index of a statement unless there
is a relation of that name. -/
def createIndex (statement : List Token) (relations : Text → Option Unit) : Text → Option Unit :=
  match statement.dropWhile (· ≠ .word "exists".toList) with
  | _ :: .word name :: _ => Function.update relations name (some ())
  | _ => relations

theorem createIndex_other {index other : Text} {statement : List Token}
    (h : statement ∈ createIndexConcurrently index) (relations : Text → Option Unit)
    (hother : other ≠ index) : createIndex statement relations other = relations other := by
  obtain ⟨unique, rest, hunique, rfl⟩ := createIndexConcurrently_cases h
  have hcreate : createIndex ([.word "create".toList] ++ unique ++ [.word "index".toList,
      .word "concurrently".toList, .word "if".toList, .word "not".toList, .word "exists".toList,
      .word index] ++ rest) relations = Function.update relations index (some ()) := by
    rcases hunique with rfl | rfl <;> rfl
  rw [hcreate]
  exact Function.update_of_ne hother _ _

theorem mixedSql_one_statement :
    ∃ statement ∈ createIndexConcurrently (truncated "tokens_idx".toList),
      lex mixedSql = .ok (.comment nonTransactionalHeader :: (statement ++ [.symbol ';'])) ∧
      statements (.comment nonTransactionalHeader :: (statement ++ [.symbol ';'])) = [statement] ∧
      ∀ relations other, other ≠ truncated "tokens_idx".toList →
        run createIndex mixedSql relations other = relations other := by
  obtain ⟨statement, hstatement, hlex, hone, hrun⟩ :=
    nonTransactional_one_statement mixedSql_createsIndex
  refine ⟨statement, hstatement, hlex, hone, hrun createIndex ?_⟩
  intro index statement hstatement relations other hother
  exact createIndex_other hstatement relations hother

end ChatTea.Migrations
