import Mathlib
import ChatTea.Lib.PostgresLexer
import ChatTea.Lib.Regex

/-!
# Expressions whose texts have known tokens

A program that checks a text with a regular expression and then hands it to PostgreSQL relies on
the expression and the lexer to cut the text alike. The tokens that the texts of an expression may
have are a language of their own, and it is put together as the expression is, as long as no word
runs into the next one.

## Main definitions

* `Spells`, `Closes` — the tokens of the texts of an expression
* `OnlyInStatement` — a language of tokens without semicolons and comments

## Main results

* `Spells.seq_gap` — words with space between them
* `spells_caseless` — a key word
* `spells_name` — a name with or without quotes
-/

namespace Postgres

open Regex

/-- The texts of an expression are read as tokens of a language. -/
def Spells (r : Regex) (G : Language Token) : Prop :=
  ∀ text ∈ r.language, ∃ tokens ∈ G, Reads text tokens

/-- The texts of an expression have tokens of a language, whatever stands behind them. -/
def Closes (r : Regex) (G : Language Token) : Prop :=
  ∀ text ∈ r.language, ∃ tokens ∈ G, Scans text tokens

/-- Behind a text that is read so far, the texts of an expression begin a new token. -/
def AllSeparate (r : Regex) : Prop := ∀ text ∈ r.language, Separates text

/-- The texts of an expression begin with a new token, whatever stands behind them. -/
def AllOpen (r : Regex) : Prop := ∀ text ∈ r.language, Opens text

variable {r s : Regex} {G H : Language Token} {c : Char} {text : List Char}

/-! ### Where a text begins -/

theorem AllOpen.separate (h : AllOpen r) : AllSeparate r := fun text htext =>
  (h text htext).separates

theorem AllOpen.seq (h : AllOpen r) : AllOpen (.seq r s) := by
  intro text htext
  obtain ⟨first, hfirst, second, -, rfl⟩ := Language.mem_mul.1 htext
  exact (h first hfirst).append second

theorem AllSeparate.seq_open (h : AllSeparate r) (h' : AllOpen s) : AllOpen (.seq r s) := by
  intro text htext
  obtain ⟨first, hfirst, second, hsecond, rfl⟩ := Language.mem_mul.1 htext
  exact (h first hfirst).append_opens (h' second hsecond)

theorem allSeparate_empty : AllSeparate .empty := by
  intro text htext
  obtain rfl := (Language.mem_one text).1 htext
  exact separates_nil

theorem AllSeparate.seq (h : AllSeparate r) (h' : AllSeparate s) : AllSeparate (.seq r s) := by
  intro text htext
  obtain ⟨first, hfirst, second, hsecond, rfl⟩ := Language.mem_mul.1 htext
  exact (h first hfirst).append (h' second hsecond)

theorem AllSeparate.optional (h : AllSeparate r) : AllSeparate (optional r) := by
  intro text htext
  exact htext.elim (h text) (allSeparate_empty text)

theorem AllSeparate.star (h : AllSeparate r) : AllSeparate (.star r) := by
  intro text htext
  obtain ⟨rounds, rfl, hrounds⟩ := Language.mem_kstar.1 htext
  induction rounds with
  | nil => exact separates_nil
  | cons round rounds ih =>
      have hrest := fun other hother => hrounds other (List.mem_cons_of_mem _ hother)
      apply (h round (hrounds round List.mem_cons_self)).append
      exact ih hrest (Language.mem_kstar.2 ⟨rounds, rfl, hrest⟩)

theorem allOpen_char (h : breaksOff c) : AllOpen (char c) := by
  intro text htext
  obtain rfl := mem_char.1 htext
  exact opens_cons h []

/-! ### One expression behind another -/

/-- A text that is closed is read by itself too. -/
theorem Closes.spells (h : Closes r G) : Spells r G := by
  intro text htext
  obtain ⟨tokens, htokens, hscans⟩ := h text htext
  exact ⟨tokens, htokens, hscans.reads⟩

theorem closes_empty : Closes .empty 1 := by
  intro text htext
  obtain rfl := (Language.mem_one text).1 htext
  exact ⟨[], Language.nil_mem_one, scans_nil⟩

/-- Behind a closed text another one is closed. -/
theorem Closes.seq (h : Closes r G) (h' : Closes s H) : Closes (.seq r s) (G * H) := by
  intro text htext
  obtain ⟨first, hfirst, second, hsecond, rfl⟩ := Language.mem_mul.1 htext
  obtain ⟨tokens, htokens, hscans⟩ := h first hfirst
  obtain ⟨tokens', htokens', hscans'⟩ := h' second hsecond
  exact ⟨_, Language.append_mem_mul htokens htokens', hscans.append hscans'⟩

/-- Behind a closed text anything is read. -/
theorem Closes.seq_spells (h : Closes r G) (h' : Spells s H) : Spells (.seq r s) (G * H) := by
  intro text htext
  obtain ⟨first, hfirst, second, hsecond, rfl⟩ := Language.mem_mul.1 htext
  obtain ⟨tokens, htokens, hscans⟩ := h first hfirst
  obtain ⟨tokens', htokens', hreads'⟩ := h' second hsecond
  exact ⟨_, Language.append_mem_mul htokens htokens', hscans.append_reads hreads'⟩

/-- Behind a text that is read stands what begins a new token. -/
theorem Spells.seq (h : Spells r G) (h' : Spells s H) (hseparate : AllSeparate s) :
    Spells (.seq r s) (G * H) := by
  intro text htext
  obtain ⟨first, hfirst, second, hsecond, rfl⟩ := Language.mem_mul.1 htext
  obtain ⟨tokens, htokens, hreads⟩ := h first hfirst
  obtain ⟨tokens', htokens', hreads'⟩ := h' second hsecond
  exact ⟨_, Language.append_mem_mul htokens htokens',
    hreads.append hreads' (hseparate second hsecond)⟩

/-- The end may be closed although the beginning is not. -/
theorem Spells.seq_closes (h : Spells r G) (h' : Closes s H) (hopen : AllOpen s) :
    Closes (.seq r s) (G * H) := by
  intro text htext
  obtain ⟨first, hfirst, second, hsecond, rfl⟩ := Language.mem_mul.1 htext
  obtain ⟨tokens, htokens, hreads⟩ := h first hfirst
  obtain ⟨tokens', htokens', hscans'⟩ := h' second hsecond
  exact ⟨_, Language.append_mem_mul htokens htokens',
    hreads.append_scans hscans' (hopen second hsecond)⟩

/-- Of two expressions. -/
theorem Spells.alt (h : Spells r G) (h' : Spells s H) : Spells (.alt r s) (G + H) := by
  intro text htext
  rcases htext with hleft | hright
  · obtain ⟨tokens, htokens, hreads⟩ := h text hleft
    exact ⟨tokens, Or.inl htokens, hreads⟩
  · obtain ⟨tokens, htokens, hreads⟩ := h' text hright
    exact ⟨tokens, Or.inr htokens, hreads⟩

theorem Closes.optional (h : Closes r G) : Closes (optional r) (G + 1) := by
  intro text htext
  rcases htext with hthere | hnone
  · obtain ⟨tokens, htokens, hscans⟩ := h text hthere
    exact ⟨tokens, Or.inl htokens, hscans⟩
  · obtain ⟨tokens, htokens, hscans⟩ := closes_empty text hnone
    exact ⟨tokens, Or.inr htokens, hscans⟩

theorem Spells.optional (h : Spells r G) : Spells (optional r) (G + 1) :=
  h.alt closes_empty.spells

/-- Rounds none of which runs into the one before. -/
theorem Spells.star (h : Spells r G) (hseparate : AllSeparate r) :
    Spells (.star r) (KStar.kstar G) := by
  intro text htext
  obtain ⟨rounds, rfl, hrounds⟩ := Language.mem_kstar.1 htext
  induction rounds with
  | nil => exact ⟨[], Language.nil_mem_kstar G, scans_nil.reads⟩
  | cons round rounds ih =>
      have hrest := fun other hother => hrounds other (List.mem_cons_of_mem _ hother)
      have hlater := Language.mem_kstar.2 ⟨rounds, rfl, hrest⟩
      obtain ⟨tokens, htokens, hreads⟩ := h round (hrounds round List.mem_cons_self)
      obtain ⟨tokens', htokens', hreads'⟩ := ih hrest hlater
      refine ⟨tokens ++ tokens', ?_, hreads.append hreads' (hseparate.star _ hlater)⟩
      have hmul : G * KStar.kstar G ≤ KStar.kstar G := mul_kstar_le_kstar
      exact hmul (Language.append_mem_mul htokens htokens')

/-! ### Space -/

section Space

variable {space : Char → Bool} (hspace : ∀ c, space c → isSpace c)

include hspace

/-- Space has no tokens. -/
theorem closes_spaces : Closes (.star (.chars space)) 1 := by
  intro text htext
  refine ⟨[], Language.nil_mem_one, scans_spaces (List.all_eq_true.2 fun c hc => ?_)⟩
  exact hspace c (List.all_eq_true.1 (mem_star_chars htext) c hc)

theorem allOpen_space : AllOpen (.chars space) := by
  rintro _ ⟨c, hc, rfl⟩
  exact opens_cons (breaksOff_of_isSpace (hspace c hc)) []

theorem allSeparate_spaces : AllSeparate (.star (.chars space)) :=
  (allOpen_space hspace).separate.star

theorem allOpen_gap : AllOpen (plus (.chars space)) := (allOpen_space hspace).seq

theorem closes_gap : Closes (plus (.chars space)) 1 := by
  rw [← one_mul (1 : Language Token)]
  apply Closes.seq _ (closes_spaces hspace)
  rintro _ ⟨c, hc, rfl⟩
  exact ⟨[], Language.nil_mem_one, scans_space (hspace c hc)⟩

/-- A word, space and what follows. -/
theorem Spells.seq_gap (h : Spells r G) (h' : Spells s H) :
    Spells (.seq r (.seq (plus (.chars space)) s)) (G * H) := by
  have hgap := (closes_gap hspace).seq_spells h'
  rw [one_mul] at hgap
  exact h.seq hgap (allOpen_gap hspace).seq.separate

theorem Spells.seq_gap_closes (h : Spells r G) (h' : Closes s H) :
    Closes (.seq r (.seq (plus (.chars space)) s)) (G * H) := by
  have hgap := (closes_gap hspace).seq h'
  rw [one_mul] at hgap
  exact h.seq_closes hgap (allOpen_gap hspace).seq

end Space

/-! ### Symbols, key words and names -/

/-- A plain symbol is a token of its own. -/
theorem closes_char (h : isPlain c) : Closes (char c) {[.symbol c]} := by
  intro text htext
  obtain rfl := mem_char.1 htext
  exact ⟨_, rfl, scans_symbol h⟩

theorem startsWord_of_isAlpha (h : c.isAlpha) : startsWord c := by
  rw [startsWord, h]
  rfl

theorem continuesWord_of_startsWord (h : startsWord c) : continuesWord c := by
  rw [continuesWord, continuesTag, h]
  rfl

/-- A key word, in any case. -/
theorem spells_caseless {word : List Char} (hne : word ≠ []) (halpha : word.all Char.isAlpha) :
    Spells (caseless word) {[.word (truncated (word.map Char.toLower))]} := by
  intro text htext
  obtain rfl := mem_caseless htext
  have hletters : ∀ c ∈ text, startsWord c := by
    intro c hc
    apply startsWord_of_isAlpha
    have hupper := List.all_eq_true.1 halpha _ (List.mem_map_of_mem hc)
    rwa [Char.isAlpha_toUpper_eq_isAlpha] at hupper
  have hlower : (text.map Char.toUpper).map Char.toLower = text.map Char.toLower := by
    rw [List.map_map]
    exact List.map_congr_left fun c _ => Char.toLower_toUpper_eq_toLower c
  refine ⟨_, rfl, ?_⟩
  rw [hlower]
  cases text with
  | nil => exact absurd rfl hne
  | cons c text =>
      apply reads_word (hletters c List.mem_cons_self)
      rw [List.all_eq_true]
      intro d hd
      exact continuesWord_of_startsWord (hletters d (List.mem_cons_of_mem c hd))

section Names

variable {starts continues : Char → Bool} (hstarts : ∀ c, starts c → startsWord c)
  (hcontinues : ∀ c, continues c → continuesWord c)

include hstarts hcontinues

/-- A name without quotes is folded to lower case. -/
theorem reads_plainName (h : text ∈ (seq (.chars starts) (.star (.chars continues))).language) :
    Reads text [.word (truncated (text.map Char.toLower))] := by
  obtain ⟨_, ⟨c, hc, rfl⟩, rest, hrest, rfl⟩ := Language.mem_mul.1 h
  apply reads_word (hstarts c hc)
  rw [List.all_eq_true]
  intro d hd
  exact hcontinues d (List.all_eq_true.1 (mem_star_chars hrest) d hd)

/-- A name in quotes is kept as it is. -/
theorem reads_quotedName (h : text ∈ (seqAll [char doubleQuote,
    .seq (.chars starts) (.star (.chars continues)), char doubleQuote]).language) :
    ∃ name, Reads text [.quoted name] := by
  obtain ⟨opening, hopening, _, hbehind, rfl⟩ := Language.mem_mul.1 h
  obtain ⟨name, hname, _, hlast, rfl⟩ := Language.mem_mul.1 hbehind
  obtain ⟨closing, hclosing, _, hend, rfl⟩ := Language.mem_mul.1 hlast
  obtain rfl := mem_char.1 hopening
  obtain rfl := mem_char.1 hclosing
  rw [(Language.mem_one _).1 hend]
  obtain ⟨_, ⟨c, hc, rfl⟩, rest, hrest, rfl⟩ := Language.mem_mul.1 hname
  have hquote : doubleQuote ∉ c :: rest := by
    have hno : ¬ continuesWord doubleQuote := by decide
    intro hmem
    rcases List.mem_cons.1 hmem with rfl | hmem
    · exact hno (continuesWord_of_startsWord (hstarts _ hc))
    · exact hno (hcontinues _ (List.all_eq_true.1 (mem_star_chars hrest) _ hmem))
  exact ⟨_, reads_quoted (List.cons_ne_nil c rest) hquote⟩

/-- The names of a table or a column. -/
def names : Language Token := {tokens | ∃ name, tokens = [.word name] ∨ tokens = [.quoted name]}

/-- A name with or without quotes. -/
theorem spells_name : Spells
    (.alt (seqAll [char doubleQuote, .seq (.chars starts) (.star (.chars continues)),
      char doubleQuote]) (.seq (.chars starts) (.star (.chars continues)))) names := by
  intro text htext
  rcases htext with hquoted | hplain
  · obtain ⟨name, hreads⟩ := reads_quotedName hstarts hcontinues hquoted
    exact ⟨_, ⟨name, Or.inr rfl⟩, hreads⟩
  · exact ⟨_, ⟨_, Or.inl rfl⟩, reads_plainName hstarts hcontinues hplain⟩

end Names

/-! ### Tokens of one statement -/

/-- Semicolons and comments are no tokens of a language. -/
def OnlyInStatement (G : Language Token) : Prop :=
  ∀ tokens ∈ G, ∀ token ∈ tokens, token.inStatement

theorem onlyInStatement_single (token : Token) (h : token.inStatement) :
    OnlyInStatement {[token]} := by
  intro tokens htokens other hother
  obtain rfl : tokens = [token] := htokens
  obtain rfl := List.mem_singleton.1 hother
  exact h

theorem onlyInStatement_one : OnlyInStatement 1 := by
  intro tokens htokens token htoken
  rw [(Language.mem_one tokens).1 htokens] at htoken
  cases htoken

theorem OnlyInStatement.mul (h : OnlyInStatement G) (h' : OnlyInStatement H) :
    OnlyInStatement (G * H) := by
  intro tokens htokens token htoken
  obtain ⟨first, hfirst, second, hsecond, rfl⟩ := Language.mem_mul.1 htokens
  exact (List.mem_append.1 htoken).elim (h first hfirst token) (h' second hsecond token)

theorem OnlyInStatement.add (h : OnlyInStatement G) (h' : OnlyInStatement H) :
    OnlyInStatement (G + H) := by
  intro tokens htokens
  exact htokens.elim (h tokens) (h' tokens)

theorem OnlyInStatement.kstar (h : OnlyInStatement G) : OnlyInStatement (KStar.kstar G) := by
  intro tokens htokens token htoken
  obtain ⟨rounds, rfl, hrounds⟩ := Language.mem_kstar.1 htokens
  obtain ⟨round, hround, htoken⟩ := List.mem_flatten.1 htoken
  exact h round (hrounds round hround) token htoken

/-- Names are neither semicolons nor comments. -/
theorem onlyInStatement_names : OnlyInStatement names := by
  rintro tokens ⟨name, rfl | rfl⟩ token htoken <;>
  · obtain rfl := List.mem_singleton.1 htoken
    rfl

end Postgres
