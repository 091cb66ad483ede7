import Mathlib.Computability.Language
import Mathlib.Data.List.TakeWhile
import Mathlib.Tactic.Cases

/-!
# The tokens of an SQL text

PostgreSQL cuts a text into tokens before it reads any of them as a statement. A comment, a quoted
name and a quoted string may hold any characters, a semicolon among them, so that only the tokens
say where one statement ends. Operators, numbers and punctuation are cut into single characters
here: the comments, the quotes and the semicolons are the same ones.

## Main definitions

* `lex` — the tokens of a text, or what is left open at its end
* `statements` — what stands between the semicolons
* `run` — a server that takes the statements of a text one after the other
* `Reads`, `Scans` — the tokens of a text wherever it stands

## Main results

* `lex_cons` — a text is one token, then the tokens of the rest
* `Reads.append`, `Scans.append` — the tokens of two texts, one after the other
* `statements_single` — tokens without a semicolon are one statement
-/

namespace Postgres

inductive Token
  /-- A key word or a name without quotes, in lower case. -/
  | word (name : List Char)
  /-- A name in double quotes. -/
  | quoted (name : List Char)
  | string (content : List Char)
  | symbol (c : Char)
  | comment (text : List Char)
deriving DecidableEq

inductive LexError
  | unterminatedName
  | emptyName
  | unterminatedString
  | unterminatedComment
deriving DecidableEq

/-! ### Characters -/

def lineFeed : Char := Char.ofNat 10

def carriageReturn : Char := Char.ofNat 13

def doubleQuote : Char := Char.ofNat 34

def singleQuote : Char := Char.ofNat 39

def backslash : Char := Char.ofNat 92

/-- Tab, line feed, vertical tab, form feed, carriage return and space. -/
def spaces : List Char := [9, 10, 11, 12, 13, 32].map Char.ofNat

def isSpace (c : Char) : Bool := spaces.contains c

def endsLine (c : Char) : Bool := c = lineFeed || c = carriageReturn

/-- Every character outside of ASCII is a letter. -/
def startsWord (c : Char) : Bool := c.isAlpha || c = '_' || 128 ≤ c.toNat

def continuesTag (c : Char) : Bool := startsWord c || c.isDigit

def continuesWord (c : Char) : Bool := continuesTag c || c = '$'

/-- The longest beginning of a name that a number of bytes has room for. -/
def clip : ℕ → List Char → List Char
  | _, [] => []
  | bytes, c :: name => if c.utf8Size ≤ bytes then c :: clip (bytes - c.utf8Size) name else []

/-- A name, cut to the 63 bytes that a catalog keeps of it. -/
def truncated (name : List Char) : List Char := clip 63 name

/-! ### What a token takes -/

/-- Some characters before a text that is found behind them. -/
def behind (read : List Char) (found : Option (List Char × List Char)) :
    Option (List Char × List Char) :=
  found.map (Prod.map (read ++ ·) id)

/-- The text up to its closing quote, and what is behind that. A doubled quote stands for one. -/
def quotedText (quote : Char) (escapes : Bool) : List Char → Option (List Char × List Char)
  | [] => none
  | [c] => if c = quote then some ([], []) else none
  | c :: d :: text =>
    if c = quote ∧ d ≠ quote then some ([], d :: text)
    else if c = quote ∨ escapes ∧ c = backslash then
      behind [d] (quotedText quote escapes text)
    else behind [c] (quotedText quote escapes (d :: text))

/-- The text up to the end of a comment that holds `depth` open comments, and what is behind. -/
def commentText : ℕ → List Char → Option (List Char × List Char)
  | _, [] => none
  | _, [_] => none
  | depth, c :: d :: text =>
    if c = '*' ∧ d = '/' then
      match depth with
      | 0 => some ([c, d], text)
      | depth + 1 => behind [c, d] (commentText depth text)
    else if c = '/' ∧ d = '*' then
      behind [c, d] (commentText (depth + 1) text)
    else behind [c] (commentText depth (d :: text))

/-- The text up to a delimiter, and what is behind that. -/
def untilDelimiter (delimiter : List Char) : List Char → Option (List Char × List Char)
  | [] => none
  | c :: text =>
    if delimiter.isPrefixOf (c :: text) then some ([], (c :: text).drop delimiter.length)
    else behind [c] (untilDelimiter delimiter text)

/-- The tag of a dollar quote whose first dollar is read, and what is behind the second one. -/
def dollarTag (text : List Char) : Option (List Char × List Char) :=
  let tag := text.takeWhile continuesTag
  match text.dropWhile continuesTag with
  | [] => none
  | c :: rest => if c = '$' ∧ tag.head?.all startsWord then some (tag, rest) else none

def readName (text : List Char) : Except LexError (Option Token × List Char) :=
  match quotedText doubleQuote false text with
  | none => .error .unterminatedName
  | some (name, rest) =>
    if name = [] then .error .emptyName else .ok (some (.quoted (truncated name)), rest)

def readString (escapes : Bool) (text : List Char) : Except LexError (Option Token × List Char) :=
  match quotedText singleQuote escapes text with
  | none => .error .unterminatedString
  | some (content, rest) => .ok (some (.string content), rest)

def readDollar (text : List Char) : Except LexError (Option Token × List Char) :=
  match dollarTag text with
  | none => .ok (some (.symbol '$'), text)
  | some (tag, body) =>
    match untilDelimiter ('$' :: tag ++ ['$']) body with
    | none => .error .unterminatedString
    | some (content, rest) => .ok (some (.string content), rest)

def readWord (c : Char) (text : List Char) : Except LexError (Option Token × List Char) :=
  let word := (c :: text.takeWhile continuesWord).map Char.toLower
  let rest := text.dropWhile continuesWord
  -- The letter before an escape string belongs to the string.
  if word = ['e'] ∧ rest.head? = some singleQuote then readString true rest.tail
  else .ok (some (.word (truncated word)), rest)

/-- The token at the beginning of a text, if there is one, and what is behind it. -/
def next (c : Char) (text : List Char) : Except LexError (Option Token × List Char) :=
  if isSpace c then .ok (none, text)
  else if c = '-' ∧ text.head? = some '-' then
    .ok (some (.comment (c :: text.takeWhile fun d => !endsLine d)),
      text.dropWhile fun d => !endsLine d)
  else if c = '/' ∧ text.head? = some '*' then
    match commentText 0 text.tail with
    | none => .error .unterminatedComment
    | some (content, rest) => .ok (some (.comment (c :: '*' :: content)), rest)
  else if c = doubleQuote then readName text
  else if c = singleQuote then readString false text
  else if c = '$' then readDollar text
  else if startsWord c then readWord c text
  else .ok (some (.symbol c), text)

/-- The tokens of a text that is no longer than the fuel. -/
def lexWith : ℕ → List Char → Except LexError (List Token)
  | 0, _ => .ok []
  | _ + 1, [] => .ok []
  | fuel + 1, c :: text => do
    let (token, rest) ← next c text
    let tokens ← lexWith fuel rest
    return token.toList ++ tokens

/-- The tokens of a text, the comments among them. -/
def lex (text : List Char) : Except LexError (List Token) := lexWith text.length text

/-! ### A text is shorter behind its first token -/

variable {c d quote : Char} {escapes : Bool} {fuel depth : ℕ} {token : Option Token}
  {text rest read word name content delimiter tag : List Char}

theorem behind_eq_some {found : Option (List Char × List Char)}
    (h : behind read found = some (content, rest)) : ∃ later, found = some (later, rest) := by
  obtain ⟨⟨later, rest⟩, hfound, hmap⟩ := Option.map_eq_some_iff.1 h
  obtain ⟨-, rfl⟩ := Prod.mk.inj hmap
  exact ⟨later, hfound⟩

theorem quotedText_length (h : quotedText quote escapes text = some (content, rest)) :
    rest.length ≤ text.length := by
  fun_induction quotedText quote escapes text generalizing content with
  | case1 => cases h
  | case2 =>
      obtain ⟨-, rfl⟩ := Prod.mk.inj (Option.some.inj h)
      exact Nat.zero_le _
  | case3 => cases h
  | case4 c d text hends =>
      obtain ⟨-, rfl⟩ := Prod.mk.inj (Option.some.inj h)
      exact Nat.le_succ _
  | case5 c d text hends hescapes ih =>
      obtain ⟨later, hlater⟩ := behind_eq_some h
      have hshorter := ih hlater
      simp only [List.length_cons]
      omega
  | case6 c d text hends hescapes ih =>
      obtain ⟨later, hlater⟩ := behind_eq_some h
      exact Nat.le_succ_of_le (ih hlater)

theorem commentText_length (h : commentText depth text = some (content, rest)) :
    rest.length ≤ text.length := by
  fun_induction commentText depth text generalizing content with
  | case1 => cases h
  | case2 => cases h
  | case3 c d text hends =>
      obtain ⟨-, rfl⟩ := Prod.mk.inj (Option.some.inj h)
      simp only [List.length_cons]
      omega
  | case4 c d text hends depth ih =>
      obtain ⟨later, hlater⟩ := behind_eq_some h
      have hshorter := ih hlater
      simp only [List.length_cons]
      omega
  | case5 depth c d text hends hopens ih =>
      obtain ⟨later, hlater⟩ := behind_eq_some h
      have hshorter := ih hlater
      simp only [List.length_cons]
      omega
  | case6 depth c d text hends hopens ih =>
      obtain ⟨later, hlater⟩ := behind_eq_some h
      exact Nat.le_succ_of_le (ih hlater)

theorem untilDelimiter_length (h : untilDelimiter delimiter text = some (content, rest)) :
    rest.length ≤ text.length := by
  induction text generalizing content with
  | nil => cases h
  | cons c text ih =>
      rw [untilDelimiter] at h
      split at h
      next =>
        obtain ⟨-, rfl⟩ := Prod.mk.inj (Option.some.inj h)
        exact (List.drop_sublist _ _).length_le
      next =>
        obtain ⟨later, hlater⟩ := behind_eq_some h
        exact Nat.le_succ_of_le (ih hlater)

theorem dollarTag_length (h : dollarTag text = some (tag, rest)) :
    rest.length ≤ text.length := by
  have hdrop : (text.dropWhile continuesTag).length ≤ text.length := List.length_dropWhile_le _ _
  unfold dollarTag at h
  split at h
  next => cases h
  next c body hbody =>
    dsimp only at h
    rw [hbody, List.length_cons] at hdrop
    split at h
    next =>
      obtain ⟨-, rfl⟩ := Prod.mk.inj (Option.some.inj h)
      omega
    next => cases h

theorem readName_length (h : readName text = .ok (token, rest)) : rest.length ≤ text.length := by
  unfold readName at h
  split at h
  next => cases h
  next name later hname =>
    split at h
    next => cases h
    next =>
      obtain ⟨-, rfl⟩ := Prod.mk.inj (Except.ok.inj h)
      exact quotedText_length hname

theorem readString_length (h : readString escapes text = .ok (token, rest)) :
    rest.length ≤ text.length := by
  unfold readString at h
  split at h
  next => cases h
  next content later hcontent =>
    obtain ⟨-, rfl⟩ := Prod.mk.inj (Except.ok.inj h)
    exact quotedText_length hcontent

theorem readDollar_length (h : readDollar text = .ok (token, rest)) :
    rest.length ≤ text.length := by
  unfold readDollar at h
  split at h
  next =>
    obtain ⟨-, rfl⟩ := Prod.mk.inj (Except.ok.inj h)
    exact Nat.le_refl _
  next tag body htag =>
    split at h
    next => cases h
    next content later hcontent =>
      obtain ⟨-, rfl⟩ := Prod.mk.inj (Except.ok.inj h)
      exact (untilDelimiter_length hcontent).trans (dollarTag_length htag)

theorem readWord_length (h : readWord c text = .ok (token, rest)) :
    rest.length ≤ text.length := by
  have hdrop : (text.dropWhile continuesWord).length ≤ text.length := List.length_dropWhile_le _ _
  unfold readWord at h
  dsimp only at h
  split at h
  next =>
    have hstring := readString_length h
    rw [List.length_tail] at hstring
    omega
  next =>
    obtain ⟨-, rfl⟩ := Prod.mk.inj (Except.ok.inj h)
    exact hdrop

theorem next_length (h : next c text = .ok (token, rest)) : rest.length ≤ text.length := by
  unfold next at h
  split at h
  next =>
    obtain ⟨-, rfl⟩ := Prod.mk.inj (Except.ok.inj h)
    exact Nat.le_refl _
  split at h
  next =>
    obtain ⟨-, rfl⟩ := Prod.mk.inj (Except.ok.inj h)
    exact List.length_dropWhile_le _ _
  split at h
  next =>
    split at h
    next => cases h
    next content later hcontent =>
      obtain ⟨-, rfl⟩ := Prod.mk.inj (Except.ok.inj h)
      have htail := commentText_length hcontent
      rw [List.length_tail] at htail
      omega
  split at h
  next => exact readName_length h
  split at h
  next => exact readString_length h
  split at h
  next => exact readDollar_length h
  split at h
  next => exact readWord_length h
  next =>
    obtain ⟨-, rfl⟩ := Prod.mk.inj (Except.ok.inj h)
    exact Nat.le_refl _

/-- More fuel than characters finds the same tokens. -/
theorem lexWith_eq (h : text.length ≤ fuel) : lexWith fuel text = lex text := by
  suffices hmore : ∀ fuel more text, text.length ≤ fuel →
      lexWith (fuel + more) text = lexWith fuel text by
    obtain ⟨more, rfl⟩ := Nat.exists_eq_add_of_le h
    exact hmore text.length more text (Nat.le_refl _)
  intro fuel
  induction fuel with
  | zero =>
      intro more text hlength
      obtain rfl := List.eq_nil_of_length_eq_zero (Nat.le_zero.1 hlength)
      cases more <;> rfl
  | succ fuel ih =>
      intro more text hlength
      cases text with
      | nil =>
          rw [Nat.succ_add]
          rfl
      | cons c text =>
          rw [Nat.succ_add, lexWith, lexWith]
          cases hnext : next c text with
          | error failure => rfl
          | ok found =>
              obtain ⟨token, rest⟩ := found
              -- What is left is within the fuel that is left.
              have hrest := next_length hnext
              simp only [List.length_cons] at hlength
              have hsame := ih more rest (by omega)
              change (do
                let tokens ← lexWith (fuel + more) rest
                return token.toList ++ tokens) = _
              rw [hsame]
              rfl

theorem lex_nil : lex [] = .ok [] := rfl

/-- A text is one token, then the tokens of what is behind it. -/
theorem lex_cons (c : Char) (text : List Char) :
    lex (c :: text) = (do
      let (token, rest) ← next c text
      let tokens ← lex rest
      return token.toList ++ tokens) := by
  change lexWith (text.length + 1) (c :: text) = _
  rw [lexWith]
  cases hnext : next c text with
  | error failure => rfl
  | ok found =>
      obtain ⟨token, rest⟩ := found
      have hrest := lexWith_eq (next_length hnext)
      change (do
        let tokens ← lexWith text.length rest
        return token.toList ++ tokens) = _
      rw [hrest]
      rfl

/-! ### The tokens of a text wherever it stands -/

/-- No name, key word or string goes on with a character. -/
def breaksOff (c : Char) : Bool := !continuesWord c && c != doubleQuote && c != singleQuote

/-- No name, key word or string goes on into a text. -/
def Breaks (rest : List Char) : Prop := ∀ c ∈ rest.head?, breaksOff c

/-- The tokens of a text, whatever stands behind it. -/
def Scans (text : List Char) (tokens : List Token) : Prop :=
  ∀ rest, lex (text ++ rest) = (lex rest).map (tokens ++ ·)

/-- The tokens of a text behind which a new token begins. -/
def Reads (text : List Char) (tokens : List Token) : Prop :=
  ∀ rest, Breaks rest → lex (text ++ rest) = (lex rest).map (tokens ++ ·)

/-- Behind a text that is read so far, another one begins a new token. -/
def Separates (text : List Char) : Prop := ∀ rest, Breaks rest → Breaks (text ++ rest)

/-- A text begins with a new token, whatever stands behind it. -/
def Opens (text : List Char) : Prop := ∀ rest, Breaks (text ++ rest)

variable {text' : List Char} {tokens tokens' : List Token}

theorem breaks_nil : Breaks [] := by
  intro c hc
  cases hc

theorem opens_cons (h : breaksOff c) (text : List Char) : Opens (c :: text) := by
  intro rest d hd
  obtain rfl := Option.some.inj hd
  exact h

theorem Opens.separates (h : Opens text) : Separates text := fun rest _ => h rest

theorem separates_nil : Separates [] := fun _ hrest => hrest

theorem Separates.append (h : Separates text) (h' : Separates text') :
    Separates (text ++ text') := by
  intro rest hrest
  rw [List.append_assoc]
  exact h _ (h' rest hrest)

theorem Opens.append (h : Opens text) (text' : List Char) : Opens (text ++ text') := by
  intro rest
  rw [List.append_assoc]
  exact h _

theorem Separates.append_opens (h : Separates text) (h' : Opens text') : Opens (text ++ text') := by
  intro rest
  rw [List.append_assoc]
  exact h _ (h' rest)

theorem map_append_map (found : Except LexError (List Token)) :
    (found.map (tokens' ++ ·)).map (tokens ++ ·) = found.map (tokens ++ tokens' ++ ·) := by
  cases found with
  | error failure => rfl
  | ok later => exact congrArg Except.ok (List.append_assoc _ _ _).symm

theorem scans_nil : Scans [] [] := by
  intro rest
  cases hrest : lex rest with
  | error failure => exact hrest
  | ok later => exact hrest

theorem Scans.reads (h : Scans text tokens) : Reads text tokens := fun rest _ => h rest

theorem Scans.append (h : Scans text tokens) (h' : Scans text' tokens') :
    Scans (text ++ text') (tokens ++ tokens') := by
  intro rest
  rw [List.append_assoc, h, h', map_append_map]

theorem Scans.append_reads (h : Scans text tokens) (h' : Reads text' tokens') :
    Reads (text ++ text') (tokens ++ tokens') := by
  intro rest hrest
  rw [List.append_assoc, h, h' rest hrest, map_append_map]

theorem Reads.append (h : Reads text tokens) (h' : Reads text' tokens')
    (hseparates : Separates text') : Reads (text ++ text') (tokens ++ tokens') := by
  intro rest hrest
  rw [List.append_assoc, h _ (hseparates rest hrest), h' rest hrest, map_append_map]

theorem Reads.append_scans (h : Reads text tokens) (h' : Scans text' tokens')
    (hopens : Opens text') : Scans (text ++ text') (tokens ++ tokens') := by
  intro rest
  rw [List.append_assoc, h _ (hopens rest), h', map_append_map]

/-- A text that ends where it is read is all of its tokens. -/
theorem Reads.lex (h : Reads text tokens) : lex text = .ok tokens := by
  have hall := h [] breaks_nil
  rw [List.append_nil, lex_nil] at hall
  rw [hall]
  exact congrArg Except.ok (List.append_nil tokens)

theorem lex_of_next (token : Option Token) (h : next c text = .ok (token, rest)) :
    lex (c :: text) = (lex rest).map (token.toList ++ ·) := by
  rw [lex_cons, h]
  change (do
    let tokens ← Postgres.lex rest
    return token.toList ++ tokens) = _
  cases hrest : Postgres.lex rest <;> rfl

/-- The first token of a text, if it is the same wherever the text stands. -/
theorem scans_of_next (token : Option Token)
    (h : ∀ rest, next c (text ++ rest) = .ok (token, rest)) :
    Scans (c :: text) token.toList := fun rest => lex_of_next token (h rest)

theorem reads_of_next (token : Option Token)
    (h : ∀ rest, Breaks rest → next c (text ++ rest) = .ok (token, rest)) :
    Reads (c :: text) token.toList := fun rest hrest =>
  lex_of_next token (h rest hrest)

/-! ### Space, symbols, words and names -/

theorem scans_space (h : isSpace c) : Scans [c] [] := by
  apply scans_of_next none
  intro rest
  rw [next, if_pos h]
  rfl

/-- Space between two tokens. -/
theorem scans_spaces (h : text.all isSpace) : Scans text [] := by
  induction text with
  | nil => exact scans_nil
  | cons c text ih =>
      rw [List.all_cons, Bool.and_eq_true] at h
      exact (scans_space h.1).append (ih h.2)

theorem breaksOff_of_isSpace (h : isSpace c) : breaksOff c := by
  have hall : spaces.all breaksOff := by decide
  exact List.all_eq_true.1 hall c (List.contains_iff_mem.1 h)

/-- The signs that may begin a name, a string or a comment. -/
def openingSigns : List Char := ['-', '/', '$', doubleQuote, singleQuote]

/-- A character that begins no word, name, string or comment. -/
def isPlain (c : Char) : Bool := !isSpace c && !startsWord c && !openingSigns.contains c

theorem scans_symbol (h : isPlain c) : Scans [c] [.symbol c] := by
  apply scans_of_next (some (.symbol c))
  intro rest
  simp only [isPlain, openingSigns, Bool.and_eq_true, Bool.not_eq_true', List.contains_eq_mem,
    decide_eq_false_iff_not, List.mem_cons, List.not_mem_nil, or_false, not_or] at h
  obtain ⟨⟨hspace, hword⟩, hminus, hslash, hdollar, hdouble, hsingle⟩ := h
  rw [next, if_neg (by simp [hspace]), if_neg fun h => hminus h.1, if_neg fun h => hslash h.1,
    if_neg hdouble, if_neg hsingle, if_neg hdollar, if_neg (by simp [hword])]
  rfl

/-- The longest beginning of one class of characters, when the next one is not of it. -/
theorem span_append {p : Char → Bool} (hword : word.all p) (hrest : ∀ d ∈ rest.head?, ¬ p d) :
    (word ++ rest).takeWhile p = word ∧ (word ++ rest).dropWhile p = rest := by
  have hall := List.all_eq_true.1 hword
  rw [List.takeWhile_append_of_pos hall, List.dropWhile_append_of_pos hall]
  cases rest with
  | nil => exact ⟨List.append_nil _, rfl⟩
  | cons d rest =>
      have hd := hrest d rfl
      rw [List.takeWhile_cons_of_neg hd, List.dropWhile_cons_of_neg hd]
      exact ⟨List.append_nil _, rfl⟩

/-- A key word or a name without quotes, if it is all of the word that stands there. -/
theorem reads_word (hstart : startsWord c) (hword : word.all continuesWord) :
    Reads (c :: word) [.word (truncated ((c :: word).map Char.toLower))] := by
  apply reads_of_next (some (.word (truncated ((c :: word).map Char.toLower))))
  intro rest hrest
  -- What begins a word begins nothing else.
  have hother {d : Char} (hd : ¬ startsWord d) : c ≠ d := by
    rintro rfl
    exact hd hstart
  have hspace : ¬ isSpace c := by
    intro hspace
    have hbreaks := breaksOff_of_isSpace hspace
    simp [breaksOff, continuesWord, continuesTag, hstart] at hbreaks
  obtain ⟨htake, hdrop⟩ := span_append hword fun d hd hcontinues => by
    have hbreaks := hrest d hd
    rw [breaksOff, hcontinues] at hbreaks
    cases hbreaks
  have hsingle : rest.head? ≠ some singleQuote := by
    intro hhead
    have hbreaks := hrest singleQuote hhead
    revert hbreaks
    decide
  rw [next, if_neg hspace, if_neg fun h => hother (by decide) h.1,
    if_neg fun h => hother (by decide) h.1, if_neg (hother (by decide)),
    if_neg (hother (by decide)), if_neg (hother (by decide)), if_pos hstart]
  unfold readWord
  rw [htake, hdrop]
  exact if_neg fun h => hsingle h.2

theorem quotedText_cons (hc : c ≠ quote) (htext : text ≠ []) :
    quotedText quote false (c :: text) = behind [c] (quotedText quote false text) := by
  cases text with
  | nil => exact absurd rfl htext
  | cons d text =>
      rw [quotedText, if_neg fun h => hc h.1]
      exact if_neg fun h => h.elim hc fun h => by cases h.1

/-- A text without the quote reaches to the quote behind it. -/
theorem quotedText_append (hname : quote ∉ name) (hrest : ∀ d ∈ rest.head?, d ≠ quote) :
    quotedText quote false (name ++ quote :: rest) = some (name, rest) := by
  induction name with
  | nil =>
      cases rest with
      | nil => exact if_pos rfl
      | cons d rest => exact if_pos ⟨rfl, hrest d rfl⟩
  | cons c name ih =>
      obtain ⟨hc, hname⟩ := not_or.1 (mt List.mem_cons.2 hname)
      rw [List.cons_append, quotedText_cons (Ne.symm hc) (by simp), ih hname]
      rfl

/-- A name in quotes without a quote in it. -/
theorem reads_quoted (hname : name ≠ []) (hquote : doubleQuote ∉ name) :
    Reads (doubleQuote :: (name ++ [doubleQuote])) [.quoted (truncated name)] := by
  apply reads_of_next (some (.quoted (truncated name)))
  intro rest hrest
  have hread : quotedText doubleQuote false (name ++ [doubleQuote] ++ rest) = some (name, rest) := by
    rw [List.append_assoc]
    apply quotedText_append hquote
    rintro d hd rfl
    have hbreaks := hrest doubleQuote hd
    revert hbreaks
    decide
  rw [next, if_neg (by decide), if_neg fun h => absurd h.1 (by decide),
    if_neg fun h => absurd h.1 (by decide), if_pos rfl]
  unfold readName
  rw [hread]
  exact if_neg hname

/-- A comment up to the end of its line. -/
theorem lex_comment (htext : text.all fun d => !endsLine d)
    (hrest : ∀ d ∈ rest.head?, endsLine d) :
    lex ('-' :: '-' :: text ++ rest) = (lex rest).map ([.comment ('-' :: '-' :: text)] ++ ·) := by
  have hword : ('-' :: text).all fun d => !endsLine d := by
    rw [List.all_cons, htext]
    rfl
  obtain ⟨htake, hdrop⟩ := span_append hword fun d hd h => by
    rw [hrest d hd] at h
    cases h
  apply lex_of_next (some (.comment ('-' :: '-' :: text)))
  rw [next, if_neg (by decide), if_pos ⟨rfl, rfl⟩]
  exact congrArg Except.ok (Prod.ext (congrArg (fun read => some (Token.comment ('-' :: read))) htake)
    hdrop)

/-! ### Statements -/

/-- A semicolon ends a statement, and a comment is no part of one. -/
def Token.inStatement : Token → Bool
  | .comment _ => false
  | .symbol c => c != ';'
  | _ => true

/-- The tokens between the semicolons. -/
def pieces : List Token → List (List Token)
  | [] => []
  | token :: tokens =>
    if token = .symbol ';' then [] :: pieces tokens
    else if token.inStatement then
      (token :: (pieces tokens).headD []) :: (pieces tokens).tail
    else pieces tokens

def statements (tokens : List Token) : List (List Token) :=
  (pieces tokens).filter fun statement => !statement.isEmpty

/-- A server takes the statements of a text one after the other. A text without tokens is refused
as a whole. -/
def run {σ : Type} (execute : List Token → σ → σ) (text : List Char) (state : σ) : σ :=
  match lex text with
  | .error _ => state
  | .ok tokens => (statements tokens).foldl (fun state statement => execute statement state) state

theorem statements_comment (comment : List Char) (tokens : List Token) :
    statements (.comment comment :: tokens) = statements tokens := rfl

theorem pieces_append_semicolon (h : ∀ token ∈ tokens, token.inStatement) :
    pieces (tokens ++ [.symbol ';']) = [tokens] := by
  induction tokens with
  | nil => rfl
  | cons token tokens ih =>
      have htoken := h token List.mem_cons_self
      have hsemicolon : token ≠ .symbol ';' := by
        rintro rfl
        cases htoken
      have hlater := ih fun later hlater => h later (List.mem_cons_of_mem _ hlater)
      rw [List.cons_append, pieces, if_neg hsemicolon, if_pos htoken, hlater]
      rfl

/-- Tokens without a semicolon in front of one are one statement. -/
theorem statements_single (hne : tokens ≠ []) (h : ∀ token ∈ tokens, token.inStatement) :
    statements (tokens ++ [.symbol ';']) = [tokens] := by
  rw [statements, pieces_append_semicolon h]
  cases tokens with
  | nil => exact absurd rfl hne
  | cons token tokens => rfl

end Postgres
