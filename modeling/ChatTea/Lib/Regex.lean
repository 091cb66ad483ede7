import Mathlib.Computability.Language

/-!
# Regular expressions by backtracking

An expression is matched against the beginning of a text. The ways to do so are tried in the
order in which a backtracking matcher tries them: the first branch of an alternative before the
second, and as many repetitions as possible. What each way leaves of the text is listed, so that
the first element of the list is the match that the matcher finds.

## Main definitions

* `Regex` — expressions over classes of characters
* `Regex.rests` — what the matches leave of a text, the first match first
* `Regex.language` — the texts that an expression stands for

## Main results

* `Regex.mem_rests_iff` — the matches of an expression are the texts of its language
-/

/-- An expression over classes of characters. -/
inductive Regex
  | empty
  | chars (accepts : Char → Bool)
  | seq (first second : Regex)
  | alt (first second : Regex)
  | star (repeated : Regex)

namespace Regex

def optional (r : Regex) : Regex := .alt r .empty

def plus (r : Regex) : Regex := .seq r (.star r)

def seqAll (parts : List Regex) : Regex := parts.foldr .seq .empty

/-- One character, as it is. -/
def char (c : Char) : Regex := .chars fun read => read == c

/-- A word of capital letters, in any case. -/
def caseless (word : List Char) : Regex :=
  .seqAll (word.map fun letter => .chars fun read => read.toUpper == letter)

/-- What is left after as many rounds as possible, then after fewer. A round that takes
nothing is not repeated. -/
def many (round : List Char → List (List Char)) : ℕ → List Char → List (List Char)
  | 0, text => [text]
  | fuel + 1, text =>
      ((round text).filter fun rest => rest.length < text.length).flatMap (many round fuel) ++ [text]

/-- What the matches at the beginning of a text leave of it, the first match first. -/
def rests : Regex → List Char → List (List Char)
  | .empty, text => [text]
  | .chars _, [] => []
  | .chars accepts, c :: text => if accepts c then [text] else []
  | .seq first second, text => (first.rests text).flatMap second.rests
  | .alt first second, text => first.rests text ++ second.rests text
  | .star repeated, text => many repeated.rests text.length text

/-- The texts an expression stands for. -/
def language : Regex → Language Char
  | .empty => 1
  | .chars accepts => {text | ∃ c, accepts c ∧ text = [c]}
  | .seq first second => first.language * second.language
  | .alt first second => first.language + second.language
  | .star repeated => KStar.kstar repeated.language

theorem mem_chars {accepts : Char → Bool} {text : List Char} :
    text ∈ (chars accepts).language ↔ ∃ c, accepts c ∧ text = [c] := Iff.rfl

theorem mem_star_nil (r : Regex) : [] ∈ (star r).language := Language.nil_mem_kstar _

/-- One more round before the others. -/
theorem mem_star_append {r : Regex} {taken later : List Char} (h : taken ∈ r.language)
    (hlater : later ∈ (star r).language) : taken ++ later ∈ (star r).language := by
  have hmul : r.language * KStar.kstar r.language ≤ KStar.kstar r.language := mul_kstar_le_kstar
  apply hmul
  exact Language.append_mem_mul h hlater

/-- A text of some rounds begins with a round that takes something. -/
theorem mem_star_cases {r : Regex} {text : List Char} (h : text ∈ (star r).language) :
    text = [] ∨ ∃ taken later, taken ≠ [] ∧ text = taken ++ later ∧ taken ∈ r.language ∧
      later ∈ (star r).language := by
  obtain ⟨rounds, rfl, hrounds⟩ := Language.mem_kstar_iff_exists_nonempty.1 h
  cases rounds with
  | nil => exact Or.inl rfl
  | cons taken rounds =>
      obtain ⟨htaken, hne⟩ := hrounds taken List.mem_cons_self
      refine Or.inr ⟨taken, rounds.flatten, hne, List.flatten_cons, htaken, ?_⟩
      exact Language.mem_kstar.2 ⟨rounds, rfl, fun other hother =>
        (hrounds other (List.mem_cons_of_mem _ hother)).1⟩

/-- The rounds of a repetition, if each of them is a text of the repeated expression. -/
theorem mem_many_iff {r : Regex} {round : List Char → List (List Char)}
    (hround : ∀ text rest, rest ∈ round text ↔ ∃ taken, text = taken ++ rest ∧ taken ∈ r.language) :
    ∀ (fuel : ℕ) (text rest : List Char), text.length ≤ fuel →
      (rest ∈ many round fuel text ↔ ∃ taken, text = taken ++ rest ∧ taken ∈ (star r).language) := by
  intro fuel
  induction fuel with
  | zero =>
      intro text rest hlength
      obtain rfl : text = [] := List.length_eq_zero_iff.1 (Nat.le_zero.1 hlength)
      constructor
      · intro hrest
        obtain rfl := List.mem_singleton.1 hrest
        exact ⟨[], rfl, mem_star_nil r⟩
      · rintro ⟨taken, htext, -⟩
        obtain ⟨-, rfl⟩ := List.append_eq_nil_iff.1 htext.symm
        exact List.mem_singleton_self _
  | succ fuel ih =>
      intro text rest hlength
      rw [many, List.mem_append, List.mem_flatMap, List.mem_singleton]
      constructor
      · rintro (⟨middle, hmiddle, hrest⟩ | rfl)
        · obtain ⟨hround', hless⟩ := List.mem_filter.1 hmiddle
          have hless := of_decide_eq_true hless
          obtain ⟨taken, rfl, htaken⟩ := (hround _ _).1 hround'
          obtain ⟨later, rfl, hlater⟩ := (ih middle rest (by omega)).1 hrest
          exact ⟨taken ++ later, (List.append_assoc _ _ _).symm, mem_star_append htaken hlater⟩
        · exact ⟨[], rfl, mem_star_nil r⟩
      · rintro ⟨taken, rfl, htaken⟩
        rcases mem_star_cases htaken with rfl | ⟨first, later, hne, rfl, hfirst, hlater⟩
        · exact Or.inr rfl
        · -- The first round takes something, so that the rest is within the fuel.
          have hpos : 0 < first.length := List.length_pos_iff.2 hne
          simp only [List.length_append] at hlength
          refine Or.inl ⟨later ++ rest, List.mem_filter.2 ⟨?_, ?_⟩, ?_⟩
          · exact (hround _ _).2 ⟨first, List.append_assoc _ _ _, hfirst⟩
          · simp only [List.length_append, decide_eq_true_eq]
            omega
          · apply (ih _ _ _).2 ⟨later, rfl, hlater⟩
            simp only [List.length_append]
            omega

/-- The matches of an expression are the texts of its language. -/
theorem mem_rests_iff (r : Regex) : ∀ text rest : List Char,
    rest ∈ r.rests text ↔ ∃ taken, text = taken ++ rest ∧ taken ∈ r.language := by
  induction r with
  | empty =>
      intro text rest
      rw [rests, List.mem_singleton]
      constructor
      · rintro rfl
        exact ⟨[], rfl, Language.nil_mem_one⟩
      · rintro ⟨taken, rfl, htaken⟩
        rw [(Language.mem_one taken).1 htaken]
        rfl
  | chars accepts =>
      intro text rest
      cases text with
      | nil =>
          constructor
          · intro hrest
            cases hrest
          · rintro ⟨taken, htext, c, -, rfl⟩
            cases htext
      | cons c text =>
          rw [rests]
          constructor
          · intro hrest
            split at hrest
            next haccepts =>
              obtain rfl := List.mem_singleton.1 hrest
              exact ⟨[c], rfl, c, haccepts, rfl⟩
            next => cases hrest
          · rintro ⟨taken, htext, c', haccepts, rfl⟩
            obtain ⟨rfl, rfl⟩ := List.cons.inj htext
            rw [if_pos haccepts]
            exact List.mem_singleton_self _
  | seq first second hfirst hsecond =>
      intro text rest
      rw [rests, List.mem_flatMap]
      constructor
      · rintro ⟨middle, hmiddle, hrest⟩
        obtain ⟨taken, rfl, htaken⟩ := (hfirst _ _).1 hmiddle
        obtain ⟨later, rfl, hlater⟩ := (hsecond _ _).1 hrest
        exact ⟨taken ++ later, (List.append_assoc _ _ _).symm, Language.append_mem_mul htaken hlater⟩
      · rintro ⟨taken, rfl, htaken⟩
        obtain ⟨earlier, hearlier, later, hlater, rfl⟩ := Language.mem_mul.1 htaken
        refine ⟨later ++ rest, (hfirst _ _).2 ⟨earlier, ?_, hearlier⟩, ?_⟩
        · exact List.append_assoc _ _ _
        · exact (hsecond _ _).2 ⟨later, rfl, hlater⟩
  | alt first second hfirst hsecond =>
      intro text rest
      rw [rests, List.mem_append, hfirst, hsecond]
      constructor
      · rintro (⟨taken, htext, htaken⟩ | ⟨taken, htext, htaken⟩)
        · exact ⟨taken, htext, Or.inl htaken⟩
        · exact ⟨taken, htext, Or.inr htaken⟩
      · rintro ⟨taken, htext, htaken | htaken⟩
        · exact Or.inl ⟨taken, htext, htaken⟩
        · exact Or.inr ⟨taken, htext, htaken⟩
  | star repeated ih =>
      intro text rest
      exact mem_many_iff ih text.length text rest (Nat.le_refl _)

/-- Every character of a text of rounds of one class is of the class. -/
theorem mem_star_chars {accepts : Char → Bool} {text : List Char}
    (h : text ∈ (star (chars accepts)).language) : text.all accepts := by
  obtain ⟨rounds, rfl, hrounds⟩ := Language.mem_kstar.1 h
  rw [List.all_flatten, List.all_eq_true]
  intro round hround
  obtain ⟨c, hc, rfl⟩ := hrounds round hround
  rw [List.all_cons, hc, List.all_nil, Bool.and_true]

theorem mem_star_of_all {accepts : Char → Bool} {text : List Char} (h : text.all accepts) :
    text ∈ (star (chars accepts)).language := by
  induction text with
  | nil => exact mem_star_nil _
  | cons c text ih =>
      rw [List.all_cons, Bool.and_eq_true] at h
      exact mem_star_append (mem_chars.2 ⟨c, h.1, rfl⟩) (ih h.2)

/-- The texts of one class of characters that are not empty. -/
theorem mem_plus_chars {accepts : Char → Bool} {text : List Char} :
    text ∈ (plus (chars accepts)).language ↔ text ≠ [] ∧ text.all accepts := by
  constructor
  · intro h
    obtain ⟨_, ⟨c, hc, rfl⟩, rest, hrest, rfl⟩ := Language.mem_mul.1 h
    rw [List.singleton_append, List.all_cons, hc, mem_star_chars hrest]
    exact ⟨List.cons_ne_nil c rest, rfl⟩
  · rintro ⟨hne, hall⟩
    cases text with
    | nil => exact absurd rfl hne
    | cons c text =>
        rw [List.all_cons, Bool.and_eq_true] at hall
        exact Language.append_mem_mul (mem_chars.2 ⟨c, hall.1, rfl⟩) (mem_star_of_all hall.2)

theorem mem_char {c : Char} {text : List Char} : text ∈ (char c).language ↔ text = [c] := by
  rw [char, mem_chars]
  constructor
  · rintro ⟨read, hread, rfl⟩
    rw [eq_of_beq hread]
  · rintro rfl
    exact ⟨c, beq_self_eq_true c, rfl⟩

/-- The texts of a word in any case are the word once they are in capitals. -/
theorem mem_caseless {word text : List Char} (h : text ∈ (caseless word).language) :
    text.map Char.toUpper = word := by
  induction word generalizing text with
  | nil =>
      obtain rfl := (Language.mem_one text).1 h
      rfl
  | cons letter word ih =>
      obtain ⟨_, ⟨read, hread, rfl⟩, later, hlater, rfl⟩ := Language.mem_mul.1 h
      rw [List.singleton_append, List.map_cons, eq_of_beq hread, ih hlater]

/-! ### Texts that stand for other texts -/

/-- A relation between texts under which the parts of one text have parts of the other. -/
structure Splits (loose : List Char → List Char → Prop) : Prop where
  nil : ∀ {text}, loose text [] → text = []
  append : ∀ {text first second}, loose text (first ++ second) →
    ∃ first' second', text = first' ++ second' ∧ loose first' first ∧ loose second' second

/-- An expression that has a text also has every text that stands for it. -/
def Follows (loose : List Char → List Char → Prop) (r : Regex) : Prop :=
  ∀ ⦃text text'⦄, loose text' text → text ∈ r.language → text' ∈ r.language

section Follows

variable {loose : List Char → List Char → Prop} {r s : Regex} {parts : List Regex}

theorem Follows.empty (hloose : Splits loose) : Follows loose .empty := by
  intro text text' h htext
  obtain rfl := (Language.mem_one text).1 htext
  rw [hloose.nil h]
  exact Language.nil_mem_one

theorem Follows.seq (hloose : Splits loose) (h : Follows loose r) (h' : Follows loose s) :
    Follows loose (.seq r s) := by
  intro text text' hstands htext
  obtain ⟨first, hfirst, second, hsecond, rfl⟩ := Language.mem_mul.1 htext
  obtain ⟨first', second', rfl, hstands, hstands'⟩ := hloose.append hstands
  exact Language.append_mem_mul (h hstands hfirst) (h' hstands' hsecond)

theorem Follows.alt (h : Follows loose r) (h' : Follows loose s) : Follows loose (.alt r s) := by
  intro text text' hstands htext
  exact htext.imp (h hstands) (h' hstands)

theorem Follows.star (hloose : Splits loose) (h : Follows loose r) : Follows loose (.star r) := by
  intro text text' hstands htext
  obtain ⟨rounds, rfl, hrounds⟩ := Language.mem_kstar.1 htext
  induction rounds generalizing text' with
  | nil =>
      rw [hloose.nil hstands]
      exact mem_star_nil r
  | cons round rounds ih =>
      obtain ⟨round', rounds', rfl, hround, hlater⟩ := hloose.append hstands
      have hrest := fun other hother => hrounds other (List.mem_cons_of_mem _ hother)
      apply mem_star_append (h hround (hrounds round List.mem_cons_self))
      exact ih hrest hlater (Language.mem_kstar.2 ⟨rounds, rfl, hrest⟩)

theorem Follows.optional (hloose : Splits loose) (h : Follows loose r) :
    Follows loose (optional r) := h.alt (Follows.empty hloose)

theorem Follows.seqAll (hloose : Splits loose) (h : ∀ part ∈ parts, Follows loose part) :
    Follows loose (seqAll parts) := by
  induction parts with
  | nil => exact Follows.empty hloose
  | cons part parts ih =>
      apply Follows.seq hloose (h part List.mem_cons_self)
      exact ih fun other hother => h other (List.mem_cons_of_mem _ hother)

end Follows

end Regex
