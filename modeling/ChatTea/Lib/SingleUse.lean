import ChatTea.Lib.History
import ChatTea.Lib.Table

/-!
# Tokens that are used once

A table of tokens, each with a key, and the history of those who use them. A step adds a
token with a new key, or uses up what is unused under a key and enters that; no token is
ever removed.

## Main definitions

* `TokenChange` — what a step does to the tokens
* `SpentOnce` — the history has each key at most once, and only where its token is used

## Main results

* `SpentOnce.change` — a step keeps it
* `TokenChange.countP_used` — each use makes one more token used
-/

namespace SingleUse

open History Table

variable {α κ ε : Type} {key : α → κ} {used : α → Bool} {tokens after : List α}
  {spent : Option κ} {uses : κ → ε → Bool} {history : List (ℕ × ε)}

/-- What a step does to the tokens, and the key that it uses up. -/
inductive TokenChange (key : α → κ) (used : α → Bool) (tokens : List α) : Option κ → List α → Prop
  | kept : TokenChange key used tokens none tokens
  | added {new} (isNew : ∀ token ∈ tokens, key token ≠ key new) (unused : ¬ used new) :
      TokenChange key used tokens none (tokens ++ [new])
  | spent {k} (cond : α → Bool) (set : α → α) (usable : ∃ token ∈ tokens, cond token)
      (only : ∀ token, cond token → key token = k ∧ ¬ used token)
      (sameKey : ∀ token, key (set token) = key token) (uses : ∀ token, used (set token)) :
      TokenChange key used tokens (some k) (updateWhere cond set tokens)

/-- The keys that were used up: each once, and its token is used. -/
structure SpentOnce (key : α → κ) (used : α → Bool) (uses : κ → ε → Bool) (tokens : List α)
    (history : List (ℕ × ε)) : Prop where
  unique : UniqueKey key tokens
  spent : ∀ entry ∈ history, ∀ k, uses k entry.2 → ∃ token ∈ tokens, key token = k ∧ used token
  once : ∀ k, count (uses k) history ≤ 1
  unspent : ∀ token ∈ tokens, ¬ used token → count (uses (key token)) history = 0

theorem SpentOnce.start (hunique : UniqueKey key tokens) :
    SpentOnce key used uses tokens ([] : List (ℕ × ε)) :=
  ⟨hunique, fun _ hmem => absurd hmem List.not_mem_nil, fun _ => Nat.zero_le _, fun _ _ _ => rfl⟩

namespace TokenChange

theorem unique (h : TokenChange key used tokens spent after) (hunique : UniqueKey key tokens) :
    UniqueKey key after := by
  cases h with
  | kept => exact hunique
  | added isNew unused => exact hunique.append isNew
  | spent cond set usable only sameKey uses => exact hunique.updateWhere sameKey

/-- A token stays, and stays used. -/
theorem forth (h : TokenChange key used tokens spent after) {token : α} (hmem : token ∈ tokens) :
    ∃ next ∈ after, key next = key token ∧ (used token → used next) := by
  cases h with
  | kept => exact ⟨token, hmem, rfl, id⟩
  | added isNew unused => exact ⟨token, List.mem_append_left _ hmem, rfl, id⟩
  | spent cond set usable only sameKey uses =>
      refine ⟨_, List.mem_map_of_mem hmem, ?_⟩
      split
      · exact ⟨sameKey token, fun _ => uses token⟩
      · exact ⟨rfl, id⟩

/-- An unused token was there unused, and is not the one that is used up; or it is new. -/
theorem back (hunique : UniqueKey key tokens) (h : TokenChange key used tokens spent after)
    {next : α} (hmem : next ∈ after) (hunused : ¬ used next) :
    (next ∈ tokens ∧ spent ≠ some (key next)) ∨
      (spent = none ∧ ∀ token ∈ tokens, key token ≠ key next) := by
  cases h with
  | kept => exact Or.inl ⟨hmem, (Option.some_ne_none _).symm⟩
  | added isNew unused =>
      rcases List.mem_append.1 hmem with hold | hnew
      · exact Or.inl ⟨hold, (Option.some_ne_none _).symm⟩
      · obtain rfl := List.mem_singleton.1 hnew
        exact Or.inr ⟨rfl, isNew⟩
  | spent cond set usable only sameKey uses =>
      rcases mem_updateWhere.1 hmem with ⟨old, -, -, rfl⟩ | ⟨hold, hnot⟩
      · exact absurd (uses old) hunused
      · refine Or.inl ⟨hold, fun hkey => hnot ?_⟩
        obtain ⟨token, htoken, hcond⟩ := usable
        have hsame : key next = key token := by
          rw [(only token hcond).1]
          exact (Option.some.inj hkey).symm
        rwa [hunique.eq_of_key hold htoken hsame]

/-- What is used up was unused, and is used afterwards. -/
theorem of_spent {k : κ} (h : TokenChange key used tokens (some k) after) :
    (∃ token ∈ tokens, key token = k ∧ ¬ used token) ∧ ∃ next ∈ after, key next = k ∧ used next := by
  cases h with
  | spent cond set usable only sameKey uses =>
      obtain ⟨token, hmem, hcond⟩ := usable
      obtain ⟨hkey, hunused⟩ := only token hcond
      refine ⟨⟨token, hmem, hkey, hunused⟩, set token, ?_, (sameKey token).trans hkey, uses token⟩
      exact mem_updateWhere.2 (Or.inl ⟨token, hmem, hcond, rfl⟩)

/-- Only the token that is used up becomes used. -/
theorem spent_of_used (hunique : UniqueKey key tokens)
    (h : TokenChange key used tokens spent after) {token next : α} (hmem : token ∈ tokens)
    (hunused : ¬ used token) (hnext : next ∈ after) (hsame : key next = key token)
    (hused : used next) : spent = some (key token) := by
  cases h with
  | kept =>
      obtain rfl := hunique.eq_of_key hnext hmem hsame
      exact absurd hused hunused
  | added isNew unused =>
      rcases List.mem_append.1 hnext with hold | hnew
      · obtain rfl := hunique.eq_of_key hold hmem hsame
        exact absurd hused hunused
      · obtain rfl := List.mem_singleton.1 hnew
        exact absurd hused unused
  | spent cond set usable only sameKey uses =>
      rcases mem_updateWhere.1 hnext with ⟨old, hold, hcond, rfl⟩ | ⟨hold, -⟩
      · rw [← hsame, sameKey, (only old hcond).1]
      · obtain rfl := hunique.eq_of_key hold hmem hsame
        exact absurd hused hunused

/-- Each use makes one more token used. -/
theorem countP_used (hunique : UniqueKey key tokens) (h : TokenChange key used tokens spent after) :
    after.countP used = tokens.countP used + if spent.isSome then 1 else 0 := by
  cases h with
  | kept => rfl
  | added isNew unused => simp [unused]
  | @spent k cond set usable only sameKey uses =>
      obtain ⟨token, hmem, hcond⟩ := usable
      -- The used tokens afterwards: those that were, and the one with the key.
      have hsplit : (updateWhere cond set tokens).countP used =
          tokens.countP used + tokens.countP cond := by
        clear hmem hunique
        induction tokens with
        | nil => rfl
        | cons first rest ih =>
            have hrest : (updateWhere cond set (first :: rest)).countP used =
                (updateWhere cond set rest).countP used +
                  if used (if cond first then set first else first) then 1 else 0 :=
              List.countP_cons
            rw [hrest, ih, List.countP_cons, List.countP_cons]
            by_cases hfirst : cond first
            · simp only [hfirst, if_true, uses, (only first hfirst).2]
              simp only [Bool.false_eq_true, if_false]
              omega
            · simp only [hfirst, if_false, Bool.false_eq_true]
              omega
      have hone : tokens.countP cond = 1 := by
        have hle : tokens.countP cond ≤ 1 := by
          rw [List.countP_eq_length_filter]
          refine hunique.length_filter_le_one fun row hrow row' hrow' hcond hcond' => ?_
          exact hunique.eq_of_key hrow hrow' ((only row hcond).1.trans (only row' hcond').1.symm)
        have hpos : 0 < tokens.countP cond := List.countP_pos_iff.2 ⟨token, hmem, hcond⟩
        omega
      rw [hsplit, hone]
      rfl

end TokenChange

/-- A step that enters what it uses up keeps every key used at most once. -/
theorem SpentOnce.change {pid : ℕ} {events : List ε} [DecidableEq κ]
    (hinv : SpentOnce key used uses tokens history) (h : TokenChange key used tokens spent after)
    (hevents : ∀ k, events.countP (uses k) = if spent = some k then 1 else 0) :
    SpentOnce key used uses after (stamp pid events ++ history) where
  unique := h.unique hinv.unique
  spent := by
    rintro ⟨p, event⟩ hmem k huses
    rcases List.mem_append.1 hmem with hnew | hold
    · have hpos : 0 < events.countP (uses k) :=
        List.countP_pos_iff.2 ⟨event, (mem_stamp.1 hnew).2, huses⟩
      rw [hevents] at hpos
      have hspent : spent = some k := by
        by_contra hother
        rw [if_neg hother] at hpos
        exact absurd hpos (Nat.lt_irrefl 0)
      subst hspent
      exact h.of_spent.2
    · obtain ⟨token, htoken, rfl, hused⟩ := hinv.spent _ hold k huses
      obtain ⟨next, hnext, hsame, hstays⟩ := h.forth htoken
      exact ⟨next, hnext, hsame, hstays hused⟩
  once := by
    intro k
    rw [count_stamp_append, hevents]
    split
    · rename_i hspent
      subst hspent
      obtain ⟨token, hmem, rfl, hunused⟩ := h.of_spent.1
      rw [hinv.unspent token hmem hunused]
    · rw [Nat.zero_add]
      exact hinv.once k
  unspent := by
    intro next hmem hunused
    rw [count_stamp_append, hevents]
    rcases h.back hinv.unique hmem hunused with ⟨hold, hother⟩ | ⟨rfl, hnew⟩
    · rw [if_neg hother, hinv.unspent next hold hunused]
    · rw [if_neg (Option.some_ne_none _).symm, Nat.zero_add]
      refine count_eq_zero.2 fun entry hentry huses => ?_
      obtain ⟨token, htoken, hsame, -⟩ := hinv.spent entry hentry _ huses
      exact hnew token htoken hsame

end SingleUse
