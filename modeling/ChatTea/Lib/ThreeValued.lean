import Mathlib.Data.List.Basic
import Mathlib.Data.Nat.Notation
import Mathlib.Order.Lattice
import Mathlib.Tactic.Cases

/-!
# Conditions on rows with nulls

A condition of SQL is true, false or unknown: it is unknown where a null is compared. A
query selects the rows whose condition is true.

## Main definitions

* `ThreeValued.Truth` — the truth values, where none is unknown
* `ThreeValued.eq`, `ThreeValued.ne`, `ThreeValued.isNull`, `ThreeValued.isNotNull` — comparisons
* `ThreeValued.greater`, `ThreeValued.rowGreater` — the order, of columns and of rows
* `ThreeValued.conj`, `ThreeValued.disj` — the connectives
* `ThreeValued.allOf`, `ThreeValued.anyOf` — the connectives of a query builder, which leaves out
  a condition that is not given
* `ThreeValued.notExists` — no row of a subquery is selected
* `ThreeValued.Selected` — the condition is true

## Main results

* `selected_allOf`, `selected_anyOf`, `selected_notExists` — what a query selects, condition by
  condition
-/

namespace ThreeValued

variable {α : Type} {a b : Option α} {value : α}

/-- A truth value; none is unknown. -/
abbrev Truth := Option Bool

/-- A row with this condition is selected. -/
def Selected (t : Truth) : Prop := t = some true

instance (t : Truth) : Decidable (Selected t) := inferInstanceAs (Decidable (_ = _))

/-! ### Comparisons -/

section Comparisons

variable [DecidableEq α]

/-- `a = b`, which is unknown where one of them is null. -/
def eq (a b : Option α) : Truth :=
  match a, b with
  | some a, some b => some (a = b)
  | _, _ => none

/-- `a <> b`, which is unknown where one of them is null. -/
def ne (a b : Option α) : Truth :=
  match a, b with
  | some a, some b => some (a ≠ b)
  | _, _ => none

theorem selected_eq : Selected (eq a b) ↔ ∃ value, a = some value ∧ b = some value := by
  unfold Selected eq
  cases a with
  | none => simp
  | some a =>
      cases b with
      | none => simp
      | some b => simp [eq_comm]

theorem selected_eq_some : Selected (eq a (some value)) ↔ a = some value := by
  rw [selected_eq]
  constructor
  · rintro ⟨other, ha, hvalue⟩
    rw [ha, hvalue]
  · intro ha
    exact ⟨value, ha, rfl⟩

/-- A null differs from nothing, as far as a query can tell. -/
theorem selected_ne_some : Selected (ne a (some value)) ↔ ∃ other, a = some other ∧ other ≠ value := by
  unfold Selected ne
  cases a with
  | none => simp
  | some a => simp

end Comparisons

def isNull (a : Option α) : Truth := some a.isNone

def isNotNull (a : Option α) : Truth := some a.isSome

theorem selected_isNull : Selected (isNull a) ↔ a = none := by
  simp [Selected, isNull]

theorem selected_isNotNull : Selected (isNotNull a) ↔ a ≠ none := by
  simp [Selected, isNotNull, Option.isSome_iff_ne_none]

/-! ### Order -/

section Order

variable {β : Type} [LinearOrder α] [LinearOrder β] {c d : Option β} {other : α}

/-- `a > b` -/
def greater (a b : Option α) : Truth :=
  match a, b with
  | some a, some b => some (b < a)
  | _, _ => none

/-- `(a, c) > (b, d)`: the first columns decide where they differ. -/
def rowGreater (a b : Option α) (c d : Option β) : Truth :=
  match a, b with
  | some a, some b => if a = b then greater c d else some (b < a)
  | _, _ => none

theorem selected_greater : Selected (greater (some value) (some other)) ↔ other < value := by
  simp [Selected, greater]

theorem selected_greater_none : ¬ Selected (greater a none) := by
  cases a <;> simp [Selected, greater]

theorem selected_rowGreater : Selected (rowGreater (some value) (some other) c d) ↔
    other < value ∨ other = value ∧ Selected (greater c d) := by
  simp only [rowGreater]
  by_cases h : value = other
  · simp [h]
  · have hne : other ≠ value := Ne.symm h
    simp [Selected, h, hne]

end Order

/-! ### Connectives -/

/-- What is false makes a conjunction false, even next to the unknown. -/
def conj : Truth → Truth → Truth
  | some false, _ => some false
  | _, some false => some false
  | some true, some true => some true
  | _, _ => none

/-- What is true makes a disjunction true, even next to the unknown. -/
def disj : Truth → Truth → Truth
  | some true, _ => some true
  | _, some true => some true
  | some false, some false => some false
  | _, _ => none

variable {s t : Truth} {conditions : List (Option Truth)}

theorem selected_conj : Selected (conj s t) ↔ Selected s ∧ Selected t := by
  unfold Selected
  rcases s with _ | _ | _ <;> rcases t with _ | _ | _ <;> decide

theorem selected_disj : Selected (disj s t) ↔ Selected s ∨ Selected t := by
  unfold Selected
  rcases s with _ | _ | _ <;> rcases t with _ | _ | _ <;> decide

/-- All of the conditions that are given. -/
def allOf (conditions : List (Option Truth)) : Truth :=
  (conditions.filterMap id).foldr conj (some true)

/-- Some of the conditions that are given. -/
def anyOf (conditions : List (Option Truth)) : Truth :=
  (conditions.filterMap id).foldr disj (some false)

theorem selected_allOf :
    Selected (allOf conditions) ↔ ∀ t, some t ∈ conditions → Selected t := by
  have hfold (given : List Truth) :
      Selected (given.foldr conj (some true)) ↔ ∀ t ∈ given, Selected t := by
    induction given with
    | nil => simp [Selected]
    | cons t given ih => rw [List.foldr_cons, selected_conj, ih, List.forall_mem_cons]
  rw [allOf, hfold]
  simp

theorem selected_anyOf :
    Selected (anyOf conditions) ↔ ∃ t, some t ∈ conditions ∧ Selected t := by
  have hfold (given : List Truth) :
      Selected (given.foldr disj (some false)) ↔ ∃ t ∈ given, Selected t := by
    induction given with
    | nil => simp [Selected]
    | cons t given ih => rw [List.foldr_cons, selected_disj, ih, List.exists_mem_cons_iff]
  rw [anyOf, hfold]
  simp

/-! ### Subqueries -/

section Subqueries

variable {rows : List α} {cond : α → Truth}

/-- `NOT EXISTS (SELECT … WHERE cond)`, which is never unknown. -/
def notExists (rows : List α) (cond : α → Truth) : Truth :=
  some (rows.all fun row => ¬ Selected (cond row))

theorem selected_notExists :
    Selected (notExists rows cond) ↔ ∀ row ∈ rows, ¬ Selected (cond row) := by
  unfold notExists
  rw [Selected, Option.some_inj, List.all_eq_true]
  apply forall₂_congr
  intro row _
  exact decide_eq_true_iff

end Subqueries

end ThreeValued
