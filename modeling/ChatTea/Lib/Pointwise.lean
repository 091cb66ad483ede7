import Mathlib.Data.List.Forall2
import Mathlib.Data.Nat.Notation
import Mathlib.Tactic.Cases

/-!
# Lists that are related item by item

A loop over a list, or a step that rewrites the rows of a table, leaves a list of the same length
whose items are related to the old ones one by one.

## Main results

* `exists_after`, `exists_before` — the partner of an item
* `map_eq`, `countP_eq`, `countP_le`, `zipIdx` — what the relation keeps
* `forall₂_trans` — two rounds in a row
-/

namespace Pointwise

variable {α β γ : Type*} {related : α → β → Prop} {items : List α} {items' : List β}
  {item : α} {item' : β}

theorem exists_after (h : List.Forall₂ related items items') (hitem : item ∈ items) :
    ∃ item' ∈ items', related item item' := by
  induction h with
  | nil => cases hitem
  | @cons first first' rest rest' hfirst _ ih =>
      rcases List.mem_cons.1 hitem with rfl | hlater
      · exact ⟨first', List.mem_cons_self, hfirst⟩
      · obtain ⟨item', hitem', hrelated⟩ := ih hlater
        exact ⟨item', List.mem_cons_of_mem _ hitem', hrelated⟩

theorem exists_before (h : List.Forall₂ related items items') (hitem' : item' ∈ items') :
    ∃ item ∈ items, related item item' := by
  induction h with
  | nil => cases hitem'
  | @cons first first' rest rest' hfirst _ ih =>
      rcases List.mem_cons.1 hitem' with rfl | hlater
      · exact ⟨first, List.mem_cons_self, hfirst⟩
      · obtain ⟨item, hitem, hrelated⟩ := ih hlater
        exact ⟨item, List.mem_cons_of_mem _ hitem, hrelated⟩

/-- What is the same of related items is the same of the lists. -/
theorem map_eq {f : α → γ} {f' : β → γ} (h : List.Forall₂ related items items')
    (hsame : ∀ item ∈ items, ∀ item', related item item' → f' item' = f item) :
    items'.map f' = items.map f := by
  induction h with
  | nil => rfl
  | cons hfirst _ ih =>
      rw [List.map_cons, List.map_cons, hsame _ List.mem_cons_self _ hfirst]
      rw [ih fun item hitem => hsame item (List.mem_cons_of_mem _ hitem)]

theorem countP_eq {related : α → α → Prop} {items items' : List α} {p : α → Bool}
    (h : List.Forall₂ related items items')
    (hsame : ∀ item item', related item item' → p item' = p item) :
    items'.countP p = items.countP p := by
  induction h with
  | nil => rfl
  | cons hfirst _ ih => rw [List.countP_cons, List.countP_cons, ih, hsame _ _ hfirst]

/-- A count does not grow if no item begins to count. -/
theorem countP_le {p : α → Bool} {p' : β → Bool} (h : List.Forall₂ related items items')
    (hcounts : ∀ {item item'}, related item item' → p' item' → p item) :
    items'.countP p' ≤ items.countP p := by
  induction h with
  | nil => exact Nat.le_refl _
  | @cons item item' items items' hfirst _ ih =>
      rw [List.countP_cons, List.countP_cons]
      by_cases hnext : p' item'
      · rw [if_pos hnext, if_pos (hcounts hfirst hnext)]
        omega
      · rw [if_neg hnext]
        omega

/-- Related items have the same number. -/
theorem zipIdx (h : List.Forall₂ related items items') (first : ℕ) :
    List.Forall₂ (fun entry entry' => entry'.2 = entry.2 ∧ related entry.1 entry'.1)
      (items.zipIdx first) (items'.zipIdx first) := by
  induction h generalizing first with
  | nil => exact .nil
  | cons hfirst _ ih => exact .cons ⟨rfl, hfirst⟩ (ih (first + 1))

/-- Two rounds in a row. -/
theorem forall₂_trans {next : β → γ → Prop} {result : α → γ → Prop} {items'' : List γ}
    (h : List.Forall₂ related items items') (h' : List.Forall₂ next items' items'')
    (htrans : ∀ item ∈ items, ∀ mid last, related item mid → next mid last → result item last) :
    List.Forall₂ result items items'' := by
  induction h generalizing items'' with
  | nil =>
      cases h'
      exact .nil
  | @cons first first' rest rest' hfirst _ ih =>
      cases h' with
      | cons hnext hrest =>
          apply List.Forall₂.cons
          · exact htrans first List.mem_cons_self _ _ hfirst hnext
          · exact ih hrest fun item hitem => htrans item (List.mem_cons_of_mem _ hitem)

end Pointwise
