import ChatTea.Lib.Table
import Mathlib

/-!
# Rows in order

`ORDER BY rank DESC` leaves rows of one rank in any order. Which one is a parameter, so that a
statement about every parameter is one about everything a database may return. Rows that are
numbered 0, 1, 2 and so on have one ascending order, in which each row stands at its number.

## Main definitions

* `Ordered.Ties` — how rows of one rank happen to be ordered
* `Ordered.orderByDesc`, `Ordered.orderByAsc` — the rows in descending and in ascending order
* `Ordered.Numbered` — the ranks of the rows are 0, 1, 2 and so on

## Main results

* `find?_orderByDesc_max` — the first row of a kind is a highest one
* `exists_ties` — a highest row may come first
* `latest_max`, `exists_tie` — the same with `LIMIT 1`
* `Numbered.map_orderByAsc`, `zipIdx_of_map_eq` — numbered rows stand at their numbers
-/

namespace Ordered

open Table

variable {α : Type}

/-- How rows of one rank happen to be ordered. -/
structure Ties (α : Type) where
  order : List α → List α
  perm : ∀ rows, (order rows).Perm rows

/-- `ORDER BY rank DESC` -/
def orderByDesc (ties : Ties α) (rank : α → ℤ) (rows : List α) : List α :=
  (ties.order rows).insertionSort fun row other => rank other ≤ rank row

/-- Rows of one rank stay in the order of the table. -/
def Ties.inOrder : Ties α := ⟨id, List.Perm.refl⟩

variable {ties : Ties α} {rank : α → ℤ} {rows : List α} {row found other : α} {tie : ℕ}

theorem mem_orderByDesc : row ∈ orderByDesc ties rank rows ↔ row ∈ rows := by
  rw [orderByDesc, List.mem_insertionSort, (ties.perm rows).mem_iff]

theorem pairwise_orderByDesc (ties : Ties α) (rank : α → ℤ) (rows : List α) :
    (orderByDesc ties rank rows).Pairwise fun row other => rank other ≤ rank row := by
  have htotal : Std.Total fun row other : α => rank other ≤ rank row :=
    ⟨fun row other => le_total (rank other) (rank row)⟩
  have htrans : IsTrans α fun row other => rank other ≤ rank row :=
    ⟨fun _ _ _ h h' => le_trans h' h⟩
  exact List.pairwise_insertionSort _ _

/-- The first row of a kind is a highest one. -/
theorem find?_orderByDesc_max {kind : α → Bool}
    (h : (orderByDesc ties rank rows).find? kind = some found) (hother : other ∈ rows)
    (hkind : kind other) : rank other ≤ rank found := by
  obtain ⟨-, before, after, hsplit, hbefore⟩ := List.find?_eq_some_iff_append.1 h
  have hsorted := pairwise_orderByDesc ties rank rows
  have hmem : other ∈ orderByDesc ties rank rows := mem_orderByDesc.2 hother
  rw [hsplit] at hsorted hmem
  rcases List.mem_append.1 hmem with hearlier | hlater
  · have hnot := hbefore other hearlier
    rw [hkind] at hnot
    cases hnot
  · rcases List.mem_cons.1 hlater with rfl | hbehind
    · exact le_rfl
    · have htail := (List.pairwise_append.1 hsorted).2.1
      exact (List.pairwise_cons.1 htail).1 other hbehind

/-- A highest row may come first. -/
theorem exists_ties [DecidableEq α] (hrow : row ∈ rows) (hmax : ∀ other ∈ rows, rank other ≤ rank row) :
    ∃ ties : Ties α, (orderByDesc ties rank rows).head? = some row := by
  let ties : Ties α :=
    { order := fun rows => if row ∈ rows then row :: rows.erase row else rows
      perm := by
        intro rows
        split
        next hmem => exact (List.perm_cons_erase hmem).symm
        next => exact List.Perm.refl _ }
  refine ⟨ties, ?_⟩
  have horder : ties.order rows = row :: rows.erase row := if_pos hrow
  rw [orderByDesc, horder, List.insertionSort_cons]
  -- The row is put in front of the first row that it is not below, which is the first of all.
  cases hrest : (rows.erase row).insertionSort fun row other => rank other ≤ rank row with
  | nil => rfl
  | cons first rest =>
      have hfirst : first ∈ rows := by
        have hmem : first ∈ (rows.erase row).insertionSort fun row other => rank other ≤ rank row := by
          rw [hrest]
          exact List.mem_cons_self
        exact List.mem_of_mem_erase ((List.mem_insertionSort _).1 hmem)
      rw [List.orderedInsert, if_pos (hmax first hfirst)]
      rfl

/-- The row that `LIMIT 1` leaves is a highest one. -/
theorem latest_max (h : latest rank tie rows = some found) (hother : other ∈ rows) :
    rank other ≤ rank found := by
  obtain ⟨-, hmax⟩ := List.mem_filter.1 (List.mem_of_getElem? h)
  exact of_decide_eq_true (List.all_eq_true.1 hmax other hother)

/-- `LIMIT 1` may leave any highest row. -/
theorem exists_tie (hrow : row ∈ rows) (hmax : ∀ other ∈ rows, rank other ≤ rank row) :
    ∃ tie, latest rank tie rows = some row := by
  have htop : row ∈ rows.filter fun row => rows.all fun other => rank other ≤ rank row := by
    apply List.mem_filter.2
    refine ⟨hrow, List.all_eq_true.2 ?_⟩
    exact fun other hother => decide_eq_true (hmax other hother)
  obtain ⟨tie, htie⟩ := List.mem_iff_getElem?.1 htop
  refine ⟨tie, ?_⟩
  have hlt := (List.getElem?_eq_some_iff.1 htie).1
  rw [latest, Nat.mod_eq_of_lt hlt]
  exact htie

/-! ### Numbered rows -/

section Numbered

variable {rank : α → ℕ} {rows : List α}

/-- `ORDER BY rank` of rows whose ranks differ. -/
def orderByAsc (rank : α → ℕ) (rows : List α) : List α :=
  rows.insertionSort fun row other => rank row ≤ rank other

/-- The ranks of the rows are 0, 1, 2 and so on, in some order. -/
def Numbered (rank : α → ℕ) (rows : List α) : Prop :=
  (rows.map rank).Perm (List.range rows.length)

theorem perm_orderByAsc (rank : α → ℕ) (rows : List α) : (orderByAsc rank rows).Perm rows :=
  List.perm_insertionSort _ rows

theorem Numbered.of_map_eq (h : rows.map rank = List.range rows.length) : Numbered rank rows := by
  unfold Numbered
  rw [h]

/-- Numbered rows come in the order of their numbers. -/
theorem Numbered.map_orderByAsc (h : Numbered rank rows) :
    (orderByAsc rank rows).map rank = List.range rows.length := by
  have hsorted : (orderByAsc rank rows).Pairwise fun row other => rank row ≤ rank other := by
    have htotal : Std.Total fun row other : α => rank row ≤ rank other :=
      ⟨fun row other => le_total (rank row) (rank other)⟩
    have htrans : IsTrans α fun row other => rank row ≤ rank other := ⟨fun _ _ _ => le_trans⟩
    exact List.pairwise_insertionSort _ _
  have hperm : ((orderByAsc rank rows).map rank).Perm (List.range rows.length) :=
    ((perm_orderByAsc rank rows).map rank).trans h
  apply hperm.eq_of_pairwise' (List.pairwise_map.2 hsorted)
  exact List.pairwise_le_range

/-- Rows that come in the order of their numbers. -/
theorem orderByAsc_of_map_eq (h : rows.map rank = List.range rows.length) :
    orderByAsc rank rows = rows := by
  apply List.Pairwise.insertionSort_eq
  rw [← List.pairwise_map, h]
  exact List.pairwise_le_range

theorem zipIdx_of_map_eq (h : rows.map rank = List.range rows.length) :
    rows.zipIdx = rows.map fun row => (row, rank row) := by
  apply List.ext_getElem (by simp)
  intro position hposition _
  have hlt : position < rows.length := by simpa using hposition
  have hrank : rank rows[position] = position := by
    have hread := List.getElem_of_eq h (i := position) (by simpa using hlt)
    simpa using hread
  simp [hrank]

end Numbered

end Ordered
