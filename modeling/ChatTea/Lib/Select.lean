import ChatTea.Lib.Paging
import ChatTea.Lib.Table
import ChatTea.Lib.ThreeValued

/-!
# Queries that join and group

The clauses of a query in the order in which a database evaluates them: the joins, the condition,
the groups. A row that nothing joins with stays in a left join with a null beside it. When each row
of one table gives a block of joined rows, and the rows of different blocks differ in what they
are grouped by, the groups are the blocks: a query that joins and counts computes one row for each
row of that table.

## Main definitions

* `Select.innerJoin`, `Select.leftJoinLateral`, `Select.leftJoin` — the joins
* `Select.selectWhere` — the condition
* `Select.groupBy` — one row for each group
* `Select.count` — the rows of a group with a value
* `Select.Listed` — in a list, or after all of a full one

## Main results

* `innerJoin_unique`, `leftJoin_unique` — a join on a key is a lookup
* `count_orNull` — a left join counts what joins
* `groupBy_flatMap` — the groups are the blocks
* `ascending_map` — what is selected does not change the order
* `listed_take` — what a limit leaves out
* `head?_ascending_toDual` — `ORDER BY key DESC LIMIT 1`
-/

namespace Select

open Paging Table ThreeValued

variable {α β γ κ π : Type}

/-! ### Clauses -/

def selectWhere (condition : α → Truth) (rows : List α) : List α :=
  rows.filter fun row => Selected (condition row)

def innerJoin (right : List β) (on : α → β → Truth) (left : List α) : List (α × β) :=
  left.flatMap fun row => (selectWhere (on row) right).map (row, ·)

/-- A null where there are no rows. -/
def orNull : List β → List (Option β)
  | [] => [none]
  | row :: rows => (row :: rows).map some

/-- The rows on the right may depend on the row on the left. -/
def leftJoinLateral (right : α → List β) (on : α → β → Truth) (left : List α) :
    List (α × Option β) :=
  left.flatMap fun row => (orNull (selectWhere (on row) (right row))).map (row, ·)

def leftJoin (right : List β) (on : α → β → Truth) (left : List α) : List (α × Option β) :=
  leftJoinLateral (fun _ => right) on left

/-- `count(column)`, which leaves out the rows where the column is null. -/
def count (column : α → Option β) (rows : List α) : ℕ := rows.countP fun row => (column row).isSome

/-- `GROUP BY key`; what is selected may depend on a row of the group and on the whole group. -/
def groupBy [DecidableEq κ] (key : α → κ) (select : α → List α → β) (rows : List α) : List β :=
  (rows.map key).dedup.filterMap fun k =>
    let group := rows.filter fun row => key row = k
    group.head?.map fun row => select row group

/-! ### Joins on a key -/

section Joins

variable {left : List α} {right : List β} {on : α → β → Truth} {row : α} {k : κ}

theorem lookup_eq_some [DecidableEq κ] {key : β → κ} {other : β} (hunique : UniqueKey key right) :
    lookup key k right = some other ↔ other ∈ right ∧ key other = k := by
  constructor
  · exact mem_of_lookup
  · rintro ⟨hother, rfl⟩
    exact hunique.lookup_of_mem hother

theorem selectWhere_unique [DecidableEq κ] {key : β → κ} {condition : β → Truth}
    (hunique : UniqueKey key right)
    (hcondition : ∀ other ∈ right, Selected (condition other) ↔ key other = k) :
    selectWhere condition right = (lookup key k right).toList := by
  have hsame : selectWhere condition right = right.filter fun other => key other = k := by
    apply List.filter_congr
    intro other hother
    exact decide_eq_decide.2 (hcondition other hother)
  rw [hsame]
  cases hfound : lookup key k right with
  | none =>
      apply List.filter_eq_nil_iff.2
      intro other hother
      simpa using lookup_eq_none.1 hfound other hother
  | some other =>
      obtain ⟨hother, rfl⟩ := mem_of_lookup hfound
      exact hunique.filter_eq_singleton hother

/-- Rows that take the key of the row they are made of. -/
theorem uniqueKey_filterMap {key : α → κ} {key' : β → κ} {f : α → Option β}
    (hunique : UniqueKey key left) (hkey : ∀ row other, f row = some other → key' other = key row) :
    UniqueKey key' (left.filterMap f) := by
  have hsublist : ((left.filterMap f).map key').Sublist (left.map key) := by
    rw [List.map_filterMap]
    induction left with
    | nil => exact List.Sublist.slnil
    | cons row rows ih =>
        have hrest := ih (List.nodup_cons.1 hunique).2
        cases hf : f row with
        | none =>
            rw [List.filterMap_cons_none (by simp [hf])]
            exact hrest.cons _
        | some other =>
            rw [List.filterMap_cons_some (by simp [hf]; rfl), List.map_cons, ← hkey row other hf]
            exact hrest.cons_cons _
  exact hunique.sublist hsublist

theorem innerJoin_unique [DecidableEq κ] {key : β → κ} {reference : α → κ}
    (hunique : UniqueKey key right)
    (hon : ∀ row, ∀ other ∈ right, Selected (on row other) ↔ key other = reference row) :
    innerJoin right on left =
      left.filterMap fun row => (lookup key (reference row) right).map (row, ·) := by
  unfold innerJoin
  rw [List.filterMap_eq_flatMap_toList]
  apply List.flatMap_congr
  intro row _
  rw [selectWhere_unique hunique (hon row)]
  cases lookup key (reference row) right <;> rfl

theorem leftJoin_unique [DecidableEq κ] {key : β → κ} {reference : α → κ}
    (hunique : UniqueKey key right)
    (hon : ∀ row, ∀ other ∈ right, Selected (on row other) ↔ key other = reference row) :
    leftJoin right on left = left.map fun row => (row, lookup key (reference row) right) := by
  unfold leftJoin leftJoinLateral
  rw [List.map_eq_flatMap]
  apply List.flatMap_congr
  intro row _
  rw [selectWhere_unique hunique (hon row)]
  cases lookup key (reference row) right <;> rfl

/-- A subquery that selects one row at most. -/
theorem leftJoinLateral_one {found : α → Option β} :
    leftJoinLateral (fun row => (found row).toList) (fun _ _ => some true) left =
      left.map fun row => (row, found row) := by
  unfold leftJoinLateral
  rw [List.map_eq_flatMap]
  apply List.flatMap_congr
  intro row _
  cases hfound : found row <;> simp [hfound, selectWhere, Selected, orNull]

end Joins

/-! ### Groups -/

theorem orNull_ne_nil (rows : List β) : orNull rows ≠ [] := by
  cases rows <;> simp [orNull]

/-- A left join counts what joins, and a null not at all. -/
theorem count_orNull {column : α → Option γ} {f : Option β → α} {rows : List β}
    (hnull : column (f none) = none) (hrow : ∀ row ∈ rows, column (f (some row)) ≠ none) :
    count column ((orNull rows).map f) = rows.length := by
  unfold count
  cases rows with
  | nil => simp [orNull, hnull]
  | cons row rows =>
      rw [orNull, List.map_map, List.countP_map, List.countP_eq_length]
      intro other hother
      exact Option.isSome_iff_ne_none.2 (hrow other hother)

section Blocks

variable {parents : List π} {rows : π → List α} {key : α → κ} {parentKey : π → κ}

/-- A condition on the parents. -/
theorem filter_flatMap {condition : α → Bool} {kept : π → Bool}
    (hkept : ∀ parent ∈ parents, ∀ row ∈ rows parent, condition row = kept parent) :
    (parents.flatMap rows).filter condition = (parents.filter kept).flatMap rows := by
  induction parents with
  | nil => rfl
  | cons parent parents ih =>
      rw [List.forall_mem_cons] at hkept
      rw [List.flatMap_cons, List.filter_append, ih hkept.2, List.filter_cons]
      split
      next hparent =>
        have hall : (rows parent).filter condition = rows parent :=
          List.filter_eq_self.2 fun row hrow => (hkept.1 row hrow).trans hparent
        rw [List.flatMap_cons, hall]
      next hparent =>
        have hnone : (rows parent).filter condition = [] :=
          List.filter_eq_nil_iff.2 fun row hrow => hkept.1 row hrow ▸ hparent
        rw [hnone, List.nil_append]

theorem selectWhere_flatMap {condition : α → Truth} {kept : π → Bool}
    (hkept : ∀ parent ∈ parents, ∀ row ∈ rows parent, Selected (condition row) ↔ kept parent) :
    selectWhere condition (parents.flatMap rows) = (parents.filter kept).flatMap rows := by
  apply filter_flatMap
  intro parent hparent row hrow
  rw [Bool.eq_iff_iff, decide_eq_true_iff]
  exact hkept parent hparent row hrow

/-- What the rows are grouped by, each value once. -/
theorem dedup_blocks [DecidableEq κ] (hunique : UniqueKey parentKey parents)
    (hkey : ∀ parent ∈ parents, ∀ row ∈ rows parent, key row = parentKey parent)
    (hblock : ∀ parent ∈ parents, rows parent ≠ []) :
    ((parents.flatMap rows).map key).dedup = parents.map parentKey := by
  induction parents with
  | nil => rfl
  | cons parent parents ih =>
      rw [List.forall_mem_cons] at hkey hblock
      have hhead : (rows parent).map key =
          List.replicate (rows parent).length (parentKey parent) := by
        apply List.eq_replicate_iff.2
        refine ⟨List.length_map _, fun k hk => ?_⟩
        obtain ⟨row, hrow, rfl⟩ := List.mem_map.1 hk
        exact hkey.1 row hrow
      have hrest := ih (List.nodup_cons.1 hunique).2 hkey.2 hblock.2
      have hnew : parentKey parent ∉ ((parents.flatMap rows).map key) := by
        rw [← List.mem_dedup, hrest]
        exact (List.nodup_cons.1 hunique).1
      obtain ⟨size, hsize⟩ := Nat.exists_eq_succ_of_ne_zero
        (mt List.length_eq_zero_iff.1 hblock.1)
      rw [List.flatMap_cons, List.map_append, hhead, hsize, List.map_cons, ← hrest]
      -- The block is one value, over and over.
      clear hsize
      induction size with
      | zero => exact List.dedup_cons_of_notMem hnew
      | succ size ih =>
          rw [List.replicate_succ, List.cons_append, List.dedup_cons_of_mem, ih]
          exact List.mem_append_left _ List.mem_cons_self

/-- The rows of a group are those of a block. -/
theorem filter_blocks [DecidableEq κ] {parent : π} (hunique : UniqueKey parentKey parents)
    (hkey : ∀ parent ∈ parents, ∀ row ∈ rows parent, key row = parentKey parent)
    (hparent : parent ∈ parents) :
    (parents.flatMap rows).filter (fun row => key row = parentKey parent) = rows parent := by
  rw [filter_flatMap fun other hother row hrow => ?_, hunique.filter_eq_singleton hparent,
    List.flatMap_singleton]
  rw [hkey other hother row hrow]

/-- The groups are the blocks: one row for each parent. -/
theorem groupBy_flatMap [DecidableEq κ] {select : α → List α → β} {result : π → β}
    (hunique : UniqueKey parentKey parents)
    (hkey : ∀ parent ∈ parents, ∀ row ∈ rows parent, key row = parentKey parent)
    (hblock : ∀ parent ∈ parents, rows parent ≠ [])
    (hselect : ∀ parent ∈ parents, ∀ row ∈ rows parent,
      select row (rows parent) = result parent) :
    groupBy key select (parents.flatMap rows) = parents.map result := by
  unfold groupBy
  rw [dedup_blocks hunique hkey hblock, List.filterMap_map, ← List.filterMap_eq_map]
  apply List.filterMap_congr
  intro parent hparent
  simp only [Function.comp_apply, filter_blocks hunique hkey hparent]
  cases hrows : rows parent with
  | nil => exact absurd hrows (hblock parent hparent)
  | cons row rest =>
      have hrow : row ∈ rows parent := hrows ▸ List.mem_cons_self
      rw [List.head?_cons, Option.map_some, ← hrows, hselect parent hparent row hrow]

end Blocks

/-! ### Rows in order -/

/-- What is selected does not change the order. -/
theorem ascending_map [LinearOrder κ] {key : β → κ} {f : α → β} {rows : List α} :
    ascending key (rows.map f) = (ascending (fun row => key (f row)) rows).map f := by
  symm
  apply List.map_insertionSort
  exact fun _ _ _ _ => Iff.rfl

/-- An entry is in a list, or the list is full of entries that come before it. -/
def Listed [LT κ] (key : β → κ) (size : ℕ) (entries : List β) (entry : β) : Prop :=
  entry ∈ entries ∨ entries.length = size ∧ ∀ other ∈ entries, key other < key entry

/-- `ORDER BY key LIMIT size` lists every row that it selects. -/
theorem listed_take [LinearOrder κ] {key : β → κ} {f : α → β} {rows : List α} {row : α} (size : ℕ)
    (hunique : (rows.map fun row => key (f row)).Nodup) (hrow : row ∈ rows) :
    Listed key size (((ascending (fun row => key (f row)) rows).take size).map f) (f row) := by
  have hstrict := ascending_strict hunique
  have hmem : row ∈ ascending (fun row => key (f row)) rows := mem_ascending.2 hrow
  rw [← List.take_append_drop size (ascending (fun row => key (f row)) rows)] at hstrict hmem
  rcases List.mem_append.1 hmem with hfirst | hrest
  · exact Or.inl (List.mem_map_of_mem hfirst)
  · right
    constructor
    · have hlength := List.length_pos_of_mem hrest
      rw [List.length_drop] at hlength
      rw [List.length_map, List.length_take]
      omega
    · intro other hother
      obtain ⟨first, hfirst, rfl⟩ := List.mem_map.1 hother
      exact (List.pairwise_append.1 hstrict).2.2 first hfirst row hrest

/-- `ORDER BY key DESC LIMIT 1` -/
theorem head?_ascending_toDual [LinearOrder κ] {key : α → κ} {rows : List α}
    (hunique : (rows.map key).Nodup) :
    (ascending (fun row => OrderDual.toDual (key row)) rows).head? = rows.argmax key := by
  cases hmax : rows.argmax key with
  | none =>
      rw [List.argmax_eq_none.1 hmax]
      rfl
  | some row =>
      have hrow : row ∈ rows := List.argmax_mem hmax
      have hdual : (rows.map fun row => OrderDual.toDual (key row)).Nodup := hunique
      have hstrict := ascending_strict hdual
      cases hrows : ascending (fun row => OrderDual.toDual (key row)) rows with
      | nil =>
          have hmem : row ∈ ascending (fun row => OrderDual.toDual (key row)) rows :=
            mem_ascending.2 hrow
          rw [hrows] at hmem
          cases hmem
      | cons first rest =>
          rw [hrows, List.pairwise_cons] at hstrict
          have hmem : row ∈ first :: rest := hrows ▸ mem_ascending.2 hrow
          rw [List.head?_cons]
          rcases List.mem_cons.1 hmem with rfl | hrest
          · rfl
          · have hfirst : first ∈ rows := mem_ascending.1 (hrows ▸ List.mem_cons_self)
            have hlt : key row < key first := OrderDual.toDual_lt_toDual.1 (hstrict.1 row hrest)
            exact absurd hlt (not_lt_of_ge (List.le_of_mem_argmax hfirst hmax))

end Select
