import Mathlib

/-!
# Pages behind a cursor

A list of rows is read page by page: the rows behind a cursor are put in the order of their keys,
the first of them make a page, and the last row of the page is the next cursor. The pages in the
other direction are the pages of the dual order, turned round.

## Main definitions

* `Paging.ascending` — `ORDER BY key`
* `Paging.following` — the rows behind a cursor
* `Paging.Walk` — the pages a client reads until one is empty
* `Paging.Serves` — every page is the beginning of what is left

## Main results

* `Serves.exists_walk`, `Serves.flatten_eq` — a walk ends and has read exactly what was left
* `following_drop` — what is left behind the last row of a page
* `ascending_toDual` — the dual order
-/

namespace Paging

variable {α β γ ε κ : Type}

/-! ### Reading until a page is empty -/

/-- The pages that a client reads: each page gives the cursor of the next one. -/
inductive Walk (call : γ → Except ε (List β)) (edge : List β → Option γ) :
    γ → List (List β) → Prop
  | stop {cursor} (last : call cursor = .ok []) : Walk call edge cursor []
  | next {cursor page cursor' pages} (read : call cursor = .ok page)
      (behind : edge page = some cursor') (rest : Walk call edge cursor' pages) :
      Walk call edge cursor (page :: pages)

/-- Every page is the beginning of what is left, and its edge is the cursor of the rest. -/
structure Serves (call : γ → Except ε (List β)) (edge : List β → Option γ) (size : ℕ)
    (good : γ → Prop) (left : γ → List β) : Prop where
  page : ∀ {cursor}, good cursor → call cursor = .ok ((left cursor).take size)
  edge_nil : edge [] = none
  edge : ∀ {cursor}, good cursor → left cursor ≠ [] → ∃ cursor',
    edge ((left cursor).take size) = some cursor' ∧ good cursor' ∧
      left cursor' = (left cursor).drop size

section Walks

variable {call : γ → Except ε (List β)} {edge : List β → Option γ} {size : ℕ} {good : γ → Prop}
  {left : γ → List β} {cursor : γ} {pages : List (List β)}

/-- A client comes to an empty page. -/
theorem Serves.exists_walk (h : Serves call edge size good left) (hsize : 0 < size)
    (hgood : good cursor) : ∃ pages, Walk call edge cursor pages := by
  induction hlength : (left cursor).length using Nat.strongRecOn generalizing cursor with
  | _ length ih =>
      by_cases hnil : left cursor = []
      · refine ⟨[], .stop ?_⟩
        rw [h.page hgood, hnil, List.take_nil]
      · obtain ⟨cursor', hedge, hgood', hleft⟩ := h.edge hgood hnil
        have hpos := List.length_pos_iff.2 hnil
        have hless : (left cursor').length < length := by
          rw [hleft, List.length_drop]
          omega
        obtain ⟨pages, hpages⟩ := ih _ hless hgood' rfl
        exact ⟨_, .next (h.page hgood) hedge hpages⟩

/-- The pages of a walk put together are what was left when it started. -/
theorem Serves.flatten_eq (h : Serves call edge size good left) (hsize : 0 < size)
    (hgood : good cursor) (hwalk : Walk call edge cursor pages) :
    pages.flatten = left cursor := by
  induction hwalk with
  | @stop cursor last =>
      have hpage := (h.page hgood).symm.trans last
      have hnil : (left cursor).take size = [] := Except.ok.inj hpage
      rcases List.take_eq_nil_iff.1 hnil with hzero | hleft
      · omega
      · exact hleft.symm
  | @next cursor page cursor' pages read behind rest ih =>
      obtain rfl : page = (left cursor).take size := Except.ok.inj (read.symm.trans (h.page hgood))
      have hne : left cursor ≠ [] := by
        intro hnil
        rw [hnil, List.take_nil, h.edge_nil] at behind
        cases behind
      obtain ⟨next, hedge, hgood', hleft⟩ := h.edge hgood hne
      obtain rfl : next = cursor' := Option.some.inj (hedge.symm.trans behind)
      rw [List.flatten_cons, ih hgood', hleft, List.take_append_drop]

/-- Every page of a walk is a part of what was left, and none is longer than the page size. -/
theorem Serves.pages_infix (h : Serves call edge size good left) (hgood : good cursor)
    (hwalk : Walk call edge cursor pages) :
    ∀ page ∈ pages, page <:+: left cursor ∧ page ≠ [] ∧ page.length ≤ size := by
  induction hwalk with
  | stop last =>
      intro page hpage
      cases hpage
  | @next cursor page cursor' pages read behind rest ih =>
      obtain rfl : page = (left cursor).take size := Except.ok.inj (read.symm.trans (h.page hgood))
      have hne : (left cursor).take size ≠ [] := by
        intro hnil
        rw [hnil, h.edge_nil] at behind
        cases behind
      have hleftne : left cursor ≠ [] := by
        intro hnil
        rw [hnil, List.take_nil] at hne
        exact hne rfl
      obtain ⟨next, hedge, hgood', hleft⟩ := h.edge hgood hleftne
      obtain rfl : next = cursor' := Option.some.inj (hedge.symm.trans behind)
      intro page hpage
      rcases List.mem_cons.1 hpage with rfl | hlater
      · exact ⟨(List.take_prefix _ _).isInfix, hne, List.length_take_le _ _⟩
      · obtain ⟨hpage, hrest⟩ := ih hgood' page hlater
        rw [hleft] at hpage
        exact ⟨hpage.trans (List.drop_suffix _ _).isInfix, hrest⟩

/-- A walk whose pages are turned round. -/
theorem Walk.reverse (h : Walk call edge cursor pages) :
    Walk (fun cursor => (call cursor).map List.reverse) (fun page => edge page.reverse) cursor
      (pages.map List.reverse) := by
  induction h with
  | stop last => exact .stop (by rw [last]; rfl)
  | next read behind rest ih =>
      refine .next (by rw [read]; rfl) ?_ ih
      rw [List.reverse_reverse]
      exact behind

/-- Turning the pages round loses nothing. -/
theorem perm_flatten_map_reverse (pages : List (List β)) :
    pages.flatten.Perm (pages.map List.reverse).flatten := by
  apply List.Perm.flatten_congr
  rw [List.forall₂_map_right_iff, List.forall₂_same]
  intro page _
  exact (List.reverse_perm page).symm

end Walks

/-! ### Rows in the order of their keys -/

section Order

variable [LinearOrder κ] (key : α → κ)

/-- `ORDER BY key` -/
def ascending (rows : List α) : List α := rows.insertionSort fun row other => key row ≤ key other

/-- The rows behind a cursor, in order. -/
def following (cursor : κ) (rows : List α) : List α :=
  ascending key (rows.filter fun row => cursor < key row)

variable {key} {rows : List α} {cursor : κ} {row : α} {size : ℕ}

theorem mem_ascending : row ∈ ascending key rows ↔ row ∈ rows := List.mem_insertionSort _

theorem perm_ascending (rows : List α) : (ascending key rows).Perm rows :=
  List.perm_insertionSort _ _

theorem mem_following : row ∈ following key cursor rows ↔ row ∈ rows ∧ cursor < key row := by
  rw [following, mem_ascending, List.mem_filter, decide_eq_true_iff]

/-- Rows with different keys are in strict order. -/
theorem ascending_strict (hunique : (rows.map key).Nodup) :
    (ascending key rows).Pairwise fun row other => key row < key other := by
  have hle : (ascending key rows).Pairwise fun row other => key row ≤ key other := by
    have htotal : Std.Total fun row other : α => key row ≤ key other := ⟨fun _ _ => le_total _ _⟩
    have htrans : IsTrans α fun row other => key row ≤ key other := ⟨fun _ _ _ => le_trans⟩
    exact List.pairwise_insertionSort _ _
  have hne : (ascending key rows).Pairwise fun row other => key row ≠ key other := by
    apply List.pairwise_map.1
    exact ((perm_ascending rows).map key).nodup_iff.2 hunique
  exact (hle.and hne).imp fun h => lt_of_le_of_ne h.1 h.2

/-- Rows in strict order are determined by which rows they are. -/
theorem eq_of_strict (key : α → κ) {rows rows' : List α} (h : rows.Perm rows')
    (hstrict : rows.Pairwise fun row other => key row < key other)
    (hstrict' : rows'.Pairwise fun row other => key row < key other) : rows = rows' := by
  apply h.eq_of_pairwise _ hstrict hstrict'
  intro row other _ _ hlt hgt
  exact absurd hgt (lt_asymm hlt)

omit [LinearOrder κ] in
theorem nodup_filter {cond : α → Bool} (hunique : (rows.map key).Nodup) :
    ((rows.filter cond).map key).Nodup :=
  hunique.sublist (List.filter_sublist.map key)

theorem following_strict (hunique : (rows.map key).Nodup) :
    (following key cursor rows).Pairwise fun row other => key row < key other :=
  ascending_strict (nodup_filter hunique)

/-- In rows in strict order, those behind the last row of a part are the rest. -/
theorem filter_append_of_strict {first rest : List α} (hlast : first.getLast? = some row)
    (hstrict : (first ++ rest).Pairwise fun row other => key row < key other) :
    (first ++ rest).filter (fun other => key row < key other) = rest := by
  obtain ⟨start, rfl⟩ := List.getLast?_eq_some_iff.1 hlast
  rw [List.append_assoc, List.pairwise_append] at hstrict
  obtain ⟨-, hrest, hstart⟩ := hstrict
  rw [List.singleton_append, List.pairwise_cons] at hrest
  rw [List.append_assoc, List.filter_append, List.singleton_append, List.filter_cons]
  have hbefore : start.filter (fun other => key row < key other) = [] := by
    apply List.filter_eq_nil_iff.2
    intro other hother
    have hlt := hstart other hother row List.mem_cons_self
    simp only [decide_eq_true_eq, not_lt]
    exact hlt.le
  have hbehind : rest.filter (fun other => key row < key other) = rest := by
    apply List.filter_eq_self.2
    intro other hother
    exact decide_eq_true (hrest.1 other hother)
  rw [hbefore, hbehind, if_neg (by simp), List.nil_append]

/-- What follows the last row of a page is what the page left. -/
theorem following_drop (hunique : (rows.map key).Nodup)
    (hlast : ((following key cursor rows).take size).getLast? = some row) :
    following key (key row) rows = (following key cursor rows).drop size := by
  have hrow : row ∈ following key cursor rows :=
    List.mem_of_mem_take (List.mem_of_getLast? hlast)
  have hstrict : (following key cursor rows).Pairwise fun row other => key row < key other :=
    following_strict hunique
  have hrest : (following key cursor rows).filter (fun other => key row < key other) =
      (following key cursor rows).drop size := by
    conv_lhs => rw [← List.take_append_drop size (following key cursor rows)]
    apply filter_append_of_strict hlast
    rw [List.take_append_drop]
    exact hstrict
  rw [← hrest]
  apply eq_of_strict key _ (following_strict hunique) (hstrict.filter _)
  -- Both are the rows behind the row, which is itself behind the cursor.
  have hcursor := (mem_following.1 hrow).2
  have hsame : rows.filter (fun other => key row < key other) =
      (rows.filter fun other => cursor < key other).filter fun other => key row < key other := by
    rw [List.filter_filter]
    apply List.filter_congr
    intro other _
    by_cases hother : key row < key other
    · simp [hother, hcursor.trans hother]
    · simp [hother]
  refine (perm_ascending _).trans ?_
  rw [hsame]
  exact ((perm_ascending _).filter _).symm

/-- The rows in the dual order are the rows turned round. -/
theorem ascending_toDual (hunique : (rows.map key).Nodup) :
    ascending (fun row => OrderDual.toDual (key row)) rows = (ascending key rows).reverse := by
  have hdual : (rows.map fun row => OrderDual.toDual (key row)).Nodup := hunique
  apply eq_of_strict (fun row => OrderDual.toDual (key row)) _ (ascending_strict hdual)
  · rw [List.pairwise_reverse]
    exact ascending_strict hunique
  · exact (perm_ascending rows).trans ((List.reverse_perm _).trans (perm_ascending rows)).symm

end Order

end Paging
