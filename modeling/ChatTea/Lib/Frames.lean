import ChatTea.Lib.Table

/-!
# What a change of a table leaves alone

A change is confined to a selection of rows if the rows outside the selection are the
same before and after, in the same order.

## Main definitions

* `Table.SameOutside` — the rows outside a selection are the same

## Main results

* `SameOutside.mem_iff` — a row outside is there after the change exactly if it was before
* `sameOutside_filter`, `sameOutside_updateWhere` — confined deletes and updates
* `SameOutside.trans`, `SameOutside.mono` — a sequence of changes, and a larger selection
-/

namespace Table

variable {α : Type*} {cond cond' selected : α → Bool} {before between after rows : List α} {row : α}

/-- The rows outside a selection are the same, in the same order. -/
def SameOutside (cond : α → Bool) (before after : List α) : Prop :=
  after.filter (fun row => !cond row) = before.filter fun row => !cond row

theorem SameOutside.refl (cond : α → Bool) (rows : List α) : SameOutside cond rows rows := rfl

theorem SameOutside.trans (h : SameOutside cond before between)
    (h' : SameOutside cond between after) : SameOutside cond before after :=
  Eq.trans h' h

/-- A change that is confined to some rows is confined to more. -/
theorem SameOutside.mono (h : SameOutside cond before after)
    (hcond : ∀ row, cond row = true → cond' row = true) : SameOutside cond' before after := by
  have hboth : ∀ row, (!cond' row && !cond row) = !cond' row := by
    intro row
    cases hrow : cond row with
    | false => simp
    | true => simp [hcond row hrow]
  have hfilter := congrArg (List.filter fun row => !cond' row) h
  simp only [List.filter_filter, hboth] at hfilter
  exact hfilter

/-- A row outside is neither lost nor new. -/
theorem SameOutside.mem_iff (h : SameOutside cond before after) (hrow : cond row = false) :
    row ∈ after ↔ row ∈ before := by
  have hmem : row ∈ after.filter (fun row => !cond row) ↔
      row ∈ before.filter fun row => !cond row := by rw [h]
  simpa [hrow] using hmem

/-- A delete that finds selected rows only. -/
theorem sameOutside_filter (h : ∀ row ∈ rows, selected row = false → cond row = true) :
    SameOutside cond rows (rows.filter selected) := by
  rw [SameOutside, List.filter_filter]
  apply List.filter_congr
  intro row hrow
  cases hselected : selected row with
  | false => simp [h row hrow hselected]
  | true => simp

/-- An update that finds selected rows only, which stay selected. -/
theorem sameOutside_updateWhere {set : α → α}
    (h : ∀ row ∈ rows, selected row = true → cond row = true ∧ cond (set row) = true) :
    SameOutside cond rows (updateWhere selected set rows) := by
  have hkept : ∀ row ∈ rows, selected row = true → (!cond (set row)) = !cond row := by
    intro row hrow hselected
    rw [(h row hrow hselected).1, (h row hrow hselected).2]
  rw [SameOutside, filter_updateWhere hkept]
  apply updateWhere_of_forall_not
  intro row hrow hselected
  obtain ⟨hmem, houtside⟩ := List.mem_filter.1 hrow
  rw [(h row hmem hselected).1] at houtside
  cases houtside

end Table
