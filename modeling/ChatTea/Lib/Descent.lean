import ChatTea.Lib.Pointwise
import ChatTea.Lib.Table

/-!
# What becomes of the rows of a table

Statements rewrite rows, delete rows and insert rows whose keys were never used. What becomes of a
row is a relation that each statement extends; a row that is there later is one that was there, or
one with a key that was drawn in between.

## Main definitions

* `Table.Descends` — rows are rewritten and deleted
* `Table.Succeeds` — rows are inserted as well, with keys drawn in turn

## Main results

* `Descends.trans`, `Succeeds.trans` — one statement after another
* `descends_updateWhere`, `descends_filter` — updates and deletes
* `Descends.became`, `Succeeds.became` — what has become of a row
-/

namespace Table

variable {α κ : Type*} {step : α → α → Prop} {before between after : List α} {row row' : α}

/-! ### Rewritten and deleted rows -/

/-- Every row is what has become of an earlier one, and no key is new. -/
structure Descends (key : α → κ) (step : α → α → Prop) (before after : List α) : Prop where
  keys : (after.map key).Sublist (before.map key)
  rows : ∀ row' ∈ after, ∃ row ∈ before, key row' = key row ∧ step row row'

section Descends

variable {key : α → κ} {cond : α → Bool} {set : α → α} {rows : List α}

theorem Descends.refl (hrefl : ∀ row ∈ rows, step row row) : Descends key step rows rows where
  keys := List.Sublist.refl _
  rows row hrow := ⟨row, hrow, rfl, hrefl row hrow⟩

theorem Descends.trans (htrans : ∀ row row' row'', step row row' → step row' row'' → step row row'')
    (h : Descends key step before between) (h' : Descends key step between after) :
    Descends key step before after where
  keys := h'.keys.trans h.keys
  rows := by
    intro row'' hrow''
    obtain ⟨row', hrow', hkey', hstep'⟩ := h'.rows row'' hrow''
    obtain ⟨row, hrow, hkey, hstep⟩ := h.rows row' hrow'
    exact ⟨row, hrow, hkey'.trans hkey, htrans _ _ _ hstep hstep'⟩

theorem Descends.mono {step' : α → α → Prop} (h : Descends key step before after)
    (hstep : ∀ row ∈ before, ∀ row', step row row' → step' row row') :
    Descends key step' before after where
  keys := h.keys
  rows := by
    intro row' hrow'
    obtain ⟨row, hrow, hkey, hrows⟩ := h.rows row' hrow'
    exact ⟨row, hrow, hkey, hstep row hrow row' hrows⟩

theorem descends_updateWhere (hrefl : ∀ row ∈ rows, ¬ cond row → step row row)
    (hkey : ∀ row, key (set row) = key row) (hset : ∀ row ∈ rows, cond row → step row (set row)) :
    Descends key step rows (updateWhere cond set rows) where
  keys := by rw [map_key_updateWhere hkey]
  rows := by
    intro row' hrow'
    rcases mem_updateWhere.1 hrow' with ⟨row, hrow, hcond, rfl⟩ | ⟨hrow, hcond⟩
    · exact ⟨row, hrow, hkey row, hset row hrow hcond⟩
    · exact ⟨row', hrow, rfl, hrefl row' hrow hcond⟩

theorem descends_filter (hrefl : ∀ row ∈ rows, step row row) :
    Descends key step rows (rows.filter cond) where
  keys := List.Sublist.map key List.filter_sublist
  rows := by
    intro row hrow
    have hold : row ∈ rows := (List.mem_filter.1 hrow).1
    exact ⟨row, hold, rfl, hrefl row hold⟩

theorem Descends.uniqueKey (h : Descends key step before after) (hunique : UniqueKey key before) :
    UniqueKey key after := h.keys.nodup hunique

/-- What has become of the row with a key. -/
theorem Descends.became (h : Descends key step before after) (hunique : UniqueKey key before)
    (hrow : row ∈ before) (hrow' : row' ∈ after) (hsame : key row' = key row) : step row row' := by
  obtain ⟨old, hold, hkey, hstep⟩ := h.rows row' hrow'
  obtain rfl : old = row := hunique.eq_of_key hold hrow (hkey.symm.trans hsame)
  exact hstep

end Descends

/-! ### Inserted rows -/

/-- Every row is what has become of an earlier one, or a fresh one with a key that had not been
drawn. -/
structure Succeeds (key : α → ℕ) (step : α → α → Prop) (fresh : α → Prop) (before : List α)
    (next : ℕ) (after : List α) (next' : ℕ) : Prop where
  drawn : next ≤ next'
  rows : ∀ row' ∈ after,
    (∃ row ∈ before, key row' = key row ∧ step row row') ∨ next ≤ key row' ∧ fresh row'

section Succeeds

variable {key : α → ℕ} {fresh : α → Prop} {next next' next'' : ℕ}

theorem Descends.succeeds (fresh : α → Prop) (h : Descends key step before after)
    (hdrawn : next ≤ next') : Succeeds key step fresh before next after next' where
  drawn := hdrawn
  rows row' hrow' := Or.inl (h.rows row' hrow')

theorem Succeeds.refl (hrefl : ∀ row ∈ before, step row row) (next : ℕ) :
    Succeeds key step fresh before next before next :=
  (Descends.refl hrefl).succeeds fresh (Nat.le_refl next)

theorem Succeeds.insert {added : List α} (hrefl : ∀ row ∈ before, step row row)
    (hdrawn : next ≤ next') (hadded : ∀ row ∈ added, next ≤ key row ∧ fresh row) :
    Succeeds key step fresh before next (before ++ added) next' where
  drawn := hdrawn
  rows := by
    intro row' hrow'
    rcases List.mem_append.1 hrow' with hold | hnew
    · exact Or.inl ⟨row', hold, rfl, hrefl row' hold⟩
    · exact Or.inr (hadded row' hnew)

theorem Succeeds.trans (htrans : ∀ row row' row'', step row row' → step row' row'' → step row row'')
    (hfresh : ∀ row row', fresh row → step row row' → fresh row')
    (h : Succeeds key step fresh before next between next')
    (h' : Succeeds key step fresh between next' after next'') :
    Succeeds key step fresh before next after next'' where
  drawn := h.drawn.trans h'.drawn
  rows := by
    intro row'' hrow''
    rcases h'.rows row'' hrow'' with ⟨row', hrow', hkey', hstep'⟩ | ⟨hnew, hrow''⟩
    · rcases h.rows row' hrow' with ⟨row, hrow, hkey, hstep⟩ | ⟨hnew, hrow'⟩
      · exact Or.inl ⟨row, hrow, hkey'.trans hkey, htrans _ _ _ hstep hstep'⟩
      · rw [← hkey'] at hnew
        exact Or.inr ⟨hnew, hfresh _ _ hrow' hstep'⟩
    · exact Or.inr ⟨h.drawn.trans hnew, hrow''⟩

theorem Succeeds.mono {step' : α → α → Prop} {fresh' : α → Prop}
    (h : Succeeds key step fresh before next after next')
    (hstep : ∀ row row', step row row' → step' row row') (hfresh : ∀ row, fresh row → fresh' row) :
    Succeeds key step' fresh' before next after next' where
  drawn := h.drawn
  rows := by
    intro row' hrow'
    rcases h.rows row' hrow' with ⟨row, hrow, hkey, hrows⟩ | ⟨hnew, hrow⟩
    · exact Or.inl ⟨row, hrow, hkey, hstep row row' hrows⟩
    · exact Or.inr ⟨hnew, hfresh row' hrow⟩

/-- What has become of the row with a key that was drawn. -/
theorem Succeeds.became (h : Succeeds key step fresh before next after next')
    (hunique : UniqueKey key before) (hdrawn : key row < next) (hrow : row ∈ before)
    (hrow' : row' ∈ after) (hsame : key row' = key row) : step row row' := by
  rcases h.rows row' hrow' with ⟨old, hold, hkey, hstep⟩ | ⟨hnew, -⟩
  · obtain rfl : old = row := hunique.eq_of_key hold hrow (hkey.symm.trans hsame)
    exact hstep
  · omega

end Succeeds

end Table
