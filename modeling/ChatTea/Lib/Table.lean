import Mathlib.Algebra.BigOperators.Group.List.Basic
import Mathlib.Algebra.Order.Ring.Int
import Mathlib.Data.List.Forall2
import Mathlib.Data.List.MinMax
import Mathlib.Data.List.Nodup
import Mathlib.Data.List.Pairwise
import Mathlib.Tactic.Ring

/-!
# Tables as lists of rows

A table is the list of its rows in insertion order. This file gives the three
statements that change a table (append, conditional update, upsert) their
algebra: what a keyed lookup, a total over the rows and the uniqueness of a key
become after each of them. Nothing here knows what the rows are.

## Main definitions

* `Table.updateWhere` — `UPDATE … SET … WHERE …`
* `Table.returning` — the rows an update writes, as `RETURNING` reports them
* `Table.lookup` — the first row with a given key
* `Table.upsert` — `INSERT … ON CONFLICT (key) DO UPDATE …`
* `Table.latest` — `ORDER BY … DESC LIMIT 1`, with the choice among ties a parameter
* `Table.UniqueKey` — no two rows share a key

## Main results

* `lookup_updateWhere`, `lookup_upsert` — lookups after a write
* `UniqueKey.updateWhere`, `UniqueKey.upsert` — writes keep keys unique
* `sum_updateWhere` — rewriting the one row of a key moves a total by the
  difference between the new row and the old one
-/

namespace Table

variable {α κ : Type*}

/-- `UPDATE … SET … WHERE …`: rewrite the rows that satisfy the condition. -/
def updateWhere (cond : α → Bool) (set : α → α) (rows : List α) : List α :=
  rows.map fun row => if cond row then set row else row

/-- The rows an update writes, as its `RETURNING` clause reports them. -/
def returning (cond : α → Bool) (set : α → α) (rows : List α) : List α :=
  (rows.filter cond).map set

/-- The first row with key `k`. -/
def lookup [DecidableEq κ] (key : α → κ) (k : κ) (rows : List α) : Option α :=
  rows.find? fun row => key row = k

/-- `INSERT … ON CONFLICT (key) DO UPDATE SET …`. -/
def upsert [DecidableEq κ] (key : α → κ) (new : α) (set : α → α) (rows : List α) : List α :=
  if rows.any fun row => key row = key new then
    updateWhere (fun row => key row = key new) set rows
  else rows ++ [new]

/-- `ORDER BY rank DESC LIMIT 1`. Rows of one rank come in no particular order,
so which of them is returned is a parameter. -/
def latest (rank : α → ℤ) (tie : ℕ) (rows : List α) : Option α :=
  let top := rows.filter fun row => rows.all fun other => rank other ≤ rank row
  top[tie % top.length]?

/-- No two rows share a key. -/
def UniqueKey (key : α → κ) (rows : List α) : Prop := (rows.map key).Nodup

section Keys

variable {rows : List α} {row row' new : α} {key : α → κ}

/-- A key two rows share is the key of one row only. -/
theorem UniqueKey.eq_of_key (hunique : UniqueKey key rows) (hrow : row ∈ rows)
    (hrow' : row' ∈ rows) (hkey : key row = key row') : row = row' :=
  List.inj_on_of_nodup_map hunique hrow hrow' hkey

/-- A value that two rows have, of a column whose values differ, is the value of one row only. -/
theorem eq_of_nodup_filterMap {column : α → Option κ} {value : κ}
    (hunique : (rows.filterMap column).Nodup) (hrow : row ∈ rows) (hrow' : row' ∈ rows)
    (hvalue : column row = some value) (hvalue' : column row' = some value) : row = row' := by
  have hsymm : Std.Symm fun row row' : α =>
      ∀ value ∈ column row, ∀ value' ∈ column row', value ≠ value' :=
    ⟨fun _ _ h value hvalue value' hvalue' => (h value' hvalue' value hvalue).symm⟩
  by_contra hne
  exact (List.pairwise_filterMap.1 hunique).forall hrow hrow' hne value hvalue value hvalue' rfl

theorem UniqueKey.append (hunique : UniqueKey key rows) (hnew : ∀ row ∈ rows, key row ≠ key new) :
    UniqueKey key (rows ++ [new]) := by
  unfold UniqueKey
  rw [List.map_append, List.nodup_append]
  refine ⟨hunique, List.nodup_singleton _, fun k hk k' hk' => ?_⟩
  obtain ⟨row, hrow, rfl⟩ := List.mem_map.1 hk
  obtain rfl : k' = key new := by simpa using hk'
  exact hnew row hrow

/-- A condition that at most one row satisfies selects at most one row. -/
theorem UniqueKey.length_filter_le_one (hunique : UniqueKey key rows) {cond : α → Bool}
    (hone : ∀ row ∈ rows, ∀ row' ∈ rows, cond row → cond row' → row = row') :
    (rows.filter cond).length ≤ 1 := by
  have hnodup : (rows.filter cond).Nodup := (List.Nodup.of_map key hunique).filter cond
  match hrows : rows.filter cond with
  | [] => simp
  | [row] => simp
  | row :: row' :: rest =>
      have hmem : ∀ old ∈ row :: row' :: rest, old ∈ rows ∧ cond old :=
        fun old hold => List.mem_filter.1 (hrows ▸ hold)
      obtain ⟨hrow, hcond⟩ := hmem row List.mem_cons_self
      obtain ⟨hrow', hcond'⟩ := hmem row' (List.mem_cons_of_mem _ List.mem_cons_self)
      rw [hrows, hone row hrow row' hrow' hcond hcond'] at hnodup
      exact absurd List.mem_cons_self (List.nodup_cons.1 hnodup).1

end Keys

/-- The only row of a kind is the one that a search for the kind finds. -/
theorem find?_of_countP_le_one {kind : α → Bool} {rows : List α} {row : α}
    (hone : rows.countP kind ≤ 1) (hrow : row ∈ rows) (hkind : kind row) :
    rows.find? kind = some row := by
  induction rows with
  | nil => cases hrow
  | cons first rest ih =>
      by_cases hfirst : kind first
      · rw [List.countP_cons_of_pos hfirst] at hone
        have hnone : rest.countP kind = 0 := by omega
        rw [List.find?_cons_of_pos hfirst]
        rcases List.mem_cons.1 hrow with rfl | hlater
        · rfl
        · exact absurd hkind (List.countP_eq_zero.1 hnone row hlater)
      · rw [List.countP_cons_of_neg hfirst] at hone
        rw [List.find?_cons_of_neg hfirst]
        rcases List.mem_cons.1 hrow with rfl | hlater
        · exact absurd hkind hfirst
        · exact ih hone hlater

section Update

variable {cond : α → Bool} {set : α → α} {rows : List α} {row : α} {key : α → κ}

theorem mem_updateWhere :
    row ∈ updateWhere cond set rows ↔
      (∃ old ∈ rows, cond old ∧ set old = row) ∨ (row ∈ rows ∧ ¬ cond row) := by
  simp only [updateWhere, List.mem_map]
  constructor
  · rintro ⟨old, hold, rfl⟩
    by_cases hcond : cond old <;> simp only [hcond, if_true]
    · exact Or.inl ⟨old, hold, hcond, rfl⟩
    · exact Or.inr ⟨hold, by simp [hcond]⟩
  · rintro (⟨old, hold, hcond, rfl⟩ | ⟨hrow, hcond⟩)
    · exact ⟨old, hold, by simp [hcond]⟩
    · exact ⟨row, hrow, by simp [hcond]⟩

/-- An update that keeps every key keeps the column of keys. -/
theorem map_key_updateWhere (hkey : ∀ old, key (set old) = key old) :
    (updateWhere cond set rows).map key = rows.map key := by
  simp only [updateWhere, List.map_map]
  refine List.map_congr_left fun old _ => ?_
  by_cases hcond : cond old <;> simp [hcond, hkey]

theorem updateWhere_of_forall_not (hnone : ∀ old ∈ rows, ¬ cond old) :
    updateWhere cond set rows = rows := by
  conv_rhs => rw [← List.map_id rows]
  refine List.map_congr_left fun old hold => ?_
  simp [hnone old hold]

/-- An update that fixes each of its rows changes nothing. -/
theorem updateWhere_of_fixed (hfixed : ∀ old ∈ rows, cond old → set old = old) :
    updateWhere cond set rows = rows := by
  conv_rhs => rw [← List.map_id rows]
  apply List.map_congr_left
  intro old hold
  by_cases hcond : cond old
  · rw [if_pos hcond, hfixed old hold hcond, id]
  · rw [if_neg hcond, id]

theorem updateWhere_congr {cond' : α → Bool} (hcond : ∀ old ∈ rows, cond old = cond' old) :
    updateWhere cond set rows = updateWhere cond' set rows := by
  refine List.map_congr_left fun old hold => ?_
  rw [hcond old hold]

theorem UniqueKey.updateWhere (hunique : UniqueKey key rows)
    (hkey : ∀ old, key (set old) = key old) :
    UniqueKey key (updateWhere cond set rows) := by
  unfold UniqueKey
  rwa [map_key_updateWhere hkey]

theorem lookup_updateWhere [DecidableEq κ] (hkey : ∀ old, key (set old) = key old) (k : κ) :
    lookup key k (updateWhere cond set rows) =
      (lookup key k rows).map fun old => if cond old then set old else old := by
  simp only [lookup, updateWhere, List.find?_map]
  congr 2
  funext old
  by_cases hcond : cond old <;> simp [hcond, hkey]

/-- An update that changes nothing leaves each of its rows as it is. -/
theorem eq_of_updateWhere_eq (h : updateWhere cond set rows = rows) (hrow : row ∈ rows)
    (hcond : cond row) : set row = row := by
  have hmap : rows.map (fun old => if cond old then set old else old) = rows.map id := by
    rwa [List.map_id]
  have hsame := List.map_inj_left.1 hmap row hrow
  simpa [hcond] using hsame

/-- An update that moves no row in or out of a selection commutes with it. -/
theorem filter_updateWhere {selected : α → Bool}
    (hselected : ∀ old ∈ rows, cond old → selected (set old) = selected old) :
    (updateWhere cond set rows).filter selected = updateWhere cond set (rows.filter selected) := by
  simp only [updateWhere, List.filter_map]
  congr 1
  apply List.filter_congr
  intro old hold
  by_cases hcond : cond old
  · simp [hcond, hselected old hold hcond]
  · simp [hcond]

/-- Every row takes a step in an update. -/
theorem forall₂_updateWhere {step : α → α → Prop} (hrefl : ∀ old, step old old)
    (hset : ∀ old ∈ rows, cond old → step old (set old)) :
    List.Forall₂ step rows (updateWhere cond set rows) := by
  rw [updateWhere, List.forall₂_map_right_iff, List.forall₂_same]
  intro old hold
  by_cases hcond : cond old
  · rw [if_pos hcond]
    exact hset old hold hcond
  · rw [if_neg hcond]
    exact hrefl old

theorem returning_ne_nil :
    returning cond set rows ≠ [] ↔ ∃ old ∈ rows, cond old := by
  simp [returning, List.filter_eq_nil_iff]

end Update

section Evolution

variable {step : α → α → Prop} {fresh : α → Prop} {before after rows : List α} {row row' new : α}
  {cond : α → Bool} {set : α → α} {key : α → κ}

/-- Every row takes a step, none is deleted, and every other row is a fresh one. -/
structure Evolve (step : α → α → Prop) (fresh : α → Prop) (before after : List α) : Prop where
  forth : ∀ row ∈ before, ∃ row' ∈ after, step row row'
  back : ∀ row' ∈ after, (∃ row ∈ before, step row row') ∨ fresh row'

theorem Evolve.refl (hrefl : ∀ row, step row row) (rows : List α) : Evolve step fresh rows rows where
  forth := fun row hrow => ⟨row, hrow, hrefl row⟩
  back := fun row hrow => Or.inl ⟨row, hrow, hrefl row⟩

theorem Evolve.updateWhere (hrefl : ∀ row, step row row)
    (hset : ∀ row ∈ rows, cond row → step row (set row)) :
    Evolve step fresh rows (updateWhere cond set rows) where
  forth := by
    intro row hrow
    by_cases hcond : cond row
    · exact ⟨set row, mem_updateWhere.2 (Or.inl ⟨row, hrow, hcond, rfl⟩), hset row hrow hcond⟩
    · exact ⟨row, mem_updateWhere.2 (Or.inr ⟨hrow, hcond⟩), hrefl row⟩
  back := by
    intro row' hrow'
    rcases mem_updateWhere.1 hrow' with ⟨row, hrow, hcond, rfl⟩ | ⟨hrow, -⟩
    · exact Or.inl ⟨row, hrow, hset row hrow hcond⟩
    · exact Or.inl ⟨row', hrow, hrefl row'⟩

theorem Evolve.insert (hrefl : ∀ row, step row row) (hnew : fresh new) :
    Evolve step fresh rows (rows ++ [new]) where
  forth := fun row hrow => ⟨row, List.mem_append_left _ hrow, hrefl row⟩
  back := by
    intro row' hrow'
    rcases List.mem_append.1 hrow' with hrow | hrow
    · exact Or.inl ⟨row', hrow, hrefl row'⟩
    · rw [List.mem_singleton.1 hrow]
      exact Or.inr hnew

/-- Two rows of one key are one row before and after a step. -/
theorem Evolve.step_of_key (h : Evolve step fresh before after) (hunique : UniqueKey key after)
    (hkey : ∀ {row row'}, step row row' → key row' = key row) (hrow : row ∈ before)
    (hrow' : row' ∈ after) (hsame : key row' = key row) : step row row' := by
  obtain ⟨next, hnext, hstep⟩ := h.forth row hrow
  rwa [hunique.eq_of_key hrow' hnext (hsame.trans (hkey hstep).symm)]

end Evolution

section Latest

variable {rank : α → ℤ} {tie : ℕ} {rows : List α} {row : α}

theorem mem_of_latest (h : latest rank tie rows = some row) : row ∈ rows :=
  (List.mem_filter.1 (List.mem_of_getElem? h)).1

theorem latest_eq_none : latest rank tie rows = none ↔ rows = [] := by
  constructor
  · intro h
    by_contra hrows
    obtain ⟨top, htop, hmax⟩ : ∃ top ∈ rows, ∀ other ∈ rows, rank other ≤ rank top := by
      obtain ⟨top, htop⟩ := Option.ne_none_iff_exists'.1
        (fun hnone => hrows (List.argmax_eq_none.1 hnone) : rows.argmax rank ≠ none)
      exact ⟨top, List.argmax_mem htop, fun other hother => List.le_of_mem_argmax hother htop⟩
    have hlength : 0 < (rows.filter fun row => rows.all fun other => rank other ≤ rank row).length :=
      List.length_pos_of_mem (List.mem_filter.2 ⟨htop, by simpa using hmax⟩)
    have hbound := Nat.mod_lt tie hlength
    rw [latest, List.getElem?_eq_none_iff] at h
    omega
  · rintro rfl
    rfl

/-- A row above all others is the latest, whatever the tie. -/
theorem latest_of_above (hrow : row ∈ rows)
    (habove : ∀ other ∈ rows, other ≠ row → rank other < rank row) :
    latest rank tie rows = some row := by
  cases hlatest : latest rank tie rows with
  | none =>
      have hnone := latest_eq_none.1 hlatest
      rw [hnone] at hrow
      cases hrow
  | some found =>
      obtain ⟨hmem, hmax⟩ := List.mem_filter.1 (List.mem_of_getElem? hlatest)
      have hle : rank row ≤ rank found := of_decide_eq_true (List.all_eq_true.1 hmax row hrow)
      by_contra hother
      have hne : found ≠ row := fun hsame => hother (congrArg some hsame)
      exact absurd (habove found hmem hne) (not_lt.2 hle)

end Latest

section Lookup

variable [DecidableEq κ] {key : α → κ} {k : κ} {rows : List α} {row new : α} {set : α → α}

theorem mem_of_lookup (h : lookup key k rows = some row) : row ∈ rows ∧ key row = k :=
  ⟨List.mem_of_find?_eq_some h, by simpa using List.find?_some h⟩

theorem lookup_eq_none : lookup key k rows = none ↔ ∀ row ∈ rows, key row ≠ k := by
  simp [lookup]

theorem UniqueKey.lookup_of_mem (hunique : UniqueKey key rows) (hrow : row ∈ rows) :
    lookup key (key row) rows = some row := by
  cases hfound : lookup key (key row) rows with
  | none => exact absurd rfl (lookup_eq_none.1 hfound row hrow)
  | some found =>
      obtain ⟨hmem, hkey⟩ := mem_of_lookup hfound
      rw [hunique.eq_of_key hmem hrow hkey]

theorem lookup_append_singleton :
    lookup key k (rows ++ [new]) = (lookup key k rows).or (if key new = k then some new else none) := by
  by_cases hnew : key new = k <;> simp [lookup, List.find?_append, hnew]

theorem lookup_upsert (hkey : ∀ old, key (set old) = key old) :
    lookup key k (upsert key new set rows) =
      if key new = k then some ((lookup key k rows).elim new set) else lookup key k rows := by
  unfold upsert
  split
  next hany =>
    rw [lookup_updateWhere hkey]
    split
    next hk =>
      subst hk
      cases hfound : lookup key (key new) rows with
      | none =>
          obtain ⟨row, hrow, hrowkey⟩ := List.any_eq_true.1 hany
          exact absurd (by simpa using hrowkey) (lookup_eq_none.1 hfound row hrow)
      | some old => simp [(mem_of_lookup hfound).2]
    next hk =>
      cases hfound : lookup key k rows with
      | none => rfl
      | some old =>
          have hold : key old = k := (mem_of_lookup hfound).2
          simp [hold, Ne.symm hk]
  next hany =>
    rw [lookup_append_singleton]
    split
    next hk =>
      have hnone : lookup key k rows = none := by
        refine lookup_eq_none.2 fun row hrow hrowkey => hany ?_
        exact List.any_eq_true.2 ⟨row, hrow, by simp [hrowkey, hk]⟩
      simp [hnone]
    next => simp

/-- An upsert that is made twice is made once. -/
theorem upsert_upsert_self (hkey : ∀ old, key (set old) = key old)
    (hset : ∀ old, set (set old) = set old) (hnew : set new = new) :
    upsert key new set (upsert key new set rows) = upsert key new set rows := by
  unfold upsert
  by_cases hany : rows.any fun row => key row = key new
  · rw [if_pos hany]
    have hupdated : (updateWhere (fun row => key row = key new) set rows).any
        fun row => key row = key new := by
      obtain ⟨row, hrow, hmatch⟩ := List.any_eq_true.1 hany
      have hwritten : set row ∈ updateWhere (fun row => key row = key new) set rows :=
        mem_updateWhere.2 (Or.inl ⟨row, hrow, hmatch, rfl⟩)
      refine List.any_eq_true.2 ⟨set row, hwritten, ?_⟩
      rwa [hkey]
    rw [if_pos hupdated]
    unfold updateWhere
    rw [List.map_map]
    congr 1
    funext row
    by_cases hmatch : key row = key new <;> simp [hmatch, hkey, hset]
  · rw [if_neg hany]
    have happended : (rows ++ [new]).any fun row => key row = key new := by simp
    rw [if_pos happended]
    have hrows : updateWhere (fun row => key row = key new) set rows = rows :=
      updateWhere_of_forall_not fun old hold hmatch => hany (List.any_eq_true.2 ⟨old, hold, hmatch⟩)
    unfold updateWhere at hrows ⊢
    rw [List.map_append, hrows]
    simp [hnew]

/-- A key some row has is counted once. -/
theorem UniqueKey.countP_eq_one (hunique : UniqueKey key rows) (hrow : row ∈ rows) :
    rows.countP (fun other => key other = key row) = 1 := by
  have hcount : (rows.map key).count (key row) = 1 :=
    List.count_eq_one_of_mem hunique (List.mem_map_of_mem hrow)
  rw [← hcount, List.count, List.countP_map]
  refine List.countP_congr fun other _ => ?_
  simp

/-- A key some row has selects that row alone. -/
theorem UniqueKey.filter_eq_singleton (hunique : UniqueKey key rows) (hrow : row ∈ rows) :
    rows.filter (fun other => key other = key row) = [row] := by
  have hlength : (rows.filter fun other => key other = key row).length = 1 := by
    rw [← List.countP_eq_length_filter]
    exact hunique.countP_eq_one hrow
  obtain ⟨only, honly⟩ := List.length_eq_one_iff.1 hlength
  have hmem : row ∈ rows.filter fun other => key other = key row := by
    simp [hrow]
  rw [honly] at hmem
  rw [honly, List.mem_singleton.1 hmem]

theorem UniqueKey.upsert (hunique : UniqueKey key rows) (hkey : ∀ old, key (set old) = key old) :
    UniqueKey key (upsert key new set rows) := by
  unfold Table.upsert
  split
  next => exact hunique.updateWhere hkey
  next hany =>
    refine hunique.append fun row hrow hrowkey => hany ?_
    exact List.any_eq_true.2 ⟨row, hrow, by simp [hrowkey]⟩

end Lookup

section Totals

variable [DecidableEq κ] {key : α → κ} {rows : List α} {row : α} {set : α → α}

/-- Rewriting the one row of a key moves a total by the difference between the
new row and the old one. -/
theorem sum_updateWhere (hunique : UniqueKey key rows) (hrow : row ∈ rows) (value : α → ℤ) :
    ((updateWhere (fun old => key old = key row) set rows).map value).sum =
      (rows.map value).sum - value row + value (set row) := by
  induction rows with
  | nil => simp at hrow
  | cons head tail ih =>
      obtain ⟨hhead, htail⟩ := List.nodup_cons.1 hunique
      rcases List.mem_cons.1 hrow with rfl | hmem
      · have hnone : ∀ old ∈ tail, ¬ (decide (key old = key row) = true) := by
          intro old hold hkey
          exact hhead (List.mem_map.2 ⟨old, hold, by simpa using hkey⟩)
        have hrest : updateWhere (fun old => decide (key old = key row)) set tail = tail :=
          updateWhere_of_forall_not hnone
        simp only [updateWhere] at hrest
        simp only [updateWhere, List.map_cons, decide_true, if_true, List.sum_cons, hrest]
        ring
      · have hne : key head ≠ key row := fun hkey =>
          hhead (List.mem_map.2 ⟨row, hmem, hkey.symm⟩)
        have htotal := ih htail hmem
        simp only [updateWhere] at htotal
        simp only [updateWhere, List.map_cons, hne, decide_false, Bool.false_eq_true, if_false,
          List.sum_cons, htotal]
        ring

/-- A total over the rows that satisfy a condition is one over all rows. -/
theorem sum_filter (cond : α → Bool) (value : α → ℤ) (rows : List α) :
    ((rows.filter cond).map value).sum =
      (rows.map fun row => if cond row then value row else 0).sum := by
  induction rows with
  | nil => rfl
  | cons head tail ih =>
      by_cases hhead : cond head
      · simp [hhead, ih]
      · simp [hhead, ih]

/-- A count of rows is a total of ones. -/
theorem countP_eq_sum (cond : α → Bool) (rows : List α) :
    (rows.countP cond : ℤ) = (rows.map fun row => if cond row then (1 : ℤ) else 0).sum := by
  induction rows with
  | nil => rfl
  | cons head tail ih =>
      by_cases hhead : cond head
      · simp [hhead, ih, add_comm]
      · simp [hhead, ih]

end Totals

end Table
