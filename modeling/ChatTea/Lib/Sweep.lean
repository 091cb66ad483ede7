import Mathlib.Data.List.Basic
import Mathlib.Data.List.Forall2
import Mathlib.Data.List.Induction
import Mathlib.Tactic.Cases

/-!
# Entries that go through rows

The entries of a batch are worked off one after the other. An entry writes its own row, unless an
earlier one has closed that row, and closes the other open rows that it hits. What has become of a
row is read off the entries alone.

## Main definitions

* `Sweep.Batch` — which rows an entry owns and hits, and whether it leaves its own row open
* `Sweep.Phase`, `Sweep.Batch.phase` — what has become of a row

## Main results

* `phase_eq_claimed_iff` — nothing has happened to a row
* `writer_phase_iff` — an entry has written its row
* `phase_eq_written_iff` — a row is as its entry has left it
* `not_isOpen_of_hit` — a row that was hit is not open
-/

namespace Sweep

variable {ε ρ : Type*}

/-- What the entries of a batch do to rows. -/
structure Batch (ε ρ : Type*) where
  owns : ε → ρ → Prop
  hits : ε → ρ → Prop
  leavesOpen : ε → Prop

/-- What has become of a row. -/
inductive Phase (ε : Type*) where
  | claimed
  | written (entry : ε)
  /-- Another entry has closed the row, before or after its own one. -/
  | closed (entry : Option ε)

namespace Phase

/-- The entry that has written the row. -/
def writer : Phase ε → Option ε
  | .claimed => none
  | .written entry => some entry
  | .closed entry => entry

end Phase

namespace Batch

open Classical in
/-- What the next entry makes of a row. -/
noncomputable def step (B : Batch ε ρ) (row : ρ) (phase : Phase ε) (entry : ε) : Phase ε :=
  match phase with
  | .claimed =>
      if B.owns entry row then .written entry
      else if B.hits entry row then .closed none else .claimed
  | .written writer =>
      if B.hits entry row ∧ B.leavesOpen writer then .closed (some writer) else .written writer
  | .closed writer => .closed writer

noncomputable def phase (B : Batch ε ρ) (entries : List ε) (row : ρ) : Phase ε :=
  entries.foldl (B.step row) .claimed

/-- The row may still change. -/
def IsOpen (B : Batch ε ρ) : Phase ε → Prop
  | .claimed => True
  | .written entry => B.leavesOpen entry
  | .closed _ => False

variable {B : Batch ε ρ} {entries pre post : List ε} {entry other : ε} {row : ρ} {phase : Phase ε}

@[simp] theorem phase_nil (B : Batch ε ρ) (row : ρ) : B.phase [] row = .claimed := rfl

theorem phase_concat (B : Batch ε ρ) (entries : List ε) (entry : ε) (row : ρ) :
    B.phase (entries ++ [entry]) row = B.step row (B.phase entries row) entry := by
  rw [phase, List.foldl_append]
  rfl

theorem step_owns (howns : B.owns entry row) : B.step row .claimed entry = .written entry := by
  simp [step, howns]

theorem step_hits (howns : ¬ B.owns entry row) (hhits : B.hits entry row) :
    B.step row .claimed entry = .closed none := by
  simp [step, howns, hhits]

theorem step_passes (howns : ¬ B.owns entry row) (hhits : ¬ B.hits entry row) :
    B.step row .claimed entry = .claimed := by
  simp [step, howns, hhits]

theorem step_closes (hhits : B.hits entry row) (hopen : B.leavesOpen other) :
    B.step row (.written other) entry = .closed (some other) := by
  simp [step, hhits, hopen]

theorem step_leaves (h : ¬ (B.hits entry row ∧ B.leavesOpen other)) :
    B.step row (.written other) entry = .written other := by
  simp [step, h]

@[simp] theorem step_closed (B : Batch ε ρ) (row : ρ) (writer : Option ε) (entry : ε) :
    B.step row (.closed writer) entry = .closed writer := rfl

/-- No entry has come to the row. -/
theorem phase_eq_claimed_iff :
    B.phase entries row = .claimed ↔ ∀ entry ∈ entries, ¬ B.owns entry row ∧ ¬ B.hits entry row := by
  induction entries using List.reverseRecOn with
  | nil => simp
  | append_singleton entries entry ih =>
      rw [phase_concat]
      constructor
      · intro hclaimed
        cases hphase : B.phase entries row with
        | claimed =>
            rw [hphase] at hclaimed
            have hnot : ¬ B.owns entry row ∧ ¬ B.hits entry row := by
              constructor
              · intro howns
                rw [step_owns howns] at hclaimed
                cases hclaimed
              · intro hhits
                by_cases howns : B.owns entry row
                · rw [step_owns howns] at hclaimed
                  cases hclaimed
                · rw [step_hits howns hhits] at hclaimed
                  cases hclaimed
            intro other hmem
            rcases List.mem_append.1 hmem with hold | hnew
            · exact ih.1 hphase other hold
            · rw [List.mem_singleton.1 hnew]
              exact hnot
        | written writer =>
            rw [hphase] at hclaimed
            by_cases hclose : B.hits entry row ∧ B.leavesOpen writer
            · rw [step_closes hclose.1 hclose.2] at hclaimed
              cases hclaimed
            · rw [step_leaves hclose] at hclaimed
              cases hclaimed
        | closed writer =>
            rw [hphase] at hclaimed
            cases hclaimed
      · intro hnone
        have hbefore := ih.2 fun other hother => hnone other (List.mem_append_left _ hother)
        have hlast := hnone entry (List.mem_append_right _ List.mem_cons_self)
        rw [hbefore, step_passes hlast.1 hlast.2]

/-- A step does not open a row again, and one that hits a row closes it. -/
theorem not_isOpen_step (hfinal : B.hits entry row → B.owns entry row → ¬ B.leavesOpen entry)
    (h : ¬ B.IsOpen phase ∨ B.hits entry row) : ¬ B.IsOpen (B.step row phase entry) := by
  cases phase with
  | claimed =>
      have hhits := h.resolve_left fun hnot => hnot trivial
      by_cases howns : B.owns entry row
      · rw [step_owns howns]
        exact hfinal hhits howns
      · rw [step_hits howns hhits]
        exact id
  | written writer =>
      by_cases hclose : B.hits entry row ∧ B.leavesOpen writer
      · rw [step_closes hclose.1 hclose.2]
        exact id
      · rw [step_leaves hclose]
        intro hopen
        rcases h with hnot | hhits
        · exact hnot hopen
        · exact hclose ⟨hhits, hopen⟩
  | closed writer => exact id

/-- A row that was hit is not open. -/
theorem not_isOpen_of_hit
    (hfinal : ∀ entry ∈ entries, B.hits entry row → B.owns entry row → ¬ B.leavesOpen entry)
    (hmem : entry ∈ entries) (hhits : B.hits entry row) : ¬ B.IsOpen (B.phase entries row) := by
  induction entries using List.reverseRecOn with
  | nil => cases hmem
  | append_singleton entries last ih =>
      rw [phase_concat]
      have hlast := hfinal last (List.mem_append_right _ List.mem_cons_self)
      rcases List.mem_append.1 hmem with hold | hnew
      · have hbefore := ih (fun other hother => hfinal other (List.mem_append_left _ hother)) hold
        exact not_isOpen_step hlast (Or.inl hbefore)
      · obtain rfl := List.mem_singleton.1 hnew
        exact not_isOpen_step hlast (Or.inr hhits)

/-- An entry that finds a row closed, or hits none, does nothing to it. -/
theorem step_eq_self (howns : phase = .claimed → ¬ B.owns entry row)
    (h : ¬ B.hits entry row ∨ ¬ B.IsOpen phase) : B.step row phase entry = phase := by
  cases phase with
  | claimed => exact step_passes (howns rfl) (h.resolve_right fun hnot => hnot trivial)
  | written writer =>
      apply step_leaves
      rintro ⟨hhits, hopen⟩
      rcases h with hnot | hnot
      · exact hnot hhits
      · exact hnot hopen
  | closed writer => rfl

/-- Whoever has written a row stays its writer. -/
theorem writer_step (phase : Phase ε) (h : phase ≠ .claimed) :
    (B.step row phase entry).writer = phase.writer := by
  cases phase with
  | claimed => exact absurd rfl h
  | written writer =>
      by_cases hclose : B.hits entry row ∧ B.leavesOpen writer
      · rw [step_closes hclose.1 hclose.2]
        rfl
      · rw [step_leaves hclose]
  | closed writer => rfl

/-- The writer of a row is the entry that owns it, if it came before every hit. -/
theorem writer_phase_iff : (B.phase entries row).writer = some entry ↔
    ∃ pre post, entries = pre ++ entry :: post ∧ B.owns entry row ∧
      ∀ other ∈ pre, ¬ B.owns other row ∧ ¬ B.hits other row := by
  induction entries using List.reverseRecOn with
  | nil =>
      constructor
      · intro h
        cases h
      · rintro ⟨pre, post, hnil, -⟩
        simp at hnil
  | append_singleton entries last ih =>
      rw [phase_concat]
      by_cases hclaimed : B.phase entries row = .claimed
      · have hfree := phase_eq_claimed_iff.1 hclaimed
        rw [hclaimed]
        constructor
        · intro hwriter
          by_cases howns : B.owns last row
          · rw [step_owns howns] at hwriter
            obtain rfl : last = entry := Option.some.inj hwriter
            exact ⟨entries, [], rfl, howns, hfree⟩
          · by_cases hhits : B.hits last row
            · rw [step_hits howns hhits] at hwriter
              cases hwriter
            · rw [step_passes howns hhits] at hwriter
              cases hwriter
        · rintro ⟨pre, post, hsplit, howns, -⟩
          -- The writer is the last entry, because no earlier one owns the row.
          have hlast : last = entry := by
            have hmem : entry ∈ entries ++ [last] := by simp [hsplit]
            rcases List.mem_append.1 hmem with hold | hnew
            · exact absurd howns (hfree entry hold).1
            · exact (List.mem_singleton.1 hnew).symm
          rw [hlast, step_owns howns]
          rfl
      · rw [writer_step _ hclaimed, ih]
        constructor
        · rintro ⟨pre, post, rfl, hrest⟩
          exact ⟨pre, post ++ [last], by simp, hrest⟩
        · rintro ⟨pre, post, hsplit, howns, hfree⟩
          rcases post.eq_nil_or_concat with rfl | ⟨post, final, rfl⟩
          · obtain ⟨rfl, -⟩ := List.append_inj' hsplit rfl
            exact absurd (phase_eq_claimed_iff.2 hfree) hclaimed
          · rw [List.concat_eq_append, ← List.cons_append, ← List.append_assoc] at hsplit
            obtain ⟨rfl, -⟩ := List.append_inj' hsplit rfl
            exact ⟨pre, post, rfl, howns, hfree⟩

/-- A row that an entry has come to does not become free again. -/
theorem phase_append_ne_claimed (h : B.phase pre row ≠ .claimed) :
    B.phase (pre ++ post) row ≠ .claimed := by
  intro hfreed
  apply h
  exact phase_eq_claimed_iff.2 fun other hother =>
    phase_eq_claimed_iff.1 hfreed other (List.mem_append_left _ hother)

theorem writer_phase_append (h : B.phase pre row ≠ .claimed) :
    (B.phase (pre ++ post) row).writer = (B.phase pre row).writer := by
  induction post using List.reverseRecOn with
  | nil => rw [List.append_nil]
  | append_singleton post last ih =>
      rw [← List.append_assoc, phase_concat, writer_step _ (phase_append_ne_claimed h)]
      exact ih

/-- An entry that leaves its row open has it in the end as it wrote it if nothing hits the row. -/
theorem phase_append (hphase : B.phase pre row = .written entry) :
    B.phase (pre ++ post) row = .written entry ↔
      (B.leavesOpen entry → ∀ other ∈ post, ¬ B.hits other row) := by
  induction post using List.reverseRecOn with
  | nil => simp [hphase]
  | append_singleton post last ih =>
      rw [← List.append_assoc, phase_concat]
      constructor
      · intro hwritten hopen other hmem
        have hclaimed : B.phase pre row ≠ .claimed := by
          rw [hphase]
          exact fun h => nomatch h
        have hwriter : B.phase (pre ++ post) row = .written entry := by
          cases hbefore : B.phase (pre ++ post) row with
          | claimed => exact absurd hbefore (phase_append_ne_claimed hclaimed)
          | written writer =>
              have hsame : (B.phase (pre ++ post) row).writer = (B.phase pre row).writer :=
                writer_phase_append hclaimed
              rw [hbefore, hphase] at hsame
              rw [Option.some.inj hsame]
          | closed writer =>
              rw [hbefore] at hwritten
              cases hwritten
        rcases List.mem_append.1 hmem with hold | hnew
        · exact ih.1 hwriter hopen other hold
        · rw [List.mem_singleton.1 hnew]
          intro hhits
          rw [hwriter, step_closes hhits hopen] at hwritten
          cases hwritten
      · intro hnone
        have hbefore : B.phase (pre ++ post) row = .written entry :=
          ih.2 fun hopen other hother => hnone hopen other (List.mem_append_left _ hother)
        rw [hbefore]
        apply step_leaves
        rintro ⟨hhits, hopen⟩
        exact hnone hopen last (List.mem_append_right _ List.mem_cons_self) hhits

/-- A row is as its entry has left it. -/
theorem phase_eq_written_iff (howns : B.owns entry row) (hfree : ∀ other ∈ pre, ¬ B.owns other row) :
    B.phase (pre ++ entry :: post) row = .written entry ↔
      (∀ other ∈ pre, ¬ B.hits other row) ∧
        (B.leavesOpen entry → ∀ other ∈ post, ¬ B.hits other row) := by
  by_cases hclaimed : B.phase pre row = .claimed
  · have hnone : ∀ other ∈ pre, ¬ B.hits other row := fun other hother =>
      (phase_eq_claimed_iff.1 hclaimed other hother).2
    have hwritten : B.phase (pre ++ [entry]) row = .written entry := by
      rw [phase_concat, hclaimed, step_owns howns]
    rw [List.append_cons, phase_append hwritten]
    exact ⟨fun h => ⟨hnone, h⟩, fun h => h.2⟩
  · constructor
    · intro hwritten
      have hwriter : (B.phase pre row).writer = some entry := by
        rw [← writer_phase_append hclaimed, hwritten]
        rfl
      obtain ⟨first, rest, hsplit, -, -⟩ := writer_phase_iff.1 hwriter
      exact absurd howns (hfree entry (by simp [hsplit]))
    · rintro ⟨hnone, -⟩
      exact absurd (phase_eq_claimed_iff.2 fun other hother =>
        ⟨hfree other hother, hnone other hother⟩) hclaimed

end Batch

/-- What holds wherever a list of images is split holds wherever the list itself is. -/
theorem forall_split_map {α β : Type*} {f : α → β} {holds : List β → β → List β → Prop}
    (items : List α) : (∀ pre image post, items.map f = pre ++ image :: post → holds pre image post) ↔
      ∀ pre item post, items = pre ++ item :: post → holds (pre.map f) (f item) (post.map f) := by
  constructor
  · intro h pre item post hsplit
    apply h
    rw [hsplit, List.map_append, List.map_cons]
  · intro h pre image post hsplit
    obtain ⟨pre, rest, rfl, rfl, hrest⟩ := List.map_eq_append_iff.1 hsplit
    obtain ⟨item, post, rfl, rfl, rfl⟩ := List.map_eq_cons_iff.1 hrest
    exact h pre item post rfl

end Sweep
