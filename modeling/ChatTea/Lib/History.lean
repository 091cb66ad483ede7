import Mathlib.Data.Nat.Notation
import Mathlib.Data.List.Basic
import Mathlib.Tactic.Cases

/-!
# Histories of threads

A history lists what threads have done, the newest entry first; every entry is
stamped with the thread that made it.

## Main definitions

* `History.stamp` — the entries of one step
* `History.own` — what one thread has done
* `History.After` — an entry came later than another
* `History.count` — the entries of some kind, of all threads

## Main results

* `own_stamp_append_self`, `own_stamp_append_other` — a step shows in the history of
  its thread and in no other
* `count_le_of_own` — a bound that holds of every thread holds of all together
-/

namespace History

variable {α : Type} {pid other : ℕ} {events : List α} {history : List (ℕ × α)} {event : α}

/-- The entries a thread makes in one step. -/
def stamp (pid : ℕ) (events : List α) : List (ℕ × α) := events.map (Prod.mk pid)

/-- What one thread has done. -/
def own (pid : ℕ) (history : List (ℕ × α)) : List α :=
  (history.filter fun entry => entry.1 = pid).map Prod.snd

@[simp] theorem own_nil : own pid ([] : List (ℕ × α)) = [] := rfl

@[simp] theorem stamp_nil : stamp pid ([] : List α) = [] := rfl

theorem mem_own : event ∈ own pid history ↔ (pid, event) ∈ history := by
  simp only [own, List.mem_map, List.mem_filter, decide_eq_true_eq, Prod.exists, exists_eq_right]

theorem mem_stamp {entry : ℕ × α} : entry ∈ stamp pid events ↔ entry.1 = pid ∧ entry.2 ∈ events := by
  obtain ⟨holder, event⟩ := entry
  simp only [stamp, List.mem_map, Prod.mk.injEq]
  constructor
  · rintro ⟨event, hmem, rfl, rfl⟩
    exact ⟨rfl, hmem⟩
  · rintro ⟨rfl, hmem⟩
    exact ⟨event, hmem, rfl, rfl⟩

theorem stamp_append (newer older : List α) :
    stamp pid (newer ++ older) = stamp pid newer ++ stamp pid older := List.map_append

theorem own_append (newer older : List (ℕ × α)) :
    own pid (newer ++ older) = own pid newer ++ own pid older := by
  simp [own]

@[simp] theorem own_stamp_append_self :
    own pid (stamp pid events ++ history) = events ++ own pid history := by
  rw [own_append]
  congr 1
  simp [own, stamp, List.filter_map, Function.comp_def]

@[simp] theorem own_stamp_append_other (hother : other ≠ pid) :
    own other (stamp pid events ++ history) = own other history := by
  rw [own_append]
  have hnone : own other (stamp pid events) = [] := by
    simp [own, stamp, List.filter_map, Function.comp_def, Ne.symm hother]
  rw [hnone, List.nil_append]

/-- An entry came later than another one. -/
def After (history : List (ℕ × α)) (later earlier : ℕ × α) : Prop :=
  [later, earlier].Sublist history

@[simp] theorem not_after_nil {later earlier : ℕ × α} : ¬ After [] later earlier := by
  simp [After]

theorem after_cons {entry later earlier : ℕ × α} :
    After (entry :: history) later earlier ↔
      After history later earlier ∨ (entry = later ∧ earlier ∈ history) := by
  unfold After
  rw [List.sublist_cons_iff]
  constructor
  · rintro (hold | ⟨rest, hrest, hsub⟩)
    · exact Or.inl hold
    · obtain ⟨rfl, rfl⟩ := List.cons.inj hrest
      exact Or.inr ⟨rfl, List.singleton_sublist.1 hsub⟩
  · rintro (hold | ⟨rfl, hmem⟩)
    · exact Or.inl hold
    · exact Or.inr ⟨_, rfl, List.singleton_sublist.2 hmem⟩

theorem After.earlier_mem {later earlier : ℕ × α} (h : After history later earlier) :
    earlier ∈ history := h.subset (List.mem_cons_of_mem _ (List.mem_singleton_self _))

theorem After.append {later earlier : ℕ × α} (h : After history later earlier)
    (newer : List (ℕ × α)) : After (newer ++ history) later earlier :=
  h.trans (List.sublist_append_right newer history)

/-- What came later came in the last step or was there before it. -/
theorem After.of_append {newer : List (ℕ × α)} {later earlier : ℕ × α}
    (h : After (newer ++ history) later earlier) :
    later ∈ newer ∨ After history later earlier := by
  obtain ⟨first, second, hsplit, hfirst, hsecond⟩ := List.sublist_append_iff.1 h
  cases first with
  | nil =>
      obtain rfl : [later, earlier] = second := hsplit
      exact Or.inr hsecond
  | cons entry first =>
      obtain ⟨rfl, -⟩ := List.cons.inj hsplit
      exact Or.inl (hfirst.subset List.mem_cons_self)

/-- Of two entries one came later. -/
theorem after_or_after {entry other : ℕ × α} (h : entry ∈ history) (h' : other ∈ history)
    (hne : entry ≠ other) : After history entry other ∨ After history other entry := by
  induction history with
  | nil => cases h
  | cons newest rest ih =>
      rw [after_cons, after_cons]
      rcases List.mem_cons.1 h with rfl | hrest
      · exact Or.inl (Or.inr ⟨rfl, (List.mem_cons.1 h').resolve_left (Ne.symm hne)⟩)
      · rcases List.mem_cons.1 h' with rfl | hrest'
        · exact Or.inr (Or.inr ⟨rfl, hrest⟩)
        · exact (ih hrest hrest').imp Or.inl Or.inl

/-- The entries of some kind. -/
def count (kind : α → Bool) (history : List (ℕ × α)) : ℕ := history.countP fun entry => kind entry.2

section Count

variable {kind kind' : α → Bool}

@[simp] theorem count_nil : count kind ([] : List (ℕ × α)) = 0 := rfl

@[simp] theorem count_stamp_append :
    count kind (stamp pid events ++ history) = events.countP kind + count kind history := by
  rw [count, List.countP_append, stamp, List.countP_map]
  rfl

theorem count_eq_zero : count kind history = 0 ↔ ∀ entry ∈ history, ¬ kind entry.2 :=
  List.countP_eq_zero

/-- The entries of one thread and those of the others. -/
theorem count_eq_own_add (pid : ℕ) (history : List (ℕ × α)) : count kind history =
    (own pid history).countP kind + count kind (history.filter fun entry => entry.1 ≠ pid) := by
  rw [count, count, own, List.countP_map,
    List.countP_eq_countP_filter_add history _ fun entry => entry.1 = pid]
  congr 2
  exact List.filter_congr fun entry _ => by simp

theorem own_filter_ne (hother : other ≠ pid) :
    own other (history.filter fun entry => entry.1 ≠ pid) = own other history := by
  unfold own
  rw [List.filter_filter]
  congr 1
  refine List.filter_congr fun entry _ => ?_
  by_cases hentry : entry.1 = other
  · simp [hentry, hother]
  · simp [hentry]

/-- A bound that holds of every thread holds of all together. -/
theorem count_le_of_own (h : ∀ pid, (own pid history).countP kind ≤ (own pid history).countP kind') :
    count kind history ≤ count kind' history := by
  induction hlength : history.length using Nat.strongRecOn generalizing history with
  | _ length ih =>
      cases history with
      | nil => exact Nat.le_refl _
      | cons entry rest =>
          -- The thread of the first entry and the rest of the threads.
          subst hlength
          rw [count_eq_own_add entry.1 (entry :: rest), count_eq_own_add entry.1 (entry :: rest)]
          refine Nat.add_le_add (h entry.1) (ih _ ?_ (fun pid => ?_) rfl)
          · refine List.length_filter_lt_length_iff_exists.2 ⟨entry, List.mem_cons_self, ?_⟩
            simp
          · by_cases hpid : pid = entry.1
            · have hnone : own pid ((entry :: rest).filter fun other => other.1 ≠ entry.1) = [] := by
                simp [own, hpid]
              rw [hnone]
              exact Nat.le_refl _
            · rw [own_filter_ne hpid]
              exact h pid

/-- Entries each of which is of one of some kinds, and few of each. -/
theorem count_le_mul {κ : Type} {kinds : List κ} {kindOf : κ → α → Bool} {bound : ℕ}
    (hcover : ∀ entry ∈ history, kind entry.2 → ∃ k ∈ kinds, kindOf k entry.2)
    (hbound : ∀ k ∈ kinds, count (kindOf k) history ≤ bound) :
    count kind history ≤ kinds.length * bound := by
  induction kinds generalizing kind with
  | nil =>
      have hnone : count kind history = 0 := by
        refine count_eq_zero.2 fun entry hmem hkind => ?_
        obtain ⟨_, hin, -⟩ := hcover entry hmem hkind
        cases hin
      rw [hnone]
      exact Nat.zero_le _
  | cons k kinds ih =>
      -- The entries of the first kind, and those of the others.
      have hsplit : count kind history ≤
          count (kindOf k) history + count (fun event => kind event && !kindOf k event) history := by
        rw [count, count, count, List.countP_eq_countP_filter_add history _ fun entry =>
          kindOf k entry.2]
        refine Nat.add_le_add ?_ (Nat.le_of_eq ?_)
        · rw [List.countP_filter]
          exact List.countP_mono_left fun _ _ hentry => (Bool.and_eq_true_iff.1 hentry).2
        · rw [List.countP_filter]
      have hrest : count (fun event => kind event && !kindOf k event) history ≤
          kinds.length * bound := by
        refine ih (fun entry hmem hentry => ?_) fun k' hmem => hbound k' (List.mem_cons_of_mem _ hmem)
        obtain ⟨hkind, hother⟩ := Bool.and_eq_true_iff.1 hentry
        obtain ⟨k', hmem', hkind'⟩ := hcover entry hmem hkind
        rcases List.mem_cons.1 hmem' with rfl | hlater
        · simp [hkind'] at hother
        · exact ⟨k', hlater, hkind'⟩
      have hfirst := hbound k List.mem_cons_self
      rw [List.length_cons, Nat.succ_mul]
      omega

end Count

end History
