import ChatTea.Lib.History
import ChatTea.Lib.Interleaving
import Mathlib.Algebra.BigOperators.Group.Finset.Piecewise

/-!
# Counting the threads by what they have entered

When every thread that has answered has made as many entries of a kind as its answer says, and
the others none, the entries in the history are as many as the threads with such an answer.

## Main results

* `count_eq_sum` — the entries of the history, thread by thread
* `countP_eq_count` — the entries are the threads that have made one
-/

namespace History

open Interleaving

variable {α : Type} {kind : α → Bool} {history : List (ℕ × α)} {bound : ℕ}

/-- The entries of the history are those of its threads. -/
theorem count_eq_sum (hbound : ∀ entry ∈ history, entry.1 < bound) :
    count kind history = ∑ pid ∈ Finset.range bound, (own pid history).countP kind := by
  induction history with
  | nil => simp
  | cons entry rest ih =>
      obtain ⟨author, event⟩ := entry
      have hauthor : author < bound := hbound _ List.mem_cons_self
      have hrest := ih fun entry hentry => hbound entry (List.mem_cons_of_mem _ hentry)
      -- The first entry counts for its own thread.
      have hown : ∀ pid, (own pid ((author, event) :: rest)).countP kind =
          (own pid rest).countP kind + if author = pid then [event].countP kind else 0 := by
        intro pid
        have hcons : own pid ((author, event) :: rest) =
            own pid [(author, event)] ++ own pid rest := own_append [_] rest
        rw [hcons, List.countP_append, Nat.add_comm]
        congr 1
        by_cases hpid : author = pid
        · subst hpid
          simp [own]
        · simp [own, hpid]
      simp only [hown]
      rw [Finset.sum_add_distrib, ← hrest, Finset.sum_ite_eq, if_pos (Finset.mem_range.2 hauthor)]
      have hfirst : count kind ((author, event) :: rest) =
          [event].countP kind + count kind rest := by
        have hstamp : count kind (stamp author [event] ++ rest) =
            [event].countP kind + count kind rest := count_stamp_append
        exact hstamp
      rw [hfirst, Nat.add_comm]

/-- The rows of a list with a property, position by position. -/
theorem countP_eq_sum_range {β : Type*} {holds : β → Bool} {rows : List β} {ones : ℕ → ℕ}
    (h : ∀ i row, rows[i]? = some row → ones i = if holds row then 1 else 0) :
    rows.countP holds = ∑ i ∈ Finset.range rows.length, ones i := by
  induction rows using List.reverseRecOn with
  | nil => rfl
  | append_singleton rows row ih =>
      have hlast : ones rows.length = if holds row then 1 else 0 := by
        apply h
        simp
      have hrows : rows.countP holds = ∑ i ∈ Finset.range rows.length, ones i := by
        apply ih
        intro i other hother
        apply h i other
        have hlt := (List.getElem?_eq_some_iff.1 hother).1
        rw [List.getElem?_append_left hlt]
        exact hother
      rw [List.countP_append, hrows, List.length_append, List.length_singleton,
        Finset.sum_range_succ, hlast, List.countP_singleton]

/-- Every thread has made one entry of the kind if its answer is of the sort, and none otherwise:
the entries are the threads with such an answer. -/
theorem countP_eq_count {σ ι ε ρ : Type} {threads : List (Thread σ ι ε ρ)}
    {sort : Thread σ ι ε ρ → Bool}
    (hunused : ∀ pid, threads.length ≤ pid → own pid history = [])
    (hthreads : ∀ pid thread, threads[pid]? = some thread →
      (own pid history).countP kind = if sort thread then 1 else 0) :
    threads.countP sort = count kind history := by
  rw [countP_eq_sum_range hthreads]
  symm
  apply count_eq_sum
  intro entry hentry
  by_contra hge
  have hnone := hunused entry.1 (by omega)
  have hmem : entry.2 ∈ own entry.1 history := mem_own.2 hentry
  rw [hnone] at hmem
  cases hmem

end History
