import Mathlib.Algebra.Order.Ring.Int
import Mathlib.Data.List.Induction

/-!
# Records of a sequence

An item of a sequence is a record if its rank is greater than that of every item
before it. A register that keeps the newest item and drops what is not newer
sees the records only: writing a sequence leaves what writing its records
leaves. Of two items with one rank the first to arrive is the record.

## Main definitions

* `Newest.records` — the records of a sequence, in its order
* `Newest.absorb` — a register that drops what is not newer than what it has

## Main results

* `getLast_records_max` — the last record has the greatest rank
* `foldl_absorb` — a register is determined by the records
-/

namespace Newest

variable {α β : Type*} {rank : α → ℤ} {items : List α} {item last : α}

/-- The items that are newer than the last record before them. -/
def records (rank : α → ℤ) (items : List α) : List α :=
  items.foldl (fun past item =>
    if past.getLast?.all fun last => rank last < rank item then past ++ [item] else past) []

@[simp] theorem records_nil : records rank [] = [] := rfl

theorem records_concat_of_last (item : α) :
    records rank (items ++ [item]) =
      if (records rank items).getLast?.all fun last => rank last < rank item
      then records rank items ++ [item] else records rank items := by
  rw [records, List.foldl_append]
  rfl

theorem records_ne_nil (hitems : items ≠ []) : records rank items ≠ [] := by
  induction items using List.reverseRecOn with
  | nil => exact absurd rfl hitems
  | append_singleton past item ih =>
      rw [records_concat_of_last]
      split
      next => simp
      next hstale =>
        intro hnone
        rw [hnone] at hstale
        exact hstale rfl

/-- The last record has the greatest rank. -/
theorem getLast_records_max (hlast : (records rank items).getLast? = some last) (hitem : item ∈ items) :
    rank item ≤ rank last := by
  induction items using List.reverseRecOn generalizing last with
  | nil => simp at hitem
  | append_singleton past new ih =>
      rw [records_concat_of_last] at hlast
      split at hlast
      next hnewer =>
        obtain rfl : new = last := by simpa using hlast
        rcases List.mem_append.1 hitem with hpast | hnew
        · cases hold : (records rank past).getLast? with
          | none =>
              have hempty := List.getLast?_eq_none_iff.1 hold
              exact absurd hempty (records_ne_nil (List.ne_nil_of_mem hpast))
          | some old =>
              have hlt : rank old < rank new := by simpa [hold] using hnewer
              exact (ih hold hpast).trans hlt.le
        · rw [List.mem_singleton.1 hnew]
      next hstale =>
        rcases List.mem_append.1 hitem with hpast | hnew
        · exact ih hlast hpast
        · have hle : rank new ≤ rank last := by simpa [hlast] using hstale
          rwa [List.mem_singleton.1 hnew]

/-! ### Registers -/

/-- A register with the rank of what it has: an item that is not newer is dropped. -/
def absorb (rank : α → ℤ) (stamp : β → ℤ) (write : Option β → α → β) (register : Option β)
    (item : α) : Option β :=
  if register.all fun value => stamp value < rank item then some (write register item) else register

/-- A register is determined by the records of what it was sent. -/
theorem foldl_absorb (rank : α → ℤ) (stamp : β → ℤ) (write : Option β → α → β)
    (hstamp : ∀ register item, stamp (write register item) = rank item) (items : List α) :
    items.foldl (absorb rank stamp write) none =
        (records rank items).foldl (fun register item => some (write register item)) none ∧
      ((items.foldl (absorb rank stamp write) none).map stamp) =
        (records rank items).getLast?.map rank := by
  induction items using List.reverseRecOn with
  | nil => exact ⟨rfl, rfl⟩
  | append_singleton past item ih =>
      obtain ⟨hvalue, hrank⟩ := ih
      have hnewer : ((past.foldl (absorb rank stamp write) none).all fun value =>
            stamp value < rank item) =
          (records rank past).getLast?.all fun last => rank last < rank item := by
        have hall := congrArg (fun newest : Option ℤ => newest.all fun at_ => at_ < rank item) hrank
        simpa [Option.all_map] using hall
      rw [List.foldl_append, List.foldl_cons, List.foldl_nil, records_concat_of_last, absorb, hnewer]
      split
      · rw [List.foldl_append, ← hvalue]
        simp [hstamp]
      · exact ⟨hvalue, hrank⟩

end Newest
