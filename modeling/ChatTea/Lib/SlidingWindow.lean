import ChatTea.Lib.Pointwise
import Mathlib.Algebra.Order.Group.Abs
import Mathlib.Data.List.Forall2
import Mathlib.Data.Nat.Notation

/-!
# Quotas on sliding windows

Items are admitted one at a time, each under a limit on the items of its kind that are
less than a length older, those with a later time counted too. Then no window of that
length has more items of the kind than the limit, whatever order the times come in. The
windows are closed where the items that are just a length older are counted as well.

Items may also be admitted under a limit on those that are alive. Then no more are alive
at any time that is not before the times of them all.

## Main definitions

* `inWindow` — the half-open window of a length
* `Bounded` — a limit on the items of a kind in every window
* `BoundedClosed` — the same for closed windows
* `LiveBounded` — a limit on the items of a kind that are alive
* `Spaced` — related items are some time apart

## Main results

* `Bounded.append`, `BoundedClosed.append`, `LiveBounded.append`, `Spaced.append` — an item
  that is admitted under the limit keeps it
-/

namespace SlidingWindow

variable {α β τ : Type} [AddCommGroup τ] [LinearOrder τ]
  {time : α → τ} {kind : α → Bool} {related : α → α → Prop} {length gap : τ} {limit : ℕ}
  {items fewer : List α} {new : α}

/-- The item is in the half-open window that begins at a time. -/
def inWindow (time : α → τ) (start length : τ) (item : α) : Bool :=
  start ≤ time item ∧ time item < start + length

/-- No window has more items of the kind than the limit. -/
def Bounded (time : α → τ) (kind : α → Bool) (length : τ) (limit : ℕ) (items : List α) : Prop :=
  ∀ start, (items.countP fun item => kind item && inWindow time start length item) ≤ limit

/-- Related items are some time apart. -/
def Spaced (time : α → τ) (related : α → α → Prop) (gap : τ) (items : List α) : Prop :=
  items.Pairwise fun item later => related item later → gap ≤ |time later - time item|

theorem Bounded.nil : Bounded time kind length limit [] := fun _ => Nat.zero_le _

theorem Bounded.sublist (h : Bounded time kind length limit items) (hfewer : fewer.Sublist items) :
    Bounded time kind length limit fewer :=
  fun start => hfewer.countP_le.trans (h start)

/-- The limit may be checked on what of the items matters for it. -/
theorem bounded_map (read : β → α) {rows : List β} :
    Bounded time kind length limit (rows.map read) ↔
      Bounded (fun row => time (read row)) (fun row => kind (read row)) length limit rows := by
  refine forall_congr' fun start => ?_
  rw [List.countP_map]
  rfl

/-- Items in a window with a new one are less than its length older. -/
theorem lt_of_inWindow [IsOrderedAddMonoid τ] {start : τ} {item : α} (hitem : inWindow time start length item)
    (hnew : inWindow time start length new) : time new - length < time item := by
  have hstart : start ≤ time item := (of_decide_eq_true hitem).1
  have hend : time new < start + length := (of_decide_eq_true hnew).2
  exact (sub_lt_iff_lt_add.2 hend).trans_le hstart

/-- An item that is admitted when fewer than the limit are less than a length older. -/
theorem Bounded.append [IsOrderedAddMonoid τ] (h : Bounded time kind length limit items)
    (hnew : kind new →
      (items.countP fun item => kind item && decide (time new - length < time item)) < limit) :
    Bounded time kind length limit (items ++ [new]) := by
  intro start
  rw [List.countP_append, List.countP_singleton]
  split
  · rename_i hcounts
    obtain ⟨hkind, hwindow⟩ := Bool.and_eq_true_iff.1 hcounts
    -- All items in the window with the new one were counted when it was admitted.
    have hle : (items.countP fun item => kind item && inWindow time start length item) ≤
        items.countP fun item => kind item && decide (time new - length < time item) := by
      refine List.countP_mono_left fun item _ hitem => ?_
      obtain ⟨hsame, hin⟩ := Bool.and_eq_true_iff.1 hitem
      exact Bool.and_eq_true_iff.2 ⟨hsame, decide_eq_true (lt_of_inWindow hin hwindow)⟩
    have hlt := hnew hkind
    omega
  · rw [Nat.add_zero]
    exact h start

/-! ### Closed windows -/

/-- The item is in the closed window that begins at a time. -/
def inClosedWindow (time : α → τ) (start length : τ) (item : α) : Bool :=
  start ≤ time item ∧ time item ≤ start + length

/-- No closed window has more items of the kind than the limit. -/
def BoundedClosed (time : α → τ) (kind : α → Bool) (length : τ) (limit : ℕ) (items : List α) : Prop :=
  ∀ start, (items.countP fun item => kind item && inClosedWindow time start length item) ≤ limit

theorem BoundedClosed.nil : BoundedClosed time kind length limit [] := fun _ => Nat.zero_le _

/-- Items in a closed window with a new one are at most its length older. -/
theorem le_of_inClosedWindow [IsOrderedAddMonoid τ] {start : τ} {item : α}
    (hitem : inClosedWindow time start length item) (hnew : inClosedWindow time start length new) :
    time new - length ≤ time item := by
  have hstart : start ≤ time item := (of_decide_eq_true hitem).1
  have hend : time new ≤ start + length := (of_decide_eq_true hnew).2
  exact (sub_le_iff_le_add.2 hend).trans hstart

/-- An item that is admitted when fewer than the limit are at most a length older. -/
theorem BoundedClosed.append [IsOrderedAddMonoid τ] (h : BoundedClosed time kind length limit items)
    (hnew : kind new →
      (items.countP fun item => kind item && decide (time new - length ≤ time item)) < limit) :
    BoundedClosed time kind length limit (items ++ [new]) := by
  intro start
  rw [List.countP_append, List.countP_singleton]
  split
  · rename_i hcounts
    obtain ⟨hkind, hwindow⟩ := Bool.and_eq_true_iff.1 hcounts
    have hle : (items.countP fun item => kind item && inClosedWindow time start length item) ≤
        items.countP fun item => kind item && decide (time new - length ≤ time item) := by
      apply List.countP_mono_left
      intro item _ hitem
      obtain ⟨hsame, hin⟩ := Bool.and_eq_true_iff.1 hitem
      exact Bool.and_eq_true_iff.2 ⟨hsame, decide_eq_true (le_of_inClosedWindow hin hwindow)⟩
    have hlt := hnew hkind
    omega
  · rw [Nat.add_zero]
    exact h start

/-! ### Items that are alive -/

/-- At every time that is not before those of the items of the kind, no more of them are
alive than the limit. -/
def LiveBounded (time : α → τ) (kind : α → Bool) (live : τ → α → Bool) (limit : ℕ)
    (items : List α) : Prop :=
  ∀ now, (∀ item ∈ items, kind item → time item ≤ now) →
    (items.countP fun item => kind item && live now item) ≤ limit

variable {live : τ → α → Bool} {step : α → α → Prop} {after : List α}

omit [AddCommGroup τ] in
theorem LiveBounded.nil : LiveBounded time kind live limit [] := fun _ _ => Nat.zero_le _

omit [AddCommGroup τ] in
/-- Items keep their times and kinds in their steps, and none comes back to life. -/
theorem LiveBounded.steps (h : LiveBounded time kind live limit items)
    (hsteps : List.Forall₂ step items after)
    (hstep : ∀ {item item'}, step item item' → time item' = time item ∧ kind item' = kind item ∧
      ∀ now, live now item' → live now item) :
    LiveBounded time kind live limit after := by
  intro now hnow
  have hold : ∀ item ∈ items, kind item → time item ≤ now := by
    intro item hitem hkind
    obtain ⟨item', hitem', hmoved⟩ := Pointwise.exists_after hsteps hitem
    obtain ⟨htime, hsame, -⟩ := hstep hmoved
    rw [← htime]
    exact hnow item' hitem' (by rwa [hsame])
  refine (Pointwise.countP_le hsteps fun hmoved hcounts => ?_).trans (h now hold)
  obtain ⟨-, hsame, hlive⟩ := hstep hmoved
  obtain ⟨hkind, halive⟩ := Bool.and_eq_true_iff.1 hcounts
  exact Bool.and_eq_true_iff.2 ⟨hsame ▸ hkind, hlive now halive⟩

omit [AddCommGroup τ] in
/-- An item that is admitted when fewer than the limit are alive. -/
theorem LiveBounded.append (h : LiveBounded time kind live limit items)
    (hlive : ∀ {item now later}, now ≤ later → live later item → live now item)
    (hnew : kind new → (items.countP fun item => kind item && live (time new) item) < limit) :
    LiveBounded time kind live limit (items ++ [new]) := by
  intro now hnow
  have hold : ∀ item ∈ items, kind item → time item ≤ now :=
    fun item hitem => hnow item (List.mem_append_left _ hitem)
  rw [List.countP_append, List.countP_singleton]
  split
  · rename_i hcounts
    have hkind : kind new := (Bool.and_eq_true_iff.1 hcounts).1
    have hadmitted : time new ≤ now := hnow new (by simp) hkind
    -- What is alive now was alive when the new item was admitted.
    have hle : (items.countP fun item => kind item && live now item) ≤
        items.countP fun item => kind item && live (time new) item := by
      apply List.countP_mono_left
      intro item _ hitem
      obtain ⟨hsame, halive⟩ := Bool.and_eq_true_iff.1 hitem
      exact Bool.and_eq_true_iff.2 ⟨hsame, hlive hadmitted halive⟩
    have hlt := hnew hkind
    omega
  · rw [Nat.add_zero]
    exact h now hold

/-! ### Gaps -/

theorem Spaced.nil : Spaced time related gap [] := List.Pairwise.nil

theorem Spaced.sublist (h : Spaced time related gap items) (hfewer : fewer.Sublist items) :
    Spaced time related gap fewer := List.Pairwise.sublist hfewer h

theorem spaced_map (read : β → α) {rows : List β} :
    Spaced time related gap (rows.map read) ↔
      Spaced (fun row => time (read row)) (fun row row' => related (read row) (read row')) gap
        rows :=
  List.pairwise_map

/-- An item that is admitted some time after all that are related to it. -/
theorem Spaced.append (h : Spaced time related gap items)
    (hnew : ∀ item ∈ items, related item new → gap ≤ time new - time item) :
    Spaced time related gap (items ++ [new]) := by
  refine List.pairwise_append.2 ⟨h, List.pairwise_singleton _ _, fun item hitem later hlater => ?_⟩
  obtain rfl := List.mem_singleton.1 hlater
  exact fun hrelated => (hnew item hitem hrelated).trans (le_abs_self _)

end SlidingWindow
