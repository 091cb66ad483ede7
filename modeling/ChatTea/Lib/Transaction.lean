import Mathlib.Data.List.Forall2
import Mathlib.Data.List.Induction
import Mathlib.Tactic.Cases

/-!
# Runs of atomic calls

A call is an atomic transaction: it either returns a result together with the
state it commits, or throws, and then the state it started from stands. A run
executes a list of requests one after the other. Its invariants are proved from
the successful calls alone.

## Main definitions

* `Transaction.Call` — a transaction over the state
* `Transaction.require`, `Transaction.throwIf` — its guards
* `Transaction.commit` — the state after a call, thrown or not
* `Transaction.run`, `Transaction.replies` — the state after a list of requests, and what they return
* `Transaction.Along` — what every request of a run meets

## Main results

* `commit_of_error` — a call that throws changes nothing
* `run_invariant` — what every successful call preserves holds after every run
* `run_map_of_along`, `along_of_replies` — requests that are executed alike make up the same run
* `run_history` — the same for a relation between the requests so far and the
  state, where also a thrown request extends the history
-/

namespace Transaction

universe u

variable {σ ε ι : Type*} {α β : Type u}

/-- An atomic transaction: a result and the committed state, or a failure. -/
abbrev Call (σ ε α : Type*) := σ → Except ε (α × σ)

/-- The state after a call: what it committed, or the old state if it threw. -/
def commit (call : Call σ ε α) (state : σ) : σ :=
  match call state with
  | .ok (_, committed) => committed
  | .error _ => state

/-- The state after a list of requests. -/
def run (exec : ι → Call σ ε α) (requests : List ι) (state : σ) : σ :=
  requests.foldl (fun state request => commit (exec request) state) state

section Guards

variable {failure : ε} {cond : Prop} [Decidable cond]

/-- Go on only if a condition holds. -/
def require (failure : ε) (cond : Prop) [Decidable cond] : Except ε Unit :=
  if cond then .ok () else .error failure

/-- `if (cond) throw failure`. -/
def throwIf (failure : ε) (cond : Prop) [Decidable cond] : Except ε Unit :=
  if cond then .error failure else .ok ()

@[simp] theorem require_eq_ok_iff {done : Unit} : require failure cond = .ok done ↔ cond := by
  unfold require
  by_cases hcond : cond <;> simp [hcond]

@[simp] theorem throwIf_eq_ok_iff {done : Unit} : throwIf failure cond = .ok done ↔ ¬ cond := by
  unfold throwIf
  by_cases hcond : cond <;> simp [hcond]

@[simp] theorem require_eq_error_iff {thrown : ε} :
    (require failure cond : Except ε Unit) = .error thrown ↔ ¬ cond ∧ failure = thrown := by
  unfold require
  by_cases hcond : cond <;> simp [hcond]

@[simp] theorem throwIf_eq_error_iff {thrown : ε} :
    (throwIf failure cond : Except ε Unit) = .error thrown ↔ cond ∧ failure = thrown := by
  unfold throwIf
  by_cases hcond : cond <;> simp [hcond]

theorem require_of (hcond : cond) : require failure cond = .ok () := require_eq_ok_iff.2 hcond

theorem throwIf_of_not (hcond : ¬ cond) : throwIf failure cond = .ok () :=
  throwIf_eq_ok_iff.2 hcond

/-- A sequence of statements returns exactly when each of them does. -/
theorem bind_eq_ok_iff {first : Except ε α} {rest : α → Except ε β} {result : β} :
    (first >>= rest) = .ok result ↔ ∃ value, first = .ok value ∧ rest value = .ok result := by
  cases first with
  | ok value => simp [bind, Except.bind]
  | error failure => simp [bind, Except.bind]

/-- A sequence of statements throws exactly when one of them does. -/
theorem bind_eq_error_iff {first : Except ε α} {rest : α → Except ε β} :
    (first >>= rest) = .error failure ↔
      first = .error failure ∨ ∃ value, first = .ok value ∧ rest value = .error failure := by
  cases first with
  | ok value => simp [bind, Except.bind]
  | error failure => simp [bind, Except.bind]

/-- What follows a statement matters only where the statement returns. -/
theorem bind_congr_ok {first : Except ε α} {rest rest' : α → Except ε β}
    (h : ∀ value, first = .ok value → rest value = rest' value) :
    (first >>= rest) = (first >>= rest') := by
  cases first with
  | ok value => exact h value rfl
  | error failure => rfl

theorem pure_eq_ok_iff {value result : α} :
    (pure value : Except ε α) = .ok result ↔ value = result := by
  simp [pure, Except.pure]

/-- What every round of a loop preserves holds after it. -/
theorem foldlM_ok (Invariant : β → Prop) {f : β → α → Except ε β} {rows : List α} {start result : β}
    (hstart : Invariant start)
    (hstep : ∀ row ∈ rows, ∀ before after, Invariant before → f before row = .ok after →
      Invariant after) (h : rows.foldlM f start = .ok result) : Invariant result := by
  induction rows generalizing start with
  | nil =>
      obtain rfl := pure_eq_ok_iff.1 h
      exact hstart
  | cons row rows ih =>
      rw [List.foldlM_cons] at h
      obtain ⟨next, hnext, hrest⟩ := bind_eq_ok_iff.1 h
      have hinv := hstep row List.mem_cons_self start next hstart hnext
      exact ih hinv (fun other hother => hstep other (List.mem_cons_of_mem _ hother)) hrest

/-- A loop that collects keys returns if each round can add its own to those collected. -/
theorem exists_foldlM {κ : Type*} {f : β → α → Except ε β} (keys : β → List κ) {key : α → κ}
    {rows : List α} {start : β}
    (hstep : ∀ before row, row ∈ rows → key row ∉ keys before →
      ∃ after, f before row = .ok after ∧ keys after = keys before ++ [key row])
    (hdistinct : (keys start ++ rows.map key).Nodup) :
    ∃ after, rows.foldlM f start = .ok after ∧ keys after = keys start ++ rows.map key := by
  induction rows generalizing start with
  | nil => exact ⟨start, rfl, (List.append_nil _).symm⟩
  | cons row rows ih =>
      have hnew : key row ∉ keys start := fun hmem =>
        (List.nodup_append.1 hdistinct).2.2 _ hmem _ List.mem_cons_self rfl
      obtain ⟨next, hnext, hkeys⟩ := hstep start row List.mem_cons_self hnew
      have hsplit : keys next ++ rows.map key = keys start ++ (row :: rows).map key := by
        rw [hkeys, List.append_assoc]
        rfl
      obtain ⟨after, hafter, hkeys'⟩ := ih
        (fun before other hother => hstep before other (List.mem_cons_of_mem _ hother))
        (by rwa [hsplit])
      refine ⟨after, ?_, hkeys'.trans hsplit⟩
      rw [List.foldlM_cons]
      exact bind_eq_ok_iff.2 ⟨next, hnext, hafter⟩

theorem exists_mapM {f : α → Except ε β} {rows : List α}
    (h : ∀ row ∈ rows, ∃ result, f row = .ok result) : ∃ results, rows.mapM f = .ok results := by
  induction rows with
  | nil => exact ⟨[], rfl⟩
  | cons row rows ih =>
      obtain ⟨first, hfirst⟩ := h row List.mem_cons_self
      obtain ⟨rest, hrest⟩ := ih fun other hother => h other (List.mem_cons_of_mem _ hother)
      refine ⟨first :: rest, ?_⟩
      rw [List.mapM_cons]
      exact bind_eq_ok_iff.2 ⟨first, hfirst, bind_eq_ok_iff.2 ⟨rest, hrest, rfl⟩⟩

/-- A loop returns the results of its rounds, in their order. -/
theorem mapM_eq_ok_iff {f : α → Except ε β} {rows : List α} {results : List β} :
    rows.mapM f = .ok results ↔ List.Forall₂ (fun row result => f row = .ok result) rows results := by
  induction rows generalizing results with
  | nil =>
      rw [List.mapM_nil, pure_eq_ok_iff, List.forall₂_nil_left_iff]
      exact eq_comm
  | cons row rows ih =>
      rw [List.mapM_cons, bind_eq_ok_iff, List.forall₂_cons_left_iff]
      constructor
      · rintro ⟨first, hfirst, h⟩
        obtain ⟨rest, hrest, h⟩ := bind_eq_ok_iff.1 h
        exact ⟨first, rest, hfirst, ih.1 hrest, (pure_eq_ok_iff.1 h).symm⟩
      · rintro ⟨first, rest, hfirst, hrest, rfl⟩
        exact ⟨first, hfirst, bind_eq_ok_iff.2 ⟨rest, ih.2 hrest, rfl⟩⟩

end Guards

section Commit

variable {call : Call σ ε α} {state committed : σ} {result : α} {failure : ε}

theorem commit_of_ok (h : call state = .ok (result, committed)) : commit call state = committed := by
  simp [commit, h]

/-- A call that throws changes nothing. -/
theorem commit_of_error (h : call state = .error failure) : commit call state = state := by
  simp [commit, h]

theorem commit_cases (call : Call σ ε α) (state : σ) :
    (∃ result, call state = .ok (result, commit call state)) ∨
      (∃ failure, call state = .error failure) ∧ commit call state = state := by
  cases hcall : call state with
  | ok outcome => exact Or.inl ⟨outcome.1, by simp [commit, hcall]⟩
  | error failure => exact Or.inr ⟨⟨failure, rfl⟩, commit_of_error hcall⟩

end Commit

section Run

variable {exec : ι → Call σ ε α} {requests : List ι} {state : σ}

@[simp] theorem run_nil : run exec [] state = state := rfl

theorem run_concat (request : ι) :
    run exec (requests ++ [request]) state = commit (exec request) (run exec requests state) := by
  simp [run]

@[simp] theorem run_cons (request : ι) :
    run exec (request :: requests) state = run exec requests (commit (exec request) state) := rfl

/-- What the requests of a run return, where none stands for an error. -/
def replies (exec : ι → Call σ ε α) : List ι → σ → List (Option α)
  | [], _ => []
  | request :: requests, state =>
      (exec request state).toOption.map Prod.fst :: replies exec requests (commit (exec request) state)

/-- A condition that every request of a run meets in the state it is executed in. -/
def Along (exec : ι → Call σ ε α) (cond : ι → σ → Prop) : List ι → σ → Prop
  | [], _ => True
  | request :: requests, state =>
      cond request state ∧ Along exec cond requests (commit (exec request) state)

/-- Errors apart, two calls do the same. -/
def Same (call call' : Call σ ε α) (state : σ) : Prop :=
  (call state).toOption = (call' state).toOption

/-- Calls that return alike are the same. -/
theorem Same.of_ok {call call' : Call σ ε α} (h : ∀ outcome, call state = .ok outcome ↔
    call' state = .ok outcome) : Same call call' state := by
  unfold Same
  cases hcall : call state with
  | ok outcome => rw [(h outcome).1 hcall]
  | error failure =>
      cases hcall' : call' state with
      | ok outcome =>
          rw [(h outcome).2 hcall'] at hcall
          cases hcall
      | error failure' => rfl

/-- What is made of the results does not matter. -/
theorem Same.map {call call' : Call σ ε α} {f : α × σ → β × σ}
    (h : ∀ outcome, call state = .ok outcome ↔ call' state = .ok outcome) :
    Same (fun state => (call state).map f) (fun state => (call' state).map f) state := by
  have hmap (outcome : Except ε (α × σ)) : (outcome.map f).toOption = outcome.toOption.map f := by
    cases outcome <;> rfl
  calc ((call state).map f).toOption
      _ = (call state).toOption.map f := hmap _
      _ = (call' state).toOption.map f := congrArg (Option.map f) (Same.of_ok h)
      _ = ((call' state).map f).toOption := (hmap _).symm

theorem commit_eq_getD (call : Call σ ε α) (state : σ) :
    commit call state = ((call state).toOption.map Prod.snd).getD state := by
  unfold commit
  cases call state <;> rfl

theorem Same.commit_eq {call call' : Call σ ε α} (h : Same call call' state) :
    commit call state = commit call' state := by
  rw [commit_eq_getD, commit_eq_getD, h]

/-- Requests that are executed alike, one after the other, make up the same run. -/
theorem run_map_of_along {translate : ι → ι} {cond : ι → σ → Prop} {Invariant : σ → Prop}
    (hsame : ∀ request state, Invariant state → cond request state →
      Same (exec request) (exec (translate request)) state)
    (hstep : ∀ request before, Invariant before → cond request before →
      Invariant (commit (exec request) before))
    (hstart : Invariant state) (halong : Along exec cond requests state) :
    replies exec requests state = replies exec (requests.map translate) state ∧
      run exec requests state = run exec (requests.map translate) state ∧
      Invariant (run exec requests state) := by
  induction requests generalizing state with
  | nil => exact ⟨rfl, rfl, hstart⟩
  | cons request requests ih =>
      obtain ⟨hcond, halong⟩ := halong
      have hcalls := hsame request state hstart hcond
      obtain ⟨hreplies, hrun, hend⟩ := ih (hstep request state hstart hcond) halong
      rw [hcalls.commit_eq] at hreplies hrun
      refine ⟨?_, ?_, hend⟩
      · rw [List.map_cons, replies, replies, hcalls.commit_eq, hreplies, hcalls]
      · rw [List.map_cons, run_cons, run_cons, hcalls.commit_eq, hrun]

/-- Runs that return alike meet a condition without which the replies to a request differ. -/
theorem along_of_replies {translate : ι → ι} {cond : ι → σ → Prop} {Invariant : σ → Prop}
    (hsame : ∀ request state, Invariant state → cond request state →
      Same (exec request) (exec (translate request)) state)
    (hstep : ∀ request before, Invariant before → cond request before →
      Invariant (commit (exec request) before))
    (hdiffers : ∀ request state, Invariant state → ¬ cond request state →
      (exec request state).toOption.map Prod.fst ≠
        (exec (translate request) state).toOption.map Prod.fst)
    (hstart : Invariant state)
    (hreplies : replies exec requests state = replies exec (requests.map translate) state) :
    Along exec cond requests state := by
  induction requests generalizing state with
  | nil => trivial
  | cons request requests ih =>
      rw [List.map_cons, replies, replies] at hreplies
      obtain ⟨hhead, htail⟩ := List.cons.inj hreplies
      have hcond : cond request state := by
        by_contra hcond
        exact hdiffers request state hstart hcond hhead
      rw [← (hsame request state hstart hcond).commit_eq] at htail
      exact ⟨hcond, ih (hstep request state hstart hcond) htail⟩

/-- A relation between the requests so far and the state holds after every run
when it holds at the start, and every request, thrown or not, extends it. -/
theorem run_history (History : List ι → σ → Prop) (hstart : History [] state)
    (hok : ∀ past request before result after, request ∈ requests → History past before →
      exec request before = .ok (result, after) → History (past ++ [request]) after)
    (herror : ∀ past request before failure, request ∈ requests → History past before →
      exec request before = .error failure → History (past ++ [request]) before) :
    History requests (run exec requests state) := by
  -- Induct on the past, keeping every request of it among `requests`.
  suffices hpast : ∀ past, past ⊆ requests → History past (run exec past state) from
    hpast requests (List.Subset.refl _)
  intro past
  induction past using List.reverseRecOn with
  | nil => exact fun _ => hstart
  | append_singleton past request ih =>
      intro hsubset
      have hrequest : request ∈ requests := hsubset (by simp)
      have hbefore := ih fun r hr => hsubset (by simp [hr])
      rw [run_concat]
      rcases commit_cases (exec request) (run exec past state) with
        ⟨result, hcall⟩ | ⟨⟨failure, hcall⟩, hstate⟩
      · exact hok past request _ result _ hrequest hbefore hcall
      · rw [hstate]
        exact herror past request _ failure hrequest hbefore hcall

/-- What every successful call preserves holds after every run. -/
theorem run_invariant {Invariant : σ → Prop} (hstart : Invariant state)
    (hstep : ∀ request before result after, Invariant before →
      exec request before = .ok (result, after) → Invariant after) (requests : List ι) :
    Invariant (run exec requests state) :=
  run_history (fun _ => Invariant) hstart
    (fun _ request before result after _ => hstep request before result after)
    (fun _ _ _ _ _ hbefore _ => hbefore)

end Run

end Transaction
