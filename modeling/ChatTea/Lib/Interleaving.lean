import Mathlib.Data.Nat.Notation
import Mathlib.Logic.Relation
import Mathlib.Tactic.Cases

/-!
# Programs that run interleaved over a shared state

A program is a tree of atomic steps on a shared state. Requests arrive at any
time, each starts its own thread, and the threads take their steps in any order,
between steps of the environment; a thread may also stop for good at any step.
Properties of every run are proved one program at a time: a program is checked
against a *rely* (what the other threads may do between its steps) and a
*guarantee* (what each of its own steps does).

## Main definitions

* `Interleaving.Prog` — a program, with failures and forks
* `Interleaving.Prog.Takes` — every step of a program is of one kind
* `Interleaving.System` — the programs, the requests that may arrive, the environment
* `Interleaving.Step`, `Interleaving.Reachable` — the runs of a system
* `Interleaving.Logic` — an invariant with its relies and guarantees
* `Interleaving.Logic.Holds` — a program meets its postconditions under interference

## Main results

* `Logic.Holds.bind`, `Logic.Holds.tryCatch`, `Logic.holds_step`,
  `Logic.holds_fork` — one rule for each way to build a program
* `Logic.holds_of_takes` — a program whose steps are all of a kind that keeps the invariant
* `Logic.Sound.reachable` — in every reachable configuration the invariant holds and
  every thread still meets its postconditions
* `Logic.Sound.preserves` — an invariant of a restricted run, from the guarantees
* `Logic.Sound.serves` — what the steps of each thread preserve for its request
* `Logic.Sound.guarantee`, `Logic.Sound.step_cases` — every step of a run keeps the guarantee of
  its thread
-/

namespace Interleaving

variable {σ ι ε ρ α β : Type}

/-- A program over a shared state `σ` that may fork the requests `ι`, fail with
an `ε` and return an `α`. An atomic step knows the thread that takes it. -/
inductive Prog (σ ι ε α : Type) : Type 1
  | done (value : α)
  | fail (failure : ε)
  | step {β : Type} (act : ℕ → σ → β → σ → Prop) (next : β → Prog σ ι ε α)
  | fork (request : ι) (next : Prog σ ι ε α)
  | stopped

namespace Prog

def bind : Prog σ ι ε α → (α → Prog σ ι ε β) → Prog σ ι ε β
  | .done value, rest => rest value
  | .fail failure, _ => .fail failure
  | .step act next, rest => .step act fun reply => (next reply).bind rest
  | .fork request next, rest => .fork request (next.bind rest)
  | .stopped, _ => .stopped

def tryCatch : Prog σ ι ε α → (ε → Prog σ ι ε α) → Prog σ ι ε α
  | .done value, _ => .done value
  | .fail failure, handler => handler failure
  | .step act next, handler => .step act fun reply => (next reply).tryCatch handler
  | .fork request next, handler => .fork request (next.tryCatch handler)
  | .stopped, _ => .stopped

instance : Monad (Prog σ ι ε) where
  pure := .done
  bind := bind

instance : MonadExcept ε (Prog σ ι ε) where
  throw := .fail
  tryCatch := tryCatch

/-- An atomic step that returns its reply. -/
def atomic (act : ℕ → σ → β → σ → Prop) : Prog σ ι ε β := .step act .done

/-- An atomic step that returns or throws its reply. -/
def attempt (act : ℕ → σ → Except ε β → σ → Prop) : Prog σ ι ε β :=
  .step act fun
    | .ok value => .done value
    | .error failure => .fail failure

/-- Any value at all: a clock reading, the answer of an outside service. -/
def anything (β : Type) : Prog σ ι ε β := atomic fun _ before _ after => after = before

/-- Start a thread for every request of a list. -/
def forkAll : List ι → Prog σ ι ε Unit
  | [] => .done ()
  | request :: requests => .fork request (forkAll requests)

/-- Every step the program may take is of a kind, whatever the replies to the earlier ones. -/
def Takes (kind : σ → σ → Prop) (pid : ℕ) : Prog σ ι ε α → Prop
  | .done _ => True
  | .fail _ => True
  | .step act next =>
      (∀ before reply after, act pid before reply after → kind before after) ∧
        ∀ reply, (next reply).Takes kind pid
  | .fork _ next => next.Takes kind pid
  | .stopped => True

namespace Takes

variable {kind kind' : σ → σ → Prop} {pid : ℕ} {program : Prog σ ι ε α} {rest : α → Prog σ ι ε β}

theorem bind (h : program.Takes kind pid) (hrest : ∀ value, (rest value).Takes kind pid) :
    (program >>= rest).Takes kind pid := by
  change (program.bind rest).Takes kind pid
  induction program with
  | done value => exact hrest value
  | fail failure => trivial
  | step act next ih => exact ⟨h.1, fun reply => ih reply (h.2 reply)⟩
  | fork request next ih => exact ih h
  | stopped => trivial

theorem tryCatch {handler : ε → Prog σ ι ε α} (h : program.Takes kind pid)
    (hhandler : ∀ failure, (handler failure).Takes kind pid) :
    Takes kind pid (MonadExcept.tryCatch program handler) := by
  change (program.tryCatch handler).Takes kind pid
  induction program with
  | done value => trivial
  | fail failure => exact hhandler failure
  | step act next ih => exact ⟨h.1, fun reply => ih reply (h.2 reply)⟩
  | fork request next ih => exact ih h
  | stopped => trivial

theorem attempt {act : ℕ → σ → Except ε β → σ → Prop}
    (h : ∀ before reply after, act pid before reply after → kind before after) :
    (Prog.attempt act : Prog σ ι ε β).Takes kind pid := by
  refine ⟨h, fun reply => ?_⟩
  cases reply <;> trivial

theorem anything (hkind : ∀ s, kind s s) : (Prog.anything β : Prog σ ι ε β).Takes kind pid := by
  refine ⟨?_, fun _ => trivial⟩
  intro before reply after hact
  rw [hact]
  exact hkind before

theorem forkAll (requests : List ι) : (Prog.forkAll requests : Prog σ ι ε Unit).Takes kind pid := by
  induction requests with
  | nil => trivial
  | cons request requests ih => exact ih

end Takes

/-- Every step the program may take is of a kind, and it starts no other thread. -/
def Stays (kind : σ → σ → Prop) (pid : ℕ) : Prog σ ι ε α → Prop
  | .done _ => True
  | .fail _ => True
  | .step act next =>
      (∀ before reply after, act pid before reply after → kind before after) ∧
        ∀ reply, (next reply).Stays kind pid
  | .fork _ _ => False
  | .stopped => True

namespace Stays

variable {kind : σ → σ → Prop} {pid : ℕ} {program : Prog σ ι ε α} {rest : α → Prog σ ι ε β}

theorem takes (h : program.Stays kind pid) : program.Takes kind pid := by
  induction program with
  | done value => trivial
  | fail failure => trivial
  | step act next ih => exact ⟨h.1, fun reply => ih reply (h.2 reply)⟩
  | fork request next ih => exact h.elim
  | stopped => trivial

theorem bind (h : program.Stays kind pid) (hrest : ∀ value, (rest value).Stays kind pid) :
    (program >>= rest).Stays kind pid := by
  change (program.bind rest).Stays kind pid
  induction program with
  | done value => exact hrest value
  | fail failure => trivial
  | step act next ih => exact ⟨h.1, fun reply => ih reply (h.2 reply)⟩
  | fork request next ih => exact h
  | stopped => trivial

theorem tryCatch {handler : ε → Prog σ ι ε α} (h : program.Stays kind pid)
    (hhandler : ∀ failure, (handler failure).Stays kind pid) :
    Stays kind pid (MonadExcept.tryCatch program handler) := by
  change (program.tryCatch handler).Stays kind pid
  induction program with
  | done value => trivial
  | fail failure => exact hhandler failure
  | step act next ih => exact ⟨h.1, fun reply => ih reply (h.2 reply)⟩
  | fork request next ih => exact h
  | stopped => trivial

theorem attempt {act : ℕ → σ → Except ε β → σ → Prop}
    (h : ∀ before reply after, act pid before reply after → kind before after) :
    (Prog.attempt act : Prog σ ι ε β).Stays kind pid := by
  refine ⟨h, fun reply => ?_⟩
  cases reply <;> trivial

theorem anything (hkind : ∀ s, kind s s) : (Prog.anything β : Prog σ ι ε β).Stays kind pid := by
  refine ⟨?_, fun _ => trivial⟩
  intro before reply after hact
  rw [hact]
  exact hkind before

end Stays

end Prog

/-- A thread: the request it serves and what is left of its program. -/
structure Thread (σ ι ε ρ : Type) where
  request : ι
  rest : Prog σ ι ε ρ

/-- The shared state and the threads, numbered by their position. -/
structure Config (σ ι ε ρ : Type) where
  state : σ
  threads : List (Thread σ ι ε ρ)

/-- The programs, the requests that may arrive at any time, the steps of the
environment, and what is undone when a thread stops. -/
structure System (σ ι ε ρ : Type) where
  code : ι → Prog σ ι ε ρ
  accepts : ι → Prop
  environment : σ → σ → Prop
  rollback : ℕ → σ → σ

/-- One step of a system. -/
inductive Step (S : System σ ι ε ρ) : Config σ ι ε ρ → Config σ ι ε ρ → Prop
  | arrive {c request} (accepted : S.accepts request) :
      Step S c ⟨c.state, c.threads ++ [⟨request, S.code request⟩]⟩
  | run {c pid request β} {act : ℕ → σ → β → σ → Prop} {next reply after}
      (thread : c.threads[pid]? = some ⟨request, .step act next⟩)
      (acts : act pid c.state reply after) :
      Step S c ⟨after, c.threads.set pid ⟨request, next reply⟩⟩
  | fork {c pid request child next}
      (thread : c.threads[pid]? = some ⟨request, .fork child next⟩) :
      Step S c ⟨c.state, c.threads.set pid ⟨request, next⟩ ++ [⟨child, S.code child⟩]⟩
  | stop {c pid thread} (running : c.threads[pid]? = some thread) :
      Step S c ⟨S.rollback pid c.state, c.threads.set pid ⟨thread.request, .stopped⟩⟩
  | environment {c after} (moves : S.environment c.state after) :
      Step S c ⟨after, c.threads⟩

/-- The configurations a run reaches whose steps on the state are all allowed. -/
def Reachable (S : System σ ι ε ρ) (allowed : σ → σ → Prop) (c c' : Config σ ι ε ρ) : Prop :=
  Relation.ReflTransGen (fun c c' => Step S c c' ∧ allowed c.state c'.state) c c'

/-- A run of fewer steps is a run of more. -/
theorem Reachable.weaken {S : System σ ι ε ρ} {allowed allowed' : σ → σ → Prop}
    {c c' : Config σ ι ε ρ} (hrun : Reachable S allowed c c')
    (hallowed : ∀ s s', allowed s s' → allowed' s s') : Reachable S allowed' c c' :=
  Relation.ReflTransGen.mono (fun _ _ hstep => ⟨hstep.1, hallowed _ _ hstep.2⟩) _ _ hrun

/-- What holds of each program, and what its steps keep, holds of every thread of a run. -/
theorem Reachable.threads {S : System σ ι ε ρ} {allowed : σ → σ → Prop} {c c' : Config σ ι ε ρ}
    (good : ℕ → Thread σ ι ε ρ → Prop) (hcode : ∀ pid request, good pid ⟨request, S.code request⟩)
    (hstep : ∀ pid request (β : Type) (act : ℕ → σ → β → σ → Prop) next (reply : β),
      good pid ⟨request, .step act next⟩ → good pid ⟨request, next reply⟩)
    (hfork : ∀ pid request child next, good pid ⟨request, .fork child next⟩ →
      good pid ⟨request, next⟩)
    (hstopped : ∀ pid request, good pid ⟨request, .stopped⟩) (hrun : Reachable S allowed c c')
    (hstart : ∀ pid thread, c.threads[pid]? = some thread → good pid thread) :
    ∀ pid thread, c'.threads[pid]? = some thread → good pid thread := by
  have hset {threads : List (Thread σ ι ε ρ)} {number : ℕ} {new : Thread σ ι ε ρ}
      (hgood : ∀ pid thread, threads[pid]? = some thread → good pid thread)
      (hnew : good number new) (pid : ℕ) (thread : Thread σ ι ε ρ)
      (hthread : (threads.set number new)[pid]? = some thread) : good pid thread := by
    rw [List.getElem?_set] at hthread
    split at hthread
    next hsame =>
      split at hthread
      · obtain rfl := Option.some.inj hthread
        rwa [← hsame]
      · cases hthread
    next => exact hgood pid thread hthread
  have hadd {threads : List (Thread σ ι ε ρ)} {request : ι}
      (hgood : ∀ pid thread, threads[pid]? = some thread → good pid thread) (pid : ℕ)
      (thread : Thread σ ι ε ρ)
      (hthread : (threads ++ [⟨request, S.code request⟩])[pid]? = some thread) : good pid thread := by
    rw [List.getElem?_append] at hthread
    split at hthread
    · exact hgood pid thread hthread
    · obtain rfl := List.mem_singleton.1 (List.mem_of_getElem? hthread)
      exact hcode pid request
  induction hrun with
  | refl => exact hstart
  | tail _ hmove ih =>
      cases hmove.1 with
      | arrive accepted => exact hadd ih
      | run running acts => exact hset ih (hstep _ _ _ _ _ _ (ih _ _ running))
      | fork running => exact hadd (hset ih (hfork _ _ _ _ (ih _ _ running)))
      | stop running => exact hset ih (hstopped _ _)
      | environment moves => exact ih

/-- A thread keeps its request. -/
theorem Step.request_mem {S : System σ ι ε ρ} {c c' : Config σ ι ε ρ} (h : Step S c c')
    {thread : Thread σ ι ε ρ} (hmem : thread ∈ c.threads) :
    ∃ thread' ∈ c'.threads, thread'.request = thread.request := by
  obtain ⟨position, hposition⟩ := List.mem_iff_getElem?.1 hmem
  have hset {pid : ℕ} {old : Thread σ ι ε ρ} (new : Thread σ ι ε ρ)
      (hold : c.threads[pid]? = some old) (hsame : new.request = old.request) :
      ∃ thread' ∈ c.threads.set pid new, thread'.request = thread.request := by
    by_cases hpid : pid = position
    · subst hpid
      obtain rfl := Option.some.inj (hposition.symm.trans hold)
      exact ⟨new, List.mem_of_getElem? (List.getElem?_set_self
        (List.getElem?_eq_some_iff.1 hold).1), hsame⟩
    · have hkept : (c.threads.set pid new)[position]? = some thread := by
        rw [List.getElem?_set_ne hpid]
        exact hposition
      exact ⟨thread, List.mem_of_getElem? hkept, rfl⟩
  cases h with
  | arrive accepted => exact ⟨thread, List.mem_append_left _ hmem, rfl⟩
  | run running acts => exact hset _ running rfl
  | @fork pid request child next running =>
      obtain ⟨thread', hmem', hsame⟩ := hset ⟨request, next⟩ running rfl
      exact ⟨thread', List.mem_append_left _ hmem', hsame⟩
  | stop running => exact hset _ running rfl
  | environment moves => exact ⟨thread, hmem, rfl⟩

/-- The steps of one thread while no other moves. -/
inductive Runs (allowed : σ → σ → Prop) (pid : ℕ) : Prog σ ι ε α → σ → Prog σ ι ε α → σ → Prop
  | refl {program s} : Runs allowed pid program s program s
  | step {β : Type} {act : ℕ → σ → β → σ → Prop} {next program s s'} (reply : β) (between : σ)
      (acts : act pid s reply between) (permitted : allowed s between)
      (rest : Runs allowed pid (next reply) between program s') :
      Runs allowed pid (.step act next) s program s'

theorem Runs.trans {allowed : σ → σ → Prop} {pid : ℕ} {p₁ p₂ p₃ : Prog σ ι ε α} {s₁ s₂ s₃ : σ}
    (h : Runs allowed pid p₁ s₁ p₂ s₂) (h' : Runs allowed pid p₂ s₂ p₃ s₃) :
    Runs allowed pid p₁ s₁ p₃ s₃ := by
  induction h with
  | refl => exact h'
  | step reply between acts permitted _ ih => exact .step reply between acts permitted (ih h')

/-- The steps of a program are the first steps of a sequence. -/
theorem Runs.bind {allowed : σ → σ → Prop} {pid : ℕ} {program program' : Prog σ ι ε α} {s s' : σ}
    (h : Runs allowed pid program s program' s') (rest : α → Prog σ ι ε β) :
    Runs allowed pid (program.bind rest) s (program'.bind rest) s' := by
  induction h with
  | refl => exact .refl
  | step reply between acts permitted _ ih => exact .step reply between acts permitted ih

/-- A program that has returned goes on with the rest of the sequence. -/
theorem Runs.head {allowed : σ → σ → Prop} {pid : ℕ} {first : Prog σ ι ε α} {rest : α → Prog σ ι ε β}
    {program : Prog σ ι ε β} {value : α} {s between after : σ}
    (hfirst : Runs allowed pid first s (.done value) between)
    (hrest : Runs allowed pid (rest value) between program after) :
    Runs allowed pid (first >>= rest) s program after :=
  (hfirst.bind rest).trans hrest

theorem Runs.ofExcept {allowed : σ → σ → Prop} {pid : ℕ} {outcome : Except ε α} {value : α} {s : σ}
    (h : outcome = .ok value) :
    Runs allowed pid (MonadExcept.ofExcept outcome : Prog σ ι ε α) s (.done value) s := by
  subst h
  exact .refl

theorem Runs.tryCatch {allowed : σ → σ → Prop} {pid : ℕ} {program program' : Prog σ ι ε α} {s s' : σ}
    (h : Runs allowed pid program s program' s') (handler : ε → Prog σ ι ε α) :
    Runs allowed pid (program.tryCatch handler) s (program'.tryCatch handler) s' := by
  induction h with
  | refl => exact .refl
  | step reply between acts permitted _ ih => exact .step reply between acts permitted ih

theorem Runs.reachable {S : System σ ι ε ρ} {allowed : σ → σ → Prop}
    {pid : ℕ} {request : ι} {program program' : Prog σ ι ε ρ} {s s' : σ}
    (hruns : Runs allowed pid program s program' s') (threads : List (Thread σ ι ε ρ))
    (hthread : threads[pid]? = some ⟨request, program⟩) :
    Reachable S allowed ⟨s, threads⟩ ⟨s', threads.set pid ⟨request, program'⟩⟩ := by
  induction hruns generalizing threads with
  | refl =>
      obtain ⟨hlt, hget⟩ := List.getElem?_eq_some_iff.1 hthread
      rw [← hget, List.set_getElem_self]
      exact Relation.ReflTransGen.refl
  | @step β act next _ s s' reply between acts permitted rest ih =>
      have hlt : pid < threads.length := (List.getElem?_eq_some_iff.1 hthread).1
      have hrest := ih (threads.set pid ⟨request, next reply⟩) (List.getElem?_set_self hlt)
      rw [List.set_set] at hrest
      exact Relation.ReflTransGen.head ⟨.run hthread acts, permitted⟩ hrest

/-- A request arrives and runs on while no other thread moves. -/
theorem Reachable.serve {S : System σ ι ε ρ} {allowed : σ → σ → Prop} {c : Config σ ι ε ρ}
    {request : ι} {program : Prog σ ι ε ρ} {s s' : σ} {threads : List (Thread σ ι ε ρ)}
    (hrun : Reachable S allowed c ⟨s, threads⟩) (haccepted : S.accepts request)
    (hallowed : allowed s s)
    (hruns : Runs allowed threads.length (S.code request) s program s') :
    Reachable S allowed c ⟨s', threads ++ [⟨request, program⟩]⟩ := by
  have hthread : (threads ++ [(⟨request, S.code request⟩ : Thread σ ι ε ρ)])[threads.length]? =
      some ⟨request, S.code request⟩ := by simp
  have hserved := hruns.reachable (S := S) _ hthread
  rw [List.set_append_right _ _ (Nat.le_refl _), Nat.sub_self] at hserved
  exact Relation.ReflTransGen.trans
    (Relation.ReflTransGen.tail hrun ⟨.arrive haccepted, hallowed⟩) hserved

/-- The last thread starts another one. -/
theorem Reachable.spawn {S : System σ ι ε ρ} {allowed : σ → σ → Prop} {c : Config σ ι ε ρ}
    {request child : ι} {next : Prog σ ι ε ρ} {s : σ} {threads : List (Thread σ ι ε ρ)}
    (hrun : Reachable S allowed c ⟨s, threads ++ [⟨request, .fork child next⟩]⟩)
    (hallowed : allowed s s) :
    Reachable S allowed c ⟨s, threads ++ [⟨request, next⟩, ⟨child, S.code child⟩]⟩ := by
  have hthread : (threads ++ [(⟨request, .fork child next⟩ : Thread σ ι ε ρ)])[threads.length]? =
      some ⟨request, .fork child next⟩ := by simp
  have hstep : Step S ⟨s, threads ++ [⟨request, .fork child next⟩]⟩ _ := .fork hthread
  rw [List.set_append_right _ _ (Nat.le_refl _), Nat.sub_self, List.append_assoc] at hstep
  exact Relation.ReflTransGen.tail hrun ⟨hstep, hallowed⟩

/-- The last thread stops. -/
theorem Reachable.halt {S : System σ ι ε ρ} {allowed : σ → σ → Prop} {c : Config σ ι ε ρ}
    {request : ι} {program : Prog σ ι ε ρ} {s : σ} {threads : List (Thread σ ι ε ρ)}
    (hrun : Reachable S allowed c ⟨s, threads ++ [⟨request, program⟩]⟩)
    (hallowed : allowed s (S.rollback threads.length s)) :
    Reachable S allowed c ⟨S.rollback threads.length s, threads ++ [⟨request, .stopped⟩]⟩ := by
  have hstop : Step S ⟨s, threads ++ [⟨request, program⟩]⟩ _ := .stop List.getElem?_concat_length
  rw [List.set_append_right _ _ (Nat.le_refl _), Nat.sub_self] at hstop
  exact Relation.ReflTransGen.tail hrun ⟨hstop, hallowed⟩

/-- A step of the environment. -/
theorem Reachable.outside {S : System σ ι ε ρ} {allowed : σ → σ → Prop} {c : Config σ ι ε ρ}
    {s s' : σ} {threads : List (Thread σ ι ε ρ)} (hrun : Reachable S allowed c ⟨s, threads⟩)
    (hmoves : S.environment s s') (hallowed : allowed s s') :
    Reachable S allowed c ⟨s', threads⟩ :=
  Relation.ReflTransGen.tail hrun ⟨.environment hmoves, hallowed⟩

/-- The configuration with no thread yet. -/
def Config.idle (state : σ) : Config σ ι ε ρ := ⟨state, []⟩

/-- An invariant together with what each thread may rely on between its steps
and what it guarantees in each of its own. -/
structure Logic (σ ι ε ρ : Type) where
  invariant : σ → Prop
  /-- What the steps of the others keep for a thread. -/
  rely : ℕ → σ → σ → Prop
  /-- What a step of a thread that serves a request does. -/
  guarantee : ι → ℕ → σ → σ → Prop
  /-- The steps the runs are restricted to. -/
  allowed : σ → σ → Prop
  /-- What holds when a request starts. -/
  requires : ι → σ → Prop
  /-- What holds from when the thread of a request has returned. -/
  ensures : ι → ℕ → ρ → σ → Prop
  /-- What holds of a number that no thread has yet. -/
  fresh : ℕ → σ → Prop := fun _ _ => True
  rely_refl : ∀ pid state, rely pid state state
  rely_trans : ∀ {pid s₁ s₂ s₃}, rely pid s₁ s₂ → rely pid s₂ s₃ → rely pid s₁ s₃
  guarantee_refl : ∀ request pid state, guarantee request pid state state
  rely_of_guarantee : ∀ {request pid other before after}, other ≠ pid →
    guarantee request pid before after → rely other before after
  fresh_of_rely : ∀ {pid before after}, rely pid before after → fresh pid before →
    fresh pid after := by
      intros
      trivial

namespace Logic

variable (L : Logic σ ι ε ρ) {request : ι} {pid : ℕ}

/-- An assertion holds whatever the other threads do from here on. -/
def Later (pid : ℕ) (assertion : σ → Prop) (s : σ) : Prop :=
  ∀ before, L.rely pid s before → L.invariant before → assertion before

/-- The postcondition of a reply that is returned or thrown. -/
def Replies (pid : ℕ) (returns : α → σ → Prop) (throws : ε → σ → Prop) :
    Except ε α → σ → Prop
  | .ok value => L.Later pid (returns value)
  | .error failure => L.Later pid (throws failure)

/-- A program meets its postconditions, whatever the other threads do between
its steps, and every step of it keeps the invariant and the guarantee. -/
def Holds (request : ι) (pid : ℕ) :
    Prog σ ι ε α → (α → σ → Prop) → (ε → σ → Prop) → σ → Prop
  | .done value, returns, _, s => L.Later pid (returns value) s
  | .fail failure, _, throws, s => L.Later pid (throws failure) s
  | .step act next, returns, throws, s => ∀ before, L.rely pid s before → L.invariant before →
      ∀ reply after, act pid before reply after → L.allowed before after →
        L.invariant after ∧ L.guarantee request pid before after ∧
          Holds request pid (next reply) returns throws after
  | .fork child next, returns, throws, s => ∀ before, L.rely pid s before → L.invariant before →
      L.requires child before ∧ Holds request pid next returns throws before
  | .stopped, _, _, _ => True

/-- An assertion the steps of the other threads keep. -/
def Stable (pid : ℕ) (assertion : σ → Prop) : Prop :=
  ∀ ⦃s before⦄, L.rely pid s before → L.invariant before → assertion s → assertion before

theorem Stable.later {L : Logic σ ι ε ρ} {assertion : σ → Prop} {s : σ}
    (hstable : L.Stable pid assertion) (h : assertion s) : L.Later pid assertion s :=
  fun _ hrely hinv => hstable hrely hinv h

variable {L} {program : Prog σ ι ε α} {rest : α → Prog σ ι ε β}
  {returns returns' : α → σ → Prop} {throws throws' : ε → σ → Prop} {s : σ}

/-- What a program is verified for survives the steps of the others. -/
theorem Holds.of_rely {before : σ} (h : L.Holds request pid program returns throws s)
    (hrely : L.rely pid s before) : L.Holds request pid program returns throws before := by
  cases program with
  | done value => exact fun later hlater hinv => h later (L.rely_trans hrely hlater) hinv
  | fail failure => exact fun later hlater hinv => h later (L.rely_trans hrely hlater) hinv
  | step act next => exact fun later hlater hinv => h later (L.rely_trans hrely hlater) hinv
  | fork child next => exact fun later hlater hinv => h later (L.rely_trans hrely hlater) hinv
  | stopped => trivial

theorem Holds.later (h : L.Holds request pid program returns throws s) :
    L.Later pid (L.Holds request pid program returns throws) s :=
  fun _ hrely _ => h.of_rely hrely

/-- It is enough to verify a program from the states the others can leave. -/
theorem Holds.of_forall_rely
    (h : ∀ before, L.rely pid s before → L.invariant before →
      L.Holds request pid program returns throws before) :
    L.Holds request pid program returns throws s := by
  cases program with
  | done value => exact fun before hrely hinv => h before hrely hinv before (L.rely_refl _ _) hinv
  | fail failure => exact fun before hrely hinv => h before hrely hinv before (L.rely_refl _ _) hinv
  | step act next => exact fun before hrely hinv => h before hrely hinv before (L.rely_refl _ _) hinv
  | fork child next =>
      exact fun before hrely hinv => h before hrely hinv before (L.rely_refl _ _) hinv
  | stopped => trivial

/-- Postconditions may be weakened. -/
theorem Holds.mono (h : L.Holds request pid program returns throws s)
    (hreturns : ∀ value s, L.invariant s → returns value s → returns' value s)
    (hthrows : ∀ failure s, L.invariant s → throws failure s → throws' failure s) :
    L.Holds request pid program returns' throws' s := by
  induction program generalizing s with
  | done value => exact fun before hrely hinv => hreturns value before hinv (h before hrely hinv)
  | fail failure =>
      exact fun before hrely hinv => hthrows failure before hinv (h before hrely hinv)
  | step act next ih =>
      intro before hrely hinv reply after hact hallowed
      obtain ⟨hafter, hguar, hnext⟩ := h before hrely hinv reply after hact hallowed
      exact ⟨hafter, hguar, ih reply hnext⟩
  | fork child next ih =>
      intro before hrely hinv
      obtain ⟨hchild, hnext⟩ := h before hrely hinv
      exact ⟨hchild, ih hnext⟩
  | stopped => trivial

/-- What a thread itself keeps and the others keep too still holds when it returns. -/
theorem Holds.frame {assertion : σ → Prop} (h : L.Holds request pid program returns throws s)
    (hs : assertion s) (hstable : L.Stable pid assertion)
    (hkept : ∀ {before after}, L.guarantee request pid before after → assertion before →
      assertion after) :
    L.Holds request pid program (fun value s => returns value s ∧ assertion s) throws s := by
  induction program generalizing s with
  | done value => exact fun before hrely hinv => ⟨h before hrely hinv, hstable hrely hinv hs⟩
  | fail failure => exact h
  | step act next ih =>
      intro before hrely hinv reply after hact hallowed
      obtain ⟨hafter, hguar, hnext⟩ := h before hrely hinv reply after hact hallowed
      exact ⟨hafter, hguar, ih reply hnext (hkept hguar (hstable hrely hinv hs))⟩
  | fork child next ih =>
      intro before hrely hinv
      obtain ⟨hchild, hnext⟩ := h before hrely hinv
      exact ⟨hchild, ih hnext (hstable hrely hinv hs)⟩
  | stopped => trivial

/-- What is verified for all runs is verified for the restricted ones, where more
may be invariant. -/
theorem Holds.restrict {L' : Logic σ ι ε ρ} (h : L.Holds request pid program returns throws s)
    (hinv : ∀ {s}, L'.invariant s → L.invariant s)
    (hrely : ∀ {s s'}, L'.rely pid s s' → L.rely pid s s')
    (hallowed : ∀ {s s'}, L'.allowed s s' → L.allowed s s')
    (hrequires : ∀ {child s}, L.requires child s → L'.requires child s)
    (hstep : ∀ {s s'}, L'.invariant s → L.invariant s' → L.guarantee request pid s s' →
      L'.allowed s s' → L'.invariant s' ∧ L'.guarantee request pid s s')
    (hreturns : ∀ value s, L'.invariant s → returns value s → returns' value s)
    (hthrows : ∀ failure s, L'.invariant s → throws failure s → throws' failure s) :
    L'.Holds request pid program returns' throws' s := by
  induction program generalizing s with
  | done value =>
      exact fun later hlater hlinv => hreturns value later hlinv (h later (hrely hlater) (hinv hlinv))
  | fail failure =>
      exact fun later hlater hlinv => hthrows failure later hlinv (h later (hrely hlater) (hinv hlinv))
  | step act next ih =>
      intro before hbefore hbinv reply after hact hafter
      obtain ⟨hainv, hguar, hnext⟩ :=
        h before (hrely hbefore) (hinv hbinv) reply after hact (hallowed hafter)
      obtain ⟨hainv', hguar'⟩ := hstep hbinv hainv hguar hafter
      exact ⟨hainv', hguar', ih reply hnext⟩
  | fork child next ih =>
      intro before hbefore hbinv
      obtain ⟨hchild, hnext⟩ := h before (hrely hbefore) (hinv hbinv)
      exact ⟨hrequires hchild, ih hnext⟩
  | stopped => trivial

/-! ### One rule for each way to build a program -/

theorem holds_pure {value : α} (h : L.Later pid (returns value) s) :
    L.Holds request pid (pure value) returns throws s := h

theorem holds_throw {failure : ε} (h : L.Later pid (throws failure) s) :
    L.Holds request pid (throw failure : Prog σ ι ε α) returns throws s := h

/-- A sequence of two programs. -/
theorem Holds.bind {returns : β → σ → Prop}
    (h : L.Holds request pid program
      (fun value => L.Holds request pid (rest value) returns throws) throws s) :
    L.Holds request pid (program >>= rest) returns throws s := by
  change L.Holds request pid (program.bind rest) returns throws s
  induction program generalizing s with
  | done value => exact Holds.of_forall_rely h
  | fail failure => exact h
  | step act next ih =>
      intro before hrely hinv reply after hact hallowed
      obtain ⟨hafter, hguar, hnext⟩ := h before hrely hinv reply after hact hallowed
      exact ⟨hafter, hguar, ih reply hnext⟩
  | fork child next ih =>
      intro before hrely hinv
      obtain ⟨hchild, hnext⟩ := h before hrely hinv
      exact ⟨hchild, ih hnext⟩
  | stopped => trivial

/-- A program, and then the rest. -/
theorem Holds.next {returns' : β → σ → Prop} (h : L.Holds request pid program returns throws s)
    (hthrows : ∀ failure s, L.invariant s → throws failure s → throws' failure s)
    (hrest : ∀ value s, L.invariant s → returns value s →
      L.Holds request pid (rest value) returns' throws' s) :
    L.Holds request pid (program >>= rest) returns' throws' s :=
  Holds.bind (h.mono hrest hthrows)

/-- A check. -/
theorem holds_ofExcept {outcome : Except ε α} (assertion : σ → Prop)
    (hstable : L.Stable pid assertion) (hassertion : assertion s) :
    L.Holds request pid (MonadExcept.ofExcept outcome : Prog σ ι ε α)
      (fun value s => assertion s ∧ outcome = .ok value)
      (fun failure s => assertion s ∧ outcome = .error failure) s := by
  cases outcome with
  | ok value => exact holds_pure fun _ hrely hinv => ⟨hstable hrely hinv hassertion, rfl⟩
  | error failure => exact holds_throw fun _ hrely hinv => ⟨hstable hrely hinv hassertion, rfl⟩

/-- A program with a handler for its failures. -/
theorem Holds.tryCatch {handler : ε → Prog σ ι ε α}
    (h : L.Holds request pid program returns
      (fun failure => L.Holds request pid (handler failure) returns throws) s) :
    L.Holds request pid (tryCatch program handler) returns throws s := by
  change L.Holds request pid (program.tryCatch handler) returns throws s
  induction program generalizing s with
  | done value => exact h
  | fail failure => exact Holds.of_forall_rely h
  | step act next ih =>
      intro before hrely hinv reply after hact hallowed
      obtain ⟨hafter, hguar, hnext⟩ := h before hrely hinv reply after hact hallowed
      exact ⟨hafter, hguar, ih reply hnext⟩
  | fork child next ih =>
      intro before hrely hinv
      obtain ⟨hchild, hnext⟩ := h before hrely hinv
      exact ⟨hchild, ih hnext⟩
  | stopped => trivial

/-- An atomic step taken while a stable assertion holds. -/
theorem holds_step {act : ℕ → σ → β → σ → Prop} {next : β → Prog σ ι ε α} (assertion : σ → Prop)
    (hstable : L.Stable pid assertion) (hassertion : assertion s)
    (hstep : ∀ before reply after, assertion before → L.invariant before →
      act pid before reply after → L.allowed before after →
        L.invariant after ∧ L.guarantee request pid before after ∧
          L.Holds request pid (next reply) returns throws after) :
    L.Holds request pid (.step act next) returns throws s :=
  fun before hrely hinv reply after hact hallowed =>
    hstep before reply after (hstable hrely hinv hassertion) hinv hact hallowed

/-- An atomic step that returns or throws its reply. -/
theorem holds_attempt {act : ℕ → σ → Except ε α → σ → Prop} (assertion : σ → Prop)
    (hassertion : L.Later pid assertion s)
    (hstep : ∀ before reply after, assertion before → L.invariant before →
      act pid before reply after → L.allowed before after →
        L.invariant after ∧ L.guarantee request pid before after ∧
          L.Replies pid returns throws reply after) :
    L.Holds request pid (.attempt act) returns throws s := by
  intro before hrely hinv reply after hact hallowed
  have hreply := hstep before reply after (hassertion before hrely hinv) hinv hact hallowed
  cases reply with
  | ok value => exact hreply
  | error failure => exact hreply

/-- A value from outside may be any value. -/
theorem holds_anything (h : ∀ value, L.Later pid (returns value) s) :
    L.Holds request pid (Prog.anything α) returns throws s := by
  intro before hrely hinv value after hact _
  subst hact
  refine ⟨hinv, L.guarantee_refl _ _ _, fun later hlater hinv' => ?_⟩
  exact h value later (L.rely_trans hrely hlater) hinv'

/-- Threads started for a list of requests. -/
theorem holds_forkAll {returns : Unit → σ → Prop} {requests : List ι} (assertion : σ → Prop)
    (hstable : L.Stable pid assertion) (hassertion : assertion s)
    (hrequests : ∀ child ∈ requests, ∀ before, assertion before → L.invariant before →
      L.requires child before)
    (hreturns : ∀ before, assertion before → L.invariant before → returns () before) :
    L.Holds request pid (Prog.forkAll requests) returns throws s := by
  induction requests generalizing s with
  | nil => exact fun before hrely hinv => hreturns before (hstable hrely hinv hassertion) hinv
  | cons child requests ih =>
      intro before hrely hinv
      have hbefore := hstable hrely hinv hassertion
      refine ⟨hrequests child (by simp) before hbefore hinv, ?_⟩
      exact ih hbefore fun child hchild => hrequests child (by simp [hchild])

/-- A program whose steps are all of a kind that keeps the invariant and the guarantee. -/
theorem holds_of_takes {kind : σ → σ → Prop} (h : program.Takes kind pid)
    (hkind : ∀ {before after}, L.invariant before → L.allowed before after → kind before after →
      L.invariant after ∧ L.guarantee request pid before after)
    (hrequires : ∀ child s, L.requires child s) :
    L.Holds request pid program (fun _ _ => True) (fun _ _ => True) s := by
  induction program generalizing s with
  | done value => exact fun _ _ _ => trivial
  | fail failure => exact fun _ _ _ => trivial
  | step act next ih =>
      intro before _ hinv reply after hact hallowed
      obtain ⟨hafter, hguar⟩ := hkind hinv hallowed (h.1 before reply after hact)
      exact ⟨hafter, hguar, ih reply (h.2 reply)⟩
  | fork child next ih => exact fun before _ _ => ⟨hrequires child before, ih h⟩
  | stopped => trivial

/-- The same of a program that starts no other thread. -/
theorem holds_of_stays {kind : σ → σ → Prop} (h : program.Stays kind pid)
    (hkind : ∀ {before after}, L.invariant before → L.allowed before after → kind before after →
      L.invariant after ∧ L.guarantee request pid before after) :
    L.Holds request pid program (fun _ _ => True) (fun _ _ => True) s := by
  induction program generalizing s with
  | done value => exact fun _ _ _ => trivial
  | fail failure => exact fun _ _ _ => trivial
  | step act next ih =>
      intro before _ hinv reply after hact hallowed
      obtain ⟨hafter, hguar⟩ := hkind hinv hallowed (h.1 before reply after hact)
      exact ⟨hafter, hguar, ih reply (h.2 reply)⟩
  | fork child next ih => exact h.elim
  | stopped => trivial

end Logic

/-! ### Every run -/

/-- A logic is sound for a system when every program of it is verified. -/
structure Logic.Sound (L : Logic σ ι ε ρ) (S : System σ ι ε ρ) : Prop where
  accepts : ∀ {request s}, S.accepts request → L.invariant s → L.requires request s
  code : ∀ {request s} pid, L.requires request s → L.invariant s → L.fresh pid s →
    L.Holds request pid (S.code request) (L.ensures request pid) (fun _ _ => True) s
  environment : ∀ {before after}, S.environment before after → L.allowed before after →
    L.invariant before → L.invariant after ∧ ∀ pid, L.rely pid before after
  rollback : ∀ {before} pid, L.invariant before →
    L.invariant (S.rollback pid before) ∧
      ∀ other, other ≠ pid → L.rely other before (S.rollback pid before)

/-- The invariant holds and every thread meets its postconditions. -/
structure Logic.Good (L : Logic σ ι ε ρ) (c : Config σ ι ε ρ) : Prop where
  invariant : L.invariant c.state
  threads : ∀ {pid thread}, c.threads[pid]? = some thread →
    L.Holds thread.request pid thread.rest (L.ensures thread.request pid) (fun _ _ => True) c.state
  fresh : ∀ {pid}, c.threads.length ≤ pid → L.fresh pid c.state

namespace Logic

variable {L : Logic σ ι ε ρ} {S : System σ ι ε ρ} {c c' : Config σ ι ε ρ} {request : ι} {pid : ℕ}

theorem good_idle {state : σ} (h : L.invariant state) (hfresh : ∀ pid, L.fresh pid state) :
    L.Good (Config.idle state) :=
  ⟨h, fun hthread => by simp [Config.idle] at hthread, fun {pid} _ => hfresh pid⟩

/-- The threads other than the one that moved are as before. -/
theorem Good.set (hgood : L.Good c) {after : σ} {thread : Thread σ ι ε ρ}
    (hpid : pid < c.threads.length) (hinv : L.invariant after) (hothers : ∀ other, other ≠ pid → L.rely other c.state after)
    (hthread : L.Holds thread.request pid thread.rest (L.ensures thread.request pid)
      (fun _ _ => True) after) :
    L.Good ⟨after, c.threads.set pid thread⟩ := by
  refine ⟨hinv, fun {other thread'} hother => ?_, fun {other} hunused => ?_⟩
  case refine_2 =>
    rw [List.length_set] at hunused
    exact L.fresh_of_rely (hothers other (by omega)) (hgood.fresh hunused)
  simp only [List.getElem?_set] at hother
  by_cases hsame : pid = other
  · subst hsame
    rw [if_pos rfl, if_pos hpid] at hother
    obtain rfl := Option.some.inj hother
    exact hthread
  · rw [if_neg hsame] at hother
    exact (hgood.threads hother).of_rely (hothers other (Ne.symm hsame))

theorem Good.append (hgood : L.Good c) {thread : Thread σ ι ε ρ}
    (hthread : L.Holds thread.request c.threads.length thread.rest
      (L.ensures thread.request c.threads.length) (fun _ _ => True) c.state) :
    L.Good ⟨c.state, c.threads ++ [thread]⟩ := by
  refine ⟨hgood.invariant, fun {other thread'} hother => ?_, fun {other} hunused => ?_⟩
  case refine_2 =>
    rw [List.length_append] at hunused
    exact hgood.fresh (by omega)
  rcases Nat.lt_or_ge other c.threads.length with hlt | hge
  · rw [List.getElem?_append_left hlt] at hother
    exact hgood.threads hother
  · obtain ⟨hindex, rfl⟩ : other = c.threads.length ∧ thread = thread' := by
      rw [List.getElem?_append_right hge, List.getElem?_singleton] at hother
      split at hother
      · exact ⟨by omega, Option.some.inj hother⟩
      · cases hother
    rw [hindex]
    exact hthread

/-- Something holds of every thread and the request that it serves. -/
def Serves (holds : ι → ℕ → σ → Prop) (c : Config σ ι ε ρ) : Prop :=
  ∀ pid thread, c.threads[pid]? = some thread → holds thread.request pid c.state

theorem Serves.append {holds : ι → ℕ → σ → Prop} {thread : Thread σ ι ε ρ} (h : Serves holds c)
    (hnew : holds thread.request c.threads.length c.state) :
    Serves holds ⟨c.state, c.threads ++ [thread]⟩ := by
  intro pid thread' hthread
  rcases Nat.lt_or_ge pid c.threads.length with hlt | hge
  · rw [List.getElem?_append_left hlt] at hthread
    exact h pid thread' hthread
  · obtain ⟨hpid, rfl⟩ : pid = c.threads.length ∧ thread = thread' := by
      rw [List.getElem?_append_right hge, List.getElem?_singleton] at hthread
      split at hthread
      · exact ⟨by omega, Option.some.inj hthread⟩
      · cases hthread
    rw [hpid]
    exact hnew

theorem Serves.set {holds : ι → ℕ → σ → Prop} {after : σ} {old new : Thread σ ι ε ρ}
    (hthread : c.threads[pid]? = some old) (hsame : new.request = old.request)
    (hown : holds old.request pid after)
    (hothers : ∀ other thread, other ≠ pid → c.threads[other]? = some thread →
      holds thread.request other after) : Serves holds ⟨after, c.threads.set pid new⟩ := by
  intro other thread hother
  rw [List.getElem?_set] at hother
  by_cases heq : pid = other
  · subst heq
    rw [if_pos rfl, if_pos (List.getElem?_eq_some_iff.1 hthread).1] at hother
    obtain rfl := Option.some.inj hother
    rw [hsame]
    exact hown
  · rw [if_neg heq] at hother
    exact hothers other thread (Ne.symm heq) hother

namespace Sound

theorem step (hsound : L.Sound S) (hgood : L.Good c) (hstep : Step S c c')
    (hallowed : L.allowed c.state c'.state) : L.Good c' := by
  cases hstep with
  | arrive accepted =>
      have hrequires := hsound.accepts accepted hgood.invariant
      exact hgood.append (hsound.code _ hrequires hgood.invariant (hgood.fresh (Nat.le_refl _)))
  | run thread acts =>
      have hthread := hgood.threads thread c.state (L.rely_refl _ _) hgood.invariant
      obtain ⟨hinv, hguar, hnext⟩ := hthread _ _ acts hallowed
      have hpid := (List.getElem?_eq_some_iff.1 thread).1
      exact hgood.set hpid hinv (fun other hother => L.rely_of_guarantee hother hguar) hnext
  | @fork pid request child next thread =>
      have hthread := hgood.threads thread c.state (L.rely_refl _ _) hgood.invariant
      obtain ⟨hchild, hnext⟩ := hthread
      have hpid := (List.getElem?_eq_some_iff.1 thread).1
      have hset : L.Good ⟨c.state, c.threads.set pid ⟨request, next⟩⟩ :=
        hgood.set hpid hgood.invariant (fun other _ => L.rely_refl other _) hnext
      exact hset.append (hsound.code _ hchild hgood.invariant (hset.fresh (Nat.le_refl _)))
  | stop running =>
      obtain ⟨hinv, hothers⟩ := hsound.rollback _ hgood.invariant
      exact hgood.set (List.getElem?_eq_some_iff.1 running).1 hinv hothers trivial
  | environment moves =>
      obtain ⟨hinv, hrely⟩ := hsound.environment moves hallowed hgood.invariant
      exact ⟨hinv, fun hthread => (hgood.threads hthread).of_rely (hrely _),
        fun hunused => L.fresh_of_rely (hrely _) (hgood.fresh hunused)⟩

/-- In every configuration a run reaches the invariant holds and every thread
meets its postconditions. -/
theorem reachable (hsound : L.Sound S) (hgood : L.Good c) (hrun : Reachable S L.allowed c c') :
    L.Good c' := by
  induction hrun with
  | refl => exact hgood
  | tail _ hstep ih => exact hsound.step ih hstep.1 hstep.2

/-- What every guarantee entails from one state to the next, and the outside keeps,
relates the ends of a run. -/
theorem relates (related : σ → σ → Prop) (hsound : L.Sound S) (hgood : L.Good c)
    (hrun : Reachable S L.allowed c c') (hrefl : ∀ s, related s s)
    (htrans : ∀ {s₁ s₂ s₃}, related s₁ s₂ → related s₂ s₃ → related s₁ s₃)
    (hguarantee : ∀ {request pid s s'}, L.invariant s → L.guarantee request pid s s' → related s s')
    (henvironment : ∀ {s s'}, L.invariant s → S.environment s s' → related s s')
    (hrollback : ∀ pid s, related s (S.rollback pid s)) : related c.state c'.state := by
  induction hrun with
  | refl => exact hrefl _
  | tail hbefore hstep ih =>
      refine htrans ih ?_
      have hgood := hsound.reachable hgood hbefore
      obtain ⟨hstep, hallowed⟩ := hstep
      cases hstep with
      | arrive accepted => exact hrefl _
      | run thread acts =>
          have hthread := hgood.threads thread _ (L.rely_refl _ _) hgood.invariant
          exact hguarantee hgood.invariant (hthread _ _ acts hallowed).2.1
      | fork thread => exact hrefl _
      | stop running => exact hrollback _ _
      | environment moves => exact henvironment hgood.invariant moves

/-- What every guarantee preserves in the steps that a run is restricted to, and the
outside preserves, holds after the run. -/
theorem preserves {allowed : σ → σ → Prop} (holds : σ → Prop) (hsound : L.Sound S) (hgood : L.Good c)
    (hrun : Reachable S allowed c c') (hallowed : ∀ s s', allowed s s' → L.allowed s s')
    (hstart : holds c.state)
    (hguarantee : ∀ {request pid s s'}, L.invariant s → L.guarantee request pid s s' →
      allowed s s' → holds s → holds s')
    (henvironment : ∀ {s s'}, S.environment s s' → holds s → holds s')
    (hrollback : ∀ pid s, holds s → holds (S.rollback pid s)) : holds c'.state := by
  induction hrun with
  | refl => exact hstart
  | tail hbefore hstep ih =>
      have hgood := hsound.reachable hgood (Reachable.weaken hbefore hallowed)
      obtain ⟨hstep, hpermitted⟩ := hstep
      cases hstep with
      | arrive accepted => exact ih
      | run thread acts =>
          have hthread := hgood.threads thread _ (L.rely_refl _ _) hgood.invariant
          have hguar := (hthread _ _ acts (hallowed _ _ hpermitted)).2.1
          exact hguarantee hgood.invariant hguar hpermitted ih
      | fork thread => exact ih
      | stop running => exact hrollback _ _ ih
      | environment moves => exact henvironment moves ih

/-- What the steps of a thread preserve for the request that it serves, and the steps of the
others leave, holds of every thread. -/
theorem serves {allowed : σ → σ → Prop} {holds : ι → ℕ → σ → Prop} (hsound : L.Sound S)
    (hgood : L.Good c) (hrun : Reachable S allowed c c')
    (hallowed : ∀ s s', allowed s s' → L.allowed s s') (hstart : Serves holds c)
    (hfresh : ∀ {request pid s}, L.fresh pid s → holds request pid s)
    (hguarantee : ∀ {request pid s s'}, L.guarantee request pid s s' → holds request pid s →
      holds request pid s')
    (hrely : ∀ {request pid s s'}, L.rely pid s s' → holds request pid s → holds request pid s')
    (hrollback : ∀ {request pid s}, holds request pid s → holds request pid (S.rollback pid s)) :
    Serves holds c' := by
  induction hrun with
  | refl => exact hstart
  | tail hbefore hstep ih =>
      have hgood := hsound.reachable hgood (Reachable.weaken hbefore hallowed)
      obtain ⟨hstep, hpermitted⟩ := hstep
      cases hstep with
      | arrive accepted => exact ih.append (hfresh (hgood.fresh (Nat.le_refl _)))
      | run thread acts =>
          have hholds := hgood.threads thread _ (L.rely_refl _ _) hgood.invariant
          have hguar := (hholds _ _ acts (hallowed _ _ hpermitted)).2.1
          refine Serves.set thread rfl (hguarantee hguar (ih _ _ thread)) fun other _ hne hother => ?_
          exact hrely (L.rely_of_guarantee hne hguar) (ih _ _ hother)
      | @fork pid request child next thread =>
          have hset : Serves holds (⟨_, List.set _ pid ⟨request, next⟩⟩ : Config σ ι ε ρ) :=
            Serves.set thread rfl (ih _ _ thread) fun other _ _ hother => ih _ _ hother
          exact hset.append (hfresh (hgood.fresh (Nat.le_of_eq List.length_set.symm)))
      | stop running =>
          obtain ⟨-, hothers⟩ := hsound.rollback _ hgood.invariant
          refine Serves.set running rfl (hrollback (ih _ _ running)) fun other _ hne hother => ?_
          exact hrely (hothers _ hne) (ih _ _ hother)
      | environment moves =>
          obtain ⟨-, hothers⟩ := hsound.environment moves (hallowed _ _ hpermitted) hgood.invariant
          exact fun other _ hother => hrely (hothers other) (ih _ _ hother)

/-- Every step a thread takes keeps its guarantee. -/
theorem guarantee {act : ℕ → σ → β → σ → Prop} {next : β → Prog σ ι ε ρ} {reply : β} {after : σ}
    (hgood : L.Good c) (hthread : c.threads[pid]? = some ⟨request, .step act next⟩)
    (hact : act pid c.state reply after) (hallowed : L.allowed c.state after) :
    L.guarantee request pid c.state after :=
  (hgood.threads hthread c.state (L.rely_refl _ _) hgood.invariant _ _ hact hallowed).2.1

/-- A step of the system that changes the state is one of a thread, which keeps its guarantee,
the rollback of one that stops, or one of the outside. -/
theorem step_cases (hgood : L.Good c) (hstep : Step S c c') (hallowed : L.allowed c.state c'.state) :
    c'.state = c.state ∨
      (∃ pid thread, c.threads[pid]? = some thread ∧
        L.guarantee thread.request pid c.state c'.state) ∨
      (∃ pid, c'.state = S.rollback pid c.state) ∨ S.environment c.state c'.state := by
  cases hstep with
  | arrive accepted => exact Or.inl rfl
  | run thread acts =>
      exact Or.inr (Or.inl ⟨_, _, thread, guarantee hgood thread acts hallowed⟩)
  | fork thread => exact Or.inl rfl
  | stop running => exact Or.inr (Or.inr (Or.inl ⟨_, rfl⟩))
  | environment moves => exact Or.inr (Or.inr (Or.inr moves))

/-- What a thread that has returned ensures holds from then on. -/
theorem ensures {value : ρ} (hgood : L.Good c)
    (hthread : c.threads[pid]? = some ⟨request, .done value⟩) :
    L.ensures request pid value c.state :=
  hgood.threads hthread c.state (L.rely_refl _ _) hgood.invariant

end Sound

end Logic

end Interleaving
