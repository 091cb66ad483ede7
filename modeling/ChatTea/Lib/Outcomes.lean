import ChatTea.Lib.ReadCommitted

/-!
# Programs that make one change

A transaction has its effect in one step, the commit. Until then the steps of its program
leave alone what the others see, and afterwards the program can only say what it has done.
A program that fails has made no change.

## Main definitions

* `Conduct` — from which states a program steps, what its quiet steps keep, how it fails
* `Prog.Settled` — a program that has made its change, and tells of it
* `Prog.Lands` — a program that makes one change, or answers without one
* `Moves` — a step of one thread
* `Outcomes` — what the threads of a run have done for their requests

## Main results

* `Prog.Lands.bind`, `Prog.Lands.tryCatch` — one rule for each way to build a program
* `lands_evaluate`, `lands_commitWrites`, `lands_inTransaction` — the statements of a transaction
* `Reachable.outcomes` — the threads of a run do what their programs do
-/

namespace Interleaving

variable {σ ι ε ρ α β : Type}

/-- The states that a program steps from, what a step keeps that changes nothing of
interest, and the failures of a program that has changed nothing. -/
structure Conduct (σ ε : Type) where
  within : σ → Prop
  quiet : σ → σ → Prop
  quiet_refl : ∀ s, quiet s s
  fails : ε → Prop

namespace Prog

/-- The change is made: the program goes on quietly, fails no more, and returns what tells
of the change. It starts no thread. -/
def Settled (C : Conduct σ ε) (told : α → Prop) (pid : ℕ) : Prog σ ι ε α → Prop
  | .done value => told value
  | .fail _ => False
  | .step act next => ∀ before reply after, C.within before → act pid before reply after →
      C.quiet before after ∧ (next reply).Settled C told pid
  | .fork _ _ => False
  | .stopped => True

/-- The program goes on quietly, up to the step in which it makes the change that its answer
tells of. Without one it fails, or returns what is silent about changes. -/
def Lands (C : Conduct σ ε) (lands : α → σ → σ → Prop) (silent : α → Prop) (pid : ℕ) :
    Prog σ ι ε α → Prop
  | .done value => silent value
  | .fail failure => C.fails failure
  | .step act next => ∀ before reply after, C.within before → act pid before reply after →
      (C.quiet before after ∧ (next reply).Lands C lands silent pid) ∨
        ((∃ value, lands value before after) ∧
          (next reply).Settled C (fun value => lands value before after) pid)
  | .fork _ _ => False
  | .stopped => True

/-- No change at all. -/
def noChange (_ : α) (_ _ : σ) : Prop := False

variable {C : Conduct σ ε} {told : α → Prop} {told' : β → Prop} {pid : ℕ}
  {program : Prog σ ι ε α} {rest : α → Prog σ ι ε β} {handler : ε → Prog σ ι ε α}
  {lands lands₂ : α → σ → σ → Prop} {lands' : β → σ → σ → Prop} {silent silent₂ : α → Prop}
  {silent' : β → Prop}

namespace Settled

theorem bind (h : program.Settled C told pid)
    (hrest : ∀ value, told value → (rest value).Settled C told' pid) :
    (program.bind rest).Settled C told' pid := by
  induction program with
  | done value => exact hrest value h
  | fail failure => exact h.elim
  | step act next ih =>
      intro before reply after hwithin hact
      obtain ⟨hquiet, hnext⟩ := h before reply after hwithin hact
      exact ⟨hquiet, ih reply hnext⟩
  | fork request next ih => exact h.elim
  | stopped => trivial

/-- A handler has nothing to handle. -/
theorem tryCatch (h : program.Settled C told pid) :
    (program.tryCatch handler).Settled C told pid := by
  induction program with
  | done value => exact h
  | fail failure => exact h.elim
  | step act next ih =>
      intro before reply after hwithin hact
      obtain ⟨hquiet, hnext⟩ := h before reply after hwithin hact
      exact ⟨hquiet, ih reply hnext⟩
  | fork request next ih => exact h.elim
  | stopped => trivial

end Settled

namespace Lands

/-- A sequence: the change is made in the first part, of which the second one tells, or in the
second one. -/
theorem bind (h : program.Lands C lands silent pid)
    (hsilent : ∀ value, silent value → (rest value).Lands C lands' silent' pid)
    (hlands : ∀ value before after, lands value before after →
      (∃ value', lands' value' before after) ∧
        (rest value).Settled C (fun value' => lands' value' before after) pid) :
    (program >>= rest).Lands C lands' silent' pid := by
  change (program.bind rest).Lands C lands' silent' pid
  induction program with
  | done value => exact hsilent value h
  | fail failure => exact h
  | step act next ih =>
      intro before reply after hwithin hact
      rcases h before reply after hwithin hact with ⟨hquiet, hnext⟩ | ⟨⟨value, hvalue⟩, hnext⟩
      · exact Or.inl ⟨hquiet, ih reply hnext⟩
      · refine Or.inr ⟨(hlands value before after hvalue).1, hnext.bind ?_⟩
        intro value' hvalue'
        exact (hlands value' before after hvalue').2
  | fork request next ih => exact h.elim
  | stopped => trivial

/-- A first part that changes nothing. -/
theorem after (h : program.Lands C noChange silent pid)
    (hrest : ∀ value, silent value → (rest value).Lands C lands' silent' pid) :
    (program >>= rest).Lands C lands' silent' pid :=
  h.bind hrest fun _ _ _ hno => hno.elim

/-- The change is in the last part but for what is returned. -/
theorem answer {result : α → β} (h : program.Lands C lands silent pid)
    (hsilent : ∀ value, silent value → silent' (result value))
    (hlands : ∀ value before after, lands value before after →
      lands' (result value) before after) :
    (program >>= fun value => pure (result value)).Lands C lands' silent' pid := by
  apply h.bind
  · exact fun value hvalue => hsilent value hvalue
  intro value before after hvalue
  exact ⟨⟨_, hlands value before after hvalue⟩, hlands value before after hvalue⟩

theorem tryCatch (h : program.Lands C lands silent pid)
    (hhandler : ∀ failure, C.fails failure → (handler failure).Lands C lands silent pid) :
    Lands C lands silent pid (MonadExcept.tryCatch program handler) := by
  change (program.tryCatch handler).Lands C lands silent pid
  induction program with
  | done value => exact h
  | fail failure => exact hhandler failure h
  | step act next ih =>
      intro before reply after hwithin hact
      rcases h before reply after hwithin hact with ⟨hquiet, hnext⟩ | ⟨hvalue, hnext⟩
      · exact Or.inl ⟨hquiet, ih reply hnext⟩
      · exact Or.inr ⟨hvalue, hnext.tryCatch⟩
  | fork request next ih => exact h.elim
  | stopped => trivial

theorem returned {value : α} (h : silent value) :
    Lands C lands silent pid (pure value : Prog σ ι ε α) := h

end Lands

end Prog

/-! ### Every run -/

/-- The thread takes a step. -/
inductive Moves (pid : ℕ) (c : Config σ ι ε ρ) : Config σ ι ε ρ → Prop
  | run {request β} {act : ℕ → σ → β → σ → Prop} {next reply after}
      (thread : c.threads[pid]? = some ⟨request, .step act next⟩)
      (acts : act pid c.state reply after) :
      Moves pid c ⟨after, c.threads.set pid ⟨request, next reply⟩⟩

variable {S : System σ ι ε ρ} {allowed : σ → σ → Prop} {C : Conduct σ ε}
  {lands : ι → ρ → σ → σ → Prop} {silent : ι → ρ → Prop} {concerned : ι → Prop}
  {start c c' c₁ c₂ : Config σ ι ε ρ} {pid : ℕ} {request : ι} {thread : Thread σ ι ε ρ}

/-- What a thread was before a step. -/
inductive Before (S : System σ ι ε ρ) (pid : ℕ) (c c' : Config σ ι ε ρ) : Thread σ ι ε ρ → Prop
  | same {thread : Thread σ ι ε ρ} (running : c.threads[pid]? = some thread) :
      Before S pid c c' thread
  | unused {request : ι} (free : c.threads.length ≤ pid)
      (comes : S.accepts request ∨
        ∃ (parent : ℕ) (asked : ι) (next : Prog σ ι ε ρ),
          c.threads[parent]? = some ⟨asked, .fork request next⟩) :
      Before S pid c c' ⟨request, S.code request⟩
  | moved {request : ι} {β : Type} {act : ℕ → σ → β → σ → Prop} {next : β → Prog σ ι ε ρ} {reply : β}
      (running : c.threads[pid]? = some ⟨request, .step act next⟩)
      (acts : act pid c.state reply c'.state) (moves : Moves pid c c') :
      Before S pid c c' ⟨request, next reply⟩
  | forked {request child : ι} {next : Prog σ ι ε ρ}
      (running : c.threads[pid]? = some ⟨request, .fork child next⟩) :
      Before S pid c c' ⟨request, next⟩
  | stopped {thread : Thread σ ι ε ρ} (running : c.threads[pid]? = some thread) :
      Before S pid c c' ⟨thread.request, .stopped⟩

/-- Where the threads of a configuration come from. -/
theorem Step.before (h : Step S c c') (hthread : c'.threads[pid]? = some thread) :
    Before S pid c c' thread := by
  have hset {new : Thread σ ι ε ρ} {number : ℕ}
      (hnumber : (c.threads.set number new)[pid]? = some thread) :
      c.threads[pid]? = some thread ∨ number = pid ∧ thread = new := by
    rw [List.getElem?_set] at hnumber
    split at hnumber
    next hsame =>
      split at hnumber
      · exact Or.inr ⟨hsame, (Option.some.inj hnumber).symm⟩
      · cases hnumber
    next => exact Or.inl hnumber
  have hadd {threads : List (Thread σ ι ε ρ)} {request : ι}
      (hadded : (threads ++ [(⟨request, S.code request⟩ : Thread σ ι ε ρ)])[pid]? = some thread) :
      threads[pid]? = some thread ∨
        threads.length ≤ pid ∧ thread = ⟨request, S.code request⟩ := by
    rw [List.getElem?_append] at hadded
    split at hadded
    · exact Or.inl hadded
    next hlt => exact Or.inr ⟨Nat.le_of_not_lt hlt, List.mem_singleton.1 (List.mem_of_getElem? hadded)⟩
  cases h with
  | arrive accepted =>
      rcases hadd hthread with hsame | ⟨hunused, rfl⟩
      · exact .same hsame
      · exact .unused hunused (Or.inl accepted)
  | run running acts =>
      rcases hset hthread with hsame | ⟨rfl, rfl⟩
      · exact .same hsame
      · exact .moved running acts (.run running acts)
  | fork running =>
      rcases hadd hthread with hold | ⟨hunused, rfl⟩
      · rcases hset hold with hsame | ⟨rfl, rfl⟩
        · exact .same hsame
        · exact .forked running
      · rw [List.length_set] at hunused
        exact .unused hunused (Or.inr ⟨_, _, _, running⟩)
  | stop running =>
      rcases hset hthread with hsame | ⟨rfl, rfl⟩
      · exact .same hsame
      · exact .stopped running
  | environment moves => exact .same hthread

theorem Step.length_le (h : Step S c c') : c.threads.length ≤ c'.threads.length := by
  cases h with
  | arrive accepted => simp
  | run running acts => simp
  | fork running => simp
  | stop running => simp
  | environment moves => simp

theorem Moves.step (h : Moves pid c c') : Step S c c' := by
  cases h with
  | run running acts => exact .run running acts

theorem Moves.length_eq (h : Moves pid c c') : c'.threads.length = c.threads.length := by
  cases h with
  | run running acts => exact List.length_set

/-- A thread serves one request. -/
theorem Reachable.request_eq {thread' : Thread σ ι ε ρ} (hrun : Reachable S allowed c c')
    (hthread : c.threads[pid]? = some thread) (hthread' : c'.threads[pid]? = some thread') :
    thread'.request = thread.request := by
  suffices hall : pid < c'.threads.length ∧ ∀ thread', c'.threads[pid]? = some thread' →
      thread'.request = thread.request from hall.2 thread' hthread'
  clear hthread'
  induction hrun with
  | refl =>
      refine ⟨(List.getElem?_eq_some_iff.1 hthread).1, fun thread' hthread' => ?_⟩
      rw [Option.some.inj (hthread.symm.trans hthread')]
  | tail _ hstep ih =>
      obtain ⟨hlt, ih⟩ := ih
      refine ⟨Nat.lt_of_lt_of_le hlt hstep.1.length_le, fun thread' hthread' => ?_⟩
      cases hstep.1.before hthread' with
      | same running => exact ih _ running
      | unused free comes => exact absurd hlt (Nat.not_lt.2 free)
      | moved running acts moves =>
          have hsame := ih _ running
          exact hsame
      | forked running =>
          have hsame := ih _ running
          exact hsame
      | stopped running =>
          have hsame := ih _ running
          exact hsame

/-- A thread that has settled stays so. -/
theorem Reachable.settled {told : ρ → Prop} {thread' : Thread σ ι ε ρ}
    (hwithin : ∀ c₁, Reachable S allowed c c₁ → C.within c₁.state) (hrun : Reachable S allowed c c')
    (hthread : c.threads[pid]? = some thread) (hsettled : thread.rest.Settled C told pid)
    (hthread' : c'.threads[pid]? = some thread') : thread'.rest.Settled C told pid := by
  suffices hall : pid < c'.threads.length ∧ ∀ thread', c'.threads[pid]? = some thread' →
      thread'.rest.Settled C told pid from hall.2 thread' hthread'
  clear hthread'
  induction hrun with
  | refl =>
      refine ⟨(List.getElem?_eq_some_iff.1 hthread).1, fun thread' hthread' => ?_⟩
      rwa [← Option.some.inj (hthread.symm.trans hthread')]
  | tail hbefore hstep ih =>
      obtain ⟨hlt, ih⟩ := ih
      refine ⟨Nat.lt_of_lt_of_le hlt hstep.1.length_le, fun thread' hthread' => ?_⟩
      cases hstep.1.before hthread' with
      | same running => exact ih _ running
      | unused free comes => exact absurd hlt (Nat.not_lt.2 free)
      | moved running acts moves => exact (ih _ running _ _ _ (hwithin _ hbefore) acts).2
      | forked running => exact (ih _ running).elim
      | stopped running => trivial

/-- A thread has made its change, and tells of it. -/
def Landed (S : System σ ι ε ρ) (allowed : σ → σ → Prop) (C : Conduct σ ε)
    (lands : ι → ρ → σ → σ → Prop) (start c : Config σ ι ε ρ) (pid : ℕ) (thread : Thread σ ι ε ρ) :
    Prop :=
  ∃ c₁ c₂, Reachable S allowed start c₁ ∧ Moves pid c₁ c₂ ∧ allowed c₁.state c₂.state ∧
    Reachable S allowed c₂ c ∧
    thread.rest.Settled C (fun value => lands thread.request value c₁.state c₂.state) pid

/-- Every thread is on the way to its change, or has made it. -/
theorem Reachable.lands_or_landed
    (hcode : ∀ pid request, concerned request →
      (S.code request).Lands C (lands request) (silent request) pid)
    (hwithin : ∀ c₁, Reachable S allowed start c₁ → C.within c₁.state)
    (hrun : Reachable S allowed start c) (hnew : start.threads.length ≤ pid) (hthread : c.threads[pid]? = some thread)
    (hconcerned : concerned thread.request) :
    thread.rest.Lands C (lands thread.request) (silent thread.request) pid ∨
      Landed S allowed C lands start c pid thread := by
  induction hrun generalizing thread with
  | refl => exact absurd (List.getElem?_eq_some_iff.1 hthread).1 (Nat.not_lt.2 hnew)
  | @tail c c' hbefore hstep ih =>
      -- A change that was made before the step.
      have hlater {old new : Thread σ ι ε ρ} (hrequest : new.request = old.request)
          (hlanded : Landed S allowed C lands start c pid old)
          (hrest : ∀ told, old.rest.Settled C told pid → new.rest.Settled C told pid) :
          Landed S allowed C lands start c' pid new := by
        obtain ⟨c₁, c₂, hfirst, hmoves, hallowed, hrun, hsettled⟩ := hlanded
        rw [← hrequest] at hsettled
        exact ⟨c₁, c₂, hfirst, hmoves, hallowed, hrun.tail hstep, hrest _ hsettled⟩
      cases hstep.1.before hthread with
      | same running =>
          rcases ih running hconcerned with hlands | hlanded
          · exact Or.inl hlands
          · exact Or.inr (hlater rfl hlanded fun _ h => h)
      | unused free comes => exact Or.inl (hcode pid _ hconcerned)
      | moved running acts moves =>
          have hfrom := hwithin _ hbefore
          rcases ih running hconcerned with hlands | hlanded
          · rcases hlands _ _ _ hfrom acts with ⟨-, hnext⟩ | ⟨-, hnext⟩
            · exact Or.inl hnext
            · exact Or.inr ⟨c, c', hbefore, moves, hstep.2, .refl, hnext⟩
          · refine Or.inr (hlater ?_ hlanded ?_)
            · rfl
            · intro told hsettled
              exact (hsettled _ _ _ hfrom acts).2
      | forked running =>
          rcases ih running hconcerned with hlands | ⟨_, _, _, _, _, _, hsettled⟩
          · exact hlands.elim
          · exact hsettled.elim
      | stopped running => exact Or.inl trivial

/-- What the threads of a run have done for their requests: a step of a thread is quiet or makes
the change of its request, which no thread makes twice; who has returned has made the change that
it tells of, or is silent; who has failed has changed nothing. -/
structure Outcomes (S : System σ ι ε ρ) (allowed : σ → σ → Prop) (C : Conduct σ ε)
    (lands : ι → ρ → σ → σ → Prop) (silent : ι → ρ → Prop) (start c : Config σ ι ε ρ) (pid : ℕ)
    (thread : Thread σ ι ε ρ) : Prop where
  moves : ∀ c₁ c₂, Reachable S allowed start c₁ → Moves pid c₁ c₂ → allowed c₁.state c₂.state →
    Reachable S allowed c₂ c →
      C.quiet c₁.state c₂.state ∨ ∃ value, lands thread.request value c₁.state c₂.state
  once : ∀ c₁ c₂ c₃ c₄, Reachable S allowed start c₁ → Moves pid c₁ c₂ →
    allowed c₁.state c₂.state → Reachable S allowed c₂ c₃ → Moves pid c₃ c₄ →
    allowed c₃.state c₄.state → Reachable S allowed c₄ c →
      C.quiet c₁.state c₂.state ∨ C.quiet c₃.state c₄.state
  returned : ∀ value, thread.rest = .done value → silent thread.request value ∨
    ∃ c₁ c₂, Reachable S allowed start c₁ ∧ Moves pid c₁ c₂ ∧ allowed c₁.state c₂.state ∧
      Reachable S allowed c₂ c ∧ lands thread.request value c₁.state c₂.state
  failed : ∀ failure, thread.rest = .fail failure → C.fails failure ∧
    ∀ c₁ c₂, Reachable S allowed start c₁ → Moves pid c₁ c₂ → allowed c₁.state c₂.state →
      Reachable S allowed c₂ c → C.quiet c₁.state c₂.state

/-- Every thread of a run serves a request that was accepted. -/
theorem Reachable.accepted {state : σ}
    (hcode : ∀ pid request, S.accepts request →
      (S.code request).Lands C (lands request) (silent request) pid)
    (hwithin : ∀ c₁, Reachable S allowed (.idle state) c₁ → C.within c₁.state)
    (hrun : Reachable S allowed (.idle state) c) (hthread : c.threads[pid]? = some thread) :
    S.accepts thread.request := by
  induction hrun generalizing pid thread with
  | refl => cases hthread
  | tail hbefore hstep ih =>
      cases hstep.1.before hthread with
      | same running => exact ih running
      | unused free comes =>
          -- A thread that has something to do starts no other one.
          rcases comes with haccepted | ⟨parent, asked, next, hparent⟩
          · exact haccepted
          · have hlands := Reachable.lands_or_landed hcode hwithin hbefore (Nat.zero_le parent)
              hparent (ih hparent)
            rcases hlands with hlands | ⟨_, _, _, _, _, _, hsettled⟩
            · exact hlands.elim
            · exact hsettled.elim
      | moved running acts moves =>
          have haccepted := ih running
          exact haccepted
      | forked running =>
          have haccepted := ih running
          exact haccepted
      | stopped running =>
          have haccepted := ih running
          exact haccepted

section Outcomes

variable (hcode : ∀ pid request, concerned request →
    (S.code request).Lands C (lands request) (silent request) pid)
  (hwithin : ∀ c₁, Reachable S allowed start c₁ → C.within c₁.state)
include hcode hwithin

/-- A step of a thread is quiet, or the thread has settled for good. -/
theorem Moves.quiet_or_settled (hrun : Reachable S allowed start c₁)
    (hnew : start.threads.length ≤ pid) (hmoves : Moves pid c₁ c₂)
    (hallowed : allowed c₁.state c₂.state) (hlater : Reachable S allowed c₂ c)
    (hthread : c.threads[pid]? = some thread) (hconcerned : concerned thread.request) :
    C.quiet c₁.state c₂.state ∨
      ((∃ value, lands thread.request value c₁.state c₂.state) ∧
        ∀ c₃ thread', Reachable S allowed c₂ c₃ → c₃.threads[pid]? = some thread' →
          thread'.rest.Settled C
            (fun value => lands thread.request value c₁.state c₂.state) pid) := by
  have hfrom := hwithin _ hrun
  have hafter (c₃ : Config σ ι ε ρ) (hrun' : Reachable S allowed c₂ c₃) : C.within c₃.state :=
    hwithin c₃ ((hrun.tail ⟨hmoves.step, hallowed⟩).trans hrun')
  cases hmoves with
  | @run request β act next reply after running acts =>
      have hset : (c₁.threads.set pid ⟨request, next reply⟩)[pid]? = some ⟨request, next reply⟩ :=
        List.getElem?_set_self (List.getElem?_eq_some_iff.1 running).1
      have hrequest : thread.request = request := hlater.request_eq hset hthread
      rw [hrequest] at hconcerned ⊢
      rcases hrun.lands_or_landed hcode hwithin hnew running hconcerned with hlands | hlanded
      · rcases hlands _ _ _ hfrom acts with ⟨hquiet, -⟩ | ⟨hvalue, hnext⟩
        · exact Or.inl hquiet
        · refine Or.inr ⟨hvalue, fun c₃ thread' hrun' hthread' => ?_⟩
          exact hrun'.settled hafter hset hnext hthread'
      · obtain ⟨_, _, _, _, _, _, hsettled⟩ := hlanded
        exact Or.inl (hsettled _ _ _ hfrom acts).1

/-- The threads of a run do what their programs do. -/
theorem Reachable.outcomes (hrun : Reachable S allowed start c)
    (hnew : start.threads.length ≤ pid) (hthread : c.threads[pid]? = some thread)
    (hconcerned : concerned thread.request) :
    Outcomes S allowed C lands silent start c pid thread where
  moves c₁ c₂ hfirst hmoves hallowed hlater := by
    have hstep := hmoves.quiet_or_settled hcode hwithin hfirst hnew hallowed hlater hthread hconcerned
    exact hstep.imp_right fun h => h.1
  once c₁ c₂ c₃ c₄ hfirst hmoves hallowed hbetween hmoves' hallowed' hlater := by
    have hrest := hbetween.trans ((Relation.ReflTransGen.single ⟨hmoves'.step, hallowed'⟩).trans hlater)
    rcases hmoves.quiet_or_settled hcode hwithin hfirst hnew hallowed hrest hthread hconcerned with
      hquiet | ⟨-, hsettled⟩
    · exact Or.inl hquiet
    · cases hmoves' with
      | run running acts =>
          have hfrom := hwithin c₃ ((hfirst.tail ⟨hmoves.step, hallowed⟩).trans hbetween)
          exact Or.inr (hsettled c₃ _ hbetween running _ _ _ hfrom acts).1
  returned value hdone := by
    rcases hrun.lands_or_landed hcode hwithin hnew hthread hconcerned with hlands | hlanded
    · rw [hdone] at hlands
      exact Or.inl hlands
    · obtain ⟨c₁, c₂, hfirst, hmoves, hallowed, hlater, hsettled⟩ := hlanded
      rw [hdone] at hsettled
      exact Or.inr ⟨c₁, c₂, hfirst, hmoves, hallowed, hlater, hsettled⟩
  failed failure hfail := by
    constructor
    · rcases hrun.lands_or_landed hcode hwithin hnew hthread hconcerned with hlands | hlanded
      · rwa [hfail] at hlands
      · obtain ⟨_, _, _, _, _, _, hsettled⟩ := hlanded
        rw [hfail] at hsettled
        exact hsettled.elim
    · intro c₁ c₂ hfirst hmoves hallowed hlater
      rcases hmoves.quiet_or_settled hcode hwithin hfirst hnew hallowed hlater hthread hconcerned with
        hquiet | ⟨-, hsettled⟩
      · exact hquiet
      · have hend := hsettled c thread hlater hthread
        rw [hfail] at hend
        exact hend.elim

end Outcomes

/-- What the changes of a run mean. -/
theorem Outcomes.imp {lands' : ι → ρ → σ → σ → Prop}
    (h : Outcomes S allowed C lands silent start c pid thread)
    (hlands : ∀ c₁ c₂ value, Reachable S allowed start c₁ → Moves pid c₁ c₂ →
      allowed c₁.state c₂.state → Reachable S allowed c₂ c →
      lands thread.request value c₁.state c₂.state →
        lands' thread.request value c₁.state c₂.state) :
    Outcomes S allowed C lands' silent start c pid thread where
  moves c₁ c₂ hfirst hmoves hallowed hlater := by
    apply (h.moves c₁ c₂ hfirst hmoves hallowed hlater).imp_right
    intro hvalue
    obtain ⟨value, hvalue⟩ := hvalue
    exact ⟨value, hlands c₁ c₂ value hfirst hmoves hallowed hlater hvalue⟩
  once := h.once
  returned value hdone := by
    apply (h.returned value hdone).imp_right
    intro hlanded
    obtain ⟨c₁, c₂, hfirst, hmoves, hallowed, hlater, hvalue⟩ := hlanded
    exact ⟨c₁, c₂, hfirst, hmoves, hallowed, hlater,
      hlands c₁ c₂ value hfirst hmoves hallowed hlater hvalue⟩
  failed := h.failed

end Interleaving

/-! ### The statements of a transaction -/

namespace ReadCommitted

open Interleaving RowLocks

variable {σ κ τ ι ε α β : Type}

/-- A conduct that concerns what is committed. -/
def conduct (within : σ → Prop) (quiet : σ → σ → Prop) (quiet_refl : ∀ s, quiet s s)
    (fails : ε → Prop) : Conduct (Shared σ κ τ) ε where
  within w := within w.committed
  quiet before after := quiet before.committed after.committed
  quiet_refl w := quiet_refl w.committed
  fails := fails

variable {within : σ → Prop} {quiet : σ → σ → Prop} {quiet_refl : ∀ s, quiet s s}
  {fails : ε → Prop} {pid : ℕ} {mode : Mode} {rows : σ → List κ} {trace : β → List τ}
  {events : List τ} {silent : α → Prop} {lands : α → Shared σ κ τ → Shared σ κ τ → Prop}

theorem lands_check {outcome : Except ε β} {rest : β → Prog (Shared σ κ τ) ι ε α}
    (hfails : ∀ failure, outcome = .error failure → fails failure)
    (hrest : ∀ value, outcome = .ok value →
      (rest value).Lands (conduct within quiet quiet_refl fails) lands silent pid) :
    ((MonadExcept.ofExcept outcome : Prog (Shared σ κ τ) ι ε β) >>= rest).Lands
      (conduct within quiet quiet_refl fails) lands silent pid := by
  cases outcome with
  | ok value => exact hrest value rfl
  | error failure => exact hfails failure rfl

theorem lands_anything {rest : β → Prog (Shared σ κ τ) ι ε α}
    (hrest : ∀ value, (rest value).Lands (conduct within quiet quiet_refl fails) lands silent pid) :
    ((Prog.anything β : Prog (Shared σ κ τ) ι ε β) >>= rest).Lands
      (conduct within quiet quiet_refl fails) lands silent pid := by
  intro before value after _ hact
  rw [hact]
  exact Or.inl ⟨quiet_refl _, hrest value⟩

/-- The next value of a sequence. -/
theorem lands_draw {next : σ → β} {advance : σ → σ} {rest : β → Prog (Shared σ κ τ) ι ε α}
    (hquiet : ∀ s, within s → quiet s (advance s))
    (hrest : ∀ value, (rest value).Lands (conduct within quiet quiet_refl fails) lands silent pid) :
    (draw next advance >>= rest).Lands (conduct within quiet quiet_refl fails) lands silent pid := by
  intro before value after hwithin hact
  obtain ⟨rfl, rfl⟩ := hact
  exact Or.inl ⟨hquiet _ hwithin, hrest _⟩

/-- A transaction that is rolled back changes nothing. -/
theorem lands_inTransaction {body : Prog (Shared σ κ τ) ι ε α}
    (h : body.Lands (conduct within quiet quiet_refl fails) lands silent pid) :
    (inTransaction events body).Lands (conduct within quiet quiet_refl fails) lands silent pid := by
  apply h.tryCatch
  intro failure hfails before value after _ hact
  subst hact
  exact Or.inl ⟨quiet_refl _, hfails⟩

variable [Rejects ε] {pending : Pending σ ε}

theorem lands_evaluate {read : σ → Except ε β} {rest : β → Prog (Shared σ κ τ) ι ε α}
    (hfails : ∀ s failure, within s →
      (pending s >>= read) = .error failure ∨ Rejects.rejected failure → fails failure)
    (hrest : ∀ s value, within s → (pending s >>= read) = .ok value →
      (rest value).Lands (conduct within quiet quiet_refl fails) lands silent pid) :
    (evaluate pending mode rows read trace >>= rest).Lands (conduct within quiet quiet_refl fails)
      lands silent pid := by
  intro before reply after hwithin hact
  cases hact with
  | returned hfree hread => exact Or.inl ⟨quiet_refl _, hrest _ _ hwithin hread⟩
  | threw hthrown => exact Or.inl ⟨quiet_refl _, hfails _ _ hwithin (Or.inl hthrown)⟩
  | aborted hrejected => exact Or.inl ⟨quiet_refl _, hfails _ _ hwithin (Or.inr hrejected)⟩

/-- Writes that are not committed yet. -/
theorem lands_writing {write : σ → Except ε σ} {rest : Pending σ ε → Prog (Shared σ κ τ) ι ε α}
    (hfails : ∀ s failure, within s →
      (pending s >>= write) = .error failure ∨ Rejects.rejected failure → fails failure)
    (hrest : (rest (pending.andThen write)).Lands (conduct within quiet quiet_refl fails)
      lands silent pid) :
    (writing pending mode rows write >>= rest).Lands (conduct within quiet quiet_refl fails)
      lands silent pid := by
  intro before reply after hwithin hact
  cases hact with
  | returned hfree hread => exact Or.inl ⟨quiet_refl _, hrest⟩
  | threw hthrown => exact Or.inl ⟨quiet_refl _, hfails _ _ hwithin (Or.inl hthrown)⟩
  | aborted hrejected => exact Or.inl ⟨quiet_refl _, hfails _ _ hwithin (Or.inr hrejected)⟩

/-- A statement at the end of a part. -/
theorem quiet_evaluate {read : σ → Except ε β}
    (hfails : ∀ s failure, within s →
      (pending s >>= read) = .error failure ∨ Rejects.rejected failure → fails failure) :
    (evaluate pending mode rows read trace : Prog (Shared σ κ τ) ι ε β).Lands
      (conduct within quiet quiet_refl fails) Prog.noChange (fun _ => True) pid := by
  intro before reply after hwithin hact
  cases hact with
  | returned hfree hread => exact Or.inl ⟨quiet_refl _, trivial⟩
  | threw hthrown => exact Or.inl ⟨quiet_refl _, hfails _ _ hwithin (Or.inl hthrown)⟩
  | aborted hrejected => exact Or.inl ⟨quiet_refl _, hfails _ _ hwithin (Or.inr hrejected)⟩

theorem quiet_writing {write : σ → Except ε σ}
    (hfails : ∀ s failure, within s →
      (pending s >>= write) = .error failure ∨ Rejects.rejected failure → fails failure) :
    (writing pending mode rows write : Prog (Shared σ κ τ) ι ε (Pending σ ε)).Lands
      (conduct within quiet quiet_refl fails) Prog.noChange (fun _ => True) pid := by
  apply (quiet_evaluate hfails).after
  intro _ _
  exact .returned trivial

/-- A commit makes the change that is told of, or is quiet too. -/
theorem lands_commitWrites {result : α}
    (hcommitted : ∀ w s, within w.committed → pending w.committed = .ok s →
      quiet w.committed s ∧ silent result ∨ lands result w (w.finish pid s events))
    (hfails : ∀ s failure, within s →
      pending s = .error failure ∨ Rejects.rejected failure → fails failure) :
    ((commitWrites pending events : Prog (Shared σ κ τ) ι ε Unit) >>= fun _ => pure result).Lands
      (conduct within quiet quiet_refl fails) lands silent pid := by
  intro before reply after hwithin hact
  cases hact with
  | committed hwrites =>
      rcases hcommitted before _ hwithin hwrites with ⟨hquiet, hsilent⟩ | hlands
      · exact Or.inl ⟨hquiet, hsilent⟩
      · exact Or.inr ⟨⟨result, hlands⟩, hlands⟩
  | refused hthrown => exact Or.inl ⟨quiet_refl _, hfails _ _ hwithin (Or.inl hthrown)⟩
  | failed hrejected => exact Or.inl ⟨quiet_refl _, hfails _ _ hwithin (Or.inr hrejected)⟩

end ReadCommitted
