import ChatTea.Lib.Interleaving

/-!
# Programs that run alone

What a program does when no other thread moves between its steps.

## Main definitions

* `Interleaving.Prog.Alone` — the postconditions of a program that runs alone
* `Interleaving.Prog.Preserves` — every step of a program keeps an assertion

## Main results

* `Prog.Alone.bind`, `Prog.Alone.tryCatch` — one rule for each way to build a program
* `Prog.Alone.runs`, `Prog.Alone.of_runs` — a run that returns or throws meets its postcondition
-/

namespace Interleaving

variable {σ ι ε α β : Type}

namespace Prog

/-- The program meets its postconditions if no other thread moves. -/
def Alone (pid : ℕ) : Prog σ ι ε α → (α → σ → Prop) → (ε → σ → Prop) → σ → Prop
  | .done value, returns, _, s => returns value s
  | .fail failure, _, throws, s => throws failure s
  | .step act next, returns, throws, s =>
      ∀ reply after, act pid s reply after → Alone pid (next reply) returns throws after
  | .fork _ next, returns, throws, s => Alone pid next returns throws s
  | .stopped, _, _, _ => True

/-- Every step of the program keeps the assertion, whatever the others have replied. -/
def Preserves (pid : ℕ) (assertion : σ → Prop) : Prog σ ι ε α → Prop
  | .done _ => True
  | .fail _ => True
  | .step act next => (∀ before reply after, assertion before → act pid before reply after →
      assertion after) ∧ ∀ reply, Preserves pid assertion (next reply)
  | .fork _ next => Preserves pid assertion next
  | .stopped => True

variable {pid : ℕ} {program : Prog σ ι ε α} {rest : α → Prog σ ι ε β}
  {handler : ε → Prog σ ι ε α} {returns returns' : α → σ → Prop} {throws throws' : ε → σ → Prop}
  {assertion : σ → Prop} {s : σ}

theorem Alone.mono (h : program.Alone pid returns throws s)
    (hreturns : ∀ value s, returns value s → returns' value s)
    (hthrows : ∀ failure s, throws failure s → throws' failure s) :
    program.Alone pid returns' throws' s := by
  induction program generalizing s with
  | done value => exact hreturns value s h
  | fail failure => exact hthrows failure s h
  | step act next ih => exact fun reply after hact => ih reply (h reply after hact)
  | fork request next ih => exact ih h
  | stopped => trivial

/-- What a program returns the rest of the sequence starts from. -/
theorem Alone.bind {returns : β → σ → Prop}
    (h : program.Alone pid (fun value => (rest value).Alone pid returns throws) throws s) :
    (program.bind rest).Alone pid returns throws s := by
  induction program generalizing s with
  | done value => exact h
  | fail failure => exact h
  | step act next ih => exact fun reply after hact => ih reply (h reply after hact)
  | fork request next ih => exact ih h
  | stopped => trivial

theorem Alone.tryCatch
    (h : program.Alone pid returns (fun failure => (handler failure).Alone pid returns throws) s) :
    (program.tryCatch handler).Alone pid returns throws s := by
  induction program generalizing s with
  | done value => exact h
  | fail failure => exact h
  | step act next ih => exact fun reply after hact => ih reply (h reply after hact)
  | fork request next ih => exact ih h
  | stopped => trivial

/-- What the rest of a run still has to meet. -/
theorem Alone.runs {allowed : σ → σ → Prop} {program' : Prog σ ι ε α} {s' : σ}
    (h : program.Alone pid returns throws s) (hruns : Runs allowed pid program s program' s') :
    program'.Alone pid returns throws s' := by
  induction hruns with
  | refl => exact h
  | step reply between acts permitted _ ih => exact ih (h reply between acts)

/-- A run that returns meets the postcondition. -/
theorem Alone.of_runs {allowed : σ → σ → Prop} {value : α} {s' : σ}
    (h : program.Alone pid returns throws s)
    (hruns : Runs allowed pid program s (.done value) s') : returns value s' := h.runs hruns

theorem alone_true : program.Alone pid (fun _ _ => True) (fun _ _ => True) s := by
  induction program generalizing s with
  | done value => trivial
  | fail failure => trivial
  | step act next ih => exact fun reply after _ => ih reply
  | fork request next ih => exact ih
  | stopped => trivial

/-- Nothing has to be known of what comes first. -/
theorem alone_bind_of_forall {returns : β → σ → Prop}
    (hrest : ∀ value s, (rest value).Alone pid returns (fun _ _ => True) s) :
    (program.bind rest).Alone pid returns (fun _ _ => True) s :=
  Alone.bind (alone_true.mono (fun value s _ => hrest value s) fun _ _ _ => trivial)

theorem Preserves.alone (h : program.Preserves pid assertion) (hs : assertion s) :
    program.Alone pid (fun _ => assertion) (fun _ => assertion) s := by
  induction program generalizing s with
  | done value => exact hs
  | fail failure => exact hs
  | step act next ih =>
      intro reply after hact
      exact ih reply (h.2 reply) (h.1 s reply after hs hact)
  | fork request next ih => exact ih h hs
  | stopped => trivial

/-- What comes first keeps what the rest starts from. -/
theorem Preserves.alone_bind {returns : β → σ → Prop} (h : program.Preserves pid assertion)
    (hs : assertion s)
    (hrest : ∀ value s, assertion s → (rest value).Alone pid returns (fun _ _ => True) s) :
    (program.bind rest).Alone pid returns (fun _ _ => True) s :=
  Alone.bind ((h.alone hs).mono hrest fun _ _ _ => trivial)

theorem Preserves.bind (h : program.Preserves pid assertion)
    (hrest : ∀ value, (rest value).Preserves pid assertion) :
    (program.bind rest).Preserves pid assertion := by
  induction program with
  | done value => exact hrest value
  | fail failure => trivial
  | step act next ih => exact ⟨h.1, fun reply => ih reply (h.2 reply)⟩
  | fork request next ih => exact ih h
  | stopped => trivial

theorem Preserves.tryCatch (h : program.Preserves pid assertion)
    (hhandler : ∀ failure, (handler failure).Preserves pid assertion) :
    (program.tryCatch handler).Preserves pid assertion := by
  induction program with
  | done value => trivial
  | fail failure => exact hhandler failure
  | step act next ih => exact ⟨h.1, fun reply => ih reply (h.2 reply)⟩
  | fork request next ih => exact ih h
  | stopped => trivial

theorem preserves_atomic {act : ℕ → σ → β → σ → Prop}
    (h : ∀ before reply after, assertion before → act pid before reply after → assertion after) :
    (atomic act : Prog σ ι ε β).Preserves pid assertion :=
  ⟨h, fun _ => trivial⟩

theorem preserves_attempt {act : ℕ → σ → Except ε β → σ → Prop}
    (h : ∀ before reply after, assertion before → act pid before reply after → assertion after) :
    (attempt act : Prog σ ι ε β).Preserves pid assertion := by
  refine ⟨h, fun reply => ?_⟩
  cases reply with
  | ok value => trivial
  | error failure => trivial

/-- A value from outside changes nothing. -/
theorem preserves_anything : (anything β : Prog σ ι ε β).Preserves pid assertion := by
  refine preserves_atomic fun before reply after hbefore hact => ?_
  rw [hact]
  exact hbefore

theorem alone_attempt {act : ℕ → σ → Except ε α → σ → Prop}
    (hok : ∀ value after, act pid s (.ok value) after → returns value after)
    (herror : ∀ failure after, act pid s (.error failure) after → throws failure after) :
    (attempt act : Prog σ ι ε α).Alone pid returns throws s := by
  intro reply after hact
  cases reply with
  | ok value => exact hok value after hact
  | error failure => exact herror failure after hact

end Prog

end Interleaving
