import ChatTea.Lib.Interleaving

/-!
# Failures that nothing catches

Some steps of a program raise a failure in the shared state. What is left of the program may
handle it, or pass it on: then it ends with that failure, whatever the other threads do, and
takes only steps of a given kind until then.

## Main definitions

* `Prog.Fails` — the program ends with a failure, and until then takes steps of a kind
* `Prog.Raises` — what is left after a failure was raised ends with it

## Main results

* `Fails.unique` — a program ends with one failure
* `Raises.bind`, `Raises.tryCatch` — one rule for each way to build a program
* `Reachable.raises` — what a thread of a run raises, it ends with
-/

namespace Interleaving

variable {σ ι ε ρ α β : Type}

namespace Prog

/-- The program can always go on, takes steps of a kind, and ends with the failure. -/
def Fails (kind : σ → σ → Prop) (pid : ℕ) (failure : ε) : Prog σ ι ε α → Prop
  | .done _ => False
  | .fail thrown => thrown = failure
  | .step act next =>
      (∀ before, ∃ reply after, act pid before reply after) ∧
        (∀ before reply after, act pid before reply after → kind before after) ∧
        ∀ reply, (next reply).Fails kind pid failure
  | .fork _ _ => False
  | .stopped => False

/-- A step that raises a failure is of the kind, and what is left ends with the failure. -/
def Raises (raised : ε → σ → σ → Prop) (kind : σ → σ → Prop) (pid : ℕ) : Prog σ ι ε α → Prop
  | .done _ => True
  | .fail _ => True
  | .step act next =>
      (∀ before reply after failure, act pid before reply after → raised failure before after →
        kind before after ∧ (next reply).Fails kind pid failure) ∧
        ∀ reply, (next reply).Raises raised kind pid
  | .fork _ next => next.Raises raised kind pid
  | .stopped => True

variable {kind : σ → σ → Prop} {raised : ε → σ → σ → Prop} {pid : ℕ} {failure failure' : ε}
  {program : Prog σ ι ε α} {rest : α → Prog σ ι ε β} {handler : ε → Prog σ ι ε α}

namespace Fails

theorem unique [hstate : Nonempty σ] (h : program.Fails kind pid failure)
    (h' : program.Fails kind pid failure') : failure = failure' := by
  induction program with
  | done value => exact h.elim
  | fail thrown => exact h.symm.trans h'
  | step act next ih =>
      obtain ⟨state⟩ := hstate
      obtain ⟨reply, -, -⟩ := h.1 state
      exact ih reply (h.2.2 reply) (h'.2.2 reply)
  | fork request next ih => exact h.elim
  | stopped => exact h.elim

/-- What follows is not reached. -/
theorem bind (h : program.Fails kind pid failure) : (program.bind rest).Fails kind pid failure := by
  induction program with
  | done value => exact h.elim
  | fail thrown => exact h
  | step act next ih => exact ⟨h.1, h.2.1, fun reply => ih reply (h.2.2 reply)⟩
  | fork request next ih => exact h.elim
  | stopped => exact h.elim

/-- A handler may fail otherwise. -/
theorem tryCatch (h : program.Fails kind pid failure)
    (hhandler : (handler failure).Fails kind pid failure') :
    (program.tryCatch handler).Fails kind pid failure' := by
  induction program with
  | done value => exact h.elim
  | fail thrown =>
      obtain rfl : thrown = failure := h
      exact hhandler
  | step act next ih => exact ⟨h.1, h.2.1, fun reply => ih reply (h.2.2 reply)⟩
  | fork request next ih => exact h.elim
  | stopped => exact h.elim

end Fails

namespace Raises

theorem bind (h : program.Raises raised kind pid)
    (hrest : ∀ value, (rest value).Raises raised kind pid) :
    (program >>= rest).Raises raised kind pid := by
  change (program.bind rest).Raises raised kind pid
  induction program with
  | done value => exact hrest value
  | fail thrown => trivial
  | step act next ih =>
      refine ⟨?_, fun reply => ih reply (h.2 reply)⟩
      intro before reply after failure hact hraised
      obtain ⟨hkind, hfails⟩ := h.1 before reply after failure hact hraised
      exact ⟨hkind, hfails.bind⟩
  | fork request next ih => exact ih h
  | stopped => trivial

/-- A handler that passes on what is raised. -/
theorem tryCatch (h : program.Raises raised kind pid)
    (hhandler : ∀ failure, (handler failure).Raises raised kind pid)
    (hpasses : ∀ failure before after, raised failure before after →
      (handler failure).Fails kind pid failure) :
    Raises raised kind pid (MonadExcept.tryCatch program handler) := by
  change (program.tryCatch handler).Raises raised kind pid
  induction program with
  | done value => trivial
  | fail thrown => exact hhandler thrown
  | step act next ih =>
      refine ⟨?_, fun reply => ih reply (h.2 reply)⟩
      intro before reply after failure hact hraised
      obtain ⟨hkind, hfails⟩ := h.1 before reply after failure hact hraised
      exact ⟨hkind, hfails.tryCatch (hpasses failure before after hraised)⟩
  | fork request next ih => exact ih h
  | stopped => trivial

/-- A step that throws what it raises. -/
theorem attempt {act : ℕ → σ → Except ε β → σ → Prop}
    (h : ∀ before reply after failure, act pid before reply after → raised failure before after →
      kind before after ∧ reply = .error failure) :
    (Prog.attempt act : Prog σ ι ε β).Raises raised kind pid := by
  constructor
  · intro before reply after failure hact hraised
    obtain ⟨hkind, rfl⟩ := h before reply after failure hact hraised
    exact ⟨hkind, rfl⟩
  · intro reply
    cases reply <;> trivial

/-- A step that raises nothing. -/
theorem atomic {act : ℕ → σ → β → σ → Prop}
    (h : ∀ before reply after failure, act pid before reply after → ¬ raised failure before after) :
    (Prog.atomic act : Prog σ ι ε β).Raises raised kind pid := by
  refine ⟨?_, fun _ => trivial⟩
  intro before reply after failure hact hraised
  exact absurd hraised (h before reply after failure hact)

theorem returned (value : β) : Raises raised kind pid (pure value : Prog σ ι ε β) := trivial

theorem thrown (failure : ε) : Raises raised kind pid (throw failure : Prog σ ι ε β) := trivial

theorem check (outcome : Except ε β) :
    Raises raised kind pid (MonadExcept.ofExcept outcome : Prog σ ι ε β) := by
  cases outcome <;> trivial

end Raises

end Prog

/-- What a thread of a run raises, it ends with. -/
theorem Reachable.raises {S : System σ ι ε ρ} {allowed : σ → σ → Prop} {c : Config σ ι ε ρ}
    {start : σ} {raised : ε → σ → σ → Prop} {kind : σ → σ → Prop} {concerned : ι → Prop}
    (hcode : ∀ pid request, concerned request → (S.code request).Raises raised kind pid)
    (hrun : Reachable S allowed (.idle start) c) {pid : ℕ} {request : ι} {β : Type}
    {act : ℕ → σ → β → σ → Prop} {next : β → Prog σ ι ε ρ} {reply : β} {after : σ} {failure : ε}
    (hthread : c.threads[pid]? = some ⟨request, .step act next⟩) (hrequest : concerned request)
    (hact : act pid c.state reply after) (hraised : raised failure c.state after) :
    kind c.state after ∧ (next reply).Fails kind pid failure := by
  let Good (pid : ℕ) (thread : Thread σ ι ε ρ) : Prop :=
    concerned thread.request → thread.rest.Raises raised kind pid
  have hall : ∀ pid thread, c.threads[pid]? = some thread → Good pid thread := by
    apply hrun.threads Good hcode
    · intro pid request β act next reply hstep hrequest
      exact (hstep hrequest).2 reply
    · intro pid request child next hfork
      exact hfork
    · intro pid request _
      trivial
    · intro pid thread hnone
      cases hnone
  have hgood := hall pid _ hthread
  exact (hgood hrequest).1 c.state reply after failure hact hraised

end Interleaving
