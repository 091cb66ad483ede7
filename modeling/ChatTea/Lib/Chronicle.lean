import ChatTea.Lib.History
import ChatTea.Lib.Interleaving
import ChatTea.Lib.Transaction

/-!
# Transactions with a chronicle

A state that transactions change, with the chronicle of what they did. A transaction is one step:
it commits, and then its entries are in the chronicle, or it leaves everything as it was. The
caller may also learn nothing of a commit.

## Main definitions

* `Chronicle` — the state and what was done to it
* `Chronicle.statement`, `Chronicle.transact` — a transaction
* `Chronicle.consult` — an outside service, whose answer is noted
* `Chronicle.Performs`, `Chronicle.Reaches`, `Chronicle.GetsTo` — what a program does when nothing
  comes between its steps

## Main results

* `stays_transact` — a kind of steps
* `holds_statement`, `holds_transact`, `holds_consult` — what has to be checked under interference
* `Performs.bind`, `Reaches.bind` — a program that no one disturbs
-/

/-- A state, and what was done to it, the newest entry first. -/
structure Chronicle (σ τ : Type) where
  current : σ
  log : List (ℕ × τ)

namespace Chronicle

open History Interleaving Transaction

variable {σ τ ι ε ρ α : Type}

/-- The state after a step of a thread, with the entries of the step. -/
def advance (c : Chronicle σ τ) (pid : ℕ) (current : σ) (events : List τ) : Chronicle σ τ where
  current := current
  log := stamp pid events ++ c.log

@[simp] theorem advance_current (c : Chronicle σ τ) (pid : ℕ) (current : σ) (events : List τ) :
    (c.advance pid current events).current = current := rfl

@[simp] theorem advance_log (c : Chronicle σ τ) (pid : ℕ) (current : σ) (events : List τ) :
    (c.advance pid current events).log = stamp pid events ++ c.log := rfl

/-- The state that nothing was done to. -/
def start (current : σ) : Chronicle σ τ := ⟨current, []⟩

/-- A transaction, with what is noted of it. -/
inductive Transacts (call : Call σ ε α) (notes : α → σ → σ → List τ) (pid : ℕ)
    (c : Chronicle σ τ) : Except ε α → Chronicle σ τ → Prop
  | committed {value after} (returns : call c.current = .ok (value, after)) :
      Transacts call notes pid c (.ok value)
        (c.advance pid after (notes value c.current after))
  | threw {failure} (throws : call c.current = .error failure) :
      Transacts call notes pid c (.error failure) c
  | unreachable (failure) : Transacts call notes pid c (.error failure) c
  | answerLost {value after} (failure) (returns : call c.current = .ok (value, after)) :
      Transacts call notes pid c (.error failure)
        (c.advance pid after (notes value c.current after))

/-- A transaction that depends on the session of its thread. -/
def statement (call : ℕ → Call σ ε α) (notes : α → σ → σ → List τ) :
    Prog (Chronicle σ τ) ι ε α :=
  .attempt fun pid => Transacts (call pid) notes pid

def transact (call : Call σ ε α) (notes : α → σ → σ → List τ) :
    Prog (Chronicle σ τ) ι ε α :=
  statement (fun _ => call) notes

/-- An outside service may answer anything. -/
def consult (notes : α → List τ) : Prog (Chronicle σ τ) ι ε α :=
  .atomic fun pid c answer after => after = c.advance pid c.current (notes answer)

/-! ### A kind of steps -/

section Kinds

variable {kind : Chronicle σ τ → Chronicle σ τ → Prop} {pid : ℕ} {call : Call σ ε α}
  {notes : α → σ → σ → List τ}

/-- A transaction that commits, or nothing at all. -/
theorem Transacts.cases {c c' : Chronicle σ τ} {reply : Except ε α}
    (h : Transacts call notes pid c reply c') :
    c' = c ∨ ∃ value after, call c.current = .ok (value, after) ∧
      c' = c.advance pid after (notes value c.current after) := by
  cases h with
  | committed returns => exact Or.inr ⟨_, _, returns, rfl⟩
  | threw throws => exact Or.inl rfl
  | unreachable failure => exact Or.inl rfl
  | answerLost failure returns => exact Or.inr ⟨_, _, returns, rfl⟩

theorem stays_transact (hsame : ∀ c, kind c c)
    (hcall : ∀ c value after, call c.current = .ok (value, after) →
      kind c (c.advance pid after (notes value c.current after))) :
    (transact call notes : Prog (Chronicle σ τ) ι ε α).Stays kind pid := by
  apply Prog.Stays.attempt
  intro c reply c' hact
  rcases hact.cases with rfl | ⟨value, after, hreturns, rfl⟩
  · exact hsame c'
  · exact hcall c value after hreturns

end Kinds

/-! ### Proof rules -/

section Rules

variable {L : Logic (Chronicle σ τ) ι ε ρ} {request : ι} {pid : ℕ}
  {returns : α → Chronicle σ τ → Prop} {throws : ε → Chronicle σ τ → Prop} {c : Chronicle σ τ}

/-- A statement: what has to be checked when it commits; otherwise nothing changes. -/
theorem holds_statement {call : ℕ → Call σ ε α} {notes : α → σ → σ → List τ}
    (assertion : Chronicle σ τ → Prop) (hassertion : L.Later pid assertion c)
    (hcommits : ∀ before value after, assertion before → L.invariant before →
      call pid before.current = .ok (value, after) →
        L.invariant (before.advance pid after (notes value before.current after)) ∧
          L.guarantee request pid before
            (before.advance pid after (notes value before.current after)) ∧
          L.Later pid (returns value)
            (before.advance pid after (notes value before.current after)) ∧
          ∀ failure, L.Later pid (throws failure)
            (before.advance pid after (notes value before.current after)))
    (hthrows : ∀ failure before, assertion before → L.invariant before →
      L.Later pid (throws failure) before) :
    L.Holds request pid (statement call notes) returns throws c := by
  apply Logic.holds_attempt assertion hassertion
  intro before reply after hbefore hinv hact _
  cases hact with
  | committed hreturns =>
      obtain ⟨hafter, hguar, hreturned, -⟩ := hcommits before _ _ hbefore hinv hreturns
      exact ⟨hafter, hguar, hreturned⟩
  | threw hthrown => exact ⟨hinv, L.guarantee_refl _ _ _, hthrows _ _ hbefore hinv⟩
  | unreachable failure => exact ⟨hinv, L.guarantee_refl _ _ _, hthrows _ _ hbefore hinv⟩
  | answerLost failure hreturns =>
      obtain ⟨hafter, hguar, -, hlost⟩ := hcommits before _ _ hbefore hinv hreturns
      exact ⟨hafter, hguar, hlost failure⟩

/-- A transaction of which nothing is known when it throws. -/
theorem holds_transact {call : Call σ ε α} {notes : α → σ → σ → List τ}
    (assertion : Chronicle σ τ → Prop) (hassertion : L.Later pid assertion c)
    (hcommits : ∀ before value after, assertion before → L.invariant before →
      call before.current = .ok (value, after) →
        L.invariant (before.advance pid after (notes value before.current after)) ∧
          L.guarantee request pid before
            (before.advance pid after (notes value before.current after)) ∧
          L.Later pid (returns value)
            (before.advance pid after (notes value before.current after)))
    (hthrows : ∀ failure before, L.Later pid (throws failure) before) :
    L.Holds request pid (transact call notes) returns throws c := by
  apply holds_statement assertion hassertion
  · intro before value after hbefore hinv hreturns
    obtain ⟨hafter, hguar, hreturned⟩ := hcommits before value after hbefore hinv hreturns
    exact ⟨hafter, hguar, hreturned, fun failure => hthrows failure _⟩
  · exact fun failure before _ _ => hthrows failure before

/-- An answer from outside. -/
theorem holds_consult {notes : α → List τ} (assertion : Chronicle σ τ → Prop)
    (hstable : L.Stable pid assertion) (hassertion : assertion c)
    (hanswer : ∀ before answer, assertion before → L.invariant before →
      L.invariant (before.advance pid before.current (notes answer)) ∧
        L.guarantee request pid before (before.advance pid before.current (notes answer)) ∧
        L.Later pid (returns answer) (before.advance pid before.current (notes answer))) :
    L.Holds request pid (consult notes) returns throws c := by
  apply Logic.holds_step assertion hstable hassertion
  intro before answer after hbefore hinv hact _
  rw [hact]
  exact hanswer before answer hbefore hinv

end Rules

/-! ### A program that no one disturbs -/

section Alone

variable {β : Type} {pid : ℕ}

/-- A program that has returned or thrown. -/
def ended : Except ε α → Prog (Chronicle σ τ) ι ε α
  | .ok value => .done value
  | .error failure => .fail failure

/-- When nothing comes between its steps, the program may do what a sequence of transactions does. -/
def Performs (pid : ℕ) (program : Prog (Chronicle σ τ) ι ε α) (flow : ExceptT ε (StateM σ) α) :
    Prop :=
  ∀ c, ∃ c', c'.current = (flow.run.run c.current).2 ∧
    Runs (fun _ _ => True) pid program c (ended (flow.run.run c.current).1) c'

theorem performs_pure (value : α) :
    Performs pid (pure value : Prog (Chronicle σ τ) ι ε α) (pure value) :=
  fun c => ⟨c, rfl, .refl⟩

theorem performs_ofExcept (outcome : Except ε α) :
    Performs pid (MonadExcept.ofExcept outcome : Prog (Chronicle σ τ) ι ε α)
      (ExceptT.mk (pure outcome)) := by
  intro c
  refine ⟨c, rfl, ?_⟩
  cases outcome <;> exact .refl

theorem performs_transact {call : Call σ ε α} {notes : α → σ → σ → List τ}
    {flow : ExceptT ε (StateM σ) α}
    (hreturns : ∀ current value after, call current = .ok (value, after) →
      flow.run.run current = (.ok value, after))
    (hthrows : ∀ current failure, call current = .error failure →
      flow.run.run current = (.error failure, current)) :
    Performs pid (transact call notes : Prog (Chronicle σ τ) ι ε α) flow := by
  intro c
  cases hcall : call c.current with
  | ok returned =>
      obtain ⟨value, after⟩ := returned
      rw [hreturns _ _ _ hcall]
      exact ⟨_, rfl, .step (.ok value) _ (.committed hcall) trivial .refl⟩
  | error failure =>
      rw [hthrows _ _ hcall]
      exact ⟨c, rfl, .step (.error failure) c (.threw hcall) trivial .refl⟩

theorem Performs.bind {program : Prog (Chronicle σ τ) ι ε α} {flow : ExceptT ε (StateM σ) α}
    {rest : α → Prog (Chronicle σ τ) ι ε β} {flowRest : α → ExceptT ε (StateM σ) β}
    (h : Performs pid program flow) (hrest : ∀ value, Performs pid (rest value) (flowRest value)) :
    Performs pid (program >>= rest) (flow >>= flowRest) := by
  intro c
  obtain ⟨between, hcurrent, hruns⟩ := h c
  have hflow : (flow >>= flowRest).run.run c.current =
      match flow.run.run c.current with
      | (.ok value, after) => (flowRest value).run.run after
      | (.error failure, after) => (.error failure, after) := by
    rw [ExceptT.run_bind, StateT.run_bind]
    change (match flow.run.run c.current with | (outcome, after) => _) = _
    rcases flow.run.run c.current with ⟨outcome, after⟩
    cases outcome <;> rfl
  rw [hflow]
  revert hcurrent hruns
  rcases flow.run.run c.current with ⟨outcome, after⟩
  rintro rfl hruns
  cases outcome with
  | ok value =>
      obtain ⟨c', hcurrent', hruns'⟩ := hrest value between
      exact ⟨c', hcurrent', (hruns.bind rest).trans hruns'⟩
  | error failure => exact ⟨between, rfl, hruns.bind rest⟩

/-- Any value at all may come from outside. -/
theorem performs_anything {flow : ExceptT ε (StateM σ) β} {rest : α → Prog (Chronicle σ τ) ι ε β}
    (value : α) (hrest : Performs pid (rest value) flow) :
    Performs pid (Prog.anything α >>= rest) flow := by
  intro c
  obtain ⟨c', hcurrent, hruns⟩ := hrest c
  exact ⟨c', hcurrent, .step value c rfl trivial hruns⟩

/-- The outside may answer anything. -/
theorem performs_consult {flow : ExceptT ε (StateM σ) β} {notes : α → List τ}
    {rest : α → Prog (Chronicle σ τ) ι ε β} (answer : α)
    (hrest : Performs pid (rest answer) flow) :
    Performs pid (consult notes >>= rest) flow := by
  intro c
  obtain ⟨c', hcurrent, hruns⟩ := hrest (c.advance pid c.current (notes answer))
  exact ⟨c', hcurrent, .step answer _ rfl trivial hruns⟩

/-- Some run of the program, with nothing between its steps, returns the value, leaves the state and
notes the events. -/
def Reaches (pid : ℕ) (program : Prog (Chronicle σ τ) ι ε α) (state : σ) (value : α) (state' : σ)
    (events : List τ) : Prop :=
  ∀ log, Runs (fun _ _ => True) pid program ⟨state, log⟩ (.done value)
    ⟨state', stamp pid events ++ log⟩

variable {state state' state'' : σ} {events events' : List τ}

theorem reaches_pure (value : α) :
    Reaches pid (pure value : Prog (Chronicle σ τ) ι ε α) state value state [] := fun _ => .refl

theorem reaches_statement {call : ℕ → Call σ ε α} {notes : α → σ → σ → List τ} {value : α}
    (h : call pid state = .ok (value, state')) :
    Reaches pid (statement call notes : Prog (Chronicle σ τ) ι ε α) state value state'
      (notes value state state') :=
  fun _ => .step (.ok value) _ (.committed h) trivial .refl

theorem reaches_anything (value : α) :
    Reaches pid (Prog.anything α : Prog (Chronicle σ τ) ι ε α) state value state [] :=
  fun _ => .step value _ rfl trivial .refl

theorem Reaches.bind {program : Prog (Chronicle σ τ) ι ε α} {value : α}
    {rest : α → Prog (Chronicle σ τ) ι ε β} {result : β}
    (h : Reaches pid program state value state' events)
    (hrest : Reaches pid (rest value) state' result state'' events') :
    Reaches pid (program >>= rest) state result state'' (events' ++ events) := by
  intro log
  have hsecond := hrest (stamp pid events ++ log)
  rw [← List.append_assoc, ← stamp_append] at hsecond
  exact ((h log).bind rest).trans hsecond

/-- Nothing is noted of what comes first. -/
theorem Reaches.follow {program : Prog (Chronicle σ τ) ι ε α} {value : α}
    {rest : α → Prog (Chronicle σ τ) ι ε β} {result : β}
    (h : Reaches pid program state value state' [])
    (hrest : Reaches pid (rest value) state' result state'' events) :
    Reaches pid (program >>= rest) state result state'' events := by
  have hboth := h.bind hrest
  rwa [List.append_nil] at hboth

/-- Nothing is noted of what comes last. -/
theorem Reaches.finish {program : Prog (Chronicle σ τ) ι ε α} {value : α}
    {rest : α → Prog (Chronicle σ τ) ι ε β} {result : β}
    (h : Reaches pid program state value state' events)
    (hrest : Reaches pid (rest value) state' result state'' []) :
    Reaches pid (program >>= rest) state result state'' events := h.bind hrest

/-- A handler is not needed. -/
theorem Reaches.tryCatch {program : Prog (Chronicle σ τ) ι ε α} {value : α}
    {handler : ε → Prog (Chronicle σ τ) ι ε α}
    (h : Reaches pid program state value state' events) :
    Reaches pid (tryCatch program handler) state value state' events :=
  fun log => (h log).tryCatch handler

/-- Some run of the program, with nothing between its steps, gets as far as the state. -/
def GetsTo (pid : ℕ) (program : Prog (Chronicle σ τ) ι ε α) (state state' : σ) (events : List τ) :
    Prop :=
  ∃ program', ∀ log, Runs (fun _ _ => True) pid program ⟨state, log⟩ program'
    ⟨state', stamp pid events ++ log⟩

theorem Reaches.getsTo {program : Prog (Chronicle σ τ) ι ε α} {value : α}
    (h : Reaches pid program state value state' events) : GetsTo pid program state state' events :=
  ⟨_, h⟩

theorem GetsTo.bind {program : Prog (Chronicle σ τ) ι ε α} (h : GetsTo pid program state state' events)
    (rest : α → Prog (Chronicle σ τ) ι ε β) : GetsTo pid (program >>= rest) state state' events := by
  obtain ⟨program', hruns⟩ := h
  exact ⟨_, fun log => (hruns log).bind rest⟩

theorem GetsTo.tryCatch {program : Prog (Chronicle σ τ) ι ε α}
    (h : GetsTo pid program state state' events) (handler : ε → Prog (Chronicle σ τ) ι ε α) :
    GetsTo pid (tryCatch program handler) state state' events := by
  obtain ⟨program', hruns⟩ := h
  exact ⟨_, fun log => (hruns log).tryCatch handler⟩

theorem Reaches.getsTo_bind {program : Prog (Chronicle σ τ) ι ε α} {value : α}
    {rest : α → Prog (Chronicle σ τ) ι ε β} (h : Reaches pid program state value state' events)
    (hrest : GetsTo pid (rest value) state' state'' events') :
    GetsTo pid (program >>= rest) state state'' (events' ++ events) := by
  obtain ⟨program', hruns⟩ := hrest
  refine ⟨program', fun log => ?_⟩
  have hsecond := hruns (stamp pid events ++ log)
  rw [← List.append_assoc, ← stamp_append] at hsecond
  exact ((h log).bind rest).trans hsecond

/-- Nothing is noted of what comes first. -/
theorem Reaches.getsTo_follow {program : Prog (Chronicle σ τ) ι ε α} {value : α}
    {rest : α → Prog (Chronicle σ τ) ι ε β} (h : Reaches pid program state value state' [])
    (hrest : GetsTo pid (rest value) state' state'' events) :
    GetsTo pid (program >>= rest) state state'' events := by
  have hboth := h.getsTo_bind hrest
  rwa [List.append_nil] at hboth

end Alone

end Chronicle
