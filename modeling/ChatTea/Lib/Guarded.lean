import ChatTea.Lib.ReadCommitted

/-!
# A lock that guards a part of the state

Transactions agree on a lock that they take before they write a part of the state. While one of
them holds it, the part stays as it is, so that what the transaction has read about it is still
true when it commits.

## Main definitions

* `Guard` — the lock, the part that it guards, what is invariant, what only grows, and what the
  events of the history mean
* `Guard.logic` — the logic in which the part is kept for who holds the lock
* `Guard.Owns` — a thread holds the lock and knows something about the state
* `Guard.Triple`, `Guard.Ends` — a program between two assertions of its owner, and up to its end

## Main results

* `Guard.holds_take` — taking the lock
* `Guard.triple_evaluate`, `Guard.triple_draw`, `Guard.Triple.then` — statements of the owner
* `Guard.ends_commitWrites`, `Guard.holds_inTransaction` — the end of a transaction
* `Guard.sound` — the logic is sound when the outside keeps the part
-/

namespace ReadCommitted

open History Interleaving RowLocks

/-- A lock that excludes itself, and what it is for. -/
structure Guard (σ κ τ γ : Type) where
  key : κ
  mode : Mode
  conflicts : mode.conflicts mode = true
  /-- What only the holder of the lock writes. -/
  part : σ → γ
  invariant : σ → Prop
  /-- What no step takes back. -/
  grows : σ → σ → Prop
  grows_refl : ∀ s, grows s s
  grows_trans : ∀ {s₁ s₂ s₃}, grows s₁ s₂ → grows s₂ s₃ → grows s₁ s₃
  /-- What the step does that enters an event. -/
  means : τ → σ → σ → Prop := fun _ _ _ => True

namespace Guard

variable {σ κ γ τ ι ε ρ α β : Type}

/-- Who holds the lock goes on holding it, and finds the part as it was. -/
def Keeps (G : Guard σ κ τ γ) (pid : ℕ) (before after : Shared σ κ τ) : Prop :=
  G.grows before.committed after.committed ∧
    (Holds before.locks pid G.mode G.key →
      Holds after.locks pid G.mode G.key ∧ G.part after.committed = G.part before.committed)

theorem keeps_refl (G : Guard σ κ τ γ) (pid : ℕ) (w : Shared σ κ τ) : G.Keeps pid w w :=
  ⟨G.grows_refl _, fun h => ⟨h, rfl⟩⟩

theorem Keeps.trans {G : Guard σ κ τ γ} {pid : ℕ} {w₁ w₂ w₃ : Shared σ κ τ} (h : G.Keeps pid w₁ w₂)
    (h' : G.Keeps pid w₂ w₃) : G.Keeps pid w₁ w₃ := by
  refine ⟨G.grows_trans h.1 h'.1, fun hholds => ?_⟩
  obtain ⟨hbetween, hpart⟩ := h.2 hholds
  obtain ⟨hend, hpart'⟩ := h'.2 hbetween
  exact ⟨hend, hpart'.trans hpart⟩

/-- A step of a thread. -/
structure Steps (G : Guard σ κ τ γ) (pid : ℕ) (before after : Shared σ κ τ) : Prop where
  grows : G.grows before.committed after.committed
  keeps : ∀ other, other ≠ pid → G.Keeps other before after
  log : ∃ events, after.log = stamp pid events ++ before.log ∧
    ∀ event ∈ events, G.means event before.committed after.committed

/-- The logic of a guard, for the requests that are served. -/
def logic (G : Guard σ κ τ γ) (requires : ι → Prop) : Logic (Shared σ κ τ) ι ε ρ where
  invariant w := Exclusive w.locks ∧ G.invariant w.committed
  rely := G.Keeps
  guarantee _ := G.Steps
  allowed := anyStep
  requires request _ := requires request
  ensures _ _ _ _ := True
  rely_refl := G.keeps_refl
  rely_trans h h' := h.trans h'
  guarantee_refl _ _ w :=
    ⟨G.grows_refl _, fun other _ => G.keeps_refl other w, [], rfl, fun _ h => nomatch h⟩
  rely_of_guarantee hother h := h.keeps _ hother

variable {G : Guard σ κ τ γ} {requires : ι → Prop} {request : ι} {pid other : ℕ}
  {w before after : Shared σ κ τ}

/-- The holder of the lock is the only one. -/
theorem not_holds_other (hexclusive : Exclusive w.locks) (hholds : Holds w.locks pid G.mode G.key)
    (hother : other ≠ pid) : ¬ Holds w.locks other G.mode G.key := by
  intro hheld
  exact hother (hexclusive _ hheld _ hholds rfl G.conflicts)

/-- The holder of the lock writes the part, and keeps its locks or gives them back. -/
theorem keeps_of_holder (hexclusive : Exclusive w.locks)
    (hholds : Holds w.locks pid G.mode G.key) (hgrows : G.grows w.committed after.committed) :
    ∀ other, other ≠ pid → G.Keeps other w after := by
  refine fun _ hother => ⟨hgrows, fun hheld => ?_⟩
  exact absurd hheld (not_holds_other hexclusive hholds hother)

theorem steps_enter {events : List τ} (w : Shared σ κ τ) (pid : ℕ) (mode : Mode) (rows : List κ)
    (hmeans : ∀ event ∈ events, G.means event w.committed w.committed) :
    G.Steps pid w (w.enter pid mode rows events) where
  grows := G.grows_refl _
  keeps _ _ := ⟨G.grows_refl _, fun hheld => ⟨hheld.acquire, rfl⟩⟩
  log := ⟨events, rfl, hmeans⟩

/-- A transaction ends without a change. -/
theorem keeps_release (w : Shared σ κ τ) (pid : ℕ) (events : List τ) :
    ∀ other, other ≠ pid → G.Keeps other w (w.finish pid w.committed events) := by
  refine fun _ hother => ⟨G.grows_refl _, fun hheld => ?_⟩
  exact ⟨hheld.release (Ne.symm hother), rfl⟩

/-! ### What the holder of the lock knows -/

/-- A statement about the state that the others keep from the holder of the lock. -/
def Local (G : Guard σ κ τ γ) (known : σ → Prop) : Prop :=
  ∀ s s', G.grows s s' → G.part s' = G.part s → known s → known s'

theorem local_pure (G : Guard σ κ τ γ) (fact : Prop) : G.Local fun _ => fact := fun _ _ _ _ h => h

theorem Local.and {G : Guard σ κ τ γ} {known known' : σ → Prop} (h : G.Local known)
    (h' : G.Local known') : G.Local fun s => known s ∧ known' s := by
  intro s s' hgrows hpart hknown
  exact ⟨h s s' hgrows hpart hknown.1, h' s s' hgrows hpart hknown.2⟩

theorem local_exists {G : Guard σ κ τ γ} {δ : Type} {known : δ → σ → Prop}
    (h : ∀ value, G.Local (known value)) : G.Local fun s => ∃ value, known value s := by
  intro s s' hgrows hpart hknown
  obtain ⟨value, hvalue⟩ := hknown
  exact ⟨value, h value s s' hgrows hpart hvalue⟩

/-- The thread holds the lock, and something is known about the state. -/
def Owns (G : Guard σ κ τ γ) (pid : ℕ) (known : σ → Prop) (w : Shared σ κ τ) : Prop :=
  Holds w.locks pid G.mode G.key ∧ known w.committed

variable {known : σ → Prop} {learned : β → σ → Prop}

theorem stable_owns (hlocal : G.Local known) :
    (G.logic requires : Logic (Shared σ κ τ) ι ε ρ).Stable pid (G.Owns pid known) := by
  intro s before hrely _ howns
  obtain ⟨hholds, hpart⟩ := hrely.2 howns.1
  exact ⟨hholds, hlocal _ _ hrely.1 hpart howns.2⟩

/-- A program that the holder of the lock runs between two assertions. -/
def Triple (G : Guard σ κ τ γ) (ρ : Type) (requires : ι → Prop) (request : ι) (pid : ℕ)
    (known : σ → Prop) (program : Prog (Shared σ κ τ) ι ε β) (learned : β → σ → Prop) : Prop :=
  ∀ w, G.Owns pid known w →
    (G.logic requires : Logic (Shared σ κ τ) ι ε ρ).Holds request pid program
      (fun value => G.Owns pid (learned value)) (fun _ _ => True) w

/-- A program that the holder of the lock runs to its end. -/
def Ends (G : Guard σ κ τ γ) (ρ : Type) (requires : ι → Prop) (request : ι) (pid : ℕ)
    (known : σ → Prop) (program : Prog (Shared σ κ τ) ι ε β) : Prop :=
  ∀ w, G.Owns pid known w →
    (G.logic requires : Logic (Shared σ κ τ) ι ε ρ).Holds request pid program
      (fun _ _ => True) (fun _ _ => True) w

variable {first : Prog (Shared σ κ τ) ι ε β} {rest : β → Prog (Shared σ κ τ) ι ε α}

/-- A sequence of two programs. -/
theorem Triple.then {learned' : α → σ → Prop} (h : G.Triple ρ requires request pid known first learned)
    (hrest : ∀ value, G.Triple ρ requires request pid (learned value) (rest value) learned') :
    G.Triple ρ requires request pid known (first >>= rest) learned' := by
  intro w howns
  apply Logic.Holds.bind
  exact (h w howns).mono (fun value s _ hlearned => hrest value s hlearned) fun _ _ _ h => h

theorem Triple.ends (h : G.Triple ρ requires request pid known first learned)
    (hrest : ∀ value, G.Ends ρ requires request pid (learned value) (rest value)) :
    G.Ends ρ requires request pid known (first >>= rest) := by
  intro w howns
  apply Logic.Holds.bind
  exact (h w howns).mono (fun value s _ hlearned => hrest value s hlearned) fun _ _ _ h => h

theorem Ends.of_known {known' : σ → Prop} (hknown : ∀ s, known s → known' s)
    (h : G.Ends ρ requires request pid known' first) : G.Ends ρ requires request pid known first :=
  fun w howns => h w ⟨howns.1, hknown _ howns.2⟩

theorem Triple.of_known {known' : σ → Prop} (hknown : ∀ s, known s → known' s)
    (h : G.Triple ρ requires request pid known' first learned) :
    G.Triple ρ requires request pid known first learned :=
  fun w howns => h w ⟨howns.1, hknown _ howns.2⟩

/-- What is known of values only. -/
theorem Triple.of_fact {fact : Prop} (h : fact → G.Triple ρ requires request pid known first learned) :
    G.Triple ρ requires request pid (fun s => fact ∧ known s) first learned :=
  fun w howns => h howns.2.1 w ⟨howns.1, howns.2.2⟩

theorem Ends.of_fact {fact : Prop} (h : fact → G.Ends ρ requires request pid known first) :
    G.Ends ρ requires request pid (fun s => fact ∧ known s) first :=
  fun w howns => h howns.2.1 w ⟨howns.1, howns.2.2⟩

theorem Ends.of_exists {δ : Type} {known : δ → σ → Prop}
    (h : ∀ value, G.Ends ρ requires request pid (known value) first) :
    G.Ends ρ requires request pid (fun s => ∃ value, known value s) first := by
  intro w howns
  obtain ⟨hholds, value, hvalue⟩ := howns
  exact h value w ⟨hholds, hvalue⟩

/-- Less may be known of the result. -/
theorem Triple.mono {learned' : β → σ → Prop} (h : G.Triple ρ requires request pid known first learned)
    (hlearned : ∀ value s, G.invariant s → learned value s → learned' value s) :
    G.Triple ρ requires request pid known first learned' := by
  intro w howns
  apply (h w howns).mono _ fun _ _ _ h => h
  intro value s hinv hvalue
  exact ⟨hvalue.1, hlearned value s.committed hinv.2 hvalue.2⟩

/-- A value is returned. -/
theorem triple_pure {value : β} (hlocal : G.Local (learned value))
    (h : ∀ s, known s → learned value s) :
    G.Triple ρ requires request pid known (pure value : Prog (Shared σ κ τ) ι ε β) learned := by
  intro w howns
  apply Logic.holds_pure
  exact (stable_owns hlocal).later ⟨howns.1, h _ howns.2⟩

/-- A check of values that were read before. -/
theorem triple_check (learned : β → σ → Prop) {outcome : Except ε β} (hlocal : ∀ value, G.Local (learned value))
    (h : ∀ value s, outcome = .ok value → known s → learned value s) :
    G.Triple ρ requires request pid known
      (MonadExcept.ofExcept outcome : Prog (Shared σ κ τ) ι ε β) learned := by
  intro w howns
  cases outcome with
  | ok value =>
      apply Logic.holds_pure
      exact (stable_owns (hlocal value)).later ⟨howns.1, h value _ rfl howns.2⟩
  | error failure =>
      apply Logic.holds_throw
      exact fun _ _ _ => trivial

theorem ends_check {outcome : Except ε β}
    (hrest : ∀ value, outcome = .ok value → G.Ends ρ requires request pid known (rest value)) :
    G.Ends ρ requires request pid known
      ((MonadExcept.ofExcept outcome : Prog (Shared σ κ τ) ι ε β) >>= rest) := by
  intro w howns
  cases outcome with
  | ok value => exact hrest value rfl w howns
  | error failure => exact fun _ _ _ => trivial

theorem triple_anything (hlocal : G.Local known) :
    G.Triple ρ requires request pid known (Prog.anything β : Prog (Shared σ κ τ) ι ε β)
      fun _ => known := by
  intro w howns
  apply Logic.holds_anything
  intro value
  exact (stable_owns hlocal).later howns

/-- The next value of a sequence. -/
theorem triple_draw (learned : β → σ → Prop) {next : σ → β} {advance : σ → σ} (hlocal : G.Local known)
    (hlearned : ∀ value, G.Local (learned value))
    (hdrawn : ∀ s, G.invariant s → known s → G.invariant (advance s) ∧ G.grows s (advance s) ∧
      learned (next s) (advance s)) :
    G.Triple ρ requires request pid known (draw next advance : Prog (Shared σ κ τ) ι ε β)
      learned := by
  intro w howns
  apply holds_draw (G.Owns pid known) (stable_owns hlocal) howns
  intro before hbefore hinv
  obtain ⟨hinv', hgrows, hvalue⟩ := hdrawn _ hinv.2 hbefore.2
  refine ⟨⟨hinv.1, hinv'⟩, ⟨hgrows, keeps_of_holder hinv.1 hbefore.1 hgrows, [], rfl, ?_⟩, ?_⟩
  · exact fun _ h => nomatch h
  · exact (stable_owns (hlearned _)).later ⟨hbefore.1, hvalue⟩

/-! ### Statements -/

section Statements

variable [Rejects ε] {pending : Pending σ ε} {mode : Mode} {rows : σ → List κ} {trace : β → List τ}
  {events : List τ}

/-- A statement that takes the lock. -/
theorem holds_take (learned : β → σ → Prop) {read : σ → Except ε β} (hlearned : ∀ value, G.Local (learned value))
    (hread : ∀ s value, G.invariant s → (pending s >>= read) = .ok value →
      mode = G.mode ∧ G.key ∈ rows s ∧ learned value s)
    (hmeans : ∀ value, ∀ event ∈ trace value, ∀ s, G.means event s s) :
    (G.logic requires : Logic (Shared σ κ τ) ι ε ρ).Holds request pid
      (evaluate pending mode rows read trace) (fun value => G.Owns pid (learned value))
      (fun _ _ => True) w := by
  apply holds_evaluate (fun _ => True) (fun _ _ _ _ _ => trivial) trivial
  · intro before value _ hinv hfree hvalue
    obtain ⟨rfl, hkey, hknown⟩ := hread before.committed value hinv.2 hvalue
    refine ⟨⟨hinv.1.acquire hfree, hinv.2⟩, steps_enter before pid _ _ ?_, ?_⟩
    · exact fun event hevent => hmeans value event hevent _
    exact (stable_owns (hlearned value)).later ⟨holds_acquire hkey, hknown⟩
  · intros
    exact fun _ _ _ => trivial

/-- A statement of the holder of the lock. -/
theorem triple_evaluate (learned : β → σ → Prop) {read : σ → Except ε β} (hlocal : G.Local known)
    (hlearned : ∀ value, G.Local (learned value))
    (hread : ∀ s value, G.invariant s → known s → (pending s >>= read) = .ok value →
      learned value s)
    (hmeans : ∀ value, ∀ event ∈ trace value, ∀ s, G.means event s s) :
    G.Triple ρ requires request pid known
      (evaluate pending mode rows read trace : Prog (Shared σ κ τ) ι ε β) learned := by
  intro w howns
  apply holds_evaluate (G.Owns pid known) (stable_owns hlocal) howns
  · intro before value hbefore hinv hfree hvalue
    refine ⟨⟨hinv.1.acquire hfree, hinv.2⟩, steps_enter before pid _ _ ?_, ?_⟩
    · exact fun event hevent => hmeans value event hevent _
    have hknown := hread before.committed value hinv.2 hbefore.2 hvalue
    exact (stable_owns (hlearned value)).later ⟨hbefore.1.acquire, hknown⟩
  · intros
    exact fun _ _ _ => trivial

/-- A statement that teaches nothing. -/
theorem triple_statement {read : σ → Except ε β} (hlocal : G.Local known)
    (hmeans : ∀ value, ∀ event ∈ trace value, ∀ s, G.means event s s) :
    G.Triple ρ requires request pid known
      (evaluate pending mode rows read trace : Prog (Shared σ κ τ) ι ε β) fun _ => known :=
  triple_evaluate _ hlocal (fun _ => hlocal) (fun _ _ _ hknown _ => hknown) hmeans

/-- A write that is not committed yet teaches nothing. -/
theorem triple_writing {write : σ → Except ε σ} (hlocal : G.Local known) :
    G.Triple ρ requires request pid known
      (writing pending mode rows write : Prog (Shared σ κ τ) ι ε (Pending σ ε))
      fun pending' s => pending' = pending.andThen write ∧ known s := by
  apply (triple_statement hlocal (by simp)).then
  intro _
  exact triple_pure ((G.local_pure _).and hlocal) fun _ hknown => ⟨rfl, hknown⟩

/-- The commit of the holder of the lock. -/
theorem ends_commitWrites (hlocal : G.Local known)
    (hcommitted : ∀ s s', G.invariant s → known s → pending s = .ok s' →
      G.invariant s' ∧ G.grows s s' ∧ ∀ event ∈ events, G.means event s s') :
    G.Ends ρ requires request pid known
      (commitWrites pending events : Prog (Shared σ κ τ) ι ε Unit) := by
  intro w howns
  apply holds_commitWrites (G.Owns pid known) (stable_owns hlocal) howns
  · intro before s hbefore hinv hwrites _
    obtain ⟨hinv', hgrows, hmeans⟩ := hcommitted _ _ hinv.2 hbefore.2 hwrites
    refine ⟨⟨hinv.1.release pid, hinv'⟩, ⟨hgrows, ?_, events, rfl, hmeans⟩, fun _ _ _ => trivial⟩
    exact keeps_of_holder hinv.1 hbefore.1 hgrows
  · intros
    exact fun _ _ _ => trivial

/-- A statement of the holder of the lock, and then the rest. -/
theorem ends_evaluate (learned : β → σ → Prop) {read : σ → Except ε β} (hlocal : G.Local known)
    (hlearned : ∀ value, G.Local (learned value))
    (hread : ∀ s value, G.invariant s → known s → (pending s >>= read) = .ok value →
      learned value s)
    (hmeans : ∀ value, ∀ event ∈ trace value, ∀ s, G.means event s s)
    (hrest : ∀ value, G.Ends ρ requires request pid (learned value) (rest value)) :
    G.Ends ρ requires request pid known (evaluate pending mode rows read trace >>= rest) :=
  (triple_evaluate learned hlocal hlearned hread hmeans).ends hrest

theorem ends_writing {write : σ → Except ε σ} {rest : Pending σ ε → Prog (Shared σ κ τ) ι ε α}
    (hlocal : G.Local known)
    (hrest : G.Ends ρ requires request pid known (rest (pending.andThen write))) :
    G.Ends ρ requires request pid known (writing pending mode rows write >>= rest) := by
  apply (triple_writing hlocal).ends
  intro pending' w howns
  obtain ⟨hholds, rfl, hknown⟩ := howns
  exact hrest w ⟨hholds, hknown⟩

omit [Rejects ε] in
/-- A value is returned after the end. -/
theorem Ends.answer (h : G.Ends ρ requires request pid known first) (result : β → α) :
    G.Ends ρ requires request pid known (first >>= fun value => pure (result value)) := by
  intro w howns
  apply Logic.Holds.bind
  exact (h w howns).mono (fun _ _ _ _ => Logic.holds_pure fun _ _ _ => trivial) fun _ _ _ h => h

omit [Rejects ε] in
theorem holds_inTransaction {body : Prog (Shared σ κ τ) ι ε β}
    (hmeans : ∀ event ∈ events, ∀ s, G.means event s s)
    (h : (G.logic requires : Logic (Shared σ κ τ) ι ε ρ).Holds request pid body
      (fun _ _ => True) (fun _ _ => True) w) :
    (G.logic requires : Logic (Shared σ κ τ) ι ε ρ).Holds request pid (inTransaction events body)
      (fun _ _ => True) (fun _ _ => True) w := by
  apply ReadCommitted.holds_inTransaction h
  · exact fun _ _ _ _ _ _ => trivial
  · intro before failure hinv _
    refine ⟨⟨hinv.1.release pid, hinv.2⟩, ⟨G.grows_refl _, keeps_release before pid _, events, rfl,
      fun event hevent => hmeans event hevent _⟩, fun _ _ _ => trivial⟩

/-- A transaction that begins with taking the lock. -/
theorem holds_take_ends (learned : β → σ → Prop) {read : σ → Except ε β}
    (hend : ∀ event ∈ events, ∀ s, G.means event s s) (hlearned : ∀ value, G.Local (learned value))
    (hread : ∀ s value, G.invariant s → (pending s >>= read) = .ok value →
      mode = G.mode ∧ G.key ∈ rows s ∧ learned value s)
    (hmeans : ∀ value, ∀ event ∈ trace value, ∀ s, G.means event s s)
    (hrest : ∀ value, G.Ends ρ requires request pid (learned value) (rest value)) :
    (G.logic requires : Logic (Shared σ κ τ) ι ε ρ).Holds request pid
      (inTransaction events (evaluate pending mode rows read trace >>= rest))
      (fun _ _ => True) (fun _ _ => True) w := by
  apply holds_inTransaction hend
  apply Logic.Holds.bind
  exact (holds_take learned hlearned hread hmeans).mono (fun value s _ howns => hrest value s howns)
    fun _ _ _ h => h

end Statements

/-! ### Every run -/

/-- What the outside does to the state. -/
structure Outside (G : Guard σ κ τ γ) (before after : Shared σ κ τ) : Prop where
  part : G.part after.committed = G.part before.committed
  grows : G.grows before.committed after.committed
  invariant : G.invariant before.committed → G.invariant after.committed
  locks : after.locks = before.locks

/-- The logic is sound when each program is verified, and the outside keeps the part. -/
theorem sound {S : System (Shared σ κ τ) ι ε ρ}
    (hcode : ∀ request pid w, S.accepts request →
      (G.logic S.accepts : Logic (Shared σ κ τ) ι ε ρ).Holds request pid (S.code request)
        (fun _ _ => True) (fun _ _ => True) w)
    (henvironment : ∀ before after, S.environment before after → G.Outside before after)
    (events : List τ) (hrollback : ∀ pid w, S.rollback pid w = w.finish pid w.committed events) :
    (G.logic S.accepts).Sound S where
  accepts haccepted _ := haccepted
  code pid hrequires _ _ := hcode _ pid _ hrequires
  environment := by
    intro before after hmoves _ hinv
    have houtside := henvironment before after hmoves
    refine ⟨⟨?_, houtside.invariant hinv.2⟩, fun pid => ⟨houtside.grows, fun hheld => ?_⟩⟩
    · rw [houtside.locks]
      exact hinv.1
    · rw [houtside.locks]
      exact ⟨hheld, houtside.part⟩
  rollback := by
    intro before pid hinv
    rw [hrollback]
    exact ⟨⟨hinv.1.release pid, hinv.2⟩, keeps_release before pid events⟩

variable {S : System (Shared σ κ τ) ι ε ρ} {c c' : Config (Shared σ κ τ) ι ε ρ}

/-- What is invariant holds in every configuration that a run reaches from rest. -/
theorem invariant_of_reachable (hsound : (G.logic requires).Sound S) {start : σ}
    (hstart : G.invariant start) (hrun : Reachable S anyStep (.idle (.ofCommitted start)) c) :
    (G.logic requires).Good c := by
  apply hsound.reachable _ hrun
  exact Logic.good_idle ⟨exclusive_nil, hstart⟩ fun _ => trivial

end Guard

end ReadCommitted
