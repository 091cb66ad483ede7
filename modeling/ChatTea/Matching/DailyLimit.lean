import Mathlib
import ChatTea.Matching.UserCalls

/-!
# The daily limit on likes

A like is counted on the UTC day of its clock. Actions and undos of one user run next to each
other, with clocks on any side of midnight. An action that is repeated while it is active is
answered before anything is counted, and an action that is refused leaves no trace, though its
superlike was charged before the count.

## Main definitions

* `utcDay` — the window in which a like is counted
* `StillActive` — the action of a call is stored and was not reverted

## Main results

* `daily_limit` — no day has more likes than the limit, a repeated action neither counts nor is
  refused, and a refused one changes nothing
-/

namespace ChatTea.Matching

open Interleaving ReadCommitted RowLocks Statements Table Transaction
open MatchingService (startOfUtcDay nextUtcDay)

variable {userId : Uuid} {input : ActInput} {db : Database} {pid most : ℕ}

/-! ### Days -/

/-- The window in which a like is counted. -/
def utcDay (now : Timestamp) : Set Timestamp := Set.Ico (startOfUtcDay now) (nextUtcDay now)

theorem mem_utcDay (now : Timestamp) : now ∈ utcDay now := mem_day now

/-- Two days with an instant in common are one day. -/
theorem utcDay_eq_or_disjoint (now now' : Timestamp) :
    utcDay now = utcDay now' ∨ Disjoint (utcDay now) (utcDay now') := by
  by_cases hcommon : ∃ time, time ∈ utcDay now ∧ time ∈ utcDay now'
  · obtain ⟨time, htime, htime'⟩ := hcommon
    have hstart : startOfUtcDay now = startOfUtcDay now' :=
      (startOfUtcDay_eq htime.1 htime.2).symm.trans (startOfUtcDay_eq htime'.1 htime'.2)
    left
    unfold utcDay nextUtcDay
    rw [hstart]
  · right
    rw [Set.disjoint_left]
    intro time htime htime'
    exact hcommon ⟨time, htime, htime'⟩

/-! ### A repeated action -/

/-- The action of a call is stored, and was not reverted. -/
def StillActive (input : ActInput) (db : Database) : Prop :=
  ∃ action, findActiveAction input.userId.toUuid input.targetUserId.toUuid db = some action ∧
    action.action = input.action

/-- A call that repeats a stored action: it changes nothing, and is not refused by the limit. -/
def repeatConduct (input : ActInput) : Conduct MatchingState Failure :=
  conduct (StillActive input) (fun before after => after = before) (fun _ => rfl)
    fun failure => failure ≠ .error "LIKE_LIMIT_REACHED"

/-- The answer of a call that has stored nothing. -/
def repeatAnswer : MatchingAnswer → Prop
  | .acted result => result.created = false
  | _ => False

/-- A statement that throws nothing of its own fails only when it is rejected. -/
theorem not_refused {α : Type} (value : α) {outcome : Except Failure α} {failure : Failure}
    (houtcome : outcome = .ok value)
    (h : outcome = .error failure ∨ Rejects.rejected failure) :
    failure ≠ .error "LIKE_LIMIT_REACHED" := by
  intro hrefused
  subst hrefused
  rcases h with hthrown | hrejected
  · rw [houtcome] at hthrown
    cases hthrown
  · obtain ⟨name, hname⟩ := hrejected
    cases hname

/-- What a call sees that has written nothing. -/
theorem unwritten_look {α : Type} (read : Database → α) (db : Database) :
    ((unwritten : Pending Database Failure) db >>= fun s => .ok (read s)) = .ok (read db) := rfl

theorem repeat_remainingCredits (input : ActInput) :
    (remainingCredits input unwritten).Lands (repeatConduct input) Prog.noChange (fun _ => True)
      pid := by
  unfold remainingCredits
  split
  · exact quiet_evaluate fun s _ _ h => not_refused _ (unwritten_look _ s) h
  · exact .returned trivial

/-- The stored action is found before anything is counted. -/
theorem lands_repeated (input : ActInput) :
    (Statements.actOnCandidate input).Lands (repeatConduct input) Prog.noChange
      (fun result => result.created = false) pid := by
  apply lands_inTransaction
  apply lands_evaluate fun s _ _ h => not_refused () rfl h
  intro _ _ _ _
  apply lands_evaluate fun s _ _ h => not_refused () rfl h
  intro _ _ _ _
  apply lands_evaluate fun s _ _ h => not_refused _ (unwritten_look _ s) h
  intro s existing hactive hread
  obtain ⟨action, hfound, hsame⟩ := hactive
  have hexisting : existing = some action := (Except.ok.inj hread).symm.trans hfound
  subst hexisting
  have hcheck : (throwIf (.error "MATCH_ACTION_CONFLICT") (action.action ≠ input.action) :
      Except Failure Unit) = .ok () := throwIf_eq_ok_iff.2 (not_not.2 hsame)
  apply lands_check
  · intro failure hfailure
    rw [hcheck] at hfailure
    cases hfailure
  intro _ _
  split
  · apply lands_commitWrites
    · exact fun _ _ _ hwrites => Or.inl ⟨(Except.ok.inj hwrites).symm, rfl⟩
    · exact fun s _ _ h => not_refused s rfl h
  apply lands_evaluate fun s _ _ h => not_refused _ (unwritten_look _ s) h
  intro _ existingMatch _ _
  apply (repeat_remainingCredits input).after
  intro _ _
  apply lands_commitWrites
  · exact fun _ _ _ hwrites => Or.inl ⟨(Except.ok.inj hwrites).symm, rfl⟩
  · exact fun s _ _ h => not_refused s rfl h

theorem lands_repeatedCode {request : MatchingRequest} (hrequest : request = .actOnCandidate input) :
    (matchingCode request).Lands (repeatConduct input) Prog.noChange repeatAnswer pid := by
  subst hrequest
  exact (lands_repeated input).answer (fun _ h => h) fun _ _ _ h => h

/-! ### Every run -/

variable {c c' : Config MatchingState MatchingRequest Failure MatchingAnswer}

/-- An action that arrives while it is stored, and stays so, changes nothing. -/
theorem repeated_outcomes {S : System MatchingState MatchingRequest Failure MatchingAnswer}
    {thread : Thread MatchingState MatchingRequest Failure MatchingAnswer}
    (hcode : S.code = matchingCode) (hactive : StillActive input c.state.committed)
    (hrun : Reachable S (fun _ after => StillActive input after.committed) c c')
    (hnew : c.threads.length ≤ pid) (hthread : c'.threads[pid]? = some thread)
    (hrequest : thread.request = .actOnCandidate input) :
    Outcomes S (fun _ after => StillActive input after.committed) (repeatConduct input)
      (fun _ => Prog.noChange) (fun _ => repeatAnswer) c c' pid thread := by
  have hlands (pid : ℕ) (request : MatchingRequest) (hrequest : request = .actOnCandidate input) :
      (S.code request).Lands (repeatConduct input) Prog.noChange repeatAnswer pid := by
    rw [hcode]
    exact lands_repeatedCode hrequest
  have hwithin (c₁ : Config MatchingState MatchingRequest Failure MatchingAnswer)
      (hrun₁ : Reachable S (fun _ after => StillActive input after.committed) c c₁) :
      StillActive input c₁.state.committed := by
    cases hrun₁ with
    | refl => exact hactive
    | tail _ hstep => exact hstep.2
  exact hrun.outcomes hlands hwithin hnew hthread hrequest

/-- **The daily limit.** In every run of actions and undos of one user under a limit: windows are
equal or disjoint and contain their instants; no day has more likes than the limit; an action
that is repeated while it is active changes nothing and is not refused by the limit; and a call
that failed has changed nothing. -/
theorem daily_limit (hinv : UserInvariant userId (some most) db)
    (hrun : Reachable (userSystem userId (some most)) anyStep (matchingAtRest db) c) :
    (∀ now now', now ∈ utcDay now ∧
      (utcDay now = utcDay now' ∨ Disjoint (utcDay now) (utcDay now'))) ∧
    (∀ now, likesOnDay userId now c.state.committed ≤ most) ∧
    (∀ input, StillActive input c.state.committed → ∀ c',
      Reachable (userSystem userId (some most)) (fun _ after => StillActive input after.committed)
        c c' → ∀ pid thread, c.threads.length ≤ pid → c'.threads[pid]? = some thread →
      thread.request = .actOnCandidate input →
        Outcomes (userSystem userId (some most)) (fun _ after => StillActive input after.committed)
          (repeatConduct input) (fun _ => Prog.noChange) (fun _ => repeatAnswer) c c' pid thread) ∧
    ∀ pid request failure, c.threads[pid]? = some ⟨request, .fail failure⟩ → ∀ c₁ c₂,
      Reachable (userSystem userId (some most)) anyStep (matchingAtRest db) c₁ → Moves pid c₁ c₂ →
      Reachable (userSystem userId (some most)) anyStep c₂ c →
        SameButDrawn c₁.state.committed c₂.state.committed := by
  refine ⟨fun now now' => ⟨mem_utcDay now, utcDay_eq_or_disjoint now now'⟩, ?_, ?_, ?_⟩
  · exact (good_user hinv hrun).invariant.2.likes most rfl
  · intro input hactive c' hrun' pid thread hnew hthread hrequest
    exact repeated_outcomes rfl hactive hrun' hnew hthread hrequest
  · intro pid request failure hthread c₁ c₂ hfirst hmoves hlater
    have houtcomes := user_outcomes hinv hrun hthread
    exact (houtcomes.failed failure rfl).2 c₁ c₂ hfirst hmoves trivial hlater

/-- A like of the buyer under a limit of one a day. -/
def onlyLike : ActInput :=
  { likeOf buyer candidate 1 with dailyLimit := some 1, dayEnd := nextUtcDay 1 }

/-- The buyer likes the candidate at a limit of one. -/
theorem daily_limit_one : ∃ c : Config MatchingState MatchingRequest Failure MatchingAnswer,
    c.state.committed.userLikes = [createdLike onlyLike] ∧
      likesOnDay buyer.toUuid 1 c.state.committed ≤ 1 := by
  have hact : Matching.actOnCandidate onlyLike pairOnly =
      .ok (⟨false, none, none, true⟩, afterAction onlyLike [] pairOnly) := rfl
  obtain ⟨w, hperforms, hcommitted⟩ : ∃ w : MatchingState, Performs 0
      (Statements.actOnCandidate onlyLike) (.ofCommitted pairOnly) ⟨false, none, none, true⟩ w ∧
      w.committed = afterAction onlyLike [] pairOnly := runs_actOnCandidate hact
  have hcall : (userSystem buyer.toUuid (some 1)).accepts (.actOnCandidate onlyLike) := by
    refine ⟨rfl, fun most hmost => ?_⟩
    exact ⟨hmost, rfl, rfl⟩
  have hempty : UserInvariant buyer.toUuid (some 1) pairOnly := by
    refine ⟨fun _ hrow => absurd hrow List.not_mem_nil, List.nodup_nil, ?_⟩
    exact fun _ _ _ => Nat.zero_le _
  have hidle : Reachable (userSystem buyer.toUuid (some 1)) anyStep (matchingAtRest pairOnly)
      ⟨.ofCommitted pairOnly, []⟩ := Relation.ReflTransGen.refl
  have hrun := hidle.serve hcall trivial
    (Runs.bind hperforms fun result => (pure (.acted result) : MatchingProg MatchingAnswer))
  refine ⟨_, ?_, (daily_limit hempty hrun).2.1 1⟩
  change w.committed.userLikes = _
  rw [hcommitted]
  rfl

end ChatTea.Matching
