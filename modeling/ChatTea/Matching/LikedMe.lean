import ChatTea.Database.Isolation
import ChatTea.Lib.Outcomes
import ChatTea.Lib.Table
import ChatTea.Lib.Tally
import ChatTea.Matching.Service
import Mathlib

/-!
# The quota of the liked-me page

`consumeLikedMeAccess` counts the views of a user in a window of three hours. The upsert waits for
a transaction that writes the same row, and counts on what that one has left; a call that finds the
limit reached gets no row back.

## Main definitions

* `startOfLikedMeWindow`, `likedMeWindow` — the window of an instant
* `returnedAccess`, `upsertAccess` — what the statement returns, and what it writes
* `consumeLikedMeAccess`, `likedMeSystem` — the calls, side by side
* `LikedMeStep`, `likedMeLogic` — what a step of a call does

## Main results

* `likedMeWindow_eq_or_disjoint` — the windows partition the time line
* `likedMe_quota` — of the calls in a window as many are admitted as the limit allows
-/

namespace ChatTea.Matching

open History Interleaving ReadCommitted RowLocks Table Transaction
open MatchingService (startOfUtcDay dayMs)

/-! ### Windows -/

def hourMs : ℤ := 60 * 60 * 1000

def likedMeWindowHours : ℤ := 3

def getUTCHours (now : Timestamp) : ℤ := now % dayMs / hourMs

def startOfLikedMeWindow (now : Timestamp) : Timestamp :=
  let hour := getUTCHours now / likedMeWindowHours * likedMeWindowHours
  startOfUtcDay now + hour * hourMs

/-- The instants of the window that an instant belongs to. -/
def likedMeWindow (now : Timestamp) : Set Timestamp :=
  Set.Ico (startOfLikedMeWindow now) (startOfLikedMeWindow now + likedMeWindowHours * hourMs)

/-- A day has eight windows, so that they go on through midnight. -/
theorem startOfLikedMeWindow_eq (now : Timestamp) :
    startOfLikedMeWindow now = now - now % (likedMeWindowHours * hourMs) := by
  have hday (now : ℤ) : now - now % 86400000 + now % 86400000 / 3600000 / 3 * 3 * 3600000 =
      now - now % 10800000 := by omega
  exact hday now

theorem mem_likedMeWindow (now : Timestamp) : now ∈ likedMeWindow now := by
  have hmod (now : ℤ) : now - now % 10800000 ≤ now ∧ now < now - now % 10800000 + 10800000 := by
    omega
  rw [likedMeWindow, startOfLikedMeWindow_eq]
  exact hmod now

/-- An instant of a window has the same window. -/
theorem startOfLikedMeWindow_of_mem {now time : Timestamp} (h : time ∈ likedMeWindow now) :
    startOfLikedMeWindow time = startOfLikedMeWindow now := by
  have hmod (now time : ℤ) (hstart : now - now % 10800000 ≤ time)
      (hend : time < now - now % 10800000 + 10800000) :
      time - time % 10800000 = now - now % 10800000 := by omega
  rw [likedMeWindow, startOfLikedMeWindow_eq] at h
  rw [startOfLikedMeWindow_eq, startOfLikedMeWindow_eq]
  exact hmod now time h.1 h.2

/-- Two windows with an instant in common are one window. -/
theorem likedMeWindow_eq_or_disjoint (now now' : Timestamp) :
    likedMeWindow now = likedMeWindow now' ∨ Disjoint (likedMeWindow now) (likedMeWindow now') := by
  by_cases hcommon : ∃ time, time ∈ likedMeWindow now ∧ time ∈ likedMeWindow now'
  · obtain ⟨time, htime, htime'⟩ := hcommon
    have hstart : startOfLikedMeWindow now = startOfLikedMeWindow now' :=
      (startOfLikedMeWindow_of_mem htime).symm.trans (startOfLikedMeWindow_of_mem htime')
    left
    unfold likedMeWindow
    rw [hstart]
  · right
    rw [Set.disjoint_left]
    intro time htime htime'
    exact hcommon ⟨time, htime, htime'⟩

/-! ### The statement -/

/-- The primary key of `user_liked_me_accesses`. -/
abbrev LikedMeKey := Uuid × Timestamp

def accessKey (row : LikedMeAccess) : LikedMeKey := (row.userId, row.periodStart)

def findAccess (key : LikedMeKey) (db : Database) : Option LikedMeAccess :=
  lookup accessKey key db.userLikedMeAccesses

/-- The views that are counted in a window. -/
def viewedCount (key : LikedMeKey) (db : Database) : ℕ := (findAccess key db).elim 0 (·.viewedCount)

/-- The argument of `consumeLikedMeAccess`. -/
structure ConsumeInput where
  userId : Uuid
  periodStart : Timestamp
  limit : ℕ

def ConsumeInput.key (input : ConsumeInput) : LikedMeKey := (input.userId, input.periodStart)

def newAccess (input : ConsumeInput) : LikedMeAccess where
  userId := input.userId
  periodStart := input.periodStart
  viewedCount := 1

/-- `DO UPDATE SET … WHERE "viewedCount" < limit` -/
def countView (limit : ℕ) (old : LikedMeAccess) : LikedMeAccess :=
  if old.viewedCount < limit then { old with viewedCount := old.viewedCount + 1 } else old

/-- The row that the statement returns. -/
def returnedAccess (input : ConsumeInput) (db : Database) : Except Failure (Option LikedMeAccess) :=
  match findAccess input.key db with
  | some old => .ok (if old.viewedCount < input.limit then some (countView input.limit old) else none)
  | none => do
      require (.constraint "user_liked_me_accesses_userId_fkey") (db.hasUser input.userId)
      return some (newAccess input)

/-- What the statement writes. -/
def upsertAccess (input : ConsumeInput) (db : Database) : Except Failure Database := do
  let _ ← returnedAccess input db
  return { db with
    userLikedMeAccesses :=
      upsert accessKey (newAccess input) (countView input.limit) db.userLikedMeAccesses }

/-- The row leaves room for one more view. -/
def hasRoom (limit : ℕ) (access : Option LikedMeAccess) : Bool :=
  access.all fun old => old.viewedCount < limit

section Statement

variable {input : ConsumeInput} {db db' : Database} {access : Option LikedMeAccess} {key : LikedMeKey}

theorem accessKey_countView (limit : ℕ) (old : LikedMeAccess) :
    accessKey (countView limit old) = accessKey old := by
  unfold countView
  split <;> rfl

/-- A row is returned exactly when there was room. -/
theorem isSome_of_returnedAccess (h : returnedAccess input db = .ok access) :
    access.isSome = hasRoom input.limit (findAccess input.key db) := by
  unfold returnedAccess at h
  cases hfound : findAccess input.key db with
  | some old =>
      rw [hfound] at h
      obtain rfl := Except.ok.inj h
      by_cases hroom : old.viewedCount < input.limit
      · simp [hasRoom, hroom]
      · simp [hasRoom, hroom]
  | none =>
      rw [hfound] at h
      obtain ⟨_, -, hresult⟩ := bind_eq_ok_iff.1 h
      obtain rfl := Except.ok.inj hresult
      rfl

theorem upsertAccess_eq_ok (h : upsertAccess input db = .ok db') :
    db' = { db with
      userLikedMeAccesses :=
        upsert accessKey (newAccess input) (countView input.limit) db.userLikedMeAccesses } := by
  obtain ⟨_, -, hresult⟩ := bind_eq_ok_iff.1 h
  exact (Except.ok.inj hresult).symm

/-- A call writes the row of its own window, and no other one. -/
theorem findAccess_upsertAccess (h : upsertAccess input db = .ok db') :
    findAccess key db' = if input.key = key
      then some ((findAccess key db).elim (newAccess input) (countView input.limit))
      else findAccess key db := by
  rw [upsertAccess_eq_ok h]
  exact lookup_upsert (accessKey_countView _)

/-- A view is counted when there is room for it. -/
theorem viewedCount_upsertAccess (h : upsertAccess input db = .ok db') :
    viewedCount key db' = viewedCount key db +
      if input.key = key ∧ hasRoom input.limit (findAccess key db) then 1 else 0 := by
  unfold viewedCount
  rw [findAccess_upsertAccess h]
  by_cases hkey : input.key = key
  · cases hfound : findAccess key db with
    | none => simp [hkey, hasRoom, newAccess]
    | some old =>
        by_cases hroom : old.viewedCount < input.limit
        · simp [hkey, hasRoom, hroom, countView]
        · simp [hkey, hasRoom, hroom, countView]
  · simp [hkey]

/-- There is room while the count is below the limit. -/
theorem hasRoom_iff {limit : ℕ} (hlimit : 1 ≤ limit) :
    hasRoom limit (findAccess key db) ↔ viewedCount key db < limit := by
  unfold viewedCount
  cases findAccess key db with
  | none =>
      simp only [hasRoom, Option.all_none, Option.elim_none, true_iff]
      omega
  | some old => simp [hasRoom]

/-- Without room the statement writes nothing. -/
theorem upsertAccess_of_full (hunique : UniqueKey accessKey db.userLikedMeAccesses)
    (h : upsertAccess input db = .ok db') (hfull : ¬ hasRoom input.limit (findAccess input.key db)) :
    db' = db := by
  cases hfound : findAccess input.key db with
  | none =>
      rw [hfound] at hfull
      exact absurd rfl hfull
  | some old =>
      obtain ⟨hold, hkey⟩ := mem_of_lookup hfound
      rw [hfound] at hfull
      have hlimit : ¬ old.viewedCount < input.limit := by simpa [hasRoom] using hfull
      have hsame : upsert accessKey (newAccess input) (countView input.limit)
          db.userLikedMeAccesses = db.userLikedMeAccesses := by
        unfold upsert
        rw [if_pos (List.any_eq_true.2 ⟨old, hold, decide_eq_true hkey⟩)]
        unfold updateWhere
        conv_rhs => rw [← List.map_id db.userLikedMeAccesses]
        apply List.map_congr_left
        intro row hrow
        split
        next hcond =>
          -- The row of the window is the one that was found.
          have hrowkey : accessKey row = accessKey old := (of_decide_eq_true hcond).trans hkey.symm
          obtain rfl := hunique.eq_of_key hrow hold hrowkey
          rw [countView, if_neg hlimit, id]
        next => rfl
      rw [upsertAccess_eq_ok h, hsame]

end Statement

/-! ### The calls, side by side -/

/-- A call; its clock tells the window. -/
structure LikedMeCall where
  userId : Uuid
  now : Timestamp
  limit : ℕ

def LikedMeCall.input (call : LikedMeCall) : ConsumeInput where
  userId := call.userId
  periodStart := startOfLikedMeWindow call.now
  limit := call.limit

def LikedMeCall.key (call : LikedMeCall) : LikedMeKey := call.input.key

/-- A lock is the row of a window; an entry in the history, a view that was counted there. -/
abbrev LikedMeState := Shared Database LikedMeKey LikedMeKey

abbrev LikedMeProg (α : Type) := Prog LikedMeState LikedMeCall Failure α

/-- The upsert is a transaction of its own: it locks the row and commits what it has written. -/
def consumeLikedMeAccess (input : ConsumeInput) : LikedMeProg Bool :=
  inTransaction [] do
    let access ← evaluate unwritten .noKeyUpdate (fun _ => [input.key]) (returnedAccess input)
      fun _ => []
    commitWrites (upsertAccess input) (if access.isSome then [input.key] else [])
    return access.isSome

/-- What a call has answered: whether it was admitted, or why it failed. -/
abbrev LikedMeAnswer := Except Failure Bool

def likedMeCode (call : LikedMeCall) : LikedMeProg LikedMeAnswer :=
  tryCatch (do return .ok (← consumeLikedMeAccess call.input)) fun failure => return .error failure

/-- The rest of the service leaves the table of the windows alone. -/
structure OtherTables (before after : LikedMeState) : Prop where
  accesses : after.committed.userLikedMeAccesses = before.committed.userLikedMeAccesses
  locks : after.locks = before.locks
  log : after.log = before.log

def likedMeSystem (accepts : LikedMeCall → Prop) :
    System LikedMeState LikedMeCall Failure LikedMeAnswer where
  code := likedMeCode
  accepts := accepts
  environment := OtherTables
  rollback pid w := w.finish pid w.committed []

/-! ### What a step does -/

/-- A step of a call enters the view that it counts: without one it writes nothing, and it never
touches another window. -/
structure LikedMeStep (key : LikedMeKey) (call : LikedMeCall) (pid : ℕ)
    (before after : LikedMeState) : Prop where
  enters : ∃ events, after.log = stamp pid events ++ before.log ∧
    (∀ event ∈ events, event = call.key) ∧ (events = [] → after.committed = before.committed) ∧
    viewedCount key after.committed = viewedCount key before.committed + events.countP (· = key)
  apart : ∀ other, other ≠ call.key → findAccess other after.committed =
    findAccess other before.committed
  held : ∀ other, other ≠ pid → ∀ row, Holds before.locks other .noKeyUpdate row →
    Holds after.locks other .noKeyUpdate row ∧
      findAccess row after.committed = findAccess row before.committed

/-- What the others keep for a call. -/
structure LikedMeRely (key : LikedMeKey) (pid : ℕ) (before after : LikedMeState) : Prop where
  own : own pid after.log = own pid before.log
  grows : viewedCount key before.committed ≤ viewedCount key after.committed
  held : ∀ row, Holds before.locks pid .noKeyUpdate row → Holds after.locks pid .noKeyUpdate row ∧
    findAccess row after.committed = findAccess row before.committed

/-- The count of the window is the number of its entries, and within the limit. -/
structure LikedMeInvariant (key : LikedMeKey) (limit : ℕ) (w : LikedMeState) : Prop where
  exclusive : Exclusive w.locks
  unique : UniqueKey accessKey w.committed.userLikedMeAccesses
  counted : viewedCount key w.committed = count (· = key) w.log
  bounded : viewedCount key w.committed ≤ limit

/-- What a call of the window has done when it has answered. -/
structure Answered (key : LikedMeKey) (limit pid : ℕ) (answer : LikedMeAnswer) (w : LikedMeState) :
    Prop where
  entries : (own pid w.log).countP (· = key) = if answer = .ok true then 1 else 0
  full : answer = .ok false → limit ≤ viewedCount key w.committed

def likedMeLogic (key : LikedMeKey) (limit : ℕ) (requires : LikedMeCall → Prop) :
    Logic LikedMeState LikedMeCall Failure LikedMeAnswer where
  invariant := LikedMeInvariant key limit
  rely := LikedMeRely key
  guarantee := LikedMeStep key
  allowed := anyStep
  requires call _ := requires call
  ensures call pid answer w := call.key = key → Answered key limit pid answer w
  fresh pid w := own pid w.log = []
  rely_refl _ _ := ⟨rfl, le_rfl, fun _ h => ⟨h, rfl⟩⟩
  rely_trans h h' := by
    refine ⟨h'.own.trans h.own, h.grows.trans h'.grows, fun row hheld => ?_⟩
    obtain ⟨hbetween, hsame⟩ := h.held row hheld
    obtain ⟨hend, hsame'⟩ := h'.held row hbetween
    exact ⟨hend, hsame'.trans hsame⟩
  guarantee_refl _ _ _ :=
    ⟨⟨[], rfl, List.forall_mem_nil _, fun _ => rfl, rfl⟩, fun _ _ => rfl, fun _ _ _ h => ⟨h, rfl⟩⟩
  rely_of_guarantee := by
    intro call pid other before after hother h
    obtain ⟨events, hlog, -, -, hcount⟩ := h.enters
    refine ⟨?_, ?_, h.held other hother⟩
    · rw [hlog, own_stamp_append_other hother]
    · omega
  fresh_of_rely h hfresh := h.own.trans hfresh

section Calls

variable {key : LikedMeKey} {limit pid : ℕ} {requires : LikedMeCall → Prop} {call : LikedMeCall}
  {w before : LikedMeState} {db : Database}

/-- A step that changes nothing but locks. -/
theorem likedMeStep_quiet (locks : List (Lock LikedMeKey))
    (hlocks : ∀ other, other ≠ pid → ∀ row, Holds w.locks other .noKeyUpdate row →
      Holds locks other .noKeyUpdate row) :
    LikedMeStep key call pid w ⟨w.committed, locks, w.log⟩ where
  enters := ⟨[], rfl, List.forall_mem_nil _, fun _ => rfl, rfl⟩
  apart _ _ := rfl
  held other hother row hheld := ⟨hlocks other hother row hheld, rfl⟩

/-- What a call knows between its lock and its commit: it has entered nothing yet, and the row of
its window is as it was when it took the lock. -/
structure Waits (call : LikedMeCall) (admitted : Bool) (pid : ℕ) (w : LikedMeState) : Prop where
  own : own pid w.log = []
  holds : Holds w.locks pid .noKeyUpdate call.key
  room : admitted = hasRoom call.limit (findAccess call.key w.committed)

theorem stable_own (pid : ℕ) :
    (likedMeLogic key limit requires).Stable pid fun w => own pid w.log = [] :=
  fun _ _ hrely _ h => hrely.own.trans h

theorem stable_waits (admitted : Bool) :
    (likedMeLogic key limit requires).Stable pid (Waits call admitted pid) := by
  intro s before hrely _ h
  obtain ⟨hholds, hsame⟩ := hrely.held _ h.holds
  exact ⟨hrely.own.trans h.own, hholds, by rw [hsame]; exact h.room⟩

/-- The limit is never taken back, so that a call that has found it reached goes on finding it so. -/
theorem stable_answered (answer : LikedMeAnswer) :
    (likedMeLogic key limit requires).Stable pid
      fun w => call.key = key → Answered key limit pid answer w := by
  intro s before hrely _ h hkey
  obtain ⟨hentries, hfull⟩ := h hkey
  refine ⟨by rw [hrely.own]; exact hentries, fun hanswer => ?_⟩
  exact (hfull hanswer).trans hrely.grows

/-- A call that has entered nothing may fail. -/
theorem answered_error (failure : Failure) (h : own pid w.log = []) :
    Answered key limit pid (.error failure) w where
  entries := by
    rw [h, if_neg (by simp)]
    rfl
  full hanswer := nomatch hanswer

/-- The commit of a call. -/
theorem commit_likedMe {s : Database} {admitted : Bool} (hpos : 1 ≤ limit)
    (hlimit : call.key = key → call.limit = limit) (hinv : LikedMeInvariant key limit w)
    (hwaits : Waits call admitted pid w) (hwrites : upsertAccess call.input w.committed = .ok s) :
    LikedMeInvariant key limit (w.finish pid s (if admitted then [call.key] else [])) ∧
      LikedMeStep key call pid w (w.finish pid s (if admitted then [call.key] else [])) ∧
      (call.key = key → Answered key limit pid (.ok admitted)
        (w.finish pid s (if admitted then [call.key] else []))) := by
  have hroom := hwaits.room
  have hown : own pid (w.finish pid s (if admitted then [call.key] else [])).log =
      if admitted then [call.key] else [] := by
    rw [Shared.finish, own_stamp_append_self, hwaits.own, List.append_nil]
  -- The count of the window goes up by the entries that are made for it.
  have hcount : viewedCount key s = viewedCount key w.committed +
      (if admitted then [call.key] else []).countP (· = key) := by
    rw [viewedCount_upsertAccess hwrites]
    congr 1
    by_cases hkey : call.key = key
    · subst hkey
      have hsame : call.input.key = call.key ∧ call.input.limit = call.limit := ⟨rfl, rfl⟩
      rw [hsame.1, hsame.2, ← hroom]
      cases admitted <;> simp
    · have hother : call.input.key ≠ key := hkey
      cases admitted <;> simp [hkey, hother]
  refine ⟨⟨hinv.exclusive.release pid, ?_, ?_, ?_⟩, ⟨⟨_, rfl, ?_, ?_, hcount⟩, ?_, ?_⟩, ?_⟩
  · rw [Shared.finish, upsertAccess_eq_ok hwrites]
    exact hinv.unique.upsert (accessKey_countView _)
  · rw [Shared.finish, count_stamp_append, hcount, hinv.counted, Nat.add_comm]
  · -- A view is admitted while the count is below the limit.
    change viewedCount key s ≤ limit
    rw [hcount]
    by_cases hkey : call.key = key ∧ admitted
    · obtain ⟨hkey, hadmitted⟩ := hkey
      rw [hadmitted, hkey, hlimit hkey] at hroom
      have hbelow := (hasRoom_iff hpos).1 hroom.symm
      rw [if_pos hadmitted, List.countP_singleton, if_pos (decide_eq_true hkey)]
      omega
    · have hnone : (if admitted then [call.key] else []).countP (· = key) = 0 := by
        cases admitted with
        | false => rfl
        | true => simpa using hkey
      rw [hnone]
      exact hinv.bounded
  · intro event hevent
    cases admitted with
    | false => cases hevent
    | true => exact List.mem_singleton.1 hevent
  · intro hnone
    have hrefused : admitted = false := by
      cases admitted with
      | false => rfl
      | true => cases hnone
    apply upsertAccess_of_full hinv.unique hwrites
    rw [hrefused] at hroom
    exact Bool.not_eq_true _ ▸ hroom.symm
  · intro other hother
    have hne : call.input.key ≠ other := Ne.symm hother
    rw [Shared.finish, findAccess_upsertAccess hwrites, if_neg hne]
  · intro other hother row hheld
    -- Another call that holds a row does not hold the row of this one.
    have hne : call.input.key ≠ row := by
      rintro rfl
      exact hother (hinv.exclusive _ hheld _ hwaits.holds rfl rfl)
    refine ⟨hheld.release (Ne.symm hother), ?_⟩
    rw [Shared.finish, findAccess_upsertAccess hwrites, if_neg hne]
  · intro hkey
    constructor
    · rw [hown, hkey]
      cases admitted <;> simp
    · intro hanswer
      obtain rfl : admitted = false := Except.ok.inj hanswer
      rw [hkey, hlimit hkey] at hroom
      have hfull : ¬ viewedCount key w.committed < limit := by
        rw [← hasRoom_iff hpos, ← hroom]
        exact Bool.false_ne_true
      have hsame : viewedCount key s = viewedCount key w.committed := hcount
      change limit ≤ viewedCount key s
      omega

/-- The statement takes the lock of its row. -/
theorem holds_lockAccess (hfresh : own pid w.log = []) :
    (likedMeLogic key limit requires).Holds call pid
      (evaluate unwritten .noKeyUpdate (fun _ => [call.input.key]) (returnedAccess call.input)
        fun _ => [])
      (fun access => Waits call access.isSome pid) (fun _ w => own pid w.log = []) w := by
  apply holds_evaluate _ (stable_own pid) hfresh
  · intro before access hown hinv hfree hread
    refine ⟨⟨hinv.exclusive.acquire hfree, hinv.unique, hinv.counted, hinv.bounded⟩, ?_, ?_⟩
    · apply likedMeStep_quiet
      exact fun _ _ _ hheld => hheld.acquire
    · apply (stable_waits _).later
      exact ⟨hown, holds_acquire List.mem_cons_self, isSome_of_returnedAccess hread⟩
  · intro before failure hown _ _
    exact (stable_own pid).later hown

/-- The commit ends the call. -/
theorem holds_commitAccess {admitted : Bool} (hpos : 1 ≤ limit)
    (hlimit : call.key = key → call.limit = limit) (hwaits : Waits call admitted pid w) :
    (likedMeLogic key limit requires).Holds call pid
      (commitWrites (upsertAccess call.input) (if admitted then [call.key] else []))
      (fun _ w => call.key = key → Answered key limit pid (.ok admitted) w)
      (fun _ w => own pid w.log = []) w := by
  apply holds_commitWrites _ (stable_waits _) hwaits
  · intro before s hwaits hinv hwrites _
    obtain ⟨hinv', hstep, hanswered⟩ := commit_likedMe hpos hlimit hinv hwaits hwrites
    exact ⟨hinv', hstep, (stable_answered _).later hanswered⟩
  · intro before failure hwaits _ _
    exact (stable_own pid).later hwaits.own

theorem holds_consumeLikedMeAccess (hpos : 1 ≤ limit)
    (hlimit : call.key = key → call.limit = limit) (hfresh : own pid w.log = []) :
    (likedMeLogic key limit requires).Holds call pid (consumeLikedMeAccess call.input)
      (fun admitted w => call.key = key → Answered key limit pid (.ok admitted) w)
      (fun _ w => own pid w.log = []) w := by
  have hbody : (likedMeLogic key limit requires).Holds call pid
      (evaluate unwritten .noKeyUpdate (fun _ => [call.input.key]) (returnedAccess call.input)
        (fun _ => []) >>= fun access => do
          commitWrites (upsertAccess call.input) (if access.isSome then [call.input.key] else [])
          return access.isSome)
      (fun admitted w => call.key = key → Answered key limit pid (.ok admitted) w)
      (fun _ w => own pid w.log = []) w := by
    apply Logic.Holds.bind
    apply (holds_lockAccess hfresh).mono
    · intro access s _ hwaits
      apply Logic.Holds.bind
      apply (holds_commitAccess hpos hlimit hwaits).mono
      · intro _ s _ hanswered
        exact Logic.holds_pure ((stable_answered _).later hanswered)
      · exact fun _ _ _ h => h
    · exact fun _ _ _ h => h
  apply ReadCommitted.holds_inTransaction hbody
  · exact fun _ => stable_own pid
  · intro before failure hinv hown
    refine ⟨⟨hinv.exclusive.release pid, hinv.unique, hinv.counted, hinv.bounded⟩, ?_, ?_⟩
    · apply likedMeStep_quiet
      exact fun _ hother _ hheld => hheld.release (Ne.symm hother)
    · exact (stable_own pid).later hown

/-- A call does what its answer says. -/
theorem holds_likedMeCode (hpos : 1 ≤ limit) (hlimit : call.key = key → call.limit = limit)
    (hfresh : own pid w.log = []) :
    (likedMeLogic key limit requires).Holds call pid (likedMeCode call)
      (fun answer w => call.key = key → Answered key limit pid answer w) (fun _ _ => True) w := by
  apply Logic.Holds.tryCatch
  apply Logic.Holds.bind
  apply (holds_consumeLikedMeAccess hpos hlimit hfresh).mono
  · intro admitted s _ hanswered
    exact Logic.holds_pure ((stable_answered _).later hanswered)
  · intro failure s _ hown
    apply Logic.holds_pure
    apply (stable_answered _).later
    exact fun _ => answered_error failure hown

theorem sound_likedMe {accepts : LikedMeCall → Prop} (hpos : 1 ≤ limit)
    (hlimits : ∀ call, accepts call → call.key = key → call.limit = limit) :
    (likedMeLogic key limit accepts).Sound (likedMeSystem accepts) where
  accepts haccepted _ := haccepted
  code pid haccepted _ hfresh := holds_likedMeCode hpos (hlimits _ haccepted) hfresh
  environment := by
    intro before after hmoves _ hinv
    have hfind : ∀ row, findAccess row after.committed = findAccess row before.committed := by
      intro row
      rw [findAccess, hmoves.accesses]
      rfl
    have hcount : viewedCount key after.committed = viewedCount key before.committed := by
      rw [viewedCount, hfind]
      rfl
    constructor
    · refine ⟨?_, ?_, ?_, ?_⟩
      · rw [hmoves.locks]
        exact hinv.exclusive
      · rw [hmoves.accesses]
        exact hinv.unique
      · rw [hmoves.log, hcount]
        exact hinv.counted
      · rw [hcount]
        exact hinv.bounded
    · intro pid
      refine ⟨by rw [hmoves.log], hcount.ge, fun row hheld => ⟨?_, hfind row⟩⟩
      rw [hmoves.locks]
      exact hheld
  rollback := by
    intro before pid hinv
    refine ⟨⟨hinv.exclusive.release pid, hinv.unique, hinv.counted, hinv.bounded⟩, ?_⟩
    intro other hother
    exact ⟨rfl, le_rfl, fun _ hheld => ⟨hheld.release (Ne.symm hother), rfl⟩⟩

end Calls

/-! ### Every run -/

abbrev LikedMeConfig := Config LikedMeState LikedMeCall Failure LikedMeAnswer

/-- The service at rest. -/
def likedMeAtRest (db : Database) : LikedMeConfig := .idle (.ofCommitted db)

/-- The answer of a call that has one. -/
def answerOf (thread : Thread LikedMeState LikedMeCall Failure LikedMeAnswer) : Option LikedMeAnswer :=
  match thread.rest with
  | .done answer => some answer
  | _ => none

/-- A call of the window has returned `true`. -/
def returnedTrue (key : LikedMeKey)
    (thread : Thread LikedMeState LikedMeCall Failure LikedMeAnswer) : Bool :=
  thread.request.key = key ∧ answerOf thread = some (.ok true)

/-- A call of the window has returned. -/
def hasReturned (key : LikedMeKey)
    (thread : Thread LikedMeState LikedMeCall Failure LikedMeAnswer) : Bool :=
  thread.request.key = key ∧ (answerOf thread).any Except.isOk

section Runs

variable {key : LikedMeKey} {limit pid : ℕ} {accepts : LikedMeCall → Prop} {db : Database}
  {c : LikedMeConfig}

theorem good_likedMe (hpos : 1 ≤ limit)
    (hlimits : ∀ call, accepts call → call.key = key → call.limit = limit)
    (hunique : UniqueKey accessKey db.userLikedMeAccesses) (hnone : findAccess key db = none)
    (hrun : Reachable (likedMeSystem accepts) anyStep (likedMeAtRest db) c) :
    (likedMeLogic key limit accepts).Good c := by
  have hzero : viewedCount key db = 0 := by
    rw [viewedCount, hnone]
    rfl
  apply (sound_likedMe hpos hlimits).reachable _ hrun
  apply Logic.good_idle
  · exact ⟨exclusive_nil, hunique, hzero, hzero.le.trans (Nat.zero_le _)⟩
  · exact fun _ => rfl

/-- A call of another window enters nothing in this one. -/
theorem own_eq_zero_of_ne (hpos : 1 ≤ limit)
    (hlimits : ∀ call, accepts call → call.key = key → call.limit = limit)
    (hunique : UniqueKey accessKey db.userLikedMeAccesses) (hnone : findAccess key db = none)
    (hrun : Reachable (likedMeSystem accepts) anyStep (likedMeAtRest db) c) :
    Logic.Serves (fun call pid w => call.key ≠ key → (own pid w.log).countP (· = key) = 0) c := by
  refine (sound_likedMe hpos hlimits).serves (good_likedMe hpos hlimits hunique hnone .refl) hrun
    (fun _ _ h => h) ?_ ?_ ?_ ?_ ?_
  · intro pid thread hthread
    cases hthread
  · intro call pid w hfresh _
    have hown : own pid w.log = [] := hfresh
    rw [hown]
    rfl
  · intro call pid w w' hstep hzero hne
    obtain ⟨events, hlog, honly, -⟩ := hstep.enters
    have hnone : events.countP (· = key) = 0 := by
      apply List.countP_eq_zero.2
      intro event hevent heq
      exact hne ((honly event hevent).symm.trans (of_decide_eq_true heq))
    rw [hlog, own_stamp_append_self, List.countP_append, hnone, hzero hne]
  · intro call pid w w' hrely hzero hne
    rw [hrely.own]
    exact hzero hne
  · exact fun h => h

/-- Nothing leaves the history. -/
theorem log_likedMe {c' : LikedMeConfig} (hpos : 1 ≤ limit)
    (hlimits : ∀ call, accepts call → call.key = key → call.limit = limit)
    (hgood : (likedMeLogic key limit accepts).Good c)
    (hrun : Reachable (likedMeSystem accepts) anyStep c c') :
    ∃ newer, c'.state.log = newer ++ c.state.log := by
  apply (sound_likedMe hpos hlimits).relates (fun w w' => ∃ newer, w'.log = newer ++ w.log)
    hgood hrun
  · exact fun w => ⟨[], rfl⟩
  · rintro w₁ w₂ w₃ ⟨newer, hlog⟩ ⟨newer', hlog'⟩
    exact ⟨newer' ++ newer, by rw [hlog', hlog, List.append_assoc]⟩
  · intro call pid w w' _ hstep
    obtain ⟨events, hlog, -⟩ := hstep.enters
    exact ⟨_, hlog⟩
  · intro w w' _ hmoves
    exact ⟨[], hmoves.log⟩
  · exact fun pid w => ⟨[], rfl⟩

/-- As many calls of the window have returned `true` as views were counted there. -/
theorem countP_returnedTrue (hpos : 1 ≤ limit)
    (hlimits : ∀ call, accepts call → call.key = key → call.limit = limit)
    (hunique : UniqueKey accessKey db.userLikedMeAccesses) (hnone : findAccess key db = none)
    (hrun : Reachable (likedMeSystem accepts) anyStep (likedMeAtRest db) c)
    (hdone : ∀ thread ∈ c.threads, thread.request.key = key → ∃ answer, thread.rest = .done answer) :
    c.threads.countP (returnedTrue key) = viewedCount key c.state.committed := by
  have hgood := good_likedMe hpos hlimits hunique hnone hrun
  rw [hgood.invariant.counted]
  apply countP_eq_count
  · intro pid hunused
    exact hgood.fresh hunused
  · intro pid thread hthread
    by_cases hkey : thread.request.key = key
    · obtain ⟨answer, hanswer⟩ := hdone thread (List.mem_of_getElem? hthread) hkey
      have hrest : c.threads[pid]? = some ⟨thread.request, .done answer⟩ := by
        rw [hthread, ← hanswer]
      have hanswered : Answered key limit pid answer c.state :=
        Logic.Sound.ensures hgood hrest hkey
      rw [hanswered.entries]
      simp [returnedTrue, hkey, answerOf, hanswer]
    · rw [own_eq_zero_of_ne hpos hlimits hunique hnone hrun pid thread hthread hkey]
      simp [returnedTrue, hkey]

/-- What is admitted is what was asked for, up to the limit. -/
theorem countP_eq_min (hpos : 1 ≤ limit)
    (hlimits : ∀ call, accepts call → call.key = key → call.limit = limit)
    (hunique : UniqueKey accessKey db.userLikedMeAccesses) (hnone : findAccess key db = none)
    (hrun : Reachable (likedMeSystem accepts) anyStep (likedMeAtRest db) c)
    (hdone : ∀ thread ∈ c.threads, thread.request.key = key → ∃ answer, thread.rest = .done answer) :
    c.threads.countP (returnedTrue key) = min (c.threads.countP (hasReturned key)) limit := by
  have hgood := good_likedMe hpos hlimits hunique hnone hrun
  have htrue := countP_returnedTrue hpos hlimits hunique hnone hrun hdone
  have hbounded := hgood.invariant.bounded
  have hle : c.threads.countP (returnedTrue key) ≤ c.threads.countP (hasReturned key) := by
    apply List.countP_mono_left
    intro thread _ hreturned
    simp only [returnedTrue, decide_eq_true_eq] at hreturned
    simp [hasReturned, hreturned, Except.isOk, Except.toBool]
  -- Either a call was refused, and then the limit is reached, or each was admitted.
  by_cases hrefused : ∃ thread ∈ c.threads, thread.request.key = key ∧
      thread.rest = .done (.ok false)
  · obtain ⟨thread, hmem, hkey, hrest⟩ := hrefused
    obtain ⟨pid, hpid⟩ := List.mem_iff_getElem?.1 hmem
    have hthread : c.threads[pid]? = some ⟨thread.request, .done (.ok false)⟩ := by
      rw [hpid, ← hrest]
    have hanswered : Answered key limit pid (.ok false) c.state :=
      Logic.Sound.ensures hgood hthread hkey
    have hfull := hanswered.full rfl
    omega
  · have hsame : c.threads.countP (hasReturned key) = c.threads.countP (returnedTrue key) := by
      apply List.countP_congr
      intro thread hmem
      simp only [hasReturned, returnedTrue, decide_eq_true_eq]
      constructor
      · rintro ⟨hkey, hok⟩
        obtain ⟨answer, hanswer⟩ := hdone thread hmem hkey
        rw [answerOf, hanswer] at hok ⊢
        refine ⟨hkey, ?_⟩
        match answer, hanswer, hok with
        | .ok true, _, _ => rfl
        | .ok false, hanswer, _ => exact absurd ⟨thread, hmem, hkey, hanswer⟩ hrefused
      · rintro ⟨hkey, htrue⟩
        rw [htrue]
        exact ⟨hkey, rfl⟩
    omega

/-- A step of a call leaves the other windows alone, and changes nothing if the call does not
return `true` in the end. -/
theorem moves_likedMe {c₁ c₂ : LikedMeConfig}
    {thread : Thread LikedMeState LikedMeCall Failure LikedMeAnswer} (answer : LikedMeAnswer)
    (hpos : 1 ≤ limit) (hlimits : ∀ call, accepts call → call.key = key → call.limit = limit)
    (hunique : UniqueKey accessKey db.userLikedMeAccesses) (hnone : findAccess key db = none)
    (hrun : Reachable (likedMeSystem accepts) anyStep (likedMeAtRest db) c₁)
    (hmoves : Moves pid c₁ c₂) (hlater : Reachable (likedMeSystem accepts) anyStep c₂ c)
    (hthread : c.threads[pid]? = some thread) :
    (∀ other, other ≠ thread.request.key →
      findAccess other c₂.state.committed = findAccess other c₁.state.committed) ∧
    (thread.request.key = key → thread.rest = .done answer → answer ≠ .ok true →
      c₂.state.committed = c₁.state.committed) := by
  have hgood := good_likedMe hpos hlimits hunique hnone hrun
  have hstep : Step (likedMeSystem accepts) c₁ c₂ := hmoves.step
  have hgood₂ := good_likedMe hpos hlimits hunique hnone (hrun.tail ⟨hstep, trivial⟩)
  have hgoodc := good_likedMe hpos hlimits hunique hnone
    ((hrun.tail ⟨hstep, trivial⟩).trans hlater)
  cases hmoves with
  | @run request β act next reply after running acts =>
      have hmoved : (c₁.threads.set pid ⟨request, next reply⟩)[pid]? =
          some ⟨request, next reply⟩ := by
        have hlt := (List.getElem?_eq_some_iff.1 running).1
        rw [List.getElem?_set_self hlt]
      have hrequest : thread.request = request := Reachable.request_eq hlater hmoved hthread
      have hguarantee : LikedMeStep key request pid c₁.state after :=
        Logic.Sound.guarantee hgood running acts trivial
      rw [hrequest]
      refine ⟨hguarantee.apart, ?_⟩
      intro hkey hrest hanswer
      obtain ⟨events, hlog, honly, hnothing, -⟩ := hguarantee.enters
      apply hnothing
      -- An entry would still be in the history, and the answer would be another one.
      by_contra hne
      obtain ⟨event, hevent⟩ := List.exists_mem_of_ne_nil events hne
      obtain ⟨newer, hnewer⟩ := log_likedMe hpos hlimits hgood₂ hlater
      have hmem : event ∈ own pid c.state.log := by
        rw [hnewer, mem_own]
        apply List.mem_append_right
        rw [hlog]
        exact List.mem_append_left _ (mem_stamp.2 ⟨rfl, hevent⟩)
      have hdone : c.threads[pid]? = some ⟨thread.request, .done answer⟩ := by
        rw [hthread, ← hrest]
      have hanswered : Answered key limit pid answer c.state :=
        Logic.Sound.ensures hgoodc hdone (hrequest ▸ hkey)
      have hzero := hanswered.entries
      rw [if_neg hanswer, List.countP_eq_zero] at hzero
      exact hzero event hmem (decide_eq_true ((honly event hevent).trans hkey))

/-- The quota of a window: when the calls of a user in it have ended, as many as the limit allows
have returned `true`, and the others have changed nothing; no step of a call changes what is
counted in another window; and the windows partition the time line. -/
theorem likedMe_quota {userId : Uuid} {now : Timestamp} (hlimit : 1 ≤ limit)
    (hlimits : ∀ call, accepts call → call.key = (userId, startOfLikedMeWindow now) →
      call.limit = limit)
    (hunique : UniqueKey accessKey db.userLikedMeAccesses)
    (hnone : findAccess (userId, startOfLikedMeWindow now) db = none)
    (hrun : Reachable (likedMeSystem accepts) anyStep (likedMeAtRest db) c)
    (hdone : ∀ thread ∈ c.threads, thread.request.key = (userId, startOfLikedMeWindow now) →
      ∃ answer, thread.rest = .done answer) :
    (c.threads.countP (returnedTrue (userId, startOfLikedMeWindow now)) =
        min (c.threads.countP (hasReturned (userId, startOfLikedMeWindow now))) limit ∧
      viewedCount (userId, startOfLikedMeWindow now) c.state.committed =
        c.threads.countP (returnedTrue (userId, startOfLikedMeWindow now))) ∧
    (∀ pid c₁ c₂ thread, Reachable (likedMeSystem accepts) anyStep (likedMeAtRest db) c₁ →
      Moves pid c₁ c₂ → Reachable (likedMeSystem accepts) anyStep c₂ c →
      c.threads[pid]? = some thread →
      (∀ other, other ≠ thread.request.key →
        findAccess other c₂.state.committed = findAccess other c₁.state.committed) ∧
      (thread.request.key = (userId, startOfLikedMeWindow now) →
        returnedTrue (userId, startOfLikedMeWindow now) thread = false →
          c₂.state.committed = c₁.state.committed)) ∧
    (∀ time, time ∈ likedMeWindow time) ∧
    ∀ time time', likedMeWindow time = likedMeWindow time' ∨
      Disjoint (likedMeWindow time) (likedMeWindow time') := by
  refine ⟨⟨?_, ?_⟩, ?_, mem_likedMeWindow, likedMeWindow_eq_or_disjoint⟩
  · exact countP_eq_min hlimit hlimits hunique hnone hrun hdone
  · exact (countP_returnedTrue hlimit hlimits hunique hnone hrun hdone).symm
  · intro pid c₁ c₂ thread hrun₁ hmoves hlater hthread
    constructor
    · exact (moves_likedMe (.ok true) hlimit hlimits hunique hnone hrun₁ hmoves hlater
        hthread).1
    · intro hkey hreturned
      obtain ⟨answer, hanswer⟩ := hdone thread (List.mem_of_getElem? hthread) hkey
      apply (moves_likedMe answer hlimit hlimits hunique hnone hrun₁ hmoves hlater hthread).2 hkey hanswer
      rintro rfl
      simp [returnedTrue, hkey, answerOf, hanswer] at hreturned

end Runs

/-- A call that no other one disturbs. -/
theorem performs_likedMeCode {pid : ℕ} {call : LikedMeCall} {db after : Database}
    {log : List (ℕ × LikedMeKey)} {access : Option LikedMeAccess}
    (hread : returnedAccess call.input db = .ok access) (hwrites : upsertAccess call.input db = .ok after) :
    Performs pid (likedMeCode call) ⟨db, [], log⟩ (.ok access.isSome)
      ⟨after, [], stamp pid (if access.isSome then [call.key] else []) ++ log⟩ := by
  have hlock : Performs pid (evaluate unwritten .noKeyUpdate (fun _ => [call.input.key])
      (returnedAccess call.input) (fun _ => []) : LikedMeProg _) ⟨db, [], log⟩ access
      ⟨db, acquire pid .noKeyUpdate [call.key] [], log⟩ :=
    performs_evaluate (fun _ _ _ hlock => nomatch hlock) hread
  have hcommit : Performs pid (commitWrites (upsertAccess call.input)
      (if access.isSome then [call.key] else []) : LikedMeProg Unit)
      ⟨db, acquire pid .noKeyUpdate [call.key] [], log⟩ ()
      ⟨after, release pid (acquire pid .noKeyUpdate [call.key] []),
        stamp pid (if access.isSome then [call.key] else []) ++ log⟩ :=
    performs_commitWrites hwrites
  have hfree : release pid (acquire pid .noKeyUpdate [call.key] []) = [] := by
    simp [release, acquire]
  rw [hfree] at hcommit
  have hend : Performs pid (commitWrites (upsertAccess call.input)
      (if access.isSome then [call.key] else []) >>= fun _ => pure access.isSome : LikedMeProg Bool)
      ⟨db, acquire pid .noKeyUpdate [call.key] [], log⟩ access.isSome
      ⟨after, [], stamp pid (if access.isSome then [call.key] else []) ++ log⟩ :=
    hcommit.bind (performs_pure access.isSome)
  have hbody : Performs pid (consumeLikedMeAccess call.input : LikedMeProg Bool) ⟨db, [], log⟩
      access.isSome ⟨after, [], stamp pid (if access.isSome then [call.key] else []) ++ log⟩ :=
    performs_inTransaction (hlock.bind hend)
  exact Runs.tryCatch (hbody.bind (performs_pure (Except.ok access.isSome))) _

/-- The morning of 28 August 2026. -/
def viewTime : Timestamp := 1787886000000

def viewer : Uuid := ⟨⟨"1e000000-0000-4000-8000-000000000046".toList, by decide⟩, by decide⟩

def viewersOnly : Database := .ofUsers [.visible viewer]

/-- The last view of a window, and one too many. -/
def lastView : LikedMeCall := ⟨viewer, viewTime, 1⟩

def afterLastView : Database :=
  { viewersOnly with userLikedMeAccesses := [⟨viewer, startOfLikedMeWindow viewTime, 1⟩] }

theorem likedMe_quota_last : ∃ c : LikedMeConfig,
    Reachable (likedMeSystem (· = lastView)) anyStep (likedMeAtRest viewersOnly) c ∧
      c.threads.countP (returnedTrue lastView.key) = min (c.threads.countP (hasReturned lastView.key)) 1 ∧
      c.threads.countP (hasReturned lastView.key) = 2 := by
  have hadmitted : returnedAccess lastView.input viewersOnly = .ok (some (newAccess lastView.input)) :=
    by rfl
  have hrefused : returnedAccess lastView.input afterLastView = .ok none := by rfl
  have hfirst : Performs 0 (likedMeCode lastView) (.ofCommitted viewersOnly) (.ok true)
      ⟨afterLastView, [], [(0, lastView.key)]⟩ := performs_likedMeCode hadmitted (by rfl)
  have hsecond : Performs 1 (likedMeCode lastView) ⟨afterLastView, [], [(0, lastView.key)]⟩
      (.ok false) ⟨afterLastView, [], [(0, lastView.key)]⟩ :=
    performs_likedMeCode hrefused (by rfl)
  have hrun₁ : Reachable (likedMeSystem (· = lastView)) anyStep (likedMeAtRest viewersOnly)
      ⟨⟨afterLastView, [], [(0, lastView.key)]⟩, [⟨lastView, .done (.ok true)⟩]⟩ :=
    Reachable.serve Relation.ReflTransGen.refl rfl trivial hfirst
  have hrun : Reachable (likedMeSystem (· = lastView)) anyStep (likedMeAtRest viewersOnly)
      ⟨⟨afterLastView, [], [(0, lastView.key)]⟩,
        [⟨lastView, .done (.ok true)⟩, ⟨lastView, .done (.ok false)⟩]⟩ :=
    Reachable.serve hrun₁ rfl trivial hsecond
  have hlimits : ∀ call, call = lastView → call.key = lastView.key → call.limit = 1 := by
    rintro call rfl _
    rfl
  have hunique : UniqueKey accessKey viewersOnly.userLikedMeAccesses := List.nodup_nil
  have hnone : findAccess (viewer, startOfLikedMeWindow viewTime) viewersOnly = none := rfl
  have hquota := likedMe_quota le_rfl hlimits hunique hnone hrun (by
    intro thread hmem _
    rcases List.mem_cons.1 hmem with rfl | hmem
    · exact ⟨_, rfl⟩
    · obtain rfl := List.mem_singleton.1 hmem
      exact ⟨_, rfl⟩)
  exact ⟨_, hrun, hquota.1.1, by rfl⟩

end ChatTea.Matching
