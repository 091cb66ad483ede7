import ChatTea.Notification.System

/-!
# Runs of the push delivery

What every run of the system keeps, however the requests and the workers interleave, whatever Expo
answers, and wherever a worker stops.

## Main definitions

* `OwnBalanced` — what the notes of one thread say
* `pushLogic` — what a thread may rely on, and what its steps do
* `Working` — what a worker knows of the jobs that it has claimed

## Main results

* `pushLogic_sound` — every program of the system keeps the invariant
-/

namespace ChatTea.Notification

open History Interleaving Table Transaction

/-! ### The invariant -/

/-- A thread hands over what it has claimed, stores results of its own claims, and gives up tokens
that were reported to it. -/
structure OwnBalanced (own : List PushEvent) : Prop where
  handed : ∀ which, own.countP (PushEvent.isHanded which) ≤ own.countP (PushEvent.isSend which)
  stored : ∀ phase id attempt, PushEvent.stored phase id attempt ∈ own →
    ∃ claimedAt again, PushEvent.claimed phase id attempt claimedAt again ∈ own
  removed : ∀ token, PushEvent.removed token ∈ own → PushEvent.reported token.token ∈ own

structure PushWorldInvariant (w : PushWorld) : Prop where
  tables : PushInvariant w.current
  log : LogInvariant w.current w.log
  own : ∀ pid, OwnBalanced (own pid w.log)

/-- No job goes back on anything. -/
def Moves (w w' : PushWorld) : Prop :=
  Succeeds PushOutbox.id Became (fun _ => True) w.current.pushOutbox w.current.nextRowId
    w'.current.pushOutbox w'.current.nextRowId

variable {w w' w'' : PushWorld} {pid other : ℕ} {request : PushRequest} {phase : PushPhase}
  {jobs : List PushOutbox} {now : Timestamp} {unregistered : List String}

theorem Moves.refl (w : PushWorld) : Moves w w :=
  Succeeds.refl (fun row _ => Became.refl row) w.current.nextRowId

theorem Moves.trans (h : Moves w w') (h' : Moves w' w'') : Moves w w'' :=
  Succeeds.trans (fun _ _ _ => Became.trans) (fun _ _ _ _ => trivial) h h'

/-- A thread relies on its own notes, and on jobs that do not go back on anything. -/
def pushLogic : Logic PushWorld PushRequest Failure Unit where
  invariant := PushWorldInvariant
  rely pid w w' := own pid w'.log = own pid w.log ∧ Moves w w'
  guarantee _ pid w w' := (∀ other, other ≠ pid → own other w'.log = own other w.log) ∧ Moves w w'
  allowed _ _ := True
  requires _ _ := True
  ensures _ _ _ _ := True
  fresh pid w := own pid w.log = []
  rely_refl _ w := ⟨rfl, Moves.refl w⟩
  rely_trans h h' := ⟨h'.1.trans h.1, h.2.trans h'.2⟩
  guarantee_refl _ _ w := ⟨fun _ _ => rfl, Moves.refl w⟩
  rely_of_guarantee hother h := ⟨h.1 _ hother, h.2⟩
  fresh_of_rely h hfresh := h.1.trans hfresh

theorem later_true {assertion : PushWorld → Prop} (h : ∀ w, assertion w) :
    pushLogic.Later pid assertion w := fun before _ _ => h before

/-- A step of a thread that notes what it did. -/
theorem guarantee_advance {after : Database} {events : List PushEvent}
    (hmoves : Moves w (w.advance pid after events)) :
    pushLogic.guarantee request pid w (w.advance pid after events) :=
  ⟨fun _ hother => own_stamp_append_other hother, hmoves⟩

/-- A step changes the notes of its own thread only. -/
theorem own_advance {after : Database} {events : List PushEvent}
    (hown : ∀ pid, OwnBalanced (own pid w.log))
    (hevents : OwnBalanced (own pid w.log) → OwnBalanced (events ++ own pid w.log)) :
    ∀ other, OwnBalanced (own other (w.advance pid after events).log) := by
  intro other
  by_cases hother : other = pid
  · rw [hother, Chronicle.advance_log, own_stamp_append_self]
    exact hevents (hown pid)
  · rw [Chronicle.advance_log, own_stamp_append_other hother]
    exact hown other

theorem PushChange.moves {after : Database} {events : List PushEvent}
    (h : PushChange w.current after) (hdb : PushInvariant w.current) :
    Moves w (w.advance pid after events) :=
  (h.rows hdb).mono (fun _ _ htended => htended.became) (fun _ _ => trivial)

/-! ### Calls that note nothing -/

/-- A call other than a batch, or nothing at all. -/
def QuietStep (pid : ℕ) (w w' : PushWorld) : Prop :=
  w' = w ∨ ∃ after, PushChange w.current after ∧ w' = w.advance pid after []

theorem QuietStep.keeps (h : QuietStep pid w w') (hinv : PushWorldInvariant w) :
    PushWorldInvariant w' ∧ pushLogic.guarantee request pid w w' := by
  rcases h with rfl | ⟨after, hchange, rfl⟩
  · exact ⟨hinv, pushLogic.guarantee_refl _ _ _⟩
  · refine ⟨⟨hchange.invariant hinv.tables, ?_, ?_⟩, ?_⟩
    · exact hinv.log.change hinv.tables hchange
        (settles_of_none fun _ hmem => absurd hmem List.not_mem_nil)
    · exact own_advance hinv.own fun h => h
    · exact guarantee_advance (hchange.moves hinv.tables)

theorem stays_quietCall {α : Type} {call : Timestamp → Call Database Failure α}
    (hcall : ∀ now db value db', call now db = .ok (value, db') → PushChange db db') :
    (quietCall call : Prog PushWorld PushRequest Failure Unit).Stays (QuietStep pid) pid := by
  apply Prog.Stays.bind
  · exact Prog.Stays.anything fun _ => Or.inl rfl
  · intro now
    apply Prog.Stays.bind
    · apply Chronicle.stays_transact
      · exact fun _ => Or.inl rfl
      · exact fun w value after hreturns => Or.inr ⟨after, hcall now _ _ _ hreturns, rfl⟩
    · exact fun _ => trivial

theorem holds_quiet {program : Prog PushWorld PushRequest Failure Unit}
    (h : program.Stays (QuietStep pid) pid) :
    pushLogic.Holds request pid program (fun _ _ => True) (fun _ _ => True) w :=
  Logic.holds_of_stays h fun hinv _ hstep => QuietStep.keeps hstep hinv

/-! ### Batches -/

/-- What a worker knows of the jobs that it has claimed. -/
structure Working (phase : PushPhase) (jobs : List PushOutbox) (pid : ℕ) (w : PushWorld) : Prop where
  drawn : ∀ job ∈ jobs, job.id < w.current.nextRowId
  became : ∀ job ∈ jobs, ∀ row ∈ w.current.pushOutbox, row.id = job.id → Became job row
  claims : ∀ job ∈ jobs, ∃ claimedAt again,
    PushEvent.claimed phase job.id (phase.attempts job) claimedAt again ∈ own pid w.log

/-- The messages of the jobs may be handed to Expo. -/
def Unasked (jobs : List PushOutbox) (pid : ℕ) (w : PushWorld) : Prop :=
  ∀ which, (own pid w.log).countP (PushEvent.isHanded which) +
    jobs.countP (fun job => which job.id job.sendAttempts) ≤
      (own pid w.log).countP (PushEvent.isSend which)

/-- Expo has reported the tokens to the worker. -/
def Reported (unregistered : List String) (pid : ℕ) (w : PushWorld) : Prop :=
  ∀ token ∈ unregistered, PushEvent.reported token ∈ own pid w.log

theorem stable_working : pushLogic.Stable pid (Working phase jobs pid) := by
  intro w w' hrely _ h
  obtain ⟨hown, hmoves⟩ := hrely
  constructor
  · exact fun job hjob => (h.drawn job hjob).trans_le hmoves.drawn
  · intro job hjob row' hrow' hid
    rcases hmoves.rows row' hrow' with ⟨row, hrow, hsame, hbecame⟩ | ⟨hnew, -⟩
    · exact (h.became job hjob row hrow (hsame.symm.trans hid)).trans hbecame
    · rw [hid] at hnew
      exact absurd (h.drawn job hjob) (Nat.not_lt.2 hnew)
  · rw [hown]
    exact h.claims

theorem stable_unasked : pushLogic.Stable pid (Unasked jobs pid) := by
  intro w w' hrely _ h
  unfold Unasked
  rw [hrely.1]
  exact h

theorem stable_reported : pushLogic.Stable pid (Reported unregistered pid) := by
  intro w w' hrely _ h
  unfold Reported
  rw [hrely.1]
  exact h

theorem stable_and {first second : PushWorld → Prop} (h : pushLogic.Stable pid first)
    (h' : pushLogic.Stable pid second) : pushLogic.Stable pid fun w => first w ∧ second w :=
  fun _ _ hrely hinv hboth => ⟨h hrely hinv hboth.1, h' hrely hinv hboth.2⟩

theorem countP_isHanded_claims (phase : PushPhase) (claimed : PushClaimBatch) (db db' : Database)
    (which : RowId → ℕ → Bool) :
    (claimNotes phase now claimed db db').countP (PushEvent.isHanded which) = 0 := by
  apply List.countP_eq_zero.2
  intro event hmem hevent
  obtain ⟨job, -, rfl⟩ := List.mem_map.1 hmem
  cases hevent

/-- A claim. -/
theorem holds_claim (phase : PushPhase) (now : Timestamp) (scan : Scan) (limit : ℕ) (hfresh : own pid w.log = []) :
    pushLogic.Holds request pid
      (Chronicle.transact (phase.claim now scan limit) (claimNotes phase now))
      (fun claimed w => Working phase claimed.jobs pid w ∧
        (phase = .send → Unasked claimed.jobs pid w)) (fun _ _ => True) w := by
  apply Chronicle.holds_transact fun w => own pid w.log = []
  · exact fun before hrely _ => hrely.1.trans hfresh
  case hthrows => exact fun _ _ => later_true fun _ => trivial
  intro before claimed after hown hinv hclaim
  obtain ⟨hafter, hdescends⟩ := claim_push hinv.tables hclaim
  obtain ⟨isSelected, hmarks, hdb'⟩ := claim_marks hinv.tables hclaim
  have hnext : after.nextRowId = before.current.nextRowId := by rw [hdb']
  have hlog : own pid (before.advance pid after
      (claimNotes phase now claimed before.current after)).log =
        claimNotes phase now claimed before.current after := by
    rw [Chronicle.advance_log, own_stamp_append_self, hown, List.append_nil]
  refine ⟨⟨hafter, hinv.log.claim hinv.tables hclaim, ?_⟩, ?_, ?_⟩
  · apply own_advance hinv.own
    intro hbalanced
    rw [hown, List.append_nil]
    constructor
    · intro which
      rw [countP_isHanded_claims]
      exact Nat.zero_le _
    · intro phase' id attempt hmem
      exact absurd rfl (claimNotes_not_stored _ hmem phase' id attempt)
    · intro token hmem
      obtain ⟨job, -, hjob⟩ := List.mem_map.1 hmem
      cases hjob
  · exact guarantee_advance (hdescends.succeeds (fun _ => True) (Nat.le_of_eq hnext.symm))
  · apply Logic.Stable.later
    · intro s s' hrely hinv' hs
      exact ⟨stable_working hrely hinv' hs.1, fun hsend => stable_unasked hrely hinv' (hs.2 hsend)⟩
    refine ⟨⟨?_, ?_, ?_⟩, ?_⟩
    · intro job hjob
      obtain ⟨row, hrow, -, rfl⟩ := (hmarks.mem job).1 hjob
      rw [mark_id]
      exact (hinv.tables.drawn row hrow).trans_le (Nat.le_of_eq hnext.symm)
    · intro job hjob row hrow hid
      obtain ⟨old, hold, hselected, rfl⟩ := (hmarks.mem job).1 hjob
      -- The job is the row that was marked.
      have hmarked : phase.mark (now + pushLeaseMs) old ∈ after.pushOutbox := by
        rw [hdb']
        exact mem_updateWhere.2 (Or.inl ⟨old, hold, hselected, rfl⟩)
      have hsame : row = phase.mark (now + pushLeaseMs) old := hafter.ids.eq_of_key hrow hmarked hid
      rw [hsame]
      exact Became.refl _
    · intro job hjob
      rw [hlog]
      exact ⟨now, _, mem_claimNotes.2 ⟨job, hjob, rfl, rfl, rfl, rfl, rfl⟩⟩
    · intro hsend which
      subst hsend
      rw [hlog, countP_isHanded_claims, Nat.zero_add, claimNotes, List.countP_map]
      exact Nat.le_refl _

/-- Expo is asked, and what it reports is noted. -/
theorem holds_ask {notes : ExpoClient → List PushEvent} {reported : ExpoClient → List String}
    (hnotes : ∀ client, ∀ event ∈ notes client,
      (∃ id attempt, event = .handed id attempt) ∨ ∃ token, event = .reported token)
    (hreported : ∀ client, ∀ token ∈ reported client, .reported token ∈ notes client)
    (hhanded : ∀ w client, Unasked jobs pid w → phase = .send → ∀ which,
      (notes client).countP (PushEvent.isHanded which) + (own pid w.log).countP
        (PushEvent.isHanded which) ≤ (own pid w.log).countP (PushEvent.isSend which))
    (hsilent : phase ≠ .send → ∀ client which,
      (notes client).countP (PushEvent.isHanded which) = 0)
    (hworking : Working phase jobs pid w) (hunasked : phase = .send → Unasked jobs pid w) :
    pushLogic.Holds request pid (Chronicle.consult notes)
      (fun client w => Working phase jobs pid w ∧ Reported (reported client) pid w)
      (fun _ _ => True) w := by
  apply Chronicle.holds_consult fun w => Working phase jobs pid w ∧ (phase = .send → Unasked jobs pid w)
  case hassertion => exact ⟨hworking, hunasked⟩
  case hstable =>
    intro s s' hrely hinv' hs
    exact ⟨stable_working hrely hinv' hs.1, fun hsend => stable_unasked hrely hinv' (hs.2 hsend)⟩
  intro before client hbefore hinv
  have hown : own pid (before.advance pid before.current (notes client)).log =
      notes client ++ own pid before.log := by
    rw [Chronicle.advance_log, own_stamp_append_self]
  have hquiet : ∀ event ∈ notes client, (∃ id attempt, event = .handed id attempt) ∨
      (∃ token, event = .reported token) ∨ ∃ token, event = .removed token :=
    fun event hmem => (hnotes client event hmem).imp_right Or.inl
  refine ⟨⟨hinv.tables, ?_, ?_⟩, ?_, ?_⟩
  · exact hinv.log.change hinv.tables (.refl before.current) (settles_of_none hquiet)
  · apply own_advance hinv.own
    intro hbalanced
    have hold {event : PushEvent} (hmem : event ∈ notes client ++ own pid before.log)
        (hother : ∀ id attempt, event ≠ .handed id attempt) (hother' : ∀ token, event ≠ .reported token) :
        event ∈ own pid before.log := by
      rcases List.mem_append.1 hmem with hnew | hmem
      · rcases hnotes client event hnew with ⟨id, attempt, rfl⟩ | ⟨token, rfl⟩
        · exact absurd rfl (hother id attempt)
        · exact absurd rfl (hother' token)
      · exact hmem
    constructor
    · intro which
      have hsends : (notes client).countP (PushEvent.isSend which) = 0 := by
        apply List.countP_eq_zero.2
        intro event hmem hevent
        rcases hnotes client event hmem with ⟨id, attempt, rfl⟩ | ⟨token, rfl⟩ <;> cases hevent
      rw [List.countP_append, List.countP_append]
      by_cases hsend : phase = .send
      · have hle := hhanded before client (hbefore.2 hsend) hsend which
        omega
      · have hnone := hsilent hsend client which
        have hle := hbalanced.handed which
        omega
    · intro phase' id attempt hmem
      have hmem := hold hmem (fun _ _ => PushEvent.noConfusion) (fun _ => PushEvent.noConfusion)
      obtain ⟨claimedAt, again, hclaimed⟩ := hbalanced.stored phase' id attempt hmem
      exact ⟨claimedAt, again, List.mem_append_right _ hclaimed⟩
    · intro token hmem
      have hmem := hold hmem (fun _ _ => PushEvent.noConfusion) (fun _ => PushEvent.noConfusion)
      exact List.mem_append_right _ (hbalanced.removed token hmem)
  · exact guarantee_advance (Moves.refl before)
  · apply (stable_and stable_working stable_reported).later
    refine ⟨⟨hbefore.1.drawn, hbefore.1.became, fun job hjob => ?_⟩, fun token htoken => ?_⟩
    · obtain ⟨claimedAt, again, hmem⟩ := hbefore.1.claims job hjob
      rw [hown]
      exact ⟨claimedAt, again, List.mem_append_right _ hmem⟩
    · rw [hown]
      exact List.mem_append_left _ (hreported client token htoken)

/-- A job that a worker has claimed is remembered as it is while it is still claimed. -/
theorem Working.remembered (h : Working phase jobs pid w) {job : PushOutbox} (hjob : job ∈ jobs) :
    Remembered phase job w.current := by
  intro row hrow hid hstatus hattempts
  have hbecame := h.became job hjob row hrow hid
  exact ⟨hbecame.held phase hstatus hattempts, hbecame.pushTokenId⟩

/-- The results are stored. -/
theorem holds_store {results : List StoredResult} {call : Call Database Failure Unit}
    (hcall : call = applyAll phase now results)
    (hfor : ∀ result ∈ results, ∃ job ∈ jobs, result.For phase job unregistered)
    (hworking : Working phase jobs pid w) (hreported : Reported unregistered pid w) :
    pushLogic.Holds request pid (Chronicle.transact call (storeNotes phase now results))
      (fun _ _ => True) (fun _ _ => True) w := by
  subst hcall
  apply Chronicle.holds_transact fun w => Working phase jobs pid w ∧ Reported unregistered pid w
  case hassertion => exact (stable_and stable_working stable_reported).later ⟨hworking, hreported⟩
  case hthrows => exact fun _ _ => later_true fun _ => trivial
  intro before done after hbefore hinv happly
  obtain ⟨hworking, hreported⟩ := hbefore
  have hjobs : ∀ result ∈ results, ∃ job, result.For phase job unregistered := by
    intro result hresult
    obtain ⟨job, -, hjob⟩ := hfor result hresult
    exact ⟨job, hjob⟩
  have hchange := applyAll_push hjobs happly
  obtain ⟨hnodup, hspec⟩ := storedResults_spec hjobs hinv.tables happly
  -- A note of a stored result is one of the stored results.
  have hstored {phase' : PushPhase} {id : RowId} {attempt : ℕ}
      (hmem : PushEvent.stored phase' id attempt ∈
        storeNotes phase now results done before.current after) :
      ∃ result ∈ storedResults phase now results before.current,
        phase' = phase ∧ id = result.id ∧ attempt = result.attempt := by
    rcases List.mem_append.1 hmem with hremoved | hmem
    · obtain ⟨token, -, htoken⟩ := List.mem_map.1 hremoved
      cases htoken
    · obtain ⟨result, hresult, hsame⟩ := List.mem_map.1 hmem
      obtain ⟨rfl, rfl, rfl⟩ := PushEvent.stored.inj hsame
      exact ⟨result, hresult, rfl, rfl, rfl⟩
  have hsettles : Settles before.current after (storeNotes phase now results done before.current after) := by
    constructor
    · intro phase' id attempt claimedAt again hmem
      rcases List.mem_append.1 hmem with hmem | hmem
      · obtain ⟨token, -, htoken⟩ := List.mem_map.1 hmem
        cases htoken
      · obtain ⟨result, -, hresult⟩ := List.mem_map.1 hmem
        cases hresult
    · intro phase' id attempt
      have hremoved : ((removedTokens before.current after).map PushEvent.removed).countP
          (PushEvent.isStored phase' id attempt) = 0 := by
        apply List.countP_eq_zero.2
        intro event hmem hevent
        obtain ⟨token, -, rfl⟩ := List.mem_map.1 hmem
        cases hevent
      rw [storeNotes, List.countP_append, hremoved, Nat.zero_add, List.countP_map]
      calc (storedResults phase now results before.current).countP _
          ≤ ((storedResults phase now results before.current).map (·.id)).count id := by
            rw [List.count, List.countP_map]
            apply List.countP_mono_left
            intro result _ hresult
            obtain ⟨-, hid, -⟩ := of_decide_eq_true hresult
            simpa using hid
        _ ≤ 1 := List.nodup_iff_count_le_one.1 hnodup id
    · intro phase' id attempt hmem
      obtain ⟨result, hresult, rfl, rfl, rfl⟩ := hstored hmem
      obtain ⟨-, hclaimed, hended⟩ := hspec result hresult
      obtain ⟨row, hrow, hrow'⟩ := hclaimed
      exact ⟨⟨row, hrow, isClaimed_iff.1 hrow'⟩, hended⟩
  refine ⟨⟨hchange.invariant hinv.tables, hinv.log.change hinv.tables hchange hsettles, ?_⟩, ?_,
    later_true fun _ => trivial⟩
  · apply own_advance hinv.own
    intro hbalanced
    constructor
    · intro which
      have hnone : (storeNotes phase now results done before.current after).countP
          (PushEvent.isHanded which) = 0 := by
        apply List.countP_eq_zero.2
        intro event hmem hevent
        rcases List.mem_append.1 hmem with hmem | hmem
        · obtain ⟨token, -, rfl⟩ := List.mem_map.1 hmem
          cases hevent
        · obtain ⟨result, -, rfl⟩ := List.mem_map.1 hmem
          cases hevent
      rw [List.countP_append, List.countP_append]
      have hle := hbalanced.handed which
      omega
    · intro phase' id attempt hmem
      rcases List.mem_append.1 hmem with hnew | hmem
      · obtain ⟨result, hresult, rfl, rfl, rfl⟩ := hstored hnew
        obtain ⟨job, hjob, hresultFor⟩ := hfor result (hspec result hresult).1
        obtain ⟨claimedAt, again, hclaimed⟩ := hworking.claims job hjob
        rw [hresultFor.id, hresultFor.attempt]
        exact ⟨claimedAt, again, List.mem_append_right _ hclaimed⟩
      · obtain ⟨claimedAt, again, hclaimed⟩ := hbalanced.stored phase' id attempt hmem
        exact ⟨claimedAt, again, List.mem_append_right _ hclaimed⟩
    · intro token hmem
      rcases List.mem_append.1 hmem with hnew | hmem
      · rcases List.mem_append.1 hnew with hremoved | hmem
        · obtain ⟨gone, hgone, hsame⟩ := List.mem_map.1 hremoved
          obtain rfl := PushEvent.removed.inj hsame
          obtain ⟨htoken, hmissing⟩ := List.mem_filter.1 hgone
          have hresults : ∀ result ∈ results, ∃ job, result.For phase job unregistered ∧
              Remembered phase job before.current := by
            intro result hresult
            obtain ⟨job, hjob, hresultFor⟩ := hfor result hresult
            exact ⟨job, hresultFor, hworking.remembered hjob⟩
          rcases removed_spec hresults hinv.tables happly htoken with hkept | hunregistered
          · have hne : gone.id ≠ gone.id := by
              simpa using List.all_eq_true.1 hmissing gone hkept
            exact absurd rfl hne
          · exact List.mem_append_right _ (hreported _ hunregistered)
        · obtain ⟨result, -, hresult⟩ := List.mem_map.1 hmem
          cases hresult
      · exact List.mem_append_right _ (hbalanced.removed token hmem)
  · exact guarantee_advance (hchange.moves hinv.tables)

/-! ### Both batches -/

theorem countP_handed (jobs : List PushOutbox) (which : RowId → ℕ → Bool) :
    (jobs.map fun job => PushEvent.handed job.id job.sendAttempts).countP
      (PushEvent.isHanded which) = jobs.countP fun job => which job.id job.sendAttempts := by
  rw [List.countP_map]
  rfl

theorem countP_handed_reported (tokens : List String) (which : RowId → ℕ → Bool) :
    (tokens.map PushEvent.reported).countP (PushEvent.isHanded which) = 0 := by
  apply List.countP_eq_zero.2
  intro event hmem hevent
  obtain ⟨token, -, rfl⟩ := List.mem_map.1 hmem
  cases hevent

/-- The limit is checked, and the scan of the claim is anything. -/
theorem holds_scan {α : Type} {limit : ℤ} {next : ℕ → Scan → Prog PushWorld PushRequest Failure α}
    (hfresh : own pid w.log = [])
    (hnext : ∀ limit scan w, own pid w.log = [] →
      pushLogic.Holds request pid (next limit scan) (fun _ _ => True) (fun _ _ => True) w) :
    pushLogic.Holds request pid
      (do
        let limit ← MonadExcept.ofExcept (validateBatchLimit limit)
        let scan ← Prog.anything Scan
        next limit scan)
      (fun _ _ => True) (fun _ _ => True) w := by
  have hstable : pushLogic.Stable pid fun w => own pid w.log = [] :=
    fun _ _ hrely _ hown => hrely.1.trans hown
  apply (Logic.holds_ofExcept _ hstable hfresh).next (fun _ _ _ _ => trivial)
  rintro limit w - ⟨hfresh, -⟩
  have hscan : pushLogic.Holds request pid (Prog.anything Scan) (fun _ w => own pid w.log = [])
      (fun _ _ => True) w := Logic.holds_anything fun _ => hstable.later hfresh
  apply hscan.next (fun _ _ _ _ => trivial)
  exact fun scan w _ hfresh => hnext limit scan w hfresh

theorem holds_sendBatch (pushEnabled : Bool) (now : Timestamp) (limit : ℤ)
    (hfresh : own pid w.log = []) :
    pushLogic.Holds request pid (sendBatch pushEnabled now limit) (fun _ _ => True)
      (fun _ _ => True) w := by
  unfold sendBatch
  split
  · exact Logic.holds_pure (later_true fun _ => trivial)
  apply holds_scan hfresh
  intro limit scan w hfresh
  have hclaim : pushLogic.Holds request pid _ _ _ w := holds_claim .send now scan limit hfresh
  apply hclaim.next (fun _ _ _ _ => trivial)
  rintro claimed w - ⟨hworking, hunasked⟩
  split
  · exact Logic.holds_pure (later_true fun _ => trivial)
  have hask : pushLogic.Holds request pid (Chronicle.consult (sendNotes claimed.jobs))
      (fun client w => Working .send claimed.jobs pid w ∧
        Reported (unregisteredBySend claimed.jobs
          (ExpoPushGateway.send client (claimed.jobs.map expoMessage))) pid w)
      (fun _ _ => True) w := by
    apply holds_ask _ _ _ _ hworking hunasked
    · intro client event hmem
      rcases List.mem_append.1 hmem with hmem | hmem
      · obtain ⟨token, -, rfl⟩ := List.mem_map.1 hmem
        exact Or.inr ⟨token, rfl⟩
      · obtain ⟨job, -, rfl⟩ := List.mem_map.1 hmem
        exact Or.inl ⟨_, _, rfl⟩
    · exact fun client token htoken => List.mem_append_left _ (List.mem_map_of_mem htoken)
    · intro w client hunasked _ which
      have hle := hunasked which
      rw [sendNotes, List.countP_append, countP_handed_reported, countP_handed]
      omega
    · exact fun hother => absurd rfl hother
  apply hask.next (fun _ _ _ _ => trivial)
  rintro client w - ⟨hworking, hreported⟩
  have hstore : pushLogic.Holds request pid _ _ _ w := holds_store
    (applySendResults_eq (sendResults claimed.jobs (ExpoPushGateway.send client
      (claimed.jobs.map expoMessage)) now) now) sendResults_for hworking hreported
  apply hstore.next (fun _ _ _ _ => trivial)
  exact fun _ _ _ _ => Logic.holds_pure (later_true fun _ => trivial)

theorem holds_receiptBatch (pushEnabled : Bool) (now : Timestamp) (limit : ℤ)
    (hfresh : own pid w.log = []) :
    pushLogic.Holds request pid (receiptBatch pushEnabled now limit) (fun _ _ => True)
      (fun _ _ => True) w := by
  unfold receiptBatch
  split
  · exact Logic.holds_pure (later_true fun _ => trivial)
  apply holds_scan hfresh
  intro limit scan w hfresh
  have hclaim : pushLogic.Holds request pid _ _ _ w := holds_claim .receipt now scan limit hfresh
  apply hclaim.next (fun _ _ _ _ => trivial)
  rintro claimed w - ⟨hworking, hunasked⟩
  split
  · exact Logic.holds_pure (later_true fun _ => trivial)
  have hask : pushLogic.Holds request pid (Chronicle.consult (receiptNotes claimed.jobs))
      (fun client w => Working .receipt claimed.jobs pid w ∧
        Reported (unregisteredByReceipts client claimed.jobs) pid w)
      (fun _ _ => True) w := by
    apply holds_ask _ _ _ _ hworking hunasked
    · intro client event hmem
      obtain ⟨token, -, rfl⟩ := List.mem_map.1 hmem
      exact Or.inr ⟨token, rfl⟩
    · exact fun client token htoken => List.mem_map_of_mem htoken
    · exact fun _ _ _ hsend => nomatch hsend
    · exact fun _ client which => countP_handed_reported _ which
  apply hask.next (fun _ _ _ _ => trivial)
  rintro client w - ⟨hworking, hreported⟩
  have hstore : pushLogic.Holds request pid _ _ _ w := holds_store
    (applyReceiptResults_eq (receiptResults client claimed.jobs now) now) receiptResults_for
    hworking hreported
  apply hstore.next (fun _ _ _ _ => trivial)
  exact fun _ _ _ _ => Logic.holds_pure (later_true fun _ => trivial)

/-! ### Every run -/

theorem pushChange_elsewhere {db db' : Database} (h : Elsewhere db db') : PushChange db db' where
  invariant hdb := by
    constructor
    · exact h.pushOutbox ▸ hdb.ids
    · rw [h.pushOutbox]
      exact fun row hrow => (hdb.drawn row hrow).trans_le h.nextRowId
    · exact h.pushOutbox ▸ hdb.jobs
    · constructor
      · exact h.pushTokens ▸ hdb.tokens.ids
      · exact h.pushTokens ▸ hdb.tokens.tokens
      · exact h.pushTokens ▸ hdb.tokens.devices
      · rw [h.pushTokens]
        exact fun row hrow => (hdb.tokens.drawn row hrow).trans_le h.nextRowId
    · exact h.notifications ▸ hdb.notificationIds
    · rw [h.notifications]
      exact fun row hrow => (hdb.notificationDrawn row hrow).trans_le h.nextRowId
    · rw [h.pushOutbox, h.pushTokens, h.notifications]
      exact hdb.addressed
  rows hdb := by
    rw [h.pushOutbox]
    exact (Descends.refl fun row hrow => Tended.refl (hdb.jobs row hrow)).succeeds Unclaimed
      h.nextRowId

/-- The rest of the service is one more call that notes nothing. -/
theorem environment_moves (hlog : w'.log = w.log) (h : Elsewhere w.current w'.current)
    (hinv : PushWorldInvariant w) : PushWorldInvariant w' ∧ Moves w w' := by
  have hstep : QuietStep 0 w w' := by
    refine Or.inr ⟨w'.current, pushChange_elsewhere h, ?_⟩
    rw [Chronicle.advance, stamp_nil, List.nil_append, ← hlog]
  have hkeeps : PushWorldInvariant w' ∧ pushLogic.guarantee (.sendBatch false 0 0) 0 w w' :=
    hstep.keeps hinv
  exact ⟨hkeeps.1, hkeeps.2.2⟩

theorem pushLogic_sound : pushLogic.Sound pushSystem where
  accepts _ _ := trivial
  code := by
    intro request w pid _ _ hfresh
    cases request with
    | notify input enqueuePush =>
        exact holds_quiet (stays_quietCall fun _ _ _ _ => createWithPushOutbox_push)
    | markRead userId notificationId =>
        exact holds_quiet (stays_quietCall fun _ _ _ _ => markRead_push)
    | registerPushToken input =>
        exact holds_quiet (stays_quietCall fun _ _ _ _ => registerPushToken_push)
    | unregisterPushToken input =>
        exact holds_quiet (stays_quietCall fun _ _ _ _ => unregisterPushToken_push)
    | scheduleDeletion userId scheduledFor =>
        apply holds_quiet
        apply Prog.Stays.bind
        · exact Prog.Stays.anything fun _ => Or.inl rfl
        · exact fun _ => stays_quietCall fun _ _ _ _ => scheduleDeletionNow_push
    | anonymize input =>
        exact holds_quiet (stays_quietCall fun _ _ _ _ => anonymizeNow_push)
    | sendBatch pushEnabled now limit =>
        apply (holds_sendBatch pushEnabled now limit hfresh).next (fun _ _ _ _ => trivial)
        exact fun _ _ _ _ => Logic.holds_pure (later_true fun _ => trivial)
    | receiptBatch pushEnabled now limit =>
        apply (holds_receiptBatch pushEnabled now limit hfresh).next (fun _ _ _ _ => trivial)
        exact fun _ _ _ _ => Logic.holds_pure (later_true fun _ => trivial)
  environment := by
    rintro w w' ⟨hlog, helsewhere⟩ _ hinv
    obtain ⟨hinv', hmoves⟩ := environment_moves hlog helsewhere hinv
    exact ⟨hinv', fun pid => ⟨by rw [hlog], hmoves⟩⟩
  rollback _ hinv := ⟨hinv, fun other _ => pushLogic.rely_refl other _⟩

end ChatTea.Notification
