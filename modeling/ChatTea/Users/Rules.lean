import ChatTea.Database.Kinds
import ChatTea.Database.Rules
import ChatTea.Users.Repository

/-!
# Proof rules for the account transactions

`replaceProfile`, `scheduleDeletion` and `anonymizeDeletedAccount` take locks and read
before their one commit. For a logic that ignores locks, what such a transaction does is
what its commit does; the commit of new photos runs while their sources are locked, and the
one of an erasure while its claim is.

## Main definitions

* `SourcesLocked` — what the new photos are taken from is there and stays
* `ClaimLocked` — the claim of an erasure holds and stays

## Main results

* `holds_replacement`, `holds_anonymization`, `holds_scheduling` — from the commit to the
  transaction
* `stays_anonymizeDeletedAccount`, `stays_scheduleDeletion` — steps of the kind of the commit
-/

namespace ChatTea.Users

open Interleaving RowLocks Table Transaction

variable {ι ρ : Type} {L : Logic World ι Failure ρ} {request : ι} {pid : ℕ} {w before : World}

/-! ### Replacing a profile -/

/-- The rows that the selects of `replaceProfile` found are locked for it. -/
structure SourcesLocked (input : ReplaceProfileInput) (uploads : List ProfileUpload)
    (legacyRows : List UserProfilePhoto) (pid : ℕ) (w : World) : Prop where
  stored : SourcesStored input uploads legacyRows w.db
  uploads : ∀ upload ∈ uploads, Holds w.locks pid .share (.upload upload.id)
  legacyRows : ∀ photo ∈ legacyRows, Holds w.locks pid .share (.photo photo.id)

namespace SourcesLocked

variable {input : ReplaceProfileInput} {uploads : List ProfileUpload}
  {legacyRows : List UserProfilePhoto}

theorem keep (h : SourcesLocked input uploads legacyRows pid w)
    (hkept : World.KeepsLocked pid w before) :
    SourcesLocked input uploads legacyRows pid before where
  stored := by
    refine ⟨fun upload hupload => ?_, fun photo hphoto => ?_⟩
    · obtain ⟨hmem, hfound⟩ := List.mem_filter.1 (h.stored.uploads upload hupload)
      have hmem' := hkept.rows (.upload upload) .share hmem (by rfl) (h.uploads upload hupload)
      exact List.mem_filter.2 ⟨hmem', hfound⟩
    · obtain ⟨hmem, hfound⟩ := List.mem_filter.1 (h.stored.legacyRows photo hphoto)
      have hmem' := hkept.rows (.photo photo) .share hmem (by rfl) (h.legacyRows photo hphoto)
      exact List.mem_filter.2 ⟨hmem', hfound⟩
  uploads := fun upload hupload => hkept.locks (h.uploads upload hupload)
  legacyRows := fun photo hphoto => hkept.locks (h.legacyRows photo hphoto)

theorem acquire {mode : Mode} {rows : List LockedRow}
    (h : SourcesLocked input uploads legacyRows pid w) :
    SourcesLocked input uploads legacyRows pid (w.withLocks (acquire pid mode rows w.locks)) where
  stored := h.stored
  uploads := fun upload hupload => (h.uploads upload hupload).acquire
  legacyRows := fun photo hphoto => (h.legacyRows photo hphoto).acquire

end SourcesLocked

/-- New photos come to their commit, with what they are taken from locked. -/
theorem holds_replacement {input : ReplaceProfileInput} {throws : Failure → World → Prop}
    (hneutral : LockNeutral L request)
    (hcommit : ∀ now uploads legacyRows photos drawn w,
      orderedPhotos input uploads legacyRows = .ok photos →
        L.Later pid (SourcesLocked input uploads legacyRows pid) w →
          L.Holds request pid (commit (writeProfile input now photos drawn)) (fun _ _ => True)
            (fun _ _ => True) w)
    (hthrows : ∀ failure w, L.Later pid (throws failure) w) :
    L.Holds request pid (replaceProfile input) (fun _ _ => True) throws w := by
  have htrue : ∀ (_ : Failure) (w : World), L.Later pid (fun _ => True) w :=
    fun _ _ _ _ _ => trivial
  have hstable {uploads : List ProfileUpload} {legacyRows : List UserProfilePhoto} :
      L.Stable pid (SourcesLocked input uploads legacyRows pid) :=
    fun _ _ hrely _ h => h.keep (hneutral.rely hrely)
  refine holds_rollback hneutral ?_ hthrows
  refine Logic.Holds.bind (holds_clock fun now => Logic.Holds.later ?_)
  refine Logic.Holds.bind (holds_ofExcept (fun _ _ => Logic.Holds.later ?_)
    fun failure _ => htrue failure _)
  refine holds_select_bind hneutral (fun _ => True) (fun _ _ _ => trivial) (fun found _ _ => ?_) htrue
  have hlocked : SourcesLocked input (verifiedUploads input found.db) [] pid
      (found.withLocks (acquire pid .share ((verifiedUploads input found.db).map
        fun upload => .upload upload.id) found.locks)) := by
    refine ⟨⟨fun _ => id, fun _ hphoto => by cases hphoto⟩, fun upload hupload => ?_,
      fun _ hphoto => by cases hphoto⟩
    exact holds_acquire (List.mem_map.2 ⟨upload, hupload, rfl⟩)
  generalize verifiedUploads input found.db = uploads at hlocked ⊢
  refine holds_select_bind hneutral _ (hstable.later hlocked) (fun found hlocked _ => ?_) htrue
  have hlocked : SourcesLocked input uploads (legacyPhotos input found.db) pid
      (found.withLocks (acquire pid .share ((legacyPhotos input found.db).map
        fun photo => .photo photo.id) found.locks)) := by
    refine ⟨⟨hlocked.stored.uploads, fun _ => id⟩, hlocked.acquire.uploads, fun photo hphoto => ?_⟩
    exact holds_acquire (List.mem_map.2 ⟨photo, hphoto, rfl⟩)
  generalize legacyPhotos input found.db = legacyRows at hlocked ⊢
  refine Logic.Holds.bind (holds_ofExcept (fun photos hphotos => Logic.Holds.later ?_)
    fun failure _ => htrue failure _)
  refine holds_select_bind hneutral _ (hstable.later hlocked) (fun w hlocked _ => ?_) htrue
  refine Logic.Holds.bind (holds_ofExcept (fun _ _ => Logic.Holds.later ?_)
    fun failure _ => htrue failure _)
  refine Logic.Holds.bind (Logic.holds_anything fun drawn => Logic.Holds.later ?_)
  exact hcommit now uploads legacyRows photos drawn _ hphotos (hstable.later hlocked.acquire)

/-! ### Erasing and scheduling -/

/-- The account of a current claim is locked for its erasure. -/
def ClaimLocked (input : DeletionJobInput) (pid : ℕ) (w : World) : Prop :=
  ∃ user ∈ w.db.users, canAnonymize input user ∧ Holds w.locks pid .update (.user user.userId)

namespace ClaimLocked

variable {input : DeletionJobInput}

theorem keep (h : ClaimLocked input pid w) (hkept : World.KeepsLocked pid w before) :
    ClaimLocked input pid before := by
  obtain ⟨user, huser, hcond, hheld⟩ := h
  have huser' := hkept.rows (.user user) .update huser (by rfl) hheld
  exact ⟨user, huser', hcond, hkept.locks hheld⟩

theorem acquire {mode : Mode} {rows : List LockedRow} (h : ClaimLocked input pid w) :
    ClaimLocked input pid (w.withLocks (acquire pid mode rows w.locks)) := by
  obtain ⟨user, huser, hcond, hheld⟩ := h
  exact ⟨user, huser, hcond, hheld.acquire⟩

theorem claimed (h : ClaimLocked input pid w) : ∃ user ∈ w.db.users, canAnonymize input user := by
  obtain ⟨user, huser, hcond, -⟩ := h
  exact ⟨user, huser, hcond⟩

end ClaimLocked

theorem stable_claimLocked {input : DeletionJobInput} (hneutral : LockNeutral L request) :
    L.Stable pid (ClaimLocked input pid) :=
  fun _ _ hrely _ h => h.keep (hneutral.rely hrely)

/-- An erasure comes to its commit, with its claim locked. -/
theorem holds_anonymization {input : DeletionJobInput} {throws : Failure → World → Prop}
    (hneutral : LockNeutral L request)
    (hcommit : ∀ matchRooms w, L.Later pid (ClaimLocked input pid) w →
      L.Holds request pid (commit (writeAnonymized input matchRooms)) (fun _ _ => True)
        (fun _ _ => True) w)
    (hthrows : ∀ failure w, L.Later pid (throws failure) w) :
    L.Holds request pid (anonymizeDeletedAccount input) (fun _ _ => True) throws w := by
  have htrue : ∀ (_ : Failure) (w : World), L.Later pid (fun _ => True) w :=
    fun _ _ _ _ _ => trivial
  refine holds_rollback hneutral ?_ hthrows
  refine holds_select_bind hneutral (fun _ => True) (fun _ _ _ => trivial) (fun found _ _ => ?_) htrue
  refine Logic.Holds.bind (holds_ofExcept (fun _ hclaimed => Logic.Holds.later ?_)
    fun _ _ _ _ _ => trivial)
  have hlocked : ClaimLocked input pid (found.withLocks (acquire pid .update
      (userRows (canAnonymize input) found.db) found.locks)) := by
    rw [throwIf_eq_ok_iff, not_not] at hclaimed
    obtain ⟨user, huser, hcond⟩ := List.any_eq_true.1 hclaimed
    refine ⟨user, huser, hcond, holds_acquire ?_⟩
    exact List.mem_map.2 ⟨user, List.mem_filter.2 ⟨huser, hcond⟩, rfl⟩
  -- The claim stays locked while the rows of the other tables are found.
  have hstable : L.Stable pid (ClaimLocked input pid) := stable_claimLocked hneutral
  refine Logic.Holds.bind (holds_query _ (hstable.later hlocked)
    (fun w hlocked _ => Logic.Holds.later ?_) fun _ _ _ _ _ _ _ => trivial)
  refine holds_select_bind hneutral _ (hstable.later hlocked) (fun w hlocked _ => ?_) htrue
  refine holds_select_bind hneutral _ (hstable.later hlocked.acquire) (fun w hlocked _ => ?_) htrue
  refine holds_select_bind hneutral _ (hstable.later hlocked.acquire) (fun w hlocked _ => ?_) htrue
  exact hcommit _ _ (hstable.later hlocked.acquire)

/-- Scheduling comes to its commit. -/
theorem holds_scheduling {userId : UuidText} {scheduledFor : Timestamp}
    (hneutral : LockNeutral L request)
    (hcommit : ∀ now completedAt scheduled sessions tokenIds w,
      L.Holds request pid
        (commit (writeSchedule userId.toUuid now completedAt scheduledFor scheduled sessions tokenIds))
        (fun _ _ => True) (fun _ _ => True) w) :
    L.Holds request pid (scheduleDeletion userId scheduledFor) (fun _ _ => True) (fun _ _ => True)
      w := by
  have htrue : ∀ w : World, L.Later pid (fun _ => True) w := fun _ _ _ _ => trivial
  refine holds_rollback hneutral ?_ fun _ => htrue
  refine Logic.Holds.bind (holds_clock fun now => Logic.Holds.later ?_)
  refine holds_select_bind hneutral (fun _ => True) (htrue w) (fun found _ _ => ?_) fun _ => htrue
  generalize found.db.users.any (canSchedule userId.toUuid) = scheduled
  have hrest : ∀ (account : Option Timestamp) (w : World), L.Holds request pid
      (do
        let deadline ← MonadExcept.ofExcept (requireDeadline account)
        let sessions ← select .update (fun db => (sessionsOf userId.toUuid db).map .session)
          (sessionsOf userId.toUuid)
        let tokenIds ← query fun db =>
          (db.pushTokens.filter fun token => token.userId = userId.toUuid).map (·.id)
        let completedAt ← clock
        commit (writeSchedule userId.toUuid now completedAt scheduledFor scheduled sessions tokenIds)
        return deadline) (fun _ _ => True) (fun _ _ => True) w := by
    intro account w
    refine Logic.Holds.bind (holds_ofExcept (fun _ _ => Logic.Holds.later ?_) fun _ _ => htrue _)
    refine holds_select_bind hneutral (fun _ => True) (htrue _) (fun w _ _ => ?_) fun _ => htrue
    refine Logic.Holds.bind (holds_query (fun _ => True) (htrue _)
      (fun _ _ _ => Logic.Holds.later ?_) fun _ _ _ _ => htrue _)
    refine Logic.Holds.bind (holds_clock fun completedAt => Logic.Holds.later ?_)
    refine Logic.Holds.bind ((hcommit now completedAt scheduled _ _ _).mono (fun _ s _ _ => ?_)
      fun _ _ _ h => h)
    exact Logic.holds_pure (htrue _)
  refine Logic.Holds.bind ?_
  unfold scheduledAccount
  split
  · exact Logic.holds_pure (Logic.Holds.later (hrest _ _))
  · exact holds_query (fun _ => True) (htrue _) (fun before _ _ => Logic.Holds.later (hrest _ before))
      fun _ _ _ _ => htrue _

/-! ### Programs whose steps are all of a kind -/

section Kinds

variable {keeps : Database → Database → Prop} {kind : World → World → Prop}

theorem stays_replaceProfile (h : StepKind pid keeps kind) (input : ReplaceProfileInput)
    (hwrite : ∀ now uploads legacyPhotos photos drawn,
      orderedPhotos input uploads legacyPhotos = .ok photos →
        WritesOnly keeps (writeProfile input now photos drawn)) :
    (replaceProfile input : Prog World ι Failure (List UserProfilePhoto)).Stays kind pid := by
  apply h.transaction
  refine h.clock.bind fun now => (stays_ofExcept _).bind fun _ => ?_
  refine h.select.bind fun uploads => h.select.bind fun legacyPhotos => ?_
  apply stays_ofExcept_bind
  intro photos hphotos
  refine h.select.bind fun updated => (stays_ofExcept _).bind fun _ => ?_
  exact h.anything.bind fun drawn => h.commit (hwrite now uploads legacyPhotos photos drawn hphotos)

theorem stays_scheduleDeletion (h : StepKind pid keeps kind) (userId : UuidText)
    (scheduledFor : Timestamp)
    (hwrite : ∀ now completedAt scheduled sessions tokenIds, WritesOnly keeps
      (writeSchedule userId.toUuid now completedAt scheduledFor scheduled sessions tokenIds)) :
    (scheduleDeletion userId scheduledFor : Prog World ι Failure Timestamp).Stays kind pid := by
  apply h.transaction
  refine h.clock.bind fun now => h.select.bind fun scheduled => ?_
  have haccount : (scheduledAccount userId.toUuid scheduledFor scheduled :
      Prog World ι Failure (Option Timestamp)).Stays kind pid := by
    unfold scheduledAccount
    split
    · trivial
    · exact h.select
  refine haccount.bind fun account => (stays_ofExcept _).bind fun deadline => ?_
  refine h.select.bind fun sessions => h.select.bind fun tokenIds => ?_
  refine h.clock.bind fun completedAt => ?_
  exact (h.commit (hwrite _ _ _ _ _)).bind fun _ => trivial

theorem stays_anonymizeDeletedAccount (h : StepKind pid keeps kind) (input : DeletionJobInput)
    (hwrite : ∀ matchRooms, WritesOnly keeps (writeAnonymized input matchRooms)) :
    (anonymizeDeletedAccount input : Prog World ι Failure Unit).Stays kind pid := by
  apply h.transaction
  refine h.select.bind fun claimed => (stays_ofExcept _).bind fun _ => ?_
  refine h.select.bind fun matchRooms => h.select.bind fun _ => ?_
  refine h.select.bind fun _ => h.select.bind fun _ => ?_
  exact h.commit (hwrite matchRooms)

end Kinds

end ChatTea.Users
