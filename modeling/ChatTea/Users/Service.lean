import ChatTea.Users.Repository

/-!
# The user service

The embedding of the account-deletion part of `UserService`: a user asks for the
deletion of the account and may come back within the grace period; a maintenance
worker erases the accounts whose deadline has passed. The jobs of one batch run
at the same time, each in a thread of its own.

## Main definitions

* `beginAccountDeletion`, `restoreIfWithinGrace` — what a user asks for
* `deletionJob`, `processDueAccountDeletionBatch` — the worker
-/

namespace ChatTea.Users

open Interleaving Table Transaction

variable {ι : Type}

def deletionGraceDays : ℤ := 14

def deletionLeaseMs : ℤ := 5 * 60 * 1000

def dayMs : ℤ := 24 * 60 * 60 * 1000

/-- A UUID of version 1 to 5 and the standard variant. -/
def validateUuid (userId : UuidText) : Except Failure Unit :=
  require (.error "USER_ID_INVALID")
    (userId.text[14]?.any (· ∈ "12345".toList) ∧ userId.text[19]?.any (· ∈ "89abAB".toList))

def findUser (userId : Uuid) (db : Database) : Option User :=
  lookup User.userId userId db.users

def beginAccountDeletion (userId : UuidText) : Prog World ι Failure Timestamp := do
  let now ← clock
  MonadExcept.ofExcept (validateUuid userId)
  let user ← query (findUser userId.toUuid)
  MonadExcept.ofExcept (throwIf (.error "유저 아이디가 잘못되었습니다.") (user = none))
  scheduleDeletion userId (now + deletionGraceDays * dayMs)

def restoreIfWithinGrace (userId : UuidText) : Prog World ι Failure Bool := do
  MonadExcept.ofExcept (validateUuid userId)
  let now ← clock
  statement (restoreScheduledDeletion userId now)

/-- A claim finds any due accounts that no other claim has locked. -/
def claimDeletions (input : ClaimDeletionInput) : Prog World ι Failure DeletionClaim :=
  choosing (fun candidates db => DeletionCandidates input db candidates)
    (claimDueDeletionBatch input)

/-- What a batch does with one of its jobs. -/
def deletionJob (input : DeletionJobInput) : Prog World ι Failure Unit :=
  tryCatch (anonymizeDeletedAccount input) fun _ => statement (releaseDeletionLease input)

def processDueAccountDeletionBatch (job : DeletionJobInput → ι) (now : Timestamp) (limit : ℕ) :
    Prog World ι Failure DeletionClaim := do
  MonadExcept.ofExcept
    (require (.error "ACCOUNT_DELETION_BATCH_LIMIT_INVALID") (1 ≤ limit ∧ limit ≤ 100))
  let claimed ← claimDeletions ⟨now, now + deletionLeaseMs, limit⟩
  Prog.forkAll (claimed.jobs.map fun claim => job { toDeletionJob := claim, now := now })
  return claimed

end ChatTea.Users
