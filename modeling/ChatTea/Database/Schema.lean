import ChatTea.Database.Uuid
import Mathlib.Algebra.Order.Ring.Int

/-!
# The tables

The rows of the PostgreSQL tables that the modelled repositories read or write,
column by column under the names of the schema, and the database as the record
of those tables. A column that no modelled statement reads is left out.

Timestamps are milliseconds. An identifier that PostgreSQL draws
(`defaultRandom()`) and no client ever spells is a `RowId`; the database counts
the ones it has drawn, so a drawn identifier is new.

## Main definitions

* `Failure` — why a repository call throws
* `Database` — the tables
* `Database.ofUsers` — the database with accounts only
* `Database.hasUser` — the foreign key to `users` holds
-/

namespace ChatTea

/-- A point in time in milliseconds. -/
abbrev Timestamp := ℤ

/-- An identifier PostgreSQL draws for a row and no client spells. -/
abbrev RowId := ℕ

/-- Why a repository call throws: an error of the code, with its message, or a
statement that PostgreSQL rejects, with the constraint it violates. -/
inductive Failure where
  | error (message : String)
  | constraint (name : String)
deriving DecidableEq, Repr

/-! ### Accounts -/

/-- The column `gender` of a user. -/
inductive Gender where
  | male
  | female
deriving DecidableEq, Repr

/-- Whom a user wants to see. -/
inductive InterestedGender where
  | male
  | female
  | everyone
deriving DecidableEq, Repr

/-- A row of `users`. -/
structure User where
  userId : Uuid
  email : String
  phone : Option String
  password : String
  userName : String
  gender : Gender
  intro : String
  birthDate : Option String
  region : Option String
  interestedGender : Option InterestedGender
  profileCompletedAt : Option Timestamp
  hiddenAt : Option Timestamp
  deletionScheduledAt : Option Timestamp
  deletionLeaseExpiresAt : Option Timestamp
  deletionAttempts : ℕ
  deletedAt : Option Timestamp
deriving DecidableEq

/-- A visible account with a completed profile, for runs on concrete rows. -/
def User.visible (userId : Uuid) : User where
  userId := userId
  email := "user@example.test"
  phone := none
  password := "hash"
  userName := "user"
  gender := .female
  intro := ""
  birthDate := none
  region := none
  interestedGender := some .everyone
  profileCompletedAt := some 0
  hiddenAt := none
  deletionScheduledAt := none
  deletionLeaseExpiresAt := none
  deletionAttempts := 0
  deletedAt := none

/-! ### Billing -/

/-- The states of a purchase: it stands, or it has been paid back. -/
inductive TransactionState where
  | granted
  | refunded
deriving DecidableEq, Repr

/-- The statuses that the webhook and the grants write. -/
inductive SubscriptionStatus where
  | active
  | expired
deriving DecidableEq, Repr

/-- The plans `user_subscriptions` accepts. -/
inductive PlanId where
  | free
  | basic
  | gold
  | black
deriving DecidableEq, Repr

/-- A row of `billing_events`: an event that has been taken in. -/
structure BillingEvent where
  providerEventId : String
  provider : String
  payloadHash : String
deriving DecidableEq

/-- A row of `revenuecat_transactions`: a purchase and what it is worth. -/
structure RevenueCatTransaction where
  id : RowId
  provider : String
  providerTransactionId : String
  originalTransactionId : String
  userId : Uuid
  canonicalProductId : String
  providerProductId : String
  superLikeUnits : ℤ
  boostUnits : ℤ
  state : TransactionState
  stateEventTimestampMs : ℤ
deriving DecidableEq

/-- A row of `revenuecat_transaction_ledger`: what an event did to a purchase. -/
structure LedgerEntry where
  providerEventId : String
  revenuecatTransactionId : RowId
  eventTimestampMs : ℤ
  requestedState : TransactionState
  effectiveState : TransactionState
  superLikeDelta : ℤ
  boostDelta : ℤ
  applied : Bool
deriving DecidableEq

/-- A row of `user_consumable_balances`. The credits are signed: refunds may exceed them. -/
structure ConsumableBalance where
  userId : Uuid
  superLikeCredits : ℤ
  boostCredits : ℤ
deriving DecidableEq

/-- A row of `user_subscriptions`. -/
structure UserSubscription where
  id : RowId
  userId : Uuid
  planId : PlanId
  status : SubscriptionStatus
  provider : Option String
  providerCustomerId : Option String
  providerProductId : Option String
  providerEventTimestampMs : Option ℤ
  currentPeriodStartsAt : Option Timestamp
  currentPeriodEndsAt : Option Timestamp
deriving DecidableEq

/-- A row of `user_boosts`: the half-open time of a boost. -/
structure UserBoost where
  userId : Uuid
  startsAt : Timestamp
  endsAt : Timestamp
deriving DecidableEq

/-! ### Matching -/

/-- What a user can do with a candidate. -/
inductive MatchActionKind where
  | skip
  | like
  | superlike
deriving DecidableEq, Repr

/-- A row of `match_actions`. An action is active until it is reverted. -/
structure MatchAction where
  id : RowId
  actorUserId : Uuid
  targetUserId : Uuid
  action : MatchActionKind
  revertedAt : Option Timestamp
  createdAt : Timestamp
deriving DecidableEq

/-- A row of `user_likes`. -/
structure UserLike where
  likerUserId : Uuid
  likedUserId : Uuid
  createdAt : Timestamp
deriving DecidableEq

/-- A row of `user_blocks`. -/
structure UserBlock where
  blockerUserId : Uuid
  blockedUserId : Uuid
deriving DecidableEq

/-- A row of `matches`: an ordered pair of users and their room. -/
structure Match where
  userLowId : Uuid
  userHighId : Uuid
  roomId : RowId
deriving DecidableEq

/-- A row of `rooms`. -/
structure Room where
  id : RowId
  name : String
deriving DecidableEq

/-- A row of `room_members`. -/
structure RoomMember where
  roomId : RowId
  userId : Uuid
deriving DecidableEq

/-! ### Profile photos and uploads -/

/-- The statuses of an upload. -/
inductive ProfileUploadStatus where
  | pending
  | processing
  | verified
  | failed
deriving DecidableEq, Repr

/-- A row of `profile_uploads`. -/
structure ProfileUpload where
  id : Uuid
  userId : Uuid
  status : ProfileUploadStatus
  stagingKey : Text
  finalKey : Option Text
  expectedContentType : String
  expectedSizeBytes : ℕ
  finalContentType : Option String
  finalSizeBytes : Option ℕ
  publicUrl : Option Text
  expiresAt : Timestamp
  processingLeaseExpiresAt : Option Timestamp
  cleanupLeaseExpiresAt : Option Timestamp
  cleanupAttempts : ℕ
  failureCode : Option String
  stagingDeletedAt : Option Timestamp
  finalDeletionPendingAt : Option Timestamp
  finalDeletedAt : Option Timestamp
  verifiedAt : Option Timestamp
  createdAt : Timestamp
deriving DecidableEq

/-- A row of `user_profile_photos`. -/
structure UserProfilePhoto where
  id : Uuid
  userId : Uuid
  uploadId : Option Uuid
  url : Text
  position : ℕ
deriving DecidableEq

/-! ### Sessions and identities -/

/-- A session: the bcrypt hash of the refresh token of one user and device. -/
structure RefreshToken where
  id : RowId
  userId : Uuid
  deviceId : String
  refreshToken : String
  refreshTokenExp : Timestamp
deriving DecidableEq

/-- A row of `authIdentity`: the account of a user of another provider. -/
structure AuthIdentity where
  userId : Uuid
  provider : String
  providerUserId : String
deriving DecidableEq

/-- A code that was sent to a phone; its hash is `pending` until it has been sent. -/
structure PhoneVerification where
  id : RowId
  phoneE164 : String
  codeHash : String
  purpose : String
  expiresAt : Timestamp
  verifiedAt : Option Timestamp
  attemptCount : ℕ
  requestIpHash : String
  createdAt : Timestamp
deriving DecidableEq

/-- A row of `phoneVerificationToken`, stored under the hash of the token. -/
structure PhoneVerificationToken where
  tokenHash : String
  phoneE164 : String
  verificationId : RowId
  expiresAt : Timestamp
  usedAt : Option Timestamp
deriving DecidableEq

/-- A row of `kakaoPhoneVerificationToken`. It names an account if there is one. -/
structure KakaoPhoneVerificationToken where
  tokenHash : String
  userId : Option Uuid
  providerUserId : String
  email : Option String
  expiresAt : Timestamp
  usedAt : Option Timestamp
deriving DecidableEq

/-! ### Notifications -/

/-- What a notification tells of. -/
inductive NotificationType where
  | like
  | match
  | message
  | comment
  | purchase
deriving DecidableEq, Repr

/-- A row of `notifications`. -/
structure Notification where
  id : RowId
  userId : Uuid
  type : NotificationType
  title : String
  body : String
  route : Option String
  sourceId : Option String
  readAt : Option Timestamp
  createdAt : Timestamp
deriving DecidableEq

/-- A row of `push_tokens`: a device of a user. -/
structure PushToken where
  id : RowId
  userId : Uuid
  deviceId : Uuid
  token : String
  platform : String
deriving DecidableEq

/-- The statuses of a push job. The last four are final. -/
inductive PushOutboxStatus where
  | queued
  | sending
  | receiptPending
  | receiptChecking
  | delivered
  | failedPermanent
  | exhausted
  | cancelled
deriving DecidableEq, Repr

/-- A row of `push_outbox`: the job of one notification for one device. -/
structure PushOutbox where
  id : RowId
  notificationId : RowId
  pushTokenId : Option RowId
  tokenSnapshot : String
  title : String
  body : String
  route : Option String
  status : PushOutboxStatus
  ticketId : Option String
  sendAttempts : ℕ
  receiptAttempts : ℕ
  nextAttemptAt : Timestamp
  receiptAvailableAt : Option Timestamp
  leaseExpiresAt : Option Timestamp
  lastErrorCode : Option String
  lastErrorMessage : Option String
  sentAt : Option Timestamp
  completedAt : Option Timestamp
  createdAt : Timestamp
deriving DecidableEq

/-! ### Chat and community -/

/-- A row of `messages`. -/
structure Message where
  id : RowId
  roomId : RowId
  senderUserId : Option Uuid
  text : String
  idempotencyKey : Option String
  deletedAt : Option Timestamp
  createdAt : Timestamp
deriving DecidableEq

/-- A row of `read_receipts`: how far a member has read a room. -/
structure ReadReceipt where
  roomId : RowId
  userId : Uuid
  lastReadMessageId : Option RowId
  readAt : Timestamp
deriving DecidableEq

/-- A row of `message_reports`. -/
structure MessageReport where
  messageId : RowId
  reporterUserId : Uuid
  reason : String
deriving DecidableEq

/-- A row of `user_liked_me_accesses`: what a user has looked at in a period. -/
structure LikedMeAccess where
  userId : Uuid
  periodStart : Timestamp
  viewedCount : ℕ
deriving DecidableEq

/-- A row of `community_profiles`: the name that an account posts under. -/
structure CommunityProfile where
  userId : Uuid
  name : String
deriving DecidableEq

/-- A row of `community_post_reports`. -/
structure CommunityPostReport where
  postId : RowId
  reporterUserId : Uuid
  reason : String
deriving DecidableEq

/-- A row of `community_comment_reports`. -/
structure CommunityCommentReport where
  commentId : RowId
  reporterUserId : Uuid
  reason : String
deriving DecidableEq

/-! ### The database -/

/-- The tables that the calls read and write, each with its rows in the order of insertion. -/
structure Database where
  users : List User
  profileUploads : List ProfileUpload
  userProfilePhotos : List UserProfilePhoto
  refreshTokens : List RefreshToken
  authIdentities : List AuthIdentity
  phoneVerifications : List PhoneVerification
  phoneVerificationTokens : List PhoneVerificationToken
  kakaoPhoneVerificationTokens : List KakaoPhoneVerificationToken
  notifications : List Notification
  pushTokens : List PushToken
  pushOutbox : List PushOutbox
  messages : List Message
  readReceipts : List ReadReceipt
  messageReports : List MessageReport
  userLikedMeAccesses : List LikedMeAccess
  communityProfiles : List CommunityProfile
  communityPostReports : List CommunityPostReport
  communityCommentReports : List CommunityCommentReport
  billingEvents : List BillingEvent
  revenueCatTransactions : List RevenueCatTransaction
  revenueCatTransactionLedger : List LedgerEntry
  userConsumableBalances : List ConsumableBalance
  userSubscriptions : List UserSubscription
  userBoosts : List UserBoost
  matchActions : List MatchAction
  userLikes : List UserLike
  userBlocks : List UserBlock
  rooms : List Room
  roomMembers : List RoomMember
  matchRows : List Match
  nextRowId : RowId

namespace Database

/-- The `users` row a foreign key needs. -/
def hasUser (db : Database) (userId : Uuid) : Bool :=
  db.users.any fun user => user.userId = userId

/-- The database with some accounts and nothing else. -/
def ofUsers (users : List User) : Database where
  users := users
  profileUploads := []
  userProfilePhotos := []
  refreshTokens := []
  authIdentities := []
  phoneVerifications := []
  phoneVerificationTokens := []
  kakaoPhoneVerificationTokens := []
  notifications := []
  pushTokens := []
  pushOutbox := []
  messages := []
  readReceipts := []
  messageReports := []
  userLikedMeAccesses := []
  communityProfiles := []
  communityPostReports := []
  communityCommentReports := []
  billingEvents := []
  revenueCatTransactions := []
  revenueCatTransactionLedger := []
  userConsumableBalances := []
  userSubscriptions := []
  userBoosts := []
  matchActions := []
  userLikes := []
  userBlocks := []
  rooms := []
  roomMembers := []
  matchRows := []
  nextRowId := 0

end Database

end ChatTea
