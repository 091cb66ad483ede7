import ChatTea.Auth.Service
import ChatTea.Billing.Webhook
import ChatTea.Database.Isolation
import ChatTea.Notification.Repository

/-!
# Community posts and comments

The embedding of `CommunityService.createPost` and `createComment`, with the statements of
`CommunityRepository` that they use. Each statement is a transaction of its own. A client chooses
the key of its post or comment, which becomes the `id` of the row.

## Main definitions

* `JsText` — a text of JavaScript, which need not be well-formed Unicode
* `CommunityPost`, `CommunityComment`, `CommunityDatabase` — the tables
* `createPost`, `createComment` — the calls
* `communityCode` — a call with its answer
-/

namespace ChatTea.Community

open Interleaving ReadCommitted Table Transaction
open Billing (isVersionedUuid isUuidText_of_isVersionedUuid)
open Notification (CreateNotificationInput createWithPushOutbox)

/-! ### Texts -/

/-- A code point of a JavaScript text: a character, or a surrogate that stands alone. -/
inductive JsChar where
  | char (c : Char)
  | surrogate (number : Fin 2048)
deriving DecidableEq

/-- A JavaScript text. -/
abbrev JsText := List JsChar

namespace JsText

/-- The characters that `String.prototype.trim` removes. -/
def isSpace : JsChar → Bool
  | .char c => Auth.isSpace c
  | .surrogate _ => false

/-- `String.prototype.trim`. -/
def trim (text : JsText) : JsText := ((text.dropWhile isSpace).reverse.dropWhile isSpace).reverse

/-- The code units of UTF-16. -/
def units : JsChar → ℕ
  | .char c => if c.toNat < 0x10000 then 1 else 2
  | .surrogate _ => 1

/-- The length in code units. -/
def length (text : JsText) : ℕ := (text.map units).sum

/-- A text on its way to PostgreSQL is UTF-8, which has a replacement character for a surrogate
that stands alone. -/
def sentChar : JsChar → Char
  | .char c => c
  | .surrogate _ => '\uFFFD'

/-- The text that is sent to the database. -/
def sent (text : JsText) : Text := text.map sentChar

/-- A text as PostgreSQL returns it. -/
def received (text : Text) : JsText := text.map .char

end JsText

/-! ### Tables -/

/-- A row of `community_posts`. -/
structure CommunityPost where
  id : Uuid
  authorUserId : Uuid
  title : Text
  body : Text
  deletedAt : Option Timestamp
  createdAt : Timestamp

/-- A row of `community_comments`. -/
structure CommunityComment where
  id : Uuid
  postId : Uuid
  authorUserId : Uuid
  body : Text
  deletedAt : Option Timestamp
  createdAt : Timestamp

/-- The tables with those of the community. -/
structure CommunityDatabase extends Database where
  communityPosts : List CommunityPost
  communityComments : List CommunityComment

/-! ### What the calls enter in the history -/

/-- What the calls record of themselves. -/
inductive CommunityEvent where
  | posted (post : CommunityPost)
  | commented (comment : CommunityComment)
  | notified (notification : ChatTea.Notification)

/-- The database, and the record of the calls. -/
abbrev CommunityState := Shared CommunityDatabase Empty CommunityEvent

/-- The arguments of `createPost`. -/
structure CreatePostCall where
  userId : Text
  idempotencyKey : Text
  title : JsText
  body : JsText

/-- The arguments of `createComment`. -/
structure CreateCommentCall where
  userId : Text
  postId : Text
  body : JsText
  idempotencyKey : Text

/-- The calls that write. -/
inductive CommunityRequest where
  | createPost (call : CreatePostCall)
  | createComment (call : CreateCommentCall)

/-- A call of the service, statement by statement. -/
abbrev CommunityProg (α : Type) := Prog CommunityState CommunityRequest Failure α

/-! ### Checks -/

/-- An identifier that a request brings has to be a UUID of some version. -/
def validateUuid (input : Text) (error : String) : Except Failure UuidText :=
  if h : isVersionedUuid input then .ok ⟨input, isUuidText_of_isVersionedUuid h⟩
  else .error (.error error)

/-- A text that a request brings, without the blanks around it. -/
def validateText (input : JsText) (maxLength : ℕ) (field : String) : Except Failure JsText := do
  let value := input.trim
  throwIf (.error (field ++ "_REQUIRED")) (value = [])
  throwIf (.error (field ++ "_TOO_LONG")) (maxLength < value.length)
  return value

/-! ### Statements of the repository -/

/-- The key of a post stands for another one. -/
def postKeyUsed : Failure := .error "COMMUNITY_POST_IDEMPOTENCY_KEY_ALREADY_USED"

/-- The key of a comment stands for another one. -/
def commentKeyUsed : Failure := .error "COMMUNITY_COMMENT_IDEMPOTENCY_KEY_ALREADY_USED"

/-- `INSERT … ON CONFLICT DO NOTHING RETURNING`. -/
def insertPost (row : CommunityPost) (db : CommunityDatabase) :
    Except Failure (Option CommunityPost × CommunityDatabase) := do
  if (lookup (·.id) row.id db.communityPosts).isSome then return (none, db)
  require (.constraint "community_posts_authorUserId_fkey") (db.hasUser row.authorUserId)
  require (.constraint "community_posts_title_check") (row.title.length ≤ 80)
  require (.constraint "community_posts_body_check") (row.body.length ≤ 1000)
  return (some row, { db with communityPosts := db.communityPosts ++ [row] })

/-- `INSERT … ON CONFLICT DO NOTHING RETURNING` of a comment. -/
def insertComment (row : CommunityComment) (db : CommunityDatabase) :
    Except Failure (Option CommunityComment × CommunityDatabase) := do
  if (lookup (·.id) row.id db.communityComments).isSome then return (none, db)
  require (.constraint "community_comments_postId_fkey")
    (lookup (·.id) row.postId db.communityPosts).isSome
  require (.constraint "community_comments_authorUserId_fkey") (db.hasUser row.authorUserId)
  require (.constraint "community_comments_body_check") (row.body.length ≤ 500)
  return (some row, { db with communityComments := db.communityComments ++ [row] })

/-- A post to be inserted under its key. -/
structure PostInput where
  id : UuidText
  userId : UuidText
  title : JsText
  body : JsText

/-- A comment to be inserted under its key. -/
structure CommentInput where
  id : UuidText
  userId : UuidText
  postId : UuidText
  body : JsText

/-- The row that an insertion writes. -/
def PostInput.row (input : PostInput) (createdAt : Timestamp) : CommunityPost where
  id := input.id.toUuid
  authorUserId := input.userId.toUuid
  title := input.title.sent
  body := input.body.sent
  deletedAt := none
  createdAt := createdAt

/-- The row of a new comment. -/
def CommentInput.row (input : CommentInput) (createdAt : Timestamp) : CommunityComment where
  id := input.id.toUuid
  postId := input.postId.toUuid
  authorUserId := input.userId.toUuid
  body := input.body.sent
  deletedAt := none
  createdAt := createdAt

/-- JavaScript compares the texts that PostgreSQL returns with those of the call. -/
def PostInput.differs (input : PostInput) (row : CommunityPost) : Bool :=
  row.authorUserId.text ≠ input.userId.text ∨ JsText.received row.title ≠ input.title ∨
    JsText.received row.body ≠ input.body ∨ row.deletedAt ≠ none

/-- The row under the key is not the comment that is asked for. -/
def CommentInput.differs (input : CommentInput) (row : CommunityComment) : Bool :=
  row.authorUserId.text ≠ input.userId.text ∨ row.postId.text ≠ input.postId.text ∨
    JsText.received row.body ≠ input.body ∨ row.deletedAt ≠ none

/-- The row of a key that was taken, if it is what the call would have written. -/
def replay {α : Type} (failure : Failure) (differs : α → Bool) : Option α → Except Failure α
  | none => .error failure
  | some row => if differs row then .error failure else .ok row

/-- `CommunityRepository.createPost` -/
def insertOrReplayPost (input : PostInput) : CommunityProg CommunityPost := do
  let createdAt ← Prog.anything Timestamp
  match ← autocommit (insertPost (input.row createdAt)) fun post => post.toList.map .posted with
  | some post => return post
  | none =>
      let replayedPost ← look unwritten fun db => lookup (·.id) input.id.toUuid db.communityPosts
      MonadExcept.ofExcept (replay postKeyUsed input.differs replayedPost)

/-- A comment, and whether the call has created it. -/
structure CommentResult where
  comment : CommunityComment
  created : Bool

/-- `CommunityRepository.createComment` -/
def insertOrReplayComment (input : CommentInput) : CommunityProg CommentResult := do
  let createdAt ← Prog.anything Timestamp
  match ← autocommit (insertComment (input.row createdAt))
      fun comment => comment.toList.map .commented with
  | some comment => return { comment, created := true }
  | none =>
      let replayedComment ← look unwritten
        fun db => lookup (·.id) input.id.toUuid db.communityComments
      let comment ← MonadExcept.ofExcept (replay commentKeyUsed input.differs replayedComment)
      return { comment, created := false }

/-- A post that is not deleted. -/
def findPost (postId : UuidText) (db : CommunityDatabase) : Option CommunityPost :=
  (lookup (·.id) postId.toUuid db.communityPosts).filter fun post => post.deletedAt = none

/-- The name that an account posts under. -/
def authorName (userId : UuidText) (db : CommunityDatabase) : String :=
  ((lookup (·.userId) userId.toUuid db.communityProfiles).map (·.name)).getD "익명"

/-! ### Calls of the service -/

/-- The answer to `createPost`. -/
structure CommunityPostPayload where
  id : Uuid
  authorName : String
  title : Text
  body : Text
  commentCount : ℕ
  createdAt : Timestamp

/-- The answer to `createComment`. -/
structure CommunityCommentPayload where
  id : Uuid
  postId : Uuid
  authorName : String
  body : Text
  createdAt : Timestamp

/-- A post as it is answered. -/
def rowToPost (row : CommunityPost) (authorName : String) (commentCount : ℕ) :
    CommunityPostPayload where
  id := row.id
  authorName := authorName
  title := row.title
  body := row.body
  commentCount := commentCount
  createdAt := row.createdAt

/-- A comment as it is answered. -/
def rowToComment (row : CommunityComment) (authorName : String) : CommunityCommentPayload where
  id := row.id
  postId := row.postId
  authorName := authorName
  body := row.body
  createdAt := row.createdAt

/-- What the service was started with. -/
structure CommunityConfig where
  /-- The notification service is there. -/
  notifies : Bool
  pushEnabled : Bool

/-- Creates a post, or returns the one that its key stands for. -/
def createPost (call : CreatePostCall) : CommunityProg CommunityPostPayload := do
  let userId ← MonadExcept.ofExcept (validateUuid call.userId "USER_ID_INVALID")
  let id ← MonadExcept.ofExcept
    (validateUuid call.idempotencyKey "COMMUNITY_POST_IDEMPOTENCY_KEY_INVALID")
  let title ← MonadExcept.ofExcept (validateText call.title 80 "COMMUNITY_TITLE")
  let body ← MonadExcept.ofExcept (validateText call.body 1000 "COMMUNITY_BODY")
  let authorName ← look unwritten (authorName userId)
  let post ← insertOrReplayPost { id, userId, title, body }
  return rowToPost post authorName 0

/-- The notification of a comment, for the author of its post. -/
def commentNotification (post : CommunityPost) (postId : UuidText) (comment : CommunityComment) :
    CreateNotificationInput where
  userId := post.authorUserId.toUuidText
  type := .comment
  title := "새 댓글이 달렸어요"
  body := "내 글에 남긴 댓글을 확인해 보세요."
  route := some ("/community/" ++ String.ofList postId.text)
  sourceId := some (String.ofList comment.id.text)

/-- `notify`, a transaction on the other tables. -/
def notify (input : CreateNotificationInput) (pushEnabled : Bool) (now : Timestamp) :
    Call CommunityDatabase Failure ChatTea.Notification := fun db => do
  let (notification, tables) ← createWithPushOutbox input pushEnabled now db.toDatabase
  return (notification, { db with toDatabase := tables })

/-- The author of the post is told of a new comment; a failure is only logged. -/
def tellAuthor (config : CommunityConfig) (post : CommunityPost) (userId postId : UuidText)
    (result : CommentResult) : CommunityProg Unit :=
  if result.created ∧ config.notifies ∧ post.authorUserId.text ≠ userId.text then
    tryCatch (do
      let now ← Prog.anything Timestamp
      let _ ← autocommit
        (notify (commentNotification post postId result.comment) config.pushEnabled now)
        fun notification => [.notified notification]
      return ()) fun _ => return ()
  else return ()

/-- A comment on a post that was found. -/
def commentOn (config : CommunityConfig) (post : CommunityPost) (userId postId id : UuidText)
    (body : JsText) : CommunityProg CommunityCommentPayload := do
  let authorName ← look unwritten (authorName userId)
  let body ← MonadExcept.ofExcept (validateText body 500 "COMMUNITY_COMMENT")
  let result ← insertOrReplayComment { id, userId, postId, body }
  tellAuthor config post userId postId result
  return rowToComment result.comment authorName

/-- Creates a comment, or returns the one that its key stands for. -/
def createComment (config : CommunityConfig) (call : CreateCommentCall) :
    CommunityProg CommunityCommentPayload := do
  let userId ← MonadExcept.ofExcept (validateUuid call.userId "USER_ID_INVALID")
  let postId ← MonadExcept.ofExcept (validateUuid call.postId "COMMUNITY_POST_ID_INVALID")
  let id ← MonadExcept.ofExcept
    (validateUuid call.idempotencyKey "COMMUNITY_COMMENT_IDEMPOTENCY_KEY_INVALID")
  match ← look unwritten (findPost postId) with
  | none => throw (.error "COMMUNITY_POST_NOT_FOUND")
  | some post => commentOn config post userId postId id call.body

/-- What a call answers. -/
inductive CommunityAnswer where
  | post (payload : CommunityPostPayload)
  | comment (payload : CommunityCommentPayload)
  | failed (failure : Failure)

/-- A call, with what it returns or why it fails as its answer. -/
def answering {α : Type} (call : CommunityProg α) (answer : α → CommunityAnswer) :
    CommunityProg CommunityAnswer :=
  tryCatch (do return answer (← call)) fun failure => return .failed failure

/-- The code of each call. -/
def communityCode (config : CommunityConfig) : CommunityRequest → CommunityProg CommunityAnswer
  | .createPost call => answering (createPost call) .post
  | .createComment call => answering (createComment config call) .comment

end ChatTea.Community
