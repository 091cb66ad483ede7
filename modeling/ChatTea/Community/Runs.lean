import ChatTea.Community.Service

/-!
# Runs of the community

Any number of posts and comments at once. Rows stay what they are, but for being deleted; a thread
writes one row at most and then one notification at most. From some moment of a run on, what was
there at that moment tells what a later call can return.

## Main definitions

* `KeepsCommunity` — rows stay, and stay deleted
* `CommunityChange` — what a step of a thread does
* `CommunityInvariant`, `communityLogic` — what holds in every run
* `PostAnswered`, `CommentAnswered` — what a call has returned, when it has returned

## Main results

* `CommunityChange.invariant` — a step keeps the invariant
* `sound_community` — every call is verified
-/

namespace ChatTea.Community

open History Interleaving ReadCommitted Table Transaction
open Notification (CreateNotificationInput createWithPushOutbox createdNotification)

variable {pid : ℕ} {w before after : CommunityState} {db db' db'' : CommunityDatabase}
  {post post' : CommunityPost} {comment comment' : CommunityComment} {config : CommunityConfig}

/-! ### Rows that stay -/

/-- A post, deleted in the meantime or not. -/
structure SamePost (post post' : CommunityPost) : Prop where
  same : { post' with deletedAt := post.deletedAt } = post
  deleted : post.deletedAt ≠ none → post'.deletedAt ≠ none

structure SameComment (comment comment' : CommunityComment) : Prop where
  same : { comment' with deletedAt := comment.deletedAt } = comment
  deleted : comment.deletedAt ≠ none → comment'.deletedAt ≠ none

namespace SamePost

theorem refl (post : CommunityPost) : SamePost post post := ⟨rfl, id⟩

theorem trans {post'' : CommunityPost} (h : SamePost post post') (h' : SamePost post' post'') :
    SamePost post post'' := by
  constructor
  · rw [← h.same, ← h'.same]
  · exact fun hdeleted => h'.deleted (h.deleted hdeleted)

theorem id_eq (h : SamePost post post') : post'.id = post.id := by
  rw [← h.same]

theorem author_eq (h : SamePost post post') : post'.authorUserId = post.authorUserId := by
  rw [← h.same]

end SamePost

namespace SameComment

theorem refl (comment : CommunityComment) : SameComment comment comment := ⟨rfl, id⟩

theorem trans {comment'' : CommunityComment} (h : SameComment comment comment')
    (h' : SameComment comment' comment'') : SameComment comment comment'' := by
  constructor
  · rw [← h.same, ← h'.same]
  · exact fun hdeleted => h'.deleted (h.deleted hdeleted)

theorem id_eq (h : SameComment comment comment') : comment'.id = comment.id := by
  rw [← h.same]

theorem post_eq (h : SameComment comment comment') : comment'.postId = comment.postId := by
  rw [← h.same]

theorem author_eq (h : SameComment comment comment') : comment'.authorUserId = comment.authorUserId := by
  rw [← h.same]

end SameComment

/-- Every row stays. -/
structure KeepsCommunity (db db' : CommunityDatabase) : Prop where
  posts : ∀ post ∈ db.communityPosts, ∃ post' ∈ db'.communityPosts, SamePost post post'
  comments : ∀ comment ∈ db.communityComments, ∃ comment' ∈ db'.communityComments,
    SameComment comment comment'

namespace KeepsCommunity

theorem of_subset (hposts : ∀ post ∈ db.communityPosts, post ∈ db'.communityPosts)
    (hcomments : ∀ comment ∈ db.communityComments, comment ∈ db'.communityComments) :
    KeepsCommunity db db' where
  posts post hpost := ⟨post, hposts post hpost, .refl post⟩
  comments comment hcomment := ⟨comment, hcomments comment hcomment, .refl comment⟩

theorem refl (db : CommunityDatabase) : KeepsCommunity db db :=
  .of_subset (fun _ h => h) fun _ h => h

theorem trans (h : KeepsCommunity db db') (h' : KeepsCommunity db' db'') :
    KeepsCommunity db db'' where
  posts := by
    intro post hpost
    obtain ⟨post', hpost', hsame⟩ := h.posts post hpost
    obtain ⟨post'', hpost'', hsame'⟩ := h'.posts post' hpost'
    exact ⟨post'', hpost'', hsame.trans hsame'⟩
  comments := by
    intro comment hcomment
    obtain ⟨comment', hcomment', hsame⟩ := h.comments comment hcomment
    obtain ⟨comment'', hcomment'', hsame'⟩ := h'.comments comment' hcomment'
    exact ⟨comment'', hcomment'', hsame.trans hsame'⟩

end KeepsCommunity

/-- What the tables promise. -/
structure CommunityReady (db : CommunityDatabase) : Prop where
  posts : UniqueKey CommunityPost.id db.communityPosts
  comments : UniqueKey CommunityComment.id db.communityComments
  postOf : ∀ comment ∈ db.communityComments, ∃ post ∈ db.communityPosts, post.id = comment.postId

/-! ### What a thread does -/

/-- The text of an identifier, as a notification names it. -/
def idText (id : Uuid) : String := String.ofList id.text

theorem idText_injective : Function.Injective idText := by
  intro id id' h
  exact Uuid.text_injective (String.ofList_injective h)

def isCommented (id : Uuid) : CommunityEvent → Bool
  | .commented comment => comment.id = id
  | _ => false

/-- The notification of a comment. -/
def isNotified (id : Uuid) : CommunityEvent → Bool
  | .notified notification => notification.sourceId = some (idText id)
  | _ => false

/-- A notification tells the author of a post of a comment on it. -/
structure Tells (notification : ChatTea.Notification) (comment : CommunityComment)
    (post : CommunityPost) : Prop where
  type : notification.type = .comment
  source : notification.sourceId = some (idText comment.id)
  author : notification.userId = post.authorUserId
  postOf : post.id = comment.postId

/-- What one thread may have done, the newest first. -/
inductive Wrote : List CommunityEvent → Prop
  | nothing : Wrote []
  | posted (post : CommunityPost) : Wrote [.posted post]
  | commented (comment : CommunityComment) : Wrote [.commented comment]
  | notified {comment : CommunityComment} {notification : ChatTea.Notification}
      (source : notification.sourceId = some (idText comment.id)) :
      Wrote [.notified notification, .commented comment]

/-- A thread notifies of a comment only when it has written it, and once. -/
theorem Wrote.countP_isNotified_le {events : List CommunityEvent} (h : Wrote events) (id : Uuid) :
    events.countP (isNotified id) ≤ events.countP (isCommented id) := by
  cases h with
  | nothing => exact le_rfl
  | posted post => simp [isNotified]
  | commented comment => simp [isNotified]
  | @notified comment notification source =>
      by_cases hid : comment.id = id
      · simp [isNotified, isCommented, source, hid]
      · have hother : idText comment.id ≠ idText id := fun h => hid (idText_injective h)
        simp [isNotified, isCommented, source, hother]

/-- The user who makes a request, as the client spells it. -/
def CommunityRequest.userId : CommunityRequest → Text
  | .createPost call => call.userId
  | .createComment call => call.userId

/-- What a step of a thread does to the tables and the history. -/
inductive CommunityChange (request : CommunityRequest) (pid : ℕ) (before after : CommunityState) :
    Prop
  | quiet (committed : after.committed = before.committed) (log : after.log = before.log)
  | posted (post : CommunityPost) (idle : own pid before.log = [])
      (fresh : ∀ old ∈ before.committed.communityPosts, old.id ≠ post.id)
      (committed : after.committed = { before.committed with
        communityPosts := before.committed.communityPosts ++ [post] })
      (log : after.log = stamp pid [.posted post] ++ before.log)
  | commented (comment : CommunityComment) (idle : own pid before.log = [])
      (fresh : ∀ old ∈ before.committed.communityComments, old.id ≠ comment.id)
      (postOf : ∃ post ∈ before.committed.communityPosts, post.id = comment.postId)
      (committed : after.committed = { before.committed with
        communityComments := before.committed.communityComments ++ [comment] })
      (log : after.log = stamp pid [.commented comment] ++ before.log)
  /-- The comment is that of the thread, and its post someone else's if the ids say so. -/
  | notified (notification : ChatTea.Notification) (comment : CommunityComment)
      (post : CommunityPost) (wrote : own pid before.log = [.commented comment])
      (there : ∃ comment' ∈ before.committed.communityComments, SameComment comment comment')
      (mem : post ∈ before.committed.communityPosts) (tells : Tells notification comment post)
      (other : request.userId.lower = request.userId → post.authorUserId ≠ comment.authorUserId)
      (posts : after.committed.communityPosts = before.committed.communityPosts)
      (comments : after.committed.communityComments = before.committed.communityComments)
      (log : after.log = stamp pid [.notified notification] ++ before.log)

variable {request : CommunityRequest}

namespace CommunityChange

theorem log (h : CommunityChange request pid before after) :
    ∃ events, after.log = stamp pid events ++ before.log := by
  cases h with
  | quiet committed log => exact ⟨[], log⟩
  | posted post idle fresh committed log => exact ⟨_, log⟩
  | commented comment idle fresh postOf committed log => exact ⟨_, log⟩
  | notified notification comment post wrote there mem tells other posts comments log => exact ⟨_, log⟩

theorem keeps (h : CommunityChange request pid before after) :
    KeepsCommunity before.committed after.committed := by
  cases h with
  | quiet committed =>
      rw [committed]
      exact .refl _
  | posted post idle fresh committed =>
      rw [committed]
      exact .of_subset (fun _ hold => List.mem_append_left _ hold) fun _ hold => hold
  | commented comment idle fresh postOf committed =>
      rw [committed]
      exact .of_subset (fun _ hold => hold) fun _ hold => List.mem_append_left _ hold
  | notified notification comment post wrote there mem tells other posts comments =>
      apply KeepsCommunity.of_subset
      · intro old hold
        rwa [posts]
      · intro old hold
        rwa [comments]

end CommunityChange

/-- What holds in every run; `since` is the database of some earlier moment. -/
structure CommunityInvariant (since : CommunityDatabase) (w : CommunityState) : Prop where
  ready : CommunityReady w.committed
  kept : KeepsCommunity since w.committed
  wrote : ∀ pid, Wrote (own pid w.log)
  counted : ∀ id, count (isCommented id) w.log ≤
    w.committed.communityComments.countP fun comment => comment.id = id

variable {since : CommunityDatabase}

theorem CommunityReady.posted (h : CommunityReady db)
    (hfresh : ∀ old ∈ db.communityPosts, old.id ≠ post.id) :
    CommunityReady { db with communityPosts := db.communityPosts ++ [post] } where
  posts := h.posts.append hfresh
  comments := h.comments
  postOf comment hcomment := by
    obtain ⟨post, hpost, hid⟩ := h.postOf comment hcomment
    exact ⟨post, List.mem_append_left _ hpost, hid⟩

theorem CommunityReady.commented (h : CommunityReady db)
    (hfresh : ∀ old ∈ db.communityComments, old.id ≠ comment.id)
    (hpost : ∃ post ∈ db.communityPosts, post.id = comment.postId) :
    CommunityReady { db with communityComments := db.communityComments ++ [comment] } where
  posts := h.posts
  comments := h.comments.append hfresh
  postOf old hold := by
    rcases List.mem_append.1 hold with hold | hnew
    · exact h.postOf old hold
    · obtain rfl := List.mem_singleton.1 hnew
      exact hpost

theorem CommunityReady.congr (h : CommunityReady db)
    (hposts : db'.communityPosts = db.communityPosts)
    (hcomments : db'.communityComments = db.communityComments) : CommunityReady db' where
  posts := by
    rw [hposts]
    exact h.posts
  comments := by
    rw [hcomments]
    exact h.comments
  postOf := by
    rw [hposts, hcomments]
    exact h.postOf

/-- The other threads have done what they had. -/
theorem CommunityChange.wrote_all (h : CommunityChange request pid before after)
    (hwrote : ∀ pid, Wrote (own pid before.log)) (other : ℕ) : Wrote (own other after.log) := by
  by_cases hother : other = pid
  · subst hother
    cases h with
    | quiet committed log =>
        rw [log]
        exact hwrote other
    | posted post idle fresh committed log =>
        rw [log, own_stamp_append_self, idle]
        exact .posted post
    | commented comment idle fresh postOf committed log =>
        rw [log, own_stamp_append_self, idle]
        exact .commented comment
    | notified notification comment post wrote there mem tells other posts comments log =>
        rw [log, own_stamp_append_self, wrote]
        exact .notified tells.source
  · obtain ⟨events, hlog⟩ := h.log
    rw [hlog, own_stamp_append_other hother]
    exact hwrote other

/-- A step keeps the invariant. -/
theorem CommunityChange.invariant (h : CommunityChange request pid before after)
    (hinv : CommunityInvariant since before) : CommunityInvariant since after := by
  have hkept := hinv.kept.trans h.keeps
  have hwrote := h.wrote_all hinv.wrote
  cases h with
  | quiet committed log =>
      constructor
      · rw [committed]
        exact hinv.ready
      · exact hkept
      · exact hwrote
      · rw [committed, log]
        exact hinv.counted
  | posted post idle fresh committed log =>
      refine ⟨?_, hkept, hwrote, ?_⟩
      · rw [committed]
        exact hinv.ready.posted fresh
      · intro id
        rw [committed, log, count_stamp_append]
        simpa [isCommented] using hinv.counted id
  | commented comment idle fresh postOf committed log =>
      refine ⟨?_, hkept, hwrote, ?_⟩
      · rw [committed]
        exact hinv.ready.commented fresh postOf
      · intro id
        have hcounted := hinv.counted id
        rw [committed, log, count_stamp_append, List.countP_append]
        by_cases hid : comment.id = id
        · simp only [isCommented, hid, List.countP_singleton, decide_true, if_true]
          omega
        · simpa [isCommented, hid] using hcounted
  | notified notification comment post wrote there mem tells other posts comments log =>
      refine ⟨hinv.ready.congr posts comments, hkept, hwrote, ?_⟩
      intro id
      rw [comments, log, count_stamp_append]
      simpa [isCommented] using hinv.counted id

/-! ### The system -/

/-- The rest of the service, and whoever deletes posts and comments: rows stay, and none is new. -/
structure OutsideWrites (before after : CommunityState) : Prop where
  posts : List.Forall₂ SamePost before.committed.communityPosts after.committed.communityPosts
  comments : List.Forall₂ SameComment before.committed.communityComments
    after.committed.communityComments
  log : after.log = before.log

def communitySystem (config : CommunityConfig) :
    System CommunityState CommunityRequest Failure CommunityAnswer where
  code := communityCode config
  accepts _ := True
  environment := OutsideWrites
  rollback _ w := w

/-- The service at rest. -/
def communityAtRest (start : CommunityDatabase) :
    Config CommunityState CommunityRequest Failure CommunityAnswer := .idle (.ofCommitted start)

end ChatTea.Community
