import ChatTea.Community.Runs
import ChatTea.Lib.Pointwise

/-!
# What a post or a comment returns

Every call is verified against the steps of the others. What a call can return is told by the
database of any moment before it starts: a row that was there under its key then is what the call
returns, or the reason why it fails.

## Main definitions

* `PostInput.Wants`, `CommentInput.Wants` — the row that a call would write
* `PostInput.IsStored`, `CommentInput.IsStored` — a call in the spelling of the database
* `communityLogic` — the invariant, with what a call has returned

## Main results

* `holds_createPost`, `holds_createComment` — the calls
* `sound_community` — all of them
-/

namespace ChatTea.Community

open History Interleaving ReadCommitted Table Transaction
open Notification (CreateNotificationInput createWithPushOutbox createdNotification
  createWithPushOutbox_ok)

variable {pid first : ℕ} {w before after : CommunityState} {since db db' : CommunityDatabase}
  {post : CommunityPost} {comment : CommunityComment} {config : CommunityConfig}
  {failure : Failure}

/-! ### What a call asks for -/

/-- What a call asks for, if it passes its checks. -/
def CreatePostCall.accepted (call : CreatePostCall) : Except Failure PostInput := do
  let userId ← validateUuid call.userId "USER_ID_INVALID"
  let id ← validateUuid call.idempotencyKey "COMMUNITY_POST_IDEMPOTENCY_KEY_INVALID"
  let title ← validateText call.title 80 "COMMUNITY_TITLE"
  let body ← validateText call.body 1000 "COMMUNITY_BODY"
  return { id, userId, title, body }

def CreateCommentCall.accepted (call : CreateCommentCall) : Except Failure CommentInput := do
  let userId ← validateUuid call.userId "USER_ID_INVALID"
  let postId ← validateUuid call.postId "COMMUNITY_POST_ID_INVALID"
  let id ← validateUuid call.idempotencyKey "COMMUNITY_COMMENT_IDEMPOTENCY_KEY_INVALID"
  let body ← validateText call.body 500 "COMMUNITY_COMMENT"
  return { id, userId, postId, body }

/-- The row is the one that the call would write, whenever that was. -/
structure PostInput.Wants (input : PostInput) (post : CommunityPost) : Prop where
  id : post.id = input.id.toUuid
  author : post.authorUserId = input.userId.toUuid
  title : post.title = input.title.sent
  body : post.body = input.body.sent

structure CommentInput.Wants (input : CommentInput) (comment : CommunityComment) : Prop where
  id : comment.id = input.id.toUuid
  author : comment.authorUserId = input.userId.toUuid
  postId : comment.postId = input.postId.toUuid
  body : comment.body = input.body.sent

/-- PostgreSQL returns the text as it is. -/
def JsText.IsUnicode (text : JsText) : Prop := received text.sent = text

/-- The call is spelled as PostgreSQL returns its row; the key may be in either case. -/
structure PostInput.IsStored (input : PostInput) : Prop where
  user : input.userId.Canonical
  title : input.title.IsUnicode
  body : input.body.IsUnicode

structure CommentInput.IsStored (input : CommentInput) : Prop where
  user : input.userId.Canonical
  post : input.postId.Canonical
  body : input.body.IsUnicode

theorem sent_received (text : Text) : (JsText.received text).sent = text := by
  rw [JsText.sent, JsText.received, List.map_map]
  exact List.map_id _

/-- A stored text is the text of a call exactly when it was stored for it, and as it is. -/
theorem received_eq_iff {stored : Text} {text : JsText} :
    JsText.received stored = text ↔ stored = text.sent ∧ text.IsUnicode := by
  constructor
  · rintro rfl
    rw [JsText.IsUnicode, sent_received]
    exact ⟨rfl, rfl⟩
  · rintro ⟨rfl, hunicode⟩
    exact hunicode

/-- A call is given the row of its key exactly when it would have written it, as spelled. -/
theorem PostInput.not_differs_iff {input : PostInput} (hid : post.id = input.id.toUuid) :
    ¬ input.differs post ↔ input.IsStored ∧ input.Wants post ∧ post.deletedAt = none := by
  simp only [differs, decide_eq_true_eq, not_or, not_not, Uuid.text_eq_iff, received_eq_iff]
  constructor
  · rintro ⟨⟨hauthor, huser⟩, ⟨htitle, htitle'⟩, ⟨hbody, hbody'⟩, hdeleted⟩
    exact ⟨⟨huser, htitle', hbody'⟩, ⟨hid, hauthor, htitle, hbody⟩, hdeleted⟩
  · rintro ⟨hstored, hwants, hdeleted⟩
    exact ⟨⟨hwants.author, hstored.user⟩, ⟨hwants.title, hstored.title⟩,
      ⟨hwants.body, hstored.body⟩, hdeleted⟩

theorem CommentInput.not_differs_iff {input : CommentInput} (hid : comment.id = input.id.toUuid) :
    ¬ input.differs comment ↔ input.IsStored ∧ input.Wants comment ∧ comment.deletedAt = none := by
  simp only [differs, decide_eq_true_eq, not_or, not_not, Uuid.text_eq_iff, received_eq_iff]
  constructor
  · rintro ⟨⟨hauthor, huser⟩, ⟨hpost, hpost'⟩, ⟨hbody, hbody'⟩, hdeleted⟩
    exact ⟨⟨huser, hpost', hbody'⟩, ⟨hid, hauthor, hpost, hbody⟩, hdeleted⟩
  · rintro ⟨hstored, hwants, hdeleted⟩
    exact ⟨⟨hwants.author, hstored.user⟩, ⟨hwants.postId, hstored.post⟩,
      ⟨hwants.body, hstored.body⟩, hdeleted⟩

/-- A deleted row is still the one of its call. -/
theorem SamePost.wants_iff {post' : CommunityPost} {input : PostInput} (h : SamePost post post') :
    input.Wants post' ↔ input.Wants post := by
  rw [← h.same]
  constructor
  · exact fun hwants => ⟨hwants.id, hwants.author, hwants.title, hwants.body⟩
  · exact fun hwants => ⟨hwants.id, hwants.author, hwants.title, hwants.body⟩

theorem SameComment.wants_iff {comment' : CommunityComment} {input : CommentInput}
    (h : SameComment comment comment') : input.Wants comment' ↔ input.Wants comment := by
  rw [← h.same]
  constructor
  · exact fun hwants => ⟨hwants.id, hwants.author, hwants.postId, hwants.body⟩
  · exact fun hwants => ⟨hwants.id, hwants.author, hwants.postId, hwants.body⟩

theorem SamePost.payload_eq {post' : CommunityPost} (h : SamePost post post') (name : String)
    (count : ℕ) : rowToPost post' name count = rowToPost post name count := by
  rw [← h.same]
  rfl

theorem SameComment.payload_eq {comment' : CommunityComment} (h : SameComment comment comment')
    (name : String) : rowToComment comment' name = rowToComment comment name := by
  rw [← h.same]
  rfl

/-! ### The logic -/

/-- A post that was returned; what was there under its key before was the same, and not deleted. -/
structure PostReturned (since : CommunityDatabase) (input : PostInput)
    (payload : CommunityPostPayload) (pid : ℕ) (w : CommunityState) : Prop where
  row : ∃ post ∈ w.committed.communityPosts, input.Wants post ∧
    ∃ name, payload = rowToPost post name 0
  known : ∀ old ∈ since.communityPosts, old.id = input.id.toUuid →
    input.IsStored ∧ old.deletedAt = none ∧ own pid w.log = []

/-- Another row has the key, or the same one, which is deleted by now. -/
def PostInput.IsTaken (input : PostInput) (db : CommunityDatabase) : Prop :=
  ∃ post ∈ db.communityPosts, post.id = input.id.toUuid ∧
    (input.IsStored → input.Wants post → post.deletedAt ≠ none)

def CommentInput.IsTaken (input : CommentInput) (db : CommunityDatabase) : Prop :=
  ∃ comment ∈ db.communityComments, comment.id = input.id.toUuid ∧
    (input.IsStored → input.Wants comment → comment.deletedAt ≠ none)

/-- A post that was refused, because PostgreSQL rejected it or its key is taken. -/
structure PostFailed (input : PostInput) (failure : Failure) (pid : ℕ) (w : CommunityState) :
    Prop where
  idle : own pid w.log = []
  cause : Rejects.rejected failure ∨ input.IsTaken w.committed

structure CommentReturned (since : CommunityDatabase) (input : CommentInput)
    (payload : CommunityCommentPayload) (pid : ℕ) (w : CommunityState) : Prop where
  row : ∃ comment ∈ w.committed.communityComments, input.Wants comment ∧
    ∃ name, payload = rowToComment comment name
  known : ∀ old ∈ since.communityComments, old.id = input.id.toUuid →
    input.IsStored ∧ old.deletedAt = none ∧ own pid w.log = []
  post : ∀ old ∈ since.communityPosts, old.id = input.postId.toUuid → old.deletedAt = none

/-- The post of a comment is deleted by now, if it was there before. -/
def PostGone (since : CommunityDatabase) (id : Uuid) (db : CommunityDatabase) : Prop :=
  ((∃ old ∈ since.communityPosts, old.id = id) ∨ ∃ old ∈ since.communityComments, old.postId = id) →
    ∃ post ∈ db.communityPosts, post.id = id ∧ post.deletedAt ≠ none

/-- A comment that was refused, because PostgreSQL rejected it, its key is taken or its post gone. -/
structure CommentFailed (since : CommunityDatabase) (input : CommentInput) (failure : Failure)
    (pid : ℕ) (w : CommunityState) : Prop where
  idle : own pid w.log = []
  cause : Rejects.rejected failure ∨ input.IsTaken w.committed ∨
    PostGone since input.postId.toUuid w.committed

/-- What a call has returned, when it has returned. -/
def Answered (since : CommunityDatabase) (pid : ℕ) (w : CommunityState) :
    CommunityRequest → CommunityAnswer → Prop
  | .createPost call, .post payload => ∀ input, call.accepted = .ok input →
      PostReturned since input payload pid w
  | .createPost call, .failed failure => ∀ input, call.accepted = .ok input →
      PostFailed input failure pid w
  | .createComment call, .comment payload => ∀ input, call.accepted = .ok input →
      CommentReturned since input payload pid w
  | .createComment call, .failed failure => ∀ input, call.accepted = .ok input →
      CommentFailed since input failure pid w
  | _, _ => False

/-- What the other threads keep for one thread. -/
structure CommunityRely (pid : ℕ) (before after : CommunityState) : Prop where
  own : own pid after.log = own pid before.log
  kept : KeepsCommunity before.committed after.committed

/-- The logic of the community, for the threads from some number on. -/
def communityLogic (since : CommunityDatabase) (first : ℕ) :
    Logic CommunityState CommunityRequest Failure CommunityAnswer where
  invariant := CommunityInvariant since
  rely := CommunityRely
  guarantee := CommunityChange
  allowed := anyStep
  requires _ _ := True
  ensures request pid answer w := first ≤ pid → Answered since pid w request answer
  fresh pid w := own pid w.log = []
  rely_refl _ w := ⟨rfl, .refl w.committed⟩
  rely_trans h h' := ⟨h'.own.trans h.own, h.kept.trans h'.kept⟩
  guarantee_refl _ _ _ := .quiet rfl rfl
  rely_of_guarantee := by
    intro request pid other before after hother h
    obtain ⟨events, hlog⟩ := h.log
    refine ⟨?_, h.keeps⟩
    rw [hlog, own_stamp_append_other hother]
  fresh_of_rely h hfresh := h.own.trans hfresh

/-- A fact that the other threads keep. -/
def Lasting (pid : ℕ) (A : CommunityState → Prop) : Prop :=
  ∀ ⦃before after⦄, CommunityRely pid before after → A before → A after

variable {A : CommunityState → Prop}

theorem Lasting.stable (hA : Lasting pid A) : (communityLogic since first).Stable pid A :=
  fun _ _ hrely _ h => hA hrely h

theorem Lasting.later (hA : Lasting pid A) (h : A w) : (communityLogic since first).Later pid A w :=
  hA.stable.later h

theorem lasting_idle : Lasting pid fun w => own pid w.log = [] := fun _ _ h hidle => h.own.trans hidle

theorem lasting_deletedPost (id : Uuid) : Lasting pid fun w =>
    ∃ post ∈ w.committed.communityPosts, post.id = id ∧ post.deletedAt ≠ none := by
  rintro before after hrely ⟨post, hpost, hid, hdeleted⟩
  obtain ⟨post', hpost', hsame⟩ := hrely.kept.posts post hpost
  exact ⟨post', hpost', hsame.id_eq.trans hid, hsame.deleted hdeleted⟩

theorem lasting_samePost (post : CommunityPost) : Lasting pid fun w =>
    ∃ post' ∈ w.committed.communityPosts, SamePost post post' := by
  rintro before after hrely ⟨post', hpost', hsame⟩
  obtain ⟨post'', hpost'', hsame'⟩ := hrely.kept.posts post' hpost'
  exact ⟨post'', hpost'', hsame.trans hsame'⟩

theorem lasting_sameComment (comment : CommunityComment) : Lasting pid fun w =>
    ∃ comment' ∈ w.committed.communityComments, SameComment comment comment' := by
  rintro before after hrely ⟨comment', hcomment', hsame⟩
  obtain ⟨comment'', hcomment'', hsame'⟩ := hrely.kept.comments comment' hcomment'
  exact ⟨comment'', hcomment'', hsame.trans hsame'⟩

theorem lasting_postReturned (input : PostInput) (payload : CommunityPostPayload) :
    Lasting pid (PostReturned since input payload pid) := by
  intro before after hrely h
  obtain ⟨post, hpost, hwants, name, hpayload⟩ := h.row
  obtain ⟨post', hpost', hsame⟩ := hrely.kept.posts post hpost
  constructor
  · exact ⟨post', hpost', hsame.wants_iff.2 hwants, name, by rw [hpayload, hsame.payload_eq]⟩
  · intro old hold hid
    obtain ⟨hstored, hdeleted, hidle⟩ := h.known old hold hid
    exact ⟨hstored, hdeleted, hrely.own.trans hidle⟩

theorem lasting_postTaken (input : PostInput) : Lasting pid (input.IsTaken ·.committed) := by
  rintro before after hrely ⟨post, hpost, hid, hother⟩
  obtain ⟨post', hpost', hsame⟩ := hrely.kept.posts post hpost
  exact ⟨post', hpost', hsame.id_eq.trans hid,
    fun hstored hwants => hsame.deleted (hother hstored (hsame.wants_iff.1 hwants))⟩

theorem lasting_commentTaken (input : CommentInput) : Lasting pid (input.IsTaken ·.committed) := by
  rintro before after hrely ⟨comment, hcomment, hid, hother⟩
  obtain ⟨comment', hcomment', hsame⟩ := hrely.kept.comments comment hcomment
  exact ⟨comment', hcomment', hsame.id_eq.trans hid,
    fun hstored hwants => hsame.deleted (hother hstored (hsame.wants_iff.1 hwants))⟩

theorem lasting_postGone (id : Uuid) : Lasting pid (PostGone since id ·.committed) :=
  fun _ _ hrely h hknown => lasting_deletedPost id hrely (h hknown)

theorem lasting_postFailed (input : PostInput) (failure : Failure) :
    Lasting pid (PostFailed input failure pid) := fun _ _ hrely h =>
  ⟨hrely.own.trans h.idle, h.cause.imp_right fun htaken => lasting_postTaken input hrely htaken⟩

theorem lasting_commentReturned (input : CommentInput) (payload : CommunityCommentPayload) :
    Lasting pid (CommentReturned since input payload pid) := by
  intro before after hrely h
  obtain ⟨comment, hcomment, hwants, name, hpayload⟩ := h.row
  obtain ⟨comment', hcomment', hsame⟩ := hrely.kept.comments comment hcomment
  constructor
  · exact ⟨comment', hcomment', hsame.wants_iff.2 hwants, name, by rw [hpayload, hsame.payload_eq]⟩
  · intro old hold hid
    obtain ⟨hstored, hdeleted, hidle⟩ := h.known old hold hid
    exact ⟨hstored, hdeleted, hrely.own.trans hidle⟩
  · exact h.post

theorem lasting_commentFailed (input : CommentInput) (failure : Failure) :
    Lasting pid (CommentFailed since input failure pid) := by
  intro before after hrely h
  refine ⟨hrely.own.trans h.idle, h.cause.imp_right (Or.imp ?_ ?_)⟩
  · exact fun htaken => lasting_commentTaken input hrely htaken
  · exact fun hgone => lasting_postGone _ hrely hgone

/-! ### Insertions -/

variable {request : CommunityRequest}

theorem insertPost_ok {row : CommunityPost} {result : Option CommunityPost}
    (h : insertPost row db = .ok (result, db')) :
    (result = none ∧ db' = db ∧ ∃ old ∈ db.communityPosts, old.id = row.id) ∨
      (result = some row ∧ (∀ old ∈ db.communityPosts, old.id ≠ row.id) ∧
        db' = { db with communityPosts := db.communityPosts ++ [row] }) := by
  unfold insertPost at h
  split at h
  next htaken =>
    obtain ⟨rfl, rfl⟩ := Prod.mk.inj (pure_eq_ok_iff.1 h)
    obtain ⟨old, hold⟩ := Option.isSome_iff_exists.1 htaken
    exact Or.inl ⟨rfl, rfl, old, mem_of_lookup hold⟩
  next hfree =>
    simp only [bind_eq_ok_iff, require_eq_ok_iff, pure_eq_ok_iff, Prod.mk.injEq, exists_const] at h
    obtain ⟨-, -, -, rfl, rfl⟩ := h
    exact Or.inr ⟨rfl, lookup_eq_none.1 (Option.not_isSome_iff_eq_none.1 hfree), rfl⟩

theorem insertComment_ok {row : CommunityComment} {result : Option CommunityComment}
    (h : insertComment row db = .ok (result, db')) :
    (result = none ∧ db' = db ∧ ∃ old ∈ db.communityComments, old.id = row.id) ∨
      (result = some row ∧ (∀ old ∈ db.communityComments, old.id ≠ row.id) ∧
        (∃ post ∈ db.communityPosts, post.id = row.postId) ∧
        db' = { db with communityComments := db.communityComments ++ [row] }) := by
  unfold insertComment at h
  split at h
  next htaken =>
    obtain ⟨rfl, rfl⟩ := Prod.mk.inj (pure_eq_ok_iff.1 h)
    obtain ⟨old, hold⟩ := Option.isSome_iff_exists.1 htaken
    exact Or.inl ⟨rfl, rfl, old, mem_of_lookup hold⟩
  next hfree =>
    simp only [bind_eq_ok_iff, require_eq_ok_iff, pure_eq_ok_iff, Prod.mk.injEq, exists_const] at h
    obtain ⟨hpost, -, -, rfl, rfl⟩ := h
    obtain ⟨post, hpost⟩ := Option.isSome_iff_exists.1 hpost
    exact Or.inr ⟨rfl, lookup_eq_none.1 (Option.not_isSome_iff_eq_none.1 hfree),
      ⟨post, mem_of_lookup hpost⟩, rfl⟩

/-- An insertion fails only where PostgreSQL rejects it. -/
theorem insertPost_rejected {row : CommunityPost} (h : insertPost row db = .error failure) :
    Rejects.rejected failure := by
  unfold insertPost at h
  split at h
  · cases h
  · simp only [bind_eq_error_iff, require_eq_error_iff, require_eq_ok_iff] at h
    rcases h with ⟨-, rfl⟩ | ⟨-, -, ⟨-, rfl⟩ | ⟨-, -, ⟨-, rfl⟩ | ⟨-, -, h⟩⟩⟩
    · exact ⟨_, rfl⟩
    · exact ⟨_, rfl⟩
    · exact ⟨_, rfl⟩
    · cases h

theorem insertComment_rejected {row : CommunityComment}
    (h : insertComment row db = .error failure) : Rejects.rejected failure := by
  unfold insertComment at h
  split at h
  · cases h
  · simp only [bind_eq_error_iff, require_eq_error_iff, require_eq_ok_iff] at h
    rcases h with ⟨-, rfl⟩ | ⟨-, -, ⟨-, rfl⟩ | ⟨-, -, ⟨-, rfl⟩ | ⟨-, -, h⟩⟩⟩
    · exact ⟨_, rfl⟩
    · exact ⟨_, rfl⟩
    · exact ⟨_, rfl⟩
    · cases h

/-- A replay returns the row that was read, or fails. -/
theorem replay_ok {α : Type} {differs : α → Bool} {found : Option α} {row : α}
    (h : replay failure differs found = .ok row) : found = some row ∧ ¬ differs row := by
  cases found with
  | none => cases h
  | some other =>
      unfold replay at h
      dsimp only at h
      split at h
      · cases h
      next hsame =>
        obtain rfl := Except.ok.inj h
        exact ⟨rfl, hsame⟩

/-- A post that an insertion has returned, new or not. -/
structure PostThere (since : CommunityDatabase) (input : PostInput) (pid : ℕ) (post : CommunityPost)
    (w : CommunityState) : Prop where
  row : ∃ post' ∈ w.committed.communityPosts, SamePost post post'
  wants : input.Wants post
  known : ∀ old ∈ since.communityPosts, old.id = input.id.toUuid →
    input.IsStored ∧ old.deletedAt = none ∧ own pid w.log = []

theorem lasting_postThere (input : PostInput) (post : CommunityPost) :
    Lasting pid (PostThere since input pid post) := by
  intro before after hrely h
  refine ⟨lasting_samePost post hrely h.row, h.wants, fun old hold hid => ?_⟩
  obtain ⟨hstored, hdeleted, hidle⟩ := h.known old hold hid
  exact ⟨hstored, hdeleted, hrely.own.trans hidle⟩

/-- A row under the key of a post, which is what was there before. -/
structure PostFound (since : CommunityDatabase) (input : PostInput) (pid : ℕ)
    (found : Option CommunityPost) (w : CommunityState) : Prop where
  idle : own pid w.log = []
  row : ∃ post, found = some post ∧ post.id = input.id.toUuid ∧
    (∃ post' ∈ w.committed.communityPosts, SamePost post post') ∧
      ∀ old ∈ since.communityPosts, old.id = input.id.toUuid → SamePost old post

theorem lasting_postFound (input : PostInput) (found : Option CommunityPost) :
    Lasting pid (PostFound since input pid found) := by
  intro before after hrely h
  obtain ⟨post, hfound, hid, hrow, hknown⟩ := h.row
  exact ⟨hrely.own.trans h.idle, post, hfound, hid, lasting_samePost post hrely hrow, hknown⟩

/-- The row under a key is what was there before under it. -/
theorem CommunityInvariant.post_same (hinv : CommunityInvariant since w)
    (hpost : post ∈ w.committed.communityPosts) {old : CommunityPost}
    (hold : old ∈ since.communityPosts) (hid : old.id = post.id) : SamePost old post := by
  obtain ⟨post', hpost', hsame⟩ := hinv.kept.posts old hold
  obtain rfl := hinv.ready.posts.eq_of_key hpost' hpost (hsame.id_eq.trans hid)
  exact hsame

theorem CommunityInvariant.comment_same (hinv : CommunityInvariant since w)
    (hcomment : comment ∈ w.committed.communityComments) {old : CommunityComment}
    (hold : old ∈ since.communityComments) (hid : old.id = comment.id) : SameComment old comment := by
  obtain ⟨comment', hcomment', hsame⟩ := hinv.kept.comments old hold
  obtain rfl := hinv.ready.comments.eq_of_key hcomment' hcomment (hsame.id_eq.trans hid)
  exact hsame

/-- The row under the key of a call, read after its insertion has done nothing. -/
theorem holds_replayPost (input : PostInput)
    (h : own pid w.log = [] ∧ ∃ post ∈ w.committed.communityPosts, post.id = input.id.toUuid) :
    (communityLogic since first).Holds request pid
      (do
        let replayedPost ← look unwritten fun db => lookup (·.id) input.id.toUuid db.communityPosts
        MonadExcept.ofExcept (replay postKeyUsed input.differs replayedPost))
      (PostThere since input pid) (PostFailed input · pid) w := by
  have hlasting : Lasting pid fun w : CommunityState => own pid w.log = [] ∧
      ∃ post ∈ w.committed.communityPosts, post.id = input.id.toUuid := by
    rintro before after hrely ⟨hidle, post, hpost, hid⟩
    obtain ⟨post', hpost', hsame⟩ := hrely.kept.posts post hpost
    exact ⟨hrely.own.trans hidle, post', hpost', hsame.id_eq.trans hid⟩
  have hread : (communityLogic since first).Holds request pid
      (look unwritten fun db => lookup (·.id) input.id.toUuid db.communityPosts)
      (PostFound since input pid) (PostFailed input · pid) w := by
    apply holds_reading _ hlasting.stable h
    · rintro before ⟨hidle, post, hpost, hid⟩ hinv
      have hfound : lookup (·.id) input.id.toUuid before.committed.communityPosts = some post := by
        rw [← hid]
        exact hinv.ready.posts.lookup_of_mem hpost
      apply (lasting_postFound input _).later
      refine ⟨hidle, post, hfound, hid, ⟨post, hpost, .refl post⟩, fun old hold hkey => ?_⟩
      exact hinv.post_same hpost hold (hkey.trans hid.symm)
    · rintro before failure ⟨hidle, -⟩ - hrejected
      exact (lasting_postFailed input failure).later ⟨hidle, Or.inl hrejected⟩
  apply hread.next
  · exact fun failure s _ hfailed => hfailed
  · intro found s _ hfound
    apply (Logic.holds_ofExcept (PostFound since input pid found) (lasting_postFound input found).stable
      hfound).mono
    · rintro post s' - ⟨⟨hidle, row, hrow, hid, hthere, hknown⟩, hreplay⟩
      obtain ⟨hsome, hsame⟩ := replay_ok hreplay
      obtain rfl : row = post := Option.some.inj (hrow.symm.trans hsome)
      obtain ⟨hstored, hwants, hdeleted⟩ := (PostInput.not_differs_iff hid).1 hsame
      refine ⟨hthere, hwants, fun old hold hkey => ⟨hstored, ?_, hidle⟩⟩
      by_contra hgone
      exact (hknown old hold hkey).deleted hgone hdeleted
    · rintro failure s' - ⟨⟨hidle, row, hrow, hid, ⟨post, hpost, hsame⟩, hknown⟩, hreplay⟩
      refine ⟨hidle, Or.inr ⟨post, hpost, hsame.id_eq.trans hid, fun hstored hwants => ?_⟩⟩
      -- What the call wants is refused only when it is deleted.
      apply hsame.deleted
      intro hdeleted
      have hsame' : ¬ input.differs row := (PostInput.not_differs_iff hid).2
        ⟨hstored, hsame.wants_iff.1 hwants, hdeleted⟩
      rw [hrow, replay, if_neg hsame'] at hreplay
      cases hreplay

/-- What is known of a post after its insertion. -/
def PostInserted (since : CommunityDatabase) (input : PostInput) (pid : ℕ) (w : CommunityState) :
    Option CommunityPost → Prop
  | some post => PostThere since input pid post w
  | none => own pid w.log = [] ∧ ∃ post ∈ w.committed.communityPosts, post.id = input.id.toUuid

theorem holds_insertPost (input : PostInput) (createdAt : Timestamp) (h : own pid w.log = []) :
    (communityLogic since first).Holds request pid
      (autocommit (insertPost (input.row createdAt)) fun post => post.toList.map .posted)
      (fun result s => PostInserted since input pid s result) (PostFailed input · pid) w := by
  apply holds_autocommit _ lasting_idle.stable h
  · intro before result db' hbefore hinv hinsert
    rcases insertPost_ok hinsert with ⟨rfl, rfl, old, hold, hid⟩ | ⟨rfl, hfresh, rfl⟩
    · refine ⟨hinv, .quiet rfl rfl, ?_⟩
      intro later hrely hlater
      obtain ⟨post', hpost', hsame⟩ := hrely.kept.posts old hold
      exact ⟨hrely.own.trans hbefore, post', hpost', hsame.id_eq.trans hid⟩
    · have hchange : CommunityChange request pid before (before.write pid _
          [.posted (input.row createdAt)]) := .posted _ hbefore hfresh rfl rfl
      refine ⟨hchange.invariant hinv, hchange, (lasting_postThere input _).later ?_⟩
      constructor
      · exact ⟨_, List.mem_append_right _ (List.mem_singleton_self _), .refl _⟩
      · exact ⟨rfl, rfl, rfl, rfl⟩
      · -- The key was free, so nothing was there before.
        intro old hold hkey
        obtain ⟨post, hpost, hsame⟩ := hinv.kept.posts old hold
        exact absurd (hsame.id_eq.trans hkey) (hfresh post hpost)
  · intro before failure hbefore hinv hfailure
    apply (lasting_postFailed input failure).later
    refine ⟨hbefore, Or.inl ?_⟩
    rcases hfailure with hthrown | hrejected
    · exact insertPost_rejected hthrown
    · exact hrejected

theorem holds_insertOrReplayPost (input : PostInput) (h : own pid w.log = []) :
    (communityLogic since first).Holds request pid (insertOrReplayPost input)
      (PostThere since input pid) (PostFailed input · pid) w := by
  have hclock : (communityLogic since first).Holds request pid
      (Prog.anything Timestamp : CommunityProg Timestamp) (fun _ s => own pid s.log = [])
      (PostFailed input · pid) w := Logic.holds_anything fun _ => lasting_idle.later h
  apply hclock.next fun _ _ _ hfailed => hfailed
  intro createdAt s _ hidle
  apply (holds_insertPost input createdAt hidle).next fun _ _ _ hfailed => hfailed
  intro result s _ hresult
  cases result with
  | some post => exact Logic.holds_pure ((lasting_postThere input post).later hresult)
  | none => exact holds_replayPost input hresult

/-! ### Posts -/

/-- All checks come first. -/
theorem createPost_eq (call : CreatePostCall) : createPost call = (do
    let input ← MonadExcept.ofExcept call.accepted
    let authorName ← look unwritten (authorName input.userId)
    let post ← insertOrReplayPost input
    return rowToPost post authorName 0) := by
  unfold createPost CreatePostCall.accepted
  cases validateUuid call.userId "USER_ID_INVALID" with
  | error failure => rfl
  | ok userId =>
      cases validateUuid call.idempotencyKey "COMMUNITY_POST_IDEMPOTENCY_KEY_INVALID" with
      | error failure => rfl
      | ok id =>
          cases validateText call.title 80 "COMMUNITY_TITLE" with
          | error failure => rfl
          | ok title =>
              cases validateText call.body 1000 "COMMUNITY_BODY" with
              | error failure => rfl
              | ok body => rfl

theorem holds_createPost (call : CreatePostCall) (h : own pid w.log = []) :
    (communityLogic since first).Holds request pid (createPost call)
      (fun payload s => ∀ input, call.accepted = .ok input → PostReturned since input payload pid s)
      (fun failure s => ∀ input, call.accepted = .ok input → PostFailed input failure pid s)
      w := by
  rw [createPost_eq]
  cases haccepted : call.accepted with
  | error failure =>
      apply Logic.holds_throw
      exact fun _ _ _ input hinput => nomatch hinput
  | ok input =>
      have hname : (communityLogic since first).Holds request pid
          (look unwritten (authorName input.userId) : CommunityProg String)
          (fun _ s => own pid s.log = []) (PostFailed input · pid) w := by
        apply holds_reading _ lasting_idle.stable h
        · exact fun before hidle _ => lasting_idle.later hidle
        · exact fun before failure hidle _ hrejected =>
            (lasting_postFailed input failure).later ⟨hidle, Or.inl hrejected⟩
      have hthrows (failure : Failure) (s : CommunityState)
          (hfailed : PostFailed input failure pid s) :
          ∀ input', (.ok input : Except Failure PostInput) = .ok input' →
            PostFailed input' failure pid s := by
        intro input' hinput
        obtain rfl := Except.ok.inj hinput
        exact hfailed
      apply hname.next fun failure s _ => hthrows failure s
      intro name s _ hidle
      apply (holds_insertOrReplayPost input hidle).next fun failure s _ => hthrows failure s
      intro post s _ hthere
      apply Logic.holds_pure
      intro later hrely _ input' hinput
      obtain rfl := Except.ok.inj hinput
      obtain ⟨post', hpost', hsame⟩ := (lasting_postThere input post hrely hthere).row
      constructor
      · exact ⟨post', hpost', hsame.wants_iff.2 hthere.wants, name, (hsame.payload_eq name 0).symm⟩
      · exact (lasting_postThere input post hrely hthere).known

/-! ### Comments -/

/-- A comment that was returned by an insertion, new or not; `wrote` is what the thread has done. -/
structure CommentThere (since : CommunityDatabase) (input : CommentInput) (pid : ℕ)
    (comment : CommunityComment) (wrote : List CommunityEvent) (w : CommunityState) : Prop where
  row : ∃ comment' ∈ w.committed.communityComments, SameComment comment comment'
  wants : input.Wants comment
  own : own pid w.log = wrote
  known : ∀ old ∈ since.communityComments, old.id = input.id.toUuid →
    input.IsStored ∧ old.deletedAt = none ∧ wrote = []

theorem lasting_commentThere (input : CommentInput) (comment : CommunityComment)
    (wrote : List CommunityEvent) : Lasting pid (CommentThere since input pid comment wrote) :=
  fun _ _ hrely h => ⟨lasting_sameComment comment hrely h.row, h.wants, hrely.own.trans h.own, h.known⟩

structure CommentFound (since : CommunityDatabase) (input : CommentInput) (pid : ℕ)
    (found : Option CommunityComment) (w : CommunityState) : Prop where
  idle : own pid w.log = []
  row : ∃ comment, found = some comment ∧ comment.id = input.id.toUuid ∧
    (∃ comment' ∈ w.committed.communityComments, SameComment comment comment') ∧
      ∀ old ∈ since.communityComments, old.id = input.id.toUuid → SameComment old comment

theorem lasting_commentFound (input : CommentInput) (found : Option CommunityComment) :
    Lasting pid (CommentFound since input pid found) := by
  intro before after hrely h
  obtain ⟨comment, hfound, hid, hrow, hknown⟩ := h.row
  exact ⟨hrely.own.trans h.idle, comment, hfound, hid, lasting_sameComment comment hrely hrow, hknown⟩

/-- The result of an insertion, new or not. -/
def CommentInserted (since : CommunityDatabase) (input : CommentInput) (pid : ℕ)
    (result : CommentResult) (w : CommunityState) : Prop :=
  CommentThere since input pid result.comment
    (if result.created then [.commented result.comment] else []) w

theorem holds_replayComment (input : CommentInput)
    (h : own pid w.log = [] ∧
      ∃ comment ∈ w.committed.communityComments, comment.id = input.id.toUuid) :
    (communityLogic since first).Holds request pid
      (do
        let replayedComment ← look unwritten
          fun db => lookup (·.id) input.id.toUuid db.communityComments
        let comment ← MonadExcept.ofExcept (replay commentKeyUsed input.differs replayedComment)
        return ({ comment, created := false } : CommentResult))
      (CommentInserted since input pid) (CommentFailed since input · pid) w := by
  have hlasting : Lasting pid fun w : CommunityState => own pid w.log = [] ∧
      ∃ comment ∈ w.committed.communityComments, comment.id = input.id.toUuid := by
    rintro before after hrely ⟨hidle, comment, hcomment, hid⟩
    obtain ⟨comment', hcomment', hsame⟩ := hrely.kept.comments comment hcomment
    exact ⟨hrely.own.trans hidle, comment', hcomment', hsame.id_eq.trans hid⟩
  have hread : (communityLogic since first).Holds request pid
      (look unwritten fun db => lookup (·.id) input.id.toUuid db.communityComments)
      (CommentFound since input pid) (CommentFailed since input · pid) w := by
    apply holds_reading _ hlasting.stable h
    · rintro before ⟨hidle, comment, hcomment, hid⟩ hinv
      have hfound : lookup (·.id) input.id.toUuid before.committed.communityComments =
          some comment := by
        rw [← hid]
        exact hinv.ready.comments.lookup_of_mem hcomment
      apply (lasting_commentFound input _).later
      refine ⟨hidle, comment, hfound, hid, ⟨comment, hcomment, .refl comment⟩, fun old hold hkey => ?_⟩
      exact hinv.comment_same hcomment hold (hkey.trans hid.symm)
    · rintro before failure ⟨hidle, -⟩ - hrejected
      exact (lasting_commentFailed input failure).later ⟨hidle, Or.inl hrejected⟩
  apply hread.next fun _ _ _ hfailed => hfailed
  intro found s _ hfound
  apply (Logic.holds_ofExcept (CommentFound since input pid found)
    (lasting_commentFound input found).stable hfound).next
  · rintro failure s' - ⟨⟨hidle, row, hrow, hid, ⟨comment, hcomment, hsame⟩, hknown⟩, hreplay⟩
    have htaken : input.IsTaken s'.committed := by
      refine ⟨comment, hcomment, hsame.id_eq.trans hid, fun hstored hwants => ?_⟩
      -- What the call wants is refused only when it is deleted.
      apply hsame.deleted
      intro hdeleted
      have hsame' : ¬ input.differs row := (CommentInput.not_differs_iff hid).2
        ⟨hstored, hsame.wants_iff.1 hwants, hdeleted⟩
      rw [hrow, replay, if_neg hsame'] at hreplay
      cases hreplay
    exact ⟨hidle, Or.inr (Or.inl htaken)⟩
  · rintro comment s' - ⟨⟨hidle, row, hrow, hid, hthere, hknown⟩, hreplay⟩
    obtain ⟨hsome, hsame⟩ := replay_ok hreplay
    obtain rfl : row = comment := Option.some.inj (hrow.symm.trans hsome)
    obtain ⟨hstored, hwants, hdeleted⟩ := (CommentInput.not_differs_iff hid).1 hsame
    apply Logic.holds_pure
    apply (lasting_commentThere input row []).later
    refine ⟨hthere, hwants, hidle, fun old hold hkey => ⟨hstored, ?_, rfl⟩⟩
    by_contra hgone
    exact (hknown old hold hkey).deleted hgone hdeleted

/-- What is known of a comment after its insertion. -/
def CommentTaken (since : CommunityDatabase) (input : CommentInput) (pid : ℕ) (w : CommunityState) :
    Option CommunityComment → Prop
  | some comment => CommentThere since input pid comment [.commented comment] w
  | none => own pid w.log = [] ∧
      ∃ comment ∈ w.committed.communityComments, comment.id = input.id.toUuid

theorem holds_insertComment (input : CommentInput) (createdAt : Timestamp)
    (h : own pid w.log = []) :
    (communityLogic since first).Holds request pid
      (autocommit (insertComment (input.row createdAt))
        fun comment => comment.toList.map .commented)
      (fun result s => CommentTaken since input pid s result) (CommentFailed since input · pid) w := by
  apply holds_autocommit _ lasting_idle.stable h
  · intro before result db' hbefore hinv hinsert
    rcases insertComment_ok hinsert with ⟨rfl, rfl, old, hold, hid⟩ | ⟨rfl, hfresh, hpost, rfl⟩
    · refine ⟨hinv, .quiet rfl rfl, ?_⟩
      intro later hrely hlater
      obtain ⟨comment', hcomment', hsame⟩ := hrely.kept.comments old hold
      exact ⟨hrely.own.trans hbefore, comment', hcomment', hsame.id_eq.trans hid⟩
    · have hchange : CommunityChange request pid before (before.write pid _
          [.commented (input.row createdAt)]) := .commented _ hbefore hfresh hpost rfl rfl
      refine ⟨hchange.invariant hinv, hchange, (lasting_commentThere input _ _).later ?_⟩
      constructor
      · exact ⟨_, List.mem_append_right _ (List.mem_singleton_self _), .refl _⟩
      · exact ⟨rfl, rfl, rfl, rfl⟩
      · change own pid (stamp pid [.commented (input.row createdAt)] ++ before.log) = _
        rw [own_stamp_append_self, hbefore]
        rfl
      · -- The key was free, so nothing was there before.
        intro old hold hkey
        obtain ⟨comment, hcomment, hsame⟩ := hinv.kept.comments old hold
        exact absurd (hsame.id_eq.trans hkey) (hfresh comment hcomment)
  · intro before failure hbefore hinv hfailure
    apply (lasting_commentFailed input failure).later
    refine ⟨hbefore, Or.inl ?_⟩
    rcases hfailure with hthrown | hrejected
    · exact insertComment_rejected hthrown
    · exact hrejected

theorem holds_insertOrReplayComment (input : CommentInput) (h : own pid w.log = []) :
    (communityLogic since first).Holds request pid (insertOrReplayComment input)
      (CommentInserted since input pid) (CommentFailed since input · pid) w := by
  have hclock : (communityLogic since first).Holds request pid
      (Prog.anything Timestamp : CommunityProg Timestamp) (fun _ s => own pid s.log = [])
      (CommentFailed since input · pid) w := Logic.holds_anything fun _ => lasting_idle.later h
  apply hclock.next fun _ _ _ hfailed => hfailed
  intro createdAt s _ hidle
  apply (holds_insertComment input createdAt hidle).next fun _ _ _ hfailed => hfailed
  intro result s _ hresult
  cases result with
  | some comment =>
      apply Logic.holds_pure
      exact (lasting_commentThere input comment [.commented comment]).later hresult
  | none => exact holds_replayComment input hresult

/-- A post that was found, and not deleted then. -/
structure PostOpen (since : CommunityDatabase) (postId : UuidText) (pid : ℕ) (post : CommunityPost)
    (w : CommunityState) : Prop where
  row : ∃ post' ∈ w.committed.communityPosts, SamePost post post'
  id : post.id = postId.toUuid
  known : ∀ old ∈ since.communityPosts, old.id = postId.toUuid → old.deletedAt = none

theorem lasting_postOpen (postId : UuidText) (post : CommunityPost) :
    Lasting pid (PostOpen since postId pid post) :=
  fun _ _ hrely h => ⟨lasting_samePost post hrely h.row, h.id, h.known⟩

/-- The author is told when the comment is new. -/
theorem holds_tellAuthor {userId postId id : UuidText} {body : JsText} {result : CommentResult}
    (hspelled : request.userId = userId.text) (hopen : PostOpen since postId pid post w)
    (hinserted : CommentInserted since ⟨id, userId, postId, body⟩ pid result w) :
    (communityLogic since first).Holds request pid (tellAuthor config post userId postId result)
      (fun _ s => ∃ wrote, CommentThere since ⟨id, userId, postId, body⟩ pid result.comment wrote s)
      (fun _ _ => False) w := by
  unfold tellAuthor
  split
  next htell =>
    obtain ⟨hcreated, -, hauthor⟩ := htell
    have hnew : CommentThere since ⟨id, userId, postId, body⟩ pid result.comment
        [.commented result.comment] w := by
      rwa [CommentInserted, if_pos hcreated] at hinserted
    have hlasting : Lasting pid fun s => PostOpen since postId pid post s ∧
        CommentThere since ⟨id, userId, postId, body⟩ pid result.comment
          [.commented result.comment] s :=
      fun _ _ hrely h => ⟨lasting_postOpen postId post hrely h.1, lasting_commentThere _ _ _ hrely h.2⟩
    apply Logic.Holds.tryCatch
    have hclock : (communityLogic since first).Holds request pid
        (Prog.anything Timestamp : CommunityProg Timestamp)
        (fun _ s => PostOpen since postId pid post s ∧
          CommentThere since ⟨id, userId, postId, body⟩ pid result.comment
            [.commented result.comment] s) (fun _ _ => False) w :=
      Logic.holds_anything fun _ => hlasting.later ⟨hopen, hnew⟩
    apply hclock.next fun _ _ _ hfalse => hfalse.elim
    intro now s _ hs
    have hnotify : (communityLogic since first).Holds request pid
        (autocommit (notify (commentNotification post postId result.comment) config.pushEnabled now)
          fun notification => [.notified notification])
        (fun _ s => ∃ wrote,
          CommentThere since ⟨id, userId, postId, body⟩ pid result.comment wrote s)
        (fun _ s => CommentThere since ⟨id, userId, postId, body⟩ pid result.comment
          [.commented result.comment] s) s := by
      apply holds_autocommit _ hlasting.stable hs
      · rintro before notification db' ⟨⟨⟨post', hpost', hsame⟩, hid, -⟩, hthere⟩ hinv hcall
        obtain ⟨⟨created, tables⟩, hcreate, hend⟩ := bind_eq_ok_iff.1 hcall
        obtain ⟨rfl, rfl⟩ := Prod.mk.inj (pure_eq_ok_iff.1 hend)
        obtain ⟨hcreated', -⟩ := createWithPushOutbox_ok hcreate
        have htells : Tells created result.comment post' := by
          subst hcreated'
          constructor
          · rfl
          · rfl
          · exact (Uuid.toUuid_eq _).trans hsame.author_eq.symm
          · exact (hsame.id_eq.trans hid).trans hthere.wants.postId.symm
        have hother : request.userId.lower = request.userId →
            post'.authorUserId ≠ result.comment.authorUserId := by
          -- The user's spelling is the stored one, so it is compared with the stored author.
          intro hlower hauthor'
          apply hauthor
          rw [hspelled] at hlower
          have huser : userId.toUuid.text = userId.text := hlower
          rw [← huser, ← hsame.author_eq, hauthor', hthere.wants.author]
        have hchange : CommunityChange request pid before (before.write pid
            { before.committed with toDatabase := tables } [.notified created]) :=
          .notified created result.comment post' hthere.own hthere.row hpost' htells hother rfl rfl rfl
        have hwrote : CommentThere since ⟨id, userId, postId, body⟩ pid result.comment
            [.notified created, .commented result.comment] (before.write pid
              { before.committed with toDatabase := tables } [.notified created]) := by
          constructor
          · exact hthere.row
          · exact hthere.wants
          · change own pid (stamp pid [.notified created] ++ before.log) = _
            rw [own_stamp_append_self, hthere.own]
            rfl
          · intro old hold hkey
            exact absurd (hthere.known old hold hkey).2.2 (List.cons_ne_nil _ _)
        refine ⟨hchange.invariant hinv, hchange, ?_⟩
        intro later hrely _
        exact ⟨_, lasting_commentThere _ _ _ hrely hwrote⟩
      · rintro before failure ⟨-, hthere⟩ - -
        exact (lasting_commentThere _ _ _).later hthere
    apply hnotify.next
    · intro failure s _ hthere
      apply Logic.holds_pure
      exact fun _ hrely _ => ⟨_, lasting_commentThere _ _ _ hrely hthere⟩
    · rintro _ s - ⟨wrote, hthere⟩
      apply Logic.holds_pure
      exact fun _ hrely _ => ⟨wrote, lasting_commentThere _ _ _ hrely hthere⟩
  next =>
    apply Logic.holds_pure
    exact fun _ hrely _ => ⟨_, lasting_commentThere _ _ _ hrely hinserted⟩

theorem findPost_some {postId : UuidText} (h : findPost postId db = some post) :
    post ∈ db.communityPosts ∧ post.id = postId.toUuid ∧ post.deletedAt = none := by
  obtain ⟨hfound, hopen⟩ := Option.filter_eq_some_iff.1 h
  obtain ⟨hmem, hid⟩ := mem_of_lookup hfound
  exact ⟨hmem, hid, of_decide_eq_true hopen⟩

theorem findPost_none {postId : UuidText} (hunique : UniqueKey CommunityPost.id db.communityPosts)
    (hpost : post ∈ db.communityPosts) (hid : post.id = postId.toUuid)
    (h : findPost postId db = none) : post.deletedAt ≠ none := by
  intro hdeleted
  have hfound : lookup (·.id) postId.toUuid db.communityPosts = some post := by
    rw [← hid]
    exact hunique.lookup_of_mem hpost
  rw [findPost, hfound, Option.filter_some, if_pos (by simpa using hdeleted)] at h
  cases h

theorem validateUuid_ok {text : Text} {error : String} {spelled : UuidText}
    (h : validateUuid text error = .ok spelled) : spelled.text = text := by
  unfold validateUuid at h
  split at h
  · obtain rfl := Except.ok.inj h
    rfl
  · cases h

theorem CreateCommentCall.accepted_iff {call : CreateCommentCall} {input : CommentInput} :
    call.accepted = .ok input ↔
      validateUuid call.userId "USER_ID_INVALID" = .ok input.userId ∧
      validateUuid call.postId "COMMUNITY_POST_ID_INVALID" = .ok input.postId ∧
      validateUuid call.idempotencyKey "COMMUNITY_COMMENT_IDEMPOTENCY_KEY_INVALID" = .ok input.id ∧
      validateText call.body 500 "COMMUNITY_COMMENT" = .ok input.body := by
  simp only [accepted, bind_eq_ok_iff, pure_eq_ok_iff]
  constructor
  · rintro ⟨userId, huser, postId, hpost, id, hid, body, hbody, rfl⟩
    exact ⟨huser, hpost, hid, hbody⟩
  · rintro ⟨huser, hpost, hid, hbody⟩
    exact ⟨_, huser, _, hpost, _, hid, _, hbody, rfl⟩

/-- A comment on a post that was found open. -/
theorem holds_commentOn {userId postId id : UuidText} {body : JsText}
    (hspelled : request.userId = userId.text) (hidle : own pid w.log = [])
    (hopen : PostOpen since postId pid post w) :
    (communityLogic since first).Holds request pid (commentOn config post userId postId id body)
      (fun payload s => ∀ text, validateText body 500 "COMMUNITY_COMMENT" = .ok text →
        CommentReturned since ⟨id, userId, postId, text⟩ payload pid s)
      (fun failure s => ∀ text, validateText body 500 "COMMUNITY_COMMENT" = .ok text →
        CommentFailed since ⟨id, userId, postId, text⟩ failure pid s) w := by
  have hlasting : Lasting pid fun s => own pid s.log = [] ∧ PostOpen since postId pid post s :=
    fun _ _ hrely h => ⟨lasting_idle hrely h.1, lasting_postOpen postId post hrely h.2⟩
  have hname : (communityLogic since first).Holds request pid
      (look unwritten (authorName userId) : CommunityProg String)
      (fun _ s => own pid s.log = [] ∧ PostOpen since postId pid post s)
      (fun failure s => ∀ text, CommentFailed since ⟨id, userId, postId, text⟩ failure pid s) w := by
    apply holds_reading _ hlasting.stable ⟨hidle, hopen⟩
    · exact fun before hbefore _ => hlasting.later hbefore
    · intro before failure hbefore _ hrejected later hrely _ text
      exact lasting_commentFailed _ failure hrely ⟨hbefore.1, Or.inl hrejected⟩
  apply hname.next fun _ _ _ hfailed text _ => hfailed text
  intro name s _ hs
  apply (Logic.holds_ofExcept _ hlasting.stable hs).next
  · rintro failure s' - ⟨-, hfailed⟩ text htext
    rw [hfailed] at htext
    cases htext
  rintro text s' - ⟨hs', htext⟩
  have hsame {text' : JsText} (h : validateText body 500 "COMMUNITY_COMMENT" = .ok text') :
      text = text' := Except.ok.inj (htext.symm.trans h)
  -- The post is still found open after the insertion.
  have hinsert : (communityLogic since first).Holds request pid
      (insertOrReplayComment ⟨id, userId, postId, text⟩)
      (fun result s => CommentInserted since ⟨id, userId, postId, text⟩ pid result s ∧
        PostOpen since postId pid post s)
      (CommentFailed since ⟨id, userId, postId, text⟩ · pid) s' := by
    apply (holds_insertOrReplayComment ⟨id, userId, postId, text⟩ hs'.1).frame hs'.2
    · exact (lasting_postOpen postId post).stable
    · intro before after hchange hbefore
      obtain ⟨⟨post', hpost', hsame'⟩, hid, hknown⟩ := hbefore
      obtain ⟨post'', hpost'', hsame''⟩ := hchange.keeps.posts post' hpost'
      exact ⟨⟨post'', hpost'', hsame'.trans hsame''⟩, hid, hknown⟩
  apply hinsert.next
  · intro failure s _ hfailed text' htext'
    obtain rfl := hsame htext'
    exact hfailed
  rintro result s - ⟨hinserted, hopen'⟩
  apply (holds_tellAuthor hspelled hopen' hinserted).next fun _ _ _ hfalse => hfalse.elim
  rintro _ s'' - ⟨wrote, hthere⟩
  apply Logic.holds_pure
  intro later hrely _ text' htext'
  obtain rfl := hsame htext'
  have hlater := lasting_commentThere _ _ _ hrely hthere
  obtain ⟨comment', hcomment', hsame'⟩ := hlater.row
  constructor
  · exact ⟨comment', hcomment', hsame'.wants_iff.2 hlater.wants, name, (hsame'.payload_eq name).symm⟩
  · intro old hold hkey
    obtain ⟨hstored, hdeleted, hnothing⟩ := hlater.known old hold hkey
    exact ⟨hstored, hdeleted, hlater.own.trans hnothing⟩
  · exact hopen'.known

/-- What is known of the post of a comment when it was looked for. -/
def PostLooked (since : CommunityDatabase) (postId : UuidText) (pid : ℕ) (w : CommunityState) :
    Option CommunityPost → Prop
  | some post => PostOpen since postId pid post w
  | none => PostGone since postId.toUuid w.committed

theorem lasting_postLooked (postId : UuidText) (found : Option CommunityPost) :
    Lasting pid (PostLooked since postId pid · found) := by
  intro before after hrely h
  cases found with
  | some post => exact lasting_postOpen postId post hrely h
  | none => exact lasting_postGone postId.toUuid hrely h

theorem CommunityInvariant.postLooked (hinv : CommunityInvariant since w) (postId : UuidText) :
    PostLooked since postId pid w (findPost postId w.committed) := by
  cases hfound : findPost postId w.committed with
  | some post =>
      obtain ⟨hpost, hid, hopen⟩ := findPost_some hfound
      refine ⟨⟨post, hpost, .refl post⟩, hid, fun old hold hkey => ?_⟩
      by_contra hgone
      exact (hinv.post_same hpost hold (hkey.trans hid.symm)).deleted hgone hopen
  | none =>
      rintro (⟨old, hold, hkey⟩ | ⟨old, hold, hkey⟩)
      · obtain ⟨post, hpost, hsame⟩ := hinv.kept.posts old hold
        have hid : post.id = postId.toUuid := hsame.id_eq.trans hkey
        exact ⟨post, hpost, hid, findPost_none hinv.ready.posts hpost hid hfound⟩
      · -- The comment is still there, and so is its post.
        obtain ⟨comment, hcomment, hsame⟩ := hinv.kept.comments old hold
        obtain ⟨post, hpost, hid⟩ := hinv.ready.postOf comment hcomment
        rw [hsame.post_eq, hkey] at hid
        exact ⟨post, hpost, hid, findPost_none hinv.ready.posts hpost hid hfound⟩

theorem holds_createComment (call : CreateCommentCall) (hidle : own pid w.log = []) :
    (communityLogic since first).Holds (.createComment call) pid (createComment config call)
      (fun payload s => ∀ input, call.accepted = .ok input →
        CommentReturned since input payload pid s)
      (fun failure s => ∀ input, call.accepted = .ok input → CommentFailed since input failure pid s)
      w := by
  simp only [CreateCommentCall.accepted_iff]
  unfold createComment
  cases huser : validateUuid call.userId "USER_ID_INVALID" with
  | error failure =>
      apply Logic.holds_throw
      exact fun _ _ _ input hinput => nomatch hinput.1
  | ok userId =>
  cases hpost : validateUuid call.postId "COMMUNITY_POST_ID_INVALID" with
  | error failure =>
      apply Logic.holds_throw
      exact fun _ _ _ input hinput => nomatch hinput.2.1
  | ok postId =>
  cases hid : validateUuid call.idempotencyKey "COMMUNITY_COMMENT_IDEMPOTENCY_KEY_INVALID" with
  | error failure =>
      apply Logic.holds_throw
      exact fun _ _ _ input hinput => nomatch hinput.2.2.1
  | ok id =>
  have hinputs {input : CommentInput}
      (huser : (.ok userId : Except Failure UuidText) = .ok input.userId)
      (hpost : (.ok postId : Except Failure UuidText) = .ok input.postId)
      (hid : (.ok id : Except Failure UuidText) = .ok input.id) :
      input = ⟨id, userId, postId, input.body⟩ := by
    rw [Except.ok.inj huser, Except.ok.inj hpost, Except.ok.inj hid]
  have hlook : (communityLogic since first).Holds (.createComment call) pid
      (look unwritten (findPost postId) : CommunityProg (Option CommunityPost))
      (fun found s => own pid s.log = [] ∧ PostLooked since postId pid s found)
      (fun failure s => ∀ input, CommentFailed since input failure pid s) w := by
    apply holds_reading _ lasting_idle.stable hidle
    · intro before hbefore hinv later hrely _
      exact ⟨lasting_idle hrely hbefore, lasting_postLooked postId _ hrely (hinv.postLooked postId)⟩
    · intro before failure hbefore _ hrejected later hrely _ input
      exact lasting_commentFailed input failure hrely ⟨hbefore, Or.inl hrejected⟩
  apply hlook.next fun _ _ _ hfailed input _ => hfailed input
  rintro found s - ⟨hidle', hlooked⟩
  cases found with
  | none =>
      apply Logic.holds_throw
      intro later hrely _ input hinput
      rw [hinputs hinput.1 hinput.2.1 hinput.2.2.1]
      apply lasting_commentFailed _ _ hrely
      exact ⟨hidle', Or.inr (Or.inr hlooked)⟩
  | some post =>
      have hspelled : (CommunityRequest.createComment call).userId = userId.text :=
        (validateUuid_ok huser).symm
      apply (holds_commentOn hspelled hidle' hlooked).mono
      · intro payload s' _ hreturned input hinput
        rw [hinputs hinput.1 hinput.2.1 hinput.2.2.1]
        exact hreturned input.body hinput.2.2.2
      · intro failure s' _ hfailed input hinput
        rw [hinputs hinput.1 hinput.2.1 hinput.2.2.1]
        exact hfailed input.body hinput.2.2.2

/-! ### Every call -/

/-- The outside keeps the rows. -/
theorem OutsideWrites.keeps (h : OutsideWrites before after) :
    KeepsCommunity before.committed after.committed where
  posts _ hpost := Pointwise.exists_after h.posts hpost
  comments _ hcomment := Pointwise.exists_after h.comments hcomment

theorem OutsideWrites.invariant (h : OutsideWrites before after)
    (hinv : CommunityInvariant since before) : CommunityInvariant since after := by
  have hposts : after.committed.communityPosts.map CommunityPost.id =
      before.committed.communityPosts.map CommunityPost.id :=
    Pointwise.map_eq h.posts fun _ _ _ hsame => hsame.id_eq
  have hcomments : after.committed.communityComments.map CommunityComment.id =
      before.committed.communityComments.map CommunityComment.id :=
    Pointwise.map_eq h.comments fun _ _ _ hsame => hsame.id_eq
  constructor
  · constructor
    · unfold UniqueKey
      rw [hposts]
      exact hinv.ready.posts
    · unfold UniqueKey
      rw [hcomments]
      exact hinv.ready.comments
    · intro comment' hcomment'
      obtain ⟨comment, hcomment, hsame⟩ := Pointwise.exists_before h.comments hcomment'
      obtain ⟨post, hpost, hid⟩ := hinv.ready.postOf comment hcomment
      obtain ⟨post', hpost', hsame'⟩ := Pointwise.exists_after h.posts hpost
      exact ⟨post', hpost', (hsame'.id_eq.trans hid).trans hsame.post_eq.symm⟩
  · exact hinv.kept.trans h.keeps
  · rw [h.log]
    exact hinv.wrote
  · intro id
    have hcount := Pointwise.countP_eq (p := fun comment => comment.id = id) h.comments
      fun _ _ hsame => by rw [hsame.id_eq]
    rw [h.log, hcount]
    exact hinv.counted id

theorem sound_community (since : CommunityDatabase) (first : ℕ) :
    (communityLogic since first).Sound (communitySystem config) where
  accepts _ _ := trivial
  code := by
    intro request s pid _ _ hidle
    cases request with
    | createPost call =>
        apply Logic.Holds.tryCatch
        apply (holds_createPost call hidle).next
        · intro failure s _ hfailed
          apply Logic.holds_pure
          intro later hrely _ _ input hinput
          exact lasting_postFailed input failure hrely (hfailed input hinput)
        · intro payload s _ hreturned
          apply Logic.holds_pure
          intro later hrely _ _ input hinput
          exact lasting_postReturned input payload hrely (hreturned input hinput)
    | createComment call =>
        apply Logic.Holds.tryCatch
        apply (holds_createComment call hidle).next
        · intro failure s _ hfailed
          apply Logic.holds_pure
          intro later hrely _ _ input hinput
          exact lasting_commentFailed input failure hrely (hfailed input hinput)
        · intro payload s _ hreturned
          apply Logic.holds_pure
          intro later hrely _ _ input hinput
          exact lasting_commentReturned input payload hrely (hreturned input hinput)
  environment := by
    intro before after hmoves _ hinv
    refine ⟨hmoves.invariant hinv, fun pid => ⟨?_, hmoves.keeps⟩⟩
    rw [hmoves.log]
  rollback pid hinv := ⟨hinv, fun _ _ => ⟨rfl, .refl _⟩⟩

end ChatTea.Community
