import ChatTea.Community.Idempotency
import ChatTea.Lib.Select

/-!
# The lists of posts and comments

The list of posts is one query: the posts, with their comments and the names of their authors beside
them, in groups that are counted. It shows what is meant: the posts that are not deleted, newest
first, each with the name of its author and the number of its comments. Whatever a call has returned
is in the lists from then on, until it is deleted or others push it out.

## Main definitions

* `selectPosts`, `selectComments` — the queries of the repository
* `posts`, `comments` — the calls of the service
* `feed`, `thread` — what the lists are meant to show
* `CommunityLists` — what the calls return

## Main results

* `selectPosts_eq`, `selectComments_eq` — the queries return it
* `community_lists` — so they do in every run, and list what was written
-/

namespace ChatTea.Community

open Interleaving OrderDual Paging ReadCommitted Select Table ThreeValued

variable {db start : CommunityDatabase} {config : CommunityConfig}
  {c : Config CommunityState CommunityRequest Failure CommunityAnswer}

/-! ### The queries -/

/-- `ORDER BY createdAt DESC, id DESC` -/
def newestFirst (createdAt : Timestamp) (id : Uuid) : (Timestamp ×ₗ Uuid)ᵒᵈ :=
  toDual (toLex (createdAt, id))

/-- `ORDER BY createdAt, id` -/
def oldestFirst (createdAt : Timestamp) (id : Uuid) : Timestamp ×ₗ Uuid := toLex (createdAt, id)

/-- A post with a comment and the profile of its author, or nulls in their place. -/
abbrev PostRow := (CommunityPost × Option CommunityComment) × Option CommunityProfile

def PostRow.post (row : PostRow) : CommunityPost := row.1.1

def PostRow.comment (row : PostRow) : Option CommunityComment := row.1.2

def PostRow.profile (row : PostRow) : Option CommunityProfile := row.2

/-- The `ON` of the join with the comments. -/
def onComment (post : CommunityPost) (comment : CommunityComment) : Truth :=
  conj (eq (some comment.postId) (some post.id)) (isNull comment.deletedAt)

def onProfile (authorUserId : Uuid) (profile : CommunityProfile) : Truth :=
  eq (some profile.userId) (some authorUserId)

/-- `coalesce(name, '익명')` -/
def coalescedName (profile : Option CommunityProfile) : String :=
  (profile.map (·.name)).getD "익명"

/-- `GROUP BY` the id of the post and the name. -/
def postGroup (row : PostRow) : Uuid × Option String := (row.post.id, row.profile.map (·.name))

/-- What is selected of a group. -/
def selectedPost (row : PostRow) (group : List PostRow) : CommunityPostPayload :=
  rowToPost row.post (coalescedName row.profile)
    (count (fun row : PostRow => row.comment.map (·.id)) group)

/-- The posts with what is joined to them. -/
def joinedPosts (db : CommunityDatabase) : List PostRow :=
  leftJoin db.communityProfiles (fun row => onProfile row.1.authorUserId)
    (leftJoin db.communityComments onComment db.communityPosts)

def selectPosts (db : CommunityDatabase) : List CommunityPostPayload :=
  let active := selectWhere (fun row => isNull row.post.deletedAt) (joinedPosts db)
  let grouped := groupBy postGroup selectedPost active
  (ascending (fun post => newestFirst post.createdAt post.id) grouped).take 50

def selectComments (postId : UuidText) (db : CommunityDatabase) : List CommunityCommentPayload :=
  let joined := leftJoin db.communityProfiles
    (fun comment => onProfile comment.authorUserId) db.communityComments
  let active := selectWhere (fun row : CommunityComment × Option CommunityProfile =>
    conj (eq (some row.1.postId) (some postId.toUuid)) (isNull row.1.deletedAt)) joined
  let selected := active.map fun row =>
    rowToComment row.1 (coalescedName row.2)
  (ascending (fun comment => oldestFirst comment.createdAt comment.id) selected).take 100

/-! ### The calls -/

def posts (db : CommunityDatabase) : List CommunityPostPayload := selectPosts db

def comments (postId : Text) (db : CommunityDatabase) :
    Except Failure (List CommunityCommentPayload) := do
  let postId ← validateUuid postId "COMMUNITY_POST_ID_INVALID"
  return selectComments postId db

/-! ### What they are meant to show -/

/-- The posts that are not deleted, newest first. -/
def feed (db : CommunityDatabase) : List CommunityPost :=
  ascending (fun post => newestFirst post.createdAt post.id)
    (db.communityPosts.filter fun post => post.deletedAt = none)

/-- The comments of a post that are not deleted, oldest first. -/
def thread (postId : Uuid) (db : CommunityDatabase) : List CommunityComment :=
  ascending (fun comment => oldestFirst comment.createdAt comment.id)
    (db.communityComments.filter fun comment => comment.postId = postId ∧ comment.deletedAt = none)

/-- The name of a user, as it is at the moment. -/
def shownName (userId : Uuid) (db : CommunityDatabase) : String :=
  authorName userId.toUuidText db

def shownPost (db : CommunityDatabase) (post : CommunityPost) : CommunityPostPayload :=
  rowToPost post (shownName post.authorUserId db) (thread post.id db).length

def shownComment (db : CommunityDatabase) (comment : CommunityComment) : CommunityCommentPayload :=
  rowToComment comment (shownName comment.authorUserId db)

/-! ### The queries show it -/

theorem shownName_eq (userId : Uuid) :
    shownName userId db = coalescedName (lookup (·.userId) userId db.communityProfiles) := by
  rw [shownName, authorName, Uuid.toUuid_eq]
  rfl

theorem selected_onComment {post : CommunityPost} {comment : CommunityComment} :
    Selected (onComment post comment) ↔ comment.postId = post.id ∧ comment.deletedAt = none := by
  rw [onComment, selected_conj, selected_eq_some, Option.some_inj, selected_isNull]

theorem selected_onProfile {userId : Uuid} {profile : CommunityProfile} :
    Selected (onProfile userId profile) ↔ profile.userId = userId := by
  rw [onProfile, selected_eq_some, Option.some_inj]

theorem length_thread (postId : Uuid) : (thread postId db).length = (db.communityComments.filter
    fun comment => comment.postId = postId ∧ comment.deletedAt = none).length :=
  (perm_ascending _).length_eq

/-- The rows of a post in the joins. -/
def postRows (db : CommunityDatabase) (post : CommunityPost) : List PostRow :=
  (orNull (selectWhere (onComment post) db.communityComments)).map fun comment =>
    ((post, comment), lookup (·.userId) post.authorUserId db.communityProfiles)

theorem joinedPosts_eq (hnames : UniqueKey CommunityProfile.userId db.communityProfiles) :
    joinedPosts db = db.communityPosts.flatMap (postRows db) := by
  have hnamed : joinedPosts db =
      (leftJoin db.communityComments onComment db.communityPosts).map fun row =>
        (row, lookup (·.userId) row.1.authorUserId db.communityProfiles) :=
    leftJoin_unique hnames fun row profile _ => selected_onProfile
  rw [hnamed, leftJoin, leftJoinLateral, List.map_flatMap]
  apply List.flatMap_congr
  intro post _
  rw [List.map_map]
  rfl

theorem mem_postRows {post : CommunityPost} {row : PostRow} (h : row ∈ postRows db post) :
    row.post = post ∧
      row.profile = lookup (·.userId) post.authorUserId db.communityProfiles := by
  obtain ⟨comment, -, rfl⟩ := List.mem_map.1 h
  exact ⟨rfl, rfl⟩

/-- What is selected of the rows of a post. -/
theorem selectedPost_eq {post : CommunityPost} {row : PostRow} (h : row ∈ postRows db post) :
    selectedPost row (postRows db post) = shownPost db post := by
  obtain ⟨hpost, hprofile⟩ := mem_postRows h
  have hcount : count (fun row : PostRow => row.comment.map (·.id)) (postRows db post) =
      (selectWhere (onComment post) db.communityComments).length := by
    apply count_orNull
    · rfl
    · rintro comment - ⟨⟩
  have hthread : (thread post.id db).length =
      (selectWhere (onComment post) db.communityComments).length := by
    rw [length_thread, selectWhere]
    congr 1
    apply List.filter_congr
    intro comment _
    exact decide_eq_decide.2 selected_onComment.symm
  rw [selectedPost, shownPost, hcount, hthread, hpost, hprofile, shownName_eq]

theorem selectPosts_eq (hposts : UniqueKey CommunityPost.id db.communityPosts)
    (hnames : UniqueKey CommunityProfile.userId db.communityProfiles) :
    selectPosts db = ((feed db).take 50).map (shownPost db) := by
  let kept := db.communityPosts.filter fun post => post.deletedAt = none
  -- A deleted post goes with all its rows.
  have hactive : selectWhere (fun row : PostRow => isNull row.post.deletedAt) (joinedPosts db) =
      kept.flatMap (postRows db) := by
    rw [joinedPosts_eq hnames]
    apply selectWhere_flatMap
    intro post _ row hrow
    rw [(mem_postRows hrow).1, selected_isNull, decide_eq_true_iff]
  -- The rows of a post are a group.
  have hgrouped : groupBy postGroup selectedPost (kept.flatMap (postRows db)) =
      kept.map (shownPost db) := by
    let parentKey (post : CommunityPost) : Uuid × Option String :=
      (post.id, (lookup (·.userId) post.authorUserId db.communityProfiles).map (·.name))
    have hunique : UniqueKey parentKey kept := by
      have hids : (kept.map (·.id)).Nodup := nodup_filter hposts
      apply List.Nodup.of_map Prod.fst
      rwa [List.map_map]
    apply groupBy_flatMap hunique
    · intro post _ row hrow
      obtain ⟨hpost, hprofile⟩ := mem_postRows hrow
      rw [postGroup, hpost, hprofile]
    · intro post _ hnil
      exact orNull_ne_nil _ (List.map_eq_nil_iff.1 hnil)
    · intro post _ row hrow
      exact selectedPost_eq hrow
  rw [selectPosts, hactive, hgrouped, ascending_map, ← List.map_take]
  rfl

theorem selectComments_eq (hnames : UniqueKey CommunityProfile.userId db.communityProfiles)
    (postId : UuidText) :
    selectComments postId db = ((thread postId.toUuid db).take 100).map (shownComment db) := by
  have hjoined : leftJoin db.communityProfiles (fun comment => onProfile comment.authorUserId)
      db.communityComments = db.communityComments.map fun comment =>
        (comment, lookup (·.userId) comment.authorUserId db.communityProfiles) :=
    leftJoin_unique hnames fun comment profile _ => selected_onProfile
  have hactive : selectWhere (fun row : CommunityComment × Option CommunityProfile =>
      conj (eq (some row.1.postId) (some postId.toUuid)) (isNull row.1.deletedAt))
      (db.communityComments.map fun comment =>
        (comment, lookup (·.userId) comment.authorUserId db.communityProfiles)) =
      (db.communityComments.filter fun comment =>
        comment.postId = postId.toUuid ∧ comment.deletedAt = none).map fun comment =>
          (comment, lookup (·.userId) comment.authorUserId db.communityProfiles) := by
    rw [selectWhere, List.filter_map]
    congr 1
    apply List.filter_congr
    intro comment _
    apply decide_eq_decide.2
    rw [selected_conj, selected_eq_some, Option.some_inj, selected_isNull]
  have hshown : ∀ comment : CommunityComment,
      rowToComment comment (coalescedName (lookup (·.userId) comment.authorUserId
        db.communityProfiles)) = shownComment db comment := by
    intro comment
    rw [shownComment, shownName_eq]
  rw [selectComments, hjoined, hactive, List.map_map]
  simp only [Function.comp_def, hshown]
  rw [ascending_map, ← List.map_take]
  rfl

/-! ### Lists in a run -/

/-- What the calls return. -/
structure CommunityLists (db : CommunityDatabase) : Prop where
  posts : posts db = ((feed db).take 50).map (shownPost db)
  comments : ∀ text postId, validateUuid text "COMMUNITY_POST_ID_INVALID" = .ok postId →
    comments text db = .ok (((thread postId.toUuid db).take 100).map (shownComment db))
  /-- The number of comments is the one of the other list, as far as that goes. -/
  counted : ∀ text postId listed, validateUuid text "COMMUNITY_POST_ID_INVALID" = .ok postId →
    Community.comments text db = .ok listed → ∀ post ∈ Community.posts db,
      post.id = postId.toUuid → listed.length = min 100 post.commentCount
  /-- What is not deleted is listed. -/
  listedPost : ∀ post ∈ db.communityPosts, post.deletedAt = none →
    Listed (fun entry => newestFirst entry.createdAt entry.id) 50 (Community.posts db)
      (shownPost db post)
  listedComment : ∀ text postId listed, validateUuid text "COMMUNITY_POST_ID_INVALID" = .ok postId →
    Community.comments text db = .ok listed → ∀ comment ∈ db.communityComments,
      comment.postId = postId.toUuid → comment.deletedAt = none →
        Listed (fun entry => oldestFirst entry.createdAt entry.id) 100 listed (shownComment db comment)

theorem comments_eq (hnames : UniqueKey CommunityProfile.userId db.communityProfiles) {text : Text}
    {postId : UuidText} (htext : validateUuid text "COMMUNITY_POST_ID_INVALID" = .ok postId) :
    comments text db = .ok (((thread postId.toUuid db).take 100).map (shownComment db)) := by
  rw [comments, htext, ← selectComments_eq hnames]
  rfl

theorem communityLists (hready : CommunityReady db)
    (hnames : UniqueKey CommunityProfile.userId db.communityProfiles) : CommunityLists db where
  posts := selectPosts_eq hready.posts hnames
  comments _ _ := comments_eq hnames
  counted := by
    intro text postId listed htext hlisted post hpost hid
    obtain rfl := Except.ok.inj ((comments_eq hnames htext).symm.trans hlisted)
    rw [posts, selectPosts_eq hready.posts hnames] at hpost
    obtain ⟨row, -, rfl⟩ := List.mem_map.1 hpost
    have hrow : row.id = postId.toUuid := hid
    rw [List.length_map, List.length_take, ← hrow]
    rfl
  listedPost := by
    intro post hpost hactive
    rw [posts, selectPosts_eq hready.posts hnames]
    apply listed_take 50
    · have hids : ((db.communityPosts.filter fun post => post.deletedAt = none).map (·.id)).Nodup :=
        nodup_filter hready.posts
      apply List.Nodup.of_map fun key : (Timestamp ×ₗ Uuid)ᵒᵈ => (ofLex (ofDual key)).2
      rwa [List.map_map]
    · exact List.mem_filter.2 ⟨hpost, decide_eq_true hactive⟩
  listedComment := by
    intro text postId listed htext hlisted comment hcomment hpostId hactive
    obtain rfl := Except.ok.inj ((comments_eq hnames htext).symm.trans hlisted)
    apply listed_take 100
    · have hids : ((db.communityComments.filter fun comment =>
          comment.postId = postId.toUuid ∧ comment.deletedAt = none).map (·.id)).Nodup :=
        nodup_filter hready.comments
      apply List.Nodup.of_map fun key : Timestamp ×ₗ Uuid => (ofLex key).2
      rwa [List.map_map]
    · exact List.mem_filter.2 ⟨hcomment, decide_eq_true ⟨hpostId, hactive⟩⟩

/-- **The lists.** In every run the queries show what is meant, and what a call has returned is
listed from then on, until it is deleted. -/
theorem community_lists (hready : CommunityReady start)
    (hrun : Reachable (communitySystem config) anyStep (communityAtRest start) c)
    (hnames : UniqueKey CommunityProfile.userId c.state.committed.communityProfiles) :
    CommunityLists c.state.committed ∧
    (∀ (pid : ℕ) (call : CreatePostCall) input payload, call.accepted = .ok input →
      c.threads[pid]? = some ⟨.createPost call, .done (.post payload)⟩ →
        ∃ post ∈ c.state.committed.communityPosts, ∃ name, payload = rowToPost post name 0 ∧
          (post.deletedAt = none →
            Listed (fun entry => newestFirst entry.createdAt entry.id) 50
              (posts c.state.committed) (shownPost c.state.committed post))) ∧
    ∀ (pid : ℕ) (call : CreateCommentCall) input payload, call.accepted = .ok input →
      c.threads[pid]? = some ⟨.createComment call, .done (.comment payload)⟩ →
        ∃ comment ∈ c.state.committed.communityComments, ∃ name,
          payload = rowToComment comment name ∧ ∃ listed,
            comments call.postId c.state.committed = .ok listed ∧ (comment.deletedAt = none →
              Listed (fun entry => oldestFirst entry.createdAt entry.id) 100 listed
                (shownComment c.state.committed comment)) := by
  have hgood := (sound_community start 0).reachable (good_start hready) hrun
  have hinv : CommunityInvariant start c.state := hgood.invariant
  have hlists := communityLists hinv.ready hnames
  refine ⟨hlists, ?_, ?_⟩
  · intro pid call input payload haccepted hthread
    have hanswered := Logic.Sound.ensures hgood hthread (Nat.zero_le pid)
    obtain ⟨⟨post, hpost, -, name, hpayload⟩, -⟩ := hanswered input haccepted
    exact ⟨post, hpost, name, hpayload, hlists.listedPost post hpost⟩
  · intro pid call input payload haccepted hthread
    have hanswered := Logic.Sound.ensures hgood hthread (Nat.zero_le pid)
    obtain ⟨⟨comment, hcomment, hwants, name, hpayload⟩, -⟩ := hanswered input haccepted
    have htext := (CreateCommentCall.accepted_iff.1 haccepted).2.1
    have hlisted := hlists.comments call.postId input.postId htext
    exact ⟨comment, hcomment, name, hpayload, _, hlisted, fun hactive =>
      hlists.listedComment call.postId input.postId _ htext hlisted comment hcomment hwants.postId
        hactive⟩

/-! A user writes two posts. -/

theorem performs_createPost {w : CommunityState} {call : CreatePostCall} {input : PostInput}
    {pid : ℕ} (haccepted : call.accepted = .ok input)
    (hinsert : insertPost (input.row 0) w.committed = .ok (some (input.row 0), db)) :
    Performs pid (communityCode config (.createPost call)) w
      (.post (rowToPost (input.row 0) (authorName input.userId w.committed) 0))
      (w.write pid db [.posted (input.row 0)]) := by
  have hname : Performs pid (look unwritten (authorName input.userId) : CommunityProg String) w
      (authorName input.userId w.committed) w := performs_evaluate free_none rfl
  have hwritten : Performs pid (autocommit (insertPost (input.row 0))
      fun post => post.toList.map .posted : CommunityProg (Option CommunityPost)) w
      (some (input.row 0)) (w.write pid db [.posted (input.row 0)]) := performs_autocommit hinsert
  have hpost : Performs pid (createPost call) w
      (rowToPost (input.row 0) (authorName input.userId w.committed) 0)
      (w.write pid db [.posted (input.row 0)]) := by
    have hstored : Performs pid (insertOrReplayPost input) w (input.row 0)
        (w.write pid db [.posted (input.row 0)]) := by
      apply (performs_anything (0 : Timestamp)).follow
      apply hwritten.follow
      exact .refl
    rw [createPost_eq, haccepted]
    apply hname.follow
    apply hstored.follow
    exact .refl
  exact Runs.tryCatch (hpost.follow .refl) _

def firstPost : CreatePostCall where
  userId := "50000000-0000-4000-8000-000000000001".toList
  idempotencyKey := "50000000-0000-4000-8000-000000000002".toList
  title := [.char 'h', .char 'i']
  body := [.char 'h', .char 'i']

def firstInput : PostInput where
  id := ⟨firstPost.idempotencyKey, by decide⟩
  userId := ⟨firstPost.userId, by decide⟩
  title := firstPost.title
  body := firstPost.body

/-- Its author has a name in the community. -/
def authorOnly : CommunityDatabase where
  toDatabase := { Database.ofUsers [.visible firstInput.userId.toUuid] with
    communityProfiles := [⟨firstInput.userId.toUuid, "tea"⟩] }
  communityPosts := []
  communityComments := []

/-- The same text again, as a post of its own. -/
def secondPost : CreatePostCall :=
  { firstPost with idempotencyKey := "50000000-0000-4000-8000-000000000003".toList }

def secondInput : PostInput :=
  { firstInput with id := ⟨secondPost.idempotencyKey, by decide⟩ }

/-- Of two posts both are listed. -/
theorem community_lists_first : ∃ c, Reachable (communitySystem ⟨true, true⟩) anyStep
      (communityAtRest authorOnly) c ∧
    CommunityLists c.state.committed ∧
    c.state.committed.communityPosts = [firstInput.row 0, secondInput.row 0] ∧
    ∀ post ∈ c.state.committed.communityPosts,
      Listed (fun entry => newestFirst entry.createdAt entry.id) 50
        (posts c.state.committed) (shownPost c.state.committed post) := by
  have hready : CommunityReady authorOnly :=
    ⟨List.nodup_nil, List.nodup_nil, fun _ hcomment => absurd hcomment List.not_mem_nil⟩
  let w : CommunityState := .ofCommitted authorOnly
  let w₁ : CommunityState :=
    w.write 0 { authorOnly with communityPosts := [firstInput.row 0] } [.posted (firstInput.row 0)]
  have haccepted : firstPost.accepted = .ok firstInput := rfl
  have haccepted' : secondPost.accepted = .ok secondInput := rfl
  have hinsert : insertPost (firstInput.row 0) w.committed =
      .ok (some (firstInput.row 0), w₁.committed) := rfl
  have hinsert' : insertPost (secondInput.row 0) w₁.committed = .ok (some (secondInput.row 0),
      { authorOnly with communityPosts := [firstInput.row 0, secondInput.row 0] }) := rfl
  have hserved : Performs 0 (communityCode ⟨true, true⟩ (.createPost firstPost)) w _ w₁ :=
    performs_createPost haccepted hinsert
  have hserved' : Performs 1 (communityCode ⟨true, true⟩ (.createPost secondPost)) w₁ _ _ :=
    performs_createPost haccepted' hinsert'
  have hone : Reachable (communitySystem ⟨true, true⟩) anyStep (communityAtRest authorOnly)
      ⟨w₁, [⟨.createPost firstPost, .done _⟩]⟩ :=
    Reachable.serve Relation.ReflTransGen.refl trivial trivial hserved
  have htwo : Reachable (communitySystem ⟨true, true⟩) anyStep (communityAtRest authorOnly)
      ⟨_, [⟨.createPost firstPost, .done _⟩, ⟨.createPost secondPost, .done _⟩]⟩ :=
    hone.serve trivial trivial hserved'
  obtain ⟨hlists, -, -⟩ := community_lists hready htwo (List.nodup_singleton _)
  refine ⟨_, htwo, hlists, rfl, fun post hpost => hlists.listedPost post hpost ?_⟩
  rcases List.mem_pair.1 hpost with rfl | rfl
  · rfl
  · rfl

end ChatTea.Community
