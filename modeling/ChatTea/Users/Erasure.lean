import ChatTea.Users.Repository

/-!
# What an erasure leaves of a person

`anonymizeDeletedAccount` keeps the row of the account and removes what it says
about the person. This file collects what the rows with the identifier of a user
say about the person, in every table that has a column for it, and compares the
collections before and after an erasure. One table is left out by the erasure:
the Kakao phone-verification tokens, which hold the Kakao identifier and the
e-mail of the account they were issued for, used or not.

## Main definitions

* `PersonalDatum` — a phone number, an e-mail address, a hash or a token
* `personalData` — what the rows of a user hold

## Main results

* `mem_personalData_anonymized` — what is left after an erasure
* `erasure_complete_iff` — nothing is left exactly if there is no Kakao token
-/

namespace ChatTea.Users

open Table Transaction

inductive PersonalDatum where
  | phone (number : String)
  | email (address : String)
  | kakaoUserId (providerUserId : String)
  | passwordHash (hash : String)
  | refreshTokenHash (hash : String)
  | pushToken (token : String)
deriving DecidableEq, Repr

/-- The row of an account. An empty password is no hash. -/
def accountData (user : User) : List PersonalDatum :=
  .email user.email :: user.phone.toList.map .phone ++
    if user.password = "" then [] else [.passwordHash user.password]

/-- A Kakao phone-verification token. -/
def kakaoTokenData (row : KakaoPhoneVerificationToken) : List PersonalDatum :=
  .kakaoUserId row.providerUserId :: row.email.toList.map .email

/-- A push carries the identifier of a user through its notification or its token. -/
def isPushOf (userId : Uuid) (db : Database) (push : PushOutbox) : Bool :=
  (db.notifications.any fun row => row.userId = userId ∧ push.notificationId = row.id) ∨
    db.pushTokens.any fun token => token.userId = userId ∧ push.pushTokenId = some token.id

/-- What the rows with the identifier of a user say about the person. -/
def personalData (userId : Uuid) (db : Database) : List PersonalDatum :=
  (db.users.filter fun user => user.userId = userId).flatMap accountData ++
    (db.authIdentities.filter fun row => row.userId = userId).map (.kakaoUserId ·.providerUserId) ++
    (db.kakaoPhoneVerificationTokens.filter fun row => row.userId = some userId).flatMap
      kakaoTokenData ++
    (db.refreshTokens.filter fun row => row.userId = userId).map (.refreshTokenHash ·.refreshToken) ++
    (db.pushTokens.filter fun token => token.userId = userId).map (.pushToken ·.token) ++
    (db.pushOutbox.filter (isPushOf userId db)).map (.pushToken ·.tokenSnapshot)

variable {input : DeletionJobInput} {matchRooms : List RowId} {before after : Database}
  {done : Unit} {datum : PersonalDatum}

/-- The anonymized row of an account says nothing but its placeholder. -/
theorem accountData_anonymized (now : Timestamp) (user : User) :
    accountData (anonymizeColumns now user) = [.email (deletedEmail user.userId)] := rfl

/-- What an erasure leaves in the tables with personal data. -/
structure Erased (userId : Uuid) (before after : Database) : Prop where
  accounts : (after.users.filter fun user => user.userId = userId).flatMap accountData =
    (before.users.filter fun user => user.userId = userId).map fun _ => .email (deletedEmail userId)
  identities : ∀ row ∈ after.authIdentities, row.userId ≠ userId
  kakaoTokens : after.kakaoPhoneVerificationTokens = before.kakaoPhoneVerificationTokens
  sessions : ∀ row ∈ after.refreshTokens, row.userId ≠ userId
  pushTokens : ∀ token ∈ after.pushTokens, token.userId ≠ userId
  notifications : ∀ row ∈ after.notifications, row.userId ≠ userId

theorem accounts_anonymized (now : Timestamp) (userId : Uuid) (users : List User) :
    ((updateWhere (fun user => user.userId = userId) (anonymizeColumns now) users).filter
        fun user => user.userId = userId).flatMap accountData =
      (users.filter fun user => user.userId = userId).map
        fun _ => .email (deletedEmail userId) := by
  induction users with
  | nil => rfl
  | cons user users ih =>
      simp only [updateWhere, decide_eq_true_eq] at ih ⊢
      by_cases hid : user.userId = userId
      · have hkept : (anonymizeColumns now user).userId = userId := hid
        simp [hid, hkept, ih, accountData_anonymized]
      · simp [hid, ih]

theorem erased_of_writeAnonymized
    (h : writeAnonymized input matchRooms before = .ok (done, after)) :
    Erased input.userId before after := by
  simp only [writeAnonymized, bind_eq_ok_iff, require_eq_ok_iff, pure_eq_ok_iff, exists_const,
    Upload.writeUploads_eq_ok_iff] at h
  obtain ⟨written, ⟨-, rfl⟩, -, hafter⟩ := h
  obtain ⟨-, rfl⟩ := Prod.mk.inj hafter
  refine ⟨accounts_anonymized _ _ _, ?_, rfl, ?_, ?_, ?_⟩ <;>
    exact fun row hrow => by simpa using (List.mem_filter.1 hrow).2

/-- What an erasure leaves: the placeholder, and what Kakao tokens say. -/
theorem Erased.personalData_eq {userId : Uuid} (h : Erased userId before after) :
    personalData userId after =
      (before.users.filter fun user => user.userId = userId).map
          (fun _ => .email (deletedEmail userId)) ++
        (before.kakaoPhoneVerificationTokens.filter fun row =>
          row.userId = some userId).flatMap kakaoTokenData := by
  have hidentities : after.authIdentities.filter (fun row => row.userId = userId) = [] :=
    List.filter_eq_nil_iff.2 (by simpa using h.identities)
  have hsessions : after.refreshTokens.filter (fun row => row.userId = userId) = [] :=
    List.filter_eq_nil_iff.2 (by simpa using h.sessions)
  have htokens : after.pushTokens.filter (fun token => token.userId = userId) = [] :=
    List.filter_eq_nil_iff.2 (by simpa using h.pushTokens)
  have hpushes : after.pushOutbox.filter (isPushOf userId after) = [] := by
    apply List.filter_eq_nil_iff.2
    intro push _ hpush
    simp only [isPushOf, Bool.decide_or, Bool.or_eq_true, List.any_eq_true,
      decide_eq_true_eq] at hpush
    rcases hpush with ⟨row, hrow, howner, -⟩ | ⟨token, htoken, howner, -⟩
    · exact h.notifications row hrow howner
    · exact h.pushTokens token htoken howner
  rw [personalData, h.accounts, hidentities, h.kakaoTokens, hsessions, htokens, hpushes]
  simp

/-- **Erasure.** After an erasure no row with the identifier of the user holds what
such a row held before, exactly if no Kakao token was issued for the account and
its e-mail was not the placeholder already. -/
theorem erasure_complete_iff (h : writeAnonymized input matchRooms before = .ok (done, after)) :
    (∀ datum ∈ personalData input.userId before, datum ∉ personalData input.userId after) ↔
      (∀ row ∈ before.kakaoPhoneVerificationTokens, row.userId ≠ some input.userId) ∧
        ∀ user ∈ before.users, user.userId = input.userId →
          user.email ≠ deletedEmail input.userId := by
  have hleft := (erased_of_writeAnonymized h).personalData_eq
  constructor
  · intro herased
    constructor
    · intro row hrow howner
      have hkakao : .kakaoUserId row.providerUserId ∈
          (before.kakaoPhoneVerificationTokens.filter fun row =>
            row.userId = some input.userId).flatMap kakaoTokenData :=
        List.mem_flatMap.2 ⟨row, List.mem_filter.2 ⟨hrow, by simpa using howner⟩, by
          simp [kakaoTokenData]⟩
      apply herased (.kakaoUserId row.providerUserId)
      · simp only [personalData, List.mem_append]
        tauto
      · rw [hleft]
        exact List.mem_append_right _ hkakao
    · intro user huser howner hemail
      have hmem : user ∈ before.users.filter fun user => user.userId = input.userId :=
        List.mem_filter.2 ⟨huser, by simpa using howner⟩
      apply herased (.email (deletedEmail input.userId))
      · have haccount : .email (deletedEmail input.userId) ∈
            (before.users.filter fun user => user.userId = input.userId).flatMap accountData :=
          List.mem_flatMap.2 ⟨user, hmem, by simp [accountData, hemail]⟩
        simp only [personalData, List.mem_append]
        tauto
      · rw [hleft]
        exact List.mem_append_left _ (List.mem_map.2 ⟨user, hmem, rfl⟩)
  · rintro ⟨hkakao, hemail⟩ datum hbefore hafter
    have hnone : before.kakaoPhoneVerificationTokens.filter
        (fun row => row.userId = some input.userId) = [] :=
      List.filter_eq_nil_iff.2 (by simpa using hkakao)
    rw [hleft, hnone, List.flatMap_nil, List.append_nil] at hafter
    -- Only the placeholder is left, and no row had it before.
    obtain ⟨-, -, rfl⟩ := List.mem_map.1 hafter
    rw [personalData, hnone] at hbefore
    simp only [List.flatMap_nil, List.append_nil, List.mem_append, List.mem_map,
      reduceCtorEq, and_false, exists_false, or_false] at hbefore
    obtain ⟨user, huser, haccount⟩ := List.mem_flatMap.1 hbefore
    obtain ⟨hmem, howner⟩ := List.mem_filter.1 huser
    apply hemail user hmem (by simpa using howner)
    simp only [accountData] at haccount
    split at haccount <;> simpa [eq_comm] using haccount

/-! ### An account that signed in with Kakao -/

def departing : UuidText where
  text := "c0000000-0000-4000-8000-000000000001".toList
  wellFormed := rfl

/-- The worker erases the account at 10, under a lease until 20. -/
def departure : DeletionJobInput where
  userId := departing.toUuid
  deletionLeaseExpiresAt := 20
  now := 10

/-- The account is due, and signs in with Kakao. -/
def departingDatabase (kakaoTokens : List KakaoPhoneVerificationToken) : Database :=
  { Database.ofUsers [{ User.visible departing.toUuid with
      hiddenAt := some 0
      deletionScheduledAt := some 5
      deletionLeaseExpiresAt := some 20 }] with
    authIdentities := [⟨departing.toUuid, "kakao", "kakao-1"⟩]
    kakaoPhoneVerificationTokens := kakaoTokens }

/-- A token that was used at a sign-in of the account. -/
def usedKakaoToken : KakaoPhoneVerificationToken where
  tokenHash := "hash"
  userId := some departing.toUuid
  providerUserId := "kakao-1"
  email := some "user@example.test"
  expiresAt := 1
  usedAt := some 0

theorem erasure_complete_without_token :
    ∃ after, writeAnonymized departure [] (departingDatabase []) = .ok ((), after) ∧
      ((∀ datum ∈ personalData departing.toUuid (departingDatabase []),
          datum ∉ personalData departing.toUuid after) ↔
        (∀ row ∈ (departingDatabase []).kakaoPhoneVerificationTokens,
            row.userId ≠ some departing.toUuid) ∧
          ∀ user ∈ (departingDatabase []).users, user.userId = departing.toUuid →
            user.email ≠ deletedEmail departing.toUuid) := by
  have hcall : writeAnonymized departure [] (departingDatabase []) = .ok ((), _) := rfl
  exact ⟨_, hcall, erasure_complete_iff hcall⟩

/-- The Kakao identifier and the e-mail survive the erasure. -/
theorem kakao_token_survives :
    (departingDatabase [usedKakaoToken]).users.any (canAnonymize departure) = true ∧
    ∃ after, writeAnonymized departure [] (departingDatabase [usedKakaoToken]) = .ok ((), after) ∧
      .kakaoUserId "kakao-1" ∈ personalData departing.toUuid (departingDatabase [usedKakaoToken]) ∧
      .kakaoUserId "kakao-1" ∈ personalData departing.toUuid after ∧
      .email "user@example.test" ∈
        personalData departing.toUuid (departingDatabase [usedKakaoToken]) ∧
      .email "user@example.test" ∈ personalData departing.toUuid after := by
  refine ⟨by decide, _, rfl, ?_, ?_, ?_, ?_⟩ <;> decide

end ChatTea.Users
