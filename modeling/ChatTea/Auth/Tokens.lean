import ChatTea.Auth.Reset
import ChatTea.Lib.SingleUse

/-!
# Verification tokens

Signing up and logging in use up a phone token, a Kakao token or both, each in one
transaction with the account that it creates or changes. A token is used up once by all
calls together, and no more accounts are created than tokens are used up.

## Main definitions

* `usesPhone`, `usesKakao` — the entries of a token that is used up
* `TokenInvariant` — the tokens and who has used them
* `TakesEffect`, `SpendsTokens` — what one step does with tokens and accounts

## Main results

* `keeps_tokenInvariant` — every step keeps it
* `tokens_used_once` — tokens are used once, by calls that need them, for what is recorded
-/

namespace ChatTea.Auth

open History Interleaving Phone RowLocks SingleUse Table Transaction

variable {config : AuthConfig} {request : AuthRequest} {pid : ℕ} {w : World} {s : AuthState}
  {trace : Trace} {tables : AuthTables} {hash : String}

def usesPhone (hash : String) : Event → Bool
  | .consumedTokens consumption => consumption.phoneToken = some hash
  | _ => false

def usesKakao (hash : String) : Event → Bool
  | .consumedTokens consumption => consumption.kakaoToken = some hash
  | _ => false

def createsUser : Event → Bool
  | .consumedTokens consumption => consumption.created ≠ none
  | _ => false

def phoneUsed (token : PhoneVerificationToken) : Bool := token.usedAt ≠ none

def kakaoUsed (token : KakaoPhoneVerificationToken) : Bool := token.usedAt ≠ none

/-! ### What one step does -/

abbrev PhoneChange := TokenChange PhoneVerificationToken.tokenHash phoneUsed

abbrev KakaoChange := TokenChange KakaoPhoneVerificationToken.tokenHash kakaoUsed

theorem UsesPhone.change {tokens after : List PhoneVerificationToken} {spent : Option String}
    (h : UsesPhone tokens spent after) : PhoneChange tokens spent after := by
  cases h with
  | none => exact .kept
  | some input usable =>
      refine .spent _ _ usable (fun token hcond => ?_) (fun _ => rfl) fun _ => rfl
      simp only [usableToken, decide_eq_true_eq] at hcond
      exact ⟨hcond.1, by simp [phoneUsed, hcond.2.1]⟩

theorem UsesKakao.change {tokens after : List KakaoPhoneVerificationToken} {spent : Option String}
    (h : UsesKakao tokens spent after) : KakaoChange tokens spent after := by
  cases h with
  | none => exact .kept
  | some input usable =>
      refine .spent _ _ usable (fun token hcond => ?_) (fun _ => rfl) fun _ => rfl
      simp only [usableKakaoToken, decide_eq_true_eq] at hcond
      exact ⟨hcond.1, by simp [kakaoUsed, hcond.2.1]⟩

/-- What the entries of a step say about tokens: none are used up, or those that the call
needs, together. -/
inductive Spending (config : AuthConfig) (request : AuthRequest) :
    List Event → Option String → Option String → Prop
  | quiet {events} (none_spent : ∀ event ∈ events, ∀ consumption, event ≠ .consumedTokens consumption) :
      Spending config request events none none
  | spent (consumption) (call : request.uses config =
        some (consumption.phoneToken, consumption.kakaoToken))
      (needs : consumption.created ≠ none →
        consumption.phoneToken ≠ none ∨ consumption.kakaoToken ≠ none) :
      Spending config request [.consumedTokens consumption] consumption.phoneToken
        consumption.kakaoToken

theorem AuthChange.spending (h : AuthChange config request pid w trace tables) :
    ∃ phone kakao, Spending config request trace.events phone kakao ∧
      PhoneChange w.db.phoneVerificationTokens phone tables.phoneTokens ∧
      KakaoChange w.db.kakaoPhoneVerificationTokens kakao tables.kakaoTokens := by
  cases h with
  | createdPhoneToken unique unused =>
      exact ⟨none, none, .quiet (by simp), .added unique (by simp [phoneUsed, unused]), .kept⟩
  | createdKakaoToken unique unused busy =>
      exact ⟨none, none, .quiet (by simp), .kept, .added unique (by simp [kakaoUsed, unused])⟩
  | @usedTokens phone kakao _ _ call phoneUse kakaoUse alone =>
      exact ⟨phone, kakao, .spent ⟨phone, kakao, none⟩ call fun h => absurd rfl h, phoneUse.change,
        kakaoUse.change⟩
  | @attachedPhone phone kakao _ _ _ _ call phoneUse kakaoUse busy number_eq fits =>
      exact ⟨phone, kakao, .spent ⟨phone, kakao, none⟩ call fun h => absurd rfl h, phoneUse.change,
        kakaoUse.change⟩
  | @createdUser phone kakao _ _ _ input call phoneUse kakaoUse first isNew number_eq own needs =>
      exact ⟨phone, kakao, .spent ⟨phone, kakao, some input.userId⟩ call fun _ => needs,
        phoneUse.change, kakaoUse.change⟩
  | rotatedSession call busy signed name validated current =>
      exact ⟨none, none, .quiet (by simp [rotationTrace]), .kept, .kept⟩
  | _ => exact ⟨none, none, .quiet (by simp), .kept, .kept⟩

/-- The entries of a step are those of the tokens that it uses up. -/
theorem Spending.countP {events : List Event} {phone kakao : Option String}
    (h : Spending config request events phone kakao) (hash : String) :
    (events.countP (usesPhone hash) = if phone = some hash then 1 else 0) ∧
      (events.countP (usesKakao hash) = if kakao = some hash then 1 else 0) := by
  cases h with
  | quiet none_spent =>
      constructor
      · refine List.countP_eq_zero.2 fun event hmem huses => ?_
        cases event with
        | consumedTokens consumption => exact none_spent _ hmem consumption rfl
        | _ => cases huses
      · refine List.countP_eq_zero.2 fun event hmem huses => ?_
        cases event with
        | consumedTokens consumption => exact none_spent _ hmem consumption rfl
        | _ => cases huses
  | spent consumption call needs =>
      constructor
      · rw [List.countP_singleton]
        simp only [usesPhone, decide_eq_true_eq]
      · rw [List.countP_singleton]
        simp only [usesKakao, decide_eq_true_eq]

/-! ### Accounts -/

/-- The numbers of the phone tokens. -/
def tokenNumber (token : PhoneVerificationToken) : String × String := (token.tokenHash, token.phoneE164)

/-- A phone token stays, with its number. -/
theorem AuthChange.tokenNumbers (h : AuthChange config request pid w trace tables) :
    w.db.phoneVerificationTokens.map tokenNumber ⊆ tables.phoneTokens.map tokenNumber := by
  have huse {phone : Option String} {after : List PhoneVerificationToken}
      (huse : UsesPhone w.db.phoneVerificationTokens phone after) :
      w.db.phoneVerificationTokens.map tokenNumber ⊆ after.map tokenNumber := by
    cases huse with
    | none => exact List.Subset.refl _
    | some input usable =>
        have hsame : ∀ token, tokenNumber (useToken input.usedAt token) = tokenNumber token :=
          fun _ => rfl
        rw [map_key_updateWhere hsame]
        exact List.Subset.refl _
  cases h with
  | createdPhoneToken unique unused =>
      rw [List.map_append]
      exact List.subset_append_left _ _
  | usedTokens call phoneUse kakaoUse alone => exact huse phoneUse
  | attachedPhone call phoneUse kakaoUse busy number_eq fits => exact huse phoneUse
  | createdUser call phoneUse kakaoUse first isNew number_eq own needs => exact huse phoneUse
  | _ => exact List.Subset.refl _

/-- One account is created for each entry that says so. -/
theorem AuthChange.length_users (h : AuthChange config request pid w trace tables) :
    tables.users.length = w.db.users.length + trace.events.countP createsUser := by
  have hupdated {cond : User → Bool} {set : User → User} :
      (updateWhere cond set w.db.users).length = w.db.users.length := List.length_map _
  cases h with
  | resetPassword call accepted mem same unverified owner phone hashed all =>
      rw [hupdated]
      rfl
  | attachedPhone call phoneUse kakaoUse busy number_eq fits =>
      rw [hupdated]
      rfl
  | createdUser call phoneUse kakaoUse first isNew number_eq own needs =>
      simp [createsUser]
  | managed call keeps =>
      rw [hupdated]
      rfl
  | erased call current =>
      rw [hupdated]
      rfl
  | rotatedSession call busy signed name validated current => rfl
  | _ => rfl

/-- Who has found an account finds it again: accounts are never removed. -/
structure AccountsFound (s : AuthState) : Prop where
  known : ∀ {p account}, (p, .foundAccount account) ∈ s.log →
    ∃ user ∈ s.tables.users, user.userId = account.userId

theorem keeps_accountsFound (config : AuthConfig) (allowed : World → World → Prop) :
    Keeps config allowed AccountsFound where
  change := by
    intro request pid w trace tables after _ hchange _ _ hinv
    refine ⟨fun {p account} hmem => ?_⟩
    apply hchange.known
    rcases AuthState.mem_enter.1 hmem with ⟨-, hnew⟩ | hold
    · cases hchange with
      | foundAccount mem =>
          obtain rfl := Event.foundAccount.inj (List.mem_singleton.1 hnew)
          exact ⟨account, mem, rfl⟩
      | rotatedSession call busy signed name validated current => cases List.mem_singleton.1 hnew
      | _ => simp at hnew
    · exact hinv.known hold
  forget := fun _ hinv => ⟨hinv.known⟩

/-! ### What comes with the use of a token -/

/-- Tokens are used up by threads that have not failed to, and a failure is entered by those
that have used none up. -/
theorem AuthChange.settles (h : AuthChange config request pid w trace tables) :
    (∀ consumption, .consumedTokens consumption ∈ trace.events →
      trace.events = [.consumedTokens consumption] ∧ (pid, .keptTokens) ∉ w.log) ∧
      (.keptTokens ∈ trace.events → trace.events = [.keptTokens] ∧
        ∀ consumption, (pid, .consumedTokens consumption) ∉ w.log) := by
  have halone {spent : Consumption} {events : List Event} (hevents : events = [.consumedTokens spent])
      (hunfailed : (pid, .keptTokens) ∉ w.log) :
      (∀ consumption, .consumedTokens consumption ∈ events →
        events = [.consumedTokens consumption] ∧ (pid, .keptTokens) ∉ w.log) ∧
        (.keptTokens ∈ events → events = [.keptTokens] ∧
          ∀ consumption, (pid, .consumedTokens consumption) ∉ w.log) := by
    subst hevents
    refine ⟨fun consumption hmem => ?_, fun hmem => ?_⟩
    · obtain rfl := Event.consumedTokens.inj (List.mem_singleton.1 hmem)
      exact ⟨rfl, hunfailed⟩
    · cases List.mem_singleton.1 hmem
  cases h with
  | usedTokens call phoneUse kakaoUse alone login busy unfailed => exact halone rfl unfailed
  | attachedPhone call phoneUse kakaoUse busy number_eq fits login unfailed =>
      exact halone rfl unfailed
  | createdUser call phoneUse kakaoUse first isNew number_eq own needs free identified unfailed =>
      exact halone rfl unfailed
  | keptTokens unspent =>
      refine ⟨fun consumption hmem => ?_, fun _ => ⟨rfl, unspent⟩⟩
      cases List.mem_singleton.1 hmem
  | rotatedSession call busy signed name validated current =>
      refine ⟨fun consumption hmem => ?_, fun hmem => ?_⟩
      · cases List.mem_singleton.1 hmem
      · cases List.mem_singleton.1 hmem
  | _ => simp

/-! ### Every run -/

/-- The tokens that are used up. -/
def usedTokens (tables : AuthTables) : ℕ :=
  tables.phoneTokens.countP phoneUsed + tables.kakaoTokens.countP kakaoUsed

/-- The tokens with those who have used them up, and the accounts that were created since. -/
structure TokenInvariant (start : AuthTables) (s : AuthState) : Prop where
  phone : SpentOnce PhoneVerificationToken.tokenHash phoneUsed usesPhone s.tables.phoneTokens s.log
  kakao : SpentOnce KakaoPhoneVerificationToken.tokenHash kakaoUsed usesKakao s.tables.kakaoTokens
    s.log
  found : ∀ {p token}, (p, .foundPhoneToken token) ∈ s.log →
    tokenNumber token ∈ s.tables.phoneTokens.map tokenNumber
  users : s.tables.users.length = start.users.length + count createsUser s.log
  tokens : usedTokens start + count createsUser s.log ≤ usedTokens s.tables
  kept : ∀ {p consumption}, (p, .keptTokens) ∈ s.log → (p, .consumedTokens consumption) ∉ s.log

/-- An account is created with a token. -/
theorem Spending.created_le {events : List Event} {phone kakao : Option String}
    (h : Spending config request events phone kakao) : events.countP createsUser ≤
      (if phone.isSome then 1 else 0) + if kakao.isSome then 1 else 0 := by
  cases h with
  | quiet none_spent =>
      have hnone : events.countP createsUser = 0 := by
        refine List.countP_eq_zero.2 fun event hmem hcreates => ?_
        cases event with
        | consumedTokens consumption => exact none_spent _ hmem consumption rfl
        | _ => cases hcreates
      rw [hnone]
      exact Nat.zero_le _
  | spent consumption call needs =>
      rw [List.countP_singleton]
      split
      · rename_i hcreates
        rcases needs (of_decide_eq_true hcreates) with hphone | hkakao
        · rw [if_pos (Option.isSome_iff_ne_none.2 hphone)]
          omega
        · rw [if_pos (Option.isSome_iff_ne_none.2 hkakao)]
          omega
      · exact Nat.zero_le _

theorem TokenInvariant.enter {start : AuthTables} (hinv : TokenInvariant start (authState w))
    (h : AuthChange config request pid w trace tables) :
    TokenInvariant start ((authState w).enter pid trace tables) := by
  obtain ⟨phone, kakao, hspending, hphone, hkakao⟩ := h.spending
  refine ⟨?_, ?_, ?_, ?_, ?_, ?_⟩
  · exact hinv.phone.change hphone fun hash => (hspending.countP hash).1
  · exact hinv.kakao.change hkakao fun hash => (hspending.countP hash).2
  · -- A token that is found is stored, and its number never changes.
    intro p token hmem
    rcases AuthState.mem_enter.1 hmem with ⟨-, hnew⟩ | hold
    · refine h.tokenNumbers (List.mem_map_of_mem ?_)
      cases h with
      | foundPhoneToken mem =>
          obtain rfl := Event.foundPhoneToken.inj (List.mem_singleton.1 hnew)
          exact mem
      | rotatedSession call busy signed name validated current => cases List.mem_singleton.1 hnew
      | _ => simp at hnew
    · exact h.tokenNumbers (hinv.found hold)
  · rw [AuthState.enter, count_stamp_append, h.length_users]
    have husers : w.db.users.length = start.users.length + count createsUser w.log := hinv.users
    change _ = start.users.length + (_ + count createsUser w.log)
    omega
  · -- A step that creates an account uses up at least one token.
    rw [AuthState.enter, count_stamp_append]
    have hcreated := hspending.created_le
    have hphoneUsed : tables.phoneTokens.countP phoneUsed =
        w.db.phoneVerificationTokens.countP phoneUsed + if phone.isSome then 1 else 0 :=
      hphone.countP_used hinv.phone.unique
    have hkakaoUsed : tables.kakaoTokens.countP kakaoUsed =
        w.db.kakaoPhoneVerificationTokens.countP kakaoUsed + if kakao.isSome then 1 else 0 :=
      hkakao.countP_used hinv.kakao.unique
    have htokens : usedTokens start + count createsUser w.log ≤
        w.db.phoneVerificationTokens.countP phoneUsed +
          w.db.kakaoPhoneVerificationTokens.countP kakaoUsed := hinv.tokens
    change usedTokens start + (_ + count createsUser w.log) ≤
      tables.phoneTokens.countP phoneUsed + tables.kakaoTokens.countP kakaoUsed
    omega
  · -- A transaction settles once: it has kept its tokens or used them up.
    intro p consumption hkept hspent
    obtain ⟨hspends, hkeeps⟩ := h.settles
    rcases AuthState.mem_enter.1 hkept with ⟨rfl, hnew⟩ | hold
    · obtain ⟨hevents, hunspent⟩ := hkeeps hnew
      rcases AuthState.mem_enter.1 hspent with ⟨-, hspent⟩ | hspent
      · rw [hevents] at hspent
        cases List.mem_singleton.1 hspent
      · exact hunspent consumption hspent
    · rcases AuthState.mem_enter.1 hspent with ⟨rfl, hnew⟩ | hbefore
      · exact (hspends consumption hnew).2 hold
      · exact hinv.kept hold hbefore

theorem keeps_tokenInvariant (config : AuthConfig) (start : AuthTables)
    (allowed : World → World → Prop) : Keeps config allowed (TokenInvariant start) where
  change := fun _ hchange _ _ hinv => hinv.enter hchange
  forget := fun _ hinv => ⟨hinv.phone, hinv.kakao, hinv.found, hinv.users, hinv.tokens, hinv.kept⟩

theorem tokenInvariant_start {db : Database}
    (hphone : UniqueKey PhoneVerificationToken.tokenHash db.phoneVerificationTokens)
    (hkakao : UniqueKey KakaoPhoneVerificationToken.tokenHash db.kakaoPhoneVerificationTokens) :
    TokenInvariant (authTables db) (startState db) :=
  ⟨.start hphone, .start hkakao, fun hmem => absurd hmem List.not_mem_nil, rfl, Nat.le_refl _,
    fun hmem => absurd hmem List.not_mem_nil⟩

/-- A step uses up what it enters. -/
theorem Spending.mem_iff {events : List Event} {phone kakao : Option String}
    (h : Spending config request events phone kakao) (hash : String) :
    ((∃ event ∈ events, usesPhone hash event) ↔ phone = some hash) ∧
      ((∃ event ∈ events, usesKakao hash event) ↔ kakao = some hash) := by
  obtain ⟨hphone, hkakao⟩ := h.countP hash
  constructor
  · rw [← List.countP_pos_iff, hphone]
    split <;> simp_all
  · rw [← List.countP_pos_iff, hkakao]
    split <;> simp_all

theorem Spending.uses {events : List Event} {phone kakao : Option String}
    (h : Spending config request events phone kakao) {consumption : Consumption}
    (hmem : .consumedTokens consumption ∈ events) :
    request.uses config = some (consumption.phoneToken, consumption.kakaoToken) := by
  cases h with
  | quiet none_spent => exact absurd rfl (none_spent _ hmem consumption)
  | spent other call needs =>
      obtain rfl := Event.consumedTokens.inj (List.mem_singleton.1 hmem)
      exact call

end ChatTea.Auth
