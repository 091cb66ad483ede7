import ChatTea.Users.Repository

/-!
# Registering a push token

The embedding of `NotificationRepository.registerPushToken`. A device of a user has at most one
token, and a token belongs to one device of one user. The rows that a registration concerns are
found by PostgreSQL, which compares identifiers by their values; the code then tells the rows
apart by their texts.

## Main definitions

* `registerPushToken` — the call
* `Concerns` — the row has the token, or is the one of the device
* `TokenRegistered` — the device of the user has the token, and other rows are as before
* `Registers` — registering succeeds, again changes nothing, and is free of the spelling

## Main results

* `registers_iff` — a registration does so exactly when its device is spelled as it is stored, or
  the token is one of another device
-/

namespace ChatTea.Notification

open Table Transaction
open Users (cancelPush deletePushTokens isOpenPush)

structure RegisterPushTokenInput where
  userId : Uuid
  deviceId : UuidText
  token : String
  platform : String

/-! ### The call -/

/-- The rows that the first statement finds and locks. -/
def existingTokens (input : RegisterPushTokenInput) (db : Database) : List PushToken :=
  db.pushTokens.filter fun row =>
    row.token = input.token ∨ row.userId = input.userId ∧ row.deviceId = input.deviceId.toUuid

/-- The code compares the device as text. -/
def findDeviceToken (input : RegisterPushTokenInput) (existing : List PushToken) :
    Option PushToken :=
  existing.find? fun row =>
    row.userId = input.userId ∧ row.deviceId.text = input.deviceId.text

def findRequestedToken (input : RegisterPushTokenInput) (existing : List PushToken) :
    Option PushToken :=
  existing.find? fun row => row.token = input.token

def isInFlightPush (status : PushOutboxStatus) : Bool :=
  status ∈ [.sending, .receiptPending, .receiptChecking]

/-- Cancel the jobs of a push token that are in some states. -/
def cancelJobs (pushTokenId : RowId) (statuses : PushOutboxStatus → Bool) (now : Timestamp)
    (db : Database) : Database :=
  { db with
    pushOutbox := updateWhere (fun row => row.pushTokenId = some pushTokenId ∧ statuses row.status)
      (cancelPush now) db.pushOutbox }

/-- Remove the row that had the token, and cancel its jobs. -/
def dropRequested (requestedToken : Option PushToken) (now : Timestamp) (db : Database) :
    Database :=
  match requestedToken with
  | none => db
  | some requestedToken =>
      deletePushTokens (fun row => row.id = requestedToken.id)
        (cancelJobs requestedToken.id isOpenPush now db)

def setPlatform (id : RowId) (platform : String) (db : Database) : Database :=
  { db with
    pushTokens := updateWhere (fun row => row.id = id) (fun row => { row with platform := platform })
      db.pushTokens }

/-- What is waiting to be sent goes to the new token; what is under way is cancelled. -/
def moveJobs (pushTokenId : RowId) (token : String) (now : Timestamp) (db : Database) : Database :=
  cancelJobs pushTokenId isInFlightPush now
    { db with
      pushOutbox :=
        updateWhere (fun row => row.pushTokenId = some pushTokenId ∧ row.status = .queued)
          (fun row => { row with tokenSnapshot := token }) db.pushOutbox }

def updateToken (id : RowId) (input : RegisterPushTokenInput) (db : Database) :
    Except Failure Database := do
  require (.constraint "push_tokens_token_key")
    (∀ row ∈ db.pushTokens, row.id ≠ id → row.token ≠ input.token)
  return { db with
    pushTokens := updateWhere (fun row => row.id = id)
      (fun row => { row with token := input.token, platform := input.platform }) db.pushTokens }

/-- The row of a registration. -/
def registeredToken (input : RegisterPushTokenInput) (id : RowId) : PushToken where
  id := id
  userId := input.userId
  deviceId := input.deviceId.toUuid
  token := input.token
  platform := input.platform

def insertToken (input : RegisterPushTokenInput) (db : Database) : Except Failure Database := do
  require (.constraint "push_tokens_userId_fkey") (db.hasUser input.userId)
  require (.constraint "push_tokens_token_key")
    (∀ row ∈ db.pushTokens, row.token ≠ input.token)
  require (.constraint "push_tokens_user_device_unique")
    (∀ row ∈ db.pushTokens, ¬ (row.userId = input.userId ∧ row.deviceId = input.deviceId.toUuid))
  return { db with
    pushTokens := db.pushTokens ++ [registeredToken input db.nextRowId]
    nextRowId := db.nextRowId + 1 }

def tokenDeviceConflict : Failure := .error "PUSH_TOKEN_DEVICE_CONFLICT"

def registerPushToken (input : RegisterPushTokenInput) (now : Timestamp) :
    Call Database Failure Unit := fun db => do
  let existing := existingTokens input db
  let requestedToken := findRequestedToken input existing
  throwIf tokenDeviceConflict
    (requestedToken.any fun row => row.deviceId.text ≠ input.deviceId.text)
  match findDeviceToken input existing with
  | some deviceToken =>
      if deviceToken.token = input.token then
        return ((), setPlatform deviceToken.id input.platform db)
      let db := moveJobs deviceToken.id input.token now (dropRequested requestedToken now db)
      let db ← updateToken deviceToken.id input db
      return ((), db)
  | none => do
      let db ← insertToken input (dropRequested requestedToken now db)
      return ((), db)

/-! ### What a registration is for -/

/-- The row has the token, or is the one of the device. -/
def Concerns (input : RegisterPushTokenInput) (row : PushToken) : Prop :=
  row.token = input.token ∨ row.userId = input.userId ∧ row.deviceId = input.deviceId.toUuid

/-- The device of the user has the token and no other, nobody else has the token, and the other
rows are as before. -/
structure TokenRegistered (input : RegisterPushTokenInput) (id : RowId) (before after : Database) :
    Prop where
  stored : registeredToken input id ∈ after.pushTokens
  only : ∀ row ∈ after.pushTokens, row.id = id ∨ Concerns input row → row = registeredToken input id
  /-- A device that had a token keeps its row. -/
  kept : ∀ row ∈ before.pushTokens, row.userId = input.userId →
    row.deviceId = input.deviceId.toUuid → row.id = id
  others : ∀ row, ¬ Concerns input row → (row ∈ after.pushTokens ↔ row ∈ before.pushTokens)

/-- The token is one of another device. -/
def OnOtherDevice (input : RegisterPushTokenInput) (db : Database) : Prop :=
  ∃ row ∈ db.pushTokens, row.token = input.token ∧ row.deviceId ≠ input.deviceId.toUuid

def RegisterPushTokenInput.lower (input : RegisterPushTokenInput) : RegisterPushTokenInput :=
  { input with deviceId := input.deviceId.toUuid.toUuidText }

/-- Registering succeeds unless the token is one of another device, again it changes nothing, and
it does what it does with the device spelled as it is stored. -/
structure Registers (input : RegisterPushTokenInput) (db : Database) : Prop where
  succeeds : ¬ OnOtherDevice input db → ∀ now, ∃ id after,
    registerPushToken input now db = .ok ((), after) ∧ TokenRegistered input id db after
  repeated : ∀ now later after, registerPushToken input now db = .ok ((), after) →
    registerPushToken input later after = .ok ((), after)
  spelled : ∀ now, registerPushToken input now db = registerPushToken input.lower now db

/-- The unique constraints of `push_tokens`, and identifiers that were drawn. -/
structure TokenTable (db : Database) : Prop where
  ids : UniqueKey PushToken.id db.pushTokens
  tokens : UniqueKey PushToken.token db.pushTokens
  devices : UniqueKey (fun row : PushToken => (row.userId, row.deviceId)) db.pushTokens
  drawn : ∀ row ∈ db.pushTokens, row.id < db.nextRowId

variable {input : RegisterPushTokenInput} {now : Timestamp} {db after : Database}
  {row deviceToken requestedToken : PushToken} {id : RowId}

/-! ### The rows that are found -/

/-- The row that has the token. -/
def requestedRow (input : RegisterPushTokenInput) (db : Database) : Option PushToken :=
  db.pushTokens.find? fun row => row.token = input.token

/-- The row of the device. -/
def deviceRow (input : RegisterPushTokenInput) (db : Database) : Option PushToken :=
  db.pushTokens.find? fun row =>
    row.userId = input.userId ∧ row.deviceId = input.deviceId.toUuid

theorem find_existing {cond : PushToken → Bool} (hcond : ∀ row, cond row → Concerns input row) :
    (existingTokens input db).find? cond = db.pushTokens.find? cond := by
  unfold existingTokens
  rw [List.find?_filter]
  congr 1
  funext row
  by_cases hrow : cond row = true
  · have hconcerns : Concerns input row := hcond row hrow
    unfold Concerns at hconcerns
    simp [hrow, hconcerns]
  · simp [hrow]

theorem findRequestedToken_eq :
    findRequestedToken input (existingTokens input db) = requestedRow input db := by
  apply find_existing
  intro row hrow
  exact Or.inl (of_decide_eq_true hrow)

theorem text_eq_iff (hcanonical : input.deviceId.Canonical) (deviceId : Uuid) :
    deviceId.text = input.deviceId.text ↔ deviceId = input.deviceId.toUuid := by
  rw [← UuidText.canonical_iff.1 hcanonical]
  exact ⟨Uuid.ext, congrArg fun id : Uuid => id.text⟩

/-- A spelling that is not the stored one is the text of no device. -/
theorem text_ne (hcanonical : ¬ input.deviceId.Canonical) (deviceId : Uuid) :
    deviceId.text ≠ input.deviceId.text := by
  intro hsame
  apply hcanonical
  unfold UuidText.Canonical
  rw [← hsame]
  exact deviceId.lowerCase

theorem findDeviceToken_eq (hcanonical : input.deviceId.Canonical) :
    findDeviceToken input (existingTokens input db) = deviceRow input db := by
  have hcond : (fun row : PushToken => decide (row.userId = input.userId ∧
      row.deviceId.text = input.deviceId.text)) = fun row : PushToken =>
        decide (row.userId = input.userId ∧ row.deviceId = input.deviceId.toUuid) := by
    funext row
    simp only [text_eq_iff hcanonical]
  unfold findDeviceToken
  rw [hcond]
  apply find_existing
  intro row hrow
  exact Or.inr (of_decide_eq_true hrow)

theorem requestedRow_spec (h : requestedRow input db = some row) :
    row ∈ db.pushTokens ∧ row.token = input.token :=
  ⟨List.mem_of_find?_eq_some h, by simpa using List.find?_some h⟩

theorem deviceRow_spec (h : deviceRow input db = some row) :
    row ∈ db.pushTokens ∧ row.userId = input.userId ∧ row.deviceId = input.deviceId.toUuid :=
  ⟨List.mem_of_find?_eq_some h, by simpa using List.find?_some h⟩

namespace TokenTable

variable (h : TokenTable db)

include h

theorem requestedRow_eq (hrow : row ∈ db.pushTokens) (htoken : row.token = input.token) :
    requestedRow input db = some row := by
  cases hfind : requestedRow input db with
  | none => exact absurd (decide_eq_true htoken) (List.find?_eq_none.1 hfind row hrow)
  | some found =>
      obtain ⟨hfound, htoken'⟩ := requestedRow_spec hfind
      rw [h.tokens.eq_of_key hfound hrow (htoken'.trans htoken.symm)]

theorem deviceRow_eq (hrow : row ∈ db.pushTokens) (huser : row.userId = input.userId)
    (hdevice : row.deviceId = input.deviceId.toUuid) : deviceRow input db = some row := by
  cases hfind : deviceRow input db with
  | none => exact absurd (decide_eq_true ⟨huser, hdevice⟩) (List.find?_eq_none.1 hfind row hrow)
  | some found =>
      obtain ⟨hfound, huser', hdevice'⟩ := deviceRow_spec hfind
      rw [h.devices.eq_of_key hfound hrow
        (Prod.ext (huser'.trans huser.symm) (hdevice'.trans hdevice.symm))]

/-- A registration concerns at most two rows. -/
theorem concerns_iff (hrow : row ∈ db.pushTokens) :
    Concerns input row ↔ requestedRow input db = some row ∨ deviceRow input db = some row := by
  constructor
  · rintro (htoken | ⟨huser, hdevice⟩)
    · exact Or.inl (h.requestedRow_eq hrow htoken)
    · exact Or.inr (h.deviceRow_eq hrow huser hdevice)
  · rintro (hfind | hfind)
    · exact Or.inl (requestedRow_spec hfind).2
    · exact Or.inr (deviceRow_spec hfind).2

theorem mem_dropRequested {requested : Option PushToken}
    (hrequested : ∀ found ∈ requested, found ∈ db.pushTokens) :
    row ∈ (dropRequested requested now db).pushTokens ↔
      row ∈ db.pushTokens ∧ requested ≠ some row := by
  cases requested with
  | none => simp [dropRequested]
  | some found =>
      have hfound := hrequested found rfl
      have hid (hrow : row ∈ db.pushTokens) : row.id = found.id ↔ some found = some row := by
        constructor
        · intro hsame
          rw [h.ids.eq_of_key hrow hfound hsame]
        · intro hsame
          rw [Option.some.inj hsame]
      change row ∈ db.pushTokens.filter (fun row => ¬ decide (row.id = found.id) = true) ↔ _
      rw [List.mem_filter]
      apply and_congr_right
      intro hrow
      simp [← hid hrow]

end TokenTable

/-! ### What is stored -/

/-- The row of the registration takes the place of those it concerns. -/
theorem TokenRegistered.of_mem
    (hafter : ∀ row, row ∈ after.pushTokens ↔
      row = registeredToken input id ∨ row ∈ db.pushTokens ∧ ¬ Concerns input row)
    (hid : ∀ row ∈ db.pushTokens, row.id = id → Concerns input row)
    (hkept : ∀ row, deviceRow input db = some row → row.id = id) (h : TokenTable db) :
    TokenRegistered input id db after where
  stored := (hafter _).2 (Or.inl rfl)
  only row hrow hcond := by
    rcases (hafter row).1 hrow with hsame | ⟨hold, hother⟩
    · exact hsame
    · rcases hcond with hsame | hconcerns
      · exact absurd (hid row hold hsame) hother
      · exact absurd hconcerns hother
  kept row hrow huser hdevice := hkept row (h.deviceRow_eq hrow huser hdevice)
  others row hother := by
    rw [hafter]
    constructor
    · rintro (rfl | ⟨hrow, -⟩)
      · exact absurd (Or.inl rfl) hother
      · exact hrow
    · intro hrow
      exact Or.inr ⟨hrow, hother⟩

/-- An update of the one row of the device, next to rows that the registration does not concern. -/
theorem mem_update (set : PushToken → PushToken) (hnew : deviceToken ∈ db.pushTokens)
    (hset : set deviceToken = registeredToken input deviceToken.id) {rows : List PushToken}
    (hrows : ∀ row, row ∈ rows ↔ row ∈ db.pushTokens ∧ (row = deviceToken ∨ ¬ Concerns input row))
    (hconcerns : Concerns input deviceToken) (h : TokenTable db) (row : PushToken) :
    row ∈ updateWhere (fun row => row.id = deviceToken.id) set rows ↔
      row = registeredToken input deviceToken.id ∨ row ∈ db.pushTokens ∧ ¬ Concerns input row := by
  rw [mem_updateWhere]
  constructor
  · rintro (⟨old, hold, hid, rfl⟩ | ⟨hrow, hid⟩)
    · rw [h.ids.eq_of_key ((hrows old).1 hold).1 hnew (of_decide_eq_true hid), hset]
      exact Or.inl rfl
    · obtain ⟨hold, rfl | hother⟩ := (hrows row).1 hrow
      · exact absurd (decide_eq_true rfl) hid
      · exact Or.inr ⟨hold, hother⟩
  · rintro (rfl | ⟨hrow, hother⟩)
    · exact Or.inl ⟨deviceToken, (hrows _).2 ⟨hnew, Or.inl rfl⟩, decide_eq_true rfl, hset⟩
    · refine Or.inr ⟨(hrows row).2 ⟨hrow, Or.inr hother⟩, fun hid => hother ?_⟩
      rw [h.ids.eq_of_key hrow hnew (of_decide_eq_true hid)]
      exact hconcerns

/-- The same token again only sets the platform. -/
theorem setPlatform_registers (h : TokenTable db) (hdevice : deviceRow input db = some deviceToken)
    (htoken : deviceToken.token = input.token) :
    TokenRegistered input deviceToken.id db (setPlatform deviceToken.id input.platform db) := by
  obtain ⟨hmem, huser, hid⟩ := deviceRow_spec hdevice
  have hrequested : requestedRow input db = some deviceToken := h.requestedRow_eq hmem htoken
  have hset : { deviceToken with platform := input.platform } =
      registeredToken input deviceToken.id := by
    rw [registeredToken, ← huser, ← hid, ← htoken]
  have hrows (row : PushToken) : row ∈ db.pushTokens ↔
      row ∈ db.pushTokens ∧ (row = deviceToken ∨ ¬ Concerns input row) := by
    constructor
    · intro hrow
      refine ⟨hrow, ?_⟩
      by_cases hsame : row = deviceToken
      · exact Or.inl hsame
      · rw [h.concerns_iff hrow, hrequested, hdevice, or_self, Option.some_inj]
        exact Or.inr fun hother => hsame hother.symm
    · exact And.left
  apply TokenRegistered.of_mem (mem_update _ hmem hset hrows (Or.inl htoken) h) _ _ h
  · intro row hrow hsame
    rw [h.ids.eq_of_key hrow hmem hsame]
    exact Or.inl htoken
  · intro row hrow
    rw [Option.some.inj (hrow.symm.trans hdevice)]

/-- A device that had another token gets the new one, and nobody else keeps it. -/
theorem updateToken_registers (now : Timestamp) (h : TokenTable db)
    (hdevice : deviceRow input db = some deviceToken) (htoken : deviceToken.token ≠ input.token) :
    ∃ after, updateToken deviceToken.id input (moveJobs deviceToken.id input.token now
        (dropRequested (requestedRow input db) now db)) = .ok after ∧
      TokenRegistered input deviceToken.id db after := by
  obtain ⟨hmem, huser, hid⟩ := deviceRow_spec hdevice
  have hrequested : requestedRow input db ≠ some deviceToken := fun hsame =>
    htoken (requestedRow_spec hsame).2
  have hset : { deviceToken with token := input.token, platform := input.platform } =
      registeredToken input deviceToken.id := by
    rw [registeredToken, ← huser, ← hid]
  -- What is left beside the row of the device concerns neither the token nor the device.
  have hrows (row : PushToken) : row ∈ (moveJobs deviceToken.id input.token now
      (dropRequested (requestedRow input db) now db)).pushTokens ↔
      row ∈ db.pushTokens ∧ (row = deviceToken ∨ ¬ Concerns input row) := by
    change row ∈ (dropRequested (requestedRow input db) now db).pushTokens ↔ _
    rw [h.mem_dropRequested fun found hfound => (requestedRow_spec hfound).1]
    apply and_congr_right
    intro hrow
    rw [h.concerns_iff hrow, hdevice, Option.some_inj]
    constructor
    · intro hne
      by_cases hsame : row = deviceToken
      · exact Or.inl hsame
      · exact Or.inr (not_or.2 ⟨hne, fun hother => hsame hother.symm⟩)
    · rintro (rfl | hother)
      · exact hrequested
      · exact fun hsame => hother (Or.inl hsame)
  let cleared := moveJobs deviceToken.id input.token now
    (dropRequested (requestedRow input db) now db)
  let set : PushToken → PushToken := fun row =>
    { row with token := input.token, platform := input.platform }
  refine ⟨{ cleared with
    pushTokens := updateWhere (fun row => row.id = deviceToken.id) set cleared.pushTokens }, ?_,
    TokenRegistered.of_mem
      (mem_update set hmem hset hrows (Or.inr ⟨huser, hid⟩) h) ?_ ?_ h⟩
  · unfold updateToken
    rw [require_of]
    · rfl
    · intro row hrow hne hsame
      obtain ⟨-, rfl | hother⟩ := (hrows row).1 hrow
      · exact hne rfl
      · exact hother (Or.inl hsame)
  · intro row hrow hsame
    rw [h.ids.eq_of_key hrow hmem hsame]
    exact Or.inr ⟨huser, hid⟩
  · intro row hrow
    rw [Option.some.inj (hrow.symm.trans hdevice)]

/-- A device that had no token gets a row, and the token moves there. -/
theorem insertToken_registers (now : Timestamp) (h : TokenTable db) (huser : db.hasUser input.userId)
    (hdevice : deviceRow input db = none) :
    ∃ after, insertToken input (dropRequested (requestedRow input db) now db) = .ok after ∧
      TokenRegistered input db.nextRowId db after := by
  -- Without a row of the device, dropping the one of the token leaves what concerns neither.
  have hdropped (row : PushToken) :
      row ∈ (dropRequested (requestedRow input db) now db).pushTokens ↔
        row ∈ db.pushTokens ∧ ¬ Concerns input row := by
    rw [h.mem_dropRequested fun found hfound => (requestedRow_spec hfound).1]
    apply and_congr_right
    intro hrow
    rw [h.concerns_iff hrow, hdevice]
    simp
  have hnext : (dropRequested (requestedRow input db) now db).nextRowId = db.nextRowId := by
    cases requestedRow input db <;> rfl
  have hhas : (dropRequested (requestedRow input db) now db).hasUser input.userId := by
    cases requestedRow input db <;> exact huser
  let dropped := dropRequested (requestedRow input db) now db
  refine ⟨{ dropped with
    pushTokens := dropped.pushTokens ++ [registeredToken input db.nextRowId]
    nextRowId := db.nextRowId + 1 }, ?_, TokenRegistered.of_mem ?_ ?_ ?_ h⟩
  · unfold insertToken
    rw [require_of hhas, require_of, require_of, hnext]
    · rfl
    · exact fun row hrow hboth => ((hdropped row).1 hrow).2 (Or.inr hboth)
    · exact fun row hrow hsame => ((hdropped row).1 hrow).2 (Or.inl hsame)
  · intro row
    rw [List.mem_append, List.mem_singleton, hdropped]
    exact or_comm
  · intro row hrow hsame
    exact absurd hsame (h.drawn row hrow).ne
  · intro row hrow
    rw [hdevice] at hrow
    cases hrow

/-! ### The call -/

theorem conflict_iff (h : TokenTable db) (hcanonical : input.deviceId.Canonical) :
    ((requestedRow input db).any fun row => row.deviceId.text ≠ input.deviceId.text) = true ↔
      OnOtherDevice input db := by
  constructor
  · intro hconflict
    cases hrow : requestedRow input db with
    | none =>
        rw [hrow] at hconflict
        cases hconflict
    | some row =>
        rw [hrow, Option.any_some] at hconflict
        obtain ⟨hmem, htoken⟩ := requestedRow_spec hrow
        have hdevice : row.deviceId ≠ input.deviceId.toUuid := fun hsame =>
          of_decide_eq_true hconflict ((text_eq_iff hcanonical row.deviceId).2 hsame)
        exact ⟨row, hmem, htoken, hdevice⟩
  · rintro ⟨row, hmem, htoken, hdevice⟩
    rw [h.requestedRow_eq hmem htoken, Option.any_some]
    exact decide_eq_true fun hsame => hdevice ((text_eq_iff hcanonical row.deviceId).1 hsame)

/-- A row with the token whose device has another text is a conflict. -/
theorem registerPushToken_conflict (hrequested : requestedRow input db = some row)
    (hdevice : row.deviceId.text ≠ input.deviceId.text) :
    registerPushToken input now db = .error tokenDeviceConflict := by
  unfold registerPushToken
  dsimp only
  rw [findRequestedToken_eq, hrequested, Option.any_some, throwIf,
    if_pos (decide_eq_true hdevice)]
  rfl

/-- The token of another device is refused in every spelling. -/
theorem TokenTable.refused (h : TokenTable db) (hother : OnOtherDevice input db) :
    registerPushToken input now db = .error tokenDeviceConflict := by
  obtain ⟨row, hrow, htoken, hdevice⟩ := hother
  apply registerPushToken_conflict (h.requestedRow_eq hrow htoken)
  intro hsame
  apply hdevice
  -- The text of a stored device is its own lower case.
  have hstored : row.deviceId.toUuidText = input.deviceId := UuidText.ext hsame
  rw [← hstored, Uuid.toUuid_eq]

theorem TokenTable.registers (h : TokenTable db) (now : Timestamp)
    (huser : db.hasUser input.userId) (hcanonical : input.deviceId.Canonical)
    (hother : ¬ OnOtherDevice input db) :
    ∃ id after, registerPushToken input now db = .ok ((), after) ∧
      TokenRegistered input id db after := by
  unfold registerPushToken
  dsimp only
  rw [findRequestedToken_eq, findDeviceToken_eq hcanonical,
    throwIf_of_not ((conflict_iff h hcanonical).not.2 hother)]
  cases hdevice : deviceRow input db with
  | none =>
      obtain ⟨after, hinsert, hregistered⟩ := insertToken_registers now h huser hdevice
      refine ⟨_, after, ?_, hregistered⟩
      dsimp only [bind, Except.bind]
      rw [hinsert]
      rfl
  | some deviceToken =>
      by_cases htoken : deviceToken.token = input.token
      · refine ⟨_, _, ?_, setPlatform_registers h hdevice htoken⟩
        dsimp only [bind, Except.bind]
        rw [if_pos htoken]
        rfl
      · obtain ⟨after, hupdate, hregistered⟩ := updateToken_registers now h hdevice htoken
        refine ⟨_, after, ?_, hregistered⟩
        dsimp only [bind, Except.bind]
        rw [if_neg htoken, hupdate]
        rfl

namespace TokenRegistered

variable (h : TokenRegistered input id db after)

include h

theorem requestedRow_eq : requestedRow input after = some (registeredToken input id) := by
  cases hfind : requestedRow input after with
  | none => exact absurd (decide_eq_true rfl) (List.find?_eq_none.1 hfind _ h.stored)
  | some found =>
      obtain ⟨hfound, htoken⟩ := requestedRow_spec hfind
      rw [h.only found hfound (Or.inr (Or.inl htoken))]

theorem deviceRow_eq : deviceRow input after = some (registeredToken input id) := by
  cases hfind : deviceRow input after with
  | none => exact absurd (decide_eq_true ⟨rfl, rfl⟩) (List.find?_eq_none.1 hfind _ h.stored)
  | some found =>
      obtain ⟨hfound, hdevice⟩ := deviceRow_spec hfind
      rw [h.only found hfound (Or.inr (Or.inr hdevice))]

/-- Registering what is registered changes nothing. -/
theorem again (hcanonical : input.deviceId.Canonical) :
    registerPushToken input now after = .ok ((), after) := by
  unfold registerPushToken
  dsimp only
  rw [findRequestedToken_eq, findDeviceToken_eq hcanonical, h.requestedRow_eq, h.deviceRow_eq,
    throwIf_of_not]
  · have hsame : setPlatform id input.platform after = after := by
      unfold setPlatform
      rw [updateWhere_of_fixed]
      intro row hrow hid
      rw [h.only row hrow (Or.inl (of_decide_eq_true hid))]
      rfl
    dsimp only [bind, Except.bind, registeredToken]
    rw [if_pos rfl, hsame]
    rfl
  · rw [Option.any_some, decide_eq_true_iff, not_not]
    exact (text_eq_iff hcanonical _).2 rfl

/-- Registering it in another spelling fails. -/
theorem again_spelled (hcanonical : ¬ input.deviceId.Canonical) :
    registerPushToken input now after = .error tokenDeviceConflict :=
  registerPushToken_conflict h.requestedRow_eq (text_ne hcanonical _)

end TokenRegistered

/-- **Push registration.** A registration succeeds unless the token is one of another device,
again changes nothing, and does not depend on the spelling of its device, exactly when its device
is spelled as it is stored or the token is one of another device. -/
theorem registers_iff (h : TokenTable db) (huser : db.hasUser input.userId) :
    Registers input db ↔ input.deviceId.Canonical ∨ OnOtherDevice input db := by
  have hlower : input.lower.deviceId.Canonical := input.deviceId.toUuid.lowerCase
  have hother : OnOtherDevice input.lower db ↔ OnOtherDevice input db := by
    unfold OnOtherDevice RegisterPushTokenInput.lower
    rw [Uuid.toUuid_eq]
  constructor
  · intro hregisters
    by_contra hspelled
    obtain ⟨hcanonical, hnotOther⟩ := not_or.1 hspelled
    -- Accepted, the token is stored, and the next call compares the two spellings.
    obtain ⟨id, after, hcall, hregistered⟩ := hregisters.succeeds hnotOther 0
    have hagain := hregisters.repeated 0 0 after hcall
    rw [hregistered.again_spelled hcanonical] at hagain
    cases hagain
  · rintro (hcanonical | hconflict)
    · have hself : input.lower = input := by
        unfold RegisterPushTokenInput.lower
        rw [show input.deviceId.toUuid.toUuidText = input.deviceId from UuidText.ext hcanonical]
      constructor
      · intro hnotOther now
        exact h.registers now huser hcanonical hnotOther
      · intro now later after hcall
        by_cases hconflict : OnOtherDevice input db
        · rw [h.refused hconflict] at hcall
          cases hcall
        · obtain ⟨id, stored, hstored, hregistered⟩ :=
            h.registers now huser hcanonical hconflict
          obtain rfl : stored = after := by
            rw [hstored] at hcall
            exact congrArg Prod.snd (Except.ok.inj hcall)
          exact hregistered.again hcanonical
      · intro now
        rw [hself]
    · constructor
      · intro hnotOther
        exact absurd hconflict hnotOther
      · intro now later after hcall
        rw [h.refused hconflict] at hcall
        cases hcall
      · intro now
        rw [h.refused hconflict, h.refused (hother.2 hconflict)]

/-! ### A device in upper case -/

/-- A device with a letter in upper case. -/
def upperDevice : UuidText where
  text := "C0000000-0000-4000-8000-00000000000D".toList
  wellFormed := by decide

def phoneOwner : Uuid where
  text := "a0000000-0000-4000-8000-000000000001".toList
  wellFormed := by decide
  lowerCase := by decide

def noTokens : Database := .ofUsers [.visible phoneOwner]

def phoneRegistration (deviceId : UuidText) : RegisterPushTokenInput where
  userId := phoneOwner
  deviceId := deviceId
  token := "ExponentPushToken[phone]"
  platform := "ios"

theorem tokenTable_noTokens : TokenTable noTokens where
  ids := List.nodup_nil
  tokens := List.nodup_nil
  devices := List.nodup_nil
  drawn _ hrow := nomatch hrow

/-- The device is registered under a token that its phone has dropped. -/
def droppedToken : Database :=
  { noTokens with
    pushTokens := [⟨0, phoneOwner, upperDevice.toUuid, "ExponentPushToken[dropped]", "ios"⟩]
    nextRowId := 1 }

theorem tokenTable_droppedToken : TokenTable droppedToken where
  ids := List.nodup_singleton _
  tokens := List.nodup_singleton _
  devices := List.nodup_singleton _
  drawn row hrow := by
    rw [List.mem_singleton.1 hrow]
    exact Nat.one_pos

/-- A phone that spells its device as it is stored has its row updated to the new token. -/
theorem registers_iff_lower :
    Registers (phoneRegistration upperDevice.toUuid.toUuidText) droppedToken :=
  (registers_iff tokenTable_droppedToken (by decide)).2 (Or.inl upperDevice.toUuid.lowerCase)

/-- A phone that spells its device in upper case registers once, and not again. -/
theorem registration_repeated_fails :
    TokenTable noTokens ∧ ¬ Registers (phoneRegistration upperDevice) noTokens := by
  apply And.intro tokenTable_noTokens
  intro hregisters
  have hother : ¬ OnOtherDevice (phoneRegistration upperDevice) noTokens := by
    rintro ⟨row, hrow, -⟩
    cases hrow
  obtain ⟨id, after, hcall, hregistered⟩ := hregisters.succeeds hother 0
  have hagain := hregisters.repeated 0 0 after hcall
  have hspelled : ¬ (phoneRegistration upperDevice).deviceId.Canonical := by
    unfold UuidText.Canonical
    decide
  rw [hregistered.again_spelled hspelled] at hagain
  cases hagain

end ChatTea.Notification
