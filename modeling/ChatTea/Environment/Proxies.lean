import ChatTea.Environment.Validation

/-!
# The trusted proxies

What is read as the trusted proxies consists of plain characters without blanks, in lower case, and
without the comma that separates the entries. So it is read back as it is written.

## Main definitions

* `Runtime.Lawful` — what addresses look like, and what lower case does
* `IsPlainEntry` — what an entry that is trusted looks like

## Main results

* `isPlainEntry` — an entry that is trusted is plain
* `parseTrustedProxy_text` — the trusted proxies as they are written are read back
-/

namespace ChatTea.Environment

open Auth (isSpace trim)

variable {runtime : Runtime} {text entry : Text}

/-! ### Plain texts -/

/-- Documented behaviour of `isIP` and of `toLowerCase`. -/
structure Runtime.Lawful (runtime : Runtime) : Prop where
  /-- Addresses have digits and letters between dots or colons, with a zone perhaps. -/
  ip_chars : ∀ {address}, runtime.isIP address ≠ 0 →
    ∀ c ∈ address, c.isAlphanum ∨ c ∈ ".:%-".toList
  ip_separator : ∀ {address}, runtime.isIP address ≠ 0 → '.' ∈ address ∨ ':' ∈ address
  lower_not_upper : ∀ text, ∀ c ∈ runtime.toLowerCase text, c.isUpper = false
  lower_ascii : ∀ text, (∀ c ∈ text, c.toNat < 128 ∧ c.isUpper = false) →
    runtime.toLowerCase text = text

/-- The characters of addresses, names and ranges in lower case. -/
def isPlain (c : Char) : Bool := c.isLower || c.isDigit || ".:%-/".toList.contains c

/-- Lower case leaves plain characters as they are. -/
theorem isPlain_ascii {c : Char} (h : isPlain c) : c.toNat < 128 ∧ c.isUpper = false := by
  simp only [isPlain, Bool.or_eq_true, List.contains_iff_mem] at h
  rcases h with (hlower | hdigit) | hsign
  · simp only [Char.isLower, Char.isUpper, Char.toNat, Bool.and_eq_true, decide_eq_true_eq,
      decide_eq_false_iff_not, UInt32.le_iff_toNat_le, ge_iff_le] at hlower ⊢
    have h1 : ('a'.val).toNat = 97 := rfl
    have h2 : ('z'.val).toNat = 122 := rfl
    have h3 : ('Z'.val).toNat = 90 := rfl
    omega
  · simp only [Char.isDigit, Char.isUpper, Char.toNat, Bool.and_eq_true, decide_eq_true_eq,
      decide_eq_false_iff_not, UInt32.le_iff_toNat_le, ge_iff_le] at hdigit ⊢
    have h1 : ('0'.val).toNat = 48 := rfl
    have h2 : ('9'.val).toNat = 57 := rfl
    have h3 : ('A'.val).toNat = 65 := rfl
    omega
  · have hall : ".:%-/".toList.all fun c => c.toNat < 128 ∧ c.isUpper = false := by decide
    simpa using List.all_eq_true.1 hall c hsign

/-- A plain character is no blank. -/
theorem isSpace_of_isPlain {c : Char} (h : isPlain c) : isSpace c = false := by
  by_contra hspace
  rw [Bool.not_eq_false] at hspace
  simp only [isSpace, decide_eq_true_eq] at hspace
  rcases hspace with hmem | hrange
  · have hall : "\t\n\x0b\x0c\r \u00a0\u1680\u2028\u2029\u202f\u205f\u3000\ufeff".toList.all
        fun c => isPlain c = false := by decide
    have hnot := List.all_eq_true.1 hall c hmem
    simp [h] at hnot
  · have hascii := (isPlain_ascii h).1
    omega

/-- A text without blanks is as it is when trimmed. -/
theorem trim_of_isPlain (h : ∀ c ∈ text, isSpace c = false) : trim text = text := by
  have hkept {text : Text} (h : ∀ c ∈ text, isSpace c = false) :
      text.dropWhile isSpace = text := by
    cases text with
    | nil => rfl
    | cons c rest => exact List.dropWhile_cons_of_neg (by simp [h c List.mem_cons_self])
  unfold trim
  rw [hkept h, hkept, List.reverse_reverse]
  intro c hc
  exact h c (List.mem_reverse.1 hc)

/-- Trimming adds no characters. -/
theorem mem_of_mem_trim {c : Char} (h : c ∈ trim text) : c ∈ text := by
  unfold trim at h
  have h' := (List.dropWhile_suffix isSpace).subset (List.mem_reverse.1 h)
  exact (List.dropWhile_suffix isSpace).subset (List.mem_reverse.1 h')

/-! ### Entries -/

/-- A range is its address and the digits behind the last slash. -/
theorem splitLast_eq_some {address digits : Text} (h : splitLast entry = some (address, digits)) :
    entry = address ++ '/' :: digits := by
  unfold splitLast at h
  rw [List.span_eq_takeWhile_dropWhile] at h
  cases hrest : entry.reverse.dropWhile (· ≠ '/') with
  | nil =>
      rw [hrest] at h
      cases h
  | cons slash start =>
      have hslash : slash = '/' := by
        have hnot := List.head_dropWhile_not (fun c : Char => decide (c ≠ '/'))
          (l := entry.reverse) (by rw [hrest]; exact List.cons_ne_nil _ _)
        simp only [hrest, List.head_cons] at hnot
        simpa using hnot
      have hentry := List.takeWhile_append_dropWhile (p := fun c : Char => decide (c ≠ '/'))
        (l := entry.reverse)
      rw [hrest] at h hentry
      generalize entry.reverse.takeWhile (fun c : Char => decide (c ≠ '/')) = suffix at h hentry
      obtain ⟨rfl, rfl⟩ := Prod.mk.inj (Option.some.inj h)
      rw [← List.reverse_reverse entry, ← hentry, hslash]
      simp

/-- What is trusted is a text of plain characters, and not the one that trusts nothing. -/
structure IsPlainEntry (entry : Text) : Prop where
  ne_nil : entry ≠ []
  plain : ∀ c ∈ entry, isPlain c
  ne_false : entry ≠ "false".toList

/-- An address in lower case is plain. -/
theorem isPlain_of_isIP (hlaws : runtime.Lawful) (hip : runtime.isIP text ≠ 0)
    (hupper : ∀ c ∈ text, c.isUpper = false) : ∀ c ∈ text, isPlain c := by
  intro c hc
  simp only [isPlain, Bool.or_eq_true, List.contains_iff_mem]
  rcases hlaws.ip_chars hip c hc with halnum | hsign
  · simp only [Char.isAlphanum, Char.isAlpha, Bool.or_eq_true, hupper c hc] at halnum
    tauto
  · right
    have hall : ".:%-".toList.all fun c => c ∈ ".:%-/".toList := by decide
    simpa using List.all_eq_true.1 hall c hsign

/-- The text that trusts nothing has no separator. -/
theorem ne_false_of_mem {sign : Char} (hsign : sign ∈ ['.', ':', '/']) (hmem : sign ∈ entry) :
    entry ≠ "false".toList := by
  rintro rfl
  have hall : ['.', ':', '/'].all fun sign => sign ∉ "false".toList := by decide
  exact of_decide_eq_true (List.all_eq_true.1 hall sign hsign) hmem

/-- The named ranges are plain. -/
theorem isPlainEntry_of_name (hname : entry ∈ trustProxyNames) : IsPlainEntry entry := by
  have hall : trustProxyNames.all fun name => name ≠ [] ∧ name.all isPlain ∧
      name ≠ "false".toList := by decide
  have hone := List.all_eq_true.1 hall entry hname
  simp only [decide_eq_true_eq] at hone
  exact ⟨hone.1, List.all_eq_true.1 hone.2.1, hone.2.2⟩

/-- An address is a plain entry. -/
theorem isPlainEntry_of_isIP (hlaws : runtime.Lawful) (hip : runtime.isIP entry ≠ 0)
    (hupper : ∀ c ∈ entry, c.isUpper = false) : IsPlainEntry entry := by
  have hplain := isPlain_of_isIP hlaws hip hupper
  rcases hlaws.ip_separator hip with hdot | hcolon
  · exact ⟨List.ne_nil_of_mem hdot, hplain, ne_false_of_mem (by decide) hdot⟩
  · exact ⟨List.ne_nil_of_mem hcolon, hplain, ne_false_of_mem (by decide) hcolon⟩

/-- An address with a prefix length is a plain entry. -/
theorem isPlainEntry_of_range (hlaws : runtime.Lawful) {address digits : Text}
    (hsplit : splitLast entry = some (address, digits)) (hdigits : isDecimal digits)
    (hip : runtime.isIP address ≠ 0) (hupper : ∀ c ∈ entry, c.isUpper = false) :
    IsPlainEntry entry := by
  have hentry := splitLast_eq_some hsplit
  have hslash : '/' ∈ entry := by
    rw [hentry]
    exact List.mem_append_right _ List.mem_cons_self
  refine ⟨List.ne_nil_of_mem hslash, ?_, ne_false_of_mem (by decide) hslash⟩
  have haddress := isPlain_of_isIP hlaws hip fun c hc =>
    hupper c (hentry ▸ List.mem_append_left _ hc)
  intro c hc
  rw [hentry, List.mem_append, List.mem_cons] at hc
  rcases hc with hc | rfl | hc
  · exact haddress c hc
  · decide
  · simp only [isDecimal, decide_eq_true_eq] at hdigits
    have hdigit := List.all_eq_true.1 hdigits.2 c hc
    simp [isPlain, hdigit]

/-- **Trusted entries.** An entry in lower case that is trusted is plain. -/
theorem isPlainEntry (hlaws : runtime.Lawful) (hvalid : isTrustedEntry runtime entry)
    (hupper : ∀ c ∈ entry, c.isUpper = false) : IsPlainEntry entry := by
  unfold isTrustedEntry at hvalid
  split at hvalid
  next hknown =>
    rcases hknown with hname | hip
    · exact isPlainEntry_of_name (List.contains_iff_mem.1 hname)
    · exact isPlainEntry_of_isIP hlaws hip hupper
  next =>
    split at hvalid
    · cases hvalid
    next address digits hsplit =>
      simp only [decide_eq_true_eq] at hvalid
      obtain ⟨-, hdigits, hpositive, hmax⟩ := hvalid
      refine isPlainEntry_of_range hlaws hsplit hdigits ?_ hupper
      -- What is no address has no prefix that is short enough.
      intro hnone
      rw [hnone] at hmax
      have hzero : maxPrefix 0 = 0 := rfl
      omega

/-! ### The trusted proxies are read back -/

section Intercalate

variable {separator c : Char} {parts : List Text}

/-- A joined text consists of separators and of the characters of its parts. -/
theorem mem_intercalate (h : c ∈ [separator].intercalate parts) :
    c = separator ∨ ∃ part ∈ parts, c ∈ part := by
  induction parts with
  | nil => cases h
  | cons part parts ih =>
      cases parts with
      | nil =>
          rw [List.intercalate_singleton] at h
          exact Or.inr ⟨part, List.mem_cons_self, h⟩
      | cons next parts =>
          rw [List.intercalate_cons_cons, List.mem_append, List.mem_append, List.mem_singleton] at h
          rcases h with (hpart | rfl) | hrest
          · exact Or.inr ⟨part, List.mem_cons_self, hpart⟩
          · exact Or.inl rfl
          · rcases ih hrest with rfl | ⟨other, hother, hc⟩
            · exact Or.inl rfl
            · exact Or.inr ⟨other, List.mem_cons_of_mem _ hother, hc⟩

theorem mem_intercalate_of_mem {part : Text} (hpart : part ∈ parts) (hc : c ∈ part) :
    c ∈ [separator].intercalate parts := by
  induction parts with
  | nil => cases hpart
  | cons first parts ih =>
      cases parts with
      | nil =>
          obtain rfl := List.mem_singleton.1 hpart
          rwa [List.intercalate_singleton]
      | cons next parts =>
          rw [List.intercalate_cons_cons, List.mem_append, List.mem_append]
          rcases List.mem_cons.1 hpart with rfl | hrest
          · exact Or.inl (Or.inl hc)
          · exact Or.inr (ih hrest)

end Intercalate

/-- What is read is nothing, or plain entries that are trusted one by one. -/
theorem parseTrustedProxy_entries (hlaws : runtime.Lawful) {value : Option ConfigValue}
    {entries : List Text} (h : parseTrustedProxy runtime value = some (.entries entries)) :
    entries ≠ [] ∧ ∀ entry ∈ entries, isTrustedEntry runtime entry ∧ IsPlainEntry entry := by
  cases value with
  | none => cases h
  | some value =>
      cases value with
      | number _ => cases h
      | boolean _ => cases h
      | other => cases h
      | text value =>
          simp only [parseTrustedProxy] at h
          split at h
          · cases h
          · split at h
            · cases h
            · split at h
              next hall =>
                obtain rfl := TrustedProxy.entries.inj (Option.some.inj h)
                refine ⟨fun hnil => List.splitOn_ne_nil _ _ (List.map_eq_nil_iff.1 hnil), ?_⟩
                intro entry hentry
                have hvalid := List.all_eq_true.1 hall entry hentry
                refine ⟨hvalid, isPlainEntry hlaws hvalid fun c hc => ?_⟩
                -- The character comes from the text that was put in lower case before the split.
                obtain ⟨part, hpart, rfl⟩ := List.mem_map.1 hentry
                have hjoined :
                    c ∈ [','].intercalate ((runtime.toLowerCase (trim value)).splitOn ',') :=
                  mem_intercalate_of_mem hpart (mem_of_mem_trim hc)
                rw [List.intercalate_splitOn] at hjoined
                exact hlaws.lower_not_upper (trim value) c hjoined
              next => cases h

/-- The text that trusts nothing is read as nothing. -/
theorem parseTrustedProxy_false (hlaws : runtime.Lawful) :
    parseTrustedProxy runtime (some (.text "false".toList)) = some .nothing := by
  have hall : "false".toList.all fun c => c.toNat < 128 ∧ c.isUpper = false := by decide
  have hlower : runtime.toLowerCase "false".toList = "false".toList :=
    hlaws.lower_ascii _ fun c hc => of_decide_eq_true (List.all_eq_true.1 hall c hc)
  have htrim : trim "false".toList = "false".toList := by decide
  rw [parseTrustedProxy]
  simp only [htrim, hlower, if_true]

section Joined

variable {entries : List Text}

/-- Plain entries have no comma, so they are found again. -/
theorem splitOn_joined (hne : entries ≠ []) (hentries : ∀ entry ∈ entries, IsPlainEntry entry) :
    ([','].intercalate entries).splitOn ',' = entries := by
  refine List.splitOn_intercalate ',' (fun entry hentry hmem => ?_) hne
  have hplain := (hentries entry hentry).plain ',' hmem
  revert hplain
  decide

/-- Joined entries are plain but for the commas. -/
theorem isPlain_of_mem_joined {c : Char} (hentries : ∀ entry ∈ entries, IsPlainEntry entry)
    (hc : c ∈ [','].intercalate entries) : isPlain c ∨ c = ',' := by
  rcases mem_intercalate hc with rfl | ⟨entry, hentry, hc⟩
  · exact Or.inr rfl
  · exact Or.inl ((hentries entry hentry).plain c hc)

/-- Joined entries have no blanks to be trimmed. -/
theorem trim_joined (hentries : ∀ entry ∈ entries, IsPlainEntry entry) :
    trim ([','].intercalate entries) = [','].intercalate entries := by
  apply trim_of_isPlain
  intro c hc
  rcases isPlain_of_mem_joined hentries hc with hplain | rfl
  · exact isSpace_of_isPlain hplain
  · decide

/-- Joined entries are in lower case. -/
theorem toLowerCase_joined (hlaws : runtime.Lawful)
    (hentries : ∀ entry ∈ entries, IsPlainEntry entry) :
    runtime.toLowerCase ([','].intercalate entries) = [','].intercalate entries := by
  apply hlaws.lower_ascii
  intro c hc
  rcases isPlain_of_mem_joined hentries hc with hplain | rfl
  · exact isPlain_ascii hplain
  · decide

/-- Plain entries have no blanks to be trimmed. -/
theorem map_trim_entries (hentries : ∀ entry ∈ entries, IsPlainEntry entry) :
    entries.map trim = entries := by
  have hid : entries.map trim = entries.map id := by
    apply List.map_congr_left
    intro entry hentry
    apply trim_of_isPlain
    exact fun c hc => isSpace_of_isPlain ((hentries entry hentry).plain c hc)
  rw [hid, List.map_id]

/-- Plain entries that are trusted are read back from the joined text. -/
theorem parseTrustedProxy_joined (hlaws : runtime.Lawful) (hne : entries ≠ [])
    (htrusted : ∀ entry ∈ entries, isTrustedEntry runtime entry)
    (hentries : ∀ entry ∈ entries, IsPlainEntry entry) :
    parseTrustedProxy runtime (some (.text ([','].intercalate entries))) =
      some (.entries entries) := by
  have hsplit := splitOn_joined hne hentries
  -- One entry would be the text that is joined.
  have hnotFalse : [','].intercalate entries ≠ "false".toList := by
    intro hfalse
    have hone : entries = ["false".toList] := by
      rw [← hsplit, hfalse]
      decide
    exact (hentries "false".toList (hone ▸ List.mem_cons_self)).ne_false rfl
  have hnotNil : [','].intercalate entries ≠ [] := by
    intro hnil
    have hone : entries = [[]] := by
      rw [← hsplit, hnil]
      rfl
    exact (hentries [] (hone ▸ List.mem_cons_self)).ne_nil rfl
  have hall : entries.all (isTrustedEntry runtime) := List.all_eq_true.2 htrusted
  rw [parseTrustedProxy]
  simp only [trim_joined hentries, toLowerCase_joined hlaws hentries, hnotFalse, hnotNil, hsplit,
    map_trim_entries hentries, hall, if_true, if_false]

end Joined

/-- What is written is read back. -/
theorem parseTrustedProxy_text (hlaws : runtime.Lawful) {value : Option ConfigValue}
    {proxy : TrustedProxy} (h : parseTrustedProxy runtime value = some proxy) :
    parseTrustedProxy runtime (some (.text (trustedProxyText proxy))) = some proxy := by
  cases proxy with
  | nothing => exact parseTrustedProxy_false hlaws
  | entries entries =>
      obtain ⟨hne, hentries⟩ := parseTrustedProxy_entries hlaws h
      exact parseTrustedProxy_joined hlaws hne (fun entry hentry => (hentries entry hentry).1)
        fun entry hentry => (hentries entry hentry).2

end ChatTea.Environment
