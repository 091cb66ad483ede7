import Mathlib.Data.Char
import Mathlib.Data.List.Lex
import Mathlib.Order.Basic

/-!
# Identifiers as the clients spell them and as PostgreSQL stores them

A `uuid` column stores 128 bits and always prints them in lower case, while a
client may send the hexadecimal digits in either case. The code compares both
spellings: PostgreSQL compares the stored value, JavaScript the text it has in
hand. `UuidText` is the text a client sends, `Uuid` the value a column holds
(identified with the text it prints as).

## Main definitions

* `isUuidText` — the 8-4-4-4-12 hexadecimal form
* `UuidText` — an accepted spelling of an identifier
* `Uuid` — a stored identifier, spelled in lower case
* `UuidText.toUuid` — what PostgreSQL stores for a spelling
* `UuidText.Canonical` — the spelling is the stored one
-/

namespace ChatTea

/-- Text whose characters the code compares or cuts. -/
abbrev Text := List Char

namespace Text

/-- Lower-casing, as PostgreSQL prints the digits of a `uuid`. -/
def lower (text : Text) : Text := text.map Char.toLower

end Text

/-- The hexadecimal digits in either case. -/
def hexDigits : List Char := "0123456789abcdefABCDEF".toList

/-- The character a `uuid` may have at a position of its 8-4-4-4-12 form. -/
def isUuidChar (c : Char) (position : ℕ) : Bool :=
  if position ∈ [8, 13, 18, 23] then c = '-' else c ∈ hexDigits

/-- The 8-4-4-4-12 hexadecimal form, in either case. -/
def isUuidText (text : Text) : Bool :=
  text.length == 36 && text.zipIdx.all fun (c, position) => isUuidChar c position

/-- Lower-casing a hexadecimal digit gives one that is in lower case. -/
theorem toLower_hexDigit {c : Char} (h : c ∈ hexDigits) :
    c.toLower ∈ hexDigits ∧ c.toLower.toLower = c.toLower := by
  have hall : hexDigits.all fun digit =>
      digit.toLower ∈ hexDigits ∧ digit.toLower.toLower = digit.toLower := by decide
  simpa using List.all_eq_true.1 hall c h

theorem isUuidChar_toLower {c : Char} {position : ℕ} (h : isUuidChar c position) :
    isUuidChar c.toLower position ∧ c.toLower.toLower = c.toLower := by
  unfold isUuidChar at *
  split at h <;> rename_i hposition
  · obtain rfl : c = '-' := by simpa using h
    simp only [hposition, if_true]
    decide
  · simp only [hposition, if_false, decide_eq_true_eq] at h ⊢
    exact toLower_hexDigit h

theorem isUuidText_iff {text : Text} :
    isUuidText text ↔
      text.length = 36 ∧ ∀ c position, (c, position) ∈ text.zipIdx → isUuidChar c position := by
  simp [isUuidText]

namespace Text

theorem isUuidText_lower {text : Text} (h : isUuidText text) : isUuidText text.lower := by
  rw [isUuidText_iff] at h ⊢
  refine ⟨by simpa [lower] using h.1, fun c position hc => ?_⟩
  simp only [lower, List.zipIdx_map, List.mem_map, Prod.exists, Prod.map] at hc
  obtain ⟨c', position', hmem, heq⟩ := hc
  obtain ⟨rfl, rfl⟩ := Prod.mk.inj heq
  exact (isUuidChar_toLower (h.2 _ _ hmem)).1

theorem lower_lower_of_isUuidText {text : Text} (h : isUuidText text) :
    text.lower.lower = text.lower := by
  unfold lower
  rw [List.map_map]
  refine List.map_congr_left fun c hc => ?_
  obtain ⟨position, hposition⟩ := List.mem_iff_getElem?.1 hc
  have hchar := (isUuidText_iff.1 h).2 c position (List.mk_mem_zipIdx_iff_getElem?.2 hposition)
  exact (isUuidChar_toLower hchar).2

end Text

/-- A spelling of an identifier that PostgreSQL accepts for a `uuid` column. -/
@[ext]
structure UuidText where
  text : Text
  wellFormed : isUuidText text
deriving DecidableEq

/-- A stored identifier: the one spelling of its value that PostgreSQL returns. -/
@[ext]
structure Uuid extends UuidText where
  lowerCase : text.lower = text
deriving DecidableEq

namespace UuidText

theorem length_text (spelled : UuidText) : spelled.text.length = 36 :=
  (isUuidText_iff.1 spelled.wellFormed).1

/-- The value PostgreSQL stores for a spelling. -/
def toUuid (spelled : UuidText) : Uuid where
  text := spelled.text.lower
  wellFormed := Text.isUuidText_lower spelled.wellFormed
  lowerCase := Text.lower_lower_of_isUuidText spelled.wellFormed

/-- The spelling PostgreSQL would return: lower case. -/
def Canonical (spelled : UuidText) : Prop := spelled.text.lower = spelled.text

instance (spelled : UuidText) : Decidable spelled.Canonical :=
  inferInstanceAs (Decidable (_ = _))

theorem canonical_iff {spelled : UuidText} : spelled.Canonical ↔ spelled.toUuid.text = spelled.text :=
  Iff.rfl

end UuidText

namespace Uuid

theorem text_injective : Function.Injective fun id : Uuid => id.text := by
  intro a b h
  exact Uuid.ext h

/-- Identifiers in the order of their texts, which is how `<` compares them. -/
instance : LinearOrder Uuid := LinearOrder.lift' (fun id : Uuid => id.text) text_injective

theorem toUuid_eq (id : Uuid) : id.toUuidText.toUuid = id := Uuid.ext id.lowerCase

/-- The text of an identifier is the one of a spelling that is in lower case. -/
theorem text_eq_iff {stored : Uuid} {spelled : UuidText} :
    stored.text = spelled.text ↔ stored = spelled.toUuid ∧ spelled.Canonical := by
  constructor
  · intro h
    have hspelled : stored.toUuidText = spelled := UuidText.ext h
    subst hspelled
    exact ⟨(toUuid_eq stored).symm, stored.lowerCase⟩
  · rintro ⟨rfl, hcanonical⟩
    exact hcanonical

end Uuid

example : isUuidText "A0000000-0000-4000-8000-00000000000f".toList := by decide

end ChatTea
