import Mathlib.Data.List.GetD
import Mathlib.Data.Nat.Notation
import Mathlib.Tactic.Cases

/-!
# Base64url without padding

Three bytes become four characters, so what a text starts with is decided by what the
bytes start with.

## Main definitions

* `Base64Url.encode` — the encoding

## Main results

* `encode_append` — the encoding of whole groups stands in front of the rest
* `length_encode` — four characters for each whole group
-/

namespace Base64Url

def alphabet : List Char :=
  "ABCDEFGHIJKLMNOPQRSTUVWXYZabcdefghijklmnopqrstuvwxyz0123456789-_".toList

/-- The character of six bits. -/
def digit (sextet : ℕ) : Char := alphabet.getD (sextet % 64) 'A'

def group (a b c : ℕ) : List Char :=
  [digit (a / 4), digit (a * 16 + b / 16), digit (b * 4 + c / 64), digit c]

def encode : List UInt8 → List Char
  | a :: b :: c :: rest => group a.toNat b.toNat c.toNat ++ encode rest
  | [a, b] => (group a.toNat b.toNat 0).take 3
  | [a] => (group a.toNat 0 0).take 2
  | [] => []

variable {groups : ℕ} {bytes : List UInt8}

/-- The encoding of whole groups stands in front of the encoding of the rest. -/
theorem encode_append (hbytes : bytes.length = 3 * groups) (rest : List UInt8) :
    encode (bytes ++ rest) = encode bytes ++ encode rest := by
  induction groups generalizing bytes with
  | zero =>
      obtain rfl := List.eq_nil_of_length_eq_zero hbytes
      rfl
  | succ groups ih =>
      match bytes, hbytes with
      | a :: b :: c :: bytes, hbytes =>
          have htail : bytes.length = 3 * groups := by
            simp only [List.length_cons] at hbytes
            omega
          simp only [List.cons_append, encode, ih htail, List.append_assoc]

theorem length_encode (hbytes : bytes.length = 3 * groups) :
    (encode bytes).length = 4 * groups := by
  induction groups generalizing bytes with
  | zero =>
      obtain rfl := List.eq_nil_of_length_eq_zero hbytes
      rfl
  | succ groups ih =>
      match bytes, hbytes with
      | a :: b :: c :: bytes, hbytes =>
          have htail : bytes.length = 3 * groups := by
            simp only [List.length_cons] at hbytes
            omega
          simp only [encode, List.length_append, group, List.length_cons, List.length_nil, ih htail]
          omega

/-- Every character is one of the alphabet. -/
theorem mem_alphabet_of_mem_encode {c : Char} (h : c ∈ encode bytes) : c ∈ alphabet := by
  have hdigit (sextet : ℕ) : digit sextet ∈ alphabet := by
    have hlt : sextet % 64 < alphabet.length := Nat.mod_lt _ (by decide)
    rw [digit, List.getD_eq_getElem _ _ hlt]
    exact List.getElem_mem hlt
  have hgroup {a b c : ℕ} {char : Char} (hchar : char ∈ group a b c) : char ∈ alphabet := by
    simp only [group, List.mem_cons, List.not_mem_nil, or_false] at hchar
    rcases hchar with rfl | rfl | rfl | rfl <;> exact hdigit _
  induction bytes using encode.induct with
  | case1 a b c' rest ih =>
      rw [encode] at h
      rcases List.mem_append.1 h with hfirst | hrest
      · exact hgroup hfirst
      · exact ih hrest
  | case2 a b => exact hgroup (List.mem_of_mem_take h)
  | case3 a => exact hgroup (List.mem_of_mem_take h)
  | case4 => cases h

end Base64Url
