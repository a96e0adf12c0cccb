import Mathlib.Data.List.Basic

/-!
# Base64

Go's `base64.RawURLEncoding`: three bytes are four digits of six bits, and there is no padding. The
decoder skips line breaks and does not look at the bits that are left over in the last digit.

* **`decodeString_encodeToString`**: decoding undoes encoding.
-/

namespace Base64

open List

/-- `[]byte`. -/
abbrev Bytes := List UInt8

/-- The URL alphabet. -/
def alphabet : List Char :=
  "ABCDEFGHIJKLMNOPQRSTUVWXYZabcdefghijklmnopqrstuvwxyz0123456789-_".toList

/-- The digits of a text, as numbers below 64. -/
def digits : Bytes → List Nat
  | [] => []
  | [a] => [a.toNat / 4, a.toNat % 4 * 16]
  | [a, b] => [a.toNat / 4, a.toNat % 4 * 16 + b.toNat / 16, b.toNat % 16 * 4]
  | a :: b :: c :: rest =>
    a.toNat / 4 :: (a.toNat % 4 * 16 + b.toNat / 16) :: (b.toNat % 16 * 4 + c.toNat / 64) ::
      c.toNat % 64 :: digits rest

/-- A single digit is left over from no text. -/
def bytes : List Nat → Option Bytes
  | [] => some []
  | [_] => none
  | [s, t] => some [.ofNat (s * 4 + t / 16)]
  | [s, t, u] => some [.ofNat (s * 4 + t / 16), .ofNat (t % 16 * 16 + u / 4)]
  | s :: t :: u :: v :: rest =>
    (bytes rest).map fun tail =>
      .ofNat (s * 4 + t / 16) :: .ofNat (t % 16 * 16 + u / 4) :: .ofNat (u % 4 * 64 + v) :: tail

/-- The character of a digit. -/
def digitChar (n : Nat) : Char := alphabet.getD n 'A'

/-- The digit of a character. -/
def charDigit (c : Char) : Option Nat := alphabet.findIdx? (· == c)

/-- `EncodeToString` without padding. -/
def encodeToString (b : Bytes) : String := .ofList ((digits b).map digitChar)

/-- `DecodeString`; line breaks are skipped. -/
def decodeString (s : String) : Option Bytes :=
  ((s.toList.filter fun c => c != '\n' && c != '\r').mapM charDigit).bind bytes

theorem ofNat_eq {a : UInt8} {n : Nat} (h : n = a.toNat) : UInt8.ofNat n = a := by
  rw [h, UInt8.ofNat_toNat]

theorem bytes_digits (b : Bytes) : bytes (digits b) = some b := by
  fun_induction digits b with
  | case1 => rfl
  | case2 a =>
    rw [bytes, ofNat_eq (a := a)]
    omega
  | case3 a b =>
    have hb := b.toNat_lt
    rw [bytes, ofNat_eq (a := a), ofNat_eq (a := b)]
    all_goals omega
  | case4 a b c rest ih =>
    have hb := b.toNat_lt
    have hc := c.toNat_lt
    rw [bytes, ih, Option.map_some, ofNat_eq (a := a), ofNat_eq (a := b), ofNat_eq (a := c)]
    all_goals omega

theorem digits_lt (b : Bytes) : ∀ n ∈ digits b, n < 64 := by
  fun_induction digits b with
  | case1 => simp
  | case2 a =>
    have ha := a.toNat_lt
    simp
    omega
  | case3 a b =>
    have ha := a.toNat_lt
    have hb := b.toNat_lt
    simp
    omega
  | case4 a b c rest ih =>
    have ha := a.toNat_lt
    have hb := b.toNat_lt
    have hc := c.toNat_lt
    simp only [mem_cons, forall_eq_or_imp]
    exact ⟨by omega, by omega, by omega, by omega, ih⟩

theorem charDigit_digitChar : ∀ n < 64, charDigit (digitChar n) = some n ∧
    (digitChar n != '\n' && digitChar n != '\r') = true := by
  decide +kernel

theorem mapM_charDigit {l : List Nat} (h : ∀ n ∈ l, n < 64) :
    (l.map digitChar).mapM charDigit = some l := by
  induction l with
  | nil => rfl
  | cons n l ih =>
    rw [forall_mem_cons] at h
    simp [(charDigit_digitChar n h.1).1, ih h.2]

/-- **Decoding undoes encoding.** -/
theorem decodeString_encodeToString (b : Bytes) : decodeString (encodeToString b) = some b := by
  have hdig := digits_lt b
  have hkept : ((digits b).map digitChar).filter (fun c => c != '\n' && c != '\r') =
      (digits b).map digitChar := by
    rw [filter_eq_self]
    intro c hc
    obtain ⟨n, hn, rfl⟩ := mem_map.mp hc
    exact (charDigit_digitChar n (hdig n hn)).2
  rw [decodeString, encodeToString, String.toList_ofList, hkept, mapM_charDigit hdig]
  exact bytes_digits b

end Base64
