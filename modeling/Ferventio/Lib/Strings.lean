import Mathlib.Algebra.Group.Int.Defs
import Mathlib.Data.List.DropRight

/-!
# Strings

Go's `strings.TrimSpace` and `strings.Trim`, the texts of numbers, and quoting. Trimming twice is
trimming once (**`trimSpace_trimSpace`**), so a value that was stored trimmed is unchanged by the
next trim.
-/

namespace Strings

open List

/-- `unicode.IsSpace`. -/
def isSpace (c : Char) : Bool :=
  c == ' ' || (9 ≤ c.toNat && c.toNat ≤ 13) || c.toNat == 0x85 || c.toNat == 0xA0 ||
    c.toNat == 0x1680 || (0x2000 ≤ c.toNat && c.toNat ≤ 0x200A) || c.toNat == 0x2028 ||
    c.toNat == 0x2029 || c.toNat == 0x202F || c.toNat == 0x205F || c.toNat == 0x3000

section Lists

variable {α : Type} (p : α → Bool)

/-- Drop the elements that satisfy `p` from both ends of a list. -/
def trim (l : List α) : List α := (l.dropWhile p).rdropWhile p

theorem mem_of_mem_trim {l : List α} {x : α} (h : x ∈ trim p l) : x ∈ l :=
  (dropWhile_sublist p).subset ((List.rdropWhile_prefix p _).subset h)

theorem rdropWhile_append_cons {x : α} (hx : p x = false) (front back : List α) :
    (front ++ x :: back).rdropWhile p = front ++ x :: back.rdropWhile p := by
  simp only [List.rdropWhile, reverse_append, reverse_cons, dropWhile_append]
  cases h : back.reverse.dropWhile p <;> simp [hx]

theorem dropWhile_trim (l : List α) : (trim p l).dropWhile p = trim p l := by
  unfold trim
  cases h : l.dropWhile p with
  | nil => rfl
  | cons x xs =>
    have hx : p x = false := by
      have hne : l.dropWhile p ≠ [] := by
        rw [h]
        exact cons_ne_nil x xs
      have hhead := head_dropWhile_not p hne
      simpa only [h, head_cons] using hhead
    -- the first element stops the scan from the right as well
    have hcons : (x :: xs).rdropWhile p = x :: xs.rdropWhile p := rdropWhile_append_cons p hx [] xs
    rw [hcons, dropWhile_cons_of_neg (by simp [hx])]

theorem trim_trim (l : List α) : trim p (trim p l) = trim p l := by
  rw [trim, dropWhile_trim]
  exact rdropWhile_idempotent p (l.dropWhile p)

theorem trim_eq_nil_iff (l : List α) : trim p l = [] ↔ ∀ x ∈ l, p x := by
  rw [trim, rdropWhile_eq_nil_iff]
  constructor
  · intro h
    rw [← dropWhile_eq_nil_iff]
    by_contra hne
    have hhead := h _ (head_mem hne)
    rw [head_dropWhile_not p hne] at hhead
    cases hhead
  · intro h x hx
    exact h x ((dropWhile_sublist p).subset hx)

theorem trim_eq_self {l : List α} (hhead : ∀ x ∈ l.head?, p x = false)
    (hlast : ∀ x ∈ l.getLast?, p x = false) : trim p l = l := by
  have hdrop : l.dropWhile p = l := by
    cases l with
    | nil => rfl
    | cons x l => rw [dropWhile_cons, hhead x rfl, if_neg Bool.false_ne_true]
  rw [trim, hdrop, rdropWhile_eq_self_iff]
  intro hne hspace
  rw [hlast _ (List.getLast?_eq_some_getLast hne)] at hspace
  cases hspace

theorem append_cons_inj {x : α} {l l' a a' : List α} (ha : x ∉ a) (ha' : x ∉ a')
    (h : l ++ x :: a = l' ++ x :: a') : l = l' ∧ a = a' := by
  induction l generalizing l' with
  | nil =>
    cases l' with
    | nil => exact ⟨rfl, (List.cons.inj h).2⟩
    | cons y l' =>
      have htail : a = l' ++ x :: a' := (List.cons.inj h).2
      rw [htail] at ha
      exact absurd (mem_append_right l' mem_cons_self) ha
  | cons y l ih =>
    cases l' with
    | nil =>
      have htail : l ++ x :: a = a' := (List.cons.inj h).2
      rw [← htail] at ha'
      exact absurd (mem_append_right l mem_cons_self) ha'
    | cons =>
      obtain ⟨hhead, htail⟩ := List.cons.inj h
      obtain ⟨hfront, hback⟩ := ih htail
      exact ⟨by rw [hhead, hfront], hback⟩

end Lists

/-- `strings.TrimSpace`. -/
def trimSpace (s : String) : String := String.ofList (trim isSpace s.toList)

/-- `strings.Trim(s, cutset)`. -/
def trimSet (cutset s : String) : String :=
  String.ofList (trim (fun c => cutset.toList.contains c) s.toList)

theorem trimSpace_trimSpace (s : String) : trimSpace (trimSpace s) = trimSpace s := by
  simp only [trimSpace, String.toList_ofList, trim_trim]

theorem trimSpace_eq_empty_iff (s : String) : trimSpace s = "" ↔ ∀ c ∈ s.toList, isSpace c := by
  rw [← trim_eq_nil_iff, trimSpace, String.ofList_eq_empty_iff]

theorem trimSpace_empty : trimSpace "" = "" := by decide

theorem trimSpace_eq_self {s : String} (h : ∀ c ∈ s.toList, isSpace c = false) :
    trimSpace s = s := by
  rw [trimSpace, trim_eq_self _ (fun c hc => h c (mem_of_mem_head? hc))
    fun c hc => h c (mem_of_mem_getLast? hc), String.ofList_toList]

theorem not_mem_trimSpace {c : Char} {s : String} (h : c ∉ s.toList) :
    c ∉ (trimSpace s).toList := by
  rw [trimSpace, String.toList_ofList]
  exact fun hmem => h (mem_of_mem_trim _ hmem)

/-! ## Numbers -/

/-- The value of a digit of a number in base `base`, up to 16. -/
def digitValue (base : Nat) (c : Char) : Option Nat :=
  let value :=
    if c.isDigit then some (c.toNat - '0'.toNat)
    else if 'a' ≤ c ∧ c ≤ 'f' then some (c.toNat - 'a'.toNat + 10)
    else if 'A' ≤ c ∧ c ≤ 'F' then some (c.toNat - 'A'.toNat + 10)
    else none
  value.filter (· < base)

/-- A number, most significant digit first. -/
def numeral (base : Nat) (digits : List Char) : Option Nat :=
  digits.foldlM (fun acc c => (digitValue base c).map (acc * base + ·)) 0

/-- `strconv.Atoi` on a 64-bit machine. -/
def atoi (s : String) : Option Int :=
  let (negative, digits) :=
    match s.toList with
    | '-' :: digits => (true, digits)
    | '+' :: digits => (false, digits)
    | digits => (false, digits)
  if digits = [] then none
  else
    (numeral 10 digits).bind fun n =>
      let value : Int := if negative then -n else n
      if -2 ^ 63 ≤ value ∧ value < 2 ^ 63 then some value else none

/-- `strconv.Quote` of a character; outside ASCII all are printable. -/
def quoteChar (c : Char) : List Char :=
  let hex := Nat.toDigits 16 c.toNat
  match c with
  | '"' | '\\' => ['\\', c]
  | '\n' => ['\\', 'n']
  | '\r' => ['\\', 'r']
  | '\t' => ['\\', 't']
  | '\x07' => ['\\', 'a']
  | '\x08' => ['\\', 'b']
  | '\x0b' => ['\\', 'v']
  | '\x0c' => ['\\', 'f']
  | _ =>
    if c.toNat < 32 ∨ c.toNat = 127 then
      ['\\', 'x'] ++ (if hex.length < 2 then ['0'] else []) ++ hex
    else [c]

/-- `strconv.Quote`, the verb `%q`. -/
def quote (s : String) : String :=
  "\"" ++ String.ofList (s.toList.flatMap quoteChar) ++ "\""

end Strings
