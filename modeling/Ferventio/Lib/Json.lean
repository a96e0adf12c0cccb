import Mathlib.Data.List.Basic
import Mathlib.Order.Basic

/-!
# JSON texts

The grammar of RFC 8259 over bytes, and an automaton that follows the nesting of the brackets and
the strings of an object.

* **`scan`**: where a prefix of a document ends.
* **`Document.space_of_suffix`**: a document that ends in a document starts with white space.
-/

namespace JsonText

open List

/-- A text. -/
abbrev Bytes := List UInt8

/-! ## Bytes -/

/-- A quotation mark. -/
def quote : UInt8 := 34
/-- A backslash. -/
def backslash : UInt8 := 92
/-- A comma. -/
def comma : UInt8 := 44
/-- A colon. -/
def colon : UInt8 := 58
/-- An opening brace. -/
def openBrace : UInt8 := 123
/-- A closing brace. -/
def closeBrace : UInt8 := 125
/-- An opening bracket. -/
def openBracket : UInt8 := 91
/-- A closing bracket. -/
def closeBracket : UInt8 := 93

/-- White space. -/
def isSpace (b : UInt8) : Bool := b == 32 || b == 9 || b == 10 || b == 13

/-- A decimal digit. -/
def isDigit (b : UInt8) : Bool := 48 ≤ b && b ≤ 57

/-- A hexadecimal digit. -/
def isHexDigit (b : UInt8) : Bool := isDigit b || (65 ≤ b && b ≤ 70) || (97 ≤ b && b ≤ 102)

/-- What may follow a backslash, apart from `u`. -/
def isEscape (b : UInt8) : Bool := b ∈ [quote, backslash, 47, 98, 102, 110, 114, 116]

/-- `u`. -/
def letterU : UInt8 := 117

/-! ## Grammar -/

/-- A run of white space. -/
def Space (w : Bytes) : Prop := ∀ b ∈ w, isSpace b

/-- A run of digits. -/
def Digits (w : Bytes) : Prop := w ≠ [] ∧ ∀ b ∈ w, isDigit b

/-- The characters between the quotes of a string. -/
inductive Characters : Bytes → Prop
  | nil : Characters []
  | plain {b : UInt8} {w : Bytes} (hcontrol : 32 ≤ b) (hquote : b ≠ quote)
      (hbackslash : b ≠ backslash) (h : Characters w) : Characters (b :: w)
  | escape {b : UInt8} {w : Bytes} (hescape : isEscape b) (h : Characters w) :
      Characters (backslash :: b :: w)
  | unicode {b1 b2 b3 b4 : UInt8} {w : Bytes} (hhex : ∀ b ∈ [b1, b2, b3, b4], isHexDigit b)
      (h : Characters w) : Characters (backslash :: letterU :: b1 :: b2 :: b3 :: b4 :: w)

/-- The numbers. -/
inductive Number : Bytes → Prop
  | mk {sign int fraction exponent : Bytes} (hsign : sign = [] ∨ sign = [45])
      (hint : int = [48] ∨ Digits int ∧ int.head? ≠ some 48)
      (hfraction : fraction = [] ∨ ∃ w, fraction = 46 :: w ∧ Digits w)
      (hexponent : exponent = [] ∨ ∃ e sign w, exponent = e :: (sign ++ w) ∧ (e = 101 ∨ e = 69) ∧
        (sign = [] ∨ sign = [43] ∨ sign = [45]) ∧ Digits w) :
      Number (sign ++ int ++ fraction ++ exponent)

/-- `true`, `false` and `null`. -/
def literals : List Bytes := [[116, 114, 117, 101], [102, 97, 108, 115, 101], [110, 117, 108, 108]]

/-- The nonterminals; an element is a value in white space. -/
inductive Kind
  | value
  | object
  | element
  | elements
  | member
  | members

/-- The texts of each kind. -/
inductive Text : Kind → Bytes → Prop
  | literal {w : Bytes} (h : w ∈ literals) : Text .value w
  | number {w : Bytes} (h : Number w) : Text .value w
  | string {w : Bytes} (h : Characters w) : Text .value (quote :: (w ++ [quote]))
  | emptyArray {w : Bytes} (h : Space w) : Text .value (openBracket :: (w ++ [closeBracket]))
  | array {w : Bytes} (h : Text .elements w) : Text .value (openBracket :: (w ++ [closeBracket]))
  | object {w : Bytes} (h : Text .object w) : Text .value w
  | emptyObject {w : Bytes} (h : Space w) : Text .object (openBrace :: (w ++ [closeBrace]))
  | someObject {w : Bytes} (h : Text .members w) : Text .object (openBrace :: (w ++ [closeBrace]))
  | element {l w r : Bytes} (hl : Space l) (h : Text .value w) (hr : Space r) :
      Text .element (l ++ (w ++ r))
  | lastElement {w : Bytes} (h : Text .element w) : Text .elements w
  | consElement {w v : Bytes} (h : Text .element w) (hrest : Text .elements v) :
      Text .elements (w ++ comma :: v)
  | member {l k r w : Bytes} (hl : Space l) (hk : Characters k) (hr : Space r)
      (h : Text .element w) : Text .member (l ++ (quote :: (k ++ [quote]) ++ (r ++ colon :: w)))
  | lastMember {w : Bytes} (h : Text .member w) : Text .members w
  | consMember {w v : Bytes} (h : Text .member w) (hrest : Text .members v) :
      Text .members (w ++ comma :: v)

/-- An object with white space around it. -/
inductive Document : Bytes → Prop
  | mk {l w r : Bytes} (hl : Space l) (h : Text .object w) (hr : Space r) :
      Document (l ++ (w ++ r))

/-! ## The automaton -/

/-- Where a prefix ends; the depth counts the open brackets inside the object. -/
inductive Place
  | before
  | inside (depth : Nat)
  | string (depth : Nat)
  | escape (depth : Nat)
  | after
deriving DecidableEq

/-- An opening bracket. -/
def isOpening (b : UInt8) : Bool := b == openBrace || b == openBracket

/-- A closing bracket. -/
def isClosing (b : UInt8) : Bool := b == closeBrace || b == closeBracket

/-- The place after a closing bracket. -/
def leave : Nat → Place
  | 0 => .after
  | depth + 1 => .inside depth

/-- The place after a byte. -/
def step : Place → UInt8 → Option Place
  | .before, b =>
    if isSpace b then some .before else if b = openBrace then some (.inside 0) else none
  | .inside depth, b =>
    if b = quote then some (.string depth)
    else if b = backslash then none
    else if isOpening b then some (.inside (depth + 1))
    else if isClosing b then some (leave depth)
    else some (.inside depth)
  | .string depth, b =>
    if b = quote then some (.inside depth)
    else if b = backslash then some (.escape depth)
    else some (.string depth)
  | .escape depth, b => if isEscape b ∨ b = letterU then some (.string depth) else none
  | .after, b => if isSpace b then some .after else none

/-- The place after a text. -/
def scan (place : Place) (w : Bytes) : Option Place := w.foldlM step place

@[simp] theorem scan_nil (place : Place) : scan place [] = some place := rfl

theorem scan_cons (place : Place) (b : UInt8) (w : Bytes) :
    scan place (b :: w) = (step place b).bind fun place' => scan place' w := rfl

theorem scan_append (place : Place) (w v : Bytes) :
    scan place (w ++ v) = (scan place w).bind fun place' => scan place' v :=
  foldlM_append

variable {w : Bytes} {b : UInt8} {p q p' : Place}

theorem scan_cons_of_step {place place' : Place} (h : step place b = some place')
    (w : Bytes) : scan place (b :: w) = scan place' w := by
  rw [scan_cons, h, Option.bind_some]

theorem scan_append_of_scan {place place' : Place} (h : scan place w = some place')
    (v : Bytes) : scan place (w ++ v) = scan place' v := by
  rw [scan_append, h, Option.bind_some]

theorem scan_of_forall {place : Place} (h : ∀ b ∈ w, step place b = some place) :
    scan place w = some place := by
  induction w with
  | nil => rfl
  | cons b w ih =>
    rw [scan_cons_of_step (h b mem_cons_self)]
    exact ih fun b' hb' => h b' (mem_cons_of_mem b hb')

/-! ## Texts leave the place inside an object as it is -/

/-- The bytes that matter inside an object. -/
def markers : Bytes := [quote, backslash, openBrace, closeBrace, openBracket, closeBracket]

theorem step_inside_of_plain (h : b ∉ markers) (depth : Nat) :
    step (.inside depth) b = some (.inside depth) := by
  simp only [markers, mem_cons, not_mem_nil, or_false, not_or] at h
  simp [step, isOpening, isClosing, h]

theorem not_mem_markers {p : UInt8 → Bool} (hp : ∀ m ∈ markers, p m = false)
    (h : p b) : b ∉ markers := by
  intro hmem
  rw [hp b hmem] at h
  cases h

theorem scan_inside_of_forall {p : UInt8 → Bool} (hp : ∀ m ∈ markers, p m = false)
    (h : ∀ b ∈ w, p b) (depth : Nat) : scan (.inside depth) w = some (.inside depth) :=
  scan_of_forall fun b hb => step_inside_of_plain (not_mem_markers hp (h b hb)) depth

theorem Space.scan_inside (h : Space w) (depth : Nat) :
    scan (.inside depth) w = some (.inside depth) :=
  scan_inside_of_forall (by decide +kernel) h depth

theorem Space.scan_before (h : Space w) : scan .before w = some .before :=
  scan_of_forall fun b hb => by rw [step, if_pos (h b hb)]

theorem Space.scan_after (h : Space w) : scan .after w = some .after :=
  scan_of_forall fun b hb => by rw [step, if_pos (h b hb)]

/-- A byte of a number. -/
def isNumeric (b : UInt8) : Bool := isDigit b || b ∈ [43, 45, 46, 69, 101]

theorem isNumeric_of_isDigit (h : isDigit b) : isNumeric b := by
  rw [isNumeric, h, Bool.true_or]

theorem Digits.isNumeric (h : Digits w) : ∀ b ∈ w, isNumeric b :=
  fun b hb => isNumeric_of_isDigit (h.2 b hb)

theorem Number.isNumeric (h : Number w) : ∀ b ∈ w, isNumeric b := by
  cases h with
  | @mk sign int fraction exponent hsign hint hfraction hexponent =>
    simp only [mem_append]
    rintro b (((hb | hb) | hb) | hb)
    · rcases hsign with rfl | rfl
      · cases hb
      · rw [mem_singleton.mp hb]
        decide
    · rcases hint with rfl | ⟨hdig, -⟩
      · rw [mem_singleton.mp hb]
        decide
      · exact hdig.isNumeric b hb
    · rcases hfraction with rfl | ⟨w, rfl, hdig⟩
      · cases hb
      · rcases mem_cons.mp hb with rfl | hb
        · decide
        · exact hdig.isNumeric b hb
    · rcases hexponent with rfl | ⟨e, sign, w, rfl, he, hsign, hdig⟩
      · cases hb
      · rcases mem_cons.mp hb with rfl | hb
        · rcases he with rfl | rfl <;> decide
        · rcases mem_append.mp hb with hb | hb
          · rcases hsign with rfl | rfl | rfl
            · cases hb
            · rw [mem_singleton.mp hb]
              decide
            · rw [mem_singleton.mp hb]
              decide
          · exact hdig.isNumeric b hb

theorem step_string_of_ne (hquote : b ≠ quote) (hbackslash : b ≠ backslash)
    (depth : Nat) : step (.string depth) b = some (.string depth) := by
  rw [step, if_neg hquote, if_neg hbackslash]

theorem step_backslash (depth : Nat) : step (.string depth) backslash = some (.escape depth) := rfl

theorem step_escape (h : isEscape b ∨ b = letterU) (depth : Nat) :
    step (.escape depth) b = some (.string depth) := if_pos h

theorem step_string_of_isHexDigit (h : isHexDigit b) (depth : Nat) :
    step (.string depth) b = some (.string depth) := by
  refine step_string_of_ne ?_ ?_ depth
  · rintro rfl
    exact absurd h (by decide)
  · rintro rfl
    exact absurd h (by decide)

theorem Characters.scan_string (h : Characters w) (depth : Nat) :
    scan (.string depth) w = some (.string depth) := by
  induction h with
  | nil => rfl
  | plain hcontrol hquote hbackslash _ ih =>
    rw [scan_cons_of_step (step_string_of_ne hquote hbackslash depth), ih]
  | escape hescape _ ih =>
    rw [scan_cons_of_step (step_backslash depth),
      scan_cons_of_step (step_escape (.inl hescape) depth), ih]
  | unicode hhex _ ih =>
    rw [scan_cons_of_step (step_backslash depth), scan_cons_of_step (step_escape (.inr rfl) depth)]
    simp only [mem_cons, not_mem_nil, or_false, forall_eq_or_imp, forall_eq] at hhex
    rw [scan_cons_of_step (step_string_of_isHexDigit hhex.1 depth),
      scan_cons_of_step (step_string_of_isHexDigit hhex.2.1 depth),
      scan_cons_of_step (step_string_of_isHexDigit hhex.2.2.1 depth),
      scan_cons_of_step (step_string_of_isHexDigit hhex.2.2.2 depth), ih]

theorem Characters.scan_quoted (h : Characters w) (depth : Nat) :
    scan (.inside depth) (quote :: (w ++ [quote])) = some (.inside depth) := by
  have hopen : step (.inside depth) quote = some (.string depth) := rfl
  rw [scan_cons_of_step hopen, scan_append_of_scan (h.scan_string depth)]
  rfl

theorem scan_bracketed {opening closing : UInt8} {depth : Nat}
    (hopening : step (.inside depth) opening = some (.inside (depth + 1)))
    (hclosing : step (.inside (depth + 1)) closing = some (.inside depth))
    (h : scan (.inside (depth + 1)) w = some (.inside (depth + 1))) :
    scan (.inside depth) (opening :: (w ++ [closing])) = some (.inside depth) := by
  rw [scan_cons_of_step hopening, scan_append_of_scan h, scan_cons_of_step hclosing, scan_nil]

/-- **Every text** leaves the place inside an object as it is. -/
theorem Text.scan_inside {kind : Kind} (h : Text kind w) (depth : Nat) :
    scan (.inside depth) w = some (.inside depth) := by
  induction h generalizing depth with
  | literal h =>
    have hplain : ∀ w ∈ literals, ∀ b ∈ w, b ∉ markers := by decide +kernel
    exact scan_of_forall fun b hb => step_inside_of_plain (hplain _ h b hb) depth
  | number h => exact scan_inside_of_forall (by decide +kernel) h.isNumeric depth
  | string h => exact h.scan_quoted depth
  | emptyArray h => exact scan_bracketed rfl rfl (h.scan_inside _)
  | array _ ih => exact scan_bracketed rfl rfl (ih _)
  | object _ ih => exact ih depth
  | emptyObject h => exact scan_bracketed rfl rfl (h.scan_inside _)
  | someObject _ ih => exact scan_bracketed rfl rfl (ih _)
  | element hl _ hr ih =>
    rw [scan_append_of_scan (hl.scan_inside depth), scan_append_of_scan (ih depth),
      hr.scan_inside depth]
  | lastElement _ ih => exact ih depth
  | consElement _ _ ih ihrest =>
    rw [scan_append_of_scan (ih depth), scan_cons_of_step (step_inside_of_plain (by decide) depth),
      ihrest depth]
  | member hl hk hr _ ih =>
    rw [scan_append_of_scan (hl.scan_inside depth), scan_append_of_scan (hk.scan_quoted depth),
      scan_append_of_scan (hr.scan_inside depth),
      scan_cons_of_step (step_inside_of_plain (by decide) depth), ih depth]
  | lastMember _ ih => exact ih depth
  | consMember _ _ ih ihrest =>
    rw [scan_append_of_scan (ih depth), scan_cons_of_step (step_inside_of_plain (by decide) depth),
      ihrest depth]

theorem Document.scan_before (h : Document w) : scan .before w = some .after := by
  cases h with
  | mk hl h hr =>
    have hobject : ∀ w, scan (.inside 0) w = some (.inside 0) →
        scan .before (openBrace :: (w ++ [closeBrace])) = some .after := by
      intro w hw
      have hopening : step .before openBrace = some (.inside 0) := by decide
      rw [scan_cons_of_step hopening, scan_append_of_scan hw]
      rfl
    rw [scan_append_of_scan hl.scan_before]
    cases h with
    | emptyObject h => rw [scan_append_of_scan (hobject _ (h.scan_inside 0)), hr.scan_after]
    | someObject h => rw [scan_append_of_scan (hobject _ (h.scan_inside 0)), hr.scan_after]

/-! ## Documents that end in documents -/

/-- Two scans of one text, the second at a given depth. -/
inductive Deeper (depth : Nat) : Place → Place → Prop
  | before : Deeper depth .before (.inside depth)
  | inside (d : Nat) : Deeper depth (.inside d) (.inside (depth + 1 + d))
  | string (d : Nat) : Deeper depth (.string d) (.string (depth + 1 + d))
  | escape (d : Nat) : Deeper depth (.escape d) (.escape (depth + 1 + d))
  | after : Deeper depth .after (.inside depth)

theorem Deeper.leave (depth d : Nat) : Deeper depth (leave d) (leave (depth + 1 + d)) := by
  cases d with
  | zero => exact .after
  | succ d => exact .inside d

theorem Deeper.step {depth : Nat} (h : Deeper depth p q)
    (hstep : step p b = some p') : ∃ q', JsonText.step q b = some q' ∧ Deeper depth p' q' := by
  cases h with
  | before =>
    rw [JsonText.step] at hstep
    split_ifs at hstep with hspace hbrace
    · cases hstep
      exact ⟨_, step_inside_of_plain (not_mem_markers (by decide +kernel) hspace) depth, .before⟩
    · cases hstep
      subst hbrace
      exact ⟨_, rfl, .inside 0⟩
  | inside d =>
    simp only [JsonText.step] at hstep ⊢
    split_ifs at hstep ⊢ with hquote hbackslash hopening hclosing
    · cases hstep
      exact ⟨_, rfl, .string d⟩
    · cases hstep
      exact ⟨_, rfl, .inside (d + 1)⟩
    · cases hstep
      exact ⟨_, rfl, .leave depth d⟩
    · cases hstep
      exact ⟨_, rfl, .inside d⟩
  | string d =>
    simp only [JsonText.step] at hstep ⊢
    split_ifs at hstep ⊢ with hquote hbackslash
    · cases hstep
      exact ⟨_, rfl, .inside d⟩
    · cases hstep
      exact ⟨_, rfl, .escape d⟩
    · cases hstep
      exact ⟨_, rfl, .string d⟩
  | escape d =>
    simp only [JsonText.step] at hstep ⊢
    split_ifs at hstep ⊢
    cases hstep
    exact ⟨_, rfl, .string d⟩
  | after =>
    rw [JsonText.step] at hstep
    split_ifs at hstep with hspace
    cases hstep
    exact ⟨_, step_inside_of_plain (not_mem_markers (by decide +kernel) hspace) depth, .after⟩

theorem Deeper.scan {depth : Nat} (h : Deeper depth p q)
    (hscan : scan p w = some p') : ∃ q', JsonText.scan q w = some q' ∧ Deeper depth p' q' := by
  induction w generalizing p q with
  | nil =>
    cases hscan
    exact ⟨q, rfl, h⟩
  | cons b w ih =>
    obtain ⟨p1, hstep, hrest⟩ := Option.bind_eq_some_iff.mp hscan
    obtain ⟨q1, hstep', h1⟩ := h.step hstep
    rw [scan_cons_of_step hstep']
    exact ih h1 hrest

/-- Two scans, one inside strings where the other is outside. -/
inductive Opposite : Place → Place → Prop
  | before (d : Nat) : Opposite .before (.string d)
  | inside (d d' : Nat) : Opposite (.inside d) (.string d')
  | after (d : Nat) : Opposite .after (.string d)
  | string (d d' : Nat) : Opposite (.string d) (.inside d')
  | stringAfter (d : Nat) : Opposite (.string d) .after

/-- A backslash is refused outside strings, and a quote exchanges the two. -/
theorem Opposite.step {q' : Place} (h : Opposite p q)
    (hp : step p b = some p') (hq : JsonText.step q b = some q') : Opposite p' q' := by
  have hstring : ∀ {b : UInt8} {d : Nat}, isSpace b →
      JsonText.step (.string d) b = some (.string d) := by
    intro b d hspace
    refine step_string_of_ne ?_ ?_ d
    · rintro rfl
      exact absurd hspace (by decide)
    · rintro rfl
      exact absurd hspace (by decide)
  cases h with
  | before d =>
    rw [JsonText.step] at hp
    split_ifs at hp with hspace hbrace
    · rw [hstring hspace] at hq
      cases hp
      cases hq
      exact .before d
    · subst hbrace
      cases hp
      cases hq
      exact .inside 0 d
  | inside d d' =>
    simp only [JsonText.step] at hp hq
    split_ifs at hp hq with hquote hbackslash hopening hclosing
    · cases hp
      cases hq
      exact .string d d'
    · cases hp
      cases hq
      exact .inside (d + 1) d'
    · cases hp
      cases hq
      cases d with
      | zero => exact .after d'
      | succ d => exact .inside d d'
    · cases hp
      cases hq
      exact .inside d d'
  | after d =>
    rw [JsonText.step] at hp
    split_ifs at hp with hspace
    rw [hstring hspace] at hq
    cases hp
    cases hq
    exact .after d
  | string d d' =>
    simp only [JsonText.step] at hp hq
    split_ifs at hp hq with hquote hbackslash hopening hclosing
    · cases hp
      cases hq
      exact .inside d d'
    · cases hp
      cases hq
      exact .string d (d' + 1)
    · cases hp
      cases hq
      cases d' with
      | zero => exact .stringAfter d
      | succ d' => exact .string d d'
    · cases hp
      cases hq
      exact .string d d'
  | stringAfter d =>
    rw [JsonText.step] at hq
    split_ifs at hq with hspace
    rw [hstring hspace] at hp
    cases hp
    cases hq
    exact .stringAfter d

theorem Opposite.scan {q' : Place} (h : Opposite p q)
    (hp : scan p w = some p') (hq : JsonText.scan q w = some q') : Opposite p' q' := by
  induction w generalizing p q with
  | nil =>
    cases hp
    cases hq
    exact h
  | cons b w ih =>
    obtain ⟨p1, hp1, hprest⟩ := Option.bind_eq_some_iff.mp hp
    obtain ⟨q1, hq1, hqrest⟩ := Option.bind_eq_some_iff.mp hq
    exact ih (h.step hp1 hq1) hprest hqrest

theorem step_eq_before (h : step p b = some .before) : p = .before ∧ isSpace b := by
  have hleave : ∀ d, leave d ≠ .before := by
    intro d
    cases d <;> exact Place.noConfusion
  cases p with
  | before =>
    rw [step] at h
    split_ifs at h with hspace
    · exact ⟨rfl, hspace⟩
    · cases h
  | inside d =>
    rw [step] at h
    split_ifs at h
    · cases h
    · cases h
    · exact absurd (Option.some.inj h) (hleave d)
    · cases h
  | string =>
    rw [step] at h
    split_ifs at h <;> cases h
  | _ =>
    rw [step] at h
    split_ifs at h
    cases h

theorem scan_eq_before (h : scan p w = some .before) : p = .before ∧ Space w := by
  induction w generalizing p with
  | nil =>
    cases h
    exact ⟨rfl, fun b hb => absurd hb not_mem_nil⟩
  | cons b w ih =>
    obtain ⟨p1, hstep, hrest⟩ := Option.bind_eq_some_iff.mp h
    obtain ⟨rfl, hspace⟩ := ih hrest
    obtain ⟨rfl, hb⟩ := step_eq_before hstep
    exact ⟨rfl, forall_mem_cons.mpr ⟨hb, hspace⟩⟩

theorem space_of_scan_after (h : scan .after w = some p) : Space w := by
  induction w with
  | nil => exact fun b hb => absurd hb not_mem_nil
  | cons b w ih =>
    obtain ⟨p1, hstep, hrest⟩ := Option.bind_eq_some_iff.mp h
    rw [step] at hstep
    split_ifs at hstep with hspace
    cases hstep
    exact forall_mem_cons.mpr ⟨hspace, ih hrest⟩

theorem step_escape_eq_none (h : step .before b = some p) (d : Nat) :
    step (.escape d) b = none := by
  rw [step] at h
  split_ifs at h with hspace hbrace
  · simp only [isSpace, Bool.or_eq_true, beq_iff_eq] at hspace
    rcases hspace with ((rfl | rfl) | rfl) | rfl <;> rfl
  · subst hbrace
    rfl

/-- **The only suffixes of a document that are documents** are those that leave out white space. -/
theorem Document.space_of_suffix {v : Bytes} (h : Document (w ++ v)) (hv : Document v) :
    Space w := by
  have hfrom := hv.scan_before
  obtain ⟨p, hp, hrest⟩ := Option.bind_eq_some_iff.mp ((scan_append _ _ _).symm.trans h.scan_before)
  cases p with
  | before => exact (scan_eq_before hp).2
  | inside d =>
    -- the suffix ends at the depth at which it starts
    have hstart : Deeper d .before (.inside d) := .before
    obtain ⟨q, hq, hdeeper⟩ := hstart.scan hfrom
    rw [hrest] at hq
    cases hq
    cases hdeeper
  | string d => cases (Opposite.before d).scan hfrom hrest
  | escape d =>
    cases v with
    | nil => cases hrest
    | cons =>
      obtain ⟨p1, hstep, -⟩ := Option.bind_eq_some_iff.mp hfrom
      obtain ⟨p2, hescape, -⟩ := Option.bind_eq_some_iff.mp hrest
      rw [step_escape_eq_none hstep d] at hescape
      cases hescape
  | after =>
    have hspace := (space_of_scan_after hrest).scan_before
    rw [hfrom] at hspace
    cases hspace

end JsonText
