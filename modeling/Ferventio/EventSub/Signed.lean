import Ferventio.EventSub.Replay
import Ferventio.Lib.Json
import Mathlib.Data.Set.Function
import Mathlib.Data.List.Basic

/-!
# What a signature is for

The signature of an EventSub message is over its id, its timestamp and its body, with nothing
between them. Still the three parts can be told apart: no proper suffix of a JSON object is a JSON
object, unless only white space was left out, and the timestamp before it does not end in white
space.

* **`signed_bytes_unambiguous`**: the signed bytes determine the message.
-/

namespace Ferventio

open JsonText List

/-! ## Timestamps -/

/-- A number with the given count of digits. -/
def DigitsOf (count : Nat) (w : Bytes) : Prop := w.length = count ∧ ∀ b ∈ w, isDigit b

/-- `Z`, or an offset in hours and minutes. -/
inductive ZoneText : Bytes → Prop
  | utc : ZoneText [90]
  | offset {sign : UInt8} {hours minutes : Bytes} (hsign : sign = 43 ∨ sign = 45)
      (hhours : DigitsOf 2 hours) (hmin : DigitsOf 2 minutes) :
      ZoneText (sign :: (hours ++ 58 :: minutes))

/-- Nothing, or digits after a point or a comma. -/
inductive FractionText : Bytes → Prop
  | none : FractionText []
  | digits {separator : UInt8} {w : Bytes} (hseparator : separator = 46 ∨ separator = 44)
      (hdig : Digits w) : FractionText (separator :: w)

/-- `YYYY-MM-DD`. -/
inductive DateText : Bytes → Prop
  | mk {year month day : Bytes} (hyear : DigitsOf 4 year) (hmonth : DigitsOf 2 month)
      (hday : DigitsOf 2 day) : DateText (year ++ 45 :: (month ++ 45 :: day))

/-- `hh:mm:ss` with a fraction; the hour may have one digit. -/
inductive ClockText : Bytes → Prop
  | mk {hours minutes seconds fraction : Bytes} (hhours : DigitsOf 1 hours ∨ DigitsOf 2 hours)
      (hmin : DigitsOf 2 minutes) (hseconds : DigitsOf 2 seconds)
      (hfraction : FractionText fraction) :
      ClockText (hours ++ 58 :: (minutes ++ 58 :: (seconds ++ fraction)))

/-- `T`. -/
def letterT : UInt8 := 84

/-- A timestamp of RFC 3339. -/
inductive Timestamp : Bytes → Prop
  | mk {date clock zone : Bytes} (hdate : DateText date) (hclock : ClockText clock)
      (hzone : ZoneText zone) : Timestamp (date ++ letterT :: (clock ++ zone))

section Timestamps

variable {count : Nat} {w v : Bytes}

theorem letterT_not_mem_of_digits (h : ∀ b ∈ w, isDigit b) : letterT ∉ w :=
  fun hmem => absurd (h letterT hmem) (by decide)

theorem DateText.length_eq (h : DateText w) : w.length = 10 := by
  cases h with
  | mk hyear hmonth hday =>
    simp only [length_append, length_cons, hyear.1, hmonth.1, hday.1]

theorem DateText.letterT_not_mem (h : DateText w) : letterT ∉ w := by
  cases h with
  | mk hyear hmonth hday =>
    have hdash : letterT ≠ 45 := by decide
    simp [hdash, letterT_not_mem_of_digits hyear.2, letterT_not_mem_of_digits hmonth.2,
      letterT_not_mem_of_digits hday.2]

theorem FractionText.letterT_not_mem (h : FractionText w) : letterT ∉ w := by
  cases h with
  | none => exact not_mem_nil
  | digits hseparator hdig =>
    rw [mem_cons, not_or]
    refine ⟨?_, letterT_not_mem_of_digits hdig.2⟩
    rcases hseparator with rfl | rfl <;> decide

theorem ClockText.letterT_not_mem (h : ClockText w) : letterT ∉ w := by
  cases h with
  | mk hhours hmin hseconds hfraction =>
    have hcolon : letterT ≠ 58 := by decide
    have hhours' := hhours.elim (fun h => letterT_not_mem_of_digits h.2)
      fun h => letterT_not_mem_of_digits h.2
    simp [hcolon, hhours', letterT_not_mem_of_digits hmin.2,
      letterT_not_mem_of_digits hseconds.2, hfraction.letterT_not_mem]

theorem ZoneText.letterT_not_mem (h : ZoneText w) : letterT ∉ w := by
  cases h with
  | utc => decide
  | offset hsign hhours hmin =>
    have hcolon : letterT ≠ 58 := by decide
    rw [mem_cons, mem_append, mem_cons, not_or, not_or, not_or]
    refine ⟨?_, letterT_not_mem_of_digits hhours.2, hcolon, letterT_not_mem_of_digits hmin.2⟩
    rcases hsign with rfl | rfl <;> decide

/-- A timestamp has one `T`, after ten bytes: it is no proper suffix of a timestamp. -/
theorem Timestamp.eq_nil_of_suffix (h : Timestamp (w ++ v)) (hv : Timestamp v) : w = [] := by
  generalize hwv : w ++ v = wv at h
  cases h with
  | mk hdate hclock hzone =>
    cases hv with
    | @mk date' clock' zone' hdate' hclock' hzone' =>
      rename_i date clock zone
      have hrest : letterT ∉ clock ++ zone := by
        rw [mem_append, not_or]
        exact ⟨hclock.letterT_not_mem, hzone.letterT_not_mem⟩
      rw [← append_assoc] at hwv
      obtain ⟨hfront, -⟩ := (append_cons_inj_of_notMem hdate.letterT_not_mem hrest).mp hwv.symm
      have hlen := congrArg List.length hfront
      rw [length_append, hdate.length_eq, hdate'.length_eq] at hlen
      exact eq_nil_of_length_eq_zero (by omega)

theorem isSpace_eq_false_of_isDigit {b : UInt8} (h : isDigit b) : isSpace b = false := by
  by_contra hspace
  simp only [Bool.not_eq_false, isSpace, Bool.or_eq_true, beq_iff_eq] at hspace
  rcases hspace with ((rfl | rfl) | rfl) | rfl <;> exact absurd h (by decide)

theorem ZoneText.last (h : ZoneText w) : ∃ front b, w = front ++ [b] ∧ isSpace b = false := by
  cases h with
  | utc => exact ⟨[], 90, rfl, by decide⟩
  | @offset sign hours minutes hsign hhours hmin =>
    obtain ⟨m1, m2, rfl⟩ := length_eq_two.mp hmin.1
    exact ⟨sign :: (hours ++ [58, m1]), m2, by simp,
      isSpace_eq_false_of_isDigit (hmin.2 m2 (by simp))⟩

theorem Timestamp.last (h : Timestamp w) : ∃ front b, w = front ++ [b] ∧ isSpace b = false := by
  cases h with
  | @mk date clock zone hdate hclock hzone =>
    obtain ⟨front, b, rfl, hspace⟩ := hzone.last
    exact ⟨date ++ letterT :: (clock ++ front), b, by simp, hspace⟩

end Timestamps

/-! ## Messages -/

/-- What is signed. -/
structure SignedMessage where
  messageID : Bytes
  timestamp : Bytes
  body : Bytes

namespace SignedMessage

/-- What `verifyEventSubMessage` writes to the HMAC. -/
def bytes (m : SignedMessage) : Bytes := m.messageID ++ m.timestamp ++ m.body

/-- The parts have their forms. -/
structure WellFormed (m : SignedMessage) : Prop where
  messageID_ne : m.messageID ≠ []
  timestamp : Timestamp m.timestamp
  body : Document m.body

variable {m m' : SignedMessage}

theorem cut_eq_nil {front timestamp x cut body : Bytes} (hstamp : Timestamp timestamp)
    (hcut : front ++ timestamp = x ++ cut) (hbody : Document (cut ++ body))
    (hrest : Document body) : cut = [] := by
  have hspace := hbody.space_of_suffix hrest
  obtain ⟨front', b, rfl, hlast⟩ := hstamp.last
  rcases eq_nil_or_concat cut with rfl | ⟨cut', b', rfl⟩
  · rfl
  · -- the last byte of the cut is the last byte of the timestamp
    rw [concat_eq_append, ← append_assoc, ← append_assoc] at hcut
    obtain ⟨-, hb⟩ := append_inj' hcut rfl
    cases hb
    have hb' := hspace b (by simp)
    rw [hlast] at hb'
    cases hb'

theorem body_eq_of_bytes_eq (h : m.WellFormed) (h' : m'.WellFormed) (hbytes : m.bytes = m'.bytes) :
    m.body = m'.body := by
  rcases append_eq_append_iff.mp hbytes with ⟨cut, hcut, hbody⟩ | ⟨cut, hcut, hbody⟩
  · rw [cut_eq_nil h'.timestamp hcut (hbody ▸ h.body) h'.body] at hbody
    exact hbody
  · rw [cut_eq_nil h.timestamp hcut (hbody ▸ h'.body) h.body] at hbody
    exact hbody.symm

theorem timestamp_eq_of_append_eq (h : m.WellFormed) (h' : m'.WellFormed)
    (heq : m.messageID ++ m.timestamp = m'.messageID ++ m'.timestamp) :
    m.timestamp = m'.timestamp := by
  rcases append_eq_append_iff.mp heq with ⟨cut, -, hstamp⟩ | ⟨cut, -, hstamp⟩
  · have hcut : cut = [] := Timestamp.eq_nil_of_suffix (hstamp ▸ h.timestamp) h'.timestamp
    rw [hcut] at hstamp
    exact hstamp
  · have hcut : cut = [] := Timestamp.eq_nil_of_suffix (hstamp ▸ h'.timestamp) h.timestamp
    rw [hcut] at hstamp
    exact hstamp.symm

theorem eq_of_bytes_eq (h : m.WellFormed) (h' : m'.WellFormed) (hbytes : m.bytes = m'.bytes) :
    m = m' := by
  have hbody := body_eq_of_bytes_eq h h' hbytes
  have hfront : m.messageID ++ m.timestamp = m'.messageID ++ m'.timestamp := by
    rw [bytes, bytes, hbody] at hbytes
    exact append_cancel_right hbytes
  have hstamp := timestamp_eq_of_append_eq h h' hfront
  have hid : m.messageID = m'.messageID := by
    rw [hstamp] at hfront
    exact append_cancel_right hfront
  cases m
  cases m'
  cases hid
  cases hstamp
  cases hbody
  rfl

end SignedMessage

/-! ## Verified messages -/

section Verified

variable {signing : Signing} {secret mid rawTimestamp signature body : String} {now : Time}

/-- The bytes of a text. -/
def utf8 (s : String) : Bytes := s.toByteArray.data.toList

theorem utf8_append (s t : String) : utf8 (s ++ t) = utf8 s ++ utf8 t := by
  rw [utf8, String.toByteArray_append, ByteArray.data_append, Array.toList_append]
  rfl

theorem utf8_injective : Function.Injective utf8 := by
  intro s t h
  exact String.toByteArray_inj.mp (ByteArray.ext (Array.toList_inj.mp h))

theorem verified_signature
    (h : verifyEventSubMessage signing secret mid rawTimestamp signature body now = .ok ()) :
    signing.hexDecode (String.ofList (signature.toList.drop signatureStart.length)) =
      some (signing.hmacSHA256 secret (mid ++ rawTimestamp ++ body)) := by
  rw [verifyEventSubMessage] at h
  split at h
  · cases h
  split at h
  · cases h
  split at h
  · cases h
  dsimp only at h
  split at h
  · assumption
  · cases h

end Verified

/-- The message in bytes. -/
def signedMessage (messageID rawTimestamp body : String) : SignedMessage :=
  { messageID := utf8 messageID, timestamp := utf8 rawTimestamp, body := utf8 body }

theorem signedMessage_bytes (mid rawTimestamp body : String) :
    (signedMessage mid rawTimestamp body).bytes = utf8 (mid ++ rawTimestamp ++ body) := by
  rw [utf8_append, utf8_append]
  rfl

/-- **The signed bytes are unambiguous.** Where the HMAC tells texts apart, a signature that is
accepted for two messages was made for one. -/
theorem signed_bytes_unambiguous :
    Set.InjOn SignedMessage.bytes {m | m.WellFormed} ∧
      ∀ (signing : Signing) (secret signature : String),
        Function.Injective (signing.hmacSHA256 secret) →
        ∀ mid timestamp body now mid' timestamp' body' now',
          (signedMessage mid timestamp body).WellFormed →
          (signedMessage mid' timestamp' body').WellFormed →
          verifyEventSubMessage signing secret mid timestamp signature body now = .ok () →
          verifyEventSubMessage signing secret mid' timestamp' signature body' now' =
            .ok () →
          mid = mid' ∧ timestamp = timestamp' ∧ body = body' := by
  refine ⟨fun m hm m' hm' => SignedMessage.eq_of_bytes_eq hm hm', ?_⟩
  intro signing secret signature hinj id timestamp body now id' timestamp' body' now' h h' hv hv'
  have hsame : id ++ timestamp ++ body = id' ++ timestamp' ++ body' := by
    refine hinj (Option.some.inj ?_)
    rw [← verified_signature hv, ← verified_signature hv']
  have hmessage := SignedMessage.eq_of_bytes_eq h h' (by
    rw [signedMessage_bytes, signedMessage_bytes, hsame])
  obtain ⟨hid, hstamp, hbody⟩ := SignedMessage.mk.inj hmessage
  exact ⟨utf8_injective hid, utf8_injective hstamp, utf8_injective hbody⟩

/-- An HMAC that hides nothing. -/
def openSigning : Signing := ⟨fun _ => .ok 0, fun _ text => text, some⟩

theorem firstMessage_wellFormed :
    (signedMessage "1" "2024-01-01T0:00:00Z" "\x7b\x7d").WellFormed where
  messageID_ne := by decide +kernel
  timestamp := by
    have hdate : DateText ([50, 48, 50, 52] ++ 45 :: ([48, 49] ++ 45 :: [48, 49])) :=
      .mk ⟨rfl, by decide +kernel⟩ ⟨rfl, by decide +kernel⟩ ⟨rfl, by decide +kernel⟩
    have hclock : ClockText ([48] ++ 58 :: ([48, 48] ++ 58 :: ([48, 48] ++ []))) :=
      .mk (.inl ⟨rfl, by decide +kernel⟩) ⟨rfl, by decide +kernel⟩ ⟨rfl, by decide +kernel⟩ .none
    exact .mk hdate hclock .utc
  body := by
    have hempty : Space [] := fun b hb => absurd hb not_mem_nil
    exact .mk hempty (.emptyObject hempty) hempty

/-- Only the first message is accepted with its signature. -/
theorem firstMessage_unambiguous :
    verifyEventSubMessage openSigning "secret" "1" "2024-01-01T0:00:00Z"
        "sha256=12024-01-01T0:00:00Z\x7b\x7d" "\x7b\x7d" 0 = .ok () ∧
      ∀ mid timestamp body now, (signedMessage mid timestamp body).WellFormed →
        verifyEventSubMessage openSigning "secret" mid timestamp
          "sha256=12024-01-01T0:00:00Z\x7b\x7d" body now = .ok () →
        "1" = mid ∧ "2024-01-01T0:00:00Z" = timestamp ∧ "\x7b\x7d" = body := by
  have hverified : verifyEventSubMessage openSigning "secret" "1" "2024-01-01T0:00:00Z"
      "sha256=12024-01-01T0:00:00Z\x7b\x7d" "\x7b\x7d" 0 = .ok () := by decide +kernel
  refine ⟨hverified, fun mid timestamp body now hformed h => ?_⟩
  exact signed_bytes_unambiguous.2 openSigning "secret" _ (fun _ _ h => h) _ _ _ 0 _ _ _ now
    firstMessage_wellFormed hformed hverified h

end Ferventio
