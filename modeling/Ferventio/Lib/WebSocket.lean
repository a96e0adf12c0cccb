import Mathlib.Data.UInt

/-!
# WebSocket frames

The frames of a client: final, masked, and with the reserved bits clear. A length is written in one
of three ways, and none of them has to be the shortest. The decoder follows RFC 6455, which asks for
the shortest.
-/

namespace WebSocket

/-- A text. -/
abbrev Bytes := List UInt8

/-- The number of the bytes, most significant first. -/
def ofBigEndian (bytes : Bytes) : ℕ := bytes.foldl (fun n b => n * 256 + b.toNat) 0

/-- The last `k` bytes of a number. -/
def bigEndian : ℕ → ℕ → Bytes
  | 0, _ => []
  | k + 1, n => bigEndian k (n / 256) ++ [UInt8.ofNat n]

/-- Each byte is combined with one of the four of the key. -/
def applyMask (key payload : Bytes) : Bytes := payload.mapIdx fun i b => b ^^^ key.getD (i % 4) 0

/-- The ways to write the length of a masked payload. -/
inductive SizeBytes : ℕ → Bytes → Prop
  | short (n : UInt8) (h : n ≤ 125) : SizeBytes n.toNat [0x80 ||| n]
  | medium (size : Bytes) (h : size.length = 2) : SizeBytes (ofBigEndian size) (0xfe :: size)
  | long (size : Bytes) (h : size.length = 8) : SizeBytes (ofBigEndian size) (0xff :: size)

/-- The bytes of a final and masked frame without reserved bits. -/
inductive ClientFrame (opcode : UInt8) : Bytes → Bytes → Prop
  | mk {size key masked : Bytes} (hsize : SizeBytes masked.length size) (hkey : key.length = 4) :
      ClientFrame opcode (applyMask key masked) ((0x80 ||| opcode) :: size ++ key ++ masked)

@[simp] theorem length_applyMask (key payload : Bytes) :
    (applyMask key payload).length = payload.length :=
  List.length_mapIdx

theorem forall_byte {P : UInt8 → Prop} (h : ∀ n : Fin 256, P (UInt8.ofFin n)) (b : UInt8) : P b :=
  h b.toFin

theorem first_byte_eq : ∀ b : UInt8, b &&& 0x70 = 0 → b &&& 0x80 ≠ 0 →
    b &&& 0x0f < 16 ∧ b = 0x80 ||| (b &&& 0x0f) :=
  forall_byte (by decide +kernel)

theorem first_byte_of_opcode : ∀ opcode : UInt8, opcode < 16 → (0x80 ||| opcode) &&& 0x70 = 0 ∧
    (0x80 ||| opcode) &&& 0x80 ≠ 0 ∧ (0x80 ||| opcode) &&& 0x0f = opcode :=
  forall_byte (by decide +kernel)

theorem size_byte_iff : ∀ b : UInt8, b &&& 0x80 ≠ 0 → (b &&& 0x7f = 126 ↔ b = 0xfe) ∧
    (b &&& 0x7f = 127 ↔ b = 0xff) ∧
    (b &&& 0x7f ≠ 126 ∧ b &&& 0x7f ≠ 127 ↔ b &&& 0x7f ≤ 125) ∧ b = 0x80 ||| (b &&& 0x7f) :=
  forall_byte (by decide +kernel)

theorem short_size_byte : ∀ n : UInt8, n ≤ 125 → (0x80 ||| n) &&& 0x80 ≠ 0 ∧
    (0x80 ||| n) &&& 0x7f = n :=
  forall_byte (by decide +kernel)

theorem SizeBytes.exists_cons {n : ℕ} {size : Bytes} (h : SizeBytes n size) :
    ∃ second more, size = second :: more ∧ second &&& 0x80 ≠ 0 := by
  cases h with
  | short n hn => exact ⟨_, _, rfl, (short_size_byte n hn).1⟩
  | medium size => exact ⟨_, _, rfl, by decide⟩
  | long size => exact ⟨_, _, rfl, by decide⟩

/-! ## Decoding -/

/-- A frame. -/
structure Frame where
  final : Bool
  opcode : UInt8
  masked : Bool
  payload : Bytes
deriving DecidableEq

/-- The next bytes. -/
def takeBytes (n : ℕ) (input : Bytes) : Option (Bytes × Bytes) :=
  if n ≤ input.length then some (input.take n, input.drop n) else none

/-- A length that is not written in the shortest way is refused. -/
def decodeLength (code : UInt8) (input : Bytes) : Option (ℕ × Bytes) :=
  if code = 126 then
    (takeBytes 2 input).bind fun (size, input) =>
      let length := ofBigEndian size
      if 125 < length then some (length, input) else none
  else if code = 127 then
    (takeBytes 8 input).bind fun (size, input) =>
      let length := ofBigEndian size
      if 65535 < length ∧ length < 2 ^ 63 then some (length, input) else none
  else some (code.toNat, input)

/-- One frame of RFC 6455, without extensions. -/
def decodeFrame : Bytes → Option (Frame × Bytes)
  | first :: second :: input =>
    let masked := second &&& 0x80 != 0
    if first &&& 0x70 ≠ 0 then none
    else
      (decodeLength (second &&& 0x7f) input).bind fun (length, input) =>
        (takeBytes (if masked then 4 else 0) input).bind fun (key, input) =>
          (takeBytes length input).map fun (payload, input) =>
            ({ final := first &&& 0x80 != 0, opcode := first &&& 0x0f, masked
               payload := if masked then applyMask key payload else payload }, input)
  | _ => none

/-- The frames of a stream; `fuel` is its length. -/
def decodeFrames : ℕ → Bytes → Option (List Frame)
  | _, [] => some []
  | 0, _ => none
  | fuel + 1, input =>
    (decodeFrame input).bind fun (frame, input) => (decodeFrames fuel input).map (frame :: ·)

/-- All frames of a text. -/
def decodeStream (input : Bytes) : Option (List Frame) := decodeFrames input.length input

theorem length_bigEndian (k n : ℕ) : (bigEndian k n).length = k := by
  induction k generalizing n with
  | zero => rfl
  | succ k ih => simp [bigEndian, ih]

theorem ofBigEndian_bigEndian {k n : ℕ} (h : n < 256 ^ k) : ofBigEndian (bigEndian k n) = n := by
  induction k generalizing n with
  | zero =>
    obtain rfl : n = 0 := by simpa using h
    rfl
  | succ k ih =>
    have hfront : ofBigEndian (bigEndian k (n / 256)) = n / 256 :=
      ih (Nat.div_lt_of_lt_mul (by rwa [← Nat.pow_succ']))
    rw [bigEndian, ofBigEndian, List.foldl_append]
    show ofBigEndian (bigEndian k (n / 256)) * 256 + (UInt8.ofNat n).toNat = n
    rw [hfront, UInt8.toNat_ofNat']
    omega

theorem takeBytes_append (bytes rest : Bytes) :
    takeBytes bytes.length (bytes ++ rest) = some (bytes, rest) := by
  simp [takeBytes]

theorem takeBytes_bigEndian (k n : ℕ) (rest : Bytes) :
    takeBytes k (bigEndian k n ++ rest) = some (bigEndian k n, rest) := by
  have htake := takeBytes_append (bigEndian k n) rest
  rwa [length_bigEndian] at htake

theorem short_byte : ∀ n : UInt8, n ≤ 125 → n &&& 0x80 = 0 ∧ n &&& 0x7f = n ∧ n ≠ 126 ∧ n ≠ 127 :=
  forall_byte (by decide +kernel)

theorem decodeFrame_of_length {opcode second : UInt8} {input payload rest : Bytes}
    (hop : opcode < 16) (hsec : second &&& 0x80 = 0)
    (hlen : decodeLength (second &&& 0x7f) input = some (payload.length, payload ++ rest)) :
    decodeFrame ((0x80 ||| opcode) :: second :: input) =
      some (⟨true, opcode, false, payload⟩, rest) := by
  obtain ⟨hreserved, hfinal, hcode⟩ := first_byte_of_opcode opcode hop
  have hempty : takeBytes 0 (payload ++ rest) = some ([], payload ++ rest) := takeBytes_append [] _
  simp [decodeFrame, hreserved, hfinal, hcode, hsec, hlen, hempty, takeBytes_append]

end WebSocket
