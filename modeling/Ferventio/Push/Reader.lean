import Ferventio.Domain
import Ferventio.Lib.WebSocket

/-!
# Reading from a push socket

`readTextWithDeadline` of `push_socket.go` reads the frames of a client until it has a text. It
answers pings, skips pongs, and fails on everything else. The deadlines are met and the writes
succeed. After an error the connection is closed, so what was left unread is dropped.

* **`websocket_reader_grammar`**: which texts the reader returns.
* **`written_frames_decoded`**: what `writeFrame` writes is read back.
-/

namespace Ferventio

open WebSocket List

variable {opcode : UInt8} {length n : ℕ}

/-! ## The code -/

/-- The limit of a message. -/
def maxSocketMessageBytes : ℕ := 65536

/-- What is to be read, what was written, and the buffers so far. -/
structure SocketStream where
  input : Bytes
  written : Bytes := []
  allocated : List ℕ := []

/-- Write a frame. -/
def writeFrame (opcode : UInt8) (payload : Bytes) : Bytes :=
  let length := payload.length
  (0x80 ||| opcode) ::
    (if length ≤ 125 then [UInt8.ofNat length]
    else if length ≤ 65535 then 126 :: bigEndian 2 length
    else 127 :: bigEndian 8 length) ++ payload

/-- `io.ReadFull`. -/
def readFull (n : ℕ) (input : Bytes) : Result (Bytes × Bytes) :=
  if n ≤ input.length then .ok (input.take n, input.drop n)
  else .error (.plain (if input = [] then "EOF" else "unexpected EOF"))

/-- The extended length. -/
def readLength (code : UInt8) (input : Bytes) : Result (ℕ × Bytes) :=
  if code = 126 then (readFull 2 input).map fun read => (ofBigEndian read.1, read.2)
  else if code = 127 then (readFull 8 input).map fun read => (ofBigEndian read.1, read.2)
  else .ok (code.toNat, input)

/-- The frames that are refused. -/
def checkFrame (fin : Bool) (opcode : UInt8) (length : ℕ) : Result Unit :=
  if opcode ≥ 0x8 ∧ !fin then .error (.plain "fragmented WebSocket control frame")
  else if opcode ≥ 0x8 ∧ length > 125 then
    .error (.plain "WebSocket control frame exceeds 125 bytes")
  else if !fin then .error (.plain "fragmented WebSocket frames are not supported")
  else if length > maxSocketMessageBytes then .error (.plain "WebSocket frame exceeds 65536 bytes")
  else .ok ()

/-- What precedes the payload. -/
structure FrameHeader where
  opcode : UInt8
  length : ℕ
  mask : Bytes

/-- Read up to the payload. -/
def readHeader : Bytes → Result (FrameHeader × Bytes)
  | first :: second :: input =>
    let fin := first &&& 0x80 != 0
    let opcode := first &&& 0x0f
    let masked := second &&& 0x80 != 0
    if first &&& 0x70 ≠ 0 then .error (.plain "WebSocket reserved bits are not supported")
    else if !masked then .error (.plain "client WebSocket frame is not masked")
    else
      match readLength (second &&& 0x7f) input with
      | .error err => .error err
      | .ok (length, input) =>
        match checkFrame fin opcode length with
        | .error err => .error err
        | .ok () =>
          match readFull 4 input with
          | .error err => .error err
          | .ok (mask, input) => .ok (⟨opcode, length, mask⟩, input)
  | _ => .error (.plain "EOF")

/-- How a round of the loop ends. -/
inductive Received
  | text (payload : Bytes)
  | again
  | failed (err : GoError)

/-- More was written. -/
def SocketStream.write (s : SocketStream) (bytes : Bytes) : SocketStream :=
  { s with written := s.written ++ bytes }

/-- The last `switch`. -/
def handleFrame (opcode : UInt8) (payload : Bytes) (s : SocketStream) : Received × SocketStream :=
  if opcode = 0x1 then (.text payload, s)
  else if opcode = 0x8 then (.failed (.plain "EOF"), s.write (writeFrame 0x8 payload))
  else if opcode = 0x9 then (.again, s.write (writeFrame 0xa payload))
  else if opcode = 0xa then (.again, s)
  else (.failed (.plain ("unsupported WebSocket opcode " ++ toString opcode.toNat)), s)

/-- Read one frame. -/
def readFrame (s : SocketStream) : Received × SocketStream :=
  match readHeader s.input with
  | .error err => (.failed err, { s with input := [] })
  | .ok (header, input) =>
    let s := { s with input, allocated := s.allocated ++ [header.length] }
    match readFull header.length input with
    | .error err => (.failed err, { s with input := [] })
    | .ok (payload, input) =>
      handleFrame header.opcode (applyMask header.mask payload) { s with input }

/-! ## One frame -/

section Frame

variable {input rest payload bytes : Bytes} {s s' : SocketStream}

theorem readFull_ok_iff {value : Bytes} :
    readFull n input = .ok (value, rest) ↔ value.length = n ∧ input = value ++ rest := by
  unfold readFull
  constructor
  · intro h
    split_ifs at h with hlen
    cases h
    exact ⟨length_take_of_le hlen, (take_append_drop n input).symm⟩
  · rintro ⟨rfl, rfl⟩
    rw [if_pos (by simp), take_left, drop_left]

theorem readFull_map_ok_iff :
    (readFull n input).map (fun read => (ofBigEndian read.1, read.2)) = .ok (length, rest) ↔
      ∃ size, size.length = n ∧ length = ofBigEndian size ∧ input = size ++ rest := by
  constructor
  · intro h
    cases hread : readFull n input with
    | error err =>
      rw [hread] at h
      cases h
    | ok read =>
      rw [hread] at h
      cases h
      obtain ⟨hlen, hinput⟩ := readFull_ok_iff.mp hread
      exact ⟨read.1, hlen, rfl, hinput⟩
  · rintro ⟨size, hlen, rfl, hinput⟩
    rw [readFull_ok_iff.mpr ⟨hlen, hinput⟩]
    rfl

theorem readLength_ok_iff {second : UInt8} (hmasked : second &&& 0x80 ≠ 0) :
    readLength (second &&& 0x7f) input = .ok (length, rest) ↔
      ∃ size, SizeBytes length size ∧ second :: input = size ++ rest := by
  obtain ⟨hmedium, hlong, hshort, hsec⟩ := size_byte_iff second hmasked
  unfold readLength
  constructor
  · intro h
    split_ifs at h with h126 h127
    · obtain ⟨size, hsize, rfl, rfl⟩ := readFull_map_ok_iff.mp h
      exact ⟨_, .medium size hsize, by rw [hmedium.mp h126]; rfl⟩
    · obtain ⟨size, hsize, rfl, rfl⟩ := readFull_map_ok_iff.mp h
      exact ⟨_, .long size hsize, by rw [hlong.mp h127]; rfl⟩
    · cases h
      exact ⟨_, .short _ (hshort.mp ⟨h126, h127⟩), by rw [← hsec]; rfl⟩
  · rintro ⟨size, hsize, hinput⟩
    cases hsize with
    | short n hn =>
      cases hinput
      obtain ⟨-, hcode⟩ := short_size_byte n hn
      rw [hcode] at hshort ⊢
      rw [if_neg (hshort.mpr hn).1, if_neg (hshort.mpr hn).2]
      rfl
    | medium size hsize =>
      cases hinput
      rw [if_pos (hmedium.mpr rfl)]
      exact readFull_map_ok_iff.mpr ⟨size, hsize, rfl, rfl⟩
    | long size hsize =>
      cases hinput
      rw [if_neg (by decide), if_pos (hlong.mpr rfl)]
      exact readFull_map_ok_iff.mpr ⟨size, hsize, rfl, rfl⟩

theorem checkFrame_ok_iff {fin : Bool} :
    checkFrame fin opcode length = .ok () ↔
      fin ∧ (8 ≤ opcode → length ≤ 125) ∧ length ≤ maxSocketMessageBytes := by
  unfold checkFrame
  split_ifs with h1 h2 h3 h4 <;> simp_all

/-- The limits on the length of a frame. -/
def WithinLimits (opcode : UInt8) (length : ℕ) : Prop :=
  opcode < 16 ∧ (8 ≤ opcode → length ≤ 125) ∧ length ≤ maxSocketMessageBytes

theorem readHeader_ok_iff {header : FrameHeader} :
    readHeader input = .ok (header, rest) ↔ WithinLimits header.opcode header.length ∧
      header.mask.length = 4 ∧ ∃ size, SizeBytes header.length size ∧
        input = (0x80 ||| header.opcode) :: size ++ header.mask ++ rest := by
  constructor
  · intro h
    unfold readHeader at h
    split at h
    · rename_i first second input
      dsimp only at h
      split_ifs at h with hreserved hmasked
      rw [not_not] at hreserved
      simp only [Bool.not_eq_true', bne_eq_false_iff_eq] at hmasked
      split at h
      · cases h
      · rename_i length input' hlen
        split at h
        · cases h
        · rename_i hcheck
          split at h
          · cases h
          · rename_i mask input'' hmask
            cases h
            obtain ⟨hfin, hcontrol, hmax⟩ := checkFrame_ok_iff.mp hcheck
            obtain ⟨hop, hfirst⟩ := first_byte_eq first hreserved (bne_iff_ne.mp hfin)
            obtain ⟨size, hsize, hinput⟩ := (readLength_ok_iff hmasked).mp hlen
            obtain ⟨hfour, rfl⟩ := readFull_ok_iff.mp hmask
            refine ⟨⟨hop, hcontrol, hmax⟩, hfour, size, hsize, ?_⟩
            rw [← hfirst, hinput]
            simp
    · cases h
  · obtain ⟨opcode, length, mask⟩ := header
    rintro ⟨⟨hop, hcontrol, hmax⟩, hmask, size, hsize, rfl⟩
    obtain ⟨second, more, rfl, hmasked⟩ := hsize.exists_cons
    obtain ⟨hreserved, hfin, hcode⟩ := first_byte_of_opcode opcode hop
    have hlen : readLength (second &&& 0x7f) (more ++ (mask ++ rest)) =
        .ok (length, mask ++ rest) := (readLength_ok_iff hmasked).mpr ⟨_, hsize, rfl⟩
    have hcheck : checkFrame ((0x80 ||| opcode) &&& 0x80 != 0) opcode length = .ok () :=
      checkFrame_ok_iff.mpr ⟨bne_iff_ne.mpr hfin, hcontrol, hmax⟩
    have hfour : readFull 4 (mask ++ rest) = .ok (mask, rest) := readFull_ok_iff.mpr ⟨hmask, rfl⟩
    have hbit : (second &&& 0x80 != 0) = true := bne_iff_ne.mpr hmasked
    rw [cons_append, cons_append, cons_append, cons_append, append_assoc, readHeader]
    simp only [hreserved, hbit, hcode, hlen, hcheck, hfour, ne_eq, not_true_eq_false, if_false,
      Bool.not_true, Bool.false_eq_true]

theorem readFrame_of_frame (hframe : ClientFrame opcode payload bytes)
    (hlim : WithinLimits opcode payload.length) (hinput : s.input = bytes ++ rest) :
    readFrame s = handleFrame opcode payload
      { s with input := rest, allocated := s.allocated ++ [payload.length] } := by
  obtain ⟨hsize, hkey⟩ := hframe
  rename_i size key masked
  rw [length_applyMask] at hlim ⊢
  have hheader : readHeader s.input = .ok (⟨opcode, masked.length, key⟩, masked ++ rest) := by
    refine readHeader_ok_iff.mpr ⟨hlim, hkey, size, hsize, ?_⟩
    rw [hinput, append_assoc]
  have hpay : readFull masked.length (masked ++ rest) = .ok (masked, rest) :=
    readFull_ok_iff.mpr ⟨rfl, rfl⟩
  simp only [readFrame, hheader, hpay]

theorem exists_frame (hrecv : ∀ err, (readFrame s).1 ≠ .failed err) :
    ∃ opcode payload bytes rest, ClientFrame opcode payload bytes ∧
      WithinLimits opcode payload.length ∧ s.input = bytes ++ rest := by
  unfold readFrame at hrecv
  split at hrecv
  · exact absurd rfl (hrecv _)
  · rename_i header input hheader
    dsimp only at hrecv
    split at hrecv
    · exact absurd rfl (hrecv _)
    · rename_i masked rest hpay
      obtain ⟨hlim, hkey, size, hsize, hinput⟩ := readHeader_ok_iff.mp hheader
      obtain ⟨hlen, rfl⟩ := readFull_ok_iff.mp hpay
      rw [← hlen] at hlim hsize
      refine ⟨header.opcode, _, _, rest, .mk hsize hkey, ?_, ?_⟩
      · rwa [length_applyMask]
      · rw [hinput, append_assoc _ masked rest]

theorem readFrame_allocated (s : SocketStream) :
    ∃ sizes : List ℕ, (readFrame s).2.allocated = s.allocated ++ sizes ∧
      ∀ n ∈ sizes, n ≤ maxSocketMessageBytes := by
  have hhandle : ∀ opcode payload (s : SocketStream),
      (handleFrame opcode payload s).2.allocated = s.allocated := by
    intro opcode payload s
    unfold handleFrame
    split_ifs <;> rfl
  unfold readFrame
  split
  · exact ⟨[], (append_nil _).symm, nofun⟩
  · rename_i header input hheader
    have hmax := (readHeader_ok_iff.mp hheader).1.2.2
    have hone : ∀ n ∈ [header.length], n ≤ maxSocketMessageBytes := by
      intro n hn
      rwa [mem_singleton.mp hn]
    dsimp only
    split
    · exact ⟨_, rfl, hone⟩
    · exact ⟨_, hhandle _ _ _, hone⟩

theorem ClientFrame.length_pos (h : ClientFrame opcode payload bytes) : 0 < bytes.length := by
  cases h
  simp

theorem readFrame_again_lt (h : readFrame s = (.again, s')) : s'.input.length < s.input.length := by
  obtain ⟨opcode, payload, bytes, rest, hframe, hlim, hinput⟩ := exists_frame (s := s)
    (by rw [h]; nofun)
  rw [readFrame_of_frame hframe hlim hinput] at h
  have hrest : s'.input = rest := by
    unfold handleFrame at h
    split_ifs at h <;> cases h <;> rfl
  have hpos := ClientFrame.length_pos hframe
  rw [hrest, hinput, length_append]
  omega

end Frame

/-! ## The loop -/

/-- Read up to the next text. -/
def readTextWithDeadline (s : SocketStream) : Result Bytes × SocketStream :=
  match _h : readFrame s with
  | (.text payload, s') => (.ok payload, s')
  | (.failed err, s') => (.error err, s')
  | (.again, s') => readTextWithDeadline s'
termination_by s.input.length
decreasing_by exact readFrame_again_lt _h

/-- **The streams that hold a text**: pings and pongs of at most 125 bytes, then a text of at most
64 KiB. The other arguments are the text, the pings and the rest. -/
inductive Accepts : Bytes → Bytes → List Bytes → Bytes → Prop
  | text {payload bytes rest : Bytes} (hframe : ClientFrame 0x1 payload bytes)
      (hlen : payload.length ≤ maxSocketMessageBytes) : Accepts (bytes ++ rest) payload [] rest
  | ping {payload bytes input text rest : Bytes} {pings : List Bytes}
      (hframe : ClientFrame 0x9 payload bytes) (hlen : payload.length ≤ 125)
      (h : Accepts input text pings rest) : Accepts (bytes ++ input) text (payload :: pings) rest
  | pong {payload bytes input text rest : Bytes} {pings : List Bytes}
      (hframe : ClientFrame 0xa payload bytes) (hlen : payload.length ≤ 125)
      (h : Accepts input text pings rest) : Accepts (bytes ++ input) text pings rest

theorem readTextWithDeadline_eq (s : SocketStream) :
    readTextWithDeadline s = match readFrame s with
      | (.text payload, s') => (.ok payload, s')
      | (.failed err, s') => (.error err, s')
      | (.again, s') => readTextWithDeadline s' := by
  rw [readTextWithDeadline]
  split <;> simp only [*]

section Loop

variable {input text rest : Bytes} {pings : List Bytes} {s s' : SocketStream}

theorem withinLimits_text (h : n ≤ maxSocketMessageBytes) : WithinLimits 0x1 n :=
  ⟨by decide, fun hcontrol => absurd hcontrol (by decide), h⟩

theorem withinLimits_control (hop : opcode < 16) (h : n ≤ 125) : WithinLimits opcode n :=
  ⟨hop, fun _ => h, h.trans (by decide)⟩

theorem readTextWithDeadline_of_accepts (h : Accepts input text pings rest)
    (hinput : s.input = input) :
    (readTextWithDeadline s).1 = .ok text ∧ (readTextWithDeadline s).2.input = rest ∧
      (readTextWithDeadline s).2.written = s.written ++ pings.flatMap (writeFrame 0xa) := by
  induction h generalizing s with
  | text hframe hlen =>
    have hround := readFrame_of_frame hframe (withinLimits_text hlen) hinput
    rw [readTextWithDeadline_eq, hround]
    exact ⟨rfl, rfl, (append_nil _).symm⟩
  | ping hframe hlen _ ih =>
    have hround := readFrame_of_frame hframe (withinLimits_control (by decide) hlen) hinput
    rw [readTextWithDeadline_eq, hround, flatMap_cons, ← append_assoc]
    exact ih rfl
  | pong hframe hlen _ ih =>
    have hround := readFrame_of_frame hframe (withinLimits_control (by decide) hlen) hinput
    rw [readTextWithDeadline_eq, hround]
    exact ih rfl

theorem accepts_of_readTextWithDeadline (h : (readTextWithDeadline s).1 = .ok text) :
    ∃ pings rest, Accepts s.input text pings rest := by
  fun_induction readTextWithDeadline s with
  | case1 s payload s' hround =>
    cases h
    obtain ⟨opcode, payload, bytes, rest, hframe, hlim, hinput⟩ :=
      exists_frame fun err => by rw [hround]; nofun
    rw [readFrame_of_frame hframe hlim hinput] at hround
    unfold handleFrame at hround
    split_ifs at hround with hop <;> cases hround
    subst hop
    rw [hinput]
    exact ⟨[], rest, .text hframe hlim.2.2⟩
  | case2 s err s' hround => cases h
  | case3 s s' hround ih =>
    obtain ⟨opcode, payload, bytes, rest, hframe, hlim, hinput⟩ :=
      exists_frame fun err => by rw [hround]; nofun
    obtain ⟨pings, rest', haccepts⟩ := ih h
    rw [readFrame_of_frame hframe hlim hinput] at hround
    unfold handleFrame at hround
    rw [hinput]
    split_ifs at hround with h1 h8 h9 h10 <;> cases hround
    · subst h9
      exact ⟨_, _, .ping hframe (hlim.2.1 (by decide)) haccepts⟩
    · subst h10
      exact ⟨_, _, .pong hframe (hlim.2.1 (by decide)) haccepts⟩

theorem readTextWithDeadline_allocated (h : ∀ n ∈ s.allocated, n ≤ maxSocketMessageBytes) :
    ∀ n ∈ (readTextWithDeadline s).2.allocated, n ≤ maxSocketMessageBytes := by
  have hround : ∀ s : SocketStream, (∀ n ∈ s.allocated, n ≤ maxSocketMessageBytes) →
      ∀ n ∈ (readFrame s).2.allocated, n ≤ maxSocketMessageBytes := by
    intro s h n hn
    obtain ⟨sizes, hsizes, hle⟩ := readFrame_allocated s
    rw [hsizes] at hn
    exact (mem_append.mp hn).elim (h n) (hle n)
  fun_induction readTextWithDeadline s with
  | case1 s payload s' heq =>
    have hs' := hround s h
    rwa [heq] at hs'
  | case2 s err s' heq =>
    have hs' := hround s h
    rwa [heq] at hs'
  | case3 s s' heq ih =>
    have hs' := hround s h
    rw [heq] at hs'
    exact ih hs'

end Loop

/-- **The grammar of the reader.** It returns a text exactly when the stream starts with pings and
pongs and then that text; it has then consumed these frames and answered each ping, in order.
Otherwise it returns an error. No buffer is larger than 64 KiB. -/
theorem websocket_reader_grammar (input : Bytes) :
    (∀ text rest written,
      ((readTextWithDeadline { input }).1 = .ok text ∧
          (readTextWithDeadline { input }).2.input = rest ∧
          (readTextWithDeadline { input }).2.written = written) ↔
        ∃ pings, Accepts input text pings rest ∧ written = pings.flatMap (writeFrame 0xa)) ∧
      ((∀ text pings rest, ¬Accepts input text pings rest) →
        ∃ err, (readTextWithDeadline { input }).1 = .error err) ∧
      ∀ n ∈ (readTextWithDeadline { input }).2.allocated, n ≤ maxSocketMessageBytes := by
  refine ⟨fun text rest written => ⟨?_, ?_⟩, fun hother => ?_, readTextWithDeadline_allocated nofun⟩
  · rintro ⟨htext, rfl, rfl⟩
    obtain ⟨pings, rest, haccepts⟩ := accepts_of_readTextWithDeadline htext
    obtain ⟨-, hrest, hwritten⟩ := readTextWithDeadline_of_accepts haccepts rfl
    exact ⟨pings, hrest ▸ haccepts, hwritten⟩
  · rintro ⟨pings, haccepts, rfl⟩
    exact readTextWithDeadline_of_accepts haccepts rfl
  · cases hres : (readTextWithDeadline { input }).1 with
    | error err => exact ⟨err, rfl⟩
    | ok text =>
      obtain ⟨pings, rest, haccepts⟩ := accepts_of_readTextWithDeadline hres
      exact absurd haccepts (hother text pings rest)

/-! ## The writer -/

theorem decodeFrame_writeFrame {payload : Bytes} (hop : opcode < 16)
    (hlen : payload.length < 2 ^ 63) (rest : Bytes) :
    decodeFrame (writeFrame opcode payload ++ rest) =
      some (⟨true, opcode, false, payload⟩, rest) := by
  unfold writeFrame
  dsimp only
  split_ifs with hshort hmedium
  · have hbyte : UInt8.ofNat payload.length ≤ 125 := by
      rw [UInt8.le_iff_toNat_le, UInt8.toNat_ofNat']
      show payload.length % 256 ≤ 125
      omega
    obtain ⟨hmask, hcode, h126, h127⟩ := short_byte _ hbyte
    refine decodeFrame_of_length hop hmask ?_
    rw [hcode, decodeLength, if_neg h126, if_neg h127, UInt8.toNat_ofNat',
      Nat.mod_eq_of_lt (by omega)]
    rfl
  · have hsize : ofBigEndian (bigEndian 2 payload.length) = payload.length :=
      ofBigEndian_bigEndian (by omega)
    rw [cons_append, cons_append, append_assoc, cons_append]
    refine decodeFrame_of_length hop (by decide) ?_
    rw [decodeLength, if_pos (by decide), takeBytes_bigEndian]
    simp only [Option.bind_some, hsize, if_pos (not_le.mp hshort)]
  · have hsize : ofBigEndian (bigEndian 8 payload.length) = payload.length :=
      ofBigEndian_bigEndian (by omega)
    rw [cons_append, cons_append, append_assoc, cons_append]
    refine decodeFrame_of_length hop (by decide) ?_
    rw [decodeLength, if_neg (by decide), if_pos (by decide), takeBytes_bigEndian]
    simp only [Option.bind_some, hsize, if_pos (And.intro (not_le.mp hmedium) hlen)]

theorem decodeFrames_written (calls : List (UInt8 × Bytes))
    (hcalls : ∀ call ∈ calls, call.1 < 16 ∧ call.2.length < 2 ^ 63) {fuel : ℕ}
    (hfuel : (calls.flatMap fun call => writeFrame call.1 call.2).length ≤ fuel) :
    decodeFrames fuel (calls.flatMap fun call => writeFrame call.1 call.2) =
      some (calls.map fun call => ⟨true, call.1, false, call.2⟩) := by
  induction calls generalizing fuel with
  | nil => cases fuel <;> rfl
  | cons call calls ih =>
    rw [flatMap_cons] at hfuel ⊢
    cases fuel with
    | zero => cases hfuel
    | succ fuel =>
      obtain ⟨hop, hlen⟩ := hcalls call mem_cons_self
      have hframe := decodeFrame_writeFrame hop hlen
        (calls.flatMap fun call => writeFrame call.1 call.2)
      have hwritten : 0 < (writeFrame call.1 call.2).length := Nat.succ_pos _
      have hleft : (calls.flatMap fun call => writeFrame call.1 call.2).length ≤ fuel := by
        rw [length_append] at hfuel
        omega
      have hrest := ih (fun call hcall => hcalls call (mem_cons_of_mem _ hcall)) hleft
      show (decodeFrame _).bind _ = _
      rw [hframe]
      simp only [Option.bind_some, hrest, Option.map_some, map_cons]

/-- **What the writer writes is read back** by a decoder of RFC 6455: final, unmasked frames, with
lengths in the shortest form. -/
theorem written_frames_decoded (calls : List (UInt8 × Bytes))
    (hcalls : ∀ call ∈ calls, call.1 < 16 ∧ call.2.length < 2 ^ 63) :
    decodeStream (calls.flatMap fun call => writeFrame call.1 call.2) =
      some (calls.map fun call => ⟨true, call.1, false, call.2⟩) :=
  decodeFrames_written calls hcalls le_rfl

theorem text_and_ping_decoded :
    decodeStream (writeFrame 0x1 [104, 105] ++ writeFrame 0x9 []) =
      some [⟨true, 0x1, false, [104, 105]⟩, ⟨true, 0x9, false, []⟩] :=
  written_frames_decoded [(0x1, [104, 105]), (0x9, [])] (by decide)

end Ferventio
