import Mathlib.Data.BitVec
import Ferventio.Lib.Strings

/-!
# IP addresses

The part of Go's `net/netip` that address policies use: addresses of both families, the IPv6 ones
with a zone, prefixes, the predicates on them, and the textual forms. The zero value of `netip.Addr`
is no address; functions that may return it return an option here.
-/

namespace Netip

open Strings

/-- `netip.Addr`, other than its zero value. -/
inductive Addr
  | v4 (bits : BitVec 32)
  | v6 (bits : BitVec 128) (zone : String)
deriving DecidableEq

/-- An address from its bytes. -/
def octets (a b c d : Nat) : BitVec 32 := BitVec.ofNat 32 (((a * 256 + b) * 256 + c) * 256 + d)

/-- The address with the given groups, then zeros. -/
def groups (l : List Nat) : BitVec 128 :=
  BitVec.ofNat 128 (l.foldl (fun acc group => acc * 65536 + group) 0 * 65536 ^ (8 - l.length))

/-! ## Prefixes -/

instance neZero_33 : NeZero 33 := ⟨by decide⟩

instance neZero_129 : NeZero 129 := ⟨by decide⟩

/-- A valid `netip.Prefix`. -/
inductive Prefix
  | v4 (bits : BitVec 32) (length : Fin 33)
  | v6 (bits : BitVec 128) (length : Fin 129)
deriving DecidableEq

/-- `Contains`: no address with a zone or of the other family. -/
def Prefix.contains : Prefix → Addr → Bool
  | .v4 bits length, .v4 ip => (ip ^^^ bits) >>> (32 - length.val) == 0
  | .v6 bits length, .v6 ip zone => zone == "" && (ip ^^^ bits) >>> (128 - length.val) == 0
  | _, _ => false

namespace Addr

/-! ## Predicates -/

/-- `Zone`. -/
def zone : Addr → String
  | v4 _ => ""
  | v6 _ zone => zone

/-- `Is4`. -/
def is4 : Addr → Bool
  | v4 _ => true
  | v6 _ _ => false

/-- `Is6`. -/
def is6 (a : Addr) : Bool := !a.is4

/-- `Unmap`: an IPv4-mapped address becomes an IPv4 one. -/
def unmap : Addr → Addr
  | v4 bits => v4 bits
  | v6 bits zone => if bits >>> 32 = 0xffff then v4 (bits.setWidth 32) else v6 bits zone

/-- The IPv6 address `bits` is in the range, with any zone. -/
def inRange (bits : BitVec 128) (range : Prefix) : Bool := range.contains (v6 bits "")

/-- `IsUnspecified`. -/
def isUnspecified (a : Addr) : Bool := a == v4 0 || a == v6 0 ""

/-- `Addr.IsLoopback`: `127.0.0.0/8` and `::1`. -/
def isLoopback (a : Addr) : Bool :=
  match a.unmap with
  | v4 bits => (Prefix.v4 (octets 127 0 0 0) 8).contains (v4 bits)
  | v6 bits _ => bits == 1

/-- `Addr.IsMulticast`: `224.0.0.0/4` and `ff00::/8`. -/
def isMulticast (a : Addr) : Bool :=
  match a.unmap with
  | v4 bits => (Prefix.v4 (octets 224 0 0 0) 4).contains (v4 bits)
  | v6 bits _ => inRange bits (.v6 (groups [0xff00]) 8)

/-- `Addr.IsLinkLocalUnicast`: `169.254.0.0/16` and `fe80::/10`. -/
def isLinkLocalUnicast (a : Addr) : Bool :=
  match a.unmap with
  | v4 bits => (Prefix.v4 (octets 169 254 0 0) 16).contains (v4 bits)
  | v6 bits _ => inRange bits (.v6 (groups [0xfe80]) 10)

/-- `IsPrivate`. -/
def isPrivate (a : Addr) : Bool :=
  match a.unmap with
  | v4 bits =>
    (Prefix.v4 (octets 10 0 0 0) 8).contains (v4 bits) ||
      (Prefix.v4 (octets 172 16 0 0) 12).contains (v4 bits) ||
      (Prefix.v4 (octets 192 168 0 0) 16).contains (v4 bits)
  | v6 bits _ => inRange bits (.v6 (groups [0xfc00]) 7)

/-- `Addr.IsGlobalUnicast`, which private addresses satisfy. -/
def isGlobalUnicast (a : Addr) : Bool :=
  a != v4 0 && a != v4 (octets 255 255 255 255) && a != v6 0 "" && !a.isLoopback &&
    !a.isMulticast && !a.isLinkLocalUnicast

/-! ## Textual forms -/

/-- Dotted decimals. -/
def string4 (bits : BitVec 32) : String :=
  let octet := fun i => toString (bits.toNat / 256 ^ i % 256)
  octet 3 ++ "." ++ octet 2 ++ "." ++ octet 1 ++ "." ++ octet 0

/-- The groups of 16 bits. -/
def groupsOf (bits : BitVec 128) : List Nat :=
  (List.range 8).map fun i => bits.toNat / 65536 ^ (7 - i) % 65536

/-- The first longest run of at least two zero groups. -/
def zeroRun (l : List Nat) : Option (Nat × Nat) :=
  (List.range 8).foldl (fun best i =>
    let run := ((l.drop i).takeWhile (· == 0)).length
    if 2 ≤ run ∧ best.all (·.2 < run) then some (i, run) else best) none

/-- Hexadecimal groups, with colons between them. -/
def joinGroups (l : List Nat) : String :=
  ":".intercalate (l.map fun group => String.ofList (Nat.toDigits 16 group))

/-- The canonical form of an IPv6 address without its zone. -/
def string6 (bits : BitVec 128) : String :=
  let l := groupsOf bits
  match zeroRun l with
  | none => joinGroups l
  | some (start, run) => joinGroups (l.take start) ++ "::" ++ joinGroups (l.drop (start + run))

/-- `String`. -/
def string : Addr → String
  | v4 bits => string4 bits
  | v6 bits zone =>
    (if bits >>> 32 = 0xffff then "::ffff:" ++ string4 (bits.setWidth 32) else string6 bits) ++
      (if zone = "" then "" else "%" ++ zone)

end Addr

/-! ## Parsing -/

/-- An octet in decimal, without leading zeros. -/
def parseOctet (field : List Char) : Option Nat :=
  if field = [] ∨ field.head? = some '0' ∧ field ≠ ['0'] then none
  else (numeral 10 field).filter (· ≤ 255)

/-- The four decimals. -/
def parseIPv4Fields (s : List Char) : Option (List Nat) :=
  let fields := s.splitOn '.'
  if fields.length = 4 then fields.mapM parseOctet else none

/-- Parse dotted decimals. -/
def parseIPv4 (s : List Char) : Option Addr :=
  (parseIPv4Fields s).map fun fields =>
    .v4 (octets (fields.getD 0 0) (fields.getD 1 0) (fields.getD 2 0) (fields.getD 3 0))

/-- The loop of `parseIPv6`: the groups, the place of the ellipsis, and the rest of the text. -/
def parseGroups : Nat → List Nat → Option Nat → List Char →
    Option (List Nat × Option Nat × List Char)
  | 0, parsed, ellipsis, s => some (parsed, ellipsis, s)
  | room + 1, parsed, ellipsis, s =>
    let digits := s.takeWhile fun c => (digitValue 16 c).isSome
    if digits = [] ∨ 4 < digits.length then none
    else
      match s.drop digits.length with
      | '.' :: _ =>
        -- an IPv4 address in place of the last two groups
        if ellipsis = none ∧ parsed.length ≠ 6 ∨ 8 < parsed.length + 2 then none
        else (parseIPv4Fields s).map fun fields =>
          (parsed ++ [fields.getD 0 0 * 256 + fields.getD 1 0,
            fields.getD 2 0 * 256 + fields.getD 3 0], ellipsis, [])
      | rest =>
        (numeral 16 digits).bind fun group =>
          let parsed := parsed ++ [group]
          match rest with
          | [] => some (parsed, ellipsis, [])
          | [':', ':'] => if ellipsis.isSome then none else some (parsed, some parsed.length, [])
          | ':' :: ':' :: rest =>
            if ellipsis.isSome then none else parseGroups room parsed (some parsed.length) rest
          | ':' :: c :: rest => parseGroups room parsed ellipsis (c :: rest)
          | _ => none

/-- The groups with the zeros that the ellipsis stands for. -/
def expandEllipsis (parsed : List Nat) : Option Nat → Option (List Nat)
  | none => if parsed.length = 8 then some parsed else none
  | some start =>
    if parsed.length < 8 then
      some (parsed.take start ++ List.replicate (8 - parsed.length) 0 ++ parsed.drop start)
    else none

/-- Parse groups, with a zone. -/
def parseIPv6 (s : List Char) : Option Addr :=
  let text := s.takeWhile (· != '%')
  let zone := (s.drop text.length).drop 1
  if text.length < s.length ∧ zone = [] then none
  else
    let parsed :=
      match text with
      | [':', ':'] => some ([], some 0, [])
      | ':' :: ':' :: rest => parseGroups 8 [] (some 0) rest
      | _ => parseGroups 8 [] none text
    parsed.bind fun (parsed, ellipsis, rest) =>
      if rest ≠ [] then none
      else (expandEllipsis parsed ellipsis).map fun l => .v6 (groups l) (String.ofList zone)

/-- `ParseAddr`: the first dot, colon or percent sign decides. -/
def parseAddr (s : String) : Option Addr :=
  match s.toList.find? fun c => c == '.' || c == ':' || c == '%' with
  | some '.' => parseIPv4 s.toList
  | some ':' => parseIPv6 s.toList
  | _ => none

/-- `ParsePrefix`: no zone, no sign and no leading zero. -/
def parsePrefix (s : String) : Option Prefix :=
  let text := s.toList
  let length := (text.reverse.takeWhile (· != '/')).reverse
  if '/' ∉ text then none
  else
    (parseAddr (String.ofList (text.take (text.length - length.length - 1)))).bind fun ip =>
      if length = [] ∨ 1 < length.length ∧ length.head? = some '0' then none
      else
        (numeral 10 length).bind fun bits =>
          match ip with
          | .v4 ip => if h : bits < 33 then some (.v4 ip ⟨bits, h⟩) else none
          | .v6 ip zone => if h : bits < 129 ∧ zone = "" then some (.v6 ip ⟨bits, h.1⟩) else none

/-- `Masked`. -/
def Prefix.masked : Prefix → Prefix
  | .v4 bits length => .v4 (bits >>> (32 - length.val) <<< (32 - length.val)) length
  | .v6 bits length => .v6 (bits >>> (128 - length.val) <<< (128 - length.val)) length

/-- `String` of a range. -/
def Prefix.string : Prefix → String
  | .v4 bits length => (Addr.v4 bits).string ++ "/" ++ toString length.val
  | .v6 bits length => (Addr.v6 bits "").string ++ "/" ++ toString length.val

end Netip
