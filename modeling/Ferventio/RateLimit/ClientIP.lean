import Ferventio.Lib.Netip

/-!
# The address a request is counted under

`requestClientIP` of `rate_limit.go`. Behind trusted proxies the client is found in the header
`X-Forwarded-For`, to which each proxy adds the address it was called from. The header is walked
from the right, past the trusted proxies. A proxy may add to the last line of the header or write a
line of its own, but the code reads the first line only.

* **`client_address_unforgeable_iff`**: when the client cannot choose the result.
-/

namespace Ferventio

open Strings Netip List

/-! ## The code -/

/-- `net.SplitHostPort`, without its errors' texts. -/
def splitHostPort (hostport : String) : Option (String × String) :=
  let s := hostport.toList
  let port := s.reverse.takeWhile (· != ':')
  -- the text before the last colon
  let before := s.take (s.length - port.length - 1)
  let ok := fun (host : List Char) => some (String.ofList host, String.ofList port.reverse)
  if ':' ∉ s then none
  else
    match s with
    | '[' :: rest =>
      let host := rest.takeWhile (· != ']')
      -- the first closing bracket stands just before the last colon
      if ']' ∈ rest ∧ before = '[' :: host ++ [']'] ∧ '[' ∉ rest ∧ ']' ∉ port then ok host else none
    | _ => if ':' ∈ before ∨ '[' ∈ s ∨ ']' ∈ s then none else ok before

/-- An address, with or without a port. -/
def parseRequestIP (raw : String) : Option Addr :=
  let raw := trimSpace raw
  if raw = "" then none
  else
    let raw := ((splitHostPort raw).map Prod.fst).getD raw
    (parseAddr (trimSet "[]" raw)).map Addr.unmap

/-- The address is in one of the ranges. -/
def ipInPrefixes (address : Addr) (prefixes : List Netip.Prefix) : Bool :=
  prefixes.any fun range => range.contains address

/-- `Header.Get`, for the lines of one header. -/
def headerGet (lines : List String) : String := lines.head?.getD ""

/-- The addresses in a line of `X-Forwarded-For`. -/
def forwardedChain (line : String) : List Addr :=
  (line.toList.splitOn ',').filterMap fun raw => parseRequestIP (trimSpace (String.ofList raw))

/-- `forwardedFor` are the lines of `X-Forwarded-For`. -/
def requestClientIP (remoteAddr : String) (forwardedFor : List String)
    (trusted : List Netip.Prefix) : String :=
  match parseRequestIP remoteAddr with
  | none => "unknown"
  | some remote =>
    if !ipInPrefixes remote trusted then remote.string
    else
      let chain := forwardedChain (headerGet forwardedFor) ++ [remote]
      match chain.reverse.find? fun candidate => !ipInPrefixes candidate trusted with
      | some candidate => candidate.string
      | none => (chain.headD remote).string

/-! ## Proxies -/

/-- The text of an address, in any form that is read back. -/
structure Entry where
  text : String
  address : Addr
  read : parseRequestIP text = some address
  single : ',' ∉ text.toList

/-- A proxy adds to the last line, or writes a new one. -/
inductive Way
  | appended
  | newLine
deriving DecidableEq

/-- A proxy adds an entry. -/
def forward (way : Way) (text : String) (lines : List String) : List String :=
  match way, lines.getLast? with
  | .appended, some last => lines.dropLast ++ [last ++ "," ++ text]
  | _, _ => lines ++ [text]

/-- Proxies add their entries. -/
def forwardAll (added : List (Way × Entry)) (lines : List String) : List String :=
  added.foldl (fun lines e => forward e.1 e.2.text lines) lines

theorem parseRequestIP_trimSpace (raw : String) :
    parseRequestIP (trimSpace raw) = parseRequestIP raw := by
  unfold parseRequestIP
  rw [trimSpace_trimSpace]

theorem Entry.chain (e : Entry) : forwardedChain e.text = [e.address] := by
  unfold forwardedChain
  rw [splitOn_eq_singleton e.single]
  simp only [filterMap_cons, filterMap_nil, String.ofList_toList, parseRequestIP_trimSpace, e.read]

theorem Entry.chain_appended (e : Entry) (line : String) :
    forwardedChain (line ++ "," ++ e.text) = forwardedChain line ++ [e.address] := by
  have hsplit : (line ++ "," ++ e.text).toList.splitOn ',' =
      line.toList.splitOn ',' ++ e.text.toList.splitOn ',' := by
    rw [String.toList_append, String.toList_append, append_assoc]
    exact splitOn_append_cons_of_beq _ _ rfl
  rw [← e.chain]
  unfold forwardedChain
  rw [hsplit, filterMap_append]

/-! ## The walk -/

section Walk

variable {trusted : List Netip.Prefix} {client : Addr}

/-- The first line ends with the client and trusted addresses. -/
def Shows (trusted : List Netip.Prefix) (client : Addr) (lines : List String) : Prop :=
  ∃ before after, forwardedChain (headerGet lines) = before ++ client :: after ∧
    ∀ address ∈ after, ipInPrefixes address trusted

variable {lines : List String}

theorem forward_keeps_first {way : Way} (text line : String) (h : way = .newLine ∨ lines ≠ []) :
    ∃ lines', lines' ≠ [] ∧ forward way text (line :: lines) = line :: lines' := by
  unfold forward
  cases way with
  | newLine =>
    refine ⟨lines ++ [text], ?_, rfl⟩
    simp
  | appended =>
    have hne : lines ≠ [] := h.resolve_left (by decide)
    rw [List.getLast?_eq_some_getLast (cons_ne_nil line lines)]
    refine ⟨lines.dropLast ++ [(line :: lines).getLast (cons_ne_nil _ _) ++ "," ++ text], ?_, ?_⟩
    · simp
    · simp only [dropLast_cons_of_ne_nil hne, cons_append]

theorem Shows.forward (h : Shows trusted client lines) (hne : lines ≠ [])
    (way : Way) (e : Entry) (htrust : ipInPrefixes e.address trusted) :
    Shows trusted client (forward way e.text lines) := by
  obtain ⟨before, after, hchain, hafter⟩ := h
  obtain ⟨line, lines, rfl⟩ := exists_cons_of_ne_nil hne
  by_cases hfirst : way = .newLine ∨ lines ≠ []
  · obtain ⟨lines', -, hforward⟩ := forward_keeps_first e.text line hfirst
    rw [hforward]
    exact ⟨before, after, hchain, hafter⟩
  · -- the one line is extended
    rw [not_or, not_not] at hfirst
    obtain ⟨hway, rfl⟩ := hfirst
    cases way with
    | newLine => exact absurd rfl hway
    | appended =>
      refine ⟨before, after ++ [e.address], ?_, ?_⟩
      · have hline : headerGet (Ferventio.forward .appended e.text [line]) =
            line ++ "," ++ e.text := rfl
        rw [hline, e.chain_appended]
        have hchain' : forwardedChain line = before ++ client :: after := hchain
        rw [hchain', append_assoc, cons_append]
      · intro address hmem
        rcases mem_append.mp hmem with hmem | hmem
        · exact hafter address hmem
        · rw [mem_singleton.mp hmem]
          exact htrust

theorem forward_ne_nil (way : Way) (text : String) (lines : List String) :
    forward way text lines ≠ [] := by
  unfold forward
  split
  · simp
  · simp

theorem Shows.forwardAll {hops : List (Way × Entry)} (h : Shows trusted client lines)
    (hne : lines ≠ []) (hhops : ∀ hop ∈ hops, ipInPrefixes hop.2.address trusted) :
    Shows trusted client (forwardAll hops lines) := by
  induction hops generalizing lines with
  | nil => exact h
  | cons hop hops ih =>
    have hstep := h.forward hne hop.1 hop.2 (hhops hop mem_cons_self)
    exact ih hstep (forward_ne_nil _ _ _) fun hop' hmem => hhops hop' (mem_cons_of_mem _ hmem)

theorem forwardAll_keeps_first (added : List (Way × Entry)) (line : String)
    (h : lines ≠ []) : headerGet (forwardAll added (line :: lines)) = line := by
  induction added generalizing lines with
  | nil => rfl
  | cons e added ih =>
    obtain ⟨lines', hne, hforward⟩ :=
      forward_keeps_first e.2.text line (.inr h : e.1 = .newLine ∨ lines ≠ [])
    show headerGet (Ferventio.forwardAll added (Ferventio.forward e.1 e.2.text (line :: lines))) = _
    rw [hforward]
    exact ih hne

variable {remoteAddr : String} {remote : Addr}

theorem requestClientIP_of_trusted (hrem : parseRequestIP remoteAddr = some remote)
    (htrust : ipInPrefixes remote trusted) (lines : List String) :
    requestClientIP remoteAddr lines trusted =
      let chain := forwardedChain (headerGet lines) ++ [remote]
      match chain.reverse.find? fun candidate => !ipInPrefixes candidate trusted with
      | some candidate => candidate.string
      | none => (chain.headD remote).string := by
  simp only [requestClientIP, hrem, htrust, Bool.not_true, Bool.false_eq_true, if_false]

theorem Shows.found (h : Shows trusted client lines) (hclient : ipInPrefixes client trusted = false)
    (hrem : parseRequestIP remoteAddr = some remote) (htrust : ipInPrefixes remote trusted) :
    requestClientIP remoteAddr lines trusted = client.string := by
  obtain ⟨before, after, hchain, hafter⟩ := h
  have hfind : (forwardedChain (headerGet lines) ++ [remote]).reverse.find?
      (fun candidate => !ipInPrefixes candidate trusted) = some client := by
    have hskipped : ∀ address ∈ (after ++ [remote]).reverse, ¬(!ipInPrefixes address trusted) := by
      intro address hmem
      rw [mem_reverse, mem_append, mem_singleton] at hmem
      rcases hmem with hmem | rfl
      · simp [hafter address hmem]
      · simp [htrust]
    rw [hchain, append_assoc, cons_append, reverse_append, reverse_cons,
      append_assoc, List.find?_append, List.find?_eq_none.mpr hskipped]
    simp [hclient]
  rw [requestClientIP_of_trusted hrem htrust]
  dsimp only
  rw [hfind]

theorem requestClientIP_of_single (hrem : parseRequestIP remoteAddr = some remote)
    (htrust : ipInPrefixes remote trusted) (e : Entry) (hline : headerGet lines = e.text) :
    requestClientIP remoteAddr lines trusted = e.address.string := by
  rw [requestClientIP_of_trusted hrem htrust, hline, e.chain]
  by_cases h : ipInPrefixes e.address trusted
  · simp [htrust, h]
  · simp [htrust, h]

end Walk

/-! ## Forging -/

/-- An entry. -/
def oneAddress : Entry := ⟨"1.1.1.1", .v4 (octets 1 1 1 1), by decide, by decide⟩

/-- Another entry. -/
def otherAddress : Entry := ⟨"2.2.2.2", .v4 (octets 2 2 2 2), by decide, by decide⟩

theorem exists_forged (client : Addr) : ∃ e : Entry, e.address.string ≠ client.string := by
  by_cases h : oneAddress.address.string = client.string
  · refine ⟨otherAddress, fun hother => ?_⟩
    have hsame := h.trans hother.symm
    revert hsame
    decide
  · exact ⟨oneAddress, h⟩

/-- **The client cannot choose the result** exactly when it sends no line, or sends one and the
first proxy appends to it. -/
theorem client_address_unforgeable_iff (trusted : List Netip.Prefix) (remoteAddr : String)
    (remote : Addr) (way : Way) (client : Entry) (hops : List (Way × Entry)) (n : Nat)
    (hrem : parseRequestIP remoteAddr = some remote) (htrust : ipInPrefixes remote trusted)
    (hclient : ipInPrefixes client.address trusted = false)
    (hhops : ∀ hop ∈ hops, ipInPrefixes hop.2.address trusted) :
    (∀ lines : List String, lines.length = n →
      requestClientIP remoteAddr (forwardAll ((way, client) :: hops) lines) trusted =
        client.address.string) ↔ n = 0 ∨ n = 1 ∧ way = .appended := by
  constructor
  · intro h
    by_contra hn
    rw [not_or, not_and] at hn
    obtain ⟨forged, hforged⟩ := exists_forged client.address
    -- the client writes the forged address in its first line, which no proxy changes
    obtain ⟨m, rfl⟩ := Nat.exists_eq_succ_of_ne_zero hn.1
    have hkept : way = .newLine ∨ List.replicate m "" ≠ [] := by
      cases way with
      | newLine => exact .inl rfl
      | appended =>
        refine .inr fun hempty => ?_
        rw [replicate_eq_nil_iff] at hempty
        exact hn.2 (congrArg Nat.succ hempty) rfl
    obtain ⟨lines', hne, hforward⟩ := forward_keeps_first client.text forged.text hkept
    have hline : headerGet (forwardAll ((way, client) :: hops)
        (forged.text :: List.replicate m "")) = forged.text := by
      show headerGet (forwardAll hops (forward way client.text _)) = _
      rw [hforward]
      exact forwardAll_keeps_first hops forged.text hne
    have hres := h (forged.text :: List.replicate m "") (by simp)
    rw [requestClientIP_of_single hrem htrust forged hline] at hres
    exact hforged hres
  · intro h lines hlines
    have hshows : Shows trusted client.address (forward way client.text lines) := by
      rcases h with rfl | ⟨rfl, rfl⟩
      · rw [length_eq_zero_iff] at hlines
        subst hlines
        have hline : headerGet (forward way client.text []) = client.text := by
          cases way with
          | appended | newLine => rfl
        refine ⟨[], [], ?_, by simp⟩
        rw [hline, client.chain, nil_append]
      · obtain ⟨line, rfl⟩ := length_eq_one_iff.mp hlines
        refine ⟨forwardedChain line, [], ?_, by simp⟩
        exact client.chain_appended line
    exact (hshows.forwardAll (forward_ne_nil _ _ _) hhops).found hclient hrem htrust

/-- The client's entry. -/
def clientEntry : Entry := ⟨"192.0.2.20", .v4 (octets 192 0 2 20), by decide, by decide⟩

theorem appended_client_found :
    requestClientIP "10.0.0.5:443" (forwardAll [(.appended, clientEntry)] ["1.1.1.1"])
      [.v4 (octets 10 0 0 0) 8] = clientEntry.address.string :=
  (client_address_unforgeable_iff [.v4 (octets 10 0 0 0) 8] "10.0.0.5:443" (.v4 (octets 10 0 0 5))
    .appended clientEntry [] 1 (by decide) (by decide) (by decide) (by simp)).mpr
    (.inr ⟨rfl, rfl⟩) ["1.1.1.1"] rfl

/-- The proxy writes a line of its own: the request is counted under an address of the client's
choice. -/
theorem forged_first_line :
    forwardAll [(.newLine, clientEntry)] ["1.1.1.1"] = ["1.1.1.1", "192.0.2.20"] ∧
      requestClientIP "10.0.0.5:443" ["1.1.1.1", "192.0.2.20"] [.v4 (octets 10 0 0 0) 8] =
        "1.1.1.1" ∧ clientEntry.address.string = "192.0.2.20" := by
  decide

end Ferventio
