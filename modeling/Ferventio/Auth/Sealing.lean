import Ferventio.Auth.Memory
import Ferventio.Lib.Base64

/-!
# Sealed credentials

The stores keep the two tokens of a credential sealed: encrypted under a random nonce, bound to the
credential's identifier with the kind of the token, and written in base64. The sealed store answers
as the store of plain credentials does (**`sealed_credentials_read_back`**).
-/

namespace Ferventio

open Base64 Table

/-! ## The code -/

/-- `cipher.AEAD`: `Seal` and `Open` are `encrypt` and `decrypt`. -/
structure Aead where
  nonceSize : Nat
  encrypt (nonce plaintext additionalData : Bytes) : Bytes
  decrypt (nonce ciphertext additionalData : Bytes) : Option Bytes
  decrypt_encrypt : ∀ {nonce} plaintext additionalData, nonce.length = nonceSize →
    decrypt nonce (encrypt nonce plaintext additionalData) additionalData = some plaintext

/-- What is stored of a token. -/
structure EncryptedValue where
  nonce : String
  ciphertext : String

/-- `[]byte(s)`. -/
def bytesOf (s : String) : Bytes := s.toByteArray.data.toList

/-- `string(b)`, where `b` is a text. -/
def textOf (b : Bytes) : String := (String.fromUTF8? ⟨b.toArray⟩).getD ""

/-- `random` is what `rand.Read` gives. -/
def sealAuthValue (aead : Option Aead) (random : Result Bytes) (aad plaintext : String) :
    Result EncryptedValue :=
  match aead with
  | none => .error (.plain "auth encryption is not configured")
  | some aead =>
    match random with
    | .error err => .error (.wrapped "generate auth nonce" err)
    | .ok nonce => .ok
      { nonce := encodeToString nonce
        ciphertext := encodeToString (aead.encrypt nonce (bytesOf plaintext) (bytesOf aad)) }

/-- The error of the base64 decoder. -/
def corruptInput : GoError := .plain "illegal base64 data"

/-- Decrypt a stored token. -/
def openAuthValue (aead : Option Aead) (aad : String) (value : EncryptedValue) : Result String :=
  match aead with
  | none => .error (.plain "auth encryption is not configured")
  | some aead =>
    match decodeString value.nonce with
    | none => .error (.wrapped "decode auth nonce" corruptInput)
    | some nonce =>
      match decodeString value.ciphertext with
      | none => .error (.wrapped "decode auth ciphertext" corruptInput)
      | some ciphertext =>
        match aead.decrypt nonce ciphertext (bytesOf aad) with
        | none =>
          .error (.wrapped "decrypt auth value" (.plain "cipher: message authentication failed"))
        | some plaintext => .ok (textOf plaintext)

/-- A credential with its tokens sealed. -/
structure AuthCredentialRecord where
  id : String
  clientID : String
  userID : String
  login : String
  scopes : List String
  accessToken : EncryptedValue
  refreshToken : EncryptedValue
  accessExpiresAt : Time
  lastValidatedAt : Time
  updatedAt : Time

/-- The two tokens of a credential. -/
inductive TokenKind
  | access
  | refresh

/-- The end of a purpose. -/
def TokenKind.suffix : TokenKind → String
  | access => ":access"
  | refresh => ":refresh"

/-- What a token is bound to. -/
def purpose (id : String) (kind : TokenKind) : String := id ++ kind.suffix

/-- The stored credentials. -/
abbrev SealedTable := Table String AuthCredentialRecord

/-- The map is written only when both tokens are sealed. -/
def setCredentialLocked (aead : Option Aead) (random random' : Result Bytes)
    (credential : AuthCredential) (t : SealedTable) : Result Unit × SealedTable :=
  match sealAuthValue aead random (purpose credential.id .access) credential.accessToken with
  | .error err => (.error err, t)
  | .ok access =>
    match sealAuthValue aead random' (purpose credential.id .refresh) credential.refreshToken with
    | .error err => (.error err, t)
    | .ok refresh => (.ok (), t.insert credential.id
        { id := credential.id, clientID := credential.clientID, userID := credential.userID
          login := credential.login, scopes := credential.scopes, accessToken := access
          refreshToken := refresh, accessExpiresAt := credential.accessExpiresAt
          lastValidatedAt := credential.lastValidatedAt, updatedAt := credential.updatedAt })

/-- The part of `GetCredential` after the record was found. -/
def openCredential (aead : Option Aead) (id : String) (record : AuthCredentialRecord) :
    Result AuthCredential := do
  let access ← openAuthValue aead (purpose id .access) record.accessToken
  let refresh ← openAuthValue aead (purpose id .refresh) record.refreshToken
  return { id := record.id, clientID := record.clientID, userID := record.userID
           login := record.login, scopes := record.scopes, accessToken := access
           refreshToken := refresh, accessExpiresAt := record.accessExpiresAt
           lastValidatedAt := record.lastValidatedAt, updatedAt := record.updatedAt }

/-- `GetCredential`. -/
def getSealedCredential (aead : Option Aead) (id : String) (t : SealedTable) :
    Result AuthCredential :=
  match t.lookup id with
  | none => .error .authNotFound
  | some record => openCredential aead id record

/-! ## One value -/

theorem textOf_bytesOf (s : String) : textOf (bytesOf s) = s := by
  have hvalid : String.fromUTF8? s.toByteArray = some s := by
    rw [String.fromUTF8?, dif_pos s.isValidUTF8]
    rfl
  rw [textOf, bytesOf, Array.toArray_toList, hvalid, Option.getD_some]

theorem openAuthValue_sealAuthValue {aead : Aead} {nonce : Bytes} {aad plaintext : String}
    {value : EncryptedValue} (hnonce : nonce.length = aead.nonceSize)
    (h : sealAuthValue (some aead) (.ok nonce) aad plaintext = .ok value) :
    openAuthValue (some aead) aad value = .ok plaintext := by
  cases h
  simp only [openAuthValue, decodeString_encodeToString, aead.decrypt_encrypt _ _ hnonce,
    textOf_bytesOf]

/-! ## The store -/

/-- The calls on credentials; `drop` stands for the deletions. -/
inductive CredentialCall
  | put (credential : AuthCredential) (nonce nonce' : Bytes)
  | drop (keep : String → Bool)
  | get (id : String)

/-- What a call returns. -/
abbrev CredentialAnswer := Result (Option AuthCredential)

/-- The calls on sealed credentials. -/
def CredentialCall.serveSealed (aead : Aead) :
    CredentialCall → SealedTable → CredentialAnswer × SealedTable
  | put credential nonce nonce', t =>
    (setCredentialLocked (some aead) (.ok nonce) (.ok nonce') credential t).map
      (·.map fun _ => none) id
  | drop keep, t => (.ok none, t.select fun id _ => keep id)
  | get id, t => ((getSealedCredential (some aead) id t).map some, t)

/-- The same calls on plain credentials. -/
def CredentialCall.servePlain : CredentialCall → AuthDiskState → CredentialAnswer × AuthDiskState
  | put credential _ _, s => (Memory.putCredential credential s).map (·.map fun _ => none) id
  | drop keep, s => (.ok none, { s with credentials := s.credentials.select fun id _ => keep id })
  | get id, s => ((Memory.getCredential id s).map some, s)

/-- The answers to a sequence of calls. -/
def answersOf {σ : Type} (serve : CredentialCall → σ → CredentialAnswer × σ) :
    List CredentialCall → σ → List CredentialAnswer
  | [], _ => []
  | call :: calls, s => (serve call s).1 :: answersOf serve calls (serve call s).2

/-- The cipher draws nonces of its size. -/
def CredentialCall.Fits (aead : Aead) : CredentialCall → Prop
  | put _ nonce nonce' => nonce.length = aead.nonceSize ∧ nonce'.length = aead.nonceSize
  | _ => True

/-- Opening the sealed records gives the credentials. -/
def Represents (aead : Aead) (t : SealedTable) (s : AuthDiskState) : Prop :=
  ∀ id, (t.lookup id).map (openCredential (some aead) id) = (s.credentials.lookup id).map .ok

theorem map_filter_const {α β : Type} (f : α → β) (keep : Bool) (o : Option α) :
    (o.filter fun _ => keep).map f = if keep then o.map f else none := by
  cases keep <;> cases o <;> rfl

theorem serve_represents {aead : Aead} {t : SealedTable} {s : AuthDiskState}
    (h : Represents aead t s) {call : CredentialCall} (hfits : call.Fits aead) :
    (call.serveSealed aead t).1 = (call.servePlain s).1 ∧
      Represents aead (call.serveSealed aead t).2 (call.servePlain s).2 := by
  cases call with
  | put cred nonce nonce' =>
    refine ⟨rfl, fun id => ?_⟩
    dsimp only [CredentialCall.serveSealed, CredentialCall.servePlain, setCredentialLocked,
      sealAuthValue, Memory.putCredential, Prod.map, id_eq]
    rw [lookup_insert_eq, lookup_insert_eq]
    by_cases hid : id = cred.id
    · subst hid
      simp only [if_true, Option.map_some, openCredential]
      rw [openAuthValue_sealAuthValue hfits.1 rfl, openAuthValue_sealAuthValue hfits.2 rfl]
      rfl
    · rw [if_neg hid, if_neg hid]
      exact h id
  | drop keep =>
    refine ⟨rfl, fun id => ?_⟩
    have hid := h id
    dsimp only [CredentialCall.serveSealed, CredentialCall.servePlain]
    rw [lookup_select, lookup_select]
    rw [map_filter_const, map_filter_const, hid]
  | get id =>
    refine ⟨?_, h⟩
    have hid := h id
    simp only [CredentialCall.serveSealed, CredentialCall.servePlain, getSealedCredential,
      Memory.getCredential]
    cases hrec : t.lookup id with
    | none =>
      rw [hrec, Option.map_none, eq_comm, Option.map_eq_none_iff] at hid
      rw [hid]
    | some r =>
      rw [hrec, Option.map_some, eq_comm, Option.map_eq_some_iff] at hid
      obtain ⟨cred, hcred, hopen⟩ := hid
      rw [hcred]
      dsimp only
      rw [← hopen]

/-- **Sealed credentials are read back** by every sequence of calls, whatever nonces are drawn. -/
theorem sealed_credentials_read_back (aead : Aead) (calls : List CredentialCall)
    (hfits : ∀ call ∈ calls, call.Fits aead) :
    answersOf (CredentialCall.serveSealed aead) calls ∅ =
      answersOf CredentialCall.servePlain calls {} := by
  suffices ∀ {t s}, Represents aead t s →
      answersOf (CredentialCall.serveSealed aead) calls t =
        answersOf CredentialCall.servePlain calls s from this fun _ => rfl
  induction calls with
  | nil => exact fun _ => rfl
  | cons call calls ih =>
    intro t s h
    rw [List.forall_mem_cons] at hfits
    obtain ⟨hanswer, hnext⟩ := serve_represents h hfits.1
    rw [answersOf, answersOf, hanswer, ih hfits.2 hnext]

/-- A toy cipher that opens a text only under its nonce and additional data. -/
def xorCipher : Aead where
  nonceSize := 1
  encrypt nonce plaintext additionalData :=
    nonce ++ additionalData ++ plaintext.map (· ^^^ nonce.headD 0)
  decrypt nonce ciphertext additionalData :=
    if (nonce ++ additionalData).isPrefixOf ciphertext then
      some ((ciphertext.drop (nonce ++ additionalData).length).map (· ^^^ nonce.headD 0))
    else none
  decrypt_encrypt {nonce} plaintext additionalData _ := by
    simp [Function.comp_def, UInt8.xor_assoc]

theorem xorCipher_reads_back :
    answersOf (CredentialCall.serveSealed xorCipher)
      [.put ⟨"c1", "app", "100", "viewer", [], "access", "refresh", 0, 0, 0⟩ [7] [9], .get "c1"] ∅ =
      [.ok none, .ok (some ⟨"c1", "app", "100", "viewer", [], "access", "refresh", 0, 0, 0⟩)] := by
  rw [sealed_credentials_read_back xorCipher _ (by simp [CredentialCall.Fits, xorCipher])]
  rfl

end Ferventio
