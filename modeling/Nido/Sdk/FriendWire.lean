/-
The text of a friend's signature.

Byte strings are written in hexadecimal into a JSON object, whose UTF-8 bytes are written
in base64 with the characters of URLs. One entry goes on the older wire, several on the
newer one, and either is read back as it was.
-/

import Nido.Library.Base64
import Nido.Library.Json
import Nido.Library.Utf8
import Nido.Sdk.FriendSigning

namespace Nido.Sdk

/-! ### Base64 in URLs -/

def toUrlChar (c : Char) : Char := if c = '+' then '-' else if c = '/' then '_' else c

def fromUrlChar (c : Char) : Char := if c = '-' then '+' else if c = '_' then '/' else c

def buf2base64url (buffer : Bytes) : String :=
  String.ofList (((Base64.encode buffer).map toUrlChar).filter (fun c => c != '='))

def base64url2buf (str : String) : Js Bytes :=
  let plain := str.toList.map fromUrlChar
  let padded := plain ++ List.replicate ((4 - plain.length % 4) % 4) '='
  match Base64.decode padded with
  | some bytes => .ok bytes
  | none => .error "The string to be decoded is not correctly encoded."

theorem toUrlChar_charOf : ∀ value < 64, toUrlChar (Base64.charOf value) ≠ '=' ∧
    fromUrlChar (toUrlChar (Base64.charOf value)) = Base64.charOf value := by
  decide

theorem buf2base64url_toList (buffer : Bytes) :
    (buf2base64url buffer).toList =
      (Base64.sextets buffer).map (fun value => toUrlChar (Base64.charOf value)) := by
  unfold buf2base64url Base64.encode
  rw [String.toList_ofList, List.map_append, List.map_map, List.map_replicate,
    List.filter_append]
  have kept : ((Base64.sextets buffer).map (toUrlChar ∘ Base64.charOf)).filter
      (fun c => c != '=') = (Base64.sextets buffer).map (toUrlChar ∘ Base64.charOf) := by
    rw [List.filter_eq_self]
    intro c member
    obtain ⟨value, listed, rfl⟩ := List.mem_map.mp member
    exact bne_iff_ne.mpr
      (toUrlChar_charOf value (Base64.sextets_lt buffer value listed)).1
  have dropped : (List.replicate (Base64.missing buffer) (toUrlChar '=')).filter
      (fun c => c != '=') = [] := by
    rw [List.filter_eq_nil_iff]
    intro c member
    rw [List.eq_of_mem_replicate member]
    decide
  rw [kept, dropped, List.append_nil]
  rfl

/-- Bytes of any number come back. -/
theorem base64url2buf_buf2base64url (buffer : Bytes) :
    base64url2buf (buf2base64url buffer) = .ok buffer := by
  have plain : (buf2base64url buffer).toList.map fromUrlChar =
      (Base64.sextets buffer).map Base64.charOf := by
    rw [buf2base64url_toList, List.map_map]
    apply List.map_congr_left
    intro value listed
    exact (toUrlChar_charOf value (Base64.sextets_lt buffer value listed)).2
  have groups := Base64.sextets_length buffer
  have short : Base64.missing buffer < 3 := Nat.mod_lt _ (by decide)
  have padding : (4 - (Base64.sextets buffer).length % 4) % 4 = Base64.missing buffer := by
    omega
  unfold base64url2buf
  dsimp only
  rw [plain, List.length_map, padding]
  change (match Base64.decode (Base64.encode buffer) with
    | some bytes => Except.ok bytes
    | none => _) = _
  rw [Base64.decode_encode]

/-! ### JSON in URLs -/

def encodeJson (value : Json) : String := buf2base64url (Utf8.encode (Json.stringify value))

def decodeText (encoded : String) : Js String := (base64url2buf encoded).map Utf8.decode

theorem decodeText_encodeJson (entries : List (String × Json)) :
    decodeText (encodeJson (.object entries)) = .ok (Json.stringify (.object entries)) := by
  have plain : (Json.stringify (.object entries)).toList.head? ≠ some (Char.ofNat 0xfeff) := by
    have first : (Json.stringify (.object entries)).toList.head? = some Json.openBrace := by
      unfold Json.stringify
      rw [String.toList_ofList]
      rfl
    rw [first]
    decide
  unfold decodeText encodeJson
  rw [base64url2buf_buf2base64url]
  exact congrArg Except.ok (Utf8.decode_encode plain)

/-! ### Writing -/

def entryToWire (e : FriendSignatureEntry) : List (String × Json) :=
  [("ad", .string (buf2hex e.authenticatorData)), ("cd", .string (buf2hex e.clientDataJson)),
    ("sig", .string (buf2hex e.signature)), ("nonce", .string e.nonce),
    ("exp", .natural e.signatureExpirationLedger)]

def commonFields (v : Nat) (s : FriendSignature) : List (String × Json) :=
  [("v", .natural v), ("friend", .string s.friendAccount),
    ("verifier", .string s.verifierAddress), ("pub", .string (buf2hex s.publicKey))]

def encodeFriendSignature (s : FriendSignature) : Js String :=
  match s.entries with
  | [] => .error "encodeFriendSignature: no signed entries"
  | [entry] => .ok (encodeJson (.object (commonFields 1 s ++ entryToWire entry)))
  | entries =>
      .ok (encodeJson (.object (commonFields 2 s ++
        [("sigs", .array (entries.map (fun e => .object (entryToWire e))))])))

/-! ### Reading

What is read has the types of the wire; a payload with fields of other types is refused. -/

def textField (value : Json) (name : String) : Option String :=
  (value.property name).bind Json.text?

def natField (value : Json) (name : String) : Option Nat := (value.property name).bind Json.nat?

def readEntryWire (value : Json) : Option FriendSignatureEntryWire := do
  let ad ← textField value "ad"
  let cd ← textField value "cd"
  let sig ← textField value "sig"
  let nonce ← textField value "nonce"
  let exp ← natField value "exp"
  pure { ad, cd, sig, nonce, exp }

def readSigs : Option Json → Option (List FriendSignatureEntryWire)
  | some (.array items) => items.mapM readEntryWire
  | _ => none

def readFields (value : Json) : Option FriendSignatureWire := do
  let friend_ ← textField value "friend"
  let verifier ← textField value "verifier"
  let pub ← textField value "pub"
  if natField value "v" = some 1 then
    let entry ← readEntryWire value
    pure (.v1 friend_ verifier pub entry)
  else
    let sigs ← readSigs (value.property "sigs")
    pure (.v2 friend_ verifier pub sigs)

/-- A version is one of the two numbers as they are written. -/
def wireOf (value : Json) : Js FriendSignatureWire :=
  match value with
  | .null => .error "Cannot read properties of null (reading 'v')"
  | _ =>
      if natField value "v" = some 1 ∨ natField value "v" = some 2 then
        match readFields value with
        | some wire => .ok wire
        | none => .error "Cannot read properties of undefined"
      else
        .ok (.unsupported (((value.property "v").map Json.display).getD "undefined"))

def readWire (encoded : String) : Js FriendSignatureWire :=
  match decodeText encoded with
  | .error _ => .error "decodeFriendSignature: input is not valid base64url"
  | .ok json =>
      match Json.parse json with
      | some value => wireOf value
      | none => .error "Unexpected token in JSON"

/-! ### What is written is read back -/

def wireEntry (e : FriendSignatureEntry) : FriendSignatureEntryWire where
  ad := buf2hex e.authenticatorData
  cd := buf2hex e.clientDataJson
  sig := buf2hex e.signature
  nonce := e.nonce
  exp := e.signatureExpirationLedger

theorem entryFromWire_wireEntry (e : FriendSignatureEntry) :
    entryFromWire (wireEntry e) = e := by
  unfold entryFromWire wireEntry
  rw [hex2buf_buf2hex, hex2buf_buf2hex, hex2buf_buf2hex]

theorem readEntryWire_of {value : Json} {e : FriendSignatureEntry}
    (ad : value.property "ad" = some (.string (buf2hex e.authenticatorData)))
    (cd : value.property "cd" = some (.string (buf2hex e.clientDataJson)))
    (sig : value.property "sig" = some (.string (buf2hex e.signature)))
    (nonce : value.property "nonce" = some (.string e.nonce))
    (exp : value.property "exp" = some (.natural e.signatureExpirationLedger)) :
    readEntryWire value = some (wireEntry e) := by
  unfold readEntryWire textField natField
  rw [ad, cd, sig, nonce, exp]
  simp [wireEntry]

theorem readEntryWire_entryToWire (e : FriendSignatureEntry) :
    readEntryWire (.object (entryToWire e)) = some (wireEntry e) :=
  readEntryWire_of rfl rfl rfl rfl rfl

theorem entryToWire_spelt (e : FriendSignatureEntry) :
    Json.speltEntries (entryToWire e) = true := by
  simp [entryToWire, Json.speltEntries, Json.spelt]

theorem readWire_encodeJson {entries : List (String × Json)}
    (plain : Json.speltEntries entries = true) :
    readWire (encodeJson (.object entries)) = wireOf (.object entries) := by
  unfold readWire
  rw [decodeText_encodeJson]
  dsimp only
  rw [Json.parse_stringify_object plain]

section Version

variable {value : Json} {friend_ verifier pub : String}

structure Common (value : Json) (friend_ verifier pub : String) : Prop where
  friend_ : textField value "friend" = some friend_
  verifier : textField value "verifier" = some verifier
  pub : textField value "pub" = some pub

theorem readFields_v1 {entry : FriendSignatureEntryWire}
    (common : Common value friend_ verifier pub) (version : natField value "v" = some 1)
    (read : readEntryWire value = some entry) :
    readFields value = some (.v1 friend_ verifier pub entry) := by
  simp [readFields, common.friend_, common.verifier, common.pub, version, read]

theorem readFields_v2 {sigs : List FriendSignatureEntryWire}
    (common : Common value friend_ verifier pub) (version : natField value "v" = some 2)
    (read : readSigs (value.property "sigs") = some sigs) :
    readFields value = some (.v2 friend_ verifier pub sigs) := by
  simp [readFields, common.friend_, common.verifier, common.pub, version, read]

end Version

theorem wireOf_single (s : FriendSignature) (entry : FriendSignatureEntry) :
    wireOf (.object (commonFields 1 s ++ entryToWire entry)) =
      .ok (.v1 s.friendAccount s.verifierAddress (buf2hex s.publicKey) (wireEntry entry)) := by
  have version : natField (.object (commonFields 1 s ++ entryToWire entry)) "v" = some 1 :=
    Json.nat?_natural 1
  have fields : readEntryWire (.object (commonFields 1 s ++ entryToWire entry)) =
      some (wireEntry entry) := readEntryWire_of rfl rfl rfl rfl rfl
  have read := readFields_v1 ⟨rfl, rfl, rfl⟩ version fields
  unfold wireOf
  dsimp only
  rw [if_pos (Or.inl version), read]

theorem wireOf_several (s : FriendSignature) (entries : List FriendSignatureEntry) :
    wireOf (.object (commonFields 2 s ++
      [("sigs", .array (entries.map (fun e => .object (entryToWire e))))])) =
        .ok (.v2 s.friendAccount s.verifierAddress (buf2hex s.publicKey)
          (entries.map wireEntry)) := by
  have version : natField (.object (commonFields 2 s ++
      [("sigs", .array (entries.map (fun e => .object (entryToWire e))))])) "v" = some 2 :=
    Json.nat?_natural 2
  have sigs (items : List FriendSignatureEntry) :
      (items.map (fun e => Json.object (entryToWire e))).mapM readEntryWire =
        some (items.map wireEntry) := by
    induction items with
    | nil => rfl
    | cons e rest ih =>
        rw [List.map_cons, List.mapM_cons, readEntryWire_entryToWire, ih]
        rfl
  have listed : readSigs ((Json.object (commonFields 2 s ++
      [("sigs", .array (entries.map (fun e => .object (entryToWire e))))])).property "sigs") =
        some (entries.map wireEntry) := sigs entries
  have read := readFields_v2 ⟨rfl, rfl, rfl⟩ version listed
  unfold wireOf
  dsimp only
  rw [if_pos (Or.inr version), read]

/-- A signature with entries comes back byte for byte, on either wire. -/
theorem decodeFriendSignature_encode (s : FriendSignature) (signed : s.entries ≠ []) :
    ∃ text, encodeFriendSignature s = .ok text ∧
      decodeFriendSignature readWire text = .ok s := by
  have common (v : Nat) : Json.speltEntries (commonFields v s) = true := by
    simp [commonFields, Json.speltEntries, Json.spelt]
  have whole (fields others : List (String × Json)) (plain : Json.speltEntries fields = true)
      (otherPlain : Json.speltEntries others = true) :
      Json.speltEntries (fields ++ others) = true := by
    induction fields with
    | nil => exact otherPlain
    | cons field rest ih =>
        obtain ⟨name, value⟩ := field
        have parts := Bool.and_eq_true_iff.mp plain
        rw [List.cons_append, Json.speltEntries, parts.1, ih parts.2]
        rfl
  cases shape : s.entries with
  | nil => exact absurd shape signed
  | cons entry rest =>
      cases rest with
      | nil =>
          refine ⟨encodeJson (.object (commonFields 1 s ++ entryToWire entry)), ?_, ?_⟩
          · unfold encodeFriendSignature
            rw [shape]
          · unfold decodeFriendSignature
            rw [readWire_encodeJson (whole _ _ (common 1) (entryToWire_spelt entry)),
              wireOf_single]
            change Except.ok _ = _
            rw [hex2buf_buf2hex, entryFromWire_wireEntry, ← shape]
      | cons next others =>
          have listed : Json.speltEntries [("sigs", .array ((entry :: next :: others).map
              (fun e => .object (entryToWire e))))] = true := by
            have items := Json.speltItems_map (fun e => Json.object (entryToWire e))
              (entry :: next :: others) (fun e _ => entryToWire_spelt e)
            change (Json.speltItems _ && true) = true
            rw [items]
            rfl
          have back : ((entry :: next :: others).map wireEntry).map entryFromWire =
              entry :: next :: others := by
            rw [List.map_map]
            exact (List.map_congr_left (fun e _ => entryFromWire_wireEntry e)).trans
              (List.map_id _)
          refine ⟨encodeJson (.object (commonFields 2 s ++
            [("sigs", .array ((entry :: next :: others).map
              (fun e => .object (entryToWire e))))])), ?_, ?_⟩
          · unfold encodeFriendSignature
            rw [shape]
          · unfold decodeFriendSignature
            rw [readWire_encodeJson (whole _ _ (common 2) listed), wireOf_several]
            change Except.ok _ = _
            rw [hex2buf_buf2hex, back, ← shape]

end Nido.Sdk
