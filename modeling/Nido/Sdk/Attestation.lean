/-
Attestations and the key that is found in them.

An attestation is a map with texts as keys, one of which names the bytes that hold the key
between the data of the credential. The reader skips the members before it, item by item.
A text with a byte order mark is decoded without it, so that a member may be taken for
another.
-/

import Nido.Sdk.CoseBytes
import Nido.Sdk.CoseKey

namespace Nido.Sdk

/-- Bytes of an authenticator that has attested a credential. -/
structure AuthData where
  rpIdHash : Bytes
  flags : UInt8
  signCount : Bytes
  aaguid : Bytes
  credentialId : Bytes
  key : CoseKey
  extensions : Bytes
  rpIdHash_length : rpIdHash.length = 32
  attested : flags.toNat &&& 0x40 ≠ 0
  signCount_length : signCount.length = 4
  aaguid_length : aaguid.length = 16
  credentialId_length : credentialId.length < 2 ^ 16

namespace AuthData

def encode (authData : AuthData) : Bytes :=
  authData.rpIdHash ++ ([authData.flags] ++ (authData.signCount ++ (authData.aaguid ++
    (BigEndian.encode 2 authData.credentialId.length ++ (authData.credentialId ++
      (authData.key.encode ++ authData.extensions))))))

end AuthData

structure Member where
  form : Cbor.Argument
  key : String
  value : Cbor.Item
  counted : form.value = (Utf8.encode key).length
  valid : value.Valid

namespace Member

def entry (member : Member) : Cbor.Item × Cbor.Item :=
  (.text member.form member.key, member.value)

end Member

/-- A map with the data of an authenticator, named by one of its keys. -/
structure Attestation where
  count : Cbor.Argument
  before : List Member
  keyForm : Cbor.Argument
  dataForm : Cbor.Argument
  authData : AuthData
  after : List Member
  counted : count.value = before.length + (after.length + 1)
  keyCounted : keyForm.value = 8
  dataCounted : dataForm.value = authData.encode.length
  distinct : ∀ member ∈ before, member.key ≠ "authData"

namespace Attestation

def dataMember (attestation : Attestation) : Member where
  form := attestation.keyForm
  key := "authData"
  value := .bytes attestation.dataForm attestation.authData.encode
  counted := attestation.keyCounted.trans (by decide)
  valid := attestation.dataCounted

def members (attestation : Attestation) : List Member :=
  attestation.before ++ attestation.dataMember :: attestation.after

def item (attestation : Attestation) : Cbor.Item :=
  .map attestation.count (attestation.members.map Member.entry)

def encode (attestation : Attestation) : Bytes := attestation.item.encode

end Attestation

theorem Attestation.item_valid (attestation : Attestation) : attestation.item.Valid := by
  have entries (members : List Member) :
      Cbor.Item.ValidEntries (members.map Member.entry) := by
    induction members with
    | nil => exact trivial
    | cons member later ih => exact ⟨member.counted, member.valid, ih⟩
  refine ⟨?_, entries attestation.members⟩
  rw [attestation.counted, List.length_map, Attestation.members, List.length_append,
    List.length_cons]

/-! ### The data of the credential -/

/-- The key's first 77 bytes are read, whatever the credential is called. -/
theorem extractPublicKeyFromAuthData_encode (authData : AuthData) :
    extractPublicKeyFromAuthData authData.encode =
      extractP256FromCoseKey ((authData.key.encode ++ authData.extensions).take 77) := by
  have atFlags : authData.encode.drop 32 = [authData.flags] ++ _ :=
    List.drop_left' authData.rpIdHash_length
  have atCount := drop_of_drop atFlags
  have atAaguid := drop_of_drop atCount
  have atLength := drop_of_drop atAaguid
  rw [authData.signCount_length, authData.aaguid_length] at atLength
  have atId := drop_of_drop atLength
  have atKey := drop_of_drop atId
  rw [BigEndian.encode_length] at atKey
  have flags : authData.encode[32]? = some authData.flags := getElem?_of_drop atFlags
  have length : getUint authData.encode 2 53 = .ok authData.credentialId.length :=
    getUint_of_drop authData.credentialId_length atLength (by decide)
  unfold extractPublicKeyFromAuthData
  dsimp only
  rw [flags, if_neg (show int (some authData.flags) &&& 0x40 ≠ 0 from authData.attested), length]
  exact congrArg extractP256FromCoseKey (slice_of_drop atKey 77)

/-! ### Members -/

section Members

variable {data rest : Bytes} {start : Nat} {member : Member}

theorem drop_member
    (here : data.drop start = member.entry.1.encode ++ (member.value.encode ++ rest)) :
    data.drop start = Cbor.head 3 member.form ++
      (Utf8.encode member.key ++ (member.value.encode ++ rest)) := by
  rw [here, Member.entry, Cbor.Item.encode, List.append_assoc]

theorem readString_member
    (atText : data.drop start = Utf8.encode member.key ++ rest) :
    readString data (some member.form.value) (some start) =
      (Utf8.decode (Utf8.encode member.key),
        some (start + (Utf8.encode member.key).length)) := by
  unfold readString
  rw [readBytes_of_drop atText, member.counted, List.take_left]

theorem findAuthData_named (named : Utf8.decode (Utf8.encode member.key) = "authData")
    (here : data.drop start = member.entry.1.encode ++ (member.value.encode ++ rest))
    (remaining : Nat) :
    findAuthData data (remaining + 1) (some start) =
      .ok ((member.value.content ++ rest).take member.value.argument.value) := by
  have atKey := drop_member here
  have atText := drop_of_drop atKey
  have atValue := drop_of_drop atText
  rw [Cbor.Item.encode_eq, List.append_assoc] at atValue
  unfold findAuthData
  rw [readInitial_head (by decide) atKey]
  dsimp only
  rw [if_neg (by decide), readLength_head atKey]
  dsimp only [bind, Except.bind]
  rw [readString_member atText, named]
  dsimp only
  rw [if_pos rfl, readInitial_head member.value.major_lt atValue]
  dsimp only
  rw [readLength_head atValue]
  dsimp only
  rw [readBytes_of_drop (drop_of_drop atValue)]
  rfl

theorem findAuthData_other (other : Utf8.decode (Utf8.encode member.key) ≠ "authData")
    (here : data.drop start = member.entry.1.encode ++ (member.value.encode ++ rest))
    (remaining : Nat) :
    findAuthData data (remaining + 1) (some start) =
      findAuthData data remaining
        (some (start + member.entry.1.encode.length + member.value.encode.length)) := by
  have atKey := drop_member here
  have atText := drop_of_drop atKey
  have ends : start + member.entry.1.encode.length =
      start + (Cbor.head 3 member.form).length + (Utf8.encode member.key).length := by
    rw [Member.entry, Cbor.Item.encode, List.length_append, Nat.add_assoc]
  rw [findAuthData, readInitial_head (by decide) atKey]
  dsimp only
  rw [if_neg (by decide), readLength_head atKey]
  dsimp only [bind, Except.bind]
  rw [readString_member atText]
  dsimp only
  rw [if_neg other, skipValue_item member.valid (drop_of_drop atText), ends]

end Members

theorem encodeEntries_cons (member : Member) (later : List Member) :
    Cbor.Item.encodeEntries ((member :: later).map Member.entry) =
      member.entry.1.encode ++
        (member.value.encode ++ Cbor.Item.encodeEntries (later.map Member.entry)) := by
  rw [List.map_cons]
  change Cbor.Item.encodeEntries ((member.entry.1, member.value) :: _) = _
  rw [Cbor.Item.encodeEntries]

def taken : List Member → Option Bytes
  | [] => none
  | member :: rest =>
      if Utf8.decode (Utf8.encode member.key) = "authData" then
        some ((member.value.content ++ Cbor.Item.encodeEntries (rest.map Member.entry)).take
          member.value.argument.value)
      else taken rest

theorem findAuthData_members {data : Bytes} {start : Nat} (members : List Member)
    (here : data.drop start = Cbor.Item.encodeEntries (members.map Member.entry)) :
    findAuthData data members.length (some start) =
      match taken members with
      | some bytes => .ok bytes
      | none => .error "authData not found in attestationObject" := by
  induction members generalizing start with
  | nil => rfl
  | cons member later ih =>
      rw [encodeEntries_cons] at here
      rw [List.length_cons, taken]
      by_cases named : Utf8.decode (Utf8.encode member.key) = "authData"
      · rw [findAuthData_named named here, if_pos named]
      · rw [findAuthData_other named here, if_neg named,
          ih (drop_of_drop (drop_of_drop here))]

/-! ### The name with a mark -/

def marked : String := String.ofList (Utf8.mark :: "authData".toList)

theorem named_iff (key : String) :
    Utf8.decode (Utf8.encode key) = "authData" ↔ key = "authData" ∨ key = marked :=
  Utf8.decode_encode_eq_iff (by decide)

/-- What the first member gives whose key is the name with a mark in front. -/
def mistaken (after : Bytes) : List Member → Option Bytes
  | [] => none
  | member :: rest =>
      if member.key = marked then
        some ((member.value.content ++
          (Cbor.Item.encodeEntries (rest.map Member.entry) ++ after)).take
            member.value.argument.value)
      else mistaken after rest

theorem mistaken_eq_none_iff (after : Bytes) (members : List Member) :
    mistaken after members = none ↔ ∀ member ∈ members, member.key ≠ marked := by
  induction members with
  | nil => simp [mistaken]
  | cons member rest ih =>
      rw [mistaken]
      by_cases same : member.key = marked
      · simp [same]
      · simp [same, ih]

namespace Attestation

/-- What stands before the data is taken for them if its key is the name with a mark. -/
def mistaken (attestation : Attestation) : Option Bytes :=
  Sdk.mistaken (Cbor.Item.encodeEntries
    ((attestation.dataMember :: attestation.after).map Member.entry)) attestation.before

theorem mistaken_eq_none (attestation : Attestation) :
    attestation.mistaken = none ↔ ∀ member ∈ attestation.before, member.key ≠ marked :=
  mistaken_eq_none_iff _ _

theorem taken_append (attestation : Attestation) {before : List Member}
    (distinct : ∀ member ∈ before, member.key ≠ "authData") :
    taken (before ++ attestation.dataMember :: attestation.after) =
      some ((Sdk.mistaken (Cbor.Item.encodeEntries
        ((attestation.dataMember :: attestation.after).map Member.entry)) before).getD
          attestation.authData.encode) := by
  induction before with
  | nil =>
      have named : Utf8.decode (Utf8.encode attestation.dataMember.key) = "authData" :=
        (named_iff _).mpr (Or.inl rfl)
      have whole : attestation.dataMember.value.argument.value =
          attestation.dataMember.value.content.length := attestation.dataCounted
      rw [List.nil_append, taken, if_pos named, whole, List.take_left]
      rfl
  | cons member rest ih =>
      rw [List.cons_append, taken, Sdk.mistaken]
      by_cases same : member.key = marked
      · have named : Utf8.decode (Utf8.encode member.key) = "authData" :=
          (named_iff _).mpr (Or.inr same)
        rw [if_pos named, if_pos same, List.map_append, Cbor.Item.encodeEntries_append]
        rfl
      · have other : Utf8.decode (Utf8.encode member.key) ≠ "authData" := by
          intro named
          rcases (named_iff _).mp named with plain | named
          · exact distinct member List.mem_cons_self plain
          · exact same named
        rw [if_neg other, if_neg same]
        exact ih (fun next inner => distinct next (List.mem_cons_of_mem _ inner))

/-- The data that are found, or those of a member that is taken for them. -/
theorem extractAuthDataFromCbor_encode (attestation : Attestation) :
    extractAuthDataFromCbor attestation.encode =
      .ok (attestation.mistaken.getD attestation.authData.encode) := by
  have here : attestation.encode.drop 0 = Cbor.head 5 attestation.count ++
      Cbor.Item.encodeEntries (attestation.members.map Member.entry) := by
    rw [List.drop_zero, encode, item, Cbor.Item.encode]
  have counted : attestation.count.value = attestation.members.length := by
    rw [attestation.counted, members, List.length_append, List.length_cons]
  have found := findAuthData_members _ (drop_of_drop here)
  rw [members, attestation.taken_append attestation.distinct] at found
  unfold extractAuthDataFromCbor
  rw [readInitial_head (by decide) here]
  dsimp only
  rw [if_neg (by decide), readLength_head here, counted]
  exact found

theorem parseAttestationObject_encode (attestation : Attestation) :
    parseAttestationObject (buf2base64url attestation.encode) =
      extractPublicKeyFromAuthData
        (attestation.mistaken.getD attestation.authData.encode) := by
  unfold parseAttestationObject
  rw [base64url2buf_buf2base64url]
  change extractAuthDataFromCbor attestation.encode >>= _ = _
  rw [extractAuthDataFromCbor_encode]
  rfl

end Attestation

/-! ### What is found -/

theorem parseAttestationObject_shortest {attestation : Attestation}
    (unmarked : ∀ member ∈ attestation.before, member.key ≠ marked)
    (shortest : attestation.authData.key.encode.length ≤ 77) :
    parseAttestationObject (buf2base64url attestation.encode) =
      .ok attestation.authData.key.publicKey := by
  rw [attestation.parseAttestationObject_encode, attestation.mistaken_eq_none.mpr unmarked,
    Option.getD_none, extractPublicKeyFromAuthData_encode]
  exact (extractP256FromCoseKey_eq_iff _ _).mpr (readable_of_length _ shortest)

/-- The parser skips an item to its end, and it finds the key of an attestation if no member
in front of the data has their name with a mark and the key is readable, or if the bytes
taken from such a member carry the same key. -/
theorem attestation_key_found (attestation : Attestation) (item : Cbor.WellFormed)
    (earlier later : Bytes) :
    skipValue (earlier ++ (item.val.encode ++ later)) (some earlier.length) =
        .ok (some (earlier.length + item.val.encode.length)) ∧
      (parseAttestationObject (buf2base64url attestation.encode) =
          .ok attestation.authData.key.publicKey ↔
        ((∀ member ∈ attestation.before, member.key ≠ marked) ∧
            attestation.authData.key.Readable) ∨
          ∃ other, attestation.mistaken = some other ∧
            CarriesKey other attestation.authData.key.publicKey) := by
  constructor
  · exact skipValue_item item.property List.drop_left
  · rw [attestation.parseAttestationObject_encode]
    cases shape : attestation.mistaken with
    | none =>
        have unmarked := attestation.mistaken_eq_none.mp shape
        rw [Option.getD_none, extractPublicKeyFromAuthData_encode,
          extractP256FromCoseKey_eq_iff]
        constructor
        · intro readable
          exact Or.inl ⟨unmarked, readable⟩
        · rintro (⟨_, readable⟩ | ⟨other, impossible, _⟩)
          · exact readable
          · cases impossible
    | some other =>
        rw [Option.getD_some]
        constructor
        · intro found
          exact Or.inr ⟨other, rfl, extractPublicKeyFromAuthData_iff.mp found⟩
        · rintro (⟨unmarked, _⟩ | ⟨_, same, carries⟩)
          · rw [attestation.mistaken_eq_none.mpr unmarked] at shape
            cases shape
          · cases same
            exact extractPublicKeyFromAuthData_iff.mpr carries

def shortKey : CoseKey where
  count := .immediate 5
  order := [.kty, .alg, .crv, .x, .y]
  form
    | .kty => .immediate 1
    | .alg => .immediate 3
    | .crv => .immediate 0
    | .x => .immediate 1
    | .y => .immediate 2
  kty := .immediate 2
  alg := .negative (.immediate 6)
  crv := .immediate 1
  xForm := .one 32
  x := List.replicate 32 0x5a
  yForm := .one 32
  y := List.replicate 32 0x6b
  counted := rfl
  permuted := List.Perm.refl _
  labelled := by intro label; cases label <;> rfl
  ec2 := rfl
  algorithm := ⟨_, rfl⟩
  p256 := rfl
  xCounted := rfl
  x_length := rfl
  yCounted := rfl
  y_length := rfl

theorem shortKey_length : shortKey.encode.length = 77 := by
  rw [encode_length]
  simp [CoseKey.size, CoseKey.label, CoseKey.value, CoseLabel.item, shortKey, Cbor.Item.encode,
    Cbor.Argument.extra]

/-- In front of the data, an empty string has their name with a mark. -/
def markedAttestation : Attestation where
  count := .immediate 2
  before := [
    { form := .immediate 11
      key := marked
      value := .bytes (.immediate 0) []
      counted := by decide
      valid := rfl }]
  keyForm := .immediate 8
  dataForm := .one 132
  authData :=
    { rpIdHash := List.replicate 32 0x7c
      flags := 0x41
      signCount := List.replicate 4 0
      aaguid := List.replicate 16 0
      credentialId := []
      key := shortKey
      extensions := []
      rpIdHash_length := rfl
      attested := by decide
      signCount_length := rfl
      aaguid_length := rfl
      credentialId_length := by decide }
  after := []
  counted := rfl
  keyCounted := rfl
  dataCounted := by simp [AuthData.encode, shortKey_length, Cbor.Argument.value]
  distinct := by simp [marked, Utf8.mark]

/-- An empty string is taken for the data. -/
theorem marked_data_lost :
    parseAttestationObject (buf2base64url markedAttestation.encode) ≠
      .ok markedAttestation.authData.key.publicKey := by
  have empty : markedAttestation.mistaken = some [] := rfl
  rw [Attestation.parseAttestationObject_encode, empty]
  intro found
  cases found

end Nido.Sdk
