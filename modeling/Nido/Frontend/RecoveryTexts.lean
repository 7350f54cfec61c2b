/-
The texts that carry a recovery: the hand-off in a link, and the staging in the browser's
storage.

Both are JSON. Byte strings are lists of numbers in storage, and a signature that was stored
before there were several transactions has its one entry in place. What was written is read
back, so the storage of stagings is what the stored texts say.
-/

import Nido.Frontend.RecoveryRotation
import Nido.Sdk.FriendWire

namespace Nido.Frontend

open Sdk

/-! ### The hand-off -/

/-- `/^[a-f0-9]{64}$/i` -/
def isTxHash (tx : String) : Bool :=
  decide (tx.toList.length = 64) &&
    tx.toList.all (fun c => decide ('a' ≤ c ∧ c ≤ 'f') || decide ('A' ≤ c ∧ c ≤ 'F') ||
      decide ('0' ≤ c ∧ c ≤ '9'))

def handoffWire (h : RotationHandoff) : List (String × Json) :=
  [("v", .natural 4), ("a", .string h.account), ("r", .natural h.recoveryRuleId.toNat),
    ("tx", .array (h.refractorTxHashes.map .string)),
    ("exp", .natural h.parentSignatureExpirationLedger), ("k", .string h.relayKey),
    ("u", .string h.relayBaseUrl)]

def encodeRotationHandoff (h : RotationHandoff) : Js String :=
  if h.refractorTxHashes = [] then
    .error "encodeRotationHandoff: handoff carries no transactions"
  else if h.refractorTxHashes.all isTxHash = false then
    .error "encodeRotationHandoff: malformed Refractor transaction hash"
  else if h.relayKey = "" ∨ h.relayBaseUrl = "" then
    .error "encodeRotationHandoff: missing relayKey or relayBaseUrl"
  else
    .ok (encodeJson (.object (handoffWire h)))

def readTexts : Option Json → Option (List String)
  | some (.array items) => items.mapM Json.text?
  | _ => none

/-- The numbers are a rule id and a ledger, which are natural numbers. -/
def readHandoff (value : Json) : Option RotationHandoff := do
  let account ← textField value "a"
  let recoveryRuleId ← natField value "r"
  let refractorTxHashes ← readTexts (value.property "tx")
  let parentSignatureExpirationLedger ← natField value "exp"
  let relayKey ← textField value "k"
  let relayBaseUrl ← textField value "u"
  if refractorTxHashes ≠ [] ∧ refractorTxHashes.all isTxHash = true ∧
      recoveryRuleId < 2 ^ 32 then
    pure
      { account, recoveryRuleId := UInt32.ofNat recoveryRuleId, refractorTxHashes,
        parentSignatureExpirationLedger, relayKey, relayBaseUrl }
  else
    none

def decodeRotationHandoff (encoded : String) : Js RotationHandoff :=
  match decodeText encoded with
  | .error _ => .error "decodeRotationHandoff: input is not valid base64url"
  | .ok json =>
      match Json.parse json with
      | none => .error "decodeRotationHandoff: payload is not valid JSON"
      | some .null => .error "Cannot read properties of null (reading 'v')"
      | some h =>
          if natField h "v" ≠ some 4 then
            .error ("decodeRotationHandoff: unsupported handoff version " ++
              ((h.property "v").map Json.display).getD "undefined" ++ " (restart recovery)")
          else
            match readHandoff h with
            | some handoff => .ok handoff
            | none => .error "decodeRotationHandoff: malformed handoff payload"

/-! ### Signatures in storage -/

def bytesJson (bytes : Bytes) : Json := .array (bytes.map (fun byte => .natural byte.toNat))

def serializeEntry (e : FriendSignatureEntry) : Json :=
  .object
    [("authenticatorData", bytesJson e.authenticatorData),
      ("clientDataJson", bytesJson e.clientDataJson), ("signature", bytesJson e.signature),
      ("nonce", .string e.nonce),
      ("signatureExpirationLedger", .natural e.signatureExpirationLedger)]

def serializeFriendSig (s : FriendSignature) : Json :=
  .object
    [("friendAccount", .string s.friendAccount), ("verifierAddress", .string s.verifierAddress),
      ("publicKey", bytesJson s.publicKey), ("entries", .array (s.entries.map serializeEntry))]

/-- `new Uint8Array(numbers)` -/
def readBytes : Json → Option Bytes
  | .array items => items.mapM (fun item => item.nat?.map UInt8.ofNat)
  | _ => none

def bytesField (value : Json) (name : String) : Option Bytes := (value.property name).bind readBytes

def deserializeEntry (e : Json) : Option FriendSignatureEntry := do
  let authenticatorData ← bytesField e "authenticatorData"
  let clientDataJson ← bytesField e "clientDataJson"
  let signature ← bytesField e "signature"
  let nonce ← textField e "nonce"
  let signatureExpirationLedger ← natField e "signatureExpirationLedger"
  pure { authenticatorData, clientDataJson, signature, nonce, signatureExpirationLedger }

/-- One flat entry, as it was stored before; what it lacks is empty. -/
def legacyEntry (o : Json) : FriendSignatureEntry where
  authenticatorData := (bytesField o "authenticatorData").getD []
  clientDataJson := (bytesField o "clientDataJson").getD []
  signature := (bytesField o "signature").getD []
  nonce := (textField o "nonce").getD "0"
  signatureExpirationLedger := (natField o "signatureExpirationLedger").getD 0

def deserializeEntries (o : Json) : Option (List FriendSignatureEntry) :=
  match o.property "entries" with
  | some (.array items) => items.mapM deserializeEntry
  | _ => some [legacyEntry o]

def deserializeFriendSig (o : Json) : Option FriendSignature := do
  let friendAccount ← textField o "friendAccount"
  let verifierAddress ← textField o "verifierAddress"
  let publicKey ← bytesField o "publicKey"
  let entries ← deserializeEntries o
  pure { friendAccount, verifierAddress, publicKey, entries }

/-! ### Stagings in storage -/

def optionalText (name : String) : Option String → List (String × Json)
  | some text => [(name, .string text)]
  | none => []

def txJson (t : StagedRotationTx) : Json :=
  .object
    ([("txXdr", .string t.txXdr), ("refractorTxHash", .string t.refractorTxHash),
      ("refractorTxUrl", .string t.refractorTxUrl),
      ("parentAuthDigestHex", .string t.parentAuthDigestHex)] ++
        optionalText "relayerTxId" t.relayerTxId ++
          optionalText "submittedHash" t.submittedHash)

def collectedJson (collected : Keyed String FriendSignature) : Json :=
  .object (collected.entries.map (fun entry => (entry.1, serializeFriendSig entry.2)))

def stagingJson (staging : RotationStaging) : List (String × Json) :=
  [("account", .string staging.account),
    ("recoveryRuleId", .natural staging.recoveryRuleId.toNat),
    ("threshold", .natural staging.threshold), ("friends", .array (staging.friends.map .string)),
    ("txs", .array (staging.txs.map txJson)), ("lastLedger", .natural staging.lastLedger),
    ("parentSignatureExpirationLedger", .natural staging.parentSignatureExpirationLedger),
    ("description", .string staging.description), ("relayKey", .string staging.relayKey),
    ("collected", collectedJson staging.collected)]

def readTx (t : Json) : Option StagedRotationTx := do
  let txXdr ← textField t "txXdr"
  let parentAuthDigestHex ← textField t "parentAuthDigestHex"
  let refractorTxHash ← textField t "refractorTxHash"
  let refractorTxUrl ← textField t "refractorTxUrl"
  pure
    { txXdr, refractorTxHash, refractorTxUrl, parentAuthDigestHex,
      relayerTxId := textField t "relayerTxId"
      submittedHash := textField t "submittedHash" }

def readTxs : Option Json → Option (List StagedRotationTx)
  | some (.array items) => items.mapM readTx
  | _ => none

def readSig (entry : String × Json) : Option (String × FriendSignature) :=
  (deserializeFriendSig entry.2).map (fun sig => (entry.1, sig))

def readCollected : Option Json → Option (Keyed String FriendSignature)
  | some (.object entries) =>
      ((Keyed.empty.putAll entries).entries.mapM readSig).map Keyed.empty.putAll
  | some .null | none => some Keyed.empty
  | some _ => none

/-- Nothing is read unless the fields have the types of a staging. -/
def stagingOfJson (o : Json) : Option RotationStaging := do
  let collected ← readCollected (o.property "collected")
  let txs ← readTxs (o.property "txs")
  let account ← textField o "account"
  let recoveryRuleId ← natField o "recoveryRuleId"
  let threshold ← natField o "threshold"
  let friends ← readTexts (o.property "friends")
  let lastLedger ← natField o "lastLedger"
  let parentSignatureExpirationLedger ← natField o "parentSignatureExpirationLedger"
  let description ← textField o "description"
  let relayKey ← textField o "relayKey"
  pure
    { account, recoveryRuleId := UInt32.ofNat recoveryRuleId, threshold, friends, txs, lastLedger,
      parentSignatureExpirationLedger, description, relayKey, collected }

/-- The texts in the browser's storage. -/
abbrev StoredTexts := String → Option String

namespace StoredTexts

def readRaw (raw : String) : Option RotationStaging :=
  if raw = "" then none else (Json.parse raw).bind stagingOfJson

def loadStaging (texts : StoredTexts) (account : String) : Option RotationStaging :=
  (texts (stagingKey account)).bind readRaw

def saveStaging (texts : StoredTexts) (staging : RotationStaging) : StoredTexts :=
  fun key => if key = stagingKey staging.account then
    some (Json.stringify (.object (stagingJson staging))) else texts key

def clearStaging (texts : StoredTexts) (account : String) : StoredTexts :=
  fun key => if key = stagingKey account then none else texts key

/-- The stagings that the texts are read as. -/
def read (texts : StoredTexts) : LocalStorage := fun key => (texts key).bind readRaw

end StoredTexts

/-! ### What is written is read back -/

theorem readTexts_map (texts : List String) :
    readTexts (some (.array (texts.map .string))) = some texts :=
  Json.mapM_read (fun _ _ => rfl)

theorem readBytes_bytesJson (bytes : Bytes) : readBytes (bytesJson bytes) = some bytes := by
  apply Json.mapM_read
  intro byte _
  rw [Json.nat?_natural, Option.map_some, UInt8.ofNat_toNat]

theorem deserializeEntry_serialize (e : FriendSignatureEntry) :
    deserializeEntry (serializeEntry e) = some e := by
  have authenticatorData : bytesField (serializeEntry e) "authenticatorData" =
      some e.authenticatorData := readBytes_bytesJson _
  have clientDataJson : bytesField (serializeEntry e) "clientDataJson" =
      some e.clientDataJson := readBytes_bytesJson _
  have signature : bytesField (serializeEntry e) "signature" = some e.signature :=
    readBytes_bytesJson _
  have nonce : textField (serializeEntry e) "nonce" = some e.nonce := rfl
  have expiration : natField (serializeEntry e) "signatureExpirationLedger" =
      some e.signatureExpirationLedger := Json.nat?_natural _
  simp [deserializeEntry, authenticatorData, clientDataJson, signature, nonce, expiration]

theorem deserializeFriendSig_serialize (s : FriendSignature) :
    deserializeFriendSig (serializeFriendSig s) = some s := by
  have friendAccount : textField (serializeFriendSig s) "friendAccount" =
      some s.friendAccount := rfl
  have verifierAddress : textField (serializeFriendSig s) "verifierAddress" =
      some s.verifierAddress := rfl
  have publicKey : bytesField (serializeFriendSig s) "publicKey" = some s.publicKey :=
    readBytes_bytesJson _
  have entries : deserializeEntries (serializeFriendSig s) = some s.entries :=
    Json.mapM_read (fun e _ => deserializeEntry_serialize e)
  simp [deserializeFriendSig, friendAccount, verifierAddress, publicKey, entries]

theorem readTx_txJson (t : StagedRotationTx) : readTx (txJson t) = some t := by
  obtain ⟨txXdr, refractorTxHash, refractorTxUrl, parentAuthDigestHex, relayerTxId,
    submittedHash⟩ := t
  cases relayerTxId with
  | none =>
      cases submittedHash with
      | none => rfl
      | some sent => rfl
  | some job =>
      cases submittedHash with
      | none => rfl
      | some sent => rfl

theorem readCollected_collectedJson (collected : Keyed String FriendSignature) :
    readCollected (some (collectedJson collected)) = some collected := by
  have distinct : ((collected.entries.map
      (fun entry => (entry.1, serializeFriendSig entry.2))).map Prod.fst).Nodup := by
    rw [List.map_map]
    exact collected.distinct
  have fresh {υ : Type} (writes : List (String × υ)) :
      ∀ write ∈ writes, write.1 ∉ (Keyed.empty : Keyed String υ).keys := by
    intro write _ impossible
    cases impossible
  have sigs (entries : List (String × FriendSignature)) :
      (entries.map (fun entry => (entry.1, serializeFriendSig entry.2))).mapM readSig =
        some entries := by
    induction entries with
    | nil => rfl
    | cons entry rest ih =>
        have first : readSig (entry.1, serializeFriendSig entry.2) = some entry := by
          unfold readSig
          rw [deserializeFriendSig_serialize]
          rfl
        rw [List.map_cons, List.mapM_cons, first, ih]
        rfl
  have whole : Keyed.empty.putAll collected.entries = collected := by
    have entries := Keyed.putAll_entries collected.distinct (fresh collected.entries)
    cases collected with
    | mk listed nodup =>
        cases result : Keyed.empty.putAll listed with
        | mk others othersNodup =>
            rw [result] at entries
            change others = [] ++ listed at entries
            rw [List.nil_append] at entries
            subst entries
            rfl
  unfold collectedJson readCollected
  dsimp only
  rw [Keyed.putAll_entries distinct (fresh _)]
  change (List.mapM readSig ([] ++ _)).map _ = _
  rw [List.nil_append, sigs, Option.map_some, whole]

theorem readHandoff_handoffWire {h : RotationHandoff} (given : h.refractorTxHashes ≠ [])
    (hashes : h.refractorTxHashes.all isTxHash = true) :
    readHandoff (.object (handoffWire h)) = some h := by
  have account : textField (.object (handoffWire h)) "a" = some h.account := rfl
  have recoveryRuleId : natField (.object (handoffWire h)) "r" =
      some h.recoveryRuleId.toNat := Json.nat?_natural _
  have refractorTxHashes : readTexts ((Json.object (handoffWire h)).property "tx") =
      some h.refractorTxHashes := readTexts_map _
  have expiration : natField (.object (handoffWire h)) "exp" =
      some h.parentSignatureExpirationLedger := Json.nat?_natural _
  have relayKey : textField (.object (handoffWire h)) "k" = some h.relayKey := rfl
  have relayBaseUrl : textField (.object (handoffWire h)) "u" = some h.relayBaseUrl := rfl
  have accepted : h.refractorTxHashes ≠ [] ∧ h.refractorTxHashes.all isTxHash = true ∧
      h.recoveryRuleId.toNat < 2 ^ 32 := ⟨given, hashes, h.recoveryRuleId.toNat_lt⟩
  unfold readHandoff
  rw [account, recoveryRuleId, refractorTxHashes, expiration, relayKey, relayBaseUrl]
  change (if h.refractorTxHashes ≠ [] ∧ h.refractorTxHashes.all isTxHash = true ∧
    h.recoveryRuleId.toNat < 2 ^ 32 then some _ else none) = _
  rw [if_pos accepted, UInt32.ofNat_toNat]

theorem handoffWire_spelt (h : RotationHandoff) : Json.speltEntries (handoffWire h) = true := by
  have hashes := Json.speltItems_map Json.string h.refractorTxHashes (fun _ _ => rfl)
  simp [handoffWire, Json.speltEntries, Json.spelt, hashes]

theorem decodeRotationHandoff_encode {h : RotationHandoff} {text : String}
    (encoded : encodeRotationHandoff h = .ok text) : decodeRotationHandoff text = .ok h := by
  unfold encodeRotationHandoff at encoded
  split at encoded
  next => cases encoded
  next given =>
    split at encoded
    next => cases encoded
    next hashes =>
      split at encoded
      next => cases encoded
      next =>
        rw [Bool.not_eq_false] at hashes
        rw [← Except.ok.inj encoded]
        have parsed := Json.parse_stringify_object (handoffWire_spelt h)
        have version : natField (.object (handoffWire h)) "v" = some 4 := Json.nat?_natural 4
        unfold decodeRotationHandoff
        rw [decodeText_encodeJson]
        dsimp only
        rw [parsed]
        dsimp only
        rw [if_neg (not_not.mpr version), readHandoff_handoffWire given hashes]

theorem bytesJson_spelt (bytes : Bytes) : (bytesJson bytes).spelt = true :=
  Json.speltItems_map _ _ (fun _ _ => Json.natural_spelt _)

theorem serializeFriendSig_spelt (s : FriendSignature) :
    (serializeFriendSig s).spelt = true := by
  have entry (e : FriendSignatureEntry) : (serializeEntry e).spelt = true := by
    simp [serializeEntry, Json.spelt, Json.speltEntries, bytesJson_spelt]
  have entries := Json.speltItems_map serializeEntry s.entries (fun e _ => entry e)
  simp [serializeFriendSig, Json.spelt, Json.speltEntries, bytesJson_spelt, entries]

theorem txJson_spelt (t : StagedRotationTx) : (txJson t).spelt = true := by
  cases job : t.relayerTxId <;> cases sent : t.submittedHash <;>
    simp [txJson, optionalText, Json.spelt, Json.speltEntries, job, sent]

theorem stagingJson_spelt (staging : RotationStaging) :
    Json.speltEntries (stagingJson staging) = true := by
  have friends := Json.speltItems_map Json.string staging.friends (fun _ _ => rfl)
  have txs := Json.speltItems_map txJson staging.txs (fun t _ => txJson_spelt t)
  have collected : (collectedJson staging.collected).spelt = true :=
    Json.speltEntries_map _ _ (fun entry _ => serializeFriendSig_spelt entry.2)
  simp [stagingJson, Json.speltEntries, Json.spelt, friends, txs, collected]

theorem stagingOfJson_stagingJson (staging : RotationStaging) :
    stagingOfJson (.object (stagingJson staging)) = some staging := by
  have collected : readCollected ((Json.object (stagingJson staging)).property "collected") =
      some staging.collected := readCollected_collectedJson _
  have txs : readTxs ((Json.object (stagingJson staging)).property "txs") = some staging.txs :=
    Json.mapM_read (fun t _ => readTx_txJson t)
  have account : textField (.object (stagingJson staging)) "account" =
      some staging.account := rfl
  have recoveryRuleId : natField (.object (stagingJson staging)) "recoveryRuleId" =
      some staging.recoveryRuleId.toNat := Json.nat?_natural _
  have threshold : natField (.object (stagingJson staging)) "threshold" =
      some staging.threshold := Json.nat?_natural _
  have friends : readTexts ((Json.object (stagingJson staging)).property "friends") =
      some staging.friends := readTexts_map _
  have lastLedger : natField (.object (stagingJson staging)) "lastLedger" =
      some staging.lastLedger := Json.nat?_natural _
  have expiration : natField (.object (stagingJson staging)) "parentSignatureExpirationLedger" =
      some staging.parentSignatureExpirationLedger := Json.nat?_natural _
  have description : textField (.object (stagingJson staging)) "description" =
      some staging.description := rfl
  have relayKey : textField (.object (stagingJson staging)) "relayKey" =
      some staging.relayKey := rfl
  simp [stagingOfJson, collected, txs, account, recoveryRuleId, threshold, friends, lastLedger,
    expiration, description, relayKey]

namespace StoredTexts

theorem readRaw_stagingJson (staging : RotationStaging) :
    readRaw (Json.stringify (.object (stagingJson staging))) = some staging := by
  have plain : (Json.object (stagingJson staging)).spelt = true := stagingJson_spelt staging
  unfold readRaw
  rw [if_neg (Json.stringify_ne_empty plain), Json.parse_stringify plain, Option.bind_some,
    stagingOfJson_stagingJson]

theorem read_saveStaging (texts : StoredTexts) (staging : RotationStaging) :
    (texts.saveStaging staging).read = Frontend.saveStaging texts.read staging := by
  funext key
  unfold read saveStaging Frontend.saveStaging
  by_cases same : key = stagingKey staging.account
  · rw [if_pos same, if_pos same, Option.bind_some, readRaw_stagingJson]
  · rw [if_neg same, if_neg same]

theorem read_clearStaging (texts : StoredTexts) (account : String) :
    (texts.clearStaging account).read = Frontend.clearStaging texts.read account := by
  funext key
  unfold read clearStaging Frontend.clearStaging
  by_cases same : key = stagingKey account
  · rw [if_pos same, if_pos same]
    rfl
  · rw [if_neg same, if_neg same]

theorem loadStaging_read (texts : StoredTexts) (account : String) :
    texts.loadStaging account = Frontend.loadStaging texts.read account :=
  rfl

end StoredTexts

/-- Hand-offs, signatures and stagings come back from their texts. -/
structure TextsSurvive : Prop where
  handoff : ∀ (h : RotationHandoff) (text : String),
    encodeRotationHandoff h = .ok text → decodeRotationHandoff text = .ok h
  friendSignature : ∀ s : FriendSignature, s.entries ≠ [] →
    ∃ text, encodeFriendSignature s = .ok text ∧ decodeFriendSignature readWire text = .ok s
  staging : ∀ (texts : StoredTexts) (staging : RotationStaging),
    (texts.saveStaging staging).loadStaging staging.account = some staging

theorem recovery_texts_survive : TextsSurvive where
  handoff := fun _ _ encoded => decodeRotationHandoff_encode encoded
  friendSignature := decodeFriendSignature_encode
  staging := by
    intro texts staging
    rw [StoredTexts.loadStaging_read, StoredTexts.read_saveStaging, loadStaging_saveStaging]

def sampleHandoff : RotationHandoff where
  account := "CALICE"
  recoveryRuleId := 4294967295
  refractorTxHashes :=
    [String.ofList (List.replicate 64 'a'), String.ofList (List.replicate 64 'F')]
  parentSignatureExpirationLedger := 1234567
  relayKey := "key"
  relayBaseUrl := "https://relay.nido.fyi"

def sampleSignature : FriendSignature where
  friendAccount := "CBOB"
  verifierAddress := "CVERIFIER"
  publicKey := [0x04, 0xff]
  entries :=
    [{ authenticatorData := [0, 255], clientDataJson := [0x7b, 0x7d], signature := [1]
       nonce := "-1", signatureExpirationLedger := 1234567 },
     { authenticatorData := [], clientDataJson := [0xf0], signature := [2]
       nonce := "7", signatureExpirationLedger := 1234567 }]

theorem recovery_texts_survive_handoff :
    (∃ text, encodeRotationHandoff sampleHandoff = .ok text ∧
      decodeRotationHandoff text = .ok sampleHandoff) ∧
    ∃ text, encodeFriendSignature sampleSignature = .ok text ∧
      decodeFriendSignature readWire text = .ok sampleSignature := by
  have hashes : sampleHandoff.refractorTxHashes.all isTxHash = true := by
    simp [sampleHandoff, isTxHash]
  have named : ¬ (sampleHandoff.relayKey = "" ∨ sampleHandoff.relayBaseUrl = "") := by decide
  have encoded : encodeRotationHandoff sampleHandoff =
      .ok (encodeJson (.object (handoffWire sampleHandoff))) := by
    unfold encodeRotationHandoff
    rw [if_neg (by simp [sampleHandoff]), if_neg (by simp [hashes]), if_neg named]
  constructor
  · exact ⟨_, encoded, recovery_texts_survive.handoff _ _ encoded⟩
  · exact recovery_texts_survive.friendSignature sampleSignature (List.cons_ne_nil _ _)

end Nido.Frontend
