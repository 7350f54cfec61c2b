/-
The data types of the smart-account library that cross a contract boundary:
signers, context rules, and their host-value encodings. A contract type with
variants is a vector headed by the variant's symbol.
-/

import Nido.Soroban.Value

namespace Nido

inductive Signer
  | delegated (address : Address)
  | external (verifier : Address) (keyData : Bytes)
deriving DecidableEq

def Signer.toScVal : Signer → ScVal
  | .delegated address => .vec [.symbol "Delegated", .address address]
  | .external verifier keyData => .vec [.symbol "External", .address verifier, .bytes keyData]

def Signer.fromScVal : ScVal → Option Signer
  | .vec [.symbol "Delegated", .address address] => some (.delegated address)
  | .vec [.symbol "External", .address verifier, .bytes keyData] =>
      some (.external verifier keyData)
  | _ => none

theorem Signer.fromScVal_toScVal (signer : Signer) :
    Signer.fromScVal signer.toScVal = some signer := by
  cases signer <;> rfl

def decodeItems {α : Type} (decode : ScVal → Option α) : List ScVal → Option (List α)
  | [] => some []
  | value :: rest => do
      let item ← decode value
      let items ← decodeItems decode rest
      pure (item :: items)

theorem decodeItems_map {α : Type} {decode : ScVal → Option α} {encode : α → ScVal}
    (roundTrip : ∀ item, decode (encode item) = some item) (items : List α) :
    decodeItems decode (items.map encode) = some items := by
  induction items with
  | nil => rfl
  | cons item items ih =>
      rw [List.map_cons, decodeItems, roundTrip, ih]
      rfl

def decodeVec {α : Type} (decode : ScVal → Option α) : ScVal → Option (List α)
  | .vec items => decodeItems decode items
  | _ => none

inductive ContextRuleType
  | default
  | callContract (contract : Address)
  | createContract (wasmHash : BytesN 32)
deriving DecidableEq

def ContextRuleType.toScVal : ContextRuleType → ScVal
  | .default => .vec [.symbol "Default"]
  | .callContract contract => .vec [.symbol "CallContract", .address contract]
  | .createContract wasmHash => .vec [.symbol "CreateContract", .bytes wasmHash.data]

def ContextRuleType.fromScVal : ScVal → Option ContextRuleType
  | .vec [.symbol "Default"] => some .default
  | .vec [.symbol "CallContract", .address contract] => some (.callContract contract)
  | .vec [.symbol "CreateContract", .bytes wasmHash] =>
      if size : wasmHash.length = 32 then some (.createContract ⟨wasmHash, size⟩) else none
  | _ => none

theorem ContextRuleType.fromScVal_toScVal (contextType : ContextRuleType) :
    ContextRuleType.fromScVal contextType.toScVal = some contextType := by
  cases contextType with
  | default => rfl
  | callContract contract => rfl
  | createContract wasmHash =>
      simp only [toScVal, fromScVal, dif_pos wasmHash.size]

/-- Only the bare `Default` vector decodes to the unscoped type. -/
theorem ContextRuleType.fromScVal_eq_default (value : ScVal) :
    ContextRuleType.fromScVal value = some .default ↔ value = ContextRuleType.default.toScVal := by
  constructor
  · intro decoded
    unfold ContextRuleType.fromScVal at decoded
    split at decoded
    · rfl
    · cases decoded
    · split at decoded <;> cases decoded
    · cases decoded
  · intro same
    rw [same, fromScVal_toScVal]

/-- `Option<u32>`: the void value is `None`. -/
def decodeOptionU32 : ScVal → Option (Option UInt32)
  | .void => some none
  | .u32 value => some (some value)
  | _ => none

theorem decodeOptionU32_eq_none (value : ScVal) :
    decodeOptionU32 value = some none ↔ value = .void := by
  cases value <;> simp [decodeOptionU32]

def encodeOptionU32 : Option UInt32 → ScVal
  | none => .void
  | some value => .u32 value

theorem decodeOptionU32_encode (value : Option UInt32) :
    decodeOptionU32 (encodeOptionU32 value) = some value := by
  cases value <;> rfl

structure ContextRule where
  id : UInt32
  contextType : ContextRuleType
  name : String
  signers : List Signer
  signerIds : List UInt32
  policies : List Address
  policyIds : List UInt32
  validUntil : Option UInt32
deriving DecidableEq

namespace ContextRule

def fields : List String :=
  ["context_type", "id", "name", "policies", "policy_ids", "signer_ids", "signers", "valid_until"]

def toScVal (rule : ContextRule) : ScVal :=
  .map
    [(.symbol "context_type", rule.contextType.toScVal),
      (.symbol "id", .u32 rule.id),
      (.symbol "name", .string rule.name),
      (.symbol "policies", .vec (rule.policies.map .address)),
      (.symbol "policy_ids", .vec (rule.policyIds.map .u32)),
      (.symbol "signer_ids", .vec (rule.signerIds.map .u32)),
      (.symbol "signers", .vec (rule.signers.map Signer.toScVal)),
      (.symbol "valid_until", encodeOptionU32 rule.validUntil)]

def fromScVal (value : ScVal) : Option ContextRule := do
  match ← value.asStruct fields with
  | [contextType, id, name, policies, policyIds, signerIds, signers, validUntil] =>
      pure {
        id := ← id.asU32
        contextType := ← ContextRuleType.fromScVal contextType
        name := ← name.asString
        signers := ← decodeVec Signer.fromScVal signers
        signerIds := ← decodeVec ScVal.asU32 signerIds
        policies := ← decodeVec ScVal.asAddress policies
        policyIds := ← decodeVec ScVal.asU32 policyIds
        validUntil := ← decodeOptionU32 validUntil }
  | _ => none

theorem fromScVal_toScVal (rule : ContextRule) : fromScVal rule.toScVal = some rule := by
  have struct : rule.toScVal.asStruct fields =
      some [rule.contextType.toScVal, .u32 rule.id, .string rule.name,
        .vec (rule.policies.map .address), .vec (rule.policyIds.map .u32),
        .vec (rule.signerIds.map .u32), .vec (rule.signers.map Signer.toScVal),
        encodeOptionU32 rule.validUntil] := by
    unfold toScVal ScVal.asStruct
    exact if_pos rfl
  have policies := decodeItems_map (fun _ => rfl : ∀ policy, ScVal.asAddress (.address policy) = some policy) rule.policies
  have policyIds := decodeItems_map (fun _ => rfl : ∀ id, ScVal.asU32 (.u32 id) = some id) rule.policyIds
  have signerIds := decodeItems_map (fun _ => rfl : ∀ id, ScVal.asU32 (.u32 id) = some id) rule.signerIds
  have signers := decodeItems_map Signer.fromScVal_toScVal rule.signers
  unfold fromScVal
  rw [struct]
  simp only [Option.bind_eq_bind, Option.bind_some, ScVal.asU32, ScVal.asString, decodeVec,
    ContextRuleType.fromScVal_toScVal, policies, policyIds, signerIds, signers, decodeOptionU32_encode]
  rfl

end ContextRule

end Nido
