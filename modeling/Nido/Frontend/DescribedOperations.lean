/-
The summary of an operation that the wallet built itself.

Each kind of descriptor is turned into one call, and the page that asks for the
signature describes the call again. A name, a transfer and the end of a session key are
recognised. The grant of a session key is not: the account's function takes five
arguments, and only a call with a single one is read as a grant.
-/

import Nido.Frontend.TxSummary

namespace Nido.Frontend

open Sdk

/-- The summary of the kind of a descriptor, with the values of the descriptor. -/
def Summarises (fetchRegistryAddress : String → Js String) (account : String)
    (summary : OpSummary) : OperationDescriptor → Prop
  | .register name =>
      ∃ nameRegistryId, fetchRegistryAddress "name-registry" = .ok nameRegistryId ∧
        summary = .nameRegister nameRegistryId account name
  | .transfer token to_ amountRaw =>
      ∃ amount, bigInt amountRaw = .ok amount ∧
        summary = .transfer (.text token) (.text account) (.text to_) amount
  | .addContextRule target _ _ validUntil _ label =>
      summary = .sessionGrant account (label.getD "session-key") target
        (validUntil.map (fun ledger => (ledger.toNat : Int)))
  | .removeContextRule ruleId => summary = .sessionRevoke account ruleId.toNat

def OperationDescriptor.grantsSession : OperationDescriptor → Bool
  | .addContextRule .. => true
  | _ => false

/-- Addresses are written as they were read, and a text that was not on the wire stays. -/
structure InMemory (bindings : Bindings) (reader : NativeReader) : Prop where
  address : ∀ text target, bindings.addressOf text = .ok target →
    reader.addressToString target = text
  text : ∀ text, reader.readText text = text

section Kinds

variable {bindings : Bindings} {reader : NativeReader}
  {fetchRegistryAddress : String → Js String} {account : String}
  {ops : List InvokeHostFunctionOp}

theorem Bindings.call_eq_ok {contractId method : String} {args : List ScVal} :
    bindings.call contractId method args = .ok ops ↔
      ∃ contract auth, bindings.addressOf contractId = .ok contract ∧
        bindings.simulate { contract, fnName := method, args } = .ok auth ∧
        ops = [{ hostFunction := .invokeContract { contract, fnName := method, args }, auth }] := by
  simp only [Bindings.call, Contract.bind_eq_ok, Contract.pure_eq_ok]
  constructor
  · rintro ⟨contract, read, auth, simulated, rfl⟩
    exact ⟨contract, auth, read, simulated, rfl⟩
  · rintro ⟨contract, auth, read, simulated, rfl⟩
    exact ⟨contract, read, auth, simulated, rfl⟩

theorem describe_register (contract owner : Address) (name : String) :
    describeInvokeContract reader
      { contract, fnName := "register", args := [.address owner, .string name] } =
        .nameRegister (reader.addressToString contract) (reader.addressToString owner)
          (reader.readText name) := rfl

theorem describe_transfer (memory : InMemory bindings reader)
    (contract token sender receiver : Address) (amount : Int) :
    describeInvokeContract reader
      { contract, fnName := "execute"
        args := [.address token, .symbol "transfer",
          .vec [.address sender, .address receiver, .i128 amount]] } =
        .transfer (.text (reader.addressToString token)) (.text (reader.addressToString sender))
          (.text (reader.addressToString receiver)) amount := by
  have method : (Native.text (reader.readText "transfer")).asText = some "transfer" :=
    congrArg some (memory.text "transfer")
  rw [describeInvokeContract_eq_transfer]
  unfold recognise
  dsimp only
  rw [if_pos rfl, describeExecute_eq_some]
  exact ⟨_, _, _, _, rfl, _, _, _, _, rfl, rfl, rfl, method, decoded_typed sender receiver amount⟩

theorem describe_removeContextRule (contract : Address) (ruleId : UInt32) :
    describeInvokeContract reader
      { contract, fnName := "remove_context_rule", args := [.u32 ruleId] } =
        .sessionRevoke (reader.addressToString contract) ruleId.toNat := rfl

/-- A grant has five arguments, so it stays a call without a summary. -/
theorem describe_addContextRule (contract : Address)
    (contextType name validUntil signers policies : ScVal) :
    describeInvokeContract reader
      { contract, fnName := "add_context_rule"
        args := [contextType, name, validUntil, signers, policies] } =
        .invoke (reader.addressToString contract) "add_context_rule" 5 := rfl

/-- What was built is one call, and its summary is the one of its kind unless it grants a
session. -/
theorem buildOperation_summary (memory : InMemory bindings reader) {d : OperationDescriptor}
    (built : buildOperation bindings fetchRegistryAddress d account = .ok ops) :
    ∃ op, ops = [op] ∧
      (d.grantsSession = false ∧
        Summarises fetchRegistryAddress account
          (describeOperation reader (.invokeHostFunction op)) d ∨
      d.grantsSession = true ∧
        describeOperation reader (.invokeHostFunction op) =
          .invoke account "add_context_rule" 5) := by
  cases d with
  | register name =>
      obtain ⟨registryId, fetched, rest⟩ := Contract.bind_eq_ok.mp built
      obtain ⟨owner, ownerRead, rest⟩ := Contract.bind_eq_ok.mp rest
      obtain ⟨operation, invoked, same⟩ := Contract.bind_eq_ok.mp rest
      obtain ⟨contract, contractRead, sameOperation⟩ := Contract.bind_eq_ok.mp invoked
      cases same
      cases sameOperation
      refine ⟨_, rfl, Or.inl ⟨rfl, registryId, fetched, ?_⟩⟩
      rw [← memory.address _ _ contractRead, ← memory.address _ _ ownerRead]
      exact (describe_register contract owner name).trans (by rw [memory.text])
  | transfer token to_ amountRaw =>
      obtain ⟨amount, amountRead, rest⟩ := Contract.bind_eq_ok.mp built
      obtain ⟨operation, sent, same⟩ := Contract.bind_eq_ok.mp rest
      obtain ⟨sender, senderRead, rest⟩ := Contract.bind_eq_ok.mp sent
      obtain ⟨receiver, receiverRead, rest⟩ := Contract.bind_eq_ok.mp rest
      obtain ⟨tokenId, tokenRead, invoked⟩ := Contract.bind_eq_ok.mp rest
      obtain ⟨contract, contractRead, sameOperation⟩ := Contract.bind_eq_ok.mp invoked
      cases same
      cases sameOperation
      refine ⟨_, rfl, Or.inl ⟨rfl, amount, amountRead, ?_⟩⟩
      rw [← memory.address _ _ senderRead, ← memory.address _ _ receiverRead,
        ← memory.address _ _ tokenRead]
      exact describe_transfer memory contract tokenId sender receiver amount
  | addContextRule target signerPublicKeyHex verifierAddress validUntil limit label =>
      obtain ⟨policies, _, rest⟩ := Contract.bind_eq_ok.mp built
      obtain ⟨scope, _, rest⟩ := Contract.bind_eq_ok.mp rest
      obtain ⟨verifier, _, called⟩ := Contract.bind_eq_ok.mp rest
      obtain ⟨contract, auth, contractRead, _, rfl⟩ := Bindings.call_eq_ok.mp called
      refine ⟨_, rfl, Or.inr ⟨rfl, ?_⟩⟩
      rw [← memory.address _ _ contractRead]
      exact describe_addContextRule contract _ _ _ _ _
  | removeContextRule ruleId =>
      obtain ⟨contract, auth, contractRead, _, rfl⟩ := Bindings.call_eq_ok.mp built
      refine ⟨_, rfl, Or.inl ⟨rfl, ?_⟩⟩
      unfold Summarises
      rw [← memory.address _ _ contractRead]
      exact describe_removeContextRule contract ruleId

theorem describe_built_iff (memory : InMemory bindings reader) {d : OperationDescriptor}
    (built : buildOperation bindings fetchRegistryAddress d account = .ok ops) :
    (∃ op, ops = [op] ∧ Summarises fetchRegistryAddress account
      (describeOperation reader (.invokeHostFunction op)) d) ↔ d.grantsSession = false := by
  obtain ⟨op, rfl, ⟨noGrant, summarised⟩ | ⟨grants, generic⟩⟩ :=
    buildOperation_summary memory built
  · exact ⟨fun _ => noGrant, fun _ => ⟨op, rfl, summarised⟩⟩
  · constructor
    · rintro ⟨other, same, summarised⟩
      cases same
      cases d with
      | addContextRule target signerPublicKeyHex verifierAddress validUntil limit label =>
          rw [generic] at summarised
          cases summarised
      | _ => cases grants
    · intro noGrant
      rw [grants] at noGrant
      cases noGrant

end Kinds

/-! ### A session key -/

namespace SampleGrant

def account : String := "account"

def bindings : Bindings where
  addressOf := fun text =>
    if text = account then .ok (.contract ⟨List.replicate 32 18, rfl⟩)
    else if text = "target" then .ok (.contract ⟨List.replicate 32 19, rfl⟩)
    else if text = "verifier" then .ok (.contract ⟨List.replicate 32 20, rfl⟩)
    else .error "Unsupported address type"
  simulate := fun _ => .ok []

def reader : NativeReader where
  addressToString := fun target =>
    if target = .contract ⟨List.replicate 32 18, rfl⟩ then account
    else if target = .contract ⟨List.replicate 32 19, rfl⟩ then "target"
    else "verifier"
  bufferToString := fun _ => ""
  readText := id

theorem inMemory : InMemory bindings reader := by
  constructor
  · intro text target read
    simp only [bindings] at read
    split at read
    next same =>
      cases read
      exact same.symm
    next =>
      split at read
      next same =>
        cases read
        exact same.symm
      next =>
        split at read
        next same =>
          cases read
          exact same.symm
        next => cases read
  · intro text
    rfl

def grant : OperationDescriptor := .addContextRule "target" "04" "verifier" (some 7) none none

def operation : InvokeHostFunctionOp where
  hostFunction := .invokeContract
    { contract := .contract ⟨List.replicate 32 18, rfl⟩
      fnName := "add_context_rule"
      args :=
        [(ContextRuleType.callContract (.contract ⟨List.replicate 32 19, rfl⟩)).toScVal,
          .string "session-key", .u32 7,
          .vec [(Signer.external (.contract ⟨List.replicate 32 20, rfl⟩) [0x04]).toScVal],
          .map []] }
  auth := []

theorem built (registry : String → Js String) :
    buildOperation bindings registry grant account = .ok [operation] := rfl

def payment : OperationDescriptor := .transfer "target" "verifier" "-12"

def paymentOperation : InvokeHostFunctionOp where
  hostFunction := .invokeContract
    { contract := .contract ⟨List.replicate 32 18, rfl⟩
      fnName := "execute"
      args :=
        [.address (.contract ⟨List.replicate 32 19, rfl⟩), .symbol "transfer",
          .vec
            [.address (.contract ⟨List.replicate 32 18, rfl⟩),
              .address (.contract ⟨List.replicate 32 20, rfl⟩), .i128 (-12)]] }
  auth := []

theorem paymentBuilt (registry : String → Js String) :
    buildOperation bindings registry payment account = .ok [paymentOperation] := rfl

end SampleGrant

theorem describe_built_iff_payment :
    Summarises (fun _ => .error "") SampleGrant.account
        (describeOperation SampleGrant.reader
          (.invokeHostFunction SampleGrant.paymentOperation)) SampleGrant.payment ∧
      ¬ ∃ op, [SampleGrant.operation] = [op] ∧
        Summarises (fun _ => .error "") SampleGrant.account
          (describeOperation SampleGrant.reader (.invokeHostFunction op)) SampleGrant.grant := by
  constructor
  · obtain ⟨op, same, summarised⟩ :=
      (describe_built_iff SampleGrant.inMemory (SampleGrant.paymentBuilt _)).mpr rfl
    rw [(List.cons.inj same).1]
    exact summarised
  · intro shown
    cases (describe_built_iff SampleGrant.inMemory (SampleGrant.built _)).mp shown

/-- The page shows a call with five arguments. -/
theorem grant_shown_as_call :
    buildOperation SampleGrant.bindings (fun _ => .error "") SampleGrant.grant
        SampleGrant.account = .ok [SampleGrant.operation] ∧
      describeOperation SampleGrant.reader (.invokeHostFunction SampleGrant.operation) =
        .invoke "account" "add_context_rule" 5 ∧
      ¬ Summarises (fun _ => .error "") SampleGrant.account
        (describeOperation SampleGrant.reader (.invokeHostFunction SampleGrant.operation))
        SampleGrant.grant := by
  refine ⟨rfl, rfl, ?_⟩
  intro summarised
  cases summarised

end Nido.Frontend
