/-
The transaction builders of the recovery blocks: a friends block is installed or
revoked, and a rotation of the account's signers is planned and built.

A generated binding turns a method and its typed arguments into one contract
call, the arguments standing in the order of the contract's signature, and runs
it through a simulation, which leaves authorization templates or fails.
-/

import Nido.SmartAccount.Types
import Nido.Soroban.Transaction
import Nido.Sdk.AuthHash

namespace Nido.Sdk

/-- What the bindings need from outside: parsing an address, and simulating a call. -/
structure Bindings where
  addressOf : String → Js Address
  simulate : ContractContext → Js (List AuthEntry)

structure TxBuild where
  operations : List InvokeHostFunctionOp
  description : String

structure Friend where
  address : String

structure MultisigRecoveryBlock where
  threshold : UInt32
  friends : List Friend
  label : Option String

structure NewPasskeySigner where
  verifierAddress : String
  publicKey : Bytes

structure RotationRuleState where
  signerCount : Int
  policyCount : Int

structure RotationRequest where
  defaultRuleId : UInt32
  addPasskey : Option NewPasskeySigner
  removeSignerId : Option UInt32
  ruleState : Option RotationRuleState
  thresholdPolicyAddress : Option String

inductive RotationCall
  | addSigner (contextRuleId : UInt32) (verifierAddress : String) (publicKey : Bytes)
  | removeSigner (contextRuleId signerId : UInt32)
  | addPolicy (contextRuleId : UInt32) (policyAddress : String) (threshold : UInt32)
deriving DecidableEq

/-- An empty address counts as none. -/
def thresholdCalls (req : RotationRequest) : List RotationCall :=
  match req.ruleState, req.thresholdPolicyAddress.filter (fun address => decide (address ≠ "")) with
  | some ruleState, some thresholdPolicyAddress =>
      let adds : Int := if req.addPasskey.isSome then 1 else 0
      let removes : Int := if req.removeSignerId.isSome then 1 else 0
      let resultingSigners := ruleState.signerCount + adds - removes
      if ruleState.policyCount = 0 ∧ resultingSigners > 1 then
        [.addPolicy req.defaultRuleId thresholdPolicyAddress 1]
      else
        []
  | _, _ => []

def addSignerCalls (req : RotationRequest) : Js (List RotationCall) :=
  match req.addPasskey with
  | none => .ok []
  | some addPasskey =>
      if addPasskey.publicKey.length ≠ 65 then
        .error ("planRotation: new passkey must be a 65-byte SEC1 uncompressed P-256 key, got " ++
          toString addPasskey.publicKey.length)
      else
        .ok [.addSigner req.defaultRuleId addPasskey.verifierAddress addPasskey.publicKey]

def removeSignerCalls (req : RotationRequest) : List RotationCall :=
  match req.removeSignerId with
  | none => []
  | some signerId => [.removeSigner req.defaultRuleId signerId]

def planRotation (req : RotationRequest) : Js (List RotationCall) := do
  let addCalls ← addSignerCalls req
  let calls := thresholdCalls req ++ addCalls ++ removeSignerCalls req
  if calls.length = 0 then
    .error "planRotation: nothing to rotate (no add or remove specified)"
  else
    .ok calls

def describeCall : RotationCall → String
  | .addSigner .. => "add a new passkey"
  | .removeSigner _ signerId => "remove signer #" ++ toString signerId
  | .addPolicy _ _ threshold => "install a " ++ toString threshold ++ "-of-N approval policy"

def describeRotation (calls : List RotationCall) : String :=
  "Recovery rotation: " ++ " and ".intercalate (calls.map describeCall)

def thresholdInstallParam (threshold : UInt32) : ScVal :=
  .map [(.symbol "threshold", .u32 threshold)]

section Build

variable (bindings : Bindings)

/-- A method of a generated client; the built transaction holds one operation. -/
def Bindings.call (contractId method : String) (args : List ScVal) :
    Js (List InvokeHostFunctionOp) := do
  let contract ← bindings.addressOf contractId
  let call : ContractContext := { contract, fnName := method, args }
  let auth ← bindings.simulate call
  pure [{ hostFunction := .invokeContract call, auth }]

def buildRotationCall (account : String) : RotationCall → Js (List InvokeHostFunctionOp)
  | .addSigner contextRuleId verifierAddress publicKey => do
      let verifier ← bindings.addressOf verifierAddress
      bindings.call account "add_signer"
        [.u32 contextRuleId, (Signer.external verifier publicKey).toScVal]
  | .removeSigner contextRuleId signerId =>
      bindings.call account "remove_signer" [.u32 contextRuleId, .u32 signerId]
  | .addPolicy contextRuleId policyAddress threshold => do
      let policy ← bindings.addressOf policyAddress
      bindings.call account "add_policy"
        [.u32 contextRuleId, .address policy, thresholdInstallParam threshold]

def buildRotationCalls (account : String) : List RotationCall → Js (List InvokeHostFunctionOp)
  | [] => pure []
  | call :: rest => do
      let operations ← buildRotationCall bindings account call
      let others ← buildRotationCalls account rest
      pure (operations ++ others)

structure BuildRotationArgs where
  account : String
  recoveryRuleId : UInt32
  request : RotationRequest

structure RotationTxBuild extends TxBuild where
  contextRuleIds : List UInt32

def buildRotation (args : BuildRotationArgs) : Js RotationTxBuild := do
  let calls ← planRotation args.request
  let operations ← buildRotationCalls bindings args.account calls
  pure
    { operations
      contextRuleIds := operations.map (fun _ => args.recoveryRuleId)
      description := describeRotation calls }

def friendSigners : List Friend → Js (List ScVal)
  | [] => pure []
  | friend_ :: rest => do
      let address ← bindings.addressOf friend_.address
      let others ← friendSigners rest
      pure ((Signer.delegated address).toScVal :: others)

def addMultisigRecovery (account : String) (block : MultisigRecoveryBlock)
    (multisigPolicy : String) : Js (List InvokeHostFunctionOp) := do
  let friends ← friendSigners bindings block.friends
  let policy ← bindings.addressOf multisigPolicy
  bindings.call account "add_multisig_recovery"
    [.string (block.label.getD "recovery"), .void, .vec friends, .address policy,
      .u32 block.threshold]

/-- `multisigRecoveryModule.buildInstall`. -/
def buildInstall (account : String) (block : MultisigRecoveryBlock)
    (policyAddress : Option (String → Js String)) : Js TxBuild := do
  match policyAddress with
  | none => .error "multisig-recovery: policyAddress fetcher required"
  | some policyAddress => do
      let multisigPolicy ← policyAddress "multisig"
      match addMultisigRecovery bindings account block multisigPolicy with
      | .error msg =>
          .error ("multisig-recovery.buildInstall failed: " ++ msg ++ "\n" ++
            "  account: " ++ account ++ "\n" ++
            "  policy: " ++ multisigPolicy ++ "\n" ++
            "  threshold: " ++ toString block.threshold ++ "\n" ++
            "  friends: " ++ toString block.friends.length)
      | .ok operations =>
          pure
            { operations
              description := "Set up " ++ toString block.threshold ++ "-of-" ++
                toString block.friends.length ++ " recovery" }

/-- `multisigRecoveryModule.buildRevoke`. -/
def buildRevoke (account : String) (ruleId : UInt32) : Js TxBuild := do
  let operations ← bindings.call account "remove_context_rule" [.u32 ruleId]
  pure { operations, description := "Remove recovery rule" }

end Build

/-! ### The functions that are invoked -/

def functionNames (operations : List InvokeHostFunctionOp) : List (Option String) :=
  operations.map (fun operation => operation.hostFunction.functionName)

theorem Bindings.call_functionNames {bindings : Bindings} {contractId method : String}
    {args : List ScVal} {operations : List InvokeHostFunctionOp}
    (built : bindings.call contractId method args = .ok operations) :
    functionNames operations = [some method] := by
  simp only [Bindings.call, Contract.bind_eq_ok, Contract.pure_eq_ok] at built
  obtain ⟨contract, _, auth, _, rfl⟩ := built
  rfl

def RotationCall.method : RotationCall → String
  | .addSigner .. => "add_signer"
  | .removeSigner .. => "remove_signer"
  | .addPolicy .. => "add_policy"

theorem buildRotationCall_functionNames {bindings : Bindings} {account : String}
    {call : RotationCall} {operations : List InvokeHostFunctionOp}
    (built : buildRotationCall bindings account call = .ok operations) :
    functionNames operations = [some call.method] := by
  cases call with
  | addSigner contextRuleId verifierAddress publicKey =>
      simp only [buildRotationCall, Contract.bind_eq_ok] at built
      obtain ⟨verifier, _, called⟩ := built
      exact Bindings.call_functionNames called
  | removeSigner contextRuleId signerId =>
      exact Bindings.call_functionNames built
  | addPolicy contextRuleId policyAddress threshold =>
      simp only [buildRotationCall, Contract.bind_eq_ok] at built
      obtain ⟨policy, _, called⟩ := built
      exact Bindings.call_functionNames called

theorem buildRotationCalls_functionNames {bindings : Bindings} {account : String}
    {calls : List RotationCall} {operations : List InvokeHostFunctionOp}
    (built : buildRotationCalls bindings account calls = .ok operations) :
    functionNames operations = calls.map (fun call => some call.method) := by
  induction calls generalizing operations with
  | nil =>
      cases built
      rfl
  | cons call rest ih =>
      simp only [buildRotationCalls, Contract.bind_eq_ok, Contract.pure_eq_ok] at built
      obtain ⟨first, firstBuilt, others, othersBuilt, rfl⟩ := built
      have heads := buildRotationCall_functionNames firstBuilt
      have tails := ih othersBuilt
      unfold functionNames at heads tails ⊢
      rw [List.map_append, heads, tails]
      rfl

/-- The request and the rule's state ask for an approval policy: the rule has none, and
the rotation leaves it with several signers. -/
def RotationRequest.InstallsThreshold (req : RotationRequest) : Prop :=
  ∃ ruleState thresholdPolicyAddress,
    req.ruleState = some ruleState ∧ req.thresholdPolicyAddress = some thresholdPolicyAddress ∧
    thresholdPolicyAddress ≠ "" ∧ ruleState.policyCount = 0 ∧
    ruleState.signerCount + (if req.addPasskey.isSome then 1 else 0) -
      (if req.removeSignerId.isSome then 1 else 0) > 1

theorem thresholdCalls_of_installs {req : RotationRequest} (installs : req.InstallsThreshold) :
    ∃ thresholdPolicyAddress,
      thresholdCalls req = [.addPolicy req.defaultRuleId thresholdPolicyAddress 1] := by
  obtain ⟨ruleState, address, stateGiven, addressGiven, nonempty, bare, several⟩ := installs
  refine ⟨address, ?_⟩
  unfold thresholdCalls
  rw [stateGiven, addressGiven, Option.filter_some, if_pos (decide_eq_true nonempty)]
  exact if_pos ⟨bare, several⟩

theorem thresholdCalls_of_not_installs {req : RotationRequest}
    (keeps : ¬ req.InstallsThreshold) : thresholdCalls req = [] := by
  unfold thresholdCalls
  split
  next ruleState address stateGiven addressGiven =>
    obtain ⟨given, nonempty⟩ := Option.filter_eq_some_iff.mp addressGiven
    refine if_neg ?_
    intro guards
    exact keeps ⟨ruleState, address, stateGiven, given, of_decide_eq_true nonempty, guards⟩
  next => rfl

theorem addSignerCalls_method {req : RotationRequest} {calls : List RotationCall}
    (planned : addSignerCalls req = .ok calls) : ∀ call ∈ calls, call.method = "add_signer" := by
  unfold addSignerCalls at planned
  intro call listed
  cases given : req.addPasskey with
  | none =>
      rw [given] at planned
      cases planned
      cases listed
  | some addPasskey =>
      rw [given] at planned
      dsimp only at planned
      split at planned
      · cases planned
      · cases planned
        rw [List.mem_singleton.mp listed]
        rfl

theorem removeSignerCalls_method (req : RotationRequest) :
    ∀ call ∈ removeSignerCalls req, call.method = "remove_signer" := by
  unfold removeSignerCalls
  intro call listed
  cases given : req.removeSignerId with
  | none =>
      rw [given] at listed
      cases listed
  | some signerId =>
      rw [given] at listed
      rw [List.mem_singleton.mp listed]
      rfl

theorem planRotation_eq_ok {req : RotationRequest} {calls : List RotationCall}
    (planned : planRotation req = .ok calls) :
    ∃ addCalls, addSignerCalls req = .ok addCalls ∧
      calls = thresholdCalls req ++ addCalls ++ removeSignerCalls req := by
  simp only [planRotation, Contract.bind_eq_ok] at planned
  obtain ⟨addCalls, added, guarded⟩ := planned
  split at guarded
  · cases guarded
  · cases guarded
    exact ⟨addCalls, added, rfl⟩

/-- A plan installs a policy exactly when the request asks for it, and edits signers
otherwise. -/
theorem planRotation_method {req : RotationRequest} {calls : List RotationCall}
    (planned : planRotation req = .ok calls) :
    (∀ call ∈ calls, call.method = "add_signer" ∨ call.method = "remove_signer") ↔
      ¬ req.InstallsThreshold := by
  obtain ⟨addCalls, added, rfl⟩ := planRotation_eq_ok planned
  constructor
  · intro edits installs
    obtain ⟨address, policy⟩ := thresholdCalls_of_installs installs
    rw [policy] at edits
    have edit : "add_policy" = "add_signer" ∨ "add_policy" = "remove_signer" :=
      edits (.addPolicy req.defaultRuleId address 1) (List.mem_cons_self ..)
    exact absurd edit (by decide)
  · intro keeps call listed
    rw [thresholdCalls_of_not_installs keeps, List.nil_append, List.mem_append] at listed
    apply listed.imp
    · exact addSignerCalls_method added call
    · exact removeSignerCalls_method req call

end Nido.Sdk
