/-
The operations of the ZK-recovery state machine, as the SDK builds them.

They are built without a simulation, from arguments that are already resolved.
-/

import Nido.Sdk.PolicyBlocks

namespace Nido.Sdk

def requirePubkey65 (newPubkey65 : Bytes) (fnName : String) : Js Unit :=
  if newPubkey65.length ≠ 65 then
    .error (fnName ++ ": new pubkey must be a 65-byte SEC1 uncompressed P-256 key, got " ++
      toString newPubkey65.length)
  else
    .ok ()

def requireBytes32 (value : Bytes) (argName fnName : String) : Js Unit :=
  if value.length ≠ 32 then
    .error (fnName ++ ": " ++ argName ++ " must be 32 bytes, got " ++ toString value.length)
  else
    .ok ()

structure ProofArgs where
  controllerId : String
  account : String
  nonce : UInt64
  root : Bytes
  nullifier : Bytes
  proof : Bytes

section Build

variable (addressOf : String → Js Address)

/-- `new Contract(id).call(method, ...args)`: an operation without any authorization. -/
def contractCall (contractId method : String) (args : List ScVal) : Js InvokeHostFunctionOp := do
  let contract ← addressOf contractId
  pure { hostFunction := .invokeContract { contract, fnName := method, args }, auth := [] }

def buildInitiateRecovery (args : ProofArgs) (newPubkey65 : Bytes) (timelockSecs : UInt32) :
    Js TxBuild := do
  requirePubkey65 newPubkey65 "buildInitiateRecovery"
  requireBytes32 args.root "root" "buildInitiateRecovery"
  requireBytes32 args.nullifier "nullifier" "buildInitiateRecovery"
  let account ← addressOf args.account
  let operation ← contractCall addressOf args.controllerId "initiate_recovery"
    [.address account, .bytes newPubkey65, .u64 args.nonce, .u32 timelockSecs, .bytes args.root,
      .bytes args.nullifier, .bytes args.proof]
  pure { operations := [operation], description := "Initiate account recovery" }

/-- Both calls of the owner carry the same arguments. -/
def buildOwnerCall (builder method description : String) (args : ProofArgs) : Js TxBuild := do
  requireBytes32 args.root "root" builder
  requireBytes32 args.nullifier "nullifier" builder
  let account ← addressOf args.account
  let operation ← contractCall addressOf args.controllerId method
    [.address account, .u64 args.nonce, .bytes args.root, .bytes args.nullifier, .bytes args.proof]
  pure { operations := [operation], description }

def buildCancelRecovery (args : ProofArgs) : Js TxBuild :=
  buildOwnerCall addressOf "buildCancelRecovery" "cancel_recovery"
    "Cancel pending account recovery" args

def buildBurnNullifier (args : ProofArgs) : Js TxBuild :=
  buildOwnerCall addressOf "buildBurnNullifier" "burn_nullifier" "Burn compromised nullifier" args

structure CompleteRecoveryArgs where
  account : String
  recoveryRuleId : UInt32
  newPubkey65 : Bytes
  webauthnVerifierId : String

structure CompleteRecoveryTxBuild extends TxBuild where
  contextRuleIds : List UInt32

def buildCompleteRecovery (args : CompleteRecoveryArgs) : Js CompleteRecoveryTxBuild := do
  requirePubkey65 args.newPubkey65 "buildCompleteRecovery"
  let verifier ← addressOf args.webauthnVerifierId
  let operation ← contractCall addressOf args.account "add_context_rule"
    [ContextRuleType.default.toScVal, .string "recovered", .void,
      .vec [(Signer.external verifier args.newPubkey65).toScVal], .map []]
  pure
    { operations := [operation]
      description := "Complete account recovery (install recovered passkey)"
      contextRuleIds := [args.recoveryRuleId] }

/-! ### What has been built -/

theorem requireBytes32_eq_ok {value : Bytes} {argName fnName : String} {result : Unit} :
    requireBytes32 value argName fnName = .ok result ↔ value.length = 32 := by
  rw [requireBytes32, ite_eq_right_iff]
  constructor
  · intro passed
    by_contra wrong
    cases passed wrong
  · intro size wrong
    exact absurd size wrong

theorem contractCall_eq_ok {contractId method : String} {args : List ScVal}
    {operation : InvokeHostFunctionOp} :
    contractCall addressOf contractId method args = .ok operation ↔
      ∃ contract, addressOf contractId = .ok contract ∧
        operation =
          { hostFunction := .invokeContract { contract, fnName := method, args }, auth := [] } := by
  simp only [contractCall, Contract.bind_eq_ok, Contract.pure_eq_ok]
  exact exists_congr (fun _ => and_congr_right (fun _ => eq_comm))

theorem buildOwnerCall_eq_ok {builder method description : String} {args : ProofArgs}
    {built : TxBuild}
    (accepted : buildOwnerCall addressOf builder method description args = .ok built) :
    ∃ contract account, args.root.length = 32 ∧ args.nullifier.length = 32 ∧
      addressOf args.controllerId = .ok contract ∧ addressOf args.account = .ok account ∧
      built.operations =
        [{ hostFunction := .invokeContract
            { contract, fnName := method
              args := [.address account, .u64 args.nonce, .bytes args.root,
                .bytes args.nullifier, .bytes args.proof] }
           auth := [] }] := by
  simp only [buildOwnerCall, Contract.bind_eq_ok, Contract.pure_eq_ok, requireBytes32_eq_ok,
    contractCall_eq_ok] at accepted
  obtain ⟨_, rootSize, _, nullifierSize, account, parsed, _, ⟨contract, found, rfl⟩, rfl⟩ :=
    accepted
  exact ⟨contract, account, rootSize, nullifierSize, found, parsed, rfl⟩

end Build

end Nido.Sdk
