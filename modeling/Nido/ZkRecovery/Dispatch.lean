/-
How a call by name reaches an entry point of the zk-recovery contract: the
arguments arrive as host values and are decoded to the parameter types. A call
that does not decode traps before the entry point runs.
-/

import Nido.ZkRecovery.Machine

namespace Nido

namespace ContractContext

def fields : List String := ["args", "contract", "fn_name"]

def toScVal (call : ContractContext) : ScVal :=
  .map
    [(.symbol "args", .vec call.args),
      (.symbol "contract", .address call.contract),
      (.symbol "fn_name", .symbol call.fnName)]

def fromScVal (value : ScVal) : Option ContractContext := do
  match ← value.asStruct fields with
  | [args, contract, fnName] =>
      pure {
        contract := ← contract.asAddress
        fnName := ← fnName.asSymbol
        args := ← decodeVec some args }
  | _ => none

theorem fromScVal_toScVal (call : ContractContext) : fromScVal call.toScVal = some call := by
  have struct : call.toScVal.asStruct fields =
      some [.vec call.args, .address call.contract, .symbol call.fnName] := by
    unfold toScVal ScVal.asStruct
    exact if_pos rfl
  have args := decodeItems_map (fun _ => rfl : ∀ item : ScVal, some (id item) = some item) call.args
  rw [List.map_id] at args
  unfold fromScVal
  rw [struct]
  simp only [Option.bind_eq_bind, Option.bind_some, ScVal.asAddress, ScVal.asSymbol, decodeVec,
    args]
  rfl

end ContractContext

def Context.fromScVal : ScVal → Option Context
  | .vec [.symbol "Contract", call] => (ContractContext.fromScVal call).map .contract
  | .vec [.symbol "CreateContractHostFn", _] => some .createContract
  | .vec [.symbol "CreateContractWithCtorHostFn", _] => some .createContract
  | _ => none

namespace ZkRecovery

def ZkRecoveryInstallParams.fields : List String := ["version"]

def ZkRecoveryInstallParams.toScVal (params : ZkRecoveryInstallParams) : ScVal :=
  .map [(.symbol "version", .u32 params.version)]

def ZkRecoveryInstallParams.fromScVal (value : ScVal) : Option ZkRecoveryInstallParams := do
  match ← value.asStruct ZkRecoveryInstallParams.fields with
  | [version] => pure ⟨← version.asU32⟩
  | _ => none

theorem ZkRecoveryInstallParams.fromScVal_toScVal (params : ZkRecoveryInstallParams) :
    fromScVal params.toScVal = some params := by
  have struct : params.toScVal.asStruct fields = some [.u32 params.version] := by
    unfold toScVal ScVal.asStruct
    exact if_pos rfl
  unfold fromScVal
  rw [struct]
  rfl

/-- The entry points that only read. -/
def views : List String :=
  ["get_pending", "has_pending", "next_nonce", "cancels_used", "current_root", "is_known_root",
    "next_index"]

def Call.fromScVals (fnName : String) (args : List ScVal) : Option Call :=
  match fnName, args with
  | "insert", [account, commitment] => do
      pure (.insert (← account.asAddress) (← commitment.asBytesN 32))
  | "insert_for", [account, commitment] => do
      pure (.insertFor (← account.asAddress) (← commitment.asBytesN 32))
  | "initiate_recovery", [account, newPubkey, nonce, timelockSecs, root, nullifier, proof] => do
      pure (.initiateRecovery (← account.asAddress) (← newPubkey.asBytesN 65) (← nonce.asU64)
        (← timelockSecs.asU32) (← root.asBytesN 32) (← nullifier.asBytesN 32) (← proof.asBytes))
  | "cancel_recovery", [account, nonce, root, nullifier, proof] => do
      pure (.cancelRecovery (← account.asAddress) (← nonce.asU64) (← root.asBytesN 32)
        (← nullifier.asBytesN 32) (← proof.asBytes))
  | "burn_nullifier", [account, nonce, root, nullifier, proof] => do
      pure (.burnNullifier (← account.asAddress) (← nonce.asU64) (← root.asBytesN 32)
        (← nullifier.asBytesN 32) (← proof.asBytes))
  | "install", [installParams, contextRule, smartAccount] => do
      pure (.install (← ZkRecoveryInstallParams.fromScVal installParams)
        (← ContextRule.fromScVal contextRule) (← smartAccount.asAddress))
  | "enforce", [context, authenticatedSigners, contextRule, smartAccount] => do
      pure (.enforce (← Context.fromScVal context)
        (← decodeVec Signer.fromScVal authenticatedSigners)
        (← ContextRule.fromScVal contextRule) (← smartAccount.asAddress))
  | "uninstall", [contextRule, smartAccount] => do
      pure (.uninstall (← ContextRule.fromScVal contextRule) (← smartAccount.asAddress))
  | _, _ => none

theorem Call.fromScVals_enforce {fnName : String} {args : List ScVal} {context : Context}
    {signers : List Signer} {contextRule : ContextRule} {smartAccount : Address}
    (decodes : Call.fromScVals fnName args =
      some (.enforce context signers contextRule smartAccount)) : fnName = "enforce" := by
  unfold Call.fromScVals at decodes
  split at decodes
  all_goals first
    | rfl
    | simp [Option.bind_eq_some_iff] at decodes

def Call.authorizer (config : RecoveryConfig) : Call → Option Address
  | .insert _ _ => some config.factory
  | .insertFor account _ => some account
  | .initiateRecovery _ _ _ _ _ _ _ => none
  | .cancelRecovery account _ _ _ _ => some account
  | .burnNullifier account _ _ _ _ => some account
  | .install _ _ smartAccount => some smartAccount
  | .enforce _ _ _ smartAccount => some smartAccount
  | .uninstall _ smartAccount => some smartAccount

theorem Outcome.authorizer {host : Host} {env : Env} {state state' : RecoveryState} {call : Call}
    {address : Address} (outcome : Outcome host env state call state')
    (asks : call.authorizer state.config = some address) : env.authorized address = true := by
  cases outcome with
  | insert authorized | insertFor authorized =>
      cases asks
      exact authorized
  | initiate => cases asks
  | cancel cancelled =>
      cases asks
      exact cancelled.authorized
  | burn burned =>
      cases asks
      exact burned.authorized
  | install installed =>
      cases asks
      exact installed.authorized
  | complete completed =>
      cases asks
      exact completed.authorized

theorem Outcome.completes {host : Host} {env : Env} {state state' : RecoveryState} {call : Call}
    {account : Address} {nullifier : BytesN 32} (outcome : Outcome host env state call state')
    (published : state'.events = state.events ++ [.recoveryCompleted account nullifier]) :
    ∃ context signers contextRule pending,
      call = .enforce context signers contextRule account ∧
      Completed env state context contextRule account pending state' := by
  cases outcome with
  | insert _ inserted | insertFor _ inserted =>
      obtain ⟨_, _, _, _, _, after⟩ := inserted.after
      rw [after] at published
      cases List.append_cancel_left published
  | initiate initiated =>
      obtain ⟨_, after⟩ := initiated.after
      rw [after] at published
      cases List.append_cancel_left published
  | cancel cancelled =>
      obtain ⟨_, after⟩ := cancelled.after
      rw [after] at published
      cases List.append_cancel_left published
  | burn burned =>
      rw [burned.after] at published
      cases List.append_cancel_left published
  | install installed =>
      rw [installed.after] at published
      cases List.self_eq_append_right.mp published
  | complete completed =>
      have last := published
      rw [completed.after] at last
      cases List.append_cancel_left last
      exact ⟨_, _, _, _, rfl, completed⟩

theorem Outcome.installed {host : Host} {env : Env} {state state' : RecoveryState} {call : Call}
    {account : Address} {ruleId : UInt32} (outcome : Outcome host env state call state')
    (before : state.installed account = some ruleId) : state'.installed account = some ruleId := by
  cases outcome with
  | insert _ inserted | insertFor _ inserted =>
      obtain ⟨_, _, _, _, _, after⟩ := inserted.after
      rw [after]
      exact before
  | initiate initiated =>
      obtain ⟨_, after⟩ := initiated.after
      rw [after]
      exact before
  | cancel cancelled =>
      obtain ⟨_, after⟩ := cancelled.after
      rw [after]
      exact before
  | burn burned =>
      rw [burned.after]
      exact before
  | install installed =>
      rw [installed.after]
      refine (Function.update_of_ne ?_ _ _).trans before
      intro same
      rw [same] at before
      cases before.symm.trans installed.fresh
  | complete completed =>
      rw [completed.after]
      exact before

end ZkRecovery

end Nido
