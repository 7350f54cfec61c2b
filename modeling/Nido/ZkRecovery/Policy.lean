/-
The recovery policy of a smart account: `install`, `enforce` and `uninstall`.

`enforce` reads the five arguments of `add_context_rule` by position, as host
values. Only the signers and the policies are compared with what the pending
recovery was proved for.
-/

import Nido.SmartAccount.Types
import Nido.ZkRecovery.Controller

namespace Nido.ZkRecovery

open Contract

def completionFnName : String := "add_context_rule"

def install (env : Env) (state : RecoveryState) (_installParams : ZkRecoveryInstallParams)
    (contextRule : ContextRule) (smartAccount : Address) : Contract RecoveryState := do
  env.requireAuth smartAccount
  require (state.installed smartAccount = none) RecoveryError.alreadyInstalled.failure
  require (contextRule.signers = []) RecoveryError.contextMismatch.failure
  require (contextRule.contextType = .callContract smartAccount)
    RecoveryError.contextMismatch.failure
  pure (state.setInstalled smartAccount contextRule.id)

/-- `Vec::try_from_val`: any vector, its items not yet decoded. -/
def ScVal.asVec : ScVal → Option (List ScVal)
  | .vec items => some items
  | _ => none

/-- `Map::try_from_val`: any map, its entries not yet decoded. -/
def ScVal.asMap : ScVal → Option (List (ScVal × ScVal))
  | .map entries => some entries
  | _ => none

/-- The call that the context stands for, if it is one of the account itself. -/
def selfCall (context : Context) (smartAccount : Address) : Contract ContractContext :=
  match context with
  | .contract call => do
      require (call.contract = smartAccount) RecoveryError.contextMismatch.failure
      pure call
  | .createContract => .error RecoveryError.contextMismatch.failure

def expectedSigner (config : RecoveryConfig) (pending : PendingRecovery) : Signer :=
  .external config.webauthnVerifier pending.newPubkey.data

/-- The gate: an `add_context_rule` call of five arguments whose signers are
exactly the proven key and whose policies are empty. The other three arguments
are not looked at. -/
def checkCompletion (config : RecoveryConfig) (pending : PendingRecovery) (context : Context)
    (smartAccount : Address) : Contract Unit := do
  let mismatch := RecoveryError.contextMismatch.failure
  let call ← selfCall context smartAccount
  require (call.fnName = completionFnName) mismatch
  require (call.args.length = 5) mismatch
  let signersVal ← orFail call.args[3]? mismatch
  let newSigners ← orFail (ScVal.asVec signersVal) mismatch
  let policiesVal ← orFail call.args[4]? mismatch
  let newPolicies ← orFail (ScVal.asMap policiesVal) mismatch
  require (newPolicies = []) mismatch
  require (newSigners = [(expectedSigner config pending).toScVal]) mismatch

def enforce (env : Env) (state : RecoveryState) (context : Context)
    (_authenticatedSigners : List Signer) (contextRule : ContextRule) (smartAccount : Address) :
    Contract RecoveryState := do
  env.requireAuth smartAccount
  let installedId ← orFail (state.installed smartAccount) RecoveryError.notInstalled.failure
  require (installedId = contextRule.id) RecoveryError.ruleMismatch.failure
  let pending ← orFail (state.pending smartAccount) RecoveryError.noPending.failure
  let now := env.timestamp
  require (¬ now < pending.executableAfter) RecoveryError.timelockNotElapsed.failure
  require (¬ pending.expiresAt ≤ now) RecoveryError.recoveryExpired.failure
  checkCompletion (config state) pending context smartAccount
  let state := state.setNullifier pending.nullifier (some .spent)
  let state := state.setPending smartAccount none
  pure (state.publish (.recoveryCompleted smartAccount pending.nullifier))

structure Completed (env : Env) (state : RecoveryState) (context : Context)
    (contextRule : ContextRule) (smartAccount : Address) (pending : PendingRecovery)
    (state' : RecoveryState) : Prop where
  authorized : env.authorized smartAccount = true
  installed : state.installed smartAccount = some contextRule.id
  found : state.pending smartAccount = some pending
  elapsed : pending.executableAfter ≤ env.timestamp
  unexpired : env.timestamp < pending.expiresAt
  gate : checkCompletion state.config pending context smartAccount = .ok ()
  after :
    state' = { state with
      nullifier := Function.update state.nullifier pending.nullifier (some .spent)
      pending := Function.update state.pending smartAccount none
      events := state.events ++ [.recoveryCompleted smartAccount pending.nullifier] }

section Completed

variable {env : Env} {state state' : RecoveryState} {context : Context} {contextRule : ContextRule}
  {smartAccount : Address} {pending : PendingRecovery}
  (completed : Completed env state context contextRule smartAccount pending state')

include completed

theorem Completed.nullifiers :
    state'.nullifier = Function.update state.nullifier pending.nullifier (some .spent) := by
  rw [completed.after]

theorem Completed.pendings :
    state'.pending = Function.update state.pending smartAccount none := by
  rw [completed.after]

end Completed

theorem enforce_eq_ok {env : Env} {state state' : RecoveryState} {context : Context}
    (signers : List Signer) {contextRule : ContextRule} {smartAccount : Address}
    (accepted : enforce env state context signers contextRule smartAccount = .ok state') :
    ∃ pending, Completed env state context contextRule smartAccount pending state' := by
  simp only [enforce, Env.requireAuth, bind_eq_ok, pure_eq_ok, require_eq_ok, orFail_eq_ok,
    UInt64.not_lt, UInt64.not_le] at accepted
  obtain ⟨_, authorized, _, installed, _, rfl, pending, found, _, elapsed, _, unexpired, _, gate,
    rfl⟩ := accepted
  exact ⟨pending, ⟨authorized, installed, found, elapsed, unexpired, gate, rfl⟩⟩

structure Installed (env : Env) (state : RecoveryState) (contextRule : ContextRule)
    (smartAccount : Address) (state' : RecoveryState) : Prop where
  authorized : env.authorized smartAccount = true
  fresh : state.installed smartAccount = none
  noSigners : contextRule.signers = []
  selfOnly : contextRule.contextType = .callContract smartAccount
  after : state' = { state with
    installed := Function.update state.installed smartAccount (some contextRule.id) }

theorem install_eq_ok {env : Env} {state state' : RecoveryState}
    (installParams : ZkRecoveryInstallParams) {contextRule : ContextRule} {smartAccount : Address}
    (accepted : install env state installParams contextRule smartAccount = .ok state') :
    Installed env state contextRule smartAccount state' := by
  simp only [install, Env.requireAuth, bind_eq_ok, pure_eq_ok, require_eq_ok] at accepted
  obtain ⟨_, authorized, _, fresh, _, noSigners, _, selfOnly, rfl⟩ := accepted
  exact ⟨authorized, fresh, noSigners, selfOnly, rfl⟩

/-- Refuses every call: a legitimate removal swallows the refusal. -/
def uninstall (env : Env) (_state : RecoveryState) (_contextRule : ContextRule)
    (smartAccount : Address) : Contract RecoveryState := do
  env.requireAuth smartAccount
  .error RecoveryError.unauthorized.failure

theorem uninstall_refuses (env : Env) (state state' : RecoveryState) (contextRule : ContextRule)
    (smartAccount : Address) : uninstall env state contextRule smartAccount ≠ .ok state' := by
  intro accepted
  simp only [uninstall, bind_eq_ok] at accepted
  obtain ⟨_, _, refused⟩ := accepted
  cases refused

end Nido.ZkRecovery
