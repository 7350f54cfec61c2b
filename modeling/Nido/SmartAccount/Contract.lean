/-
The smart account: its constructor, its guards and its entry points.

A recovery rule is protected twice. The rule-editing entry points refuse to
touch it at all, and those that could evict a signer are blocked while a
recovery is in flight; only the announced removal takes it away.
-/

import Nido.SmartAccount.System

namespace Nido.SmartAccount

open Contract
open ZkRecovery (RecoveryState Call ZkRecoveryInstallParams)

inductive NidoSmartAccountError
  | recoveryPendingBlocked
  | recoveryRuleProtected
  | removalNotAnnounced
  | removalDelayNotElapsed
  | noRecoveryConfigured
  | recoveryAlreadyEnrolled
deriving DecidableEq

def NidoSmartAccountError.code : NidoSmartAccountError → UInt32
  | .recoveryPendingBlocked => 1
  | .recoveryRuleProtected => 2
  | .removalNotAnnounced => 3
  | .removalDelayNotElapsed => 4
  | .noRecoveryConfigured => 5
  | .recoveryAlreadyEnrolled => 6

def NidoSmartAccountError.failure (error : NidoSmartAccountError) : Failure :=
  .contractError error.code

def recoveryRemovalDelaySecs : UInt64 := 7 * 24 * 3600

def simpleThresholdParams (threshold : UInt32) : ScVal :=
  .map [(.symbol "threshold", .u32 threshold)]

def World.withRules {library : RuleLibrary} (world : World library) (rules : library.Store) :
    World library :=
  { world with account := { world.account with rules } }

inductive AccountCall
  | addContextRule (contextType : ContextRuleType) (name : String) (validUntil : Option UInt32)
      (signers : List Signer) (policies : List (Address × ScVal))
  | updateContextRuleName (contextRuleId : UInt32) (name : String)
  | updateContextRuleValidUntil (contextRuleId : UInt32) (validUntil : Option UInt32)
  | removeContextRule (contextRuleId : UInt32)
  | addSigner (contextRuleId : UInt32) (signer : Signer)
  | removeSigner (contextRuleId signerId : UInt32)
  | addPolicy (contextRuleId : UInt32) (policy : Address) (installParam : ScVal)
  | removePolicy (contextRuleId policyId : UInt32)
  | initiateRecoveryRuleRemoval
  | executeRecoveryRuleRemoval
  | enrollZkRecovery (recoveryController : Address)
  | addMultisigRecovery (name : String) (validUntil : Option UInt32) (friends : List Signer)
      (multisigPolicy : Address) (threshold : UInt32)
  | execute (target : Address) (targetFn : String) (targetArgs : List ScVal)

def AccountCall.concernsRecovery : AccountCall → Bool
  | .initiateRecoveryRuleRemoval => true
  | .executeRecoveryRuleRemoval => true
  | .enrollZkRecovery _ => true
  | _ => false

/-- `Map<Address, Val>`: the keys are decoded, the values are not. -/
def decodeEntries : List (ScVal × ScVal) → Option (List (Address × ScVal))
  | [] => some []
  | (key, value) :: rest => do
      let address ← key.asAddress
      let entries ← decodeEntries rest
      pure ((address, value) :: entries)

def decodeMap : ScVal → Option (List (Address × ScVal))
  | .map entries => decodeEntries entries
  | _ => none

def AccountCall.fromScVals (fnName : String) (args : List ScVal) : Option AccountCall :=
  match fnName, args with
  | "add_context_rule", [contextType, name, validUntil, signers, policies] => do
      pure (.addContextRule (← ContextRuleType.fromScVal contextType) (← name.asString)
        (← decodeOptionU32 validUntil) (← decodeVec Signer.fromScVal signers)
        (← decodeMap policies))
  | "update_context_rule_name", [contextRuleId, name] => do
      pure (.updateContextRuleName (← contextRuleId.asU32) (← name.asString))
  | "update_context_rule_valid_until", [contextRuleId, validUntil] => do
      pure (.updateContextRuleValidUntil (← contextRuleId.asU32) (← decodeOptionU32 validUntil))
  | "remove_context_rule", [contextRuleId] => do
      pure (.removeContextRule (← contextRuleId.asU32))
  | "add_signer", [contextRuleId, signer] => do
      pure (.addSigner (← contextRuleId.asU32) (← Signer.fromScVal signer))
  | "remove_signer", [contextRuleId, signerId] => do
      pure (.removeSigner (← contextRuleId.asU32) (← signerId.asU32))
  | "add_policy", [contextRuleId, policy, installParam] => do
      pure (.addPolicy (← contextRuleId.asU32) (← policy.asAddress) installParam)
  | "remove_policy", [contextRuleId, policyId] => do
      pure (.removePolicy (← contextRuleId.asU32) (← policyId.asU32))
  | "initiate_recovery_rule_removal", [] => some .initiateRecoveryRuleRemoval
  | "execute_recovery_rule_removal", [] => some .executeRecoveryRuleRemoval
  | "enroll_zk_recovery", [recoveryController] => do
      pure (.enrollZkRecovery (← recoveryController.asAddress))
  | "add_multisig_recovery", [name, validUntil, friends, multisigPolicy, threshold] => do
      pure (.addMultisigRecovery (← name.asString) (← decodeOptionU32 validUntil)
        (← decodeVec Signer.fromScVal friends) (← multisigPolicy.asAddress) (← threshold.asU32))
  | "execute", [target, targetFn, targetArgs] => do
      pure (.execute (← target.asAddress) (← targetFn.asSymbol) (← decodeVec some targetArgs))
  | _, _ => none

theorem AccountCall.fromScVals_execute {fnName : String} {args : List ScVal} {target : Address}
    {targetFn : String} {targetArgs : List ScVal}
    (decodes : AccountCall.fromScVals fnName args = some (.execute target targetFn targetArgs)) :
    fnName = "execute" := by
  unfold AccountCall.fromScVals at decodes
  split at decodes
  all_goals first
    | rfl
    | simp [Option.bind_eq_some_iff] at decodes

/-- One call that reaches the host from outside the account: which function of
which contract, how the account authorizes it, who else does, and what the
foreign contracts do that it enters. -/
structure Item where
  target : Address
  fnName : String
  args : List ScVal
  approval : Approval
  authorized : Address → Bool
  script : List ForeignFrame

def Item.call (item : Item) : ContractContext :=
  { contract := item.target, fnName := item.fnName, args := item.args }

structure Step where
  ledger : Ledger
  item : Item

/-- How an account comes into being: the arguments of its constructor and the
contracts that exist by then. -/
structure Genesis where
  ledger : Ledger
  signers : List Signer
  policies : List (Address × ScVal)
  recoveryController : Option Address
  controllers : Address → Option RecoveryState
  script : List ForeignFrame

namespace System

variable (system : System) (ledger : Ledger)

/-- The library's own `add_context_rule`, as against the entry point: the rule is stored, and
then its policies are installed. -/
def rawAddContextRule (contextType : ContextRuleType) (name : String)
    (validUntil : Option UInt32) (signers : List Signer) (policies : List (Address × ScVal))
    (world : system.State) : Contract (ContextRule × system.State) := do
  let (rule, rules) ← system.library.addContextRule ledger.sequence world.account.rules
    contextType name validUntil signers (policies.map Prod.fst)
  let world ← system.installPolicies ledger rule policies (world.withRules rules)
  pure (rule, world)

def rawRemoveContextRule (contextRuleId : UInt32) (world : system.State) :
    Contract system.State := do
  let (rule, rules) ← system.library.removeContextRule world.account.rules contextRuleId
  pure (system.uninstallPolicies ledger rule rule.policies (world.withRules rules))

def rawAddPolicy (contextRuleId : UInt32) (policy : Address) (installParam : ScVal)
    (world : system.State) : Contract system.State := do
  let (_, rule, rules) ← system.library.addPolicy world.account.rules contextRuleId policy
  system.installPolicy ledger rule policy installParam (world.withRules rules)

def rawRemovePolicy (contextRuleId policyId : UInt32) (world : system.State) :
    Contract system.State := do
  let (policy, rule, rules) ← system.library.removePolicy world.account.rules contextRuleId policyId
  pure (system.uninstallPolicy ledger rule policy (world.withRules rules))

/-- The controller's view `has_pending` of this account. -/
def hasLivePending (controller : Address) (world : system.State) :
    Contract (Bool × system.State) := do
  require (controller ≠ system.self) .trap
  match world.controllers controller with
  | none => pure (system.foreign ledger [] world)
  | some state =>
      let env : Env :=
        { currentContract := controller
          timestamp := ledger.timestamp
          authorized := system.asInvoker }
      pure (ZkRecovery.hasPending env state system.self, world)

def guardLivePending (controller : Address) (world : system.State) : Contract system.State := do
  let (live, world) ← system.hasLivePending ledger controller world
  require (live = false) NidoSmartAccountError.recoveryPendingBlocked.failure
  pure world

/-- An account without recovery is not guarded. -/
def guardNoPending (world : system.State) : Contract system.State :=
  match world.account.recoveryController with
  | none => pure world
  | some controller => system.guardLivePending ledger controller world

def recoveryControllerOrPanic (world : system.State) : Contract Address :=
  orFail world.account.recoveryController NidoSmartAccountError.noRecoveryConfigured.failure

/-- The recovery rule cannot be edited in place. -/
def requireUnprotected (contextRuleId : UInt32) (world : system.State) : Contract Unit :=
  require (world.account.recoveryRuleId ≠ some contextRuleId)
    NidoSmartAccountError.recoveryRuleProtected.failure

def installRecoveryRule (controller : Address) (world : system.State) :
    Contract (UInt32 × system.State) := do
  let installParams : ZkRecoveryInstallParams := { version := 1 }
  let (rule, world) ← system.rawAddContextRule ledger (.callContract system.self) "zk-recovery"
    none [] [(controller, installParams.toScVal)] world
  let account := { world.account with
    recoveryRuleId := some rule.id
    recoveryController := some controller }
  pure (rule.id, { world with account })

def construct (signers : List Signer) (policies : List (Address × ScVal))
    (recoveryController : Option Address) (world : system.State) : Contract system.State := do
  let (_, world) ←
    system.rawAddContextRule ledger .default "default" none signers policies world
  match recoveryController with
  | none => pure world
  | some controller => do
      let (_, world) ← system.installRecoveryRule ledger controller world
      pure world

def initiateRecoveryRuleRemoval (world : system.State) : Contract system.State := do
  let controller ← system.recoveryControllerOrPanic world
  let world ← system.guardLivePending ledger controller world
  let executeAfter ← checkedAdd ledger.timestamp recoveryRemovalDelaySecs
  pure { world with account := { world.account with recoveryRemovalAt := some executeAfter } }

def executeRecoveryRuleRemoval (world : system.State) : Contract system.State := do
  let announcedAt ← orFail world.account.recoveryRemovalAt
    NidoSmartAccountError.removalNotAnnounced.failure
  require (¬ ledger.timestamp < announcedAt) NidoSmartAccountError.removalDelayNotElapsed.failure
  let controller ← system.recoveryControllerOrPanic world
  let world ← system.guardLivePending ledger controller world
  let ruleId ← orFail world.account.recoveryRuleId
    NidoSmartAccountError.noRecoveryConfigured.failure
  let world ← system.rawRemoveContextRule ledger ruleId world
  let account := { world.account with
    recoveryRuleId := none
    recoveryController := none
    recoveryRemovalAt := none }
  pure { world with account }

def enrollZkRecovery (recoveryController : Address) (world : system.State) :
    Contract system.State := do
  require (world.account.recoveryRuleId = none)
    NidoSmartAccountError.recoveryAlreadyEnrolled.failure
  let (_, world) ← system.installRecoveryRule ledger recoveryController world
  pure world

def addMultisigRecovery (name : String) (validUntil : Option UInt32) (friends : List Signer)
    (multisigPolicy : Address) (threshold : UInt32) (world : system.State) :
    Contract (ContextRule × system.State) :=
  system.rawAddContextRule ledger (.callContract system.self) name validUntil friends
    [(multisigPolicy, simpleThresholdParams threshold)] world

/-- The entry point; the added rule is logged. -/
def addContextRule (contextType : ContextRuleType) (name : String) (validUntil : Option UInt32)
    (signers : List Signer) (policies : List (Address × ScVal)) (world : system.State) :
    Contract (ContextRule × system.State) := do
  let (rule, world) ←
    system.rawAddContextRule ledger contextType name validUntil signers policies world
  pure (rule, { world with
    effects := world.effects ++ [(ledger.transaction, .ruleAdded rule)] })

def updateContextRuleName (contextRuleId : UInt32) (name : String) (world : system.State) :
    Contract system.State := do
  let (_, rules) ← system.library.updateContextRuleName world.account.rules contextRuleId name
  pure (world.withRules rules)

def updateContextRuleValidUntil (contextRuleId : UInt32) (validUntil : Option UInt32)
    (world : system.State) : Contract system.State := do
  system.requireUnprotected contextRuleId world
  let world ← system.guardNoPending ledger world
  let (_, rules) ← system.library.updateContextRuleValidUntil ledger.sequence world.account.rules
    contextRuleId validUntil
  pure (world.withRules rules)

def removeContextRule (contextRuleId : UInt32) (world : system.State) : Contract system.State := do
  system.requireUnprotected contextRuleId world
  let world ← system.guardNoPending ledger world
  system.rawRemoveContextRule ledger contextRuleId world

def addSigner (contextRuleId : UInt32) (signer : Signer) (world : system.State) :
    Contract (UInt32 × system.State) := do
  let (signerId, rules) ← system.library.addSigner world.account.rules contextRuleId signer
  pure (signerId, world.withRules rules)

def removeSigner (contextRuleId signerId : UInt32) (world : system.State) :
    Contract system.State := do
  let world ← system.guardNoPending ledger world
  let rules ← system.library.removeSigner world.account.rules contextRuleId signerId
  pure (world.withRules rules)

def addPolicy (contextRuleId : UInt32) (policy : Address) (installParam : ScVal)
    (world : system.State) : Contract system.State := do
  system.requireUnprotected contextRuleId world
  let world ← system.guardNoPending ledger world
  system.rawAddPolicy ledger contextRuleId policy installParam world

def removePolicy (contextRuleId policyId : UInt32) (world : system.State) :
    Contract system.State := do
  system.requireUnprotected contextRuleId world
  let world ← system.guardNoPending ledger world
  system.rawRemovePolicy ledger contextRuleId policyId world

def invokeContract (authorized : Address → Bool) (call : ContractContext) (world : system.State) :
    Contract system.State :=
  match world.controllers call.contract with
  | none => pure (system.foreign ledger [] world).2
  | some _ =>
      if call.fnName ∈ ZkRecovery.views then pure world
      else do
        let decoded ← orFail (Call.fromScVals call.fnName call.args) .trap
        system.callController ledger [] authorized call.contract decoded world

/-- The account cannot call itself: it is on the call stack. -/
def execute (authorized : Address → Bool) (target : Address) (targetFn : String)
    (targetArgs : List ScVal) (world : system.State) : Contract system.State := do
  require (target ≠ system.self) .trap
  system.invokeContract ledger (fun address => system.asInvoker address || authorized address)
    { contract := target, fnName := targetFn, args := targetArgs } world

def perform (authorized : Address → Bool) (call : AccountCall) (world : system.State) :
    Contract system.State :=
  match call with
  | .addContextRule contextType name validUntil signers policies => do
      let (_, world) ←
        system.addContextRule ledger contextType name validUntil signers policies world
      pure world
  | .updateContextRuleName contextRuleId name =>
      system.updateContextRuleName contextRuleId name world
  | .updateContextRuleValidUntil contextRuleId validUntil =>
      system.updateContextRuleValidUntil ledger contextRuleId validUntil world
  | .removeContextRule contextRuleId => system.removeContextRule ledger contextRuleId world
  | .addSigner contextRuleId signer => do
      let (_, world) ← system.addSigner contextRuleId signer world
      pure world
  | .removeSigner contextRuleId signerId =>
      system.removeSigner ledger contextRuleId signerId world
  | .addPolicy contextRuleId policy installParam =>
      system.addPolicy ledger contextRuleId policy installParam world
  | .removePolicy contextRuleId policyId =>
      system.removePolicy ledger contextRuleId policyId world
  | .initiateRecoveryRuleRemoval => system.initiateRecoveryRuleRemoval ledger world
  | .executeRecoveryRuleRemoval => system.executeRecoveryRuleRemoval ledger world
  | .enrollZkRecovery recoveryController =>
      system.enrollZkRecovery ledger recoveryController world
  | .addMultisigRecovery name validUntil friends multisigPolicy threshold => do
      let (_, world) ←
        system.addMultisigRecovery ledger name validUntil friends multisigPolicy threshold world
      pure world
  | .execute target targetFn targetArgs =>
      system.execute ledger authorized target targetFn targetArgs world

/-- Every entry point that changes anything asks for the account's own
authorization before it does so. -/
def callAccount (item : Item) (world : system.State) : Contract system.State := do
  let call ← orFail (AccountCall.fromScVals item.fnName item.args) .trap
  let world ← system.requireAuth ledger [] item.approval item.call world
  system.perform ledger item.authorized call world

/-- Whether a contract other than the account asks for the account's
authorization when it is called. A foreign contract may. -/
def asksForAuth (call : ContractContext) (world : system.State) : Bool :=
  match world.controllers call.contract with
  | none => true
  | some state =>
      (Call.fromScVals call.fnName call.args).any
        (fun decoded => decide (decoded.authorizer state.config = some system.self))

def callOther (item : Item) (world : system.State) : Contract system.State :=
  match item.approval with
  | .absent =>
      system.invokeContract ledger
        (fun address => !system.asInvoker address && item.authorized address) item.call world
  | approval => do
      require (system.asksForAuth item.call world = true) .unauthorized
      -- a policy that is the called contract itself cannot be entered
      let world ← system.requireAuth ledger [item.target] approval item.call world
      system.invokeContract ledger
        (fun address => system.asInvoker address || item.authorized address) item.call world

def act (item : Item) (world : system.State) : Contract system.State :=
  if item.target = system.self then
    system.callAccount ledger item { world with script := item.script }
  else system.callOther ledger item { world with script := item.script }

def undeployed (controllers : Address → Option RecoveryState) (script : List ForeignFrame) :
    system.State where
  account :=
    { rules := system.library.empty
      recoveryRuleId := none
      recoveryController := none
      recoveryRemovalAt := none }
  controllers := controllers
  granted := []
  effects := []
  script := script

def genesis (genesis : Genesis) : Contract system.State :=
  system.construct genesis.ledger genesis.signers genesis.policies genesis.recoveryController
    (system.undeployed genesis.controllers genesis.script)

/-- A failed item is rolled back, so a run never stops. -/
def step (world : system.State) (step : Step) : Option system.State :=
  (system.act step.ledger step.item world).toOption

def stateAt (start : system.State) (run : List Step) (time : Nat) : system.State :=
  Run.stateAt system.step start run time

abbrev Accepts (start : system.State) (run : List Step) (time : Nat) (step : Step) : Prop :=
  Run.Accepts system.step start run time step (system.stateAt start run (time + 1))

end System

end Nido.SmartAccount
