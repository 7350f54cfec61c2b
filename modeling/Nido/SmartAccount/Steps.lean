/-
What a call of the account can do to its world.

Most entry points leave the recovery rule alone: they store rules, and let
policies run. The three that concern recovery itself are described one by one.
-/

import Nido.SmartAccount.Contract

namespace Nido.SmartAccount

open Contract
open ZkRecovery (RecoveryState Call)

/-- The three recovery keys are as before, and the recovery rule authorizes what
it did. -/
structure KeepsRecovery {library : RuleLibrary} (account account' : AccountState library) :
    Prop where
  ruleId : account'.recoveryRuleId = account.recoveryRuleId
  controller : account'.recoveryController = account.recoveryController
  removalAt : account'.recoveryRemovalAt = account.recoveryRemovalAt
  scope : ∀ ruleId, account.recoveryRuleId = some ruleId →
    library.KeepsScope ruleId account.rules account'.rules

section KeepsRecovery

variable {library : RuleLibrary}

theorem KeepsRecovery.refl (account : AccountState library) :
    KeepsRecovery account account :=
  ⟨rfl, rfl, rfl, fun _ _ rule found => ⟨rule, found, RuleLibrary.SameScope.refl rule⟩⟩

theorem KeepsRecovery.trans {account account' account'' : AccountState library}
    (first : KeepsRecovery account account') (second : KeepsRecovery account' account'') :
    KeepsRecovery account account'' where
  ruleId := second.ruleId.trans first.ruleId
  controller := second.controller.trans first.controller
  removalAt := second.removalAt.trans first.removalAt
  scope := by
    intro ruleId isRecovery rule found
    obtain ⟨middle, foundMiddle, same⟩ := first.scope ruleId isRecovery rule found
    obtain ⟨last, foundLast, same'⟩ :=
      second.scope ruleId (first.ruleId.trans isRecovery) middle foundMiddle
    exact ⟨last, foundLast, same'.1.trans same.1, same'.2.1.trans same.2.1,
      same'.2.2.trans same.2.2⟩

end KeepsRecovery

namespace System

section Evolution

variable (system : System) (ledger : Ledger)
  (change : AccountState system.library → AccountState system.library → Prop)
  (kind : Context → Prop)

/-- The world is left by contracts that the account enters, by changes of its
own storage and by what it logs. -/
inductive Evolves : system.State → system.State → Prop
  | refl (world : system.State) : Evolves world world
  | reached {world world' world'' : system.State} (before : Evolves world world')
      (reaches : system.Reaches ledger kind world' world'') : Evolves world world''
  | stored {world world' : system.State} {account : AccountState system.library}
      (before : Evolves world world') (changes : change world'.account account) :
      Evolves world { world' with account }
  | logged {world world' : system.State} {rule : ContextRule} (before : Evolves world world') :
      Evolves world { world' with
        effects := world'.effects ++ [(ledger.transaction, .ruleAdded rule)] }

end Evolution

variable {system : System} {ledger : Ledger}
  {change : AccountState system.library → AccountState system.library → Prop}
  {kind : Context → Prop} {world world' world'' : system.State}

theorem Evolves.trans (first : system.Evolves ledger change kind world world')
    (second : system.Evolves ledger change kind world' world'') :
    system.Evolves ledger change kind world world'' := by
  induction second with
  | refl => exact first
  | reached _ reaches ih => exact .reached ih reaches
  | stored _ changes ih => exact .stored ih changes
  | logged _ ih => exact .logged ih

theorem Evolves.mono {change' : AccountState system.library → AccountState system.library → Prop}
    (weaker : ∀ account account', change account account' → change' account account')
    (evolves : system.Evolves ledger change kind world world') :
    system.Evolves ledger change' kind world world' := by
  induction evolves with
  | refl => exact .refl _
  | reached _ reaches ih => exact .reached ih reaches
  | stored _ changes ih => exact .stored ih (weaker _ _ changes)
  | logged _ ih => exact .logged ih

theorem Reaches.evolves (reaches : system.Reaches ledger kind world world') :
    system.Evolves ledger change kind world world' :=
  .reached (.refl world) reaches

theorem Evolves.script (evolves : system.Evolves ledger change kind world world') :
    world'.script <:+ world.script := by
  induction evolves with
  | refl => exact List.suffix_refl _
  | reached _ reaches ih => exact reaches.script.trans ih
  | stored _ _ ih => exact ih
  | logged _ ih => exact ih

theorem Evolves.scripted (evolves : system.Evolves ledger change kind world world')
    (scripted : system.Scripted kind world.script) : system.Scripted kind world'.script := by
  intro frame member
  exact scripted frame (evolves.script.subset member)

theorem Evolves.instances (evolves : system.Evolves ledger change kind world world')
    (controller : Address) :
    (world'.controllers controller).isSome = (world.controllers controller).isSome := by
  induction evolves with
  | refl => rfl
  | reached _ reaches ih => rw [reaches.instances, ih]
  | stored _ _ ih => exact ih
  | logged _ ih => exact ih

theorem Evolves.installed {controller account : Address} {ruleId : UInt32}
    (evolves : system.Evolves ledger change kind world world')
    (before : ∃ state, world.controllers controller = some state ∧
      state.installed account = some ruleId) :
    ∃ state, world'.controllers controller = some state ∧
      state.installed account = some ruleId := by
  induction evolves with
  | refl => exact before
  | reached _ reaches ih => exact reaches.installed ih
  | stored _ _ ih => exact ih
  | logged _ ih => exact ih

/-- The log only grows: by accepted calls of controllers and by added rules. -/
theorem Evolves.effects (evolves : system.Evolves ledger change kind world world') :
    ∃ new, world'.effects = world.effects ++ new ∧
      ∀ entry ∈ new, system.Logged ledger kind entry ∨
        ∃ rule, entry = (ledger.transaction, .ruleAdded rule) := by
  induction evolves with
  | refl => exact ⟨[], (List.append_nil _).symm, fun _ impossible => by cases impossible⟩
  | reached _ reaches ih =>
      obtain ⟨new, log, logged⟩ := ih
      obtain ⟨more, later, calls⟩ := reaches.effects
      refine ⟨new ++ more, by rw [later, log, List.append_assoc], ?_⟩
      intro entry member
      rcases List.mem_append.mp member with earlier | last
      · exact logged entry earlier
      · exact Or.inl (calls entry last)
  | stored _ _ ih => exact ih
  | @logged _ rule _ ih =>
      obtain ⟨new, log, logged⟩ := ih
      refine ⟨new ++ [(ledger.transaction, .ruleAdded rule)], ?_, ?_⟩
      · rw [← List.append_assoc, ← log]
      · intro entry member
        rcases List.mem_append.mp member with earlier | last
        · exact logged entry earlier
        · exact Or.inr ⟨rule, List.mem_singleton.mp last⟩

theorem Evolves.keepsRecovery (evolves : system.Evolves ledger KeepsRecovery kind world world') :
    KeepsRecovery world.account world'.account := by
  induction evolves with
  | refl => exact .refl _
  | reached _ reaches ih =>
      rw [reaches.account]
      exact ih
  | stored _ changes ih => exact ih.trans changes
  | logged _ ih => exact ih

/-- Rules may be stored in which the recovery rule keeps its scope. -/
theorem Evolves.withRules {rules : system.library.Store}
    (scope : ∀ ruleId, world.account.recoveryRuleId = some ruleId →
      system.library.KeepsScope ruleId world.account.rules rules) :
    system.Evolves ledger KeepsRecovery kind world (world.withRules rules) :=
  .stored (.refl world) ⟨rfl, rfl, rfl, scope⟩

section EntryPoints

variable (lawful : system.library.Lawful) (scripted : system.Scripted kind world.script)

include scripted

theorem guardLivePending_reaches {controller : Address}
    (accepted : system.guardLivePending ledger controller world = .ok world') :
    system.Reaches ledger kind world world' := by
  simp only [guardLivePending, hasLivePending, bind_eq_ok, pure_eq_ok, require_eq_ok,
    Prod.exists] at accepted
  obtain ⟨live, middle, ⟨_, _, answered⟩, _, _, rfl⟩ := accepted
  split at answered
  · have entered : (system.foreign ledger [] world).2 = middle :=
      congrArg Prod.snd (Except.ok.inj answered)
    rw [← entered]
    exact foreign_reaches scripted
  · cases answered
    exact .refl world

theorem guardNoPending_reaches (accepted : system.guardNoPending ledger world = .ok world') :
    system.Reaches ledger kind world world' := by
  unfold guardNoPending at accepted
  split at accepted
  · cases accepted
    exact .refl world
  · exact guardLivePending_reaches scripted accepted

theorem invokeContract_reaches {authorized : Address → Bool} {call : ContractContext}
    (enters : ∀ decoded, (world.controllers call.contract).isSome = true →
      Call.fromScVals call.fnName call.args = some decoded → system.Enters kind decoded)
    (accepted : system.invokeContract ledger authorized call world = .ok world') :
    system.Reaches ledger kind world world' := by
  unfold invokeContract at accepted
  split at accepted
  · cases accepted
    exact foreign_reaches scripted
  · rename_i found
    split at accepted
    · cases accepted
      exact .refl world
    · simp only [bind_eq_ok, orFail_eq_ok] at accepted
      obtain ⟨decoded, decodes, called⟩ := accepted
      exact .called (.refl world) called (enters decoded (by rw [found]; rfl) decodes)

omit scripted in
theorem keepsScope_of_unprotected {contextRuleId : UInt32} {rules : system.library.Store}
    (unprotected : world.account.recoveryRuleId ≠ some contextRuleId)
    (only : system.library.OnlyAt contextRuleId world.account.rules rules) :
    ∀ ruleId, world.account.recoveryRuleId = some ruleId →
      system.library.KeepsScope ruleId world.account.rules rules := by
  intro ruleId isRecovery
  apply only.keepsScope
  intro same
  exact unprotected (same ▸ isRecovery)

include lawful

theorem rawAddContextRule_evolves {contextType : ContextRuleType} {name : String}
    {validUntil : Option UInt32} {signers : List Signer} {policies : List (Address × ScVal)}
    {rule : ContextRule}
    (accepted : system.rawAddContextRule ledger contextType name validUntil signers policies world =
      .ok (rule, world')) :
    system.Evolves ledger KeepsRecovery kind world world' := by
  simp only [rawAddContextRule, bind_eq_ok, pure_eq_ok, Prod.exists, Prod.mk.injEq] at accepted
  obtain ⟨added, rules, adds, middle, installs, rfl, rfl⟩ := accepted
  have added := lawful.added _ _ _ _ _ _ _ _ _ adds
  have stored : system.Evolves ledger KeepsRecovery kind world (world.withRules rules) :=
    .withRules (fun ruleId _ => added.keepsEveryScope ruleId)
  exact stored.reached (installPolicies_reaches (stored.scripted scripted) installs)

theorem rawRemoveContextRule_evolves {contextRuleId : UInt32}
    (unprotected : world.account.recoveryRuleId ≠ some contextRuleId)
    (accepted : system.rawRemoveContextRule ledger contextRuleId world = .ok world') :
    system.Evolves ledger KeepsRecovery kind world world' := by
  simp only [rawRemoveContextRule, bind_eq_ok, pure_eq_ok, Prod.exists] at accepted
  obtain ⟨rule, rules, removes, rfl⟩ := accepted
  have stored : system.Evolves ledger KeepsRecovery kind world (world.withRules rules) :=
    .withRules (keepsScope_of_unprotected unprotected (lawful.removed _ _ _ _ removes).2)
  exact stored.reached (uninstallPolicies_reaches (stored.scripted scripted))

theorem rawAddPolicy_evolves {contextRuleId : UInt32} {policy : Address} {installParam : ScVal}
    (unprotected : world.account.recoveryRuleId ≠ some contextRuleId)
    (accepted : system.rawAddPolicy ledger contextRuleId policy installParam world = .ok world') :
    system.Evolves ledger KeepsRecovery kind world world' := by
  simp only [rawAddPolicy, bind_eq_ok, Prod.exists] at accepted
  obtain ⟨_, rule, rules, adds, installs⟩ := accepted
  have stored : system.Evolves ledger KeepsRecovery kind world (world.withRules rules) :=
    .withRules (keepsScope_of_unprotected unprotected (lawful.policyAdded _ _ _ _ _ _ adds))
  exact stored.reached (installPolicy_reaches (stored.scripted scripted) installs)

theorem rawRemovePolicy_evolves {contextRuleId policyId : UInt32}
    (unprotected : world.account.recoveryRuleId ≠ some contextRuleId)
    (accepted : system.rawRemovePolicy ledger contextRuleId policyId world = .ok world') :
    system.Evolves ledger KeepsRecovery kind world world' := by
  simp only [rawRemovePolicy, bind_eq_ok, pure_eq_ok, Prod.exists] at accepted
  obtain ⟨policy, rule, rules, removes, rfl⟩ := accepted
  have stored : system.Evolves ledger KeepsRecovery kind world (world.withRules rules) :=
    .withRules (keepsScope_of_unprotected unprotected (lawful.policyRemoved _ _ _ _ _ _ removes))
  exact stored.reached (uninstallPolicy_reaches (stored.scripted scripted))

omit lawful in
/-- Behind the guard an edit meets the account it was asked to edit. -/
theorem guarded_evolves {edit : system.State → Contract system.State}
    (edits : ∀ middle, middle.account = world.account → system.Scripted kind middle.script →
      edit middle = .ok world' → system.Evolves ledger KeepsRecovery kind middle world')
    (accepted : system.guardNoPending ledger world >>= edit = .ok world') :
    system.Evolves ledger KeepsRecovery kind world world' := by
  obtain ⟨middle, guarded, edited⟩ := bind_eq_ok.mp accepted
  have reaches : system.Reaches ledger kind world middle := guardNoPending_reaches scripted guarded
  exact reaches.evolves.trans (edits middle reaches.account (reaches.scripted scripted) edited)

theorem updateContextRuleValidUntil_evolves {contextRuleId : UInt32} {validUntil : Option UInt32}
    (accepted : system.updateContextRuleValidUntil ledger contextRuleId validUntil world =
      .ok world') :
    system.Evolves ledger KeepsRecovery kind world world' := by
  obtain ⟨_, unprotected, accepted⟩ := bind_eq_ok.mp accepted
  have unprotected := (require_eq_ok _ _ _).mp unprotected
  apply guarded_evolves scripted ?_ accepted
  intro middle same scripted edited
  simp only [bind_eq_ok, pure_eq_ok, Prod.exists] at edited
  obtain ⟨_, rules, updates, rfl⟩ := edited
  rw [← same] at unprotected
  exact .withRules
    (keepsScope_of_unprotected unprotected (lawful.validUntilUpdated _ _ _ _ _ _ updates))

theorem removeContextRule_evolves {contextRuleId : UInt32}
    (accepted : system.removeContextRule ledger contextRuleId world = .ok world') :
    system.Evolves ledger KeepsRecovery kind world world' := by
  obtain ⟨_, unprotected, accepted⟩ := bind_eq_ok.mp accepted
  have unprotected := (require_eq_ok _ _ _).mp unprotected
  apply guarded_evolves scripted ?_ accepted
  intro middle same scripted edited
  rw [← same] at unprotected
  exact rawRemoveContextRule_evolves lawful scripted unprotected edited

theorem removeSigner_evolves {contextRuleId signerId : UInt32}
    (accepted : system.removeSigner ledger contextRuleId signerId world = .ok world') :
    system.Evolves ledger KeepsRecovery kind world world' := by
  apply guarded_evolves scripted ?_ accepted
  intro middle _same scripted edited
  simp only [bind_eq_ok, pure_eq_ok] at edited
  obtain ⟨rules, removes, rfl⟩ := edited
  obtain ⟨only, named⟩ := lawful.signerRemoved _ _ _ _ removes
  exact .withRules (fun ruleId _ => only.keepsEveryScope named ruleId)

theorem addPolicy_evolves {contextRuleId : UInt32} {policy : Address} {installParam : ScVal}
    (accepted : system.addPolicy ledger contextRuleId policy installParam world = .ok world') :
    system.Evolves ledger KeepsRecovery kind world world' := by
  obtain ⟨_, unprotected, accepted⟩ := bind_eq_ok.mp accepted
  have unprotected := (require_eq_ok _ _ _).mp unprotected
  apply guarded_evolves scripted ?_ accepted
  intro middle same scripted edited
  rw [← same] at unprotected
  exact rawAddPolicy_evolves lawful scripted unprotected edited

theorem removePolicy_evolves {contextRuleId policyId : UInt32}
    (accepted : system.removePolicy ledger contextRuleId policyId world = .ok world') :
    system.Evolves ledger KeepsRecovery kind world world' := by
  obtain ⟨_, unprotected, accepted⟩ := bind_eq_ok.mp accepted
  have unprotected := (require_eq_ok _ _ _).mp unprotected
  apply guarded_evolves scripted ?_ accepted
  intro middle same scripted edited
  rw [← same] at unprotected
  exact rawRemovePolicy_evolves lawful scripted unprotected edited

/-- The entry points that neither install nor remove the recovery rule leave it
alone. -/
theorem perform_evolves {authorized : Address → Bool} {call : AccountCall}
    (elsewhere : call.concernsRecovery = false)
    (enters : ∀ target targetFn targetArgs decoded,
      call = .execute target targetFn targetArgs → (world.controllers target).isSome = true →
      Call.fromScVals targetFn targetArgs = some decoded → system.Enters kind decoded)
    (accepted : system.perform ledger authorized call world = .ok world') :
    system.Evolves ledger KeepsRecovery kind world world' := by
  unfold perform at accepted
  cases call with
  | addContextRule contextType name validUntil signers policies =>
      simp only [addContextRule, bind_eq_ok, pure_eq_ok, Prod.exists, Prod.mk.injEq] at accepted
      obtain ⟨_, _, ⟨rule, middle, adds, _, rfl⟩, rfl⟩ := accepted
      exact .logged (rawAddContextRule_evolves lawful scripted adds)
  | updateContextRuleName contextRuleId name =>
      simp only [updateContextRuleName, bind_eq_ok, pure_eq_ok, Prod.exists] at accepted
      obtain ⟨_, rules, updates, rfl⟩ := accepted
      obtain ⟨only, named⟩ := lawful.renamed _ _ _ _ _ updates
      exact .withRules (fun ruleId _ => only.keepsEveryScope named ruleId)
  | updateContextRuleValidUntil contextRuleId validUntil =>
      exact updateContextRuleValidUntil_evolves lawful scripted accepted
  | removeContextRule contextRuleId => exact removeContextRule_evolves lawful scripted accepted
  | addSigner contextRuleId signer =>
      simp only [addSigner, bind_eq_ok, pure_eq_ok, Prod.exists, Prod.mk.injEq] at accepted
      obtain ⟨_, _, ⟨_, rules, adds, _, rfl⟩, rfl⟩ := accepted
      obtain ⟨only, named⟩ := lawful.signerAdded _ _ _ _ _ adds
      exact .withRules (fun ruleId _ => only.keepsEveryScope named ruleId)
  | removeSigner contextRuleId signerId => exact removeSigner_evolves lawful scripted accepted
  | addPolicy contextRuleId policy installParam =>
      exact addPolicy_evolves lawful scripted accepted
  | removePolicy contextRuleId policyId => exact removePolicy_evolves lawful scripted accepted
  | initiateRecoveryRuleRemoval => cases elsewhere
  | executeRecoveryRuleRemoval => cases elsewhere
  | enrollZkRecovery recoveryController => cases elsewhere
  | addMultisigRecovery name validUntil friends multisigPolicy threshold =>
      simp only [addMultisigRecovery, bind_eq_ok, pure_eq_ok, Prod.exists] at accepted
      obtain ⟨_, _, adds, rfl⟩ := accepted
      exact rawAddContextRule_evolves lawful scripted adds
  | execute target targetFn targetArgs =>
      obtain ⟨_, _, invoked⟩ := bind_eq_ok.mp accepted
      refine Reaches.evolves (invokeContract_reaches scripted ?_ invoked)
      exact fun decoded => enters target targetFn targetArgs decoded rfl

end EntryPoints

section Recovery

theorem installPolicy_installs {rule : ContextRule} {policy : Address} {installParam : ScVal}
    (genuine : (world.controllers policy).isSome = true)
    (accepted : system.installPolicy ledger rule policy installParam world = .ok world') :
    ∃ state, world'.controllers policy = some state ∧
      state.installed system.self = some rule.id := by
  simp only [installPolicy, bind_eq_ok, require_eq_ok] at accepted
  obtain ⟨_, _, accepted⟩ := accepted
  split at accepted
  · rename_i absent
    rw [absent] at genuine
    cases genuine
  · simp only [bind_eq_ok, orFail_eq_ok] at accepted
    obtain ⟨params, _, called⟩ := accepted
    obtain ⟨before, after, _, outcome, rfl⟩ := callController_eq_ok called
    cases outcome with
    | install installed =>
        refine ⟨after, Function.update_self .., ?_⟩
        rw [installed.after]
        exact Function.update_self ..

/-- An instance refuses to be uninstalled, and the refusal is swallowed. -/
theorem uninstallPolicy_instance {rule : ContextRule} {policy : Address}
    (genuine : (world.controllers policy).isSome = true) :
    system.uninstallPolicy ledger rule policy world = world := by
  unfold uninstallPolicy
  split
  · rfl
  · split
    · rename_i absent
      rw [absent] at genuine
      cases genuine
    · unfold tryController
      cases called : system.callController ledger [] system.asInvoker policy
          (.uninstall rule system.self) world with
      | error failure => rfl
      | ok after =>
          obtain ⟨_, _, _, outcome, _⟩ := callController_eq_ok called
          cases outcome

theorem installRecoveryRule_eq_ok (lawful : system.library.Lawful) {controller : Address}
    {ruleId : UInt32}
    (accepted : system.installRecoveryRule ledger controller world = .ok (ruleId, world')) :
    ∃ rule rules installParam middle,
      system.library.Added world.account.rules (.callContract system.self) "zk-recovery" none []
        [controller] rule rules ∧
      system.installPolicy ledger rule controller installParam (world.withRules rules) =
        .ok middle ∧
      world' = { middle with account := { middle.account with
        recoveryRuleId := some rule.id
        recoveryController := some controller } } := by
  simp only [installRecoveryRule, rawAddContextRule, installPolicies, bind_eq_ok, pure_eq_ok,
    Prod.exists, Prod.mk.injEq] at accepted
  obtain ⟨_, _, ⟨rule, rules, adds, middle, ⟨_, installs, rfl⟩, rfl, rfl⟩, _, rfl⟩ := accepted
  exact ⟨rule, rules, _, _, lawful.added _ _ _ _ _ _ _ _ _ adds, installs, rfl⟩

theorem initiateRecoveryRuleRemoval_eq_ok
    (accepted : system.initiateRecoveryRuleRemoval ledger world = .ok world') :
    ∃ controller middle executeAfter, world.account.recoveryController = some controller ∧
      system.guardLivePending ledger controller world = .ok middle ∧
      executeAfter.toNat = ledger.timestamp.toNat + recoveryRemovalDelaySecs.toNat ∧
      world' = { middle with
        account := { middle.account with recoveryRemovalAt := some executeAfter } } := by
  simp only [initiateRecoveryRuleRemoval, recoveryControllerOrPanic, bind_eq_ok, pure_eq_ok,
    orFail_eq_ok, checkedAdd_eq_ok] at accepted
  obtain ⟨controller, found, middle, guarded, executeAfter, delayed, rfl⟩ := accepted
  exact ⟨controller, middle, executeAfter, found, guarded, delayed, rfl⟩

theorem executeRecoveryRuleRemoval_eq_ok
    (accepted : system.executeRecoveryRuleRemoval ledger world = .ok world') :
    ∃ executeAfter controller middle ruleId removed,
      world.account.recoveryRemovalAt = some executeAfter ∧
      executeAfter ≤ ledger.timestamp ∧
      world.account.recoveryController = some controller ∧
      system.guardLivePending ledger controller world = .ok middle ∧
      middle.account.recoveryRuleId = some ruleId ∧
      system.rawRemoveContextRule ledger ruleId middle = .ok removed ∧
      world' = { removed with account := { removed.account with
        recoveryRuleId := none
        recoveryController := none
        recoveryRemovalAt := none } } := by
  simp only [executeRecoveryRuleRemoval, recoveryControllerOrPanic, bind_eq_ok, pure_eq_ok,
    orFail_eq_ok, require_eq_ok, UInt64.not_lt] at accepted
  obtain ⟨executeAfter, announced, _, elapsed, controller, found, middle, guarded, ruleId, named,
    removed, removes, rfl⟩ := accepted
  exact ⟨executeAfter, controller, middle, ruleId, removed, announced, elapsed, found, guarded,
    named, removes, rfl⟩

theorem enrollZkRecovery_eq_ok {controller : Address}
    (accepted : system.enrollZkRecovery ledger controller world = .ok world') :
    world.account.recoveryRuleId = none ∧
      ∃ ruleId, system.installRecoveryRule ledger controller world = .ok (ruleId, world') := by
  simp only [enrollZkRecovery, bind_eq_ok, pure_eq_ok, require_eq_ok, Prod.exists] at accepted
  obtain ⟨_, absent, ruleId, _, installs, rfl⟩ := accepted
  exact ⟨absent, ruleId, installs⟩

end Recovery

section Calls

/-- What the account is asked to execute enters `enforce` for it only that way. -/
def ExecutesOnly (system : System) (kind : Context → Prop) (world : system.State)
    (call : AccountCall) : Prop :=
  ∀ target targetFn targetArgs decoded, call = .execute target targetFn targetArgs →
    (world.controllers target).isSome = true →
    Call.fromScVals targetFn targetArgs = some decoded → system.Enters kind decoded

variable (lawful : system.library.Lawful)

include lawful

theorem installRecoveryRule_changes {controller : Address} {ruleId : UInt32}
    (scripted : system.Scripted kind world.script)
    (accepted : system.installRecoveryRule ledger controller world = .ok (ruleId, world')) :
    system.Evolves ledger (fun _ _ => True) kind world world' := by
  obtain ⟨_, rules, _, _, _, installed, rfl⟩ := installRecoveryRule_eq_ok lawful accepted
  have stored : system.Evolves ledger (fun _ _ => True) kind world (world.withRules rules) :=
    .stored (.refl world) trivial
  exact .stored (stored.reached (installPolicy_reaches (stored.scripted scripted) installed))
    trivial

/-- Every entry point stores, lets policies run and logs; nothing else. -/
theorem perform_changes {authorized : Address → Bool} {call : AccountCall}
    (scripted : system.Scripted kind world.script)
    (executes : system.ExecutesOnly kind world call)
    (accepted : system.perform ledger authorized call world = .ok world') :
    system.Evolves ledger (fun _ _ => True) kind world world' := by
  cases elsewhere : call.concernsRecovery with
  | false =>
      exact (perform_evolves lawful scripted elsewhere executes accepted).mono
        (fun _ _ _ => trivial)
  | true =>
      cases call with
      | initiateRecoveryRuleRemoval =>
          obtain ⟨_, _, _, _, guarded, _, rfl⟩ := initiateRecoveryRuleRemoval_eq_ok accepted
          exact .stored (guardLivePending_reaches scripted guarded).evolves trivial
      | executeRecoveryRuleRemoval =>
          obtain ⟨_, _, middle, _, _, _, _, _, guarded, _, removes, rfl⟩ :=
            executeRecoveryRuleRemoval_eq_ok accepted
          simp only [rawRemoveContextRule, bind_eq_ok, pure_eq_ok, Prod.exists] at removes
          obtain ⟨rule, rules, _, rfl⟩ := removes
          have reaches : system.Reaches ledger kind world middle :=
            guardLivePending_reaches scripted guarded
          have stored : system.Evolves ledger (fun _ _ => True) kind world
              (middle.withRules rules) := .stored reaches.evolves trivial
          exact .stored (stored.reached (uninstallPolicies_reaches (stored.scripted scripted)))
            trivial
      | enrollZkRecovery recoveryController =>
          obtain ⟨_, _, installs⟩ := enrollZkRecovery_eq_ok accepted
          exact installRecoveryRule_changes lawful scripted installs
      | addContextRule | updateContextRuleName | updateContextRuleValidUntil | removeContextRule
      | addSigner | removeSigner | addPolicy | removePolicy | addMultisigRecovery | execute =>
          cases elsewhere

theorem construct_changes {signers : List Signer} {policies : List (Address × ScVal)}
    {recoveryController : Option Address} (scripted : system.Scripted kind world.script)
    (accepted : system.construct ledger signers policies recoveryController world = .ok world') :
    system.Evolves ledger (fun _ _ => True) kind world world' := by
  simp only [construct, bind_eq_ok, Prod.exists] at accepted
  obtain ⟨_, middle, adds, accepted⟩ := accepted
  have keeps : system.Evolves ledger KeepsRecovery kind world middle :=
    rawAddContextRule_evolves lawful scripted adds
  have changes : system.Evolves ledger (fun _ _ => True) kind world middle :=
    keeps.mono (fun _ _ _ => trivial)
  split at accepted
  · cases accepted
    exact changes
  · simp only [bind_eq_ok, pure_eq_ok, Prod.exists] at accepted
    obtain ⟨_, _, installs, rfl⟩ := accepted
    exact changes.trans (installRecoveryRule_changes lawful (keeps.scripted scripted) installs)

def Calls (system : System) (item : Item) (call : AccountCall) : Prop :=
  item.target = system.self ∧ AccountCall.fromScVals item.fnName item.args = some call

/-- An item is a call of the account, whose authorization is checked before it
does anything, or it does not touch the account. -/
theorem act_cases {item : Item} (scripted : system.Scripted kind item.script)
    (selects : ∀ entry, item.approval = .entry entry → ∀ selection ∈ entry.root :: entry.nested,
      system.Selects kind world selection)
    (invokes : item.target ≠ system.self → ∀ decoded,
      (world.controllers item.target).isSome = true →
      Call.fromScVals item.fnName item.args = some decoded → system.Enters kind decoded)
    (accepted : system.act ledger item world = .ok world') :
    (∃ call middle, system.Calls item call ∧
      system.requireAuth ledger [] item.approval item.call { world with script := item.script } =
        .ok middle ∧
      system.Reaches ledger kind { world with script := item.script } middle ∧
      system.perform ledger item.authorized call middle = .ok world') ∨
    (item.target ≠ system.self ∧
      system.Reaches ledger kind { world with script := item.script } world') := by
  unfold act at accepted
  split at accepted
  · rename_i atSelf
    left
    simp only [callAccount, bind_eq_ok, orFail_eq_ok] at accepted
    obtain ⟨call, decodes, middle, authorized, performed⟩ := accepted
    exact ⟨call, middle, ⟨atSelf, decodes⟩, authorized,
      requireAuth_reaches lawful scripted selects authorized, performed⟩
  · rename_i elsewhere
    right
    refine ⟨elsewhere, ?_⟩
    unfold callOther at accepted
    split at accepted
    · exact invokeContract_reaches scripted (invokes elsewhere) accepted
    · simp only [bind_eq_ok] at accepted
      obtain ⟨_, _, middle, authorized, invoked⟩ := accepted
      have checked : system.Reaches ledger kind { world with script := item.script } middle :=
        requireAuth_reaches lawful scripted selects authorized
      refine checked.trans (invokeContract_reaches (checked.scripted scripted) ?_ invoked)
      intro decoded genuine
      rw [checked.instances] at genuine
      exact invokes elsewhere decoded genuine

end Calls

section Runs

variable {start : system.State} {run : List Step} {time : Nat} {step : Step}

theorem step_eq_some (accepted : system.step world step = some world') :
    system.act step.ledger step.item world = .ok world' := by
  unfold System.step at accepted
  cases acts : system.act step.ledger step.item world with
  | error failure =>
      rw [acts] at accepted
      cases accepted
  | ok after =>
      rw [acts] at accepted
      cases accepted
      rfl

theorem Accepts.acts (accepted : system.Accepts start run time step) :
    system.act step.ledger step.item (system.stateAt start run time) =
      .ok (system.stateAt start run (time + 1)) :=
  step_eq_some accepted.steps

/-- What every accepted step keeps holds in every state of every run. -/
theorem invariant (Inv : system.State → Prop) (initial : Inv start)
    (preserved : ∀ time step, system.Accepts start run time step →
      Inv (system.stateAt start run time) → Inv (system.stateAt start run (time + 1)))
    (time : Nat) : Inv (system.stateAt start run time) := by
  apply Run.invariant initial
  intro time step after before accepted
  have here : system.stateAt start run (time + 1) = after := accepted.stateAt_succ
  rw [← here] at accepted ⊢
  exact preserved time step accepted before

end Runs

end System

end Nido.SmartAccount
