/-
The recovery rule over the life of an account.

Once it is installed the rule keeps its scope, its only policy and its unlimited
validity, whatever is called and whoever authorizes it. It goes only by the
announced removal, seven days after the announcement at the earliest and with no
recovery in flight then or now.
-/

import Nido.SmartAccount.Reference
import Nido.SmartAccount.Steps

namespace Nido.SmartAccount

open Contract
open ZkRecovery (RecoveryState Call)

namespace System

variable (system : System)

/-- Every controller that the account is told to recover through is an instance
of the recovery contract. -/
structure Genuine (genesis : Genesis) (run : List Step) : Prop where
  constructed : ∀ controller, genesis.recoveryController = some controller →
    (genesis.controllers controller).isSome = true
  enrolled : ∀ step ∈ run, ∀ controller, system.Calls step.item (.enrollZkRecovery controller) →
    (genesis.controllers controller).isSome = true

structure RecoveryIntact (world : system.State) : Prop where
  enrolled : ∀ ruleId, world.account.recoveryRuleId = some ruleId →
    ∃ rule controller state,
      system.library.getContextRule world.account.rules ruleId = some rule ∧
      rule.contextType = .callContract system.self ∧
      rule.policies = [controller] ∧
      rule.validUntil = none ∧
      world.account.recoveryController = some controller ∧
      world.controllers controller = some state ∧
      state.installed system.self = some ruleId
  together : world.account.recoveryRuleId.isSome = world.account.recoveryController.isSome
  announced : world.account.recoveryRemovalAt.isSome = true →
    world.account.recoveryRuleId.isSome = true

def NoLivePending (controller : Address) (timestamp : UInt64) (world : system.State) : Prop :=
  ∀ state pending, world.controllers controller = some state →
    state.pending system.self = some pending → pending.expiresAt ≤ timestamp

/-- A step that leaves the recovery of the account alone. -/
structure Keeps (world world' : system.State) : Prop where
  account : KeepsRecovery world.account world'.account
  installed : ∀ controller ruleId,
    (∃ state, world.controllers controller = some state ∧
      state.installed system.self = some ruleId) →
    ∃ state, world'.controllers controller = some state ∧
      state.installed system.self = some ruleId
  instances : ∀ controller,
    (world'.controllers controller).isSome = (world.controllers controller).isSome

/-- What an accepted item does to the recovery of the account. -/
inductive RecoveryStep (ledger : Ledger) (item : Item) (world : system.State) :
    system.State → Prop
  | kept {world' : system.State} (keeps : system.Keeps world world') :
      RecoveryStep ledger item world world'
  | announced {controller : Address} {middle : system.State} {executeAfter : UInt64}
      (called : system.Calls item .initiateRecoveryRuleRemoval)
      (keeps : system.Keeps world middle)
      (found : middle.account.recoveryController = some controller)
      (quiet : system.NoLivePending controller ledger.timestamp middle)
      (delayed : executeAfter.toNat = ledger.timestamp.toNat + recoveryRemovalDelaySecs.toNat) :
      RecoveryStep ledger item world { middle with
        account := { middle.account with recoveryRemovalAt := some executeAfter } }
  | removed {controller : Address} {middle : system.State} {executeAfter : UInt64}
      {rules : system.library.Store}
      (called : system.Calls item .executeRecoveryRuleRemoval)
      (keeps : system.Keeps world middle)
      (announced : middle.account.recoveryRemovalAt = some executeAfter)
      (elapsed : executeAfter ≤ ledger.timestamp)
      (found : middle.account.recoveryController = some controller)
      (quiet : system.NoLivePending controller ledger.timestamp middle) :
      RecoveryStep ledger item world { middle with
        account := {
          rules
          recoveryRuleId := none
          recoveryController := none
          recoveryRemovalAt := none } }
  | enrolled {controller : Address} {middle after : system.State} {rule : ContextRule}
      {rules : system.library.Store}
      (called : system.Calls item (.enrollZkRecovery controller))
      (keeps : system.Keeps world middle)
      (absent : middle.account.recoveryRuleId = none)
      (added : system.library.Added middle.account.rules (.callContract system.self)
        "zk-recovery" none [] [controller] rule rules)
      (stored : after.account = { middle.account with
        rules
        recoveryRuleId := some rule.id
        recoveryController := some controller })
      (installed : ∃ state, after.controllers controller = some state ∧
        state.installed system.self = some rule.id) :
      RecoveryStep ledger item world after

variable {system} {ledger : Ledger} {item : Item} {world world' world'' : system.State}

theorem Keeps.trans (first : system.Keeps world world') (second : system.Keeps world' world'') :
    system.Keeps world world'' where
  account := first.account.trans second.account
  installed := fun controller ruleId before =>
    second.installed controller ruleId (first.installed controller ruleId before)
  instances := fun controller =>
    (second.instances controller).trans (first.instances controller)

theorem Evolves.keeps {kind : Context → Prop}
    (evolves : system.Evolves ledger KeepsRecovery kind world world') :
    system.Keeps world world' where
  account := evolves.keepsRecovery
  installed := fun _ _ before => evolves.installed before
  instances := evolves.instances

theorem Keeps.of_script {script : List ForeignFrame}
    (keeps : system.Keeps { world with script } world') : system.Keeps world world' :=
  ⟨keeps.account, keeps.installed, keeps.instances⟩

theorem RecoveryIntact.kept (intact : system.RecoveryIntact world)
    (keeps : system.Keeps world world') : system.RecoveryIntact world' where
  enrolled := by
    intro ruleId isRecovery
    rw [keeps.account.ruleId] at isRecovery
    obtain ⟨rule, controller, state, found, scope, policies, unlimited, named, genuine,
      installed⟩ := intact.enrolled ruleId isRecovery
    obtain ⟨rule', found', sameScope, samePolicies, sameValidity⟩ :=
      keeps.account.scope ruleId isRecovery rule found
    obtain ⟨state', genuine', installed'⟩ :=
      keeps.installed controller ruleId ⟨state, genuine, installed⟩
    exact ⟨rule', controller, state', found', sameScope.trans scope, samePolicies.trans policies,
      sameValidity.trans unlimited, keeps.account.controller.trans named, genuine', installed'⟩
  together := by
    rw [keeps.account.ruleId, keeps.account.controller]
    exact intact.together
  announced := by
    rw [keeps.account.ruleId, keeps.account.removalAt]
    exact intact.announced

theorem RecoveryIntact.genuine (intact : system.RecoveryIntact world) {controller : Address}
    (named : world.account.recoveryController = some controller) :
    (world.controllers controller).isSome = true := by
  have present := intact.together
  rw [named] at present
  obtain ⟨ruleId, isRecovery⟩ := Option.isSome_iff_exists.mp present
  obtain ⟨_, other, state, _, _, _, _, named', genuine, _⟩ := intact.enrolled ruleId isRecovery
  cases named.symm.trans named'
  rw [genuine]
  rfl

theorem guardLivePending_quiet {controller : Address}
    (genuine : (world.controllers controller).isSome = true)
    (accepted : system.guardLivePending ledger controller world = .ok world') :
    world' = world ∧ system.NoLivePending controller ledger.timestamp world := by
  simp only [guardLivePending, hasLivePending, bind_eq_ok, pure_eq_ok, require_eq_ok,
    Prod.exists] at accepted
  obtain ⟨live, middle, ⟨_, _, answered⟩, _, quiet, rfl⟩ := accepted
  split at answered
  · rename_i absent
    rw [absent] at genuine
    cases genuine
  · rename_i state found
    obtain ⟨answer, same⟩ := Prod.mk.inj (Except.ok.inj answered)
    refine ⟨same.symm, ?_⟩
    intro other pending present waiting
    cases found.symm.trans present
    rw [quiet, ZkRecovery.hasPending, waiting, Option.any_some, decide_eq_false_iff_not] at answer
    exact UInt64.not_lt.mp answer

/-- Everything may be entered: what follows does not depend on who calls what. -/
theorem enters_any (call : Call) : system.Enters (fun _ => True) call :=
  fun _ _ _ _ => trivial

theorem scripted_any (script : List ForeignFrame) : system.Scripted (fun _ => True) script :=
  fun _ _ made _ => enters_any made.call

theorem announced_of_initiate {middle : system.State} (intact : system.RecoveryIntact middle)
    (called : system.Calls item .initiateRecoveryRuleRemoval) (keeps : system.Keeps world middle)
    (accepted : system.initiateRecoveryRuleRemoval ledger middle = .ok world') :
    system.RecoveryStep ledger item world world' := by
  obtain ⟨controller, guarded, executeAfter, found, guards, delayed, rfl⟩ :=
    initiateRecoveryRuleRemoval_eq_ok accepted
  obtain ⟨rfl, quiet⟩ := guardLivePending_quiet (intact.genuine found) guards
  exact .announced called keeps found quiet delayed

theorem removed_of_execute (lawful : system.library.Lawful) {middle : system.State}
    (intact : system.RecoveryIntact middle)
    (called : system.Calls item .executeRecoveryRuleRemoval) (keeps : system.Keeps world middle)
    (accepted : system.executeRecoveryRuleRemoval ledger middle = .ok world') :
    system.RecoveryStep ledger item world world' := by
  obtain ⟨executeAfter, controller, guarded, ruleId, removed, announced, elapsed, found, guards,
    isRecovery, removes, rfl⟩ := executeRecoveryRuleRemoval_eq_ok accepted
  have genuine := intact.genuine found
  obtain ⟨rfl, quiet⟩ := guardLivePending_quiet genuine guards
  simp only [rawRemoveContextRule, bind_eq_ok, pure_eq_ok, Prod.exists] at removes
  obtain ⟨rule, rules, removes, rfl⟩ := removes
  -- the removed rule has the controller as its only policy, which refuses to go
  obtain ⟨stored, other, _, present, _, policies, _, named, _⟩ := intact.enrolled ruleId isRecovery
  cases found.symm.trans named
  cases present.symm.trans (lawful.removed _ _ _ _ removes).1
  have refuses : system.uninstallPolicy ledger rule controller (guarded.withRules rules) =
      guarded.withRules rules := uninstallPolicy_instance genuine
  rw [policies, uninstallPolicies, uninstallPolicies, refuses]
  exact @RecoveryStep.removed system ledger item world controller guarded executeAfter rules called
    keeps announced elapsed found quiet

theorem installRecoveryRule_installs (lawful : system.library.Lawful) {controller : Address}
    {ruleId : UInt32} (genuine : (world.controllers controller).isSome = true)
    (accepted : system.installRecoveryRule ledger controller world = .ok (ruleId, world')) :
    ∃ rule rules,
      system.library.Added world.account.rules (.callContract system.self) "zk-recovery" none []
        [controller] rule rules ∧
      world'.account = { world.account with
        rules
        recoveryRuleId := some rule.id
        recoveryController := some controller } ∧
      ∃ state, world'.controllers controller = some state ∧
        state.installed system.self = some rule.id := by
  obtain ⟨rule, rules, _, after, added, installed, rfl⟩ := installRecoveryRule_eq_ok lawful accepted
  have reaches : system.Reaches ledger (fun _ => True) (world.withRules rules) after :=
    installPolicy_reaches (scripted_any _) installed
  have isInstalled : ∃ state, after.controllers controller = some state ∧
      state.installed system.self = some rule.id :=
    installPolicy_installs (by exact genuine) installed
  refine ⟨rule, rules, added, ?_, isInstalled⟩
  rw [reaches.account]
  rfl

theorem enrolled_of_enroll (lawful : system.library.Lawful) {middle : system.State}
    {controller : Address} (genuine : (middle.controllers controller).isSome = true)
    (called : system.Calls item (.enrollZkRecovery controller)) (keeps : system.Keeps world middle)
    (accepted : system.enrollZkRecovery ledger controller middle = .ok world') :
    system.RecoveryStep ledger item world world' := by
  obtain ⟨absent, ruleId, installs⟩ := enrollZkRecovery_eq_ok accepted
  obtain ⟨rule, rules, added, stored, installed⟩ :=
    installRecoveryRule_installs lawful genuine installs
  exact .enrolled called keeps absent added stored installed

theorem act_recoveryStep (lawful : system.library.Lawful) (intact : system.RecoveryIntact world)
    (genuine : ∀ controller, system.Calls item (.enrollZkRecovery controller) →
      (world.controllers controller).isSome = true)
    (accepted : system.act ledger item world = .ok world') :
    system.RecoveryStep ledger item world world' := by
  have anything : ∀ selection, system.Selects (fun _ => True) world selection :=
    fun _ _ _ _ _ _ => trivial
  rcases act_cases lawful (scripted_any item.script) (fun _ _ selection _ => anything selection)
      (fun _ decoded _ _ => enters_any decoded) accepted with
    ⟨call, middle, called, _, reaches, performed⟩ | ⟨_, reaches⟩
  · have keeps : system.Keeps world middle := reaches.evolves.keeps.of_script
    cases elsewhere : call.concernsRecovery with
    | false =>
        have evolves : system.Evolves ledger KeepsRecovery (fun _ => True) middle world' :=
          perform_evolves lawful (scripted_any _) elsewhere
            (fun _ _ _ decoded _ _ _ => enters_any decoded) performed
        exact .kept (keeps.trans evolves.keeps)
    | true =>
        cases call with
        | initiateRecoveryRuleRemoval =>
            exact announced_of_initiate (intact.kept keeps) called keeps performed
        | executeRecoveryRuleRemoval =>
            exact removed_of_execute lawful (intact.kept keeps) called keeps performed
        | enrollZkRecovery controller =>
            have present := genuine controller called
            rw [← keeps.instances] at present
            exact enrolled_of_enroll lawful present called keeps performed
        | addContextRule | updateContextRuleName | updateContextRuleValidUntil
        | removeContextRule | addSigner | removeSigner | addPolicy | removePolicy
        | addMultisigRecovery | execute => cases elsewhere
  · exact .kept reaches.evolves.keeps.of_script

theorem intact_of_added {account : AccountState system.library} {controller : Address}
    {rule : ContextRule} {rules : system.library.Store}
    (added : system.library.Added account.rules (.callContract system.self) "zk-recovery" none []
      [controller] rule rules)
    (stored : world.account = { account with
      rules
      recoveryRuleId := some rule.id
      recoveryController := some controller })
    (installed : ∃ state, world.controllers controller = some state ∧
      state.installed system.self = some rule.id) :
    system.RecoveryIntact world where
  enrolled := by
    intro ruleId isRecovery
    rw [stored] at isRecovery ⊢
    cases isRecovery
    obtain ⟨state, genuine, isInstalled⟩ := installed
    exact ⟨rule, controller, state, added.stored, added.contextType, added.policies,
      added.validUntil, rfl, genuine, isInstalled⟩
  together := by
    rw [stored]
    rfl
  announced := by
    intro _
    rw [stored]
    rfl

theorem RecoveryStep.intact (step : system.RecoveryStep ledger item world world')
    (before : system.RecoveryIntact world) : system.RecoveryIntact world' := by
  cases step with
  | kept keeps => exact before.kept keeps
  | announced _ keeps found _ _ =>
      have middle := before.kept keeps
      refine ⟨middle.enrolled, middle.together, ?_⟩
      intro _
      rw [middle.together, found]
      rfl
  | removed =>
      refine ⟨?_, rfl, ?_⟩
      · intro _ impossible
        cases impossible
      · intro impossible
        cases impossible
  | enrolled _ _ _ added stored installed => exact intact_of_added added stored installed

/-- A stored moment of removal was there before, or is announced by this very step. -/
theorem RecoveryStep.removalAt_cases (step : system.RecoveryStep ledger item world world')
    (intact : system.RecoveryIntact world) {executeAfter : UInt64}
    (stored : world'.account.recoveryRemovalAt = some executeAfter) :
    (world.account.recoveryRemovalAt = some executeAfter ∧
      world'.account.recoveryController = world.account.recoveryController) ∨
    (system.Calls item .initiateRecoveryRuleRemoval ∧
      executeAfter.toNat = ledger.timestamp.toNat + recoveryRemovalDelaySecs.toNat ∧
      ∃ controller, world'.account.recoveryController = some controller ∧
        system.NoLivePending controller ledger.timestamp world') := by
  cases step with
  | kept keeps =>
      left
      exact ⟨keeps.account.removalAt ▸ stored, keeps.account.controller⟩
  | announced called keeps found quiet delayed =>
      right
      cases stored
      exact ⟨called, delayed, _, found, quiet⟩
  | removed => cases stored
  | enrolled _ keeps absent _ after _ =>
      rw [after] at stored
      have present := (intact.kept keeps).announced (by rw [stored]; rfl)
      rw [absent] at present
      cases present

/-- A recovery rule stays, or is removed as announced. -/
theorem RecoveryStep.ruleId_cases (step : system.RecoveryStep ledger item world world')
    {ruleId : UInt32} (before : world.account.recoveryRuleId = some ruleId) :
    world'.account.recoveryRuleId = some ruleId ∨
    (world'.account.recoveryRuleId = none ∧ system.Calls item .executeRecoveryRuleRemoval ∧
      ∃ controller executeAfter, world.account.recoveryController = some controller ∧
        world.account.recoveryRemovalAt = some executeAfter ∧
        executeAfter ≤ ledger.timestamp ∧
        system.NoLivePending controller ledger.timestamp world') := by
  cases step with
  | kept keeps => exact Or.inl (keeps.account.ruleId.trans before)
  | announced _ keeps => exact Or.inl (keeps.account.ruleId.trans before)
  | removed called keeps announced elapsed found quiet =>
      right
      exact ⟨rfl, called, _, _, keeps.account.controller ▸ found,
        keeps.account.removalAt ▸ announced, elapsed, quiet⟩
  | enrolled _ keeps absent =>
      cases before.symm.trans (keeps.account.ruleId.symm.trans absent)

theorem installRecoveryRule_elsewhere (lawful : system.library.Lawful) {controller : Address}
    {ruleId : UInt32}
    (accepted : system.installRecoveryRule ledger controller world = .ok (ruleId, world')) :
    world'.account.recoveryRemovalAt = world.account.recoveryRemovalAt ∧
      ∀ other, (world'.controllers other).isSome = (world.controllers other).isSome := by
  obtain ⟨_, rules, _, after, _, installed, rfl⟩ := installRecoveryRule_eq_ok lawful accepted
  have reaches : system.Reaches ledger (fun _ => True) (world.withRules rules) after :=
    installPolicy_reaches (scripted_any _) installed
  refine ⟨?_, reaches.instances⟩
  change after.account.recoveryRemovalAt = _
  rw [reaches.account]
  rfl

/-- The constructor adds the default rule and, if it is given a controller, the
recovery rule. -/
theorem genesis_cases (lawful : system.library.Lawful) {genesis : Genesis} {start : system.State}
    (constructed : system.genesis genesis = .ok start) :
    ∃ middle,
      system.Keeps (system.undeployed genesis.controllers genesis.script) middle ∧
      ((genesis.recoveryController = none ∧ start = middle) ∨
        ∃ controller ruleId, genesis.recoveryController = some controller ∧
          system.installRecoveryRule genesis.ledger controller middle = .ok (ruleId, start)) := by
  simp only [System.genesis, construct, bind_eq_ok, Prod.exists] at constructed
  obtain ⟨_, middle, adds, constructed⟩ := constructed
  have evolves : system.Evolves genesis.ledger KeepsRecovery (fun _ => True)
      (system.undeployed genesis.controllers genesis.script) middle :=
    rawAddContextRule_evolves lawful (scripted_any _) adds
  refine ⟨middle, evolves.keeps, ?_⟩
  split at constructed
  · rename_i absent
    cases constructed
    exact Or.inl ⟨absent, rfl⟩
  · rename_i controller named
    simp only [bind_eq_ok, pure_eq_ok, Prod.exists] at constructed
    obtain ⟨ruleId, _, installs, rfl⟩ := constructed
    exact Or.inr ⟨controller, ruleId, named, installs⟩

theorem genesis_intact (lawful : system.library.Lawful) {genesis : Genesis} {start : system.State}
    (genuine : ∀ controller, genesis.recoveryController = some controller →
      (genesis.controllers controller).isSome = true)
    (constructed : system.genesis genesis = .ok start) : system.RecoveryIntact start := by
  obtain ⟨middle, keeps, ⟨_, rfl⟩ | ⟨controller, ruleId, named, installs⟩⟩ :=
    genesis_cases lawful constructed
  · apply RecoveryIntact.kept ?_ keeps
    refine ⟨?_, rfl, ?_⟩
    · intro _ impossible
      cases impossible
    · intro impossible
      cases impossible
  · have present : (middle.controllers controller).isSome = true := by
      rw [keeps.instances]
      exact genuine controller named
    obtain ⟨rule, rules, added, stored, installed⟩ :=
      installRecoveryRule_installs lawful present installs
    exact intact_of_added added stored installed

theorem genesis_instances (lawful : system.library.Lawful) {genesis : Genesis}
    {start : system.State} (constructed : system.genesis genesis = .ok start)
    (controller : Address) :
    (start.controllers controller).isSome = (genesis.controllers controller).isSome := by
  obtain ⟨middle, keeps, ⟨_, rfl⟩ | ⟨_, _, _, installs⟩⟩ := genesis_cases lawful constructed
  · exact keeps.instances controller
  · exact ((installRecoveryRule_elsewhere lawful installs).2 controller).trans
      (keeps.instances controller)

theorem genesis_unannounced (lawful : system.library.Lawful) {genesis : Genesis}
    {start : system.State} (constructed : system.genesis genesis = .ok start) :
    start.account.recoveryRemovalAt = none := by
  obtain ⟨middle, keeps, ⟨_, rfl⟩ | ⟨_, _, _, installs⟩⟩ := genesis_cases lawful constructed
  · exact keeps.account.removalAt
  · exact (installRecoveryRule_elsewhere lawful installs).1.trans keeps.account.removalAt

/-- No item makes or unmakes an instance. -/
theorem act_instances (lawful : system.library.Lawful)
    (accepted : system.act ledger item world = .ok world') (controller : Address) :
    (world'.controllers controller).isSome = (world.controllers controller).isSome := by
  have anything : ∀ selection, system.Selects (fun _ => True) world selection :=
    fun _ _ _ _ _ _ => trivial
  rcases act_cases lawful (scripted_any item.script) (fun _ _ selection _ => anything selection)
      (fun _ decoded _ _ => enters_any decoded) accepted with
    ⟨call, middle, _, _, reaches, performed⟩ | ⟨_, reaches⟩
  · have evolves : system.Evolves ledger (fun _ _ => True) (fun _ => True) middle world' :=
      perform_changes lawful (scripted_any _) (fun _ _ _ decoded _ _ _ => enters_any decoded)
        performed
    exact (evolves.instances controller).trans (reaches.instances controller)
  · exact reaches.instances controller

section Runs

variable {genesis : Genesis} {start : system.State} {run : List Step}

theorem instances_stateAt (lawful : system.library.Lawful)
    (constructed : system.genesis genesis = .ok start) (time : Nat) (controller : Address) :
    ((system.stateAt start run time).controllers controller).isSome =
      (genesis.controllers controller).isSome := by
  apply invariant (fun world => (world.controllers controller).isSome =
    (genesis.controllers controller).isSome) (genesis_instances lawful constructed controller)
  intro time step accepted before
  rw [act_instances lawful accepted.acts, before]

variable (system start run)

/-- The account has announced the removal of its rule, for that moment at the
earliest, while no recovery was in flight. -/
def AnnouncedAt (time : Nat) (controller : Address) (executeAfter : Nat) : Prop :=
  ∃ step, system.Accepts start run time step ∧
    system.Calls step.item .initiateRecoveryRuleRemoval ∧
    executeAfter = step.ledger.timestamp.toNat + 7 * 24 * 3600 ∧
    system.NoLivePending controller step.ledger.timestamp (system.stateAt start run (time + 1))

/-- Step number `time` removes the rule as announced, again while no recovery is
in flight. -/
def DulyRemoved (time : Nat) : Prop :=
  ∃ step controller announced executeAfter, system.Accepts start run time step ∧
    system.Calls step.item .executeRecoveryRuleRemoval ∧
    (system.stateAt start run time).account.recoveryController = some controller ∧
    announced < time ∧
    system.AnnouncedAt start run announced controller executeAfter ∧
    executeAfter ≤ step.ledger.timestamp.toNat ∧
    system.NoLivePending controller step.ledger.timestamp (system.stateAt start run (time + 1))

variable {system start run}

theorem recoveryStep_stateAt (lawful : system.library.Lawful)
    (constructed : system.genesis genesis = .ok start) (genuine : system.Genuine genesis run)
    {time : Nat} {step : Step} (accepted : system.Accepts start run time step)
    (intact : system.RecoveryIntact (system.stateAt start run time)) :
    system.RecoveryStep step.ledger step.item (system.stateAt start run time)
      (system.stateAt start run (time + 1)) := by
  refine act_recoveryStep lawful intact ?_ accepted.acts
  intro controller called
  rw [instances_stateAt lawful constructed]
  exact genuine.enrolled step (List.mem_of_getElem? accepted.input_at) controller called

theorem intact_stateAt (lawful : system.library.Lawful)
    (constructed : system.genesis genesis = .ok start) (genuine : system.Genuine genesis run)
    (time : Nat) : system.RecoveryIntact (system.stateAt start run time) := by
  apply invariant system.RecoveryIntact (genesis_intact lawful genuine.constructed constructed)
  intro time step accepted intact
  exact (recoveryStep_stateAt lawful constructed genuine accepted intact).intact intact

/-- A moment stored for the removal was announced, for the controller that is
stored beside it. -/
theorem announced_stateAt (lawful : system.library.Lawful)
    (constructed : system.genesis genesis = .ok start) (genuine : system.Genuine genesis run)
    (time : Nat) : ∀ executeAfter,
      (system.stateAt start run time).account.recoveryRemovalAt = some executeAfter →
      ∃ announced < time, ∃ controller,
        (system.stateAt start run time).account.recoveryController = some controller ∧
        system.AnnouncedAt start run announced controller executeAfter.toNat := by
  induction time with
  | zero =>
      intro executeAfter stored
      cases (genesis_unannounced lawful constructed).symm.trans stored
  | succ time ih =>
      intro executeAfter stored
      rcases Run.stateAt_succ_cases system.step start run time with unchanged | ⟨step, accepted⟩
      · have same : system.stateAt start run (time + 1) = system.stateAt start run time := unchanged
        rw [same] at stored ⊢
        obtain ⟨announced, earlier, controller, named, announces⟩ := ih executeAfter stored
        exact ⟨announced, Nat.lt_succ_of_lt earlier, controller, named, announces⟩
      · have intact := intact_stateAt lawful constructed genuine time
        have recovery := recoveryStep_stateAt lawful constructed genuine accepted intact
        rcases recovery.removalAt_cases intact stored with
          ⟨already, sameController⟩ | ⟨called, delayed, controller, named, quiet⟩
        · obtain ⟨announced, earlier, controller, named, announces⟩ := ih executeAfter already
          exact ⟨announced, Nat.lt_succ_of_lt earlier, controller, sameController.trans named,
            announces⟩
        · exact ⟨time, Nat.lt_succ_self time, controller, named, step, accepted, called, delayed,
            quiet⟩

/-- At every moment the recovery rule is intact, and it only ever goes by an
announced removal. -/
theorem recovery_rule_protected (system : System) (lawful : system.library.Lawful)
    (genesis : Genesis) (start : system.State) (run : List Step)
    (constructed : system.genesis genesis = .ok start) (genuine : system.Genuine genesis run)
    (time : Nat) :
    system.RecoveryIntact (system.stateAt start run time) ∧
      ∀ ruleId, (system.stateAt start run time).account.recoveryRuleId = some ruleId →
        (system.stateAt start run (time + 1)).account.recoveryRuleId = some ruleId ∨
          ((system.stateAt start run (time + 1)).account.recoveryRuleId = none ∧
            system.DulyRemoved start run time) := by
  have intact := intact_stateAt lawful constructed genuine time
  refine ⟨intact, ?_⟩
  intro ruleId before
  rcases Run.stateAt_succ_cases system.step start run time with unchanged | ⟨step, accepted⟩
  · have same : system.stateAt start run (time + 1) = system.stateAt start run time := unchanged
    rw [same]
    exact Or.inl before
  · have recovery := recoveryStep_stateAt lawful constructed genuine accepted intact
    rcases recovery.ruleId_cases before with
      kept | ⟨gone, called, controller, executeAfter, named, stored, elapsed, quiet⟩
    · exact Or.inl kept
    · obtain ⟨announced, earlier, other, named', announces⟩ :=
        announced_stateAt lawful constructed genuine time executeAfter stored
      cases named.symm.trans named'
      exact Or.inr ⟨gone, step, controller, announced, executeAfter.toNat, accepted, called, named,
        earlier, announces, UInt64.le_iff_toNat_le.mp elapsed, quiet⟩

end Runs

end System

/-- The account opts out of recovery: its rule goes seven days after the announcement. -/
theorem recovery_rule_protected_optingOut :
    Reference.start.account.recoveryRuleId = some 1 ∧
      Reference.system.DulyRemoved Reference.start Reference.optingOut 1 := by
  have installed : Reference.start.account.recoveryRuleId = some 1 := by decide +kernel
  have before : (Reference.system.stateAt Reference.start Reference.optingOut
      1).account.recoveryRuleId = some 1 := by
    decide +kernel
  have gone : (Reference.system.stateAt Reference.start Reference.optingOut
      2).account.recoveryRuleId = none := by
    decide +kernel
  have genuine : Reference.system.Genuine Reference.genesis Reference.optingOut := by
    constructor
    · intro controller named
      cases named
      decide +kernel
    · intro step member controller called
      rcases List.mem_cons.mp member with rfl | member
      · have other : some AccountCall.initiateRecoveryRuleRemoval =
            some (.enrollZkRecovery controller) := called.2
        cases other
      · cases List.mem_singleton.mp member
        have other : some AccountCall.executeRecoveryRuleRemoval =
            some (.enrollZkRecovery controller) := called.2
        cases other
  obtain ⟨_, goes⟩ := System.recovery_rule_protected Reference.system ruleBooks_lawful
    Reference.genesis Reference.start Reference.optingOut Reference.start_constructed genuine 1
  rcases goes 1 before with kept | ⟨_, duly⟩
  · cases gone.symm.trans kept
  · exact ⟨installed, duly⟩

end Nido.SmartAccount
