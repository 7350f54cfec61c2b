/-
The account among the contracts it calls, and how its authorization is checked.

A world is the account's storage, the instances of the recovery controller and
the log of what has been done. A contract that is not one of these is foreign:
whenever one is entered, the script says which calls of controllers it makes
and what it answers. Its own storage is of no concern here, and it cannot call
back into the account, which is on the call stack.
-/

import Nido.SmartAccount.Library
import Nido.ZkRecovery.Dispatch

namespace Nido.SmartAccount

open Contract
open ZkRecovery (RecoveryState Call Outcome ZkRecoveryInstallParams)

/-- What a step finds in its ledger: the closing time, the sequence number and
the number of the transaction being applied. -/
structure Ledger where
  timestamp : UInt64
  sequence : UInt32
  transaction : Nat

structure ForeignCall where
  controller : Address
  call : Call
  authorized : Address → Bool

structure ForeignFrame where
  calls : List ForeignCall
  answer : Bool

inductive Effect
  | controllerStep (controller : Address) (before after : RecoveryState)
  | ruleAdded (rule : ContextRule)

structure AccountState (library : RuleLibrary) where
  rules : library.Store
  recoveryRuleId : Option UInt32
  recoveryController : Option Address
  recoveryRemovalAt : Option UInt64

structure World (library : RuleLibrary) where
  account : AccountState library
  controllers : Address → Option RecoveryState
  /-- The further calls that a checked authorization entry covers. -/
  granted : List (Nat × ContractContext)
  effects : List (Nat × Effect)
  script : List ForeignFrame

structure System where
  host : Host
  library : RuleLibrary
  self : Address

/-- An authorization entry of the account: the call that is authorized and the
further calls inside it, each with the rule selected for it, and who has signed. -/
structure AuthEntry where
  root : Context × UInt32
  nested : List (Context × UInt32)
  signers : List Signer

def AuthEntry.grants (entry : AuthEntry) : List ContractContext :=
  entry.nested.filterMap (fun (context, _) =>
    match context with
    | .contract call => some call
    | .createContract => none)

/-- How a call that needs the account's authorization comes by it: not at all,
as one of the further calls of an entry that has been checked, or by an entry of
its own. -/
inductive Approval
  | absent
  | nested
  | entry (entry : AuthEntry)

structure Validated where
  context : Context
  rule : ContextRule
  authenticated : List Signer

namespace System

variable (system : System) (ledger : Ledger)

abbrev State := World system.library

/-- A contract on the call stack cannot be entered again. -/
def callController (busy : List Address) (authorized : Address → Bool) (controller : Address)
    (call : Call) (world : system.State) : Contract system.State := do
  require (controller ∉ busy) .trap
  let before ← orFail (world.controllers controller) .trap
  let env : Env := { currentContract := controller, timestamp := ledger.timestamp, authorized }
  let after ← ZkRecovery.invoke system.host env before call
  pure { world with
    controllers := Function.update world.controllers controller (some after)
    effects := world.effects ++ [(ledger.transaction, .controllerStep controller before after)] }

/-- A failing call that the caller catches leaves no trace. -/
def tryController (busy : List Address) (authorized : Address → Bool) (controller : Address)
    (call : Call) (world : system.State) : system.State :=
  (system.callController ledger busy authorized controller call world).toOption.getD world

def foreignCalls (busy : List Address) : List ForeignCall → system.State → system.State
  | [], world => world
  | made :: rest, world =>
      foreignCalls busy rest
        (system.tryController ledger busy made.authorized made.controller made.call world)

def foreign (busy : List Address) (world : system.State) : Bool × system.State :=
  match world.script with
  | [] => (false, world)
  | frame :: rest =>
      (frame.answer, system.foreignCalls ledger busy frame.calls { world with script := rest })

/-- A contract is authorized by the account when the account calls it. -/
def asInvoker (address : Address) : Bool := decide (address = system.self)

/-- `PolicyClient::install`, from within the account. -/
def installPolicy (rule : ContextRule) (policy : Address) (installParam : ScVal)
    (world : system.State) : Contract system.State := do
  require (policy ≠ system.self) .trap
  match world.controllers policy with
  | none => pure (system.foreign ledger [] world).2
  | some _ => do
      let params ← orFail (ZkRecoveryInstallParams.fromScVal installParam) .trap
      system.callController ledger [] system.asInvoker policy (.install params rule system.self)
        world

/-- The policies of a new rule learn of it inside the call that adds it, so that the controller's
`install` fires within the account's construction or its enrolment (`policy.rs`, on `install`). -/
def installPolicies (rule : ContextRule) :
    List (Address × ScVal) → system.State → Contract system.State
  | [], world => pure world
  | (policy, installParam) :: rest, world => do
      let world ← system.installPolicy ledger rule policy installParam world
      installPolicies rule rest world

/-- `PolicyClient::try_uninstall`: a failure is swallowed, as `zk_recovery_neuter.rs` checks with
the controller, whose `uninstall` always fails. -/
def uninstallPolicy (rule : ContextRule) (policy : Address) (world : system.State) :
    system.State :=
  if policy = system.self then world
  else
    match world.controllers policy with
    | none => (system.foreign ledger [] world).2
    | some _ =>
        system.tryController ledger [] system.asInvoker policy (.uninstall rule system.self) world

/-- The library does this before it deletes the rule (`policy.rs`, on `uninstall`). No policy can
tell, as one that calls back into the account is stopped, and here the rule is gone already. -/
def uninstallPolicies (rule : ContextRule) : List Address → system.State → system.State
  | [], world => world
  | policy :: rest, world =>
      uninstallPolicies rule rest (system.uninstallPolicy ledger rule policy world)

/-- `PolicyClient::enforce`, from within `__check_auth`. -/
def enforcePolicy (busy : List Address) (validated : Validated) (policy : Address)
    (world : system.State) : Contract system.State := do
  require (policy ≠ system.self) .trap
  match world.controllers policy with
  | none => pure (system.foreign ledger busy world).2
  | some _ =>
      system.callController ledger busy system.asInvoker policy
        (.enforce validated.context validated.authenticated validated.rule system.self) world

def enforcePolicies (busy : List Address) (validated : Validated) :
    List Address → system.State → Contract system.State
  | [], world => pure world
  | policy :: rest, world => do
      let world ← system.enforcePolicy ledger busy validated policy world
      enforcePolicies busy validated rest world

def enforceAll (busy : List Address) : List Validated → system.State → Contract system.State
  | [], world => pure world
  | validated :: rest, world => do
      let world ← system.enforcePolicies ledger busy validated validated.rule.policies world
      enforceAll busy rest world

def validateAll (rules : system.library.Store) (signers : List Signer) :
    List (Context × UInt32) → Contract (List Validated)
  | [] => pure []
  | (context, ruleId) :: rest => do
      let (rule, authenticated) ←
        system.library.validatedContext ledger.sequence rules context signers ruleId
      let others ← validateAll rules signers rest
      pure ({ context, rule, authenticated } :: others)

/-- `__check_auth`: every context is validated against the rule selected for it,
then every policy of each of these rules has to agree. The library's `do_check_auth`
is read like this in `zk_completion_spike.rs`: the signers are authenticated, and then
`enforce` is called for every policy on every validated rule. `contract.rs` relies on
it where it refuses further policies on the recovery rule. -/
def checkAuth (busy : List Address) (entry : AuthEntry) (world : system.State) :
    Contract system.State := do
  let validated ←
    system.validateAll ledger world.account.rules entry.signers (entry.root :: entry.nested)
  let world ← system.enforceAll ledger busy validated world
  pure { world with
    granted := world.granted ++ entry.grants.map (fun call => (ledger.transaction, call)) }

def requireAuth (busy : List Address) (approval : Approval) (call : ContractContext)
    (world : system.State) : Contract system.State :=
  match approval with
  | .absent => .error .unauthorized
  | .nested => do
      require ((ledger.transaction, call) ∈ world.granted) .unauthorized
      pure { world with granted := world.granted.erase (ledger.transaction, call) }
  | .entry entry => do
      require (entry.root.1 = .contract call) .unauthorized
      system.checkAuth ledger busy entry world

/-- The call does not enter `enforce` for the account, or only with a context
of the given kind. -/
def Enters (kind : Context → Prop) (call : Call) : Prop :=
  ∀ context signers rule, call = .enforce context signers rule system.self → kind context

/-- The world is left by calls of controllers and by foreign frames alone. -/
inductive Reaches (kind : Context → Prop) : system.State → system.State → Prop
  | refl (world : system.State) : Reaches kind world world
  | popped {world world' : system.State} {frame : ForeignFrame} {rest : List ForeignFrame}
      (before : Reaches kind world world') (top : world'.script = frame :: rest) :
      Reaches kind world { world' with script := rest }
  | granted {world world' : system.State} {granted : List (Nat × ContractContext)}
      (before : Reaches kind world world') : Reaches kind world { world' with granted }
  | called {world world' world'' : system.State} {busy : List Address}
      {authorized : Address → Bool} {controller : Address} {call : Call}
      (before : Reaches kind world world')
      (accepted : system.callController ledger busy authorized controller call world' = .ok world'')
      (enters : system.Enters kind call) : Reaches kind world world''

/-- Whatever foreign contract is entered enters `enforce` only that way. -/
def Scripted (kind : Context → Prop) (script : List ForeignFrame) : Prop :=
  ∀ frame ∈ script, ∀ made ∈ frame.calls, system.Enters kind made.call

/-- An accepted call of a controller, as the log records it. -/
def Logged (kind : Context → Prop) (entry : Nat × Effect) :
    Prop :=
  ∃ controller authorized call before after, system.Enters kind call ∧
    Outcome system.host ⟨controller, ledger.timestamp, authorized⟩ before call after ∧
    entry = (ledger.transaction, .controllerStep controller before after)

variable {system ledger} {kind : Context → Prop} {world world' world'' : system.State}

theorem Reaches.trans (first : system.Reaches ledger kind world world')
    (second : system.Reaches ledger kind world' world'') :
    system.Reaches ledger kind world world'' := by
  induction second with
  | refl => exact first
  | popped _ top ih => exact .popped ih top
  | granted _ ih => exact .granted ih
  | called _ accepted enters ih => exact .called ih accepted enters

theorem callController_eq_ok {busy : List Address} {authorized : Address → Bool}
    {controller : Address} {call : Call}
    (accepted : system.callController ledger busy authorized controller call world = .ok world') :
    ∃ before after, world.controllers controller = some before ∧
      Outcome system.host ⟨controller, ledger.timestamp, authorized⟩ before call after ∧
      world' = { world with
        controllers := Function.update world.controllers controller (some after)
        effects := world.effects ++
          [(ledger.transaction, .controllerStep controller before after)] } := by
  simp only [callController, bind_eq_ok, pure_eq_ok, require_eq_ok, orFail_eq_ok] at accepted
  obtain ⟨_, _, before, found, after, invoked, rfl⟩ := accepted
  exact ⟨before, after, found, ZkRecovery.invoke_outcome invoked, rfl⟩

theorem Reaches.account (reaches : system.Reaches ledger kind world world') :
    world'.account = world.account := by
  induction reaches with
  | refl => rfl
  | popped _ _ ih => exact ih
  | granted _ ih => exact ih
  | called _ accepted _ ih =>
      obtain ⟨_, _, _, _, rfl⟩ := callController_eq_ok accepted
      exact ih

theorem Reaches.script (reaches : system.Reaches ledger kind world world') :
    world'.script <:+ world.script := by
  induction reaches with
  | refl => exact List.suffix_refl _
  | popped _ top ih =>
      rw [top] at ih
      exact (List.suffix_cons _ _).trans ih
  | granted _ ih => exact ih
  | called _ accepted _ ih =>
      obtain ⟨_, _, _, _, rfl⟩ := callController_eq_ok accepted
      exact ih

theorem Reaches.scripted (reaches : system.Reaches ledger kind world world')
    (scripted : system.Scripted kind world.script) : system.Scripted kind world'.script := by
  intro frame member
  exact scripted frame (reaches.script.subset member)

theorem Reaches.installed {controller account : Address} {ruleId : UInt32}
    (reaches : system.Reaches ledger kind world world')
    (before : ∃ state, world.controllers controller = some state ∧
      state.installed account = some ruleId) :
    ∃ state, world'.controllers controller = some state ∧
      state.installed account = some ruleId := by
  induction reaches with
  | refl => exact before
  | popped _ _ ih => exact ih
  | granted _ ih => exact ih
  | @called _ _ _ _ called _ _ accepted _ ih =>
      obtain ⟨state, after, found, outcome, rfl⟩ := callController_eq_ok accepted
      obtain ⟨old, present, installed⟩ := ih
      by_cases same : controller = called
      · subst controller
        cases present.symm.trans found
        exact ⟨after, Function.update_self .., outcome.installed installed⟩
      · exact ⟨old, (Function.update_of_ne same ..).trans present, installed⟩

theorem Reaches.instances (reaches : system.Reaches ledger kind world world')
    (controller : Address) :
    (world'.controllers controller).isSome = (world.controllers controller).isSome := by
  induction reaches with
  | refl => rfl
  | popped _ _ ih => exact ih
  | granted _ ih => exact ih
  | @called _ _ _ _ called _ _ accepted _ ih =>
      obtain ⟨state, after, found, _, rfl⟩ := callController_eq_ok accepted
      rw [← ih]
      by_cases same : controller = called
      · subst controller
        simp only [Function.update_self, found, Option.isSome_some]
      · simp only [Function.update_of_ne same]

theorem Reaches.effects (reaches : system.Reaches ledger kind world world') :
    ∃ new, world'.effects = world.effects ++ new ∧ ∀ entry ∈ new, system.Logged ledger kind entry := by
  induction reaches with
  | refl => exact ⟨[], (List.append_nil _).symm, fun _ impossible => by cases impossible⟩
  | popped _ _ ih => exact ih
  | granted _ ih => exact ih
  | @called _ _ _ _ controller call _ accepted enters ih =>
      obtain ⟨before, after, _, outcome, rfl⟩ := callController_eq_ok accepted
      obtain ⟨new, log, logged⟩ := ih
      refine ⟨new ++ [(ledger.transaction, .controllerStep controller before after)], ?_, ?_⟩
      · rw [← List.append_assoc, ← log]
      · intro entry member
        rcases List.mem_append.mp member with earlier | last
        · exact logged entry earlier
        · rw [List.mem_singleton.mp last]
          exact ⟨controller, _, call, before, after, enters, outcome, rfl⟩

section Frames

variable {busy : List Address}

theorem tryController_reaches {authorized : Address → Bool} {controller : Address} {call : Call}
    (enters : system.Enters kind call) (world : system.State) :
    system.Reaches ledger kind world
      (system.tryController ledger busy authorized controller call world) := by
  unfold tryController
  cases called : system.callController ledger busy authorized controller call world with
  | error failure => exact .refl world
  | ok after => exact .called (.refl world) called enters

theorem foreignCalls_reaches (calls : List ForeignCall) (world : system.State)
    (scripted : ∀ made ∈ calls, system.Enters kind made.call) :
    system.Reaches ledger kind world (system.foreignCalls ledger busy calls world) := by
  induction calls generalizing world with
  | nil => exact .refl world
  | cons made rest ih =>
      have first : system.Reaches ledger kind world
          (system.tryController ledger busy made.authorized made.controller made.call world) :=
        tryController_reaches (scripted made (List.mem_cons_self ..)) world
      exact first.trans (ih _ (fun other member => scripted other (List.mem_cons_of_mem _ member)))

theorem foreign_reaches (scripted : system.Scripted kind world.script) :
    system.Reaches ledger kind world (system.foreign ledger busy world).2 := by
  unfold foreign
  cases top : world.script with
  | nil => exact .refl world
  | cons frame rest =>
      have member : frame ∈ world.script := by
        rw [top]
        exact List.mem_cons_self ..
      exact (Reaches.popped (.refl world) top).trans
        (foreignCalls_reaches frame.calls _ (scripted frame member))

theorem installPolicy_reaches {rule : ContextRule} {policy : Address} {installParam : ScVal}
    (scripted : system.Scripted kind world.script)
    (accepted : system.installPolicy ledger rule policy installParam world = .ok world') :
    system.Reaches ledger kind world world' := by
  simp only [installPolicy, bind_eq_ok, require_eq_ok] at accepted
  obtain ⟨_, _, accepted⟩ := accepted
  split at accepted
  · cases accepted
    exact foreign_reaches scripted
  · simp only [bind_eq_ok, orFail_eq_ok] at accepted
    obtain ⟨params, _, called⟩ := accepted
    exact .called (.refl world) called (fun _ _ _ impossible => by cases impossible)

theorem installPolicies_reaches {rule : ContextRule} {policies : List (Address × ScVal)}
    (scripted : system.Scripted kind world.script)
    (accepted : system.installPolicies ledger rule policies world = .ok world') :
    system.Reaches ledger kind world world' := by
  induction policies generalizing world with
  | nil =>
      cases accepted
      exact .refl _
  | cons entry rest ih =>
      obtain ⟨middle, first, others⟩ := bind_eq_ok.mp accepted
      have reaches := installPolicy_reaches scripted first
      exact reaches.trans (ih (reaches.scripted scripted) others)

theorem uninstallPolicy_reaches {rule : ContextRule} {policy : Address}
    (scripted : system.Scripted kind world.script) :
    system.Reaches ledger kind world (system.uninstallPolicy ledger rule policy world) := by
  unfold uninstallPolicy
  split
  · exact .refl world
  · split
    · exact foreign_reaches scripted
    · exact tryController_reaches (fun _ _ _ impossible => by cases impossible) world

theorem uninstallPolicies_reaches {rule : ContextRule} {policies : List Address}
    (scripted : system.Scripted kind world.script) :
    system.Reaches ledger kind world (system.uninstallPolicies ledger rule policies world) := by
  induction policies generalizing world with
  | nil => exact .refl world
  | cons policy rest ih =>
      have reaches : system.Reaches ledger kind world
          (system.uninstallPolicy ledger rule policy world) := uninstallPolicy_reaches scripted
      exact reaches.trans (ih (reaches.scripted scripted))

theorem enforcePolicy_reaches {validated : Validated} {policy : Address}
    (scripted : system.Scripted kind world.script)
    (permits : (world.controllers policy).isSome = true → kind validated.context)
    (accepted : system.enforcePolicy ledger busy validated policy world = .ok world') :
    system.Reaches ledger kind world world' := by
  simp only [enforcePolicy, bind_eq_ok, require_eq_ok] at accepted
  obtain ⟨_, _, accepted⟩ := accepted
  split at accepted
  · cases accepted
    exact foreign_reaches scripted
  · rename_i found
    refine .called (.refl world) accepted ?_
    intro context signers rule same
    cases same
    apply permits
    rw [found]
    rfl

theorem enforcePolicies_reaches {validated : Validated} {policies : List Address}
    (scripted : system.Scripted kind world.script)
    (permits : ∀ policy ∈ policies, (world.controllers policy).isSome = true →
      kind validated.context)
    (accepted : system.enforcePolicies ledger busy validated policies world = .ok world') :
    system.Reaches ledger kind world world' := by
  induction policies generalizing world with
  | nil =>
      cases accepted
      exact .refl _
  | cons policy rest ih =>
      obtain ⟨middle, first, others⟩ := bind_eq_ok.mp accepted
      have reaches := enforcePolicy_reaches scripted (permits policy (List.mem_cons_self ..)) first
      refine reaches.trans (ih (reaches.scripted scripted) ?_ others)
      intro other member
      rw [reaches.instances other]
      exact permits other (List.mem_cons_of_mem _ member)

theorem enforceAll_reaches {validated : List Validated}
    (scripted : system.Scripted kind world.script)
    (permits : ∀ each ∈ validated, ∀ policy ∈ each.rule.policies,
      (world.controllers policy).isSome = true → kind each.context)
    (accepted : system.enforceAll ledger busy validated world = .ok world') :
    system.Reaches ledger kind world world' := by
  induction validated generalizing world with
  | nil =>
      cases accepted
      exact .refl _
  | cons each rest ih =>
      obtain ⟨middle, first, others⟩ := bind_eq_ok.mp accepted
      have reaches := enforcePolicies_reaches scripted (permits each (List.mem_cons_self ..)) first
      refine reaches.trans (ih (reaches.scripted scripted) ?_ others)
      intro other member policy
      rw [reaches.instances policy]
      exact permits other (List.mem_cons_of_mem _ member) policy

theorem validateAll_eq_ok {rules : system.library.Store} {signers : List Signer}
    {selections : List (Context × UInt32)} {validated : List Validated}
    (accepted : system.validateAll ledger rules signers selections = .ok validated) :
    ∀ each ∈ validated, ∃ ruleId, (each.context, ruleId) ∈ selections ∧
      system.library.validatedContext ledger.sequence rules each.context signers ruleId =
        .ok (each.rule, each.authenticated) := by
  induction selections generalizing validated with
  | nil =>
      cases accepted
      exact fun _ impossible => by cases impossible
  | cons selection rest ih =>
      obtain ⟨context, ruleId⟩ := selection
      simp only [validateAll, bind_eq_ok, pure_eq_ok, Prod.exists] at accepted
      obtain ⟨rule, authenticated, found, others, tail, rfl⟩ := accepted
      intro each member
      rcases List.mem_cons.mp member with rfl | member
      · exact ⟨ruleId, List.mem_cons_self .., found⟩
      · obtain ⟨other, among, foundOther⟩ := ih tail each member
        exact ⟨other, List.mem_cons_of_mem _ among, foundOther⟩

def Selects (system : System) (kind : Context → Prop) (world : system.State)
    (selection : Context × UInt32) : Prop :=
  ∀ rule, system.library.getContextRule world.account.rules selection.2 = some rule →
    ∀ policy ∈ rule.policies, (world.controllers policy).isSome = true → kind selection.1

theorem checkAuth_reaches (lawful : system.library.Lawful) {entry : AuthEntry}
    (scripted : system.Scripted kind world.script)
    (selects : ∀ selection ∈ entry.root :: entry.nested, system.Selects kind world selection)
    (accepted : system.checkAuth ledger busy entry world = .ok world') :
    system.Reaches ledger kind world world' := by
  simp only [checkAuth, bind_eq_ok, pure_eq_ok] at accepted
  obtain ⟨validated, valid, middle, enforced, rfl⟩ := accepted
  apply Reaches.granted
  apply enforceAll_reaches scripted ?_ enforced
  intro each member
  obtain ⟨ruleId, among, found⟩ := validateAll_eq_ok valid each member
  exact selects _ among each.rule (lawful.validated _ _ _ _ _ _ _ found)

theorem requireAuth_reaches (lawful : system.library.Lawful) {approval : Approval}
    {call : ContractContext} (scripted : system.Scripted kind world.script)
    (selects : ∀ entry, approval = .entry entry → ∀ selection ∈ entry.root :: entry.nested,
      system.Selects kind world selection)
    (accepted : system.requireAuth ledger busy approval call world = .ok world') :
    system.Reaches ledger kind world world' := by
  unfold requireAuth at accepted
  cases approval with
  | absent => cases accepted
  | nested =>
      simp only [bind_eq_ok, pure_eq_ok] at accepted
      obtain ⟨_, _, rfl⟩ := accepted
      exact .granted (.refl world)
  | entry entry =>
      obtain ⟨_, _, checked⟩ := bind_eq_ok.mp accepted
      exact checkAuth_reaches lawful scripted (selects entry rfl) checked

theorem requireAuth_root {entry : AuthEntry} {call : ContractContext}
    (accepted : system.requireAuth ledger busy (.entry entry) call world = .ok world') :
    entry.root.1 = .contract call := by
  obtain ⟨_, same, _⟩ := bind_eq_ok.mp accepted
  exact (require_eq_ok _ _ _).mp same

end Frames

end System

end Nido.SmartAccount
