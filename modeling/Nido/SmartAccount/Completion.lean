/-
What a completed recovery leaves the account with.

The gate in `enforce` reads the signers and the policies of the call that the
account is about to run and leaves its scope and its expiry to whoever submits
it. And it reads what its caller says the call is: only when the caller is the
account's own authorization check does that call follow.
-/

import Nido.SmartAccount.Reference
import Nido.SmartAccount.Steps

namespace Nido.SmartAccount

open Contract
open ZkRecovery (Call Completed Outcome PendingRecovery RecoveryConfig RecoveryState
  checkCompletion completionFnName enforce expectedSigner selfCall)

/-- The gate admits only a call of `add_context_rule` with the proven key as the
only signer and without policies. -/
theorem checkCompletion_eq_ok {config : RecoveryConfig} {pending : PendingRecovery}
    {context : Context} {account : Address}
    (admitted : checkCompletion config pending context account = .ok ()) :
    ∃ args, context = .contract { contract := account, fnName := completionFnName, args } ∧
      args[3]? = some (.vec [(expectedSigner config pending).toScVal]) ∧
      args[4]? = some (.map []) := by
  simp only [checkCompletion, bind_eq_ok, require_eq_ok, orFail_eq_ok] at admitted
  obtain ⟨call, isSelf, _, named, _, _, fourth, signed, signers, isVec, fifth, attached, policies,
    isMap, _, noPolicies, expected⟩ := admitted
  cases context with
  | createContract => cases isSelf
  | contract made =>
      simp only [selfCall, bind_eq_ok, require_eq_ok, pure_eq_ok] at isSelf
      obtain ⟨_, here, rfl⟩ := isSelf
      have isSigners : fourth = .vec signers := by
        cases fourth <;> cases isVec
        rfl
      have isPolicies : fifth = .map policies := by
        cases fifth <;> cases isMap
        rfl
      refine ⟨made.args, ?_, ?_, ?_⟩
      · rw [← here, ← named]
      · rw [signed, isSigners, expected]
      · rw [attached, isPolicies, noPolicies]

theorem fromScVals_addContextRule {args : List ScVal} {call : AccountCall}
    (decodes : AccountCall.fromScVals completionFnName args = some call) :
    ∃ first second third fourth fifth contextType name validUntil signers policies,
      args = [first, second, third, fourth, fifth] ∧
      ContextRuleType.fromScVal first = some contextType ∧
      decodeOptionU32 third = some validUntil ∧
      decodeVec Signer.fromScVal fourth = some signers ∧
      decodeMap fifth = some policies ∧
      call = .addContextRule contextType name validUntil signers policies := by
  match args, decodes with
  | [first, second, third, fourth, fifth], decodes =>
      change (do
        pure (AccountCall.addContextRule (← ContextRuleType.fromScVal first) (← second.asString)
          (← decodeOptionU32 third) (← decodeVec Signer.fromScVal fourth) (← decodeMap fifth))) =
        some call at decodes
      simp only [Option.bind_eq_bind, Option.bind_eq_some_iff, Option.pure_def,
        Option.some.injEq] at decodes
      obtain ⟨contextType, scope, name, _, validUntil, expiry, signers, signed, policies, attached,
        rfl⟩ := decodes
      exact ⟨first, second, third, fourth, fifth, contextType, name, validUntil, signers, policies,
        rfl, scope, expiry, signed, attached, rfl⟩

theorem System.addContextRule_eq_ok {system : System} (lawful : system.library.Lawful)
    {ledger : Ledger} {world world' : system.State} {contextType : ContextRuleType} {name : String}
    {validUntil : Option UInt32} {signers : List Signer} {policies : List (Address × ScVal)}
    {rule : ContextRule}
    (accepted : system.addContextRule ledger contextType name validUntil signers policies world =
      .ok (rule, world')) :
    (∃ rules, system.library.Added world.account.rules contextType name validUntil signers
      (policies.map Prod.fst) rule rules) ∧
      (ledger.transaction, .ruleAdded rule) ∈ world'.effects := by
  simp only [System.addContextRule, System.rawAddContextRule, bind_eq_ok, pure_eq_ok, Prod.exists,
    Prod.mk.injEq] at accepted
  obtain ⟨_, _, ⟨added, rules, adds, _, _, rfl, rfl⟩, rfl, rfl⟩ := accepted
  exact ⟨⟨rules, lawful.added _ _ _ _ _ _ _ _ _ adds⟩,
    List.mem_append_right _ (List.mem_singleton_self _)⟩

/-- The rule that a completed recovery is specified to leave: the new key alone,
for every call and for ever. -/
structure CompletionShape (config : RecoveryConfig) (pending : PendingRecovery)
    (rule : ContextRule) : Prop where
  unscoped : rule.contextType = .default
  unlimited : rule.validUntil = none
  signers : rule.signers = [expectedSigner config pending]
  policies : rule.policies = []

/-- What `enforce` accepts with these arguments, and the rule that the account
then adds for them. -/
structure CompletedWith (system : System) (args : List ScVal) (config : RecoveryConfig)
    (pending : PendingRecovery) (rule : ContextRule) : Prop where
  accepted : ∃ env state signers contextRule state', state.config = config ∧
    state.pending system.self = some pending ∧
    enforce env state
      (.contract { contract := system.self, fnName := completionFnName, args }) signers contextRule
      system.self = .ok state'
  added : ∃ ledger contextType name validUntil signers policies world world',
    AccountCall.fromScVals completionFnName args =
      some (.addContextRule contextType name validUntil signers policies) ∧
    system.addContextRule ledger contextType name validUntil signers policies world =
      .ok (rule, world')

/-- The completion has the specified shape exactly when its submitter has left
the scope and the expiry alone. -/
theorem completion_shape_iff (system : System) (lawful : system.library.Lawful)
    (args : List ScVal) (config : RecoveryConfig) (pending : PendingRecovery) (rule : ContextRule)
    (completed : CompletedWith system args config pending rule) :
    CompletionShape config pending rule ↔
      args[0]? = some ContextRuleType.default.toScVal ∧ args[2]? = some .void := by
  obtain ⟨env, state, _, _, _, rfl, found, accepted⟩ := completed.accepted
  obtain ⟨ledger, contextType, name, validUntil, newSigners, policies, world, world', decodes,
    adds⟩ := completed.added
  obtain ⟨pending', enforced⟩ := ZkRecovery.enforce_eq_ok _ accepted
  cases found.symm.trans enforced.found
  obtain ⟨_, same, signersArg, policiesArg⟩ := checkCompletion_eq_ok enforced.gate
  cases same
  obtain ⟨first, second, third, fourth, fifth, _, _, _, _, _, rfl, scope, expiry, signed, attached,
    same⟩ := fromScVals_addContextRule decodes
  cases same
  obtain ⟨⟨rules, added⟩, _⟩ := System.addContextRule_eq_ok lawful adds
  have isSigners : fourth = .vec [(expectedSigner state.config pending).toScVal] :=
    Option.some.inj signersArg
  have isPolicies : fifth = .map [] := Option.some.inj policiesArg
  have proven : newSigners = [expectedSigner state.config pending] := by
    rw [isSigners, decodeVec, decodeItems, Signer.fromScVal_toScVal] at signed
    exact (Option.some.inj signed).symm
  have noPolicies : policies = [] := by
    rw [isPolicies] at attached
    exact (Option.some.inj attached).symm
  constructor
  · intro shape
    have isDefault : contextType = .default := added.contextType.symm.trans shape.unscoped
    have isNone : validUntil = none := added.validUntil.symm.trans shape.unlimited
    rw [isDefault, ContextRuleType.fromScVal_eq_default] at scope
    rw [isNone, decodeOptionU32_eq_none] at expiry
    exact ⟨congrArg some scope, congrArg some expiry⟩
  · intro left
    have isDefault : first = ContextRuleType.default.toScVal := Option.some.inj left.1
    have isVoid : third = .void := Option.some.inj left.2
    rw [isDefault, ContextRuleType.fromScVal_toScVal] at scope
    rw [isVoid] at expiry
    exact
      { unscoped := added.contextType.trans (Option.some.inj scope).symm
        unlimited := added.validUntil.trans (Option.some.inj expiry).symm
        signers := added.signers.trans proven
        policies := by rw [added.policies, noPolicies]; rfl }

namespace Reference

theorem fromScVals_completionArgs (contextType : ContextRuleType) (validUntil : Option UInt32) :
    AccountCall.fromScVals completionFnName (completionArgs contextType validUntil) =
      some (.addContextRule contextType "recovered" validUntil [recoverySigner] []) := by
  change (do
    pure (AccountCall.addContextRule (← ContextRuleType.fromScVal contextType.toScVal)
      (← some "recovered") (← decodeOptionU32 (encodeOptionU32 validUntil))
      (← decodeItems Signer.fromScVal [recoverySigner.toScVal]) (← some []))) = _
  rw [ContextRuleType.fromScVal_toScVal, decodeOptionU32_encode, decodeItems,
    Signer.fromScVal_toScVal]
  rfl

theorem completedWith (contextType : ContextRuleType) (validUntil : Option UInt32)
    (env : Env) (ledger : Ledger)
    (accepts : (enforce env initiated
      (.contract
        { contract := system.self
          fnName := completionFnName
          args := completionArgs contextType validUntil })
      [] recoveryRule system.self).toOption.isSome = true)
    (adds : (system.addContextRule ledger contextType "recovered" validUntil [recoverySigner] []
      start).toOption.isSome = true) :
    ∃ rule, CompletedWith system (completionArgs contextType validUntil) initiated.config inFlight
      rule ∧ rule.validUntil = validUntil := by
  obtain ⟨state', accepted⟩ := exists_of_isSome accepts
  obtain ⟨⟨rule, world'⟩, added⟩ := exists_of_isSome adds
  refine ⟨rule, ⟨?_, ?_⟩, ?_⟩
  · exact ⟨env, initiated, [], recoveryRule, state', rfl, initiated_pending, accepted⟩
  · exact ⟨ledger, contextType, "recovered", validUntil, [recoverySigner], [], start, world',
      fromScVals_completionArgs contextType validUntil, added⟩
  · obtain ⟨⟨_, stored⟩, _⟩ := System.addContextRule_eq_ok ruleBooks_lawful added
    exact stored.validUntil

def atDelay : Env where
  currentContract := controller
  timestamp := 1209800
  authorized := system.asInvoker

def thatLedger : Ledger where
  timestamp := 1209800
  sequence := 20
  transaction := 3

end Reference

/-- The arguments of the specification restore the account. -/
theorem completion_shape_iff_default :
    ∃ rule, CompletionShape Reference.initiated.config Reference.inFlight rule := by
  obtain ⟨rule, completed, _⟩ := Reference.completedWith .default none Reference.atDelay
    Reference.thatLedger (by decide +kernel) (by decide +kernel)
  exact ⟨rule, (completion_shape_iff Reference.system ruleBooks_lawful _ _ _ rule completed).mpr
    ⟨rfl, rfl⟩⟩

/-- Whoever submits the completion can let the new rule expire with the very
ledger that it is added in; the account runs it. -/
theorem completion_expires :
    (Reference.system.step
      (Reference.system.stateAt Reference.start (Reference.recovering Reference.enrolment) 2)
      (Reference.applied 1209800 3 (Reference.completion .default (some 20)))).isSome = true ∧
    ∃ rule,
      CompletedWith Reference.system (Reference.completionArgs .default (some 20))
        Reference.initiated.config Reference.inFlight rule ∧
      ¬ CompletionShape Reference.initiated.config Reference.inFlight rule := by
  obtain ⟨rule, completed, expires⟩ := Reference.completedWith .default (some 20)
    Reference.atDelay Reference.thatLedger (by decide +kernel) (by decide +kernel)
  refine ⟨by decide +kernel, rule, completed, ?_⟩
  intro shape
  cases expires.symm.trans shape.unlimited

/-! ### Atomicity -/

structure Consumes (account : Address) (before after : RecoveryState)
    (pending : PendingRecovery) : Prop where
  found : before.pending account = some pending
  removed : after.pending account = none
  spent : after.nullifier pending.nullifier = some .spent
  published : after.events = before.events ++ [.recoveryCompleted account pending.nullifier]

namespace System

variable (system : System)

/-- Whatever recovery has been consumed, the account has added a rule for the
proven key in the same transaction. -/
def CompletionsAtomic (world : system.State) : Prop :=
  ∀ transaction controller before after pending,
    (transaction, .controllerStep controller before after) ∈ world.effects →
    Consumes system.self before after pending →
    ∃ rule, (transaction, .ruleAdded rule) ∈ world.effects ∧
      rule.signers = [expectedSigner before.config pending]

def IsCompletion (context : Context) : Prop :=
  ∃ args, context = .contract { contract := system.self, fnName := completionFnName, args }

/-- `enforce` is entered for the account from its `__check_auth` alone, and a
rule with a controller among its policies is selected for a completion only if
that is the call an entry is rooted at. -/
structure EnforcesWhenChecked (world : system.State) (item : Item) : Prop where
  direct : item.target ≠ system.self → ∀ decoded,
    (world.controllers item.target).isSome = true →
    Call.fromScVals item.fnName item.args = some decoded →
    system.Enters (fun _ => False) decoded
  executed : ∀ call, system.Calls item call → system.ExecutesOnly (fun _ => False) world call
  foreign : system.Scripted (fun _ => False) item.script
  nested : ∀ entry, item.approval = .entry entry → ∀ selection ∈ entry.nested,
    system.Selects (fun context => ¬ system.IsCompletion context) world selection

variable {system} {ledger : Ledger} {item : Item} {world world' : system.State}
  {kind kind' : Context → Prop}

theorem Enters.mono {call : Call} (enters : system.Enters kind call)
    (weaker : ∀ context, kind context → kind' context) : system.Enters kind' call :=
  fun context signers rule made => weaker context (enters context signers rule made)

theorem Scripted.mono {script : List ForeignFrame} (scripted : system.Scripted kind script)
    (weaker : ∀ context, kind context → kind' context) : system.Scripted kind' script :=
  fun frame member made among => (scripted frame member made among).mono weaker

theorem Selects.mono {selection : Context × UInt32}
    (selects : system.Selects kind world selection)
    (weaker : ∀ context, kind context → kind' context) : system.Selects kind' world selection :=
  fun rule found policy among genuine =>
    weaker selection.1 (selects rule found policy among genuine)

theorem Logged.completes {transaction : Nat} {controller : Address}
    {before after : RecoveryState} {pending : PendingRecovery}
    (logged : system.Logged ledger kind (transaction, .controllerStep controller before after))
    (consumes : Consumes system.self before after pending) :
    transaction = ledger.transaction ∧
      ∃ args, kind (.contract { contract := system.self, fnName := completionFnName, args }) ∧
        args[3]? = some (.vec [(expectedSigner before.config pending).toScVal]) := by
  obtain ⟨_, _, call, _, _, enters, outcome, same⟩ := logged
  cases same
  obtain ⟨context, signers, contextRule, other, made, completed⟩ :=
    outcome.completes consumes.published
  cases consumes.found.symm.trans completed.found
  obtain ⟨args, isCompletion, signed, _⟩ := checkCompletion_eq_ok completed.gate
  have permitted := enters context signers contextRule made
  rw [isCompletion] at permitted
  exact ⟨rfl, args, permitted, signed⟩

theorem act_root {entry : AuthEntry} (approved : item.approval = .entry entry)
    (accepted : system.act ledger item world = .ok world') :
    entry.root.1 = .contract item.call := by
  unfold act at accepted
  split at accepted
  · simp only [callAccount, bind_eq_ok, approved] at accepted
    obtain ⟨_, _, _, authorized, _⟩ := accepted
    exact requireAuth_root authorized
  · simp only [callOther, approved, bind_eq_ok] at accepted
    obtain ⟨_, _, _, authorized, _⟩ := accepted
    exact requireAuth_root authorized

theorem perform_installs (lawful : system.library.Lawful) {authorized : Address → Bool}
    {call : AccountCall} {args : List ScVal} {signer : Signer}
    (decodes : AccountCall.fromScVals completionFnName args = some call)
    (signed : args[3]? = some (.vec [signer.toScVal]))
    (accepted : system.perform ledger authorized call world = .ok world') :
    ∃ rule, (ledger.transaction, .ruleAdded rule) ∈ world'.effects ∧ rule.signers = [signer] := by
  obtain ⟨first, second, third, fourth, fifth, contextType, name, validUntil, signers, policies,
    rfl, _, _, fourthDecodes, _, rfl⟩ := fromScVals_addContextRule decodes
  have isSigners : fourth = .vec [signer.toScVal] := Option.some.inj signed
  rw [isSigners, decodeVec, decodeItems, Signer.fromScVal_toScVal] at fourthDecodes
  simp only [perform, bind_eq_ok, pure_eq_ok, Prod.exists] at accepted
  obtain ⟨rule, _, adds, rfl⟩ := accepted
  obtain ⟨⟨_, added⟩, logged⟩ := addContextRule_eq_ok lawful adds
  exact ⟨rule, logged, added.signers.trans (Option.some.inj fourthDecodes).symm⟩

/-- New entries of the log that are no completions, or are answered in the log,
keep the completions atomic. -/
theorem CompletionsAtomic.extend {new : List (Nat × Effect)}
    (before : system.CompletionsAtomic world)
    (log : world'.effects = world.effects ++ new)
    (answered : ∀ transaction controller old after pending,
      (transaction, .controllerStep controller old after) ∈ new →
      Consumes system.self old after pending →
      ∃ rule, (transaction, .ruleAdded rule) ∈ world'.effects ∧
        rule.signers = [expectedSigner old.config pending]) :
    system.CompletionsAtomic world' := by
  intro transaction controller old after pending member consumes
  have among := member
  rw [log] at among
  rcases List.mem_append.mp among with earlier | later
  · obtain ⟨rule, logged, signers⟩ :=
      before transaction controller old after pending earlier consumes
    refine ⟨rule, ?_, signers⟩
    rw [log]
    exact List.mem_append_left _ logged
  · exact answered transaction controller old after pending later consumes

theorem act_atomic (lawful : system.library.Lawful)
    (enforces : system.EnforcesWhenChecked world item) (before : system.CompletionsAtomic world)
    (accepted : system.act ledger item world = .ok world') : system.CompletionsAtomic world' := by
  -- `enforce` is entered with the authorized call itself or with no completion at all
  let permitted : Context → Prop := fun context =>
    context = .contract item.call ∨ ¬ system.IsCompletion context
  have never : ∀ context, (fun _ => False : Context → Prop) context → permitted context :=
    fun _ impossible => impossible.elim
  have scripted : system.Scripted permitted item.script := enforces.foreign.mono never
  have selects : ∀ entry, item.approval = .entry entry →
      ∀ selection ∈ entry.root :: entry.nested, system.Selects permitted world selection := by
    intro entry approved selection member
    rcases List.mem_cons.mp member with rfl | member
    · intro _ _ _ _ _
      exact Or.inl (act_root approved accepted)
    · exact (enforces.nested entry approved selection member).mono (fun _ => Or.inr)
  have rooted : ∀ {args : List ScVal},
      permitted (.contract { contract := system.self, fnName := completionFnName, args }) →
      item.target = system.self ∧ item.fnName = completionFnName ∧ item.args = args := by
    intro args permits
    rcases permits with same | other
    · have sameCall := Context.contract.inj same
      rw [Item.call, ContractContext.mk.injEq] at sameCall
      exact ⟨sameCall.1.symm, sameCall.2.1.symm, sameCall.2.2.symm⟩
    · exact absurd ⟨args, rfl⟩ other
  rcases act_cases lawful scripted selects
      (fun elsewhere decoded genuine decodes =>
        (enforces.direct elsewhere decoded genuine decodes).mono never) accepted with
    ⟨call, middle, called, _, reaches, performed⟩ | ⟨elsewhere, reaches⟩
  · have executes : system.ExecutesOnly permitted middle call := by
      intro target targetFn targetArgs decoded made genuine decodes
      rw [reaches.instances] at genuine
      exact (enforces.executed call called target targetFn targetArgs decoded made genuine
        decodes).mono never
    have evolves : system.Evolves ledger (fun _ _ => True) permitted middle world' :=
      perform_changes lawful (reaches.scripted scripted) executes performed
    obtain ⟨checked, log, checkedLogged⟩ := reaches.effects
    obtain ⟨done, log', doneLogged⟩ := evolves.effects
    have whole : world'.effects = world.effects ++ (checked ++ done) := by
      rw [log', log, List.append_assoc]
    apply before.extend whole
    intro transaction controller old after pending member consumes
    have logged : system.Logged ledger permitted
        (transaction, .controllerStep controller old after) := by
      rcases List.mem_append.mp member with earlier | later
      · exact checkedLogged _ earlier
      · rcases doneLogged _ later with logged | ⟨rule, impossible⟩
        · exact logged
        · cases impossible
    obtain ⟨rfl, args, permits, signed⟩ := logged.completes consumes
    obtain ⟨_, named, sameArgs⟩ := rooted permits
    have decodes := called.2
    rw [named, sameArgs] at decodes
    exact perform_installs lawful decodes signed performed
  · obtain ⟨new, log, logged⟩ := reaches.effects
    apply before.extend log
    intro transaction controller old after pending member consumes
    obtain ⟨_, args, permits, _⟩ := (logged _ member).completes consumes
    exact absurd (rooted permits).1 elsewhere

/-- In a run that enters `enforce` for the account only from its authorization
check, no recovery is ever consumed without the key being installed. -/
theorem completions_atomic (system : System) (lawful : system.library.Lawful) (genesis : Genesis)
    (start : system.State) (run : List Step) (constructed : system.genesis genesis = .ok start)
    (constructs : system.Scripted (fun _ => False) genesis.script)
    (enforces : ∀ time step, system.Accepts start run time step →
      system.EnforcesWhenChecked (system.stateAt start run time) step.item)
    (time : Nat) : system.CompletionsAtomic (system.stateAt start run time) := by
  apply invariant system.CompletionsAtomic
  · have evolves : system.Evolves genesis.ledger (fun _ _ => True) (fun _ => False)
        (system.undeployed genesis.controllers genesis.script) start :=
      construct_changes lawful constructs constructed
    obtain ⟨new, log, logged⟩ := evolves.effects
    intro transaction controller before after pending member consumes
    rw [log] at member
    rcases logged _ member with made | ⟨rule, impossible⟩
    · obtain ⟨_, _, never, _⟩ := made.completes consumes
      exact never.elim
    · cases impossible
  · intro time step accepted before
    exact act_atomic lawful (enforces time step accepted) before accepted.acts

end System

namespace Reference

/-- A call that names another function, of a contract other than the account and
without further calls, does not enter `enforce`. -/
theorem enforcesWhenChecked_calling {target : Address} {fnName : String} {args : List ScVal}
    {approval : Approval} (world : system.State)
    (unnamed : target ≠ system.self → fnName ≠ "enforce")
    (unexecuted : target = system.self → fnName ≠ "execute")
    (alone : ∀ entry, approval = .entry entry → entry.nested = []) :
    system.EnforcesWhenChecked world (calling target fnName args approval) where
  direct := by
    intro elsewhere decoded _ decodes context signers contextRule made
    rw [made] at decodes
    exact unnamed elsewhere (ZkRecovery.Call.fromScVals_enforce decodes)
  executed := by
    intro call called executedTarget targetFn targetArgs decoded made
    obtain ⟨atSelf, decodes⟩ := called
    rw [made] at decodes
    exact absurd (AccountCall.fromScVals_execute decodes) (unexecuted atSelf)
  foreign := by
    intro frame impossible
    cases impossible
  nested := by
    intro entry approved selection member
    rw [alone entry approved] at member
    cases member

def consumed : Nat × Effect → Bool
  | (_, .controllerStep _ before after) =>
      decide (before.pending system.self = some inFlight ∧
        after.pending system.self = none ∧
        after.nullifier inFlight.nullifier = some .spent ∧
        after.events = before.events ++ [.recoveryCompleted system.self inFlight.nullifier])
  | (_, .ruleAdded _) => false

def addsRule : Nat × Effect → Bool
  | (_, .controllerStep _ _ _) => false
  | (_, .ruleAdded _) => true

end Reference

theorem completions_atomic_recovering :
    Reference.system.CompletionsAtomic (Reference.system.stateAt Reference.start
      (Reference.recovering (Reference.completion .default none)) 3) := by
  refine System.completions_atomic Reference.system ruleBooks_lawful Reference.genesis
    Reference.start _ Reference.start_constructed ?_ ?_ 3
  · intro frame impossible
    cases impossible
  · intro time step accepted
    have present := accepted.input_at
    have elsewhere : Reference.controller ≠ Reference.system.self := by decide
    match time, present with
    | 0, present =>
        cases present
        refine Reference.enforcesWhenChecked_calling _ (fun _ => by decide)
          (fun same => absurd same elsewhere) ?_
        intro entry approved
        cases approved
        rfl
    | 1, present =>
        cases present
        refine Reference.enforcesWhenChecked_calling _ (fun _ => by decide)
          (fun same => absurd same elsewhere) ?_
        intro entry approved
        cases approved
    | 2, present =>
        cases present
        refine Reference.enforcesWhenChecked_calling _ (fun other => absurd rfl other)
          (fun _ => by decide) ?_
        intro entry approved
        cases approved
        rfl

/-- The holder of the passkey consumes the recovery in flight with a forged
context, and no rule is added. -/
theorem recovery_consumed_unanswered :
    Reference.system.genesis Reference.genesis = .ok Reference.start ∧
      ¬ Reference.system.CompletionsAtomic (Reference.system.stateAt Reference.start
        (Reference.recovering Reference.forgery) 3) := by
  refine ⟨Reference.start_constructed, ?_⟩
  intro atomic
  have log : ((Reference.system.stateAt Reference.start
        (Reference.recovering Reference.forgery) 3).effects.any Reference.consumed = true) ∧
      ((Reference.system.stateAt Reference.start
        (Reference.recovering Reference.forgery) 3).effects.any Reference.addsRule = false) := by
    decide +kernel
  obtain ⟨consumes, unanswered⟩ := log
  obtain ⟨⟨transaction, effect⟩, logged, consumed⟩ := List.any_eq_true.mp consumes
  cases effect with
  | ruleAdded rule => cases consumed
  | controllerStep controller before after =>
      obtain ⟨found, removed, spent, published⟩ := of_decide_eq_true consumed
      obtain ⟨rule, added, _⟩ := atomic transaction controller before after Reference.inFlight
        logged ⟨found, removed, spent, published⟩
      have answered : (Reference.system.stateAt Reference.start
          (Reference.recovering Reference.forgery) 3).effects.any Reference.addsRule = true :=
        List.any_eq_true.mpr ⟨(transaction, .ruleAdded rule), added, rfl⟩
      rw [unanswered] at answered
      cases answered

end Nido.SmartAccount
