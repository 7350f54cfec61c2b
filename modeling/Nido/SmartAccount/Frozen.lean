/-
While a recovery is in flight the account only grows.

Every entry point that takes something away, or changes what an existing rule
admits, first asks the stored controller whether a recovery is pending. So as
long as the answer is yes, rules are added, signers are added and rules are
renamed, and nothing else happens to the account.
-/

import Nido.SmartAccount.Liveness
import Nido.SmartAccount.RecoveryRule

namespace Nido.SmartAccount

open Contract
open ZkRecovery (RecoveryState Call hasPending)

/-- A rule that may have been renamed and may have gained signers. -/
structure Grown (rule rule' : ContextRule) : Prop where
  same : rule' = { rule with
    name := rule'.name
    signers := rule'.signers
    signerIds := rule'.signerIds }
  signers : rule.signers ⊆ rule'.signers
  signerIds : rule.signerIds ⊆ rule'.signerIds

theorem Grown.refl (rule : ContextRule) : Grown rule rule :=
  ⟨rfl, List.Subset.refl _, List.Subset.refl _⟩

theorem Grown.trans {rule rule' rule'' : ContextRule} (first : Grown rule rule')
    (second : Grown rule' rule'') : Grown rule rule'' where
  same := by
    have later := second.same
    rw [first.same] at later
    exact later
  signers := List.Subset.trans first.signers second.signers
  signerIds := List.Subset.trans first.signerIds second.signerIds

namespace RuleLibrary

variable (library : RuleLibrary)

def Keeps (store store' : library.Store) : Prop :=
  ∀ id rule, library.getContextRule store id = some rule →
    ∃ rule', library.getContextRule store' id = some rule' ∧ Grown rule rule'

/-- What the two operations that edit a rule in place do to it. -/
structure Edits : Prop where
  renamed : ∀ store id name rule store',
    library.updateContextRuleName store id name = .ok (rule, store') →
    ∀ old, library.getContextRule store id = some old →
      library.getContextRule store' id = some { old with name := name }
  signerAdded : ∀ store id signer signerId store',
    library.addSigner store id signer = .ok (signerId, store') →
    ∀ old, library.getContextRule store id = some old →
      library.getContextRule store' id = some { old with
        signers := old.signers ++ [signer]
        signerIds := old.signerIds ++ [signerId] }

variable {library}

theorem Keeps.refl (store : library.Store) : library.Keeps store store :=
  fun _ rule found => ⟨rule, found, Grown.refl rule⟩

theorem Keeps.trans {store store' store'' : library.Store} (first : library.Keeps store store')
    (second : library.Keeps store' store'') : library.Keeps store store'' := by
  intro id rule found
  obtain ⟨middle, foundMiddle, grown⟩ := first id rule found
  obtain ⟨last, foundLast, grown'⟩ := second id middle foundMiddle
  exact ⟨last, foundLast, grown.trans grown'⟩

theorem OnlyAt.keeps {id : UInt32} {store store' : library.Store}
    (only : library.OnlyAt id store store')
    (named : ∀ rule, library.getContextRule store id = some rule →
      ∃ rule', library.getContextRule store' id = some rule' ∧ Grown rule rule') :
    library.Keeps store store' := by
  intro other rule found
  by_cases same : other = id
  · subst other
    exact named rule found
  · exact ⟨rule, (only other same).trans found, Grown.refl rule⟩

theorem Added.keeps {store store' : library.Store} {contextType : ContextRuleType} {name : String}
    {validUntil : Option UInt32} {signers : List Signer} {policies : List Address}
    {rule : ContextRule}
    (added : library.Added store contextType name validUntil signers policies rule store') :
    library.Keeps store store' := by
  apply added.others.keeps
  intro old found
  cases added.fresh.symm.trans found

end RuleLibrary

/-- The recovery keys are untouched, and the rules have at most grown. -/
structure OnlyGrows {library : RuleLibrary} (account account' : AccountState library) : Prop where
  ruleId : account'.recoveryRuleId = account.recoveryRuleId
  controller : account'.recoveryController = account.recoveryController
  removalAt : account'.recoveryRemovalAt = account.recoveryRemovalAt
  rules : library.Keeps account.rules account'.rules

theorem OnlyGrows.refl {library : RuleLibrary} (account : AccountState library) :
    OnlyGrows account account :=
  ⟨rfl, rfl, rfl, RuleLibrary.Keeps.refl _⟩

theorem OnlyGrows.trans {library : RuleLibrary} {account account' account'' : AccountState library}
    (first : OnlyGrows account account') (second : OnlyGrows account' account'') :
    OnlyGrows account account'' where
  ruleId := second.ruleId.trans first.ruleId
  controller := second.controller.trans first.controller
  removalAt := second.removalAt.trans first.removalAt
  rules := first.rules.trans second.rules

namespace System

variable {system : System} {ledger : Ledger} {kind : Context → Prop}
  {world world' : system.State} {controller : Address} {state : RecoveryState}

theorem Evolves.onlyGrows (evolves : system.Evolves ledger OnlyGrows kind world world') :
    OnlyGrows world.account world'.account := by
  induction evolves with
  | refl => exact .refl _
  | reached _ reaches ih =>
      rw [reaches.account]
      exact ih
  | stored _ changes ih => exact ih.trans changes
  | logged _ ih => exact ih

theorem Evolves.keepsRules {rules : system.library.Store}
    (keeps : system.library.Keeps world.account.rules rules) :
    system.Evolves ledger OnlyGrows kind world (world.withRules rules) :=
  .stored (.refl world) ⟨rfl, rfl, rfl, keeps⟩

/-! ### The guard -/

/-- The controller reports a pending recovery of the account. -/
def Live (system : System) (ledger : Ledger) (state : RecoveryState) : Prop :=
  ∀ env : Env, env.timestamp = ledger.timestamp → hasPending env state system.self = true

structure Pending (system : System) (ledger : Ledger) (world : system.State)
    (controller : Address) (state : RecoveryState) : Prop where
  stored : world.account.recoveryController = some controller
  genuine : world.controllers controller = some state
  live : system.Live ledger state

theorem guardLivePending_blocked (genuine : world.controllers controller = some state)
    (live : system.Live ledger state) :
    system.guardLivePending ledger controller world ≠ .ok world' := by
  intro passed
  simp only [guardLivePending, hasLivePending, genuine, bind_eq_ok, pure_eq_ok, require_eq_ok,
    Prod.exists, Prod.mk.injEq] at passed
  obtain ⟨_, _, ⟨_, _, rfl, _⟩, _, dead, _⟩ := passed
  rw [live _ rfl] at dead
  cases dead

theorem Pending.blocks (pending : system.Pending ledger world controller state)
    {edit : system.State → Contract system.State} :
    system.guardNoPending ledger world >>= edit ≠ .ok world' := by
  intro accepted
  obtain ⟨middle, passed, _⟩ := bind_eq_ok.mp accepted
  unfold guardNoPending at passed
  rw [pending.stored] at passed
  exact guardLivePending_blocked pending.genuine pending.live passed

section EntryPoints

variable (lawful : system.library.Lawful) (edits : system.library.Edits)

include lawful

theorem rawAddContextRule_onlyGrows {contextType : ContextRuleType} {name : String}
    {validUntil : Option UInt32} {signers : List Signer} {policies : List (Address × ScVal)}
    {rule : ContextRule} (scripted : system.Scripted kind world.script)
    (accepted : system.rawAddContextRule ledger contextType name validUntil signers policies world =
      .ok (rule, world')) :
    system.Evolves ledger OnlyGrows kind world world' := by
  simp only [rawAddContextRule, bind_eq_ok, pure_eq_ok, Prod.exists, Prod.mk.injEq] at accepted
  obtain ⟨_, rules, adds, _, installs, rfl, rfl⟩ := accepted
  have added := lawful.added _ _ _ _ _ _ _ _ _ adds
  have stored : system.Evolves ledger OnlyGrows kind world (world.withRules rules) :=
    .keepsRules added.keeps
  exact stored.reached (installPolicies_reaches (stored.scripted scripted) installs)

include edits

/-- With a recovery pending, and the recovery rule on record, an accepted entry
point is one that only adds or renames. -/
theorem perform_onlyGrows {authorized : Address → Bool} {call : AccountCall}
    (pending : system.Pending ledger world controller state)
    (enrolled : world.account.recoveryRuleId.isSome = true)
    (accepted : system.perform ledger authorized call world = .ok world') :
    system.Evolves ledger OnlyGrows (fun _ => True) world world' := by
  have scripted : system.Scripted (fun _ => True) world.script := scripted_any world.script
  cases call with
  | addContextRule contextType name validUntil signers policies =>
      simp only [perform, addContextRule, bind_eq_ok, pure_eq_ok, Prod.exists,
        Prod.mk.injEq] at accepted
      obtain ⟨_, _, ⟨rule, middle, adds, _, rfl⟩, rfl⟩ := accepted
      exact .logged (rawAddContextRule_onlyGrows lawful scripted adds)
  | updateContextRuleName contextRuleId name =>
      simp only [perform, updateContextRuleName, bind_eq_ok, pure_eq_ok, Prod.exists] at accepted
      obtain ⟨_, rules, updates, rfl⟩ := accepted
      apply Evolves.keepsRules
      apply (lawful.renamed _ _ _ _ _ updates).1.keeps
      intro rule found
      exact ⟨_, edits.renamed _ _ _ _ _ updates rule found, rfl, List.Subset.refl _,
        List.Subset.refl _⟩
  | addSigner contextRuleId signer =>
      simp only [perform, addSigner, bind_eq_ok, pure_eq_ok, Prod.exists, Prod.mk.injEq] at accepted
      obtain ⟨_, _, ⟨_, rules, adds, _, rfl⟩, rfl⟩ := accepted
      apply Evolves.keepsRules
      apply (lawful.signerAdded _ _ _ _ _ adds).1.keeps
      intro rule found
      exact ⟨_, edits.signerAdded _ _ _ _ _ adds rule found, rfl,
        List.subset_append_left _ _, List.subset_append_left _ _⟩
  | addMultisigRecovery name validUntil friends multisigPolicy threshold =>
      simp only [perform, addMultisigRecovery, bind_eq_ok, pure_eq_ok, Prod.exists] at accepted
      obtain ⟨_, _, adds, rfl⟩ := accepted
      exact rawAddContextRule_onlyGrows lawful scripted adds
  | execute target targetFn targetArgs =>
      obtain ⟨_, _, invoked⟩ := bind_eq_ok.mp accepted
      exact (invokeContract_reaches scripted (fun decoded _ _ => enters_any decoded) invoked).evolves
  | removeSigner contextRuleId signerId => exact absurd accepted pending.blocks
  | updateContextRuleValidUntil | removeContextRule | addPolicy | removePolicy =>
      obtain ⟨_, _, accepted⟩ := bind_eq_ok.mp accepted
      exact absurd accepted pending.blocks
  | initiateRecoveryRuleRemoval =>
      obtain ⟨_, _, _, found, guarded, _⟩ := initiateRecoveryRuleRemoval_eq_ok accepted
      cases pending.stored.symm.trans found
      exact absurd guarded (guardLivePending_blocked pending.genuine pending.live)
  | executeRecoveryRuleRemoval =>
      obtain ⟨_, _, _, _, _, _, _, found, guarded, _⟩ := executeRecoveryRuleRemoval_eq_ok accepted
      cases pending.stored.symm.trans found
      exact absurd guarded (guardLivePending_blocked pending.genuine pending.live)
  | enrollZkRecovery recoveryController =>
      obtain ⟨absent, _⟩ := enrollZkRecovery_eq_ok accepted
      rw [absent] at enrolled
      cases enrolled

end EntryPoints

/-! ### A whole step -/

theorem Reaches.controller_cases (reaches : system.Reaches ledger kind world world')
    (controller : Address) :
    world'.controllers controller = world.controllers controller ∨
      ∃ new transaction before after, world'.effects = world.effects ++ new ∧
        (transaction, .controllerStep controller before after) ∈ new ∧
        world'.controllers controller = some after := by
  induction reaches with
  | refl => exact Or.inl rfl
  | popped _ _ ih => exact ih
  | granted _ ih => exact ih
  | @called middle _ _ _ called _ reaches accepted _ ih =>
      obtain ⟨before, after, _, _, rfl⟩ := callController_eq_ok accepted
      obtain ⟨earlier, log, _⟩ := reaches.effects
      by_cases same : controller = called
      · right
        subst called
        refine ⟨earlier ++ [(ledger.transaction, .controllerStep controller before after)],
          ledger.transaction, before, after, ?_, ?_, Function.update_self ..⟩
        · rw [← List.append_assoc, ← log]
        · exact List.mem_append_right _ (List.mem_singleton_self _)
      · rcases ih with unchanged | ⟨new, transaction, old, last, log', member, now⟩
        · left
          exact (Function.update_of_ne same _ _).trans unchanged
        · right
          refine ⟨new ++ [(ledger.transaction, .controllerStep called before after)], transaction,
            old, last, ?_, List.mem_append_left _ member,
            (Function.update_of_ne same _ _).trans now⟩
          rw [← List.append_assoc, ← log']

/-- From before a step to its end the stored controller reports a pending recovery. -/
structure StaysPending (system : System) (ledger : Ledger) (world world' : system.State) : Prop where
  before : ∃ controller state, system.Pending ledger world controller state
  during : ∀ controller transaction old after,
    world.account.recoveryController = some controller →
    (transaction, .controllerStep controller old after) ∈
      world'.effects.drop world.effects.length →
    system.Live ledger after

/-- The two recovery keys are stored and removed together. -/
def Together (account : AccountState system.library) : Prop :=
  account.recoveryRuleId.isSome = account.recoveryController.isSome

theorem KeepsRecovery.together {account account' : AccountState system.library}
    (keeps : KeepsRecovery account account') (together : Together account) : Together account' := by
  unfold Together
  rw [keeps.ruleId, keeps.controller]
  exact together

section Steps

variable {item : Item} (lawful : system.library.Lawful)

include lawful

theorem act_together (together : Together world.account)
    (accepted : system.act ledger item world = .ok world') : Together world'.account := by
  rcases act_cases lawful (scripted_any item.script) (fun _ _ _ _ _ _ _ _ _ => trivial)
      (fun _ decoded _ _ => enters_any decoded) accepted with
    ⟨call, middle, _, _, reaches, performed⟩ | ⟨_, reaches⟩
  · have same : middle.account = world.account := reaches.account
    rw [← same] at together
    cases elsewhere : call.concernsRecovery with
    | false =>
        have evolves : system.Evolves ledger KeepsRecovery (fun _ => True) middle world' :=
          perform_evolves lawful (scripted_any _) elsewhere
            (fun _ _ _ decoded _ _ _ => enters_any decoded) performed
        exact KeepsRecovery.together evolves.keepsRecovery together
    | true =>
        cases call with
        | initiateRecoveryRuleRemoval =>
            obtain ⟨_, guarded, _, _, guards, _, rfl⟩ := initiateRecoveryRuleRemoval_eq_ok performed
            have reaches : system.Reaches ledger (fun _ => True) middle guarded :=
              guardLivePending_reaches (scripted_any _) guards
            unfold Together
            dsimp only
            rw [reaches.account]
            exact together
        | executeRecoveryRuleRemoval =>
            obtain ⟨_, _, _, _, _, _, _, _, _, _, _, rfl⟩ :=
              executeRecoveryRuleRemoval_eq_ok performed
            rfl
        | enrollZkRecovery controller =>
            obtain ⟨_, _, installs⟩ := enrollZkRecovery_eq_ok performed
            obtain ⟨_, _, _, _, _, _, rfl⟩ := installRecoveryRule_eq_ok lawful installs
            rfl
        | addContextRule | updateContextRuleName | updateContextRuleValidUntil
        | removeContextRule | addSigner | removeSigner | addPolicy | removePolicy
        | addMultisigRecovery | execute => cases elsewhere
  · have same : world'.account = world.account := reaches.account
    rw [same]
    exact together

theorem genesis_together {genesis : Genesis} {start : system.State}
    (constructed : system.genesis genesis = .ok start) : Together start.account := by
  obtain ⟨middle, keeps, ⟨_, rfl⟩ | ⟨_, _, _, installs⟩⟩ := genesis_cases lawful constructed
  · exact KeepsRecovery.together keeps.account rfl
  · obtain ⟨_, _, _, _, _, _, rfl⟩ := installRecoveryRule_eq_ok lawful installs
    rfl

/-- One accepted step, with the recovery pending all the time. -/
theorem act_onlyGrows (edits : system.library.Edits) (together : Together world.account)
    (pending : system.StaysPending ledger world world')
    (accepted : system.act ledger item world = .ok world') :
    OnlyGrows world.account world'.account := by
  obtain ⟨⟨controller, state, stored, genuine, live⟩, during⟩ := pending
  rcases act_cases lawful (scripted_any item.script) (fun _ _ _ _ _ _ _ _ _ => trivial)
      (fun _ decoded _ _ => enters_any decoded) accepted with
    ⟨call, middle, _, _, reaches, performed⟩ | ⟨_, reaches⟩
  · have same : middle.account = world.account := reaches.account
    have enrolled : middle.account.recoveryRuleId.isSome = true := by
      rw [same, together, stored]
      rfl
    -- the authorization check may have called the controller; it has left it pending
    have stillPending : ∃ state, system.Pending ledger middle controller state := by
      rw [← same] at stored
      rcases reaches.controller_cases controller with
        unchanged | ⟨new, transaction, old, after, log, member, now⟩
      · exact ⟨state, stored, unchanged.trans genuine, live⟩
      · refine ⟨after, stored, now, ?_⟩
        have evolves : system.Evolves ledger (fun _ _ => True) (fun _ => True) middle world' :=
          perform_changes lawful (scripted_any _) (fun _ _ _ decoded _ _ _ => enters_any decoded)
            performed
        obtain ⟨more, log', _⟩ := evolves.effects
        apply during controller transaction old after (same ▸ stored)
        rw [log', log, List.append_assoc, List.drop_left]
        exact List.mem_append_left _ member
    obtain ⟨state, pending⟩ := stillPending
    rw [← same]
    exact (perform_onlyGrows lawful edits pending enrolled performed).onlyGrows
  · have same : world'.account = world.account := reaches.account
    rw [same]
    exact .refl _

variable {start : system.State} {run : List Step}

theorem together_stateAt {genesis : Genesis} (constructed : system.genesis genesis = .ok start)
    (time : Nat) : Together (system.stateAt start run time).account := by
  apply invariant (fun world => Together world.account) (genesis_together lawful constructed)
  intro time step accepted together
  exact act_together lawful together accepted.acts

end Steps

end System

theorem pending_freezes (system : System) (lawful : system.library.Lawful)
    (edits : system.library.Edits) (genesis : Genesis) (start : system.State) (run : List Step)
    (constructed : system.genesis genesis = .ok start) (first last : Nat) (ordered : first ≤ last)
    (pending : ∀ time step, first ≤ time → time < last → system.Accepts start run time step →
      system.StaysPending step.ledger (system.stateAt start run time)
        (system.stateAt start run (time + 1))) :
    OnlyGrows (system.stateAt start run first).account (system.stateAt start run last).account := by
  induction last, ordered using Nat.le_induction with
  | base => exact .refl _
  | succ last after ih =>
      have before := ih (fun time step from_ to_ => pending time step from_ (Nat.lt_succ_of_lt to_))
      apply before.trans
      rcases Run.stateAt_succ_cases system.step start run last with unchanged | ⟨step, accepted⟩
      · have same : system.stateAt start run (last + 1) = system.stateAt start run last := unchanged
        rw [same]
        exact .refl _
      · have accepted : system.Accepts start run last step := accepted
        exact System.act_onlyGrows lawful edits (System.together_stateAt lawful constructed last)
          (pending last step after (Nat.lt_succ_self last) accepted) accepted.acts

open RuleBook in
theorem ruleBooks_edits : ruleBooks.Edits where
  renamed := by
    intro book id name rule book' accepted old found
    have accepted : book.updateContextRuleName id name = .ok (rule, book') := accepted
    have here : book.rules id = some old := found
    simp only [updateContextRuleName, bind_eq_ok, pure_eq_ok] at accepted
    obtain ⟨_, _, ⟨⟩⟩ := accepted
    change Function.update book.rules id _ id = _
    rw [Function.update_self, here]
    rfl
  signerAdded := by
    intro book id signer signerId book' accepted old found
    have accepted : book.addSigner id signer = .ok (signerId, book') := accepted
    have here : book.rules id = some old := found
    simp only [addSigner, bind_eq_ok, pure_eq_ok] at accepted
    obtain ⟨_, _, _, _, ⟨⟩⟩ := accepted
    change Function.update book.rules id _ id = _
    rw [Function.update_self, here]
    rfl

/-- During the recovery the holder of the passkey renames the rule and adds a signer. -/
def Reference.growing : List Step :=
  [applied 100 1 enrolment, applied 200 2 initiation,
    applied 300 3 (signed system.self "update_context_rule_name" [.u32 0, .string "renamed"]),
    applied 400 4 (signed system.self "add_signer" [.u32 0, recoverySigner.toScVal])]

theorem Reference.growing_accepted :
    (∀ time < 4, 2 ≤ time →
      (system.stateAt start growing time).account.recoveryController = some controller ∧
      ((system.stateAt start growing time).controllers controller).map
        (fun state => state.pending system.self) = some (some inFlight) ∧
      (system.stateAt start growing (time + 1)).effects.length ≤
        (system.stateAt start growing time).effects.length) ∧
    ((ruleBooks.getContextRule (system.stateAt start growing 4).account.rules 0).map
      (fun rule => (rule.name, rule.signers))) = some ("renamed", [passkey, recoverySigner]) := by
  decide +kernel

theorem pending_freezes_growing :
    OnlyGrows (Reference.system.stateAt Reference.start Reference.growing 2).account
      (Reference.system.stateAt Reference.start Reference.growing 4).account ∧
    (ruleBooks.getContextRule
        (Reference.system.stateAt Reference.start Reference.growing 4).account.rules 0).map
      (fun rule => (rule.name, rule.signers)) =
        some ("renamed", [Reference.passkey, Reference.recoverySigner]) := by
  refine ⟨?_, Reference.growing_accepted.2⟩
  refine pending_freezes Reference.system ruleBooks_lawful ruleBooks_edits Reference.genesis
    Reference.start Reference.growing Reference.start_constructed 2 4 (by decide) ?_
  intro time step from_ to_ accepted
  obtain ⟨stored, live, quiet⟩ := Reference.growing_accepted.1 time to_ from_
  obtain ⟨state, genuine, found⟩ := Option.map_eq_some_iff.mp live
  refine ⟨⟨Reference.controller, state, stored, genuine, ?_⟩, ?_⟩
  · intro env now
    rw [ZkRecovery.hasPending_eq_true]
    refine ⟨Reference.inFlight, found, ?_⟩
    have early : ∀ step ∈ Reference.growing, step.ledger.timestamp < Reference.inFlight.expiresAt := by
      unfold Reference.growing
      decide
    rw [now]
    exact early step (List.mem_of_getElem? accepted.input_at)
  · intro _ _ _ _ _ member
    rw [List.drop_of_length_le quiet] at member
    cases member

end Nido.SmartAccount
