/-
The context-rule storage of the smart-account library.

The library is a dependency outside this repository, so its storage and its
operations are parameters. An operation answers what its caller goes on with:
the rule that the policies are told about, or the id that is returned. `Lawful`
lists what the account relies on: an operation touches only the rule it names,
an added rule is fresh and is the one described by the arguments, and a context
is validated against the stored rule.
-/

import Nido.SmartAccount.Types

namespace Nido.SmartAccount

structure RuleLibrary where
  Store : Type
  empty : Store
  getContextRule : Store → UInt32 → Option ContextRule
  /-- `get_validated_context_by_id`: the selected rule, if it has not expired
  and its scope and signers admit the context, with the signers that have signed. -/
  validatedContext : (sequence : UInt32) → Store → Context → (signers : List Signer) → UInt32 →
    Contract (ContextRule × List Signer)
  addContextRule : (sequence : UInt32) → Store → ContextRuleType → (name : String) →
    (validUntil : Option UInt32) → List Signer → (policies : List Address) →
    Contract (ContextRule × Store)
  updateContextRuleName : Store → UInt32 → (name : String) → Contract (ContextRule × Store)
  updateContextRuleValidUntil : (sequence : UInt32) → Store → UInt32 →
    (validUntil : Option UInt32) → Contract (ContextRule × Store)
  removeContextRule : Store → UInt32 → Contract (ContextRule × Store)
  addSigner : Store → UInt32 → Signer → Contract (UInt32 × Store)
  removeSigner : Store → UInt32 → (signerId : UInt32) → Contract Store
  addPolicy : Store → UInt32 → (policy : Address) → Contract (UInt32 × ContextRule × Store)
  removePolicy : Store → UInt32 → (policyId : UInt32) → Contract (Address × ContextRule × Store)

namespace RuleLibrary

variable (library : RuleLibrary)

def OnlyAt (id : UInt32) (store store' : library.Store) : Prop :=
  ∀ other, other ≠ id → library.getContextRule store' other = library.getContextRule store other

/-- What the two rules authorize, and under which policies, is the same. -/
def SameScope (rule rule' : ContextRule) : Prop :=
  rule'.contextType = rule.contextType ∧ rule'.policies = rule.policies ∧
    rule'.validUntil = rule.validUntil

def KeepsScope (id : UInt32) (store store' : library.Store) : Prop :=
  ∀ rule, library.getContextRule store id = some rule →
    ∃ rule', library.getContextRule store' id = some rule' ∧ SameScope rule rule'

/-- The added rule, as the arguments describe it. -/
structure Added (store : library.Store) (contextType : ContextRuleType) (name : String)
    (validUntil : Option UInt32) (signers : List Signer) (policies : List Address)
    (rule : ContextRule) (store' : library.Store) : Prop where
  contextType : rule.contextType = contextType
  name : rule.name = name
  validUntil : rule.validUntil = validUntil
  signers : rule.signers = signers
  policies : rule.policies = policies
  fresh : library.getContextRule store rule.id = none
  stored : library.getContextRule store' rule.id = some rule
  others : library.OnlyAt rule.id store store'

structure Lawful : Prop where
  validated : ∀ sequence store context signers id rule authenticated,
    library.validatedContext sequence store context signers id = .ok (rule, authenticated) →
    library.getContextRule store id = some rule
  added : ∀ sequence store contextType name validUntil signers policies rule store',
    library.addContextRule sequence store contextType name validUntil signers policies =
      .ok (rule, store') →
    library.Added store contextType name validUntil signers policies rule store'
  renamed : ∀ store id name rule store',
    library.updateContextRuleName store id name = .ok (rule, store') →
    library.OnlyAt id store store' ∧ library.KeepsScope id store store'
  validUntilUpdated : ∀ sequence store id validUntil rule store',
    library.updateContextRuleValidUntil sequence store id validUntil = .ok (rule, store') →
    library.OnlyAt id store store'
  removed : ∀ store id rule store',
    library.removeContextRule store id = .ok (rule, store') →
    library.getContextRule store id = some rule ∧ library.OnlyAt id store store'
  signerAdded : ∀ store id signer signerId store',
    library.addSigner store id signer = .ok (signerId, store') →
    library.OnlyAt id store store' ∧ library.KeepsScope id store store'
  signerRemoved : ∀ store id signerId store',
    library.removeSigner store id signerId = .ok store' →
    library.OnlyAt id store store' ∧ library.KeepsScope id store store'
  policyAdded : ∀ store id policy policyId rule store',
    library.addPolicy store id policy = .ok (policyId, rule, store') →
    library.OnlyAt id store store'
  policyRemoved : ∀ store id policyId policy rule store',
    library.removePolicy store id policyId = .ok (policy, rule, store') →
    library.OnlyAt id store store'

variable {library}

theorem SameScope.refl (rule : ContextRule) : SameScope rule rule := ⟨rfl, rfl, rfl⟩

theorem OnlyAt.keepsScope {id other : UInt32} {store store' : library.Store}
    (only : library.OnlyAt id store store') (different : other ≠ id) :
    library.KeepsScope other store store' := by
  intro rule found
  exact ⟨rule, (only other different).trans found, SameScope.refl rule⟩

theorem OnlyAt.keepsEveryScope {id : UInt32} {store store' : library.Store}
    (only : library.OnlyAt id store store') (named : library.KeepsScope id store store')
    (other : UInt32) : library.KeepsScope other store store' := by
  by_cases same : other = id
  · rw [same]
    exact named
  · exact only.keepsScope same

theorem Added.keepsEveryScope {store store' : library.Store} {contextType : ContextRuleType}
    {name : String} {validUntil : Option UInt32} {signers : List Signer} {policies : List Address}
    {rule : ContextRule}
    (added : library.Added store contextType name validUntil signers policies rule store')
    (other : UInt32) : library.KeepsScope other store store' := by
  apply added.others.keepsEveryScope
  intro old found
  cases added.fresh.symm.trans found

end RuleLibrary

end Nido.SmartAccount
