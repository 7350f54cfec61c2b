/-
A concrete rule library, and one account on it with the recovery contract of
the fixture.

The library numbers its rules consecutively and keeps a registry of signers and
of policies; it makes the checks that its error codes name.
-/

import Nido.SmartAccount.Contract
import Nido.ZkRecovery.Reference

namespace Nido.SmartAccount

open Contract
open ZkRecovery (PendingRecovery RecoveryState)

/-- Rules by id; ids from the next one on are unused. -/
structure RuleBook where
  rules : UInt32 → Option ContextRule
  nextId : Nat
  signers : List Signer
  policies : List Address
  unused : ∀ id : UInt32, nextId ≤ id.toNat → rules id = none

namespace RuleBook

def contextRuleNotFound : Failure := .contractError 3000
def unvalidatedContext : Failure := .contractError 3002
def noSignersAndPolicies : Failure := .contractError 3004
def pastValidUntil : Failure := .contractError 3005
def signerNotFound : Failure := .contractError 3006
def duplicateSigner : Failure := .contractError 3007
def policyNotFound : Failure := .contractError 3008
def duplicatePolicy : Failure := .contractError 3009
def mathOverflow : Failure := .contractError 3012

def empty : RuleBook where
  rules := fun _ => none
  nextId := 0
  signers := []
  policies := []
  unused := fun _ _ => rfl

def registered {α : Type} [DecidableEq α] (registry items : List α) : List α :=
  registry ++ items.filter (fun item => decide (item ∉ registry))

def idOf {α : Type} [DecidableEq α] (registry : List α) (item : α) : UInt32 :=
  UInt32.ofNat (registry.idxOf item)

def edit (book : RuleBook) (id : UInt32) (change : ContextRule → Option ContextRule) : RuleBook where
  rules := Function.update book.rules id ((book.rules id).bind change)
  nextId := book.nextId
  signers := book.signers
  policies := book.policies
  unused := by
    intro other above
    by_cases same : other = id
    · rw [same, Function.update_self, ← same, book.unused other above]
      rfl
    · rw [Function.update_of_ne same]
      exact book.unused other above

/-- A limit that has passed admits nothing any more. -/
def inTime (sequence : UInt32) (validUntil : Option UInt32) : Bool :=
  validUntil.all (fun limit => decide (sequence ≤ limit))

def admits : ContextRuleType → Context → Bool
  | .default, _ => true
  | .callContract contract, .contract call => decide (contract = call.contract)
  | _, _ => false

def validatedContext (book : RuleBook) (sequence : UInt32) (context : Context)
    (signers : List Signer) (id : UInt32) : Contract (ContextRule × List Signer) := do
  let rule ← orFail (book.rules id) contextRuleNotFound
  require (inTime sequence rule.validUntil = true) unvalidatedContext
  require (admits rule.contextType context = true) unvalidatedContext
  let authenticated := rule.signers.filter (fun signer => decide (signer ∈ signers))
  require (rule.policies ≠ [] ∨ authenticated.length = rule.signers.length) unvalidatedContext
  pure (rule, authenticated)

def addContextRule (book : RuleBook) (sequence : UInt32) (contextType : ContextRuleType)
    (name : String) (validUntil : Option UInt32) (signers : List Signer)
    (policies : List Address) : Contract (ContextRule × RuleBook) := do
  require (inTime sequence validUntil = true) pastValidUntil
  require (signers ≠ [] ∨ policies ≠ []) noSignersAndPolicies
  require signers.Nodup duplicateSigner
  let allSigners := registered book.signers signers
  let allPolicies := registered book.policies policies
  let rule : ContextRule :=
    { id := UInt32.ofNat book.nextId
      contextType, name, signers, policies, validUntil
      signerIds := signers.map (idOf allSigners)
      policyIds := policies.map (idOf allPolicies) }
  if room : book.nextId + 1 < 2 ^ 32 then
    pure (rule,
      { rules := Function.update book.rules rule.id (some rule)
        nextId := book.nextId + 1
        signers := allSigners
        policies := allPolicies
        unused := by
          intro other above
          have small : book.nextId < UInt32.size := Nat.lt_of_succ_lt room
          have different : other ≠ UInt32.ofNat book.nextId := by
            intro same
            rw [same, UInt32.toNat_ofNat_of_lt' small] at above
            omega
          rw [Function.update_of_ne different]
          exact book.unused other (by omega) })
  else .error mathOverflow

def updateContextRuleName (book : RuleBook) (id : UInt32) (name : String) :
    Contract (ContextRule × RuleBook) := do
  let rule ← orFail (book.rules id) contextRuleNotFound
  pure ({ rule with name }, book.edit id (fun rule => some { rule with name }))

def updateContextRuleValidUntil (book : RuleBook) (sequence : UInt32) (id : UInt32)
    (validUntil : Option UInt32) : Contract (ContextRule × RuleBook) := do
  let rule ← orFail (book.rules id) contextRuleNotFound
  require (inTime sequence validUntil = true) pastValidUntil
  pure ({ rule with validUntil }, book.edit id (fun rule => some { rule with validUntil }))

def removeContextRule (book : RuleBook) (id : UInt32) : Contract (ContextRule × RuleBook) := do
  let rule ← orFail (book.rules id) contextRuleNotFound
  pure (rule, book.edit id (fun _ => none))

def addSigner (book : RuleBook) (id : UInt32) (signer : Signer) : Contract (UInt32 × RuleBook) := do
  let rule ← orFail (book.rules id) contextRuleNotFound
  require (signer ∉ rule.signers) duplicateSigner
  let allSigners := registered book.signers [signer]
  let signerId := idOf allSigners signer
  pure (signerId,
    { book.edit id (fun rule => some { rule with
        signers := rule.signers ++ [signer]
        signerIds := rule.signerIds ++ [signerId] }) with
      signers := allSigners })

/-- The lists without the item of that id, which stands at the same place in both. -/
def without {α : Type} (items : List α) (ids : List UInt32) (id : UInt32) : List α × List UInt32 :=
  ((items.zip ids).filter (fun entry => decide (entry.2 ≠ id))).unzip

def removeSigner (book : RuleBook) (id signerId : UInt32) : Contract RuleBook := do
  let rule ← orFail (book.rules id) contextRuleNotFound
  require (signerId ∈ rule.signerIds) signerNotFound
  let (signers, signerIds) := without rule.signers rule.signerIds signerId
  require (signers ≠ [] ∨ rule.policies ≠ []) noSignersAndPolicies
  pure (book.edit id (fun rule => some { rule with signers, signerIds }))

def addPolicy (book : RuleBook) (id : UInt32) (policy : Address) :
    Contract (UInt32 × ContextRule × RuleBook) := do
  let rule ← orFail (book.rules id) contextRuleNotFound
  require (policy ∉ rule.policies) duplicatePolicy
  let allPolicies := registered book.policies [policy]
  let policyId := idOf allPolicies policy
  let extend (rule : ContextRule) : ContextRule := { rule with
    policies := rule.policies ++ [policy]
    policyIds := rule.policyIds ++ [policyId] }
  pure (policyId, extend rule,
    { book.edit id (fun rule => some (extend rule)) with policies := allPolicies })

def removePolicy (book : RuleBook) (id policyId : UInt32) :
    Contract (Address × ContextRule × RuleBook) := do
  let rule ← orFail (book.rules id) contextRuleNotFound
  let (policy, _) ← orFail
    ((rule.policies.zip rule.policyIds).find? (fun entry => decide (entry.2 = policyId)))
    policyNotFound
  let (policies, policyIds) := without rule.policies rule.policyIds policyId
  require (rule.signers ≠ [] ∨ policies ≠ []) noSignersAndPolicies
  pure (policy, rule, book.edit id (fun rule => some { rule with policies, policyIds }))

end RuleBook

def ruleBooks : RuleLibrary where
  Store := RuleBook
  empty := .empty
  getContextRule := RuleBook.rules
  validatedContext := fun sequence book => book.validatedContext sequence
  addContextRule := fun sequence book => book.addContextRule sequence
  updateContextRuleName := RuleBook.updateContextRuleName
  updateContextRuleValidUntil := fun sequence book => book.updateContextRuleValidUntil sequence
  removeContextRule := RuleBook.removeContextRule
  addSigner := RuleBook.addSigner
  removeSigner := RuleBook.removeSigner
  addPolicy := RuleBook.addPolicy
  removePolicy := RuleBook.removePolicy

namespace RuleBook

theorem edit_onlyAt (book : RuleBook) (id : UInt32) (change : ContextRule → Option ContextRule) :
    ruleBooks.OnlyAt id book (book.edit id change) := by
  intro other different
  exact Function.update_of_ne different ..

theorem edit_keepsScope (book : RuleBook) (id : UInt32) {change : ContextRule → ContextRule}
    (same : ∀ rule, RuleLibrary.SameScope rule (change rule)) :
    ruleBooks.KeepsScope id book (book.edit id (fun rule => some (change rule))) := by
  intro rule found
  have here : book.rules id = some rule := found
  refine ⟨change rule, ?_, same rule⟩
  change Function.update book.rules id _ id = _
  rw [Function.update_self, here]
  rfl

theorem addContextRule_eq_ok {sequence : UInt32} {book book' : RuleBook}
    {contextType : ContextRuleType} {name : String} {validUntil : Option UInt32}
    {signers : List Signer} {policies : List Address} {rule : ContextRule}
    (accepted : book.addContextRule sequence contextType name validUntil signers policies =
      .ok (rule, book')) :
    ruleBooks.Added book contextType name validUntil signers policies rule book' := by
  simp only [addContextRule, bind_eq_ok, require_eq_ok] at accepted
  obtain ⟨_, _, _, _, _, _, accepted⟩ := accepted
  split at accepted
  · rename_i room
    obtain ⟨rfl, rfl⟩ := Prod.mk.inj (Except.ok.inj accepted)
    have small : book.nextId < UInt32.size := Nat.lt_of_succ_lt room
    have unused : book.rules (UInt32.ofNat book.nextId) = none :=
      book.unused _ (Nat.le_of_eq (UInt32.toNat_ofNat_of_lt' small).symm)
    exact
      { contextType := rfl
        name := rfl
        validUntil := rfl
        signers := rfl
        policies := rfl
        fresh := unused
        stored := Function.update_self ..
        others := fun _ different => Function.update_of_ne different .. }
  · cases accepted

section Operations

variable {sequence id : UInt32} {book book' : RuleBook} {rule : ContextRule}

theorem validatedContext_eq_ok {context : Context} {signers authenticated : List Signer}
    (accepted : book.validatedContext sequence context signers id = .ok (rule, authenticated)) :
    book.rules id = some rule := by
  simp only [validatedContext, bind_eq_ok, orFail_eq_ok, pure_eq_ok, Prod.mk.injEq] at accepted
  obtain ⟨_, present, _, _, _, _, _, _, rfl, _⟩ := accepted
  exact present

theorem updateContextRuleName_eq_ok {name : String}
    (accepted : book.updateContextRuleName id name = .ok (rule, book')) :
    ruleBooks.OnlyAt id book book' ∧ ruleBooks.KeepsScope id book book' := by
  simp only [updateContextRuleName, bind_eq_ok, pure_eq_ok, Prod.mk.injEq] at accepted
  obtain ⟨_, _, _, rfl⟩ := accepted
  exact ⟨edit_onlyAt book id _, edit_keepsScope book id (fun _ => ⟨rfl, rfl, rfl⟩)⟩

theorem updateContextRuleValidUntil_eq_ok {validUntil : Option UInt32}
    (accepted : book.updateContextRuleValidUntil sequence id validUntil = .ok (rule, book')) :
    ruleBooks.OnlyAt id book book' := by
  simp only [updateContextRuleValidUntil, bind_eq_ok, pure_eq_ok, Prod.mk.injEq] at accepted
  obtain ⟨_, _, _, _, _, rfl⟩ := accepted
  exact edit_onlyAt book id _

theorem removeContextRule_eq_ok (accepted : book.removeContextRule id = .ok (rule, book')) :
    book.rules id = some rule ∧ ruleBooks.OnlyAt id book book' := by
  simp only [removeContextRule, bind_eq_ok, orFail_eq_ok, pure_eq_ok, Prod.mk.injEq] at accepted
  obtain ⟨_, present, rfl, rfl⟩ := accepted
  exact ⟨present, edit_onlyAt book id _⟩

theorem addSigner_eq_ok {signer : Signer} {signerId : UInt32}
    (accepted : book.addSigner id signer = .ok (signerId, book')) :
    ruleBooks.OnlyAt id book book' ∧ ruleBooks.KeepsScope id book book' := by
  simp only [addSigner, bind_eq_ok, pure_eq_ok, Prod.mk.injEq] at accepted
  obtain ⟨_, _, _, _, _, rfl⟩ := accepted
  exact ⟨edit_onlyAt book id _, edit_keepsScope book id (fun _ => ⟨rfl, rfl, rfl⟩)⟩

theorem removeSigner_eq_ok {signerId : UInt32}
    (accepted : book.removeSigner id signerId = .ok book') :
    ruleBooks.OnlyAt id book book' ∧ ruleBooks.KeepsScope id book book' := by
  simp only [removeSigner, bind_eq_ok, pure_eq_ok] at accepted
  obtain ⟨_, _, _, _, _, _, rfl⟩ := accepted
  exact ⟨edit_onlyAt book id _, edit_keepsScope book id (fun _ => ⟨rfl, rfl, rfl⟩)⟩

theorem addPolicy_eq_ok {policy : Address} {policyId : UInt32}
    (accepted : book.addPolicy id policy = .ok (policyId, rule, book')) :
    ruleBooks.OnlyAt id book book' := by
  simp only [addPolicy, bind_eq_ok, pure_eq_ok, Prod.mk.injEq] at accepted
  obtain ⟨_, _, _, _, _, _, rfl⟩ := accepted
  exact edit_onlyAt book id _

theorem removePolicy_eq_ok {policy : Address} {policyId : UInt32}
    (accepted : book.removePolicy id policyId = .ok (policy, rule, book')) :
    ruleBooks.OnlyAt id book book' := by
  simp only [removePolicy, bind_eq_ok, pure_eq_ok, Prod.mk.injEq] at accepted
  obtain ⟨_, _, _, _, _, _, _, _, rfl⟩ := accepted
  exact edit_onlyAt book id _

end Operations

end RuleBook

open RuleBook in
theorem ruleBooks_lawful : ruleBooks.Lawful where
  validated := fun _ _ _ _ _ _ _ => validatedContext_eq_ok
  added := fun _ _ _ _ _ _ _ _ _ => addContextRule_eq_ok
  renamed := fun _ _ _ _ _ => updateContextRuleName_eq_ok
  validUntilUpdated := fun _ _ _ _ _ _ => updateContextRuleValidUntil_eq_ok
  removed := fun _ _ _ _ => removeContextRule_eq_ok
  signerAdded := fun _ _ _ _ _ => addSigner_eq_ok
  signerRemoved := fun _ _ _ _ => removeSigner_eq_ok
  policyAdded := fun _ _ _ _ _ _ => addPolicy_eq_ok
  policyRemoved := fun _ _ _ _ _ _ => removePolicy_eq_ok

/-! ### The account of the fixture, with one passkey -/

namespace Reference

open ZkRecovery.Reference (account accountId commitment config deployment emptySiblings initiating
  leftmost newPubkey nullifier prove root secret)

def controller : Address := deployment.self

def system : System where
  host := ZkRecovery.Reference.host
  library := ruleBooks
  self := account

def passkey : Signer := .external config.webauthnVerifier (BytesN.ofNat 65 (4 * 256 ^ 64)).data

def genesis : Genesis where
  ledger := { timestamp := 50, sequence := 10, transaction := 0 }
  signers := [passkey]
  policies := []
  recoveryController := some controller
  controllers := fun address => if address = controller then some deployment.start else none
  script := []

def start : system.State :=
  (system.genesis genesis).toOption.getD (system.undeployed genesis.controllers genesis.script)

/-- A call that only those authorize who are named in the entry, if there is one. -/
def calling (target : Address) (fnName : String) (args : List ScVal) (approval : Approval) : Item where
  target := target
  fnName := fnName
  args := args
  approval := approval
  authorized := fun _ => false
  script := []

def entryFor (target : Address) (fnName : String) (args : List ScVal) (ruleId : UInt32)
    (signers : List Signer) : Approval :=
  .entry
    { root := (.contract { contract := target, fnName, args }, ruleId)
      nested := []
      signers }

/-- A call that the holder of the passkey authorizes under the default rule. -/
def signed (target : Address) (fnName : String) (args : List ScVal) : Item :=
  calling target fnName args (entryFor target fnName args 0 [passkey])

def enrolment : Item := signed controller "insert_for" [.address account, .bytes commitment.data]

def initiation : Item :=
  calling controller "initiate_recovery"
    [.address account, .bytes newPubkey.data, .u64 1, .u32 1209600, .bytes root.data,
      .bytes nullifier.data, .bytes (prove secret emptySiblings leftmost accountId initiating)]
    .absent

def recoverySigner : Signer := .external config.webauthnVerifier newPubkey.data

def completionArgs (contextType : ContextRuleType) (validUntil : Option UInt32) : List ScVal :=
  [contextType.toScVal, .string "recovered", encodeOptionU32 validUntil,
    .vec [recoverySigner.toScVal], .map []]

/-- Anybody may complete: the recovery rule has no signers. -/
def completion (contextType : ContextRuleType) (validUntil : Option UInt32) : Item :=
  calling account "add_context_rule" (completionArgs contextType validUntil)
    (entryFor account "add_context_rule" (completionArgs contextType validUntil) 1 [])

def recoveryRule : ContextRule where
  id := 1
  contextType := .callContract account
  name := "zk-recovery"
  signers := []
  signerIds := []
  policies := [controller]
  policyIds := [0]
  validUntil := none

/-- The holder of the passkey calls `enforce` with a context that nobody has authorized. -/
def forgery : Item :=
  signed controller "enforce"
    [.vec [.symbol "Contract",
        ContractContext.toScVal
          { contract := account
            fnName := "add_context_rule"
            args := completionArgs .default none }],
      .vec [], recoveryRule.toScVal, .address account]

def applied (timestamp : UInt64) (transaction : Nat) (item : Item) : Step :=
  { ledger := { timestamp, sequence := 20, transaction }, item }

def recovering (last : Item) : List Step :=
  [applied 100 1 enrolment, applied 200 2 initiation, applied 1209800 3 last]

/-- The rule is announced to go, and goes seven days later. -/
def optingOut : List Step :=
  [applied 100 1 (signed account "initiate_recovery_rule_removal" []),
    applied 604900 2 (signed account "execute_recovery_rule_removal" [])]

theorem start_constructed : system.genesis genesis = .ok start := by
  have succeeds : (system.genesis genesis).toOption.isSome = true := by decide +kernel
  obtain ⟨world, constructed⟩ := exists_of_isSome succeeds
  unfold start
  rw [constructed]
  rfl

def inFlight : PendingRecovery where
  newPubkey := newPubkey
  nullifier := nullifier
  initiatedAt := 200
  executableAfter := 1209800
  expiresAt := 1814600

def initiated : RecoveryState :=
  ((system.stateAt start (recovering enrolment) 2).controllers controller).getD deployment.start

theorem initiated_pending : initiated.pending system.self = some inFlight := by decide +kernel

end Reference

end Nido.SmartAccount
