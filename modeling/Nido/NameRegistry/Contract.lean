/-
The name registry: human-readable names for smart accounts.

A name is kept under itself and under its owner, in two maps that every
operation writes one after the other. The names are byte strings, as the host
has them.
-/

import Nido.Library.Pairing
import Nido.Library.Run
import Nido.Soroban.Host

namespace Nido.NameRegistry

open Contract
open Pairing (Paired)

/-- `assert!` and `expect` panic with a message. -/
inductive RegistryFailure
  | unauthorized
  | panicked (message : String)
deriving DecidableEq

abbrev Outcome (α : Type) := Except RegistryFailure α

def assertThat (condition : Prop) [Decidable condition] (message : String) : Outcome Unit :=
  if condition then .ok () else .error (.panicked message)

@[simp] theorem assertThat_eq_ok {condition : Prop} [Decidable condition] {message : String}
    {result : Unit} : assertThat condition message = .ok result ↔ condition := by
  unfold assertThat
  split <;> simp [*]

def expect {α : Type} (value : Option α) (message : String) : Outcome α :=
  match value with
  | some found => .ok found
  | none => .error (.panicked message)

@[simp] theorem expect_eq_ok {α : Type} {value : Option α} {message : String} {result : α} :
    expect value message = .ok result ↔ value = some result := by
  cases value <;> simp [expect]

structure Registry where
  names : Bytes → Option Address
  owners : Address → Option Bytes

namespace Registry

variable (registry : Registry)

def setName (name : Bytes) (owner : Option Address) : Registry :=
  { registry with names := Function.update registry.names name owner }

def setOwner (owner : Address) (name : Option Bytes) : Registry :=
  { registry with owners := Function.update registry.owners owner name }

end Registry

def requireAuth (authorized : Address → Bool) (address : Address) : Outcome Unit :=
  if authorized address = true then .ok () else .error .unauthorized

@[simp] theorem requireAuth_eq_ok {authorized : Address → Bool} {address : Address}
    {result : Unit} :
    requireAuth authorized address = .ok result ↔ authorized address = true := by
  unfold requireAuth
  split <;> simp [*]

def isAsciiLowercase (byte : UInt8) : Bool := decide (97 ≤ byte ∧ byte ≤ 122)

def isAsciiDigit (byte : UInt8) : Bool := decide (48 ≤ byte ∧ byte ≤ 57)

/-- The buffer starts out as zeros, so its first byte is that of the name. -/
def validateName (name : Bytes) : Outcome Unit := do
  assertThat (1 ≤ name.length ∧ name.length ≤ 15) "name must be 1-15 characters"
  assertThat (isAsciiLowercase (name.headD 0) = true) "name must start with a letter"
  assertThat (name.all (fun byte => isAsciiLowercase byte || isAsciiDigit byte) = true)
    "name must contain only a-z and 0-9"

def register (authorized : Address → Bool) (registry : Registry) (owner : Address)
    (name : Bytes) : Outcome Registry := do
  requireAuth authorized owner
  validateName name
  assertThat (registry.names name = none) "name already claimed"
  assertThat (registry.owners owner = none) "address already has a name"
  let registry := registry.setName name (some owner)
  pure (registry.setOwner owner (some name))

def release (authorized : Address → Bool) (registry : Registry) (owner : Address) :
    Outcome Registry := do
  requireAuth authorized owner
  let name ← expect (registry.owners owner) "address has no name"
  let registry := registry.setName name none
  pure (registry.setOwner owner none)

def transfer (authorized : Address → Bool) (registry : Registry) (owner newOwner : Address) :
    Outcome Registry := do
  requireAuth authorized owner
  requireAuth authorized newOwner
  let name ← expect (registry.owners owner) "address has no name"
  assertThat (registry.owners newOwner = none) "new owner already has a name"
  let registry := registry.setName name (some newOwner)
  let registry := registry.setOwner owner none
  pure (registry.setOwner newOwner (some name))

def resolve (registry : Registry) (name : Bytes) : Option Address := registry.names name

def lookup (registry : Registry) (owner : Address) : Option Bytes := registry.owners owner

/-! ### The registry as a machine -/

inductive Call
  | register (owner : Address) (name : Bytes)
  | release (owner : Address)
  | transfer (owner newOwner : Address)

structure Invocation where
  authorized : Address → Bool
  call : Call

def invoke (registry : Registry) (invocation : Invocation) : Outcome Registry :=
  match invocation.call with
  | .register owner name => register invocation.authorized registry owner name
  | .release owner => release invocation.authorized registry owner
  | .transfer owner newOwner => transfer invocation.authorized registry owner newOwner

/-- A failed call is rolled back. -/
def step (registry : Registry) (invocation : Invocation) : Option Registry :=
  (invoke registry invocation).toOption

def empty : Registry where
  names := fun _ => none
  owners := fun _ => none

def stateAt (run : List Invocation) (time : Nat) : Registry := Run.stateAt step empty run time

/-! ### What a call does -/

structure ValidName (name : Bytes) : Prop where
  nonempty : 1 ≤ name.length
  short : name.length ≤ 15
  starts : ∃ first rest, name = first :: rest ∧ isAsciiLowercase first = true
  plain : ∀ byte ∈ name, isAsciiLowercase byte = true ∨ isAsciiDigit byte = true

theorem validateName_eq_ok {name : Bytes} {result : Unit} :
    validateName name = .ok result ↔ ValidName name := by
  simp only [validateName, bind_eq_ok, assertThat_eq_ok, List.all_eq_true, Bool.or_eq_true]
  cases name with
  | nil =>
      constructor
      · intro accepted
        obtain ⟨_, ⟨nonempty, _⟩, _⟩ := accepted
        cases nonempty
      · intro valid
        cases valid.nonempty
  | cons first rest =>
      constructor
      · intro accepted
        obtain ⟨_, ⟨nonempty, short⟩, _, starts, plain⟩ := accepted
        exact ⟨nonempty, short, ⟨first, rest, rfl, starts⟩, plain⟩
      · intro valid
        obtain ⟨nonempty, short, ⟨_, _, same, starts⟩, plain⟩ := valid
        cases same
        exact ⟨(), ⟨nonempty, short⟩, (), starts, plain⟩

/-- A name passes from one holder to the next; either may be nobody. -/
structure Passes (authorized : Address → Bool) (registry : Registry) (name : Bytes)
    (holder next : Option Address) (registry' : Registry) : Prop where
  before : registry.names name = holder
  names : registry'.names = Function.update registry.names name next
  agreed : ∀ address, holder = some address ∨ next = some address → authorized address = true

section Calls

variable {authorized : Address → Bool} {registry registry' : Registry} {owner newOwner : Address}
  {name : Bytes}

theorem register_eq_ok (accepted : register authorized registry owner name = .ok registry') :
    Passes authorized registry name none (some owner) registry' ∧ ValidName name ∧
      registry.owners owner = none ∧
      registry'.owners = Function.update registry.owners owner (some name) := by
  simp only [register, bind_eq_ok, pure_eq_ok, requireAuth_eq_ok, validateName_eq_ok,
    assertThat_eq_ok] at accepted
  obtain ⟨_, authorized, _, valid, _, unclaimed, _, nameless, rfl⟩ := accepted
  refine ⟨⟨unclaimed, rfl, ?_⟩, valid, nameless, rfl⟩
  intro address agreed
  rcases agreed with impossible | same
  · cases impossible
  · cases same
    exact authorized

theorem release_eq_ok (paired : Paired registry.names registry.owners)
    (accepted : release authorized registry owner = .ok registry') :
    ∃ name, Passes authorized registry name (some owner) none registry' ∧
      registry'.owners = Function.update registry.owners owner none := by
  simp only [release, bind_eq_ok, pure_eq_ok, requireAuth_eq_ok, expect_eq_ok] at accepted
  obtain ⟨_, authorized, name, held, rfl⟩ := accepted
  refine ⟨name, ⟨(paired name owner).mpr held, rfl, ?_⟩, rfl⟩
  intro address agreed
  rcases agreed with same | impossible
  · cases same
    exact authorized
  · cases impossible

theorem transfer_eq_ok (paired : Paired registry.names registry.owners)
    (accepted : transfer authorized registry owner newOwner = .ok registry') :
    ∃ name, Passes authorized registry name (some owner) (some newOwner) registry' ∧
      registry.owners newOwner = none ∧
      registry'.owners = Function.update (Function.update registry.owners owner none) newOwner
        (some name) := by
  simp only [transfer, bind_eq_ok, pure_eq_ok, requireAuth_eq_ok, expect_eq_ok,
    assertThat_eq_ok] at accepted
  obtain ⟨_, authorized, _, authorized', name, held, _, nameless, rfl⟩ := accepted
  refine ⟨name, ⟨(paired name owner).mpr held, rfl, ?_⟩, nameless, rfl⟩
  intro address agreed
  rcases agreed with same | same
  · cases same
    exact authorized
  · cases same
    exact authorized'

end Calls

/-! ### Every state of every run -/

structure Consistent (registry : Registry) : Prop where
  paired : Paired registry.names registry.owners
  valid : ∀ name owner, registry.names name = some owner → ValidName name

theorem Consistent.empty : Consistent empty where
  paired := Pairing.paired_empty
  valid := fun _ _ impossible => by cases impossible

theorem Passes.valid {authorized : Address → Bool} {registry registry' : Registry} {name : Bytes}
    {holder next : Option Address} (passes : Passes authorized registry name holder next registry')
    (consistent : Consistent registry) (checked : ∀ owner, next = some owner → ValidName name)
    (other : Bytes) (owner : Address) (found : registry'.names other = some owner) :
    ValidName other := by
  rw [passes.names] at found
  by_cases same : other = name
  · subst other
    rw [Function.update_self] at found
    exact checked owner found
  · rw [Function.update_of_ne same] at found
    exact consistent.valid other owner found

/-- Both the old and the new holder of a changed name agreed, and no other name changed. -/
theorem Passes.changed {authorized : Address → Bool} {registry registry' : Registry}
    {passed name : Bytes} {holder next : Option Address}
    (passes : Passes authorized registry passed holder next registry')
    (changes : registry'.names name ≠ registry.names name) :
    (∀ address, registry.names name = some address → authorized address = true) ∧
    (∀ address, registry'.names name = some address → authorized address = true) ∧
    ∀ other, other ≠ name → registry'.names other = registry.names other := by
  rw [passes.names] at changes ⊢
  have here : name = passed := by
    apply Decidable.of_not_not
    intro different
    exact changes (Function.update_of_ne different _ _)
  subst passed
  refine ⟨?_, ?_, ?_⟩
  · intro address held
    exact passes.agreed address (Or.inl (passes.before.symm.trans held))
  · intro address holds
    rw [Function.update_self] at holds
    exact passes.agreed address (Or.inr holds)
  · intro other different
    exact Function.update_of_ne different _ _

theorem invoke_passes {registry registry' : Registry} {invocation : Invocation}
    (consistent : Consistent registry) (accepted : invoke registry invocation = .ok registry') :
    Consistent registry' ∧
      ∃ name holder next, Passes invocation.authorized registry name holder next registry' := by
  have paired := consistent.paired
  unfold invoke at accepted
  cases made : invocation.call with
  | register owner name =>
      rw [made] at accepted
      obtain ⟨passes, valid, nameless, owners⟩ := register_eq_ok accepted
      refine ⟨⟨?_, ?_⟩, name, none, some owner, passes⟩
      · rw [passes.names, owners]
        exact paired.link passes.before nameless
      · exact passes.valid consistent (fun _ _ => valid)
  | release owner =>
      rw [made] at accepted
      obtain ⟨name, passes, owners⟩ := release_eq_ok paired accepted
      refine ⟨⟨?_, ?_⟩, name, some owner, none, passes⟩
      · rw [passes.names, owners]
        exact paired.unlink passes.before
      · exact passes.valid consistent (fun _ impossible => by cases impossible)
  | transfer owner newOwner =>
      rw [made] at accepted
      obtain ⟨name, passes, nameless, owners⟩ := transfer_eq_ok paired accepted
      refine ⟨⟨?_, ?_⟩, name, some owner, some newOwner, passes⟩
      · rw [passes.names, owners]
        exact paired.relink passes.before nameless
      · exact passes.valid consistent (fun _ _ => consistent.valid name owner passes.before)

theorem invoke_of_step {registry registry' : Registry} {invocation : Invocation}
    (steps : step registry invocation = some registry') :
    invoke registry invocation = .ok registry' := by
  unfold step at steps
  cases invoked : invoke registry invocation with
  | error failure =>
      rw [invoked] at steps
      cases steps
  | ok result =>
      rw [invoked] at steps
      cases steps
      rfl

theorem consistent_stateAt (run : List Invocation) (time : Nat) :
    Consistent (stateAt run time) := by
  apply Run.invariant Consistent.empty
  intro time invocation after consistent accepted
  exact (invoke_passes consistent (invoke_of_step accepted.steps)).1

theorem stateAt_of_error {run : List Invocation} {time : Nat} {invocation : Invocation}
    {failure : RegistryFailure} (present : run[time]? = some invocation)
    (failed : invoke (stateAt run time) invocation = .error failure) :
    stateAt run (time + 1) = stateAt run time := by
  have rejected : step (stateAt run time) invocation = none := by
    unfold step
    rw [failed]
    rfl
  unfold stateAt at rejected ⊢
  rw [Run.stateAt_succ time invocation present, Run.advance, rejected]
  rfl

theorem registry_bijective (run : List Invocation) (time : Nat) :
    (∀ name owner, resolve (stateAt run time) name = some owner ↔
      lookup (stateAt run time) owner = some name) ∧
    (∀ name name' owner, resolve (stateAt run time) name = some owner →
      resolve (stateAt run time) name' = some owner → name = name') ∧
    (∀ name owner, resolve (stateAt run time) name = some owner → ValidName name) ∧
    (∀ invocation name, run[time]? = some invocation →
      resolve (stateAt run (time + 1)) name ≠ resolve (stateAt run time) name →
      (∀ holder, resolve (stateAt run time) name = some holder →
        invocation.authorized holder = true) ∧
      (∀ holder, resolve (stateAt run (time + 1)) name = some holder →
        invocation.authorized holder = true) ∧
      ∀ other, other ≠ name →
        resolve (stateAt run (time + 1)) other = resolve (stateAt run time) other) ∧
    (∀ invocation failure, run[time]? = some invocation →
      invoke (stateAt run time) invocation = .error failure →
      stateAt run (time + 1) = stateAt run time) := by
  have consistent := consistent_stateAt run time
  refine ⟨consistent.paired, ?_, consistent.valid, ?_, ?_⟩
  · intro _ _ _ found found'
    exact consistent.paired.injective found found'
  · intro invocation name present changes
    rcases Run.stateAt_succ_cases step empty run time with unchanged | ⟨invocation', accepted⟩
    · have same : stateAt run (time + 1) = stateAt run time := unchanged
      rw [same] at changes
      exact absurd rfl changes
    · cases present.symm.trans accepted.input_at
      obtain ⟨_, _, _, _, passes⟩ := invoke_passes consistent (invoke_of_step accepted.steps)
      exact passes.changed changes
  · intro invocation failure present failed
    exact stateAt_of_error present failed

end Nido.NameRegistry
