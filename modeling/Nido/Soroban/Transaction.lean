/-
Transactions as the client and the relayer pass them around: a host function
with the authorization entries that go with it.

Only what a modelled program reads is listed. Fees, sequence numbers and
resource data are left out, and a host function that is not a contract call
carries none of its data.
-/

import Nido.Soroban.Value

namespace Nido

inductive HostFunction
  | invokeContract (call : ContractContext)
  | createContract
  | createContractV2
  | uploadWasm
deriving DecidableEq

def HostFunction.functionName : HostFunction → Option String
  | .invokeContract call => some call.fnName
  | .createContract | .createContractV2 | .uploadWasm => none

/-- The arguments of a contract creation stay encoded. -/
inductive AuthorizedFunction
  | contractFn (call : ContractContext)
  | createContract (args : Bytes)
  | createContractV2 (args : Bytes)
deriving DecidableEq

inductive AuthorizedInvocation
  | mk (function : AuthorizedFunction) (subInvocations : List AuthorizedInvocation)

mutual

def AuthorizedInvocation.count : AuthorizedInvocation → Nat
  | .mk _ subInvocations => 1 + countAll subInvocations

def countAll : List AuthorizedInvocation → Nat
  | [] => 0
  | invocation :: rest => invocation.count + countAll rest

end

def AuthorizedInvocation.function : AuthorizedInvocation → AuthorizedFunction
  | .mk function _ => function

def AuthorizedInvocation.subInvocations : AuthorizedInvocation → List AuthorizedInvocation
  | .mk _ subInvocations => subInvocations

theorem AuthorizedInvocation.count_pos (invocation : AuthorizedInvocation) :
    0 < invocation.count := by
  cases invocation with
  | mk function subInvocations =>
      unfold AuthorizedInvocation.count
      omega

theorem AuthorizedInvocation.count_eq_one (invocation : AuthorizedInvocation) :
    invocation.count = 1 ↔ invocation.subInvocations = [] := by
  cases invocation with
  | mk function subInvocations =>
      unfold AuthorizedInvocation.count AuthorizedInvocation.subInvocations
      cases subInvocations with
      | nil => exact ⟨fun _ => rfl, fun _ => rfl⟩
      | cons first rest =>
          have more := first.count_pos
          unfold countAll
          constructor
          · intro single
            omega
          · intro impossible
            cases impossible

structure AddressCredentials where
  address : Address
  nonce : Int
  signatureExpirationLedger : Nat
  signature : ScVal

inductive Credentials
  | sourceAccount
  | address (credentials : AddressCredentials)

structure AuthEntry where
  credentials : Credentials
  rootInvocation : AuthorizedInvocation

structure InvokeHostFunctionOp where
  hostFunction : HostFunction
  auth : List AuthEntry

end Nido
