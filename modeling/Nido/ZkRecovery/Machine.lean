/-
The recovery controller as a machine: every state-changing entry point, called
at any time under any authorizations, a failed call leaving no trace.

`Outcome` says once what an accepted call has done. The invariants of the
claims are derived from it and never from the entry points again.
-/

import Nido.Library.Run
import Nido.ZkRecovery.Policy

namespace Nido.ZkRecovery

open Contract

inductive Call
  | insert (account : Address) (commitment : BytesN 32)
  | insertFor (account : Address) (commitment : BytesN 32)
  | initiateRecovery (account : Address) (newPubkey : BytesN 65) (nonce : UInt64)
      (timelockSecs : UInt32) (root nullifier : BytesN 32) (proof : Bytes)
  | cancelRecovery (account : Address) (nonce : UInt64) (root nullifier : BytesN 32)
      (proof : Bytes)
  | burnNullifier (account : Address) (nonce : UInt64) (root nullifier : BytesN 32)
      (proof : Bytes)
  | install (installParams : ZkRecoveryInstallParams) (contextRule : ContextRule)
      (smartAccount : Address)
  | enforce (context : Context) (authenticatedSigners : List Signer) (contextRule : ContextRule)
      (smartAccount : Address)
  | uninstall (contextRule : ContextRule) (smartAccount : Address)

/-- A call with what the ledger supplies: the closing time and the answers of
`require_auth`. -/
structure Invocation where
  timestamp : UInt64
  authorized : Address → Bool
  call : Call

/-- An instance of the contract: its host, its address and its configuration. -/
structure Deployment where
  host : Host
  self : Address
  config : RecoveryConfig

def Invocation.env (invocation : Invocation) (self : Address) : Env where
  currentContract := self
  timestamp := invocation.timestamp
  authorized := invocation.authorized

def invoke (host : Host) (env : Env) (state : RecoveryState) (call : Call) :
    Contract RecoveryState :=
  match call with
  | .insert account commitment => do
      let (_, state) ← insert host env state account commitment
      pure state
  | .insertFor account commitment => do
      let (_, state) ← insertFor host env state account commitment
      pure state
  | .initiateRecovery account newPubkey nonce timelockSecs root nullifier proof => do
      let (_, state) ←
        initiateRecovery host env state account newPubkey nonce timelockSecs root nullifier proof
      pure state
  | .cancelRecovery account nonce root nullifier proof => do
      let (_, state) ← cancelRecovery host env state account nonce root nullifier proof
      pure state
  | .burnNullifier account nonce root nullifier proof =>
      burnNullifier host env state account nonce root nullifier proof
  | .install installParams contextRule smartAccount =>
      install env state installParams contextRule smartAccount
  | .enforce context authenticatedSigners contextRule smartAccount =>
      enforce env state context authenticatedSigners contextRule smartAccount
  | .uninstall contextRule smartAccount => uninstall env state contextRule smartAccount

def Call.authorization : Call → Option (Authorization × Bytes)
  | .initiateRecovery account newPubkey nonce timelockSecs root nullifier proof =>
      some (.initiate account newPubkey nonce timelockSecs root nullifier, proof)
  | .cancelRecovery account nonce root nullifier proof =>
      some (.cancel account nonce root nullifier, proof)
  | .burnNullifier account nonce root nullifier proof =>
      some (.revoke account nonce root nullifier, proof)
  | _ => none

/-- What an accepted call has checked and done. -/
inductive Outcome (host : Host) (env : Env) (state : RecoveryState) :
    Call → RecoveryState → Prop
  | insert {account commitment stored state'}
      (authorized : env.authorized state.config.factory = true)
      (inserted : Inserted host state account commitment state' stored) :
      Outcome host env state (.insert account commitment) state'
  | insertFor {account commitment stored state'}
      (authorized : env.authorized account = true)
      (inserted : Inserted host state account commitment state' stored) :
      Outcome host env state (.insertFor account commitment) state'
  | initiate {account newPubkey nonce timelockSecs root nullifier proof pending state'}
      (initiated : Initiated host env state
        (.initiate account newPubkey nonce timelockSecs root nullifier) proof pending state') :
      Outcome host env state
        (.initiateRecovery account newPubkey nonce timelockSecs root nullifier proof) state'
  | cancel {account nonce root nullifier proof pending state'}
      (cancelled : Cancelled host env state
        (.cancel account nonce root nullifier) proof pending state') :
      Outcome host env state (.cancelRecovery account nonce root nullifier proof) state'
  | burn {account nonce root nullifier proof state'}
      (burned : Burned host env state
        (.revoke account nonce root nullifier) proof state') :
      Outcome host env state (.burnNullifier account nonce root nullifier proof) state'
  | install {installParams contextRule smartAccount state'}
      (installed : Installed env state contextRule smartAccount state') :
      Outcome host env state (.install installParams contextRule smartAccount) state'
  | complete {context signers contextRule smartAccount pending state'}
      (completed : Completed env state context contextRule smartAccount pending state') :
      Outcome host env state (.enforce context signers contextRule smartAccount) state'

theorem invoke_outcome {host : Host} {env : Env} {state state' : RecoveryState} {call : Call}
    (accepted : invoke host env state call = .ok state') :
    Outcome host env state call state' := by
  cases call with
  | insert account commitment =>
      simp only [invoke, bind_eq_ok, pure_eq_ok, Prod.exists] at accepted
      obtain ⟨_, _, accepted, rfl⟩ := accepted
      obtain ⟨authorized, _, inserted⟩ := insert_eq_ok accepted
      exact .insert authorized inserted
  | insertFor account commitment =>
      simp only [invoke, bind_eq_ok, pure_eq_ok, Prod.exists] at accepted
      obtain ⟨_, _, accepted, rfl⟩ := accepted
      obtain ⟨authorized, _, inserted⟩ := insertFor_eq_ok accepted
      exact .insertFor authorized inserted
  | initiateRecovery account newPubkey nonce timelockSecs root nullifier proof =>
      simp only [invoke, bind_eq_ok, pure_eq_ok, Prod.exists] at accepted
      obtain ⟨_, _, accepted, rfl⟩ := accepted
      obtain ⟨_, initiated⟩ := initiateRecovery_eq_ok accepted
      exact .initiate initiated
  | cancelRecovery account nonce root nullifier proof =>
      simp only [invoke, bind_eq_ok, pure_eq_ok, Prod.exists] at accepted
      obtain ⟨_, _, accepted, rfl⟩ := accepted
      obtain ⟨_, cancelled⟩ := cancelRecovery_eq_ok accepted
      exact .cancel cancelled
  | burnNullifier account nonce root nullifier proof => exact .burn (burnNullifier_eq_ok accepted)
  | install installParams contextRule smartAccount =>
      exact .install (install_eq_ok installParams accepted)
  | enforce context signers contextRule smartAccount =>
      obtain ⟨_, completed⟩ := enforce_eq_ok signers accepted
      exact .complete completed
  | uninstall contextRule smartAccount =>
      exact absurd accepted (uninstall_refuses env state state' contextRule smartAccount)

/-- What the three proof-carrying calls have in common. -/
structure Authorized (host : Host) (env : Env) (state : RecoveryState)
    (authorization : Authorization) (proof : Bytes) (state' : RecoveryState) : Prop where
  knownRoot : isKnownRoot host state authorization.root = .ok true
  nonceNext : authorization.nonce.toNat = (storedNonce state authorization.account).toNat + 1
  verified : Verified host env.currentContract state.config authorization proof
  nonces : state'.nonce =
    Function.update state.nonce authorization.account (some authorization.nonce)

theorem Outcome.authorized {host : Host} {env : Env} {state state' : RecoveryState} {call : Call}
    {authorization : Authorization} {proof : Bytes} (outcome : Outcome host env state call state')
    (carries : call.authorization = some (authorization, proof)) :
    Authorized host env state authorization proof state' := by
  cases outcome with
  | initiate initiated =>
      cases carries
      exact ⟨initiated.knownRoot, initiated.nonceNext, initiated.verified, initiated.nonces⟩
  | cancel cancelled =>
      cases carries
      exact ⟨cancelled.knownRoot, cancelled.nonceNext, cancelled.verified, cancelled.nonces⟩
  | burn burned =>
      cases carries
      exact ⟨burned.knownRoot, burned.nonceNext, burned.verified, burned.nonces⟩
  | insert | insertFor | install | complete => cases carries

theorem Outcome.nonce_of_none {host : Host} {env : Env} {state state' : RecoveryState}
    {call : Call} (outcome : Outcome host env state call state')
    (absent : call.authorization = none) : state'.nonce = state.nonce := by
  cases outcome with
  | insert _ inserted | insertFor _ inserted =>
      obtain ⟨_, _, _, _, _, after⟩ := inserted.after
      rw [after]
  | initiate | cancel | burn => cases absent
  | install installed => rw [installed.after]
  | complete completed => rw [completed.after]

theorem Outcome.config {host : Host} {env : Env} {state state' : RecoveryState} {call : Call}
    (outcome : Outcome host env state call state') : state'.config = state.config := by
  cases outcome with
  | insert _ inserted | insertFor _ inserted =>
      obtain ⟨_, _, _, _, _, after⟩ := inserted.after
      rw [after]
  | initiate initiated =>
      obtain ⟨_, after⟩ := initiated.after
      rw [after]
  | cancel cancelled =>
      obtain ⟨_, after⟩ := cancelled.after
      rw [after]
  | burn burned => rw [burned.after]
  | install installed => rw [installed.after]
  | complete completed => rw [completed.after]

namespace Deployment

variable (deployment : Deployment)

/-- A failed call is rolled back, so a run never stops. -/
def step (state : RecoveryState) (invocation : Invocation) : Option RecoveryState :=
  (invoke deployment.host (invocation.env deployment.self) state invocation.call).toOption

def start : RecoveryState := construct deployment.config

def stateAt (run : List Invocation) (time : Nat) : RecoveryState :=
  Run.stateAt deployment.step deployment.start run time

abbrev Accepts (run : List Invocation) (time : Nat) (invocation : Invocation) : Prop :=
  Run.Accepts deployment.step deployment.start run time invocation
    (deployment.stateAt run (time + 1))

variable {deployment} {run : List Invocation} {time : Nat} {invocation : Invocation}

theorem step_invoked {state state' : RecoveryState}
    (accepted : deployment.step state invocation = some state') :
    invoke deployment.host (invocation.env deployment.self) state invocation.call =
      .ok state' := by
  unfold step at accepted
  cases invoked : invoke deployment.host (invocation.env deployment.self) state
      invocation.call with
  | error failure =>
      rw [invoked] at accepted
      cases accepted
  | ok result =>
      rw [invoked] at accepted
      cases accepted
      rfl

theorem step_eq_some {state state' : RecoveryState}
    (accepted : deployment.step state invocation = some state') :
    Outcome deployment.host (invocation.env deployment.self) state invocation.call state' :=
  invoke_outcome (step_invoked accepted)

theorem Accepts.invoked (accepted : deployment.Accepts run time invocation) :
    invoke deployment.host (invocation.env deployment.self) (deployment.stateAt run time)
      invocation.call = .ok (deployment.stateAt run (time + 1)) :=
  step_invoked accepted.steps

theorem Accepts.outcome (accepted : deployment.Accepts run time invocation) :
    Outcome deployment.host (invocation.env deployment.self) (deployment.stateAt run time)
      invocation.call (deployment.stateAt run (time + 1)) :=
  step_eq_some accepted.steps

theorem accepts_of_isSome (present : run[time]? = some invocation)
    (succeeds : (deployment.step (deployment.stateAt run time) invocation).isSome = true) :
    deployment.Accepts run time invocation := by
  obtain ⟨_, stepped⟩ := Option.isSome_iff_exists.mp succeeds
  exact Run.Accepts.here ⟨present, stepped⟩

theorem invariant (Inv : RecoveryState → Prop) (initial : Inv deployment.start)
    (preserved : ∀ time invocation, deployment.Accepts run time invocation →
      Inv (deployment.stateAt run time) → Inv (deployment.stateAt run (time + 1)))
    (time : Nat) : Inv (deployment.stateAt run time) := by
  apply Run.invariant initial
  intro time invocation after before accepted
  have here : deployment.stateAt run (time + 1) = after := accepted.stateAt_succ
  rw [← here] at accepted ⊢
  exact preserved time invocation accepted before

theorem established (Holds : RecoveryState → Prop) (initially : ¬ Holds deployment.start)
    (now : Holds (deployment.stateAt run time)) :
    ∃ earlier < time, ∃ invocation, deployment.Accepts run earlier invocation ∧
      ¬ Holds (deployment.stateAt run earlier) ∧
      ∀ between, earlier < between → between ≤ time → Holds (deployment.stateAt run between) :=
  Run.established initially now

theorem persistent (Stable : RecoveryState → Prop)
    (preserved : ∀ state invocation after, Stable state →
      deployment.step state invocation = some after → Stable after)
    {early late : Nat} (ordered : early ≤ late) (holds : Stable (deployment.stateAt run early)) :
    Stable (deployment.stateAt run late) :=
  Run.persistent preserved ordered holds

theorem config_stateAt (run : List Invocation) (time : Nat) :
    (deployment.stateAt run time).config = deployment.config := by
  refine invariant (fun state => state.config = deployment.config) rfl ?_ time
  intro time invocation accepted same
  rw [accepted.outcome.config, same]

end Deployment

end Nido.ZkRecovery
