/-
One window for everybody.

Initiating, cancelling, completing and the guard of the account each compare
the clock with a stored pending in their own way. They all answer by the view
`has_pending`: live strictly before the expiry, and dead from that second on.
-/

import Nido.SmartAccount.Reference
import Nido.SmartAccount.Steps
import Nido.ZkRecovery.Operations

namespace Nido.ZkRecovery

open Contract

/-! ### Which failures each check can give -/

theorem scanRing_eq_error {ring : List (BytesN 32)} {head : Nat} {root : BytesN 32}
    {remaining i : Nat} {failure : Failure}
    (failed : scanRing ring head root remaining i = .error failure) : failure = .trap := by
  induction remaining generalizing i with
  | zero => cases failed
  | succ remaining ih =>
      simp only [scanRing, fetch, bind_eq_error, orFail_eq_error] at failed
      rcases failed with ⟨_, trapped⟩ | ⟨_, _, failed⟩
      · exact trapped.symm
      · split at failed
        · cases failed
        · exact ih failed

section Failures

variable {host : Host} {env : Env} {state : RecoveryState} {account : Address} {nonce : UInt64}
  {timelockSecs : UInt32} {root nullifier : BytesN 32} {failure : Failure}

theorem isKnownRoot_eq_error (failed : isKnownRoot host state root = .error failure) :
    failure = .trap := by
  unfold isKnownRoot at failed
  dsimp only at failed
  split at failed
  · simp only [fetch, bind_eq_error, orFail_eq_error, pure_ne_error, and_false, exists_false,
      or_false] at failed
    exact failed.2.symm
  · exact scanRing_eq_error failed

theorem requireKnownRoot_eq_error (failed : requireKnownRoot host state root = .error failure) :
    failure = .trap ∨ failure = RecoveryError.unknownRoot.failure := by
  simp only [requireKnownRoot, bind_eq_error, require_eq_error] at failed
  rcases failed with failed | ⟨_, _, _, failed⟩
  · exact Or.inl (isKnownRoot_eq_error failed)
  · exact Or.inr failed.symm

theorem bumpNonce_eq_error (failed : bumpNonce state account nonce = .error failure) :
    failure = .trap ∨ failure = RecoveryError.invalidNonce.failure := by
  simp only [bumpNonce, bind_eq_error, require_eq_error, pure_ne_error, and_false, exists_false,
    or_false] at failed
  rcases failed with failed | ⟨_, _, _, failed⟩
  · exact Or.inl (checkedAdd_eq_error failed)
  · exact Or.inr failed.symm

theorem requireUnused_eq_error (failed : requireUnused state nullifier = .error failure) :
    failure = RecoveryError.nullifierReserved.failure ∨
      failure = RecoveryError.nullifierSpent.failure := by
  unfold requireUnused at failed
  split at failed
  · cases failed
  · exact Or.inl (Except.error.inj failed).symm
  · exact Or.inr (Except.error.inj failed).symm

theorem checkCooldown_eq_error {now : UInt64}
    (failed : checkCooldown state account now = .error failure) :
    failure = RecoveryError.cooldownActive.failure := by
  unfold checkCooldown at failed
  split at failed
  · cases failed
  · exact (require_eq_error.mp failed).2.symm

theorem supersede_eq_error {now : UInt64} :
    supersede state account now = .error failure ↔
      (∃ existing, state.pending account = some existing ∧ now < existing.expiresAt) ∧
        RecoveryError.pendingExists.failure = failure := by
  unfold supersede
  cases found : state.pending account with
  | none =>
      constructor
      · intro impossible
        cases impossible
      · intro both
        obtain ⟨⟨_, impossible, _⟩, _⟩ := both
        cases impossible
  | some existing =>
      simp only [bind_eq_error, require_eq_error, pure_ne_error, and_false, exists_false, or_false,
        Decidable.not_not, Option.some.injEq, exists_eq_left']

end Failures

/-! ### The operations of the controller -/

section Window

variable {host : Host} {env : Env} {state : RecoveryState} {account : Address}

theorem earlierChecks_pendingExists {nonce : UInt64} {timelockSecs : UInt32}
    {root nullifier : BytesN 32} :
    earlierChecks host env state account nonce timelockSecs root nullifier =
        .error RecoveryError.pendingExists.failure ↔
      hasPending env state account = true := by
  rw [hasPending_eq_true]
  simp only [earlierChecks, bind_eq_error, supersede_eq_error, require_eq_error, pure_ne_error,
    and_false, exists_false, or_false, and_true]
  constructor
  · intro failed
    rcases failed with live | ⟨_, _, failed | ⟨_, _, failed | ⟨_, _, failed | ⟨_, _,
      ⟨_, failed⟩ | ⟨_, _, _, failed⟩⟩⟩⟩⟩
    · exact live
    · rcases requireKnownRoot_eq_error failed with impossible | impossible <;> cases impossible
    · rcases requireUnused_eq_error failed with impossible | impossible <;> cases impossible
    · rcases bumpNonce_eq_error failed with impossible | impossible <;> cases impossible
    · cases failed
    · cases failed
  · intro live
    exact Or.inl live

/-- An initiation is refused for a pending exactly while one is in flight. -/
theorem initiateRecovery_pendingExists {newPubkey : BytesN 65} {nonce : UInt64}
    {timelockSecs : UInt32} {root nullifier : BytesN 32} {proof : Bytes} :
    initiateRecovery host env state account newPubkey nonce timelockSecs root nullifier proof =
        .error RecoveryError.pendingExists.failure ↔
      hasPending env state account = true := by
  rw [initiateRecovery_eq, bind_eq_error, earlierChecks_pendingExists]
  constructor
  · intro failed
    rcases failed with live | ⟨checked, _, failed⟩
    · exact live
    · rcases bind_eq_error.mp failed with failed | ⟨_, _, failed⟩
      · rw [checkRateLimit_eq] at failed
        split at failed <;> cases failed
      · rcases laterSteps_eq_error failed with impossible | impossible <;> cases impossible
  · intro live
    exact Or.inl live

/-- A cancellation is refused for lack of one exactly while none is. -/
theorem cancelRecovery_noPending {nonce : UInt64} {root nullifier : BytesN 32} {proof : Bytes}
    (authorized : env.authorized account = true) :
    cancelRecovery host env state account nonce root nullifier proof =
        .error RecoveryError.noPending.failure ↔
      hasPending env state account = false := by
  have entered : env.requireAuth account = .ok () := (require_eq_ok _ _ _).mpr authorized
  have dead : (state.pending account).filter
      (fun pending => decide (env.timestamp < pending.expiresAt)) = none ↔
      hasPending env state account = false := by
    rw [Option.filter_eq_none_iff, hasPending_eq_false]
    simp only [decide_eq_true_iff, UInt64.not_lt]
  simp only [cancelRecovery, entered, bind_eq_error, reduceCtorEq, false_or, exists_const,
    true_and, orFail_eq_error, require_eq_error, dead, and_true, pure_ne_error, and_false, or_false]
  constructor
  · intro failed
    rcases failed with none_ | ⟨_, _, ⟨_, failed⟩ | ⟨_, _, failed | ⟨_, _, failed | ⟨_, _,
      failed | ⟨_, _, failed | ⟨_, _, failed⟩⟩⟩⟩⟩⟩
    · exact none_
    · cases failed
    · cases checkCooldown_eq_error failed
    · rcases bumpNonce_eq_error failed with impossible | impossible <;> cases impossible
    · rcases requireKnownRoot_eq_error failed with impossible | impossible <;> cases impossible
    · rcases verifyProof_eq_error failed with impossible | impossible <;> cases impossible
    · unfold checkedSucc at failed
      split at failed <;> cases failed
  · intro none_
    exact Or.inl none_

/-- Only a live pending whose delay has elapsed is consumed. -/
theorem enforce_live {context : Context} {signers : List Signer} {contextRule : ContextRule}
    {state' : RecoveryState}
    (accepted : enforce env state context signers contextRule account = .ok state') :
    hasPending env state account = true ∧
      ∃ pending, state.pending account = some pending ∧
        pending.executableAfter ≤ env.timestamp := by
  obtain ⟨pending, completed⟩ := enforce_eq_ok signers accepted
  constructor
  · exact hasPending_eq_true.mpr ⟨pending, completed.found, completed.unexpired⟩
  · exact ⟨pending, completed.found, completed.elapsed⟩

theorem hasPending_earlier {env' : Env} {state' : RecoveryState}
    (unchanged : state'.pending account = state.pending account)
    (earlier : env.timestamp ≤ env'.timestamp) (live : hasPending env' state' account = true) :
    hasPending env state account = true := by
  obtain ⟨pending, found, unexpired⟩ := hasPending_eq_true.mp live
  rw [unchanged] at found
  exact hasPending_eq_true.mpr ⟨pending, found, UInt64.lt_of_le_of_lt earlier unexpired⟩

end Window

end Nido.ZkRecovery

namespace Nido.SmartAccount

open Contract
open ZkRecovery (RecoveryState RecoveryError Authorization hasPending initiateRecovery
  cancelRecovery enforce InitiateValid CancelValid)

namespace System

variable {system : System} {ledger : Ledger} {world : system.State} {controller : Address}
  {state : RecoveryState}

theorem guardNoPending_eq (stored : world.account.recoveryController = some controller)
    (elsewhere : controller ≠ system.self) (genuine : world.controllers controller = some state) :
    system.guardNoPending ledger world =
      if hasPending
          { currentContract := controller
            timestamp := ledger.timestamp
            authorized := system.asInvoker } state system.self = true then
        .error NidoSmartAccountError.recoveryPendingBlocked.failure
      else
        .ok world := by
  simp only [guardNoPending, guardLivePending, hasLivePending, stored, genuine, require, ne_eq,
    elsewhere, not_false_eq_true, if_true, bind, Except.bind, pure, Except.pure]
  cases hasPending _ state system.self <;> rfl

end System

theorem pending_window_shared (system : System) (env : Env) (state : RecoveryState)
    (account : Address) :
    (∀ newPubkey nonce timelockSecs root nullifier proof,
      initiateRecovery system.host env state account newPubkey nonce timelockSecs root nullifier
          proof = .error RecoveryError.pendingExists.failure ↔
        hasPending env state account = true) ∧
    (env.authorized account = true → ∀ nonce root nullifier proof,
      cancelRecovery system.host env state account nonce root nullifier proof =
          .error RecoveryError.noPending.failure ↔
        hasPending env state account = false) ∧
    (∀ context signers contextRule state',
      enforce env state context signers contextRule account = .ok state' →
        hasPending env state account = true ∧
          ∃ pending, state.pending account = some pending ∧
            pending.executableAfter ≤ env.timestamp) ∧
    (∀ ledger (world : system.State) controller,
      world.account.recoveryController = some controller → controller ≠ system.self →
      world.controllers controller = some state →
      ∀ later state' context signers contextRule state'',
        ledger.timestamp ≤ later.timestamp →
        state'.pending system.self = state.pending system.self →
        enforce later state' context signers contextRule system.self = .ok state'' →
          system.guardNoPending ledger world =
            .error NidoSmartAccountError.recoveryPendingBlocked.failure) ∧
    (∀ pending, state.pending account = some pending →
      ∀ newPubkey timelockSecs nonce root nullifier proof nonce' root' nullifier' proof',
        InitiateValid system.host env state
          (.initiate account newPubkey nonce timelockSecs root nullifier) proof →
        CancelValid system.host env state (.cancel account nonce' root' nullifier') proof' →
          ((∃ result, initiateRecovery system.host env state account newPubkey nonce timelockSecs
              root nullifier proof = .ok result) ↔
            ¬ ∃ result, cancelRecovery system.host env state account nonce' root' nullifier'
              proof' = .ok result)) := by
  refine ⟨?_, ?_, ?_, ?_, ?_⟩
  · intro _ _ _ _ _ _
    exact ZkRecovery.initiateRecovery_pendingExists
  · intro authorized _ _ _ _
    exact ZkRecovery.cancelRecovery_noPending authorized
  · intro _ _ _ _ accepted
    exact ZkRecovery.enforce_live accepted
  · intro ledger world controller stored elsewhere genuine later state' _ _ _ _ earlier unchanged
      accepted
    obtain ⟨live, _⟩ := ZkRecovery.enforce_live accepted
    rw [System.guardNoPending_eq stored elsewhere genuine]
    apply if_pos
    exact ZkRecovery.hasPending_earlier unchanged earlier live
  · intro _ _ _ _ _ _ _ _ _ _ _ _ initiable cancellable
    simp only [ZkRecovery.initiateRecovery_exact, ZkRecovery.cancelRecovery_exact, initiable,
      cancellable, true_and, exists_and_left, exists_eq', and_true, Bool.not_eq_true]

/-- Ten seconds into the recovery the account is guarded, and from its last
second on there is nothing to cancel. -/
theorem pending_window_shared_inFlight :
    Reference.system.guardNoPending { timestamp := 210, sequence := 20, transaction := 3 }
        (Reference.system.stateAt Reference.start
          (Reference.recovering Reference.enrolment) 2) =
      .error NidoSmartAccountError.recoveryPendingBlocked.failure ∧
    ∀ nonce root nullifier proof,
      cancelRecovery Reference.system.host
          { currentContract := Reference.controller
            timestamp := 1814600
            authorized := fun _ => true }
          Reference.initiated Reference.system.self nonce root nullifier proof =
        .error RecoveryError.noPending.failure := by
  have evaluated :
      (Reference.system.stateAt Reference.start
          (Reference.recovering Reference.enrolment) 2).account.recoveryController =
        some Reference.controller ∧
      ((Reference.system.stateAt Reference.start
          (Reference.recovering Reference.enrolment) 2).controllers
        Reference.controller).isSome = true ∧
      (enforce
        { currentContract := Reference.controller
          timestamp := 1209800
          authorized := fun _ => true }
        Reference.initiated ZkRecovery.Reference.completionContext [] Reference.recoveryRule
        Reference.system.self).toOption.isSome = true := by
    decide +kernel
  obtain ⟨stored, genuine, completes⟩ := evaluated
  obtain ⟨state, found⟩ := Option.isSome_iff_exists.mp genuine
  have here : Reference.initiated = state := by
    unfold Reference.initiated
    rw [found]
    rfl
  obtain ⟨after, completed⟩ := exists_of_isSome completes
  have elsewhere : Reference.controller ≠ Reference.system.self := by decide
  constructor
  · obtain ⟨_, _, _, guarded, _⟩ := pending_window_shared Reference.system
      { currentContract := Reference.controller, timestamp := 210, authorized := fun _ => true }
      state Reference.system.self
    refine guarded _ _ Reference.controller stored elsewhere found _ Reference.initiated _ _ _ after
      ?_ ?_ completed
    · decide
    · rw [here]
  · obtain ⟨_, cancels, _⟩ := pending_window_shared Reference.system
      { currentContract := Reference.controller, timestamp := 1814600, authorized := fun _ => true }
      Reference.initiated Reference.system.self
    intro nonce root nullifier proof
    apply (cancels rfl nonce root nullifier proof).mpr
    rw [ZkRecovery.hasPending_eq_false]
    intro pending present
    cases Reference.initiated_pending.symm.trans present
    decide

end Nido.SmartAccount
