/-
The four operations on one account, exactly: each succeeds if and only if its
conditions hold, and then leaves one state. The liveness of a pending is kept
apart from the other conditions; it is the one that the operations disagree on.
-/

import Nido.ZkRecovery.RateLimit

namespace Nido.ZkRecovery

open Contract

theorem checkedAdd_exact {left right sum : UInt64} :
    checkedAdd left right = .ok sum ↔ left.toNat + right.toNat < 2 ^ 64 ∧ left + right = sum := by
  unfold checkedAdd
  split
  · rename_i fits
    rw [Except.ok.injEq]
    exact (and_iff_right fits).symm
  · rename_i overflows
    constructor
    · intro impossible
      cases impossible
    · intro both
      exact absurd both.1 overflows

theorem checkedSucc_of_lt {number cap : UInt32} (below : number < cap) :
    checkedSucc number = .ok (number + 1) := by
  have bound := cap.toNat_lt
  rw [UInt32.lt_iff_toNat_lt] at below
  unfold checkedSucc
  exact if_pos (by omega)

theorem hasPending_eq_true {env : Env} {state : RecoveryState} {account : Address} :
    hasPending env state account = true ↔
      ∃ pending, state.pending account = some pending ∧ env.timestamp < pending.expiresAt := by
  unfold hasPending
  rw [Option.any_eq_true_iff_get]
  constructor
  · intro live
    obtain ⟨present, live⟩ := live
    exact ⟨_, (Option.some_get present).symm, of_decide_eq_true live⟩
  · intro live
    obtain ⟨pending, found, live⟩ := live
    simp only [found, Option.isSome_some, Option.get_some, live, decide_true, exists_const]

theorem hasPending_eq_false {env : Env} {state : RecoveryState} {account : Address} :
    hasPending env state account = false ↔
      ∀ pending, state.pending account = some pending → pending.expiresAt ≤ env.timestamp := by
  rw [← Bool.not_eq_true, hasPending_eq_true]
  constructor
  · intro dead pending found
    rw [← UInt64.not_lt]
    intro live
    exact dead ⟨pending, found, live⟩
  · intro expired live
    obtain ⟨pending, found, live⟩ := live
    exact UInt64.not_lt.mpr (expired pending found) live

section Operations

variable (host : Host) (env : Env) (state : RecoveryState) (authorization : Authorization)
  (proof : Bytes)

/-! ### Initiating -/

/-- All that an initiation needs besides that no recovery is in flight. -/
structure InitiateValid : Prop where
  knownRoot : isKnownRoot host state authorization.root = .ok true
  unused : withoutReservation state authorization.account authorization.nullifier = none
  nonceNext : authorization.nonce.toNat = (storedNonce state authorization.account).toNat + 1
  floor : ¬ authorization.timelockSecs.toUInt64 < state.config.timelockFloorSecs
  timelock : authorization.timelockSecs.toUInt64 = state.config.delaySecs
  belowLimit :
    (countIn env.timestamp (storedWindow state authorization.account)).length < 3
  verified : Verified host env.currentContract state.config authorization proof
  executable : env.timestamp.toNat + state.config.delaySecs.toNat < 2 ^ 64
  expires : (env.timestamp + state.config.delaySecs).toNat +
    state.config.completionWindowSecs.toNat < 2 ^ 64

def pendingOf : PendingRecovery where
  newPubkey := authorization.newPubkey
  nullifier := authorization.nullifier
  initiatedAt := env.timestamp
  executableAfter := env.timestamp + state.config.delaySecs
  expiresAt := env.timestamp + state.config.delaySecs + state.config.completionWindowSecs

def afterInitiation : RecoveryState :=
  { state with
    nullifier := Function.update (withoutReservation state authorization.account)
      authorization.nullifier (some (.reserved authorization.account))
    pending := Function.update state.pending authorization.account
      (some (pendingOf env state authorization))
    nonce := Function.update state.nonce authorization.account (some authorization.nonce)
    rateWindow := Function.update state.rateWindow authorization.account
      (some (countIn env.timestamp (storedWindow state authorization.account) ++ [env.timestamp]))
    events := state.events ++ [.recoveryInitiated authorization.account
      (host.sha256 authorization.newPubkey.data) (env.timestamp + state.config.delaySecs)] }

theorem checkRateLimit_exact {state state' : RecoveryState} {account : Address} {now : UInt64} :
    checkRateLimit state account now = .ok state' ↔
      (countIn now (storedWindow state account)).length < 3 ∧
        state.setRateWindow account (countIn now (storedWindow state account) ++ [now]) =
          state' := by
  rw [checkRateLimit_eq]
  split
  · rename_i few
    rw [Except.ok.injEq]
    exact (and_iff_right few).symm
  · rename_i many
    constructor
    · intro impossible
      cases impossible
    · intro both
      exact absurd both.1 many

theorem initiateRecovery_exact {account : Address} {newPubkey : BytesN 65} {nonce : UInt64}
    {timelockSecs : UInt32} {root nullifier : BytesN 32} {proof : Bytes}
    {result : UInt64 × RecoveryState} :
    initiateRecovery host env state account newPubkey nonce timelockSecs root nullifier proof =
        .ok result ↔
      hasPending env state account = false ∧
      InitiateValid host env state (.initiate account newPubkey nonce timelockSecs root nullifier)
        proof ∧
      (env.timestamp + state.config.delaySecs, afterInitiation host env state
        (.initiate account newPubkey nonce timelockSecs root nullifier)) = result := by
  simp only [initiateRecovery, bind_eq_ok, pure_eq_ok, supersede_eq_ok, requireKnownRoot,
    requireUnused_eq_ok, bumpNonce_eq_ok, require_eq_ok, verifyProof_eq_ok, checkRateLimit_exact,
    checkedAdd_exact, hasPending_eq_false]
  constructor
  · intro accepted
    obtain ⟨_, ⟨notLive, rfl⟩, _, ⟨_, knownRoot, rfl⟩, _, unused, _, ⟨nonceNext, rfl⟩, _, floor, _,
      timelock, _, ⟨belowLimit, rfl⟩, _, verified, _, ⟨executable, rfl⟩, _, ⟨expires, rfl⟩,
      rfl⟩ := accepted
    exact ⟨notLive,
      { knownRoot := knownRoot
        unused
        nonceNext
        floor
        timelock
        belowLimit
        verified
        executable
        expires }, rfl⟩
  · intro conditions
    obtain ⟨notLive, valid, rfl⟩ := conditions
    exact ⟨_, ⟨notLive, rfl⟩, (), ⟨true, valid.knownRoot, rfl⟩, (), valid.unused, _,
      ⟨valid.nonceNext, rfl⟩, (), valid.floor, (), valid.timelock, _, ⟨valid.belowLimit, rfl⟩, (),
      valid.verified, _, ⟨valid.executable, rfl⟩, _, ⟨valid.expires, rfl⟩, rfl⟩

/-! ### Cancelling -/

/-- All that a cancellation needs besides a recovery in flight. -/
structure CancelValid : Prop where
  authorized : env.authorized authorization.account = true
  belowCap : cancelsUsed state authorization.account < state.config.maxCancels
  cooled : ∀ last, state.lastCancel authorization.account = some last →
    ¬ saturatingSub env.timestamp last < cancelCooldownSecs
  nonceNext : authorization.nonce.toNat = (storedNonce state authorization.account).toNat + 1
  knownRoot : isKnownRoot host state authorization.root = .ok true
  verified : Verified host env.currentContract state.config authorization proof

def afterCancellation : RecoveryState :=
  { state with
    nullifier := withoutReservation state authorization.account
    pending := Function.update state.pending authorization.account none
    nonce := Function.update state.nonce authorization.account (some authorization.nonce)
    cancels := Function.update state.cancels authorization.account
      (some (cancelsUsed state authorization.account + 1))
    lastCancel := Function.update state.lastCancel authorization.account (some env.timestamp)
    events := state.events ++ [.recoveryCanceled authorization.account
      (cancelsUsed state authorization.account + 1)] }

theorem checkCooldown_eq_ok {state : RecoveryState} {account : Address} {now : UInt64}
    {result : Unit} :
    checkCooldown state account now = .ok result ↔
      ∀ last, state.lastCancel account = some last →
        ¬ saturatingSub now last < cancelCooldownSecs := by
  unfold checkCooldown
  cases found : state.lastCancel account with
  | none =>
      constructor
      · intro _passed last impossible
        cases impossible
      · intro _cooled
        rfl
  | some last =>
      simp only [require_eq_ok, Option.some.injEq, forall_eq']

theorem cancelRecovery_exact {account : Address} {nonce : UInt64} {root nullifier : BytesN 32}
    {proof : Bytes} {result : UInt32 × RecoveryState} :
    cancelRecovery host env state account nonce root nullifier proof = .ok result ↔
      hasPending env state account = true ∧
      CancelValid host env state (.cancel account nonce root nullifier) proof ∧
      (cancelsUsed state account + 1, afterCancellation env state
        (.cancel account nonce root nullifier)) = result := by
  simp only [cancelRecovery, Env.requireAuth, bind_eq_ok, pure_eq_ok, requireKnownRoot,
    bumpNonce_eq_ok, require_eq_ok, orFail_eq_ok, Option.filter_eq_some_iff, decide_eq_true_iff,
    verifyProof_eq_ok, checkCooldown_eq_ok, hasPending_eq_true]
  have released {pending : PendingRecovery} (found : state.pending account = some pending) :
      releaseReservationIfOwned (state.setNonce account nonce) pending.nullifier account =
        { state.setNonce account nonce with
          nullifier := withoutReservation (state.setNonce account nonce) account } :=
    @releaseReservationIfOwned_eq (state.setNonce account nonce) account pending found
  constructor
  · intro accepted
    obtain ⟨_, authorized, pending, ⟨found, live⟩, _, belowCap, _, cooled, _, ⟨nonceNext, rfl⟩, _,
      ⟨_, knownRoot, rfl⟩, _, verified, used, counted, rfl⟩ := accepted
    have belowCap := UInt32.not_le.mp belowCap
    cases (checkedSucc_of_lt belowCap).symm.trans counted
    refine ⟨⟨pending, found, live⟩,
      { authorized := authorized
        belowCap
        cooled
        nonceNext
        knownRoot
        verified }, ?_⟩
    rw [released found]
    rfl
  · intro conditions
    obtain ⟨⟨pending, found, live⟩, valid, rfl⟩ := conditions
    refine ⟨(), valid.authorized, pending, ⟨found, live⟩, (), UInt32.not_le.mpr valid.belowCap, (),
      valid.cooled, _, ⟨valid.nonceNext, rfl⟩, (), ⟨true, valid.knownRoot, rfl⟩, (),
      valid.verified, _, checkedSucc_of_lt valid.belowCap, ?_⟩
    rw [released found]
    rfl

/-! ### Burning -/

structure BurnValid : Prop where
  authorized : env.authorized authorization.account = true
  knownRoot : isKnownRoot host state authorization.root = .ok true
  nonceNext : authorization.nonce.toNat = (storedNonce state authorization.account).toNat + 1
  notSpent : state.nullifier authorization.nullifier ≠ some .spent
  verified : Verified host env.currentContract state.config authorization proof

def afterBurn : RecoveryState :=
  { state with
    nullifier := Function.update state.nullifier authorization.nullifier (some .spent)
    pending := withoutPending state authorization.account authorization.nullifier
    nonce := Function.update state.nonce authorization.account (some authorization.nonce)
    events := state.events ++
      [.nullifierBurned authorization.account authorization.nullifier] }

theorem burnNullifier_exact {state' : RecoveryState} {account : Address} {nonce : UInt64}
    {root nullifier : BytesN 32} {proof : Bytes} :
    burnNullifier host env state account nonce root nullifier proof = .ok state' ↔
      BurnValid host env state (.revoke account nonce root nullifier) proof ∧
      afterBurn state (.revoke account nonce root nullifier) = state' := by
  have aborted : (abortPending (state.setNonce account nonce) account nullifier) =
      { state.setNonce account nonce with
        pending := withoutPending (state.setNonce account nonce) account nullifier } :=
    abortPending_eq _ _ _
  simp only [burnNullifier, Env.requireAuth, requireNotSpent, bind_eq_ok, pure_eq_ok,
    requireKnownRoot, bumpNonce_eq_ok, require_eq_ok, verifyProof_eq_ok]
  constructor
  · intro accepted
    obtain ⟨_, authorized, _, ⟨_, knownRoot, rfl⟩, _, ⟨nonceNext, rfl⟩, _, notSpent, _, verified,
      rfl⟩ := accepted
    refine ⟨
      { authorized := authorized
        knownRoot
        nonceNext
        notSpent
        verified }, ?_⟩
    rw [aborted]
    rfl
  · intro conditions
    obtain ⟨valid, rfl⟩ := conditions
    refine ⟨(), valid.authorized, (), ⟨true, valid.knownRoot, rfl⟩, _, ⟨valid.nonceNext, rfl⟩, (),
      valid.notSpent, (), valid.verified, ?_⟩
    rw [aborted]
    rfl

/-! ### Completing -/

def afterCompletion (smartAccount : Address) (pending : PendingRecovery) : RecoveryState :=
  { state with
    nullifier := Function.update state.nullifier pending.nullifier (some .spent)
    pending := Function.update state.pending smartAccount none
    events := state.events ++ [.recoveryCompleted smartAccount pending.nullifier] }

theorem enforce_exact {state' : RecoveryState} {context : Context} {signers : List Signer}
    {contextRule : ContextRule} {smartAccount : Address} :
    enforce env state context signers contextRule smartAccount = .ok state' ↔
      ∃ pending, Completed env state context contextRule smartAccount pending state' := by
  constructor
  · intro accepted
    exact enforce_eq_ok signers accepted
  · intro conditions
    obtain ⟨pending, completed⟩ := conditions
    simp only [enforce, Env.requireAuth, bind_eq_ok, pure_eq_ok, require_eq_ok, orFail_eq_ok,
      UInt64.not_lt, UInt64.not_le]
    exact ⟨(), completed.authorized, _, completed.installed, (), rfl, pending, completed.found, (),
      completed.elapsed, (), completed.unexpired, (), completed.gate, completed.after.symm⟩

end Operations

end Nido.ZkRecovery
