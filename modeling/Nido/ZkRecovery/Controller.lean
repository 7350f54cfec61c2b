/-
Initiating, cancelling and burning: the three calls that carry a proof.

Each call recomputes the authorization hash from its own arguments and hands
the verifier `root || nullifier || auth_hash`, so an `Authorization` is the
list of arguments that one proof is bound to. The checks stand in the order of
the source; the last part states, for each call, everything that a success has
checked and the exact state it leaves.
-/

import Nido.ZkRecovery.Pool

namespace Nido.ZkRecovery

open Contract

def actionInitiate : UInt32 := 1
def actionCancel : UInt32 := 2
def actionRevoke : UInt32 := 3

/-- 90 days. -/
def rateWindowSecs : UInt64 := 7776000
def rateLimitMax : Nat := 3

/-- 24 hours. -/
def cancelCooldownSecs : UInt64 := 86400

def saturatingSub (left right : UInt64) : UInt64 := if right ≤ left then left - right else 0

def storedNonce (state : RecoveryState) (account : Address) : UInt64 :=
  (state.nonce account).getD 0

def cancelsUsed (state : RecoveryState) (account : Address) : UInt32 :=
  (state.cancels account).getD 0

/-- The nonce must be exactly one past the stored one, and is stored. -/
def bumpNonce (state : RecoveryState) (account : Address) (nonce : UInt64) :
    Contract RecoveryState := do
  let expected ← checkedAdd (storedNonce state account) 1
  require (nonce = expected) RecoveryError.invalidNonce.failure
  pure (state.setNonce account nonce)

def releaseReservationIfOwned (state : RecoveryState) (nullifier : BytesN 32)
    (account : Address) : RecoveryState :=
  if state.nullifier nullifier = some (.reserved account) then
    state.setNullifier nullifier none
  else
    state

def checkRateLimit (state : RecoveryState) (account : Address) (now : UInt64) :
    Contract RecoveryState := do
  let window := (state.rateWindow account).getD []
  let cutoff := saturatingSub now rateWindowSecs
  let pruned := window.filter (fun time => decide (cutoff ≤ time))
  require (pruned.length < rateLimitMax) RecoveryError.rateLimited.failure
  pure (state.setRateWindow account (pruned ++ [now]))

def assemblePublicInputs (root nullifier authHash : BytesN 32) : Bytes :=
  root.data ++ nullifier.data ++ authHash.data

structure Authorization where
  action : UInt32
  account : Address
  newPubkey : BytesN 65
  nonce : UInt64
  timelockSecs : UInt32
  root : BytesN 32
  nullifier : BytesN 32
deriving DecidableEq

def Authorization.initiate (account : Address) (newPubkey : BytesN 65) (nonce : UInt64)
    (timelockSecs : UInt32) (root nullifier : BytesN 32) : Authorization :=
  { action := actionInitiate, account, newPubkey, nonce, timelockSecs, root, nullifier }

/-- A cancel installs no key, so its key and timelock are zeroed. -/
def Authorization.cancel (account : Address) (nonce : UInt64) (root nullifier : BytesN 32) :
    Authorization :=
  { action := actionCancel, account, newPubkey := BytesN.zero 65, nonce, timelockSecs := 0,
    root, nullifier }

def Authorization.revoke (account : Address) (nonce : UInt64) (root nullifier : BytesN 32) :
    Authorization :=
  { action := actionRevoke, account, newPubkey := BytesN.zero 65, nonce, timelockSecs := 0,
    root, nullifier }

def Authorization.authHash (host : Host) (self : Address) (config : RecoveryConfig)
    (authorization : Authorization) : Contract (BytesN 32) :=
  computeAuthHash host authorization.action authorization.account config.networkPassphrase self
    authorization.newPubkey authorization.nonce authorization.timelockSecs

/-- The authorization hash is recomputed here, never taken from the caller. -/
def verifyProof (host : Host) (self : Address) (config : RecoveryConfig)
    (authorization : Authorization) (proof : Bytes) : Contract Unit := do
  let expectedAuthHash ← authorization.authHash host self config
  let publicInputs :=
    assemblePublicInputs authorization.root authorization.nullifier expectedAuthHash
  require (host.verifyProof config.verifier publicInputs proof = true)
    RecoveryError.verificationFailed.failure

def requireKnownRoot (host : Host) (state : RecoveryState) (root : BytesN 32) : Contract Unit := do
  let known ← isKnownRoot host state root
  require (known = true) RecoveryError.unknownRoot.failure

/-- A live pending blocks; an expired one only gives its reservation back. -/
def supersede (state : RecoveryState) (account : Address) (now : UInt64) :
    Contract RecoveryState :=
  match state.pending account with
  | none => pure state
  | some existing => do
      require (¬ now < existing.expiresAt) RecoveryError.pendingExists.failure
      pure (releaseReservationIfOwned state existing.nullifier account)

def requireUnused (state : RecoveryState) (nullifier : BytesN 32) : Contract Unit :=
  match state.nullifier nullifier with
  | none => pure ()
  | some (.reserved _) => .error RecoveryError.nullifierReserved.failure
  | some .spent => .error RecoveryError.nullifierSpent.failure

/-- Permissionless: the proof alone authorizes the call. -/
def initiateRecovery (host : Host) (env : Env) (state : RecoveryState) (account : Address)
    (newPubkey : BytesN 65) (nonce : UInt64) (timelockSecs : UInt32)
    (root nullifier : BytesN 32) (proof : Bytes) : Contract (UInt64 × RecoveryState) := do
  let cfg := config state
  let now := env.timestamp
  let state ← supersede state account now
  requireKnownRoot host state root
  requireUnused state nullifier
  let state ← bumpNonce state account nonce
  require (¬ timelockSecs.toUInt64 < cfg.timelockFloorSecs) RecoveryError.timelockTooShort.failure
  require (timelockSecs.toUInt64 = cfg.delaySecs) RecoveryError.timelockMismatch.failure
  let state ← checkRateLimit state account now
  verifyProof host env.currentContract cfg
    (.initiate account newPubkey nonce timelockSecs root nullifier) proof
  let state := state.setNullifier nullifier (some (.reserved account))
  let executableAfter ← checkedAdd now cfg.delaySecs
  let expiresAt ← checkedAdd executableAfter cfg.completionWindowSecs
  let state := state.setPending account
    (some { newPubkey, nullifier, initiatedAt := now, executableAfter, expiresAt })
  let newPubkeyHash := host.sha256 newPubkey.data
  pure (executableAfter, state.publish (.recoveryInitiated account newPubkeyHash executableAfter))

def getPending (state : RecoveryState) (account : Address) : Option PendingRecovery :=
  state.pending account

/-- Whether a recovery is in flight: one past its window counts as none. -/
def hasPending (env : Env) (state : RecoveryState) (account : Address) : Bool :=
  (state.pending account).any (fun pending => decide (env.timestamp < pending.expiresAt))

def nextNonce (state : RecoveryState) (account : Address) : Contract UInt64 :=
  checkedAdd (storedNonce state account) 1

def checkCooldown (state : RecoveryState) (account : Address) (now : UInt64) : Contract Unit :=
  match state.lastCancel account with
  | none => pure ()
  | some last =>
      require (¬ saturatingSub now last < cancelCooldownSecs) RecoveryError.cooldownActive.failure

/-- `used + 1` on `u32`, with overflow checks, is `checkedSucc`. The proof is
made for the arguments of this call; the pending record is not consulted for
anything but its expiry and its reservation. -/
def cancelRecovery (host : Host) (env : Env) (state : RecoveryState) (account : Address)
    (nonce : UInt64) (root nullifier : BytesN 32) (proof : Bytes) :
    Contract (UInt32 × RecoveryState) := do
  env.requireAuth account
  let cfg := config state
  let now := env.timestamp
  let pending ← orFail
    ((state.pending account).filter (fun pending => decide (now < pending.expiresAt)))
    RecoveryError.noPending.failure
  let used := cancelsUsed state account
  require (¬ cfg.maxCancels ≤ used) RecoveryError.cancelCapReached.failure
  checkCooldown state account now
  let state ← bumpNonce state account nonce
  requireKnownRoot host state root
  verifyProof host env.currentContract cfg
    (.cancel account nonce root nullifier) proof
  let state := releaseReservationIfOwned state pending.nullifier account
  let state := state.setPending account none
  let newUsed ← checkedSucc used
  let state := state.setCancels account newUsed
  let state := state.setLastCancel account now
  pure (newUsed, state.publish (.recoveryCanceled account newUsed))

def requireNotSpent (state : RecoveryState) (nullifier : BytesN 32) : Contract Unit :=
  require (¬ state.nullifier nullifier = some .spent) RecoveryError.nullifierSpent.failure

/-- Burning the nullifier that a pending was initiated with aborts it. -/
def abortPending (state : RecoveryState) (account : Address) (nullifier : BytesN 32) :
    RecoveryState :=
  if (state.pending account).any (fun pending => decide (pending.nullifier = nullifier)) then
    state.setPending account none
  else
    state

def burnNullifier (host : Host) (env : Env) (state : RecoveryState) (account : Address)
    (nonce : UInt64) (root nullifier : BytesN 32) (proof : Bytes) : Contract RecoveryState := do
  env.requireAuth account
  let cfg := config state
  requireKnownRoot host state root
  let state ← bumpNonce state account nonce
  requireNotSpent state nullifier
  verifyProof host env.currentContract cfg
    (.revoke account nonce root nullifier) proof
  let state := abortPending state account nullifier
  let state := state.setNullifier nullifier (some .spent)
  pure (state.publish (.nullifierBurned account nullifier))

/-! ### What a success has checked, and the state it leaves -/

/-- The verifier has accepted a proof for exactly these arguments. -/
def Verified (host : Host) (self : Address) (config : RecoveryConfig)
    (authorization : Authorization) (proof : Bytes) : Prop :=
  ∃ authHash, authorization.authHash host self config = .ok authHash ∧
    host.verifyProof config.verifier
      (assemblePublicInputs authorization.root authorization.nullifier authHash) proof = true

theorem verifyProof_eq_ok {host : Host} {self : Address} {config : RecoveryConfig}
    {authorization : Authorization} {proof : Bytes} {result : Unit} :
    verifyProof host self config authorization proof = .ok result ↔
      Verified host self config authorization proof := by
  simp only [verifyProof, bind_eq_ok, require_eq_ok, Verified]

/-- The nullifier table once the reservation of an account's pending is given back. -/
def withoutReservation (state : RecoveryState) (account : Address) (key : BytesN 32) :
    Option NullifierState :=
  if (state.pending account).any (fun pending => decide (pending.nullifier = key)) ∧
      state.nullifier key = some (.reserved account) then
    none
  else
    state.nullifier key

theorem releaseReservationIfOwned_eq {state : RecoveryState} {account : Address}
    {pending : PendingRecovery} (found : state.pending account = some pending) :
    releaseReservationIfOwned state pending.nullifier account =
      { state with nullifier := withoutReservation state account } := by
  have table : (releaseReservationIfOwned state pending.nullifier account).nullifier =
      withoutReservation state account := by
    funext key
    simp only [withoutReservation, found, releaseReservationIfOwned, Option.any_some,
      decide_eq_true_iff]
    by_cases same : pending.nullifier = key
    · subst key
      split <;> simp [RecoveryState.setNullifier, *]
    · simp only [same, false_and, if_false]
      split
      · exact Function.update_of_ne (Ne.symm same) _ _
      · rfl
  rw [← table, releaseReservationIfOwned]
  split <;> rfl

theorem withoutReservation_of_ne {state : RecoveryState} {account : Address} {key : BytesN 32}
    (other : state.nullifier key ≠ some (.reserved account)) :
    withoutReservation state account key = state.nullifier key :=
  if_neg (fun both => other both.2)

theorem withoutReservation_ne {state : RecoveryState} {account : Address} {key : BytesN 32}
    {value : NullifierState} (present : withoutReservation state account key = some value) :
    state.nullifier key = some value := by
  unfold withoutReservation at present
  split at present
  · cases present
  · exact present

theorem supersede_eq_ok {state state' : RecoveryState} {account : Address} {now : UInt64} :
    supersede state account now = .ok state' ↔
      (∀ existing, state.pending account = some existing → existing.expiresAt ≤ now) ∧
        state' = { state with nullifier := withoutReservation state account } := by
  cases found : state.pending account with
  | none =>
      have unchanged : withoutReservation state account = state.nullifier := by
        funext key
        rw [withoutReservation, found]
        exact if_neg (fun both => Bool.noConfusion both.1)
      simp only [supersede, found, pure_eq_ok, unchanged, reduceCtorEq, false_implies,
        implies_true, true_and]
      exact eq_comm
  | some existing =>
      simp only [supersede, found, bind_eq_ok, pure_eq_ok, require_eq_ok,
        releaseReservationIfOwned_eq found, UInt64.not_lt, Option.some.injEq, forall_eq']
      constructor
      · rintro ⟨_, expired, rfl⟩
        exact ⟨expired, rfl⟩
      · rintro ⟨expired, rfl⟩
        exact ⟨(), expired, rfl⟩

theorem requireUnused_eq_ok {state : RecoveryState} {nullifier : BytesN 32} {result : Unit} :
    requireUnused state nullifier = .ok result ↔ state.nullifier nullifier = none := by
  unfold requireUnused
  split <;> simp_all [pure, Except.pure]

theorem bumpNonce_eq_ok {state state' : RecoveryState} {account : Address} {nonce : UInt64} :
    bumpNonce state account nonce = .ok state' ↔
      nonce.toNat = (storedNonce state account).toNat + 1 ∧
        state' = state.setNonce account nonce := by
  simp only [bumpNonce, bind_eq_ok, checkedAdd_eq_ok, require_eq_ok, pure_eq_ok]
  constructor
  · rintro ⟨expected, sum, _, rfl, rfl⟩
    exact ⟨sum, rfl⟩
  · rintro ⟨sum, rfl⟩
    exact ⟨nonce, sum, (), rfl, rfl⟩

def withoutPending (state : RecoveryState) (account : Address) (nullifier : BytesN 32)
    (key : Address) : Option PendingRecovery :=
  if key = account ∧
      (state.pending account).any (fun pending => decide (pending.nullifier = nullifier)) then
    none
  else
    state.pending key

theorem abortPending_eq (state : RecoveryState) (account : Address) (nullifier : BytesN 32) :
    abortPending state account nullifier =
      { state with pending := withoutPending state account nullifier } := by
  have table : (abortPending state account nullifier).pending =
      withoutPending state account nullifier := by
    funext key
    unfold abortPending withoutPending
    by_cases same : key = account
    · subst key
      split <;> simp [RecoveryState.setPending, *]
    · simp only [same, false_and, if_false]
      split
      · exact Function.update_of_ne same _ _
      · rfl
  rw [← table, abortPending]
  split <;> rfl

theorem isKnownRoot_congr {host : Host} {state state' : RecoveryState} (root : BytesN 32)
    (ring : state'.rootRing = state.rootRing) (head : state'.ringHead = state.ringHead) :
    isKnownRoot host state' root = isKnownRoot host state root := by
  unfold isKnownRoot loadRing ringHead
  rw [ring, head]

structure Initiated (host : Host) (env : Env) (state : RecoveryState) (authorization : Authorization)
    (proof : Bytes) (pending : PendingRecovery) (state' : RecoveryState) : Prop where
  notLive : ∀ existing, state.pending authorization.account = some existing →
    existing.expiresAt ≤ env.timestamp
  knownRoot : isKnownRoot host state authorization.root = .ok true
  unused : withoutReservation state authorization.account authorization.nullifier = none
  nonceNext : authorization.nonce.toNat = (storedNonce state authorization.account).toNat + 1
  timelock : authorization.timelockSecs.toUInt64 = state.config.delaySecs
  floor : ¬ authorization.timelockSecs.toUInt64 < state.config.timelockFloorSecs
  verified : Verified host env.currentContract state.config authorization proof
  newPubkey : pending.newPubkey = authorization.newPubkey
  nullifier : pending.nullifier = authorization.nullifier
  initiatedAt : pending.initiatedAt = env.timestamp
  executableAfter : pending.executableAfter.toNat =
    env.timestamp.toNat + state.config.delaySecs.toNat
  expiresAt : pending.expiresAt.toNat =
    pending.executableAfter.toNat + state.config.completionWindowSecs.toNat
  after : ∃ window,
    state' = { state with
      nullifier := Function.update (withoutReservation state authorization.account)
        authorization.nullifier (some (.reserved authorization.account))
      pending := Function.update state.pending authorization.account (some pending)
      nonce := Function.update state.nonce authorization.account (some authorization.nonce)
      rateWindow := Function.update state.rateWindow authorization.account (some window)
      events := state.events ++ [.recoveryInitiated authorization.account
        (host.sha256 authorization.newPubkey.data) pending.executableAfter] }

section Initiated

variable {host : Host} {env : Env} {state state' : RecoveryState} {authorization : Authorization}
  {proof : Bytes} {pending : PendingRecovery}
  (initiated : Initiated host env state authorization proof pending state')

include initiated

theorem Initiated.nullifiers :
    state'.nullifier = Function.update (withoutReservation state authorization.account)
      authorization.nullifier (some (.reserved authorization.account)) := by
  obtain ⟨_, after⟩ := initiated.after
  rw [after]

theorem Initiated.pendings :
    state'.pending = Function.update state.pending authorization.account (some pending) := by
  obtain ⟨_, after⟩ := initiated.after
  rw [after]

theorem Initiated.nonces :
    state'.nonce = Function.update state.nonce authorization.account (some authorization.nonce) := by
  obtain ⟨_, after⟩ := initiated.after
  rw [after]

end Initiated

theorem initiateRecovery_eq_ok {host : Host} {env : Env} {state state' : RecoveryState}
    {account : Address} {newPubkey : BytesN 65} {nonce : UInt64} {timelockSecs : UInt32}
    {root nullifier : BytesN 32} {proof : Bytes} {executableAfter : UInt64}
    (accepted : initiateRecovery host env state account newPubkey nonce timelockSecs root nullifier
      proof = .ok (executableAfter, state')) :
    ∃ pending, Initiated host env state
      (.initiate account newPubkey nonce timelockSecs root nullifier) proof pending state' := by
  simp only [initiateRecovery, bind_eq_ok, pure_eq_ok, supersede_eq_ok, requireKnownRoot,
    requireUnused_eq_ok, bumpNonce_eq_ok, require_eq_ok, verifyProof_eq_ok, checkRateLimit,
    checkedAdd_eq_ok, Prod.mk.injEq] at accepted
  obtain ⟨_, ⟨notLive, rfl⟩, _, ⟨_, known, rfl⟩, _, unused, _, ⟨nonceNext, rfl⟩, _, floor, _,
    timelock, _, ⟨_, _, rfl⟩, _, verified, executable, executableEq, expires, expiresEq, rfl,
    rfl⟩ := accepted
  exact ⟨_,
    { notLive
      knownRoot := known
      unused
      nonceNext
      timelock
      floor
      verified
      newPubkey := rfl
      nullifier := rfl
      initiatedAt := rfl
      executableAfter := executableEq
      expiresAt := expiresEq
      after := ⟨_, rfl⟩ }⟩

structure Cancelled (host : Host) (env : Env) (state : RecoveryState) (authorization : Authorization)
    (proof : Bytes) (pending : PendingRecovery) (state' : RecoveryState) : Prop where
  authorized : env.authorized authorization.account = true
  found : state.pending authorization.account = some pending
  live : env.timestamp < pending.expiresAt
  belowCap : cancelsUsed state authorization.account < state.config.maxCancels
  nonceNext : authorization.nonce.toNat = (storedNonce state authorization.account).toNat + 1
  knownRoot : isKnownRoot host state authorization.root = .ok true
  verified : Verified host env.currentContract state.config authorization proof
  after : ∃ used,
    state' = { state with
      nullifier := withoutReservation state authorization.account
      pending := Function.update state.pending authorization.account none
      nonce := Function.update state.nonce authorization.account (some authorization.nonce)
      cancels := Function.update state.cancels authorization.account (some used)
      lastCancel := Function.update state.lastCancel authorization.account (some env.timestamp)
      events := state.events ++ [.recoveryCanceled authorization.account used] }

section Cancelled

variable {host : Host} {env : Env} {state state' : RecoveryState} {authorization : Authorization}
  {proof : Bytes} {pending : PendingRecovery}
  (cancelled : Cancelled host env state authorization proof pending state')

include cancelled

theorem Cancelled.nullifiers :
    state'.nullifier = withoutReservation state authorization.account := by
  obtain ⟨_, after⟩ := cancelled.after
  rw [after]

theorem Cancelled.pendings :
    state'.pending = Function.update state.pending authorization.account none := by
  obtain ⟨_, after⟩ := cancelled.after
  rw [after]

theorem Cancelled.nonces :
    state'.nonce = Function.update state.nonce authorization.account (some authorization.nonce) := by
  obtain ⟨_, after⟩ := cancelled.after
  rw [after]

end Cancelled

theorem cancelRecovery_eq_ok {host : Host} {env : Env} {state state' : RecoveryState}
    {account : Address} {nonce : UInt64} {root nullifier : BytesN 32} {proof : Bytes}
    {used : UInt32}
    (accepted : cancelRecovery host env state account nonce root nullifier proof =
      .ok (used, state')) :
    ∃ pending, Cancelled host env state
      (.cancel account nonce root nullifier) proof pending state' := by
  simp only [cancelRecovery, Env.requireAuth, bind_eq_ok, pure_eq_ok, requireKnownRoot,
    bumpNonce_eq_ok, require_eq_ok, orFail_eq_ok, Option.filter_eq_some_iff, decide_eq_true_iff,
    verifyProof_eq_ok, Prod.mk.injEq] at accepted
  obtain ⟨_, authorized, pending, ⟨found, live⟩, _, belowCap, _, _, _, ⟨nonceNext, rfl⟩, _,
    ⟨_, known, rfl⟩, _, verified, used, _, rfl, rfl⟩ := accepted
  refine ⟨pending,
    { authorized
      found
      live
      belowCap := UInt32.not_le.mp belowCap
      nonceNext
      knownRoot := known
      verified
      after := ⟨used, ?_⟩ }⟩
  have bumped : (state.setNonce account nonce).pending account = some pending := found
  rw [releaseReservationIfOwned_eq bumped]
  rfl

structure Burned (host : Host) (env : Env) (state : RecoveryState) (authorization : Authorization)
    (proof : Bytes) (state' : RecoveryState) : Prop where
  authorized : env.authorized authorization.account = true
  knownRoot : isKnownRoot host state authorization.root = .ok true
  nonceNext : authorization.nonce.toNat = (storedNonce state authorization.account).toNat + 1
  notSpent : state.nullifier authorization.nullifier ≠ some .spent
  verified : Verified host env.currentContract state.config authorization proof
  after :
    state' = { state with
      nullifier := Function.update state.nullifier authorization.nullifier (some .spent)
      pending := withoutPending state authorization.account authorization.nullifier
      nonce := Function.update state.nonce authorization.account (some authorization.nonce)
      events := state.events ++
        [.nullifierBurned authorization.account authorization.nullifier] }

section Burned

variable {host : Host} {env : Env} {state state' : RecoveryState} {authorization : Authorization}
  {proof : Bytes} (burned : Burned host env state authorization proof state')

include burned

theorem Burned.nullifiers :
    state'.nullifier =
      Function.update state.nullifier authorization.nullifier (some .spent) := by
  rw [burned.after]

theorem Burned.pendings :
    state'.pending = withoutPending state authorization.account authorization.nullifier := by
  rw [burned.after]

theorem Burned.nonces :
    state'.nonce = Function.update state.nonce authorization.account (some authorization.nonce) := by
  rw [burned.after]

end Burned

theorem burnNullifier_eq_ok {host : Host} {env : Env} {state state' : RecoveryState}
    {account : Address} {nonce : UInt64} {root nullifier : BytesN 32} {proof : Bytes}
    (accepted : burnNullifier host env state account nonce root nullifier proof = .ok state') :
    Burned host env state
      (.revoke account nonce root nullifier) proof state' := by
  simp only [burnNullifier, Env.requireAuth, requireNotSpent, bind_eq_ok, pure_eq_ok,
    requireKnownRoot, bumpNonce_eq_ok, require_eq_ok, verifyProof_eq_ok] at accepted
  obtain ⟨_, authorized, _, ⟨_, known, rfl⟩, _, ⟨nonceNext, rfl⟩, _, notSpent, _, verified,
    rfl⟩ := accepted
  refine
    { authorized
      knownRoot := known
      nonceNext
      notSpent
      verified
      after := ?_ }
  rw [abortPending_eq]
  rfl

end Nido.ZkRecovery
