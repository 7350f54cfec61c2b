/-
The rate limit as a window sliding over an account's whole history.

A stored window is pruned and extended inside a call that may still fail, and
what is pruned is never seen again. Since time does not run backwards, what the
window has forgotten would not count any more: pruning the stored window and
filtering the full history of successful initiations give the same list.
-/

import Nido.ZkRecovery.Reference

namespace Nido.ZkRecovery

open Contract

/-! ### Where the limit stands in an initiation -/

/-- Everything that `initiate_recovery` does before it looks at the window. -/
def earlierChecks (host : Host) (env : Env) (state : RecoveryState) (account : Address)
    (nonce : UInt64) (timelockSecs : UInt32) (root nullifier : BytesN 32) :
    Contract RecoveryState := do
  let cfg := config state
  let state ← supersede state account env.timestamp
  requireKnownRoot host state root
  requireUnused state nullifier
  let state ← bumpNonce state account nonce
  require (¬ timelockSecs.toUInt64 < cfg.timelockFloorSecs) RecoveryError.timelockTooShort.failure
  require (timelockSecs.toUInt64 = cfg.delaySecs) RecoveryError.timelockMismatch.failure
  pure state

/-- Everything that it does afterwards. -/
def laterSteps (host : Host) (env : Env) (cfg : RecoveryConfig) (account : Address)
    (newPubkey : BytesN 65) (nonce : UInt64) (timelockSecs : UInt32) (root nullifier : BytesN 32)
    (proof : Bytes) (state : RecoveryState) : Contract (UInt64 × RecoveryState) := do
  verifyProof host env.currentContract cfg
    (.initiate account newPubkey nonce timelockSecs root nullifier) proof
  let state := state.setNullifier nullifier (some (.reserved account))
  let executableAfter ← checkedAdd env.timestamp cfg.delaySecs
  let expiresAt ← checkedAdd executableAfter cfg.completionWindowSecs
  let state := state.setPending account
    (some { newPubkey, nullifier, initiatedAt := env.timestamp, executableAfter, expiresAt })
  let newPubkeyHash := host.sha256 newPubkey.data
  pure (executableAfter, state.publish (.recoveryInitiated account newPubkeyHash executableAfter))

section Initiation

variable {host : Host} {env : Env} {state : RecoveryState} {account : Address}
  {newPubkey : BytesN 65} {nonce : UInt64} {timelockSecs : UInt32} {root nullifier : BytesN 32}
  {proof : Bytes}

theorem initiateRecovery_eq :
    initiateRecovery host env state account newPubkey nonce timelockSecs root nullifier proof =
      (earlierChecks host env state account nonce timelockSecs root nullifier >>= fun checked =>
        checkRateLimit checked account env.timestamp >>= fun limited =>
          laterSteps host env state.config account newPubkey nonce timelockSecs root nullifier
            proof limited) := by
  simp only [initiateRecovery, earlierChecks, laterSteps, config, bind_assoc, pure_bind]

structure ReachesLimit (host : Host) (env : Env) (state : RecoveryState) (account : Address)
    (nonce : UInt64) (timelockSecs : UInt32) (root nullifier : BytesN 32) : Prop where
  notLive : ∀ existing, state.pending account = some existing →
    existing.expiresAt ≤ env.timestamp
  knownRoot : isKnownRoot host state root = .ok true
  unused : withoutReservation state account nullifier = none
  nonceNext : nonce.toNat = (storedNonce state account).toNat + 1
  floor : ¬ timelockSecs.toUInt64 < state.config.timelockFloorSecs
  timelock : timelockSecs.toUInt64 = state.config.delaySecs

theorem earlierChecks_passes :
    (∃ checked, earlierChecks host env state account nonce timelockSecs root nullifier =
      .ok checked) ↔
      ReachesLimit host env state account nonce timelockSecs root nullifier := by
  simp only [earlierChecks, bind_eq_ok, pure_eq_ok, supersede_eq_ok, requireKnownRoot,
    requireUnused_eq_ok, bumpNonce_eq_ok, require_eq_ok]
  constructor
  · intro passed
    obtain ⟨_, _, ⟨notLive, rfl⟩, _, ⟨_, knownRoot, rfl⟩, _, unused, _, ⟨nonceNext, rfl⟩, _, floor,
      _, timelock, _⟩ := passed
    exact { notLive, knownRoot, unused, nonceNext, floor, timelock }
  · intro reaches
    obtain ⟨notLive, knownRoot, unused, nonceNext, floor, timelock⟩ := reaches
    exact ⟨_, _, ⟨notLive, rfl⟩, (), ⟨true, knownRoot, rfl⟩, (), unused, _, ⟨nonceNext, rfl⟩,
      (), floor, (), timelock, rfl⟩

theorem earlierChecks_rateWindow {checked : RecoveryState}
    (passed : earlierChecks host env state account nonce timelockSecs root nullifier =
      .ok checked) : checked.rateWindow = state.rateWindow := by
  simp only [earlierChecks, bind_eq_ok, pure_eq_ok, supersede_eq_ok, bumpNonce_eq_ok] at passed
  obtain ⟨_, ⟨_, rfl⟩, _, _, _, _, _, ⟨_, rfl⟩, _, _, _, _, rfl⟩ := passed
  rfl

theorem laterSteps_rateWindow {cfg : RecoveryConfig} {limited : RecoveryState}
    {result : UInt64 × RecoveryState}
    (accepted : laterSteps host env cfg account newPubkey nonce timelockSecs root nullifier proof
      limited = .ok result) : result.2.rateWindow = limited.rateWindow := by
  simp only [laterSteps, bind_eq_ok, pure_eq_ok] at accepted
  obtain ⟨_, _, _, _, _, _, rfl⟩ := accepted
  rfl

theorem computeAuthHash_eq_error {action : UInt32} {controller : Address}
    {networkPassphrase : Bytes} {failure : Failure}
    (failed : computeAuthHash host action account networkPassphrase controller newPubkey nonce
      timelockSecs = .error failure) : failure = .trap := by
  have trapped {address : Address} (failed : contractId address = .error failure) :
      failure = .trap := by
    cases address with
    | account key =>
        cases failed
        rfl
    | contract id => cases failed
  simp only [computeAuthHash, bind_eq_error, pure_ne_error, and_false, exists_false,
    or_false] at failed
  rcases failed with failed | ⟨_, _, failed⟩
  · exact trapped failed
  · exact trapped failed

theorem verifyProof_eq_error {self : Address} {config : RecoveryConfig}
    {authorization : Authorization} {failure : Failure}
    (failed : verifyProof host self config authorization proof = .error failure) :
    failure = .trap ∨ failure = RecoveryError.verificationFailed.failure := by
  simp only [verifyProof, Authorization.authHash, bind_eq_error, require_eq_error] at failed
  rcases failed with failed | ⟨_, _, _, failed⟩
  · exact Or.inl (computeAuthHash_eq_error failed)
  · exact Or.inr failed.symm

theorem laterSteps_eq_error {cfg : RecoveryConfig} {limited : RecoveryState} {failure : Failure}
    (failed : laterSteps host env cfg account newPubkey nonce timelockSecs root nullifier proof
      limited = .error failure) :
    failure = .trap ∨ failure = RecoveryError.verificationFailed.failure := by
  simp only [laterSteps, bind_eq_error, pure_ne_error, and_false, exists_false,
    or_false] at failed
  rcases failed with failed | ⟨_, _, failed | ⟨_, _, failed⟩⟩
  · exact verifyProof_eq_error failed
  · exact Or.inl (checkedAdd_eq_error failed)
  · exact Or.inl (checkedAdd_eq_error failed)

theorem laterSteps_ne_rateLimited {cfg : RecoveryConfig} {limited : RecoveryState} :
    laterSteps host env cfg account newPubkey nonce timelockSecs root nullifier proof limited ≠
      .error RecoveryError.rateLimited.failure := by
  intro failed
  rcases laterSteps_eq_error failed with impossible | impossible <;> cases impossible

end Initiation

/-! ### The window and the history -/

/-- A moment still counts: ninety days have not passed since. -/
def InWindow (now moment : UInt64) : Prop := now.toNat ≤ moment.toNat + 7776000

instance (now moment : UInt64) : Decidable (InWindow now moment) :=
  inferInstanceAs (Decidable (_ ≤ _))

/-- The cutoff saturates at zero. -/
theorem cutoff_le (now moment : UInt64) :
    saturatingSub now rateWindowSecs ≤ moment ↔ InWindow now moment := by
  have window : rateWindowSecs.toNat = 7776000 := rfl
  unfold saturatingSub InWindow
  split
  · rename_i later
    rw [UInt64.le_iff_toNat_le, UInt64.toNat_sub_of_le _ _ later, window]
    rw [UInt64.le_iff_toNat_le, window] at later
    omega
  · rename_i early
    rw [UInt64.le_iff_toNat_le, window] at early
    have least : (0 : UInt64) ≤ moment := UInt64.le_iff_toNat_le.mpr (Nat.zero_le _)
    constructor
    · intro _
      omega
    · intro _
      exact least

def countIn (now : UInt64) (moments : List UInt64) : List UInt64 :=
  moments.filter (fun moment => decide (InWindow now moment))

theorem countIn_append (now : UInt64) (moments more : List UInt64) :
    countIn now (moments ++ more) = countIn now moments ++ countIn now more :=
  List.filter_append ..

theorem countIn_countIn {early late : UInt64} (ordered : early ≤ late) (moments : List UInt64) :
    countIn late (countIn early moments) = countIn late moments := by
  rw [UInt64.le_iff_toNat_le] at ordered
  unfold countIn
  rw [List.filter_filter]
  apply List.filter_congr
  intro moment _member
  rw [Bool.and_eq_left_iff_imp]
  intro counts
  rw [decide_eq_true_iff] at counts ⊢
  unfold InWindow at counts ⊢
  omega

def storedWindow (state : RecoveryState) (account : Address) : List UInt64 :=
  (state.rateWindow account).getD []

theorem checkRateLimit_eq {state : RecoveryState} {account : Address} {now : UInt64} :
    checkRateLimit state account now =
      if (countIn now (storedWindow state account)).length < 3 then
        .ok (state.setRateWindow account (countIn now (storedWindow state account) ++ [now]))
      else
        .error RecoveryError.rateLimited.failure := by
  have pruned : (storedWindow state account).filter
      (fun time => decide (saturatingSub now rateWindowSecs ≤ time)) =
      countIn now (storedWindow state account) := by
    apply List.filter_congr
    intro moment _member
    rw [Bool.eq_iff_iff, decide_eq_true_iff, decide_eq_true_iff, cutoff_le]
  have limit : rateLimitMax = 3 := rfl
  unfold storedWindow at pruned
  simp only [checkRateLimit, pruned, limit, require]
  unfold storedWindow
  split <;> rfl

/-- Past the earlier checks, the stored window alone decides about the limit. -/
theorem initiateRecovery_rateLimited {host : Host} {env : Env} {state : RecoveryState}
    {account : Address} {newPubkey : BytesN 65} {nonce : UInt64} {timelockSecs : UInt32}
    {root nullifier : BytesN 32} {proof : Bytes}
    (reaches : ReachesLimit host env state account nonce timelockSecs root nullifier) :
    initiateRecovery host env state account newPubkey nonce timelockSecs root nullifier proof =
        .error RecoveryError.rateLimited.failure ↔
      3 ≤ (countIn env.timestamp (storedWindow state account)).length := by
  obtain ⟨checked, passed⟩ := earlierChecks_passes.mpr reaches
  have window : storedWindow checked account = storedWindow state account := by
    unfold storedWindow
    rw [earlierChecks_rateWindow passed]
  rw [initiateRecovery_eq, passed]
  change (checkRateLimit checked account env.timestamp >>= _) = _ ↔ _
  rw [checkRateLimit_eq, window]
  split
  · rename_i few
    constructor
    · intro rejected
      exact absurd rejected laterSteps_ne_rateLimited
    · intro many
      omega
  · rename_i many
    constructor
    · intro _rejected
      omega
    · intro _many
      rfl

def Call.initiatesFor (account : Address) : Call → Bool
  | .initiateRecovery other _ _ _ _ _ _ => decide (other = account)
  | _ => false

/-- An accepted initiation finds at most two earlier ones in its window, and
stores them and itself. -/
theorem initiates_rateWindow {host : Host} {env : Env} {state state' : RecoveryState} {call : Call}
    {account : Address} (initiates : call.initiatesFor account = true)
    (accepted : invoke host env state call = .ok state') :
    (countIn env.timestamp (storedWindow state account)).length < 3 ∧
      storedWindow state' account =
        countIn env.timestamp (storedWindow state account) ++ [env.timestamp] := by
  cases call with
  | initiateRecovery other newPubkey nonce timelockSecs root nullifier proof =>
      have same : other = account := of_decide_eq_true initiates
      subst other
      simp only [invoke, initiateRecovery_eq, bind_eq_ok, pure_eq_ok, Prod.exists] at accepted
      obtain ⟨_, _, ⟨checked, passed, limited, limits, finishes⟩, rfl⟩ := accepted
      have window : storedWindow checked account = storedWindow state account := by
        unfold storedWindow
        rw [earlierChecks_rateWindow passed]
      have finished := laterSteps_rateWindow finishes
      rw [checkRateLimit_eq, window] at limits
      split at limits
      · rename_i few
        cases limits
        refine ⟨few, ?_⟩
        unfold storedWindow
        rw [finished]
        change (Function.update checked.rateWindow account (some _) account).getD [] = _
        rw [Function.update_self]
        rfl
      · cases limits
  | insert | insertFor | cancelRecovery | burnNullifier | install | enforce | uninstall =>
      cases initiates

theorem Outcome.rateWindow {host : Host} {env : Env} {state state' : RecoveryState} {call : Call}
    {account : Address} (outcome : Outcome host env state call state')
    (other : call.initiatesFor account = false) :
    state'.rateWindow account = state.rateWindow account := by
  cases outcome with
  | insert _ inserted | insertFor _ inserted =>
      obtain ⟨_, _, _, _, _, after⟩ := inserted.after
      rw [after]
  | @initiate initiator _ _ _ _ _ _ _ _ initiated =>
      have different : account ≠ initiator := by
        intro same
        exact of_decide_eq_false other same.symm
      obtain ⟨_, after⟩ := initiated.after
      rw [after]
      exact Function.update_of_ne different _ _
  | cancel cancelled =>
      obtain ⟨_, after⟩ := cancelled.after
      rw [after]
  | burn burned => rw [burned.after]
  | install installed => rw [installed.after]
  | complete completed => rw [completed.after]

namespace Deployment

variable (deployment : Deployment) (run : List Invocation) (account : Address)

def Initiates (time : Nat) (invocation : Invocation) : Prop :=
  run[time]? = some invocation ∧ invocation.call.initiatesFor account = true ∧
    (deployment.step (deployment.stateAt run time) invocation).isSome = true

/-- The moments of the account's successful initiations so far, oldest first. -/
def initiations : (time : Nat) → List UInt64
  | 0 => []
  | time + 1 =>
      match run[time]? with
      | none => initiations time
      | some invocation =>
          if invocation.call.initiatesFor account = true ∧
              (deployment.step (deployment.stateAt run time) invocation).isSome = true then
            initiations time ++ [invocation.timestamp]
          else
            initiations time

variable {deployment run account}

theorem initiations_succ {time : Nat} {invocation : Invocation}
    (initiates : deployment.Initiates run account time invocation) :
    deployment.initiations run account (time + 1) =
      deployment.initiations run account time ++ [invocation.timestamp] := by
  obtain ⟨present, concerns, succeeds⟩ := initiates
  conv_lhs => unfold initiations
  simp only [present, concerns, succeeds, and_self, if_true]

theorem initiations_succ_of_not {time : Nat}
    (other : ∀ invocation, ¬ deployment.Initiates run account time invocation) :
    deployment.initiations run account (time + 1) = deployment.initiations run account time := by
  conv_lhs => unfold initiations
  cases present : run[time]? with
  | none => rfl
  | some invocation =>
      apply if_neg
      intro both
      exact other invocation ⟨present, both⟩

theorem rateWindow_stateAt_succ {time : Nat}
    (other : ∀ invocation, ¬ deployment.Initiates run account time invocation) :
    (deployment.stateAt run (time + 1)).rateWindow account =
      (deployment.stateAt run time).rateWindow account := by
  rcases Run.stateAt_succ_cases deployment.step deployment.start run time with
    unchanged | ⟨invocation, accepted⟩
  · have same : deployment.stateAt run (time + 1) = deployment.stateAt run time := unchanged
    rw [same]
  · have accepted : deployment.Accepts run time invocation := accepted
    apply accepted.outcome.rateWindow
    cases concerns : invocation.call.initiatesFor account with
    | false => rfl
    | true =>
        have succeeds : (deployment.step (deployment.stateAt run time) invocation).isSome = true :=
          Option.isSome_iff_exists.mpr ⟨_, accepted.steps⟩
        have initiates : deployment.Initiates run account time invocation :=
          ⟨accepted.input_at, concerns, succeeds⟩
        exact absurd initiates (other invocation)

/-- The ledger's time does not run backwards. -/
def Ordered (run : List Invocation) : Prop :=
  run.Pairwise (fun early late => early.timestamp ≤ late.timestamp)

theorem Ordered.le (ordered : Ordered run) {early late : Nat} {invocation invocation' : Invocation}
    (before : early < late) (present : run[early]? = some invocation)
    (present' : run[late]? = some invocation') : invocation.timestamp ≤ invocation'.timestamp := by
  obtain ⟨inside, here⟩ := List.getElem?_eq_some_iff.mp present
  obtain ⟨inside', here'⟩ := List.getElem?_eq_some_iff.mp present'
  have sorted := List.pairwise_iff_getElem.mp ordered early late inside inside' before
  rw [here, here'] at sorted
  exact sorted

def Past (run : List Invocation) (time : Nat) (moment : UInt64) : Prop :=
  ∀ early < time, ∀ invocation, run[early]? = some invocation → invocation.timestamp ≤ moment

theorem Ordered.past (ordered : Ordered run) {time : Nat} {invocation : Invocation}
    (present : run[time]? = some invocation) : Past run time invocation.timestamp :=
  fun _ before _ earlier => ordered.le before earlier present

theorem initiates_invoke {time : Nat} {invocation : Invocation}
    (initiates : deployment.Initiates run account time invocation) :
    (countIn invocation.timestamp
        (storedWindow (deployment.stateAt run time) account)).length < 3 ∧
      storedWindow (deployment.stateAt run (time + 1)) account =
        countIn invocation.timestamp (storedWindow (deployment.stateAt run time) account) ++
          [invocation.timestamp] := by
  obtain ⟨present, concerns, succeeds⟩ := initiates
  have accepted : deployment.Accepts run time invocation := accepts_of_isSome present succeeds
  exact initiates_rateWindow concerns accepted.invoked

/-- The stored window counts what the history counts, now and later. -/
theorem countIn_stateAt (time : Nat) :
    ∀ moment, Past run time moment →
      countIn moment (storedWindow (deployment.stateAt run time) account) =
        countIn moment (deployment.initiations run account time) := by
  induction time with
  | zero =>
      intro moment _past
      rfl
  | succ time ih =>
      intro moment past
      have earlier : Past run time moment :=
        fun early before => past early (Nat.lt_succ_of_lt before)
      by_cases some_ : ∃ invocation, deployment.Initiates run account time invocation
      · obtain ⟨invocation, initiates⟩ := some_
        have now := past time (Nat.lt_succ_self time) invocation initiates.1
        rw [(initiates_invoke initiates).2, initiations_succ initiates, countIn_append,
          countIn_append, countIn_countIn now, ih moment earlier]
      · have other : ∀ invocation, ¬ deployment.Initiates run account time invocation :=
          fun invocation initiates => some_ ⟨invocation, initiates⟩
        rw [initiations_succ_of_not other, ← ih moment earlier, storedWindow,
          rateWindow_stateAt_succ other]
        rfl

/-- The number of successful initiations in a closed interval of ninety days. -/
def countBetween (first : Nat) (moments : List UInt64) : Nat :=
  moments.countP (fun moment =>
    decide (first ≤ moment.toNat ∧ moment.toNat ≤ first + 7776000))

theorem initiations_countBetween (ordered : Ordered run) (first time : Nat) :
    countBetween first (deployment.initiations run account time) ≤ 3 := by
  induction time with
  | zero => exact Nat.zero_le 3
  | succ time ih =>
      by_cases some_ : ∃ invocation, deployment.Initiates run account time invocation
      · obtain ⟨invocation, initiates⟩ := some_
        rw [initiations_succ initiates, countBetween, List.countP_append, List.countP_singleton]
        split
        · -- whatever else lies in the interval still counts now
          rename_i inside
          obtain ⟨_, late⟩ := of_decide_eq_true inside
          have few := (initiates_invoke initiates).1
          rw [countIn_stateAt time _ (ordered.past initiates.1), countIn,
            ← List.countP_eq_length_filter] at few
          have fewer : countBetween first (deployment.initiations run account time) ≤
              (deployment.initiations run account time).countP
                (fun moment => decide (InWindow invocation.timestamp moment)) := by
            apply List.countP_mono_left
            intro moment _member between
            obtain ⟨early, _⟩ := of_decide_eq_true between
            apply decide_eq_true
            unfold InWindow
            omega
          unfold countBetween at fewer
          omega
        · exact ih
      · have other : ∀ invocation, ¬ deployment.Initiates run account time invocation :=
          fun invocation initiates => some_ ⟨invocation, initiates⟩
        rw [initiations_succ_of_not other]
        exact ih

end Deployment

open Deployment in
theorem rate_limit_exact (deployment : Deployment) (run : List Invocation) (account : Address)
    (ordered : Ordered run) :
    (∀ first time, countBetween first (deployment.initiations run account time) ≤ 3) ∧
    (∀ time (env : Env) newPubkey nonce timelockSecs root nullifier proof,
      run[time]? = some
        { timestamp := env.timestamp
          authorized := env.authorized
          call := .initiateRecovery account newPubkey nonce timelockSecs root nullifier proof } →
      ReachesLimit deployment.host env (deployment.stateAt run time) account nonce timelockSecs root
        nullifier →
      (initiateRecovery deployment.host env (deployment.stateAt run time) account newPubkey nonce
          timelockSecs root nullifier proof = .error RecoveryError.rateLimited.failure ↔
        3 ≤ (countIn env.timestamp (deployment.initiations run account time)).length)) ∧
    (∀ time, (∀ invocation, ¬ deployment.Initiates run account time invocation) →
      deployment.initiations run account (time + 1) = deployment.initiations run account time ∧
      (deployment.stateAt run (time + 1)).rateWindow account =
        (deployment.stateAt run time).rateWindow account) := by
  refine ⟨?_, ?_, ?_⟩
  · intro first time
    exact initiations_countBetween ordered first time
  · intro time env newPubkey nonce timelockSecs root nullifier proof present reaches
    have past := ordered.past present
    rw [initiateRecovery_rateLimited reaches, countIn_stateAt time env.timestamp past]
  · intro time other
    exact ⟨initiations_succ_of_not other, rateWindow_stateAt_succ other⟩

def Reference.attempt (nonce : UInt64) : Call :=
  .initiateRecovery account newPubkey nonce 1209600 root nullifier
    (prove secret emptySiblings leftmost accountId
      (.initiate account newPubkey nonce 1209600 root nullifier))

/-- Each attempt supersedes the one before it in the second that one expires. -/
def Reference.attempts : List Invocation :=
  [anyone 100 enrolment, anyone 200 (attempt 1), anyone 1814600 (attempt 2),
    anyone 3629000 (attempt 3), anyone 5443400 (attempt 4)]

theorem rate_limit_exact_fourth :
    initiateRecovery Reference.host
      ((Reference.anyone 5443400 (Reference.attempt 4)).env Reference.deployment.self)
      (Reference.deployment.stateAt Reference.attempts 4) Reference.account Reference.newPubkey 4
      1209600 Reference.root Reference.nullifier
      (Reference.prove Reference.secret Reference.emptySiblings Reference.leftmost
        Reference.accountId
        (.initiate Reference.account Reference.newPubkey 4 1209600 Reference.root
          Reference.nullifier)) = .error RecoveryError.rateLimited.failure := by
  have ordered : Deployment.Ordered Reference.attempts := by
    unfold Deployment.Ordered
    decide
  have evaluated :
      (countIn 5443400
        (storedWindow (Reference.deployment.stateAt Reference.attempts 4)
          Reference.account)).length = 3 ∧
      (earlierChecks Reference.host
        ((Reference.anyone 5443400 (Reference.attempt 4)).env Reference.deployment.self)
        (Reference.deployment.stateAt Reference.attempts 4) Reference.account 4 1209600
        Reference.root Reference.nullifier).toOption.isSome = true := by
    decide +kernel
  obtain ⟨many, passes⟩ := evaluated
  have reaches := earlierChecks_passes.mp (exists_of_isSome passes)
  obtain ⟨_, decides, _⟩ :=
    rate_limit_exact Reference.deployment Reference.attempts Reference.account ordered
  apply (decides 4 _ _ _ _ _ _ _ rfl reaches).mpr
  have past : Deployment.Past Reference.attempts 4 5443400 :=
    @Deployment.Ordered.past Reference.attempts ordered 4
      (Reference.anyone 5443400 (Reference.attempt 4)) rfl
  have same := @Deployment.countIn_stateAt Reference.deployment Reference.attempts
    Reference.account 4 5443400 past
  exact (many.symm.trans (congrArg List.length same)).le

end Nido.ZkRecovery
