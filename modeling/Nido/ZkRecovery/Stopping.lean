/-
The two ways to stop a recovery.

A cancel costs one of a bounded number of attempts, a day apart, and gives the
nullifier back. A burn has no budget at all: whenever a recovery is stored, the
holder of its secret can end it, and the nullifier with it.
-/

import Mathlib.Data.List.Chain
import Nido.ZkRecovery.Isolation

namespace Nido.ZkRecovery

open Contract

/-! ### The budget of cancels -/

def Call.cancelsFor (account : Address) : Call → Bool
  | .cancelRecovery other _ _ _ _ => decide (other = account)
  | _ => false

def Cooled (earlier later : UInt64) : Prop := earlier.toNat + 86400 ≤ later.toNat

theorem Cooled.trans {first second third : UInt64} (one : Cooled first second)
    (two : Cooled second third) : Cooled first third := by
  unfold Cooled at *
  omega

/-- A ledger time before the last cancel saturates to no distance, so it is refused too. -/
theorem cooled_iff {last now : UInt64} :
    ¬ saturatingSub now last < cancelCooldownSecs ↔ Cooled last now := by
  have cooldown : cancelCooldownSecs.toNat = 86400 := rfl
  unfold saturatingSub Cooled
  split
  · rename_i ordered
    rw [UInt64.lt_iff_toNat_lt, UInt64.toNat_sub_of_le _ _ ordered, cooldown]
    rw [UInt64.le_iff_toNat_le] at ordered
    omega
  · rename_i early
    rw [UInt64.le_iff_toNat_le] at early
    have zero : (0 : UInt64).toNat = 0 := rfl
    rw [UInt64.lt_iff_toNat_lt, cooldown, zero]
    omega

/-- What the entries of an account say about the cancels that it has made. -/
structure Counted (account : Address) (state : RecoveryState) (cancelled : List UInt64) :
    Prop where
  used : (cancelsUsed state account).toNat = cancelled.length
  last : state.lastCancel account = cancelled.getLast?
  capped : cancelled.length ≤ state.config.maxCancels.toNat
  spaced : cancelled.IsChain Cooled

theorem Counted.construct (account : Address) (config : RecoveryConfig) :
    Counted account (construct config) [] where
  used := rfl
  last := rfl
  capped := Nat.zero_le _
  spaced := List.isChain_nil

theorem Counted.cancel {host : Host} {env : Env} {state : RecoveryState}
    {authorization : Authorization} {proof : Bytes} {cancelled : List UInt64}
    (counted : Counted authorization.account state cancelled)
    (valid : CancelValid host env state authorization proof) :
    Counted authorization.account (afterCancellation env state authorization)
      (cancelled ++ [env.timestamp]) := by
  have below := valid.belowCap
  have bound := state.config.maxCancels.toNat_lt
  rw [UInt32.lt_iff_toNat_lt] at below
  refine ⟨?_, ?_, ?_, ?_⟩
  · have stored : cancelsUsed (afterCancellation env state authorization) authorization.account =
        cancelsUsed state authorization.account + 1 := by
      unfold cancelsUsed afterCancellation
      dsimp only
      rw [Function.update_self]
      rfl
    have one : (1 : UInt32).toNat = 1 := rfl
    rw [stored, UInt32.toNat_add, one, List.length_append, List.length_singleton, ← counted.used]
    omega
  · rw [List.getLast?_concat]
    exact Function.update_self ..
  · rw [List.length_append, List.length_singleton, ← counted.used]
    exact below
  · rw [List.isChain_append]
    refine ⟨counted.spaced, List.isChain_singleton _, ?_⟩
    intro last isLast now isNow
    cases isNow
    rw [Option.mem_def, ← counted.last] at isLast
    exact cooled_iff.mp (valid.cooled last isLast)

/-- No other call touches the budget, whatever becomes of the recovery. -/
theorem Outcome.budget {host : Host} {env : Env} {state state' : RecoveryState} {call : Call}
    {account : Address} (outcome : Outcome host env state call state')
    (other : call.cancelsFor account = false) :
    state'.cancels account = state.cancels account ∧
      state'.lastCancel account = state.lastCancel account := by
  cases outcome with
  | insert _ inserted | insertFor _ inserted =>
      obtain ⟨_, _, _, _, _, after⟩ := inserted.after
      rw [after]
      exact ⟨rfl, rfl⟩
  | initiate initiated =>
      obtain ⟨_, after⟩ := initiated.after
      rw [after]
      exact ⟨rfl, rfl⟩
  | @cancel cancelling _ _ _ _ _ _ cancelled =>
      have different : account ≠ cancelling := by
        intro same
        exact of_decide_eq_false other same.symm
      obtain ⟨_, after⟩ := cancelled.after
      rw [after]
      exact ⟨Function.update_of_ne different _ _, Function.update_of_ne different _ _⟩
  | burn burned =>
      rw [burned.after]
      exact ⟨rfl, rfl⟩
  | install installed =>
      rw [installed.after]
      exact ⟨rfl, rfl⟩
  | complete completed =>
      rw [completed.after]
      exact ⟨rfl, rfl⟩

theorem Counted.keep {host : Host} {env : Env} {state state' : RecoveryState} {call : Call}
    {account : Address} {cancelled : List UInt64} (counted : Counted account state cancelled)
    (outcome : Outcome host env state call state')
    (other : call.cancelsFor account = false) : Counted account state' cancelled := by
  obtain ⟨sameCount, sameLast⟩ := outcome.budget other
  refine ⟨?_, ?_, ?_, counted.spaced⟩
  · rw [← counted.used]
    unfold cancelsUsed
    rw [sameCount]
  · rw [sameLast, counted.last]
  · rw [outcome.config]
    exact counted.capped

namespace Deployment

variable (deployment : Deployment) (run : List Invocation) (account : Address)

def cancellations (time : Nat) : List UInt64 :=
  ((Run.history deployment.step deployment.start run time).filter
    (fun invocation => invocation.call.cancelsFor account)).map Invocation.timestamp

variable {deployment run account}

theorem cancels_invoked {invocation : Invocation} {state after : RecoveryState}
    (stepped : deployment.step state invocation = some after)
    (cancels : invocation.call.cancelsFor account = true) :
    ∃ nonce root nullifier proof,
      invocation.call = .cancelRecovery account nonce root nullifier proof ∧
      hasPending (invocation.env deployment.self) state account = true ∧
      CancelValid deployment.host (invocation.env deployment.self) state
        (.cancel account nonce root nullifier) proof ∧
      after = afterCancellation (invocation.env deployment.self) state
        (.cancel account nonce root nullifier) := by
  have invoked := step_invoked stepped
  cases made : invocation.call with
  | cancelRecovery other nonce root nullifier proof =>
      rw [made] at cancels invoked
      have same : other = account := of_decide_eq_true cancels
      subst other
      simp only [invoke, bind_eq_ok, pure_eq_ok, Prod.exists, cancelRecovery_exact,
        Prod.mk.injEq] at invoked
      obtain ⟨_, _, ⟨live, valid, _, exact_⟩, rfl⟩ := invoked
      exact ⟨nonce, root, nullifier, proof, rfl, live, valid, exact_.symm⟩
  | insert | insertFor | initiateRecovery | burnNullifier | install | enforce | uninstall =>
      rw [made] at cancels
      cases cancels

theorem counted_stateAt (time : Nat) :
    Counted account (deployment.stateAt run time)
      (deployment.cancellations run account time) := by
  refine @Run.invariant_history _ _ deployment.step deployment.start run
    (fun state accepted => Counted account state
      ((accepted.filter (fun invocation => invocation.call.cancelsFor account)).map
        Invocation.timestamp))
    (Counted.construct account deployment.config) ?_ time
  intro time invocation after counted accepted
  rw [List.filter_append, List.map_append]
  cases cancels : invocation.call.cancelsFor account with
  | true =>
      obtain ⟨_, _, _, _, _, _, valid, rfl⟩ := cancels_invoked accepted.steps cancels
      rw [List.filter_singleton, cancels]
      exact counted.cancel valid
  | false =>
      rw [List.filter_singleton, cancels, cond_false, List.map_nil, List.append_nil]
      exact counted.keep (step_eq_some accepted.steps) cancels

end Deployment

/-! ### What a cancel gives back -/

/-- A nullifier without an entry gets one only through a proof that names it. -/
theorem Outcome.nullifier_cases {host : Host} {env : Env} {state state' : RecoveryState}
    {call : Call} {key : BytesN 32} (corresponds : Corresponds state)
    (outcome : Outcome host env state call state') (absent : state.nullifier key = none) :
    state'.nullifier key = none ∨
      ∃ authorization proof, call.authorization = some (authorization, proof) ∧
        authorization.nullifier = key := by
  have released {account : Address} : withoutReservation state account key = none := by
    rw [withoutReservation_of_ne, absent]
    rw [absent]
    exact fun impossible => by cases impossible
  cases outcome with
  | insert _ inserted | insertFor _ inserted =>
      obtain ⟨_, _, _, _, _, after⟩ := inserted.after
      rw [after]
      exact Or.inl absent
  | @initiate _ _ _ _ _ used _ _ _ initiated =>
      rw [initiated.nullifiers]
      by_cases same : key = used
      · exact Or.inr ⟨_, _, rfl, same.symm⟩
      · exact Or.inl ((Function.update_of_ne same _ _).trans released)
  | cancel cancelled =>
      rw [cancelled.nullifiers]
      exact Or.inl released
  | @burn _ _ _ burnt _ _ burned =>
      rw [burned.nullifiers]
      by_cases same : key = burnt
      · exact Or.inr ⟨_, _, rfl, same.symm⟩
      · exact Or.inl ((Function.update_of_ne same _ _).trans absent)
  | install installed =>
      rw [installed.after]
      exact Or.inl absent
  | @complete _ _ _ smartAccount pending _ completed =>
      rw [completed.nullifiers]
      have different : key ≠ pending.nullifier := by
        intro same
        have held := corresponds.reserves smartAccount pending completed.found
        rw [← same, absent] at held
        cases held
      exact Or.inl ((Function.update_of_ne different _ _).trans absent)

structure InitiateReady (host : Host) (env : Env) (state : RecoveryState)
    (authorization : Authorization) (proof : Bytes) : Prop where
  notLive : hasPending env state authorization.account = false
  knownRoot : isKnownRoot host state authorization.root = .ok true
  nonceNext : authorization.nonce.toNat = (storedNonce state authorization.account).toNat + 1
  floor : ¬ authorization.timelockSecs.toUInt64 < state.config.timelockFloorSecs
  timelock : authorization.timelockSecs.toUInt64 = state.config.delaySecs
  belowLimit :
    (countIn env.timestamp (storedWindow state authorization.account)).length < 3
  verified : Verified host env.currentContract state.config authorization proof
  executable : env.timestamp.toNat + state.config.delaySecs.toNat < 2 ^ 64
  expires : (env.timestamp + state.config.delaySecs).toNat +
    state.config.completionWindowSecs.toNat < 2 ^ 64

theorem InitiateReady.valid {host : Host} {env : Env} {state : RecoveryState}
    {authorization : Authorization} {proof : Bytes}
    (ready : InitiateReady host env state authorization proof)
    (absent : state.nullifier authorization.nullifier = none) :
    InitiateValid host env state authorization proof where
  knownRoot := ready.knownRoot
  unused := by
    rw [withoutReservation_of_ne, absent]
    rw [absent]
    exact fun impossible => by cases impossible
  nonceNext := ready.nonceNext
  floor := ready.floor
  timelock := ready.timelock
  belowLimit := ready.belowLimit
  verified := ready.verified
  executable := ready.executable
  expires := ready.expires

namespace Deployment

variable (deployment : Deployment) (run : List Invocation)

/-- No call in between succeeds with a proof that names the nullifier. -/
def Unnamed (nullifier : BytesN 32) (early late : Nat) : Prop :=
  ∀ between invocation authorization proof, early ≤ between → between < late →
    deployment.Accepts run between invocation →
    invocation.call.authorization = some (authorization, proof) →
    authorization.nullifier ≠ nullifier

variable {deployment run}

theorem absent_stateAt (sound : deployment.NullifiersBound run) {nullifier : BytesN 32}
    {early late : Nat} (ordered : early ≤ late)
    (unnamed : deployment.Unnamed run nullifier early late)
    (absent : (deployment.stateAt run early).nullifier nullifier = none) :
    (deployment.stateAt run late).nullifier nullifier = none := by
  refine @Run.invariant_from _ _ deployment.step deployment.start run
    (fun state => state.nullifier nullifier = none) early late ordered absent ?_
  intro time invocation after from_ upto before accepted
  have outcome := step_eq_some accepted.steps
  rcases outcome.nullifier_cases (corresponds_stateAt sound time) before with
    kept | ⟨authorization, proof, carries, names⟩
  · exact kept
  · exact absurd names (unnamed time invocation authorization proof from_ upto accepted.here carries)

end Deployment

structure Releases (account : Address) (pending : PendingRecovery)
    (before after : RecoveryState) : Prop where
  found : before.pending account = some pending
  removed : after.pending = Function.update before.pending account none
  released : ∀ key, after.nullifier key =
    if key = pending.nullifier ∧ before.nullifier key = some (.reserved account) then none
    else before.nullifier key
  spent : ∀ key, after.nullifier key = some .spent ↔ before.nullifier key = some .spent

theorem Cancelled.releases {host : Host} {env : Env} {state state' : RecoveryState}
    {authorization : Authorization} {proof : Bytes} {pending : PendingRecovery}
    (cancelled : Cancelled host env state authorization proof pending state') :
    Releases authorization.account pending state state' := by
  have released (key : BytesN 32) : state'.nullifier key =
      if key = pending.nullifier ∧
        state.nullifier key = some (.reserved authorization.account) then none
      else state.nullifier key := by
    rw [cancelled.nullifiers, withoutReservation, cancelled.found, Option.any_some]
    by_cases same : key = pending.nullifier
    · simp only [same, decide_true, true_and]
    · rw [if_neg (fun both => same (of_decide_eq_true both.1).symm), if_neg (fun both => same both.1)]
  refine ⟨cancelled.found, cancelled.pendings, released, ?_⟩
  intro key
  rw [released key]
  split
  · rename_i own
    rw [own.2]
    constructor
    · intro impossible
      cases impossible
    · intro impossible
      cases impossible
  · exact Iff.rfl

open Deployment in
/-- The last part needs a sound verifier: with an unsound one a stranger could
have burned the nullifier while it was reserved. -/
theorem cancel_accounting (deployment : Deployment) (run : List Invocation) (account : Address) :
    (∀ time,
      (cancelsUsed (deployment.stateAt run time) account).toNat =
        (deployment.cancellations run account time).length ∧
      cancelsUsed (deployment.stateAt run time) account ≤ deployment.config.maxCancels ∧
      (deployment.cancellations run account time).Pairwise Cooled) ∧
    ∀ time invocation nonce root nullifier proof, deployment.Accepts run time invocation →
      invocation.call = .cancelRecovery account nonce root nullifier proof →
      ∃ pending, Releases account pending (deployment.stateAt run time)
          (deployment.stateAt run (time + 1)) ∧
        (deployment.NullifiersBound run →
          (deployment.stateAt run time).nullifier pending.nullifier = some (.reserved account) ∧
          ∀ late env newPubkey nonce' timelockSecs root' proof', time < late →
            deployment.Unnamed run pending.nullifier (time + 1) late →
            InitiateReady deployment.host env (deployment.stateAt run late)
              (.initiate account newPubkey nonce' timelockSecs root' pending.nullifier) proof' →
            ∃ result, initiateRecovery deployment.host env (deployment.stateAt run late) account
              newPubkey nonce' timelockSecs root' pending.nullifier proof' = .ok result) := by
  constructor
  · intro time
    have counted := @counted_stateAt deployment run account time
    refine ⟨counted.used, ?_, ?_⟩
    · have capped := counted.capped
      rw [← counted.used, config_stateAt] at capped
      exact UInt32.le_iff_toNat_le.mpr capped
    · have trans : Trans Cooled Cooled Cooled := ⟨Cooled.trans⟩
      exact List.isChain_iff_pairwise.mp counted.spaced
  · intro time invocation nonce root nullifier proof accepted made
    have outcome := accepted.outcome
    rw [made] at outcome
    cases outcome with
    | @cancel _ _ _ _ _ pending _ cancelled =>
      have releases : Releases account pending (deployment.stateAt run time)
          (deployment.stateAt run (time + 1)) := cancelled.releases
      refine ⟨pending, releases, ?_⟩
      intro sound
      have held := (corresponds_stateAt sound time).reserves account pending releases.found
      refine ⟨held, ?_⟩
      intro late env newPubkey nonce' timelockSecs root' proof' after unnamed ready
      have absent : (deployment.stateAt run (time + 1)).nullifier pending.nullifier = none := by
        rw [releases.released]
        exact if_pos ⟨rfl, held⟩
      have still := absent_stateAt sound after unnamed absent
      exact ⟨_, (initiateRecovery_exact _ _ _).mpr ⟨ready.notLive, ready.valid still, rfl⟩⟩

def Reference.cancelled : List Invocation :=
  [anyone 100 enrolment, anyone 200 initiation,
    anyone 300 (.cancelRecovery account 2 root nullifier
      (prove secret emptySiblings leftmost accountId (.cancel account 2 root nullifier)))]

def Reference.again : Authorization := .initiate account newPubkey 3 1209600 root nullifier

theorem Reference.cancelled_evaluated :
    (Reference.deployment.cancellations Reference.cancelled Reference.account 3).length = 1 ∧
      (Reference.deployment.step (Reference.deployment.stateAt Reference.cancelled 2)
        (Reference.cancelled.getD 2 (Reference.anyone 0 Reference.enrolment))).isSome = true ∧
      ((Reference.deployment.stateAt Reference.cancelled 2).pending Reference.account).map
        PendingRecovery.nullifier = some Reference.nullifier ∧
      hasPending ((Reference.anyone 400 Reference.enrolment).env Reference.deployment.self)
        (Reference.deployment.stateAt Reference.cancelled 3) Reference.account = false ∧
      (earlierChecks Reference.host
        ((Reference.anyone 400 Reference.enrolment).env Reference.deployment.self)
        (Reference.deployment.stateAt Reference.cancelled 3) Reference.account 3 1209600
        Reference.root Reference.nullifier).toOption.isSome = true ∧
      (countIn 400 (storedWindow (Reference.deployment.stateAt Reference.cancelled 3)
        Reference.account)).length < 3 ∧
      (verifyProof Reference.host Reference.deployment.self Reference.config Reference.again
        (Reference.prove Reference.secret Reference.emptySiblings Reference.leftmost
          Reference.accountId Reference.again)).toOption.isSome = true := by
  decide +kernel

theorem Reference.again_ready :
    InitiateReady Reference.host
      ((Reference.anyone 400 Reference.enrolment).env Reference.deployment.self)
      (Reference.deployment.stateAt Reference.cancelled 3) Reference.again
      (Reference.prove Reference.secret Reference.emptySiblings Reference.leftmost
        Reference.accountId Reference.again) := by
  obtain ⟨_, _, _, notLive, checks, few, proves⟩ := Reference.cancelled_evaluated
  have reaches := earlierChecks_passes.mp (exists_of_isSome checks)
  obtain ⟨_, verified⟩ := exists_of_isSome proves
  exact
    { notLive
      knownRoot := reaches.knownRoot
      nonceNext := reaches.nonceNext
      floor := reaches.floor
      timelock := reaches.timelock
      belowLimit := few
      verified := by
        rw [Deployment.config_stateAt]
        exact verifyProof_eq_ok.mp verified
      executable := by
        rw [Deployment.config_stateAt]
        decide
      expires := by
        rw [Deployment.config_stateAt]
        decide }

theorem cancel_accounting_again :
    cancelsUsed (Reference.deployment.stateAt Reference.cancelled 3) Reference.account = 1 ∧
      ∃ result, initiateRecovery Reference.host
        ((Reference.anyone 400 Reference.enrolment).env Reference.deployment.self)
        (Reference.deployment.stateAt Reference.cancelled 3) Reference.account Reference.newPubkey
        3 1209600 Reference.root Reference.nullifier
        (Reference.prove Reference.secret Reference.emptySiblings Reference.leftmost
          Reference.accountId Reference.again) = .ok result := by
  obtain ⟨counts, cancels⟩ :=
    cancel_accounting Reference.deployment Reference.cancelled Reference.account
  obtain ⟨one, steps, waiting, _⟩ := Reference.cancelled_evaluated
  have used := (counts 3).1
  rw [one] at used
  refine ⟨UInt32.toNat_inj.mp used, ?_⟩
  obtain ⟨pending, releases, reuse⟩ := cancels 2 _ 2 Reference.root Reference.nullifier _
    (Deployment.accepts_of_isSome rfl steps) rfl
  have sound : Reference.deployment.NullifiersBound Reference.cancelled :=
    Deployment.nullifiersBound_of_single Reference.account (by decide)
  have named : pending.nullifier = Reference.nullifier := by
    rw [releases.found] at waiting
    exact Option.some.inj waiting
  obtain ⟨_, reused⟩ := reuse sound
  have unnamed : Reference.deployment.Unnamed Reference.cancelled pending.nullifier (2 + 1) 3 :=
    fun between _ _ _ from_ upto => absurd upto (Nat.not_lt.mpr from_)
  rw [named] at reused unnamed
  exact reused 3 _ Reference.newPubkey 3 1209600 Reference.root _ (Nat.lt_succ_self 2) unnamed
    Reference.again_ready

/-! ### The escape hatch -/

/-- What a burn leaves alone, and what it does to its own account. -/
structure BurnedFor (account : Address) (nonce : UInt64) (nullifier : BytesN 32)
    (before after : RecoveryState) : Prop where
  noPending : after.pending account = none
  spent : after.nullifier nullifier = some .spent
  nonceStored : after.nonce account = some nonce
  otherNullifiers : ∀ key, key ≠ nullifier → after.nullifier key = before.nullifier key
  otherAccounts : ∀ other, other ≠ account → SameAccount other before after
  cancels : after.cancels account = before.cancels account
  lastCancel : after.lastCancel account = before.lastCancel account
  rateWindow : after.rateWindow account = before.rateWindow account
  installed : after.installed account = before.installed account
  pool : SamePool before after
  config : after.config = before.config

theorem afterBurn_burnedFor {state : RecoveryState} {account : Address} {nonce : UInt64}
    {root : BytesN 32} {pending : PendingRecovery} (found : state.pending account = some pending) :
    BurnedFor account nonce pending.nullifier state
      (afterBurn state (.revoke account nonce root pending.nullifier)) where
  noPending := by
    change withoutPending state account pending.nullifier account = none
    refine if_pos ⟨rfl, ?_⟩
    rw [found, Option.any_some, decide_eq_true rfl]
  spent := Function.update_self ..
  nonceStored := Function.update_self ..
  otherNullifiers := fun _ different => Function.update_of_ne different _ _
  otherAccounts := by
    intro other different
    refine ⟨?_, ?_, rfl, rfl, rfl, rfl⟩
    · exact if_neg (fun both => different both.1)
    · exact Function.update_of_ne different _ _
  cancels := rfl
  lastCancel := rfl
  rateWindow := rfl
  installed := rfl
  pool := ⟨rfl, rfl, rfl, rfl⟩
  config := rfl

/-- Neither the window of the pending nor any budget of the account stands in the way. -/
theorem burn_always_open (deployment : Deployment) (run : List Invocation) (time : Nat) (env : Env)
    (account : Address) (nonce : UInt64) (root : BytesN 32) (pending : PendingRecovery)
    (proof : Bytes) (sound : deployment.NullifiersBound run)
    (found : (deployment.stateAt run time).pending account = some pending)
    (authorized : env.authorized account = true)
    (nonceNext :
      nonce.toNat = (storedNonce (deployment.stateAt run time) account).toNat + 1)
    (knownRoot : isKnownRoot deployment.host (deployment.stateAt run time) root = .ok true)
    (verified : Verified deployment.host env.currentContract deployment.config
      (.revoke account nonce root pending.nullifier) proof) :
    ∃ after,
      burnNullifier deployment.host env (deployment.stateAt run time) account nonce root
        pending.nullifier proof = .ok after ∧
      BurnedFor account nonce pending.nullifier (deployment.stateAt run time) after := by
  have held := (Deployment.corresponds_stateAt sound time).reserves account pending found
  have notSpent : (deployment.stateAt run time).nullifier pending.nullifier ≠ some .spent := by
    rw [held]
    exact fun impossible => by cases impossible
  have valid : BurnValid deployment.host env (deployment.stateAt run time)
      (.revoke account nonce root pending.nullifier) proof :=
    { authorized
      knownRoot
      nonceNext
      notSpent
      verified := by
        rw [Deployment.config_stateAt]
        exact verified }
  exact ⟨_, (burnNullifier_exact _ _ _).mpr ⟨valid, rfl⟩, afterBurn_burnedFor found⟩

theorem burn_always_open_expired :
    ∃ pending, (Reference.deployment.stateAt Reference.revoked 2).pending Reference.account =
        some pending ∧
      pending.expiresAt < 9999999 ∧
      ∃ after,
        burnNullifier Reference.host
          ((Reference.anyone 9999999 Reference.enrolment).env Reference.deployment.self)
          (Reference.deployment.stateAt Reference.revoked 2) Reference.account 2 Reference.root
          pending.nullifier
          (Reference.prove Reference.secret Reference.emptySiblings Reference.leftmost
            Reference.accountId (Reference.revoking 2 Reference.nullifier)) = .ok after ∧
        BurnedFor Reference.account 2 pending.nullifier
          (Reference.deployment.stateAt Reference.revoked 2) after := by
  have evaluated :
      (Reference.deployment.step (Reference.deployment.stateAt Reference.revoked 2)
        (Reference.anyone 300 (Reference.revocation 2 Reference.nullifier))).isSome = true ∧
      ((Reference.deployment.stateAt Reference.revoked 2).pending Reference.account).map
        (fun pending => (pending.nullifier, pending.expiresAt)) =
          some (Reference.nullifier, 1814600) := by
    decide +kernel
  obtain ⟨steps, waiting⟩ := evaluated
  obtain ⟨pending, found, isPending⟩ := Option.map_eq_some_iff.mp waiting
  have named : pending.nullifier = Reference.nullifier := congrArg Prod.fst isPending
  have expires : pending.expiresAt = 1814600 := congrArg Prod.snd isPending
  have accepted : Reference.deployment.Accepts Reference.revoked 2
      (Reference.anyone 300 (Reference.revocation 2 Reference.nullifier)) :=
    Deployment.accepts_of_isSome rfl steps
  have valid := accepted.outcome.authorized rfl
  have sound : Reference.deployment.NullifiersBound Reference.revoked :=
    Deployment.nullifiersBound_of_single Reference.account (by decide)
  refine ⟨pending, found, by rw [expires]; decide, ?_⟩
  apply burn_always_open Reference.deployment Reference.revoked 2 _ Reference.account 2
    Reference.root pending _ sound found rfl valid.nonceNext valid.knownRoot
  have verified := valid.verified
  rw [Deployment.config_stateAt] at verified
  rw [named]
  exact verified

end Nido.ZkRecovery
