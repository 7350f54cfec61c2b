/-
Pendings and reservations over whole runs.

A pending and the reservation of its nullifier come and go together: two tables
written by four calls stay in exact correspondence. A completion, read
backwards, leads to one initiation that nothing has disturbed since.
-/

import Nido.ZkRecovery.Reference

namespace Nido.ZkRecovery

/-- Every pending holds its nullifier, and every held nullifier has its pending. -/
structure Corresponds (state : RecoveryState) : Prop where
  reserves : ∀ account pending, state.pending account = some pending →
    state.nullifier pending.nullifier = some (.reserved account)
  pends : ∀ account nullifier, state.nullifier nullifier = some (.reserved account) →
    ∃ pending, state.pending account = some pending ∧ pending.nullifier = nullifier

theorem Corresponds.construct (config : RecoveryConfig) : Corresponds (construct config) where
  reserves := fun _ _ found => by cases found
  pends := fun _ _ held => by cases held

theorem Corresponds.released {state : RecoveryState} (corresponds : Corresponds state)
    (account : Address) (key : BytesN 32) :
    withoutReservation state account key ≠ some (.reserved account) := by
  intro held
  have before := withoutReservation_ne held
  obtain ⟨pending, found, same⟩ := corresponds.pends account key before
  have gone : withoutReservation state account key = none :=
    if_pos ⟨by rw [found, Option.any_some, same, decide_eq_true rfl], before⟩
  rw [gone] at held
  cases held

theorem Corresponds.kept {state : RecoveryState} (corresponds : Corresponds state)
    {account other : Address} (distinct : other ≠ account) {pending : PendingRecovery}
    (found : state.pending other = some pending) :
    withoutReservation state account pending.nullifier = some (.reserved other) := by
  have held := corresponds.reserves other pending found
  rw [withoutReservation_of_ne, held]
  rw [held, Ne, Option.some.injEq, NullifierState.reserved.injEq]
  exact distinct

theorem Corresponds.separate {state : RecoveryState} (corresponds : Corresponds state)
    {account other : Address} {pending pending' : PendingRecovery}
    (found : state.pending account = some pending)
    (found' : state.pending other = some pending')
    (same : pending.nullifier = pending'.nullifier) : account = other := by
  have held := corresponds.reserves account pending found
  rw [same, corresponds.reserves other pending' found', Option.some.injEq,
    NullifierState.reserved.injEq] at held
  exact held.symm

private theorem reserved_of_spend {table : BytesN 32 → Option NullifierState}
    {key nullifier : BytesN 32} {account : Address}
    (held : Function.update table key (some .spent) nullifier = some (.reserved account)) :
    nullifier ≠ key ∧ table nullifier = some (.reserved account) := by
  by_cases same : nullifier = key
  · rw [same, Function.update_self] at held
    cases held
  · rw [Function.update_of_ne same] at held
    exact ⟨same, held⟩

private theorem Corresponds.initiate {host : Host} {env : Env} {state state' : RecoveryState}
    {authorization : Authorization} {proof : Bytes} {pending : PendingRecovery}
    (corresponds : Corresponds state)
    (initiated : Initiated host env state authorization proof pending state') :
    Corresponds state' := by
  refine ⟨?_, ?_⟩
  · intro account found present
    rw [initiated.pendings] at present
    rw [initiated.nullifiers]
    by_cases same : account = authorization.account
    · rw [same, Function.update_self] at present
      cases present
      rw [initiated.nullifier, Function.update_self, same]
    · rw [Function.update_of_ne same] at present
      have held := corresponds.kept same present
      have other : found.nullifier ≠ authorization.nullifier := by
        intro clash
        rw [clash, initiated.unused] at held
        cases held
      rw [Function.update_of_ne other, held]
  · intro account nullifier held
    rw [initiated.nullifiers] at held
    rw [initiated.pendings]
    by_cases same : nullifier = authorization.nullifier
    · rw [same, Function.update_self] at held
      cases held
      exact ⟨pending, Function.update_self .., initiated.nullifier.trans same.symm⟩
    · rw [Function.update_of_ne same] at held
      have other : account ≠ authorization.account := by
        rintro rfl
        exact corresponds.released _ nullifier held
      rw [Function.update_of_ne other]
      exact corresponds.pends account nullifier (withoutReservation_ne held)

private theorem Corresponds.cancel {host : Host} {env : Env} {state state' : RecoveryState}
    {authorization : Authorization} {proof : Bytes} {pending : PendingRecovery}
    (corresponds : Corresponds state)
    (cancelled : Cancelled host env state authorization proof pending state') :
    Corresponds state' := by
  refine ⟨?_, ?_⟩
  · intro account found present
    rw [cancelled.pendings] at present
    rw [cancelled.nullifiers]
    by_cases same : account = authorization.account
    · rw [same, Function.update_self] at present
      cases present
    · rw [Function.update_of_ne same] at present
      exact corresponds.kept same present
  · intro account nullifier held
    rw [cancelled.nullifiers] at held
    rw [cancelled.pendings]
    have other : account ≠ authorization.account := by
      rintro rfl
      exact corresponds.released _ nullifier held
    rw [Function.update_of_ne other]
    exact corresponds.pends account nullifier (withoutReservation_ne held)

/-- Here the proof system is needed: the table alone would let a burn spend a
nullifier that another account waits on. -/
private theorem Corresponds.burn {host : Host} {env : Env} {state state' : RecoveryState}
    {authorization : Authorization} {proof : Bytes} (corresponds : Corresponds state)
    (burned : Burned host env state authorization proof state')
    (own : ∀ other, state.nullifier authorization.nullifier = some (.reserved other) →
      other = authorization.account) :
    Corresponds state' := by
  refine ⟨?_, ?_⟩
  · intro account found present
    rw [burned.pendings, withoutPending] at present
    rw [burned.nullifiers]
    split at present
    · cases present
    · rename_i kept
      have held := corresponds.reserves account found present
      have other : found.nullifier ≠ authorization.nullifier := by
        intro clash
        rw [clash] at held
        have same := own account held
        subst same
        exact kept ⟨rfl, by rw [present, Option.any_some, clash, decide_eq_true rfl]⟩
      rw [Function.update_of_ne other, held]
  · intro account nullifier held
    rw [burned.nullifiers] at held
    rw [burned.pendings]
    obtain ⟨other, before⟩ := reserved_of_spend held
    obtain ⟨pending, found, isNullifier⟩ := corresponds.pends account nullifier before
    refine ⟨pending, ?_, isNullifier⟩
    rw [withoutPending, if_neg, found]
    rintro ⟨rfl, aborted⟩
    rw [found, Option.any_some, isNullifier, decide_eq_true_iff] at aborted
    exact other aborted

private theorem Corresponds.complete {env : Env} {state state' : RecoveryState} {context : Context}
    {contextRule : ContextRule} {smartAccount : Address} {pending : PendingRecovery}
    (corresponds : Corresponds state)
    (completed : Completed env state context contextRule smartAccount pending state') :
    Corresponds state' := by
  refine ⟨?_, ?_⟩
  · intro account found present
    rw [completed.pendings] at present
    rw [completed.nullifiers]
    by_cases same : account = smartAccount
    · rw [same, Function.update_self] at present
      cases present
    · rw [Function.update_of_ne same] at present
      have other : found.nullifier ≠ pending.nullifier := by
        intro clash
        exact same (corresponds.separate present completed.found clash)
      rw [Function.update_of_ne other]
      exact corresponds.reserves account found present
  · intro account nullifier held
    rw [completed.nullifiers] at held
    rw [completed.pendings]
    obtain ⟨notConsumed, before⟩ := reserved_of_spend held
    obtain ⟨found, present, isNullifier⟩ := corresponds.pends account nullifier before
    have other : account ≠ smartAccount := by
      rintro rfl
      rw [completed.found] at present
      cases present
      exact notConsumed isNullifier.symm
    exact ⟨found, by rw [Function.update_of_ne other, present], isNullifier⟩

/-- Every accepted call keeps the correspondence, a burn under the condition
that nobody else waits on the burned nullifier. -/
theorem Corresponds.step {host : Host} {env : Env} {state state' : RecoveryState} {call : Call}
    (corresponds : Corresponds state) (outcome : Outcome host env state call state')
    (own : ∀ account nonce root nullifier proof,
      call = .burnNullifier account nonce root nullifier proof →
      ∀ other, state.nullifier nullifier = some (.reserved other) → other = account) :
    Corresponds state' := by
  cases outcome with
  | insert _ inserted | insertFor _ inserted =>
      obtain ⟨_, _, _, _, _, rfl⟩ := inserted.after
      exact ⟨corresponds.reserves, corresponds.pends⟩
  | initiate initiated => exact corresponds.initiate initiated
  | cancel cancelled => exact corresponds.cancel cancelled
  | burn burned => exact corresponds.burn burned (own _ _ _ _ _ rfl)
  | install installed =>
      rw [installed.after]
      exact ⟨corresponds.reserves, corresponds.pends⟩
  | complete completed => exact corresponds.complete completed

theorem Outcome.reserved_cases {host : Host} {env : Env} {state state' : RecoveryState}
    {call : Call} {account : Address} {nullifier : BytesN 32}
    (outcome : Outcome host env state call state')
    (held : state'.nullifier nullifier = some (.reserved account)) :
    state.nullifier nullifier = some (.reserved account) ∨
      ∃ authorization proof, call.authorization = some (authorization, proof) ∧
        authorization.account = account ∧ authorization.nullifier = nullifier := by
  cases outcome with
  | insert _ inserted | insertFor _ inserted =>
      obtain ⟨_, _, _, _, _, after⟩ := inserted.after
      rw [after] at held
      exact Or.inl held
  | @initiate _ _ _ _ _ used _ _ _ initiated =>
      rw [initiated.nullifiers] at held
      by_cases same : nullifier = used
      · subst nullifier
        cases (Function.update_self ..).symm.trans held
        exact Or.inr ⟨_, _, rfl, rfl, rfl⟩
      · exact Or.inl (withoutReservation_ne ((Function.update_of_ne same _ _).symm.trans held))
  | cancel cancelled =>
      rw [cancelled.nullifiers] at held
      exact Or.inl (withoutReservation_ne held)
  | burn burned =>
      rw [burned.nullifiers] at held
      exact Or.inl (reserved_of_spend held).2
  | install installed =>
      rw [installed.after] at held
      exact Or.inl held
  | complete completed =>
      rw [completed.nullifiers] at held
      exact Or.inl (reserved_of_spend held).2

namespace Deployment

variable {deployment : Deployment} {run : List Invocation}

/-- Soundness, as far as a run shows it: whatever was proved for a nullifier
was proved for one account. -/
def NullifiersBound (deployment : Deployment) (run : List Invocation) : Prop :=
  ∀ time time' invocation invocation' authorization authorization' proof proof',
    deployment.Accepts run time invocation →
    invocation.call.authorization = some (authorization, proof) →
    deployment.Accepts run time' invocation' →
    invocation'.call.authorization = some (authorization', proof') →
    authorization.nullifier = authorization'.nullifier →
    authorization.account = authorization'.account

/-- Every authorization of the run stands for the account. -/
def SpeaksFor (account : Address) (run : List Invocation) : Bool :=
  run.all (fun invocation =>
    invocation.call.authorization.all (fun carried => decide (carried.1.account = account)))

theorem nullifiersBound_of_single (account : Address) (single : SpeaksFor account run = true) :
    deployment.NullifiersBound run := by
  intro time time' invocation invocation' authorization authorization' proof proof' accepted
    carries accepted' carries' _same
  have speaks := List.all_eq_true.mp single
  have own := speaks invocation (List.mem_of_getElem? accepted.input_at)
  have own' := speaks invocation' (List.mem_of_getElem? accepted'.input_at)
  rw [carries, Option.all_some, decide_eq_true_iff] at own
  rw [carries', Option.all_some, decide_eq_true_iff] at own'
  exact own.trans own'.symm

theorem reserved_origin {time : Nat} {account : Address} {nullifier : BytesN 32}
    (held : (deployment.stateAt run time).nullifier nullifier = some (.reserved account)) :
    ∃ earlier < time, ∃ invocation authorization proof,
      deployment.Accepts run earlier invocation ∧
      invocation.call.authorization = some (authorization, proof) ∧
      authorization.account = account ∧ authorization.nullifier = nullifier := by
  obtain ⟨earlier, before, invocation, accepted, absent, since⟩ :=
    established (fun state => state.nullifier nullifier = some (.reserved account))
      (fun impossible => by cases impossible) held
  have after := since (earlier + 1) (Nat.lt_succ_self earlier) before
  rcases accepted.outcome.reserved_cases after with already | ⟨authorization, proof, origin⟩
  · exact absurd already absent
  · exact ⟨earlier, before, invocation, authorization, proof, accepted, origin⟩

theorem corresponds_stateAt (sound : deployment.NullifiersBound run) (time : Nat) :
    Corresponds (deployment.stateAt run time) := by
  refine invariant Corresponds (Corresponds.construct deployment.config) ?_ time
  intro time invocation accepted corresponds
  refine corresponds.step accepted.outcome ?_
  intro account nonce root nullifier proof made other held
  obtain ⟨earlier, _, origin, authorization, originProof, initiated, carries, isAccount,
    isNullifier⟩ := reserved_origin held
  have same := sound earlier time origin invocation authorization
    (.revoke account nonce root nullifier) originProof proof initiated carries accepted
    (by rw [made]; rfl) isNullifier
  rw [← isAccount, same]
  rfl

end Deployment

/-- A pending and the reservation of its nullifier imply each other in every
state of every run, so no pending carries a spent nullifier and no reservation
is left behind. -/
theorem pending_iff_reserved (deployment : Deployment) (run : List Invocation)
    (sound : deployment.NullifiersBound run) (time : Nat) :
    (∀ account pending, (deployment.stateAt run time).pending account = some pending →
      (deployment.stateAt run time).nullifier pending.nullifier = some (.reserved account)) ∧
    (∀ account nullifier,
      (deployment.stateAt run time).nullifier nullifier = some (.reserved account) →
        ∃ pending, (deployment.stateAt run time).pending account = some pending ∧
          pending.nullifier = nullifier) ∧
    ∀ account pending, (deployment.stateAt run time).pending account = some pending →
      (deployment.stateAt run time).nullifier pending.nullifier ≠ some .spent := by
  have corresponds := Deployment.corresponds_stateAt sound time
  refine ⟨corresponds.reserves, corresponds.pends, ?_⟩
  intro account pending found
  rw [corresponds.reserves account pending found]
  intro spent
  cases spent

theorem pending_iff_reserved_initiated :
    ∃ pending,
      (Reference.deployment.stateAt Reference.recovery 3).pending Reference.account =
        some pending ∧
      pending.nullifier = Reference.nullifier ∧
      (Reference.deployment.stateAt Reference.recovery 3).nullifier Reference.nullifier =
        some (.reserved Reference.account) := by
  have initiated : ((Reference.deployment.stateAt Reference.recovery 3).pending
      Reference.account).map PendingRecovery.nullifier = some Reference.nullifier := by
    decide +kernel
  obtain ⟨pending, found, same⟩ := Option.map_eq_some_iff.mp initiated
  have sound : Reference.deployment.NullifiersBound Reference.recovery :=
    Deployment.nullifiersBound_of_single Reference.account (by decide)
  have holds := (pending_iff_reserved Reference.deployment Reference.recovery sound 3).1
    Reference.account pending found
  rw [same] at holds
  exact ⟨pending, found, same, holds⟩

/-! ### A completion is authentic -/

/-- The calls that end or replace a pending of an account for a nullifier. -/
def Call.Disturbs (account : Address) (nullifier : BytesN 32) : Call → Prop
  | .initiateRecovery initiating _ _ _ _ _ _ => initiating = account
  | .cancelRecovery cancelling _ _ _ _ => cancelling = account
  | .burnNullifier burning _ _ burnt _ => burning = account ∧ burnt = nullifier
  | .enforce _ _ _ completing => completing = account
  | .insert _ _ | .insertFor _ _ | .install _ _ _ | .uninstall _ _ => False

/-- Call number `time` has initiated what is completed by call number `late` at
ledger time `completedAt`, and nothing has disturbed it in between. -/
structure Authentic (deployment : Deployment) (run : List Invocation) (account : Address)
    (newPubkey : BytesN 65) (nullifier : BytesN 32) (completedAt : UInt64) (late time : Nat) :
    Prop where
  earlier : time < late
  initiated : ∃ invocation nonce timelockSecs root proof authHash,
    deployment.Accepts run time invocation ∧
    invocation.call = .initiateRecovery account newPubkey nonce timelockSecs root nullifier proof ∧
    computeAuthHash deployment.host actionInitiate account deployment.config.networkPassphrase
      deployment.self newPubkey nonce timelockSecs = .ok authHash ∧
    deployment.host.verifyProof deployment.config.verifier
      (assemblePublicInputs root nullifier authHash) proof = true ∧
    invocation.timestamp.toNat + deployment.config.delaySecs.toNat ≤ completedAt.toNat ∧
    completedAt.toNat < invocation.timestamp.toNat + deployment.config.delaySecs.toNat +
      deployment.config.completionWindowSecs.toNat
  undisturbed : ∀ between invocation, time < between → between < late →
    deployment.Accepts run between invocation → ¬ invocation.call.Disturbs account nullifier

theorem Outcome.pending_cases {host : Host} {env : Env} {state state' : RecoveryState}
    {call : Call} {account : Address} {pending : PendingRecovery}
    (outcome : Outcome host env state call state')
    (found : state'.pending account = some pending) :
    state.pending account = some pending ∨
      ∃ newPubkey nonce timelockSecs root nullifier proof,
        call = .initiateRecovery account newPubkey nonce timelockSecs root nullifier proof ∧
        Initiated host env state
          (.initiate account newPubkey nonce timelockSecs root nullifier) proof pending state' := by
  cases outcome with
  | insert _ inserted | insertFor _ inserted =>
      obtain ⟨_, _, _, _, _, after⟩ := inserted.after
      rw [after] at found
      exact Or.inl found
  | @initiate initiating _ _ _ _ _ _ _ _ initiated =>
      have present := found
      rw [initiated.pendings] at present
      by_cases same : account = initiating
      · subst account
        cases (Function.update_self ..).symm.trans present
        exact Or.inr ⟨_, _, _, _, _, _, rfl, initiated⟩
      · exact Or.inl ((Function.update_of_ne same _ _).symm.trans present)
  | @cancel cancelling _ _ _ _ _ _ cancelled =>
      rw [cancelled.pendings] at found
      by_cases same : account = cancelling
      · subst account
        cases (Function.update_self ..).symm.trans found
      · exact Or.inl ((Function.update_of_ne same _ _).symm.trans found)
  | burn burned =>
      rw [burned.pendings, withoutPending] at found
      split at found
      · cases found
      · exact Or.inl found
  | install installed =>
      rw [installed.after] at found
      exact Or.inl found
  | @complete _ _ _ completing _ _ completed =>
      rw [completed.pendings] at found
      by_cases same : account = completing
      · subst account
        cases (Function.update_self ..).symm.trans found
      · exact Or.inl ((Function.update_of_ne same _ _).symm.trans found)

/-- A call that disturbs a pending does not leave it as it was; the window of
the pending must not be empty, or an initiation could replace it by its like. -/
theorem Outcome.disturbs {host : Host} {env : Env} {state state' : RecoveryState} {call : Call}
    {account : Address} {pending : PendingRecovery}
    (outcome : Outcome host env state call state') (found : state.pending account = some pending)
    (window : pending.initiatedAt < pending.expiresAt)
    (disturbing : call.Disturbs account pending.nullifier) :
    state'.pending account ≠ some pending := by
  intro kept
  cases outcome with
  | insert | insertFor | install => exact disturbing
  | initiate initiated =>
      cases disturbing
      have expired := initiated.notLive pending found
      rw [initiated.pendings] at kept
      cases (Function.update_self ..).symm.trans kept
      rw [← initiated.initiatedAt] at expired
      exact UInt64.lt_irrefl _ (UInt64.lt_of_lt_of_le window expired)
  | cancel cancelled =>
      cases disturbing
      rw [cancelled.pendings] at kept
      cases (Function.update_self ..).symm.trans kept
  | burn burned =>
      obtain ⟨isAccount, isNullifier⟩ := disturbing
      subst isAccount
      rw [burned.pendings, withoutPending, if_pos] at kept
      · cases kept
      · simp only [Authorization.revoke, found, Option.any_some, isNullifier, decide_true, and_self]
  | complete completed =>
      cases disturbing
      rw [completed.pendings] at kept
      cases (Function.update_self ..).symm.trans kept

private theorem authentic_of_initiated {deployment : Deployment} {run : List Invocation}
    {late time : Nat} {completedAt : UInt64} {invocation : Invocation} {account : Address}
    {newPubkey : BytesN 65} {nonce : UInt64} {timelockSecs : UInt32} {root nullifier : BytesN 32}
    {proof : Bytes} {pending : PendingRecovery} (earlier : time < late)
    (accepted : deployment.Accepts run time invocation)
    (made : invocation.call =
      .initiateRecovery account newPubkey nonce timelockSecs root nullifier proof)
    (initiated : Initiated deployment.host (invocation.env deployment.self)
      (deployment.stateAt run time)
      (.initiate account newPubkey nonce timelockSecs root nullifier) proof pending
      (deployment.stateAt run (time + 1)))
    (since : ∀ between, time < between → between ≤ late →
      (deployment.stateAt run between).pending account = some pending)
    (elapsed : pending.executableAfter ≤ completedAt) (unexpired : completedAt < pending.expiresAt) :
    Authentic deployment run account pending.newPubkey pending.nullifier completedAt late time := by
  have sameKey : pending.newPubkey = newPubkey := initiated.newPubkey
  have sameNullifier : pending.nullifier = nullifier := initiated.nullifier
  have executable := initiated.executableAfter
  have expires := initiated.expiresAt
  have started : pending.initiatedAt = invocation.timestamp := initiated.initiatedAt
  obtain ⟨authHash, hashed, verified⟩ := initiated.verified
  rw [Deployment.config_stateAt] at executable expires hashed verified
  rw [UInt64.le_iff_toNat_le] at elapsed
  rw [UInt64.lt_iff_toNat_lt] at unexpired
  change pending.executableAfter.toNat = invocation.timestamp.toNat + _ at executable
  refine ⟨earlier, ?_, ?_⟩
  · rw [sameKey, sameNullifier]
    exact ⟨invocation, nonce, timelockSecs, root, proof, authHash, accepted, made, hashed, verified,
      by omega, by omega⟩
  · intro between other after before acceptedOther disturbing
    have found := since between after (Nat.le_of_lt before)
    have kept := since (between + 1) (Nat.lt_succ_of_lt after) before
    have window : pending.initiatedAt < pending.expiresAt := by
      rw [UInt64.lt_iff_toNat_lt, started]
      omega
    exact acceptedOther.outcome.disturbs found window disturbing kept

/-- Every completion consumes what exactly one earlier initiation, still inside
its window and undisturbed since, has put there; if proofs bind nullifiers to
accounts, nobody at all has burned the nullifier in between. -/
theorem completion_authentic (deployment : Deployment) (run : List Invocation) (late : Nat)
    (invocation : Invocation) (context : Context) (signers : List Signer)
    (contextRule : ContextRule) (account : Address)
    (accepted : deployment.Accepts run late invocation)
    (made : invocation.call = .enforce context signers contextRule account) :
    ∃ pending, (deployment.stateAt run late).pending account = some pending ∧
      (deployment.stateAt run (late + 1)).pending account = none ∧
      (deployment.stateAt run (late + 1)).nullifier pending.nullifier = some .spent ∧
      ∃! time, Authentic deployment run account pending.newPubkey pending.nullifier
        invocation.timestamp late time ∧
        (deployment.NullifiersBound run → ∀ between other burning nonce root proof,
          time < between → between < late → deployment.Accepts run between other →
          other.call ≠ .burnNullifier burning nonce root pending.nullifier proof) := by
  have outcome := accepted.outcome
  rw [made] at outcome
  cases outcome with
  | @complete _ _ _ _ pending _ completed =>
    obtain ⟨time, earlier, initiation, initiates, absent, since⟩ :=
      Deployment.established (fun state => state.pending account = some pending)
        (fun impossible => by cases impossible) completed.found
    have present := since (time + 1) (Nat.lt_succ_self time) earlier
    rcases initiates.outcome.pending_cases present with
      already | ⟨newPubkey, nonce, timelockSecs, root, nullifier, proof, call, initiated⟩
    · exact absurd already absent
    have authentic := authentic_of_initiated earlier initiates call initiated since
      completed.elapsed completed.unexpired
    refine ⟨pending, completed.found, ?_, ?_, time, ⟨authentic, ?_⟩, ?_⟩
    · rw [completed.pendings]
      exact Function.update_self ..
    · rw [completed.nullifiers]
      exact Function.update_self ..
    · intro sound between other burning nonce' root' proof' after before acceptedOther burns
      have same := sound time between initiation other
        (.initiate account newPubkey nonce timelockSecs root nullifier)
        (.revoke burning nonce' root' pending.nullifier) proof proof' initiates
        (by rw [call]; rfl) acceptedOther (by rw [burns]; rfl) initiated.nullifier.symm
      refine authentic.undisturbed between other after before acceptedOther ?_
      rw [burns]
      exact ⟨same.symm, rfl⟩
    · -- of two such initiations the later one would disturb the earlier one
      rintro time' ⟨authentic', _⟩
      obtain ⟨other, _, _, _, _, _, accepted', call', _⟩ := authentic'.initiated
      rcases Nat.lt_trichotomy time' time with before | same | after
      · refine absurd ?_ (authentic'.undisturbed time initiation before earlier initiates)
        rw [call]
        rfl
      · exact same
      · refine absurd ?_ (authentic.undisturbed time' other after authentic'.earlier accepted')
        rw [call']
        rfl

theorem completion_authentic_recovery :
    ∃ pending, (Reference.deployment.stateAt Reference.recovery 3).pending Reference.account =
        some pending ∧
      ∃ time, Authentic Reference.deployment Reference.recovery Reference.account
        pending.newPubkey pending.nullifier 1209800 3 time := by
  have accepted : Reference.deployment.Accepts Reference.recovery 3
      (Reference.anyone 1209800 Reference.completion) :=
    Deployment.accepts_of_isSome rfl (by decide +kernel)
  obtain ⟨pending, found, _, _, time, ⟨authentic, _⟩, _⟩ :=
    completion_authentic Reference.deployment Reference.recovery 3
      (Reference.anyone 1209800 Reference.completion) Reference.completionContext []
      Reference.recoveryRule Reference.account accepted rfl
  exact ⟨pending, found, time, authentic⟩

end Nido.ZkRecovery
