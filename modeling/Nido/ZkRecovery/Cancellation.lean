/-
Who can cancel.

A thief can make the account authorize anything, but knows no secret that others
have enrolled for it. A cancel proves knowledge of some enrolled secret, not of
the one that the pending recovery was initiated with: the contract never
compares the two nullifiers. Where they agree, a thief's cancel fails.
-/

import Nido.ZkRecovery.Binding

namespace Nido.ZkRecovery

open Circuit (Witness Satisfied)

/-- Call number `time` of a run is one of the thief's, and an enrolment that it
makes is one of the secret `secretOf time`. -/
structure Parties where
  thief : Nat → Prop
  secretOf : Nat → Fr

section Statements

variable (deployment : Deployment) (run : List Invocation) (account : Address)
  (parties : Parties)

def OthersSecret (secret : Fr) : Prop :=
  ∃ time index leaf, ¬ parties.thief time ∧ secret = parties.secretOf time ∧
    deployment.Enrols run time index account (leafInner deployment.host (Fr.toBytes secret)) leaf

/-- A proof that somebody else has already submitted, in a call that may have failed. -/
def Replayed (time : Nat) (proof : Bytes) : Prop :=
  ∃ earlier invocation authorization, earlier < time ∧ ¬ parties.thief earlier ∧
    run[earlier]? = some invocation ∧ invocation.call.authorization = some (authorization, proof)

/-- The thief knows no secret that others have enrolled, and the secrets of the
proofs it makes itself. -/
structure Thief (knows : Fr → Prop) (queried : Set (List Fr)) : Prop where
  collisionFree : CollisionFreeOn deployment.host.poseidon2Hash queried
  others : ∀ secret id, OthersSecret deployment run account parties secret →
    account = .contract id → nullifierInputs id (Fr.toBytes secret) ∈ queried
  ignorant : ∀ secret, OthersSecret deployment run account parties secret → ¬ knows secret
  proves : ∀ time invocation authorization proof authHash, parties.thief time →
    deployment.Accepts run time invocation →
    invocation.call.authorization = some (authorization, proof) →
    authorization.authHash deployment.host deployment.self deployment.config = .ok authHash →
    ¬ Replayed run parties time proof →
    ∃ witness, Satisfied deployment.host.poseidon2Hash authorization.root.toFr
        authorization.nullifier.toFr authHash.toFr witness ∧
      knows witness.secret ∧
      ∀ inputs ∈ witness.queries deployment.host.poseidon2Hash, inputs ∈ queried

def InitiatedByOthers (pending : PendingRecovery) : Prop :=
  ∃ secret word, OthersSecret deployment run account parties secret ∧
    computeNullifier deployment.host account (Fr.toBytes secret) = .ok word ∧
    pending.nullifier.value % fieldOrder = word.value

/-- While a recovery of others is pending, a cancel of the thief changes nothing. -/
def ThiefCannotCancel : Prop :=
  ∀ time invocation nonce root nullifier proof pending, parties.thief time →
    run[time]? = some invocation →
    invocation.call = .cancelRecovery account nonce root nullifier proof →
    (deployment.stateAt run time).pending account = some pending →
    InitiatedByOthers deployment run account parties pending →
    deployment.stateAt run (time + 1) = deployment.stateAt run time

/-- A cancel of the thief that goes through names the nullifier of the pending
that it removes, with a proof that nobody else has submitted before. -/
def NamesPending : Prop :=
  ∀ time invocation nonce root nullifier proof pending, parties.thief time →
    deployment.Accepts run time invocation →
    invocation.call = .cancelRecovery account nonce root nullifier proof →
    (deployment.stateAt run time).pending account = some pending →
    InitiatedByOthers deployment run account parties pending →
    nullifier.value % fieldOrder = pending.nullifier.value % fieldOrder ∧
      ¬ Replayed run parties time proof

end Statements

theorem secret_bound {deployment : Deployment} {queried : Set (List Fr)} {witness : Witness} {root nullifier authHash : Fr}
    {id : BytesN 32} {secret : Fr}
    (collisionFree : CollisionFreeOn deployment.host.poseidon2Hash queried)
    (satisfied : Satisfied deployment.host.poseidon2Hash root nullifier authHash witness)
    (asked : ∀ inputs ∈ witness.queries deployment.host.poseidon2Hash, inputs ∈ queried)
    (named : nullifierInputs id (Fr.toBytes secret) ∈ queried)
    (same : nullifier = deployment.host.poseidon2Hash (nullifierInputs id (Fr.toBytes secret))) :
    witness.secret = secret := by
  have query := asked witness.nullifierInputs (by simp [Witness.queries])
  have lengths : witness.nullifierInputs.length = 4 := rfl
  have inputs := collisionFree _ query _ named
    (by rw [lengths, nullifierInputs, List.length_map]; rfl) (satisfied.2.1.trans same)
  simp only [Witness.nullifierInputs, nullifierInputs, List.map_cons, List.cons.injEq] at inputs
  rw [inputs.2.2.2.1]
  exact Fr.toBytes_toFr secret

theorem thief_cannot_cancel (deployment : Deployment) (run : List Invocation) (account : Address)
    (parties : Parties) (knows : Fr → Prop) (queried : Set (List Fr))
    (party : Thief deployment run account parties knows queried)
    (names : NamesPending deployment run account parties) :
    ThiefCannotCancel deployment run account parties := by
  intro time invocation nonce root nullifier proof pending isThief present made found byOthers
  cases stepped : deployment.step (deployment.stateAt run time) invocation with
  | none =>
      rw [Deployment.stateAt, Run.stateAt_succ time invocation present, Run.advance]
      change (deployment.step (deployment.stateAt run time) invocation).getD _ = _
      rw [stepped]
      rfl
  | some after =>
      exfalso
      have accepted : deployment.Accepts run time invocation :=
        Deployment.accepts_of_isSome present (by rw [stepped]; rfl)
      obtain ⟨congruent, fresh⟩ := names time invocation nonce root nullifier proof pending
        isThief accepted made found byOthers
      have carries : invocation.call.authorization =
          some (.cancel account nonce root nullifier, proof) := by
        rw [made]
        rfl
      obtain ⟨authHash, hashed, _⟩ := (accepted.outcome.authorized carries).verified
      rw [Deployment.config_stateAt] at hashed
      obtain ⟨witness, satisfied, known, asked⟩ :=
        party.proves time invocation _ proof authHash isThief accepted carries hashed fresh
      obtain ⟨secret, word, others, hashesTo, isWord⟩ := byOthers
      obtain ⟨id, isContract, isHash⟩ := computeNullifier_eq_ok.mp hashesTo
      have value : nullifier.toFr =
          deployment.host.poseidon2Hash (nullifierInputs id (Fr.toBytes secret)) := by
        apply Fin.ext
        change nullifier.value % fieldOrder = _
        rw [congruent, isWord, isHash, p2, Fr.toBytes_value, nullifierInputs]
      have same := secret_bound party.collisionFree satisfied asked
        (party.others secret id others isContract) value
      rw [same] at known
      exact party.ignorant secret others known

namespace Reference

def parties : Parties where
  thief := fun time => time = 2 ∨ time = 3
  secretOf := fun time => if time = 2 then secretTwo else secret

def ownQueries : List (List Fr) :=
  nullifierInputs accountId (Fr.toBytes secret) ::
    (decodeWitness cancellationProof).queries poseidon2Hash

private theorem others_only {word : BytesN 32} {other : Fr}
    (others : OthersSecret deployment (stolen word) account parties other) : other = secret := by
  obtain ⟨time, _, _, notThief, isSecret, _⟩ := others
  rw [isSecret]
  exact if_neg (fun two => notThief (Or.inl two))

/-- Whatever nullifier it names, the second party only knows its own secret. -/
theorem stolen_thief (word : BytesN 32) :
    Thief deployment (stolen word) account parties (fun known => known = secretTwo)
      (fun inputs => inputs ∈ ownQueries) where
  collisionFree := by
    have distinct : (ownQueries.map poseidon2Hash).Nodup := by decide +kernel
    intro left isLeft right isRight _lengths same
    exact List.inj_on_of_nodup_map distinct isLeft isRight same
  others := by
    intro other id others isContract
    cases isContract
    rw [others_only others]
    exact List.mem_cons_self ..
  ignorant := by
    have distinct : secret ≠ secretTwo := by decide
    intro other others
    rw [others_only others]
    exact distinct
  proves := by
    intro time invocation authorization proof authHash isThief accepted carries hashed _fresh
    obtain ⟨_, hashed', verified⟩ := (accepted.outcome.authorized carries).verified
    rw [Deployment.config_stateAt] at hashed'
    rw [← Except.ok.inj (hashed.symm.trans hashed')] at verified
    have present := accepted.input_at
    rcases isThief with rfl | rfl
    · cases present
      cases carries
    · cases present
      cases carries
      refine ⟨decodeWitness cancellationProof, (verifies_iff _ _ _ authHash _).mp verified, ?_, ?_⟩
      · decide +kernel
      · intro inputs member
        exact List.mem_cons_of_mem _ member

private theorem stolen_pending (word : BytesN 32) :
    ∃ pending, (deployment.stateAt (stolen word) 3).pending account = some pending ∧
      pending.nullifier = nullifier := by
  have waiting : ((deployment.stateAt (stolen nullifier) 3).pending account).map
      PendingRecovery.nullifier = some nullifier := by
    decide +kernel
  -- the state before the last call does not depend on what that call names
  have same : deployment.stateAt (stolen word) 3 = deployment.stateAt (stolen nullifier) 3 := rfl
  rw [← same] at waiting
  exact Option.map_eq_some_iff.mp waiting

private theorem stolen_byOthers (word : BytesN 32) {pending : PendingRecovery}
    (named : pending.nullifier = nullifier) :
    InitiatedByOthers deployment (stolen word) account parties pending := by
  have starts : (deployment.step deployment.start (anyone 100 enrolment)).isSome = true := by
    decide +kernel
  have enrolled : deployment.Accepts (stolen word) 0 (anyone 100 enrolment) :=
    Deployment.accepts_of_isSome rfl starts
  have canonical : commitment.value < fieldOrder := by decide +kernel
  have hashesTo : computeNullifier host account (Fr.toBytes secret) = .ok nullifier := by
    decide +kernel
  have value : nullifier.value % fieldOrder = nullifier.value := by decide +kernel
  obtain ⟨leaf, wrapped⟩ : ∃ leaf, wrapLeaf host account commitment = .ok leaf :=
    ⟨_, wrapLeaf_eq_ok.mpr ⟨accountId, rfl, rfl⟩⟩
  have enrols : deployment.Enrols (stolen word) 0 0 account commitment leaf :=
    { accepted := ⟨_, enrolled, Or.inr ⟨rfl, rfl⟩⟩
      canonical
      wrapped
      position := rfl }
  refine ⟨secret, nullifier, ⟨0, 0, leaf, ?_, rfl, enrols⟩, hashesTo, by rw [named]; exact value⟩
  intro impossible
  rcases impossible with impossible | impossible <;> cases impossible

end Reference

theorem thief_cannot_cancel_named :
    ThiefCannotCancel Reference.deployment (Reference.stolen Reference.nullifier)
      Reference.account Reference.parties := by
  refine thief_cannot_cancel Reference.deployment (Reference.stolen Reference.nullifier)
    Reference.account Reference.parties (fun known => known = Reference.secretTwo)
    (fun inputs => inputs ∈ Reference.ownQueries) (Reference.stolen_thief Reference.nullifier) ?_
  intro time invocation nonce root nullifier proof pending isThief accepted made found _byOthers
  have present := accepted.input_at
  have original : Reference.prove Reference.secret Reference.emptySiblings Reference.leftmost
      Reference.accountId Reference.initiating ≠ Reference.cancellationProof := by
    decide +kernel
  rcases isThief with rfl | rfl
  · cases present
    cases made
  · cases present
    cases made
    obtain ⟨waiting, isWaiting, named⟩ := Reference.stolen_pending Reference.nullifier
    cases isWaiting.symm.trans found
    refine ⟨by rw [named], ?_⟩
    intro replayed
    obtain ⟨earlier, other, authorization, before, _, submitted, carries⟩ := replayed
    match earlier, before, submitted with
    | 0, _, submitted =>
        cases submitted
        cases carries
    | 1, _, submitted =>
        cases submitted
        injection carries with same
        exact original (congrArg Prod.snd same)
    | 2, _, submitted =>
        cases submitted
        cases carries
    | earlier + 3, before, _ => omega

/-- A thief that names its own nullifier removes the owner's recovery. -/
theorem thief_cancels :
    VerifierIdeal Reference.host Reference.config.verifier ∧
      Thief Reference.deployment (Reference.stolen Reference.nullifierTwo) Reference.account
        Reference.parties (fun known => known = Reference.secretTwo)
        (fun inputs => inputs ∈ Reference.ownQueries) ∧
      ¬ ThiefCannotCancel Reference.deployment (Reference.stolen Reference.nullifierTwo)
        Reference.account Reference.parties := by
  refine ⟨Reference.host_ideal _, Reference.stolen_thief Reference.nullifierTwo, ?_⟩
  intro safe
  obtain ⟨pending, found, named⟩ := Reference.stolen_pending Reference.nullifierTwo
  have unchanged := safe 3 _ 2 Reference.rootTwo Reference.nullifierTwo
    Reference.cancellationProof pending (Or.inr rfl) rfl rfl found
    (Reference.stolen_byOthers Reference.nullifierTwo named)
  have kept : (Reference.deployment.stateAt (Reference.stolen Reference.nullifierTwo)
      (3 + 1)).pending Reference.account = some pending :=
    (congrArg (fun state : RecoveryState => state.pending Reference.account) unchanged).trans found
  have removed : ((Reference.deployment.stateAt (Reference.stolen Reference.nullifierTwo)
      (3 + 1)).pending Reference.account).isNone = true := by
    decide +kernel
  rw [kept] at removed
  exact Bool.noConfusion removed

end Nido.ZkRecovery
