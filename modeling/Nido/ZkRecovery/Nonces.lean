/-
Nonces: every authorization is consumed at most once.

The three proof-carrying calls share one counter per account. Its successful
uses are consecutive from one, and since the nonce and the account are limbs of
the authorization hash, no two accepted calls were verified for the same hash.
-/

import Nido.ZkRecovery.Lifecycle

namespace Nido.ZkRecovery

/-- The nonce that a call spends for an account, if it is one of its own. -/
def Call.noncesFor (account : Address) (call : Call) : List Nat :=
  match call.authorization with
  | some (authorization, _) =>
      if authorization.account = account then [authorization.nonce.toNat] else []
  | none => []

theorem Outcome.noncesFor_cases {host : Host} {env : Env} {state state' : RecoveryState}
    {call : Call} (outcome : Outcome host env state call state') (account : Address) :
    (call.noncesFor account = [] ∧ storedNonce state' account = storedNonce state account) ∨
      (call.noncesFor account = [(storedNonce state account).toNat + 1] ∧
        (storedNonce state' account).toNat = (storedNonce state account).toNat + 1) := by
  unfold Call.noncesFor
  cases carries : call.authorization with
  | none =>
      left
      rw [storedNonce, outcome.nonce_of_none carries]
      exact ⟨rfl, rfl⟩
  | some carried =>
      obtain ⟨authorization, proof⟩ := carried
      have authorized := outcome.authorized carries
      by_cases same : authorization.account = account
      · right
        subst account
        have stored : storedNonce state' authorization.account = authorization.nonce := by
          rw [storedNonce, authorized.nonces, Function.update_self]
          rfl
        rw [stored, ← authorized.nonceNext]
        exact ⟨if_pos rfl, rfl⟩
      · left
        rw [storedNonce, authorized.nonces, Function.update_of_ne (Ne.symm same)]
        exact ⟨if_neg same, rfl⟩

namespace Deployment

variable {deployment : Deployment} {run : List Invocation}

/-- The nonces of the accepted calls for one account, in order of success. -/
def noncesFrom (deployment : Deployment) (account : Address) :
    RecoveryState → List Invocation → List Nat
  | _, [] => []
  | state, invocation :: rest =>
      match deployment.step state invocation with
      | none => deployment.noncesFrom account state rest
      | some after =>
          invocation.call.noncesFor account ++ deployment.noncesFrom account after rest

theorem noncesFrom_eq (account : Address) (state : RecoveryState) (run : List Invocation) :
    deployment.noncesFrom account state run =
      List.range' ((storedNonce state account).toNat + 1)
        (deployment.noncesFrom account state run).length := by
  induction run generalizing state with
  | nil => rfl
  | cons invocation rest ih =>
      rw [noncesFrom]
      cases stepped : deployment.step state invocation with
      | none => exact ih state
      | some after =>
          dsimp only
          rcases (step_eq_some stepped).noncesFor_cases account with
            ⟨unspent, kept⟩ | ⟨spent, moved⟩
          · have later := ih after
            rw [kept] at later
            rw [unspent, List.nil_append]
            exact later
          · have later := ih after
            rw [moved] at later
            rw [spent, List.singleton_append, List.length_cons, List.range'_succ, ← later]

theorem storedNonce_mono (account : Address) {early late : Nat} (ordered : early ≤ late) :
    (storedNonce (deployment.stateAt run early) account).toNat ≤
      (storedNonce (deployment.stateAt run late) account).toNat := by
  refine persistent (fun state => (storedNonce (deployment.stateAt run early) account).toNat ≤
    (storedNonce state account).toNat) ?_ ordered (Nat.le_refl _)
  intro state invocation after stable stepped
  rcases (step_eq_some stepped).noncesFor_cases account with ⟨_, kept⟩ | ⟨_, moved⟩
  · rw [kept]
    exact stable
  · rw [moved]
    exact Nat.le_succ_of_le stable

/-- The lists of field elements that the accepted calls of a run hash. -/
def authPreimages (deployment : Deployment) (run : List Invocation) : Set (List Fr) :=
  fun preimage => ∃ time invocation authorization proof accountId controllerId,
    deployment.Accepts run time invocation ∧
    invocation.call.authorization = some (authorization, proof) ∧
    authorization.account = .contract accountId ∧ deployment.self = .contract controllerId ∧
    preimage = (authLimbs authorization.action accountId
      (deployment.host.sha256 deployment.config.networkPassphrase) controllerId
      authorization.newPubkey authorization.nonce authorization.timelockSecs).map toFr

private theorem authHash_binds {time time' : Nat} {invocation invocation' : Invocation}
    {authorization authorization' : Authorization} {proof proof' : Bytes} {authHash : BytesN 32}
    (collisionFree : Set.InjOn deployment.host.poseidon2Hash (deployment.authPreimages run))
    (accepted : deployment.Accepts run time invocation)
    (carries : invocation.call.authorization = some (authorization, proof))
    (accepted' : deployment.Accepts run time' invocation')
    (carries' : invocation'.call.authorization = some (authorization', proof'))
    (hashed : authorization.authHash deployment.host deployment.self deployment.config =
      .ok authHash)
    (hashed' : authorization'.authHash deployment.host deployment.self deployment.config =
      .ok authHash) :
    authorization.account = authorization'.account ∧
      authorization.nonce = authorization'.nonce := by
  obtain ⟨accountId, controllerId, isAccount, isController, hash⟩ :=
    computeAuthHash_eq_ok.mp hashed
  obtain ⟨accountId', controllerId', isAccount', isController', hash'⟩ :=
    computeAuthHash_eq_ok.mp hashed'
  have sameImage := collisionFree
    ⟨time, invocation, authorization, proof, accountId, controllerId, accepted, carries, isAccount,
      isController, rfl⟩
    ⟨time', invocation', authorization', proof', accountId', controllerId', accepted', carries',
      isAccount', isController', rfl⟩
    (Fr.toBytes_injective (hash.symm.trans hash'))
  have sameLimbs := map_toFr_injective (authLimbs_canonical _ _ _ _ _ _ _)
    (authLimbs_canonical _ _ _ _ _ _ _) sameImage
  obtain ⟨_, sameAccount, _, _, _, sameNonce, _⟩ := authLimbs_injective sameLimbs
  exact ⟨by rw [isAccount, isAccount', sameAccount], sameNonce⟩

private theorem nonce_lt {time time' : Nat} {invocation invocation' : Invocation}
    {authorization authorization' : Authorization} {proof proof' : Bytes} (earlier : time < time')
    (accepted : deployment.Accepts run time invocation)
    (carries : invocation.call.authorization = some (authorization, proof))
    (accepted' : deployment.Accepts run time' invocation')
    (carries' : invocation'.call.authorization = some (authorization', proof'))
    (same : authorization.account = authorization'.account) :
    authorization.nonce.toNat < authorization'.nonce.toNat := by
  have stored : storedNonce (deployment.stateAt run (time + 1)) authorization.account =
      authorization.nonce := by
    rw [storedNonce, (accepted.outcome.authorized carries).nonces, Function.update_self]
    rfl
  have grows : (storedNonce (deployment.stateAt run (time + 1)) authorization.account).toNat ≤
      (storedNonce (deployment.stateAt run time') authorization.account).toNat :=
    storedNonce_mono authorization.account (Nat.succ_le_of_lt earlier)
  have next := (accepted'.outcome.authorized carries').nonceNext
  rw [← same] at next
  rw [stored] at grows
  omega

end Deployment

/-- The accepted nonces of every account are one, two, three and so on, and two
accepted calls, whatever their kinds and accounts, were verified for different
authorization hashes. -/
theorem authorizations_used_once (deployment : Deployment) (run : List Invocation)
    (collisionFree : Set.InjOn deployment.host.poseidon2Hash (deployment.authPreimages run)) :
    (∀ account, deployment.noncesFrom account deployment.start run =
      List.range' 1 (deployment.noncesFrom account deployment.start run).length) ∧
    ∀ time time' invocation invocation' authorization authorization' proof proof' authHash
      authHash', time ≠ time' →
      deployment.Accepts run time invocation →
      invocation.call.authorization = some (authorization, proof) →
      authorization.authHash deployment.host deployment.self deployment.config = .ok authHash →
      deployment.Accepts run time' invocation' →
      invocation'.call.authorization = some (authorization', proof') →
      authorization'.authHash deployment.host deployment.self deployment.config = .ok authHash' →
      authHash ≠ authHash' := by
  refine ⟨fun account => Deployment.noncesFrom_eq account deployment.start run, ?_⟩
  intro time time' invocation invocation' authorization authorization' proof proof' authHash
    authHash' distinct accepted carries hashed accepted' carries' hashed' same
  subst authHash'
  obtain ⟨sameAccount, sameNonce⟩ := Deployment.authHash_binds collisionFree accepted carries
    accepted' carries' hashed hashed'
  rcases Nat.lt_or_gt_of_ne distinct with earlier | later
  · have less := Deployment.nonce_lt earlier accepted carries accepted' carries' sameAccount
    rw [sameNonce] at less
    exact Nat.lt_irrefl _ less
  · have less := Deployment.nonce_lt later accepted' carries' accepted carries sameAccount.symm
    rw [sameNonce] at less
    exact Nat.lt_irrefl _ less

private theorem revoked_preimages {preimage : List Fr}
    (hashed : preimage ∈ Reference.deployment.authPreimages Reference.revoked) :
    preimage = Reference.authPreimage Reference.accountId Reference.initiating ∨
      preimage = Reference.authPreimage Reference.accountId
        (Reference.revoking 2 Reference.nullifier) := by
  obtain ⟨time, invocation, authorization, proof, accountId, controllerId, accepted, carries,
    isAccount, isController, rfl⟩ := hashed
  cases isController
  have member := List.mem_of_getElem? accepted.input_at
  simp only [Reference.revoked, List.mem_cons, List.not_mem_nil, or_false] at member
  rcases member with rfl | rfl | rfl
  · cases carries
  · cases carries
    cases isAccount
    exact Or.inl rfl
  · cases carries
    cases isAccount
    exact Or.inr rfl

theorem authorizations_used_once_revoked :
    Reference.deployment.noncesFrom Reference.account Reference.deployment.start
        Reference.revoked =
      List.range' 1 (Reference.deployment.noncesFrom Reference.account
        Reference.deployment.start Reference.revoked).length ∧
    ∀ authHash authHash',
      Reference.initiating.authHash Reference.host Reference.deployment.self Reference.config =
        .ok authHash →
      (Reference.revoking 2 Reference.nullifier).authHash Reference.host
        Reference.deployment.self Reference.config = .ok authHash' →
      authHash ≠ authHash' := by
  have distinct : Reference.host.poseidon2Hash
        (Reference.authPreimage Reference.accountId Reference.initiating) ≠
      Reference.host.poseidon2Hash (Reference.authPreimage Reference.accountId
        (Reference.revoking 2 Reference.nullifier)) := by
    decide +kernel
  have collisionFree : Set.InjOn Reference.deployment.host.poseidon2Hash
      (Reference.deployment.authPreimages Reference.revoked) := by
    intro left isLeft right isRight same
    rcases revoked_preimages isLeft with rfl | rfl <;>
      rcases revoked_preimages isRight with rfl | rfl
    · rfl
    · exact absurd same distinct
    · exact absurd same.symm distinct
    · rfl
  have initiated : Reference.deployment.Accepts Reference.revoked 1
      (Reference.anyone 200 Reference.initiation) :=
    Deployment.accepts_of_isSome rfl (by decide +kernel)
  have burned : Reference.deployment.Accepts Reference.revoked 2
      (Reference.anyone 300 (Reference.revocation 2 Reference.nullifier)) :=
    Deployment.accepts_of_isSome rfl (by decide +kernel)
  have used := authorizations_used_once Reference.deployment Reference.revoked collisionFree
  refine ⟨used.1 Reference.account, ?_⟩
  intro authHash authHash' hashed hashed'
  exact used.2 1 2 _ _ _ _ _ _ authHash authHash' (by decide) initiated rfl hashed burned rfl
    hashed'

end Nido.ZkRecovery
