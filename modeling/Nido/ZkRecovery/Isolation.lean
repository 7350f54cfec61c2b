/-
Accounts do not interfere.

The operations of one account read the configuration and the pool, and write
the entries of that account and the nullifiers that proofs have bound to it. The
nullifier table is one for all accounts, so it is the proof system that keeps
these footprints apart; the rest is the swapping of separate steps.
-/

import Nido.Library.Footprint
import Nido.ZkRecovery.Lifecycle
import Nido.ZkRecovery.Operations

namespace Nido.ZkRecovery

open Contract
open Footprint (AgreeOn Local)

structure SameAccount (account : Address) (state state' : RecoveryState) : Prop where
  pending : state'.pending account = state.pending account
  nonce : state'.nonce account = state.nonce account
  cancels : state'.cancels account = state.cancels account
  lastCancel : state'.lastCancel account = state.lastCancel account
  rateWindow : state'.rateWindow account = state.rateWindow account
  installed : state'.installed account = state.installed account

structure SamePool (state state' : RecoveryState) : Prop where
  frontier : state'.frontier = state.frontier
  nextIndex : state'.nextIndex = state.nextIndex
  rootRing : state'.rootRing = state.rootRing
  ringHead : state'.ringHead = state.ringHead

inductive Location
  | config
  | pool
  | account (account : Address)
  | nullifier (key : BytesN 32)

def Same : Location → RecoveryState → RecoveryState → Prop
  | .config, state, state' => state'.config = state.config
  | .pool, state, state' => SamePool state state'
  | .account account, state, state' => SameAccount account state state'
  | .nullifier key, state, state' => state'.nullifier key = state.nullifier key

theorem same_equivalence (location : Location) : Equivalence (Same location) := by
  cases location with
  | config => exact ⟨fun _ => rfl, fun same => same.symm, fun one two => two.trans one⟩
  | pool =>
      refine ⟨fun _ => ⟨rfl, rfl, rfl, rfl⟩, ?_, ?_⟩
      · intro _ _ same
        exact ⟨same.1.symm, same.2.symm, same.3.symm, same.4.symm⟩
      · intro _ _ _ one two
        exact ⟨two.1.trans one.1, two.2.trans one.2, two.3.trans one.3, two.4.trans one.4⟩
  | account account =>
      refine ⟨fun _ => ⟨rfl, rfl, rfl, rfl, rfl, rfl⟩, ?_, ?_⟩
      · intro _ _ same
        exact ⟨same.1.symm, same.2.symm, same.3.symm, same.4.symm, same.5.symm, same.6.symm⟩
      · intro _ _ _ one two
        exact ⟨two.1.trans one.1, two.2.trans one.2, two.3.trans one.3, two.4.trans one.4,
          two.5.trans one.5, two.6.trans one.6⟩
  | nullifier key => exact ⟨fun _ => rfl, fun same => same.symm, fun one two => two.trans one⟩

theorem eq_of_agree {state state' : RecoveryState} (agree : AgreeOn Same Set.univ state state') :
    { state with events := [] } = { state' with events := [] } := by
  have config : state'.config = state.config := agree .config trivial
  obtain ⟨frontier, nextIndex, rootRing, ringHead⟩ : SamePool state state' := agree .pool trivial
  have nullifier : state'.nullifier = state.nullifier :=
    funext (fun key => agree (.nullifier key) trivial)
  have accounts (account : Address) : SameAccount account state state' :=
    agree (.account account) trivial
  have pending : state'.pending = state.pending := funext (fun account => (accounts account).pending)
  have nonce : state'.nonce = state.nonce := funext (fun account => (accounts account).nonce)
  have cancels : state'.cancels = state.cancels := funext (fun account => (accounts account).cancels)
  have lastCancel : state'.lastCancel = state.lastCancel :=
    funext (fun account => (accounts account).lastCancel)
  have rateWindow : state'.rateWindow = state.rateWindow :=
    funext (fun account => (accounts account).rateWindow)
  have installed : state'.installed = state.installed :=
    funext (fun account => (accounts account).installed)
  rw [config, frontier, nextIndex, rootRing, ringHead, nullifier, pending, nonce, cancels,
    lastCancel, rateWindow, installed]

def reads : Set Location := { location | location = .config ∨ location = .pool }

/-- The entries of the account, and the nullifiers that are its own. -/
def writes (account : Address) (own : Set (BytesN 32)) : Set Location :=
  { location | location = .account account ∨ ∃ key ∈ own, location = .nullifier key }

/-- Two states that an operation on the account cannot tell apart. -/
structure Alike (account : Address) (own : Set (BytesN 32)) (state state' : RecoveryState) : Prop
    extends SameAccount account state state' where
  config : state'.config = state.config
  rootRing : state'.rootRing = state.rootRing
  ringHead : state'.ringHead = state.ringHead
  nullifier : ∀ key ∈ own, state'.nullifier key = state.nullifier key

theorem alike_of_agree {account : Address} {own : Set (BytesN 32)} {state state' : RecoveryState}
    (agree : AgreeOn Same (reads ∪ writes account own) state state') :
    Alike account own state state' := by
  have accounts : SameAccount account state state' :=
    agree (.account account) (Or.inr (Or.inl rfl))
  have pool : SamePool state state' := agree .pool (Or.inl (Or.inr rfl))
  exact
    { toSameAccount := accounts
      config := agree .config (Or.inl (Or.inl rfl))
      rootRing := pool.rootRing
      ringHead := pool.ringHead
      nullifier := fun key member => agree (.nullifier key) (Or.inr (Or.inr ⟨key, member, rfl⟩)) }

/-- What an operation on the account has written, compared between two runs of it. -/
structure Writes (account : Address) (own : Set (BytesN 32)) (state after after' : RecoveryState) :
    Prop where
  entries : SameAccount account after after'
  nullifier : ∀ key ∈ own, after'.nullifier key = after.nullifier key
  others : ∀ other, other ≠ account → SameAccount other state after'
  foreign : ∀ key, key ∉ own → after'.nullifier key = state.nullifier key
  pool : SamePool state after'
  config : after'.config = state.config

theorem Writes.agree {account : Address} {own : Set (BytesN 32)}
    {state after after' : RecoveryState} (wrote : Writes account own state after after') :
    AgreeOn Same (writes account own) after after' ∧
      AgreeOn Same (Set.compl (writes account own)) state after' := by
  constructor
  · intro location member
    rcases member with rfl | ⟨key, member, rfl⟩
    · exact wrote.entries
    · exact wrote.nullifier key member
  · intro location outside
    cases location with
    | config => exact wrote.config
    | pool => exact wrote.pool
    | account other =>
        apply wrote.others
        intro same
        exact outside (Or.inl (congrArg Location.account same))
    | nullifier key =>
        apply wrote.foreign
        intro member
        exact outside (Or.inr ⟨key, member, rfl⟩)

section Alike

variable {host : Host} {env : Env} {account : Address} {own : Set (BytesN 32)}
  {state state' : RecoveryState} (alike : Alike account own state state')

include alike

theorem Alike.isKnownRoot (root : BytesN 32) :
    isKnownRoot host state' root = isKnownRoot host state root :=
  isKnownRoot_congr root alike.rootRing alike.ringHead

theorem Alike.storedNonce : storedNonce state' account = storedNonce state account := by
  unfold ZkRecovery.storedNonce
  rw [alike.nonce]

theorem Alike.cancelsUsed : cancelsUsed state' account = cancelsUsed state account := by
  unfold ZkRecovery.cancelsUsed
  rw [alike.cancels]

theorem Alike.storedWindow : storedWindow state' account = storedWindow state account := by
  unfold ZkRecovery.storedWindow
  rw [alike.rateWindow]

theorem Alike.hasPending : hasPending env state' account = hasPending env state account := by
  unfold ZkRecovery.hasPending
  rw [alike.pending]

theorem Alike.withoutReservation {key : BytesN 32} (member : key ∈ own) :
    withoutReservation state' account key = withoutReservation state account key := by
  unfold ZkRecovery.withoutReservation
  rw [alike.pending, alike.nullifier key member]

end Alike

/-- The nullifier of a pending is the account's own, if it has one. -/
def PendsOwn (account : Address) (own : Set (BytesN 32)) (state : RecoveryState) : Prop :=
  ∀ pending, state.pending account = some pending → pending.nullifier ∈ own

theorem PendsOwn.withoutReservation {account : Address} {own : Set (BytesN 32)}
    {state : RecoveryState} (pends : PendsOwn account own state) {key : BytesN 32}
    (foreign : key ∉ own) : withoutReservation state account key = state.nullifier key := by
  apply if_neg
  intro both
  obtain ⟨present, isKey⟩ := (Option.any_eq_true_iff_get _ _).mp both.1
  have named := pends _ (Option.some_get present).symm
  rw [of_decide_eq_true isKey] at named
  exact foreign named

theorem PendsOwn.alike {account : Address} {own : Set (BytesN 32)} {state state' : RecoveryState}
    (pends : PendsOwn account own state) (alike : Alike account own state state') :
    PendsOwn account own state' := by
  intro pending found
  rw [alike.pending] at found
  exact pends pending found

section Operations

variable (host : Host) (env : Env) {account : Address} {own : Set (BytesN 32)}
  {state state' : RecoveryState} {authorization : Authorization} {proof : Bytes}

theorem InitiateValid.alike (valid : InitiateValid host env state authorization proof)
    (alike : Alike authorization.account own state state')
    (mine : authorization.nullifier ∈ own) :
    InitiateValid host env state' authorization proof where
  knownRoot := (alike.isKnownRoot _).trans valid.knownRoot
  unused := (alike.withoutReservation mine).trans valid.unused
  nonceNext := by
    rw [alike.storedNonce]
    exact valid.nonceNext
  floor := by
    rw [alike.config]
    exact valid.floor
  timelock := by
    rw [alike.config]
    exact valid.timelock
  belowLimit := by
    rw [alike.storedWindow]
    exact valid.belowLimit
  verified := by
    rw [alike.config]
    exact valid.verified
  executable := by
    rw [alike.config]
    exact valid.executable
  expires := by
    rw [alike.config]
    exact valid.expires

theorem afterInitiation_writes (alike : Alike authorization.account own state state')
    (pends : PendsOwn authorization.account own state) (mine : authorization.nullifier ∈ own) :
    Writes authorization.account own state' (afterInitiation host env state authorization)
      (afterInitiation host env state' authorization) where
  entries :=
    { pending := by simp only [afterInitiation, pendingOf, Function.update_self, alike.config]
      nonce := by simp only [afterInitiation, Function.update_self]
      cancels := alike.cancels
      lastCancel := alike.lastCancel
      rateWindow := by simp only [afterInitiation, Function.update_self, alike.storedWindow]
      installed := alike.installed }
  nullifier := by
    intro key member
    simp only [afterInitiation]
    by_cases same : key = authorization.nullifier
    · rw [same, Function.update_self, Function.update_self]
    · rw [Function.update_of_ne same, Function.update_of_ne same, alike.withoutReservation member]
  others := by
    intro other distinct
    simp only [afterInitiation]
    exact
      { pending := Function.update_of_ne distinct _ _
        nonce := Function.update_of_ne distinct _ _
        cancels := rfl
        lastCancel := rfl
        rateWindow := Function.update_of_ne distinct _ _
        installed := rfl }
  foreign := by
    intro key outside
    have different : key ≠ authorization.nullifier := by
      intro same
      exact outside (same ▸ mine)
    simp only [afterInitiation]
    rw [Function.update_of_ne different, (pends.alike alike).withoutReservation outside]
  pool := ⟨rfl, rfl, rfl, rfl⟩
  config := rfl

theorem CancelValid.alike (valid : CancelValid host env state authorization proof)
    (alike : Alike authorization.account own state state') :
    CancelValid host env state' authorization proof where
  authorized := valid.authorized
  belowCap := by
    rw [alike.cancelsUsed, alike.config]
    exact valid.belowCap
  cooled := by
    rw [alike.lastCancel]
    exact valid.cooled
  nonceNext := by
    rw [alike.storedNonce]
    exact valid.nonceNext
  knownRoot := (alike.isKnownRoot _).trans valid.knownRoot
  verified := by
    rw [alike.config]
    exact valid.verified

theorem afterCancellation_writes (authorization : Authorization)
    (alike : Alike authorization.account own state state')
    (pends : PendsOwn authorization.account own state) :
    Writes authorization.account own state' (afterCancellation env state authorization)
      (afterCancellation env state' authorization) where
  entries :=
    { pending := by simp only [afterCancellation, Function.update_self]
      nonce := by simp only [afterCancellation, Function.update_self]
      cancels := by simp only [afterCancellation, Function.update_self, alike.cancelsUsed]
      lastCancel := by simp only [afterCancellation, Function.update_self]
      rateWindow := alike.rateWindow
      installed := alike.installed }
  nullifier := fun _ member => alike.withoutReservation member
  others := by
    intro other distinct
    simp only [afterCancellation]
    exact
      { pending := Function.update_of_ne distinct _ _
        nonce := Function.update_of_ne distinct _ _
        cancels := Function.update_of_ne distinct _ _
        lastCancel := Function.update_of_ne distinct _ _
        rateWindow := rfl
        installed := rfl }
  foreign := fun _ outside => (pends.alike alike).withoutReservation outside
  pool := ⟨rfl, rfl, rfl, rfl⟩
  config := rfl

theorem BurnValid.alike (valid : BurnValid host env state authorization proof)
    (alike : Alike authorization.account own state state')
    (mine : authorization.nullifier ∈ own) :
    BurnValid host env state' authorization proof where
  authorized := valid.authorized
  knownRoot := (alike.isKnownRoot _).trans valid.knownRoot
  nonceNext := by
    rw [alike.storedNonce]
    exact valid.nonceNext
  notSpent := by
    rw [alike.nullifier _ mine]
    exact valid.notSpent
  verified := by
    rw [alike.config]
    exact valid.verified

theorem afterBurn_writes (alike : Alike authorization.account own state state')
    (mine : authorization.nullifier ∈ own) :
    Writes authorization.account own state' (afterBurn state authorization)
      (afterBurn state' authorization) where
  entries :=
    { pending := by simp only [afterBurn, withoutPending, alike.pending]
      nonce := by simp only [afterBurn, Function.update_self]
      cancels := alike.cancels
      lastCancel := alike.lastCancel
      rateWindow := alike.rateWindow
      installed := alike.installed }
  nullifier := by
    intro key member
    simp only [afterBurn]
    by_cases same : key = authorization.nullifier
    · rw [same, Function.update_self, Function.update_self]
    · rw [Function.update_of_ne same, Function.update_of_ne same, alike.nullifier key member]
  others := by
    intro other distinct
    simp only [afterBurn]
    exact
      { pending := if_neg (fun both => distinct both.1)
        nonce := Function.update_of_ne distinct _ _
        cancels := rfl
        lastCancel := rfl
        rateWindow := rfl
        installed := rfl }
  foreign := by
    intro key outside
    have different : key ≠ authorization.nullifier := by
      intro same
      exact outside (same ▸ mine)
    exact Function.update_of_ne different _ _
  pool := ⟨rfl, rfl, rfl, rfl⟩
  config := rfl

theorem Completed.alike {context : Context} {contextRule : ContextRule} {pending : PendingRecovery}
    {after : RecoveryState}
    (completed : Completed env state context contextRule account pending after)
    (alike : Alike account own state state') :
    Completed env state' context contextRule account pending
      (afterCompletion state' account pending) where
  authorized := completed.authorized
  installed := alike.installed.trans completed.installed
  found := alike.pending.trans completed.found
  elapsed := completed.elapsed
  unexpired := completed.unexpired
  gate := by
    rw [alike.config]
    exact completed.gate
  after := rfl

theorem afterCompletion_writes {pending : PendingRecovery} (alike : Alike account own state state')
    (mine : pending.nullifier ∈ own) :
    Writes account own state' (afterCompletion state account pending)
      (afterCompletion state' account pending) where
  entries :=
    { pending := by simp only [afterCompletion, Function.update_self]
      nonce := alike.nonce
      cancels := alike.cancels
      lastCancel := alike.lastCancel
      rateWindow := alike.rateWindow
      installed := alike.installed }
  nullifier := by
    intro key member
    simp only [afterCompletion]
    by_cases same : key = pending.nullifier
    · rw [same, Function.update_self, Function.update_self]
    · rw [Function.update_of_ne same, Function.update_of_ne same, alike.nullifier key member]
  others := by
    intro other distinct
    simp only [afterCompletion]
    exact
      { pending := Function.update_of_ne distinct _ _
        nonce := rfl
        cancels := rfl
        lastCancel := rfl
        rateWindow := rfl
        installed := rfl }
  foreign := by
    intro key outside
    have different : key ≠ pending.nullifier := by
      intro same
      exact outside (same ▸ mine)
    exact Function.update_of_ne different _ _
  pool := ⟨rfl, rfl, rfl, rfl⟩
  config := rfl

end Operations

/-- The account that a call operates on; an insertion operates on the pool. -/
def Call.operatesOn : Call → Option Address
  | .initiateRecovery account _ _ _ _ _ _ => some account
  | .cancelRecovery account _ _ _ _ => some account
  | .burnNullifier account _ _ _ _ => some account
  | .enforce _ _ _ smartAccount => some smartAccount
  | .insert _ _ | .insertFor _ _ | .install _ _ _ | .uninstall _ _ => none

/-- A proof is made for the account that its call operates on. -/
theorem operatesOn_of_authorization {call : Call} {account : Address}
    {authorization : Authorization} {proof : Bytes} (operates : call.operatesOn = some account)
    (carries : call.authorization = some (authorization, proof)) :
    authorization.account = account := by
  cases call with
  | initiateRecovery | cancelRecovery | burnNullifier =>
      cases operates
      cases carries
      rfl
  | enforce | insert | insertFor | install | uninstall => cases carries

/-- An operation does the same in all states that look alike to it, and
publishes the same. -/
theorem invoke_alike {host : Host} {env : Env} {state after : RecoveryState} {call : Call}
    {account : Address} {own : Set (BytesN 32)} (operates : call.operatesOn = some account)
    (accepted : invoke host env state call = .ok after) (pends : PendsOwn account own state)
    (mine : ∀ authorization proof, call.authorization = some (authorization, proof) →
      authorization.nullifier ∈ own) :
    ∃ event, ∀ state', Alike account own state state' →
      ∃ after', invoke host env state' call = .ok after' ∧
        Writes account own state' after after' ∧ after'.events = state'.events ++ [event] := by
  cases call with
  | initiateRecovery initiator newPubkey nonce timelockSecs root nullifier proof =>
      cases operates
      simp only [invoke, bind_eq_ok, pure_eq_ok, initiateRecovery_exact] at accepted ⊢
      obtain ⟨_, ⟨notLive, valid, rfl⟩, rfl⟩ := accepted
      have named := mine _ _ rfl
      refine ⟨.recoveryInitiated account (host.sha256 newPubkey.data)
        (env.timestamp + state.config.delaySecs), ?_⟩
      intro state' alike
      refine ⟨_, ⟨_, ⟨alike.hasPending.trans notLive, valid.alike host env alike named, rfl⟩, rfl⟩,
        afterInitiation_writes host env alike pends named, ?_⟩
      rw [← alike.config]
      rfl
  | cancelRecovery canceller nonce root nullifier proof =>
      cases operates
      simp only [invoke, bind_eq_ok, pure_eq_ok, cancelRecovery_exact] at accepted ⊢
      obtain ⟨_, ⟨live, valid, rfl⟩, rfl⟩ := accepted
      refine ⟨.recoveryCanceled account (cancelsUsed state account + 1), ?_⟩
      intro state' alike
      have wrote := afterCancellation_writes env (.cancel account nonce root nullifier) alike pends
      refine ⟨_, ⟨_, ⟨alike.hasPending.trans live, valid.alike host env alike, rfl⟩, rfl⟩, wrote, ?_⟩
      rw [← alike.cancelsUsed]
      rfl
  | burnNullifier burner nonce root nullifier proof =>
      cases operates
      simp only [invoke, burnNullifier_exact] at accepted ⊢
      obtain ⟨valid, rfl⟩ := accepted
      have named := mine _ _ rfl
      refine ⟨.nullifierBurned account nullifier, ?_⟩
      intro state' alike
      exact ⟨_, ⟨valid.alike host env alike named, rfl⟩, afterBurn_writes alike named, rfl⟩
  | enforce context signers contextRule smartAccount =>
      cases operates
      simp only [invoke] at accepted ⊢
      obtain ⟨pending, completed⟩ := (enforce_exact env state).mp accepted
      have named := pends pending completed.found
      refine ⟨.recoveryCompleted account pending.nullifier, ?_⟩
      intro state' alike
      refine ⟨_, (enforce_exact env state').mpr ⟨pending, completed.alike env alike⟩, ?_, rfl⟩
      rw [completed.after]
      exact afterCompletion_writes alike named
  | insert | insertFor | install | uninstall => cases operates

/-! ### Which nullifiers belong to whom -/

namespace Deployment

variable (deployment : Deployment)

/-- The verifier has accepted one of the presented proofs for this account and
this nullifier. -/
def Bound (presented : List Invocation) (account : Address) (key : BytesN 32) : Prop :=
  ∃ invocation ∈ presented, ∃ authorization proof,
    invocation.call.authorization = some (authorization, proof) ∧
    Verified deployment.host deployment.self deployment.config authorization proof ∧
    authorization.account = account ∧ authorization.nullifier = key

/-- Among the presented proofs an accepted nullifier is bound to one account. -/
def ProofsSound (presented : List Invocation) : Prop :=
  ∀ account other key, deployment.Bound presented account key →
    deployment.Bound presented other key → account = other

/-- The pendings and the reservations of an account are for its own nullifiers. -/
structure Owned (presented : List Invocation) (state : RecoveryState) : Prop where
  pends : ∀ account, PendsOwn account { key | deployment.Bound presented account key } state
  reserves : ∀ account key, state.nullifier key = some (.reserved account) →
    deployment.Bound presented account key

variable {deployment} {run presented : List Invocation} {time : Nat} {invocation : Invocation}

theorem Accepts.bound (accepted : deployment.Accepts run time invocation)
    (among : invocation ∈ presented) {authorization : Authorization} {proof : Bytes}
    (carries : invocation.call.authorization = some (authorization, proof)) :
    deployment.Bound presented authorization.account authorization.nullifier := by
  have verified := (accepted.outcome.authorized carries).verified
  rw [config_stateAt] at verified
  exact ⟨invocation, among, authorization, proof, carries, verified, rfl, rfl⟩

theorem owned_stateAt (among : ∀ invocation ∈ run, invocation ∈ presented) (time : Nat) :
    deployment.Owned presented (deployment.stateAt run time) := by
  apply invariant (deployment.Owned presented)
  · constructor
    · intro account pending impossible
      cases impossible
    · intro account key impossible
      cases impossible
  · intro time invocation accepted owned
    have member := among invocation (List.mem_of_getElem? accepted.input_at)
    constructor
    · intro account pending found
      rcases accepted.outcome.pending_cases found with
        before | ⟨newPubkey, nonce, timelockSecs, root, nullifier, proof, made, initiated⟩
      · exact owned.pends account pending before
      · have named : pending.nullifier = nullifier := initiated.nullifier
        rw [named]
        exact accepted.bound member (by rw [made]; rfl)
    · intro account key held
      rcases accepted.outcome.reserved_cases held with
        before | ⟨authorization, proof, carries, rfl, rfl⟩
      · exact owned.reserves account key before
      · exact accepted.bound member carries

theorem invoke_of_step {state after : RecoveryState}
    (steps : deployment.step state invocation = some after) :
    invoke deployment.host (invocation.env deployment.self) state invocation.call = .ok after := by
  obtain ⟨result, accepted⟩ := exists_of_isSome (Option.isSome_iff_exists.mpr ⟨after, steps⟩)
  unfold step at steps
  rw [accepted] at steps ⊢
  cases steps
  rfl

theorem step_of_invoke {state after : RecoveryState}
    (accepted : invoke deployment.host (invocation.env deployment.self) state invocation.call =
      .ok after) : deployment.step state invocation = some after := by
  unfold step
  rw [accepted]
  rfl

/-- Two operations on different accounts have separate footprints. -/
theorem writes_disjoint {account other : Address} (distinct : account ≠ other)
    (sound : deployment.ProofsSound presented) :
    Disjoint (writes account { key | deployment.Bound presented account key })
      (reads ∪ writes other { key | deployment.Bound presented other key }) := by
  rw [Set.disjoint_left]
  intro location mine theirs
  rcases mine with rfl | ⟨key, mine, rfl⟩
  · rcases theirs with (impossible | impossible) | impossible | ⟨_, _, impossible⟩
    · cases impossible
    · cases impossible
    · cases impossible
      exact distinct rfl
    · cases impossible
  · rcases theirs with (impossible | impossible) | impossible | ⟨_, theirs, same⟩
    · cases impossible
    · cases impossible
    · cases impossible
    · cases same
      exact distinct (sound account other key mine theirs)

/-- The operation as a step with a footprint, and what it publishes. -/
theorem step_local {account : Address} {state after : RecoveryState}
    (owned : deployment.Owned presented state) (config : state.config = deployment.config)
    (among : invocation ∈ presented) (operates : invocation.call.operatesOn = some account)
    (steps : deployment.step state invocation = some after) :
    Local Same reads (writes account { key | deployment.Bound presented account key })
        (fun state => deployment.step state invocation) state after ∧
      ∃ event, ∀ state' after',
        Alike account { key | deployment.Bound presented account key } state state' →
        deployment.step state' invocation = some after' →
          after'.events = state'.events ++ [event] := by
  have accepted := invoke_of_step steps
  have mine : ∀ authorization proof, invocation.call.authorization = some (authorization, proof) →
      authorization.nullifier ∈ { key | deployment.Bound presented account key } := by
    intro authorization proof carries
    have verified := ((step_eq_some steps).authorized carries).verified
    rw [config] at verified
    have same := operatesOn_of_authorization operates carries
    exact ⟨invocation, among, authorization, proof, carries, verified, same, rfl⟩
  obtain ⟨event, does⟩ := invoke_alike operates accepted (owned.pends account) mine
  constructor
  · intro state' agree
    obtain ⟨after', accepted', wrote, _⟩ := does state' (alike_of_agree agree)
    exact ⟨after', step_of_invoke accepted', wrote.agree⟩
  · refine ⟨event, ?_⟩
    intro state' after' alike steps'
    obtain ⟨_, accepted', _, published⟩ := does state' alike
    cases (step_of_invoke accepted').symm.trans steps'
    exact published

end Deployment

theorem accounts_isolated (deployment : Deployment) (run : List Invocation) (time : Nat)
    (first second : Invocation) (account other : Address) (after after' : RecoveryState)
    (distinct : account ≠ other) (sound : deployment.ProofsSound (first :: second :: run))
    (operates : first.call.operatesOn = some account)
    (operates' : second.call.operatesOn = some other)
    (accepted : deployment.step (deployment.stateAt run time) first = some after)
    (accepted' : deployment.step (deployment.stateAt run time) second = some after') :
    SameAccount other (deployment.stateAt run time) after ∧
    (∀ key, (deployment.stateAt run time).nullifier key = some (.reserved other) →
      after.nullifier key = some (.reserved other)) ∧
    ∃ both both', deployment.step after second = some both ∧
      deployment.step after' first = some both' ∧
      { both with events := [] } = { both' with events := [] } ∧
      both.events.Perm both'.events := by
  have owned : deployment.Owned (first :: second :: run) (deployment.stateAt run time) := by
    apply Deployment.owned_stateAt
    intro invocation member
    exact List.mem_cons_of_mem _ (List.mem_cons_of_mem _ member)
  have config := deployment.config_stateAt run time
  obtain ⟨runs, event, publishes⟩ := Deployment.step_local owned config
    (List.mem_cons_self ..) operates accepted
  obtain ⟨runs', event', publishes'⟩ := Deployment.step_local owned config
    (List.mem_cons_of_mem _ (List.mem_cons_self ..)) operates' accepted'
  have apart := Deployment.writes_disjoint distinct sound
  have apart' := Deployment.writes_disjoint distinct.symm sound
  have frame := runs.frame same_equivalence accepted
  have frame' := runs'.frame same_equivalence accepted'
  have here := AgreeOn.refl same_equivalence
  refine ⟨?_, ?_, ?_⟩
  · apply frame (.account other)
    intro mine
    exact Set.disjoint_left.mp apart mine (Or.inr (Or.inl rfl))
  · intro key held
    have unchanged : after.nullifier key = (deployment.stateAt run time).nullifier key := by
      apply frame (.nullifier key)
      intro mine
      have theirs := owned.reserves other key held
      exact Set.disjoint_left.mp apart mine (Or.inr (Or.inr ⟨key, theirs, rfl⟩))
    rw [unchanged, held]
  · obtain ⟨both, both', steps, steps', agree⟩ :=
      runs.commute same_equivalence runs' accepted accepted' apart' apart
    refine ⟨both, both', steps, steps', eq_of_agree agree, ?_⟩
    -- each order publishes the same two events
    have later : Alike other _ (deployment.stateAt run time) after :=
      alike_of_agree (frame.mono (fun _ member mine => Set.disjoint_left.mp apart mine member))
    have later' : Alike account _ (deployment.stateAt run time) after' :=
      alike_of_agree (frame'.mono (fun _ member mine => Set.disjoint_left.mp apart' mine member))
    have published := publishes _ after (alike_of_agree (here _ _)) accepted
    have published' := publishes' _ after' (alike_of_agree (here _ _)) accepted'
    rw [publishes' after both later steps, publishes after' both' later' steps', published,
      published', List.append_assoc, List.append_assoc]
    exact (List.Perm.swap event' event []).append_left _

/-! ### Two accounts that recover at once -/

namespace Reference

def neighbourId : BytesN 32 := ⟨List.replicate 32 0x66, rfl⟩
def neighbour : Address := .contract neighbourId

def neighbourEnrolment : Call := .insertFor neighbour (leafInner host (Fr.toBytes secretTwo))

def neighbourRoot : BytesN 32 := BytesN.ofNat 32
  0x0d01f20a085bbe1296f600f7375b17882f2a04ba46c5a42cc12df11b649d7a33

def neighbourNullifier : BytesN 32 := BytesN.ofNat 32
  0x16cdf5c6d20c7eedc794751672ca8c1b8c05f4f998675692ad0aa2c2d2be6246

/-- The leaf of the neighbour is the right sibling of the first. -/
def neighbourInitiation : Call :=
  .initiateRecovery neighbour newPubkey 1 1209600 neighbourRoot neighbourNullifier
    (prove secretTwo
      (BytesN.toFr (BytesN.ofNat 32
        0x27cfe62058beb8e80b7c27b5b43225643b3b062f300c3bd28f41ddd20de50880) :: emptySiblings.drop 1)
      (1 :: leftmost.drop 1) neighbourId
      (.initiate neighbour newPubkey 1 1209600 neighbourRoot neighbourNullifier))

def neighbours : List Invocation := [anyone 100 enrolment, anyone 150 neighbourEnrolment]

theorem neighbours_sound :
    deployment.ProofsSound
      (anyone 200 initiation :: anyone 200 neighbourInitiation :: neighbours) := by
  have separate : nullifier ≠ neighbourNullifier := by decide
  have carried {owner : Address} {key : BytesN 32}
      (bound : deployment.Bound
        (anyone 200 initiation :: anyone 200 neighbourInitiation :: neighbours) owner key) :
      (owner = account ∧ key = nullifier) ∨ (owner = neighbour ∧ key = neighbourNullifier) := by
    obtain ⟨invocation, member, authorization, proof, carries, _, rfl, rfl⟩ := bound
    simp only [neighbours, List.mem_cons, List.not_mem_nil, or_false] at member
    rcases member with rfl | rfl | rfl | rfl
    · cases carries
      exact Or.inl ⟨rfl, rfl⟩
    · cases carries
      exact Or.inr ⟨rfl, rfl⟩
    · cases carries
    · cases carries
  intro owner owner' key bound bound'
  rcases carried bound with ⟨rfl, rfl⟩ | ⟨rfl, rfl⟩
  · rcases carried bound' with ⟨rfl, _⟩ | ⟨_, same⟩
    · rfl
    · exact absurd same separate
  · rcases carried bound' with ⟨_, same⟩ | ⟨rfl, _⟩
    · exact absurd same.symm separate
    · rfl

end Reference

theorem accounts_isolated_neighbours :
    ∃ after after' both both',
      Reference.deployment.step (Reference.deployment.stateAt Reference.neighbours 2)
        (Reference.anyone 200 Reference.initiation) = some after ∧
      Reference.deployment.step (Reference.deployment.stateAt Reference.neighbours 2)
        (Reference.anyone 200 Reference.neighbourInitiation) = some after' ∧
      Reference.deployment.step after (Reference.anyone 200 Reference.neighbourInitiation) =
        some both ∧
      Reference.deployment.step after' (Reference.anyone 200 Reference.initiation) = some both' ∧
      { both with events := [] } = { both' with events := [] } := by
  have evaluated :
      (Reference.deployment.step (Reference.deployment.stateAt Reference.neighbours 2)
        (Reference.anyone 200 Reference.initiation)).isSome = true ∧
      (Reference.deployment.step (Reference.deployment.stateAt Reference.neighbours 2)
        (Reference.anyone 200 Reference.neighbourInitiation)).isSome = true := by
    decide +kernel
  obtain ⟨one, two⟩ := evaluated
  obtain ⟨after, accepted⟩ := Option.isSome_iff_exists.mp one
  obtain ⟨after', accepted'⟩ := Option.isSome_iff_exists.mp two
  have distinct : Reference.account ≠ Reference.neighbour := by decide
  obtain ⟨_, _, both, both', steps, steps', same, _⟩ :=
    accounts_isolated Reference.deployment Reference.neighbours 2
      (Reference.anyone 200 Reference.initiation)
      (Reference.anyone 200 Reference.neighbourInitiation) Reference.account Reference.neighbour
      after after' distinct Reference.neighbours_sound rfl rfl accepted accepted'
  exact ⟨after, after', both, both', accepted, accepted', steps, steps', same⟩

end Nido.ZkRecovery
