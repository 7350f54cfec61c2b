/-
Spent nullifiers.

A spent word stays spent, and a call that names the same word is refused. The
table is keyed by words, though, while a proof only binds the field element
that a word is reduced to: a word that is not canonical is another key for the
same element.
-/

import Nido.ZkRecovery.Nonces

namespace Nido.ZkRecovery

/-- The nullifier argument that an initiation or a burn checks and then writes. -/
def Call.usedNullifier : Call → Option (BytesN 32)
  | .initiateRecovery _ _ _ _ _ nullifier _ => some nullifier
  | .burnNullifier _ _ _ nullifier _ => some nullifier
  | _ => none

theorem Outcome.spent {host : Host} {env : Env} {state state' : RecoveryState} {call : Call}
    {word : BytesN 32} (outcome : Outcome host env state call state')
    (spent : state.nullifier word = some .spent) : state'.nullifier word = some .spent := by
  have kept (account : Address) : withoutReservation state account word = some .spent := by
    rw [withoutReservation_of_ne, spent]
    rw [spent]
    intro reserved
    cases reserved
  cases outcome with
  | insert _ inserted | insertFor _ inserted =>
      obtain ⟨_, _, _, _, _, after⟩ := inserted.after
      rw [after]
      exact spent
  | @initiate account _ _ _ _ nullifier _ _ _ initiated =>
      have other : word ≠ nullifier := by
        rintro rfl
        cases (kept account).symm.trans initiated.unused
      rw [initiated.nullifiers]
      exact (Function.update_of_ne other _ _).trans (kept account)
  | cancel cancelled =>
      rw [cancelled.nullifiers]
      exact kept _
  | @burn _ _ _ nullifier _ _ burned =>
      rw [burned.nullifiers]
      by_cases same : word = nullifier
      · rw [same]
        exact Function.update_self ..
      · exact (Function.update_of_ne same _ _).trans spent
  | install installed =>
      rw [installed.after]
      exact spent
  | @complete _ _ _ _ pending _ completed =>
      rw [completed.nullifiers]
      by_cases same : word = pending.nullifier
      · rw [same]
        exact Function.update_self ..
      · exact (Function.update_of_ne same _ _).trans spent

theorem Outcome.not_spent {host : Host} {env : Env} {state state' : RecoveryState} {call : Call}
    {word : BytesN 32} (outcome : Outcome host env state call state')
    (used : call.usedNullifier = some word) : state.nullifier word ≠ some .spent := by
  intro spent
  cases outcome with
  | insert | insertFor | install | complete | cancel => cases used
  | initiate initiated =>
      cases used
      have unused := initiated.unused
      rw [withoutReservation_of_ne] at unused
      · cases spent.symm.trans unused
      · intro reserved
        cases spent.symm.trans reserved
  | burn burned =>
      cases used
      exact burned.notSpent spent

/-- No spent word but the one a call names stands for the field element of it. -/
def SingleEncoding (state : RecoveryState) (call : Call) : Prop :=
  ∀ word spent, call.usedNullifier = some word → state.nullifier spent = some .spent →
    word.value % fieldOrder = spent.value % fieldOrder → word = spent

/-- Once a word is spent, no initiation and no burn succeeds with any word that
is congruent to it. -/
def SpentIsDead (deployment : Deployment) (run : List Invocation) : Prop :=
  ∀ early late spent, early ≤ late →
    (deployment.stateAt run early).nullifier spent = some .spent →
    ∀ invocation word, deployment.Accepts run late invocation →
      invocation.call.usedNullifier = some word →
      word.value % fieldOrder ≠ spent.value % fieldOrder

theorem spentIsDead_of_singleEncoding (deployment : Deployment) (run : List Invocation)
    (encodings : ∀ time invocation, deployment.Accepts run time invocation →
      SingleEncoding (deployment.stateAt run time) invocation.call) :
    SpentIsDead deployment run := by
  intro early late spent ordered before invocation word accepted used congruent
  have still : (deployment.stateAt run late).nullifier spent = some .spent := by
    refine Deployment.persistent (fun state => state.nullifier spent = some .spent) ?_ ordered
      before
    intro state invocation after stable stepped
    exact (Deployment.step_eq_some stepped).spent stable
  have same := encodings late invocation accepted word spent used still congruent
  rw [← same] at still
  exact accepted.outcome.not_spent used still

/-- Every word that is spent, or will be spent by a completion, is canonical. -/
structure CanonicalWords (state : RecoveryState) : Prop where
  spent : ∀ word, state.nullifier word = some .spent → word.value < fieldOrder
  pending : ∀ account pending, state.pending account = some pending →
    pending.nullifier.value < fieldOrder

private theorem spent_of_spend {table : BytesN 32 → Option NullifierState} {key word : BytesN 32}
    (spent : Function.update table key (some .spent) word = some .spent) :
    word = key ∨ table word = some .spent := by
  by_cases same : word = key
  · exact Or.inl same
  · exact Or.inr ((Function.update_of_ne same _ _).symm.trans spent)

theorem CanonicalWords.step {host : Host} {env : Env} {state state' : RecoveryState} {call : Call}
    (words : CanonicalWords state) (outcome : Outcome host env state call state')
    (canonical : ∀ word, call.usedNullifier = some word → word.value < fieldOrder) :
    CanonicalWords state' := by
  refine ⟨?_, ?_⟩
  · intro word spent
    cases outcome with
    | insert _ inserted | insertFor _ inserted =>
        obtain ⟨_, _, _, _, _, after⟩ := inserted.after
        rw [after] at spent
        exact words.spent word spent
    | @initiate _ _ _ _ _ nullifier _ _ _ initiated =>
        rw [initiated.nullifiers] at spent
        by_cases same : word = nullifier
        · subst word
          cases (Function.update_self ..).symm.trans spent
        · exact words.spent word
            (withoutReservation_ne ((Function.update_of_ne same _ _).symm.trans spent))
    | cancel cancelled =>
        rw [cancelled.nullifiers] at spent
        exact words.spent word (withoutReservation_ne spent)
    | burn burned =>
        rw [burned.nullifiers] at spent
        rcases spent_of_spend spent with rfl | before
        · exact canonical _ rfl
        · exact words.spent word before
    | install installed =>
        rw [installed.after] at spent
        exact words.spent word spent
    | complete completed =>
        rw [completed.nullifiers] at spent
        rcases spent_of_spend spent with rfl | before
        · exact words.pending _ _ completed.found
        · exact words.spent word before
  · intro account pending found
    rcases outcome.pending_cases found with
      before | ⟨_, _, _, _, nullifier, _, made, initiated⟩
    · exact words.pending account pending before
    · have same : pending.nullifier = nullifier := initiated.nullifier
      rw [same]
      exact canonical nullifier (by rw [made]; rfl)

theorem singleEncoding_of_canonical (deployment : Deployment) (run : List Invocation)
    (canonical : ∀ time invocation, deployment.Accepts run time invocation →
      ∀ word, invocation.call.usedNullifier = some word → word.value < fieldOrder)
    (time : Nat) (invocation : Invocation) (accepted : deployment.Accepts run time invocation) :
    SingleEncoding (deployment.stateAt run time) invocation.call := by
  have words : CanonicalWords (deployment.stateAt run time) := by
    refine Deployment.invariant CanonicalWords ⟨?_, ?_⟩ ?_ time
    · intro word impossible
      cases impossible
    · intro account pending impossible
      cases impossible
    · intro time invocation accepted words
      exact words.step accepted.outcome (canonical time invocation accepted)
  intro word spent used isSpent congruent
  have wordCanonical := canonical time invocation accepted word used
  rw [Nat.mod_eq_of_lt wordCanonical, Nat.mod_eq_of_lt (words.spent spent isSpent)] at congruent
  exact BytesN.value_injective congruent

namespace Reference

def revocationTwo : Call :=
  .burnNullifier account 3 rootTwo nullifierTwo
    (prove secretTwo
      (BytesN.toFr (BytesN.ofNat 32
        0x27cfe62058beb8e80b7c27b5b43225643b3b062f300c3bd28f41ddd20de50880) ::
          emptySiblings.drop 1)
      (1 :: leftmost.drop 1) accountId (.revoke account 3 rootTwo nullifierTwo))

def initiationAgain : Call :=
  .initiateRecovery account newPubkey 3 1209600 root nullifier
    (prove secret emptySiblings leftmost accountId
      (.initiate account newPubkey 3 1209600 root nullifier))

/-- Revoked, then tried again in both ways with proofs that are in order, until
another secret of the account revokes its own nullifier. -/
def retried : List Invocation :=
  revoked ++ [anyone 400 (revocation 3 nullifier), anyone 500 initiationAgain,
    anyone 600 enrolmentTwo, anyone 700 revocationTwo]

def refusal (run : List Invocation) (time : Nat) (invocation : Invocation) : Option Failure :=
  match invoke host (invocation.env deployment.self) (deployment.stateAt run time)
      invocation.call with
  | .error failure => some failure
  | .ok _ => none

theorem retried_evaluated :
    (deployment.stateAt retried 3).nullifier nullifier = some .spent ∧
      refusal retried 3 (anyone 400 (revocation 3 nullifier)) =
        some RecoveryError.nullifierSpent.failure ∧
      refusal retried 4 (anyone 500 initiationAgain) =
        some RecoveryError.nullifierSpent.failure ∧
      (deployment.step (deployment.stateAt retried 6) (anyone 700 revocationTwo)).isSome = true ∧
      nullifier.value < fieldOrder ∧ nullifierTwo.value < fieldOrder := by
  decide +kernel

end Reference

/-- The burned nullifier stays dead: the two later attempts fail on it alone, and
a burn of another one still goes through. -/
theorem spentIsDead_retried :
    SpentIsDead Reference.deployment Reference.retried ∧
      (Reference.deployment.stateAt Reference.retried 3).nullifier Reference.nullifier =
        some .spent ∧
      Reference.refusal Reference.retried 3
        (Reference.anyone 400 (Reference.revocation 3 Reference.nullifier)) =
          some RecoveryError.nullifierSpent.failure ∧
      Reference.refusal Reference.retried 4 (Reference.anyone 500 Reference.initiationAgain) =
        some RecoveryError.nullifierSpent.failure ∧
      Reference.deployment.Accepts Reference.retried 6
        (Reference.anyone 700 Reference.revocationTwo) := by
  obtain ⟨burned, revocationRefused, initiationRefused, succeeds, canonical⟩ :=
    Reference.retried_evaluated
  have accepted : Reference.deployment.Accepts Reference.retried 6
      (Reference.anyone 700 Reference.revocationTwo) :=
    Deployment.accepts_of_isSome rfl succeeds
  refine ⟨?_, burned, revocationRefused, initiationRefused, accepted⟩
  apply spentIsDead_of_singleEncoding
  apply singleEncoding_of_canonical
  intro time invocation accepted word used
  have member := List.mem_of_getElem? accepted.input_at
  simp only [Reference.retried, Reference.revoked, List.cons_append, List.nil_append,
    List.mem_cons, List.not_mem_nil, or_false] at member
  rcases member with rfl | rfl | rfl | rfl | rfl | rfl | rfl <;> cases used
  · exact canonical.1
  · exact canonical.1
  · exact canonical.1
  · exact canonical.1
  · exact canonical.2

/-- The words of one field element are two keys of the table. -/
theorem nullifier_burned_twice :
    VerifierIdeal Reference.host Reference.config.verifier ∧
      ¬ SpentIsDead Reference.deployment Reference.burnedTwice := by
  refine ⟨Reference.host_ideal _, ?_⟩
  intro dead
  have spent : (Reference.deployment.stateAt Reference.burnedTwice 2).nullifier
      Reference.nullifier = some .spent := by
    decide +kernel
  have accepted : Reference.deployment.Accepts Reference.burnedTwice 2
      (Reference.anyone 300 (Reference.revocation 2 Reference.nullifierAgain)) :=
    Deployment.accepts_of_isSome rfl (by decide +kernel)
  exact dead 2 2 Reference.nullifier (Nat.le_refl 2) spent _ Reference.nullifierAgain accepted rfl
    (by decide +kernel)

end Nido.ZkRecovery
