/-
The states that a rotation plan passes through.

Every call of a plan is a transaction of its own and may be the last to land, so
each prefix of the plan is a state in which the rule can stay. A rule with several
signers and no policy needs all of them at once; a rule without signers needs
nobody. The planner installs the approval policy by the number of signers that
the whole plan leaves, and an addition that is followed by a removal passes
through one signer more than that.
-/

import Nido.Library.Run
import Nido.Sdk.PolicyBlocks

namespace Nido.Sdk

/-- A policy-less rule with several signers: all of them must sign. -/
def RotationRuleState.NOfN (ruleState : RotationRuleState) : Prop :=
  2 ≤ ruleState.signerCount ∧ ruleState.policyCount = 0

/-- What a call that lands does to the rule. -/
def RotationCall.applyTo (ruleState : RotationRuleState) : RotationCall → RotationRuleState
  | .addSigner .. => { ruleState with signerCount := ruleState.signerCount + 1 }
  | .removeSigner .. => { ruleState with signerCount := ruleState.signerCount - 1 }
  | .addPolicy .. => { ruleState with policyCount := ruleState.policyCount + 1 }

def landCall (ruleState : RotationRuleState) (call : RotationCall) : Option RotationRuleState :=
  some (call.applyTo ruleState)

theorem advance_landCall (ruleState : RotationRuleState) (call : RotationCall) :
    Run.advance landCall ruleState call = call.applyTo ruleState := rfl

def RotationCall.signerDelta : RotationCall → Int
  | .addSigner .. => 1
  | .removeSigner .. => -1
  | .addPolicy .. => 0

theorem execute_signerCount (calls : List RotationCall) (ruleState : RotationRuleState) :
    (Run.execute landCall ruleState calls).signerCount =
      ruleState.signerCount + (calls.map RotationCall.signerDelta).sum := by
  induction calls generalizing ruleState with
  | nil =>
      change ruleState.signerCount = ruleState.signerCount + 0
      omega
  | cons call rest ih =>
      have tail := ih (call.applyTo ruleState)
      change (Run.execute landCall (call.applyTo ruleState) rest).signerCount = _
      rw [tail, List.map_cons, List.sum_cons]
      cases call <;> simp only [RotationCall.applyTo, RotationCall.signerDelta] <;> omega

/-! ### The calls of a plan -/

theorem addSignerCalls_eq_ok {req : RotationRequest} {calls : List RotationCall}
    (planned : addSignerCalls req = .ok calls) :
    calls = match req.addPasskey with
      | none => []
      | some addPasskey =>
          [.addSigner req.defaultRuleId addPasskey.verifierAddress addPasskey.publicKey] := by
  unfold addSignerCalls at planned
  cases given : req.addPasskey with
  | none =>
      rw [given] at planned
      cases planned
      rfl
  | some addPasskey =>
      rw [given] at planned
      dsimp only at planned
      split at planned
      · cases planned
      · cases planned
        rfl

def plannedCalls (policyCalls : List RotationCall) (req : RotationRequest) : List RotationCall :=
  policyCalls ++
    (match req.addPasskey with
      | none => []
      | some addPasskey =>
          [.addSigner req.defaultRuleId addPasskey.verifierAddress addPasskey.publicKey]) ++
    (match req.removeSignerId with
      | none => []
      | some signerId => [.removeSigner req.defaultRuleId signerId])

theorem planRotation_eq_plannedCalls {req : RotationRequest} {calls : List RotationCall}
    (planned : planRotation req = .ok calls) : calls = plannedCalls (thresholdCalls req) req := by
  obtain ⟨addCalls, added, rfl⟩ := planRotation_eq_ok planned
  rw [addSignerCalls_eq_ok added]
  rfl

structure RotationRequest.Gives (req : RotationRequest) (ruleState : RotationRuleState)
    (thresholdPolicyAddress : String) : Prop where
  ruleState_given : req.ruleState = some ruleState
  address_given : req.thresholdPolicyAddress = some thresholdPolicyAddress

section Plan

variable {req : RotationRequest} {ruleState : RotationRuleState} {thresholdPolicyAddress : String}
  {calls : List RotationCall}

theorem RotationRequest.Gives.installs_iff
    (gives : req.Gives ruleState thresholdPolicyAddress) :
    req.InstallsThreshold ↔ thresholdPolicyAddress ≠ "" ∧ ruleState.policyCount = 0 ∧
      ruleState.signerCount + (if req.addPasskey.isSome then 1 else 0) -
        (if req.removeSignerId.isSome then 1 else 0) > 1 := by
  constructor
  · rintro ⟨ruleState', address', stateGiven, addressGiven, installs⟩
    cases gives.ruleState_given.symm.trans stateGiven
    cases gives.address_given.symm.trans addressGiven
    exact installs
  · intro installs
    exact ⟨ruleState, thresholdPolicyAddress, gives.ruleState_given, gives.address_given, installs⟩

theorem planRotation_signerDelta (planned : planRotation req = .ok calls) :
    (calls.map RotationCall.signerDelta).sum =
      (if req.addPasskey.isSome then 1 else 0) - (if req.removeSignerId.isSome then 1 else 0) := by
  have policyDelta : ((thresholdCalls req).map RotationCall.signerDelta).sum = 0 := by
    by_cases installs : req.InstallsThreshold
    · obtain ⟨address, policy⟩ := thresholdCalls_of_installs installs
      rw [policy]
      rfl
    · rw [thresholdCalls_of_not_installs installs]
      rfl
  rw [planRotation_eq_plannedCalls planned, plannedCalls, List.map_append, List.map_append,
    List.sum_append, List.sum_append, policyDelta]
  cases req.addPasskey <;> cases req.removeSignerId <;> rfl

/-- The addition comes before the removal, so a plan that adds keeps a signer throughout. -/
theorem planRotation_populated (planned : planRotation req = .ok calls)
    (adds : req.addPasskey.isSome) (populated : 0 < ruleState.signerCount) :
    Run.Always landCall ruleState calls (fun reached => 0 < reached.signerCount) := by
  obtain ⟨addPasskey, added⟩ := Option.isSome_iff_exists.mp adds
  rw [planRotation_eq_plannedCalls planned, plannedCalls, added]
  by_cases installs : req.InstallsThreshold
  · obtain ⟨address, policy⟩ := thresholdCalls_of_installs installs
    rw [policy]
    cases req.removeSignerId <;>
      simp only [List.cons_append, List.nil_append, Run.always_cons, Run.always_nil,
        advance_landCall, RotationCall.applyTo] <;> omega
  · rw [thresholdCalls_of_not_installs installs]
    cases req.removeSignerId <;>
      simp only [List.cons_append, List.nil_append, Run.always_cons, Run.always_nil,
        advance_landCall, RotationCall.applyTo] <;> omega

theorem RotationRuleState.single_of_bare (populated : 1 ≤ ruleState.signerCount)
    (sound : ¬ ruleState.NOfN) (bare : ruleState.policyCount = 0) : ruleState.signerCount = 1 := by
  unfold RotationRuleState.NOfN at sound
  omega

theorem planRotation_keeps_policy (keeps : ¬ req.InstallsThreshold)
    (planned : planRotation req = .ok calls) (guarded : ruleState.policyCount ≠ 0) :
    Run.Always landCall ruleState calls (fun reached => ¬ reached.NOfN) := by
  rw [planRotation_eq_plannedCalls planned, plannedCalls, thresholdCalls_of_not_installs keeps]
  unfold RotationRuleState.NOfN
  cases req.addPasskey <;> cases req.removeSignerId <;>
    simp only [List.cons_append, List.nil_append, Run.always_cons, Run.always_nil,
      advance_landCall, RotationCall.applyTo] <;> omega

theorem planRotation_installs_first (installs : req.InstallsThreshold)
    (planned : planRotation req = .ok calls) (bare : ruleState.policyCount = 0)
    (sound : ¬ ruleState.NOfN) :
    Run.Always landCall ruleState calls (fun reached => ¬ reached.NOfN) := by
  obtain ⟨address, policy⟩ := thresholdCalls_of_installs installs
  rw [planRotation_eq_plannedCalls planned, plannedCalls, policy, List.cons_append,
    List.cons_append, Run.always_cons]
  refine ⟨sound, ?_⟩
  unfold RotationRuleState.NOfN
  cases req.addPasskey <;> cases req.removeSignerId <;>
    simp only [List.cons_append, List.nil_append, Run.always_cons, Run.always_nil,
      advance_landCall, RotationCall.applyTo] <;> omega

theorem planRotation_removes_only (keeps : ¬ req.InstallsThreshold)
    (planned : planRotation req = .ok calls) (adds : req.addPasskey = none)
    (sound : ¬ ruleState.NOfN) :
    Run.Always landCall ruleState calls (fun reached => ¬ reached.NOfN) := by
  rw [planRotation_eq_plannedCalls planned, plannedCalls, thresholdCalls_of_not_installs keeps,
    adds]
  unfold RotationRuleState.NOfN at sound ⊢
  cases req.removeSignerId <;>
    simp only [List.nil_append, Run.always_cons, Run.always_nil, advance_landCall,
      RotationCall.applyTo] <;> omega

theorem planRotation_passes_through (keeps : ¬ req.InstallsThreshold)
    (planned : planRotation req = .ok calls) (bare : ruleState.policyCount = 0)
    (populated : 1 ≤ ruleState.signerCount) (adds : req.addPasskey ≠ none) :
    ¬ Run.Always landCall ruleState calls (fun reached => ¬ reached.NOfN) := by
  obtain ⟨addPasskey, added⟩ := Option.ne_none_iff_exists'.mp adds
  rw [planRotation_eq_plannedCalls planned, plannedCalls, thresholdCalls_of_not_installs keeps,
    added]
  intro always
  apply always 1
  change 2 ≤ ruleState.signerCount + 1 ∧ ruleState.policyCount = 0
  omega

/-- The plan stays out of the N-of-N state exactly when the rule has a policy already, the
plan adds nobody, or a usable policy address meets an addition without a removal. -/
theorem planRotation_covered (gives : req.Gives ruleState thresholdPolicyAddress)
    (populated : 1 ≤ ruleState.signerCount) (sound : ¬ ruleState.NOfN)
    (planned : planRotation req = .ok calls) :
    Run.Always landCall ruleState calls (fun reached => ¬ reached.NOfN) ↔
      ruleState.policyCount ≠ 0 ∨ req.addPasskey = none ∨
        thresholdPolicyAddress ≠ "" ∧ req.removeSignerId = none := by
  by_cases installs : req.InstallsThreshold
  · obtain ⟨named, bare, several⟩ := gives.installs_iff.mp installs
    have single := RotationRuleState.single_of_bare populated sound bare
    have condition : ruleState.policyCount ≠ 0 ∨ req.addPasskey = none ∨
        thresholdPolicyAddress ≠ "" ∧ req.removeSignerId = none := by
      right; right
      refine ⟨named, Option.isNone_iff_eq_none.mp ?_⟩
      -- With one signer, several remain only if the plan adds and does not remove.
      cases removed : req.removeSignerId with
      | none => rfl
      | some signerId =>
          rw [single, removed, Option.isSome_some, if_pos rfl] at several
          split at several <;> omega
    exact iff_of_true (planRotation_installs_first installs planned bare sound) condition
  · constructor
    · intro always
      by_contra failing
      rw [not_or, not_or, not_not] at failing
      obtain ⟨bare, adds, -⟩ := failing
      exact planRotation_passes_through installs planned bare populated adds always
    · rintro (guarded | adds | ⟨named, keeps⟩)
      · exact planRotation_keeps_policy installs planned guarded
      · exact planRotation_removes_only installs planned adds sound
      · by_cases guarded : ruleState.policyCount = 0
        · -- An addition would have asked for the policy.
          refine planRotation_removes_only installs planned ?_ sound
          by_contra adds
          obtain ⟨addPasskey, added⟩ := Option.ne_none_iff_exists'.mp adds
          apply installs
          apply gives.installs_iff.mpr
          refine ⟨named, guarded, ?_⟩
          rw [added, keeps, Option.isSome_some, if_pos rfl, Option.isSome_none, if_neg (by decide)]
          omega
        · exact planRotation_keeps_policy installs planned guarded

/-- What a plan should keep on the way: no N-of-N state, a signer throughout when it adds one,
and in the end the signers that were asked for. -/
structure RotationSafe (req : RotationRequest) (ruleState : RotationRuleState)
    (calls : List RotationCall) : Prop where
  never_n_of_n : Run.Always landCall ruleState calls (fun reached => ¬ reached.NOfN)
  never_empty : req.addPasskey.isSome →
    Run.Always landCall ruleState calls (fun reached => 0 < reached.signerCount)
  total : (Run.execute landCall ruleState calls).signerCount =
    ruleState.signerCount + (if req.addPasskey.isSome then 1 else 0) -
      (if req.removeSignerId.isSome then 1 else 0)

/-- Every prefix of a plan is a safe state exactly when the rule already has a policy, the plan
adds nobody, or it adds without removing and the policy has an address: a plan that adds and
removes is judged by the signers it leaves. -/
theorem rotation_safe_iff (gives : req.Gives ruleState thresholdPolicyAddress)
    (populated : 1 ≤ ruleState.signerCount) (sound : ¬ ruleState.NOfN)
    (planned : planRotation req = .ok calls) :
    RotationSafe req ruleState calls ↔
      ruleState.policyCount ≠ 0 ∨ req.addPasskey = none ∨
        thresholdPolicyAddress ≠ "" ∧ req.removeSignerId = none := by
  rw [← planRotation_covered gives populated sound planned]
  constructor
  · intro safe
    exact safe.never_n_of_n
  · intro covered
    refine ⟨covered, ?_, ?_⟩
    · intro adds
      exact planRotation_populated planned adds populated
    · rw [execute_signerCount, planRotation_signerDelta planned]
      omega

end Plan

/-- A lone passkey is replaced by a new one, or joined by it. -/
def lonePasskeyRotation (removeSignerId : Option UInt32) : RotationRequest :=
  { defaultRuleId := 0
    addPasskey := some { verifierAddress := "VERIFIER", publicKey := List.replicate 65 4 }
    removeSignerId
    ruleState := some { signerCount := 1, policyCount := 0 }
    thresholdPolicyAddress := some "POLICY" }

theorem rotation_safe_iff_joined :
    RotationSafe (lonePasskeyRotation none) { signerCount := 1, policyCount := 0 }
      [.addPolicy 0 "POLICY" 1, .addSigner 0 "VERIFIER" (List.replicate 65 4)] := by
  have gives : (lonePasskeyRotation none).Gives { signerCount := 1, policyCount := 0 } "POLICY" :=
    ⟨rfl, rfl⟩
  have alone : ¬ RotationRuleState.NOfN { signerCount := 1, policyCount := 0 } :=
    fun several => absurd several.1 (by decide)
  exact (rotation_safe_iff gives (by decide) alone rfl).mpr (Or.inr (Or.inr ⟨by decide, rfl⟩))

/-- Replacing the lone passkey adds before it removes and installs no policy: when the removal
does not land, both passkeys must sign. -/
theorem rotation_safe_replaced :
    (lonePasskeyRotation (some 0)).Gives { signerCount := 1, policyCount := 0 } "POLICY" ∧
    ¬ RotationRuleState.NOfN { signerCount := 1, policyCount := 0 } ∧
    planRotation (lonePasskeyRotation (some 0)) =
      .ok [.addSigner 0 "VERIFIER" (List.replicate 65 4), .removeSigner 0 0] ∧
    (Run.stateAt landCall { signerCount := 1, policyCount := 0 }
      [.addSigner 0 "VERIFIER" (List.replicate 65 4), .removeSigner 0 0] 1).NOfN ∧
    ¬ RotationSafe (lonePasskeyRotation (some 0)) { signerCount := 1, policyCount := 0 }
      [.addSigner 0 "VERIFIER" (List.replicate 65 4), .removeSigner 0 0] := by
  have both : (Run.stateAt landCall { signerCount := 1, policyCount := 0 }
      [.addSigner 0 "VERIFIER" (List.replicate 65 4), .removeSigner 0 0] 1).NOfN :=
    ⟨by decide, by decide⟩
  refine ⟨⟨rfl, rfl⟩, ?_, rfl, both, ?_⟩
  · intro several
    exact absurd several.1 (by decide)
  · intro safe
    exact safe.never_n_of_n 1 both

end Nido.Sdk
