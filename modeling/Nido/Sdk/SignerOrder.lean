/-
The order of the signers in a payload.

The payload sorts its signers by their encodings, where the number of items and the
lengths come before the contents. The host compares the values themselves and refuses
a map whose keys are not in its order.
-/

import Mathlib.Data.List.Forall2
import Mathlib.Data.List.Nodup
import Mathlib.Data.List.Perm.Basic
import Nido.Library.Sorting
import Nido.Sdk.Auth

namespace Nido

/-! ### The host's order -/

def Address.hostLess : Address → Address → Bool
  | .account left, .account right => decide (left.data < right.data)
  | .account _, .contract _ => true
  | .contract _, .account _ => false
  | .contract left, .contract right => decide (left.data < right.data)

mutual

/-- The kinds of values that a signer consists of; no two kinds are compared. -/
def ScVal.hostLess : ScVal → ScVal → Bool
  | .symbol left, .symbol right => decide (left < right)
  | .bytes left, .bytes right => decide (left < right)
  | .address left, .address right => left.hostLess right
  | .vec left, .vec right => ScVal.itemsHostLess left right
  | _, _ => false

def ScVal.itemsHostLess : List ScVal → List ScVal → Bool
  | [], [] => false
  | [], _ :: _ => true
  | _ :: _, [] => false
  | left :: lefts, right :: rights =>
      left.hostLess right || (left.beq right && ScVal.itemsHostLess lefts rights)

end

namespace Sdk

open Sorting

theorem bytes_comparable {left right : Bytes} (different : left ≠ right) :
    left < right ∨ right < left := by
  by_cases less : left < right
  · exact Or.inl less
  · by_cases greater : right < left
    · exact Or.inr greater
    · exact absurd (List.le_antisymm (List.not_lt.mp greater) (List.not_lt.mp less)) different

theorem bytesN_comparable {size : Nat} {left right : BytesN size} (different : left ≠ right) :
    left.data < right.data ∨ right.data < left.data := by
  apply bytes_comparable
  intro same
  cases left
  cases right
  cases same
  exact different rfl

def LessInBoth (left right : ScVal) : Prop :=
  left.hostLess right = true ∧ left.toXdr < right.toXdr

/-! ### Addresses -/

theorem LessInBoth.accounts {left right : BytesN 32} (less : left.data < right.data) :
    LessInBoth (.address (.account left)) (.address (.account right)) := by
  constructor
  · exact decide_eq_true less
  · rw [ScVal.toXdr, ScVal.toXdr, append_left_lt_iff, Address.toXdr, Address.toXdr,
      append_left_lt_iff]
    exact less

theorem LessInBoth.contracts {left right : BytesN 32} (less : left.data < right.data) :
    LessInBoth (.address (.contract left)) (.address (.contract right)) := by
  constructor
  · exact decide_eq_true less
  · rw [ScVal.toXdr, ScVal.toXdr, append_left_lt_iff, Address.toXdr, Address.toXdr,
      append_left_lt_iff]
    exact less

theorem LessInBoth.account_contract (publicKey id : BytesN 32) :
    LessInBoth (.address (.account publicKey)) (.address (.contract id)) := by
  have kinds : xdrUInt32 0 < xdrUInt32 1 := by decide
  have sameLength : (xdrUInt32 0).length = (xdrUInt32 1).length := rfl
  constructor
  · rfl
  · rw [ScVal.toXdr, ScVal.toXdr, append_left_lt_iff, Address.toXdr, Address.toXdr,
      List.append_assoc]
    exact (append_lt_append_iff sameLength).mpr (Or.inl kinds)

theorem address_comparable {left right : Address} (different : left ≠ right) :
    LessInBoth (.address left) (.address right) ∨ LessInBoth (.address right) (.address left) := by
  cases left with
  | account key =>
      cases right with
      | account other =>
          have differ : key ≠ other := fun same => different (congrArg Address.account same)
          exact (bytesN_comparable differ).imp LessInBoth.accounts LessInBoth.accounts
      | contract other => exact Or.inl (LessInBoth.account_contract key other)
  | contract id =>
      cases right with
      | account other => exact Or.inr (LessInBoth.account_contract other id)
      | contract other =>
          have differ : id ≠ other := fun same => different (congrArg Address.contract same)
          exact (bytesN_comparable differ).imp LessInBoth.contracts LessInBoth.contracts

/-! ### Signers -/

theorem LessInBoth.delegated {left right : Address}
    (less : LessInBoth (.address left) (.address right)) :
    LessInBoth (Signer.delegated left).toScVal (Signer.delegated right).toScVal := by
  constructor
  · have host : left.hostLess right = true := less.1
    simp [Signer.toScVal, ScVal.hostLess, ScVal.itemsHostLess, ScVal.beq, host]
  · have xdr := less.2
    simp only [Signer.toScVal, ScVal.toXdr, ScVal.itemsToXdr, List.length_cons,
      List.append_nil, append_left_lt_iff] at xdr ⊢
    exact xdr

/-- The number of items comes first in the encoding, the name of the variant for the host. -/
theorem LessInBoth.delegated_external (address verifier : Address) (keyData : Bytes) :
    LessInBoth (Signer.delegated address).toScVal (Signer.external verifier keyData).toScVal := by
  constructor
  · have names : "Delegated" < "External" := by decide
    simp [Signer.toScVal, ScVal.hostLess, ScVal.itemsHostLess, names]
  · have counts : xdrUInt32 2 < xdrUInt32 3 := by decide
    have sameLength : (xdrUInt32 2).length = (xdrUInt32 3).length := rfl
    simp only [Signer.toScVal, ScVal.toXdr, List.append_assoc, append_left_lt_iff]
    exact (append_lt_append_iff sameLength).mpr (Or.inl counts)

theorem LessInBoth.external_verifier {left right : BytesN 32} (leftKey rightKey : Bytes)
    (less : LessInBoth (.address (.contract left)) (.address (.contract right))) :
    LessInBoth (Signer.external (.contract left) leftKey).toScVal
      (Signer.external (.contract right) rightKey).toScVal := by
  have sameLength : (ScVal.address (.contract left)).toXdr.length =
      (ScVal.address (.contract right)).toXdr.length := by
    simp [ScVal.toXdr, Address.toXdr, xdrUInt32, left.2, right.2]
  constructor
  · have host : (Address.contract left).hostLess (.contract right) = true := less.1
    simp [Signer.toScVal, ScVal.hostLess, ScVal.itemsHostLess, ScVal.beq, host]
  · rw [Signer.toScVal, Signer.toScVal, ScVal.toXdr, ScVal.toXdr]
    simp only [ScVal.itemsToXdr, List.length_cons, append_left_lt_iff]
    exact (append_lt_append_iff sameLength).mpr (Or.inl less.2)

theorem LessInBoth.external_key (verifier : Address) {left right : Bytes}
    (sameLength : left.length = right.length) (less : left < right) :
    LessInBoth (Signer.external verifier left).toScVal
      (Signer.external verifier right).toScVal := by
  constructor
  · simp [Signer.toScVal, ScVal.hostLess, ScVal.itemsHostLess, ScVal.beq, less]
  · simp only [Signer.toScVal, ScVal.toXdr, ScVal.itemsToXdr, List.length_cons,
      List.append_nil, append_left_lt_iff, xdrOpaque, sameLength, List.append_assoc]
    exact (append_lt_append_iff sameLength).mpr (Or.inl less)

/-- A verifier that is a contract and a key of 65 bytes, or any address. -/
def PayloadSigner : Signer → Prop
  | .delegated _ => True
  | .external verifier keyData => (∃ id, verifier = .contract id) ∧ keyData.length = 65

theorem signer_comparable {left right : Signer} (leftFormed : PayloadSigner left)
    (rightFormed : PayloadSigner right) (different : left ≠ right) :
    LessInBoth left.toScVal right.toScVal ∨ LessInBoth right.toScVal left.toScVal := by
  cases left with
  | delegated address =>
      cases right with
      | delegated other =>
          have differ : address ≠ other := fun same => different (congrArg Signer.delegated same)
          exact (address_comparable differ).imp LessInBoth.delegated LessInBoth.delegated
      | external verifier keyData =>
          exact Or.inl (LessInBoth.delegated_external address verifier keyData)
  | external verifier keyData =>
      cases right with
      | delegated address =>
          exact Or.inr (LessInBoth.delegated_external address verifier keyData)
      | external other otherKey =>
          obtain ⟨⟨id, rfl⟩, size⟩ := leftFormed
          obtain ⟨⟨otherId, rfl⟩, otherSize⟩ := rightFormed
          by_cases same : id = otherId
          · subst same
            have differ : keyData ≠ otherKey := by
              intro sameKey
              exact different (congrArg (Signer.external _) sameKey)
            have sameSize : keyData.length = otherKey.length := size.trans otherSize.symm
            exact (bytes_comparable differ).imp (LessInBoth.external_key _ sameSize)
              (LessInBoth.external_key _ sameSize.symm)
          · have differ : Address.contract id ≠ Address.contract otherId :=
              fun equal => same (by injection equal)
            exact (address_comparable differ).imp (LessInBoth.external_verifier _ _)
              (LessInBoth.external_verifier _ _)

/-! ### Sorted entries -/

/-- Each key is a signer's, and no two keys are the same. -/
structure KeyedBySigners (entries : List (ScVal × ScVal)) : Prop where
  formed : ∀ entry ∈ entries, ∃ key, PayloadSigner key ∧ entry.1 = key.toScVal
  distinct : (entries.map Prod.fst).Nodup

variable {entries : List (ScVal × ScVal)}

theorem KeyedBySigners.lessInBoth (keyed : KeyedBySigners entries) :
    ∀ left ∈ entries, ∀ right ∈ entries, left ≠ right →
      decide (¬ right.1.toXdr < left.1.toXdr) = true → LessInBoth left.1 right.1 := by
  intro left leftMember right rightMember different notGreater
  obtain ⟨leftKey, leftFormed, leftSame⟩ := keyed.formed left leftMember
  obtain ⟨rightKey, rightFormed, rightSame⟩ := keyed.formed right rightMember
  have differ : leftKey ≠ rightKey := by
    intro same
    have sameKey : left.1 = right.1 := by rw [leftSame, rightSame, same]
    exact different (List.inj_on_of_nodup_map keyed.distinct leftMember rightMember sameKey)
  rw [leftSame, rightSame] at notGreater ⊢
  exact (signer_comparable leftFormed rightFormed differ).resolve_right
    (fun greater => of_decide_eq_true notGreater greater.2)

theorem encodings_trans (left middle right : ScVal × ScVal)
    (first : decide (¬ middle.1.toXdr < left.1.toXdr) = true)
    (second : decide (¬ right.1.toXdr < middle.1.toXdr) = true) :
    decide (¬ right.1.toXdr < left.1.toXdr) = true :=
  decide_eq_true (List.le_trans (of_decide_eq_true first) (of_decide_eq_true second))

theorem encodings_total (left right : ScVal × ScVal) :
    (decide (¬ right.1.toXdr < left.1.toXdr) ||
      decide (¬ left.1.toXdr < right.1.toXdr)) = true := by
  rw [Bool.or_eq_true, decide_eq_true_iff, decide_eq_true_iff]
  exact List.le_total left.1.toXdr right.1.toXdr

theorem sortEntries_hostLess (keyed : KeyedBySigners entries) :
    ((sortEntries entries).map Prod.fst).Pairwise (fun left right => left.hostLess right) := by
  have distinct : entries.Nodup := List.Nodup.of_map Prod.fst keyed.distinct
  rw [List.pairwise_map]
  exact (mergeSort_strict encodings_trans encodings_total distinct keyed.lessInBoth).imp And.left

theorem sortEntries_eq_of_perm {others : List (ScVal × ScVal)} (keyed : KeyedBySigners entries)
    (perm : entries.Perm others) : sortEntries entries = sortEntries others := by
  apply mergeSort_eq_of_perm encodings_trans encodings_total perm
  intro left leftMember right rightMember forward backward
  by_contra different
  have less := keyed.lessInBoth left leftMember right rightMember different forward
  exact of_decide_eq_true backward less.2

/-! ### The signers of a payload -/

section Payload

variable {addressOf : String → Js Address} {signers : List SignerSignature}

def SignerSignature.WellFormed (addressOf : String → Js Address) : SignerSignature → Prop
  | .external verifierAddress publicKey _ =>
      (∃ id, addressOf verifierAddress = .ok (.contract id)) ∧ publicKey.length = 65
  | .delegated address _ => ∃ account, addressOf address = .ok account

theorem SignerSignature.WellFormed.key {signer : SignerSignature}
    (wellFormed : signer.WellFormed addressOf) :
    ∃ key, PayloadSigner key ∧ signerScVal addressOf signer = .ok key.toScVal := by
  cases signer with
  | external verifierAddress publicKey signature =>
      obtain ⟨⟨id, read⟩, size⟩ := wellFormed
      refine ⟨.external (.contract id) publicKey, ⟨⟨id, rfl⟩, size⟩, ?_⟩
      exact Contract.bind_eq_ok.mpr ⟨.contract id, read, rfl⟩
  | delegated address sigData =>
      obtain ⟨account, read⟩ := wellFormed
      refine ⟨.delegated account, trivial, ?_⟩
      exact Contract.bind_eq_ok.mpr ⟨account, read, rfl⟩

/-- The entry of each signature, in the order of the signatures. -/
def Listed (addressOf : String → Js Address) (signers : List SignerSignature)
    (entries : List (ScVal × ScVal)) : Prop :=
  List.Forall₂ (fun signer entry =>
    signerScVal addressOf signer = .ok entry.1 ∧ entry.2 = sigDataScVal signer) signers entries

theorem Listed.signerEntries_eq (listed : Listed addressOf signers entries) :
    signerEntries addressOf signers = .ok entries := by
  induction listed with
  | nil => rfl
  | @cons signer entry rest others both _ ih =>
      obtain ⟨key, data⟩ := entry
      obtain ⟨keyed, rfl⟩ := both
      exact Contract.bind_eq_ok.mpr ⟨key, keyed, Contract.bind_eq_ok.mpr ⟨others, ih, rfl⟩⟩

theorem Listed.signer_of_mem (listed : Listed addressOf signers entries) :
    ∀ entry ∈ entries, ∃ signer ∈ signers, signerScVal addressOf signer = .ok entry.1 := by
  induction listed with
  | nil =>
      intro entry member
      cases member
  | @cons signer first rest others both _ ih =>
      intro entry member
      rcases List.mem_cons.mp member with rfl | later
      · exact ⟨signer, List.mem_cons_self, both.1⟩
      · obtain ⟨other, otherMember, keyed⟩ := ih entry later
        exact ⟨other, List.mem_cons_of_mem _ otherMember, keyed⟩

theorem Listed.keyedBySigners (listed : Listed addressOf signers entries)
    (wellFormed : ∀ signer ∈ signers, signer.WellFormed addressOf)
    (distinct : signers.Pairwise (fun left right =>
      signerScVal addressOf left ≠ signerScVal addressOf right)) :
    KeyedBySigners entries := by
  constructor
  · intro entry member
    obtain ⟨signer, signerMember, keyed⟩ := listed.signer_of_mem entry member
    obtain ⟨key, formed, same⟩ := (wellFormed signer signerMember).key
    rw [keyed] at same
    exact ⟨key, formed, Except.ok.inj same⟩
  · clear wellFormed
    induction listed with
    | nil => exact List.nodup_nil
    | @cons signer first rest others both later ih =>
        have separate := List.pairwise_cons.mp distinct
        rw [List.map_cons, List.nodup_cons]
        refine ⟨?_, ih separate.2⟩
        intro member
        obtain ⟨entry, entryMember, same⟩ := List.mem_map.mp member
        obtain ⟨other, otherMember, keyed⟩ := Listed.signer_of_mem later entry entryMember
        exact separate.1 other otherMember (by rw [both.1, keyed, same])

theorem exists_listed (wellFormed : ∀ signer ∈ signers, signer.WellFormed addressOf) :
    ∃ entries, Listed addressOf signers entries := by
  induction signers with
  | nil => exact ⟨[], List.Forall₂.nil⟩
  | cons signer rest ih =>
      obtain ⟨key, _, keyed⟩ := (wellFormed signer List.mem_cons_self).key
      obtain ⟨entries, listed⟩ :=
        ih (fun other member => wellFormed other (List.mem_cons_of_mem _ member))
      exact ⟨(key.toScVal, sigDataScVal signer) :: entries,
        List.Forall₂.cons ⟨keyed, rfl⟩ listed⟩

def payloadScVal (contextRuleIds : List UInt32) (entries : List (ScVal × ScVal)) : ScVal :=
  .map
    [(.symbol "context_rule_ids", contextRuleIdsVec contextRuleIds),
      (.symbol "signers", .map entries)]

theorem buildAuthPayload_listed {contextRuleIds : List UInt32} (nonempty : signers ≠ [])
    (listed : Listed addressOf signers entries) :
    buildAuthPayloadScVal addressOf { contextRuleIds, signers } =
      .ok (payloadScVal contextRuleIds (sortEntries entries)) := by
  have length : signers.length ≠ 0 := fun zero => nonempty (List.length_eq_zero_iff.mp zero)
  unfold buildAuthPayloadScVal
  rw [if_neg length]
  exact Contract.bind_eq_ok.mpr ⟨entries, listed.signerEntries_eq, rfl⟩

theorem buildAuthPayload_hostOrder (contextRuleIds : List UInt32) (nonempty : signers ≠ [])
    (wellFormed : ∀ signer ∈ signers, signer.WellFormed addressOf)
    (distinct : signers.Pairwise (fun left right =>
      signerScVal addressOf left ≠ signerScVal addressOf right)) :
    ∃ sorted,
      buildAuthPayloadScVal addressOf { contextRuleIds, signers } =
        .ok (payloadScVal contextRuleIds sorted) ∧
      (sorted.map Prod.fst).Pairwise (fun left right => left.hostLess right) ∧
      (∃ entries, Listed addressOf signers entries ∧ sorted.Perm entries) ∧
      ∀ others, others.Perm signers →
        buildAuthPayloadScVal addressOf { contextRuleIds, signers := others } =
          .ok (payloadScVal contextRuleIds sorted) := by
  obtain ⟨entries, listed⟩ := exists_listed wellFormed
  have keyed := listed.keyedBySigners wellFormed distinct
  refine ⟨sortEntries entries, buildAuthPayload_listed nonempty listed,
    sortEntries_hostLess keyed, ⟨entries, listed, List.mergeSort_perm _ _⟩, ?_⟩
  intro others perm
  obtain ⟨otherEntries, otherListed, otherPerm⟩ := List.perm_comp_forall₂ perm listed
  have otherNonempty : others ≠ [] := by
    rintro rfl
    exact nonempty (List.Perm.nil_eq perm).symm
  rw [buildAuthPayload_listed otherNonempty otherListed,
    sortEntries_eq_of_perm keyed otherPerm.symm]

end Payload

/-! ### Two friends and a passkey -/

namespace SampleSigners

def addressOf (text : String) : Js Address :=
  if text = "verifier" then .ok (.contract ⟨List.replicate 32 14, rfl⟩)
  else if text = "friend" then .ok (.contract ⟨List.replicate 32 15, rfl⟩)
  else if text = "other" then .ok (.account ⟨List.replicate 32 16, rfl⟩)
  else .error "Unsupported address type"

def passkey : SignerSignature :=
  .external "verifier" (List.replicate 65 4)
    { authenticatorData := [1], clientDataJson := [2], signature := [3] }

def signers : List SignerSignature :=
  [passkey, .delegated "friend" none, .delegated "other" (some [7])]

theorem wellFormed : ∀ signer ∈ signers, signer.WellFormed addressOf := by
  intro signer member
  simp only [signers, List.mem_cons, List.not_mem_nil, or_false] at member
  rcases member with rfl | rfl | rfl
  · exact ⟨⟨_, rfl⟩, rfl⟩
  · exact ⟨_, rfl⟩
  · exact ⟨_, rfl⟩

theorem distinct : signers.Pairwise (fun left right =>
    signerScVal addressOf left ≠ signerScVal addressOf right) := by
  decide

end SampleSigners

theorem buildAuthPayload_hostOrder_friends :
    ∃ sorted,
      buildAuthPayloadScVal SampleSigners.addressOf
        { contextRuleIds := [3], signers := SampleSigners.signers } =
        .ok (payloadScVal [3] sorted) ∧
      (sorted.map Prod.fst).Pairwise (fun left right => left.hostLess right) ∧
      (∃ entries, Listed SampleSigners.addressOf SampleSigners.signers entries ∧
        sorted.Perm entries) ∧
      ∀ others, others.Perm SampleSigners.signers →
        buildAuthPayloadScVal SampleSigners.addressOf
          { contextRuleIds := [3], signers := others } = .ok (payloadScVal [3] sorted) :=
  buildAuthPayload_hostOrder [3] (List.cons_ne_nil _ _) SampleSigners.wellFormed
    SampleSigners.distinct

end Sdk

end Nido
