/-
Tokens that an account might hold.

They come from a curated list, from what this browser confirmed before, and from
transfer events, which any contract may emit. Several finds of one token are merged
field by field.
-/

import Nido.Frontend.ActivityRows
import Nido.Library.Keyed

namespace Nido.Frontend

open Sdk

inductive AssetSource
  | native
  | curated
  | events
  | stored
deriving DecidableEq

structure AssetCandidate where
  contractId : String
  code : Option String
  issuer : Option String
  domain : Option String
  decimals : Option Int
  icon : Option String
  sac : Bool
  source : AssetSource

/-! ### Merging -/

/-- `left || right` on texts. -/
def textOr (left right : Option String) : Option String :=
  if left.any (fun text => decide (text ≠ "")) = true then left else right

def backfill (prev c : AssetCandidate) : AssetCandidate :=
  { prev with
    code := textOr prev.code c.code
    issuer := textOr prev.issuer c.issuer
    domain := textOr prev.domain c.domain
    decimals := prev.decimals.or c.decimals
    icon := textOr prev.icon c.icon
    sac := prev.sac || c.sac }

def mergeOne (byId : Keyed String AssetCandidate) (c : AssetCandidate) :
    Keyed String AssetCandidate :=
  byId.put c.contractId
    (match byId.get c.contractId with
    | some prev => backfill prev c
    | none => c)

def mergeCandidates (groups : List (List AssetCandidate)) : List AssetCandidate :=
  ((groups.flatten.foldl mergeOne Keyed.empty).entries).map Prod.snd

/-- Whether a token is taken for the contract of a classic asset by one of the finds. -/
def markedSac (items : List AssetCandidate) (contractId : String) : Bool :=
  items.any (fun c => decide (c.contractId = contractId) && c.sac)

section Merge

variable {byId : Keyed String AssetCandidate} {items : List AssetCandidate}

theorem mergeOne_get (byId : Keyed String AssetCandidate) (c : AssetCandidate) (place : String) :
    (mergeOne byId c).get place =
      if place = c.contractId then
        some (match byId.get c.contractId with
          | some prev => backfill prev c
          | none => c)
      else byId.get place :=
  Keyed.get_put _ _ _ _

theorem foldl_mergeOne_keys (byId : Keyed String AssetCandidate) (items : List AssetCandidate) :
    (items.foldl mergeOne byId).keys =
      byId.keys ++ (Keyed.firsts AssetCandidate.contractId byId.keys items).map
        AssetCandidate.contractId := by
  induction items generalizing byId with
  | nil => exact (List.append_nil _).symm
  | cons c rest ih =>
      have step : (mergeOne byId c).keys =
          if c.contractId ∈ byId.keys then byId.keys else byId.keys ++ [c.contractId] :=
        Keyed.keys_put _ _ _
      rw [List.foldl_cons, ih, step, Keyed.firsts]
      by_cases known : c.contractId ∈ byId.keys
      · rw [if_pos known, if_pos known]
      · have order : Keyed.firsts AssetCandidate.contractId (byId.keys ++ [c.contractId]) rest =
            Keyed.firsts AssetCandidate.contractId (c.contractId :: byId.keys) rest := by
          apply Keyed.firsts_congr
          intro place
          rw [List.mem_append, List.mem_singleton, List.mem_cons, or_comm]
        rw [if_neg known, if_neg known, List.append_assoc, List.map_cons, order]
        rfl

theorem foldl_mergeOne_contractId
    (keyed : ∀ place c, byId.get place = some c → c.contractId = place) :
    ∀ place c, (items.foldl mergeOne byId).get place = some c → c.contractId = place := by
  induction items generalizing byId with
  | nil => exact keyed
  | cons find rest ih =>
      apply ih
      intro place c found
      rw [mergeOne_get] at found
      split at found
      next same =>
        cases known : byId.get find.contractId with
        | none =>
            rw [known] at found
            cases found
            exact same.symm
        | some prev =>
            rw [known] at found
            cases found
            exact (keyed _ prev known).trans same.symm
      next => exact keyed place c found

theorem foldl_mergeOne_sac (byId : Keyed String AssetCandidate) (items : List AssetCandidate)
    (place : String) :
    ((items.foldl mergeOne byId).get place).any AssetCandidate.sac =
      ((byId.get place).any AssetCandidate.sac || markedSac items place) := by
  unfold markedSac
  induction items generalizing byId with
  | nil => exact (Bool.or_false _).symm
  | cons c rest ih =>
      rw [List.foldl_cons, ih, mergeOne_get, List.any_cons, ← Bool.or_assoc]
      congr 1
      by_cases same : place = c.contractId
      · subst same
        rw [if_pos rfl]
        cases byId.get c.contractId with
        | none => simp
        | some prev => simp [backfill]
      · rw [if_neg same]
        simp [Ne.symm same]

theorem foldl_mergeOne_source (byId : Keyed String AssetCandidate) (items : List AssetCandidate)
    (place : String) :
    ((items.foldl mergeOne byId).get place).map AssetCandidate.source =
      ((byId.get place).map AssetCandidate.source).or
        ((items.find? (fun c => decide (c.contractId = place))).map AssetCandidate.source) := by
  induction items generalizing byId with
  | nil => exact (Option.or_none).symm
  | cons c rest ih =>
      rw [List.foldl_cons, ih, mergeOne_get, List.find?_cons]
      by_cases same : place = c.contractId
      · subst same
        rw [if_pos rfl, decide_eq_true rfl]
        cases byId.get c.contractId with
        | none => rfl
        | some prev => rfl
      · rw [if_neg same, decide_eq_false (Ne.symm same)]

end Merge

section Merged

variable {groups : List (List AssetCandidate)}

theorem merged_contractId {place : String} {c : AssetCandidate}
    (found : (groups.flatten.foldl mergeOne Keyed.empty).get place = some c) :
    c.contractId = place := by
  apply foldl_mergeOne_contractId _ place c found
  intro other find impossible
  rw [Keyed.get_empty] at impossible
  cases impossible

theorem mem_mergeCandidates {c : AssetCandidate} :
    c ∈ mergeCandidates groups ↔
      (groups.flatten.foldl mergeOne Keyed.empty).get c.contractId = some c := by
  unfold mergeCandidates
  rw [List.mem_map]
  constructor
  · rintro ⟨⟨place, find⟩, member, rfl⟩
    have found := Keyed.get_eq_some.mpr member
    rwa [merged_contractId found]
  · intro found
    exact ⟨(c.contractId, c), Keyed.get_eq_some.mp found, rfl⟩

theorem mergeCandidates_unique {c other : AssetCandidate} (member : c ∈ mergeCandidates groups)
    (otherMember : other ∈ mergeCandidates groups) (same : c.contractId = other.contractId) :
    c = other := by
  have found := mem_mergeCandidates.mp member
  have otherFound := mem_mergeCandidates.mp otherMember
  rw [← same, found] at otherFound
  exact Option.some.inj otherFound

theorem mergeCandidates_ids (groups : List (List AssetCandidate)) :
    (mergeCandidates groups).map AssetCandidate.contractId =
      (Keyed.firsts AssetCandidate.contractId [] groups.flatten).map
        AssetCandidate.contractId := by
  have keys := foldl_mergeOne_keys Keyed.empty groups.flatten
  have under : ((groups.flatten.foldl mergeOne Keyed.empty).entries.map Prod.snd).map
      AssetCandidate.contractId = (groups.flatten.foldl mergeOne Keyed.empty).keys := by
    rw [List.map_map]
    apply List.map_congr_left
    intro entry member
    exact merged_contractId (Keyed.get_eq_some.mpr member)
  unfold mergeCandidates
  rw [under, keys]
  rfl

theorem mergeCandidates_sac {c : AssetCandidate} (member : c ∈ mergeCandidates groups) :
    c.sac = markedSac groups.flatten c.contractId := by
  have flag := foldl_mergeOne_sac Keyed.empty groups.flatten c.contractId
  rw [mem_mergeCandidates.mp member, Keyed.get_empty] at flag
  exact flag

theorem mergeCandidates_source {c : AssetCandidate} (member : c ∈ mergeCandidates groups) :
    (groups.flatten.find? (fun find => decide (find.contractId = c.contractId))).map
      AssetCandidate.source = some c.source := by
  have source := foldl_mergeOne_source Keyed.empty groups.flatten c.contractId
  rw [mem_mergeCandidates.mp member, Keyed.get_empty] at source
  exact source.symm

theorem exists_mergeCandidate {contractId : String} :
    (∃ c ∈ mergeCandidates groups, c.contractId = contractId) ↔
      ∃ find ∈ groups.flatten, find.contractId = contractId := by
  rw [← List.mem_map, mergeCandidates_ids, Keyed.mem_firsts_keys, List.mem_map]
  exact and_iff_left List.not_mem_nil

end Merged

/-! ### Discovery -/

structure RawEvent where
  contractId : Option String
  topic : List ScVal

section Discovery

variable (reader : NativeReader) (nativeSacId : String)

/-- A topic that cannot be decoded is nothing. -/
def decodedTopics (e : RawEvent) : List Native :=
  e.topic.map (fun value => (scValToNative reader value).toOption.getD .null)

def extractCandidate (byId : Keyed String AssetCandidate) (self_ : String) (e : RawEvent) :
    Js (Keyed String AssetCandidate) :=
  let cid := e.contractId.getD ""
  if cid = "" ∨ cid = nativeSacId ∨ cid ∈ byId.keys then
    pure byId
  else
    let topics := decodedTopics reader e
    let topic (index : Nat) : Native := (topics[index]?).getD .undefined
    if (topic 0).asText ≠ some "transfer" then
      pure byId
    else do
      let sender ← (topic 1).toText reader
      let received := if sender = self_ then pure true
        else ((topic 2).toText reader).map (fun recipient => decide (recipient = self_))
      let involved ← received
      if involved = false then
        pure byId
      else
        let t3 := (topic 3).asText
        let sep11 := (t3.filter (fun text => decide (':' ∈ text.toList))).map splitColon
        pure (byId.put cid
          { contractId := cid
            code := (sep11.bind List.head?).filter (fun text => decide (text ≠ ""))
            issuer := (sep11.bind (fun parts => parts.tail.head?)).filter
              (fun text => decide (text ≠ ""))
            domain := none
            decimals := none
            icon := none
            sac := sep11.isSome || t3 == some "native"
            source := .events })

def extractTokenCandidates (raw : List RawEvent) (self_ : String) : Js (List AssetCandidate) :=
  (raw.foldlM (fun byId e => extractCandidate reader nativeSacId byId self_ e)
    Keyed.empty).map (fun byId => byId.entries.map Prod.snd)

def maxDiscovered : Nat := 100

/-- A failure yields nothing. -/
def discoverFromEvents (raw : List RawEvent) (self_ : String) : List AssetCandidate :=
  match extractTokenCandidates reader nativeSacId raw self_ with
  | .ok found => found.take maxDiscovered
  | .error _ => []

variable {reader nativeSacId}

theorem extractCandidate_source {byId after : Keyed String AssetCandidate} {self_ : String}
    {e : RawEvent} (result : extractCandidate reader nativeSacId byId self_ e = .ok after)
    (events : ∀ place c, byId.get place = some c → c.source = .events) :
    ∀ place c, after.get place = some c → c.source = .events := by
  unfold extractCandidate at result
  dsimp only at result
  split at result
  next =>
    cases result
    exact events
  next =>
    split at result
    next =>
      cases result
      exact events
    next =>
      obtain ⟨sender, _, result⟩ := Contract.bind_eq_ok.mp result
      obtain ⟨involved, _, result⟩ := Contract.bind_eq_ok.mp result
      split at result
      next =>
        cases result
        exact events
      next =>
        cases result
        intro place c found
        rw [Keyed.get_put] at found
        split at found
        next =>
          cases found
          rfl
        next => exact events place c found

theorem discoverFromEvents_source (raw : List RawEvent) (self_ : String) :
    ∀ c ∈ discoverFromEvents reader nativeSacId raw self_, c.source = .events := by
  have extracted (byId after : Keyed String AssetCandidate)
      (result : raw.foldlM (fun byId e => extractCandidate reader nativeSacId byId self_ e) byId =
        .ok after) (events : ∀ place c, byId.get place = some c → c.source = .events) :
      ∀ place c, after.get place = some c → c.source = .events := by
    induction raw generalizing byId with
    | nil =>
        cases result
        exact events
    | cons e rest ih =>
        rw [List.foldlM_cons] at result
        obtain ⟨middle, here, later⟩ := Contract.bind_eq_ok.mp result
        exact ih middle later (extractCandidate_source here events)
  intro c member
  unfold discoverFromEvents extractTokenCandidates at member
  cases result : raw.foldlM (fun byId e => extractCandidate reader nativeSacId byId self_ e)
      Keyed.empty with
  | error thrown =>
      rw [result] at member
      cases member
  | ok after =>
      rw [result] at member
      obtain ⟨⟨place, find⟩, listed, rfl⟩ := List.mem_map.mp (List.mem_of_mem_take member)
      apply extracted Keyed.empty after result _ place find (Keyed.get_eq_some.mpr listed)
      intro other impossible found
      rw [Keyed.get_empty] at found
      cases found

end Discovery

end Nido.Frontend
