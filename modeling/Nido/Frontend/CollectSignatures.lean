/-
Collecting the friends' signatures from the relay.

The relay keeps each blob under a label that its writer chooses, and the blob names
a friend itself. Blobs are skipped by their label, recorded under the friend they
name, and reported by their label again; nothing compares the two names.
-/

import Nido.Frontend.RecoveryRotation

namespace Nido.Frontend

open Sdk

structure RelaySignature where
  friend_ : String
  blob : String

section Collect

variable (readWire : String → Js FriendSignatureWire)

/-- What is checked of a blob before it is recorded. -/
def acceptFriendSignature (staging : RotationStaging) (blob : String) : Js FriendSignature := do
  let fs ← decodeFriendSignature readWire (trim blob)
  if fs.friendAccount ∉ staging.friends then
    .error (fs.friendAccount ++ " is not one of this account's recovery friends.")
  else if fs.entries.length ≠ staging.txs.length then
    .error ("This reply covers " ++ toString fs.entries.length ++ " transaction(s) but the " ++
      "staged rotation has " ++ toString staging.txs.length ++ " — ask the friend to re-sign " ++
      "from the current link.")
  else
    .ok fs

def RotationStaging.record (staging : RotationStaging) (fs : FriendSignature) : RotationStaging :=
  { staging with collected := staging.collected.put fs.friendAccount fs }

def addFriendSignature (storage : LocalStorage) (account blob : String) :
    Js (LocalStorage × RotationStaging) :=
  match loadStaging storage account with
  | none => .error "No rotation in progress for this account."
  | some staging => do
      let fs ← acceptFriendSignature readWire staging blob
      pure (saveStaging storage (staging.record fs), staging.record fs)

/-- A blob that is rejected changes nothing. -/
def collectItem (account : String) (known : List String)
    (progress : LocalStorage × List String) (item : RelaySignature) :
    LocalStorage × List String :=
  if item.friend_ ∈ known then progress
  else
    match addFriendSignature readWire progress.1 account item.blob with
    | .ok (storage, _) => (storage, progress.2 ++ [item.friend_])
    | .error _ => progress

/-- The new storage and the labels that are reported as added. -/
def collectFromRelay (storage : LocalStorage) (account : String)
    (listFriendSignatures : Js (List RelaySignature)) (known : List String) :
    Js (LocalStorage × List String) := do
  let all ← listFriendSignatures
  pure (all.foldl (collectItem readWire account known) (storage, []))

theorem collectFromRelay_ok (storage : LocalStorage) (account : String)
    (all : List RelaySignature) (known : List String) :
    collectFromRelay readWire storage account (.ok all) known =
      .ok ((all.foldl (collectItem readWire account known) (storage, [])).1,
        (all.foldl (collectItem readWire account known) (storage, [])).2) := rfl

/-! ### The blobs that are recorded -/

def acceptedItem (staging : RotationStaging) (known : List String) (item : RelaySignature) :
    Option (String × FriendSignature) :=
  if item.friend_ ∈ known then none
  else
    match acceptFriendSignature readWire staging item.blob with
    | .ok fs => some (item.friend_, fs)
    | .error _ => none

def acceptedItems (staging : RotationStaging) (known : List String) (all : List RelaySignature) :
    List (String × FriendSignature) :=
  all.filterMap (acceptedItem readWire staging known)

def recordedWrites (staging : RotationStaging) (known : List String)
    (all : List RelaySignature) : List (String × FriendSignature) :=
  (acceptedItems readWire staging known all).map
    (fun accepted => (accepted.2.friendAccount, accepted.2))

end Collect

section Loop

variable {readWire : String → Js FriendSignatureWire} {account : String} {known : List String}

theorem acceptFriendSignature_eq_ok {staging : RotationStaging} {blob : String}
    {fs : FriendSignature} (accepted : acceptFriendSignature readWire staging blob = .ok fs) :
    decodeFriendSignature readWire (trim blob) = .ok fs ∧ fs.friendAccount ∈ staging.friends := by
  obtain ⟨decoded, read, checked⟩ := Contract.bind_eq_ok.mp accepted
  split at checked
  · cases checked
  next listed =>
    split at checked
    · cases checked
    · cases checked
      exact ⟨read, not_not.mp listed⟩

theorem acceptedItem_eq_some {staging : RotationStaging} {item : RelaySignature}
    {accepted : String × FriendSignature}
    (taken : acceptedItem readWire staging known item = some accepted) :
    item.friend_ ∉ known ∧ accepted.1 = item.friend_ ∧
      acceptFriendSignature readWire staging item.blob = .ok accepted.2 := by
  unfold acceptedItem at taken
  split at taken
  · cases taken
  next fresh =>
    split at taken
    next fs valid =>
      cases taken
      exact ⟨fresh, rfl, valid⟩
    next => cases taken

theorem collectItem_eq {storage : LocalStorage} {staging : RotationStaging}
    (stored : loadStaging storage account = some staging) (added : List String)
    (item : RelaySignature) :
    collectItem readWire account known (storage, added) item =
      match acceptedItem readWire staging known item with
      | none => (storage, added)
      | some accepted => (saveStaging storage (staging.record accepted.2), added ++ [accepted.1]) := by
  unfold collectItem acceptedItem
  by_cases skipped : item.friend_ ∈ known
  · rw [if_pos skipped, if_pos skipped]
  · rw [if_neg skipped, if_neg skipped, addFriendSignature, stored]
    dsimp only
    cases acceptFriendSignature readWire staging item.blob with
    | error message => rfl
    | ok fs => rfl

variable (readWire known) in
/-- The whole listing: the accepted entries are written in order, and their labels reported. -/
theorem collectItem_foldl (all : List RelaySignature) (storage : LocalStorage)
    (staging : RotationStaging) (added : List String)
    (stored : loadStaging storage account = some staging) (owner : staging.account = account) :
    loadStaging (all.foldl (collectItem readWire account known) (storage, added)).1 account =
        some { staging with
          collected := staging.collected.putAll (recordedWrites readWire staging known all) } ∧
      (all.foldl (collectItem readWire account known) (storage, added)).2 =
        added ++ (acceptedItems readWire staging known all).map Prod.fst := by
  induction all generalizing storage staging added with
  | nil =>
      refine ⟨stored, ?_⟩
      exact (List.append_nil added).symm
  | cons item rest ih =>
      rw [List.foldl_cons, collectItem_eq stored]
      unfold recordedWrites acceptedItems
      rw [List.filterMap_cons]
      cases acceptedItem readWire staging known item with
      | none => exact ih storage staging added stored owner
      | some accepted =>
          have recorded : loadStaging (saveStaging storage (staging.record accepted.2)) account =
              some (staging.record accepted.2) := by
            subst owner
            exact loadStaging_saveStaging storage (staging.record accepted.2)
          obtain ⟨collected, reported⟩ := ih (saveStaging storage (staging.record accepted.2))
            (staging.record accepted.2) (added ++ [accepted.1]) recorded owner
          refine ⟨collected, ?_⟩
          rw [reported, List.append_assoc]
          rfl

end Loop

/-! ### What collecting should leave behind -/

/-- Nothing collected changes, what is new comes from a blob that names its friend, and the
report lists what is new. -/
structure CollectedUnharmed (readWire : String → Js FriendSignatureWire)
    (before after : RotationStaging) (all : List RelaySignature) (added : List String) : Prop where
  kept : ∀ name fs, before.collected.get name = some fs → after.collected.get name = some fs
  sourced : ∀ name fs, before.collected.get name = none → after.collected.get name = some fs →
    name ∈ before.friends ∧ fs.friendAccount = name ∧
      ∃ item ∈ all, decodeFriendSignature readWire (trim item.blob) = .ok fs
  reported : ∀ name, name ∈ added ↔
    before.collected.get name = none ∧ ∃ fs, after.collected.get name = some fs

/-- Among the entries that are recorded, the last one that names a collected friend repeats what
was collected, and the labels are the new friends that are named. -/
structure ListingFits (readWire : String → Js FriendSignatureWire) (staging : RotationStaging)
    (all : List RelaySignature) : Prop where
  repeats : ∀ name old last, staging.collected.get name = some old →
    (recordedWrites readWire staging staging.collected.keys all).reverse.lookup name = some last →
    last = old
  labels : ∀ name,
    name ∈ (acceptedItems readWire staging staging.collected.keys all).map Prod.fst ↔
      name ∉ staging.collected.keys ∧
        name ∈ (recordedWrites readWire staging staging.collected.keys all).map Prod.fst

section Claims

variable {readWire : String → Js FriendSignatureWire} {staging : RotationStaging}
  {all : List RelaySignature}

theorem recordedWrites_sound {known : List String} {name : String} {fs : FriendSignature}
    (written : (name, fs) ∈ recordedWrites readWire staging known all) :
    name ∈ staging.friends ∧ fs.friendAccount = name ∧
      ∃ item ∈ all, decodeFriendSignature readWire (trim item.blob) = .ok fs := by
  obtain ⟨accepted, taken, same⟩ := List.mem_map.mp written
  obtain ⟨item, listed, accepts⟩ := List.mem_filterMap.mp taken
  obtain ⟨-, -, valid⟩ := acceptedItem_eq_some accepts
  obtain ⟨decoded, friendly⟩ := acceptFriendSignature_eq_ok valid
  cases same
  exact ⟨friendly, rfl, item, listed, decoded⟩

/-- When every recorded entry carries the name of its friend as its label, the listing fits. -/
theorem listingFits_of_labelled
    (labelled : ∀ accepted ∈ acceptedItems readWire staging staging.collected.keys all,
      accepted.1 = accepted.2.friendAccount) : ListingFits readWire staging all := by
  have fresh : ∀ accepted ∈ acceptedItems readWire staging staging.collected.keys all,
      accepted.1 ∉ staging.collected.keys := by
    intro accepted taken
    obtain ⟨item, -, accepts⟩ := List.mem_filterMap.mp taken
    obtain ⟨unknown, label, -⟩ := acceptedItem_eq_some accepts
    rw [label]
    exact unknown
  have names : (recordedWrites readWire staging staging.collected.keys all).map Prod.fst =
      (acceptedItems readWire staging staging.collected.keys all).map Prod.fst := by
    rw [recordedWrites, List.map_map]
    exact List.map_congr_left (fun accepted taken => (labelled accepted taken).symm)
  constructor
  · intro name old last collected written
    have known := Keyed.mem_keys.mpr ⟨old, collected⟩
    have listed : name ∈ (recordedWrites readWire staging staging.collected.keys all).map Prod.fst :=
      List.mem_map.mpr ⟨_, List.mem_reverse.mp (Keyed.mem_of_lookup written), rfl⟩
    rw [names] at listed
    obtain ⟨accepted, taken, rfl⟩ := List.mem_map.mp listed
    exact absurd known (fresh accepted taken)
  · intro name
    rw [names]
    constructor
    · intro reported
      obtain ⟨accepted, taken, rfl⟩ := List.mem_map.mp reported
      exact ⟨fresh accepted taken, reported⟩
    · intro named
      exact named.2

theorem newly_collected_iff (writes : List (String × FriendSignature))
    (collected : Keyed String FriendSignature) (name : String) :
    (collected.get name = none ∧ ∃ fs, (collected.putAll writes).get name = some fs) ↔
      name ∉ collected.keys ∧ name ∈ writes.map Prod.fst := by
  rw [Keyed.get_eq_none]
  apply and_congr_right
  intro fresh
  rw [Keyed.get_putAll, Keyed.get_eq_none.mpr fresh, Option.or_none]
  constructor
  · rintro ⟨fs, written⟩
    exact List.mem_map.mpr ⟨_, List.mem_reverse.mp (Keyed.mem_of_lookup written), rfl⟩
  · intro named
    cases written : writes.reverse.lookup name with
    | some fs => exact ⟨fs, rfl⟩
    | none =>
        obtain ⟨write, listed, same⟩ := List.mem_map.mp named
        exact absurd same (Keyed.lookup_reverse_eq_none.mp written write listed)

variable (readWire all) in
/-- Collecting leaves everything in order exactly when the listing fits. -/
theorem collect_unharmed_iff {storage : LocalStorage} {account : String}
    (stored : loadStaging storage account = some staging) (owner : staging.account = account) :
    ∃ storage' added after,
      collectFromRelay readWire storage account (.ok all) staging.collected.keys =
        .ok (storage', added) ∧
      loadStaging storage' account = some after ∧
      (CollectedUnharmed readWire staging after all added ↔ ListingFits readWire staging all) := by
  let writes := recordedWrites readWire staging staging.collected.keys all
  obtain ⟨collected, reported⟩ :=
    collectItem_foldl readWire staging.collected.keys all storage staging [] stored owner
  rw [List.nil_append] at reported
  refine ⟨_, _, _, collectFromRelay_ok readWire storage account all _, collected, ?_⟩
  rw [reported]
  constructor
  · intro unharmed
    constructor
    · intro name old last present written
      have now : (staging.collected.putAll writes).get name = some old :=
        unharmed.kept name old present
      rw [Keyed.get_putAll, written] at now
      exact Option.some.inj now
    · intro name
      rw [unharmed.reported name]
      exact newly_collected_iff writes staging.collected name
  · intro fits
    refine ⟨?_, ?_, ?_⟩
    · intro name old present
      change (staging.collected.putAll writes).get name = some old
      rw [Keyed.get_putAll]
      cases written : writes.reverse.lookup name with
      | none =>
          rw [Option.none_or]
          exact present
      | some last =>
          rw [Option.some_or, fits.repeats name old last present written]
    · intro name fs absent present
      change (staging.collected.putAll writes).get name = some fs at present
      rw [Keyed.get_putAll, absent, Option.or_none] at present
      exact recordedWrites_sound (List.mem_reverse.mp (Keyed.mem_of_lookup present))
    · intro name
      rw [fits.labels name]
      exact (newly_collected_iff writes staging.collected name).symm

end Claims

/-! ### A bucket with one blob -/

namespace SampleBucket

def account : String := "CAAQCAIBAEAQCAIBAEAQCAIBAEAQCAIBAEAQCAIBAEAQCAIBAEAQC526"

def alice : String := "CABAEAQCAIBAEAQCAIBAEAQCAIBAEAQCAIBAEAQCAIBAEAQCAIBAFNSZ"

def bob : String := "CABQGAYDAMBQGAYDAMBQGAYDAMBQGAYDAMBQGAYDAMBQGAYDAMBQGCK3"

def verifier : String := "CACQKBIFAUCQKBIFAUCQKBIFAUCQKBIFAUCQKBIFAUCQKBIFAUCQLC2U"

def entryWire (nonce : String) : FriendSignatureEntryWire where
  ad := "01"
  cd := "7b7d"
  sig := "02"
  nonce := nonce
  exp := 2000

def signature (friend_ nonce : String) : FriendSignature where
  friendAccount := friend_
  verifierAddress := verifier
  publicKey := hex2buf "04"
  entries := [entryFromWire (entryWire nonce)]

def aliceBlob : String :=
  "eyJ2IjoxLCJmcmllbmQiOiJDQUJBRUFRQ0FJQkFFQVFDQUlCQUVBUUNBSUJBRUFRQ0FJQkFFQVFDQUlCQUVBUUNBSUJB" ++
    "Rk5TWiIsInZlcmlmaWVyIjoiQ0FDUUtCSUZBVUNRS0JJRkFVQ1FLQklGQVVDUUtCSUZBVUNRS0JJRkFVQ1FLQklGQVVD" ++
    "UUxDMlUiLCJwdWIiOiIwNCIsImFkIjoiMDEiLCJjZCI6IjdiN2QiLCJzaWciOiIwMiIsIm5vbmNlIjoiMyIsImV4cCI6" ++
    "MjAwMH0"

def bobBlob : String :=
  "eyJ2IjoxLCJmcmllbmQiOiJDQUJRR0FZREFNQlFHQVlEQU1CUUdBWURBTUJRR0FZREFNQlFHQVlEQU1CUUdBWURBTUJR" ++
    "R0NLMyIsInZlcmlmaWVyIjoiQ0FDUUtCSUZBVUNRS0JJRkFVQ1FLQklGQVVDUUtCSUZBVUNRS0JJRkFVQ1FLQklGQVVD" ++
    "UUxDMlUiLCJwdWIiOiIwNCIsImFkIjoiMDEiLCJjZCI6IjdiN2QiLCJzaWciOiIwMiIsIm5vbmNlIjoiMiIsImV4cCI6" ++
    "MjAwMH0"

/-- The text of the one blob in the bucket reads as a signature of the friend it names. -/
def readWire (blob friend_ nonce text : String) : Js FriendSignatureWire :=
  if text = trim blob then
    .ok (.v1 friend_ verifier "04" (entryWire nonce))
  else
    .error "decodeFriendSignature: input is not valid base64url"

def staging : RotationStaging where
  account := account
  recoveryRuleId := 4
  threshold := 1
  friends := [alice, bob]
  txs :=
    [{ txXdr := "", refractorTxHash := "", refractorTxUrl := "", parentAuthDigestHex := "",
       relayerTxId := none, submittedHash := none }]
  lastLedger := 1000
  parentSignatureExpirationLedger := 2000
  description := "test rotation"
  relayKey := "AAAAAAAAAAAAAAAAAAAAAA"
  collected := Keyed.empty.put alice (signature alice "1")

def storage : LocalStorage := saveStaging (fun _ => none) staging

theorem stored : loadStaging storage account = some staging :=
  loadStaging_saveStaging (fun _ => none) staging

theorem reads (blob friend_ nonce : String) :
    decodeFriendSignature (readWire blob friend_ nonce) (trim blob) =
      .ok (signature friend_ nonce) := by
  rw [decodeFriendSignature, readWire, if_pos rfl]
  rfl

theorem accepts (blob friend_ nonce : String) (friendly : friend_ ∈ staging.friends) :
    acceptFriendSignature (readWire blob friend_ nonce) staging blob =
      .ok (signature friend_ nonce) := by
  rw [acceptFriendSignature, reads]
  change (if friend_ ∉ staging.friends then _ else _) = _
  rw [if_neg (not_not.mpr friendly)]
  rfl

theorem accepted (blob friend_ nonce : String) (friendly : friend_ ∈ staging.friends) :
    acceptedItems (readWire blob friend_ nonce) staging staging.collected.keys
      [{ friend_ := bob, blob }] = [(bob, signature friend_ nonce)] := by
  have fresh : bob ∉ staging.collected.keys := by decide
  rw [acceptedItems, List.filterMap_cons, acceptedItem, if_neg fresh, accepts _ _ _ friendly]
  rfl

end SampleBucket

theorem collect_unharmed_iff_honest :
    ∃ storage' added after,
      collectFromRelay (SampleBucket.readWire SampleBucket.bobBlob SampleBucket.bob "2")
        SampleBucket.storage SampleBucket.account
        (.ok [{ friend_ := SampleBucket.bob, blob := SampleBucket.bobBlob }])
        SampleBucket.staging.collected.keys = .ok (storage', added) ∧
      loadStaging storage' SampleBucket.account = some after ∧
      CollectedUnharmed (SampleBucket.readWire SampleBucket.bobBlob SampleBucket.bob "2")
        SampleBucket.staging after [{ friend_ := SampleBucket.bob, blob := SampleBucket.bobBlob }]
        added := by
  obtain ⟨storage', added, after, collected, stored, unharmed⟩ :=
    collect_unharmed_iff (SampleBucket.readWire SampleBucket.bobBlob SampleBucket.bob "2")
      [{ friend_ := SampleBucket.bob, blob := SampleBucket.bobBlob }] SampleBucket.stored rfl
  refine ⟨storage', added, after, collected, stored, unharmed.mpr ?_⟩
  apply listingFits_of_labelled
  intro accepted taken
  rw [SampleBucket.accepted _ _ _ (by decide), List.mem_singleton] at taken
  rw [taken]
  rfl

/-- A blob that names Alice under Bob's label replaces her signature and is reported as Bob's. -/
theorem collect_mislabelled :
    ∃ storage' added after,
      collectFromRelay (SampleBucket.readWire SampleBucket.aliceBlob SampleBucket.alice "3")
        SampleBucket.storage SampleBucket.account
        (.ok [{ friend_ := SampleBucket.bob, blob := SampleBucket.aliceBlob }])
        SampleBucket.staging.collected.keys = .ok (storage', added) ∧
      loadStaging storage' SampleBucket.account = some after ∧
      added = [SampleBucket.bob] ∧
      after.collected.get SampleBucket.bob = none ∧
      after.collected.get SampleBucket.alice =
        some (SampleBucket.signature SampleBucket.alice "3") ∧
      ¬ CollectedUnharmed (SampleBucket.readWire SampleBucket.aliceBlob SampleBucket.alice "3")
        SampleBucket.staging after
        [{ friend_ := SampleBucket.bob, blob := SampleBucket.aliceBlob }] added := by
  obtain ⟨collected, reported⟩ := collectItem_foldl
    (SampleBucket.readWire SampleBucket.aliceBlob SampleBucket.alice "3")
    SampleBucket.staging.collected.keys
    [{ friend_ := SampleBucket.bob, blob := SampleBucket.aliceBlob }] SampleBucket.storage
    SampleBucket.staging [] SampleBucket.stored rfl
  rw [recordedWrites, SampleBucket.accepted _ _ _ (by decide)] at collected
  rw [SampleBucket.accepted _ _ _ (by decide)] at reported
  let overwritten := SampleBucket.staging.collected.putAll
    [(SampleBucket.alice, SampleBucket.signature SampleBucket.alice "3")]
  have missing : overwritten.get SampleBucket.bob = none := by decide
  have replaced : overwritten.get SampleBucket.alice =
      some (SampleBucket.signature SampleBucket.alice "3") := by decide
  refine ⟨_, _, _, collectFromRelay_ok _ _ _ _ _, collected, reported, missing, replaced, ?_⟩
  intro unharmed
  have listed : SampleBucket.bob ∈ [SampleBucket.bob] := List.mem_singleton_self _
  rw [← List.nil_append [SampleBucket.bob]] at listed
  have reports := unharmed.reported SampleBucket.bob
  rw [reported] at reports
  obtain ⟨-, fs, present⟩ := reports.mp listed
  change overwritten.get SampleBucket.bob = some fs at present
  rw [missing] at present
  cases present

end Nido.Frontend
