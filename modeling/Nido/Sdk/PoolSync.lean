/-
Merging the leaves of an untrusted source, and a leaf's witness in the tree.

A source may omit, repeat or reorder leaves. A list is accepted exactly when it
is, as a set of pairs, a sequence of words starting at index zero that a map can
hold, and then the sequence is what the merge returns.
-/

import Mathlib.Data.List.Nodup
import Nido.Sdk.Merkle

namespace Nido.Sdk

/-- One leaf as the pool has announced it; a word of any length. -/
structure Leaf where
  index : Nat
  leaf : Bytes
deriving DecidableEq

/-- The number of entries that a JavaScript `Map` takes at most. -/
def mapMaximum : Nat := 2 ^ 24

/-- The loop that fills `byIndex`, a map that keeps its keys in insertion order
and throws a `RangeError` when it is full. -/
def collect : (byIndex : List (Nat × Bytes)) → List Leaf → Js (List (Nat × Bytes))
  | byIndex, [] => .ok byIndex
  | byIndex, ⟨index, leaf⟩ :: rest =>
      match byIndex.lookup index with
      | some existing =>
          if existing ≠ leaf then
            .error ("mergeLeaves: conflicting leaf bytes at index " ++ toString index)
          else
            collect byIndex rest
      | none =>
          if byIndex.length < mapMaximum then
            collect (byIndex ++ [(index, leaf)]) rest
          else
            .error "Map maximum size exceeded"

def requireContiguous : (expected : Nat) → List Nat → Js Unit
  | _, [] => .ok ()
  | expected, index :: rest =>
      if index ≠ expected then
        .error ("mergeLeaves: non-contiguous leaf set -- expected index " ++ toString expected ++
          ", got " ++ toString index ++ " (gap or missing genesis leaf)")
      else
        requireContiguous (expected + 1) rest

def mergeLeaves (known incoming : List Leaf) : Js (List Leaf) := do
  let byIndex ← collect [] (known ++ incoming)
  let indices := (byIndex.map Prod.fst).mergeSort (· ≤ ·)
  requireContiguous 0 indices
  pure (indices.map (fun index => ⟨index, (byIndex.lookup index).getD []⟩))

def fieldBytes : (count value : Nat) → Bytes
  | 0, _ => []
  | count + 1, value => fieldBytes count (value >>> 8) ++ [UInt8.ofNat (value &&& 0xff)]

def fieldToBytes32 (x : Int) : Js Bytes :=
  if x < 0 ∨ x ≥ fieldOrder then
    .error ("fieldToBytes32: value out of canonical range: " ++ toString x)
  else
    .ok (fieldBytes 32 x.toNat)

def bytesToFieldCanonical (b : Bytes) : Js Int :=
  if b.length ≠ 32 then
    .error ("bytesToFieldCanonical: expected 32 bytes, got " ++ toString b.length)
  else if bytesToBigIntBE b ≥ fieldOrder then
    .error "bytesToFieldCanonical: value >= FIELD_ORDER (non-canonical)"
  else
    .ok (bytesToBigIntBE b)

def insertAll : IncrementalTree → List Leaf → Js IncrementalTree
  | tree, [] => .ok tree
  | tree, ⟨_, leaf⟩ :: rest => do
      let value ← bytesToFieldCanonical leaf
      insertAll (tree.insert value).2 rest

def rebuildRoot (poseidon2Hash : List Fr → Fr) (leaves : List Leaf) : Js Int := do
  let merged ← mergeLeaves [] leaves
  let tree ← insertAll .empty merged
  pure (tree.root poseidon2Hash)

def verifyAgainstOnChainRoot (poseidon2Hash : List Fr → Fr) (leaves : List Leaf)
    (onChainRoot : Int) : Js Bool := do
  let rebuilt ← rebuildRoot poseidon2Hash leaves
  pure (decide (rebuilt = onChainRoot))

/-- The last place that holds the leaf is the one that counts. -/
def insertAndFind (myStoredLeaf : Bytes) :
    IncrementalTree → (foundIndex : Option Nat) → List Leaf → Js (IncrementalTree × Option Nat)
  | tree, foundIndex, [] => .ok (tree, foundIndex)
  | tree, foundIndex, ⟨_, leaf⟩ :: rest => do
      let value ← bytesToFieldCanonical leaf
      let (insertedIndex, tree) := tree.insert value
      insertAndFind myStoredLeaf tree
        (if leaf = myStoredLeaf then some insertedIndex else foundIndex) rest

structure Located where
  index : Nat
  siblings : List Int
  bits : List Nat

def locateLeaf (poseidon2Hash : List Fr → Fr) (leaves : List Leaf) (myStoredLeaf : Bytes) :
    Js (Option Located) := do
  let merged ← mergeLeaves [] leaves
  let (tree, foundIndex) ← insertAndFind myStoredLeaf .empty none merged
  match foundIndex with
  | none => pure none
  | some foundIndex => do
      let (siblings, bits) ← tree.pathFor poseidon2Hash foundIndex
      pure (some { index := foundIndex, siblings, bits })

/-! ### What a merge accepts -/

def indexed (words : List Bytes) : List Leaf := words.mapIdx Leaf.mk

/-- As a set of pairs, the leaves are the sequence. -/
structure Lists (leaves : List Leaf) (words : List Bytes) : Prop where
  placed : ∀ leaf ∈ leaves, words[leaf.index]? = some leaf.leaf
  complete : ∀ index word, words[index]? = some word → ⟨index, word⟩ ∈ leaves

theorem mem_indexed {words : List Bytes} {leaf : Leaf} :
    leaf ∈ indexed words ↔ words[leaf.index]? = some leaf.leaf := by
  unfold indexed
  rw [List.mem_mapIdx]
  constructor
  · intro listed
    obtain ⟨place, inside, same⟩ := listed
    rw [← same, List.getElem?_eq_getElem inside]
  · intro present
    obtain ⟨inside, same⟩ := List.getElem?_eq_some_iff.mp present
    exact ⟨leaf.index, inside, by rw [same]⟩

theorem Lists.indexed (words : List Bytes) : Lists (indexed words) words :=
  ⟨fun _ listed => mem_indexed.mp listed, fun _ _ present => mem_indexed.mpr present⟩

theorem Lists.unique {leaves : List Leaf} {words words' : List Bytes}
    (lists : Lists leaves words) (lists' : Lists leaves words') : words = words' := by
  apply List.ext_getElem?
  intro index
  cases present : words[index]? with
  | some word => exact (lists'.placed _ (lists.complete index word present)).symm
  | none =>
      cases present' : words'[index]? with
      | none => rfl
      | some word =>
          have listed := lists.placed _ (lists'.complete index word present')
          rw [present] at listed
          cases listed

/-- What filling a map with distinct keys has done. -/
structure Collected (byIndex : List (Nat × Bytes)) (leaves : List Leaf)
    (collected : List (Nat × Bytes)) : Prop where
  kept : ∀ index word, byIndex.lookup index = some word → collected.lookup index = some word
  added : ∀ leaf ∈ leaves, collected.lookup leaf.index = some leaf.leaf
  known : ∀ index word, collected.lookup index = some word →
    byIndex.lookup index = some word ∨ ⟨index, word⟩ ∈ leaves
  distinct : (collected.map Prod.fst).Nodup
  bounded : collected.length ≤ mapMaximum

theorem lookup_snoc {byIndex : List (Nat × Bytes)} {index place : Nat} {word leaf : Bytes} :
    (byIndex ++ [(index, leaf)]).lookup place = some word ↔
      byIndex.lookup place = some word ∨
        (byIndex.lookup place = none ∧ place = index ∧ leaf = word) := by
  rw [List.lookup_append]
  cases byIndex.lookup place with
  | some other => simp
  | none =>
      by_cases same : place = index
      · simp [same]
      · simp [List.lookup_cons, beq_false_of_ne same, same]

theorem lookup_fresh {byIndex : List (Nat × Bytes)} {index : Nat} :
    byIndex.lookup index = none ↔ index ∉ byIndex.map Prod.fst := by
  rw [List.lookup_eq_none_iff]
  constructor
  · intro differs listed
    obtain ⟨pair, present, same⟩ := List.mem_map.mp listed
    have different := differs pair present
    simp [same] at different
  · intro absent pair present
    have different : index ≠ pair.1 :=
      fun same => absent (List.mem_map.mpr ⟨pair, present, same.symm⟩)
    simpa using different

theorem collect_eq_ok {byIndex collected : List (Nat × Bytes)} {leaves : List Leaf}
    (distinct : (byIndex.map Prod.fst).Nodup) (bounded : byIndex.length ≤ mapMaximum)
    (filled : collect byIndex leaves = .ok collected) : Collected byIndex leaves collected := by
  induction leaves generalizing byIndex with
  | nil =>
      obtain rfl : byIndex = collected := Except.ok.inj filled
      refine ⟨fun _ _ present => present, ?_, fun _ _ present => .inl present, distinct, bounded⟩
      intro leaf listed
      cases listed
  | cons leaf rest ih =>
      obtain ⟨index, word⟩ := leaf
      unfold collect at filled
      split at filled
      · rename_i existing found
        split at filled
        · cases filled
        · rename_i same
          rw [not_ne_iff] at same
          subst existing
          have next := ih distinct bounded filled
          refine ⟨next.kept, ?_, ?_, next.distinct, next.bounded⟩
          · intro leaf listed
            rcases List.mem_cons.mp listed with rfl | later
            · exact next.kept _ _ found
            · exact next.added leaf later
          · intro place other present
            exact (next.known place other present).imp_right (List.mem_cons_of_mem _)
      · rename_i absent
        split at filled
        · rename_i room
          have fresh : index ∉ byIndex.map Prod.fst := lookup_fresh.mp absent
          have grown : ((byIndex ++ [(index, word)]).map Prod.fst).Nodup := by
            rw [List.map_append, List.map_singleton, ← List.concat_eq_append]
            exact List.Nodup.concat fresh distinct
          have next := ih grown (by rw [List.length_append]; exact room) filled
          refine ⟨?_, ?_, ?_, next.distinct, next.bounded⟩
          · intro place other present
            exact next.kept place other (lookup_snoc.mpr (.inl present))
          · intro leaf listed
            rcases List.mem_cons.mp listed with rfl | later
            · exact next.kept _ _ (lookup_snoc.mpr (.inr ⟨absent, rfl, rfl⟩))
            · exact next.added leaf later
          · intro place other present
            rcases next.known place other present with earlier | later
            · rcases lookup_snoc.mp earlier with before | ⟨_, rfl, rfl⟩
              · exact .inl before
              · exact .inr (List.mem_cons_self ..)
            · exact .inr (List.mem_cons_of_mem _ later)
        · cases filled

theorem length_lt_of_placed {keys : List Nat} {index count : Nat} (distinct : keys.Nodup)
    (within : ∀ key ∈ keys, key < count) (inside : index < count) (fresh : index ∉ keys) :
    keys.length < count := by
  have all : (index :: keys).Nodup := List.nodup_cons.mpr ⟨fresh, distinct⟩
  have subset : index :: keys ⊆ List.range count := by
    intro key listed
    rw [List.mem_range]
    rcases List.mem_cons.mp listed with rfl | earlier
    · exact inside
    · exact within key earlier
  have fewer := all.length_le_of_subset subset
  rw [List.length_cons, List.length_range] at fewer
  exact fewer

/-- Leaves that one sequence places never conflict, nor fill the map. -/
theorem collect_placed (byIndex : List (Nat × Bytes)) {leaves : List Leaf} {words : List Bytes}
    (fits : words.length ≤ mapMaximum) (distinct : (byIndex.map Prod.fst).Nodup)
    (before : ∀ index word, byIndex.lookup index = some word → words[index]? = some word)
    (placed : ∀ leaf ∈ leaves, words[leaf.index]? = some leaf.leaf) :
    ∃ collected, collect byIndex leaves = .ok collected := by
  induction leaves generalizing byIndex with
  | nil => exact ⟨byIndex, rfl⟩
  | cons leaf rest ih =>
      obtain ⟨index, word⟩ := leaf
      rw [List.forall_mem_cons] at placed
      unfold collect
      split
      · rename_i existing found
        have same : existing = word := by
          have twice := before index existing found
          rw [placed.1] at twice
          exact (Option.some.inj twice).symm
        rw [if_neg (not_not_intro same)]
        exact ih byIndex distinct before placed.2
      · rename_i absent
        have fresh : index ∉ byIndex.map Prod.fst := lookup_fresh.mp absent
        have within (key : Nat) (listed : key ∈ byIndex.map Prod.fst) : key < words.length := by
          cases present : byIndex.lookup key with
          | none => exact absurd listed (lookup_fresh.mp present)
          | some other => exact (List.getElem?_eq_some_iff.mp (before key other present)).1
        have inside := (List.getElem?_eq_some_iff.mp placed.1).1
        have fewer := length_lt_of_placed distinct within inside fresh
        rw [List.length_map] at fewer
        rw [if_pos (Nat.lt_of_lt_of_le fewer fits)]
        refine ih _ ?_ ?_ placed.2
        · rw [List.map_append, List.map_singleton, ← List.concat_eq_append]
          exact List.Nodup.concat fresh distinct
        intro place other present
        rcases lookup_snoc.mp present with earlier | ⟨_, rfl, rfl⟩
        · exact before place other earlier
        · exact placed.1

theorem requireContiguous_eq_ok {expected : Nat} {indices : List Nat} {result : Unit} :
    requireContiguous expected indices = .ok result ↔
      indices = List.range' expected indices.length := by
  induction indices generalizing expected with
  | nil => exact ⟨fun _ => rfl, fun _ => rfl⟩
  | cons index rest ih =>
      rw [requireContiguous, List.length_cons, List.range'_succ, List.cons.injEq]
      split
      · rename_i gap
        constructor
        · intro passed
          cases passed
        · intro both
          exact absurd both.1 gap
      · rename_i here
        rw [not_ne_iff] at here
        rw [ih]
        exact ⟨fun later => ⟨here, later⟩, fun both => both.2⟩

theorem mergeSort_eq_range {keys : List Nat} {count : Nat} (distinct : keys.Nodup)
    (fills : ∀ index, index ∈ keys ↔ index < count) :
    keys.mergeSort (· ≤ ·) = List.range count := by
  have sorted : (keys.mergeSort (· ≤ ·)).Pairwise (· ≤ ·) := by
    have pairs := @List.pairwise_mergeSort Nat (fun left right => decide (left ≤ right))
      (by simp only [decide_eq_true_eq]; omega)
      (by simp only [Bool.or_eq_true, decide_eq_true_eq]; omega) keys
    simpa using pairs
  have ascending : (List.range count).Pairwise (· ≤ ·) :=
    List.pairwise_lt_range.imp Nat.le_of_lt
  have same : (keys.mergeSort (· ≤ ·)).Perm (List.range count) := by
    refine (List.mergeSort_perm keys _).trans ?_
    rw [List.perm_ext_iff_of_nodup distinct List.nodup_range]
    intro index
    rw [fills, List.mem_range]
  exact same.eq_of_pairwise (fun _ _ _ _ low high => Nat.le_antisymm low high) sorted ascending

theorem indexed_range (count : Nat) (word : Nat → Bytes) :
    (List.range count).map (fun index => Leaf.mk index (word index)) =
      indexed ((List.range count).map word) := by
  unfold indexed
  apply List.ext_getElem
  · simp
  · intro index _ _
    simp

def Reads (table : List (Nat × Bytes)) (words : List Bytes) : Prop :=
  ∀ index, table.lookup index = words[index]?

theorem Reads.keys {table : List (Nat × Bytes)} {words : List Bytes} (reads : Reads table words)
    (index : Nat) : index ∈ table.map Prod.fst ↔ index < words.length := by
  rw [← not_iff_not, ← lookup_fresh, reads index, List.getElem?_eq_none_iff, Nat.not_lt]

theorem Reads.words_eq {table : List (Nat × Bytes)} {words : List Bytes}
    (reads : Reads table words) :
    (List.range words.length).map (fun index => (table.lookup index).getD []) = words := by
  apply List.ext_getElem
  · simp
  · intro index _ inside
    simp [reads index, List.getElem?_eq_getElem inside]

theorem reads_of_keys {table : List (Nat × Bytes)} {count : Nat}
    (fills : ∀ index, index ∈ table.map Prod.fst ↔ index < count) :
    Reads table ((List.range count).map (fun index => (table.lookup index).getD [])) := by
  intro index
  by_cases inside : index < count
  · have listed := (fills index).mpr inside
    cases present : table.lookup index with
    | none => exact absurd listed (lookup_fresh.mp present)
    | some word => simp [inside, present]
  · have absent := lookup_fresh.mpr (fun listed => inside ((fills index).mp listed))
    rw [absent, List.getElem?_eq_none (by simpa using inside)]

/-- What was collected from nothing reads as the sequence that the leaves list. -/
theorem Collected.lists_iff {leaves : List Leaf} {collected : List (Nat × Bytes)}
    (made : Collected [] leaves collected) (words : List Bytes) :
    Lists leaves words ↔ Reads collected words := by
  have listed (index : Nat) (word : Bytes) :
      collected.lookup index = some word ↔ ⟨index, word⟩ ∈ leaves := by
    constructor
    · intro present
      rcases made.known index word present with impossible | listed
      · cases impossible
      · exact listed
    · intro present
      exact made.added _ present
  constructor
  · intro lists index
    apply Option.ext
    intro word
    rw [listed]
    exact ⟨fun present => lists.placed _ present, lists.complete index word⟩
  · intro reads
    refine ⟨?_, ?_⟩
    · intro leaf present
      rw [← reads]
      exact made.added leaf present
    · intro index word present
      rw [← reads] at present
      exact (listed index word).mp present

/-- A merge accepts exactly the leaves that list a sequence which a map can
hold, and returns it. -/
theorem mergeLeaves_eq_ok {known incoming merged : List Leaf} :
    mergeLeaves known incoming = .ok merged ↔
      ∃ words, Lists (known ++ incoming) words ∧ words.length ≤ mapMaximum ∧
        merged = indexed words := by
  have none_ : (([] : List (Nat × Bytes)).map Prod.fst).Nodup := List.nodup_nil
  simp only [mergeLeaves, Contract.bind_eq_ok, Contract.pure_eq_ok, requireContiguous_eq_ok,
    ← List.range_eq_range']
  constructor
  · intro accepted
    obtain ⟨collected, filled, _, contiguous, rfl⟩ := accepted
    have made := collect_eq_ok none_ (Nat.zero_le _) filled
    have fills (index : Nat) : index ∈ collected.map Prod.fst ↔
        index < ((collected.map Prod.fst).mergeSort (· ≤ ·)).length := by
      rw [← List.mem_range, ← contiguous, List.mem_mergeSort]
    refine ⟨_, (made.lists_iff _).mpr (reads_of_keys fills), ?_, ?_⟩
    · rw [List.length_map, List.length_range, List.length_mergeSort, List.length_map]
      exact made.bounded
    · rw [contiguous, List.length_range]
      exact indexed_range _ _
  · intro accepted
    obtain ⟨words, lists, fits, rfl⟩ := accepted
    obtain ⟨collected, filled⟩ :=
      collect_placed [] fits none_ (fun _ _ impossible => nomatch impossible) lists.placed
    have made := collect_eq_ok none_ (Nat.zero_le _) filled
    have reads := (made.lists_iff words).mp lists
    have sorted := mergeSort_eq_range made.distinct reads.keys
    refine ⟨collected, filled, (), ?_, ?_⟩
    · rw [sorted, List.length_range]
    · rw [sorted, indexed_range, reads.words_eq]

theorem mergeLeaves_indexed {words : List Bytes} (fits : words.length ≤ mapMaximum) :
    mergeLeaves [] (indexed words) = .ok (indexed words) :=
  mergeLeaves_eq_ok.mpr ⟨words, Lists.indexed words, fits, rfl⟩

/-- As a set of pairs, the leaves are a function on an initial segment. -/
structure Enumerates (leaves : List Leaf) (count : Nat) : Prop where
  functional : ∀ leaf ∈ leaves, ∀ other ∈ leaves, leaf.index = other.index →
    leaf.leaf = other.leaf
  domain : ∀ index, (∃ leaf ∈ leaves, leaf.index = index) ↔ index < count

theorem Lists.enumerates {leaves : List Leaf} {words : List Bytes} (lists : Lists leaves words) :
    Enumerates leaves words.length := by
  refine ⟨?_, ?_⟩
  · intro leaf listed other listed' same
    have here := lists.placed leaf listed
    rw [same, lists.placed other listed'] at here
    exact (Option.some.inj here).symm
  · intro index
    constructor
    · intro present
      obtain ⟨leaf, listed, rfl⟩ := present
      exact (List.getElem?_eq_some_iff.mp (lists.placed leaf listed)).1
    · intro inside
      exact ⟨_, lists.complete index _ (List.getElem?_eq_getElem inside), rfl⟩

/-- The word that a list of leaves places first at an index. -/
def wordAt (leaves : List Leaf) (index : Nat) : Bytes :=
  ((leaves.find? (fun leaf => decide (leaf.index = index))).map Leaf.leaf).getD []

theorem Enumerates.wordAt {leaves : List Leaf} {count : Nat} (enumerates : Enumerates leaves count)
    {leaf : Leaf} (listed : leaf ∈ leaves) : wordAt leaves leaf.index = leaf.leaf := by
  unfold Sdk.wordAt
  cases found : leaves.find? (fun other => decide (other.index = leaf.index)) with
  | none =>
      have differs := List.find?_eq_none.mp found leaf listed
      exact absurd (decide_eq_true rfl) differs
  | some other =>
      have chosen := List.find?_some found
      have same : other.index = leaf.index := of_decide_eq_true chosen
      exact enumerates.functional other (List.mem_of_find?_eq_some found) leaf listed same

theorem Enumerates.lists {leaves : List Leaf} {count : Nat}
    (enumerates : Enumerates leaves count) :
    Lists leaves ((List.range count).map (Sdk.wordAt leaves)) := by
  refine ⟨?_, ?_⟩
  · intro leaf listed
    have inside := (enumerates.domain leaf.index).mp ⟨leaf, listed, rfl⟩
    rw [List.getElem?_map, List.getElem?_range inside, Option.map_some, enumerates.wordAt listed]
  · intro index word present
    rw [List.getElem?_map] at present
    obtain ⟨place, inRange, isWord⟩ := Option.map_eq_some_iff.mp present
    obtain ⟨inside, isPlace⟩ := List.getElem?_eq_some_iff.mp inRange
    rw [List.getElem_range] at isPlace
    rw [List.length_range] at inside
    obtain ⟨leaf, listed, rfl⟩ := (enumerates.domain index).mpr inside
    rw [← isPlace, enumerates.wordAt listed] at isWord
    rw [← isWord]
    exact listed

/-! ### Canonical words -/

theorem fieldBytes_eq (count value : Nat) :
    fieldBytes count value = BigEndian.encode count value := by
  have sized (value : Nat) : (fieldBytes count value).length = count := by
    induction count generalizing value with
    | zero => rfl
    | succ count ih => rw [fieldBytes, List.length_append, ih, List.length_singleton]
  apply BigEndian.value_injective
  · rw [sized, BigEndian.encode_length]
  · clear sized
    rw [BigEndian.value_encode_mod]
    induction count generalizing value with
    | zero => rw [pow_zero, Nat.mod_one]; rfl
    | succ count ih =>
        have byte : (UInt8.ofNat (value &&& 0xff)).toNat = value % 256 := by
          have low : value &&& 0xff = value % 256 := Nat.and_two_pow_sub_one_eq_mod value 8
          rw [low, UInt8.toNat_ofNat', Nat.mod_mod]
        have high : value >>> 8 = value / 256 := Nat.shiftRight_eq_div_pow value 8
        rw [fieldBytes, BigEndian.value_append, ih, BigEndian.value, BigEndian.value, byte, high,
          pow_succ', Nat.mod_mul]
        simp only [List.length_nil, List.length_singleton, pow_zero, pow_one]
        omega

theorem fieldToBytes32_bigint (scalar : Fr) :
    fieldToBytes32 (bigint scalar) = .ok (Fr.toBytes scalar).data := by
  have canonical := scalar.isLt
  unfold fieldToBytes32 bigint
  rw [if_neg (by omega), Int.toNat_natCast, fieldBytes_eq]
  rfl

theorem bytesToFieldCanonical_word (scalar : Fr) :
    bytesToFieldCanonical (Fr.toBytes scalar).data = .ok (bigint scalar) := by
  have canonical := scalar.isLt
  have number : bytesToBigIntBE (Fr.toBytes scalar).data = bigint scalar := by
    rw [bytesToBigIntBE_eq]
    exact congrArg Nat.cast (Fr.toBytes_value scalar)
  unfold bytesToFieldCanonical
  rw [if_neg (not_not_intro (Fr.toBytes scalar).size), number, if_neg]
  unfold bigint
  omega

def word (scalar : Fr) : Bytes := (Fr.toBytes scalar).data

theorem word_injective : Function.Injective word := by
  intro left right same
  apply Fr.toBytes_injective
  exact BytesN.value_injective (congrArg BigEndian.value same)

theorem bytesToFieldCanonical_eq_ok {b : Bytes} {value : Int} :
    bytesToFieldCanonical b = .ok value ↔ ∃ scalar, b = word scalar ∧ value = bigint scalar := by
  constructor
  · intro accepted
    unfold bytesToFieldCanonical at accepted
    split at accepted
    · cases accepted
    · rename_i size
      split at accepted
      · cases accepted
      · rename_i canonical
        rw [bytesToBigIntBE_eq] at canonical accepted
        have below : BigEndian.value b < fieldOrder := by omega
        have size : b.length = 32 := not_ne_iff.mp size
        refine ⟨toFr (BigEndian.value b), ?_, ?_⟩
        · apply BigEndian.value_injective
          · exact size.trans (Fr.toBytes _).size.symm
          · exact ((Fr.toBytes_value _).trans (toFr_of_lt below)).symm
        · rw [← Except.ok.inj accepted, bigint, toFr_of_lt below]
  · intro listed
    obtain ⟨scalar, rfl, rfl⟩ := listed
    exact bytesToFieldCanonical_word scalar

theorem insertAll_canonical {tree tree' : IncrementalTree} {leaves : List Leaf}
    (inserted : insertAll tree leaves = .ok tree') :
    ∃ values : List Fr, leaves.map Leaf.leaf = values.map word := by
  induction leaves generalizing tree with
  | nil => exact ⟨[], rfl⟩
  | cons leaf rest ih =>
      obtain ⟨index, leaf⟩ := leaf
      rw [insertAll, Contract.bind_eq_ok] at inserted
      obtain ⟨value, canonical, later⟩ := inserted
      obtain ⟨scalar, isWord, _⟩ := bytesToFieldCanonical_eq_ok.mp canonical
      obtain ⟨values, words⟩ := ih later
      refine ⟨scalar :: values, ?_⟩
      rw [List.map_cons, List.map_cons, words]
      exact congrArg (· :: values.map word) isWord

theorem insertAndFind_insertAll {myStoredLeaf : Bytes} {tree tree' : IncrementalTree}
    {foundIndex lastIndex : Option Nat} {leaves : List Leaf}
    (searched : insertAndFind myStoredLeaf tree foundIndex leaves = .ok (tree', lastIndex)) :
    insertAll tree leaves = .ok tree' := by
  induction leaves generalizing tree foundIndex with
  | nil =>
      obtain ⟨rfl, _⟩ := Prod.mk.inj (Except.ok.inj searched)
      rfl
  | cons leaf rest ih =>
      obtain ⟨index, leaf⟩ := leaf
      rw [insertAndFind, Contract.bind_eq_ok] at searched
      obtain ⟨value, canonical, later⟩ := searched
      rw [insertAll, Contract.bind_eq_ok]
      exact ⟨value, canonical, ih later⟩

theorem insertAll_words {tree : IncrementalTree} {leaves : List Leaf} {values : List Fr}
    (words : leaves.map Leaf.leaf = values.map word) :
    insertAll tree leaves = .ok ⟨tree.leaves ++ values.map bigint⟩ := by
  induction leaves generalizing tree values with
  | nil =>
      obtain rfl : values = [] := List.map_eq_nil_iff.mp words.symm
      rw [List.map_nil, List.append_nil]
      rfl
  | cons leaf rest ih =>
      obtain ⟨index, leaf⟩ := leaf
      cases values with
      | nil => cases words
      | cons value values =>
          obtain ⟨same, later⟩ := List.cons.inj words
          dsimp only at same
          rw [insertAll, same, word, bytesToFieldCanonical_word]
          dsimp only [bind, Except.bind]
          rw [ih later, IncrementalTree.insert, List.map_cons, List.append_assoc]
          rfl

/-- The search ends at a place of the leaf, if the leaf has one. -/
theorem insertAndFind_words (mine : Fr) (tree : IncrementalTree) (foundIndex : Option Nat)
    {leaves : List Leaf} {values : List Fr} (words : leaves.map Leaf.leaf = values.map word) :
    ∃ lastIndex,
      insertAndFind (word mine) tree foundIndex leaves =
        .ok (⟨tree.leaves ++ values.map bigint⟩, lastIndex) ∧
      ((lastIndex = foundIndex ∧ mine ∉ values) ∨
        ∃ offset, lastIndex = some (tree.leaves.length + offset) ∧
          values[offset]? = some mine) := by
  induction leaves generalizing tree foundIndex values with
  | nil =>
      obtain rfl : values = [] := List.map_eq_nil_iff.mp words.symm
      refine ⟨foundIndex, ?_, .inl ⟨rfl, List.not_mem_nil⟩⟩
      rw [List.map_nil, List.append_nil]
      rfl
  | cons leaf rest ih =>
      obtain ⟨index, leaf⟩ := leaf
      cases values with
      | nil => cases words
      | cons value values =>
          obtain ⟨same, later⟩ := List.cons.inj words
          dsimp only at same
          subst leaf
          obtain ⟨lastIndex, searched, place⟩ := ih (tree.insert (bigint value)).2
            (if word value = word mine then some tree.leaves.length else foundIndex) later
          have grown : (tree.insert (bigint value)).2.leaves = tree.leaves ++ [bigint value] := rfl
          refine ⟨lastIndex, ?_, ?_⟩
          · rw [insertAndFind, word, bytesToFieldCanonical_word]
            rw [grown, List.append_assoc] at searched
            exact searched
          · rcases place with ⟨kept, absent⟩ | ⟨offset, found, present⟩
            · by_cases here : value = mine
              · subst mine
                rw [if_pos rfl] at kept
                exact .inr ⟨0, kept, rfl⟩
              · rw [if_neg (fun equal => here (word_injective equal))] at kept
                refine .inl ⟨kept, ?_⟩
                rw [List.mem_cons, not_or]
                exact ⟨Ne.symm here, absent⟩
            · refine .inr ⟨offset + 1, ?_, present⟩
              rw [found, grown, List.length_append, List.length_singleton, Nat.add_assoc,
                Nat.add_comm 1]

section Words

variable (poseidon2Hash : List Fr → Fr) {leaves : List Leaf} {values : List Fr}

theorem merged_words (fits : values.length ≤ mapMaximum)
    (lists : Lists leaves (values.map word)) :
    mergeLeaves [] leaves = .ok (indexed (values.map word)) :=
  mergeLeaves_eq_ok.mpr ⟨_, lists, by rw [List.length_map]; exact fits, rfl⟩

/-- Leaves with a root are no more than a map can hold. -/
theorem rebuildRoot_fits {words : List Bytes} {root : Int} (lists : Lists leaves words)
    (rebuilt : rebuildRoot poseidon2Hash leaves = .ok root) : words.length ≤ mapMaximum := by
  rw [rebuildRoot, Contract.bind_eq_ok] at rebuilt
  obtain ⟨merged, accepted, _⟩ := rebuilt
  obtain ⟨words', lists', fits, _⟩ := mergeLeaves_eq_ok.mp accepted
  rw [lists.unique lists']
  exact fits

theorem indexed_words (words : List Bytes) : (indexed words).map Leaf.leaf = words := by
  apply List.ext_getElem
  · simp [indexed]
  · intro index _ _
    simp [indexed]

theorem rebuildRoot_words (fits : values.length ≤ mapMaximum)
    (lists : Lists leaves (values.map word)) :
    rebuildRoot poseidon2Hash leaves =
      .ok (bigint (HashTree.root (Circuit.hash2 poseidon2Hash) 0 depth values)) := by
  rw [rebuildRoot, merged_words fits lists]
  dsimp only [bind, Except.bind]
  rw [insertAll_words (indexed_words _)]
  exact congrArg Except.ok (IncrementalTree.root_bigint poseidon2Hash values)

/-- A leaf of the pool is located at one of its places, with the way up from it. -/
theorem locateLeaf_words (fits : values.length ≤ mapMaximum)
    (lists : Lists leaves (values.map word)) {mine : Fr}
    (enrolled : mine ∈ values) :
    ∃ index, values[index]? = some mine ∧
      locateLeaf poseidon2Hash leaves (word mine) =
        .ok (some
          { index
            siblings := (HashTree.pathOf (Circuit.hash2 poseidon2Hash)
              (HashTree.padded 0 values) depth 0 index).map (fun stage => bigint stage.2)
            bits := (HashTree.pathOf (Circuit.hash2 poseidon2Hash)
              (HashTree.padded 0 values) depth 0 index).map (fun stage => stage.1.toNat) }) := by
  obtain ⟨lastIndex, searched, ⟨_, absent⟩ | ⟨index, rfl, present⟩⟩ :=
    insertAndFind_words mine .empty none (indexed_words (values.map word))
  · exact absurd enrolled absent
  · obtain ⟨inside, _⟩ := List.getElem?_eq_some_iff.mp present
    refine ⟨index, present, ?_⟩
    rw [locateLeaf, merged_words fits lists]
    dsimp only [bind, Except.bind]
    rw [searched]
    have first : IncrementalTree.empty.leaves.length + index = index := Nat.zero_add index
    have filled : (⟨IncrementalTree.empty.leaves ++ values.map bigint⟩ : IncrementalTree) =
        ⟨values.map bigint⟩ := rfl
    dsimp only
    rw [first, filled, IncrementalTree.pathFor_bigint poseidon2Hash values inside]
    rfl

end Words

end Nido.Sdk
