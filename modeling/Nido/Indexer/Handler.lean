/-
The worker of the pool indexer: scheduled scans over a persistent store, and
the snapshot that it serves.

A scan writes its leaves one by one, lowest index first, and the cursor last; it
may die between any two writes. The snapshot reads all leaves back in the order
of their indices and rebuilds the root from the list, whose places are the
indices only as long as none is missing.
-/

import Mathlib.Data.List.Induction
import Mathlib.Data.List.Sort
import Nido.Indexer.Merkle
import Nido.Library.Keyed
import Nido.Library.Run
import Nido.Sdk.Encoding

namespace Nido.Indexer

open HashTree
open Sdk (Js readDigit)

/-! ### Text -/

/-- `JSON.stringify` of a string. -/
def jsonEscape (c : Char) : List Char :=
  if c.toNat = 0x22 ∨ c.toNat = 0x5c then [Char.ofNat 0x5c, c]
  else if c.toNat = 0x08 then [Char.ofNat 0x5c, 'b']
  else if c.toNat = 0x0c then [Char.ofNat 0x5c, 'f']
  else if c.toNat = 0x0a then [Char.ofNat 0x5c, 'n']
  else if c.toNat = 0x0d then [Char.ofNat 0x5c, 'r']
  else if c.toNat = 0x09 then [Char.ofNat 0x5c, 't']
  else if c.toNat < 0x20 then
    [Char.ofNat 0x5c, 'u', '0', '0', (c.toNat / 16).digitChar, (c.toNat % 16).digitChar]
  else [c]

def jsonString (text : String) : String :=
  String.ofList (Char.ofNat 0x22 :: text.toList.flatMap jsonEscape ++ [Char.ofNat 0x22])

def padStart (text : String) (width : Nat) (fill : Char) : String :=
  String.ofList (text.toList.leftpad width fill)

def hexValue : (read : Nat) → List Char → Option Nat
  | read, [] => some read
  | read, c :: rest =>
      match readDigit 16 c with
      | some digit => hexValue (read * 16 + digit) rest
      | none => none

def hexToFr (hex : String) : Js Int :=
  let s := if hex.toList.take 2 = ['0', 'x'] ∨ hex.toList.take 2 = ['0', 'X'] then
      hex.toList.drop 2
    else
      hex.toList
  match if s.length = 64 then hexValue 0 s else none with
  | none =>
      .error ("hexToFr: expected a 0x-prefixed 32-byte hex string, got " ++ jsonString hex)
  | some value =>
      if value ≥ fieldOrder then
        .error ("hexToFr: value >= field order (non-canonical): " ++ hex)
      else
        .ok value

def frToHex (x : Int) : Js String :=
  if x < 0 ∨ x ≥ fieldOrder then
    .error ("frToHex: value out of canonical range: " ++ toString x)
  else
    .ok ("0x" ++ padStart (String.ofList (Nat.toDigits 16 x.toNat)) 64 '0')

/-! ### The store -/

/-- The namespace `POOL_LEAVES`. -/
abbrev PoolLeaves := Keyed String String

structure LeafRecord where
  index : Nat
  leaf : String
deriving DecidableEq

inductive AppendResult
  | inserted
  | duplicate
  | conflict
deriving DecidableEq

def leafKeyWidth : Nat := 8
def leafPrefix : String := "leaf/"
def rpcCursorKey : String := "meta/rpcCursor"

def leafKey (index : Nat) : String := leafPrefix ++ padStart (toString index) leafKeyWidth '0'

/-- `Number` of what follows the prefix; only decimal digits ever do. -/
def indexFromKey (key : String) : Nat :=
  Nat.ofDigitChars 10 (key.toList.drop leafPrefix.length) 0

def appendLeaf (leaves : PoolLeaves) (index : Nat) (leaf : String) :
    AppendResult × PoolLeaves :=
  match leaves.get (leafKey index) with
  | some existing => (if existing = leaf then .duplicate else .conflict, leaves)
  | none => (.inserted, leaves.put (leafKey index) leaf)

/-- The names under the prefix, in the order of their text. The store hands them
out in pages, which the handler joins again. -/
def listNames (leaves : PoolLeaves) : List String :=
  (leaves.keys.filter (fun key => leafPrefix.toList.isPrefixOf key.toList)).mergeSort
    (fun left right => decide (left ≤ right))

def listLeavesFrom (leaves : PoolLeaves) (from_ : Nat) : List LeafRecord :=
  ((listNames leaves).filterMap (fun name =>
      if indexFromKey name ≥ from_ then
        (leaves.get name).map (fun leaf => ⟨indexFromKey name, leaf⟩)
      else
        none)).mergeSort
    (fun left right => decide (left.index ≤ right.index))

structure Snapshot where
  root : String
  nextIndex : Nat
  leaves : List LeafRecord

/-- `GET /snapshot`. -/
def snapshot (poseidon2Hash : List Fr → Fr) (leaves : PoolLeaves) : Js Snapshot := do
  let records := listLeavesFrom leaves 0
  let values ← records.mapM (fun record => hexToFr record.leaf)
  let root ← frToHex (rebuildRoot poseidon2Hash values depth)
  pure { root, nextIndex := records.length, leaves := records }

/-! ### Scans -/

structure LeafEvent where
  index : Nat
  leaf : String
deriving DecidableEq

inductive Write
  | append (event : LeafEvent)
  | cursor (next : String)

/-- A conflict is logged and otherwise ignored. -/
def Write.perform (leaves : PoolLeaves) : Write → PoolLeaves
  | .append event => (appendLeaf leaves event.index event.leaf).2
  | .cursor next => leaves.put rpcCursorKey next

def runScan (events : List LeafEvent) : List Write :=
  (events.mergeSort (fun left right => decide (left.index ≤ right.index))).map .append

/-- One firing of the cron trigger: whether the contract and the RPC are
configured, what the RPC answers to a cursor (it may throw), and how many writes
the worker survives. -/
structure Scan where
  configured : Bool
  getEvents : Option String → Option (List LeafEvent × Option String)
  survives : Nat

/-- The writes of a scan, the new cursor last; an empty cursor is not stored. -/
def Scan.writes (scan : Scan) (leaves : PoolLeaves) : List Write :=
  if scan.configured = true then
    match scan.getEvents (leaves.get rpcCursorKey) with
    | none => []
    | some (events, lastCursor) =>
        runScan events ++
          ((lastCursor.filter (fun next => decide (next ≠ ""))).map Write.cursor).toList
  else
    []

def scheduled (leaves : PoolLeaves) (scan : Scan) : PoolLeaves :=
  ((scan.writes leaves).take scan.survives).foldl Write.perform leaves

/-- The store after the first scans of a run, each possibly cut short. -/
def storeAfter (run : List Scan) (time : Nat) : PoolLeaves :=
  Run.stateAt (fun leaves scan => some (scheduled leaves scan)) .empty run time

/-! ### Keys and records -/

theorem padStart_toList (text : String) (width : Nat) (fill : Char) :
    (padStart text width fill).toList = text.toList.leftpad width fill := by
  rw [padStart, String.toList_ofList]

theorem leafKey_toList (index : Nat) :
    (leafKey index).toList =
      leafPrefix.toList ++ (Nat.toDigits 10 index).leftpad leafKeyWidth '0' := by
  have digits : (toString index).toList = Nat.toDigits 10 index := Nat.toList_repr
  rw [leafKey, String.toList_append, padStart_toList, digits]

theorem indexFromKey_leafKey (index : Nat) : indexFromKey (leafKey index) = index := by
  have prefix_ : leafPrefix.toList.length = leafPrefix.length := String.length_toList
  rw [indexFromKey, leafKey_toList, List.drop_left' prefix_, List.leftpad,
    Nat.ofDigitChars_append, Nat.ofDigitChars_replicate_zero, Nat.mul_zero,
    Nat.ofDigitChars_ten_toDigits]

theorem leafKey_injective : Function.Injective leafKey := by
  intro left right same
  have numbers := congrArg indexFromKey same
  rw [indexFromKey_leafKey, indexFromKey_leafKey] at numbers
  exact numbers

theorem rpcCursorKey_ne (index : Nat) : leafKey index ≠ rpcCursorKey := by
  intro same
  have texts : (leafKey index).toList.take 4 = rpcCursorKey.toList.take 4 := by rw [same]
  rw [leafKey_toList, List.take_append_of_le_length (by decide)] at texts
  exact absurd texts (by decide)

def Recorded (leaves : PoolLeaves) (index : Nat) : Prop :=
  ∃ leaf, leaves.get (leafKey index) = some leaf

theorem appendLeaf_get (leaves : PoolLeaves) (event : LeafEvent) (key : String) :
    (appendLeaf leaves event.index event.leaf).2.get key =
      if key = leafKey event.index ∧ leaves.get key = none then some event.leaf
      else leaves.get key := by
  unfold appendLeaf
  split
  · rename_i existing found
    dsimp only
    rw [if_neg]
    rintro ⟨rfl, absent⟩
    rw [found] at absent
    cases absent
  · rename_i absent
    dsimp only
    rw [Keyed.get_put]
    by_cases same : key = leafKey event.index
    · rw [if_pos same, if_pos ⟨same, by rw [same, absent]⟩]
    · rw [if_neg same, if_neg (fun both => same both.1)]

theorem append_recorded {leaves : PoolLeaves} {event : LeafEvent} {index : Nat} :
    Recorded (Write.perform leaves (.append event)) index ↔
      Recorded leaves index ∨ index = event.index := by
  unfold Recorded Write.perform
  dsimp only
  rw [appendLeaf_get]
  split
  · rename_i new
    have same : index = event.index := leafKey_injective new.1
    simp [same]
  · rename_i old
    constructor
    · intro recorded
      exact Or.inl recorded
    · intro either
      rcases either with recorded | rfl
      · exact recorded
      · cases present : leaves.get (leafKey event.index) with
        | none => exact absurd ⟨rfl, present⟩ old
        | some leaf => exact ⟨leaf, rfl⟩

theorem cursor_get (leaves : PoolLeaves) (next : String) (index : Nat) :
    (Write.perform leaves (.cursor next)).get (leafKey index) = leaves.get (leafKey index) :=
  leaves.get_put_of_ne next (rpcCursorKey_ne index)

theorem perform_get {leaves : PoolLeaves} {index : Nat} {leaf : String}
    (stored : leaves.get (leafKey index) = some leaf) (write : Write) :
    (Write.perform leaves write).get (leafKey index) = some leaf := by
  cases write with
  | append event =>
      unfold Write.perform
      dsimp only
      rw [appendLeaf_get, if_neg]
      · exact stored
      · rintro ⟨_, absent⟩
        rw [stored] at absent
        cases absent
  | cursor next => rw [cursor_get, stored]

theorem foldl_get {leaves : PoolLeaves} {index : Nat} {leaf : String}
    (stored : leaves.get (leafKey index) = some leaf) (writes : List Write) :
    (writes.foldl Write.perform leaves).get (leafKey index) = some leaf := by
  induction writes generalizing leaves with
  | nil => exact stored
  | cons write rest ih => exact ih (perform_get stored write)

/-- The store holds the cursor and leaves of the tree, nothing else. -/
def Keys (leaves : PoolLeaves) : Prop :=
  ∀ key leaf, leaves.get key = some leaf →
    key = rpcCursorKey ∨ ∃ index < 2 ^ depth, key = leafKey index

theorem Keys.perform {leaves : PoolLeaves} (keys : Keys leaves) {write : Write}
    (bounded : ∀ event, write = .append event → event.index < 2 ^ depth) :
    Keys (Write.perform leaves write) := by
  intro key leaf stored
  cases write with
  | append event =>
      unfold Write.perform at stored
      dsimp only at stored
      rw [appendLeaf_get] at stored
      split at stored
      · rename_i new
        exact Or.inr ⟨event.index, bounded event rfl, new.1⟩
      · exact keys key leaf stored
  | cursor next =>
      unfold Write.perform at stored
      dsimp only at stored
      rw [Keyed.get_put] at stored
      split at stored
      · rename_i same
        exact Or.inl same
      · exact keys key leaf stored

theorem Keys.foldl {leaves : PoolLeaves} (keys : Keys leaves) {writes : List Write}
    (bounded : ∀ event, .append event ∈ writes → event.index < 2 ^ depth) :
    Keys (writes.foldl Write.perform leaves) := by
  induction writes generalizing leaves with
  | nil => exact keys
  | cons write rest ih =>
      apply ih
      · apply keys.perform
        rintro event rfl
        exact bounded event (List.mem_cons_self ..)
      · intro event listed
        exact bounded event (List.mem_cons_of_mem _ listed)

theorem mem_listNames {leaves : PoolLeaves} (keys : Keys leaves) {name : String} :
    name ∈ listNames leaves ↔ ∃ index, name = leafKey index ∧ Recorded leaves index := by
  rw [listNames, List.mem_mergeSort, List.mem_filter, Keyed.mem_keys]
  constructor
  · intro both
    obtain ⟨⟨leaf, stored⟩, hasPrefix⟩ := both
    rcases keys name leaf stored with rfl | ⟨index, _, rfl⟩
    · exact absurd hasPrefix (by decide)
    · exact ⟨index, rfl, leaf, stored⟩
  · intro recorded
    obtain ⟨index, rfl, leaf, stored⟩ := recorded
    refine ⟨⟨leaf, stored⟩, ?_⟩
    rw [leafKey_toList, List.isPrefixOf_iff_prefix]
    exact List.prefix_append _ _

theorem mem_listLeavesFrom {leaves : PoolLeaves} (keys : Keys leaves) {from_ : Nat}
    {record : LeafRecord} :
    record ∈ listLeavesFrom leaves from_ ↔
      from_ ≤ record.index ∧ leaves.get (leafKey record.index) = some record.leaf := by
  rw [listLeavesFrom, List.mem_mergeSort, List.mem_filterMap]
  constructor
  · intro listed
    obtain ⟨name, isName, read⟩ := listed
    obtain ⟨index, rfl, _⟩ := (mem_listNames keys).mp isName
    rw [indexFromKey_leafKey] at read
    split at read
    · rename_i inside
      obtain ⟨leaf, stored, rfl⟩ := Option.map_eq_some_iff.mp read
      exact ⟨inside, stored⟩
    · cases read
  · intro stored
    obtain ⟨inside, stored⟩ := stored
    refine ⟨leafKey record.index, (mem_listNames keys).mpr ⟨_, rfl, _, stored⟩, ?_⟩
    rw [indexFromKey_leafKey, if_pos inside, stored]
    rfl

theorem listNames_nodup (leaves : PoolLeaves) : (listNames leaves).Nodup := by
  rw [listNames, List.Perm.nodup_iff (List.mergeSort_perm _ _)]
  exact leaves.distinct.filter _

theorem listLeavesFrom_ascending {leaves : PoolLeaves} (keys : Keys leaves) (from_ : Nat) :
    (listLeavesFrom leaves from_).Pairwise (fun left right => left.index < right.index) := by
  have sorted : (listLeavesFrom leaves from_).Pairwise
      (fun left right => left.index ≤ right.index) := by
    have pairs := @List.pairwise_mergeSort LeafRecord
      (fun left right => decide (left.index ≤ right.index))
      (by simp only [decide_eq_true_eq]; omega)
      (by simp only [Bool.or_eq_true, decide_eq_true_eq]; omega)
      ((listNames leaves).filterMap (fun name =>
        if indexFromKey name ≥ from_ then
          (leaves.get name).map (fun leaf => LeafRecord.mk (indexFromKey name) leaf)
        else
          none))
    simpa [listLeavesFrom] using pairs
  have distinct : (listLeavesFrom leaves from_).Pairwise
      (fun left right => left.index ≠ right.index) := by
    rw [listLeavesFrom, List.Perm.pairwise_iff (fun different => Ne.symm different)
      (List.mergeSort_perm _ _), List.pairwise_filterMap]
    apply List.Pairwise.imp_of_mem _ (listNames_nodup leaves)
    intro left right isLeft isRight different record read record' read' same
    obtain ⟨index, rfl, _⟩ := (mem_listNames keys).mp isLeft
    obtain ⟨index', rfl, _⟩ := (mem_listNames keys).mp isRight
    rw [indexFromKey_leafKey] at read read'
    have first : record.index = index := by
      split at read
      · obtain ⟨_, _, rfl⟩ := Option.map_eq_some_iff.mp read
        rfl
      · cases read
    have second : record'.index = index' := by
      split at read'
      · obtain ⟨_, _, rfl⟩ := Option.map_eq_some_iff.mp read'
        rfl
      · cases read'
    exact different (congrArg leafKey (first.symm.trans (same.trans second)))
  exact (sorted.and distinct).imp (fun both => Nat.lt_of_le_of_ne both.1 both.2)

theorem ascending_eq_range {indices : List Nat} (ascending : indices.Pairwise (· < ·))
    (closed : ∀ index ∈ indices, ∀ lower < index, lower ∈ indices) :
    indices = List.range indices.length := by
  induction indices using List.reverseRecOn with
  | nil => rfl
  | append_singleton earlier last ih =>
      rw [List.pairwise_append] at ascending
      obtain ⟨before, _, below⟩ := ascending
      have under (index : Nat) (listed : index ∈ earlier) : index < last :=
        below index listed last (List.mem_singleton_self _)
      have earlierClosed : ∀ index ∈ earlier, ∀ lower < index, lower ∈ earlier := by
        intro index listed lower less
        have found := closed index (List.mem_append_left _ listed) lower less
        rcases List.mem_append.mp found with inside | atEnd
        · exact inside
        · have bound := under index listed
          rw [List.mem_singleton.mp atEnd] at less
          omega
      have range := ih before earlierClosed
      have mem (index : Nat) : index ∈ earlier ↔ index < earlier.length := by
        rw [range, List.length_range]
        exact List.mem_range
      have atLeast : earlier.length ≤ last := by
        by_cases short : last < earlier.length
        · have impossible := under last ((mem last).mpr short)
          omega
        · omega
      have atMost : last ≤ earlier.length := by
        by_cases long : earlier.length < last
        · have found := closed last (List.mem_append_right _ (List.mem_singleton_self _))
            earlier.length long
          rcases List.mem_append.mp found with inside | atEnd
          · have impossible := (mem _).mp inside
            omega
          · have same := List.mem_singleton.mp atEnd
            omega
        · omega
      have isLast : last = earlier.length := by omega
      rw [List.length_append, List.length_singleton, List.range_succ, ← range, isLast]

end Nido.Indexer
