/-
When a snapshot is what it says.

Its root should be the root of the tree that holds every stored leaf under its
own index, and its next index one past the largest of them. A list read back in
order agrees with that exactly when no index is missing, and scans that leave no
gap keep it so, wherever they are cut short.
-/

import Nido.Indexer.Handler

namespace Nido.Indexer

open HashTree
open Sdk (Js bigint)
open Contract (bind_eq_ok pure_eq_ok)

def leafAt (leaves : PoolLeaves) (index : Nat) : Int :=
  match leaves.get (leafKey index) with
  | none => 0
  | some hex =>
      match hexToFr hex with
      | .ok value => reduceMod value
      | .error _ => 0

/-- The snapshot speaks of the tree in which each leaf stands under its own index. -/
structure Sound (poseidon2Hash : List Fr → Fr) (leaves : PoolLeaves) (answer : Snapshot) :
    Prop where
  root : frToHex (node (p2raw poseidon2Hash) (leafAt leaves) depth 0) = .ok answer.root
  above : ∀ index, Recorded leaves index → index < answer.nextIndex
  largest : answer.nextIndex = 0 ∨ Recorded leaves (answer.nextIndex - 1)
  placed : ∀ (place : Nat) (record : LeafRecord),
    answer.leaves[place]? = some record → record.index = place

/-- No index is missing below a recorded one. -/
def Contiguous (leaves : PoolLeaves) : Prop :=
  ∀ index, Recorded leaves index → ∀ lower < index, Recorded leaves lower

/-! ### The list read back -/

theorem mapM_eq_ok {α β : Type} {read : α → Js β} {items : List α} {results : List β} :
    items.mapM read = .ok results ↔ List.Forall₂ (fun item result => read item = .ok result)
      items results := by
  induction items generalizing results with
  | nil =>
      rw [List.mapM_nil, pure_eq_ok, List.forall₂_nil_left_iff]
      exact eq_comm
  | cons item rest ih =>
      simp only [List.mapM_cons, bind_eq_ok, pure_eq_ok]
      constructor
      · intro accepted
        obtain ⟨result, first, results', later, rfl⟩ := accepted
        exact List.Forall₂.cons first (ih.mp later)
      · intro accepted
        cases accepted with
        | cons first later => exact ⟨_, first, _, ih.mpr later, rfl⟩

/-- What the route answers, and when it answers at all. -/
theorem snapshot_eq_ok {poseidon2Hash : List Fr → Fr} {leaves : PoolLeaves} {answer : Snapshot} :
    snapshot poseidon2Hash leaves = .ok answer ↔
      ∃ values, List.Forall₂ (fun record value => hexToFr record.leaf = .ok value)
          (listLeavesFrom leaves 0) values ∧
        frToHex (rebuildRoot poseidon2Hash values depth) = .ok answer.root ∧
        answer.nextIndex = (listLeavesFrom leaves 0).length ∧
        answer.leaves = listLeavesFrom leaves 0 := by
  obtain ⟨root, nextIndex, records⟩ := answer
  simp only [snapshot, bind_eq_ok, pure_eq_ok, mapM_eq_ok, Snapshot.mk.injEq]
  constructor
  · intro accepted
    obtain ⟨values, read, hex, rebuilt, rfl, rfl, rfl⟩ := accepted
    exact ⟨values, read, rebuilt, rfl, rfl⟩
  · intro conditions
    obtain ⟨values, read, rebuilt, rfl, rfl⟩ := conditions
    exact ⟨values, read, _, rebuilt, rfl, rfl, rfl⟩

theorem frToHex_bigint (scalar : Fr) : ∃ hex, frToHex (bigint scalar) = .ok hex := by
  have canonical := scalar.isLt
  unfold frToHex bigint
  rw [if_neg (by omega)]
  exact ⟨_, rfl⟩

section Records

variable {leaves : PoolLeaves} (keys : Keys leaves)

include keys

theorem records_recorded (index : Nat) :
    index ∈ (listLeavesFrom leaves 0).map LeafRecord.index ↔ Recorded leaves index := by
  rw [List.mem_map]
  constructor
  · intro listed
    obtain ⟨record, isRecord, rfl⟩ := listed
    exact ⟨record.leaf, ((mem_listLeavesFrom keys).mp isRecord).2⟩
  · intro recorded
    obtain ⟨leaf, stored⟩ := recorded
    exact ⟨⟨index, leaf⟩, (mem_listLeavesFrom keys).mpr ⟨Nat.zero_le _, stored⟩, rfl⟩

theorem indices_ascending :
    ((listLeavesFrom leaves 0).map LeafRecord.index).Pairwise (· < ·) := by
  rw [List.pairwise_map]
  exact listLeavesFrom_ascending keys 0

theorem Contiguous.indices (contiguous : Contiguous leaves) :
    (listLeavesFrom leaves 0).map LeafRecord.index =
      List.range (listLeavesFrom leaves 0).length := by
  have range := ascending_eq_range (indices_ascending keys) (by
    intro index listed lower less
    rw [records_recorded keys] at listed ⊢
    exact contiguous index listed lower less)
  rw [List.length_map] at range
  exact range

theorem Contiguous.recorded_iff (contiguous : Contiguous leaves) (index : Nat) :
    Recorded leaves index ↔ index < (listLeavesFrom leaves 0).length := by
  rw [← records_recorded keys, contiguous.indices keys, List.mem_range]

theorem Contiguous.fits (contiguous : Contiguous leaves) :
    (listLeavesFrom leaves 0).length ≤ 2 ^ depth := by
  by_cases fits : (listLeavesFrom leaves 0).length ≤ 2 ^ depth
  · exact fits
  · have recorded := (contiguous.recorded_iff keys (2 ^ depth)).mpr (Nat.lt_of_not_le fits)
    obtain ⟨leaf, stored⟩ := recorded
    rcases keys _ _ stored with same | ⟨index, inside, same⟩
    · exact absurd same (rpcCursorKey_ne _)
    · rw [leafKey_injective same] at inside
      exact absurd inside (Nat.lt_irrefl _)

theorem Contiguous.placed (contiguous : Contiguous leaves) {place : Nat} {record : LeafRecord}
    (present : (listLeavesFrom leaves 0)[place]? = some record) : record.index = place := by
  have mapped : ((listLeavesFrom leaves 0).map LeafRecord.index)[place]? = some record.index := by
    rw [List.getElem?_map, present]
    rfl
  obtain ⟨inside, _⟩ := List.getElem?_eq_some_iff.mp present
  rw [contiguous.indices keys, List.getElem?_range inside] at mapped
  exact (Option.some.inj mapped).symm

theorem Contiguous.padded_eq (contiguous : Contiguous leaves) {values : List Int}
    (read : List.Forall₂ (fun record value => hexToFr record.leaf = .ok value)
      (listLeavesFrom leaves 0) values) (index : Nat) :
    padded 0 (values.map reduceMod) index = leafAt leaves index := by
  have lengths := read.length_eq
  by_cases inside : index < (listLeavesFrom leaves 0).length
  · have place := contiguous.placed keys (List.getElem?_eq_getElem inside)
    have stored := ((mem_listLeavesFrom keys).mp (List.getElem_mem inside)).2
    have value := read.get inside (by rw [← lengths]; exact inside)
    rw [List.get_eq_getElem, List.get_eq_getElem] at value
    rw [place] at stored
    rw [leafAt, stored]
    dsimp only
    rw [value, padded, List.getD_eq_getElem _ _ (by rw [List.length_map, ← lengths]; exact inside),
      List.getElem_map]
  · have absent : leaves.get (leafKey index) = none := by
      cases present : leaves.get (leafKey index) with
      | none => rfl
      | some leaf =>
          exact absurd ((contiguous.recorded_iff keys index).mp ⟨leaf, present⟩) inside
    rw [leafAt, absent, padded,
      List.getD_eq_default _ _ (by rw [List.length_map, ← lengths]; exact Nat.le_of_not_lt inside)]

/-- One answer, exactly. -/
theorem sound_iff_contiguous {poseidon2Hash : List Fr → Fr} {answer : Snapshot}
    (answers : snapshot poseidon2Hash leaves = .ok answer) :
    Sound poseidon2Hash leaves answer ↔ Contiguous leaves := by
  obtain ⟨values, read, isRoot, isNext, isLeaves⟩ := snapshot_eq_ok.mp answers
  constructor
  · intro sound index recorded lower less
    have below := sound.above index recorded
    rw [isNext] at below
    have inside : lower < (listLeavesFrom leaves 0).length := Nat.lt_trans less below
    have place := sound.placed lower (listLeavesFrom leaves 0)[lower] (by
      rw [isLeaves]
      exact List.getElem?_eq_getElem inside)
    rw [← records_recorded keys, List.mem_map]
    exact ⟨_, List.getElem_mem inside, place⟩
  · intro contiguous
    have lengths := read.length_eq
    refine ⟨?_, ?_, ?_, ?_⟩
    · have whole : padded 0 (values.map reduceMod) = leafAt leaves :=
        funext (contiguous.padded_eq keys read)
      rw [← isRoot, rebuildRoot_eq poseidon2Hash depth values
        (by rw [← lengths]; exact contiguous.fits keys), HashTree.root, whole]
    · intro index recorded
      rw [isNext]
      exact (contiguous.recorded_iff keys index).mp recorded
    · rw [isNext]
      rcases Nat.eq_zero_or_pos (listLeavesFrom leaves 0).length with none_ | some_
      · exact Or.inl none_
      · exact Or.inr ((contiguous.recorded_iff keys _).mpr (by omega))
    · intro place record present
      rw [isLeaves] at present
      exact contiguous.placed keys present

end Records

/-! ### When a snapshot answers -/

theorem insertLevels_canonical (poseidon2Hash : List Fr → Fr) (zeros : List Int) (idx : Nat)
    (remaining level : Nat) (cur : Int) (frontier : List Int)
    (canonical : 0 < remaining ∨ ∃ scalar, cur = bigint scalar) :
    ∃ scalar, (insertLevels poseidon2Hash zeros idx remaining level cur frontier).1 =
      bigint scalar := by
  induction remaining generalizing level cur frontier with
  | zero =>
      rcases canonical with impossible | done
      · exact absurd impossible (Nat.lt_irrefl 0)
      · exact done
  | succ remaining ih =>
      unfold insertLevels
      split
      · exact ih _ _ _ (Or.inr ⟨_, rfl⟩)
      · exact ih _ _ _ (Or.inr ⟨_, rfl⟩)

theorem replay_canonical (poseidon2Hash : List Fr → Fr) (zeros : List Int) (idx : Nat) (root : Int)
    (frontier leaves : List Int) (canonical : ∃ scalar, root = bigint scalar) :
    ∃ scalar, replay poseidon2Hash zeros depth idx root frontier leaves = bigint scalar := by
  induction leaves generalizing idx root frontier with
  | nil => exact canonical
  | cons leaf rest ih =>
      have inserted := insertLevels_canonical poseidon2Hash zeros idx depth 0 (reduceMod leaf)
        frontier (Or.inl (by decide))
      exact ih _ _ _ inserted

theorem rebuildRoot_canonical (poseidon2Hash : List Fr → Fr) (leaves : List Int) :
    ∃ scalar, rebuildRoot poseidon2Hash leaves depth = bigint scalar := by
  have empty : ∃ scalar, (computeZeros poseidon2Hash depth).getD depth 0 = bigint scalar := by
    rw [computeZeros, zerosFrom_getD poseidon2Hash depth depth 0 (Nat.le_refl _)]
    exact ⟨_, rfl⟩
  unfold rebuildRoot
  dsimp only
  split
  · exact empty
  · exact replay_canonical poseidon2Hash _ 0 _ _ leaves empty

/-- Only a stored text that is no canonical leaf keeps the route from answering. -/
theorem snapshot_answers (poseidon2Hash : List Fr → Fr) {leaves : PoolLeaves} (keys : Keys leaves)
    (canonical : ∀ index leaf, leaves.get (leafKey index) = some leaf →
      ∃ value, hexToFr leaf = .ok value) :
    ∃ answer, snapshot poseidon2Hash leaves = .ok answer := by
  have read (records : List LeafRecord) (listed : ∀ record ∈ records,
      record ∈ listLeavesFrom leaves 0) :
      ∃ values, List.Forall₂ (fun record value => hexToFr record.leaf = .ok value) records
        values := by
    induction records with
    | nil => exact ⟨[], List.Forall₂.nil⟩
    | cons record rest ih =>
        obtain ⟨values, later⟩ :=
          ih (fun other isOther => listed other (List.mem_cons_of_mem _ isOther))
        have stored := ((mem_listLeavesFrom keys).mp (listed record (List.mem_cons_self ..))).2
        obtain ⟨value, isValue⟩ := canonical _ _ stored
        exact ⟨value :: values, List.Forall₂.cons isValue later⟩
  obtain ⟨values, isValues⟩ := read (listLeavesFrom leaves 0) (fun _ listed => listed)
  obtain ⟨scalar, isScalar⟩ := rebuildRoot_canonical poseidon2Hash values
  obtain ⟨hex, isHex⟩ := frToHex_bigint scalar
  rw [← isScalar] at isHex
  exact ⟨⟨hex, _, _⟩, snapshot_eq_ok.mpr ⟨values, isValues, isHex, rfl, rfl⟩⟩

/-! ### Runs of scans -/

/-- The contract emits no index beyond the capacity of its tree. -/
def Scan.Bounded (scan : Scan) : Prop :=
  ∀ cursor events next, scan.getEvents cursor = some (events, next) →
    ∀ event ∈ events, event.index < 2 ^ depth

/-- What a scan returns leaves no gap above what is stored when it starts. -/
def Scan.Continues (scan : Scan) (leaves : PoolLeaves) : Prop :=
  ∀ events next, scan.getEvents (leaves.get rpcCursorKey) = some (events, next) →
    ∀ event ∈ events, ∀ lower < event.index,
      Recorded leaves lower ∨ ∃ other ∈ events, other.index = lower

/-- The leaf was among the events of some scan, under its own index. -/
def Delivered (run : List Scan) (index : Nat) (leaf : String) : Prop :=
  ∃ scan ∈ run, ∃ cursor events next, scan.getEvents cursor = some (events, next) ∧
    ⟨index, leaf⟩ ∈ events

theorem mem_writes {scan : Scan} {leaves : PoolLeaves} {event : LeafEvent}
    (listed : Write.append event ∈ scan.writes leaves) :
    ∃ events next, scan.getEvents (leaves.get rpcCursorKey) = some (events, next) ∧
      event ∈ events := by
  unfold Scan.writes at listed
  split at listed
  · split at listed
    · cases listed
    · rename_i events next answered
      rcases List.mem_append.mp listed with isAppend | isCursor
      · obtain ⟨other, sorted, same⟩ := List.mem_map.mp isAppend
        cases same
        exact ⟨events, next, answered, List.mem_mergeSort.mp sorted⟩
      · rw [Option.mem_toList] at isCursor
        obtain ⟨_, _, impossible⟩ := Option.map_eq_some_iff.mp isCursor
        cases impossible
  · cases listed

/-- Appending in the order of the indices never opens a gap that is not filled
already: the induction goes along the events, whatever is cut off. -/
theorem foldl_contiguous {leaves : PoolLeaves} {events : List LeafEvent} (count : Nat)
    (sorted : events.Pairwise (fun left right => left.index ≤ right.index))
    (contiguous : Contiguous leaves)
    (continues : ∀ event ∈ events, ∀ lower < event.index,
      Recorded leaves lower ∨ ∃ other ∈ events, other.index = lower) :
    Contiguous (((events.map Write.append).take count).foldl Write.perform leaves) := by
  induction events generalizing leaves count with
  | nil =>
      rw [List.map_nil, List.take_nil]
      exact contiguous
  | cons first rest ih =>
      obtain ⟨least, sorted⟩ := List.pairwise_cons.mp sorted
      cases count with
      | zero => exact contiguous
      | succ count =>
          rw [List.map_cons, List.take_succ_cons, List.foldl_cons]
          apply ih count sorted
          · intro index recorded lower less
            rw [append_recorded] at recorded ⊢
            rcases recorded with already | rfl
            · exact Or.inl (contiguous index already lower less)
            · rcases continues first (List.mem_cons_self ..) lower less with
                stored | ⟨other, listed, same⟩
              · exact Or.inl stored
              · rcases List.mem_cons.mp listed with rfl | later
                · omega
                · have order := least other later
                  omega
          · intro event listed lower less
            rcases continues event (List.mem_cons_of_mem _ listed) lower less with
              stored | ⟨other, isEvent, same⟩
            · exact Or.inl (append_recorded.mpr (Or.inl stored))
            · rcases List.mem_cons.mp isEvent with rfl | later
              · exact Or.inl (append_recorded.mpr (Or.inr same.symm))
              · exact Or.inr ⟨other, later, same⟩

theorem cursor_contiguous {leaves : PoolLeaves} (contiguous : Contiguous leaves)
    (next : Option String) (count : Nat) :
    Contiguous (((next.map Write.cursor).toList.take count).foldl Write.perform leaves) := by
  cases next with
  | none =>
      rw [Option.map_none, Option.toList_none, List.take_nil]
      exact contiguous
  | some next =>
      cases count with
      | zero => exact contiguous
      | succ count =>
          rw [Option.map_some, Option.toList_some, List.take_succ_cons, List.take_nil]
          intro index recorded lower less
          unfold Recorded at recorded ⊢
          rw [List.foldl_cons, List.foldl_nil, cursor_get] at recorded ⊢
          exact contiguous index recorded lower less

theorem scheduled_contiguous {leaves : PoolLeaves} {scan : Scan} (contiguous : Contiguous leaves)
    (continues : scan.Continues leaves) : Contiguous (scheduled leaves scan) := by
  unfold scheduled Scan.writes
  split
  · split
    · rw [List.take_nil]
      exact contiguous
    · rename_i events next answered
      have sorted : (events.mergeSort (fun left right => decide (left.index ≤ right.index))).Pairwise
          (fun left right => left.index ≤ right.index) := by
        have pairs := @List.pairwise_mergeSort LeafEvent
          (fun left right => decide (left.index ≤ right.index))
          (by simp only [decide_eq_true_eq]; omega)
          (by simp only [Bool.or_eq_true, decide_eq_true_eq]; omega) events
        simpa using pairs
      have appended := foldl_contiguous scan.survives sorted contiguous (by
        intro event listed lower less
        rw [List.mem_mergeSort] at listed
        rcases continues events next answered event listed lower less with
          stored | ⟨other, isEvent, same⟩
        · exact Or.inl stored
        · exact Or.inr ⟨other, List.mem_mergeSort.mpr isEvent, same⟩)
      rw [List.take_append, List.foldl_append]
      exact cursor_contiguous appended _ _
  · rw [List.take_nil]
    exact contiguous

theorem scheduled_keys {leaves : PoolLeaves} {scan : Scan} (keys : Keys leaves)
    (bounded : scan.Bounded) : Keys (scheduled leaves scan) := by
  apply keys.foldl
  intro event listed
  obtain ⟨events, next, answered, isEvent⟩ := mem_writes (List.mem_of_mem_take listed)
  exact bounded _ events next answered event isEvent

theorem perform_delivered {leaves : PoolLeaves} {write : Write} {index : Nat} {leaf : String}
    (stored : (Write.perform leaves write).get (leafKey index) = some leaf) :
    leaves.get (leafKey index) = some leaf ∨ write = .append ⟨index, leaf⟩ := by
  cases write with
  | append event =>
      unfold Write.perform at stored
      dsimp only at stored
      rw [appendLeaf_get] at stored
      split at stored
      · rename_i new
        have same : index = event.index := leafKey_injective new.1
        obtain ⟨place, text⟩ := event
        dsimp only at same stored
        rw [same, Option.some.inj stored]
        exact Or.inr rfl
      · exact Or.inl stored
  | cursor next =>
      rw [cursor_get] at stored
      exact Or.inl stored

theorem foldl_delivered {leaves : PoolLeaves} {writes : List Write} {index : Nat} {leaf : String}
    (stored : (writes.foldl Write.perform leaves).get (leafKey index) = some leaf) :
    leaves.get (leafKey index) = some leaf ∨ .append ⟨index, leaf⟩ ∈ writes := by
  induction writes generalizing leaves with
  | nil => exact Or.inl stored
  | cons write rest ih =>
      rcases ih stored with before | later
      · rcases perform_delivered before with already | now
        · exact Or.inl already
        · exact Or.inr (now ▸ List.mem_cons_self ..)
      · exact Or.inr (List.mem_cons_of_mem _ later)

theorem storeAfter_invariant {run : List Scan} (Inv : PoolLeaves → Prop) (initial : Inv .empty)
    (preserved : ∀ (time : Nat) (scan : Scan), run[time]? = some scan →
      Inv (storeAfter run time) → Inv (scheduled (storeAfter run time) scan)) (time : Nat) :
    Inv (storeAfter run time) := by
  apply Run.invariant initial
  intro time scan after before accepted
  rw [← Option.some.inj accepted.steps]
  exact preserved time scan accepted.input_at before

theorem keys_storeAfter {run : List Scan} (bounded : ∀ scan ∈ run, scan.Bounded) (time : Nat) :
    Keys (storeAfter run time) := by
  refine storeAfter_invariant Keys ?_ ?_ time
  · intro key leaf impossible
    cases impossible
  · intro time scan present keys
    exact scheduled_keys keys (bounded scan (List.mem_of_getElem? present))

theorem contiguous_storeAfter {run : List Scan}
    (continues : ∀ (time : Nat) (scan : Scan), run[time]? = some scan →
      scan.Continues (storeAfter run time)) (time : Nat) :
    Contiguous (storeAfter run time) := by
  refine storeAfter_invariant Contiguous ?_ ?_ time
  · intro index impossible
    obtain ⟨_, impossible⟩ := impossible
    cases impossible
  · intro time scan present contiguous
    exact scheduled_contiguous contiguous (continues time scan present)

theorem delivered_storeAfter {run : List Scan} (time : Nat) :
    ∀ index leaf, (storeAfter run time).get (leafKey index) = some leaf →
      Delivered run index leaf := by
  refine storeAfter_invariant (fun leaves => ∀ index leaf,
    leaves.get (leafKey index) = some leaf → Delivered run index leaf) ?_ ?_ time
  · intro index leaf impossible
    cases impossible
  · intro time scan present delivered index leaf stored
    rcases foldl_delivered stored with already | written
    · exact delivered index leaf already
    · obtain ⟨events, next, answered, listed⟩ := mem_writes (List.mem_of_mem_take written)
      exact ⟨scan, List.mem_of_getElem? present, _, events, next, answered, listed⟩

theorem stored_persists {run : List Scan} {early late : Nat} (ordered : early ≤ late)
    {index : Nat} {leaf : String}
    (stored : (storeAfter run early).get (leafKey index) = some leaf) :
    (storeAfter run late).get (leafKey index) = some leaf := by
  refine @Run.persistent _ _ (fun leaves scan => some (scheduled leaves scan)) .empty run
    (fun leaves => leaves.get (leafKey index) = some leaf) ?_ early late ordered stored
  intro leaves scan after before accepted
  rw [← Option.some.inj accepted]
  exact foldl_get before _

/-- Leaves are stored once and for all, each under an index that it was
delivered for; the answer is right as long as the scans leave no gap. -/
theorem snapshot_sound (poseidon2Hash : List Fr → Fr) (run : List Scan)
    (bounded : ∀ scan ∈ run, scan.Bounded) :
    (∀ time answer, snapshot poseidon2Hash (storeAfter run time) = .ok answer →
      (∀ record, record ∈ answer.leaves ↔
        (storeAfter run time).get (leafKey record.index) = some record.leaf) ∧
      (Sound poseidon2Hash (storeAfter run time) answer ↔ Contiguous (storeAfter run time))) ∧
    ((∀ (time : Nat) (scan : Scan), run[time]? = some scan →
        scan.Continues (storeAfter run time)) →
      ∀ time answer, snapshot poseidon2Hash (storeAfter run time) = .ok answer →
        Sound poseidon2Hash (storeAfter run time) answer) ∧
    (∀ time index leaf, (storeAfter run time).get (leafKey index) = some leaf →
      Delivered run index leaf) ∧
    ∀ early late, early ≤ late → ∀ index leaf,
      (storeAfter run early).get (leafKey index) = some leaf →
      (storeAfter run late).get (leafKey index) = some leaf := by
  refine ⟨?_, ?_, delivered_storeAfter, fun _ _ ordered _ _ => stored_persists ordered⟩
  · intro time answer answers
    have keys := keys_storeAfter bounded time
    refine ⟨?_, sound_iff_contiguous keys answers⟩
    intro record
    obtain ⟨_, _, _, _, isLeaves⟩ := snapshot_eq_ok.mp answers
    rw [isLeaves, mem_listLeavesFrom keys]
    exact and_iff_right (Nat.zero_le _)
  · intro continues time answer answers
    exact (sound_iff_contiguous (keys_storeAfter bounded time) answers).mpr
      (contiguous_storeAfter continues time)

def sampleLeaf : String :=
  "0x0000000000000000000000000000000000000000000000000000000000000007"

theorem sampleLeaf_canonical : ∃ value, hexToFr sampleLeaf = .ok value := by
  have reads : (hexToFr sampleLeaf).toOption.isSome = true := by decide +kernel
  cases read : hexToFr sampleLeaf with
  | ok value => exact ⟨value, rfl⟩
  | error message =>
      rw [read] at reads
      cases reads

def scanOf (indices : List Nat) (survives : Nat) : Scan where
  configured := true
  getEvents := fun _ => some (indices.map (fun index => ⟨index, sampleLeaf⟩), some "next")
  survives := survives

theorem scanOf_bounded {indices : List Nat} {survives : Nat}
    (inside : ∀ index ∈ indices, index < 2 ^ depth) : (scanOf indices survives).Bounded := by
  intro cursor events next answered event listed
  obtain ⟨rfl, _⟩ := Prod.mk.inj (Option.some.inj answered)
  obtain ⟨index, isIndex, rfl⟩ := List.mem_map.mp listed
  exact inside index isIndex

theorem scanOf_continues {indices : List Nat} {survives : Nat}
    (closed : ∀ index ∈ indices, ∀ lower < index, lower ∈ indices) (leaves : PoolLeaves) :
    (scanOf indices survives).Continues leaves := by
  intro events next answered event listed lower less
  obtain ⟨rfl, _⟩ := Prod.mk.inj (Option.some.inj answered)
  obtain ⟨index, isIndex, rfl⟩ := List.mem_map.mp listed
  exact Or.inr ⟨⟨lower, sampleLeaf⟩,
    List.mem_map.mpr ⟨lower, closed index isIndex lower less, rfl⟩, rfl⟩

theorem scanOf_answers {run : List Scan} (bounded : ∀ scan ∈ run, scan.Bounded)
    (samples : ∀ scan ∈ run, ∃ indices survives, scan = scanOf indices survives) (time : Nat) :
    ∃ answer, snapshot ZkRecovery.Reference.poseidon2Hash (storeAfter run time) = .ok answer := by
  apply snapshot_answers _ (keys_storeAfter bounded time)
  intro index leaf stored
  obtain ⟨scan, isScan, cursor, events, next, answered, listed⟩ :=
    delivered_storeAfter time index leaf stored
  obtain ⟨indices, survives, rfl⟩ := samples scan isScan
  obtain ⟨rfl, _⟩ := Prod.mk.inj (Option.some.inj answered)
  obtain ⟨place, _, same⟩ := List.mem_map.mp listed
  obtain ⟨_, rfl⟩ := LeafEvent.mk.inj same
  exact sampleLeaf_canonical

/-- The first scan dies after one write, the second returns everything again in
another order. -/
def overlapping : List Scan := [scanOf [0, 1, 2] 1, scanOf [2, 0, 1] 4]

theorem snapshot_sound_overlapping :
    ∃ answer,
      snapshot ZkRecovery.Reference.poseidon2Hash (storeAfter overlapping 2) = .ok answer ∧
      Sound ZkRecovery.Reference.poseidon2Hash (storeAfter overlapping 2) answer := by
  have bounded : ∀ scan ∈ overlapping, scan.Bounded := by
    intro scan listed
    simp only [overlapping, List.mem_cons, List.not_mem_nil, or_false] at listed
    rcases listed with rfl | rfl
    · exact scanOf_bounded (by decide)
    · exact scanOf_bounded (by decide)
  obtain ⟨answer, answers⟩ := scanOf_answers bounded (by
    intro scan listed
    simp only [overlapping, List.mem_cons, List.not_mem_nil, or_false] at listed
    rcases listed with rfl | rfl
    · exact ⟨_, _, rfl⟩
    · exact ⟨_, _, rfl⟩) 2
  refine ⟨answer, answers, ?_⟩
  obtain ⟨_, keeps, _, _⟩ :=
    snapshot_sound ZkRecovery.Reference.poseidon2Hash overlapping bounded
  refine keeps ?_ 2 answer answers
  intro time scan present
  cases time with
  | zero =>
      cases present
      exact scanOf_continues (by decide) _
  | succ time =>
      cases time with
      | zero =>
          cases present
          exact scanOf_continues (by decide) _
      | succ time => cases present

/-- The only leaf that the RPC still knows is the one at index one. -/
def lossy : List Scan := [scanOf [1] 2]

theorem lossy_get : (storeAfter lossy 1).get (leafKey 1) = some sampleLeaf ∧
    (storeAfter lossy 1).get (leafKey 0) = none := by
  have writes : (scanOf [1] 2).writes .empty = [.append ⟨1, sampleLeaf⟩, .cursor "next"] := by
    simp [Scan.writes, scanOf, runScan]
  have stored : storeAfter lossy 1 =
      (Write.perform (Write.perform .empty (.append ⟨1, sampleLeaf⟩)) (.cursor "next")) := by
    change scheduled .empty (scanOf [1] 2) = _
    rw [scheduled, writes]
    rfl
  have other : leafKey 0 ≠ leafKey 1 := leafKey_injective.ne (by decide)
  have read := appendLeaf_get .empty ⟨1, sampleLeaf⟩
  rw [stored, cursor_get, cursor_get]
  constructor
  · exact (read (leafKey 1)).trans (if_pos ⟨rfl, rfl⟩)
  · exact (read (leafKey 0)).trans (if_neg (fun both => other both.1))

/-- A snapshot with a gap shifts the leaf down and counts one too few. -/
theorem snapshot_lossy :
    ∃ answer, snapshot ZkRecovery.Reference.poseidon2Hash (storeAfter lossy 1) = .ok answer ∧
      ¬ Sound ZkRecovery.Reference.poseidon2Hash (storeAfter lossy 1) answer := by
  have bounded : ∀ scan ∈ lossy, scan.Bounded := by
    intro scan listed
    rw [lossy, List.mem_singleton] at listed
    rw [listed]
    exact scanOf_bounded (by decide)
  obtain ⟨answer, answers⟩ := scanOf_answers bounded (by
    intro scan listed
    rw [lossy, List.mem_singleton] at listed
    exact ⟨_, _, listed⟩) 1
  refine ⟨answer, answers, ?_⟩
  rw [sound_iff_contiguous (keys_storeAfter bounded 1) answers]
  intro contiguous
  obtain ⟨_, impossible⟩ := contiguous 1 ⟨_, lossy_get.1⟩ 0 Nat.zero_lt_one
  rw [lossy_get.2] at impossible
  cases impossible

end Nido.Indexer
