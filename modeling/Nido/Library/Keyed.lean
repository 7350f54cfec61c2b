/-
Finite maps that keep their keys in the order of insertion.

A key is bound once; writing to it again changes its value in place. Reading is
a function of the key, and what one write does to it is all that users of a map
need.
-/

import Mathlib.Data.List.Nodup
import Mathlib.Data.List.Basic

/-- Entries under distinct keys. -/
structure Keyed (κ υ : Type*) where
  entries : List (κ × υ)
  distinct : (entries.map Prod.fst).Nodup

namespace Keyed

variable {κ υ : Type*}

def empty : Keyed κ υ := ⟨[], List.nodup_nil⟩

def keys (map : Keyed κ υ) : List κ := map.entries.map Prod.fst

section Lookup

variable [DecidableEq κ]

def get (map : Keyed κ υ) (key : κ) : Option υ := map.entries.lookup key

theorem lookup_eq_none {entries : List (κ × υ)} {key : κ} :
    entries.lookup key = none ↔ key ∉ entries.map Prod.fst := by
  induction entries with
  | nil => simp
  | cons entry rest ih =>
      obtain ⟨other, value⟩ := entry
      by_cases same : key = other
      · simp [same]
      · simp [List.lookup_cons, beq_false_of_ne same, same, ih]

theorem get_eq_none {map : Keyed κ υ} {key : κ} : map.get key = none ↔ key ∉ map.keys :=
  lookup_eq_none

theorem mem_keys {map : Keyed κ υ} {key : κ} :
    key ∈ map.keys ↔ ∃ value, map.get key = some value := by
  rw [← not_iff_not, ← get_eq_none]
  constructor
  · intro absent present
    obtain ⟨value, found⟩ := present
    rw [absent] at found
    cases found
  · intro absent
    cases found : map.get key with
    | none => rfl
    | some value => exact absurd ⟨value, found⟩ absent

/-- The value of a bound key, in place. -/
def replace (key : κ) (value : υ) : List (κ × υ) → List (κ × υ)
  | [] => []
  | (other, old) :: rest =>
      if other = key then (other, value) :: rest else (other, old) :: replace key value rest

theorem replace_keys (key : κ) (value : υ) (entries : List (κ × υ)) :
    (replace key value entries).map Prod.fst = entries.map Prod.fst := by
  induction entries with
  | nil => rfl
  | cons entry rest ih =>
      obtain ⟨other, old⟩ := entry
      rw [replace]
      split
      · rfl
      · rw [List.map_cons, List.map_cons, ih]

theorem replace_lookup (key : κ) (value : υ) (entries : List (κ × υ)) (place : κ) :
    (replace key value entries).lookup place =
      if place = key ∧ key ∈ entries.map Prod.fst then some value else entries.lookup place := by
  induction entries with
  | nil => simp [replace]
  | cons entry rest ih =>
      obtain ⟨other, old⟩ := entry
      rw [replace]
      by_cases here : other = key
      · subst other
        by_cases same : place = key
        · simp [same]
        · simp [List.lookup_cons, beq_false_of_ne same, same]
      · have later : key ∈ ((other, old) :: rest).map Prod.fst ↔ key ∈ rest.map Prod.fst := by
          rw [List.map_cons, List.mem_cons]
          exact or_iff_right (Ne.symm here)
        rw [if_neg here, List.lookup_cons, List.lookup_cons, ih]
        simp only [later]
        by_cases same : place = other
        · subst other
          simp [here]
        · simp [beq_false_of_ne same]

/-- Writing a key: in place when it is bound, at the end when it is not. -/
def put (map : Keyed κ υ) (key : κ) (value : υ) : Keyed κ υ :=
  if bound : key ∈ map.keys then
    ⟨replace key value map.entries, by rw [replace_keys]; exact map.distinct⟩
  else
    ⟨map.entries ++ [(key, value)], by
      rw [List.map_append, List.map_singleton, List.nodup_append]
      refine ⟨map.distinct, List.nodup_singleton _, ?_⟩
      intro other listed single isKey same
      rw [List.mem_singleton] at isKey
      subst single
      subst other
      exact bound listed⟩

theorem get_put (map : Keyed κ υ) (key : κ) (value : υ) (place : κ) :
    (map.put key value).get place = if place = key then some value else map.get place := by
  unfold put get
  split
  · rename_i bound
    rw [replace_lookup]
    by_cases same : place = key
    · rw [if_pos ⟨same, bound⟩, if_pos same]
    · rw [if_neg (fun both => same both.1), if_neg same]
  · rename_i fresh
    rw [List.lookup_append]
    by_cases same : place = key
    · subst place
      have absent : map.entries.lookup key = none := lookup_eq_none.mpr fresh
      simp [absent]
    · cases map.entries.lookup place with
      | none => simp [List.lookup_cons, beq_false_of_ne same, same]
      | some other => simp [same]

theorem keys_put (map : Keyed κ υ) (key : κ) (value : υ) :
    (map.put key value).keys = if key ∈ map.keys then map.keys else map.keys ++ [key] := by
  unfold put
  split
  next bound => exact replace_keys key value map.entries
  next fresh => exact List.map_append

@[simp] theorem get_put_self (map : Keyed κ υ) (key : κ) (value : υ) :
    (map.put key value).get key = some value := by
  rw [get_put, if_pos rfl]

theorem get_put_of_ne (map : Keyed κ υ) {key place : κ} (value : υ) (other : place ≠ key) :
    (map.put key value).get place = map.get place := by
  rw [get_put, if_neg other]

@[simp] theorem get_empty (key : κ) : (empty : Keyed κ υ).get key = none := rfl

/-! ### Several writes -/

def putAll (map : Keyed κ υ) : List (κ × υ) → Keyed κ υ
  | [] => map
  | (key, value) :: rest => putAll (map.put key value) rest

theorem get_putAll (map : Keyed κ υ) (writes : List (κ × υ)) (place : κ) :
    (map.putAll writes).get place = (writes.reverse.lookup place).or (map.get place) := by
  induction writes generalizing map with
  | nil => rfl
  | cons write rest ih =>
      obtain ⟨key, value⟩ := write
      rw [putAll, ih, List.reverse_cons, List.lookup_append, get_put]
      cases rest.reverse.lookup place with
      | some later => rfl
      | none =>
          by_cases same : place = key
          · subst place
            simp
          · simp [List.lookup_cons, beq_false_of_ne same, same]

theorem putAll_entries {map : Keyed κ υ} {writes : List (κ × υ)}
    (distinct : (writes.map Prod.fst).Nodup) (fresh : ∀ write ∈ writes, write.1 ∉ map.keys) :
    (map.putAll writes).entries = map.entries ++ writes := by
  induction writes generalizing map with
  | nil => exact (List.append_nil _).symm
  | cons write rest ih =>
      obtain ⟨key, value⟩ := write
      rw [List.map_cons, List.nodup_cons] at distinct
      have absent : key ∉ map.keys := fresh _ List.mem_cons_self
      have placed : (map.put key value).entries = map.entries ++ [(key, value)] := by
        unfold put
        rw [dif_neg absent]
      rw [putAll, ih distinct.2, placed, List.append_assoc, List.singleton_append]
      intro write member
      rw [keys_put, if_neg absent, List.mem_append, not_or]
      refine ⟨fresh write (List.mem_cons_of_mem _ member), ?_⟩
      intro same
      exact distinct.1 (List.mem_map.mpr ⟨write, member, List.mem_singleton.mp same⟩)

/-- A list that some items put entries into is read as its items are searched. -/
theorem lookup_filterMap {α : Type*} (entry : α → Option (κ × υ)) (items : List α) (place : κ) :
    (items.filterMap entry).lookup place =
      items.findSome? (fun item => (entry item).bind (fun found =>
        if found.1 = place then some found.2 else none)) := by
  induction items with
  | nil => rfl
  | cons item rest ih =>
      rw [List.filterMap_cons, List.findSome?_cons]
      cases found : entry item with
      | none => exact ih
      | some pair =>
          obtain ⟨key, value⟩ := pair
          by_cases same : place = key
          · subst same
            simp
          · have others : key ≠ place := Ne.symm same
            simp [List.lookup_cons, beq_false_of_ne same, others, ih]

theorem lookup_reverse_eq_none {writes : List (κ × υ)} {place : κ} :
    writes.reverse.lookup place = none ↔ ∀ write ∈ writes, write.1 ≠ place := by
  rw [lookup_eq_none]
  constructor
  · intro absent write listed same
    exact absent (List.mem_map.mpr ⟨write, List.mem_reverse.mpr listed, same⟩)
  · intro others present
    obtain ⟨write, listed, same⟩ := List.mem_map.mp present
    exact others write (List.mem_reverse.mp listed) same

theorem mem_of_lookup {entries : List (κ × υ)} {place : κ} {value : υ}
    (found : entries.lookup place = some value) : (place, value) ∈ entries := by
  induction entries with
  | nil => cases found
  | cons entry rest ih =>
      obtain ⟨key, first⟩ := entry
      by_cases same : place = key
      · subst place
        rw [List.lookup_cons_self] at found
        cases found
        exact List.mem_cons_self
      · rw [List.lookup_cons, beq_false_of_ne same] at found
        exact List.mem_cons_of_mem _ (ih found)

theorem lookup_eq_some {entries : List (κ × υ)} (distinct : (entries.map Prod.fst).Nodup)
    {place : κ} {value : υ} : entries.lookup place = some value ↔ (place, value) ∈ entries := by
  constructor
  · exact mem_of_lookup
  · intro member
    induction entries with
    | nil => cases member
    | cons entry rest ih =>
        obtain ⟨key, first⟩ := entry
        rw [List.map_cons, List.nodup_cons] at distinct
        rcases List.mem_cons.mp member with here | later
        · cases here
          exact List.lookup_cons_self
        · have other : place ≠ key := by
            rintro rfl
            exact distinct.1 (List.mem_map.mpr ⟨_, later, rfl⟩)
          rw [List.lookup_cons, beq_false_of_ne other]
          exact ih distinct.2 later

theorem lookup_reverse {entries : List (κ × υ)} (distinct : (entries.map Prod.fst).Nodup)
    (place : κ) : entries.reverse.lookup place = entries.lookup place := by
  have backwards : (entries.reverse.map Prod.fst).Nodup := by
    rw [List.map_reverse, List.nodup_reverse]
    exact distinct
  apply Option.ext
  intro value
  rw [lookup_eq_some backwards, lookup_eq_some distinct, List.mem_reverse]

theorem get_putAll_entries (map other : Keyed κ υ) (place : κ) :
    (map.putAll other.entries).get place = (other.get place).or (map.get place) := by
  rw [get_putAll, lookup_reverse other.distinct]
  rfl

theorem get_eq_some {map : Keyed κ υ} {place : κ} {value : υ} :
    map.get place = some value ↔ (place, value) ∈ map.entries :=
  lookup_eq_some map.distinct

theorem put_of_get {map : Keyed κ υ} {key : κ} {value : υ} (bound : map.get key = some value) :
    map.put key value = map := by
  have unchanged (entries : List (κ × υ)) (found : entries.lookup key = some value) :
      replace key value entries = entries := by
    induction entries with
    | nil => rfl
    | cons entry rest ih =>
        obtain ⟨other, old⟩ := entry
        rw [replace]
        by_cases same : other = key
        · subst same
          rw [List.lookup_cons_self] at found
          cases found
          exact if_pos rfl
        · rw [List.lookup_cons, beq_false_of_ne (Ne.symm same)] at found
          rw [if_neg same, ih found]
  have listed : key ∈ map.keys := mem_keys.mpr ⟨value, bound⟩
  unfold put
  rw [dif_pos listed]
  obtain ⟨entries, distinct⟩ := map
  congr 1
  exact unchanged entries bound

theorem putAll_of_get {map : Keyed κ υ} {writes : List (κ × υ)}
    (bound : ∀ write ∈ writes, map.get write.1 = some write.2) : map.putAll writes = map := by
  induction writes with
  | nil => rfl
  | cons write rest ih =>
      obtain ⟨key, value⟩ := write
      rw [putAll, put_of_get (bound _ List.mem_cons_self)]
      exact ih (fun later member => bound later (List.mem_cons_of_mem _ member))

end Lookup

/-! ### Items by their keys -/

section Firsts

variable {α : Type*} [DecidableEq κ] (key : α → κ)

/-- The first item of each key, without the keys that were seen before. -/
def firsts (seen : List κ) : List α → List α
  | [] => []
  | item :: rest =>
      if key item ∈ seen then firsts seen rest else item :: firsts (key item :: seen) rest

variable {key}

theorem firsts_congr {seen others : List κ} (same : ∀ place, place ∈ seen ↔ place ∈ others)
    (items : List α) : firsts key seen items = firsts key others items := by
  induction items generalizing seen others with
  | nil => rfl
  | cons item rest ih =>
      have inside : key item ∈ seen ↔ key item ∈ others := same _
      rw [firsts, firsts]
      by_cases old : key item ∈ seen
      · rw [if_pos old, if_pos (inside.mp old), ih same]
      · rw [if_neg old, if_neg (fun later => old (inside.mpr later))]
        congr 1
        apply ih
        intro place
        rw [List.mem_cons, List.mem_cons, same]

theorem firsts_append (seen : List κ) (items others : List α) :
    firsts key seen (items ++ others) =
      firsts key seen items ++ firsts key (items.map key ++ seen) others := by
  induction items generalizing seen with
  | nil => rfl
  | cons item rest ih =>
      rw [List.cons_append, firsts, firsts, List.map_cons]
      by_cases old : key item ∈ seen
      · rw [if_pos old, if_pos old, ih]
        congr 1
        apply firsts_congr
        intro place
        simp only [List.mem_append, List.cons_append, List.mem_cons]
        constructor
        · exact Or.inr
        · rintro (rfl | listed)
          · exact Or.inr old
          · exact listed
      · rw [if_neg old, if_neg old, ih, List.cons_append]
        congr 2
        apply firsts_congr
        intro place
        simp only [List.mem_append, List.cons_append, List.mem_cons]
        tauto

theorem mem_firsts {seen : List κ} {items : List α} {item : α}
    (member : item ∈ firsts key seen items) : item ∈ items ∧ key item ∉ seen := by
  induction items generalizing seen with
  | nil => cases member
  | cons head rest ih =>
      rw [firsts] at member
      split at member
      next =>
        have both := ih member
        exact ⟨List.mem_cons_of_mem _ both.1, both.2⟩
      next fresh =>
        rcases List.mem_cons.mp member with rfl | later
        · exact ⟨List.mem_cons_self, fresh⟩
        · have both := ih later
          exact ⟨List.mem_cons_of_mem _ both.1,
            fun old => both.2 (List.mem_cons_of_mem _ old)⟩

theorem mem_firsts_keys {seen : List κ} {items : List α} {place : κ} :
    place ∈ (firsts key seen items).map key ↔ place ∈ items.map key ∧ place ∉ seen := by
  induction items generalizing seen with
  | nil => simp [firsts]
  | cons head rest ih =>
      rw [firsts]
      by_cases old : key head ∈ seen
      · rw [if_pos old, ih, List.map_cons, List.mem_cons]
        constructor
        · rintro ⟨listed, fresh⟩
          exact ⟨Or.inr listed, fresh⟩
        · rintro ⟨rfl | listed, fresh⟩
          · exact absurd old fresh
          · exact ⟨listed, fresh⟩
      · rw [if_neg old, List.map_cons, List.mem_cons, ih, List.map_cons, List.mem_cons,
          List.mem_cons]
        by_cases here : place = key head
        · subst here
          simp [old]
        · simp [here]

theorem firsts_nodup (seen : List κ) (items : List α) :
    ((firsts key seen items).map key).Nodup := by
  induction items generalizing seen with
  | nil => exact List.nodup_nil
  | cons head rest ih =>
      rw [firsts]
      split
      next => exact ih seen
      next =>
        rw [List.map_cons, List.nodup_cons]
        refine ⟨?_, ih _⟩
        intro again
        exact (mem_firsts_keys.mp again).2 List.mem_cons_self

theorem firsts_append_of_known {seen : List κ} {items others : List α}
    (distinct : (items.map key).Nodup) (fresh : ∀ place ∈ items.map key, place ∉ seen)
    (known : ∀ place ∈ others.map key, place ∈ seen ∨ place ∈ items.map key) :
    firsts key seen (items ++ others) = items := by
  induction items generalizing seen with
  | nil =>
      rw [List.nil_append]
      apply List.eq_nil_iff_forall_not_mem.mpr
      intro item member
      have both := mem_firsts member
      rcases known (key item) (List.mem_map_of_mem both.1) with old | impossible
      · exact both.2 old
      · cases impossible
  | cons head rest ih =>
      rw [List.map_cons, List.nodup_cons] at distinct
      rw [List.cons_append, firsts, if_neg (fresh _ List.mem_cons_self)]
      congr 1
      apply ih distinct.2
      · intro place listed old
        rcases List.mem_cons.mp old with rfl | older
        · exact distinct.1 listed
        · exact fresh place (List.mem_cons_of_mem _ listed) older
      · intro place listed
        rcases known place listed with old | inItems
        · exact Or.inl (List.mem_cons_of_mem _ old)
        · rcases List.mem_cons.mp inItems with rfl | inRest
          · exact Or.inl List.mem_cons_self
          · exact Or.inr inRest

theorem firsts_of_fresh {seen : List κ} {items : List α} (distinct : (items.map key).Nodup)
    (fresh : ∀ place ∈ items.map key, place ∉ seen) : firsts key seen items = items := by
  have whole : firsts key seen (items ++ []) = items :=
    firsts_append_of_known distinct fresh (fun place impossible => by cases impossible)
  rwa [List.append_nil] at whole

end Firsts

end Keyed
