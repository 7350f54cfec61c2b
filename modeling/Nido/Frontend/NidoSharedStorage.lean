/-
The accounts that a browser knows, shared between the hosts of a deployment.

Each host has a store of its own. A snapshot of it is sent to another host, which
merges it into what it has. Contents that were not written by this code are taken as
far as they can be read: ids in any spelling, broken lists, and names under keys whose
id is spelt in another way. A browser may list the keys anew whenever one is added, so
which of several spellings is read last is its own choice.
-/

import Nido.Library.Json
import Nido.Library.Keyed
import Nido.Library.Sorting
import Nido.Sdk.Url

namespace Nido.Frontend

open Sdk

/-! ### The browser -/

/-- How a browser lists the keys of a store when one is added: in any order, which is another
one for each store and each time. -/
structure KeyOrder where
  insert : String → List String → List String
  permutes : ∀ key keys, (insert key keys).Perm (key :: keys)

/-- What the language provides. -/
structure Platform where
  toUpperCase : String → String
  toUpperCase_idem : ∀ text, toUpperCase (toUpperCase text) = toUpperCase text
  localeCompare : String → String → Int

def KeyOrder.withKey (order : KeyOrder) (key : String) (keys : List String) : List String :=
  if key ∈ keys then keys else order.insert key keys

theorem KeyOrder.mem_withKey (order : KeyOrder) {key place : String} {keys : List String} :
    place ∈ order.withKey key keys ↔ place = key ∨ place ∈ keys := by
  unfold withKey
  split
  next present =>
    constructor
    · exact Or.inr
    · rintro (rfl | listed)
      · exact present
      · exact listed
  next => rw [(order.permutes key keys).mem_iff, List.mem_cons]

theorem KeyOrder.withKey_nodup (order : KeyOrder) {key : String} {keys : List String}
    (distinct : keys.Nodup) : (order.withKey key keys).Nodup := by
  unfold withKey
  split
  next => exact distinct
  next absent =>
    exact (order.permutes key keys).nodup_iff.mpr (List.nodup_cons.mpr ⟨absent, distinct⟩)

/-- A store: its keys as they are listed, their items, and how the listing goes on. -/
structure Store where
  keys : List String
  item : String → Option String
  order : KeyOrder
  distinct : keys.Nodup
  stored : ∀ key, (item key).isSome = true ↔ key ∈ keys

def Store.setItem (store : Store) (key value : String) : Store where
  keys := store.order.withKey key store.keys
  item := fun place => if place = key then some value else store.item place
  order := store.order
  distinct := store.order.withKey_nodup store.distinct
  stored := by
    intro place
    rw [store.order.mem_withKey, ← store.stored]
    by_cases same : place = key
    · simp [same]
    · simp [same]

/-! ### Normal forms -/

structure PendingAccount where
  contractId : String
  setupKey : String
deriving DecidableEq

structure NidoAccountSnapshot where
  accounts : List String
  pending : List PendingAccount
  names : Keyed String String

def accountKey : String := "nido:accounts"

def pendingKey : String := "nido:pending"

def namePrefix : String := "nido:names:"

def nameKey (contractId : String) : String := namePrefix ++ contractId

/-- `/^[a-z][a-z0-9]{0,14}$/`. -/
def validName (name : String) : Bool :=
  match name.toList with
  | first :: rest =>
      decide ('a' ≤ first ∧ first ≤ 'z') && decide (rest.length ≤ 14) &&
        rest.all (fun c => decide ('a' ≤ c ∧ c ≤ 'z') || decide ('0' ≤ c ∧ c ≤ '9'))
  | [] => false

def propertyOf (value : Json) (name : String) : Option Json :=
  match value with
  | .object entries => entries.reverse.lookup name
  | _ => none

def textOf : Option Json → Option String
  | some (.string text) => some text
  | _ => none

def readJson (value : Option String) : Json :=
  match value with
  | some text => if text = "" then .null else (Json.parse text).getD .null
  | none => .null

section Normalize

variable (platform : Platform)

def normalizeId (text : String) : Option String :=
  let contractId := platform.toUpperCase text
  if isContractId contractId.toList = true then some contractId else none

def normalizeContractId : Json → Option String
  | .string text => normalizeId platform text
  | _ => none

def uniqueContractIds : Json → List String
  | .array items => Keyed.firsts id [] (items.filterMap (normalizeContractId platform))
  | _ => []

/-- An entry with an id and a key under one of its two names. -/
def readPending (value : Json) : Option PendingAccount := do
  let contractId ← (propertyOf value "contractId").bind (normalizeContractId platform)
  let setupKey ←
    ((textOf (propertyOf value "setupKey")).filter (fun text => decide (text ≠ ""))).or
      ((textOf (propertyOf value "secretKey")).filter (fun text => decide (text ≠ "")))
  pure { contractId, setupKey }

def normalizePending (values : Json) (active : List String) : List PendingAccount :=
  match values with
  | .array items =>
      Keyed.firsts PendingAccount.contractId active (items.filterMap (readPending platform))
  | _ => []

def readName (entry : String × Json) : Option (String × String) := do
  let contractId ← normalizeId platform entry.1
  let name ← (textOf (some entry.2)).filter validName
  pure (contractId, name)

def normalizeNames (values : Json) : Keyed String String :=
  match values with
  | .object entries => Keyed.empty.putAll (entries.filterMap (readName platform))
  | _ => Keyed.empty

def normalizeSnapshot (snapshot : Json) : NidoAccountSnapshot :=
  let accounts := uniqueContractIds platform ((propertyOf snapshot "accounts").getD .null)
  { accounts
    pending := normalizePending platform ((propertyOf snapshot "pending").getD .null) accounts
    names := normalizeNames platform ((propertyOf snapshot "names").getD .null) }

/-! ### Snapshots and merging -/

def validItem (store : Store) (key : String) : Option String := (store.item key).filter validName

/-- The id that a key of a name spells. -/
def spelledId (key : String) : Option String :=
  if namePrefix.toList <+: key.toList then
    normalizeId platform (String.ofList (key.toList.drop namePrefix.length))
  else
    none

def scannedName (store : Store) (key : String) : Option (String × String) := do
  let contractId ← spelledId platform key
  let name ← validItem store key
  pure (contractId, name)

def localNidoSnapshot (store : Store) : NidoAccountSnapshot :=
  let accounts := uniqueContractIds platform (readJson (store.item accountKey))
  let pending := normalizePending platform (readJson (store.item pendingKey)) accounts
  let named := (accounts ++ pending.map PendingAccount.contractId).filterMap (fun contractId =>
    (validItem store (nameKey contractId)).map (fun name => (contractId, name)))
  { accounts
    pending
    names := Keyed.empty.putAll (named ++ store.keys.filterMap (scannedName platform store)) }

def accountsJson (accounts : List String) : Json := .array (accounts.map .string)

def pendingJson (pending : List PendingAccount) : Json :=
  .array (pending.map (fun account => .object
    [("contractId", .string account.contractId), ("setupKey", .string account.setupKey)]))

def namesJson (entries : List (String × String)) : Json :=
  .object (entries.map (fun entry => (entry.1, .string entry.2)))

/-- A snapshot as it is sent to another host. -/
def NidoAccountSnapshot.toJson (snapshot : NidoAccountSnapshot) : Json :=
  .object
    [("accounts", accountsJson snapshot.accounts), ("pending", pendingJson snapshot.pending),
      ("names", namesJson snapshot.names.entries)]

def sortedNames (entries : List (String × String)) : List (String × String) :=
  entries.mergeSort (fun left right => decide (platform.localeCompare left.1 right.1 ≤ 0))

def stableSnapshot (snapshot : NidoAccountSnapshot) : String :=
  Json.stringify (.object
    [("accounts", accountsJson snapshot.accounts), ("pending", pendingJson snapshot.pending),
      ("names", namesJson (sortedNames platform snapshot.names.entries))])

def mergedSnapshot (before next : NidoAccountSnapshot) : NidoAccountSnapshot :=
  let accounts := uniqueContractIds platform (accountsJson (before.accounts ++ next.accounts))
  { accounts
    pending := Keyed.firsts PendingAccount.contractId accounts (before.pending ++ next.pending)
    names := before.names.putAll next.names.entries }

def writeItems (store : Store) (writes : List (String × String)) : Store :=
  writes.foldl (fun store write => store.setItem write.1 write.2) store

def snapshotWrites (snapshot : NidoAccountSnapshot) : List (String × String) :=
  (accountKey, Json.stringify (accountsJson snapshot.accounts)) ::
    (pendingKey, Json.stringify (pendingJson snapshot.pending)) ::
      snapshot.names.entries.map (fun entry => (nameKey entry.1, entry.2))

/-- The store afterwards, and whether anything was written. -/
def mergeNidoSnapshot (incoming : Json) (store : Store) : Store × Bool :=
  let before := localNidoSnapshot platform store
  let after := mergedSnapshot platform before (normalizeSnapshot platform incoming)
  if stableSnapshot platform before = stableSnapshot platform after then
    (store, false)
  else
    (writeItems store (snapshotWrites after), true)

end Normalize

/-! ### The name of an id -/

def lastValue {υ : Type} (value : String → Option υ) (keys : List String) : Option υ :=
  keys.reverse.findSome? value

section LastValue

variable {υ : Type} {value other : String → Option υ}

theorem lastValue_append (before after : List String) :
    lastValue value (before ++ after) = (lastValue value after).or (lastValue value before) := by
  unfold lastValue
  rw [List.reverse_append, List.findSome?_append]

theorem lastValue_cons (key : String) (after : List String) :
    lastValue value (key :: after) = (lastValue value after).or (value key) := by
  have split_ : key :: after = [key] ++ after := rfl
  rw [split_, lastValue_append]
  congr 1
  unfold lastValue
  rw [List.reverse_singleton, List.findSome?_cons]
  cases value key <;> rfl

theorem lastValue_congr {keys : List String} (same : ∀ key ∈ keys, value key = other key) :
    lastValue value keys = lastValue other keys := by
  induction keys with
  | nil => rfl
  | cons key rest ih =>
      rw [lastValue_cons, lastValue_cons, same key List.mem_cons_self,
        ih (fun later member => same later (List.mem_cons_of_mem _ member))]

theorem lastValue_eq_none {keys : List String} :
    lastValue value keys = none ↔ ∀ key ∈ keys, value key = none := by
  unfold lastValue
  rw [List.findSome?_eq_none_iff]
  constructor
  · intro absent key member
    exact absent key (List.mem_reverse.mpr member)
  · intro absent key member
    exact absent key (List.mem_reverse.mp member)

end LastValue

section Names

variable (platform : Platform)

def valueFor (store : Store) (contractId key : String) : Option String :=
  if spelledId platform key = some contractId then validItem store key else none

/-- An id as it is kept. -/
def IsNormal (contractId : String) : Prop := normalizeId platform contractId = some contractId

variable {platform}

theorem normalizeId_normal {text contractId : String}
    (normal : normalizeId platform text = some contractId) : IsNormal platform contractId := by
  unfold normalizeId at normal
  dsimp only at normal
  split at normal
  next isId =>
    cases normal
    unfold IsNormal normalizeId
    rw [platform.toUpperCase_idem]
    exact if_pos isId
  next => cases normal

theorem spelledId_append (spelling : String) :
    spelledId platform (namePrefix ++ spelling) = normalizeId platform spelling := by
  unfold spelledId
  rw [String.toList_append, if_pos (List.prefix_append _ _), ← String.length_toList,
    List.drop_left, String.ofList_toList]

theorem spelledId_nameKey {contractId : String} (normal : IsNormal platform contractId) :
    spelledId platform (nameKey contractId) = some contractId :=
  (spelledId_append contractId).trans normal

theorem nameKey_injective {left right : String} (same : nameKey left = nameKey right) :
    left = right := by
  have lists := congrArg String.toList same
  unfold nameKey at lists
  rw [String.toList_append, String.toList_append, List.append_cancel_left_eq] at lists
  exact String.toList_inj.mp lists

theorem uniqueContractIds_normal {values : Json} :
    ∀ contractId ∈ uniqueContractIds platform values, IsNormal platform contractId := by
  intro contractId member
  unfold uniqueContractIds at member
  split at member
  next items =>
    obtain ⟨value, _, normal⟩ := List.mem_filterMap.mp (Keyed.mem_firsts member).1
    cases value with
    | string text => exact normalizeId_normal normal
    | _ => cases normal
  next => cases member

theorem uniqueContractIds_nodup (values : Json) : (uniqueContractIds platform values).Nodup := by
  unfold uniqueContractIds
  split
  next items =>
    have distinct : ((Keyed.firsts id [] (items.filterMap
        (normalizeContractId platform))).map id).Nodup := Keyed.firsts_nodup _ _
    rwa [List.map_id] at distinct
  next => exact List.nodup_nil

theorem readPending_normal {value : Json} {account : PendingAccount}
    (read : readPending platform value = some account) :
    IsNormal platform account.contractId ∧ account.setupKey ≠ "" := by
  unfold readPending at read
  simp only [Option.bind_eq_bind, Option.bind_eq_some_iff, Option.pure_def] at read
  obtain ⟨contractId, ⟨spelt, _, normal⟩, setupKey, given, same⟩ := read
  cases same
  constructor
  · cases spelt with
    | string text => exact normalizeId_normal normal
    | _ => cases normal
  · rcases Option.or_eq_some_iff.mp given with first | ⟨_, second⟩
    · exact of_decide_eq_true (Option.filter_eq_some_iff.mp first).2
    · exact of_decide_eq_true (Option.filter_eq_some_iff.mp second).2

theorem normalizePending_normal {values : Json} {active : List String} :
    ∀ account ∈ normalizePending platform values active,
      IsNormal platform account.contractId ∧ account.setupKey ≠ "" ∧
        account.contractId ∉ active := by
  intro account member
  unfold normalizePending at member
  split at member
  next items =>
    have both := Keyed.mem_firsts member
    obtain ⟨value, _, read⟩ := List.mem_filterMap.mp both.1
    have normal := readPending_normal read
    exact ⟨normal.1, normal.2, both.2⟩
  next => cases member

theorem normalizePending_nodup (values : Json) (active : List String) :
    ((normalizePending platform values active).map PendingAccount.contractId).Nodup := by
  unfold normalizePending
  split
  next => exact Keyed.firsts_nodup _ _
  next => exact List.nodup_nil

/-- Every id whose name is looked up first has its own key among the keys. -/
theorem get_names (store : Store) (contractId : String) :
    (localNidoSnapshot platform store).names.get contractId =
      lastValue (valueFor platform store contractId) store.keys := by
  have scan : (store.keys.filterMap (scannedName platform store)).reverse.lookup contractId =
      lastValue (valueFor platform store contractId) store.keys := by
    rw [← List.filterMap_reverse, Keyed.lookup_filterMap]
    unfold lastValue
    congr 1
    funext key
    unfold scannedName valueFor
    cases spelledId platform key with
    | none => rfl
    | some spelt =>
        cases validItem store key with
        | none => simp
        | some name => simp
  unfold localNidoSnapshot
  dsimp only
  rw [Keyed.get_putAll, List.reverse_append, List.lookup_append, scan, Keyed.get_empty,
    Option.or_none]
  cases found : lastValue (valueFor platform store contractId) store.keys with
  | some name => rfl
  | none =>
      rw [Option.none_or, Keyed.lookup_reverse_eq_none]
      intro write listed same
      obtain ⟨known, knownListed, named⟩ := List.mem_filterMap.mp listed
      obtain ⟨name, valid, rfl⟩ := Option.map_eq_some_iff.mp named
      cases same
      have normal : IsNormal platform known := by
        rcases List.mem_append.mp knownListed with inAccounts | inPending
        · exact uniqueContractIds_normal known inAccounts
        · obtain ⟨account, accountListed, rfl⟩ := List.mem_map.mp inPending
          exact (normalizePending_normal account accountListed).1
      have present : nameKey known ∈ store.keys := by
        rw [← store.stored]
        obtain ⟨item, _⟩ := Option.filter_eq_some_iff.mp valid
        rw [item]
        rfl
      have missing := lastValue_eq_none.mp found (nameKey known) present
      unfold valueFor at missing
      rw [if_pos (spelledId_nameKey normal), valid] at missing
      cases missing

end Names

/-! ### Where a key stands -/

section Order

variable {key : String} {keys : List String}

def laterKeys (key : String) (keys : List String) : List String :=
  (keys.dropWhile (fun place => decide (place ≠ key))).tail

theorem laterKeys_append {before : List String} (after : List String) (absent : key ∉ before) :
    laterKeys key (before ++ key :: after) = after := by
  unfold laterKeys
  have skipped : (before ++ key :: after).dropWhile (fun place => decide (place ≠ key)) =
      key :: after := by
    rw [List.dropWhile_append_of_pos]
    · rw [List.dropWhile_cons, if_neg (by simp)]
    · intro place member
      apply decide_eq_true
      rintro rfl
      exact absent member
  rw [skipped, List.tail_cons]

theorem laterKeys_absent (absent : key ∉ keys) : laterKeys key keys = [] := by
  unfold laterKeys
  have skipped : keys.dropWhile (fun place => decide (place ≠ key)) = [] := by
    rw [List.dropWhile_eq_nil_iff]
    intro place member
    apply decide_eq_true
    rintro rfl
    exact absent member
  rw [skipped, List.tail_nil]

theorem laterKeys_split (distinct : keys.Nodup) (present : key ∈ keys) :
    ∃ before, keys = before ++ key :: laterKeys key keys ∧ key ∉ laterKeys key keys := by
  obtain ⟨before, after, rfl⟩ := List.append_of_mem present
  have apart := List.nodup_cons.mp (List.perm_middle.nodup_iff.mp distinct)
  rw [List.mem_append, not_or] at apart
  refine ⟨before, ?_, ?_⟩
  · rw [laterKeys_append after apart.1.1]
  · rw [laterKeys_append after apart.1.1]
    exact apart.1.2

end Order

/-! ### Several writes -/

section Writes

theorem item_writeItems (store : Store) (writes : List (String × String)) (key : String) :
    (writeItems store writes).item key =
      (writes.reverse.lookup key).or (store.item key) := by
  unfold writeItems
  induction writes generalizing store with
  | nil => rfl
  | cons write rest ih =>
      obtain ⟨place, value⟩ := write
      rw [List.foldl_cons, ih, List.reverse_cons, List.lookup_append]
      unfold Store.setItem
      cases rest.reverse.lookup key with
      | some later => rfl
      | none =>
          by_cases same : key = place
          · subst same
            simp
          · simp [List.lookup_cons, beq_false_of_ne same, same]

end Writes

/-! ### Normal snapshots -/

/-- Ids in their kept spelling and once each, none both active and pending, and names
that are names. -/
structure Normal (platform : Platform) (snapshot : NidoAccountSnapshot) : Prop where
  accounts : ∀ contractId ∈ snapshot.accounts, IsNormal platform contractId
  accounts_nodup : snapshot.accounts.Nodup
  pending : ∀ account ∈ snapshot.pending, IsNormal platform account.contractId ∧
    account.setupKey ≠ "" ∧ account.contractId ∉ snapshot.accounts
  pending_nodup : (snapshot.pending.map PendingAccount.contractId).Nodup
  names : ∀ entry ∈ snapshot.names.entries, IsNormal platform entry.1 ∧ validName entry.2 = true

section Normal

variable {platform : Platform}

theorem localNidoSnapshot_normal (store : Store) :
    Normal platform (localNidoSnapshot platform store) where
  accounts := uniqueContractIds_normal
  accounts_nodup := uniqueContractIds_nodup _
  pending := normalizePending_normal
  pending_nodup := normalizePending_nodup _ _
  names := by
    intro entry member
    have found := Keyed.get_eq_some.mpr member
    rw [get_names] at found
    obtain ⟨key, _, named⟩ := List.exists_of_findSome?_eq_some found
    unfold valueFor at named
    split at named
    next spelt =>
      refine ⟨?_, (Option.filter_eq_some_iff.mp named).2⟩
      unfold spelledId at spelt
      split at spelt
      next => exact normalizeId_normal spelt
      next => cases spelt
    next => cases named

theorem normalizeContractIds_strings {ids : List String}
    (normal : ∀ contractId ∈ ids, IsNormal platform contractId) :
    (ids.map Json.string).filterMap (normalizeContractId platform) = ids := by
  induction ids with
  | nil => rfl
  | cons contractId rest ih =>
      have here : normalizeContractId platform (.string contractId) = some contractId :=
        normal contractId List.mem_cons_self
      rw [List.map_cons, List.filterMap_cons, here]
      exact congrArg _ (ih (fun other member => normal other (List.mem_cons_of_mem _ member)))

theorem uniqueContractIds_json {ids : List String}
    (normal : ∀ contractId ∈ ids, IsNormal platform contractId) :
    uniqueContractIds platform (accountsJson ids) = Keyed.firsts id [] ids := by
  unfold accountsJson uniqueContractIds
  dsimp only
  rw [normalizeContractIds_strings normal]

theorem normalizePending_json {pending : List PendingAccount} (active : List String)
    (normal : ∀ account ∈ pending, IsNormal platform account.contractId ∧
      account.setupKey ≠ "") :
    normalizePending platform (pendingJson pending) active =
      Keyed.firsts PendingAccount.contractId active pending := by
  unfold pendingJson normalizePending
  dsimp only
  congr 1
  induction pending with
  | nil => rfl
  | cons account rest ih =>
      have both := normal account List.mem_cons_self
      have here : readPending platform (.object
          [("contractId", .string account.contractId), ("setupKey", .string account.setupKey)]) =
            some account := by
        have contractId : (propertyOf (.object [("contractId", .string account.contractId),
            ("setupKey", .string account.setupKey)]) "contractId").bind
              (normalizeContractId platform) = some account.contractId := both.1
        have setupKey : textOf (propertyOf (.object [("contractId", .string account.contractId),
            ("setupKey", .string account.setupKey)]) "setupKey") = some account.setupKey := rfl
        have nonempty : (some account.setupKey).filter (fun text => decide (text ≠ "")) =
            some account.setupKey := by
          rw [Option.filter_some, if_pos (decide_eq_true both.2)]
        unfold readPending
        rw [contractId, setupKey, nonempty]
        rfl
      rw [List.map_cons, List.filterMap_cons, here]
      exact congrArg _ (ih (fun other member => normal other (List.mem_cons_of_mem _ member)))

theorem normalizeNames_json {entries : List (String × String)}
    (normal : ∀ entry ∈ entries, IsNormal platform entry.1 ∧ validName entry.2 = true) :
    normalizeNames platform (namesJson entries) = Keyed.empty.putAll entries := by
  unfold namesJson normalizeNames
  dsimp only
  congr 1
  induction entries with
  | nil => rfl
  | cons entry rest ih =>
      obtain ⟨contractId, name⟩ := entry
      have both := normal _ List.mem_cons_self
      have here : readName platform (contractId, .string name) = some (contractId, name) := by
        have valid : (some name).filter validName = some name := by
          rw [Option.filter_some, if_pos both.2]
        have spelt : normalizeId platform contractId = some contractId := both.1
        unfold readName
        dsimp only [textOf]
        rw [spelt, valid]
        rfl
      rw [List.map_cons, List.filterMap_cons, here]
      exact congrArg _ (ih (fun other member => normal other (List.mem_cons_of_mem _ member)))

theorem Normal.accounts_read {snapshot : NidoAccountSnapshot} (normal : Normal platform snapshot) :
    uniqueContractIds platform (accountsJson snapshot.accounts) = snapshot.accounts := by
  rw [uniqueContractIds_json normal.accounts]
  apply Keyed.firsts_of_fresh
  · rw [List.map_id]
    exact normal.accounts_nodup
  · intro place _ impossible
    cases impossible

theorem Normal.pending_read {snapshot : NidoAccountSnapshot} (normal : Normal platform snapshot) :
    normalizePending platform (pendingJson snapshot.pending) snapshot.accounts =
      snapshot.pending := by
  rw [normalizePending_json _ (fun account member =>
    ⟨(normal.pending account member).1, (normal.pending account member).2.1⟩)]
  apply Keyed.firsts_of_fresh normal.pending_nodup
  intro place listed
  obtain ⟨account, member, rfl⟩ := List.mem_map.mp listed
  exact (normal.pending account member).2.2

/-- A normal snapshot arrives as it was sent. -/
theorem normalizeSnapshot_toJson {snapshot : NidoAccountSnapshot}
    (normal : Normal platform snapshot) :
    normalizeSnapshot platform snapshot.toJson =
      { snapshot with names := Keyed.empty.putAll snapshot.names.entries } := by
  have accounts := normal.accounts_read
  have pending := normal.pending_read
  have names := normalizeNames_json normal.names
  unfold normalizeSnapshot
  have accountsSent : (propertyOf snapshot.toJson "accounts").getD .null =
      accountsJson snapshot.accounts := rfl
  have pendingSent : (propertyOf snapshot.toJson "pending").getD .null =
      pendingJson snapshot.pending := rfl
  have namesSent : (propertyOf snapshot.toJson "names").getD .null =
      namesJson snapshot.names.entries := rfl
  rw [accountsSent, pendingSent, namesSent, accounts, names]
  dsimp only
  rw [pending]

end Normal

/-! ### Texts of snapshots -/

section Texts

variable {platform : Platform}

theorem accountsJson_textual (ids : List String) : (accountsJson ids).textual = true := by
  change Json.textualItems (ids.map .string) = true
  induction ids with
  | nil => rfl
  | cons contractId rest ih => exact ih

theorem pendingJson_textual (pending : List PendingAccount) :
    (pendingJson pending).textual = true := by
  unfold pendingJson
  change Json.textualItems _ = true
  induction pending with
  | nil => rfl
  | cons account rest ih => exact ih

theorem namesJson_textual (entries : List (String × String)) :
    (namesJson entries).textual = true := by
  unfold namesJson
  change Json.textualEntries _ = true
  induction entries with
  | nil => rfl
  | cons entry rest ih => exact ih

theorem readJson_stringify {value : Json} (plain : value.textual = true) :
    readJson (some (Json.stringify value)) = value := by
  unfold readJson
  dsimp only
  have spelt := Json.spelt_of_textual value plain
  rw [if_neg (Json.stringify_ne_empty spelt), Json.parse_stringify spelt, Option.getD_some]

theorem accountsJson_injective {left right : List String}
    (same : accountsJson left = accountsJson right) : left = right :=
  List.map_injective_iff.mpr (fun _ _ equal => by injection equal) (Json.array.inj same)

theorem pendingJson_injective {left right : List PendingAccount}
    (same : pendingJson left = pendingJson right) : left = right := by
  apply List.map_injective_iff.mpr _ (Json.array.inj same)
  rintro ⟨contractId, setupKey⟩ ⟨otherId, otherKey⟩ equal
  simp at equal
  rw [equal.1, equal.2]

theorem namesJson_injective {left right : List (String × String)}
    (same : namesJson left = namesJson right) : left = right := by
  apply List.map_injective_iff.mpr _ (Json.object.inj same)
  rintro ⟨contractId, name⟩ ⟨otherId, other⟩ equal
  simp at equal
  rw [equal.1, equal.2]

/-- Snapshots of one text have the same ids in the same order and the same names. -/
theorem stableSnapshot_eq {left right : NidoAccountSnapshot}
    (same : stableSnapshot platform left = stableSnapshot platform right) :
    left.accounts = right.accounts ∧ left.pending = right.pending ∧
      ∀ contractId, left.names.get contractId = right.names.get contractId := by
  have plain (snapshot : NidoAccountSnapshot) : (Json.object
      [("accounts", accountsJson snapshot.accounts), ("pending", pendingJson snapshot.pending),
        ("names", namesJson (sortedNames platform snapshot.names.entries))]).textual = true := by
    change ((accountsJson snapshot.accounts).textual && ((pendingJson snapshot.pending).textual &&
      ((namesJson (sortedNames platform snapshot.names.entries)).textual && true))) = true
    rw [accountsJson_textual, pendingJson_textual, namesJson_textual]
    rfl
  have values := Json.object.inj (Json.stringify_injective
    (Json.spelt_of_textual _ (plain left)) (Json.spelt_of_textual _ (plain right)) same)
  simp only [List.cons.injEq, Prod.mk.injEq, and_true, true_and] at values
  refine ⟨accountsJson_injective values.1, pendingJson_injective values.2.1, ?_⟩
  have sorted := namesJson_injective values.2.2
  have perm : left.names.entries.Perm right.names.entries := by
    have leftPerm := List.mergeSort_perm left.names.entries
      (fun first second => decide (platform.localeCompare first.1 second.1 ≤ 0))
    have rightPerm := List.mergeSort_perm right.names.entries
      (fun first second => decide (platform.localeCompare first.1 second.1 ≤ 0))
    unfold sortedNames at sorted
    rw [sorted] at leftPerm
    exact leftPerm.symm.trans rightPerm
  intro contractId
  apply Option.ext
  intro name
  rw [Keyed.get_eq_some, Keyed.get_eq_some, perm.mem_iff]

end Texts

/-! ### One merge -/

section Merge

variable {platform : Platform}

/-- The name that another spelling of an id gives it from behind the id's own key, in some
listing of the keys: the name that stays, whatever is written under that key. -/
def laterName (platform : Platform) (store : Store) (keys : List String) (contractId : String) :
    Option String :=
  lastValue (valueFor platform store contractId) (laterKeys (nameKey contractId) keys)

theorem valueFor_absent {store : Store} {contractId key : String} (absent : key ∉ store.keys) :
    valueFor platform store contractId key = none := by
  have missing : store.item key = none := by
    rw [← store.stored, Option.not_isSome_iff_eq_none] at absent
    exact absent
  unfold valueFor validItem
  rw [missing]
  exact ite_self _

/-- An id that is spelt in another way has a name, however the keys are listed. -/
theorem laterName_known {store : Store} {keys : List String} {contractId name : String}
    (later : laterName platform store keys contractId = some name) :
    ∃ known, (localNidoSnapshot platform store).names.get contractId = some known := by
  cases found : (localNidoSnapshot platform store).names.get contractId with
  | some known => exact ⟨known, rfl⟩
  | none =>
      rw [get_names, lastValue_eq_none] at found
      have unnamed : laterName platform store keys contractId = none := by
        apply lastValue_eq_none.mpr
        intro key _
        by_cases listed : key ∈ store.keys
        · exact found key listed
        · exact valueFor_absent listed
      rw [unnamed] at later
      cases later

theorem laterName_eq {store : Store} {contractId name : String}
    (later : laterName platform store store.keys contractId = some name) :
    (localNidoSnapshot platform store).names.get contractId = some name := by
  unfold laterName at later
  by_cases present : nameKey contractId ∈ store.keys
  · obtain ⟨before, listed, _⟩ := laterKeys_split store.distinct present
    rw [get_names, listed, lastValue_append, lastValue_cons, later]
    rfl
  · rw [laterKeys_absent present] at later
    cases later

def received (snapshot : NidoAccountSnapshot) : NidoAccountSnapshot :=
  { snapshot with names := Keyed.empty.putAll snapshot.names.entries }

theorem received_get (snapshot : NidoAccountSnapshot) (contractId : String) :
    (received snapshot).names.get contractId = snapshot.names.get contractId := by
  unfold received
  dsimp only
  rw [Keyed.get_putAll_entries, Keyed.get_empty, Option.or_none]

theorem merged_get (before snapshot : NidoAccountSnapshot) (contractId : String) :
    (mergedSnapshot platform before (received snapshot)).names.get contractId =
      (snapshot.names.get contractId).or (before.names.get contractId) := by
  unfold mergedSnapshot
  dsimp only
  rw [Keyed.get_putAll_entries, received_get]

theorem merged_accounts {before snapshot : NidoAccountSnapshot} (normal : Normal platform before)
    (otherNormal : Normal platform snapshot) :
    (mergedSnapshot platform before (received snapshot)).accounts =
      Keyed.firsts id [] (before.accounts ++ snapshot.accounts) := by
  apply uniqueContractIds_json
  intro contractId member
  rcases List.mem_append.mp member with own | other
  · exact normal.accounts contractId own
  · exact otherNormal.accounts contractId other

theorem merged_normal {before snapshot : NidoAccountSnapshot} (normal : Normal platform before)
    (otherNormal : Normal platform snapshot) :
    Normal platform (mergedSnapshot platform before (received snapshot)) where
  accounts := fun contractId member =>
    @uniqueContractIds_normal _ (accountsJson (before.accounts ++ snapshot.accounts))
      contractId member
  accounts_nodup := uniqueContractIds_nodup (accountsJson (before.accounts ++ snapshot.accounts))
  pending := by
    intro account member
    have both := Keyed.mem_firsts member
    rcases List.mem_append.mp both.1 with own | other
    · exact ⟨(normal.pending account own).1, (normal.pending account own).2.1, both.2⟩
    · exact ⟨(otherNormal.pending account other).1, (otherNormal.pending account other).2.1, both.2⟩
  pending_nodup := Keyed.firsts_nodup _ _
  names := by
    intro entry member
    have found := Keyed.get_eq_some.mpr member
    rw [merged_get] at found
    rcases Option.or_eq_some_iff.mp found with other | ⟨_, own⟩
    · exact otherNormal.names entry (Keyed.get_eq_some.mp other)
    · exact normal.names entry (Keyed.get_eq_some.mp own)

/-! The writes of a snapshot, read back. -/

theorem nameKey_ne_accountKey (contractId : String) : nameKey contractId ≠ accountKey := by
  intro same
  have starts : (nameKey contractId).toList.take 6 = accountKey.toList.take 6 := by rw [same]
  unfold nameKey at starts
  rw [String.toList_append] at starts
  cases starts

theorem nameKey_ne_pendingKey (contractId : String) : nameKey contractId ≠ pendingKey := by
  intro same
  have starts : (nameKey contractId).toList.take 6 = pendingKey.toList.take 6 := by rw [same]
  unfold nameKey at starts
  rw [String.toList_append] at starts
  cases starts

def nameWrites (snapshot : NidoAccountSnapshot) : List (String × String) :=
  snapshot.names.entries.map (fun entry => (nameKey entry.1, entry.2))

theorem nameWrites_lookup (snapshot : NidoAccountSnapshot) (contractId : String) :
    (nameWrites snapshot).reverse.lookup (nameKey contractId) = snapshot.names.get contractId := by
  have distinct : ((nameWrites snapshot).map Prod.fst).Nodup := by
    unfold nameWrites
    rw [List.map_map]
    have keys : snapshot.names.entries.map (Prod.fst ∘ fun entry => (nameKey entry.1, entry.2)) =
        (snapshot.names.entries.map Prod.fst).map nameKey := by
      rw [List.map_map]
      rfl
    rw [keys]
    exact snapshot.names.distinct.map (fun _ _ same => nameKey_injective same)
  rw [Keyed.lookup_reverse distinct]
  apply Option.ext
  intro name
  rw [Keyed.lookup_eq_some distinct, Keyed.get_eq_some]
  unfold nameWrites
  rw [List.mem_map]
  constructor
  · rintro ⟨⟨other, value⟩, member, same⟩
    cases nameKey_injective (congrArg Prod.fst same)
    cases congrArg Prod.snd same
    exact member
  · intro member
    exact ⟨(contractId, name), member, rfl⟩

theorem nameWrites_lookup_other (snapshot : NidoAccountSnapshot) {key : String}
    (other : ∀ contractId, nameKey contractId ≠ key) :
    (nameWrites snapshot).reverse.lookup key = none := by
  rw [Keyed.lookup_reverse_eq_none]
  intro write member
  obtain ⟨entry, _, rfl⟩ := List.mem_map.mp member
  exact other entry.1

theorem snapshotWrites_lookup (snapshot : NidoAccountSnapshot) (key : String) :
    (snapshotWrites snapshot).reverse.lookup key =
      ((nameWrites snapshot).reverse.lookup key).or
        (if key = pendingKey then some (Json.stringify (pendingJson snapshot.pending))
        else if key = accountKey then some (Json.stringify (accountsJson snapshot.accounts))
        else none) := by
  unfold snapshotWrites
  rw [List.reverse_cons, List.reverse_cons, List.append_assoc, List.lookup_append]
  congr 1
  by_cases isPending : key = pendingKey
  · simp [isPending]
  · by_cases isAccount : key = accountKey
    · simp [isAccount, List.lookup_cons, accountKey, pendingKey]
    · simp [List.lookup_cons, beq_false_of_ne isPending, beq_false_of_ne isAccount, isPending,
        isAccount]

theorem written_item (store : Store) (snapshot : NidoAccountSnapshot) (key : String) :
    (writeItems store (snapshotWrites snapshot)).item key =
      (((nameWrites snapshot).reverse.lookup key).or
        (if key = pendingKey then some (Json.stringify (pendingJson snapshot.pending))
        else if key = accountKey then some (Json.stringify (accountsJson snapshot.accounts))
        else none)).or (store.item key) := by
  rw [item_writeItems, snapshotWrites_lookup]

theorem spelledId_accountKey : spelledId platform accountKey = none := by
  unfold spelledId
  exact if_neg (by decide)

theorem spelledId_pendingKey : spelledId platform pendingKey = none := by
  unfold spelledId
  exact if_neg (by decide)

/-- Only the key of an id itself can give the id another name when a snapshot is written. -/
theorem valueFor_written (store : Store) {snapshot : NidoAccountSnapshot}
    (normal : Normal platform snapshot) {contractId key : String}
    (untouched : key = nameKey contractId → snapshot.names.get contractId = none) :
    valueFor platform (writeItems store (snapshotWrites snapshot)) contractId key =
      valueFor platform store contractId key := by
  unfold valueFor
  split
  next spelt =>
    have notAccount : key ≠ accountKey := by
      rintro rfl
      rw [spelledId_accountKey] at spelt
      cases spelt
    have notPending : key ≠ pendingKey := by
      rintro rfl
      rw [spelledId_pendingKey] at spelt
      cases spelt
    have unnamed : (nameWrites snapshot).reverse.lookup key = none := by
      rw [Keyed.lookup_reverse_eq_none]
      intro write member same
      obtain ⟨entry, listed, rfl⟩ := List.mem_map.mp member
      dsimp only at same
      subst same
      rw [spelledId_nameKey (normal.names entry listed).1] at spelt
      cases spelt
      have named : snapshot.names.get entry.1 = some entry.2 := Keyed.get_eq_some.mpr listed
      rw [untouched rfl] at named
      cases named
    unfold validItem
    rw [written_item, unnamed, if_neg notPending, if_neg notAccount]
    rfl
  next => rfl

theorem lastValue_written (store : Store) {snapshot : NidoAccountSnapshot}
    (normal : Normal platform snapshot) {contractId : String} (keys : List String)
    (untouched : nameKey contractId ∈ keys → snapshot.names.get contractId = none) :
    lastValue (valueFor platform (writeItems store (snapshotWrites snapshot)) contractId)
        keys = lastValue (valueFor platform store contractId) keys := by
  apply lastValue_congr
  intro key member
  apply valueFor_written store normal
  rintro rfl
  exact untouched member

/-- A store whose snapshot is written keeps the later names, as its keys are listed then, and
takes the others. -/
theorem written_name (store : Store) {snapshot : NidoAccountSnapshot}
    (normal : Normal platform snapshot)
    (kept : ∀ contractId, snapshot.names.get contractId = none →
      (localNidoSnapshot platform store).names.get contractId = none) (contractId : String) :
    (localNidoSnapshot platform
        (writeItems store (snapshotWrites snapshot))).names.get contractId =
      (laterName platform store (writeItems store (snapshotWrites snapshot)).keys contractId).or
        (snapshot.names.get contractId) := by
  cases named : snapshot.names.get contractId with
  | none =>
      have unnamed := kept contractId named
      have free : laterName platform store (writeItems store (snapshotWrites snapshot)).keys
          contractId = none := by
        cases later : laterName platform store (writeItems store (snapshotWrites snapshot)).keys
            contractId with
        | none => rfl
        | some name =>
            obtain ⟨known, found⟩ := laterName_known later
            rw [unnamed] at found
            cases found
      rw [get_names, lastValue_written store normal _ (fun _ => named), free, Option.or_none]
      rw [get_names, lastValue_eq_none] at unnamed
      apply lastValue_eq_none.mpr
      intro key _
      by_cases listed : key ∈ store.keys
      · exact unnamed key listed
      · exact valueFor_absent listed
  | some name =>
      obtain ⟨spelt, valid⟩ := normal.names _ (Keyed.get_eq_some.mp named)
      have item : (writeItems store (snapshotWrites snapshot)).item (nameKey contractId) =
          some name := by
        rw [written_item, nameWrites_lookup, named]
        rfl
      have own : valueFor platform (writeItems store (snapshotWrites snapshot)) contractId
          (nameKey contractId) = some name := by
        unfold valueFor validItem
        rw [if_pos (spelledId_nameKey spelt), item]
        exact if_pos valid
      have present : nameKey contractId ∈ (writeItems store (snapshotWrites snapshot)).keys := by
        rw [← Store.stored, item]
        rfl
      obtain ⟨before, listed, absent⟩ := laterKeys_split (Store.distinct _) present
      have unchanged := lastValue_written store normal
        (laterKeys (nameKey contractId) (writeItems store (snapshotWrites snapshot)).keys)
        (fun member => absurd member absent)
      unfold laterName
      rw [get_names, listed, lastValue_append, lastValue_cons, ← listed, unchanged, own]
      cases lastValue (valueFor platform store contractId)
        (laterKeys (nameKey contractId) (writeItems store (snapshotWrites snapshot)).keys) <;> rfl

theorem written_accounts (store : Store) {snapshot : NidoAccountSnapshot}
    (normal : Normal platform snapshot) :
    (localNidoSnapshot platform
      (writeItems store (snapshotWrites snapshot))).accounts = snapshot.accounts := by
  have stored : (writeItems store (snapshotWrites snapshot)).item accountKey =
      some (Json.stringify (accountsJson snapshot.accounts)) := by
    rw [written_item, nameWrites_lookup_other _ nameKey_ne_accountKey]
    rfl
  unfold localNidoSnapshot
  dsimp only
  rw [stored, readJson_stringify (accountsJson_textual _), normal.accounts_read]

theorem written_pending (store : Store) {snapshot : NidoAccountSnapshot}
    (normal : Normal platform snapshot) :
    (localNidoSnapshot platform
      (writeItems store (snapshotWrites snapshot))).pending = snapshot.pending := by
  have accounts := written_accounts store normal
  have stored : (writeItems store (snapshotWrites snapshot)).item pendingKey =
      some (Json.stringify (pendingJson snapshot.pending)) := by
    rw [written_item, nameWrites_lookup_other _ nameKey_ne_pendingKey]
    rfl
  unfold localNidoSnapshot at accounts ⊢
  dsimp only at accounts ⊢
  rw [accounts, stored, readJson_stringify (pendingJson_textual _), normal.pending_read]

/-- What a store has become once a snapshot was merged into it. -/
structure Merges (platform : Platform) (store : Store) (snapshot : NidoAccountSnapshot)
    (after : Store) : Prop where
  accounts : (localNidoSnapshot platform after).accounts = Keyed.firsts id []
    ((localNidoSnapshot platform store).accounts ++ snapshot.accounts)
  pending : (localNidoSnapshot platform after).pending =
    Keyed.firsts PendingAccount.contractId (localNidoSnapshot platform after).accounts
      ((localNidoSnapshot platform store).pending ++ snapshot.pending)
  names : ∀ contractId, (localNidoSnapshot platform after).names.get contractId =
    (laterName platform store after.keys contractId).or ((snapshot.names.get contractId).or
      ((localNidoSnapshot platform store).names.get contractId))

theorem mergeNidoSnapshot_merges (store : Store) {snapshot : NidoAccountSnapshot}
    (normal : Normal platform snapshot) :
    Merges platform store snapshot (mergeNidoSnapshot platform snapshot.toJson store).1 := by
  have own : Normal platform (localNidoSnapshot platform store) := localNidoSnapshot_normal store
  have merged := merged_normal own normal
  have accounts := merged_accounts own normal
  have pending : (mergedSnapshot platform (localNidoSnapshot platform store)
      (received snapshot)).pending = Keyed.firsts PendingAccount.contractId
        (mergedSnapshot platform (localNidoSnapshot platform store) (received snapshot)).accounts
        ((localNidoSnapshot platform store).pending ++ snapshot.pending) := rfl
  unfold mergeNidoSnapshot
  rw [normalizeSnapshot_toJson normal]
  change Merges platform store snapshot (if stableSnapshot platform
    (localNidoSnapshot platform store) = stableSnapshot platform (mergedSnapshot platform
      (localNidoSnapshot platform store) (received snapshot)) then (store, false) else
        (writeItems store (snapshotWrites (mergedSnapshot platform
          (localNidoSnapshot platform store) (received snapshot))), true)).1
  split
  next stable =>
    obtain ⟨sameAccounts, samePending, sameNames⟩ := stableSnapshot_eq stable
    refine ⟨sameAccounts.trans accounts, ?_, ?_⟩
    · rw [sameAccounts]
      exact samePending.trans pending
    · intro contractId
      have same := (sameNames contractId).trans (merged_get _ _ contractId)
      rw [← same]
      cases later : laterName platform store store.keys contractId with
      | none => rfl
      | some name => exact laterName_eq later
  next =>
    refine ⟨(written_accounts store merged).trans accounts, ?_, ?_⟩
    · rw [written_accounts store merged]
      exact (written_pending store merged).trans pending
    · intro contractId
      rw [← merged_get]
      apply written_name store merged
      intro other absent
      rw [merged_get, Option.or_eq_none_iff] at absent
      exact absent.2

/-- Nothing is written when everything that arrives is known. -/
theorem mergeNidoSnapshot_known (store : Store) {snapshot : NidoAccountSnapshot}
    (normal : Normal platform snapshot)
    (accounts : ∀ contractId ∈ snapshot.accounts,
      contractId ∈ (localNidoSnapshot platform store).accounts)
    (pending : ∀ contractId ∈ snapshot.pending.map PendingAccount.contractId,
      contractId ∈ (localNidoSnapshot platform store).pending.map PendingAccount.contractId)
    (names : ∀ contractId name, snapshot.names.get contractId = some name →
      (localNidoSnapshot platform store).names.get contractId = some name) :
    mergeNidoSnapshot platform snapshot.toJson store = (store, false) := by
  have own : Normal platform (localNidoSnapshot platform store) := localNidoSnapshot_normal store
  have sameAccounts : (mergedSnapshot platform (localNidoSnapshot platform store)
      (received snapshot)).accounts = (localNidoSnapshot platform store).accounts := by
    rw [merged_accounts own normal]
    apply Keyed.firsts_append_of_known
    · rw [List.map_id]
      exact own.accounts_nodup
    · intro place _ impossible
      cases impossible
    · intro contractId listed
      rw [List.map_id] at listed ⊢
      exact Or.inr (accounts contractId listed)
  have samePending : (mergedSnapshot platform (localNidoSnapshot platform store)
      (received snapshot)).pending = (localNidoSnapshot platform store).pending := by
    change Keyed.firsts PendingAccount.contractId (mergedSnapshot platform
      (localNidoSnapshot platform store) (received snapshot)).accounts _ = _
    rw [sameAccounts]
    apply Keyed.firsts_append_of_known own.pending_nodup
    · intro place listed
      obtain ⟨account, member, rfl⟩ := List.mem_map.mp listed
      exact (own.pending account member).2.2
    · intro contractId listed
      exact Or.inr (pending contractId listed)
  have sameNames : (mergedSnapshot platform (localNidoSnapshot platform store)
      (received snapshot)).names = (localNidoSnapshot platform store).names := by
    apply Keyed.putAll_of_get
    rintro ⟨contractId, name⟩ listed
    apply names
    rw [← received_get]
    exact Keyed.get_eq_some.mpr listed
  have same : mergedSnapshot platform (localNidoSnapshot platform store) (received snapshot) =
      localNidoSnapshot platform store := by
    cases merged : mergedSnapshot platform (localNidoSnapshot platform store) (received snapshot)
    rw [merged] at sameAccounts samePending sameNames
    dsimp only at sameAccounts samePending sameNames
    rw [sameAccounts, samePending, sameNames]
  have arrived : normalizeSnapshot platform snapshot.toJson = received snapshot :=
    normalizeSnapshot_toJson normal
  unfold mergeNidoSnapshot
  dsimp only
  rw [arrived, same, if_pos rfl]

end Merge

/-! ### An exchange -/

section Exchange

variable (platform : Platform)

/-- Two stores take what the other has, first the second one and then the first. -/
def exchange (first second : Store) : (Store × Bool) × (Store × Bool) :=
  let second' := mergeNidoSnapshot platform (localNidoSnapshot platform first).toJson second
  (mergeNidoSnapshot platform (localNidoSnapshot platform second'.1).toJson first, second')

def NidoAccountSnapshot.pendingIds (snapshot : NidoAccountSnapshot) : List String :=
  snapshot.pending.map PendingAccount.contractId

/-- A snapshot with the accounts of two, and with what is pending in one of them. -/
structure Union (first second after : NidoAccountSnapshot) : Prop where
  accounts : ∀ contractId, contractId ∈ after.accounts ↔
    contractId ∈ first.accounts ∨ contractId ∈ second.accounts
  pending : ∀ contractId, contractId ∈ after.pendingIds ↔
    (contractId ∈ first.pendingIds ∨ contractId ∈ second.pendingIds) ∧
      contractId ∉ after.accounts

/-- After an exchange both stores know the same, and exchanging again changes nothing. -/
structure Converges (first second : Store) : Prop where
  first_union : Union (localNidoSnapshot platform first) (localNidoSnapshot platform second)
    (localNidoSnapshot platform (exchange platform first second).1.1)
  second_union : Union (localNidoSnapshot platform first) (localNidoSnapshot platform second)
    (localNidoSnapshot platform (exchange platform first second).2.1)
  names : ∀ contractId,
    (localNidoSnapshot platform (exchange platform first second).1.1).names.get contractId =
      (localNidoSnapshot platform (exchange platform first second).2.1).names.get contractId
  settled : exchange platform (exchange platform first second).1.1
      (exchange platform first second).2.1 =
    (((exchange platform first second).1.1, false), ((exchange platform first second).2.1, false))

variable {platform}

theorem Merges.mem_accounts {store after : Store} {snapshot : NidoAccountSnapshot}
    (merges : Merges platform store snapshot after) (contractId : String) :
    contractId ∈ (localNidoSnapshot platform after).accounts ↔
      contractId ∈ (localNidoSnapshot platform store).accounts ∨
        contractId ∈ snapshot.accounts := by
  have members : contractId ∈ (Keyed.firsts id [] ((localNidoSnapshot platform store).accounts ++
      snapshot.accounts)).map id ↔ _ := Keyed.mem_firsts_keys
  rw [List.map_id, List.map_id, ← merges.accounts, List.mem_append] at members
  rw [members]
  exact and_iff_left List.not_mem_nil

theorem Merges.mem_pending {store after : Store} {snapshot : NidoAccountSnapshot}
    (merges : Merges platform store snapshot after) (contractId : String) :
    contractId ∈ (localNidoSnapshot platform after).pendingIds ↔
      (contractId ∈ (localNidoSnapshot platform store).pendingIds ∨
        contractId ∈ snapshot.pendingIds) ∧
        contractId ∉ (localNidoSnapshot platform after).accounts := by
  unfold NidoAccountSnapshot.pendingIds
  rw [merges.pending, Keyed.mem_firsts_keys, List.map_append, List.mem_append]

section Both

variable {first second first' second' : Store}

theorem Merges.second_union
    (toSecond : Merges platform second (localNidoSnapshot platform first) second') :
    Union (localNidoSnapshot platform first) (localNidoSnapshot platform second)
      (localNidoSnapshot platform second') := by
  constructor
  · intro contractId
    rw [toSecond.mem_accounts, or_comm]
  · intro contractId
    rw [toSecond.mem_pending, or_comm]

theorem Merges.first_union
    (toSecond : Merges platform second (localNidoSnapshot platform first) second')
    (toFirst : Merges platform first (localNidoSnapshot platform second') first') :
    Union (localNidoSnapshot platform first) (localNidoSnapshot platform second)
      (localNidoSnapshot platform first') := by
  constructor
  · intro contractId
    rw [toFirst.mem_accounts, toSecond.mem_accounts]
    tauto
  · intro contractId
    have accounts := toFirst.mem_accounts contractId
    have known := toSecond.mem_accounts contractId
    rw [toFirst.mem_pending, toSecond.mem_pending]
    tauto

theorem Merges.names_iff
    (toSecond : Merges platform second (localNidoSnapshot platform first) second')
    (toFirst : Merges platform first (localNidoSnapshot platform second') first')
    (contractId : String) :
    (localNidoSnapshot platform first').names.get contractId =
        (localNidoSnapshot platform second').names.get contractId ↔
      ∀ name, laterName platform first first'.keys contractId = some name →
        (laterName platform second second'.keys contractId).or
          ((localNidoSnapshot platform first).names.get contractId) = some name := by
  rw [toFirst.names, toSecond.names]
  cases later : laterName platform first first'.keys contractId with
  | none =>
      -- What the second store ends with arrives in the first one.
      cases laterName platform second second'.keys contractId <;>
        cases (localNidoSnapshot platform first).names.get contractId <;>
          cases (localNidoSnapshot platform second).names.get contractId <;> simp
  | some name =>
      obtain ⟨known, found⟩ := laterName_known later
      rw [found]
      cases laterName platform second second'.keys contractId with
      | none => simp [eq_comm]
      | some other => simp [eq_comm]

end Both

theorem mergeNidoSnapshot_of_union {first second : NidoAccountSnapshot} {store other : Store}
    (own : Union first second (localNidoSnapshot platform store))
    (incoming : Union first second (localNidoSnapshot platform other))
    (names : ∀ contractId, (localNidoSnapshot platform other).names.get contractId =
      (localNidoSnapshot platform store).names.get contractId) :
    mergeNidoSnapshot platform (localNidoSnapshot platform other).toJson store =
      (store, false) := by
  apply mergeNidoSnapshot_known store (localNidoSnapshot_normal other)
  · intro contractId listed
    exact (own.accounts contractId).mpr ((incoming.accounts contractId).mp listed)
  · intro contractId listed
    have pending := (incoming.pending contractId).mp listed
    apply (own.pending contractId).mpr
    rw [own.accounts, ← incoming.accounts]
    exact pending
  · intro contractId name named
    rw [← names]
    exact named

theorem exchange_second (first second : Store) :
    Merges platform second (localNidoSnapshot platform first)
      (exchange platform first second).2.1 :=
  mergeNidoSnapshot_merges second (localNidoSnapshot_normal first)

theorem exchange_first (first second : Store) :
    Merges platform first (localNidoSnapshot platform (exchange platform first second).2.1)
      (exchange platform first second).1.1 :=
  mergeNidoSnapshot_merges first (localNidoSnapshot_normal _)

theorem Converges.agree {first second : Store} (converges : Converges platform first second)
    (contractId name : String)
    (later : laterName platform first (exchange platform first second).1.1.keys contractId =
      some name) :
    (laterName platform second (exchange platform first second).2.1.keys contractId).or
      ((localNidoSnapshot platform first).names.get contractId) = some name :=
  ((exchange_second first second).names_iff (exchange_first first second) contractId).mp
    (converges.names contractId) name later

variable (platform) in
/-- Another key than the id's own one spells the id and holds a name. -/
def OtherName (store : Store) (contractId name : String) : Prop :=
  ∃ key ∈ store.keys, key ≠ nameKey contractId ∧
    valueFor platform store contractId key = some name

theorem laterName_other {store : Store} {keys : List String} {contractId name : String}
    (distinct : keys.Nodup) (later : laterName platform store keys contractId = some name) :
    OtherName platform store contractId name := by
  obtain ⟨key, member, named⟩ := List.exists_of_findSome?_eq_some later
  rw [List.mem_reverse] at member
  have present : nameKey contractId ∈ keys := by
    by_contra absent
    rw [laterKeys_absent absent] at member
    cases member
  obtain ⟨_, _, apart⟩ := laterKeys_split distinct present
  refine ⟨key, ?_, ?_, named⟩
  · by_contra absent
    rw [valueFor_absent absent] at named
    cases named
  · rintro rfl
    exact apart member

/-- An exchange makes two stores agree on everything but, possibly, on names: an id keeps
its name in a store where a key that spells it in another way is listed behind the id's own
key. In which order the browsers list the keys afterwards is theirs to choose; in no order do
the stores stay apart when such keys only repeat the name that the first store reads. -/
theorem exchange_converges_iff (first second : Store) :
    (Converges platform first second ↔
      ∀ contractId name,
        laterName platform first (exchange platform first second).1.1.keys contractId =
          some name →
        (laterName platform second (exchange platform first second).2.1.keys contractId).or
          ((localNidoSnapshot platform first).names.get contractId) = some name) ∧
    ((∀ contractId name, OtherName platform first contractId name →
        (localNidoSnapshot platform first).names.get contractId = some name ∧
          ∀ other, OtherName platform second contractId other → other = name) →
      Converges platform first second) := by
  have toSecond : Merges platform second (localNidoSnapshot platform first)
      (exchange platform first second).2.1 := exchange_second first second
  have toFirst : Merges platform first
      (localNidoSnapshot platform (exchange platform first second).2.1)
      (exchange platform first second).1.1 := exchange_first first second
  have exact_ : Converges platform first second ↔
      ∀ contractId name,
        laterName platform first (exchange platform first second).1.1.keys contractId =
          some name →
        (laterName platform second (exchange platform first second).2.1.keys contractId).or
          ((localNidoSnapshot platform first).names.get contractId) = some name := by
    refine ⟨Converges.agree, ?_⟩
    intro agree
    have same (contractId : String) :=
      (toSecond.names_iff toFirst contractId).mpr (agree contractId)
    have firstUnion := toSecond.first_union toFirst
    have secondUnion := toSecond.second_union
    have again := mergeNidoSnapshot_of_union secondUnion firstUnion same
    have back := mergeNidoSnapshot_of_union firstUnion secondUnion
      (fun contractId => (same contractId).symm)
    have settled (left right : Store)
        (taken : mergeNidoSnapshot platform (localNidoSnapshot platform left).toJson right =
          (right, false))
        (returned : mergeNidoSnapshot platform (localNidoSnapshot platform right).toJson left =
          (left, false)) :
        exchange platform left right = ((left, false), (right, false)) := by
      unfold exchange
      rw [taken]
      dsimp only
      rw [returned]
    exact ⟨firstUnion, secondUnion, same, settled _ _ again back⟩
  refine ⟨exact_, ?_⟩
  intro repeated
  apply exact_.mpr
  intro contractId name later
  obtain ⟨known, others⟩ := repeated contractId name (laterName_other (Store.distinct _) later)
  cases second_ : laterName platform second (exchange platform first second).2.1.keys
      contractId with
  | none => exact known
  | some other =>
      rw [others other (laterName_other (Store.distinct _) second_)]
      rfl

/-! Two stores that know an id under its own key and, written later, under an older
spelling with another name. -/

def insertionOrder : KeyOrder where
  insert := fun key keys => keys ++ [key]
  permutes := fun key keys => List.perm_append_singleton key keys

theorem writeItems_appends {store : Store} (last : store.order = insertionOrder)
    (writes : List (String × String)) :
    ∃ extra, (writeItems store writes).keys = store.keys ++ extra := by
  induction writes generalizing store with
  | nil => exact ⟨[], (List.append_nil _).symm⟩
  | cons write rest ih =>
      obtain ⟨extra, grown⟩ := @ih (store.setItem write.1 write.2) last
      have written : (store.setItem write.1 write.2).keys =
          insertionOrder.withKey write.1 store.keys := by
        rw [← last]
        rfl
      change (writeItems (store.setItem write.1 write.2) rest).keys = _ at grown
      by_cases present : write.1 ∈ store.keys
      · rw [written, KeyOrder.withKey, if_pos present] at grown
        exact ⟨extra, grown⟩
      · rw [written, KeyOrder.withKey, if_neg present] at grown
        exact ⟨[write.1] ++ extra, by rw [← List.append_assoc]; exact grown⟩

theorem mergeNidoSnapshot_appends {store : Store} (last : store.order = insertionOrder)
    (incoming : Json) :
    ∃ extra, (mergeNidoSnapshot platform incoming store).1.keys = store.keys ++ extra := by
  unfold mergeNidoSnapshot
  dsimp only
  split
  next => exact ⟨[], (List.append_nil _).symm⟩
  next => exact writeItems_appends last _

theorem toUpper_idem (c : Char) : c.toUpper.toUpper = c.toUpper := by
  have unchanged (other : Char) (notLower : ¬ ('a'.val ≤ other.val ∧ other.val ≤ 'z'.val)) :
      other.toUpper = other := by
    unfold Char.toUpper
    rw [dif_neg notLower]
  by_cases lower : 'a'.val ≤ c.val ∧ c.val ≤ 'z'.val
  · have value : c.toUpper.val = c.val + ('A'.val - 'a'.val) := by
      unfold Char.toUpper
      rw [dif_pos lower]
    apply unchanged
    have offset : ('A'.val - 'a'.val).toNat = 4294967264 := by decide
    have first : 'a'.val.toNat = 97 := by decide
    have last : 'z'.val.toNat = 122 := by decide
    rw [value]
    rw [UInt32.le_iff_toNat_le, UInt32.le_iff_toNat_le] at lower ⊢
    rw [UInt32.toNat_add]
    omega
  · rw [unchanged c lower, unchanged c lower]

def asciiPlatform : Platform where
  toUpperCase := fun text => String.ofList (text.toList.map Char.toUpper)
  toUpperCase_idem := by
    intro text
    rw [String.toList_ofList, List.map_map]
    congr 2
    funext c
    exact toUpper_idem c
  localeCompare := fun left right => if left < right then -1 else if left = right then 0 else 1

def knownId : String := String.ofList ('C' :: List.replicate 55 'A')

def olderSpelling : String := String.ofList ('c' :: List.replicate 55 'A')

theorem knownId_ne : nameKey knownId ≠ nameKey olderSpelling := by
  intro same
  have spellings := congrArg String.toList (nameKey_injective same)
  unfold knownId olderSpelling at spellings
  rw [String.toList_ofList, String.toList_ofList] at spellings
  cases spellings

def spelledTwice (name : String) : Store where
  keys := [nameKey knownId, nameKey olderSpelling]
  item := fun key =>
    if key = nameKey knownId ∨ key = nameKey olderSpelling then some name else none
  order := insertionOrder
  distinct := by
    rw [List.nodup_cons, List.mem_singleton]
    exact ⟨knownId_ne, List.nodup_singleton _⟩
  stored := by
    intro key
    rw [List.mem_cons, List.mem_singleton]
    split
    next listed => exact iff_of_true rfl listed
    next unlisted => exact iff_of_false (by decide) unlisted

theorem knownId_valid : isContractId knownId.toList = true := by
  unfold knownId
  rw [String.toList_ofList]
  decide

theorem knownId_normal : IsNormal asciiPlatform knownId := by
  have upper : asciiPlatform.toUpperCase knownId = knownId := by
    change String.ofList (knownId.toList.map Char.toUpper) = knownId
    unfold knownId
    rw [String.toList_ofList, List.map_cons, List.map_replicate]
    rfl
  unfold IsNormal normalizeId
  rw [upper]
  exact if_pos knownId_valid

theorem olderSpelling_spells : spelledId asciiPlatform (nameKey olderSpelling) = some knownId := by
  have upper : asciiPlatform.toUpperCase olderSpelling = knownId := by
    change String.ofList (olderSpelling.toList.map Char.toUpper) = knownId
    unfold olderSpelling knownId
    rw [String.toList_ofList, List.map_cons, List.map_replicate]
    rfl
  unfold nameKey
  rw [spelledId_append]
  unfold normalizeId
  rw [upper]
  exact if_pos knownId_valid

theorem valueFor_olderSpelling (name : String) (valid : validName name = true) :
    valueFor asciiPlatform (spelledTwice name) knownId (nameKey olderSpelling) = some name := by
  have item : (spelledTwice name).item (nameKey olderSpelling) = some name := by
    unfold spelledTwice
    dsimp only
    exact if_pos (Or.inr rfl)
  unfold valueFor validItem
  rw [if_pos olderSpelling_spells, item, Option.filter_some, if_pos valid]

/-- The older spelling is listed behind the id's own key, whatever is added behind both. -/
theorem spelledTwice_laterName (name : String) (valid : validName name = true) (incoming : Json) :
    laterName asciiPlatform (spelledTwice name)
      (mergeNidoSnapshot asciiPlatform incoming (spelledTwice name)).1.keys knownId =
        some name := by
  have appends : ∃ extra,
      (mergeNidoSnapshot asciiPlatform incoming (spelledTwice name)).1.keys =
        (spelledTwice name).keys ++ extra := mergeNidoSnapshot_appends rfl incoming
  obtain ⟨extra, listed⟩ := appends
  have distinct := (mergeNidoSnapshot asciiPlatform incoming (spelledTwice name)).1.distinct
  rw [listed] at distinct ⊢
  have unknown : lastValue (valueFor asciiPlatform (spelledTwice name) knownId) extra = none := by
    apply lastValue_eq_none.mpr
    intro key added
    apply valueFor_absent
    intro stored
    exact (List.nodup_append.mp distinct).2.2 key stored key added rfl
  have stands : (spelledTwice name).keys ++ extra =
      [] ++ nameKey knownId :: (nameKey olderSpelling :: extra) := rfl
  unfold laterName
  rw [stands, laterKeys_append _ List.not_mem_nil, lastValue_cons, unknown,
    valueFor_olderSpelling name valid]
  rfl

theorem spelledTwice_otherName {name contractId other : String} (valid : validName name = true)
    (named : OtherName asciiPlatform (spelledTwice name) contractId other) :
    contractId = knownId ∧ other = name := by
  obtain ⟨key, listed, foreign, value⟩ := named
  rcases List.mem_cons.mp listed with rfl | listed
  · unfold valueFor at value
    rw [spelledId_nameKey knownId_normal] at value
    split at value
    next same => exact absurd (by rw [Option.some.inj same]) foreign
    next => cases value
  · rw [List.mem_singleton.mp listed] at value
    by_cases same : contractId = knownId
    · subst contractId
      rw [valueFor_olderSpelling name valid] at value
      exact ⟨rfl, (Option.some.inj value).symm⟩
    · unfold valueFor at value
      rw [olderSpelling_spells, if_neg (fun equal => same (Option.some.inj equal).symm)] at value
      cases value

/-- A store without keys that lists a new one before the others. -/
def emptyStore : Store where
  keys := []
  item := fun _ => none
  order := { insert := fun key keys => key :: keys, permutes := fun _ _ => List.Perm.refl _ }
  distinct := List.nodup_nil
  stored := fun _ => iff_of_false (by decide) List.not_mem_nil

/-- A name that is spelt twice alike reaches a new store. -/
theorem exchange_converges_iff_new :
    Converges asciiPlatform (spelledTwice "alice") emptyStore ∧
      (localNidoSnapshot asciiPlatform (exchange asciiPlatform (spelledTwice "alice")
        emptyStore).2.1).names.get knownId = some "alice" := by
  have valid : validName "alice" = true := by decide
  have known : (localNidoSnapshot asciiPlatform (spelledTwice "alice")).names.get knownId =
      some "alice" := by
    rw [get_names]
    change lastValue _ ([nameKey knownId] ++ [nameKey olderSpelling]) = _
    rw [lastValue_append, lastValue_cons, valueFor_olderSpelling _ valid]
    rfl
  have unspelled (contractId other : String) :
      ¬ OtherName asciiPlatform emptyStore contractId other := by
    rintro ⟨key, listed, _⟩
    cases listed
  constructor
  · apply (exchange_converges_iff (spelledTwice "alice") emptyStore).2
    intro contractId name named
    obtain ⟨rfl, rfl⟩ := spelledTwice_otherName valid named
    exact ⟨known, fun other spelled => absurd spelled (unspelled _ other)⟩
  · rw [(exchange_second _ _).names, known]
    cases later : laterName asciiPlatform emptyStore (exchange asciiPlatform
        (spelledTwice "alice") emptyStore).2.1.keys knownId with
    | none => rfl
    | some name => exact absurd (laterName_other (Store.distinct _) later) (unspelled _ name)

theorem spelledTwice_apart :
    ¬ Converges asciiPlatform (spelledTwice "alice") (spelledTwice "bob") := by
  intro converges
  have alice := spelledTwice_laterName "alice" (by decide)
    (localNidoSnapshot asciiPlatform
      (exchange asciiPlatform (spelledTwice "alice") (spelledTwice "bob")).2.1).toJson
  have bob := spelledTwice_laterName "bob" (by decide)
    (localNidoSnapshot asciiPlatform (spelledTwice "alice")).toJson
  have same := converges.agree knownId "alice" alice
  change (laterName asciiPlatform (spelledTwice "bob") (mergeNidoSnapshot asciiPlatform
    (localNidoSnapshot asciiPlatform (spelledTwice "alice")).toJson
      (spelledTwice "bob")).1.keys knownId).or _ = _ at same
  rw [bob] at same
  exact absurd same (by decide)

end Exchange

end Nido.Frontend
