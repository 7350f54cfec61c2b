/-
Rows of an account's history.

Any contract may emit an event that names the account. A transfer becomes a payment when
its emitter is the contract of the asset that it names; the events of a transaction that
tell of the account's rules become one row.
-/

import Mathlib.Data.List.MinMax
import Nido.Frontend.Money
import Nido.Frontend.TxSummary

namespace Nido.Frontend

open Sdk

/-! ### Events -/

structure DecodedEvent where
  contractId : Option String
  topics : List Native
  data : Native

structure DecodedTx where
  txHash : String
  ts : Int
  events : List DecodedEvent

def DecodedEvent.topic (e : DecodedEvent) (index : Nat) : Native :=
  (e.topics[index]?).getD .undefined

def eventName (e : DecodedEvent) : String := (e.topic 0).asText.getD ""

/-- The network: the contract of a classic asset, which needs a valid code and issuer, and
the contract of the native one. -/
structure AssetContracts where
  contractId : (code : String) → (issuer : Option String) → Option String
  nativeSacId : String

def splitColon (text : String) : List String :=
  (text.toList.splitOn ':').map String.ofList

def assetLabel (topic3 : String) : String :=
  if topic3 = "native" then "XLM"
  else if ':' ∈ topic3.toList then (splitColon topic3).headD ""
  else topic3

def sacIdFor (contracts : AssetContracts) (asset : String) : Option String :=
  if asset = "native" then
    some contracts.nativeSacId
  else
    let parts := splitColon asset
    contracts.contractId (parts.headD "") parts.tail.head?

def isVerifiedSacTransfer (contracts : AssetContracts) (e : DecodedEvent) : Bool :=
  eventName e == "transfer" &&
    match (e.topic 3).asText with
    | some asset => e.contractId.isSome && e.contractId == sacIdFor contracts asset
    | none => false

def transferAmount (data : Native) : Option Int :=
  match data with
  | .bigint value => some value
  | .record entries =>
      match property entries "amount" with
      | some (.bigint value) => some value
      | _ => none
  | _ => none

/-! ### Rows -/

inductive ActivityKind
  | payment
  | rule
  | signer
  | policy
  | registry
  | other
deriving DecidableEq

inductive Direction
  | in_
  | out
deriving DecidableEq

structure ActivityItem where
  id : String
  txHash : String
  timestamp : Int
  kind : ActivityKind
  direction : Option Direction
  title : String
  subtitle : Option String
  amount : Option String
  asset : Option String
  assetUnverified : Bool
  counterparty : Option String
  explorerUrl : String

def explorerUrl (txHash : String) : String :=
  "https://stellar.expert/explorer/testnet/tx/" ++ txHash

def shortAddr (addr : String) (head tail : Nat) : String :=
  let chars := addr.toList
  if head + tail + 1 < chars.length then
    String.ofList (chars.take head ++ '…' :: chars.drop (chars.length - tail))
  else
    addr

structure AdminMeta where
  kind : ActivityKind
  title : String
deriving DecidableEq

def adminMeta (name : String) : Option AdminMeta :=
  if name = "context_rule_added" then some ⟨.rule, "Created a rule"⟩
  else if name = "context_rule_removed" then some ⟨.rule, "Removed a rule"⟩
  else if name = "context_rule_updated" ∨ name = "context_rule_meta_updated" then
    some ⟨.rule, "Updated a rule"⟩
  else if name = "signer_added" then some ⟨.signer, "Added a signer"⟩
  else if name = "signer_removed" then some ⟨.signer, "Removed a signer"⟩
  else if name = "policy_added" then some ⟨.policy, "Added a policy"⟩
  else if name = "policy_removed" then some ⟨.policy, "Removed a policy"⟩
  else if name = "signer_registered" ∨ name = "policy_registered" ∨
      name = "signer_deregistered" ∨ name = "policy_deregistered" then
    some ⟨.registry, "Updated account keys"⟩
  else none

def priority : ActivityKind → Nat
  | .rule => 4
  | .signer => 3
  | .policy => 2
  | .registry => 1
  | .other => 0
  | .payment => 0

/-- A row without the fields of a payment. -/
def plainRow (txHash : String) (ts : Int) (kind : ActivityKind) (title : String) :
    ActivityItem where
  id := txHash
  txHash := txHash
  timestamp := ts
  kind := kind
  direction := none
  title := title
  subtitle := none
  amount := none
  asset := none
  assetUnverified := false
  counterparty := none
  explorerUrl := explorerUrl txHash

/-- The administrative event that stands for those so far, and the next one. -/
def betterMeta (best : Option AdminMeta) (e : DecodedEvent) : Option AdminMeta :=
  match adminMeta (eventName e), best with
  | none, best => best
  | some found, none => some found
  | some found, some best =>
      if priority best.kind < priority found.kind then some found else some best

def bestMeta (events : List DecodedEvent) : Option AdminMeta := events.foldl betterMeta none

section Classify

variable (reader : NativeReader) (contracts : AssetContracts) (self_ : String)
  (knownSacIds : Option (List String))

def paymentItem (e : DecodedEvent) (idx : Nat) (txHash : String) (ts : Int) (fromS toS : String)
    (amountRaw : Int) : ActivityItem :=
  let isOut := decide (fromS = self_)
  let counterparty := if isOut then toS else fromS
  let curated := e.contractId == some contracts.nativeSacId ||
    (knownSacIds.getD []).any (fun known => e.contractId == some known)
  { id := txHash ++ ":transfer:" ++ toString idx
    txHash := txHash
    timestamp := ts
    kind := .payment
    direction := some (if isOut then .out else .in_)
    title := if isOut then "Sent" else "Received"
    subtitle := some ((if isOut then "to " else "from ") ++ shortAddr counterparty 4 4)
    amount := some (String.ofList (shownStroops amountRaw))
    asset := (e.topic 3).asText.map assetLabel
    assetUnverified := !curated
    counterparty := some counterparty
    explorerUrl := explorerUrl txHash }

def paymentRow (e : DecodedEvent) (idx : Nat) (txHash : String) (ts : Int) :
    Js (Option ActivityItem) := do
  if isVerifiedSacTransfer contracts e = false then
    pure none
  else
    let fromS ← (e.topic 1).toText reader
    let toS ← (e.topic 2).toText reader
    if fromS ≠ self_ ∧ toS ≠ self_ then
      pure none
    else
      pure ((transferAmount e.data).map
        (paymentItem contracts self_ knownSacIds e idx txHash ts fromS toS))

/-- The payments of the events from an index on. -/
def paymentRows (txHash : String) (ts : Int) : List DecodedEvent → Nat → Js (List ActivityItem)
  | [], _ => pure []
  | e :: rest, idx => do
      let shown := if eventName e = "transfer" then
        paymentRow reader contracts self_ knownSacIds e idx txHash ts else pure none
      let row ← shown
      let rows ← paymentRows txHash ts rest (idx + 1)
      pure (row.toList ++ rows)

def groupTxRows (decoded : DecodedTx) : Js (List ActivityItem) := do
  let payments ← paymentRows reader contracts self_ knownSacIds decoded.txHash decoded.ts
    decoded.events 0
  let admin := (bestMeta decoded.events).map
    (fun best => plainRow decoded.txHash decoded.ts best.kind best.title)
  let rows := payments ++ admin.toList
  let trustworthy := decoded.events.any
    (fun e => e.contractId == some self_ || isVerifiedSacTransfer contracts e)
  if rows = [] ∧ trustworthy = true then
    pure [plainRow decoded.txHash decoded.ts .other "Contract activity"]
  else
    pure rows

end Classify

/-! ### The administrative event that counts -/

def adminMetas (events : List DecodedEvent) : List AdminMeta :=
  events.filterMap (fun e => adminMeta (eventName e))

def AdminMeta.weight (found : AdminMeta) : Nat := priority found.kind

/-- The first of the highest priority. -/
def Leading (events : List DecodedEvent) (found : AdminMeta) : Prop :=
  found ∈ adminMetas events ∧ (∀ other ∈ adminMetas events, other.weight ≤ found.weight) ∧
    ∀ other ∈ adminMetas events, found.weight ≤ other.weight →
      (adminMetas events).idxOf found ≤ (adminMetas events).idxOf other

theorem bestMeta_eq_argmax (events : List DecodedEvent) :
    bestMeta events = (adminMetas events).argmax AdminMeta.weight := by
  unfold bestMeta List.argmax adminMetas
  generalize (none : Option AdminMeta) = best
  induction events generalizing best with
  | nil => rfl
  | cons e rest ih =>
      rw [List.foldl_cons, List.filterMap_cons, ih]
      unfold betterMeta
      cases adminMeta (eventName e) with
      | none => rfl
      | some found =>
          rw [List.foldl_cons]
          cases best with
          | none => rfl
          | some earlier => rfl

theorem bestMeta_eq_some {events : List DecodedEvent} {found : AdminMeta} :
    bestMeta events = some found ↔ Leading events found := by
  rw [bestMeta_eq_argmax]
  exact List.mem_argmax_iff

theorem adminMeta_kind {name : String} {found : AdminMeta} (named : adminMeta name = some found) :
    found.kind = .rule ∨ found.kind = .signer ∨ found.kind = .policy ∨
      found.kind = .registry := by
  unfold adminMeta at named
  split_ifs at named <;> cases named <;> simp

theorem mem_adminMetas {events : List DecodedEvent} {found : AdminMeta} :
    found ∈ adminMetas events ↔ ∃ e ∈ events, adminMeta (eventName e) = some found :=
  List.mem_filterMap

/-! ### Evidence -/

section Evidence

variable (reader : NativeReader) (contracts : AssetContracts) (self_ : String)
  (knownSacIds : Option (List String))

/-- The transfer that a payment shows: one of the named asset, emitted by its contract,
from the account or to it, and of the shown amount. -/
structure Backs (e : DecodedEvent) (row : ActivityItem) : Prop where
  transfer : e.topic 0 = .text "transfer"
  emitter : ∃ asset sac, e.topic 3 = .text asset ∧ row.asset = some (assetLabel asset) ∧
    sacIdFor contracts asset = some sac ∧ e.contractId = some sac
  party : (row.direction = some .out ∧ (e.topic 1).toText reader = .ok self_) ∨
    (row.direction = some .in_ ∧ (e.topic 2).toText reader = .ok self_)
  amount : ∃ value, transferAmount e.data = some value ∧
    row.amount = some (String.ofList (shownStroops value))

structure RowsBacked (decoded : DecodedTx) : Prop where
  silent : (∀ e ∈ decoded.events,
      e.contractId ≠ some self_ ∧ isVerifiedSacTransfer contracts e = false) →
    groupTxRows reader contracts self_ knownSacIds decoded = .ok []
  payments : ∀ rows, groupTxRows reader contracts self_ knownSacIds decoded = .ok rows →
    ∀ row ∈ rows, row.kind = .payment →
      ∃ (index : Nat) (e : DecodedEvent), decoded.events[index]? = some e ∧
        row.id = decoded.txHash ++ ":transfer:" ++ toString index ∧
          Backs reader contracts self_ e row
  administrative : ∀ rows, groupTxRows reader contracts self_ knownSacIds decoded = .ok rows →
    ∀ row ∈ rows, (row.kind = .rule ∨ row.kind = .signer ∨ row.kind = .policy ∨
        row.kind = .registry) →
      ∃ e ∈ decoded.events, e.contractId = some self_ ∧
        adminMeta (eventName e) = some ⟨row.kind, row.title⟩

/-- Whether the parties of a transfer have texts. -/
def Speaks (e : DecodedEvent) : Prop :=
  (∃ fromS, (e.topic 1).toText reader = .ok fromS) ∧ ∃ toS, (e.topic 2).toText reader = .ok toS

variable {reader contracts self_ knownSacIds}

theorem isVerified_iff {e : DecodedEvent} :
    isVerifiedSacTransfer contracts e = true ↔
      e.topic 0 = .text "transfer" ∧ ∃ asset sac, e.topic 3 = .text asset ∧
        sacIdFor contracts asset = some sac ∧ e.contractId = some sac := by
  have named : eventName e = "transfer" ↔ e.topic 0 = .text "transfer" := by
    unfold eventName
    cases e.topic 0 <;> simp [Native.asText]
  unfold isVerifiedSacTransfer
  rw [Bool.and_eq_true, beq_iff_eq, named]
  apply and_congr_right
  intro _
  cases e.topic 3 with
  | text asset =>
      dsimp only [Native.asText]
      rw [Bool.and_eq_true, beq_iff_eq, Option.isSome_iff_exists]
      constructor
      · rintro ⟨⟨sac, emitted⟩, same⟩
        exact ⟨asset, sac, rfl, same ▸ emitted, emitted⟩
      · rintro ⟨other, sac, same, known, emitted⟩
        cases same
        exact ⟨⟨sac, emitted⟩, emitted.trans known.symm⟩
  | _ => simp [Native.asText]

theorem paymentRow_unverified {e : DecodedEvent}
    (unverified : isVerifiedSacTransfer contracts e = false) (idx : Nat) (txHash : String)
    (ts : Int) :
    paymentRow reader contracts self_ knownSacIds e idx txHash ts = .ok none := by
  unfold paymentRow
  rw [if_pos unverified]
  rfl

theorem paymentRow_verified {e : DecodedEvent} {fromS toS : String}
    (verified : isVerifiedSacTransfer contracts e = true)
    (fromText : (e.topic 1).toText reader = .ok fromS)
    (toText : (e.topic 2).toText reader = .ok toS) (idx : Nat) (txHash : String) (ts : Int) :
    paymentRow reader contracts self_ knownSacIds e idx txHash ts =
      .ok (if fromS ≠ self_ ∧ toS ≠ self_ then none
        else (transferAmount e.data).map
          (paymentItem contracts self_ knownSacIds e idx txHash ts fromS toS)) := by
  unfold paymentRow
  rw [verified, if_neg (by decide), fromText, toText]
  change (if fromS ≠ self_ ∧ toS ≠ self_ then pure none else pure _) = _
  split <;> rfl

theorem paymentItem_backed {e : DecodedEvent} {fromS toS : String} {value : Int}
    (verified : isVerifiedSacTransfer contracts e = true)
    (fromText : (e.topic 1).toText reader = .ok fromS)
    (toText : (e.topic 2).toText reader = .ok toS) (involved : fromS = self_ ∨ toS = self_)
    (amount : transferAmount e.data = some value) (idx : Nat) (txHash : String) (ts : Int) :
    Backs reader contracts self_ e
      (paymentItem contracts self_ knownSacIds e idx txHash ts fromS toS value) := by
  obtain ⟨transfer, asset, sac, named, known, emitted⟩ := isVerified_iff.mp verified
  refine ⟨transfer, ⟨asset, sac, named, ?_, known, emitted⟩, ?_, value, amount, rfl⟩
  · unfold paymentItem
    dsimp only
    rw [named]
    rfl
  · by_cases out : fromS = self_
    · left
      refine ⟨?_, by rw [fromText, out]⟩
      unfold paymentItem
      simp [out]
    · right
      refine ⟨?_, by rw [toText, involved.resolve_left out]⟩
      unfold paymentItem
      simp [out]

theorem paymentRow_ok {e : DecodedEvent} {idx : Nat} {txHash : String} {ts : Int}
    {row : ActivityItem}
    (shown : paymentRow reader contracts self_ knownSacIds e idx txHash ts = .ok (some row)) :
    row.kind = .payment ∧ row.id = txHash ++ ":transfer:" ++ toString idx ∧
      Backs reader contracts self_ e row := by
  cases verified : isVerifiedSacTransfer contracts e with
  | false =>
      rw [paymentRow_unverified verified] at shown
      cases shown
  | true =>
      cases fromText : (e.topic 1).toText reader with
      | error thrown =>
          unfold paymentRow at shown
          rw [verified, if_neg (by decide), fromText] at shown
          cases shown
      | ok fromS =>
          cases toText : (e.topic 2).toText reader with
          | error thrown =>
              unfold paymentRow at shown
              rw [verified, if_neg (by decide), fromText, toText] at shown
              cases shown
          | ok toS =>
              rw [paymentRow_verified verified fromText toText] at shown
              have item := Except.ok.inj shown
              split at item
              next => cases item
              next involved =>
                obtain ⟨value, amount, rfl⟩ := Option.map_eq_some_iff.mp item
                refine ⟨rfl, rfl, paymentItem_backed verified fromText toText ?_ amount _ _ _⟩
                by_contra neither
                exact involved (not_or.mp neither)

/-- A payment throws when a party of a verified transfer has no text. -/
theorem paymentRow_returns_iff (e : DecodedEvent) (idx : Nat) (txHash : String) (ts : Int) :
    (∃ row, paymentRow reader contracts self_ knownSacIds e idx txHash ts = .ok row) ↔
      (isVerifiedSacTransfer contracts e = true → Speaks reader e) := by
  cases verified : isVerifiedSacTransfer contracts e with
  | false => exact iff_of_true ⟨none, paymentRow_unverified verified _ _ _⟩ (by simp)
  | true =>
      constructor
      · rintro ⟨row, shown⟩ _
        unfold paymentRow at shown
        rw [verified, if_neg (by decide)] at shown
        cases fromText : (e.topic 1).toText reader with
        | error thrown =>
            rw [fromText] at shown
            cases shown
        | ok fromS =>
            cases toText : (e.topic 2).toText reader with
            | error thrown =>
                rw [fromText, toText] at shown
                cases shown
            | ok toS => exact ⟨⟨fromS, fromText⟩, toS, toText⟩
      · intro speaks
        obtain ⟨⟨fromS, fromText⟩, toS, toText⟩ := speaks rfl
        exact ⟨_, paymentRow_verified verified fromText toText _ _ _⟩

theorem transfer_of_verified {e : DecodedEvent}
    (verified : isVerifiedSacTransfer contracts e = true) : eventName e = "transfer" := by
  unfold isVerifiedSacTransfer at verified
  rw [Bool.and_eq_true, beq_iff_eq] at verified
  exact verified.1

section Rows

variable {txHash : String} {ts : Int} {events : List DecodedEvent}

theorem paymentRows_cons_ok {e : DecodedEvent} {idx : Nat} {rows : List ActivityItem} :
    paymentRows reader contracts self_ knownSacIds txHash ts (e :: events) idx = .ok rows ↔
      ∃ row, (if eventName e = "transfer" then
          paymentRow reader contracts self_ knownSacIds e idx txHash ts else pure none) = .ok row ∧
        ∃ others, paymentRows reader contracts self_ knownSacIds txHash ts events (idx + 1) =
          .ok others ∧ row.toList ++ others = rows := by
  rw [paymentRows]
  simp only [Contract.bind_eq_ok, Contract.pure_eq_ok]

theorem paymentRows_backed {idx : Nat} {rows : List ActivityItem}
    (shown : paymentRows reader contracts self_ knownSacIds txHash ts events idx = .ok rows) :
    ∀ row ∈ rows, row.kind = .payment ∧ ∃ (offset : Nat) (e : DecodedEvent),
      events[offset]? = some e ∧ row.id = txHash ++ ":transfer:" ++ toString (idx + offset) ∧
        Backs reader contracts self_ e row := by
  induction events generalizing idx rows with
  | nil =>
      intro row member
      cases shown
      cases member
  | cons e rest ih =>
      obtain ⟨shownRow, first, others, later, rfl⟩ := paymentRows_cons_ok.mp shown
      intro row member
      rcases List.mem_append.mp member with here | after
      · rw [Option.mem_toList] at here
        cases here
        split at first
        next =>
          obtain ⟨kind, id, backs⟩ := paymentRow_ok first
          exact ⟨kind, 0, e, rfl, id, backs⟩
        next => cases first
      · obtain ⟨kind, offset, backing, at_, id, backs⟩ := ih later row after
        refine ⟨kind, offset + 1, backing, at_, ?_, backs⟩
        rw [id, Nat.add_assoc, Nat.add_comm 1 offset]

theorem paymentRows_silent (idx : Nat)
    (unverified : ∀ e ∈ events, isVerifiedSacTransfer contracts e = false) :
    paymentRows reader contracts self_ knownSacIds txHash ts events idx = .ok [] := by
  induction events generalizing idx with
  | nil => rfl
  | cons e rest ih =>
      rw [paymentRows_cons_ok]
      refine ⟨none, ?_, [], ?_, rfl⟩
      · rw [paymentRow_unverified (unverified e List.mem_cons_self)]
        exact ite_self _
      · exact ih (idx + 1) (fun other member => unverified other (List.mem_cons_of_mem _ member))

theorem paymentRows_returns_iff (idx : Nat) :
    (∃ rows, paymentRows reader contracts self_ knownSacIds txHash ts events idx = .ok rows) ↔
      ∀ e ∈ events, isVerifiedSacTransfer contracts e = true → Speaks reader e := by
  induction events generalizing idx with
  | nil => exact iff_of_true ⟨[], rfl⟩ (fun _ impossible => by cases impossible)
  | cons e rest ih =>
      have here : (∃ row, (if eventName e = "transfer" then
          paymentRow reader contracts self_ knownSacIds e idx txHash ts else pure none) = .ok row) ↔
            (isVerifiedSacTransfer contracts e = true → Speaks reader e) := by
        split
        next => exact paymentRow_returns_iff e idx txHash ts
        next other =>
          apply iff_of_true ⟨none, rfl⟩
          intro verified
          exact absurd (transfer_of_verified verified) other
      rw [List.forall_mem_cons, ← here, ← ih (idx + 1)]
      constructor
      · rintro ⟨rows, shown⟩
        obtain ⟨row, first, others, later, _⟩ := paymentRows_cons_ok.mp shown
        exact ⟨⟨row, first⟩, others, later⟩
      · rintro ⟨⟨row, first⟩, others, later⟩
        exact ⟨row.toList ++ others, paymentRows_cons_ok.mpr ⟨row, first, others, later, rfl⟩⟩

end Rows

def adminRows (decoded : DecodedTx) : List ActivityItem :=
  ((bestMeta decoded.events).map
    (fun best => plainRow decoded.txHash decoded.ts best.kind best.title)).toList

theorem mem_adminRows {decoded : DecodedTx} {row : ActivityItem} :
    row ∈ adminRows decoded ↔ ∃ found, Leading decoded.events found ∧
      plainRow decoded.txHash decoded.ts found.kind found.title = row := by
  unfold adminRows
  rw [Option.mem_toList, Option.map_eq_some_iff]
  simp only [bestMeta_eq_some]

theorem groupTxRows_ok {decoded : DecodedTx} {rows : List ActivityItem} :
    groupTxRows reader contracts self_ knownSacIds decoded = .ok rows ↔
      ∃ payments, paymentRows reader contracts self_ knownSacIds decoded.txHash decoded.ts
          decoded.events 0 = .ok payments ∧
        (if payments ++ adminRows decoded = [] ∧ decoded.events.any (fun e =>
            e.contractId == some self_ || isVerifiedSacTransfer contracts e) = true then
          [plainRow decoded.txHash decoded.ts .other "Contract activity"]
        else payments ++ adminRows decoded) = rows := by
  unfold groupTxRows adminRows
  rw [Contract.bind_eq_ok]
  apply exists_congr
  intro payments
  apply and_congr_right
  intro _
  dsimp only
  split
  · rw [Contract.pure_eq_ok]
  · rw [Contract.pure_eq_ok]

theorem groupTxRows_mem {decoded : DecodedTx} {rows : List ActivityItem}
    (result : groupTxRows reader contracts self_ knownSacIds decoded = .ok rows)
    {row : ActivityItem} (member : row ∈ rows) :
    (row.kind = .payment ∧ ∃ (index : Nat) (e : DecodedEvent), decoded.events[index]? = some e ∧
        row.id = decoded.txHash ++ ":transfer:" ++ toString index ∧
          Backs reader contracts self_ e row) ∨
      (∃ found, Leading decoded.events found ∧
        plainRow decoded.txHash decoded.ts found.kind found.title = row) ∨
      row.kind = .other := by
  obtain ⟨payments, shown, rfl⟩ := groupTxRows_ok.mp result
  split at member
  next =>
    rw [List.mem_singleton] at member
    rw [member]
    exact Or.inr (Or.inr rfl)
  next =>
    rcases List.mem_append.mp member with inPayments | inAdmin
    · obtain ⟨kind, offset, e, at_, id, backs⟩ := paymentRows_backed shown row inPayments
      rw [Nat.zero_add] at id
      exact Or.inl ⟨kind, offset, e, at_, id, backs⟩
    · exact Or.inr (Or.inl (mem_adminRows.mp inAdmin))

theorem rows_backed_of {decoded : DecodedTx}
    (condition : (∃ e ∈ decoded.events, isVerifiedSacTransfer contracts e = true ∧
        ¬ Speaks reader e) ∨
      ∀ found, Leading decoded.events found →
        ∃ own ∈ decoded.events, own.contractId = some self_ ∧
          adminMeta (eventName own) = some found) :
    RowsBacked reader contracts self_ knownSacIds decoded := by
  constructor
  · intro foreign
    have own : ∀ found, ¬ Leading decoded.events found := by
      intro found leading
      rcases condition with ⟨e, member, verified, _⟩ | told
      · rw [(foreign e member).2] at verified
        cases verified
      · obtain ⟨own, member, emitted, _⟩ := told found leading
        exact (foreign own member).1 emitted
    have none_ : adminRows decoded = [] := by
      rw [List.eq_nil_iff_forall_not_mem]
      intro row member
      obtain ⟨found, leading, _⟩ := mem_adminRows.mp member
      exact own found leading
    have untrusted : decoded.events.any (fun e => e.contractId == some self_ ||
        isVerifiedSacTransfer contracts e) = false := by
      rw [List.any_eq_false]
      intro e member
      rw [(foreign e member).2, Bool.or_false, beq_iff_eq]
      exact (foreign e member).1
    rw [groupTxRows_ok]
    refine ⟨[], paymentRows_silent 0 (fun e member => (foreign e member).2), ?_⟩
    rw [none_, untrusted]
    rfl
  · intro rows result row member payment
    rcases groupTxRows_mem result member with ⟨_, backed⟩ | ⟨found, leading, rfl⟩ | other
    · exact backed
    · obtain ⟨e, _, named⟩ := mem_adminMetas.mp leading.1
      change found.kind = .payment at payment
      rcases adminMeta_kind named with kind | kind | kind | kind <;>
        rw [payment] at kind <;> cases kind
    · rw [payment] at other
      cases other
  · intro rows result row member kind
    rcases groupTxRows_mem result member with ⟨payment, _⟩ | ⟨found, leading, rfl⟩ | other
    · rw [payment] at kind
      simp at kind
    · rcases condition with ⟨e, listed, verified, mute⟩ | told
      · obtain ⟨payments, shown, _⟩ := groupTxRows_ok.mp result
        exact absurd ((paymentRows_returns_iff 0).mp ⟨payments, shown⟩ e listed verified) mute
      · exact told found leading
    · rw [other] at kind
      simp at kind

/-- The events that the two filters of the history let through: those of the account
itself, and transfers. -/
theorem rows_backed_of_filters {decoded : DecodedTx}
    (filtered : ∀ e ∈ decoded.events, e.contractId = some self_ ∨ eventName e = "transfer") :
    RowsBacked reader contracts self_ knownSacIds decoded := by
  apply rows_backed_of
  right
  intro found leading
  obtain ⟨e, member, named⟩ := mem_adminMetas.mp leading.1
  rcases filtered e member with own | transfer
  · exact ⟨e, member, own, named⟩
  · rw [transfer] at named
    exact absurd named (by simp [adminMeta])

/-- Every row has its evidence exactly when an event of the account itself tells the same
as the administrative event that counts, or when nothing is returned. -/
theorem rows_backed_iff (decoded : DecodedTx) :
    RowsBacked reader contracts self_ knownSacIds decoded ↔
      (∃ e ∈ decoded.events, isVerifiedSacTransfer contracts e = true ∧ ¬ Speaks reader e) ∨
        ∀ found, Leading decoded.events found →
          ∃ own ∈ decoded.events, own.contractId = some self_ ∧
            adminMeta (eventName own) = some found := by
  constructor
  · intro backed
    by_cases silent : ∃ e ∈ decoded.events,
        isVerifiedSacTransfer contracts e = true ∧ ¬ Speaks reader e
    · exact Or.inl silent
    · right
      intro found leading
      obtain ⟨payments, shown⟩ := (paymentRows_returns_iff 0).mpr (by
        intro e member verified
        by_contra mute
        exact silent ⟨e, member, verified, mute⟩)
      have row := mem_adminRows.mpr ⟨found, leading, rfl⟩
      have kind : found.kind = .rule ∨ found.kind = .signer ∨ found.kind = .policy ∨
          found.kind = .registry := by
        obtain ⟨e, _, named⟩ := mem_adminMetas.mp leading.1
        exact adminMeta_kind named
      refine backed.administrative _ (groupTxRows_ok.mpr ⟨payments, shown, rfl⟩)
        (plainRow decoded.txHash decoded.ts found.kind found.title) ?_ kind
      rw [if_neg (fun empty => List.ne_nil_of_mem row (List.append_eq_nil_iff.mp empty.1).2)]
      exact List.mem_append_right _ row
  · exact rows_backed_of

end Evidence

/-! An event of another contract that looks like one of the account's. -/

def plainReader : NativeReader where
  addressToString := fun _ => ""
  bufferToString := fun _ => ""
  readText := id

def nativeOnly : AssetContracts where
  contractId := fun _ _ => none
  nativeSacId := "CNATIVE"

def spamTx : DecodedTx where
  txHash := "HASH"
  ts := 1780258391
  events := [⟨some "CSPAM", [.text "signer_added"], .null⟩]

theorem spam_shown : ¬ RowsBacked plainReader nativeOnly "CACCOUNT" none spamTx := by
  intro backed
  have silent := backed.silent (by
    intro e member
    rw [List.mem_singleton.mp member]
    exact ⟨by decide, by decide⟩)
  have shown : groupTxRows plainReader nativeOnly "CACCOUNT" none spamTx =
      .ok [plainRow "HASH" 1780258391 .signer "Added a signer"] := rfl
  rw [shown] at silent
  cases silent

end Nido.Frontend
