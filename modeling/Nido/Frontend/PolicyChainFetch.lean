/-
Reading the context rules of an account.

Ids are given in order and never again, and the account only says how many rules are
live, so a reader scans the ids from zero, skips those that are not found, and stops
when it has seen as many as there are. A rule is decoded into values without a fixed
type.
-/

import Mathlib.Data.List.Infix
import Nido.Frontend.TxSummary
import Nido.Sdk.Signature

namespace Nido.Frontend

open Sdk

/-! ### What a rule is decoded into -/

inductive ChainContextType
  | default
  | callContract (contract : String)
  | createContract (wasm : Bytes)

inductive ChainSigner
  | delegated (address : String)
  | external (verifier : String) (publicKey : Bytes)

/-- A number that is not whole is nothing. -/
structure ChainRule where
  ruleId : Option Int
  contextType : ChainContextType
  name : Native
  signers : List ChainSigner
  policies : List String
  validUntil : Option (Option Int)

/-- A text that comes off the wire loses its byte order mark. -/
def dropByteOrderMark (text : String) : String :=
  match text.toList with
  | first :: rest => if first = Char.ofNat 0xfeff then String.ofList rest else text
  | [] => text

/-- The Stellar library on a value that a node returned. -/
def chainReader (addressToString : Address → String) (bufferToString : Bytes → String) :
    NativeReader where
  addressToString := addressToString
  bufferToString := bufferToString
  readText := dropByteOrderMark

section Parse

variable (reader : NativeReader)

/-- `value ?? …`: what stands in for a value that is missing. -/
def present : Option Native → Option Native
  | none | some .null | some .undefined => none
  | some value => some value

/-- The properties of a value; what is no plain object has none of those that are read. -/
def propertiesOf : Native → Js (List (String × Native))
  | .null => .error "Cannot read properties of null"
  | .undefined => .error "Cannot read properties of undefined"
  | .record entries => .ok entries
  | _ => .ok []

/-- `Number(value)`. -/
def Native.toNumber : Native → Js (Option Int)
  | .null => .ok (some 0)
  | .undefined => .ok none
  | .bool value => .ok (some (if value then 1 else 0))
  | .number value | .bigint value => .ok (some value)
  | value => do
      let text ← value.toText reader
      pure (bigInt text).toOption

/-- `new Uint8Array(value)` of a buffer, of numbers, or of a length. -/
def toUint8Array : Native → Js Bytes
  | .bytes data => .ok data
  | .array items => items.mapM (fun item => do
      let number ← item.toNumber reader
      pure (UInt8.ofNat ((number.getD 0) % 256).toNat))
  | .record _ | .object => .ok []
  | .bigint _ => .error "Cannot convert a BigInt value to a number"
  | value => do
      let length ← value.toNumber reader
      if length.getD 0 < 0 then
        .error "Invalid typed array length"
      else
        pure (List.replicate (length.getD 0).toNat 0)

/-- The values that `Array.from` and `for … of` go through. -/
def iterated : Native → Option (List Native)
  | .array items => some items
  | .bytes data => some (data.map (fun byte => .number byte.toNat))
  | .text value => some (value.toList.map (fun c => .text (String.singleton c)))
  | _ => none

def enumTag : Native → Js (String × List Native)
  | .array items => do
      let tag ← (items.getD 0 .undefined).toText reader
      pure (tag, items.drop 1)
  | value => do
      let tag ← value.toText reader
      pure (tag, [])

def parseContextType (contextType : Native) : Js ChainContextType := do
  let (tag, values) ← enumTag reader contextType
  if tag = "Default" then
    pure .default
  else if tag = "CallContract" then do
    let contract ← (values.getD 0 .undefined).toText reader
    pure (.callContract contract)
  else if tag = "CreateContract" then do
    let wasm ← toUint8Array reader (values.getD 0 .undefined)
    pure (.createContract wasm)
  else
    .error ("unknown context type: " ++ tag)

def parseSigner (signer : Native) : Js ChainSigner := do
  let (tag, values) ← enumTag reader signer
  if tag = "Delegated" then do
    let address ← (values.getD 0 .undefined).toText reader
    pure (.delegated address)
  else if tag = "External" then do
    let verifier ← (values.getD 0 .undefined).toText reader
    let publicKey ← toUint8Array reader (values.getD 1 .undefined)
    pure (.external verifier publicKey)
  else
    .error ("unknown signer: " ++ tag)

def parseSigners : Option Native → Js (List ChainSigner)
  | none => .ok []
  | some (.array items) => items.mapM (parseSigner reader)
  | some _ => .error "native.signers.map is not a function"

def parsePolicies : Option Native → Js (List String)
  | none => .ok []
  | some value => ((iterated value).getD []).mapM (Native.toText reader)

def parseValidUntil : Option Native → Js (Option (Option Int))
  | none => .ok none
  | some value => (value.toNumber reader).map some

def parseRule (native : Native) : Js ChainRule := do
  let entries ← propertiesOf native
  let ruleId ← ((property entries "id").getD .undefined).toNumber reader
  let contextType ← parseContextType reader ((property entries "context_type").getD .undefined)
  let signers ← parseSigners reader (present (property entries "signers"))
  let policies ← parsePolicies reader (present (property entries "policies"))
  let validUntil ← parseValidUntil reader (present (property entries "valid_until"))
  pure
    { ruleId
      contextType
      name := (property entries "name").getD .undefined
      signers
      policies
      validUntil }

end Parse

/-! ### A decoded rule -/

theorem mapM_eq_map {α β γ : Type} {f : β → Js γ} (encode : α → β) {decode : α → γ}
    (items : List α) (step : ∀ item ∈ items, f (encode item) = .ok (decode item)) :
    (items.map encode).mapM f = .ok (items.map decode) := by
  induction items with
  | nil => rfl
  | cons item rest ih =>
      have first := step item List.mem_cons_self
      have others := ih (fun other member => step other (List.mem_cons_of_mem _ member))
      rw [List.map_cons, List.mapM_cons, first, List.map_cons]
      exact Contract.bind_eq_ok.mpr ⟨decode item, rfl,
        Contract.bind_eq_ok.mpr ⟨rest.map decode, others, rfl⟩⟩

section Decode

variable (addressToString : Address → String) (bufferToString : Bytes → String)

theorem nativeItems_map {α : Type} (reader : NativeReader) (encode : α → ScVal)
    (decode : α → Native) (items : List α)
    (step : ∀ item ∈ items, scValToNative reader (encode item) = .ok (decode item)) :
    scValToNative reader (.vec (items.map encode)) = .ok (.array (items.map decode)) := by
  have each : nativeItems reader (items.map encode) = .ok (items.map decode) := by
    induction items with
    | nil => rfl
    | cons item rest ih =>
        have first := step item List.mem_cons_self
        have others := ih (fun other member => step other (List.mem_cons_of_mem _ member))
        rw [List.map_cons, nativeItems, first]
        exact Contract.bind_eq_ok.mpr ⟨decode item, rfl,
          Contract.bind_eq_ok.mpr ⟨rest.map decode, others, rfl⟩⟩
  rw [scValToNative, each]
  rfl

def nativeSigner : Signer → Native
  | .delegated address => .array [.text "Delegated", .text (addressToString address)]
  | .external verifier keyData =>
      .array [.text "External", .text (addressToString verifier), .bytes keyData]

def nativeContextType : ContextRuleType → Native
  | .default => .array [.text "Default"]
  | .callContract contract => .array [.text "CallContract", .text (addressToString contract)]
  | .createContract wasmHash => .array [.text "CreateContract", .bytes wasmHash.data]

def nativeRule (rule : ContextRule) : List (String × Native) :=
  [("context_type", nativeContextType addressToString rule.contextType),
    ("id", .number rule.id.toNat),
    ("name", .text (dropByteOrderMark rule.name)),
    ("policies", .array (rule.policies.map (fun policy => .text (addressToString policy)))),
    ("policy_ids", .array (rule.policyIds.map (fun id => .number id.toNat))),
    ("signer_ids", .array (rule.signerIds.map (fun id => .number id.toNat))),
    ("signers", .array (rule.signers.map (nativeSigner addressToString))),
    ("valid_until",
      match rule.validUntil with
      | none => .null
      | some ledger => .number ledger.toNat)]

theorem scValToNative_signer (signer : Signer) :
    scValToNative (chainReader addressToString bufferToString) signer.toScVal =
      .ok (nativeSigner addressToString signer) := by
  cases signer <;> rfl

theorem scValToNative_contextType (contextType : ContextRuleType) :
    scValToNative (chainReader addressToString bufferToString) contextType.toScVal =
      .ok (nativeContextType addressToString contextType) := by
  cases contextType <;> rfl

theorem nativeEntries_cons (name : String) {value : ScVal} {rest : List (ScVal × ScVal)}
    {native : Native} {others : List (String × Native)}
    (plain : dropByteOrderMark name = name)
    (decoded : scValToNative (chainReader addressToString bufferToString) value = .ok native)
    (remaining : nativeEntries (chainReader addressToString bufferToString) rest = .ok others) :
    nativeEntries (chainReader addressToString bufferToString) ((.symbol name, value) :: rest) =
      .ok ((name, native) :: others) := by
  have key : scValToNative (chainReader addressToString bufferToString) (.symbol name) =
      .ok (.text name) := by
    rw [scValToNative]
    exact congrArg (fun text => Except.ok (Native.text text)) plain
  rw [nativeEntries, key, decoded, remaining]
  rfl

theorem scValToNative_rule (rule : ContextRule) :
    scValToNative (chainReader addressToString bufferToString) rule.toScVal =
      .ok (.record (nativeRule addressToString rule)) := by
  have contextType := scValToNative_contextType addressToString bufferToString rule.contextType
  have policies := nativeItems_map (chainReader addressToString bufferToString) .address
    (fun policy => .text (addressToString policy)) rule.policies (fun _ _ => rfl)
  have numbers (ids : List UInt32) :=
    nativeItems_map (chainReader addressToString bufferToString) .u32
      (fun id => .number id.toNat) ids (fun _ _ => rfl)
  have signers := nativeItems_map (chainReader addressToString bufferToString) Signer.toScVal
    (nativeSigner addressToString) rule.signers
    (fun signer _ => scValToNative_signer addressToString bufferToString signer)
  have validUntil : scValToNative (chainReader addressToString bufferToString)
      (encodeOptionU32 rule.validUntil) =
        .ok (match rule.validUntil with
          | none => .null
          | some ledger => .number ledger.toNat) := by
    cases rule.validUntil <;> rfl
  have entries :=
    nativeEntries_cons addressToString bufferToString "context_type" (by decide)
      contextType
    (nativeEntries_cons addressToString bufferToString "id" (by decide)
      (show scValToNative _ (.u32 rule.id) = .ok _ from rfl)
    (nativeEntries_cons addressToString bufferToString "name" (by decide)
      (show scValToNative _ (.string rule.name) = .ok _ from rfl)
    (nativeEntries_cons addressToString bufferToString "policies" (by decide) policies
    (nativeEntries_cons addressToString bufferToString "policy_ids" (by decide)
      (numbers rule.policyIds)
    (nativeEntries_cons addressToString bufferToString "signer_ids" (by decide)
      (numbers rule.signerIds)
    (nativeEntries_cons addressToString bufferToString "signers" (by decide) signers
    (nativeEntries_cons addressToString bufferToString "valid_until" (by decide)
      validUntil (show nativeEntries _ [] = .ok [] from rfl))))))))
  rw [ContextRule.toScVal, scValToNative, entries]
  rfl

/-! What the page shows of a rule. -/

def chainSigner : Signer → ChainSigner
  | .delegated address => .delegated (addressToString address)
  | .external verifier keyData => .external (addressToString verifier) keyData

def chainContextType : ContextRuleType → ChainContextType
  | .default => .default
  | .callContract contract => .callContract (addressToString contract)
  | .createContract wasmHash => .createContract wasmHash.data

def chainRule (rule : ContextRule) : ChainRule where
  ruleId := some rule.id.toNat
  contextType := chainContextType addressToString rule.contextType
  name := .text (dropByteOrderMark rule.name)
  signers := rule.signers.map (chainSigner addressToString)
  policies := rule.policies.map addressToString
  validUntil := rule.validUntil.map (fun ledger => some (ledger.toNat : Int))

theorem parseSigner_native (signer : Signer) :
    parseSigner (chainReader addressToString bufferToString)
      (nativeSigner addressToString signer) = .ok (chainSigner addressToString signer) := by
  cases signer <;> rfl

theorem parseContextType_native (contextType : ContextRuleType) :
    parseContextType (chainReader addressToString bufferToString)
      (nativeContextType addressToString contextType) =
        .ok (chainContextType addressToString contextType) := by
  cases contextType <;> rfl

theorem parseRule_native (rule : ContextRule) :
    parseRule (chainReader addressToString bufferToString)
      (.record (nativeRule addressToString rule)) = .ok (chainRule addressToString rule) := by
  have signers : parseSigners (chainReader addressToString bufferToString)
      (present (property (nativeRule addressToString rule) "signers")) =
        .ok (rule.signers.map (chainSigner addressToString)) :=
    mapM_eq_map (nativeSigner addressToString) rule.signers
      (fun signer _ => parseSigner_native addressToString bufferToString signer)
  have policies : parsePolicies (chainReader addressToString bufferToString)
      (present (property (nativeRule addressToString rule) "policies")) =
        .ok (rule.policies.map addressToString) :=
    mapM_eq_map (fun policy => Native.text (addressToString policy)) rule.policies
      (fun _ _ => rfl)
  have contextType : parseContextType (chainReader addressToString bufferToString)
      ((property (nativeRule addressToString rule) "context_type").getD .undefined) =
        .ok (chainContextType addressToString rule.contextType) :=
    parseContextType_native addressToString bufferToString rule.contextType
  have validUntil : parseValidUntil (chainReader addressToString bufferToString)
      (present (property (nativeRule addressToString rule) "valid_until")) =
        .ok (rule.validUntil.map (fun ledger => some (ledger.toNat : Int))) := by
    unfold nativeRule
    cases rule.validUntil <;> rfl
  unfold parseRule
  refine Contract.bind_eq_ok.mpr ⟨nativeRule addressToString rule, rfl, ?_⟩
  refine Contract.bind_eq_ok.mpr ⟨some rule.id.toNat, rfl, ?_⟩
  refine Contract.bind_eq_ok.mpr ⟨_, contextType, ?_⟩
  refine Contract.bind_eq_ok.mpr ⟨_, signers, ?_⟩
  refine Contract.bind_eq_ok.mpr ⟨_, policies, ?_⟩
  exact Contract.bind_eq_ok.mpr ⟨_, validUntil, rfl⟩

end Decode

/-! ### The rules of an account -/

/-- The rules that are live, by ascending id. -/
structure LiveRules where
  rules : List ContextRule
  ordered : rules.Pairwise (fun earlier later => earlier.id < later.id)

namespace LiveRules

variable (live : LiveRules)

def rule? (id : Nat) : Option ContextRule :=
  live.rules.find? (fun rule => decide (rule.id.toNat = id))

def below (id : Nat) : List ContextRule :=
  live.rules.filter (fun rule => decide (rule.id.toNat < id))

theorem below_zero : live.below 0 = [] := by
  unfold below
  rw [List.filter_eq_nil_iff]
  intro rule _ less
  exact Nat.not_lt_zero _ (of_decide_eq_true less)

theorem none_below (rules : List ContextRule) (id : Nat)
    (beyond : ∀ rule ∈ rules, id ≤ rule.id.toNat) :
    rules.filter (fun rule => decide (rule.id.toNat < id)) = [] := by
  rw [List.filter_eq_nil_iff]
  intro rule member less
  exact absurd (of_decide_eq_true less) (Nat.not_lt.mpr (beyond rule member))

theorem below_succ (id : Nat) : live.below (id + 1) = live.below id ++ (live.rule? id).toList := by
  obtain ⟨rules, ordered⟩ := live
  unfold below rule?
  dsimp only
  induction rules with
  | nil => rfl
  | cons head rest ih =>
      have separate := List.pairwise_cons.mp ordered
      have later : ∀ rule ∈ rest, head.id.toNat < rule.id.toNat := separate.1
      rcases Nat.lt_trichotomy head.id.toNat id with before | here | after
      · have notHere : head.id.toNat ≠ id := Nat.ne_of_lt before
        have inBoth : head.id.toNat < id + 1 := Nat.lt_succ_of_lt before
        rw [List.filter_cons, if_pos (decide_eq_true inBoth), List.filter_cons,
          if_pos (decide_eq_true before), List.find?_cons, decide_eq_false notHere,
          ih separate.2]
        rfl
      · have noneBefore := none_below rest id
          (fun rule member => by have := later rule member; omega)
        have noneAt := none_below rest (id + 1)
          (fun rule member => by have := later rule member; omega)
        have inNext : head.id.toNat < id + 1 := by omega
        have notYet : ¬ decide (head.id.toNat < id) = true := fun less => by
          have := of_decide_eq_true less
          omega
        rw [List.filter_cons, if_pos (decide_eq_true inNext), List.filter_cons, if_neg notYet,
          List.find?_cons, decide_eq_true here, noneBefore, noneAt]
        rfl
      · have noneBefore := none_below (head :: rest) id
          (List.forall_mem_cons.mpr ⟨by omega, fun rule member => by
            have := later rule member
            omega⟩)
        have noneAt := none_below (head :: rest) (id + 1)
          (List.forall_mem_cons.mpr ⟨by omega, fun rule member => by
            have := later rule member
            omega⟩)
        have notFound : (head :: rest).find? (fun rule => decide (rule.id.toNat = id)) = none := by
          rw [List.find?_eq_none, List.forall_mem_cons]
          refine ⟨fun same => ?_, fun rule member same => ?_⟩
          · have := of_decide_eq_true same
            omega
          · have := later rule member
            have := of_decide_eq_true same
            omega
        rw [noneBefore, noneAt, notFound]
        rfl

theorem below_prefix (id : Nat) : live.below id <+: live.rules := by
  obtain ⟨rules, ordered⟩ := live
  unfold below
  dsimp only
  induction rules with
  | nil => exact List.nil_prefix
  | cons head rest ih =>
      have separate := List.pairwise_cons.mp ordered
      by_cases before : head.id.toNat < id
      · rw [List.filter_cons, if_pos (decide_eq_true before)]
        exact List.cons_prefix_cons.mpr ⟨rfl, ih separate.2⟩
      · have beyond : ∀ rule ∈ head :: rest, id ≤ rule.id.toNat := by
          rw [List.forall_mem_cons]
          refine ⟨by omega, fun rule member => ?_⟩
          have later : head.id.toNat < rule.id.toNat := separate.1 rule member
          omega
        rw [none_below _ _ beyond]
        exact List.nil_prefix

theorem below_eq_rules {id : Nat} (all : live.rules.length ≤ (live.below id).length) :
    live.below id = live.rules :=
  List.filter_sublist.eq_of_length_le all

end LiveRules

def isRuleNotFound (message : String) : Bool :=
  decide ("Error(Contract, #3000)".toList <:+: message.toList) ||
    decide ("ContextRuleNotFound".toList <:+: message.toList)

/-- The reads of an account's rules. One that is not answered fails with another message
than that of a rule that is not found. -/
structure AccountReads where
  live : LiveRules
  countFailure : Option String
  failure : Nat → Option String
  notFound : Nat → String
  failure_other : ∀ id message, failure id = some message → isRuleNotFound message = false
  notFound_reported : ∀ id, isRuleNotFound (notFound id) = true

namespace AccountReads

variable (reads : AccountReads)

def getContextRulesCount : Js Nat :=
  match reads.countFailure with
  | some message => .error message
  | none => .ok reads.live.rules.length

def getContextRule (id : Nat) : Js ScVal :=
  match reads.failure id with
  | some message => .error message
  | none =>
      match reads.live.rule? id with
      | some rule => .ok rule.toScVal
      | none => .error (reads.notFound id)

variable {reads}

theorem getContextRulesCount_eq_ok {count : Nat} (read : reads.getContextRulesCount = .ok count) :
    count = reads.live.rules.length := by
  unfold getContextRulesCount at read
  split at read
  next => cases read
  next =>
    cases read
    rfl

theorem getContextRule_eq_ok {id : Nat} {ruleRv : ScVal}
    (read : reads.getContextRule id = .ok ruleRv) :
    ∃ rule, reads.live.rule? id = some rule ∧ ruleRv = rule.toScVal := by
  unfold getContextRule at read
  split at read
  next => cases read
  next =>
    split at read
    next rule found =>
      cases read
      exact ⟨rule, found, rfl⟩
    next => cases read

/-- An id is skipped only if no rule has it. -/
theorem getContextRule_notFound {id : Nat} {message : String}
    (read : reads.getContextRule id = .error message) (skipped : isRuleNotFound message = true) :
    reads.live.rule? id = none := by
  unfold getContextRule at read
  split at read
  next other failed =>
    cases read
    rw [reads.failure_other id message failed] at skipped
    cases skipped
  next =>
    split at read
    next => cases read
    next absent => exact absent

end AccountReads

def scanExhausted (found count : Nat) : String :=
  "context-rule scan exhausted: found " ++ toString found ++ " of " ++ toString count ++
    " live rules within ids 0.." ++ toString (count + 99)

section Fetch

variable (reader : NativeReader) (reads : AccountReads)

/-- The scan from an id on, with the rules found so far. -/
def fetchFrom (count id : Nat) (out : List ChainRule) : Js (List ChainRule) :=
  if out.length < count ∧ id < count + 100 then
    match reads.getContextRule id with
    | .error message =>
        if isRuleNotFound message then fetchFrom count (id + 1) out else .error message
    | .ok ruleRv =>
        match (scValToNative reader ruleRv).bind (parseRule reader) with
        | .error message => .error message
        | .ok rule => fetchFrom count (id + 1) (out ++ [rule])
  else if out.length < count then
    .error (scanExhausted out.length count)
  else
    .ok out
termination_by count + 100 - id

def fetchAllChainRules : Js (List ChainRule) := do
  let count ← reads.getContextRulesCount
  fetchFrom reader reads count 0 []

/-! ### The rule that a passkey signs under -/

structure SignerRule where
  ruleId : Native
  verifier : String

/-- `b.toString(16).padStart(2, '0')`. -/
def hexByteText : Native → Js (List Char)
  | .null => .error "Cannot read properties of null (reading 'toString')"
  | .undefined => .error "Cannot read properties of undefined (reading 'toString')"
  | .bytes _ => .error "Unknown encoding: 16"
  | .number value | .bigint value =>
      let digits := Nat.toDigits 16 value.natAbs
      .ok (padStart 2 (if value < 0 then '-' :: digits else digits))
  | value => (value.toText reader).map (fun text => padStart 2 text.toList)

def hexText (items : List Native) : Js String :=
  (items.mapM (hexByteText reader)).map (fun digits => String.ofList digits.flatten)

/-- The properties `0`, `1` and so on, up to the first that is missing. -/
def numericItems (entries : List (String × Native)) : (remaining index : Nat) → List Native
  | 0, _ => []
  | remaining + 1, index =>
      match property entries (toString index) with
      | none | some .undefined => []
      | some item => item :: numericItems entries remaining (index + 1)

def candidateHex : Native → Js (Option String)
  | .bytes data => .ok (some (buf2hex data))
  | .array items => (hexText reader items).map some
  | .record entries =>
      match numericItems entries entries.length 0 with
      | [] => .ok none
      | ordered => (hexText reader ordered).map some
  | _ => .ok none

/-- The verifier of a signer, if it is an external one with the key. -/
def signerVerifier (lowerHex : String) : Native → Js (Option String)
  | .array items =>
      if (items.getD 0 .undefined).asText = some "External" then do
        let candidate ← candidateHex reader (items.getD 2 .undefined)
        if candidate ≠ some "" ∧ candidate = some lowerHex then do
          let verifier ← (items.getD 1 .undefined).toText reader
          pure (some verifier)
        else
          pure none
      else
        .ok none
  | _ => .ok none

def findSigner (lowerHex : String) : List Native → Js (Option String)
  | [] => .ok none
  | signer :: rest => do
      match ← signerVerifier reader lowerHex signer with
      | some verifier => pure (some verifier)
      | none => findSigner lowerHex rest

def signersOf (entries : List (String × Native)) : Js (List Native) :=
  match present (property entries "signers") with
  | none => .ok []
  | some value =>
      match iterated value with
      | some items => .ok items
      | none => .error "native.signers is not iterable"

def signerRule (lowerHex : String) (id : Nat) (ruleRv : ScVal) : Js (Option SignerRule) := do
  let native ← scValToNative reader ruleRv
  let entries ← propertiesOf native
  let signers ← signersOf entries
  let verifier ← findSigner reader lowerHex signers
  pure (verifier.map (fun verifier =>
    { ruleId := (present (property entries "id")).getD (.number id), verifier }))

def resolveFrom (lowerHex : String) (count id found : Nat) : Js (Option SignerRule) :=
  if found < count ∧ id < count + 100 then
    match reads.getContextRule id with
    | .error message =>
        if isRuleNotFound message then resolveFrom lowerHex count (id + 1) found
        else .error message
    | .ok ruleRv =>
        match signerRule reader lowerHex id ruleRv with
        | .error message => .error message
        | .ok (some resolved) => .ok (some resolved)
        | .ok none => resolveFrom lowerHex count (id + 1) (found + 1)
  else if found < count then
    .error (scanExhausted found count)
  else
    .ok none
termination_by count + 100 - id

def resolveSignerRule (pubkeyHex : String) : Js (Option SignerRule) := do
  let count ← reads.getContextRulesCount
  resolveFrom reader reads pubkeyHex.toLower count 0 0

end Fetch

section Scan

variable {addressToString : Address → String} {bufferToString : Bytes → String}
  {reads : AccountReads}

theorem fetchFrom_ok {count id : Nat} {out result : List ChainRule}
    (counted : count = reads.live.rules.length)
    (soFar : out = (reads.live.below id).map (chainRule addressToString))
    (fetched : fetchFrom (chainReader addressToString bufferToString) reads count id out =
      .ok result) :
    result = reads.live.rules.map (chainRule addressToString) := by
  fun_induction fetchFrom with
  | case1 id out more message failed skipped ih =>
      have absent := AccountReads.getContextRule_notFound failed skipped
      apply ih _ fetched
      rw [LiveRules.below_succ, absent, soFar]
      exact (congrArg (List.map _) (List.append_nil _)).symm
  | case2 => cases fetched
  | case3 => cases fetched
  | case4 id out more ruleRv read rule parsed ih =>
      obtain ⟨live, found, rfl⟩ := AccountReads.getContextRule_eq_ok read
      rw [scValToNative_rule] at parsed
      have same : rule = chainRule addressToString live :=
        (Except.ok.inj ((parseRule_native addressToString bufferToString live).symm.trans
          parsed)).symm
      apply ih _ fetched
      rw [LiveRules.below_succ, found, soFar, same, Option.toList_some, List.map_append]
      rfl
  | case5 => cases fetched
  | case6 id out stopped enough =>
      cases fetched
      have all : reads.live.rules.length ≤ (reads.live.below id).length := by
        rw [soFar, List.length_map] at enough
        omega
      rw [soFar, LiveRules.below_eq_rules _ all]

/-- A key that is not empty, under its text in lower case. -/
def KeyText (lowerHex : String) (keyData : Bytes) : Prop :=
  keyData ≠ [] ∧ buf2hex keyData = lowerHex

instance (lowerHex : String) (keyData : Bytes) : Decidable (KeyText lowerHex keyData) :=
  inferInstanceAs (Decidable (_ ∧ _))

/-- The verifier that an external signer with the key is registered against. -/
def keyVerifier (lowerHex : String) : Signer → Option Address
  | .delegated _ => none
  | .external verifier keyData => if KeyText lowerHex keyData then some verifier else none

theorem keyVerifier_external (lowerHex : String) (verifier : Address) (keyData : Bytes) :
    keyVerifier lowerHex (.external verifier keyData) =
      if KeyText lowerHex keyData then some verifier else none := rfl

def ruleVerifier (lowerHex : String) (rule : ContextRule) : Option Address :=
  rule.signers.findSome? (keyVerifier lowerHex)

theorem ruleVerifier_eq_some {lowerHex : String} {rule : ContextRule} {verifier : Address}
    (found : ruleVerifier lowerHex rule = some verifier) :
    ∃ keyData, Signer.external verifier keyData ∈ rule.signers ∧ KeyText lowerHex keyData := by
  obtain ⟨signer, member, matched⟩ := List.exists_of_findSome?_eq_some found
  cases signer with
  | delegated address => cases matched
  | external other keyData =>
      rw [keyVerifier_external] at matched
      split at matched
      next holds =>
        cases matched
        exact ⟨keyData, member, holds⟩
      next => cases matched

theorem ruleVerifier_eq_none {lowerHex : String} {rule : ContextRule}
    (absent : ruleVerifier lowerHex rule = none) {verifier : Address} {keyData : Bytes}
    (member : Signer.external verifier keyData ∈ rule.signers) : ¬ KeyText lowerHex keyData := by
  intro holds
  have missed := List.findSome?_eq_none_iff.mp absent _ member
  rw [keyVerifier_external] at missed
  rw [if_pos holds] at missed
  cases missed

theorem buf2hex_eq_empty {data : Bytes} : buf2hex data = "" ↔ data = [] := by
  constructor
  · intro empty
    have back := congrArg hex2buf empty
    rw [hex2buf_buf2hex] at back
    exact back
  · rintro rfl
    rfl

theorem signerVerifier_native (lowerHex : String) (signer : Signer) :
    signerVerifier (chainReader addressToString bufferToString) lowerHex
      (nativeSigner addressToString signer) =
        .ok ((keyVerifier lowerHex signer).map addressToString) := by
  cases signer with
  | delegated address => rfl
  | external verifier keyData =>
      have test : (some (buf2hex keyData) ≠ some "" ∧ some (buf2hex keyData) = some lowerHex) ↔
          KeyText lowerHex keyData := by
        unfold KeyText
        rw [ne_eq, Option.some_inj, buf2hex_eq_empty, Option.some_inj]
      rw [keyVerifier_external]
      by_cases holds : KeyText lowerHex keyData
      · rw [if_pos holds]
        refine Contract.bind_eq_ok.mpr ⟨some (buf2hex keyData), rfl, ?_⟩
        rw [if_pos (test.mpr holds)]
        rfl
      · rw [if_neg holds]
        refine Contract.bind_eq_ok.mpr ⟨some (buf2hex keyData), rfl, ?_⟩
        rw [if_neg (fun both => holds (test.mp both))]
        rfl

theorem findSigner_native (lowerHex : String) (signers : List Signer) :
    findSigner (chainReader addressToString bufferToString) lowerHex
      (signers.map (nativeSigner addressToString)) =
        .ok ((signers.findSome? (keyVerifier lowerHex)).map addressToString) := by
  induction signers with
  | nil => rfl
  | cons signer rest ih =>
      rw [List.map_cons, findSigner, signerVerifier_native]
      cases matched : keyVerifier lowerHex signer with
      | some verifier =>
          rw [List.findSome?_cons, matched]
          rfl
      | none =>
          rw [List.findSome?_cons, matched]
          exact ih

theorem signerRule_native (lowerHex : String) (id : Nat) (rule : ContextRule) :
    signerRule (chainReader addressToString bufferToString) lowerHex id rule.toScVal =
      .ok ((ruleVerifier lowerHex rule).map (fun verifier =>
        { ruleId := .number rule.id.toNat, verifier := addressToString verifier })) := by
  unfold signerRule
  refine Contract.bind_eq_ok.mpr ⟨_, scValToNative_rule addressToString bufferToString rule, ?_⟩
  refine Contract.bind_eq_ok.mpr ⟨nativeRule addressToString rule, rfl, ?_⟩
  refine Contract.bind_eq_ok.mpr ⟨rule.signers.map (nativeSigner addressToString), rfl, ?_⟩
  refine Contract.bind_eq_ok.mpr ⟨_, findSigner_native lowerHex rule.signers, ?_⟩
  rw [Option.map_map]
  rfl

/-- The first rule of smallest id that has the key, and its verifier. -/
def resolved (addressToString : Address → String) (lowerHex : String) (rules : List ContextRule) :
    Option SignerRule :=
  rules.findSome? (fun rule => (ruleVerifier lowerHex rule).map (fun verifier =>
    { ruleId := .number rule.id.toNat, verifier := addressToString verifier }))

theorem resolved_append (lowerHex : String) (left right : List ContextRule) :
    resolved addressToString lowerHex (left ++ right) =
      (resolved addressToString lowerHex left).or (resolved addressToString lowerHex right) :=
  List.findSome?_append

theorem resolved_singleton (lowerHex : String) (rule : ContextRule) :
    resolved addressToString lowerHex [rule] =
      (ruleVerifier lowerHex rule).map (fun verifier =>
        { ruleId := .number rule.id.toNat, verifier := addressToString verifier }) := by
  unfold resolved
  rw [List.findSome?_cons]
  cases ruleVerifier lowerHex rule <;> rfl

theorem resolveFrom_ok {lowerHex : String} {count id found : Nat} {result : Option SignerRule}
    (counted : count = reads.live.rules.length)
    (seen : found = (reads.live.below id).length)
    (missed : resolved addressToString lowerHex (reads.live.below id) = none)
    (answered : resolveFrom (chainReader addressToString bufferToString) reads lowerHex count id
      found = .ok result) :
    result = resolved addressToString lowerHex reads.live.rules := by
  fun_induction resolveFrom with
  | case1 id found more message failed skipped ih =>
      have absent := AccountReads.getContextRule_notFound failed skipped
      have same : reads.live.below (id + 1) = reads.live.below id := by
        rw [LiveRules.below_succ, absent]
        exact List.append_nil _
      apply ih _ _ answered
      · rw [same]
        exact seen
      · rw [same]
        exact missed
  | case2 => cases answered
  | case3 => cases answered
  | case4 id found more ruleRv read signer matched =>
      cases answered
      obtain ⟨rule, present_, rfl⟩ := AccountReads.getContextRule_eq_ok read
      obtain ⟨rest, whole⟩ := reads.live.below_prefix (id + 1)
      rw [signerRule_native, ← resolved_singleton] at matched
      rw [← whole, LiveRules.below_succ, present_, Option.toList_some, resolved_append,
        resolved_append, missed, Option.none_or, Except.ok.inj matched]
      rfl
  | case5 id found more ruleRv read unmatched ih =>
      obtain ⟨rule, present_, rfl⟩ := AccountReads.getContextRule_eq_ok read
      have next : reads.live.below (id + 1) = reads.live.below id ++ [rule] := by
        rw [LiveRules.below_succ, present_]
        rfl
      rw [signerRule_native, ← resolved_singleton] at unmatched
      apply ih _ _ answered
      · rw [next, seen, List.length_append]
        rfl
      · rw [next, resolved_append, missed, Option.none_or]
        exact Except.ok.inj unmatched
  | case6 => cases answered
  | case7 id found stopped enough =>
      cases answered
      have all : reads.live.rules.length ≤ (reads.live.below id).length := by omega
      rw [LiveRules.below_eq_rules _ all] at missed
      exact missed.symm

theorem ruleEnumeration_complete (addressToString : Address → String)
    (bufferToString : Bytes → String) (reads : AccountReads) (pubkeyHex : String) :
    (∀ rules, fetchAllChainRules (chainReader addressToString bufferToString) reads = .ok rules →
      rules = reads.live.rules.map (chainRule addressToString)) ∧
    (∀ signer, resolveSignerRule (chainReader addressToString bufferToString) reads pubkeyHex =
      .ok (some signer) →
        ∃ rule ∈ reads.live.rules, ∃ verifier keyData,
          Signer.external verifier keyData ∈ rule.signers ∧
          KeyText pubkeyHex.toLower keyData ∧
          signer = { ruleId := .number rule.id.toNat, verifier := addressToString verifier } ∧
          ∀ earlier ∈ reads.live.rules, earlier.id < rule.id →
            ∀ other otherKey, Signer.external other otherKey ∈ earlier.signers →
              ¬ KeyText pubkeyHex.toLower otherKey) ∧
    (resolveSignerRule (chainReader addressToString bufferToString) reads pubkeyHex = .ok none →
      ∀ rule ∈ reads.live.rules, ∀ verifier keyData,
        Signer.external verifier keyData ∈ rule.signers →
          ¬ KeyText pubkeyHex.toLower keyData) := by
  have nothing : reads.live.below 0 = [] := reads.live.below_zero
  have resolves (result : Option SignerRule)
      (answered : resolveSignerRule (chainReader addressToString bufferToString) reads pubkeyHex =
        .ok result) :
      result = resolved addressToString pubkeyHex.toLower reads.live.rules := by
    obtain ⟨count, counted, scanned⟩ := Contract.bind_eq_ok.mp answered
    exact resolveFrom_ok (AccountReads.getContextRulesCount_eq_ok counted)
      (by rw [nothing]; rfl) (by rw [nothing]; rfl) scanned
  refine ⟨?_, ?_, ?_⟩
  · intro rules fetched
    obtain ⟨count, counted, scanned⟩ := Contract.bind_eq_ok.mp fetched
    exact fetchFrom_ok (AccountReads.getContextRulesCount_eq_ok counted)
      (by rw [nothing]; rfl) scanned
  · intro signer answered
    have first := (resolves _ answered).symm
    unfold resolved at first
    obtain ⟨before, rule, after, whole, matched, missed⟩ := List.findSome?_eq_some_iff.mp first
    obtain ⟨verifier, found, rfl⟩ := Option.map_eq_some_iff.mp matched
    obtain ⟨keyData, member, holds⟩ := ruleVerifier_eq_some found
    refine ⟨rule, ?_, verifier, keyData, member, holds, rfl, ?_⟩
    · rw [whole]
      exact List.mem_append_right _ List.mem_cons_self
    · intro earlier earlierMember less other otherKey otherMember
      have ordered := reads.live.ordered
      rw [whole] at earlierMember ordered
      have inBefore : earlier ∈ before := by
        rcases List.mem_append.mp earlierMember with inBefore | notBefore
        · exact inBefore
        · have tail := List.pairwise_cons.mp (List.pairwise_append.mp ordered).2.1
          rcases List.mem_cons.mp notBefore with rfl | later
          · exact absurd less (Nat.lt_irrefl _)
          · exact absurd (Nat.lt_trans less (tail.1 earlier later)) (Nat.lt_irrefl _)
      exact ruleVerifier_eq_none (Option.map_eq_none_iff.mp (missed earlier inBefore)) otherMember
  · intro answered rule member verifier keyData signerMember
    have none_ := (resolves _ answered).symm
    have missed := List.findSome?_eq_none_iff.mp none_ rule member
    exact ruleVerifier_eq_none (Option.map_eq_none_iff.mp missed) signerMember

end Scan

/-! ### A signer without a key -/

namespace SampleReads

def verifier : Address := .contract ⟨List.replicate 32 23, rfl⟩

def rule : ContextRule where
  id := 0
  contextType := .default
  name := "default"
  signers := [.external verifier []]
  signerIds := [0]
  policies := []
  policyIds := []
  validUntil := none

def reads : AccountReads where
  live := { rules := [rule], ordered := List.pairwise_singleton _ _ }
  countFailure := none
  failure := fun _ => none
  notFound := fun _ => "HostError: Error(Contract, #3000)"
  failure_other := by
    intro id message failed
    cases failed
  notFound_reported := by
    intro id
    decide

def reader : NativeReader := chainReader (fun _ => "C") (fun _ => "")

def sharedRule : ContextRule :=
  { rule with signers := [.external verifier [9], .external verifier []] }

def laterRule : ContextRule := { rule with id := 2, signers := [.external verifier [7]] }

/-- The rule with the id 1 was removed. -/
def gapped : AccountReads :=
  { reads with
    live :=
      { rules := [sharedRule, laterRule]
        ordered := List.pairwise_pair.mpr (by decide) } }

theorem gapped_reads :
    gapped.getContextRule 0 = .ok sharedRule.toScVal ∧
      gapped.getContextRule 1 = .error (gapped.notFound 1) ∧
      gapped.getContextRule 2 = .ok laterRule.toScVal :=
  ⟨rfl, rfl, rfl⟩

theorem gapped_fetched : ∃ rules, fetchAllChainRules reader gapped = .ok rules := by
  obtain ⟨first, gap, second⟩ := gapped_reads
  have parsed (rule : ContextRule) : (scValToNative reader rule.toScVal).bind (parseRule reader) =
      .ok (chainRule (fun _ => "C") rule) := by
    rw [reader, scValToNative_rule]
    exact parseRule_native (fun _ => "C") (fun _ => "") rule
  refine ⟨[] ++ [chainRule (fun _ => "C") sharedRule] ++ [chainRule (fun _ => "C") laterRule],
    Contract.bind_eq_ok.mpr ⟨2, rfl, ?_⟩⟩
  rw [fetchFrom, if_pos (by decide), first]
  dsimp only
  rw [parsed]
  dsimp only
  rw [fetchFrom, if_pos (by decide), gap]
  dsimp only
  rw [if_pos (gapped.notFound_reported 1), fetchFrom, if_pos (by decide), second]
  dsimp only
  rw [parsed]
  dsimp only
  rw [fetchFrom, if_neg (by simp), if_neg (by simp)]

theorem lower_seven : "07".toLower = "07" := String.toList_inj.mp (String.toList_map.trans rfl)

theorem gapped_resolved : ∃ signer, resolveSignerRule reader gapped "07" = .ok (some signer) := by
  obtain ⟨first, gap, second⟩ := gapped_reads
  have missed : ruleVerifier "07".toLower sharedRule = none := by
    rw [lower_seven]
    decide
  have matched : ruleVerifier "07".toLower laterRule = some verifier := by
    rw [lower_seven]
    decide
  refine ⟨{ ruleId := .number 2, verifier := "C" }, Contract.bind_eq_ok.mpr ⟨2, rfl, ?_⟩⟩
  rw [resolveFrom, if_pos (by decide), first]
  dsimp only
  rw [reader, signerRule_native, missed]
  dsimp only [Option.map_none]
  rw [resolveFrom, if_pos (by decide), gap]
  dsimp only
  rw [if_pos (gapped.notFound_reported 1), resolveFrom, if_pos (by decide), second]
  dsimp only
  rw [signerRule_native, matched]
  rfl

end SampleReads

/-- The scan goes over the gap, and the key is found in the rule behind it only. -/
theorem ruleEnumeration_complete_gap :
    fetchAllChainRules SampleReads.reader SampleReads.gapped =
        .ok [chainRule (fun _ => "C") SampleReads.sharedRule,
          chainRule (fun _ => "C") SampleReads.laterRule] ∧
      ∃ signer, resolveSignerRule SampleReads.reader SampleReads.gapped "07" =
          .ok (some signer) ∧
        signer.ruleId = .number 2 ∧
        ∀ other otherKey, Signer.external other otherKey ∈ SampleReads.sharedRule.signers →
          ¬ KeyText "07".toLower otherKey := by
  obtain ⟨whole, found, _⟩ :=
    ruleEnumeration_complete (fun _ => "C") (fun _ => "") SampleReads.gapped "07"
  obtain ⟨rules, fetched⟩ := SampleReads.gapped_fetched
  obtain ⟨signer, answered⟩ := SampleReads.gapped_resolved
  obtain ⟨rule, member, verifier, keyData, listed, ⟨_, text⟩, rfl, earlier⟩ :=
    found signer answered
  constructor
  · rw [fetched, whole rules fetched]
    rfl
  · have isLater : rule = SampleReads.laterRule := by
      rcases List.mem_cons.mp member with rfl | member
      · simp only [SampleReads.sharedRule, List.mem_cons, List.not_mem_nil, or_false,
          Signer.external.injEq] at listed
        rw [SampleReads.lower_seven] at text
        rcases listed with ⟨_, rfl⟩ | ⟨_, rfl⟩
        · exact absurd text (by decide)
        · exact absurd text (by decide)
      · exact List.mem_singleton.mp member
    subst isLater
    exact ⟨_, answered, rfl, earlier SampleReads.sharedRule List.mem_cons_self (by decide)⟩

/-- The text of an empty key counts as no text. -/
theorem resolveSignerRule_emptyKey :
    resolveSignerRule SampleReads.reader SampleReads.reads "" = .ok none ∧
      SampleReads.rule ∈ SampleReads.reads.live.rules ∧
      Signer.external SampleReads.verifier [] ∈ SampleReads.rule.signers ∧
      buf2hex [] = "".toLower := by
  have lower : buf2hex [] = "".map Char.toLower := by simp [buf2hex]
  refine ⟨?_, List.mem_cons_self, List.mem_cons_self, lower⟩
  have first : SampleReads.reads.getContextRule 0 = .ok SampleReads.rule.toScVal := rfl
  have unmatched : signerRule SampleReads.reader "".toLower 0 SampleReads.rule.toScVal =
      .ok none := by
    have noKey : ruleVerifier "".toLower SampleReads.rule = none := by decide
    rw [SampleReads.reader, signerRule_native, noKey]
    rfl
  refine Contract.bind_eq_ok.mpr ⟨1, rfl, ?_⟩
  rw [resolveFrom, if_pos (by decide), first]
  dsimp only
  rw [unmatched]
  dsimp only
  rw [resolveFrom, if_neg (by decide), if_neg (by decide)]

end Nido.Frontend
