/-
The summaries that the signing page shows.

A host function from a dApp may be anything. Its arguments are decoded into
values without a fixed type, a call is recognised by its name and the number of its
arguments, and a call that cannot be decoded keeps the generic summary. What is
shown as a transfer is one exactly when the decoded values had the types of a
transfer and an `execute` is called on the account that pays.
-/

import Nido.Frontend.OperationBuilders
import Nido.Frontend.WalletSign

namespace Nido.Frontend

open Sdk

/-! ### Values without a fixed type -/

/-- What `scValToNative` returns: a text, a list or a plain object among others. -/
inductive Native
  | null
  | undefined
  | bool (value : Bool)
  | number (value : Int)
  | bigint (value : Int)
  | text (value : String)
  | bytes (data : Bytes)
  | array (items : List Native)
  | record (entries : List (String × Native))
  | object

def Native.asText : Native → Option String
  | .text value => some value
  | _ => none

def Native.asNumber : Native → Option Int
  | .number value => some value
  | _ => none

/-- What is needed from the Stellar library: the texts of addresses, of buffers, and of
symbols and strings, which lose a byte order mark when they come off the wire. -/
structure NativeReader where
  addressToString : Address → String
  bufferToString : Bytes → String
  readText : String → String

section Reader

variable (reader : NativeReader)

mutual

/-- `String(value)`. An own property `toString` is never a function, so it throws. -/
def Native.toText : Native → Js String
  | .null => .ok "null"
  | .undefined => .ok "undefined"
  | .bool value => .ok (if value then "true" else "false")
  | .number value | .bigint value => .ok (toString value)
  | .text value => .ok value
  | .bytes data => .ok (reader.bufferToString data)
  | .array items => (itemTexts items).map (fun texts => ",".intercalate texts)
  | .record entries =>
      if entries.any (fun entry => entry.1 == "toString") then
        .error "Cannot convert object to primitive value"
      else
        .ok "[object Object]"
  | .object => .ok "[object Object]"

def itemTexts : List Native → Js (List String)
  | [] => .ok []
  | .null :: rest => (itemTexts rest).map (List.cons "")
  | .undefined :: rest => (itemTexts rest).map (List.cons "")
  | item :: rest => do
      let text ← item.toText
      let others ← itemTexts rest
      pure (text :: others)

end

/-- `BigInt(value)`. -/
def Native.toBigInt : Native → Js Int
  | .null => .error "Cannot convert null to a BigInt"
  | .undefined => .error "Cannot convert undefined to a BigInt"
  | .bool value => .ok (if value then 1 else 0)
  | .number value | .bigint value => .ok value
  | value => do
      let text ← value.toText reader
      bigInt text

mutual

/-- The Stellar library's conversion without a type hint. That structs become records, enumerations
lists and bytes byte arrays is what `policyChainParse.test.ts` and `policyChainFetch.ts` rely on;
symbols, strings and addresses become texts and wide numbers bigints in `sendXlm.test.ts`,
`balances.test.ts` and `spendingLimitParams.test.ts`. Errors and contract instances become
objects, the key of an instance nothing. -/
def scValToNative : ScVal → Js Native
  | .void => .ok .null
  | .bool value => .ok (.bool value)
  | .u32 value => .ok (.number value.toNat)
  | .number .i32 value => .ok (.number value)
  | .u64 value => .ok (.bigint value.toNat)
  | .i128 value | .number _ value => .ok (.bigint value)
  | .symbol text | .string text => .ok (.text (reader.readText text))
  | .bytes data => .ok (.bytes data)
  | .address target => .ok (.text (reader.addressToString target))
  | .vec items => (nativeItems items).map .array
  | .map entries => (nativeEntries entries).map .record
  | .encoded discriminant _ => .ok (if discriminant = 20 then .undefined else .object)

def nativeItems : List ScVal → Js (List Native)
  | [] => .ok []
  | value :: rest => do
      let native ← scValToNative value
      let others ← nativeItems rest
      pure (native :: others)

def nativeEntries : List (ScVal × ScVal) → Js (List (String × Native))
  | [] => .ok []
  | (key, value) :: rest => do
      let nativeKey ← scValToNative key
      let native ← scValToNative value
      let others ← nativeEntries rest
      let property ← nativeKey.toText reader
      pure ((property, native) :: others)

end

end Reader

def property (entries : List (String × Native)) (name : String) : Option Native :=
  entries.reverse.lookup name

/-! ### Summaries -/

inductive OpSummary
  | transfer (token from_ to_ : Native) (amount : Int)
  | nameRegister (contract account name : String)
  | sessionGrant (contract name target : String) (validUntil : Option Int)
  | sessionRevoke (contract : String) (ruleId : Int)
  | invoke (contract fn : String) (argsCount : Nat)
  | other (type : String)

section Describe

variable (reader : NativeReader)

def describeExecute (args : List ScVal) : Js (Option OpSummary) :=
  match args with
  | [token, method, params] => do
      let name ← scValToNative reader method
      if name.asText = some "transfer" then
        let inner ← scValToNative reader params
        match inner with
        | .array [from_, to_, amount] => do
            let tokenId ← scValToNative reader token
            let value ← amount.toBigInt reader
            pure (some (.transfer tokenId from_ to_ value))
        | _ => pure none
      else
        pure none
  | _ => .ok none

def describeTransfer (contract : String) (args : List ScVal) : Js (Option OpSummary) :=
  if args.length = 3 then do
    let natives ← nativeItems reader args
    match natives with
    | [from_, to_, amount] => do
        let value ← amount.toBigInt reader
        pure (some (.transfer (.text contract) from_ to_ value))
    | _ => pure none
  else
    .ok none

def describeRegister (contract : String) (args : List ScVal) : Js (Option OpSummary) :=
  match args with
  | [first, second] => do
      let account ← scValToNative reader first
      let name ← scValToNative reader second
      match account, name with
      | .text account, .text name => pure (some (.nameRegister contract account name))
      | _, _ => pure none
  | _ => .ok none

def describeRemoveContextRule (contract : String) (args : List ScVal) : Js (Option OpSummary) :=
  match args with
  | [first] => do
      let ruleId ← scValToNative reader first
      pure (ruleId.asNumber.map (OpSummary.sessionRevoke contract))
  | _ => .ok none

/-- `rule.context_type?.values[0]`, if it is a text. -/
def contextTarget : Option Native → String
  | some (.record contextType) =>
      match property contextType "values" with
      | some (.array (.text target :: _)) => target
      | _ => ""
  | _ => ""

def sessionGrant (contract : String) (rule : List (String × Native)) : OpSummary :=
  .sessionGrant contract (((property rule "name").bind Native.asText).getD "session-key")
    (contextTarget (property rule "context_type"))
    ((property rule "valid_until").bind Native.asNumber)

/-- What is no plain object has none of the properties. -/
def describeAddContextRule (contract : String) (args : List ScVal) : Js (Option OpSummary) :=
  match args with
  | [first] => do
      let rule ← scValToNative reader first
      match rule with
      | .null => .error "Cannot read properties of null (reading 'context_type')"
      | .undefined => .error "Cannot read properties of undefined (reading 'context_type')"
      | .record entries => pure (some (sessionGrant contract entries))
      | _ => pure (some (sessionGrant contract []))
  | _ => .ok none

def recognise (ic : ContractContext) : Js (Option OpSummary) :=
  let contract := reader.addressToString ic.contract
  if ic.fnName = "execute" then describeExecute reader ic.args
  else if ic.fnName = "transfer" then describeTransfer reader contract ic.args
  else if ic.fnName = "register" then describeRegister reader contract ic.args
  else if ic.fnName = "remove_context_rule" then describeRemoveContextRule reader contract ic.args
  else if ic.fnName = "add_context_rule" then describeAddContextRule reader contract ic.args
  else .ok none

/-- A call that throws on the way, or is not recognised, keeps the generic summary. -/
def describeInvokeContract (ic : ContractContext) : OpSummary :=
  match recognise reader ic with
  | .ok (some summary) => summary
  | .ok none | .error _ => .invoke (reader.addressToString ic.contract) ic.fnName ic.args.length

def describeHostFunction : HostFunction → OpSummary
  | .invokeContract call => describeInvokeContract reader call
  | .createContract => .other "hostFunctionTypeCreateContract"
  | .createContractV2 => .other "hostFunctionTypeCreateContractV2"
  | .uploadWasm => .other "hostFunctionTypeUploadContractWasm"

def describeOperation : TxOperation → OpSummary
  | .invokeHostFunction op => describeHostFunction reader op.hostFunction
  | .other type => .other type

end Describe

/-! ### What a transfer is -/

section Transfer

variable (reader : NativeReader)

/-- The host function is the transfer that is shown: on the token itself, or wrapped by the
account that pays. -/
def Transfers (h : HostFunction) (token from_ to_ : Native) (amount : Int) : Prop :=
  ∃ contract sender receiver,
    token = .text (reader.addressToString contract) ∧
    from_ = .text (reader.addressToString sender) ∧
    to_ = .text (reader.addressToString receiver) ∧
    (h = .invokeContract
        { contract := contract
          fnName := "transfer"
          args := [.address sender, .address receiver, .i128 amount] } ∨
      h = .invokeContract
        { contract := sender
          fnName := "execute"
          args := [.address contract, .symbol "transfer",
            .vec [.address sender, .address receiver, .i128 amount]] })

/-- The values decode to three, and the last of these can be made a number. -/
def Decoded (items : List ScVal) (from_ to_ : Native) (amount : Int) : Prop :=
  ∃ value, nativeItems reader items = .ok [from_, to_, value] ∧
    value.toBigInt reader = .ok amount

/-- The arguments of an `execute` that decode as those of a transfer. -/
def ExecuteDecoded (args : List ScVal) (token from_ to_ : Native) (amount : Int) : Prop :=
  ∃ tokenId method name items, args = [tokenId, method, .vec items] ∧
    scValToNative reader tokenId = .ok token ∧
    scValToNative reader method = .ok name ∧ name.asText = some "transfer" ∧
    Decoded reader items from_ to_ amount

/-- A call that reads as a transfer has the types of one, and an `execute` that reads as
one is called on the account that pays. -/
def NoDisguise (call : ContractContext) : Prop :=
  (call.fnName = "transfer" →
    (∃ from_ to_ amount, Decoded reader call.args from_ to_ amount) →
      ∃ sender receiver amount, call.args = [.address sender, .address receiver, .i128 amount]) ∧
  (call.fnName = "execute" →
    (∃ token from_ to_ amount, ExecuteDecoded reader call.args token from_ to_ amount) →
      ∃ contract receiver amount,
        call.args = [.address contract, .symbol "transfer",
          .vec [.address call.contract, .address receiver, .i128 amount]])

end Transfer

section Laws

variable {reader : NativeReader}

theorem scValToNative_eq_array {value : ScVal} {natives : List Native} :
    scValToNative reader value = .ok (.array natives) ↔
      ∃ items, value = .vec items ∧ nativeItems reader items = .ok natives := by
  constructor
  · intro decoded
    cases value with
    | vec items =>
        obtain ⟨listed, itemsDecoded, same⟩ := Contract.map_eq_ok.mp decoded
        cases same
        exact ⟨items, rfl, itemsDecoded⟩
    | map entries =>
        obtain ⟨listed, -, impossible⟩ := Contract.map_eq_ok.mp decoded
        cases impossible
    | number type number => cases type <;> cases decoded
    | encoded discriminant data =>
        unfold scValToNative at decoded
        split at decoded
        · cases decoded
        · cases decoded
    | _ => cases decoded
  · intro listed
    obtain ⟨items, rfl, decoded⟩ := listed
    unfold scValToNative
    rw [decoded]
    rfl

theorem nativeItems_cons {value : ScVal} {rest : List ScVal} {natives : List Native} :
    nativeItems reader (value :: rest) = .ok natives ↔
      ∃ native others, scValToNative reader value = .ok native ∧
        nativeItems reader rest = .ok others ∧ natives = native :: others := by
  simp only [nativeItems, Contract.bind_eq_ok, Contract.pure_eq_ok]
  constructor
  · rintro ⟨native, decoded, others, restDecoded, rfl⟩
    exact ⟨native, others, decoded, restDecoded, rfl⟩
  · rintro ⟨native, others, decoded, restDecoded, rfl⟩
    exact ⟨native, decoded, others, restDecoded, rfl⟩

theorem nativeItems_length : (items : List ScVal) → (natives : List Native) →
    nativeItems reader items = .ok natives → natives.length = items.length := by
  intro items
  induction items with
  | nil =>
      intro natives decoded
      cases decoded
      rfl
  | cons value rest ih =>
      intro natives decoded
      obtain ⟨native, others, -, restDecoded, rfl⟩ := nativeItems_cons.mp decoded
      have sameLength := ih others restDecoded
      rw [List.length_cons, List.length_cons, sameLength]

theorem decoded_typed (sender receiver : Address) (amount : Int) :
    Decoded reader [.address sender, .address receiver, .i128 amount]
      (.text (reader.addressToString sender)) (.text (reader.addressToString receiver)) amount :=
  ⟨.bigint amount, rfl, rfl⟩

theorem Decoded.unique {items : List ScVal} {from_ to_ other receiver : Native} {amount value : Int}
    (left : Decoded reader items from_ to_ amount)
    (right : Decoded reader items other receiver value) :
    other = from_ ∧ receiver = to_ ∧ value = amount := by
  obtain ⟨number, decoded, read⟩ := left
  obtain ⟨otherNumber, otherDecoded, otherRead⟩ := right
  rw [decoded] at otherDecoded
  cases otherDecoded
  rw [read] at otherRead
  cases otherRead
  exact ⟨rfl, rfl, rfl⟩

/-! ### What each branch shows -/

theorem describeExecute_eq_some {args : List ScVal} {summary : OpSummary} :
    describeExecute reader args = .ok (some summary) ↔
      ∃ token from_ to_ amount, summary = .transfer token from_ to_ amount ∧
        ExecuteDecoded reader args token from_ to_ amount := by
  constructor
  · intro described
    unfold describeExecute at described
    split at described
    next tokenId method params =>
      obtain ⟨name, methodDecoded, described⟩ := Contract.bind_eq_ok.mp described
      split at described
      next named =>
        obtain ⟨inner, paramsDecoded, described⟩ := Contract.bind_eq_ok.mp described
        split at described
        next from_ to_ value =>
          obtain ⟨token, tokenDecoded, described⟩ := Contract.bind_eq_ok.mp described
          obtain ⟨amount, read, described⟩ := Contract.bind_eq_ok.mp described
          cases described
          obtain ⟨items, rfl, itemsDecoded⟩ := scValToNative_eq_array.mp paramsDecoded
          exact ⟨token, from_, to_, amount, rfl, tokenId, method, name, items, rfl, tokenDecoded,
            methodDecoded, named, value, itemsDecoded, read⟩
        next => cases described
      next => cases described
    next => cases described
  · rintro ⟨token, from_, to_, amount, rfl, tokenId, method, name, items, rfl, tokenDecoded,
      methodDecoded, named, value, itemsDecoded, read⟩
    have paramsDecoded := scValToNative_eq_array.mpr ⟨items, rfl, itemsDecoded⟩
    refine Contract.bind_eq_ok.mpr ⟨name, methodDecoded, ?_⟩
    rw [if_pos named]
    refine Contract.bind_eq_ok.mpr ⟨_, paramsDecoded, ?_⟩
    refine Contract.bind_eq_ok.mpr ⟨token, tokenDecoded, ?_⟩
    exact Contract.bind_eq_ok.mpr ⟨amount, read, rfl⟩

theorem describeTransfer_eq_some {contract : String} {args : List ScVal} {summary : OpSummary} :
    describeTransfer reader contract args = .ok (some summary) ↔
      ∃ from_ to_ amount, summary = .transfer (.text contract) from_ to_ amount ∧
        Decoded reader args from_ to_ amount := by
  constructor
  · intro described
    unfold describeTransfer at described
    split at described
    next three =>
      obtain ⟨natives, decoded, described⟩ := Contract.bind_eq_ok.mp described
      split at described
      next from_ to_ value =>
        obtain ⟨amount, read, described⟩ := Contract.bind_eq_ok.mp described
        cases described
        exact ⟨from_, to_, amount, rfl, value, decoded, read⟩
      next => cases described
    next => cases described
  · rintro ⟨from_, to_, amount, rfl, value, decoded, read⟩
    have three : args.length = 3 := (nativeItems_length args _ decoded).symm
    unfold describeTransfer
    rw [if_pos three]
    refine Contract.bind_eq_ok.mpr ⟨_, decoded, ?_⟩
    exact Contract.bind_eq_ok.mpr ⟨amount, read, rfl⟩

theorem describeRegister_kind {contract : String} {args : List ScVal} {summary : OpSummary}
    (described : describeRegister reader contract args = .ok (some summary)) :
    ∃ account name, summary = .nameRegister contract account name := by
  unfold describeRegister at described
  split at described
  next first second =>
    obtain ⟨account, -, described⟩ := Contract.bind_eq_ok.mp described
    obtain ⟨name, -, described⟩ := Contract.bind_eq_ok.mp described
    split at described
    next accountText nameText _ =>
      cases described
      exact ⟨accountText, nameText, rfl⟩
    next => cases described
  next => cases described

theorem describeRemoveContextRule_kind {contract : String} {args : List ScVal}
    {summary : OpSummary}
    (described : describeRemoveContextRule reader contract args = .ok (some summary)) :
    ∃ ruleId, summary = .sessionRevoke contract ruleId := by
  unfold describeRemoveContextRule at described
  split at described
  next first =>
    obtain ⟨ruleId, -, described⟩ := Contract.bind_eq_ok.mp described
    have revoked := Contract.pure_eq_ok.mp described
    obtain ⟨id, -, same⟩ := Option.map_eq_some_iff.mp revoked
    exact ⟨id, same.symm⟩
  next => cases described

theorem describeAddContextRule_kind {contract : String} {args : List ScVal} {summary : OpSummary}
    (described : describeAddContextRule reader contract args = .ok (some summary)) :
    ∃ entries, summary = sessionGrant contract entries := by
  unfold describeAddContextRule at described
  split at described
  next first =>
    obtain ⟨rule, -, described⟩ := Contract.bind_eq_ok.mp described
    split at described
    next => cases described
    next => cases described
    next entries =>
      cases described
      exact ⟨entries, rfl⟩
    next =>
      cases described
      exact ⟨[], rfl⟩
  next => cases described

theorem recognise_eq_transfer {call : ContractContext} {token from_ to_ : Native} {amount : Int} :
    recognise reader call = .ok (some (.transfer token from_ to_ amount)) ↔
      (call.fnName = "execute" ∧ ExecuteDecoded reader call.args token from_ to_ amount) ∨
      (call.fnName = "transfer" ∧ token = .text (reader.addressToString call.contract) ∧
        Decoded reader call.args from_ to_ amount) := by
  unfold recognise
  dsimp only
  constructor
  · intro recognised
    split_ifs at recognised with execute transfer register remove add
    · obtain ⟨tokenId, sender, receiver, value, same, decoded⟩ :=
        describeExecute_eq_some.mp recognised
      cases same
      exact .inl ⟨execute, decoded⟩
    · obtain ⟨sender, receiver, value, same, decoded⟩ := describeTransfer_eq_some.mp recognised
      cases same
      exact .inr ⟨transfer, rfl, decoded⟩
    · obtain ⟨account, name, impossible⟩ := describeRegister_kind recognised
      cases impossible
    · obtain ⟨ruleId, impossible⟩ := describeRemoveContextRule_kind recognised
      cases impossible
    · obtain ⟨entries, impossible⟩ := describeAddContextRule_kind recognised
      cases impossible
    · cases recognised
  · rintro (⟨execute, decoded⟩ | ⟨transfer, rfl, decoded⟩)
    · rw [if_pos execute]
      exact describeExecute_eq_some.mpr ⟨token, from_, to_, amount, rfl, decoded⟩
    · have notExecute : call.fnName ≠ "execute" := by
        rw [transfer]
        decide
      rw [if_neg notExecute, if_pos transfer]
      exact describeTransfer_eq_some.mpr ⟨from_, to_, amount, rfl, decoded⟩

theorem describeInvokeContract_eq_transfer {call : ContractContext} {token from_ to_ : Native}
    {amount : Int} :
    describeInvokeContract reader call = .transfer token from_ to_ amount ↔
      recognise reader call = .ok (some (.transfer token from_ to_ amount)) := by
  unfold describeInvokeContract
  constructor
  · intro shown
    split at shown
    next summary recognised =>
      rw [recognised, shown]
    next => cases shown
    next => cases shown
  · intro recognised
    rw [recognised]

/-- A call without disguise is shown as a transfer only when it is that transfer, and any
other call is shown as a transfer that it is not. -/
theorem describeInvokeContract_faithful_iff (call : ContractContext) :
    (∀ token from_ to_ amount,
      describeInvokeContract reader call = .transfer token from_ to_ amount →
        Transfers reader (.invokeContract call) token from_ to_ amount) ↔
      NoDisguise reader call := by
  obtain ⟨target, fnName, args⟩ := call
  constructor
  · intro faithful
    constructor
    · rintro rfl ⟨from_, to_, amount, decoded⟩
      have shown := describeInvokeContract_eq_transfer.mpr
        (recognise_eq_transfer.mpr (.inr ⟨rfl, rfl, decoded⟩))
      obtain ⟨contract, sender, receiver, -, -, -, bare | wrapped⟩ := faithful _ _ _ _ shown
      · cases bare
        exact ⟨sender, receiver, amount, rfl⟩
      · have sameName : some "transfer" = some "execute" :=
          congrArg HostFunction.functionName wrapped
        exact absurd sameName (by decide)
    · rintro rfl ⟨token, from_, to_, amount, decoded⟩
      have shown := describeInvokeContract_eq_transfer.mpr
        (recognise_eq_transfer.mpr (.inl ⟨rfl, decoded⟩))
      obtain ⟨contract, sender, receiver, -, -, -, bare | wrapped⟩ := faithful _ _ _ _ shown
      · have sameName : some "execute" = some "transfer" :=
          congrArg HostFunction.functionName bare
        exact absurd sameName (by decide)
      · cases wrapped
        exact ⟨contract, receiver, amount, rfl⟩
  · rintro ⟨bare, wrapped⟩ token from_ to_ amount shown
    have recognised := describeInvokeContract_eq_transfer.mp shown
    obtain ⟨rfl, decoded⟩ | ⟨rfl, rfl, decoded⟩ := recognise_eq_transfer.mp recognised
    · obtain ⟨contract, receiver, value, sameArgs⟩ :=
        wrapped rfl ⟨token, from_, to_, amount, decoded⟩
      dsimp only at sameArgs decoded
      subst sameArgs
      obtain ⟨tokenId, method, name, items, typed, tokenDecoded, -, -, itemsDecoded⟩ := decoded
      cases typed
      cases tokenDecoded
      obtain ⟨rfl, rfl, rfl⟩ := itemsDecoded.unique (decoded_typed target receiver value)
      exact ⟨contract, target, receiver, rfl, rfl, rfl, .inr rfl⟩
    · obtain ⟨sender, receiver, value, sameArgs⟩ := bare rfl ⟨from_, to_, amount, decoded⟩
      dsimp only at sameArgs decoded
      subst sameArgs
      obtain ⟨rfl, rfl, rfl⟩ := decoded.unique (decoded_typed sender receiver value)
      exact ⟨target, sender, receiver, rfl, rfl, rfl, .inl rfl⟩

/-- What is shown as a transfer is that transfer, on exactly the host functions that call
nothing in disguise. -/
theorem transfer_shown_iff (reader : NativeReader) (h : HostFunction) :
    (∀ token from_ to_ amount,
      describeHostFunction reader h = .transfer token from_ to_ amount →
        Transfers reader h token from_ to_ amount) ↔
      ∀ call, h = .invokeContract call → NoDisguise reader call := by
  cases h with
  | invokeContract call =>
      constructor
      · intro faithful other same
        cases same
        exact (describeInvokeContract_faithful_iff call).mp faithful
      · intro plain
        exact (describeInvokeContract_faithful_iff call).mpr (plain call rfl)
  | _ =>
      constructor
      · intro _ call impossible
        cases impossible
      · intro _ token from_ to_ amount impossible
        cases impossible

end Laws

namespace SampleSummary

def tokenId : Address := .contract ⟨List.replicate 32 10, rfl⟩

def victim : Address := .contract ⟨List.replicate 32 11, rfl⟩

def receiver : Address := .contract ⟨List.replicate 32 12, rfl⟩

def other : Address := .contract ⟨List.replicate 32 13, rfl⟩

def addressToString (address : Address) : String :=
  if address = tokenId then "CAFAUCQKBIFAUCQKBIFAUCQKBIFAUCQKBIFAUCQKBIFAUCQKBIFAUTSM"
  else if address = victim then "CAFQWCYLBMFQWCYLBMFQWCYLBMFQWCYLBMFQWCYLBMFQWCYLBMFQX4KO"
  else if address = receiver then "CAGAYDAMBQGAYDAMBQGAYDAMBQGAYDAMBQGAYDAMBQGAYDAMBQGAZTCD"
  else if address = other then "CAGQ2DINBUGQ2DINBUGQ2DINBUGQ2DINBUGQ2DINBUGQ2DINBUGQ242B"
  else ""

def reader : NativeReader where
  addressToString := addressToString
  bufferToString := fun _ => ""
  readText := id

/-- An `execute` of the other contract, with the arguments of a payment. -/
def disguised : ContractContext where
  contract := other
  fnName := "execute"
  args := [.address tokenId, .symbol "transfer",
    .vec [.address victim, .address receiver, .i128 7000000]]

theorem disguised_shown :
    describeHostFunction reader (.invokeContract disguised) =
      .transfer (.text (addressToString tokenId)) (.text (addressToString victim))
        (.text (addressToString receiver)) 7000000 := by
  have decoded : ExecuteDecoded reader disguised.args (.text (addressToString tokenId))
      (.text (addressToString victim)) (.text (addressToString receiver)) 7000000 :=
    ⟨.address tokenId, .symbol "transfer", .text "transfer",
      [.address victim, .address receiver, .i128 7000000], rfl, rfl, rfl, rfl,
      decoded_typed victim receiver 7000000⟩
  exact describeInvokeContract_eq_transfer.mpr (recognise_eq_transfer.mpr (.inl ⟨rfl, decoded⟩))

end SampleSummary

/-- The account is shown paying, and the call goes to a contract that is neither the account
nor the token. -/
theorem transfer_shown_elsewhere :
    ¬ (∀ h token from_ to_ amount,
      describeHostFunction SampleSummary.reader h = .transfer token from_ to_ amount →
        Transfers SampleSummary.reader h token from_ to_ amount) := by
  intro faithful
  obtain ⟨contract, sender, receiver, -, -, -, bare | wrapped⟩ :=
    faithful _ _ _ _ _ SampleSummary.disguised_shown
  · have sameName : some "execute" = some "transfer" :=
      congrArg HostFunction.functionName bare
    exact absurd sameName (by decide)
  · -- The payer would have to be the contract that is called.
    cases wrapped

end Nido.Frontend
