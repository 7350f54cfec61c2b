/-
The operations that the wallet builds for its own pages.

A page describes what it wants, and the description is turned into one contract
call. Strings from a page may be anything: parsing an address or a number fails
where the library throws.
-/

import Nido.Sdk.Encoding
import Nido.Sdk.PolicyBlocks

namespace Nido.Frontend

open Sdk

/-! ### Strings read as numbers -/

def readDigits (radix : Nat) : List Char → Option Nat
  | [] => none
  | digits => digits.foldlM (fun total c => (readDigit radix c).map (total * radix + ·)) 0

def trim (text : List Char) : List Char :=
  ((text.dropWhile isWhiteSpace).reverse.dropWhile isWhiteSpace).reverse

/-- `BigInt(text)`. -/
def bigInt (text : String) : Js Int :=
  let number : Option Int :=
    match trim text.toList with
    | [] => some 0
    | '0' :: 'x' :: digits | '0' :: 'X' :: digits => (readDigits 16 digits).map Int.ofNat
    | '0' :: 'o' :: digits | '0' :: 'O' :: digits => (readDigits 8 digits).map Int.ofNat
    | '0' :: 'b' :: digits | '0' :: 'B' :: digits => (readDigits 2 digits).map Int.ofNat
    | '+' :: digits => (readDigits 10 digits).map Int.ofNat
    | '-' :: digits => (readDigits 10 digits).map (fun value => -(value : Int))
    | digits => (readDigits 10 digits).map Int.ofNat
  match number with
  | some value => .ok value
  | none => .error ("Cannot convert " ++ text ++ " to a BigInt")

/-! ### Descriptors -/

structure Limit where
  stroops : String
  periodLedgers : UInt32

/-- What a page asks for; a transaction handed over as raw XDR is not built here. -/
inductive OperationDescriptor
  | register (name : String)
  | transfer (token to_ amountRaw : String)
  | addContextRule (target signerPublicKeyHex verifierAddress : String)
      (validUntil : Option UInt32) (limit : Option Limit) (label : Option String)
  | removeContextRule (ruleId : UInt32)

def spendingLimitParamsScVal (stroops : Int) (periodLedgers : UInt32) : ScVal :=
  .map [(.symbol "period_ledgers", .u32 periodLedgers), (.symbol "spending_limit", .i128 stroops)]

section Build

variable (bindings : Bindings) (fetchRegistryAddress : String → Js String)

/-- `Operation.invokeContractFunction`. -/
def invokeContractFunction (contractId function : String) (args : List ScVal) :
    Js InvokeHostFunctionOp := do
  let contract ← bindings.addressOf contractId
  pure { hostFunction := .invokeContract { contract, fnName := function, args }, auth := [] }

def buildSendOperation (smartAccount tokenContractId destination : String) (amount : Int) :
    Js InvokeHostFunctionOp := do
  let sender ← bindings.addressOf smartAccount
  let receiver ← bindings.addressOf destination
  let token ← bindings.addressOf tokenContractId
  invokeContractFunction bindings smartAccount "execute"
    [.address token, .symbol "transfer",
      .vec [.address sender, .address receiver, .i128 amount]]

/-- The policies of a session rule: the spending limit, if there is one. -/
def limitPolicies : Option Limit → Js (List (ScVal × ScVal))
  | none => pure []
  | some limit => do
      let policyAddr ← fetchRegistryAddress "spending-limit-policy"
      let stroops ← bigInt limit.stroops
      let policy ← bindings.addressOf policyAddr
      pure [(.address policy, spendingLimitParamsScVal stroops limit.periodLedgers)]

def buildOperation (d : OperationDescriptor) (account : String) :
    Js (List InvokeHostFunctionOp) := do
  match d with
  | .register name => do
      let nameRegistryId ← fetchRegistryAddress "name-registry"
      let owner ← bindings.addressOf account
      let operation ← invokeContractFunction bindings nameRegistryId "register"
        [.address owner, .string name]
      pure [operation]
  | .transfer token to_ amountRaw => do
      let amount ← bigInt amountRaw
      let operation ← buildSendOperation bindings account token to_ amount
      pure [operation]
  | .addContextRule target signerPublicKeyHex verifierAddress validUntil limit label => do
      let policies ← limitPolicies bindings fetchRegistryAddress limit
      let scope ← bindings.addressOf target
      let verifier ← bindings.addressOf verifierAddress
      bindings.call account "add_context_rule"
        [(ContextRuleType.callContract scope).toScVal, .string (label.getD "session-key"),
          encodeOptionU32 validUntil,
          .vec [(Signer.external verifier (hex2buf signerPublicKeyHex)).toScVal], .map policies]
  | .removeContextRule ruleId =>
      bindings.call account "remove_context_rule" [.u32 ruleId]

end Build

example : bigInt " 0x1F " = .ok 31 := rfl

end Nido.Frontend
