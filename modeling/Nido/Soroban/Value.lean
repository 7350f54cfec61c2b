/-
Dynamically typed host values and the authorization contexts built from them.

The shapes that the contracts and their clients exchange have constructors of their
own; the other number types share one, and what is left stays encoded. A typed
parameter of an entry point is decoded from such a value; a value of the
wrong shape is refused by the decoder, and the invocation traps.
-/

import Nido.Soroban.Host

namespace Nido

/-- The number types that no contract of this workspace takes. -/
inductive NumberType
  | i32
  | i64
  | timepoint
  | duration
  | u128
  | u256
  | i256
deriving DecidableEq

/-- Errors, contract instances and ledger keys stay encoded under their discriminant. -/
inductive ScVal
  | void
  | bool (value : Bool)
  | u32 (value : UInt32)
  | u64 (value : UInt64)
  | i128 (value : Int)
  | number (type : NumberType) (value : Int)
  | symbol (name : String)
  | string (text : String)
  | bytes (data : Bytes)
  | address (address : Address)
  | vec (items : List ScVal)
  | map (entries : List (ScVal × ScVal))
  | encoded (discriminant : Nat) (data : Bytes)

mutual

/-- The host's structural comparison of two values. -/
def ScVal.beq : ScVal → ScVal → Bool
  | .void, .void => true
  | .bool left, .bool right => left == right
  | .u32 left, .u32 right => left == right
  | .u64 left, .u64 right => left == right
  | .i128 left, .i128 right => left == right
  | .number leftType left, .number rightType right =>
      decide (leftType = rightType) && left == right
  | .symbol left, .symbol right => left == right
  | .string left, .string right => left == right
  | .bytes left, .bytes right => left == right
  | .address left, .address right => decide (left = right)
  | .vec left, .vec right => ScVal.beqItems left right
  | .map left, .map right => ScVal.beqEntries left right
  | .encoded leftKind left, .encoded rightKind right => leftKind == rightKind && left == right
  | _, _ => false

def ScVal.beqItems : List ScVal → List ScVal → Bool
  | [], [] => true
  | left :: lefts, right :: rights => left.beq right && ScVal.beqItems lefts rights
  | _, _ => false

def ScVal.beqEntries : List (ScVal × ScVal) → List (ScVal × ScVal) → Bool
  | [], [] => true
  | (leftKey, leftValue) :: lefts, (rightKey, rightValue) :: rights =>
      leftKey.beq rightKey && leftValue.beq rightValue && ScVal.beqEntries lefts rights
  | _, _ => false

end

mutual

theorem ScVal.beq_iff : (left right : ScVal) → (left.beq right = true ↔ left = right)
  | .vec left, right => by
      cases right <;> simp [ScVal.beq, ScVal.beqItems_iff left]
  | .map left, right => by
      cases right <;> simp [ScVal.beq, ScVal.beqEntries_iff left]
  | .void, right => by cases right <;> simp [ScVal.beq]
  | .bool _, right => by cases right <;> simp [ScVal.beq]
  | .u32 _, right => by cases right <;> simp [ScVal.beq]
  | .u64 _, right => by cases right <;> simp [ScVal.beq]
  | .i128 _, right => by cases right <;> simp [ScVal.beq]
  | .number _ _, right => by cases right <;> simp [ScVal.beq]
  | .encoded _ _, right => by cases right <;> simp [ScVal.beq]
  | .symbol _, right => by cases right <;> simp [ScVal.beq]
  | .string _, right => by cases right <;> simp [ScVal.beq]
  | .bytes _, right => by cases right <;> simp [ScVal.beq]
  | .address _, right => by cases right <;> simp [ScVal.beq]

theorem ScVal.beqItems_iff : (left right : List ScVal) →
    (ScVal.beqItems left right = true ↔ left = right)
  | [], right => by cases right <;> simp [ScVal.beqItems]
  | value :: rest, right => by
      cases right with
      | nil => simp [ScVal.beqItems]
      | cons other others =>
          simp [ScVal.beqItems, ScVal.beq_iff value, ScVal.beqItems_iff rest]

theorem ScVal.beqEntries_iff : (left right : List (ScVal × ScVal)) →
    (ScVal.beqEntries left right = true ↔ left = right)
  | [], right => by cases right <;> simp [ScVal.beqEntries]
  | (key, value) :: rest, right => by
      cases right with
      | nil => simp [ScVal.beqEntries]
      | cons other others =>
          obtain ⟨otherKey, otherValue⟩ := other
          simp [ScVal.beqEntries, ScVal.beq_iff key, ScVal.beq_iff value,
            ScVal.beqEntries_iff rest]

end

instance : DecidableEq ScVal := fun left right =>
  decidable_of_iff (left.beq right = true) (ScVal.beq_iff left right)

namespace ScVal

def asAddress : ScVal → Option Address
  | .address target => some target
  | _ => none

def asU32 : ScVal → Option UInt32
  | .u32 value => some value
  | _ => none

def asU64 : ScVal → Option UInt64
  | .u64 value => some value
  | _ => none

def asSymbol : ScVal → Option String
  | .symbol name => some name
  | _ => none

def asString : ScVal → Option String
  | .string text => some text
  | _ => none

def asBytes : ScVal → Option Bytes
  | .bytes data => some data
  | _ => none

def asBytesN (n : Nat) : ScVal → Option (BytesN n)
  | .bytes data => if size : data.length = n then some ⟨data, size⟩ else none
  | _ => none

/-- A typed struct is a map from exactly its field names, in their order, to the
values of its fields. -/
def asStruct (names : List String) : ScVal → Option (List ScVal)
  | .map entries =>
      if entries.map Prod.fst = names.map ScVal.symbol then some (entries.map Prod.snd) else none
  | _ => none

end ScVal

structure ContractContext where
  contract : Address
  fnName : String
  args : List ScVal
deriving DecidableEq

/-- `soroban_sdk::auth::Context`; the two contract-creation variants carry no
data that any contract of this workspace reads. -/
inductive Context
  | contract (call : ContractContext)
  | createContract
deriving DecidableEq

end Nido
