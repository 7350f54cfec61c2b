/-
CBOR items of definite length.

A first byte holds the major type of an item and how its argument is written: in the byte
itself, or in the one, two or four that follow. The argument is the number, the length of
the string or the count of the items that the item holds.
-/

import Nido.Library.BigEndian
import Nido.Library.Utf8

namespace Cbor

inductive Argument
  | immediate (value : Fin 24)
  | one (value : UInt8)
  | two (value : UInt16)
  | four (value : UInt32)

namespace Argument

def value : Argument → Nat
  | .immediate value => value.val
  | .one value => value.toNat
  | .two value => value.toNat
  | .four value => value.toNat

/-- The five low bits of the first byte. -/
def info : Argument → Nat
  | .immediate value => value.val
  | .one _ => 24
  | .two _ => 25
  | .four _ => 26

def extra : Argument → List UInt8
  | .immediate _ => []
  | .one value => [value]
  | .two value => BigEndian.encode 2 value.toNat
  | .four value => BigEndian.encode 4 value.toNat

/-- At most one byte follows the first one. -/
def isNarrow : Argument → Bool
  | .immediate _ => true
  | .one _ => true
  | .two _ => false
  | .four _ => false

theorem info_lt (argument : Argument) : argument.info < 27 := by
  cases argument with
  | immediate value => exact Nat.lt_trans value.isLt (by decide)
  | one value => exact (by decide : 24 < 27)
  | two value => exact (by decide : 25 < 27)
  | four value => exact (by decide : 26 < 27)

theorem isNarrow_iff (argument : Argument) :
    argument.isNarrow = true ↔ argument.extra.length ≤ 1 := by
  cases argument with
  | immediate value => exact iff_of_true rfl (Nat.zero_le 1)
  | one value => exact iff_of_true rfl (Nat.le_refl 1)
  | two value => exact iff_of_false (by intro same; cases same) (by decide : ¬ 2 ≤ 1)
  | four value => exact iff_of_false (by intro same; cases same) (by decide : ¬ 4 ≤ 1)

theorem extra_pos {argument : Argument} (large : 24 ≤ argument.value) :
    1 ≤ argument.extra.length := by
  cases argument with
  | immediate value => exact absurd value.isLt (Nat.not_lt.mpr large)
  | one value => exact Nat.le_refl 1
  | two value => exact (by decide : 1 ≤ 2)
  | four value => exact (by decide : 1 ≤ 4)

end Argument

def head (major : Nat) (argument : Argument) : List UInt8 :=
  UInt8.ofNat (major * 32 + argument.info) :: argument.extra

@[simp] theorem head_length (major : Nat) (argument : Argument) :
    (head major argument).length = argument.extra.length + 1 := rfl

theorem first_toNat {major : Nat} (small : major < 8) (argument : Argument) :
    (UInt8.ofNat (major * 32 + argument.info)).toNat = major * 32 + argument.info := by
  have bound := argument.info_lt
  exact Utf8.ofNat_toNat (by omega)

inductive Item
  | unsigned (argument : Argument)
  | negative (argument : Argument)
  | bytes (argument : Argument) (payload : List UInt8)
  | text (argument : Argument) (payload : String)
  | array (argument : Argument) (items : List Item)
  | map (argument : Argument) (entries : List (Item × Item))
  | simple (argument : Argument)

namespace Item

mutual

def encode : Item → List UInt8
  | .unsigned argument => head 0 argument
  | .negative argument => head 1 argument
  | .bytes argument payload => head 2 argument ++ payload
  | .text argument payload => head 3 argument ++ Utf8.encode payload
  | .array argument items => head 4 argument ++ encodeItems items
  | .map argument entries => head 5 argument ++ encodeEntries entries
  | .simple argument => head 7 argument

def encodeItems : List Item → List UInt8
  | [] => []
  | item :: rest => item.encode ++ encodeItems rest

def encodeEntries : List (Item × Item) → List UInt8
  | [] => []
  | (key, value) :: rest => key.encode ++ (value.encode ++ encodeEntries rest)

end

mutual

/-- Every argument says what follows it. -/
def Valid : Item → Prop
  | .unsigned _ => True
  | .negative _ => True
  | .bytes argument payload => argument.value = payload.length
  | .text argument payload => argument.value = (Utf8.encode payload).length
  | .array argument items => argument.value = items.length ∧ ValidItems items
  | .map argument entries => argument.value = entries.length ∧ ValidEntries entries
  | .simple _ => True

def ValidItems : List Item → Prop
  | [] => True
  | item :: rest => item.Valid ∧ ValidItems rest

def ValidEntries : List (Item × Item) → Prop
  | [] => True
  | (key, value) :: rest => key.Valid ∧ value.Valid ∧ ValidEntries rest

end

def major : Item → Nat
  | .unsigned _ => 0
  | .negative _ => 1
  | .bytes _ _ => 2
  | .text _ _ => 3
  | .array _ _ => 4
  | .map _ _ => 5
  | .simple _ => 7

def argument : Item → Argument
  | .unsigned argument => argument
  | .negative argument => argument
  | .bytes argument _ => argument
  | .text argument _ => argument
  | .array argument _ => argument
  | .map argument _ => argument
  | .simple argument => argument

def content : Item → List UInt8
  | .bytes _ payload => payload
  | .text _ payload => Utf8.encode payload
  | .array _ items => encodeItems items
  | .map _ entries => encodeEntries entries
  | _ => []

def number : Item → Option Int
  | .unsigned argument => some argument.value
  | .negative argument => some (-1 - argument.value)
  | _ => none

theorem eq_of_number {item : Item} {number : Int} (integer : item.number = some number) :
    (∃ argument, item = .unsigned argument ∧ number = argument.value) ∨
      ∃ argument, item = .negative argument ∧ number = -1 - argument.value := by
  cases item with
  | unsigned argument =>
      cases integer
      exact Or.inl ⟨argument, rfl, rfl⟩
  | negative argument =>
      cases integer
      exact Or.inr ⟨argument, rfl, rfl⟩
  | bytes argument payload => cases integer
  | text argument payload => cases integer
  | array argument items => cases integer
  | map argument entries => cases integer
  | simple argument => cases integer

theorem encode_eq (item : Item) : item.encode = head item.major item.argument ++ item.content := by
  cases item with
  | unsigned argument => simp [encode, major, Item.argument, content]
  | negative argument => simp [encode, major, Item.argument, content]
  | bytes argument payload => simp [encode, major, Item.argument, content]
  | text argument payload => simp [encode, major, Item.argument, content]
  | array argument items => simp [encode, major, Item.argument, content]
  | map argument entries => simp [encode, major, Item.argument, content]
  | simple argument => simp [encode, major, Item.argument, content]

theorem encode_length_of_number {item : Item} {number : Int}
    (integer : item.number = some number) :
    item.encode.length = item.argument.extra.length + 1 := by
  rcases eq_of_number integer with ⟨argument, rfl, _⟩ | ⟨argument, rfl, _⟩
  · rw [encode, head_length, Item.argument]
  · rw [encode, head_length, Item.argument]

theorem major_lt (item : Item) : item.major < 8 := by
  cases item <;> simp [major]

theorem encode_pos (item : Item) : 0 < item.encode.length := by
  rw [encode_eq, List.length_append, head_length]
  omega

theorem encodeEntries_append (left right : List (Item × Item)) :
    encodeEntries (left ++ right) = encodeEntries left ++ encodeEntries right := by
  induction left with
  | nil => simp [encodeEntries]
  | cons entry rest ih =>
      obtain ⟨key, value⟩ := entry
      rw [List.cons_append, encodeEntries, encodeEntries, ih]
      simp only [List.append_assoc]

end Item

/-- An item whose arguments are right, and so are those of all items in it. -/
def WellFormed := { item : Item // item.Valid }

end Cbor
