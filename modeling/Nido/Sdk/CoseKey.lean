/-
COSE keys of the curve P-256.

The reader is given as many bytes as a key takes in its shortest form, so that a key in a
longer one is cut, and it knows arguments of at most one byte. A key is read exactly if no
longer argument starts in those bytes and what is cut off its coordinates is zero.
-/

import Nido.Sdk.Webauthn

namespace Nido.Sdk

/-! ### Reading bytes that were cut -/

section Cut

variable {data rest : Bytes} {limit start : Nat} {offset : Offset}

/-- Nothing is read at the offset or after it. -/
def Past (limit : Nat) (offset : Offset) : Prop := ∀ place, offset = some place → limit ≤ place

/-- The reader is at a place, or both are behind the bytes. -/
def Lands (limit start : Nat) (offset : Offset) : Prop :=
  offset = some start ∨ (limit ≤ start ∧ Past limit offset)

theorem past_none : Past limit none := by
  intro place impossible
  cases impossible

theorem past_some (behind : limit ≤ start) : Past limit (some start) := by
  intro place same
  cases same
  exact behind

theorem Past.next (past : Past limit offset) : Past limit (offset.map (· + 1)) := by
  cases offset with
  | none => exact past_none
  | some place => exact past_some (Nat.le_succ_of_le (past place rfl))

theorem lands_past (lands : Lands limit start offset) (behind : limit ≤ start) :
    Past limit offset := by
  rcases lands with rfl | ⟨_, past⟩
  · exact past_some behind
  · exact past

theorem int_none : int none >>> 5 = 0 ∧ int none &&& 0x1f = 0 := by decide

theorem readInitial_past (past : Past limit offset) :
    readInitial (data.take limit) offset = ((0, 0), offset.map (· + 1)) := by
  have absent : offset.bind (fun start => (data.take limit)[start]?) = none := by
    cases offset with
    | none => rfl
    | some place =>
        rw [Option.bind_some, List.getElem?_take, if_neg (Nat.not_lt.mpr (past place rfl))]
  unfold readInitial readByte
  dsimp only
  rw [absent, int_none.1, int_none.2]

theorem readInitial_cut {major : Nat} {argument : Cbor.Argument} (small : major < 8)
    (inside : start < limit) (here : data.drop start = Cbor.head major argument ++ rest) :
    readInitial (data.take limit) (some start) = ((major, argument.info), some (start + 1)) := by
  have kept : (data.take limit)[start]? = data[start]? := List.getElem?_take_of_lt inside
  rw [← readInitial_head small here]
  unfold readInitial readByte
  dsimp only [Option.bind_some, Option.map_some]
  rw [kept]

theorem readCoseLength_narrow {major : Nat} {argument : Cbor.Argument}
    (narrow : argument.isNarrow = true) (inside : start < limit)
    (here : data.drop start = Cbor.head major argument ++ rest) :
    readCoseLength (data.take limit) argument.info (some (start + 1)) =
      .ok (if start + argument.extra.length < limit then some argument.value else none,
        some (start + (Cbor.head major argument).length)) := by
  have tail : data.drop (start + 1) = argument.extra ++ rest :=
    drop_of_drop (show data.drop start = [_] ++ _ from here)
  unfold readCoseLength
  cases argument with
  | immediate value =>
      have whole : start + (Cbor.Argument.immediate value).extra.length < limit := inside
      rw [if_pos whole]
      exact if_pos value.isLt
  | one value =>
      have byte : (data.take limit)[start + 1]? =
          if start + 1 < limit then some value else none := by
        rw [List.getElem?_take, getElem?_of_drop tail]
      change Except.ok ((data.take limit)[start + 1]?.map UInt8.toNat, some (start + 1 + 1)) =
        Except.ok (if start + 1 < limit then some value.toNat else none, some (start + 1 + 1))
      rw [byte]
      split <;> rfl
  | two value => cases narrow
  | four value => cases narrow

theorem readCoseLength_wide {argument : Cbor.Argument} (wide : argument.isNarrow ≠ true)
    (data : Bytes) (offset : Offset) :
    readCoseLength data argument.info offset = .error "Unexpected CBOR length in COSE key" := by
  unfold readCoseLength
  cases argument with
  | immediate value => exact absurd rfl wide
  | one value => exact absurd rfl wide
  | two value => rfl
  | four value => rfl

theorem readBytes_cut {payload : Bytes} (here : data.drop start = payload ++ rest) :
    readBytes (data.take limit) (some payload.length) (some start) =
      (payload.take (limit - start), some (start + payload.length)) := by
  have taken : ((data.take limit).take (start + payload.length)).drop start =
      payload.take (limit - start) := by
    rw [List.take_take, List.drop_take, here]
    by_cases whole : start + payload.length ≤ limit
    · rw [Nat.min_eq_left whole, Nat.add_sub_cancel_left, List.take_left,
        List.take_of_length_le (by omega)]
    · rw [Nat.min_eq_right (by omega), List.take_append_of_le_length (by omega)]
  unfold readBytes slice advance
  dsimp only [Option.bind_some, Option.map_some, Option.getD_some]
  rw [taken]

/-! ### Entries -/

theorem readCoseKey_past (past : Past limit offset) :
    readCoseKey (data.take limit) offset = .ok (some 0, offset.map (· + 1)) := by
  unfold readCoseKey
  rw [readInitial_past past]
  rfl

theorem readCoseKey_cut {label : Cbor.Item} {number : Int} (integer : label.number = some number)
    (narrow : label.argument.isNarrow = true) (inside : start < limit)
    (here : data.drop start = label.encode ++ rest) :
    readCoseKey (data.take limit) (some start) =
      .ok (if start + label.argument.extra.length < limit then some number else none,
        some (start + label.encode.length)) := by
  rcases Cbor.Item.eq_of_number integer with ⟨argument, rfl, rfl⟩ | ⟨argument, rfl, rfl⟩
  · rw [Cbor.Item.argument] at narrow ⊢
    rw [Cbor.Item.encode] at here ⊢
    unfold readCoseKey
    rw [readInitial_cut (by decide) inside here]
    dsimp only
    rw [if_pos rfl, readCoseLength_narrow narrow inside here]
    split <;> rfl
  · rw [Cbor.Item.argument] at narrow ⊢
    rw [Cbor.Item.encode] at here ⊢
    unfold readCoseKey
    rw [readInitial_cut (by decide) inside here]
    dsimp only
    rw [if_neg (by decide), if_pos rfl, readCoseLength_narrow narrow inside here]
    split <;> rfl

theorem readCoseKey_wide {label : Cbor.Item} {number : Int} (integer : label.number = some number)
    (wide : label.argument.isNarrow ≠ true) (inside : start < limit)
    (here : data.drop start = label.encode ++ rest) :
    readCoseKey (data.take limit) (some start) =
      .error "Unexpected CBOR length in COSE key" := by
  rcases Cbor.Item.eq_of_number integer with ⟨argument, rfl, rfl⟩ | ⟨argument, rfl, rfl⟩
  · rw [Cbor.Item.argument] at wide
    rw [Cbor.Item.encode] at here
    unfold readCoseKey
    rw [readInitial_cut (by decide) inside here]
    dsimp only
    rw [if_pos rfl, readCoseLength_wide wide]
    rfl
  · rw [Cbor.Item.argument] at wide
    rw [Cbor.Item.encode] at here
    unfold readCoseKey
    rw [readInitial_cut (by decide) inside here]
    dsimp only
    rw [if_neg (by decide), if_pos rfl, readCoseLength_wide wide]
    rfl

variable {keyVal : Option Int} {state : CoseState}

theorem readCoseValue_past (past : Past limit state.offset) :
    readCoseValue (data.take limit) keyVal state =
      .ok { state with offset := state.offset.map (· + 1) } := by
  unfold readCoseValue
  rw [readInitial_past past]
  rfl

theorem readCoseValue_number {value : Cbor.Item} {number : Int}
    (integer : value.number = some number) (narrow : value.argument.isNarrow = true)
    (inside : start < limit) (here : data.drop start = value.encode ++ rest)
    (reached : state.offset = some start) :
    readCoseValue (data.take limit) keyVal state =
      .ok { state with offset := some (start + value.encode.length) } := by
  rcases Cbor.Item.eq_of_number integer with ⟨argument, rfl, rfl⟩ | ⟨argument, rfl, rfl⟩
  · rw [Cbor.Item.argument] at narrow
    rw [Cbor.Item.encode] at here ⊢
    unfold readCoseValue
    rw [reached, readInitial_cut (by decide) inside here]
    dsimp only
    rw [if_neg (by decide), if_pos (Or.inl rfl), readCoseLength_narrow narrow inside here]
    rfl
  · rw [Cbor.Item.argument] at narrow
    rw [Cbor.Item.encode] at here ⊢
    unfold readCoseValue
    rw [reached, readInitial_cut (by decide) inside here]
    dsimp only
    rw [if_neg (by decide), if_pos (Or.inr rfl), readCoseLength_narrow narrow inside here]
    rfl

theorem readCoseValue_bytes {argument : Cbor.Argument} {payload : Bytes}
    (counted : argument.value = payload.length) (narrow : argument.isNarrow = true)
    (inside : start < limit)
    (here : data.drop start = (Cbor.Item.bytes argument payload).encode ++ rest)
    (reached : state.offset = some start) :
    ∃ offset, readCoseValue (data.take limit) keyVal state =
        .ok (CoseState.store { state with offset } keyVal
          (payload.take (limit - (start + (Cbor.head 2 argument).length)))) ∧
      Lands limit (start + (Cbor.Item.bytes argument payload).encode.length) offset := by
  rw [Cbor.Item.encode, List.append_assoc] at here
  have ends : start + (Cbor.Item.bytes argument payload).encode.length =
      start + (Cbor.head 2 argument).length + payload.length := by
    rw [Cbor.Item.encode, List.length_append, Nat.add_assoc]
  rw [ends]
  unfold readCoseValue
  rw [reached, readInitial_cut (by decide) inside here]
  dsimp only
  rw [if_pos rfl, readCoseLength_narrow narrow inside here]
  by_cases whole : start + argument.extra.length < limit
  · refine ⟨some (start + (Cbor.head 2 argument).length + payload.length), ?_, Or.inl rfl⟩
    rw [if_pos whole, counted]
    change Except.ok (CoseState.store _ keyVal (readBytes _ _ _).1) = _
    rw [readBytes_cut (drop_of_drop here)]
  · have behind : limit ≤ start + (Cbor.head 2 argument).length := by
      rw [Cbor.head_length]
      omega
    refine ⟨none, ?_, Or.inr ⟨by omega, past_none⟩⟩
    rw [if_neg whole, Nat.sub_eq_zero_of_le behind, List.take_zero]
    rfl

theorem readCoseValue_wide {value : Cbor.Item} (read : value.major ≤ 2)
    (wide : value.argument.isNarrow ≠ true) (inside : start < limit)
    (here : data.drop start = value.encode ++ rest) (reached : state.offset = some start) :
    readCoseValue (data.take limit) keyVal state =
      .error "Unexpected CBOR length in COSE key" := by
  rw [Cbor.Item.encode_eq, List.append_assoc] at here
  unfold readCoseValue
  rw [reached, readInitial_cut value.major_lt inside here]
  dsimp only
  rw [readCoseLength_wide wide]
  by_cases string : value.major = 2
  · rw [if_pos string]
    rfl
  · rw [if_neg string, if_pos (by omega)]
    rfl

end Cut

/-! ### Keys -/

inductive CoseLabel
  | kty
  | alg
  | crv
  | x
  | y
deriving DecidableEq

namespace CoseLabel

def number : CoseLabel → Int
  | .kty => 1
  | .alg => 3
  | .crv => -1
  | .x => -2
  | .y => -3

def item (label : CoseLabel) (form : Cbor.Argument) : Cbor.Item :=
  match label with
  | .kty => .unsigned form
  | .alg => .unsigned form
  | _ => .negative form

end CoseLabel

/-- A key of two coordinates. Its entries come in any order, and every argument in any form. -/
structure CoseKey where
  count : Cbor.Argument
  order : List CoseLabel
  form : CoseLabel → Cbor.Argument
  kty : Cbor.Argument
  alg : Cbor.Item
  crv : Cbor.Argument
  xForm : Cbor.Argument
  x : Bytes
  yForm : Cbor.Argument
  y : Bytes
  counted : count.value = 5
  permuted : order.Perm [.kty, .alg, .crv, .x, .y]
  labelled : ∀ label : CoseLabel, (label.item (form label)).number = some label.number
  ec2 : kty.value = 2
  algorithm : ∃ number, alg.number = some number
  p256 : crv.value = 1
  xCounted : xForm.value = 32
  x_length : x.length = 32
  yCounted : yForm.value = 32
  y_length : y.length = 32

namespace CoseKey

def label (key : CoseKey) (label : CoseLabel) : Cbor.Item := label.item (key.form label)

def value (key : CoseKey) : CoseLabel → Cbor.Item
  | .kty => .unsigned key.kty
  | .alg => key.alg
  | .crv => .unsigned key.crv
  | .x => .bytes key.xForm key.x
  | .y => .bytes key.yForm key.y

def entry (key : CoseKey) (label : CoseLabel) : Cbor.Item × Cbor.Item :=
  (key.label label, key.value label)

def item (key : CoseKey) : Cbor.Item := .map key.count (key.order.map key.entry)

def encode (key : CoseKey) : Bytes := key.item.encode

/-- `0x04`, and the coordinates. -/
def publicKey (key : CoseKey) : Bytes := 0x04 :: (key.x ++ key.y)

def size (key : CoseKey) (label : CoseLabel) : Nat :=
  (key.label label).encode.length + (key.value label).encode.length

def valueStart (key : CoseKey) (start : Nat) (label : CoseLabel) : Nat :=
  start + (key.label label).encode.length

def contentStart (key : CoseKey) (start : Nat) (label : CoseLabel) : Nat :=
  key.valueStart start label +
    (Cbor.head (key.value label).major (key.value label).argument).length

/-- The entries and where each starts. -/
def layout (key : CoseKey) : (start : Nat) → List CoseLabel → List (Nat × CoseLabel)
  | _, [] => []
  | start, label :: rest => (start, label) :: key.layout (start + key.size label) rest

/-- No longer argument starts before the limit. -/
def Narrow (key : CoseKey) (limit start : Nat) (label : CoseLabel) : Prop :=
  (start < limit → (key.label label).argument.isNarrow = true) ∧
    (key.valueStart start label < limit → (key.value label).argument.isNarrow = true)

/-- What the reader stores of a coordinate. -/
def seen (key : CoseKey) (limit start : Nat) (label : CoseLabel) : Option Bytes :=
  if key.valueStart start label < limit then
    some ((key.value label).content.take (limit - key.contentStart start label))
  else none

/-- No argument of more than one byte starts in the first 77 bytes, and what of a coordinate
lies behind them is zero. -/
structure Readable (key : CoseKey) : Prop where
  count : key.count.isNarrow = true
  narrow : ∀ place ∈ key.layout (Cbor.head 5 key.count).length key.order,
    key.Narrow 77 place.1 place.2
  whole : ∀ place ∈ key.layout (Cbor.head 5 key.count).length key.order,
    place.2 = .x ∨ place.2 = .y → key.valueStart place.1 place.2 < 77 ∧
      ∀ byte ∈ (key.value place.2).content.drop (77 - key.contentStart place.1 place.2), byte = 0

/-- The last entry with a label counts. -/
def found (key : CoseKey) (limit : Nat) (wanted : CoseLabel) :
    (start : Nat) → List CoseLabel → Option Bytes
  | _, [] => none
  | start, label :: rest =>
      (key.found limit wanted (start + key.size label) rest).or
        (if label = wanted then key.seen limit start label else none)

end CoseKey

section Key

theorem CoseKey.item_valid (key : CoseKey) : key.item.Valid := by
  have integer {item : Cbor.Item} (spelt : ∃ number, item.number = some number) : item.Valid := by
    obtain ⟨number, same⟩ := spelt
    rcases Cbor.Item.eq_of_number same with ⟨argument, rfl, _⟩ | ⟨argument, rfl, _⟩
    · exact trivial
    · exact trivial
  have entries (labels : List CoseLabel) :
      Cbor.Item.ValidEntries (labels.map key.entry) := by
    induction labels with
    | nil => exact trivial
    | cons label others ih =>
        refine ⟨integer ⟨_, key.labelled label⟩, ?_, ih⟩
        cases label with
        | kty => exact trivial
        | alg => exact integer key.algorithm
        | crv => exact trivial
        | x => exact key.xCounted.trans key.x_length.symm
        | y => exact key.yCounted.trans key.y_length.symm
  refine ⟨?_, entries key.order⟩
  rw [key.counted, List.length_map, key.permuted.length_eq]
  rfl

variable {key : CoseKey} {data rest : Bytes} {limit start : Nat} {state : CoseState}
  {label : CoseLabel}

theorem value_number (key : CoseKey) (integer : label ≠ .x ∧ label ≠ .y) :
    ∃ number, (key.value label).number = some number := by
  cases label with
  | kty => exact ⟨_, rfl⟩
  | alg => exact key.algorithm
  | crv => exact ⟨_, rfl⟩
  | x => exact absurd rfl integer.1
  | y => exact absurd rfl integer.2

theorem readCoseEntry_past (past : Past limit state.offset) :
    readCoseEntry (data.take limit) state =
      .ok { state with offset := (state.offset.map (· + 1)).map (· + 1) } := by
  unfold readCoseEntry
  rw [readCoseKey_past past]
  exact readCoseValue_past past.next

theorem seen_inside (inside : key.valueStart start label < limit) :
    key.seen limit start label =
      some ((key.value label).content.take (limit - key.contentStart start label)) :=
  if_pos inside

theorem seen_behind (behind : ¬ key.valueStart start label < limit) :
    key.seen limit start label = none := if_neg behind

theorem stored_behind {x : Option Bytes} {wanted : CoseLabel}
    (behind : ¬ key.valueStart start label < limit) :
    (if label = wanted then key.seen limit start label else none).or x = x := by
  rw [seen_behind behind, ite_self, Option.none_or]

theorem readCoseValue_narrow (inside : key.valueStart start label < limit)
    (narrow : (key.value label).argument.isNarrow = true)
    (here : data.drop (key.valueStart start label) = (key.value label).encode ++ rest)
    (reached : state.offset = some (key.valueStart start label)) :
    ∃ offset, readCoseValue (data.take limit) (some label.number) state =
        .ok { offset
              x := (if label = .x then key.seen limit start label else none).or state.x
              y := (if label = .y then key.seen limit start label else none).or state.y } ∧
      Lands limit (start + key.size label) offset := by
  have ends : start + key.size label =
      key.valueStart start label + (key.value label).encode.length := (Nat.add_assoc _ _ _).symm
  rw [ends]
  by_cases integer : label ≠ .x ∧ label ≠ .y
  · obtain ⟨number, spelt⟩ := value_number key integer
    refine ⟨_, (readCoseValue_number spelt narrow inside here reached).trans ?_, Or.inl rfl⟩
    rw [if_neg integer.1, if_neg integer.2]
    rfl
  · have coordinate : label = .x ∨ label = .y := by
      by_cases first : label = .x
      · exact Or.inl first
      · exact Or.inr (not_not.mp (fun second => integer ⟨first, second⟩))
    rw [seen_inside inside]
    rcases coordinate with rfl | rfl
    · have counted : key.xForm.value = key.x.length := by rw [key.xCounted, key.x_length]
      obtain ⟨offset, read, landed⟩ := readCoseValue_bytes counted narrow inside here reached
      exact ⟨offset, read, landed⟩
    · have counted : key.yForm.value = key.y.length := by rw [key.yCounted, key.y_length]
      obtain ⟨offset, read, landed⟩ := readCoseValue_bytes counted narrow inside here reached
      exact ⟨offset, read, landed⟩

theorem readCoseEntry_narrow (lands : Lands limit start state.offset)
    (narrow : key.Narrow limit start label)
    (here : data.drop start = (key.label label).encode ++ ((key.value label).encode ++ rest)) :
    ∃ offset, readCoseEntry (data.take limit) state =
        .ok { offset
              x := (if label = .x then key.seen limit start label else none).or state.x
              y := (if label = .y then key.seen limit start label else none).or state.y } ∧
      Lands limit (start + key.size label) offset := by
  by_cases inside : start < limit
  · have reached : state.offset = some start := by
      rcases lands with at_ | ⟨behind, _⟩
      · exact at_
      · omega
    have second := drop_of_drop here
    have spelt : (key.label label).encode.length = (key.label label).argument.extra.length + 1 :=
      Cbor.Item.encode_length_of_number (key.labelled label)
    unfold readCoseEntry
    rw [reached, readCoseKey_cut (key.labelled label) (narrow.1 inside) inside here]
    by_cases valueInside : key.valueStart start label < limit
    · have whole : start + (key.label label).argument.extra.length < limit := by
        unfold CoseKey.valueStart at valueInside
        omega
      have whole_ : start + (label.item (key.form label)).argument.extra.length < limit := whole
      rw [if_pos whole_]
      exact readCoseValue_narrow valueInside (narrow.2 valueInside) second rfl
    · have past : Past limit (some (key.valueStart start label)) :=
        past_some (Nat.not_lt.mp valueInside)
      refine ⟨_, (readCoseValue_past past).trans ?_,
        Or.inr ⟨?_, past.next⟩⟩
      · rw [stored_behind valueInside, stored_behind valueInside]
        rfl
      · unfold CoseKey.size
        unfold CoseKey.valueStart at valueInside
        omega
  · have past := lands_past lands (Nat.not_lt.mp inside)
    have behind : ¬ key.valueStart start label < limit := by
      unfold CoseKey.valueStart
      omega
    refine ⟨_, (readCoseEntry_past past).trans ?_, Or.inr ⟨by omega, past.next.next⟩⟩
    rw [stored_behind behind, stored_behind behind]

theorem value_major (key : CoseKey) (label : CoseLabel) : (key.value label).major ≤ 2 := by
  by_cases integer : label ≠ .x ∧ label ≠ .y
  · obtain ⟨number, spelt⟩ := value_number key integer
    rcases Cbor.Item.eq_of_number spelt with ⟨argument, same, _⟩ | ⟨argument, same, _⟩
    · rw [same, Cbor.Item.major]
      omega
    · rw [same, Cbor.Item.major]
      omega
  · cases label with
    | kty => exact absurd ⟨by decide, by decide⟩ integer
    | alg => exact absurd ⟨by decide, by decide⟩ integer
    | crv => exact absurd ⟨by decide, by decide⟩ integer
    | x => exact Nat.le_refl 2
    | y => exact Nat.le_refl 2

theorem readCoseEntry_wide (lands : Lands limit start state.offset)
    (wide : ¬ key.Narrow limit start label)
    (here : data.drop start = (key.label label).encode ++ ((key.value label).encode ++ rest)) :
    readCoseEntry (data.take limit) state = .error "Unexpected CBOR length in COSE key" := by
  have inside : start < limit := by
    by_contra behind
    refine wide ⟨fun inside => absurd inside behind, fun inside => ?_⟩
    unfold CoseKey.valueStart at inside
    omega
  have reached : state.offset = some start := by
    rcases lands with at_ | ⟨behind, _⟩
    · exact at_
    · omega
  unfold readCoseEntry
  rw [reached]
  by_cases labelNarrow : (key.label label).argument.isNarrow = true
  · rw [readCoseKey_cut (key.labelled label) labelNarrow inside here]
    have valueInside : key.valueStart start label < limit := by
      by_contra behind
      exact wide ⟨fun _ => labelNarrow, fun valueInside => absurd valueInside behind⟩
    have valueWide : (key.value label).argument.isNarrow ≠ true :=
      fun valueNarrow => wide ⟨fun _ => labelNarrow, fun _ => valueNarrow⟩
    exact readCoseValue_wide (value_major key label) valueWide valueInside (drop_of_drop here) rfl
  · rw [readCoseKey_wide (key.labelled label) labelNarrow inside here]
    rfl

theorem drop_entries {labels : List CoseLabel}
    (here : data.drop start =
      Cbor.Item.encodeEntries ((label :: labels).map key.entry) ++ rest) :
    data.drop start = (key.label label).encode ++ ((key.value label).encode ++
        (Cbor.Item.encodeEntries (labels.map key.entry) ++ rest)) ∧
      data.drop (start + key.size label) =
        Cbor.Item.encodeEntries (labels.map key.entry) ++ rest := by
  have first : data.drop start = (key.label label).encode ++ ((key.value label).encode ++
      (Cbor.Item.encodeEntries (labels.map key.entry) ++ rest)) := by
    rw [here, List.map_cons, CoseKey.entry, Cbor.Item.encodeEntries]
    simp only [List.append_assoc]
  refine ⟨first, ?_⟩
  rw [CoseKey.size, ← Nat.add_assoc]
  exact drop_of_drop (drop_of_drop first)

/-- The entries one after another. -/
theorem readCoseEntries_narrow {labels : List CoseLabel}
    (narrow : ∀ place ∈ key.layout start labels, key.Narrow limit place.1 place.2)
    (lands : Lands limit start state.offset)
    (here : data.drop start = Cbor.Item.encodeEntries (labels.map key.entry) ++ rest) :
    ∃ offset, readCoseEntries (data.take limit) labels.length state =
      .ok { offset
            x := (key.found limit .x start labels).or state.x
            y := (key.found limit .y start labels).or state.y } := by
  induction labels generalizing start state with
  | nil => exact ⟨state.offset, rfl⟩
  | cons label others ih =>
      obtain ⟨first, later⟩ := drop_entries here
      obtain ⟨middle, read, landed⟩ :=
        readCoseEntry_narrow lands (narrow (start, label) List.mem_cons_self) first
      obtain ⟨offset, run⟩ := @ih _ ⟨middle, _, _⟩
        (fun place member => narrow place (List.mem_cons_of_mem _ member)) landed later
      refine ⟨offset, ?_⟩
      rw [List.length_cons, readCoseEntries, read]
      refine Eq.trans run ?_
      rw [CoseKey.found, CoseKey.found, Option.or_assoc, Option.or_assoc]

theorem readCoseEntries_wide {labels : List CoseLabel}
    (wide : ¬ ∀ place ∈ key.layout start labels, key.Narrow limit place.1 place.2)
    (lands : Lands limit start state.offset)
    (here : data.drop start = Cbor.Item.encodeEntries (labels.map key.entry) ++ rest) :
    readCoseEntries (data.take limit) labels.length state =
      .error "Unexpected CBOR length in COSE key" := by
  induction labels generalizing start state with
  | nil =>
      refine absurd ?_ wide
      intro place impossible
      cases impossible
  | cons label others ih =>
      obtain ⟨first, later⟩ := drop_entries here
      rw [List.length_cons, readCoseEntries]
      by_cases narrow : key.Narrow limit start label
      · obtain ⟨middle, read, landed⟩ := readCoseEntry_narrow lands narrow first
        have others_ : ¬ ∀ place ∈ key.layout (start + key.size label) others,
            key.Narrow limit place.1 place.2 := by
          intro all
          refine wide ?_
          intro place member
          rcases List.mem_cons.mp member with rfl | inner
          · exact narrow
          · exact all place inner
        rw [read]
        exact ih others_ landed later
      · rw [readCoseEntry_wide lands narrow first]
        rfl

/-! ### Coordinates -/

theorem mem_layout {labels : List CoseLabel} (member : label ∈ labels) :
    ∃ place, (place, label) ∈ key.layout start labels := by
  induction labels generalizing start with
  | nil => cases member
  | cons other others ih =>
      rcases List.mem_cons.mp member with rfl | later
      · exact ⟨start, List.mem_cons_self⟩
      · obtain ⟨place, inner⟩ := ih later
        exact ⟨place, List.mem_cons_of_mem _ inner⟩

theorem label_mem_of_layout {labels : List CoseLabel} {place : Nat}
    (member : (place, label) ∈ key.layout start labels) : label ∈ labels := by
  induction labels generalizing start with
  | nil => cases member
  | cons other others ih =>
      rcases List.mem_cons.mp member with same | later
      · cases same
        exact List.mem_cons_self
      · exact List.mem_cons_of_mem _ (ih later)

theorem layout_unique {labels : List CoseLabel} {place other : Nat} (distinct : labels.Nodup)
    (first : (place, label) ∈ key.layout start labels)
    (second : (other, label) ∈ key.layout start labels) : place = other := by
  induction labels generalizing start with
  | nil => cases first
  | cons name others ih =>
      obtain ⟨fresh, rest⟩ := List.nodup_cons.mp distinct
      rcases List.mem_cons.mp first with same | later
      · cases same
        rcases List.mem_cons.mp second with same | later
        · cases same
          rfl
        · exact absurd (label_mem_of_layout later) fresh
      · rcases List.mem_cons.mp second with same | next
        · cases same
          exact absurd (label_mem_of_layout later) fresh
        · exact ih rest later next

theorem found_absent {labels : List CoseLabel} (absent : label ∉ labels) :
    key.found limit label start labels = none := by
  induction labels generalizing start with
  | nil => rfl
  | cons other others ih =>
      have different : other ≠ label := by
        rintro rfl
        exact absent List.mem_cons_self
      rw [CoseKey.found, ih (fun later => absent (List.mem_cons_of_mem _ later)),
        if_neg different]
      rfl

theorem found_eq_seen {labels : List CoseLabel} {place : Nat} (distinct : labels.Nodup)
    (member : (place, label) ∈ key.layout start labels) :
    key.found limit label start labels = key.seen limit place label := by
  induction labels generalizing start with
  | nil => cases member
  | cons other others ih =>
      obtain ⟨fresh, rest⟩ := List.nodup_cons.mp distinct
      rcases List.mem_cons.mp member with same | later
      · cases same
        rw [CoseKey.found, found_absent fresh, if_pos rfl, Option.none_or]
      · have different : other ≠ label := by
          rintro rfl
          exact fresh (label_mem_of_layout later)
        rw [CoseKey.found, ih rest later, if_neg different, Option.or_none]

theorem order_nodup (key : CoseKey) : key.order.Nodup :=
  key.permuted.nodup_iff.mpr (by decide)

theorem mem_order (key : CoseKey) (label : CoseLabel) : label ∈ key.order :=
  key.permuted.mem_iff.mpr (by cases label <;> decide)

end Key

/-! ### The point -/

theorem setBytes_middle (before old new after : Bytes) (same : old.length = new.length) :
    setBytes (before ++ (old ++ after)) new before.length = .ok (before ++ (new ++ after)) := by
  have fits : before.length + new.length ≤ (before ++ (old ++ after)).length := by
    rw [List.length_append, List.length_append]
    omega
  have tail : (before ++ (old ++ after)).drop (before.length + new.length) = after := by
    rw [← List.drop_drop, List.drop_left, ← same, List.drop_left]
  unfold setBytes
  rw [if_pos fits, List.take_left, tail, List.append_assoc]

def pad (bytes : Bytes) : Bytes := bytes ++ List.replicate (32 - bytes.length) 0

theorem uncompressed_pad {x y : Bytes} (xShort : x.length ≤ 32) (yShort : y.length ≤ 32) :
    uncompressed x y = .ok (0x04 :: (pad x ++ pad y)) := by
  have blank : (0x04 :: List.replicate 64 0 : Bytes) =
      [0x04] ++ (List.replicate x.length 0 ++
        List.replicate (32 - x.length + (y.length + (32 - y.length))) 0) := by
    rw [List.replicate_append_replicate]
    have total : x.length + (32 - x.length + (y.length + (32 - y.length))) = 64 := by omega
    rw [total]
    rfl
  have middle : ([0x04] ++ (x ++
      List.replicate (32 - x.length + (y.length + (32 - y.length))) 0) : Bytes) =
        (0x04 :: pad x) ++ (List.replicate y.length 0 ++ List.replicate (32 - y.length) 0) := by
    rw [pad, List.replicate_append_replicate, ← List.replicate_append_replicate]
    simp
  have place : 33 = (0x04 :: pad x).length := by
    rw [pad, List.length_cons, List.length_append, List.length_replicate]
    omega
  unfold uncompressed
  rw [blank]
  have first := setBytes_middle [0x04] (List.replicate x.length 0) x
    (List.replicate (32 - x.length + (y.length + (32 - y.length))) 0) List.length_replicate
  have second := setBytes_middle (0x04 :: pad x) (List.replicate y.length 0) y
    (List.replicate (32 - y.length) 0) List.length_replicate
  rw [List.length_singleton] at first
  dsimp only
  rw [first, middle]
  rw [← place] at second
  exact second

theorem pad_take_eq_iff {bytes : Bytes} (size : bytes.length = 32) (count : Nat) :
    pad (bytes.take count) = bytes ↔ ∀ byte ∈ bytes.drop count, byte = 0 := by
  have shape := List.take_append_drop count bytes
  have lengths : (bytes.drop count).length = 32 - (bytes.take count).length := by
    rw [List.length_drop, List.length_take]
    omega
  unfold pad
  constructor
  · intro same
    have zeros : List.replicate (32 - (bytes.take count).length) 0 = bytes.drop count :=
      List.append_cancel_left (same.trans shape.symm)
    intro byte member
    rw [← zeros] at member
    exact List.eq_of_mem_replicate member
  · intro zero
    have zeros : bytes.drop count = List.replicate (32 - (bytes.take count).length) 0 :=
      List.eq_replicate_iff.mpr ⟨lengths, zero⟩
    rw [← zeros, shape]

theorem pad_length {bytes : Bytes} (short : bytes.length ≤ 32) : (pad bytes).length = 32 := by
  rw [pad, List.length_append, List.length_replicate]
  omega

theorem uncompressed_take_eq_iff (key : CoseKey) (i j : Nat) :
    uncompressed (key.x.take i) (key.y.take j) = .ok key.publicKey ↔
      (∀ byte ∈ key.x.drop i, byte = 0) ∧ ∀ byte ∈ key.y.drop j, byte = 0 := by
  have xShort : (key.x.take i).length ≤ 32 := by
    rw [List.length_take, key.x_length]
    omega
  have yShort : (key.y.take j).length ≤ 32 := by
    rw [List.length_take, key.y_length]
    omega
  rw [uncompressed_pad xShort yShort, CoseKey.publicKey, ← pad_take_eq_iff key.x_length i,
    ← pad_take_eq_iff key.y_length j]
  constructor
  · intro same
    have coordinates := (List.cons.inj (Except.ok.inj same)).2
    exact List.append_inj coordinates (by rw [pad_length xShort, key.x_length])
  · rintro ⟨xWhole, yWhole⟩
    rw [xWhole, yWhole]

/-! ### Whole keys -/

section Whole

variable (key : CoseKey) (rest : Bytes)

theorem encode_eq_head :
    key.encode ++ rest = Cbor.head 5 key.count ++
      (Cbor.Item.encodeEntries (key.order.map key.entry) ++ rest) := by
  rw [CoseKey.encode, CoseKey.item, Cbor.Item.encode, List.append_assoc]

/-- After the head, the entries are read and the coordinates must be among them. -/
theorem extractP256FromCoseKey_narrow (narrow : key.count.isNarrow = true) :
    extractP256FromCoseKey ((key.encode ++ rest).take 77) =
      (do
        let state ← readCoseEntries ((key.encode ++ rest).take 77) key.order.length
          { offset := some (Cbor.head 5 key.count).length, x := none, y := none }
        match state.x, state.y with
        | some x, some y => uncompressed x y
        | _, _ => .error "Could not extract x, y from COSE key") := by
  have here : (key.encode ++ rest).drop 0 = _ := encode_eq_head key rest
  have one := (Cbor.Argument.isNarrow_iff _).mp narrow
  have five : key.order.length = 5 := key.permuted.length_eq
  unfold extractP256FromCoseKey
  rw [readInitial_cut (by decide) (by decide) here]
  dsimp only
  rw [if_neg (by decide), readCoseLength_narrow narrow (by decide) here, if_pos (by omega),
    key.counted, five, Nat.zero_add]
  rfl

theorem extractP256FromCoseKey_wide (wide : key.count.isNarrow ≠ true) :
    extractP256FromCoseKey ((key.encode ++ rest).take 77) =
      .error "Unexpected CBOR length in COSE key" := by
  have here : (key.encode ++ rest).drop 0 = _ := encode_eq_head key rest
  unfold extractP256FromCoseKey
  rw [readInitial_cut (by decide) (by decide) here]
  dsimp only
  rw [if_neg (by decide), readCoseLength_wide wide]
  rfl

/-- The value of a coordinate starts in time, and what of it lies behind the limit is zero. -/
def Whole (place : Nat) (label : CoseLabel) : Prop :=
  key.valueStart place label < 77 ∧
    ∀ byte ∈ (key.value label).content.drop (77 - key.contentStart place label), byte = 0

theorem readable_iff {xPlace yPlace : Nat} (count : key.count.isNarrow = true)
    (narrow : ∀ place ∈ key.layout (Cbor.head 5 key.count).length key.order,
      key.Narrow 77 place.1 place.2)
    (xHere : (xPlace, .x) ∈ key.layout (Cbor.head 5 key.count).length key.order)
    (yHere : (yPlace, .y) ∈ key.layout (Cbor.head 5 key.count).length key.order) :
    key.Readable ↔ Whole key xPlace .x ∧ Whole key yPlace .y := by
  constructor
  · intro readable
    exact ⟨readable.whole _ xHere (Or.inl rfl), readable.whole _ yHere (Or.inr rfl)⟩
  · rintro ⟨xWhole, yWhole⟩
    refine ⟨count, narrow, ?_⟩
    rintro ⟨place, label⟩ member (same | same)
    · cases same
      rw [layout_unique (order_nodup key) member xHere]
      exact xWhole
    · cases same
      rw [layout_unique (order_nodup key) member yHere]
      exact yWhole

theorem stored_eq_iff (xPlace yPlace : Nat) :
    (match key.seen 77 xPlace .x, key.seen 77 yPlace .y with
      | some x, some y => uncompressed x y
      | _, _ => .error "Could not extract x, y from COSE key") = .ok key.publicKey ↔
      Whole key xPlace .x ∧ Whole key yPlace .y := by
  by_cases xInside : key.valueStart xPlace .x < 77
  · by_cases yInside : key.valueStart yPlace .y < 77
    · rw [seen_inside xInside, seen_inside yInside]
      refine (uncompressed_take_eq_iff key _ _).trans ?_
      constructor
      · rintro ⟨xWhole, yWhole⟩
        exact ⟨⟨xInside, xWhole⟩, yInside, yWhole⟩
      · rintro ⟨xWhole, yWhole⟩
        exact ⟨xWhole.2, yWhole.2⟩
    · rw [seen_behind yInside]
      constructor
      · intro read
        split at read
        next same => cases same
        next => cases read
      · rintro ⟨_, yWhole⟩
        exact absurd yWhole.1 yInside
  · rw [seen_behind xInside]
    constructor
    · intro read
      cases read
    · rintro ⟨xWhole, _⟩
      exact absurd xWhole.1 xInside

/-- The key is read exactly if it is readable. -/
theorem extractP256FromCoseKey_eq_iff :
    extractP256FromCoseKey ((key.encode ++ rest).take 77) = .ok key.publicKey ↔
      key.Readable := by
  by_cases count : key.count.isNarrow = true
  · have here : (key.encode ++ rest).drop (Cbor.head 5 key.count).length =
        Cbor.Item.encodeEntries (key.order.map key.entry) ++ rest := by
      rw [encode_eq_head, List.drop_left]
    rw [extractP256FromCoseKey_narrow key rest count]
    by_cases narrow : ∀ place ∈ key.layout (Cbor.head 5 key.count).length key.order,
        key.Narrow 77 place.1 place.2
    · have listed (label : CoseLabel) :
          ∃ place, (place, label) ∈ key.layout (Cbor.head 5 key.count).length key.order :=
        mem_layout (mem_order key label)
      obtain ⟨xPlace, xHere⟩ := listed .x
      obtain ⟨yPlace, yHere⟩ := listed .y
      obtain ⟨offset, read⟩ := @readCoseEntries_narrow _ _ _ 77 _ ⟨_, none, none⟩ _ narrow
        (Or.inl rfl) here
      rw [read, readable_iff key count narrow xHere yHere, ← stored_eq_iff,
        found_eq_seen (order_nodup key) xHere, found_eq_seen (order_nodup key) yHere,
        Option.or_none, Option.or_none]
      rfl
    · constructor
      · intro read
        rw [readCoseEntries_wide narrow (Or.inl rfl) here] at read
        cases read
      · intro readable
        exact absurd readable.narrow narrow
  · constructor
    · intro read
      rw [extractP256FromCoseKey_wide key rest count] at read
      cases read
    · intro readable
      exact absurd readable.count count

/-! ### Keys in their shortest form -/

theorem encodeEntries_length (labels : List CoseLabel) :
    (Cbor.Item.encodeEntries (labels.map key.entry)).length = (labels.map key.size).sum := by
  induction labels with
  | nil => rfl
  | cons label others ih =>
      rw [List.map_cons, CoseKey.entry, Cbor.Item.encodeEntries, List.length_append,
        List.length_append, ih, List.map_cons, List.sum_cons, CoseKey.size, Nat.add_assoc]

theorem layout_end_le {start place : Nat} {label : CoseLabel} {labels : List CoseLabel}
    (member : (place, label) ∈ key.layout start labels) :
    place + key.size label ≤ start + (labels.map key.size).sum := by
  induction labels generalizing start with
  | nil => cases member
  | cons other others ih =>
      rw [List.map_cons, List.sum_cons]
      rcases List.mem_cons.mp member with same | later
      · cases same
        omega
      · have := ih later
        omega

theorem encode_length :
    key.encode.length = (Cbor.head 5 key.count).length + (key.size .kty + (key.size .alg +
      (key.size .crv + (key.size .x + key.size .y)))) := by
  have total : (key.order.map key.size).sum = key.size .kty + (key.size .alg +
      (key.size .crv + (key.size .x + (key.size .y + 0)))) :=
    (key.permuted.map key.size).sum_eq
  rw [CoseKey.encode, CoseKey.item, Cbor.Item.encode, List.length_append, encodeEntries_length,
    total, Nat.add_zero]

theorem size_number {label : CoseLabel} (integer : label ≠ .x ∧ label ≠ .y) :
    key.size label = ((key.label label).argument.extra.length + 1) +
      ((key.value label).argument.extra.length + 1) := by
  obtain ⟨number, spelt⟩ := value_number key integer
  rw [CoseKey.size, CoseKey.label, Cbor.Item.encode_length_of_number (key.labelled label),
    Cbor.Item.encode_length_of_number spelt]

theorem coordinate_length {label : CoseLabel} (coordinate : label = .x ∨ label = .y) :
    (key.value label).argument.value = 32 ∧ (key.value label).content.length = 32 := by
  rcases coordinate with rfl | rfl
  · exact ⟨key.xCounted, key.x_length⟩
  · exact ⟨key.yCounted, key.y_length⟩

theorem size_coordinate {label : CoseLabel} (coordinate : label = .x ∨ label = .y) :
    key.size label = ((key.label label).argument.extra.length + 1) +
        ((key.value label).argument.extra.length + 1 + 32) ∧
      1 ≤ (key.value label).argument.extra.length := by
  obtain ⟨counted, size⟩ := coordinate_length key coordinate
  constructor
  · rw [CoseKey.size, CoseKey.label, Cbor.Item.encode_length_of_number (key.labelled label),
      Cbor.Item.encode_eq, List.length_append, Cbor.head_length, size]
  · exact Cbor.Argument.extra_pos (by omega)

/-- A key of 77 bytes is readable, whatever the order of its entries. -/
theorem readable_of_length (shortest : key.encode.length ≤ 77) : key.Readable := by
  have total := encode_length key
  have kty := size_number key (show CoseLabel.kty ≠ .x ∧ CoseLabel.kty ≠ .y by decide)
  have alg := size_number key (show CoseLabel.alg ≠ .x ∧ CoseLabel.alg ≠ .y by decide)
  have crv := size_number key (show CoseLabel.crv ≠ .x ∧ CoseLabel.crv ≠ .y by decide)
  have x := size_coordinate key (Or.inl rfl)
  have y := size_coordinate key (Or.inr rfl)
  rw [Cbor.head_length] at total
  have narrow (label : CoseLabel) : (key.label label).argument.extra.length ≤ 1 ∧
      (key.value label).argument.extra.length ≤ 1 := by
    cases label with
    | kty => omega
    | alg => omega
    | crv => omega
    | x => omega
    | y => omega
  refine ⟨(Cbor.Argument.isNarrow_iff _).mpr (by omega), ?_, ?_⟩
  · intro place _
    exact ⟨fun _ => (Cbor.Argument.isNarrow_iff _).mpr (narrow place.2).1,
      fun _ => (Cbor.Argument.isNarrow_iff _).mpr (narrow place.2).2⟩
  · rintro ⟨place, label⟩ member coordinate
    have ends := layout_end_le key member
    rw [← encodeEntries_length] at ends
    have inside : place + key.size label ≤ 77 := by
      rw [CoseKey.encode, CoseKey.item, Cbor.Item.encode, List.length_append] at shortest
      omega
    have length : (key.value label).content.length = 32 := (coordinate_length key coordinate).2
    have size : key.contentStart place label + 32 = place + key.size label := by
      rw [CoseKey.contentStart, CoseKey.valueStart, CoseKey.size, Cbor.Item.encode_eq (key.value _),
        List.length_append, length]
      omega
    have starts : key.valueStart place label < key.contentStart place label := by
      rw [CoseKey.contentStart, Cbor.head_length]
      omega
    have started : key.valueStart place label < 77 := by omega
    have uncut : (key.value label).content.drop (77 - key.contentStart place label) = [] :=
      List.drop_of_length_le (by omega)
    refine ⟨started, ?_⟩
    rw [uncut]
    intro byte impossible
    cases impossible

end Whole

end Nido.Sdk
