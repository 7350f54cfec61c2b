/-
The public key in an attestation.

A page that cannot ask the browser for the key reads it out of the attestation's bytes.
Reading past their end gives nothing, which counts as zero in arithmetic on bits and makes
an offset no number when it is added to one.
-/

import Nido.Library.Cbor
import Nido.Sdk.FriendWire

namespace Nido.Sdk

/-- A position in bytes, unless it is no number any more. -/
abbrev Offset := Option Nat

def int (byte : Option UInt8) : Nat := (byte.map UInt8.toNat).getD 0

def advance (offset : Offset) (len : Option Nat) : Offset :=
  offset.bind (fun start => len.map (start + ·))

/-- What is no number counts as zero. -/
def slice (data : Bytes) (start stop : Option Nat) : Bytes :=
  (data.take (stop.getD 0)).drop (start.getD 0)

def readByte (data : Bytes) (offset : Offset) : Option UInt8 × Offset :=
  (offset.bind (fun start => data[start]?), offset.map (· + 1))

/-- The first byte of an item: its major type and what it says about its argument. -/
def readInitial (data : Bytes) (offset : Offset) : (Nat × Nat) × Offset :=
  let (initial, offset) := readByte data offset
  ((int initial >>> 5, int initial &&& 0x1f), offset)

/-! ### CBOR -/

def readUint16 (data : Bytes) (offset : Offset) : Option Nat × Offset :=
  let byteAt (place : Nat) := int (offset.bind (fun start => data[start + place]?))
  (some (byteAt 0 <<< 8 ||| byteAt 1), offset.map (· + 2))

/-- A view of bytes refuses to read past their end. -/
def getUint (data : Bytes) (width start : Nat) : Js Nat :=
  if start + width ≤ data.length then .ok (BigEndian.value ((data.drop start).take width))
  else .error "Offset is outside the bounds of the DataView"

def readUint32 (data : Bytes) (offset : Offset) : Js (Option Nat × Offset) := do
  let val ← getUint data 4 (offset.getD 0)
  pure (some val, offset.map (· + 4))

def readLength (data : Bytes) (additionalInfo : Nat) (offset : Offset) :
    Js (Option Nat × Offset) :=
  if additionalInfo < 24 then
    .ok (some additionalInfo, offset)
  else if additionalInfo = 24 then
    let (byte, offset) := readByte data offset
    .ok (byte.map UInt8.toNat, offset)
  else if additionalInfo = 25 then
    .ok (readUint16 data offset)
  else if additionalInfo = 26 then
    readUint32 data offset
  else
    .error s!"Unsupported CBOR length encoding: {additionalInfo}"

def readBytes (data : Bytes) (len : Option Nat) (offset : Offset) : Bytes × Offset :=
  (slice data offset (advance offset len), advance offset len)

def readString (data : Bytes) (len : Option Nat) (offset : Offset) : String × Offset :=
  let (bytes, offset) := readBytes data len offset
  (Utf8.decode bytes, offset)

def times (skip : Offset → Js Offset) : Nat → Offset → Js Offset
  | 0, offset => .ok offset
  | count + 1, offset => do
      let offset ← skip offset
      times skip count offset

/-- An item within items; the stack holds `depth` of them. -/
def skipNested (data : Bytes) : (depth : Nat) → Offset → Js Offset
  | 0, _ => .error "Maximum call stack size exceeded"
  | depth + 1, offset => do
      let ((majorType, additionalInfo), offset) := readInitial data offset
      match majorType with
      | 0 | 1 | 7 => do
          let (_, offset) ← readLength data additionalInfo offset
          pure offset
      | 2 | 3 => do
          let (len, offset) ← readLength data additionalInfo offset
          pure (advance offset len)
      | 4 => do
          let (len, offset) ← readLength data additionalInfo offset
          times (skipNested data depth) (len.getD 0) offset
      | 5 => do
          let (len, offset) ← readLength data additionalInfo offset
          times (fun offset => skipNested data depth offset >>= skipNested data depth)
            (len.getD 0) offset
      | _ => .error s!"Unsupported CBOR major type: {majorType}"

/-- An item in an item takes a byte, so that no more are open than there are bytes. -/
def skipValue (data : Bytes) (offset : Offset) : Js Offset :=
  skipNested data (data.length + 1) offset

def findAuthData (data : Bytes) : (remaining : Nat) → Offset → Js Bytes
  | 0, _ => .error "authData not found in attestationObject"
  | remaining + 1, offset => do
      let ((keyMajor, keyAdditional), next) := readInitial data offset
      if keyMajor ≠ 3 then do
        -- the byte is read again
        let offset ← skipValue data offset
        let offset ← skipValue data offset
        findAuthData data remaining offset
      else do
        let (keyLen, offset) ← readLength data keyAdditional next
        let (key, offset) := readString data keyLen offset
        if key = "authData" then do
          let ((_, valAdditional), offset) := readInitial data offset
          let (valLen, offset) ← readLength data valAdditional offset
          pure (readBytes data valLen offset).1
        else do
          let offset ← skipValue data offset
          findAuthData data remaining offset

def extractAuthDataFromCbor (data : Bytes) : Js Bytes := do
  let ((majorType, additionalInfo), offset) := readInitial data (some 0)
  if majorType ≠ 5 then
    .error "Expected CBOR map for attestationObject"
  else do
    let (mapLen, offset) ← readLength data additionalInfo offset
    findAuthData data (mapLen.getD 0) offset

/-! ### The key -/

def readCoseLength (coseBytes : Bytes) (additional : Nat) (offset : Offset) :
    Js (Option Nat × Offset) :=
  if additional < 24 then
    .ok (some additional, offset)
  else if additional = 24 then
    let (byte, offset) := readByte coseBytes offset
    .ok (byte.map UInt8.toNat, offset)
  else
    .error "Unexpected CBOR length in COSE key"

structure CoseState where
  offset : Offset
  x : Option Bytes
  y : Option Bytes

/-- An integer that labels an entry. -/
def readCoseKey (coseBytes : Bytes) (offset : Offset) : Js (Option Int × Offset) := do
  let ((keyMajor, keyAdditional), offset) := readInitial coseBytes offset
  if keyMajor = 0 then do
    let (len, offset) ← readCoseLength coseBytes keyAdditional offset
    pure (len.map Int.ofNat, offset)
  else if keyMajor = 1 then do
    let (len, offset) ← readCoseLength coseBytes keyAdditional offset
    pure (len.map (fun len => -1 - Int.ofNat len), offset)
  else
    .error s!"Unexpected CBOR key type in COSE key: {keyMajor}"

def CoseState.store (state : CoseState) (keyVal : Option Int) (bytes : Bytes) : CoseState :=
  if keyVal = some (-2) then { state with x := some bytes }
  else if keyVal = some (-3) then { state with y := some bytes }
  else state

def readCoseValue (coseBytes : Bytes) (keyVal : Option Int) (state : CoseState) :
    Js CoseState := do
  let ((valMajor, valAdditional), offset) := readInitial coseBytes state.offset
  if valMajor = 2 then do
    let (len, offset) ← readCoseLength coseBytes valAdditional offset
    let (bytes, offset) := readBytes coseBytes len offset
    pure (CoseState.store { state with offset } keyVal bytes)
  else if valMajor = 0 ∨ valMajor = 1 then do
    let (_, offset) ← readCoseLength coseBytes valAdditional offset
    pure { state with offset }
  else
    .error s!"Unexpected CBOR value type in COSE key: {valMajor}"

def readCoseEntry (coseBytes : Bytes) (state : CoseState) : Js CoseState := do
  let (keyVal, offset) ← readCoseKey coseBytes state.offset
  readCoseValue coseBytes keyVal { state with offset }

def readCoseEntries (coseBytes : Bytes) : (remaining : Nat) → CoseState → Js CoseState
  | 0, state => .ok state
  | remaining + 1, state => do
      let state ← readCoseEntry coseBytes state
      readCoseEntries coseBytes remaining state

/-- `Uint8Array.prototype.set` -/
def setBytes (target source : Bytes) (offset : Nat) : Js Bytes :=
  if offset + source.length ≤ target.length then
    .ok (target.take offset ++ source ++ target.drop (offset + source.length))
  else
    .error "offset is out of bounds"

def uncompressed (x y : Bytes) : Js Bytes := do
  let publicKey := 0x04 :: List.replicate 64 0
  let publicKey ← setBytes publicKey x 1
  setBytes publicKey y 33

def extractP256FromCoseKey (coseBytes : Bytes) : Js Bytes := do
  let ((majorType, additionalInfo), offset) := readInitial coseBytes (some 0)
  if majorType ≠ 5 then
    .error "Expected CBOR map for COSE key"
  else do
    let (mapLen, offset) ← readCoseLength coseBytes additionalInfo offset
    let state ← readCoseEntries coseBytes (mapLen.getD 0) { offset, x := none, y := none }
    match state.x, state.y with
    | some x, some y => uncompressed x y
    | _, _ => .error "Could not extract x, y from COSE key"

def extractPublicKeyFromAuthData (authData : Bytes) : Js Bytes := do
  let flags := authData[32]?
  if int flags &&& 0x40 = 0 then
    .error "Attested credential data not present in authData flags"
  else do
    let credIdLength ← getUint authData 2 53
    let offset := 55 + credIdLength
    extractP256FromCoseKey (slice authData (some offset) (some (offset + 77)))

def parseAttestationObject (attestationObjectB64u : String) : Js Bytes := do
  let raw ← base64url2buf attestationObjectB64u
  let authData ← extractAuthDataFromCbor raw
  extractPublicKeyFromAuthData authData

/-! ### Reading what was written -/

section Reading

variable {data rest : Bytes} {start : Nat}

theorem drop_of_drop {left : Bytes} (here : data.drop start = left ++ rest) :
    data.drop (start + left.length) = rest := by
  rw [← List.drop_drop, here, List.drop_left]

theorem getElem?_of_drop {byte : UInt8} (here : data.drop start = byte :: rest) :
    data[start]? = some byte := by
  have first : (data.drop start)[0]? = some byte := by
    rw [here]
    rfl
  rwa [List.getElem?_drop, Nat.add_zero] at first

theorem int_first {major : Nat} (small : major < 8) (argument : Cbor.Argument) :
    int (some (UInt8.ofNat (major * 32 + argument.info))) >>> 5 = major ∧
      int (some (UInt8.ofNat (major * 32 + argument.info))) &&& 0x1f = argument.info := by
  have bound := argument.info_lt
  have value : int (some (UInt8.ofNat (major * 32 + argument.info))) =
      major * 32 + argument.info := Cbor.first_toNat small argument
  have mask : (0x1f : Nat) = 2 ^ 5 - 1 := rfl
  rw [value, Nat.shiftRight_eq_div_pow, mask, Nat.and_two_pow_sub_one_eq_mod]
  omega

theorem readInitial_head {major : Nat} {argument : Cbor.Argument} (small : major < 8)
    (here : data.drop start = Cbor.head major argument ++ rest) :
    readInitial data (some start) = ((major, argument.info), some (start + 1)) := by
  have byte := getElem?_of_drop here
  obtain ⟨high, low⟩ := int_first small argument
  unfold readInitial readByte
  dsimp only [Option.bind_some, Option.map_some]
  rw [byte, high, low]

theorem readUint16_of_drop {value : UInt16}
    (here : data.drop start = BigEndian.encode 2 value.toNat ++ rest) :
    readUint16 data (some start) = (some value.toNat, some (start + 2)) := by
  have bound := value.toNat_lt
  have first : data[start]? = some (UInt8.ofNat (value.toNat / 256 ^ 1 % 256)) :=
    getElem?_of_drop here
  have tail : data.drop (start + 1) = UInt8.ofNat (value.toNat / 256 ^ 0 % 256) :: rest :=
    drop_of_drop (show data.drop start = [_] ++ _ from here)
  have high : int data[start]? = value.toNat / 256 := by
    rw [first]
    exact (Utf8.ofNat_toNat (by omega)).trans (by omega)
  have low : int data[start + 1]? = value.toNat % 256 := by
    rw [getElem?_of_drop tail]
    exact (Utf8.ofNat_toNat (by omega)).trans (by omega)
  have together : (value.toNat / 256) <<< 8 ||| value.toNat % 256 = value.toNat := by
    have small : value.toNat % 256 < 2 ^ 8 := Nat.mod_lt _ (by decide)
    rw [Nat.shiftLeft_eq, Nat.mul_comm, ← Nat.two_pow_add_eq_or_of_lt small]
    omega
  unfold readUint16
  dsimp only [Option.bind_some, Option.map_some]
  rw [Nat.add_zero, high, low, together]

theorem getUint_of_drop {width value : Nat} (fits : value < 256 ^ width)
    (here : data.drop start = BigEndian.encode width value ++ rest) (given : 0 < width) :
    getUint data width start = .ok value := by
  have inside : start + width ≤ data.length := by
    have lengths := congrArg List.length here
    rw [List.length_drop, List.length_append, BigEndian.encode_length] at lengths
    omega
  have taken : (data.drop start).take width = BigEndian.encode width value := by
    rw [here]
    exact List.take_left' (BigEndian.encode_length width _)
  unfold getUint
  rw [if_pos inside, taken, BigEndian.value_encode width _ fits]

theorem readUint32_of_drop {value : UInt32}
    (here : data.drop start = BigEndian.encode 4 value.toNat ++ rest) :
    readUint32 data (some start) = .ok (some value.toNat, some (start + 4)) := by
  unfold readUint32
  rw [Option.getD_some, getUint_of_drop value.toNat_lt here (by decide)]
  rfl

theorem readLength_head {major : Nat} {argument : Cbor.Argument}
    (here : data.drop start = Cbor.head major argument ++ rest) :
    readLength data argument.info (some (start + 1)) =
      .ok (some argument.value, some (start + (Cbor.head major argument).length)) := by
  have tail : data.drop (start + 1) = argument.extra ++ rest :=
    drop_of_drop (show data.drop start = [_] ++ _ from here)
  unfold readLength
  cases argument with
  | immediate value => exact if_pos value.isLt
  | one value =>
      have byte := getElem?_of_drop tail
      unfold readByte
      dsimp only [Cbor.Argument.info, Option.bind_some, Option.map_some]
      rw [byte]
      rfl
  | two value =>
      dsimp only [Cbor.Argument.info]
      rw [readUint16_of_drop tail]
      rfl
  | four value =>
      dsimp only [Cbor.Argument.info]
      rw [readUint32_of_drop tail]
      rfl

theorem slice_of_drop (here : data.drop start = rest) (len : Nat) :
    slice data (some start) (some (start + len)) = rest.take len := by
  unfold slice
  rw [Option.getD_some, Option.getD_some, List.drop_take, Nat.add_sub_cancel_left, here]

theorem readBytes_of_drop (here : data.drop start = rest) (len : Nat) :
    readBytes data (some len) (some start) = (rest.take len, some (start + len)) :=
  congrArg (fun bytes => (bytes, some (start + len))) (slice_of_drop here len)

section Nested

variable {argument : Cbor.Argument} {depth : Nat}

theorem skipNested_number {major : Nat} (number : major = 0 ∨ major = 1 ∨ major = 7)
    (here : data.drop start = Cbor.head major argument ++ rest) :
    skipNested data (depth + 1) (some start) =
      .ok (some (start + (Cbor.head major argument).length)) := by
  rw [skipNested, readInitial_head (by omega) here]
  dsimp only
  rw [readLength_head here]
  rcases number with rfl | rfl | rfl <;> rfl

theorem skipNested_string {major : Nat} (string : major = 2 ∨ major = 3)
    (here : data.drop start = Cbor.head major argument ++ rest) :
    skipNested data (depth + 1) (some start) =
      .ok (some (start + (Cbor.head major argument).length + argument.value)) := by
  rw [skipNested, readInitial_head (by omega) here]
  dsimp only
  rw [readLength_head here]
  rcases string with rfl | rfl <;> rfl

theorem skipNested_array (here : data.drop start = Cbor.head 4 argument ++ rest) :
    skipNested data (depth + 1) (some start) =
      times (skipNested data depth) argument.value
        (some (start + (Cbor.head 4 argument).length)) := by
  rw [skipNested, readInitial_head (by omega) here]
  dsimp only
  rw [readLength_head here]
  rfl

theorem skipNested_map (here : data.drop start = Cbor.head 5 argument ++ rest) :
    skipNested data (depth + 1) (some start) =
      times (fun offset => skipNested data depth offset >>= skipNested data depth)
        argument.value (some (start + (Cbor.head 5 argument).length)) := by
  rw [skipNested, readInitial_head (by omega) here]
  dsimp only
  rw [readLength_head here]
  rfl

end Nested

end Reading

mutual

theorem skipNested_item : (item : Cbor.Item) → item.Valid → ∀ {data rest : Bytes}
    {start depth : Nat}, item.encode.length ≤ depth → data.drop start = item.encode ++ rest →
      skipNested data depth (some start) = .ok (some (start + item.encode.length)) := by
  intro item valid data rest start depth enough here
  have nonempty := item.encode_pos
  obtain ⟨inner, rfl⟩ : ∃ inner, depth = inner + 1 := ⟨depth - 1, by omega⟩
  cases item with
  | unsigned argument =>
      rw [Cbor.Item.encode] at here ⊢
      exact skipNested_number (Or.inl rfl) here
  | negative argument =>
      rw [Cbor.Item.encode] at here ⊢
      exact skipNested_number (Or.inr (Or.inl rfl)) here
  | simple argument =>
      rw [Cbor.Item.encode] at here ⊢
      exact skipNested_number (Or.inr (Or.inr rfl)) here
  | bytes argument payload =>
      rw [Cbor.Item.Valid] at valid
      rw [Cbor.Item.encode, List.append_assoc] at here
      rw [Cbor.Item.encode, skipNested_string (Or.inl rfl) here, valid, List.length_append,
        Nat.add_assoc]
  | text argument payload =>
      rw [Cbor.Item.Valid] at valid
      rw [Cbor.Item.encode, List.append_assoc] at here
      rw [Cbor.Item.encode, skipNested_string (Or.inr rfl) here, valid, List.length_append,
        Nat.add_assoc]
  | array argument items =>
      rw [Cbor.Item.Valid] at valid
      rw [Cbor.Item.encode, List.length_append, Cbor.head_length] at enough
      rw [Cbor.Item.encode, List.append_assoc] at here
      rw [Cbor.Item.encode, skipNested_array here, valid.1,
        times_items items valid.2 (by omega) (drop_of_drop here), List.length_append,
        Nat.add_assoc]
  | map argument entries =>
      rw [Cbor.Item.Valid] at valid
      rw [Cbor.Item.encode, List.length_append, Cbor.head_length] at enough
      rw [Cbor.Item.encode, List.append_assoc] at here
      rw [Cbor.Item.encode, skipNested_map here, valid.1,
        times_entries entries valid.2 (by omega) (drop_of_drop here), List.length_append,
        Nat.add_assoc]

theorem times_items : (items : List Cbor.Item) → Cbor.Item.ValidItems items →
    ∀ {data rest : Bytes} {start depth : Nat}, (Cbor.Item.encodeItems items).length ≤ depth →
      data.drop start = Cbor.Item.encodeItems items ++ rest →
        times (skipNested data depth) items.length (some start) =
          .ok (some (start + (Cbor.Item.encodeItems items).length)) := by
  intro items valid data rest start depth enough here
  cases items with
  | nil => rw [Cbor.Item.encodeItems]; rfl
  | cons item others =>
      rw [Cbor.Item.ValidItems] at valid
      rw [Cbor.Item.encodeItems, List.length_append] at enough
      rw [Cbor.Item.encodeItems, List.append_assoc] at here
      rw [List.length_cons, times, skipNested_item item valid.1 (by omega) here]
      change times (skipNested data depth) others.length _ = _
      rw [times_items others valid.2 (by omega) (drop_of_drop here), Cbor.Item.encodeItems,
        List.length_append, Nat.add_assoc]

theorem times_entries : (entries : List (Cbor.Item × Cbor.Item)) →
    Cbor.Item.ValidEntries entries → ∀ {data rest : Bytes} {start depth : Nat},
      (Cbor.Item.encodeEntries entries).length ≤ depth →
      data.drop start = Cbor.Item.encodeEntries entries ++ rest →
        times (fun offset => skipNested data depth offset >>= skipNested data depth)
          entries.length (some start) =
            .ok (some (start + (Cbor.Item.encodeEntries entries).length)) := by
  intro entries valid data rest start depth enough here
  match entries with
  | [] => rw [Cbor.Item.encodeEntries]; rfl
  | (key, value) :: others =>
      rw [Cbor.Item.ValidEntries] at valid
      rw [Cbor.Item.encodeEntries, List.length_append, List.length_append] at enough
      rw [Cbor.Item.encodeEntries, List.append_assoc, List.append_assoc] at here
      have second := drop_of_drop here
      rw [List.length_cons, times, skipNested_item key valid.1 (by omega) here]
      change skipNested data depth _ >>= _ = _
      rw [skipNested_item value valid.2.1 (by omega) second]
      change times _ others.length _ = _
      rw [times_entries others valid.2.2 (by omega) (drop_of_drop second),
        Cbor.Item.encodeEntries, List.length_append, List.length_append, Nat.add_assoc,
        Nat.add_assoc]

end

/-- The stack is high enough for every item. -/
theorem skipValue_item {item : Cbor.Item} (valid : item.Valid) {data rest : Bytes} {start : Nat}
    (here : data.drop start = item.encode ++ rest) :
    skipValue data (some start) = .ok (some (start + item.encode.length)) := by
  have lengths := congrArg List.length here
  rw [List.length_drop, List.length_append] at lengths
  exact skipNested_item item valid (by omega) here

end Nido.Sdk
