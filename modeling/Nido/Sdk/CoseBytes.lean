/-
Keys in any bytes.

The reader of a key takes more than keys: it stops early, a label may come twice, a coordinate
may be cut, and behind the end it reads zeros. What it takes is said here as a grammar.
-/

import Nido.Sdk.Webauthn

namespace Nido.Sdk

/-! ### The grammar -/

/-- A head in front of some bytes, with its major type and its argument, unless the byte of that
is missing. Where nothing is left, zeros are read. -/
inductive CoseHead : Bytes → Nat → Option Nat → Bytes → Prop
  | missing : CoseHead [] 0 (some 0) []
  | immediate {byte : UInt8} {rest : Bytes} (short : byte.toNat % 32 < 24) :
      CoseHead (byte :: rest) (byte.toNat / 32) (some (byte.toNat % 32)) rest
  | next {byte argument : UInt8} {rest : Bytes} (next : byte.toNat % 32 = 24) :
      CoseHead (byte :: argument :: rest) (byte.toNat / 32) (some argument.toNat) rest
  | cut {byte : UInt8} (next : byte.toNat % 32 = 24) :
      CoseHead [byte] (byte.toNat / 32) none []

def coseInteger (major : Nat) (argument : Option Nat) : Option Int :=
  if major = 0 then argument.map Int.ofNat else argument.map (fun len => -1 - Int.ofNat len)

/-- Some bytes start with so many entries, among them these strings with their labels. -/
inductive CoseEntries : Nat → Bytes → List (Option Int × Bytes) → Prop
  | done {bytes : Bytes} : CoseEntries 0 bytes []
  | number {count keyMajor valMajor : Nat} {label argument : Option Nat}
      {bytes value rest : Bytes} {strings : List (Option Int × Bytes)}
      (key : CoseHead bytes keyMajor label value) (labels : keyMajor ≤ 1)
      (head : CoseHead value valMajor argument rest) (counts : valMajor ≤ 1)
      (later : CoseEntries count rest strings) :
      CoseEntries (count + 1) bytes strings
  | string {count keyMajor : Nat} {label length : Option Nat} {bytes value content : Bytes}
      {strings : List (Option Int × Bytes)}
      (key : CoseHead bytes keyMajor label value) (labels : keyMajor ≤ 1)
      (head : CoseHead value 2 length content)
      (later : CoseEntries count (content.drop (length.getD 0)) strings) :
      CoseEntries (count + 1) bytes
        ((coseInteger keyMajor label, content.take (length.getD 0)) :: strings)

/-- The last string with a label. -/
def labelled (label : Int) (strings : List (Option Int × Bytes)) : Option Bytes :=
  strings.reverse.lookup (some label)

/-- The second coordinate is written over the end of a first one that is too long. -/
def overlaid (x y : Bytes) : Bytes :=
  let wide := x ++ List.replicate (64 - x.length) 0
  wide.take 32 ++ (y ++ wide.drop (32 + y.length))

/-- A map in front of the bytes holds both coordinates of a key. -/
def SpellsKey (bytes key : Bytes) : Prop :=
  ∃ count entries strings x y,
    CoseHead bytes 5 count entries ∧
    CoseEntries (count.getD 0) entries strings ∧
    labelled (-2) strings = some x ∧
    labelled (-3) strings = some y ∧
    x.length ≤ 64 ∧ y.length ≤ 32 ∧ key = 0x04 :: overlaid x y

/-- The data of an authenticator with a key in the 77 bytes behind the credential. -/
def CarriesKey (data key : Bytes) : Prop :=
  ∃ flags, data[32]? = some flags ∧ flags.toNat &&& 0x40 ≠ 0 ∧ 55 ≤ data.length ∧
    SpellsKey ((data.drop (55 + BigEndian.value ((data.drop 53).take 2))).take 77) key

theorem CoseHead.cut_rest {bytes rest : Bytes} {major : Nat} {argument : Option Nat}
    (head : CoseHead bytes major argument rest) (missing : argument = none) : rest = [] := by
  cases head with
  | missing | immediate | next => cases missing
  | cut => rfl

/-! ### Heads -/

section Reading

variable {data rest : Bytes} {offset : Offset}

def unread (data : Bytes) : Offset → Bytes
  | some start => data.drop start
  | none => []

theorem readInitial_nil (nothing : unread data offset = []) :
    readInitial data offset = ((0, 0), offset.map (· + 1)) := by
  have absent : offset.bind (fun start => data[start]?) = none := by
    cases offset with
    | none => rfl
    | some start => exact List.getElem?_eq_none (List.drop_eq_nil_iff.mp nothing)
  unfold readInitial readByte
  dsimp only
  rw [absent]
  rfl

theorem unread_cons {byte : UInt8} (here : unread data offset = byte :: rest) :
    ∃ start, offset = some start ∧ data[start]? = some byte ∧
      unread data (some (start + 1)) = rest := by
  cases offset with
  | none => cases here
  | some start =>
      have tail : data.drop start = [byte] ++ rest := here
      exact ⟨start, rfl, getElem?_of_drop tail, drop_of_drop tail⟩

theorem int_byte (byte : UInt8) :
    int (some byte) >>> 5 = byte.toNat / 32 ∧ int (some byte) &&& 0x1f = byte.toNat % 32 := by
  have mask : (0x1f : Nat) = 2 ^ 5 - 1 := rfl
  rw [Nat.shiftRight_eq_div_pow, mask, Nat.and_two_pow_sub_one_eq_mod]
  exact ⟨rfl, rfl⟩

theorem readCoseLength_next {start : Nat} {bytes : Bytes} (here : data.drop start = bytes) :
    readCoseLength data 24 (some start) =
        .ok (bytes.head?.map UInt8.toNat, some (start + 1)) ∧
      unread data (some (start + 1)) = bytes.tail := by
  rw [← here, List.head?_drop, List.tail_drop]
  exact ⟨rfl, rfl⟩

theorem readCoseHead_iff {major info : Nat} {next : Offset}
    (initial : readInitial data offset = ((major, info), next)) {wanted : Nat}
    {argument : Option Nat} :
    CoseHead (unread data offset) wanted argument rest ↔
      major = wanted ∧ ∃ after, readCoseLength data info next = .ok (argument, after) ∧
        unread data after = rest := by
  cases here : unread data offset with
  | nil =>
      rw [readInitial_nil here] at initial
      cases initial
      have ends : unread data (offset.map (· + 1)) = [] := by
        cases offset with
        | none => rfl
        | some start =>
            exact List.drop_eq_nil_iff.mpr (Nat.le_succ_of_le (List.drop_eq_nil_iff.mp here))
      constructor
      · intro head
        cases head with
        | missing => exact ⟨rfl, _, rfl, ends⟩
      · rintro ⟨rfl, after, read, rfl⟩
        cases read
        rw [ends]
        exact .missing
  | cons byte tail =>
      obtain ⟨start, rfl, present, behind⟩ := unread_cons here
      have read : readInitial data (some start) =
          ((byte.toNat / 32, byte.toNat % 32), some (start + 1)) := by
        unfold readInitial readByte
        dsimp only [Option.bind_some, Option.map_some]
        rw [present, (int_byte byte).1, (int_byte byte).2]
      rw [read] at initial
      cases initial
      constructor
      · intro head
        cases head with
        | immediate short => exact ⟨rfl, _, if_pos short, behind⟩
        | next next =>
            obtain ⟨length, after⟩ := readCoseLength_next behind
            exact ⟨rfl, _, next ▸ length, after⟩
        | cut next =>
            obtain ⟨length, after⟩ := readCoseLength_next behind
            exact ⟨rfl, _, next ▸ length, after⟩
      · rintro ⟨rfl, after, length, rfl⟩
        by_cases short : byte.toNat % 32 < 24
        · rw [readCoseLength, if_pos short] at length
          cases length
          rw [behind]
          exact .immediate short
        · by_cases next : byte.toNat % 32 = 24
          · obtain ⟨counted, last⟩ := readCoseLength_next behind
            rw [next, counted] at length
            cases length
            rw [last]
            cases tail with
            | nil => exact .cut next
            | cons argument rest => exact .next next
          · rw [readCoseLength, if_neg short, if_neg next] at length
            cases length

/-! ### Entries -/

theorem readCoseKey_iff {keyVal : Option Int} :
    (∃ after, readCoseKey data offset = .ok (keyVal, after) ∧ unread data after = rest) ↔
      ∃ major argument, CoseHead (unread data offset) major argument rest ∧ major ≤ 1 ∧
        keyVal = coseInteger major argument := by
  rcases initial : readInitial data offset with ⟨⟨keyMajor, keyAdditional⟩, next⟩
  unfold readCoseKey
  rw [initial]
  dsimp only
  constructor
  · rintro ⟨after, read, rfl⟩
    split at read
    next isZero =>
      obtain ⟨⟨argument, place⟩, length, result⟩ := Contract.bind_eq_ok.mp read
      cases result
      refine ⟨keyMajor, argument, ?_, by omega, (if_pos isZero).symm⟩
      exact (readCoseHead_iff initial).mpr ⟨rfl, _, length, rfl⟩
    next notZero =>
      split at read
      next isOne =>
        obtain ⟨⟨argument, place⟩, length, result⟩ := Contract.bind_eq_ok.mp read
        cases result
        refine ⟨keyMajor, argument, ?_, by omega, (if_neg notZero).symm⟩
        exact (readCoseHead_iff initial).mpr ⟨rfl, _, length, rfl⟩
      next => cases read
  · rintro ⟨major, argument, head, labels, rfl⟩
    obtain ⟨rfl, after, length, rfl⟩ := (readCoseHead_iff initial).mp head
    refine ⟨after, ?_, rfl⟩
    unfold coseInteger
    by_cases isZero : keyMajor = 0
    · rw [if_pos isZero, if_pos isZero, length]
      rfl
    · rw [if_neg isZero, if_neg isZero, if_pos (by omega), length]
      rfl

theorem readBytes_unread {len : Option Nat} (cut : len = none → unread data offset = []) :
    readBytes data len offset = ((unread data offset).take (len.getD 0), advance offset len) ∧
      unread data (advance offset len) = (unread data offset).drop (len.getD 0) := by
  cases len with
  | none =>
      rw [cut rfl]
      cases offset with
      | none => exact ⟨rfl, rfl⟩
      | some start => exact ⟨by simp [readBytes, slice, advance], rfl⟩
  | some length =>
      cases offset with
      | none => exact ⟨by simp [readBytes, slice, advance, unread], List.drop_nil.symm⟩
      | some start =>
          constructor
          · have taken : (data.take (start + length)).drop start = (data.drop start).take length := by
              rw [List.drop_take, Nat.add_sub_cancel_left]
            exact congrArg (fun bytes => (bytes, some (start + length))) taken
          · exact (List.drop_drop ..).symm

theorem CoseState.store_fields (state : CoseState) (keyVal : Option Int) (bytes : Bytes) :
    (state.store keyVal bytes).offset = state.offset ∧
      (state.store keyVal bytes).x = (if keyVal = some (-2) then some bytes else state.x) ∧
      (state.store keyVal bytes).y = (if keyVal = some (-3) then some bytes else state.y) := by
  unfold CoseState.store
  by_cases isX : keyVal = some (-2)
  · simp [isX]
  · by_cases isY : keyVal = some (-3)
    · simp [isY]
    · simp [isX, isY]

theorem readCoseValue_iff {keyVal : Option Int} {state : CoseState} {x y : Option Bytes} :
    (∃ after, readCoseValue data keyVal state = .ok after ∧ unread data after.offset = rest ∧
        after.x = x ∧ after.y = y) ↔
      (∃ major argument, CoseHead (unread data state.offset) major argument rest ∧ major ≤ 1 ∧
        x = state.x ∧ y = state.y) ∨
      ∃ length content, CoseHead (unread data state.offset) 2 length content ∧
        content.drop (length.getD 0) = rest ∧
        x = (if keyVal = some (-2) then some (content.take (length.getD 0)) else state.x) ∧
        y = (if keyVal = some (-3) then some (content.take (length.getD 0)) else state.y) := by
  rcases initial : readInitial data state.offset with ⟨⟨valMajor, valAdditional⟩, next⟩
  unfold readCoseValue
  rw [initial]
  dsimp only
  constructor
  · rintro ⟨after, read, rfl, rfl, rfl⟩
    split at read
    next isString =>
      obtain ⟨⟨length, place⟩, counted, result⟩ := Contract.bind_eq_ok.mp read
      have head := (readCoseHead_iff initial).mpr ⟨isString, place, counted, rfl⟩
      obtain ⟨bytes, ends⟩ := readBytes_unread head.cut_rest
      dsimp only at result
      rw [bytes] at result
      cases result
      obtain ⟨atPlace, isX, isY⟩ := CoseState.store_fields
        { state with offset := advance place length } keyVal
        ((unread data place).take (length.getD 0))
      rw [atPlace]
      exact Or.inr ⟨length, _, head, ends.symm, isX, isY⟩
    next =>
      split at read
      next isNumber =>
        obtain ⟨⟨argument, place⟩, counted, result⟩ := Contract.bind_eq_ok.mp read
        cases result
        refine Or.inl ⟨valMajor, argument, ?_, by omega, rfl, rfl⟩
        exact (readCoseHead_iff initial).mpr ⟨rfl, _, counted, rfl⟩
      next => cases read
  · rintro (⟨major, argument, head, counts, rfl, rfl⟩ | ⟨length, content, head, rfl, rfl, rfl⟩)
    · obtain ⟨rfl, place, counted, rfl⟩ := (readCoseHead_iff initial).mp head
      refine ⟨{ state with offset := place }, ?_, rfl, rfl, rfl⟩
      rw [if_neg (by omega), if_pos (by omega), counted]
      rfl
    · obtain ⟨isString, place, counted, rfl⟩ := (readCoseHead_iff initial).mp head
      obtain ⟨bytes, ends⟩ := readBytes_unread head.cut_rest
      obtain ⟨atPlace, isX, isY⟩ := CoseState.store_fields
        { state with offset := advance place length } keyVal
        ((unread data place).take (length.getD 0))
      refine ⟨_, ?_, ?_, isX, isY⟩
      · rw [if_pos isString]
        refine Contract.bind_eq_ok.mpr ⟨(length, place), counted, ?_⟩
        rw [bytes]
        rfl
      · rw [atPlace, ends]

theorem labelled_cons (label : Int) (string : Option Int × Bytes)
    (strings : List (Option Int × Bytes)) :
    labelled label (string :: strings) =
      (labelled label strings).or (if string.1 = some label then some string.2 else none) := by
  unfold labelled
  rw [List.reverse_cons, List.lookup_append, List.lookup_cons]
  by_cases same : some label = string.1
  · simp [same]
  · have apart : (some label == string.1) = false := by simpa using same
    simp [apart, Ne.symm same]

/-- The entries that are read are those of the grammar. The induction is on their number. -/
theorem readCoseEntries_iff (count : Nat) (state : CoseState) {x y : Option Bytes} :
    (∃ after, readCoseEntries data count state = .ok after ∧ after.x = x ∧ after.y = y) ↔
      ∃ strings, CoseEntries count (unread data state.offset) strings ∧
        x = (labelled (-2) strings).or state.x ∧ y = (labelled (-3) strings).or state.y := by
  induction count generalizing state x y with
  | zero =>
      constructor
      · rintro ⟨after, read, rfl, rfl⟩
        cases read
        exact ⟨[], .done, rfl, rfl⟩
      · rintro ⟨strings, entries, rfl, rfl⟩
        cases entries
        exact ⟨state, rfl, rfl, rfl⟩
  | succ count ih =>
      constructor
      · rintro ⟨after, read, rfl, rfl⟩
        obtain ⟨middle, entry, others⟩ := Contract.bind_eq_ok.mp read
        obtain ⟨⟨keyVal, place⟩, label, value⟩ := Contract.bind_eq_ok.mp entry
        obtain ⟨keyMajor, argument, key, labels, rfl⟩ := readCoseKey_iff.mp ⟨place, label, rfl⟩
        obtain ⟨strings, later, isX, isY⟩ := (ih middle).mp ⟨after, others, rfl, rfl⟩
        rcases readCoseValue_iff.mp ⟨middle, value, rfl, rfl, rfl⟩ with
          ⟨_, _, head, counts, x, y⟩ | ⟨length, content, head, rest, x, y⟩
        · exact ⟨strings, .number key labels head counts later, by rw [isX, x], by rw [isY, y]⟩
        · rw [← rest] at later
          refine ⟨_, .string key labels head later, ?_, ?_⟩
          · rw [isX, x, labelled_cons, Option.or_assoc]
            split <;> rfl
          · rw [isY, y, labelled_cons, Option.or_assoc]
            split <;> rfl
      · rintro ⟨strings, entries, rfl, rfl⟩
        cases entries with
        | @number _ keyMajor _ _ _ _ _ _ _ key labels head counts later =>
            obtain ⟨place, label, rfl⟩ := readCoseKey_iff.mpr ⟨_, _, key, labels, rfl⟩
            obtain ⟨middle, value, rfl, x, y⟩ :=
              (@readCoseValue_iff _ _ _ { state with offset := place } _ _).mpr
                (Or.inl ⟨_, _, head, counts, rfl, rfl⟩)
            obtain ⟨after, others, isX, isY⟩ := (ih middle).mpr ⟨_, later, rfl, rfl⟩
            refine ⟨after, ?_, by rw [isX, x], by rw [isY, y]⟩
            exact Contract.bind_eq_ok.mpr
              ⟨middle, Contract.bind_eq_ok.mpr ⟨_, label, value⟩, others⟩
        | string key labels head later =>
            obtain ⟨place, label, rfl⟩ := readCoseKey_iff.mpr ⟨_, _, key, labels, rfl⟩
            obtain ⟨middle, value, rest, x, y⟩ :=
              (@readCoseValue_iff _ _ _ { state with offset := place } _ _).mpr
                (Or.inr ⟨_, _, head, rfl, rfl, rfl⟩)
            rw [← rest] at later
            obtain ⟨after, others, isX, isY⟩ := (ih middle).mpr ⟨_, later, rfl, rfl⟩
            refine ⟨after, ?_, ?_, ?_⟩
            · exact Contract.bind_eq_ok.mpr
                ⟨middle, Contract.bind_eq_ok.mpr ⟨_, label, value⟩, others⟩
            · rw [isX, x, labelled_cons, Option.or_assoc]
              split <;> rfl
            · rw [isY, y, labelled_cons, Option.or_assoc]
              split <;> rfl

end Reading

/-! ### Keys -/

theorem uncompressed_eq_ok {x y key : Bytes} :
    uncompressed x y = .ok key ↔ x.length ≤ 64 ∧ y.length ≤ 32 ∧ key = 0x04 :: overlaid x y := by
  have first (short : x.length ≤ 64) : setBytes (0x04 :: List.replicate 64 0) x 1 =
      .ok (0x04 :: (x ++ List.replicate (64 - x.length) 0)) := by
    have fits : 1 + x.length ≤ (0x04 :: List.replicate 64 (0 : UInt8)).length := by
      rw [List.length_cons, List.length_replicate]
      omega
    unfold setBytes
    rw [if_pos fits, Nat.add_comm, List.drop_succ_cons, List.drop_replicate]
    rfl
  have second (short : x.length ≤ 64) (fits : y.length ≤ 32) :
      setBytes (0x04 :: (x ++ List.replicate (64 - x.length) 0)) y 33 =
        .ok (0x04 :: overlaid x y) := by
    have inside : 33 + y.length ≤
        (0x04 :: (x ++ List.replicate (64 - x.length) (0 : UInt8))).length := by
      rw [List.length_cons, List.length_append, List.length_replicate]
      omega
    have after : 33 + y.length = 32 + y.length + 1 := by omega
    unfold setBytes
    rw [if_pos inside, after, List.drop_succ_cons, List.take_succ_cons, List.cons_append,
      List.cons_append, List.append_assoc]
    rfl
  unfold uncompressed
  dsimp only
  constructor
  · intro written
    obtain ⟨middle, low, high⟩ := Contract.bind_eq_ok.mp written
    have short : x.length ≤ 64 := by
      unfold setBytes at low
      split at low
      next fits =>
        rw [List.length_cons, List.length_replicate] at fits
        omega
      next => cases low
    rw [first short] at low
    cases low
    have fits : y.length ≤ 32 := by
      unfold setBytes at high
      split at high
      next inside =>
        rw [List.length_cons, List.length_append, List.length_replicate] at inside
        omega
      next => cases high
    rw [second short fits] at high
    cases high
    exact ⟨short, fits, rfl⟩
  · rintro ⟨short, fits, rfl⟩
    exact Contract.bind_eq_ok.mpr ⟨_, first short, second short fits⟩

theorem extractP256FromCoseKey_iff {bytes key : Bytes} :
    extractP256FromCoseKey bytes = .ok key ↔ SpellsKey bytes key := by
  rcases initial : readInitial bytes (some 0) with ⟨⟨majorType, additionalInfo⟩, next⟩
  unfold extractP256FromCoseKey
  rw [initial]
  dsimp only
  constructor
  · intro read
    split at read
    next => cases read
    next isMap =>
      obtain ⟨⟨count, place⟩, counted, others⟩ := Contract.bind_eq_ok.mp read
      obtain ⟨after, entries, point⟩ := Contract.bind_eq_ok.mp others
      obtain ⟨strings, spelt, isX, isY⟩ :=
        (readCoseEntries_iff _ _).mp ⟨after, entries, rfl, rfl⟩
      have head := (readCoseHead_iff initial).mpr ⟨not_not.mp isMap, place, counted, rfl⟩
      rw [isX, isY, Option.or_none, Option.or_none] at point
      split at point
      next x y hasX hasY =>
        exact ⟨count, _, strings, x, y, head, spelt, hasX, hasY, uncompressed_eq_ok.mp point⟩
      next => cases point
  · rintro ⟨count, entries, strings, x, y, head, spelt, hasX, hasY, point⟩
    obtain ⟨isMap, place, counted, rfl⟩ := (readCoseHead_iff initial).mp head
    obtain ⟨after, read, isX, isY⟩ :=
      (readCoseEntries_iff _ { offset := place, x := none, y := none }).mpr
        ⟨strings, spelt, rfl, rfl⟩
    rw [if_neg (not_not_intro isMap), counted]
    refine Contract.bind_eq_ok.mpr ⟨_, rfl, Contract.bind_eq_ok.mpr ⟨after, read, ?_⟩⟩
    rw [isX, isY, Option.or_none, Option.or_none, hasX, hasY]
    exact uncompressed_eq_ok.mpr point

theorem extractPublicKeyFromAuthData_iff {data key : Bytes} :
    extractPublicKeyFromAuthData data = .ok key ↔ CarriesKey data key := by
  have behind (length : Nat) : slice data (some (55 + length)) (some (55 + length + 77)) =
      (data.drop (55 + length)).take 77 := by
    change (data.take (55 + length + 77)).drop (55 + length) = _
    rw [List.drop_take, Nat.add_sub_cancel_left]
  unfold extractPublicKeyFromAuthData CarriesKey getUint
  dsimp only
  constructor
  · intro read
    split at read
    next => cases read
    next attested =>
      obtain ⟨length, counted, spelt⟩ := Contract.bind_eq_ok.mp read
      split at counted
      next inside =>
        cases counted
        rw [behind] at spelt
        cases flags : data[32]? with
        | none =>
            rw [flags] at attested
            exact absurd rfl attested
        | some byte =>
            rw [flags] at attested
            exact ⟨byte, rfl, attested, inside, extractP256FromCoseKey_iff.mp spelt⟩
      next => cases counted
  · rintro ⟨flags, present, attested, inside, spelt⟩
    have attested' : ¬ int (some flags) &&& 0x40 = 0 := attested
    have inside' : 53 + 2 ≤ data.length := inside
    rw [present, if_neg attested', if_pos inside']
    refine Contract.bind_eq_ok.mpr ⟨_, rfl, ?_⟩
    rw [behind]
    exact extractP256FromCoseKey_iff.mpr spelt

end Nido.Sdk
