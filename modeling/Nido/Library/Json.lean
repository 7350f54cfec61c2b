/-
JSON texts.

What is written is read back: strings escape what a text cannot hold, and no value
ends before its last character. A number is kept as it is spelt.
-/

import Mathlib.Data.List.Basic
import Nido.Library.Decimal

namespace Nido

inductive Json
  | null
  | bool (value : Bool)
  | number (spelling : List Char)
  | string (text : String)
  | array (items : List Json)
  | object (entries : List (String × Json))

namespace Json

/-! ### Writing -/

def quote : Char := Char.ofNat 0x22

def backslash : Char := Char.ofNat 0x5c

def openBrace : Char := Char.ofNat 0x7b

def closeBrace : Char := Char.ofNat 0x7d

/-- A character of a string; what cannot stand in one is written with a backslash. -/
def escape (c : Char) : List Char :=
  if c = quote ∨ c = backslash then [backslash, c]
  else if c.toNat = 0x08 then [backslash, 'b']
  else if c.toNat = 0x0c then [backslash, 'f']
  else if c.toNat = 0x0a then [backslash, 'n']
  else if c.toNat = 0x0d then [backslash, 'r']
  else if c.toNat = 0x09 then [backslash, 't']
  else if c.toNat < 0x20 then
    [backslash, 'u', '0', '0', (c.toNat / 16).digitChar, (c.toNat % 16).digitChar]
  else [c]

def writeString (text : String) : List Char :=
  quote :: text.toList.flatMap escape ++ [quote]

mutual

def write : Json → List Char
  | .null => ['n', 'u', 'l', 'l']
  | .bool true => ['t', 'r', 'u', 'e']
  | .bool false => ['f', 'a', 'l', 's', 'e']
  | .number spelling => spelling
  | .string text => writeString text
  | .array items => '[' :: (writeItems items ++ [']'])
  | .object entries => openBrace :: (writeEntries entries ++ [closeBrace])

def writeItems : List Json → List Char
  | [] => []
  | [item] => item.write
  | item :: next :: rest => item.write ++ ',' :: writeItems (next :: rest)

def writeEntries : List (String × Json) → List Char
  | [] => []
  | [(name, value)] => writeString name ++ ':' :: value.write
  | (name, value) :: next :: rest =>
      writeString name ++ ':' :: (value.write ++ ',' :: writeEntries (next :: rest))

end

def stringify (value : Json) : String := String.ofList value.write

/-! ### Reading -/

def isSpace (c : Char) : Bool :=
  decide (c = ' ' ∨ c.toNat = 0x09 ∨ c.toNat = 0x0a ∨ c.toNat = 0x0d)

def skipSpace (input : List Char) : List Char := input.dropWhile isSpace

def hexDigit (c : Char) : Option Nat :=
  if '0' ≤ c ∧ c ≤ '9' then some (c.toNat - 0x30)
  else if 'a' ≤ c ∧ c ≤ 'f' then some (c.toNat - 0x57)
  else if 'A' ≤ c ∧ c ≤ 'F' then some (c.toNat - 0x37)
  else none

/-- The code unit that four digits spell. -/
def codeUnit (first second third fourth : Char) : Option Nat := do
  let a ← hexDigit first
  let b ← hexDigit second
  let c ← hexDigit third
  let d ← hexDigit fourth
  pure (((a * 16 + b) * 16 + c) * 16 + d)

/-- Half of a pair that stands alone is no character. -/
def unitChar (code : Nat) : Char :=
  if 0xd800 ≤ code ∧ code < 0xe000 then Char.ofNat 0xfffd else Char.ofNat code

def pairChar (high low : Nat) : Char :=
  Char.ofNat (0x10000 + (high - 0xd800) * 0x400 + (low - 0xdc00))

/-- The character after a backslash. -/
def unescape (c : Char) : Option Char :=
  if c = quote ∨ c = backslash ∨ c = '/' then some c
  else if c = 'b' then some (Char.ofNat 0x08)
  else if c = 'f' then some (Char.ofNat 0x0c)
  else if c = 'n' then some (Char.ofNat 0x0a)
  else if c = 'r' then some (Char.ofNat 0x0d)
  else if c = 't' then some (Char.ofNat 0x09)
  else none

/-- A character that is written as one or two code units, and what follows it. -/
def readUnicode : List Char → Option (Char × List Char)
  | a :: b :: c :: d :: rest =>
      match codeUnit a b c d with
      | none => none
      | some high =>
          match rest with
          | slash :: u :: e :: f :: g :: h :: after =>
              match codeUnit e f g h with
              | some low =>
                  if slash = backslash ∧ u = 'u' ∧ 0xd800 ≤ high ∧ high < 0xdc00 ∧
                      0xdc00 ≤ low ∧ low < 0xe000 then
                    some (pairChar high low, after)
                  else
                    some (unitChar high, rest)
              | none => some (unitChar high, rest)
          | _ => some (unitChar high, rest)
  | _ => none

/-- One character of a string, and what follows it; the end of the string is nothing. -/
def readChar : List Char → Option (Option Char × List Char)
  | [] => none
  | c :: rest =>
      if c = quote then some (none, rest)
      else if c = backslash then
        match rest with
        | [] => none
        | escaped :: after =>
            if escaped = 'u' then (readUnicode after).map (fun read => (some read.1, read.2))
            else (unescape escaped).map (fun char => (some char, after))
      else if c.toNat < 0x20 then none
      else some (some c, rest)

def readString : (fuel : Nat) → List Char → Option (List Char × List Char)
  | 0, _ => none
  | fuel + 1, input =>
      match readChar input with
      | none => none
      | some (none, rest) => some ([], rest)
      | some (some c, rest) => (readString fuel rest).map (fun read => (c :: read.1, read.2))

def isDigit (c : Char) : Bool := decide ('0' ≤ c ∧ c ≤ '9')

def readDigits (input : List Char) : Option (List Char × List Char) :=
  match input.takeWhile isDigit with
  | [] => none
  | digits => some (digits, input.dropWhile isDigit)

def readFraction : List Char → Option (List Char × List Char)
  | '.' :: rest => (readDigits rest).map (fun read => ('.' :: read.1, read.2))
  | input => some ([], input)

def readExponent : List Char → Option (List Char × List Char)
  | e :: rest =>
      if e = 'e' ∨ e = 'E' then
        match rest with
        | sign :: digits =>
            if sign = '+' ∨ sign = '-' then
              (readDigits digits).map (fun read => (e :: sign :: read.1, read.2))
            else
              (readDigits rest).map (fun read => (e :: read.1, read.2))
        | [] => none
      else
        some ([], e :: rest)
  | [] => some ([], [])

/-- No number starts with a superfluous zero. -/
def readMagnitude (input : List Char) : Option (List Char × List Char) := do
  let (whole, rest) ← readDigits input
  if whole.head? = some '0' ∧ whole.length ≠ 1 then
    none
  else do
    let (fraction, rest) ← readFraction rest
    let (exponent, rest) ← readExponent rest
    pure (whole ++ fraction ++ exponent, rest)

def readNumber : List Char → Option (List Char × List Char)
  | '-' :: rest => (readMagnitude rest).map (fun read => ('-' :: read.1, read.2))
  | input => readMagnitude input

def readWord (word : String) (value : Json) (input : List Char) : Option (Json × List Char) :=
  if word.toList <+: input then some (value, input.drop word.length) else none

def readScalar (input : List Char) : Option (Json × List Char) :=
  match input with
  | 'n' :: _ => readWord "null" .null input
  | 't' :: _ => readWord "true" (.bool true) input
  | 'f' :: _ => readWord "false" (.bool false) input
  | _ => (readNumber input).map (fun read => (.number read.1, read.2))

mutual

def read : (fuel : Nat) → List Char → Option (Json × List Char)
  | 0, _ => none
  | fuel + 1, input =>
      match skipSpace input with
      | [] => none
      | c :: rest =>
          if c = quote then
            (readString (rest.length + 1) rest).map
              (fun read => (.string (String.ofList read.1), read.2))
          else if c = '[' then
            match skipSpace rest with
            | ']' :: after => some (.array [], after)
            | _ => (readItems fuel rest).map (fun read => (.array read.1, read.2))
          else if c = openBrace then
            match skipSpace rest with
            | [] => none
            | close :: after =>
                if close = closeBrace then some (.object [], after)
                else (readEntries fuel rest).map (fun read => (.object read.1, read.2))
          else
            readScalar (c :: rest)

def readItems : (fuel : Nat) → List Char → Option (List Json × List Char)
  | 0, _ => none
  | fuel + 1, input =>
      match read fuel input with
      | none => none
      | some (item, rest) =>
          match skipSpace rest with
          | ',' :: more => (readItems fuel more).map (fun read => (item :: read.1, read.2))
          | ']' :: after => some ([item], after)
          | _ => none

def readEntries : (fuel : Nat) → List Char → Option (List (String × Json) × List Char)
  | 0, _ => none
  | fuel + 1, input =>
      match skipSpace input with
      | [] => none
      | c :: rest =>
          if c = quote then
            match readString (rest.length + 1) rest with
            | none => none
            | some (name, rest) =>
                match skipSpace rest with
                | ':' :: rest =>
                    match read fuel rest with
                    | none => none
                    | some (value, rest) =>
                        match skipSpace rest with
                        | [] => none
                        | next :: rest =>
                            if next = ',' then
                              (readEntries fuel rest).map
                                (fun read => ((String.ofList name, value) :: read.1, read.2))
                            else if next = closeBrace then
                              some ([(String.ofList name, value)], rest)
                            else
                              none
                | _ => none
          else
            none

end

def parse (text : String) : Option Json :=
  match read (2 * text.toList.length + 2) text.toList with
  | some (value, rest) => if skipSpace rest = [] then some value else none
  | none => none

/-! ### What is written is read back -/

theorem hexDigit_digitChar : ∀ digit < 16, hexDigit digit.digitChar = some digit := by
  decide

theorem readUnicode_single {a b c d : Char} {code : Nat} (rest : List Char)
    (spelt : codeUnit a b c d = some code) (small : code < 0xd800) :
    readUnicode (a :: b :: c :: d :: rest) = some (Char.ofNat code, rest) := by
  have char : unitChar code = Char.ofNat code := by
    unfold unitChar
    rw [if_neg (by omega)]
  unfold readUnicode
  dsimp only
  rw [spelt]
  dsimp only
  split
  · split
    · rw [if_neg (by omega), char]
    · rw [char]
  · rw [char]

theorem readChar_escape (c : Char) (rest : List Char) :
    readChar (escape c ++ rest) = some (some c, rest) := by
  have named (code : Nat) (same : c.toNat = code) : Char.ofNat code = c := by
    rw [← same]
    exact Char.ofNat_toNat c
  unfold escape
  split
  next special =>
    rcases special with rfl | rfl
    · rfl
    · rfl
  next ordinary =>
    split
    next same => rw [← named _ same]; rfl
    next =>
      split
      next same => rw [← named _ same]; rfl
      next =>
        split
        next same => rw [← named _ same]; rfl
        next =>
          split
          next same => rw [← named _ same]; rfl
          next =>
            split
            next same => rw [← named _ same]; rfl
            next =>
              split
              next control =>
                have high := hexDigit_digitChar (c.toNat / 16) (by omega)
                have low := hexDigit_digitChar (c.toNat % 16) (by omega)
                have spelt : codeUnit '0' '0' (c.toNat / 16).digitChar (c.toNat % 16).digitChar =
                    some c.toNat := by
                  have zero : hexDigit '0' = some 0 := rfl
                  unfold codeUnit
                  rw [zero, high, low]
                  simp only [Option.bind_eq_bind, Option.bind_some, Option.pure_def]
                  congr 1
                  omega
                have read := readUnicode_single rest spelt (by omega)
                rw [Char.ofNat_toNat] at read
                exact congrArg (Option.map (fun read => (some read.1, read.2))) read
              next printable =>
                unfold readChar
                rw [List.cons_append, List.nil_append]
                dsimp only
                rw [if_neg (fun same => ordinary (Or.inl same)),
                  if_neg (fun same => ordinary (Or.inr same)), if_neg printable]

theorem readString_escape (text rest : List Char) (fuel : Nat) (enough : text.length < fuel) :
    readString fuel (text.flatMap escape ++ quote :: rest) = some (text, rest) := by
  induction text generalizing fuel with
  | nil =>
      obtain ⟨remaining, rfl⟩ : ∃ remaining, fuel = remaining + 1 :=
        ⟨fuel - 1, by simp at enough; omega⟩
      rfl
  | cons c others ih =>
      obtain ⟨remaining, rfl⟩ : ∃ remaining, fuel = remaining + 1 :=
        ⟨fuel - 1, by omega⟩
      rw [List.flatMap_cons, List.append_assoc, readString, readChar_escape]
      dsimp only
      rw [ih remaining (Nat.lt_of_succ_lt_succ enough)]
      rfl

mutual

/-- No number occurs, whose spelling might be none. -/
def textual : Json → Bool
  | .number _ => false
  | .array items => textualItems items
  | .object entries => textualEntries entries
  | _ => true

def textualItems : List Json → Bool
  | [] => true
  | item :: rest => item.textual && textualItems rest

def textualEntries : List (String × Json) → Bool
  | [] => true
  | (_, value) :: rest => value.textual && textualEntries rest

end

/-- A natural number without superfluous zeros. -/
def isNatural (spelling : List Char) : Bool :=
  !spelling.isEmpty && spelling.all isDigit &&
    decide (spelling.head? ≠ some '0' ∨ spelling.length = 1)

mutual

/-- The numbers that occur are natural. -/
def spelt : Json → Bool
  | .number spelling => isNatural spelling
  | .array items => speltItems items
  | .object entries => speltEntries entries
  | _ => true

def speltItems : List Json → Bool
  | [] => true
  | item :: rest => item.spelt && speltItems rest

def speltEntries : List (String × Json) → Bool
  | [] => true
  | (_, value) :: rest => value.spelt && speltEntries rest

end

mutual

theorem spelt_of_textual : (value : Json) → value.textual = true → value.spelt = true
  | .null, _ => rfl
  | .bool _, _ => rfl
  | .number _, impossible => by cases impossible
  | .string _, _ => rfl
  | .array items, plain => speltItems_of_textual items plain
  | .object entries, plain => speltEntries_of_textual entries plain

theorem speltItems_of_textual : (items : List Json) → textualItems items = true →
    speltItems items = true
  | [], _ => rfl
  | item :: rest, plain => by
      have parts := Bool.and_eq_true_iff.mp plain
      rw [speltItems, spelt_of_textual item parts.1, speltItems_of_textual rest parts.2]
      rfl

theorem speltEntries_of_textual : (entries : List (String × Json)) →
    textualEntries entries = true → speltEntries entries = true
  | [], _ => rfl
  | (_, value) :: rest, plain => by
      have parts := Bool.and_eq_true_iff.mp plain
      rw [speltEntries, spelt_of_textual value parts.1, speltEntries_of_textual rest parts.2]
      rfl

end

theorem isNatural_iff {spelling : List Char} :
    isNatural spelling = true ↔ spelling ≠ [] ∧ (∀ c ∈ spelling, isDigit c = true) ∧
      (spelling.head? ≠ some '0' ∨ spelling.length = 1) := by
  unfold isNatural
  rw [Bool.and_eq_true, Bool.and_eq_true, Bool.not_eq_true', List.isEmpty_eq_false_iff,
    List.all_eq_true, decide_eq_true_eq, and_assoc]

/-- What comes after a number does not continue it. -/
def Stops (rest : List Char) : Prop :=
  ∀ c ∈ rest.head?, isDigit c = false ∧ c ≠ '.' ∧ c ≠ 'e' ∧ c ≠ 'E'

theorem stops_nil : Stops [] := by
  intro c impossible
  cases impossible

theorem stops_cons {c : Char} (rest : List Char)
    (stop : isDigit c = false ∧ c ≠ '.' ∧ c ≠ 'e' ∧ c ≠ 'E') : Stops (c :: rest) := by
  intro other same
  cases same
  exact stop

theorem isDigit_head {spelling : List Char} (natural : isNatural spelling = true) :
    ∃ c tail, spelling = c :: tail ∧ isDigit c = true := by
  obtain ⟨given, digits, _⟩ := isNatural_iff.mp natural
  obtain ⟨c, tail, rfl⟩ := List.exists_cons_of_ne_nil given
  exact ⟨c, tail, rfl, digits c List.mem_cons_self⟩

theorem digit_ne {c other : Char} (digit : isDigit c = true) (different : isDigit other = false) :
    c ≠ other := by
  rintro rfl
  rw [digit] at different
  cases different

theorem readDigits_natural {spelling rest : List Char} (natural : isNatural spelling = true)
    (stop : Stops rest) : readDigits (spelling ++ rest) = some (spelling, rest) := by
  obtain ⟨given, digits, _⟩ := isNatural_iff.mp natural
  have taken : rest.takeWhile isDigit = [] ∧ rest.dropWhile isDigit = rest := by
    cases rest with
    | nil => exact ⟨rfl, rfl⟩
    | cons c tail =>
        have other := (stop c rfl).1
        rw [List.takeWhile_cons, List.dropWhile_cons, other]
        exact ⟨rfl, rfl⟩
  unfold readDigits
  rw [List.takeWhile_append_of_pos digits, List.dropWhile_append_of_pos digits, taken.1, taken.2,
    List.append_nil]
  split
  next => exact absurd rfl given
  next => rfl

theorem readMagnitude_natural {spelling rest : List Char} (natural : isNatural spelling = true)
    (stop : Stops rest) : readMagnitude (spelling ++ rest) = some (spelling, rest) := by
  obtain ⟨_, _, leading⟩ := isNatural_iff.mp natural
  have fraction : readFraction rest = some ([], rest) := by
    cases rest with
    | nil => rfl
    | cons c tail =>
        have other := (stop c rfl).2.1
        unfold readFraction
        split
        next same =>
          cases same
          exact absurd rfl other
        next => rfl
  have exponent : readExponent rest = some ([], rest) := by
    cases rest with
    | nil => rfl
    | cons c tail =>
        have others := (stop c rfl).2.2
        exact if_neg (not_or.mpr others)
  unfold readMagnitude
  rw [readDigits_natural natural stop]
  change (if spelling.head? = some '0' ∧ spelling.length ≠ 1 then none else _) = _
  rw [if_neg (by tauto), fraction]
  change (readExponent rest).bind _ = _
  rw [exponent]
  change some (spelling ++ [] ++ [], rest) = _
  rw [List.append_nil, List.append_nil]

theorem readScalar_natural {spelling rest : List Char} (natural : isNatural spelling = true)
    (stop : Stops rest) :
    readScalar (spelling ++ rest) = some (.number spelling, rest) := by
  obtain ⟨c, tail, rfl, digit⟩ := isDigit_head natural
  have magnitude := readMagnitude_natural natural stop
  rw [List.cons_append] at magnitude
  have number : readNumber (c :: (tail ++ rest)) = some (c :: tail, rest) := by
    unfold readNumber
    split
    next same =>
      cases same
      exact absurd rfl (digit_ne digit (by decide))
    next => exact magnitude
  unfold readScalar
  rw [List.cons_append]
  split
  next same =>
    cases same
    exact absurd rfl (digit_ne digit (by decide))
  next same =>
    cases same
    exact absurd rfl (digit_ne digit (by decide))
  next same =>
    cases same
    exact absurd rfl (digit_ne digit (by decide))
  next =>
    rw [number]
    rfl

theorem isSpace_digit {c : Char} (digit : isDigit c = true) : isSpace c = false := by
  unfold isDigit at digit
  rw [decide_eq_true_eq] at digit
  have low : 48 ≤ c.toNat := digit.1
  unfold isSpace
  rw [decide_eq_false_iff_not]
  rintro (rfl | other | other | other)
  · exact absurd low (by decide)
  · omega
  · omega
  · omega

theorem write_head {value : Json} (plain : value.spelt = true) :
    ∃ c tail, value.write = c :: tail ∧ isSpace c = false ∧ c ≠ ']' := by
  cases value with
  | null => exact ⟨_, _, rfl, by decide, by decide⟩
  | bool value => cases value <;> exact ⟨_, _, rfl, by decide, by decide⟩
  | number spelling =>
      obtain ⟨c, tail, rfl, digit⟩ := isDigit_head plain
      exact ⟨c, tail, rfl, isSpace_digit digit, digit_ne digit (by decide)⟩
  | string text => exact ⟨_, _, rfl, by decide, by decide⟩
  | array items => exact ⟨_, _, rfl, by decide, by decide⟩
  | object entries => exact ⟨_, _, rfl, by decide, by decide⟩

theorem skipSpace_cons {c : Char} (tail : List Char) (solid : isSpace c = false) :
    skipSpace (c :: tail) = c :: tail := by
  unfold skipSpace
  rw [List.dropWhile_cons, solid]
  rfl

theorem readString_written (text : String) (rest : List Char) :
    readString ((text.toList.flatMap escape ++ quote :: rest).length + 1)
      (text.toList.flatMap escape ++ quote :: rest) = some (text.toList, rest) := by
  apply readString_escape
  have longer (chars : List Char) : chars.length ≤ (chars.flatMap escape).length := by
    induction chars with
    | nil => exact Nat.le_refl _
    | cons c others ih =>
        have nonempty : 1 ≤ (escape c).length := by
          unfold escape
          repeat' split
          all_goals simp
        rw [List.flatMap_cons, List.length_cons, List.length_append]
        omega
  have := longer text.toList
  rw [List.length_append]
  omega

theorem writeString_append (text : String) (rest : List Char) :
    writeString text ++ rest = quote :: (text.toList.flatMap escape ++ quote :: rest) := by
  rw [writeString, List.cons_append, List.cons_append, List.append_assoc]
  rfl

theorem readWord_append (word : String) (value : Json) (rest : List Char) :
    readWord word value (word.toList ++ rest) = some (value, rest) := by
  unfold readWord
  rw [if_pos (List.prefix_append _ _), ← String.length_toList, List.drop_left]

theorem writeItems_head {item : Json} (rest : List Json) (plain : item.spelt = true)
    (after : List Char) :
    ∃ c tail, writeItems (item :: rest) ++ after = c :: tail ∧ isSpace c = false ∧ c ≠ ']' := by
  obtain ⟨c, tail, written, solid, open_⟩ := write_head plain
  cases rest with
  | nil => exact ⟨c, tail ++ after, by rw [writeItems, written]; rfl, solid, open_⟩
  | cons next others =>
      exact ⟨c, _, by rw [writeItems, written, List.append_assoc, List.cons_append], solid, open_⟩

theorem writeEntries_head (entry : String × Json) (rest : List (String × Json))
    (after : List Char) :
    ∃ tail, writeEntries (entry :: rest) ++ after = quote :: tail := by
  obtain ⟨name, value⟩ := entry
  cases rest with
  | nil =>
      exact ⟨_, by rw [writeEntries, List.append_assoc, writeString_append]⟩
  | cons next others =>
      exact ⟨_, by rw [writeEntries, List.append_assoc, writeString_append]⟩

theorem read_array {item : Json} {rest : List Json} {after : List Char} {fuel : Nat}
    (plain : item.spelt = true)
    (items : readItems fuel (writeItems (item :: rest) ++ ']' :: after) =
      some (item :: rest, after)) :
    read (fuel + 1) (Json.write (.array (item :: rest)) ++ after) =
      some (.array (item :: rest), after) := by
  obtain ⟨c, tail, written, solid, open_⟩ := writeItems_head rest plain (']' :: after)
  rw [write, List.cons_append, List.append_assoc, read, skipSpace_cons _ (by decide)]
  dsimp only
  rw [if_neg (by decide), if_pos rfl]
  have body : writeItems (item :: rest) ++ ([']'] ++ after) = c :: tail := written
  rw [written] at items
  rw [body, skipSpace_cons tail solid]
  split
  next closing same =>
    cases same
    exact absurd rfl open_
  next =>
    rw [items]
    rfl

theorem read_object {entry : String × Json} {rest : List (String × Json)} {after : List Char}
    {fuel : Nat}
    (entries : readEntries fuel (writeEntries (entry :: rest) ++ closeBrace :: after) =
      some (entry :: rest, after)) :
    read (fuel + 1) (Json.write (.object (entry :: rest)) ++ after) =
      some (.object (entry :: rest), after) := by
  obtain ⟨tail, written⟩ := writeEntries_head entry rest (closeBrace :: after)
  rw [write, List.cons_append, List.append_assoc, read, skipSpace_cons _ (by decide)]
  dsimp only
  rw [if_neg (by decide), if_neg (by decide), if_pos rfl]
  have body : writeEntries (entry :: rest) ++ ([closeBrace] ++ after) = quote :: tail := written
  rw [written] at entries
  rw [body, skipSpace_cons tail (by decide)]
  dsimp only
  rw [if_neg (by decide), entries]
  rfl

section Entries

variable {name : String} {value : Json} {fuel : Nat} {rest : List Char}

theorem readEntries_name (tail : List Char) :
    readEntries (fuel + 1) (writeString name ++ ':' :: tail) =
      match read fuel tail with
      | none => none
      | some (value, rest) =>
          match skipSpace rest with
          | [] => none
          | next :: rest =>
              if next = ',' then
                (readEntries fuel rest).map (fun read => ((name, value) :: read.1, read.2))
              else if next = closeBrace then some ([(name, value)], rest)
              else none := by
  rw [writeString_append, readEntries, skipSpace_cons _ (by decide)]
  dsimp only
  rw [if_pos rfl, readString_written]
  dsimp only
  rw [skipSpace_cons _ (by decide), String.ofList_toList]
  rfl

theorem readEntries_last
    (read_ : read fuel (value.write ++ closeBrace :: rest) = some (value, closeBrace :: rest)) :
    readEntries (fuel + 1) (writeString name ++ ':' :: (value.write ++ closeBrace :: rest)) =
      some ([(name, value)], rest) := by
  rw [readEntries_name, read_]
  rfl

theorem readEntries_more {entries : List (String × Json)} {tail : List Char}
    (read_ : read fuel (value.write ++ ',' :: tail) = some (value, ',' :: tail))
    (remainder : readEntries fuel tail = some (entries, rest)) :
    readEntries (fuel + 1) (writeString name ++ ':' :: (value.write ++ ',' :: tail)) =
      some ((name, value) :: entries, rest) := by
  rw [readEntries_name, read_]
  dsimp only
  rw [skipSpace_cons _ (by decide)]
  dsimp only
  rw [if_pos rfl, remainder]
  rfl

end Entries

mutual

theorem read_write : (value : Json) → value.spelt = true → (fuel : Nat) → (rest : List Char) →
    Stops rest → 2 * value.write.length ≤ fuel →
      read fuel (value.write ++ rest) = some (value, rest)
  | .null, _, fuel, rest, _, enough => by
      obtain ⟨remaining, rfl⟩ : ∃ remaining, fuel = remaining + 1 :=
        ⟨fuel - 1, by simp [write] at enough; omega⟩
      exact readWord_append "null" .null rest
  | .bool true, _, fuel, rest, _, enough => by
      obtain ⟨remaining, rfl⟩ : ∃ remaining, fuel = remaining + 1 :=
        ⟨fuel - 1, by simp [write] at enough; omega⟩
      exact readWord_append "true" (.bool true) rest
  | .bool false, _, fuel, rest, _, enough => by
      obtain ⟨remaining, rfl⟩ : ∃ remaining, fuel = remaining + 1 :=
        ⟨fuel - 1, by simp [write] at enough; omega⟩
      exact readWord_append "false" (.bool false) rest
  | .number spelling, natural, fuel, rest, stop, enough => by
      obtain ⟨c, tail, same, digit⟩ := isDigit_head natural
      obtain ⟨remaining, rfl⟩ : ∃ remaining, fuel = remaining + 1 :=
        ⟨fuel - 1, by simp [write, same] at enough; omega⟩
      have scalar := readScalar_natural natural stop
      rw [write]
      subst same
      rw [List.cons_append] at scalar ⊢
      rw [read, skipSpace_cons _ (isSpace_digit digit)]
      dsimp only
      rw [if_neg (digit_ne digit (by decide)), if_neg (digit_ne digit (by decide)),
        if_neg (digit_ne digit (by decide)), scalar]
  | .string text, _, fuel, rest, _, enough => by
      obtain ⟨remaining, rfl⟩ : ∃ remaining, fuel = remaining + 1 :=
        ⟨fuel - 1, by simp [write, writeString] at enough; omega⟩
      rw [write, writeString_append, read, skipSpace_cons _ (by decide)]
      dsimp only
      rw [if_pos rfl, readString_written]
      simp
  | .array [], _, fuel, rest, _, enough => by
      obtain ⟨remaining, rfl⟩ : ∃ remaining, fuel = remaining + 1 :=
        ⟨fuel - 1, by simp [write] at enough; omega⟩
      rfl
  | .array (item :: items), plain, fuel, rest, _, enough => by
      have parts := Bool.and_eq_true_iff.mp plain
      rw [write, List.length_cons, List.length_append, List.length_singleton] at enough
      obtain ⟨remaining, rfl⟩ : ∃ remaining, fuel = remaining + 1 := ⟨fuel - 1, by omega⟩
      exact read_array parts.1
        (readItems_write item items parts.1 parts.2 remaining rest (by omega))
  | .object [], _, fuel, rest, _, enough => by
      obtain ⟨remaining, rfl⟩ : ∃ remaining, fuel = remaining + 1 :=
        ⟨fuel - 1, by simp [write] at enough; omega⟩
      rfl
  | .object (entry :: entries), plain, fuel, rest, _, enough => by
      have parts := Bool.and_eq_true_iff.mp plain
      rw [write, List.length_cons, List.length_append, List.length_singleton] at enough
      obtain ⟨remaining, rfl⟩ : ∃ remaining, fuel = remaining + 1 := ⟨fuel - 1, by omega⟩
      exact read_object
        (readEntries_write entry entries parts.1 parts.2 remaining rest (by omega))

theorem readItems_write : (item : Json) → (items : List Json) → item.spelt = true →
    speltItems items = true → (fuel : Nat) → (rest : List Char) →
    2 * (writeItems (item :: items)).length + 1 ≤ fuel →
    readItems fuel (writeItems (item :: items) ++ ']' :: rest) = some (item :: items, rest)
  | item, [], plain, _, fuel, rest, enough => by
      obtain ⟨remaining, rfl⟩ : ∃ remaining, fuel = remaining + 1 := ⟨fuel - 1, by omega⟩
      have one := read_write item plain remaining (']' :: rest) (stops_cons rest (by decide))
        (by rw [writeItems] at enough; omega)
      rw [writeItems, readItems, one]
      rfl
  | item, next :: more, plain, others, fuel, rest, enough => by
      have parts := Bool.and_eq_true_iff.mp others
      obtain ⟨remaining, rfl⟩ : ∃ remaining, fuel = remaining + 1 := ⟨fuel - 1, by omega⟩
      rw [writeItems, List.length_append, List.length_cons] at enough
      have one :=
        read_write item plain remaining (',' :: (writeItems (next :: more) ++ ']' :: rest))
        (stops_cons _ (by decide)) (by omega)
      have remainder := readItems_write next more parts.1 parts.2 remaining rest (by omega)
      rw [writeItems, List.append_assoc, List.cons_append, readItems, one]
      change (readItems remaining (writeItems (next :: more) ++ ']' :: rest)).map
        (fun read => (item :: read.1, read.2)) = _
      rw [remainder]
      rfl

theorem readEntries_write : (entry : String × Json) → (entries : List (String × Json)) →
    entry.2.spelt = true → speltEntries entries = true → (fuel : Nat) → (rest : List Char) →
    2 * (writeEntries (entry :: entries)).length + 1 ≤ fuel →
    readEntries fuel (writeEntries (entry :: entries) ++ closeBrace :: rest) =
      some (entry :: entries, rest)
  | (name, value), [], plain, _, fuel, rest, enough => by
      obtain ⟨remaining, rfl⟩ : ∃ remaining, fuel = remaining + 1 := ⟨fuel - 1, by omega⟩
      rw [writeEntries, List.length_append, List.length_cons] at enough
      have one := read_write value plain remaining (closeBrace :: rest)
        (stops_cons rest (by decide)) (by omega)
      rw [writeEntries, List.append_assoc, List.cons_append]
      exact readEntries_last one
  | (name, value), next :: more, plain, others, fuel, rest, enough => by
      have parts := Bool.and_eq_true_iff.mp others
      obtain ⟨remaining, rfl⟩ : ∃ remaining, fuel = remaining + 1 := ⟨fuel - 1, by omega⟩
      rw [writeEntries, List.length_append, List.length_cons, List.length_append,
        List.length_cons] at enough
      have one := read_write value plain remaining
        (',' :: (writeEntries (next :: more) ++ closeBrace :: rest)) (stops_cons _ (by decide))
        (by omega)
      have remainder := readEntries_write next more parts.1 parts.2 remaining rest (by omega)
      rw [writeEntries, List.append_assoc, List.cons_append, List.append_assoc, List.cons_append]
      exact readEntries_more one remainder

end

/-- A value that was written is read back from its text. -/
theorem parse_stringify {value : Json} (plain : value.spelt = true) :
    parse (stringify value) = some value := by
  have whole := read_write value plain (2 * value.write.length + 2) [] stops_nil (by omega)
  rw [List.append_nil] at whole
  unfold parse stringify
  rw [String.toList_ofList, whole]
  rfl

theorem parse_stringify_object {entries : List (String × Json)}
    (plain : speltEntries entries = true) :
    parse (stringify (.object entries)) = some (.object entries) :=
  parse_stringify (show (Json.object entries).spelt = true from plain)

theorem stringify_ne_empty {value : Json} (plain : value.spelt = true) :
    stringify value ≠ "" := by
  intro empty
  obtain ⟨c, tail, written, _⟩ := write_head plain
  have text := congrArg String.toList empty
  unfold stringify at text
  rw [String.toList_ofList, written] at text
  cases text

theorem stringify_injective {left right : Json} (leftPlain : left.spelt = true)
    (rightPlain : right.spelt = true) (same : stringify left = stringify right) :
    left = right := by
  have read := congrArg parse same
  rw [parse_stringify leftPlain, parse_stringify rightPlain] at read
  exact Option.some.inj read

/-! ### Parts of a value -/

/-- The last entry of a name counts. -/
def property (value : Json) (name : String) : Option Json :=
  match value with
  | .object entries => entries.reverse.lookup name
  | _ => none

def text? : Json → Option String
  | .string text => some text
  | _ => none

def natural (number : Nat) : Json := .number (Nat.toDigits 10 number)

/-- A natural number that is spelt as it is written. -/
def nat? : Json → Option Nat
  | .number spelling =>
      if isNatural spelling = true then some (Nat.ofDigitChars 10 spelling 0) else none
  | _ => none

mutual

/-- `String(value)`. -/
def display : Json → String
  | .null => "null"
  | .bool true => "true"
  | .bool false => "false"
  | .number spelling => String.ofList spelling
  | .string text => text
  | .array items => displayItems items
  | .object _ => "[object Object]"

def displayItems : List Json → String
  | [] => ""
  | item :: rest =>
      (match item with
      | .null => ""
      | _ => display item) ++
        match rest with
        | [] => ""
        | _ => "," ++ displayItems rest

end

@[simp] theorem text?_string (text : String) : (Json.string text).text? = some text := rfl

theorem isNatural_toDigits (number : Nat) : isNatural (Nat.toDigits 10 number) = true := by
  rw [isNatural_iff]
  refine ⟨Nat.toDigits_ne_nil, ?_, ?_⟩
  · intro c member
    have range := DecimalText.isDigit_range
      (Nat.isDigit_of_mem_toDigits (by decide) (by decide) member)
    unfold isDigit
    rw [decide_eq_true_eq]
    exact range
  · rcases DecimalText.toDigits_leading number with zero | other
    · right
      rw [zero]
      rfl
    · exact Or.inl other

@[simp] theorem natural_spelt (number : Nat) : (natural number).spelt = true :=
  isNatural_toDigits number

@[simp] theorem nat?_natural (number : Nat) : (natural number).nat? = some number := by
  unfold natural
  refine (if_pos (isNatural_toDigits number)).trans ?_
  rw [Nat.ofDigitChars_ten_toDigits]

theorem speltItems_map {α : Type*} (write : α → Json) (items : List α)
    (plain : ∀ item ∈ items, (write item).spelt = true) :
    speltItems (items.map write) = true := by
  induction items with
  | nil => rfl
  | cons item rest ih =>
      rw [List.map_cons, speltItems, plain item List.mem_cons_self,
        ih (fun other member => plain other (List.mem_cons_of_mem item member))]
      rfl

theorem speltEntries_map {α : Type*} (write : α → String × Json) (items : List α)
    (plain : ∀ item ∈ items, (write item).2.spelt = true) :
    speltEntries (items.map write) = true := by
  induction items with
  | nil => rfl
  | cons item rest ih =>
      rw [List.map_cons]
      have first := plain item List.mem_cons_self
      cases written : write item with
      | mk name value =>
          rw [written] at first
          rw [speltEntries, first,
            ih (fun other member => plain other (List.mem_cons_of_mem item member))]
          rfl

theorem mapM_read {α : Type*} {write : α → Json} {read : Json → Option α} {items : List α}
    (back : ∀ item ∈ items, read (write item) = some item) :
    (items.map write).mapM read = some items := by
  induction items with
  | nil => rfl
  | cons item rest ih =>
      rw [List.map_cons, List.mapM_cons, back item List.mem_cons_self,
        ih (fun other member => back other (List.mem_cons_of_mem item member))]
      rfl

end Json

end Nido
