/-
UTF-8.

Bytes are decoded without ever failing: what is no character becomes the replacement
character, and a byte order mark in front is dropped. An encoded text comes back.
-/

import Mathlib.Data.List.Basic

namespace Utf8

def encode (text : String) : List UInt8 := text.toList.flatMap String.utf8EncodeChar

/-- A character whose first bytes were read: their value, how many are missing, and what
the next one may be. -/
structure Pending where
  code : Nat
  missing : Nat
  lower : Nat
  upper : Nat

inductive First
  | char (c : Char)
  | more (pending : Pending)

def replacement : Char := Char.ofNat 0xfffd

def first (byte : Nat) : First :=
  if byte ≤ 0x7f then .char (Char.ofNat byte)
  else if 0xc2 ≤ byte ∧ byte ≤ 0xdf then .more ⟨byte % 0x20, 1, 0x80, 0xbf⟩
  else if 0xe0 ≤ byte ∧ byte ≤ 0xef then
    .more ⟨byte % 0x10, 2, if byte = 0xe0 then 0xa0 else 0x80, if byte = 0xed then 0x9f else 0xbf⟩
  else if 0xf0 ≤ byte ∧ byte ≤ 0xf4 then
    .more ⟨byte % 0x08, 3, if byte = 0xf0 then 0x90 else 0x80, if byte = 0xf4 then 0x8f else 0xbf⟩
  else .char replacement

/-- A byte that does not continue a character starts the next one. -/
def decodeFrom : Option Pending → List UInt8 → List Char
  | none, [] => []
  | some _, [] => [replacement]
  | none, byte :: rest =>
      match first byte.toNat with
      | .char c => c :: decodeFrom none rest
      | .more pending => decodeFrom (some pending) rest
  | some pending, byte :: rest =>
      if pending.lower ≤ byte.toNat ∧ byte.toNat ≤ pending.upper then
        let code := pending.code * 0x40 + byte.toNat % 0x40
        if pending.missing = 1 then
          Char.ofNat code :: decodeFrom none rest
        else
          decodeFrom (some ⟨code, pending.missing - 1, 0x80, 0xbf⟩) rest
      else
        replacement ::
          match first byte.toNat with
          | .char c => c :: decodeFrom none rest
          | .more next => decodeFrom (some next) rest

def decode (bytes : List UInt8) : String :=
  String.ofList (decodeFrom none
    (if [0xef, 0xbb, 0xbf] <+: bytes then bytes.drop 3 else bytes))

theorem ofNat_toNat {byte : Nat} (small : byte < 256) : (UInt8.ofNat byte).toNat = byte := by
  rw [UInt8.toNat_ofNat']
  exact Nat.mod_eq_of_lt small

theorem decodeFrom_more {pending : Pending} {byte : Nat} (rest : List UInt8)
    (small : byte < 256) (within : pending.lower ≤ byte ∧ byte ≤ pending.upper)
    (other : pending.missing ≠ 1) :
    decodeFrom (some pending) (UInt8.ofNat byte :: rest) =
      decodeFrom (some ⟨pending.code * 0x40 + byte % 0x40, pending.missing - 1, 0x80, 0xbf⟩)
        rest := by
  rw [decodeFrom, ofNat_toNat small, if_pos within]
  exact if_neg other

theorem decodeFrom_last {pending : Pending} {byte : Nat} (rest : List UInt8)
    (small : byte < 256) (within : pending.lower ≤ byte ∧ byte ≤ pending.upper)
    (last : pending.missing = 1) :
    decodeFrom (some pending) (UInt8.ofNat byte :: rest) =
      Char.ofNat (pending.code * 0x40 + byte % 0x40) :: decodeFrom none rest := by
  rw [decodeFrom, ofNat_toNat small, if_pos within]
  exact if_pos last

theorem decodeFrom_first {byte : Nat} (rest : List UInt8) (small : byte < 256) :
    decodeFrom none (UInt8.ofNat byte :: rest) =
      match first byte with
      | .char c => c :: decodeFrom none rest
      | .more pending => decodeFrom (some pending) rest := by
  rw [decodeFrom, ofNat_toNat small]

theorem char_ranges (c : Char) : c.val.toNat < 0xd800 ∨
    (0xe000 ≤ c.val.toNat ∧ c.val.toNat < 0x110000) := by
  rcases c.valid with low | ⟨above, below⟩
  · exact Or.inl low
  · exact Or.inr ⟨above, below⟩

theorem decodeFrom_encodeChar (c : Char) (rest : List UInt8) :
    decodeFrom none (String.utf8EncodeChar c ++ rest) = c :: decodeFrom none rest := by
  have ranges := char_ranges c
  have same : Char.ofNat c.val.toNat = c := Char.ofNat_toNat c
  unfold String.utf8EncodeChar
  dsimp only
  generalize c.val.toNat = v at ranges same
  by_cases one : v ≤ 0x7f
  · rw [if_pos one, List.cons_append, List.nil_append, decodeFrom_first rest (by omega)]
    unfold first
    rw [if_pos one, same]
  by_cases two : v ≤ 0x7ff
  · rw [if_neg one, if_pos two, List.cons_append, List.cons_append, List.nil_append,
      decodeFrom_first _ (by omega)]
    unfold first
    rw [if_neg (by omega), if_pos (by omega)]
    dsimp only
    rw [decodeFrom_last rest (by omega) ⟨by dsimp only; omega, by dsimp only; omega⟩ rfl]
    dsimp only
    have code : (v / 64 % 0x20 + 0xc0) % 0x20 * 0x40 + (v % 0x40 + 0x80) % 0x40 = v := by omega
    rw [code, same]
  by_cases three : v ≤ 0xffff
  · rw [if_neg one, if_neg two, if_pos three, List.cons_append, List.cons_append,
      List.cons_append, List.nil_append, decodeFrom_first _ (by omega)]
    unfold first
    rw [if_neg (by omega), if_neg (by omega), if_pos (by omega)]
    dsimp only
    rw [decodeFrom_more _ (by omega)
        ⟨by dsimp only; split <;> omega, by dsimp only; split <;> omega⟩ (by dsimp only; decide),
      decodeFrom_last rest (by omega) ⟨by dsimp only; omega, by dsimp only; omega⟩ rfl]
    dsimp only
    have code : ((v / 4096 % 0x10 + 0xe0) % 0x10 * 0x40 + (v / 64 % 0x40 + 0x80) % 0x40) * 0x40 +
        (v % 0x40 + 0x80) % 0x40 = v := by omega
    rw [code, same]
  · rw [if_neg one, if_neg two, if_neg three, List.cons_append, List.cons_append,
      List.cons_append, List.cons_append, List.nil_append, decodeFrom_first _ (by omega)]
    unfold first
    rw [if_neg (by omega), if_neg (by omega), if_neg (by omega), if_pos (by omega)]
    dsimp only
    rw [decodeFrom_more _ (by omega)
        ⟨by dsimp only; split <;> omega, by dsimp only; split <;> omega⟩ (by dsimp only; decide),
      decodeFrom_more _ (by omega) ⟨by dsimp only; omega, by dsimp only; omega⟩
        (by dsimp only; decide),
      decodeFrom_last rest (by omega) ⟨by dsimp only; omega, by dsimp only; omega⟩ rfl]
    dsimp only
    have code : (((v / 262144 % 0x08 + 0xf0) % 0x08 * 0x40 + (v / 4096 % 0x40 + 0x80) % 0x40) *
        0x40 + (v / 64 % 0x40 + 0x80) % 0x40) * 0x40 + (v % 0x40 + 0x80) % 0x40 = v := by omega
    rw [code, same]

theorem decodeFrom_encode (chars : List Char) :
    decodeFrom none (chars.flatMap String.utf8EncodeChar) = chars := by
  induction chars with
  | nil => rfl
  | cons c rest ih => rw [List.flatMap_cons, decodeFrom_encodeChar, ih]

/-- The byte order mark. -/
def mark : Char := Char.ofNat 0xfeff

theorem encode_mark (chars : List Char) :
    encode (String.ofList (mark :: chars)) =
      [0xef, 0xbb, 0xbf] ++ chars.flatMap String.utf8EncodeChar := by
  unfold encode
  rw [String.toList_ofList]
  rfl

theorem decode_encode {text : String} (plain : text.toList.head? ≠ some mark) :
    decode (encode text) = text := by
  have unmarked : ¬ [0xef, 0xbb, 0xbf] <+: encode text := by
    rintro ⟨rest, same⟩
    have decoded := decodeFrom_encode text.toList
    have marked : decodeFrom none (([0xef, 0xbb, 0xbf] : List UInt8) ++ rest) =
        mark :: decodeFrom none rest := rfl
    rw [← encode, ← same, marked] at decoded
    rw [← decoded] at plain
    exact plain rfl
  unfold decode
  rw [if_neg unmarked, encode, decodeFrom_encode, String.ofList_toList]

theorem decode_encode_mark (chars : List Char) :
    decode (encode (String.ofList (mark :: chars))) = String.ofList chars := by
  unfold decode
  rw [encode_mark, if_pos (List.prefix_append _ _)]
  exact congrArg String.ofList (decodeFrom_encode chars)

/-- A text is read from its own bytes and from those of the marked text only. -/
theorem decode_encode_eq_iff {text other : String} (plain : other.toList.head? ≠ some mark) :
    decode (encode text) = other ↔
      text = other ∨ text = String.ofList (mark :: other.toList) := by
  constructor
  · intro read
    by_cases marked : text.toList.head? = some mark
    · obtain ⟨chars, spelt⟩ : ∃ chars, text.toList = mark :: chars := by
        cases shape : text.toList with
        | nil =>
            rw [shape] at marked
            cases marked
        | cons c chars =>
            rw [shape] at marked
            cases marked
            exact ⟨chars, rfl⟩
      have same : text = String.ofList (mark :: chars) := by
        rw [← spelt, String.ofList_toList]
      rw [same, decode_encode_mark] at read
      rw [same, ← read, String.toList_ofList]
      exact Or.inr rfl
    · rw [decode_encode marked] at read
      exact Or.inl read
  · rintro (rfl | rfl)
    · exact decode_encode plain
    · rw [decode_encode_mark, String.ofList_toList]

end Utf8
