/-
Bytes and their hexadecimal text.

Text from storage or from a page may be anything, and reading it never fails:
what cannot be read counts as zero.
-/

import Nido.Soroban.Host

namespace Nido.Sdk

def isWhiteSpace (c : Char) : Bool :=
  decide (c.toNat ∈ [0x09, 0x0a, 0x0b, 0x0c, 0x0d, 0x20, 0xa0, 0x1680, 0x2028, 0x2029, 0x202f,
    0x205f, 0x3000, 0xfeff]) || decide (0x2000 ≤ c.toNat ∧ c.toNat ≤ 0x200a)

def trim (text : String) : String :=
  String.ofList
    ((text.toList.dropWhile isWhiteSpace).reverse.dropWhile isWhiteSpace).reverse

def digitValue (c : Char) : Option Nat :=
  if '0' ≤ c ∧ c ≤ '9' then some (c.toNat - '0'.toNat)
  else if 'a' ≤ c ∧ c ≤ 'z' then some (c.toNat - 'a'.toNat + 10)
  else if 'A' ≤ c ∧ c ≤ 'Z' then some (c.toNat - 'A'.toNat + 10)
  else none

def readDigit (radix : Nat) (c : Char) : Option Nat :=
  (digitValue c).filter (fun value => decide (value < radix))

/-- `parseInt` of two characters in base 16, stored in a byte: blanks and a sign
may come first, and what cannot be read counts as zero. -/
def hexPair (high low : Char) : UInt8 :=
  let lowDigit := ((readDigit 16 low).getD 0).toUInt8
  match readDigit 16 high with
  | some value =>
      match readDigit 16 low with
      | some _ => value.toUInt8 * 16 + lowDigit
      | none => value.toUInt8
  | none =>
      if high = '-' then 0 - lowDigit
      else if high = '+' ∨ isWhiteSpace high = true then lowDigit
      else 0

def hexBytes : List Char → Bytes
  | high :: low :: rest => hexPair high low :: hexBytes rest
  | _ => []

def hex2buf (hex : String) : Bytes := hexBytes hex.toList

def buf2hex (buffer : Bytes) : String :=
  String.ofList
    (buffer.flatMap (fun byte => [(byte.toNat / 16).digitChar, (byte.toNat % 16).digitChar]))

theorem readDigit_digitChar : ∀ digit < 16, readDigit 16 digit.digitChar = some digit := by
  decide

theorem hexPair_digitChar (byte : UInt8) :
    hexPair (byte.toNat / 16).digitChar (byte.toNat % 16).digitChar = byte := by
  have small := byte.toNat_lt
  have high := readDigit_digitChar (byte.toNat / 16) (by omega)
  have low := readDigit_digitChar (byte.toNat % 16) (by omega)
  simp only [hexPair, high, low, Option.getD_some]
  apply UInt8.toNat.inj
  change (UInt8.ofNat (byte.toNat / 16) * 16 + UInt8.ofNat (byte.toNat % 16)).toNat = byte.toNat
  rw [UInt8.toNat_add, UInt8.toNat_mul, UInt8.toNat_ofNat', UInt8.toNat_ofNat']
  change (byte.toNat / 16 % 256 * 16 % 256 + byte.toNat % 16 % 256) % 256 = byte.toNat
  omega

theorem hex2buf_buf2hex (buffer : Bytes) : hex2buf (buf2hex buffer) = buffer := by
  unfold hex2buf buf2hex
  rw [String.toList_ofList]
  induction buffer with
  | nil => rfl
  | cons byte rest ih =>
      rw [List.flatMap_cons, List.cons_append, List.cons_append, List.nil_append, hexBytes,
        hexPair_digitChar, ih]

example : hex2buf "04fF" = [0x04, 0xff] := by decide

example : buf2hex [0x04, 0xff] = "04ff" := by decide

end Nido.Sdk
