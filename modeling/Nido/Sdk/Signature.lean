/-
A passkey's signature in the form that the chain verifies.

An authenticator encodes the two scalars as signed integers of variable length.
The compact form has both in 32 bytes, and of the two values of the second scalar
that verify it takes the smaller. The comparison goes through hexadecimal text.
-/

import Nido.Library.BigEndian
import Nido.Sdk.AuthHash
import Nido.Sdk.Encoding

namespace Nido.Sdk

def p256N : Nat := 0xffffffff00000000ffffffffffffffffbce6faada7179e84f3b9cac2fc632551

def p256NHalf : Nat := p256N / 2

/-! ### Numbers as text -/

/-- `BigInt("0x" + hex)`. -/
def hexToBigInt (hex : List Char) : Js Nat :=
  let number : Option Nat :=
    match hex with
    | [] => none
    | digits => digits.foldlM (fun total c => (readDigit 16 c).map (total * 16 + ·)) 0
  match number with
  | some value => .ok value
  | none => .error "Cannot convert to a BigInt"

def padStart (width : Nat) (text : List Char) : List Char :=
  List.replicate (width - text.length) '0' ++ text

def bufToBigInt (buf : Bytes) : Js Nat := hexToBigInt (buf2hex buf).toList

/-- `n.toString(16)`: a sign in front of the digits. -/
def bigIntHex (n : Int) : List Char :=
  if n < 0 then '-' :: Nat.toDigits 16 n.natAbs else Nat.toDigits 16 n.natAbs

def bigIntToBuf32 (n : Int) : Bytes := hexBytes ((padStart 64 (bigIntHex n)).take 64)

/-! ### From DER to the compact form -/

def padOrTrimTo32 (raw : Bytes) : Bytes :=
  if raw.length ≤ 32 then List.replicate (32 - raw.length) 0 ++ raw
  else raw.drop (raw.length - 32)

/-- The integer at an offset and the offset after it; a missing length reads as
nothing, and no offset follows it. -/
def integerAt (der : Bytes) (offset : Nat) : Bytes × Option Nat :=
  match der[offset + 1]? with
  | some length =>
      ((der.drop (offset + 2)).take length.toNat, some (offset + 2 + length.toNat))
  | none => ([], none)

def derToCompact (derSignature : Bytes) : Js Bytes := do
  if derSignature[0]? ≠ some 0x30 then
    .error "Invalid DER signature"
  else if derSignature[2]? ≠ some 0x02 then
    .error "Expected INTEGER tag for r"
  else
    let (rRaw, after) := integerAt derSignature 2
    match after with
    | none => .error "Expected INTEGER tag for s"
    | some offset =>
        if derSignature[offset]? ≠ some 0x02 then
          .error "Expected INTEGER tag for s"
        else
          let (sRaw, _) := integerAt derSignature offset
          let r := padOrTrimTo32 rRaw
          let s := padOrTrimTo32 sRaw
          let sBigInt ← bufToBigInt s
          if sBigInt > p256NHalf then
            pure (r ++ bigIntToBuf32 ((p256N : Int) - sBigInt))
          else
            pure (r ++ s)

/-! ### The encoding -/

/-- The least number of bytes that leaves room for a sign bit. -/
def derWidth (number : Nat) : Nat := (number.log2 + 1) / 8 + 1

/-- A positive integer in two's complement, as short as possible. -/
def derInteger (number : Nat) : Bytes :=
  0x02 :: UInt8.ofNat (derWidth number) :: BigEndian.encode (derWidth number) number

def derSequence (r s : Nat) : Bytes :=
  let content := derInteger r ++ derInteger s
  0x30 :: UInt8.ofNat content.length :: content

/-- The sign bit is clear, and one byte less would not do. -/
theorem derWidth_minimal {number : Nat} (positive : 0 < number) :
    number < 2 ^ (8 * derWidth number - 1) ∧
      (derWidth number = 1 ∨ 2 ^ (8 * (derWidth number - 1) - 1) ≤ number) := by
  have nonzero : number ≠ 0 := Nat.ne_of_gt positive
  have above := Nat.lt_log2_self (n := number)
  have below := Nat.log2_self_le nonzero
  unfold derWidth
  constructor
  · apply Nat.lt_of_lt_of_le above
    apply Nat.pow_le_pow_right (by decide)
    omega
  · by_cases single : (number.log2 + 1) / 8 = 0
    · left
      omega
    · right
      apply Nat.le_trans _ below
      apply Nat.pow_le_pow_right (by decide)
      omega

theorem derWidth_fits {number : Nat} (positive : 0 < number) :
    number < 256 ^ derWidth number := by
  apply Nat.lt_of_lt_of_le (derWidth_minimal positive).1
  have base : 256 = 2 ^ 8 := rfl
  rw [base, ← Nat.pow_mul]
  exact Nat.pow_le_pow_right (by decide) (Nat.sub_le _ _)

theorem derWidth_le {number : Nat} (small : number < p256N) : derWidth number ≤ 33 := by
  unfold derWidth
  by_cases zero : number = 0
  · subst zero
    decide
  · have bits : number.log2 < 256 :=
      (Nat.log2_lt zero).mpr (Nat.lt_trans small (by decide))
    omega

/-! ### Hexadecimal digits of a fixed number of places -/

def hexDigits : (places number : Nat) → List Char
  | 0, _ => []
  | places + 1, number => (number / 16 ^ places % 16).digitChar :: hexDigits places number

theorem hexDigits_length (places number : Nat) : (hexDigits places number).length = places := by
  induction places with
  | zero => rfl
  | succ places ih => rw [hexDigits, List.length_cons, ih]

theorem hexDigits_zero (places : Nat) : hexDigits places 0 = List.replicate places '0' := by
  induction places with
  | zero => rfl
  | succ places ih =>
      rw [hexDigits, ih, Nat.zero_div]
      rfl

theorem hexDigits_snoc (places number : Nat) :
    hexDigits (places + 1) number =
      hexDigits places (number / 16) ++ [(number % 16).digitChar] := by
  induction places with
  | zero => rw [hexDigits, hexDigits, hexDigits, Nat.pow_zero, Nat.div_one, List.nil_append]
  | succ places ih =>
      rw [hexDigits, ih, hexDigits, List.cons_append, Nat.div_div_eq_div_mul, Nat.pow_succ,
        Nat.mul_comm 16]

theorem padStart_toDigits (places number : Nat) (fits : number < 16 ^ (places + 1)) :
    padStart (places + 1) (Nat.toDigits 16 number) = hexDigits (places + 1) number := by
  induction places generalizing number with
  | zero =>
      have small : number < 16 := by omega
      rw [Nat.toDigits_of_lt_base small, hexDigits_snoc, Nat.mod_eq_of_lt small]
      rfl
  | succ places ih =>
      rw [hexDigits_snoc]
      by_cases small : number < 16
      · rw [Nat.toDigits_of_lt_base small, Nat.div_eq_of_lt small, Nat.mod_eq_of_lt small,
          hexDigits_zero]
        rfl
      · have quotient : number / 16 < 16 ^ (places + 1) := by
          apply Nat.div_lt_of_lt_mul
          rw [Nat.mul_comm, ← Nat.pow_succ]
          exact fits
        rw [← ih _ quotient, Nat.toDigits_of_base_le (by decide) (Nat.le_of_not_lt small)]
        unfold padStart
        rw [List.length_append, List.length_singleton, Nat.add_sub_add_right, List.append_assoc]

theorem hexBytes_hexDigits (width number : Nat) :
    hexBytes (hexDigits (2 * width) number) = BigEndian.encode width number := by
  induction width with
  | zero => rfl
  | succ width ih =>
      have twice : 2 * (width + 1) = 2 * width + 1 + 1 := rfl
      have squares : 256 ^ width = 16 ^ (2 * width) := by
        rw [Nat.pow_mul]
      have byte : (UInt8.ofNat (number / 256 ^ width % 256)).toNat =
          number / 256 ^ width % 256 :=
        Nat.mod_eq_of_lt (Nat.mod_lt _ (by decide))
      have pair := hexPair_digitChar (UInt8.ofNat (number / 256 ^ width % 256))
      have high : number / 256 ^ width % 256 / 16 = number / 16 ^ (2 * width + 1) % 16 := by
        rw [squares, Nat.pow_succ, ← Nat.div_div_eq_div_mul]
        omega
      have low : number / 256 ^ width % 256 % 16 = number / 16 ^ (2 * width) % 16 := by
        rw [squares]
        omega
      rw [byte, high, low] at pair
      rw [twice, hexDigits, hexDigits, hexBytes, ih, pair, BigEndian.encode]

theorem bigIntToBuf32_eq {number : Nat} (fits : number < 256 ^ 32) :
    bigIntToBuf32 number = BigEndian.encode 32 number := by
  unfold bigIntToBuf32 bigIntHex
  rw [if_neg (Int.not_lt.mpr (Int.natCast_nonneg number)), Int.natAbs_natCast,
    padStart_toDigits 63 number (Nat.lt_of_lt_of_eq fits (by decide)),
    List.take_of_length_le (Nat.le_of_eq (hexDigits_length 64 number))]
  exact hexBytes_hexDigits 32 number

theorem bufToBigInt_eq {buf : Bytes} (nonempty : buf ≠ []) :
    bufToBigInt buf = .ok (BigEndian.value buf) := by
  have reads (bytes : Bytes) (start : Nat) :
      (bytes.flatMap (fun byte =>
        [(byte.toNat / 16).digitChar, (byte.toNat % 16).digitChar])).foldlM
          (fun total c => (readDigit 16 c).map (total * 16 + ·)) start =
        some (bytes.foldl (fun total byte => total * 256 + byte.toNat) start) := by
    induction bytes generalizing start with
    | nil => rfl
    | cons byte rest ih =>
        have high := readDigit_digitChar (byte.toNat / 16) (by have := byte.toNat_lt; omega)
        have low := readDigit_digitChar (byte.toNat % 16) (Nat.mod_lt _ (by decide))
        rw [List.flatMap_cons, List.cons_append, List.cons_append, List.nil_append,
          List.foldlM_cons, high]
        simp only [Option.map_some, Option.bind_eq_bind, Option.bind_some]
        rw [List.foldlM_cons, low]
        simp only [Option.map_some, Option.bind_eq_bind, Option.bind_some]
        rw [ih, List.foldl_cons]
        congr 2
        omega
  cases buf with
  | nil => exact absurd rfl nonempty
  | cons byte rest =>
      have number := reads (byte :: rest) 0
      rw [BigEndian.foldl_value, Nat.zero_mul, Nat.zero_add] at number
      unfold bufToBigInt hexToBigInt buf2hex
      rw [String.toList_ofList, List.flatMap_cons, List.cons_append] at *
      dsimp only
      rw [number]

/-! ### Both scalars -/

theorem padOrTrimTo32_encode {width number : Nat} (small : width ≤ 33)
    (fits : number < 256 ^ width) (bounded : number < 256 ^ 32) :
    padOrTrimTo32 (BigEndian.encode width number) = BigEndian.encode 32 number := by
  unfold padOrTrimTo32
  rw [BigEndian.encode_length]
  by_cases short : width ≤ 32
  · rw [if_pos short]
    apply BigEndian.value_injective
    · rw [List.length_append, List.length_replicate, BigEndian.encode_length,
        BigEndian.encode_length]
      omega
    · rw [BigEndian.value_zeros, BigEndian.value_encode _ _ fits,
        BigEndian.value_encode _ _ bounded]
  · have sign : width = 33 := by omega
    subst sign
    rw [if_neg short]
    rfl

variable {before after : Bytes} {number : Nat}

theorem derInteger_length : (derInteger number).length = derWidth number + 2 := by
  rw [derInteger, List.length_cons, List.length_cons, BigEndian.encode_length]

theorem integerAt_tag :
    (before ++ derInteger number ++ after)[before.length]? = some 0x02 := by
  rw [List.append_assoc, List.getElem?_append_right (Nat.le_refl _), Nat.sub_self]
  rfl

theorem integerAt_derInteger (small : number < p256N) :
    integerAt (before ++ derInteger number ++ after) before.length =
      (BigEndian.encode (derWidth number) number,
        some (before ++ derInteger number).length) := by
  have width : (UInt8.ofNat (derWidth number)).toNat = derWidth number :=
    Nat.mod_eq_of_lt (Nat.lt_of_le_of_lt (derWidth_le small) (by decide))
  have length : (before ++ derInteger number ++ after)[before.length + 1]? =
      some (UInt8.ofNat (derWidth number)) := by
    rw [List.append_assoc, List.getElem?_append_right (Nat.le_add_right _ 1),
      Nat.add_sub_cancel_left]
    rfl
  have content : ((before ++ derInteger number ++ after).drop (before.length + 2)).take
      (derWidth number) = BigEndian.encode (derWidth number) number := by
    rw [List.append_assoc, ← List.drop_drop, List.drop_left, derInteger, List.cons_append,
      List.cons_append, List.drop_succ_cons, List.drop_succ_cons, List.drop_zero]
    exact List.take_left' (BigEndian.encode_length _ _)
  unfold integerAt
  rw [length]
  dsimp only
  rw [width, content, List.length_append, derInteger_length]
  congr 2
  omega

theorem lowS_eq {s : Nat} (below : s < p256N) :
    (if s > p256NHalf then p256N - s else s) = min s (p256N - s) := by
  have odd : p256N = 2 * p256NHalf + 1 := by decide
  split
  · omega
  · omega

theorem derToCompact_exact (r s : Nat) (rPositive : 1 ≤ r) (rBelow : r ≤ p256N - 1)
    (sPositive : 1 ≤ s) (sBelow : s ≤ p256N - 1) :
    derToCompact (derSequence r s) =
      .ok (BigEndian.encode 32 r ++ BigEndian.encode 32 (min s (p256N - s))) := by
  have order : p256N < 256 ^ 32 := by decide
  have rSmall : r < p256N := by omega
  have sSmall : s < p256N := by omega
  let head : Bytes := [0x30, UInt8.ofNat (derInteger r ++ derInteger s).length]
  have first : derSequence r s = head ++ derInteger r ++ derInteger s := rfl
  have second : derSequence r s = head ++ derInteger r ++ derInteger s ++ [] :=
    (List.append_nil _).symm
  have rTag : (derSequence r s)[2]? = some 0x02 := by
    rw [first]
    change (head ++ derInteger r ++ derInteger s)[head.length]? = some 0x02
    exact integerAt_tag
  have rRead : integerAt (derSequence r s) 2 =
      (BigEndian.encode (derWidth r) r, some (head ++ derInteger r).length) := by
    rw [first]
    exact integerAt_derInteger rSmall
  have sTag : (derSequence r s)[(head ++ derInteger r).length]? = some 0x02 := by
    rw [second]
    exact integerAt_tag
  have sRead : integerAt (derSequence r s) (head ++ derInteger r).length =
      (BigEndian.encode (derWidth s) s, some (head ++ derInteger r ++ derInteger s).length) := by
    rw [second]
    exact integerAt_derInteger sSmall
  have rBytes := padOrTrimTo32_encode (derWidth_le rSmall) (derWidth_fits rPositive)
    (Nat.lt_trans rSmall order)
  have sBytes := padOrTrimTo32_encode (derWidth_le sSmall) (derWidth_fits sPositive)
    (Nat.lt_trans sSmall order)
  have sValue : bufToBigInt (BigEndian.encode 32 s) = .ok s := by
    rw [bufToBigInt_eq (by intro impossible; cases impossible),
      BigEndian.value_encode _ _ (Nat.lt_trans sSmall order)]
  have lowS := lowS_eq sSmall
  have tag : (derSequence r s)[0]? = some 0x30 := rfl
  unfold derToCompact
  rw [if_neg (not_not.mpr tag), if_neg (not_not.mpr rTag), rRead]
  dsimp only
  rw [if_neg (not_not.mpr sTag), sRead]
  dsimp only
  rw [rBytes, sBytes, sValue, ← lowS]
  refine Contract.bind_eq_ok.mpr ⟨s, rfl, ?_⟩
  split
  · rw [← Int.ofNat_sub (Nat.le_of_lt sSmall),
      bigIntToBuf32_eq (Nat.lt_of_le_of_lt (Nat.sub_le _ _) order)]
    rfl
  · rfl

/-- The largest scalars: their encoding has the sign byte, and the second is replaced
by one. -/
theorem derToCompact_exact_largest :
    derToCompact (derSequence (p256N - 1) (p256N - 1)) =
      .ok (BigEndian.encode 32 (p256N - 1) ++
        BigEndian.encode 32 (min (p256N - 1) (p256N - (p256N - 1)))) :=
  derToCompact_exact (p256N - 1) (p256N - 1) (by decide) (Nat.le_refl _) (by decide)
    (Nat.le_refl _)

end Nido.Sdk
