/-
Big-endian byte strings and the natural numbers they spell.

Every fixed-width word of a contract or a circuit is a byte string read most
significant byte first. The module fixes the reader and the fixed-width writer,
and proves that they are inverse on words that fit.
-/

import Mathlib.Tactic.Ring
import Mathlib.Data.List.Basic

namespace BigEndian

/-- The number a byte string spells, most significant byte first. -/
def value : List UInt8 → Nat
  | [] => 0
  | byte :: rest => byte.toNat * 256 ^ rest.length + value rest

/-- The `width` low bytes of a number, most significant byte first. -/
def encode : (width number : Nat) → List UInt8
  | 0, _ => []
  | width + 1, number => UInt8.ofNat (number / 256 ^ width % 256) :: encode width number

@[simp] theorem encode_length (width number : Nat) : (encode width number).length = width := by
  induction width with
  | zero => rfl
  | succ width ih => simp only [encode, List.length_cons, ih]

theorem value_lt (bytes : List UInt8) : value bytes < 256 ^ bytes.length := by
  induction bytes with
  | nil => exact Nat.one_pos
  | cons byte rest ih =>
      have bounded : byte.toNat ≤ 255 := Nat.le_of_lt_succ byte.toNat_lt
      have scaled := Nat.mul_le_mul_right (256 ^ rest.length) bounded
      simp only [value, List.length_cons, pow_succ]
      omega

theorem value_append (high low : List UInt8) :
    value (high ++ low) = value high * 256 ^ low.length + value low := by
  induction high with
  | nil => simp [value]
  | cons byte rest ih =>
      simp only [List.cons_append, value, ih, List.length_append]
      ring

theorem value_zeros (count : Nat) (low : List UInt8) :
    value (List.replicate count 0 ++ low) = value low := by
  induction count with
  | zero => rfl
  | succ count ih => simp [List.replicate_succ, value, ih]

/-- The running accumulator of a left-to-right reader spells the same number. -/
theorem foldl_value (bytes : List UInt8) (start : Nat) :
    bytes.foldl (fun total byte => total * 256 + byte.toNat) start =
      start * 256 ^ bytes.length + value bytes := by
  induction bytes generalizing start with
  | nil => simp [value]
  | cons byte rest ih =>
      rw [List.foldl_cons, ih, value, List.length_cons]
      ring

theorem value_encode_mod (width number : Nat) :
    value (encode width number) = number % 256 ^ width := by
  induction width with
  | zero => simp [encode, value, Nat.mod_one]
  | succ width ih =>
      have byteValue : (UInt8.ofNat (number / 256 ^ width % 256)).toNat =
          number / 256 ^ width % 256 := by
        rw [UInt8.toNat_ofNat']
        exact Nat.mod_eq_of_lt (Nat.mod_lt _ (by decide))
      rw [encode, value, encode_length, byteValue, ih, pow_succ, Nat.mod_mul, Nat.add_comm,
        Nat.mul_comm]

theorem value_encode (width number : Nat) (fits : number < 256 ^ width) :
    value (encode width number) = number := by
  rw [value_encode_mod, Nat.mod_eq_of_lt fits]

theorem value_injective (left right : List UInt8) (sameLength : left.length = right.length)
    (sameValue : value left = value right) : left = right := by
  induction left generalizing right with
  | nil => exact (List.eq_nil_of_length_eq_zero sameLength.symm).symm
  | cons byte rest ih =>
      cases right with
      | nil => cases sameLength
      | cons other others =>
          have tails : rest.length = others.length := Nat.succ.inj sameLength
          have restBound := value_lt rest
          have othersBound := value_lt others
          simp only [value, tails] at sameValue restBound
          -- the leading byte is the quotient, the tail the remainder
          have heads : byte.toNat = other.toNat := by
            have quotient := congrArg (· / 256 ^ others.length) sameValue
            simpa only [Nat.mul_comm _ (256 ^ others.length),
              Nat.mul_add_div (Nat.pow_pos (by decide : 0 < 256)), Nat.div_eq_of_lt restBound,
              Nat.div_eq_of_lt othersBound, Nat.add_zero] using quotient
          have values : value rest = value others := by
            rw [heads] at sameValue
            exact Nat.add_left_cancel sameValue
          rw [UInt8.toNat_inj.mp heads, ih others tails values]

end BigEndian
