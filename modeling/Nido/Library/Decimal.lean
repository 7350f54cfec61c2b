/-
Decimal numerals.

A numeral has digits before its point and perhaps digits after it. Its value is a
rational number. Among the numerals of one value there is one without zeros at its ends.
-/

import Mathlib.Data.List.DropRight
import Mathlib.Data.Rat.Defs
import Mathlib.Tactic.FieldSimp
import Mathlib.Tactic.Ring

structure DecimalText where
  whole : List Char
  frac : List Char
  given : whole ≠ []
  wholeDigits : ∀ c ∈ whole, c.isDigit = true
  fracDigits : ∀ c ∈ frac, c.isDigit = true

namespace DecimalText

def text (numeral : DecimalText) : List Char :=
  numeral.whole ++ (if numeral.frac = [] then [] else '.' :: numeral.frac)

def read (digits : List Char) : Nat := Nat.ofDigitChars 10 digits 0

def value (numeral : DecimalText) : ℚ :=
  read numeral.whole + read numeral.frac / 10 ^ numeral.frac.length

/-- The value in units of the last of so many decimals. -/
def scaled (numeral : DecimalText) (decimals : Nat) : Nat :=
  read numeral.whole * 10 ^ decimals +
    read numeral.frac * 10 ^ (decimals - numeral.frac.length)

/-- Without zeros that do not count. -/
structure Canonical (numeral : DecimalText) : Prop where
  leading : numeral.whole = ['0'] ∨ numeral.whole.head? ≠ some '0'
  trailing : numeral.frac.getLast? ≠ some '0'

/-! ### Digits -/

theorem read_append (left right : List Char) :
    read (left ++ right) = 10 ^ right.length * read left + read right := by
  unfold read
  rw [Nat.ofDigitChars_append, Nat.ofDigitChars_eq_ofDigitChars_zero]

theorem read_zeros (count : Nat) : read (List.replicate count '0') = 0 := by
  unfold read
  rw [Nat.ofDigitChars_replicate_zero, Nat.mul_zero]

theorem read_singleton (c : Char) : read [c] = c.toNat - 48 := by
  unfold read
  rw [Nat.ofDigitChars_cons, Nat.ofDigitChars_nil, Nat.mul_zero, Nat.zero_add]
  rfl

theorem isDigit_range {c : Char} (digit : c.isDigit = true) : 48 ≤ c.toNat ∧ c.toNat ≤ 57 := by
  unfold Char.isDigit at digit
  rw [Bool.and_eq_true, decide_eq_true_eq, decide_eq_true_eq] at digit
  exact digit

theorem read_lt {digits : List Char} (all : ∀ c ∈ digits, c.isDigit = true) :
    read digits < 10 ^ digits.length := by
  induction digits with
  | nil => exact Nat.one_pos
  | cons c rest ih =>
      have range := isDigit_range (all c List.mem_cons_self)
      have small := ih (fun other member => all other (List.mem_cons_of_mem c member))
      have split := read_append [c] rest
      rw [List.singleton_append, read_singleton] at split
      have bound : 10 ^ rest.length * (c.toNat - 48) ≤ 10 ^ rest.length * 9 :=
        Nat.mul_le_mul_left _ (by omega)
      rw [split, List.length_cons, Nat.pow_succ]
      omega

theorem digits_inj {left right : List Char} (lengths : left.length = right.length)
    (leftDigits : ∀ c ∈ left, c.isDigit = true) (rightDigits : ∀ c ∈ right, c.isDigit = true)
    (values : read left = read right) : left = right := by
  induction left generalizing right with
  | nil => exact (List.length_eq_zero_iff.mp lengths.symm).symm
  | cons c rest ih =>
      cases right with
      | nil => cases lengths
      | cons other others =>
          have sameLength : rest.length = others.length := Nat.succ.inj lengths
          have restDigits : ∀ c ∈ rest, c.isDigit = true :=
            fun digit member => leftDigits digit (List.mem_cons_of_mem c member)
          have othersDigits : ∀ c ∈ others, c.isDigit = true :=
            fun digit member => rightDigits digit (List.mem_cons_of_mem other member)
          have range := isDigit_range (leftDigits c List.mem_cons_self)
          have otherRange := isDigit_range (rightDigits other List.mem_cons_self)
          have small := read_lt restDigits
          have otherSmall := read_lt othersDigits
          have split := read_append [c] rest
          have otherSplit := read_append [other] others
          rw [List.singleton_append, read_singleton] at split otherSplit
          rw [split, otherSplit, sameLength] at values
          rw [sameLength] at small
          have positive : 0 < 10 ^ others.length := Nat.pow_pos (by decide)
          have firsts : c.toNat - 48 = other.toNat - 48 := by
            have quotient := congrArg (· / 10 ^ others.length) values
            simpa only [Nat.mul_add_div positive, Nat.div_eq_of_lt small,
              Nat.div_eq_of_lt otherSmall, Nat.add_zero] using quotient
          have first : c = other := by
            apply Char.toNat_inj.mp
            omega
          rw [firsts] at values
          rw [first, ih sameLength restDigits othersDigits (Nat.add_left_cancel values)]

/-! ### Zeros at the start -/

def padded (width : Nat) (digits : List Char) : List Char :=
  List.replicate (width - digits.length) '0' ++ digits

theorem padded_length {width : Nat} {digits : List Char} (short : digits.length ≤ width) :
    (padded width digits).length = width := by
  unfold padded
  rw [List.length_append, List.length_replicate]
  omega

theorem padded_isDigit {width : Nat} {digits : List Char}
    (all : ∀ c ∈ digits, c.isDigit = true) : ∀ c ∈ padded width digits, c.isDigit = true := by
  intro c member
  rcases List.mem_append.mp member with zero | digit
  · rw [List.eq_of_mem_replicate zero]
    decide
  · exact all c digit

theorem read_padded (width : Nat) (digits : List Char) :
    read (padded width digits) = read digits := by
  unfold padded
  rw [read_append, read_zeros, Nat.mul_zero, Nat.zero_add]

theorem leading_inj {left right : List Char} (leftGiven : left ≠ [])
    (leftDigits : ∀ c ∈ left, c.isDigit = true) (rightDigits : ∀ c ∈ right, c.isDigit = true)
    (rightLeading : right = ['0'] ∨ right.head? ≠ some '0')
    (shorter : left.length ≤ right.length) (values : read left = read right) : left = right := by
  have same : padded right.length left = right := by
    apply digits_inj (padded_length shorter) (padded_isDigit leftDigits) rightDigits
    rw [read_padded, values]
  cases missing : right.length - left.length with
  | zero =>
      unfold padded at same
      rw [missing, List.replicate_zero, List.nil_append] at same
      exact same
  | succ count =>
      unfold padded at same
      rw [missing, List.replicate_succ, List.cons_append] at same
      rcases rightLeading with single | other
      · rw [single] at missing
        have positive := List.length_pos_iff.mpr leftGiven
        have one : ['0'].length = 1 := rfl
        omega
      · rw [← same] at other
        exact absurd rfl other

/-! ### Zeros at the end -/

def trimmed (digits : List Char) : List Char := digits.rdropWhile (fun c => c == '0')

theorem trimmed_append (digits : List Char) :
    trimmed digits ++ List.replicate (digits.length - (trimmed digits).length) '0' = digits := by
  have parts : trimmed digits ++ digits.rtakeWhile (fun c => c == '0') = digits :=
    List.rdropWhile_append_rtakeWhile
  have zeros : digits.rtakeWhile (fun c => c == '0') =
      List.replicate (digits.rtakeWhile (fun c => c == '0')).length '0' := by
    rw [List.eq_replicate_iff]
    refine ⟨rfl, ?_⟩
    intro c member
    have zero : (c == '0') = true :=
      List.mem_rtakeWhile_imp (p := fun c => c == '0') member
    exact eq_of_beq zero
  have lengths := congrArg List.length parts
  rw [List.length_append] at lengths
  conv_rhs => rw [← parts, zeros]
  congr 2
  omega

theorem trimmed_isDigit {digits : List Char} (all : ∀ c ∈ digits, c.isDigit = true) :
    ∀ c ∈ trimmed digits, c.isDigit = true :=
  fun c member => all c ((List.rdropWhile_prefix _ _).subset member)

theorem trimmed_length_le (digits : List Char) : (trimmed digits).length ≤ digits.length :=
  (List.rdropWhile_prefix _ _).length_le

theorem read_trimmed (digits : List Char) :
    read (trimmed digits) * 10 ^ (digits.length - (trimmed digits).length) = read digits := by
  conv_rhs => rw [← trimmed_append digits, read_append, read_zeros, List.length_replicate]
  rw [Nat.add_zero, Nat.mul_comm]

theorem trimmed_getLast (digits : List Char) : (trimmed digits).getLast? ≠ some '0' := by
  intro zero
  have given : trimmed digits ≠ [] := by
    intro empty
    rw [empty] at zero
    cases zero
  rw [List.getLast?_eq_some_getLast given] at zero
  have last := List.rdropWhile_last_not (fun c => c == '0') digits given
  exact last (beq_iff_eq.mpr (Option.some.inj zero))

theorem trimmed_of_getLast {digits : List Char} (last : digits.getLast? ≠ some '0') :
    trimmed digits = digits := by
  unfold trimmed
  rw [List.rdropWhile_eq_self_iff]
  intro given zero
  apply last
  rw [List.getLast?_eq_some_getLast given, eq_of_beq zero]

theorem trimmed_append_zeros (digits : List Char) (count : Nat) :
    trimmed (digits ++ List.replicate count '0') = trimmed digits := by
  induction count with
  | zero => rw [List.replicate_zero, List.append_nil]
  | succ count ih =>
      rw [List.replicate_succ', ← List.append_assoc]
      exact (List.rdropWhile_concat_pos _ _ _ (by decide)).trans ih

/-! ### Values -/

variable {numeral : DecimalText}

theorem value_eq {decimals : Nat} (short : numeral.frac.length ≤ decimals) :
    numeral.value = (numeral.scaled decimals : ℚ) / 10 ^ decimals := by
  have powers : (10 : ℚ) ^ decimals =
      10 ^ (decimals - numeral.frac.length) * 10 ^ numeral.frac.length := by
    rw [← pow_add, Nat.sub_add_cancel short]
  unfold value scaled
  push_cast
  rw [powers]
  field_simp

def ofScaled (amount decimals : Nat) : DecimalText where
  whole := Nat.toDigits 10 (amount / 10 ^ decimals)
  frac := trimmed (padded decimals (Nat.toDigits 10 (amount % 10 ^ decimals)))
  given := Nat.toDigits_ne_nil
  wholeDigits := fun _ member => Nat.isDigit_of_mem_toDigits (by decide) (by decide) member
  fracDigits := trimmed_isDigit (padded_isDigit
    (fun _ member => Nat.isDigit_of_mem_toDigits (by decide) (by decide) member))

theorem read_toDigits (number : Nat) : read (Nat.toDigits 10 number) = number :=
  Nat.ofDigitChars_ten_toDigits

theorem toDigits_leading (number : Nat) :
    Nat.toDigits 10 number = ['0'] ∨ (Nat.toDigits 10 number).head? ≠ some '0' := by
  induction number using Nat.strongRecOn with
  | ind number ih =>
      by_cases small : number < 10
      · have table : ∀ digit : Fin 10, [digit.val.digitChar] = ['0'] ∨
            [digit.val.digitChar].head? ≠ some '0' := by decide
        rw [Nat.toDigits_of_lt_base small]
        exact table ⟨number, small⟩
      · have shorter : number / 10 < number := by omega
        have positive : 0 < number / 10 := by omega
        right
        rw [Nat.toDigits_of_base_le (by decide) (Nat.not_lt.mp small),
          List.head?_append_of_ne_nil _ Nat.toDigits_ne_nil]
        rcases ih _ shorter with zero | other
        · have value := read_toDigits (number / 10)
          rw [zero] at value
          have nothing : read ['0'] = 0 := rfl
          omega
        · exact other

theorem ofScaled_canonical (amount decimals : Nat) : (ofScaled amount decimals).Canonical where
  leading := toDigits_leading _
  trailing := trimmed_getLast _

theorem remainder_length (amount count : Nat) :
    (Nat.toDigits 10 (amount % 10 ^ (count + 1))).length ≤ count + 1 :=
  (Nat.length_toDigits_le_iff (by decide) (Nat.succ_pos count)).mpr
    (Nat.mod_lt _ (Nat.pow_pos (by decide)))

theorem ofScaled_frac_length (amount decimals : Nat) :
    (ofScaled amount decimals).frac.length ≤ decimals := by
  change (trimmed (padded decimals (Nat.toDigits 10 (amount % 10 ^ decimals)))).length ≤ decimals
  cases decimals with
  | zero =>
      rw [Nat.pow_zero, Nat.mod_one]
      decide
  | succ count =>
      have short := remainder_length amount count
      have shorter := trimmed_length_le
        (padded (count + 1) (Nat.toDigits 10 (amount % 10 ^ (count + 1))))
      rwa [padded_length short] at shorter

theorem ofScaled_frac_read (amount decimals : Nat) :
    read (ofScaled amount decimals).frac *
      10 ^ (decimals - (ofScaled amount decimals).frac.length) = amount % 10 ^ decimals := by
  cases decimals with
  | zero =>
      change read (trimmed (padded 0 (Nat.toDigits 10 (amount % 10 ^ 0)))) * _ = _
      rw [Nat.pow_zero, Nat.mod_one]
      have nothing : read (trimmed (padded 0 (Nat.toDigits 10 0))) = 0 := by decide
      rw [nothing, Nat.zero_mul]
  | succ count =>
      have short := remainder_length amount count
      have zeros := read_trimmed
        (padded (count + 1) (Nat.toDigits 10 (amount % 10 ^ (count + 1))))
      rw [padded_length short, read_padded, read_toDigits] at zeros
      exact zeros

theorem ofScaled_scaled (amount decimals : Nat) :
    (ofScaled amount decimals).scaled decimals = amount := by
  unfold scaled
  rw [ofScaled_frac_read]
  change read (Nat.toDigits 10 (amount / 10 ^ decimals)) * _ + _ = _
  rw [read_toDigits, Nat.mul_comm]
  exact Nat.div_add_mod amount (10 ^ decimals)

theorem frac_read_lt (numeral : DecimalText) {decimals : Nat}
    (short : numeral.frac.length ≤ decimals) :
    read numeral.frac * 10 ^ (decimals - numeral.frac.length) < 10 ^ decimals := by
  have small := read_lt numeral.fracDigits
  have powers : 10 ^ decimals =
      10 ^ numeral.frac.length * 10 ^ (decimals - numeral.frac.length) := by
    rw [← Nat.pow_add, Nat.add_sub_cancel' short]
  rw [powers]
  exact Nat.mul_lt_mul_of_pos_right small (Nat.pow_pos (by decide))

/-- A value has one canonical numeral. -/
theorem canonical_unique {left right : DecimalText} (leftCanonical : left.Canonical)
    (rightCanonical : right.Canonical) (values : left.value = right.value) :
    left.whole = right.whole ∧ left.frac = right.frac := by
  -- Both are read in units small enough for either.
  obtain ⟨decimals, leftShort, rightShort⟩ : ∃ decimals,
      left.frac.length ≤ decimals ∧ right.frac.length ≤ decimals :=
    ⟨max left.frac.length right.frac.length, le_max_left _ _, le_max_right _ _⟩
  have amounts : left.scaled decimals = right.scaled decimals := by
    rw [value_eq leftShort, value_eq rightShort] at values
    have power : (10 : ℚ) ^ decimals ≠ 0 := pow_ne_zero _ (by decide)
    exact_mod_cast (div_left_inj' power).mp values
  have leftSmall := frac_read_lt left leftShort
  have rightSmall := frac_read_lt right rightShort
  unfold scaled at amounts
  have positive : 0 < 10 ^ decimals := Nat.pow_pos (by decide)
  have wholes : read left.whole = read right.whole := by
    have quotient := congrArg (· / 10 ^ decimals) amounts
    simpa only [Nat.mul_comm _ (10 ^ decimals), Nat.mul_add_div positive,
      Nat.div_eq_of_lt leftSmall, Nat.div_eq_of_lt rightSmall, Nat.add_zero] using quotient
  rw [wholes] at amounts
  have fracs := Nat.add_left_cancel amounts
  constructor
  · rcases Nat.le_total left.whole.length right.whole.length with shorter | longer
    · exact leading_inj left.given left.wholeDigits right.wholeDigits rightCanonical.leading
        shorter wholes
    · exact (leading_inj right.given right.wholeDigits left.wholeDigits leftCanonical.leading
        longer wholes.symm).symm
  · have zeros (numeral : DecimalText) (short : numeral.frac.length ≤ decimals) :
        (numeral.frac ++ List.replicate (decimals - numeral.frac.length) '0').length =
          decimals ∧
        (∀ c ∈ numeral.frac ++ List.replicate (decimals - numeral.frac.length) '0',
          c.isDigit = true) ∧
        read (numeral.frac ++ List.replicate (decimals - numeral.frac.length) '0') =
          read numeral.frac * 10 ^ (decimals - numeral.frac.length) := by
      refine ⟨?_, ?_, ?_⟩
      · rw [List.length_append, List.length_replicate, Nat.add_sub_cancel' short]
      · intro c member
        rcases List.mem_append.mp member with digit | zero
        · exact numeral.fracDigits c digit
        · rw [List.eq_of_mem_replicate zero]
          decide
      · rw [read_append, read_zeros, List.length_replicate, Nat.add_zero, Nat.mul_comm]
    obtain ⟨leftLength, leftDigits, leftRead⟩ := zeros left leftShort
    obtain ⟨rightLength, rightDigits, rightRead⟩ := zeros right rightShort
    have extended := digits_inj (leftLength.trans rightLength.symm) leftDigits rightDigits
      (by rw [leftRead, rightRead, fracs])
    have cut := congrArg trimmed extended
    rwa [trimmed_append_zeros, trimmed_append_zeros, trimmed_of_getLast leftCanonical.trailing,
      trimmed_of_getLast rightCanonical.trailing] at cut

end DecimalText
