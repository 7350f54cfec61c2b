/-
Amounts as they are shown.

An amount is a whole number of the smallest unit. It is shown with its decimal point,
in groups of three digits and without zeros at its end, and never through a floating
number: every amount of stroops has a text of its own.
-/

import Nido.Library.Decimal
import Nido.Sdk.Signature
import Nido.Sdk.Url

namespace Nido.Frontend

open Sdk

def xlmFractionDigits : Nat := 7

/-- `replace(/0+$/, "")` -/
def trimZeros (digits : List Char) : List Char := digits.rdropWhile (fun c => c == '0')

def rawToDecimal (raw : Int) (decimals : Nat) : List Char :=
  let sign := if raw < 0 then ['-'] else []
  if decimals = 0 then
    sign ++ Nat.toDigits 10 raw.natAbs
  else
    let unit := 10 ^ decimals
    let whole := raw.natAbs / unit
    let frac := raw.natAbs % unit
    if frac = 0 then
      sign ++ Nat.toDigits 10 whole
    else
      sign ++ Nat.toDigits 10 whole ++
        '.' :: trimZeros (padStart decimals (Nat.toDigits 10 frac))

/-- `replace(/\B(?=(\d{3})+(?!\d))/g, ",")` on digits. -/
def groupThousands : List Char → List Char
  | [] => []
  | digit :: rest =>
      if rest ≠ [] ∧ rest.length % 3 = 0 then digit :: ',' :: groupThousands rest
      else digit :: groupThousands rest

def formatDecimal (decimal : List Char) (maxFractionDigits : Nat) : List Char :=
  let negative := decimal.head? == some '-'
  let parts := (if negative then decimal.drop 1 else decimal).splitOn '.'
  let whole := parts.headD []
  let fracRaw := parts.tail.headD []
  if isNumber whole = false ∨ (fracRaw ≠ [] ∧ isNumber fracRaw = false) then
    ['0']
  else
    let frac := trimZeros (fracRaw.take maxFractionDigits)
    if whole = ['0'] ∧ frac = [] ∧ fracRaw.any (fun c => c.isDigit && c != '0') = true then
      if 0 < maxFractionDigits then
        "<0.".toList ++ List.replicate (maxFractionDigits - 1) '0' ++ ['1']
      else
        "<1".toList
    else
      (if negative then ['-'] else []) ++ groupThousands whole ++
        (if frac = [] then [] else '.' :: frac)

def stroopsToXlm (stroops : Int) : List Char := rawToDecimal stroops xlmFractionDigits

/-- An amount of stroops as it is shown. -/
def shownStroops (stroops : Int) : List Char := formatDecimal (stroopsToXlm stroops) 7

/-! ### Digits -/

theorem toDigits_isNumber (number : Nat) : isNumber (Nat.toDigits 10 number) = true :=
  isNumber_iff.mpr ⟨Nat.toDigits_ne_nil,
    fun _ member => Nat.isDigit_of_mem_toDigits (by decide) (by decide) member⟩

theorem toDigits_not_mem (number : Nat) {c : Char} (other : c.isDigit = false) :
    c ∉ Nat.toDigits 10 number :=
  isNumber_not_mem (toDigits_isNumber number) other

theorem toDigits_inj {left right : Nat} (same : Nat.toDigits 10 left = Nat.toDigits 10 right) :
    left = right := by
  have numbers : Nat.ofDigitChars 10 (Nat.toDigits 10 left) 0 =
      Nat.ofDigitChars 10 (Nat.toDigits 10 right) 0 := by rw [same]
  rwa [Nat.ofDigitChars_ten_toDigits, Nat.ofDigitChars_ten_toDigits] at numbers

theorem groupThousands_filter {digits : List Char} (plain : ',' ∉ digits) :
    (groupThousands digits).filter (fun c => c != ',') = digits := by
  induction digits with
  | nil => rfl
  | cons digit rest ih =>
      rw [List.mem_cons, not_or] at plain
      have kept : (digit != ',') = true := bne_iff_ne.mpr (Ne.symm plain.1)
      unfold groupThousands
      split
      · rw [List.filter_cons, if_pos kept, List.filter_cons, if_neg (by decide), ih plain.2]
      · rw [List.filter_cons, if_pos kept, ih plain.2]

theorem groupThousands_mem {digits : List Char} {c : Char} (member : c ∈ groupThousands digits) :
    c ∈ digits ∨ c = ',' := by
  induction digits with
  | nil => cases member
  | cons digit rest ih =>
      unfold groupThousands at member
      split at member
      · rcases List.mem_cons.mp member with rfl | member
        · exact Or.inl List.mem_cons_self
        · rcases List.mem_cons.mp member with rfl | member
          · exact Or.inr rfl
          · exact (ih member).imp_left (List.mem_cons_of_mem digit)
      · rcases List.mem_cons.mp member with rfl | member
        · exact Or.inl List.mem_cons_self
        · exact (ih member).imp_left (List.mem_cons_of_mem digit)

/-! ### Fractions -/

theorem trimZeros_append (digits : List Char) :
    trimZeros digits ++ List.replicate (digits.length - (trimZeros digits).length) '0' =
      digits :=
  DecimalText.trimmed_append digits

def fractionDigits (frac : Nat) : List Char := padStart 7 (Nat.toDigits 10 frac)

theorem fractionDigits_length {frac : Nat} (fits : frac < 10 ^ 7) :
    (fractionDigits frac).length = 7 :=
  DecimalText.padded_length
    ((Nat.length_toDigits_le_iff (by decide : 1 < 10) (by decide : 0 < 7)).mpr fits)

theorem fractionDigits_isDigit (frac : Nat) : ∀ c ∈ fractionDigits frac, c.isDigit = true :=
  DecimalText.padded_isDigit (isNumber_iff.mp (toDigits_isNumber frac)).2

theorem fractionDigits_value (frac : Nat) :
    Nat.ofDigitChars 10 (fractionDigits frac) 0 = frac :=
  (DecimalText.read_padded 7 _).trans (DecimalText.read_toDigits frac)

theorem trimZeros_inj {left right : Nat} (leftFits : left < 10 ^ 7) (rightFits : right < 10 ^ 7)
    (same : trimZeros (fractionDigits left) = trimZeros (fractionDigits right)) :
    left = right := by
  have digits : fractionDigits left = fractionDigits right := by
    rw [← trimZeros_append (fractionDigits left), ← trimZeros_append (fractionDigits right), same,
      fractionDigits_length leftFits, fractionDigits_length rightFits]
  rw [← fractionDigits_value left, digits, fractionDigits_value]

theorem trimZeros_ne_nil {frac : Nat} (positive : frac ≠ 0) :
    trimZeros (fractionDigits frac) ≠ [] := by
  intro empty
  have zeros := trimZeros_append (fractionDigits frac)
  rw [empty, List.nil_append] at zeros
  have value := fractionDigits_value frac
  rw [← zeros] at value
  exact positive (value.symm.trans (DecimalText.read_zeros _))

theorem trimZeros_isDigit (frac : Nat) :
    ∀ c ∈ trimZeros (fractionDigits frac), c.isDigit = true :=
  fun c member => fractionDigits_isDigit frac c ((List.rdropWhile_prefix _ _).subset member)

/-! ### Amounts of stroops -/

def signText (negative : Bool) : List Char := if negative then ['-'] else []

theorem signText_read {whole : List Char} (digits : isNumber whole = true) (negative : Bool)
    (rest : List Char) :
    ((signText negative ++ (whole ++ rest)).head? == some '-') = negative ∧
      (if negative = true then (signText negative ++ (whole ++ rest)).drop 1
        else signText negative ++ (whole ++ rest)) = whole ++ rest := by
  cases negative with
  | true => exact ⟨rfl, rfl⟩
  | false =>
      refine ⟨?_, rfl⟩
      cases whole with
      | nil => cases digits
      | cons first others =>
          have digit := (isNumber_iff.mp digits).2 first List.mem_cons_self
          have other : first ≠ '-' := by
            rintro rfl
            cases digit
          simpa [signText] using other

theorem formatDecimal_whole {whole : List Char} (digits : isNumber whole = true)
    (negative : Bool) :
    formatDecimal (signText negative ++ whole) 7 = signText negative ++ groupThousands whole := by
  have read := signText_read digits negative []
  rw [List.append_nil] at read
  unfold formatDecimal
  dsimp only
  rw [read.1, read.2, List.splitOn_eq_singleton (isNumber_not_mem digits (by decide))]
  have wellFormed : ¬ (isNumber ([whole].headD []) = false ∨
      (([whole].tail.headD [] : List Char) ≠ [] ∧ isNumber ([whole].tail.headD []) = false)) := by
    rintro (malformed | ⟨given, _⟩)
    · rw [List.headD_cons, digits] at malformed
      cases malformed
    · exact given rfl
  rw [if_neg wellFormed, if_neg (by rintro ⟨_, _, impossible⟩; cases impossible)]
  have noFraction : trimZeros (([whole].tail.headD [] : List Char).take 7) = [] := rfl
  rw [noFraction, if_pos rfl, List.append_nil]
  rfl

theorem formatDecimal_fraction {whole fraction : List Char} (digits : isNumber whole = true)
    (fractionNumber : isNumber fraction = true) (short : fraction.length ≤ 7)
    (trimmed : trimZeros fraction = fraction) (negative : Bool) :
    formatDecimal (signText negative ++ (whole ++ '.' :: fraction)) 7 =
      signText negative ++ groupThousands whole ++ '.' :: fraction := by
  have read := signText_read digits negative ('.' :: fraction)
  have nonempty := (isNumber_iff.mp fractionNumber).1
  unfold formatDecimal
  dsimp only
  rw [read.1, read.2, split_host (isNumber_not_mem digits (by decide)),
    List.splitOn_eq_singleton (isNumber_not_mem fractionNumber (by decide)), List.headD_cons,
    List.tail_cons, List.headD_cons, List.take_of_length_le short, trimmed]
  have wellFormed : ¬ (isNumber whole = false ∨ (fraction ≠ [] ∧ isNumber fraction = false)) := by
    rintro (malformed | ⟨_, malformed⟩)
    · rw [digits] at malformed
      cases malformed
    · rw [fractionNumber] at malformed
      cases malformed
  rw [if_neg wellFormed, if_neg (fun small => nonempty small.2.1), if_neg nonempty]
  rfl

theorem shownStroops_eq (stroops : Int) :
    shownStroops stroops =
      signText (decide (stroops < 0)) ++
        groupThousands (Nat.toDigits 10 (stroops.natAbs / 10 ^ 7)) ++
          (if stroops.natAbs % 10 ^ 7 = 0 then []
            else '.' :: trimZeros (fractionDigits (stroops.natAbs % 10 ^ 7))) := by
  have sign : (if stroops < 0 then ['-'] else []) = signText (decide (stroops < 0)) := by
    unfold signText
    simp only [decide_eq_true_eq]
  unfold shownStroops stroopsToXlm rawToDecimal xlmFractionDigits
  dsimp only
  rw [if_neg (by decide), sign]
  split
  next => rw [formatDecimal_whole (toDigits_isNumber _), List.append_nil]
  next positive =>
    have digits : isNumber (trimZeros (fractionDigits (stroops.natAbs % 10 ^ 7))) = true :=
      isNumber_iff.mpr ⟨trimZeros_ne_nil positive, trimZeros_isDigit _⟩
    have short : (trimZeros (fractionDigits (stroops.natAbs % 10 ^ 7))).length ≤ 7 := by
      have seven := fractionDigits_length (Nat.mod_lt stroops.natAbs (by decide : 0 < 10 ^ 7))
      have shorter : (trimZeros (fractionDigits (stroops.natAbs % 10 ^ 7))).length ≤
          (fractionDigits (stroops.natAbs % 10 ^ 7)).length :=
        (List.rdropWhile_prefix _ _).length_le
      omega
    rw [List.append_assoc]
    exact formatDecimal_fraction (toDigits_isNumber _) digits short
      (List.rdropWhile_idempotent _ _) _

def shownAbs (amount : Nat) : List Char :=
  groupThousands (Nat.toDigits 10 (amount / 10 ^ 7)) ++
    (if amount % 10 ^ 7 = 0 then [] else '.' :: trimZeros (fractionDigits (amount % 10 ^ 7)))

theorem groupThousands_not_mem (amount : Nat) {c : Char} (other : c.isDigit = false)
    (separator : c ≠ ',') : c ∉ groupThousands (Nat.toDigits 10 amount) := by
  intro member
  rcases groupThousands_mem member with digit | same
  · exact toDigits_not_mem amount other digit
  · exact separator same

theorem groupThousands_inj {left right : Nat}
    (same : groupThousands (Nat.toDigits 10 left) = groupThousands (Nat.toDigits 10 right)) :
    left = right := by
  apply toDigits_inj
  rw [← groupThousands_filter (toDigits_not_mem left (by decide)), same,
    groupThousands_filter (toDigits_not_mem right (by decide))]

theorem shownAbs_unsigned (amount : Nat) : '-' ∉ shownAbs amount := by
  unfold shownAbs
  rw [List.mem_append, not_or]
  refine ⟨groupThousands_not_mem _ (by decide) (by decide), ?_⟩
  split
  · exact List.not_mem_nil
  · rw [List.mem_cons, not_or]
    refine ⟨by decide, ?_⟩
    intro member
    exact absurd (trimZeros_isDigit _ _ member) (by decide)

theorem shownAbs_dot (amount : Nat) : '.' ∈ shownAbs amount ↔ amount % 10 ^ 7 ≠ 0 := by
  unfold shownAbs
  rw [List.mem_append, or_iff_right (groupThousands_not_mem _ (by decide) (by decide))]
  split
  next zero => exact iff_of_false List.not_mem_nil (not_not.mpr zero)
  next positive => exact iff_of_true List.mem_cons_self positive

theorem shownAbs_inj {left right : Nat} (same : shownAbs left = shownAbs right) :
    left = right := by
  have dots : left % 10 ^ 7 ≠ 0 ↔ right % 10 ^ 7 ≠ 0 := by
    rw [← shownAbs_dot, ← shownAbs_dot, same]
  have leftWhole := Nat.div_add_mod left (10 ^ 7)
  have rightWhole := Nat.div_add_mod right (10 ^ 7)
  by_cases zero : left % 10 ^ 7 = 0
  · have otherZero : right % 10 ^ 7 = 0 := by
      by_contra positive
      exact dots.mpr positive zero
    unfold shownAbs at same
    rw [if_pos zero, if_pos otherZero, List.append_nil, List.append_nil] at same
    have whole := groupThousands_inj same
    rw [← leftWhole, ← rightWhole, zero, otherZero, whole]
  · unfold shownAbs at same
    rw [if_neg zero, if_neg (dots.mp zero)] at same
    obtain ⟨wholes, fractions⟩ := label_unique
      (groupThousands_not_mem _ (by decide) (by decide))
      (groupThousands_not_mem _ (by decide) (by decide)) same
    have whole := groupThousands_inj wholes
    have fraction := trimZeros_inj (Nat.mod_lt _ (by decide)) (Nat.mod_lt _ (by decide)) fractions
    rw [← leftWhole, ← rightWhole, fraction, whole]

/-- Different amounts of stroops are shown differently. -/
theorem shownStroops_injective : Function.Injective shownStroops := by
  intro left right same
  have shown (stroops : Int) :
      shownStroops stroops = signText (decide (stroops < 0)) ++ shownAbs stroops.natAbs := by
    rw [shownStroops_eq, List.append_assoc]
    rfl
  have signed (stroops : Int) : '-' ∈ shownStroops stroops ↔ stroops < 0 := by
    rw [shown, List.mem_append, or_iff_left (shownAbs_unsigned _)]
    unfold signText
    by_cases negative : stroops < 0
    · simp [negative]
    · simp [negative]
  have signs : left < 0 ↔ right < 0 := by rw [← signed, ← signed, same]
  rw [shown, shown] at same
  simp only [signs] at same
  have amounts := shownAbs_inj (List.append_cancel_left same)
  omega

end Nido.Frontend
