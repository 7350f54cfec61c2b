/-
Amounts as they are typed.

A text is read into the smallest unit of a token, which fails unless it is a decimal
numeral with no more digits than the token has. What is read from a shown amount is the
amount, and what is shown of a read one is its canonical numeral.
-/

import Nido.Frontend.Money
import Nido.Frontend.OperationBuilders
import Nido.Library.Decimal

namespace Nido

/-! ### Reading and showing -/

namespace Sdk

def stroopsPerXlm : Nat := 10000000

/-- The text of a spending limit on a session key. -/
def stroopsToXlmString (stroops : Int) : List Char :=
  let abs := stroops.natAbs
  let whole := abs / stroopsPerXlm
  let frac := abs % stroopsPerXlm
  let sign := if stroops < 0 then ['-'] else []
  if frac = 0 then
    sign ++ Nat.toDigits 10 whole
  else
    let fracStr := (padStart 7 (Nat.toDigits 10 frac)).rdropWhile (fun c => c == '0')
    sign ++ Nat.toDigits 10 whole ++ '.' :: fracStr

end Sdk

namespace Frontend

open Sdk

def padEnd (width : Nat) (text : List Char) : List Char :=
  text ++ List.replicate (width - text.length) '0'

/-- `/^\d+(\.\d{1,limit})?$/` -/
def isDecimal (limit : Nat) (text : List Char) : Bool :=
  let rest := text.dropWhile Char.isDigit
  !(text.takeWhile Char.isDigit).isEmpty &&
    match rest with
    | [] => true
    | '.' :: frac => isNumber frac && decide (frac.length ≤ limit)
    | _ => false

def xlmToStroops (amount : List Char) : Js Int :=
  let trimmed := trim amount
  if isDecimal 7 trimmed = false then
    throw ("Invalid XLM amount: \"" ++ String.ofList amount ++ "\"")
  else do
    let parts := trimmed.splitOn '.'
    let frac := parts.tail.headD []
    let fracPadded := padEnd xlmFractionDigits frac
    let whole ← bigInt (String.ofList (parts.headD []))
    let fraction ← bigInt (String.ofList fracPadded)
    pure (whole * stroopsPerXlm + fraction)

def decimalToRaw (amount : List Char) (decimals : Int) : Js Int :=
  if decimals < 0 then
    throw ("Invalid decimals: " ++ toString decimals)
  else
    let d := decimals.toNat
    let trimmed := trim amount
    let wellFormed := if d = 0 then isNumber trimmed else isDecimal d trimmed
    if wellFormed = false then
      throw ("Invalid amount: \"" ++ String.ofList amount ++ "\"")
    else do
      let parts := trimmed.splitOn '.'
      let frac := parts.tail.headD []
      let fracPadded := padEnd d frac
      let whole ← bigInt (String.ofList (parts.headD []))
      let fraction ← bigInt (String.ofList (if fracPadded = [] then ['0'] else fracPadded))
      pure (whole * 10 ^ d + fraction)

/-! ### Numerals -/

theorem isNumber_trim {text : List Char} (plain : ∀ c ∈ text, isWhiteSpace c = false) :
    trim text = text := by
  have kept (chars : List Char) (solid : ∀ c ∈ chars, isWhiteSpace c = false) :
      chars.dropWhile isWhiteSpace = chars := by
    cases chars with
    | nil => rfl
    | cons c rest =>
        rw [List.dropWhile_cons, if_neg (by rw [solid c List.mem_cons_self]; decide)]
  unfold trim
  rw [kept text plain, kept text.reverse (fun c member => plain c (List.mem_reverse.mp member)),
    List.reverse_reverse]

theorem isWhiteSpace_digit {c : Char} (digit : c.isDigit = true) : isWhiteSpace c = false := by
  have range := DecimalText.isDigit_range digit
  unfold isWhiteSpace
  rw [Bool.or_eq_false_iff, decide_eq_false_iff_not, decide_eq_false_iff_not]
  constructor
  · intro member
    simp only [List.mem_cons, List.not_mem_nil, or_false] at member
    omega
  · omega

theorem readDigit_digit {c : Char} (digit : c.isDigit = true) :
    readDigit 10 c = some (c.toNat - 48) := by
  have range := DecimalText.isDigit_range digit
  have between : '0' ≤ c ∧ c ≤ '9' := range
  unfold readDigit digitValue
  rw [if_pos between, Option.filter_some, if_pos]
  · rfl
  · rw [decide_eq_true_eq]
    change c.toNat - 48 < 10
    omega

theorem readDigits_number {digits : List Char} (number : isNumber digits = true) :
    readDigits 10 digits = some (DecimalText.read digits) := by
  obtain ⟨given, all⟩ := isNumber_iff.mp number
  have folded (chars : List Char) (inDigits : ∀ c ∈ chars, c.isDigit = true) (total : Nat) :
      chars.foldlM (fun total c => (readDigit 10 c).map (total * 10 + ·)) total =
        some (Nat.ofDigitChars 10 chars total) := by
    induction chars generalizing total with
    | nil => rfl
    | cons c rest ih =>
        rw [List.foldlM_cons, readDigit_digit (inDigits c List.mem_cons_self),
          Nat.ofDigitChars_cons, Nat.mul_comm]
        exact ih (fun other member => inDigits other (List.mem_cons_of_mem c member)) _
  cases digits with
  | nil => exact absurd rfl given
  | cons c rest => exact folded (c :: rest) all 0

theorem bigInt_number {digits : List Char} (number : isNumber digits = true) :
    bigInt (String.ofList digits) = .ok (DecimalText.read digits) := by
  obtain ⟨given, all⟩ := isNumber_iff.mp number
  have plain : trim (String.ofList digits).toList = digits := by
    rw [String.toList_ofList]
    exact isNumber_trim (fun c member => isWhiteSpace_digit (all c member))
  have read := readDigits_number number
  unfold bigInt
  rw [plain]
  split
  next => exact absurd rfl given
  next => exact absurd (all 'x' (by simp)) (by decide)
  next => exact absurd (all 'X' (by simp)) (by decide)
  next => exact absurd (all 'o' (by simp)) (by decide)
  next => exact absurd (all 'O' (by simp)) (by decide)
  next => exact absurd (all 'b' (by simp)) (by decide)
  next => exact absurd (all 'B' (by simp)) (by decide)
  next => exact absurd (all '+' (by simp)) (by decide)
  next => exact absurd (all '-' (by simp)) (by decide)
  next =>
    rw [read]
    rfl

/-! ### What is accepted -/

theorem isDecimal_iff {limit : Nat} {text : List Char} :
    isDecimal limit text = true ↔
      ∃ numeral : DecimalText, text = numeral.text ∧ numeral.frac.length ≤ limit := by
  constructor
  · intro accepted
    unfold isDecimal at accepted
    rw [Bool.and_eq_true, Bool.not_eq_true', List.isEmpty_eq_false_iff] at accepted
    have parts := List.takeWhile_append_dropWhile (p := Char.isDigit) (l := text)
    have digits : ∀ c ∈ text.takeWhile Char.isDigit, c.isDigit = true :=
      fun c member => List.mem_takeWhile_imp member
    obtain ⟨given, rest⟩ := accepted
    split at rest
    next nothing =>
      rw [nothing, List.append_nil] at parts
      refine ⟨⟨text.takeWhile Char.isDigit, [], given, digits, fun c member => by cases member⟩,
        ?_, Nat.zero_le _⟩
      unfold DecimalText.text
      rw [if_pos rfl, List.append_nil]
      exact parts.symm
    next frac after =>
      rw [Bool.and_eq_true, decide_eq_true_eq] at rest
      obtain ⟨fracGiven, fracDigits⟩ := isNumber_iff.mp rest.1
      refine ⟨⟨text.takeWhile Char.isDigit, frac, given, digits, fracDigits⟩, ?_, rest.2⟩
      unfold DecimalText.text
      rw [if_neg fracGiven, ← after]
      exact parts.symm
    next => cases rest
  · rintro ⟨numeral, rfl, short⟩
    have stop (tail : List Char) (other : tail = [] ∨ ∃ rest, tail = '.' :: rest) :
        (numeral.whole ++ tail).takeWhile Char.isDigit = numeral.whole ∧
          (numeral.whole ++ tail).dropWhile Char.isDigit = tail := by
      rw [List.takeWhile_append_of_pos numeral.wholeDigits,
        List.dropWhile_append_of_pos numeral.wholeDigits]
      rcases other with rfl | ⟨rest, rfl⟩
      · exact ⟨List.append_nil _, rfl⟩
      · exact ⟨List.append_nil _, rfl⟩
    unfold isDecimal DecimalText.text
    by_cases noFraction : numeral.frac = []
    · rw [if_pos noFraction, (stop [] (Or.inl rfl)).1, (stop [] (Or.inl rfl)).2,
        List.isEmpty_eq_false_iff.mpr numeral.given]
      rfl
    · have cut := stop ('.' :: numeral.frac) (Or.inr ⟨_, rfl⟩)
      rw [if_neg noFraction, cut.1, cut.2, List.isEmpty_eq_false_iff.mpr numeral.given]
      change (isNumber numeral.frac && decide (numeral.frac.length ≤ limit)) = true
      rw [isNumber_iff.mpr ⟨noFraction, numeral.fracDigits⟩, decide_eq_true short]
      rfl

theorem isNumber_text_iff {text : List Char} :
    isNumber text = true ↔
      ∃ numeral : DecimalText, text = numeral.text ∧ numeral.frac.length ≤ 0 := by
  constructor
  · intro number
    obtain ⟨given, digits⟩ := isNumber_iff.mp number
    refine ⟨⟨text, [], given, digits, fun c member => by cases member⟩, ?_, Nat.le_refl 0⟩
    exact (List.append_nil text).symm
  · rintro ⟨numeral, rfl, short⟩
    have noFraction : numeral.frac = [] := List.length_eq_zero_iff.mp (Nat.le_zero.mp short)
    unfold DecimalText.text
    rw [if_pos noFraction, List.append_nil]
    exact isNumber_iff.mpr ⟨numeral.given, numeral.wholeDigits⟩

theorem dot_not_digit {digits : List Char} (all : ∀ c ∈ digits, c.isDigit = true) :
    '.' ∉ digits :=
  fun member => absurd (all '.' member) (by decide)

theorem text_parts (numeral : DecimalText) :
    (numeral.text.splitOn '.').headD [] = numeral.whole ∧
      (numeral.text.splitOn '.').tail.headD [] = numeral.frac := by
  unfold DecimalText.text
  by_cases noFraction : numeral.frac = []
  · rw [if_pos noFraction, List.append_nil,
      List.splitOn_eq_singleton (dot_not_digit numeral.wholeDigits), noFraction]
    exact ⟨rfl, rfl⟩
  · rw [if_neg noFraction, split_host (dot_not_digit numeral.wholeDigits),
      List.splitOn_eq_singleton (dot_not_digit numeral.fracDigits)]
    exact ⟨rfl, rfl⟩

theorem text_solid (numeral : DecimalText) : ∀ c ∈ numeral.text, isWhiteSpace c = false := by
  intro c member
  unfold DecimalText.text at member
  rcases List.mem_append.mp member with digit | later
  · exact isWhiteSpace_digit (numeral.wholeDigits c digit)
  · split at later
    next => cases later
    next =>
      rcases List.mem_cons.mp later with rfl | digit
      · decide
      · exact isWhiteSpace_digit (numeral.fracDigits c digit)

/-- The digits of a fraction, filled up. -/
theorem bigInt_padEnd (numeral : DecimalText) (width : Nat) :
    bigInt (String.ofList (if padEnd width numeral.frac = [] then ['0']
      else padEnd width numeral.frac)) =
        .ok (DecimalText.read numeral.frac * 10 ^ (width - numeral.frac.length) : Nat) := by
  split
  next empty =>
    have noFraction : numeral.frac = [] := (List.append_eq_nil_iff.mp empty).1
    rw [noFraction, bigInt_number (by decide)]
    have nothing : DecimalText.read [] = 0 := rfl
    rw [nothing, Nat.zero_mul]
    rfl
  next given =>
    have digits : ∀ c ∈ padEnd width numeral.frac, c.isDigit = true := by
      intro c member
      rcases List.mem_append.mp member with digit | zero
      · exact numeral.fracDigits c digit
      · rw [List.eq_of_mem_replicate zero]
        decide
    rw [bigInt_number (isNumber_iff.mpr ⟨given, digits⟩)]
    unfold padEnd
    rw [DecimalText.read_append, DecimalText.read_zeros, List.length_replicate, Nat.add_zero,
      Nat.mul_comm]

theorem decimalToRaw_reads {amount : List Char} {numeral : DecimalText} {decimals : Nat}
    (spelled : trim amount = numeral.text) (short : numeral.frac.length ≤ decimals) :
    decimalToRaw amount decimals = .ok (numeral.scaled decimals) := by
  have accepted : (if decimals = 0 then isNumber numeral.text
      else isDecimal decimals numeral.text) = true := by
    by_cases none : decimals = 0
    · subst none
      rw [if_pos rfl]
      exact isNumber_text_iff.mpr ⟨numeral, rfl, short⟩
    · rw [if_neg none]
      exact isDecimal_iff.mpr ⟨numeral, rfl, short⟩
  unfold decimalToRaw
  rw [if_neg (by omega)]
  dsimp only
  rw [Int.toNat_natCast, spelled, accepted, if_neg (by decide), (text_parts numeral).1,
    (text_parts numeral).2, bigInt_number (isNumber_iff.mpr ⟨numeral.given, numeral.wholeDigits⟩),
    bigInt_padEnd]
  unfold DecimalText.scaled
  change Except.ok _ = _
  congr 1

theorem decimalToRaw_ok {amount : List Char} {decimals : Nat} {raw : Int} :
    decimalToRaw amount decimals = .ok raw ↔
      ∃ numeral : DecimalText, trim amount = numeral.text ∧
        numeral.frac.length ≤ decimals ∧ raw = numeral.scaled decimals := by
  constructor
  · intro read
    have accepted : (if decimals = 0 then isNumber (trim amount)
        else isDecimal decimals (trim amount)) = true := by
      by_contra refused
      rw [Bool.not_eq_true] at refused
      unfold decimalToRaw at read
      rw [if_neg (by omega)] at read
      dsimp only at read
      rw [Int.toNat_natCast, refused, if_pos rfl] at read
      cases read
    have spelled : ∃ numeral : DecimalText, trim amount = numeral.text ∧
        numeral.frac.length ≤ decimals := by
      by_cases none : decimals = 0
      · subst none
        rw [if_pos rfl] at accepted
        exact isNumber_text_iff.mp accepted
      · rw [if_neg none] at accepted
        exact isDecimal_iff.mp accepted
    obtain ⟨numeral, same, short⟩ := spelled
    rw [decimalToRaw_reads same short] at read
    exact ⟨numeral, same, short, (Except.ok.inj read).symm⟩
  · rintro ⟨numeral, same, short, rfl⟩
    exact decimalToRaw_reads same short

theorem xlmToStroops_reads {amount : List Char} {numeral : DecimalText}
    (spelled : trim amount = numeral.text) (short : numeral.frac.length ≤ 7) :
    xlmToStroops amount = .ok (numeral.scaled 7) := by
  have padded := bigInt_padEnd numeral 7
  have given : padEnd 7 numeral.frac ≠ [] := by
    intro empty
    have lengths := congrArg List.length empty
    unfold padEnd at lengths
    rw [List.length_append, List.length_replicate, List.length_nil] at lengths
    omega
  rw [if_neg given] at padded
  unfold xlmToStroops
  dsimp only
  rw [spelled, isDecimal_iff.mpr ⟨numeral, rfl, short⟩, if_neg (by decide),
    (text_parts numeral).1, (text_parts numeral).2,
    bigInt_number (isNumber_iff.mpr ⟨numeral.given, numeral.wholeDigits⟩)]
  change (bigInt (String.ofList (padEnd 7 numeral.frac)) >>= fun fraction => _) = _
  rw [padded]
  rfl

theorem xlmToStroops_ok {amount : List Char} {stroops : Int} :
    xlmToStroops amount = .ok stroops ↔
      ∃ numeral : DecimalText, trim amount = numeral.text ∧
        numeral.frac.length ≤ 7 ∧ stroops = numeral.scaled 7 := by
  constructor
  · intro read
    have accepted : isDecimal 7 (trim amount) = true := by
      by_contra refused
      rw [Bool.not_eq_true] at refused
      unfold xlmToStroops at read
      dsimp only at read
      rw [refused, if_pos rfl] at read
      cases read
    obtain ⟨numeral, same, short⟩ := isDecimal_iff.mp accepted
    rw [xlmToStroops_reads same short] at read
    exact ⟨numeral, same, short, (Except.ok.inj read).symm⟩
  · rintro ⟨numeral, same, short, rfl⟩
    exact xlmToStroops_reads same short

/-! ### What is shown -/

/-- An amount is shown as its canonical numeral. -/
theorem rawToDecimal_text (raw decimals : Nat) :
    rawToDecimal raw decimals = (DecimalText.ofScaled raw decimals).text := by
  have sign : (if (raw : Int) < 0 then ['-'] else []) = [] := if_neg (by omega)
  have fraction := DecimalText.ofScaled_frac_read raw decimals
  unfold rawToDecimal
  dsimp only
  rw [sign, Int.natAbs_natCast, List.nil_append, List.nil_append]
  unfold DecimalText.text
  by_cases whole : decimals = 0
  · subst whole
    have noFraction : (DecimalText.ofScaled raw 0).frac = [] :=
      List.length_eq_zero_iff.mp (Nat.le_zero.mp (DecimalText.ofScaled_frac_length raw 0))
    rw [if_pos rfl, if_pos noFraction, List.append_nil]
    change _ = Nat.toDigits 10 (raw / 10 ^ 0)
    rw [Nat.pow_zero, Nat.div_one]
  · rw [if_neg whole]
    by_cases zero : raw % 10 ^ decimals = 0
    · have noFraction : (DecimalText.ofScaled raw decimals).frac = [] := by
        change DecimalText.trimmed (DecimalText.padded decimals
          (Nat.toDigits 10 (raw % 10 ^ decimals))) = []
        rw [zero]
        apply List.rdropWhile_eq_nil_iff.mpr
        intro c member
        rcases List.mem_append.mp member with padding | digit
        · exact beq_iff_eq.mpr (List.eq_of_mem_replicate padding)
        · exact beq_iff_eq.mpr (List.mem_singleton.mp digit)
      rw [if_pos zero, if_pos noFraction, List.append_nil]
      rfl
    · have someFraction : (DecimalText.ofScaled raw decimals).frac ≠ [] := by
        intro empty
        rw [empty] at fraction
        have nothing : DecimalText.read [] = 0 := rfl
        rw [nothing, Nat.zero_mul] at fraction
        exact zero fraction.symm
      rw [if_neg zero, if_neg someFraction]
      rfl

theorem stroopsToXlmString_eq (stroops : Int) :
    stroopsToXlmString stroops = rawToDecimal stroops 7 := by
  have unit : stroopsPerXlm = 10 ^ 7 := rfl
  have decimals : ¬ (7 : Nat) = 0 := by decide
  unfold stroopsToXlmString rawToDecimal trimZeros
  dsimp only
  rw [unit, if_neg decimals]

/-- Reading and showing amounts are inverse to each other, and the amounts of stroops are
those with seven decimals. -/
structure AmountsExact : Prop where
  reads : ∀ raw decimals : Nat, decimalToRaw (rawToDecimal raw decimals) decimals = .ok raw
  shows : ∀ (amount : List Char) (decimals : Nat) (raw : Int),
    decimalToRaw amount decimals = .ok raw →
      ∃ given canonical : DecimalText, trim amount = given.text ∧
        rawToDecimal raw decimals = canonical.text ∧ canonical.Canonical ∧
          canonical.value = given.value ∧ ∀ other : DecimalText, other.Canonical →
            other.value = given.value → other.text = canonical.text
  stroopsRead : ∀ (amount : List Char) (stroops : Int),
    xlmToStroops amount = .ok stroops ↔ decimalToRaw amount 7 = .ok stroops
  stroopsShown : ∀ stroops : Int, stroopsToXlm stroops = rawToDecimal stroops 7
  sessionShown : ∀ stroops : Int, stroopsToXlmString stroops = rawToDecimal stroops 7

theorem amounts_exact : AmountsExact where
  reads := by
    intro raw decimals
    rw [decimalToRaw_ok]
    refine ⟨DecimalText.ofScaled raw decimals, ?_, DecimalText.ofScaled_frac_length raw decimals,
      by rw [DecimalText.ofScaled_scaled]⟩
    rw [rawToDecimal_text]
    exact isNumber_trim (text_solid _)
  shows := by
    intro amount decimals raw read
    obtain ⟨given, spelled, short, rfl⟩ := decimalToRaw_ok.mp read
    have canonical := DecimalText.ofScaled_canonical (given.scaled decimals) decimals
    have same : (DecimalText.ofScaled (given.scaled decimals) decimals).value = given.value := by
      rw [DecimalText.value_eq (DecimalText.ofScaled_frac_length _ _),
        DecimalText.ofScaled_scaled, DecimalText.value_eq short]
    refine ⟨given, DecimalText.ofScaled (given.scaled decimals) decimals, spelled,
      rawToDecimal_text _ _, canonical, same, ?_⟩
    intro other otherCanonical value
    obtain ⟨whole, frac⟩ :=
      DecimalText.canonical_unique otherCanonical canonical (value.trans same.symm)
    unfold DecimalText.text
    rw [whole, frac]
  stroopsRead := by
    intro amount stroops
    exact xlmToStroops_ok.trans decimalToRaw_ok.symm
  stroopsShown := fun _ => rfl
  sessionShown := stroopsToXlmString_eq

end Frontend

end Nido
