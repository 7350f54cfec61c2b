/-
Hosts of accounts.

An account is a subdomain of the deployment's host, named by its contract id or by its
registered name; a preview deployment has a number, which the subdomain carries after
two dashes.
-/

import Nido.Sdk.AuthHash

namespace Nido.Sdk

/-- `text.length`: the characters beyond the first plane count twice. -/
def utf16Length (text : List Char) : Nat :=
  (text.map (fun c => if c.toNat < 0x10000 then 1 else 2)).sum

def isContractId (subdomain : List Char) : Bool :=
  utf16Length subdomain == 56 && (subdomain.head? == some 'c' || subdomain.head? == some 'C')

/-! ### Labels -/

/-- The language's conversions, which are per character on ASCII text. -/
structure LetterCase where
  toLowerCase : List Char → List Char
  toUpperCase : List Char → List Char
  lower_ascii : ∀ text, (∀ c ∈ text, c.toNat < 128) → toLowerCase text = text.map Char.toLower
  upper_ascii : ∀ text, (∀ c ∈ text, c.toNat < 128) → toUpperCase text = text.map Char.toUpper

/-- `/^\d+$/` -/
def isNumber (text : List Char) : Bool := !text.isEmpty && text.all Char.isDigit

/-- `/^pr-(\d+)$/` -/
def prNumber (sub : List Char) : Option (List Char) :=
  match sub with
  | 'p' :: 'r' :: '-' :: number => if isNumber number = true then some number else none
  | _ => none

/-- `/^(?:pr-)?(\d+)$/` -/
def bareRoot (sub : List Char) : Option (List Char) :=
  if isNumber sub = true then some sub else prNumber sub

/-- What `.` does not match. -/
def lineTerminator (c : Char) : Bool :=
  c == '\n' || c == '\r' || c.toNat == 0x2028 || c.toNat == 0x2029

/-- `/^(.*)--(?:pr-)?(\d+)$/`: the digits at the end, read from there. -/
def previewSubdomain (sub : List Char) : List Char × Option (List Char) :=
  let number := (sub.reverse.takeWhile Char.isDigit).reverse
  let taken (raw : List Char) : List Char × Option (List Char) :=
    if raw.any lineTerminator = true then (sub, none) else (raw.reverse, some number)
  if number = [] then
    (sub, none)
  else
    match sub.reverse.dropWhile Char.isDigit with
    | '-' :: '-' :: raw => taken raw
    | '-' :: 'r' :: 'p' :: '-' :: '-' :: raw => taken raw
    | _ => (sub, none)

theorem isNumber_iff {text : List Char} :
    isNumber text = true ↔ text ≠ [] ∧ ∀ c ∈ text, c.isDigit = true := by
  unfold isNumber
  cases text with
  | nil => simp
  | cons c rest => simp

theorem isNumber_not_mem {text : List Char} (number : isNumber text = true) {c : Char}
    (other : c.isDigit = false) : c ∉ text := by
  intro member
  have digit := (isNumber_iff.mp number).2 c member
  rw [other] at digit
  cases digit

theorem prNumber_isNumber {sub number : List Char} (read : prNumber sub = some number) :
    isNumber number = true := by
  unfold prNumber at read
  split at read
  next =>
    split at read
    next digits =>
      cases read
      exact digits
    next => cases read
  next => cases read

theorem bareRoot_isNumber {sub number : List Char} (read : bareRoot sub = some number) :
    isNumber number = true := by
  unfold bareRoot at read
  split at read
  next digits =>
    cases read
    exact digits
  next => exact prNumber_isNumber read

theorem previewSubdomain_isNumber {sub number : List Char}
    (read : (previewSubdomain sub).2 = some number) : isNumber number = true := by
  have digits (nonempty : (sub.reverse.takeWhile Char.isDigit).reverse ≠ []) :
      isNumber (sub.reverse.takeWhile Char.isDigit).reverse = true := by
    rw [isNumber_iff]
    refine ⟨nonempty, ?_⟩
    intro c member
    exact List.all_eq_true.mp List.all_takeWhile c (List.mem_reverse.mp member)
  unfold previewSubdomain at read
  dsimp only at read
  split at read
  next => cases read
  next nonempty =>
    split at read
    next =>
      split at read
      next => cases read
      next =>
        cases read
        exact digits nonempty
    next =>
      split at read
      next => cases read
      next =>
        cases read
        exact digits nonempty
    next => cases read

theorem previewSubdomain_plain {sub : List Char} (plain : '-' ∉ sub) :
    previewSubdomain sub = (sub, none) := by
  have undashed (raw : List Char) : sub.reverse.dropWhile Char.isDigit ≠ '-' :: raw := by
    intro dashed
    apply plain
    rw [← List.mem_reverse]
    apply (List.dropWhile_sublist Char.isDigit).mem
    rw [dashed]
    exact List.mem_cons_self
  unfold previewSubdomain
  dsimp only
  split
  next => rfl
  next =>
    split
    next raw dashed => exact absurd dashed (undashed _)
    next raw dashed => exact absurd dashed (undashed _)
    next => rfl

theorem previewSubdomain_append {raw number : List Char} (plain : raw.any lineTerminator = false)
    (digits : isNumber number = true) :
    previewSubdomain (raw ++ '-' :: '-' :: number) = (raw, some number) := by
  obtain ⟨nonempty, all⟩ := isNumber_iff.mp digits
  have backwards : (raw ++ '-' :: '-' :: number).reverse =
      number.reverse ++ '-' :: '-' :: raw.reverse := by
    simp
  have each : ∀ c ∈ number.reverse, c.isDigit = true :=
    fun c member => all c (List.mem_reverse.mp member)
  unfold previewSubdomain
  dsimp only
  rw [backwards, List.takeWhile_append_of_pos each, List.dropWhile_append_of_pos each]
  have stop : ('-' :: '-' :: raw.reverse).takeWhile Char.isDigit = [] := rfl
  have rest : ('-' :: '-' :: raw.reverse).dropWhile Char.isDigit = '-' :: '-' :: raw.reverse := rfl
  rw [stop, rest, List.append_nil, List.reverse_reverse, if_neg nonempty]
  have taken : (if raw.reverse.any lineTerminator = true then
      (raw ++ '-' :: '-' :: number, none) else (raw.reverse.reverse, some number)) =
        (raw, some number) := by
    rw [List.any_reverse, plain, if_neg (by decide), List.reverse_reverse]
  exact taken

def previewNumber (label : List Char) : Option (List Char) :=
  (bareRoot label).or (previewSubdomain label).2

theorem previewNumber_isNumber {label number : List Char}
    (read : previewNumber label = some number) : isNumber number = true := by
  rcases Option.or_eq_some_iff.mp read with bare | ⟨_, suffix⟩
  · exact bareRoot_isNumber bare
  · exact previewSubdomain_isNumber suffix

/-! ### Hosts -/

def joinLabels (labels : List (List Char)) : List Char := ['.'].intercalate labels

/-- `stripSubdomain`: the host under which the accounts of a deployment are named. -/
def stripSubdomain (host : List Char) : List Char :=
  match host.splitOn '.' with
  | sub :: next :: others =>
      let rest := joinLabels (next :: others)
      match bareRoot sub with
      | some number => number ++ '.' :: rest
      | none =>
          match (previewSubdomain sub).2 with
          | some preview => preview ++ '.' :: rest
          | none => rest
  | _ => host

def previewPrefix (host : List Char) : Option (List Char) :=
  match host.splitOn '.' with
  | sub :: _ :: _ =>
      match (previewSubdomain sub).2 with
      | some preview => some preview
      | none => if isNumber sub = true then some sub else prNumber sub
  | _ => none

def accountUrl (letters : LetterCase) (host contractId path : List Char) : List Char :=
  let parts := host.splitOn '.'
  match previewPrefix host with
  | some preview =>
      '/' :: '/' :: (letters.toLowerCase contractId ++ '-' :: '-' :: preview ++
        '.' :: joinLabels parts.tail ++ path)
  | none =>
      let apex := if 2 < parts.length then joinLabels parts.tail else host
      '/' :: '/' :: (letters.toLowerCase contractId ++ '.' :: apex ++ path)

/-- The property of `RESERVED_DAPP_SUBDOMAINS`, and those that every object has. -/
def dappProperties : List String :=
  [ "status-message", "constructor", "__proto__", "__defineGetter__", "__defineSetter__",
    "__lookupGetter__", "__lookupSetter__", "hasOwnProperty", "isPrototypeOf",
    "propertyIsEnumerable", "toLocaleString", "toString", "valueOf"]

def reservedDappSubdomain (raw : List Char) : Bool :=
  dappProperties.any (fun name => raw == name.toList)

def contractIdFromHostname (letters : LetterCase) (hostname : List Char) : Option (List Char) :=
  match hostname.splitOn '.' with
  | sub :: _ :: _ =>
      let raw := (previewSubdomain sub).1
      if raw = [] then none else some (letters.toUpperCase raw)
  | _ => none

def nameFromHostname (letters : LetterCase) (hostname : List Char) : Option (List Char) :=
  match hostname.splitOn '.' with
  | sub :: _ :: _ =>
      let raw := (previewSubdomain sub).1
      if raw = [] then none
      else if isContractId raw = true then none
      else if isNumber sub = true then none
      else if (prNumber sub).isSome = true then none
      else if reservedDappSubdomain (letters.toLowerCase raw) = true then none
      else some (letters.toLowerCase raw)
  | _ => none

/-! A host by its first label. -/

section Split

variable {label : List Char} (plain : '.' ∉ label) (rest : List Char)

include plain

theorem split_host : (label ++ '.' :: rest).splitOn '.' = label :: rest.splitOn '.' :=
  List.splitOn_append_cons_self_of_not_mem plain rest

theorem split_labels : ∃ next others, rest.splitOn '.' = next :: others ∧
    (label ++ '.' :: rest).splitOn '.' = label :: next :: others ∧
      joinLabels (next :: others) = rest := by
  obtain ⟨next, others, split_⟩ := List.exists_cons_of_ne_nil (List.splitOn_ne_nil '.' rest)
  refine ⟨next, others, split_, ?_, ?_⟩
  · rw [split_host plain, split_]
  · rw [← split_]
    exact List.intercalate_splitOn '.'

theorem stripSubdomain_label :
    stripSubdomain (label ++ '.' :: rest) =
      match previewNumber label with
      | some number => number ++ '.' :: rest
      | none => rest := by
  obtain ⟨next, others, _, labels, joined⟩ := split_labels plain rest
  unfold stripSubdomain previewNumber
  rw [labels]
  dsimp only
  rw [joined]
  cases bareRoot label with
  | some number => rfl
  | none =>
      cases (previewSubdomain label).2 with
      | some number => rfl
      | none => rfl

end Split

theorem stripSubdomain_single {host : List Char} (single : '.' ∉ host) :
    stripSubdomain host = host := by
  unfold stripSubdomain
  rw [List.splitOn_eq_singleton single]

theorem host_cases (host : List Char) :
    '.' ∉ host ∨ ∃ label rest, '.' ∉ label ∧ host = label ++ '.' :: rest := by
  by_cases dotted : '.' ∈ host
  · obtain ⟨label, rest, split_, plain⟩ := List.eq_append_cons_of_mem dotted
    exact Or.inr ⟨label, rest, plain, split_⟩
  · exact Or.inl dotted

theorem label_unique {label other rest below : List Char} (plain : '.' ∉ label)
    (otherPlain : '.' ∉ other) (same : label ++ '.' :: rest = other ++ '.' :: below) :
    label = other ∧ rest = below := by
  have labels := congrArg (List.splitOn '.') same
  rw [split_host plain, split_host otherPlain] at labels
  have first := List.cons.inj labels
  refine ⟨first.1, ?_⟩
  have joined := congrArg (List.intercalate ['.']) first.2
  rwa [List.intercalate_splitOn, List.intercalate_splitOn] at joined

theorem bareRoot_previewSubdomain {sub number : List Char} (bare : bareRoot sub = some number) :
    (previewSubdomain sub).2 = none := by
  have digits := bareRoot_isNumber bare
  unfold bareRoot at bare
  split at bare
  next all => rw [previewSubdomain_plain (isNumber_not_mem all (by decide))]
  next =>
    have written : sub = 'p' :: 'r' :: '-' :: number := by
      unfold prNumber at bare
      split at bare
      next =>
        split at bare
        next =>
          cases bare
          rfl
        next => cases bare
      next => cases bare
    obtain ⟨nonempty, all⟩ := isNumber_iff.mp digits
    have backwards : sub.reverse = number.reverse ++ ['-', 'r', 'p'] := by
      rw [written]
      simp
    have each : ∀ c ∈ number.reverse, c.isDigit = true :=
      fun c member => all c (List.mem_reverse.mp member)
    have stop : ['-', 'r', 'p'].dropWhile Char.isDigit = ['-', 'r', 'p'] := rfl
    unfold previewSubdomain
    rw [backwards, List.takeWhile_append_of_pos each, List.dropWhile_append_of_pos each, stop]
    dsimp only
    split
    next => rfl
    next =>
      split
      next dashed => cases dashed
      next dashed => cases dashed
      next => rfl

theorem previewPrefix_label {label : List Char} (plain : '.' ∉ label) (rest : List Char) :
    previewPrefix (label ++ '.' :: rest) = previewNumber label := by
  obtain ⟨next, others, _, labels, _⟩ := split_labels plain rest
  unfold previewPrefix previewNumber
  rw [labels]
  dsimp only
  cases bare : bareRoot label with
  | some number =>
      rw [bareRoot_previewSubdomain bare]
      exact bare
  | none =>
      cases (previewSubdomain label).2 with
      | some number => rfl
      | none => exact bare

theorem previewPrefix_single {host : List Char} (single : '.' ∉ host) :
    previewPrefix host = none := by
  unfold previewPrefix
  rw [List.splitOn_eq_singleton single]

/-! ### Accounts as labels -/

def accountLabel (key : List Char) (number : Option (List Char)) : List Char :=
  match number with
  | some preview => key ++ '-' :: '-' :: preview
  | none => key

theorem accountUrl_label (letters : LetterCase) {label : List Char} (plain : '.' ∉ label)
    (rest contractId path : List Char) :
    accountUrl letters (label ++ '.' :: rest) contractId path =
      '/' :: '/' :: (accountLabel (letters.toLowerCase contractId) (previewNumber label) ++
        '.' :: (if (previewNumber label).isSome = true ∨ '.' ∈ rest then rest
          else label ++ '.' :: rest) ++ path) := by
  obtain ⟨next, others, tail, labels, joined⟩ := split_labels plain rest
  unfold accountUrl
  dsimp only
  rw [previewPrefix_label plain, labels, List.tail_cons, joined]
  cases previewNumber label with
  | some number =>
      rw [if_pos (Or.inl Option.isSome_some)]
      rfl
  | none =>
      have deeper : 2 < (label :: next :: others).length ↔ '.' ∈ rest := by
        rcases host_cases rest with single | ⟨first, below, firstPlain, split_⟩
        · rw [List.splitOn_eq_singleton single] at tail
          rw [← (List.cons.inj tail).2]
          exact iff_of_false (by simp) single
        · rw [split_, split_host firstPlain] at tail
          have more := List.length_pos_iff.mpr (List.splitOn_ne_nil '.' below)
          rw [(List.cons.inj tail).2] at more
          apply iff_of_true
          · simp only [List.length_cons]
            omega
          · rw [split_]
            exact List.mem_append_right _ List.mem_cons_self
      simp only [deeper, Option.isSome_none, Bool.false_eq_true, false_or]
      rfl

theorem accountUrl_single (letters : LetterCase) {host : List Char} (single : '.' ∉ host)
    (contractId path : List Char) :
    accountUrl letters host contractId path =
      '/' :: '/' :: (letters.toLowerCase contractId ++ '.' :: host ++ path) := by
  unfold accountUrl
  dsimp only
  rw [previewPrefix_single single, List.splitOn_eq_singleton single]
  rfl

/-- A key as it stands in a label: it starts with a letter and has no separators. -/
structure PlainKey (key : List Char) : Prop where
  head : ∃ first rest, key = first :: rest ∧ first.isDigit = false
  undashed : '-' ∉ key
  undotted : '.' ∉ key
  slashless : '/' ∉ key
  colonless : ':' ∉ key
  single_line : key.any lineTerminator = false

theorem PlainKey.nonempty {key : List Char} (plain : PlainKey key) : key ≠ [] := by
  obtain ⟨first, rest, rfl, _⟩ := plain.head
  exact List.cons_ne_nil first rest

theorem not_mem_accountLabel {key : List Char} {number : Option (List Char)}
    (digits : ∀ preview, number = some preview → isNumber preview = true) {c : Char}
    (absent : c ∉ key) (dash : c ≠ '-') (digit : c.isDigit = false) :
    c ∉ accountLabel key number := by
  cases number with
  | none => exact absent
  | some preview =>
      unfold accountLabel
      dsimp only
      rw [List.mem_append, List.mem_cons, List.mem_cons]
      rintro (inKey | rfl | rfl | inNumber)
      · exact absent inKey
      · exact dash rfl
      · exact dash rfl
      · exact isNumber_not_mem (digits preview rfl) digit inNumber

section Label

variable {key : List Char} (plain : PlainKey key) {number : Option (List Char)}
  (digits : ∀ preview, number = some preview → isNumber preview = true)

include plain

theorem isNumber_accountLabel : isNumber (accountLabel key number) = false := by
  obtain ⟨first, rest, rfl, letter⟩ := plain.head
  cases number <;> simp [accountLabel, isNumber, letter]

include digits

theorem previewSubdomain_accountLabel :
    previewSubdomain (accountLabel key number) = (key, number) := by
  cases number with
  | none => exact previewSubdomain_plain plain.undashed
  | some preview => exact previewSubdomain_append plain.single_line (digits preview rfl)

theorem prNumber_accountLabel : prNumber (accountLabel key number) = none := by
  cases read : prNumber (accountLabel key number) with
  | none => rfl
  | some preview =>
      have bare : bareRoot (accountLabel key number) = some preview := by
        unfold bareRoot
        rw [isNumber_accountLabel plain, if_neg (by decide), read]
      -- A label with its own number after two dashes is no root, and one without has no dash.
      have unnumbered := bareRoot_previewSubdomain bare
      rw [previewSubdomain_accountLabel plain digits] at unnumbered
      dsimp only at unnumbered
      subst unnumbered
      have undashed : '-' ∉ accountLabel key none := plain.undashed
      unfold prNumber at read
      split at read
      next written =>
        rw [written] at undashed
        simp at undashed
      next => cases read

theorem previewNumber_accountLabel : previewNumber (accountLabel key number) = number := by
  unfold previewNumber bareRoot
  rw [isNumber_accountLabel plain, if_neg (by decide), prNumber_accountLabel plain digits,
    previewSubdomain_accountLabel plain digits, Option.none_or]

theorem contractIdFromHostname_label (letters : LetterCase) (rest : List Char) :
    contractIdFromHostname letters (accountLabel key number ++ '.' :: rest) =
      some (letters.toUpperCase key) := by
  obtain ⟨next, others, _, labels, _⟩ := split_labels
    (not_mem_accountLabel digits plain.undotted (by decide) (by decide)) rest
  unfold contractIdFromHostname
  rw [labels]
  dsimp only
  rw [previewSubdomain_accountLabel plain digits, if_neg plain.nonempty]

theorem nameFromHostname_label (letters : LetterCase) (rest : List Char) :
    nameFromHostname letters (accountLabel key number ++ '.' :: rest) =
      if isContractId key = true then none
      else if reservedDappSubdomain (letters.toLowerCase key) = true then none
      else some (letters.toLowerCase key) := by
  obtain ⟨next, others, _, labels, _⟩ := split_labels
    (not_mem_accountLabel digits plain.undotted (by decide) (by decide)) rest
  unfold nameFromHostname
  rw [labels]
  dsimp only
  rw [previewSubdomain_accountLabel plain digits, if_neg plain.nonempty,
    isNumber_accountLabel plain, prNumber_accountLabel plain digits]
  rfl

end Label

end Nido.Sdk
