/-
Accounts as hosts, read by the page, by the resolver and by whoever builds the next host.

A deployment is a domain of two labels, a numbered preview of one, or a local machine.
-/

import Mathlib.Data.Bool.AllAny
import Nido.Library.Json
import Nido.Sdk.Url

namespace Nido.Resolver

open Sdk

/-! ### The resolver -/

/-- The registry of names; a failed request throws. -/
structure Registry where
  resolve : List Char → Except Unit (Option (List Char))
  lookup : List Char → Except Unit (Option (List Char))

structure Request where
  method : String
  hostname : List Char
  pathname : String

structure Response where
  status : Nat
  headers : List (String × String)
  body : Option String

def wellKnownPath : String := "/.well-known/nido.json"

def cors : List (String × String) :=
  [ ("access-control-allow-origin", "*"), ("access-control-allow-methods", "GET, OPTIONS")]

def okCache : String := "public, max-age=60"

def missCache : String := "public, max-age=10"

def json (body : Json) (status : Nat) (cache : String) : Response where
  status := status
  headers := ("content-type", "application/json") :: ("cache-control", cache) :: cors
  body := some (Json.stringify body)

/-- `A-Z2-7` -/
def base32 : List Char := "ABCDEFGHIJKLMNOPQRSTUVWXYZ234567".toList

/-- `a-z` -/
def lowercase : List Char := "abcdefghijklmnopqrstuvwxyz".toList

/-- `a-z0-9` -/
def nameCharacters : List Char := lowercase ++ "0123456789".toList

/-- `/^C[A-Z2-7]{55}$/` -/
def contractIdRe (text : List Char) : Bool :=
  match text with
  | 'C' :: rest => rest.length == 55 && rest.all (fun c => base32.contains c)
  | _ => false

/-- `/^[a-z][a-z0-9]{0,14}$/` -/
def nameRe (text : List Char) : Bool :=
  match text with
  | first :: rest =>
      lowercase.contains first && rest.length ≤ 14 && rest.all (fun c => nameCharacters.contains c)
  | [] => false

def stripPreview (label : List Char) : List Char := (previewSubdomain label).1

def text (value : List Char) : Json := .string (String.ofList value)

def unavailable : Response :=
  json (.object [("error", .string "resolver upstream unavailable")]) 502 "no-store"

def lookupAnswer (registry : Registry) (network : String) (candidate : List Char) : Response :=
  match registry.lookup candidate with
  | .ok name =>
      json (.object [("name", (name.map text).getD .null), ("address", text candidate),
        ("network", .string network)]) 200 okCache
  | .error _ => unavailable

def resolveAnswer (registry : Registry) (network : String) (name : List Char) : Response :=
  match registry.resolve name with
  | .ok address =>
      match address.filter (fun found => !found.isEmpty) with
      | none =>
          json (.object [("error", .string "name not found"), ("name", text name),
            ("network", .string network)]) 404 missCache
      | some address =>
          json (.object [("name", text name), ("address", text address),
            ("network", .string network)]) 200 okCache
  | .error _ => unavailable

def handleResolve (letters : LetterCase) (request : Request) (registry : Registry)
    (network : String) : Response :=
  if request.method = "OPTIONS" then
    { status := 204, headers := cors, body := none }
  else if request.method ≠ "GET" then
    json (.object [("error", .string "method not allowed")]) 405 missCache
  else if request.pathname ≠ wellKnownPath then
    json (.object [("error", .string "not found")]) 404 missCache
  else
    let firstLabel := (request.hostname.splitOn '.').headD []
    let raw := stripPreview firstLabel
    let candidate := letters.toUpperCase raw
    if contractIdRe candidate = true then
      lookupAnswer registry network candidate
    else
      let name := letters.toLowerCase raw
      let isPreviewRoot := isNumber firstLabel || (prNumber firstLabel).isSome
      if !isPreviewRoot && nameRe name && !reservedDappSubdomain name then
        resolveAnswer registry network name
      else
        json (.object [("error", .string "not a Nido account")]) 404 missCache

/-! ### Keys and deployments -/

inductive AccountKey where
  | name (text : List Char) (valid : nameRe text = true)
  | contract (text : List Char) (valid : contractIdRe text = true)

def AccountKey.text : AccountKey → List Char
  | .name text _ => text
  | .contract text _ => text

theorem AccountKey.name_text {text : List Char} (valid : nameRe text = true) :
    (AccountKey.name text valid).text = text := rfl

theorem AccountKey.contract_text {text : List Char} (valid : contractIdRe text = true) :
    (AccountKey.contract text valid).text = text := rfl

structure HostLabel where
  text : List Char
  plain : '.' ∉ text ∧ '/' ∉ text ∧ ':' ∉ text

structure PreviewNumber where
  digits : List Char
  number : isNumber digits = true

inductive Root where
  | apex (first second : HostLabel)
  | preview (number : PreviewNumber) (first second : HostLabel)
  | localhost (port : Option PreviewNumber)

def Root.host : Root → List Char
  | .apex first second => first.text ++ '.' :: second.text
  | .preview number first second => number.digits ++ '.' :: (first.text ++ '.' :: second.text)
  | .localhost none => "localhost".toList
  | .localhost (some port) => "localhost".toList ++ ':' :: port.digits

/-- The host of an address `//host/path`. -/
def hostOf (url : List Char) : List Char := (url.drop 2).takeWhile (fun c => c != '/')

/-- `hostname` of a host: without the port. -/
def hostnameOfHost (host : List Char) : List Char := host.takeWhile (fun c => c != ':')

def accountHost (letters : LetterCase) (root : Root) (key : AccountKey) : List Char :=
  hostOf (accountUrl letters root.host key.text ['/'])

/-- The page's own reading of its host. -/
def fromHostname (letters : LetterCase) (key : AccountKey) (host : List Char) :
    Option (List Char) :=
  match key with
  | .name _ _ => nameFromHostname letters host
  | .contract _ _ => contractIdFromHostname letters host

def answer (registry : Registry) (network : String) : AccountKey → Response
  | .name text _ => resolveAnswer registry network text
  | .contract text _ => lookupAnswer registry network text

/-- A key survives as a host of a deployment, and other hosts can be built from it. -/
structure Encodes (letters : LetterCase) (root : Root) (key : AccountKey) : Prop where
  decoded : fromHostname letters key (accountHost letters root key) = some key.text
  stripped : stripSubdomain (accountHost letters root key) = root.host
  resolved : ∀ registry network,
    handleResolve letters ⟨"GET", hostnameOfHost (accountHost letters root key), wellKnownPath⟩
      registry network = answer registry network key
  others : ∀ other : AccountKey, other.text ≠ key.text → ∀ path,
    accountUrl letters (accountHost letters root key) other.text path =
      accountUrl letters root.host other.text path

/-! ### Characters of keys -/

theorem nameCharacters_plain : ∀ c ∈ nameCharacters,
    c.toNat < 128 ∧ c.toLower = c ∧ lineTerminator c = false ∧ c ≠ '-' ∧ c ≠ '.' ∧ c ≠ '/' ∧
      c ≠ ':' := by
  rw [← List.all_iff_forall_prop]
  decide

theorem lowercase_letters : ∀ c ∈ lowercase, c ∈ nameCharacters ∧ c.isDigit = false := by
  rw [← List.all_iff_forall_prop]
  decide

theorem base32_lower : ∀ c ∈ base32,
    c.toNat < 128 ∧ c.toLower.toUpper = c ∧ c.toLower ∈ nameCharacters := by
  rw [← List.all_iff_forall_prop]
  decide

theorem nameRe_iff {text : List Char} :
    nameRe text = true ↔ ∃ first rest, text = first :: rest ∧ first ∈ lowercase ∧
      rest.length ≤ 14 ∧ ∀ c ∈ rest, c ∈ nameCharacters := by
  unfold nameRe
  cases text with
  | nil => simp
  | cons first rest => simp [and_assoc]

theorem contractIdRe_iff {text : List Char} :
    contractIdRe text = true ↔
      ∃ rest, text = 'C' :: rest ∧ rest.length = 55 ∧ ∀ c ∈ rest, c ∈ base32 := by
  unfold contractIdRe
  split
  next rest => simp
  next other =>
    constructor
    · intro impossible
      cases impossible
    · rintro ⟨rest, rfl, _⟩
      exact absurd rfl (other rest)

theorem name_characters {text : List Char} (valid : nameRe text = true) :
    ∀ c ∈ text, c ∈ nameCharacters := by
  obtain ⟨first, rest, rfl, letter, _, others⟩ := nameRe_iff.mp valid
  intro c member
  rcases List.mem_cons.mp member with rfl | later
  · exact (lowercase_letters c letter).1
  · exact others c later

theorem contract_characters {text : List Char} (valid : contractIdRe text = true) :
    ∀ c ∈ text, c ∈ base32 := by
  obtain ⟨rest, rfl, _, others⟩ := contractIdRe_iff.mp valid
  intro c member
  rcases List.mem_cons.mp member with rfl | later
  · decide
  · exact others c later

theorem plainKey_of_characters {first : Char} {rest : List Char} (letter : first ∈ lowercase)
    (others : ∀ c ∈ rest, c ∈ nameCharacters) : PlainKey (first :: rest) := by
  have facts : ∀ c ∈ first :: rest, lineTerminator c = false ∧ c ≠ '-' ∧ c ≠ '.' ∧ c ≠ '/' ∧
      c ≠ ':' := by
    intro c member
    rcases List.mem_cons.mp member with rfl | later
    · exact (nameCharacters_plain c (lowercase_letters c letter).1).2.2
    · exact (nameCharacters_plain c (others c later)).2.2
  constructor
  · exact ⟨first, rest, rfl, (lowercase_letters first letter).2⟩
  · exact fun member => (facts _ member).2.1 rfl
  · exact fun member => (facts _ member).2.2.1 rfl
  · exact fun member => (facts _ member).2.2.2.1 rfl
  · exact fun member => (facts _ member).2.2.2.2 rfl
  · rw [List.any_eq_false]
    intro c member
    rw [(facts c member).1]
    decide

section Letters

variable (letters : LetterCase)

theorem lower_name {text : List Char} (valid : nameRe text = true) :
    letters.toLowerCase text = text := by
  have characters := name_characters valid
  rw [letters.lower_ascii text (fun c member => (nameCharacters_plain c (characters c member)).1)]
  conv_rhs => rw [← List.map_id text]
  apply List.map_congr_left
  intro c member
  exact (nameCharacters_plain c (characters c member)).2.1

theorem lower_contract {text : List Char} (valid : contractIdRe text = true) :
    letters.toLowerCase text = text.map Char.toLower :=
  letters.lower_ascii text
    (fun c member => (base32_lower c (contract_characters valid c member)).1)

theorem upper_contract {text : List Char} (valid : contractIdRe text = true) :
    letters.toUpperCase (text.map Char.toLower) = text := by
  have characters := contract_characters valid
  rw [letters.upper_ascii, List.map_map]
  · conv_rhs => rw [← List.map_id text]
    apply List.map_congr_left
    intro c member
    exact (base32_lower c (characters c member)).2.1
  · intro c member
    obtain ⟨upper, listed, rfl⟩ := List.mem_map.mp member
    exact (nameCharacters_plain _ (base32_lower upper (characters upper listed)).2.2).1

theorem AccountKey.plain (key : AccountKey) : PlainKey (letters.toLowerCase key.text) := by
  cases key with
  | name text valid =>
      obtain ⟨first, rest, same, letter, _, others⟩ := nameRe_iff.mp valid
      change PlainKey (letters.toLowerCase text)
      rw [lower_name letters valid, same]
      exact plainKey_of_characters letter others
  | contract text valid =>
      obtain ⟨rest, same, _, others⟩ := contractIdRe_iff.mp valid
      change PlainKey (letters.toLowerCase text)
      rw [lower_contract letters valid, same, List.map_cons]
      apply plainKey_of_characters (by decide)
      intro c member
      obtain ⟨upper, listed, rfl⟩ := List.mem_map.mp member
      exact (base32_lower upper (others upper listed)).2.2

theorem name_no_contract {text : List Char} (valid : nameRe text = true) :
    contractIdRe (letters.toUpperCase text) = false ∧ isContractId text = false := by
  have characters := name_characters valid
  have ascii : ∀ c ∈ text, c.toNat < 128 :=
    fun c member => (nameCharacters_plain c (characters c member)).1
  have short : text.length ≤ 15 := by
    obtain ⟨first, rest, rfl, _, length, _⟩ := nameRe_iff.mp valid
    rw [List.length_cons]
    omega
  constructor
  · rw [letters.upper_ascii text ascii]
    cases matched : contractIdRe (text.map Char.toUpper) with
    | false => rfl
    | true =>
        obtain ⟨rest, same, length, _⟩ := contractIdRe_iff.mp matched
        have lengths := congrArg List.length same
        rw [List.length_map, List.length_cons] at lengths
        omega
  · have units : utf16Length text = text.length := by
      unfold utf16Length
      have ones : text.map (fun c => if c.toNat < 0x10000 then 1 else 2) =
          text.map (fun _ => 1) := by
        apply List.map_congr_left
        intro c member
        have small := ascii c member
        exact if_pos (by omega)
      rw [ones]
      simp
    have other : (utf16Length text == 56) = false := by
      rw [units, beq_eq_false_iff_ne]
      omega
    unfold isContractId
    rw [other]
    rfl

/-- Of the properties of an object, one is a name. -/
theorem reserved_name {text : List Char} (valid : nameRe text = true) :
    reservedDappSubdomain text = decide (text = "constructor".toList) := by
  by_cases same : text = "constructor".toList
  · rw [decide_eq_true same, same]
    decide
  · rw [decide_eq_false same]
    cases reserved : reservedDappSubdomain text with
    | false => rfl
    | true =>
        have properties : ∀ property ∈ dappProperties, nameRe property.toList = true →
            property.toList = "constructor".toList := by
          decide
        obtain ⟨property, member, equal⟩ := List.any_eq_true.mp reserved
        have text_ := eq_of_beq equal
        rw [text_] at valid same
        exact absurd (properties property member valid) same

end Letters

/-! ### Hosts of accounts -/

def Root.number : Root → Option (List Char)
  | .apex first _ => previewNumber first.text
  | .preview number _ _ => some number.digits
  | .localhost _ => none

def Root.below : Root → List Char
  | .apex first second =>
      match previewNumber first.text with
      | some _ => second.text
      | none => first.text ++ '.' :: second.text
  | .preview _ first second => first.text ++ '.' :: second.text
  | .localhost port => (Root.localhost port).host

theorem Root.below_numbered {first second : HostLabel} {number : List Char}
    (named : previewNumber first.text = some number) :
    (Root.apex first second).below = second.text := by
  unfold below
  dsimp only
  rw [named]

theorem Root.below_plain {first second : HostLabel} (named : previewNumber first.text = none) :
    (Root.apex first second).below = first.text ++ '.' :: second.text := by
  unfold below
  dsimp only
  rw [named]

theorem PreviewNumber.no_separator (number : PreviewNumber) :
    '.' ∉ number.digits ∧ '/' ∉ number.digits :=
  ⟨isNumber_not_mem number.number (by decide), isNumber_not_mem number.number (by decide)⟩

theorem PreviewNumber.previewNumber (number : PreviewNumber) :
    Sdk.previewNumber number.digits = some number.digits := by
  unfold Sdk.previewNumber bareRoot
  rw [if_pos number.number, Option.some_or]

theorem Root.number_digits (root : Root) :
    ∀ preview, root.number = some preview → isNumber preview = true := by
  cases root with
  | apex first second => exact fun preview named => previewNumber_isNumber named
  | preview number first second =>
      intro preview named
      cases named
      exact number.number
  | localhost port =>
      intro preview named
      cases named

theorem localhost_single (port : Option PreviewNumber) :
    '.' ∉ (Root.localhost port).host ∧ '/' ∉ (Root.localhost port).host := by
  cases port with
  | none => decide
  | some number =>
      have separators := number.no_separator
      unfold Root.host
      constructor
      · rw [List.mem_append, List.mem_cons, not_or, not_or]
        exact ⟨by decide, by decide, separators.1⟩
      · rw [List.mem_append, List.mem_cons, not_or, not_or]
        exact ⟨by decide, by decide, separators.2⟩

theorem Root.below_slashless (root : Root) : '/' ∉ root.below := by
  have pair (first second : HostLabel) : '/' ∉ first.text ++ '.' :: second.text := by
    rw [List.mem_append, List.mem_cons, not_or, not_or]
    exact ⟨first.plain.2.1, by decide, second.plain.2.1⟩
  cases root with
  | apex first second =>
      cases named : previewNumber first.text with
      | some number =>
          rw [below_numbered named]
          exact second.plain.2.1
      | none =>
          rw [below_plain named]
          exact pair first second
  | preview number first second => exact pair first second
  | localhost port => exact (localhost_single port).2

section Account

variable (letters : LetterCase)

theorem accountUrl_root (root : Root) (contractId path : List Char) :
    accountUrl letters root.host contractId path =
      '/' :: '/' :: (accountLabel (letters.toLowerCase contractId) root.number ++
        '.' :: root.below ++ path) := by
  cases root with
  | apex first second =>
      change accountUrl letters (first.text ++ '.' :: second.text) contractId path = _
      rw [accountUrl_label letters first.plain.1]
      have carried : (Root.apex first second).number = previewNumber first.text := rfl
      rw [carried]
      cases named : previewNumber first.text with
      | some number => rw [if_pos (Or.inl Option.isSome_some), Root.below_numbered named]
      | none => rw [if_neg (by simp [second.plain.1]), Root.below_plain named]
  | preview number first second =>
      change accountUrl letters (number.digits ++ '.' :: _) contractId path = _
      rw [accountUrl_label letters number.no_separator.1, number.previewNumber,
        if_pos (Or.inl Option.isSome_some)]
      rfl
  | localhost port => exact accountUrl_single letters (localhost_single port).1 contractId path

theorem accountHost_eq (root : Root) (key : AccountKey) :
    accountHost letters root key =
      accountLabel (letters.toLowerCase key.text) root.number ++ '.' :: root.below := by
  have plain := key.plain letters
  have slashless : ∀ c ∈ accountLabel (letters.toLowerCase key.text) root.number ++
      '.' :: root.below, (c != '/') = true := by
    intro c member
    rw [bne_iff_ne]
    rintro rfl
    rcases List.mem_append.mp member with inLabel | inRest
    · exact not_mem_accountLabel root.number_digits plain.slashless (by decide) (by decide) inLabel
    · rcases List.mem_cons.mp inRest with dot | below
      · exact absurd dot (by decide)
      · exact root.below_slashless below
  unfold accountHost hostOf
  rw [accountUrl_root, List.drop_succ_cons, List.drop_succ_cons, List.drop_zero,
    List.takeWhile_append_of_pos slashless]
  exact List.append_nil _

theorem accountHost_label (root : Root) (key : AccountKey) :
    '.' ∉ accountLabel (letters.toLowerCase key.text) root.number :=
  not_mem_accountLabel root.number_digits (key.plain letters).undotted (by decide) (by decide)

theorem fromHostname_label (root : Root) (key : AccountKey) (rest : List Char) :
    fromHostname letters key (accountLabel (letters.toLowerCase key.text) root.number ++
        '.' :: rest) =
      if key.text = "constructor".toList then none else some key.text := by
  have plain := key.plain letters
  cases key with
  | name text valid =>
      unfold fromHostname
      dsimp only
      rw [nameFromHostname_label plain root.number_digits, AccountKey.name_text,
        lower_name letters valid, lower_name letters valid, (name_no_contract letters valid).2,
        if_neg (by decide), reserved_name valid]
      simp only [decide_eq_true_eq]
  | contract text valid =>
      have other : text ≠ "constructor".toList := by
        obtain ⟨tail, same, _⟩ := contractIdRe_iff.mp valid
        rw [same]
        intro equal
        cases equal
      unfold fromHostname
      dsimp only
      rw [contractIdFromHostname_label plain root.number_digits, AccountKey.contract_text,
        lower_contract letters valid, upper_contract letters valid, if_neg other]

theorem stripSubdomain_accountHost (root : Root) (key : AccountKey) :
    stripSubdomain (accountHost letters root key) =
      match root.number with
      | some number => number ++ '.' :: root.below
      | none => root.below := by
  have read := stripSubdomain_label (accountHost_label letters root key) root.below
  rw [previewNumber_accountLabel (key.plain letters) root.number_digits] at read
  rw [accountHost_eq]
  refine read.trans ?_
  cases root.number with
  | some number => rfl
  | none => rfl

theorem handleResolve_accountHost (root : Root) (key : AccountKey)
    (unreserved : key.text ≠ "constructor".toList) (registry : Registry) (network : String) :
    handleResolve letters ⟨"GET", hostnameOfHost (accountHost letters root key), wellKnownPath⟩
      registry network = answer registry network key := by
  have plain := key.plain letters
  have colonless : ∀ c ∈ accountLabel (letters.toLowerCase key.text) root.number,
      (c != ':') = true := by
    intro c member
    rw [bne_iff_ne]
    rintro rfl
    exact not_mem_accountLabel root.number_digits plain.colonless (by decide) (by decide) member
  have hostname : hostnameOfHost (accountHost letters root key) =
      accountLabel (letters.toLowerCase key.text) root.number ++
        '.' :: root.below.takeWhile (fun c => c != ':') := by
    unfold hostnameOfHost
    rw [accountHost_eq, List.takeWhile_append_of_pos colonless]
    rfl
  have firstLabel : ((hostnameOfHost (accountHost letters root key)).splitOn '.').headD [] =
      accountLabel (letters.toLowerCase key.text) root.number := by
    rw [hostname, split_host (accountHost_label letters root key)]
    rfl
  have raw : stripPreview (accountLabel (letters.toLowerCase key.text) root.number) =
      letters.toLowerCase key.text := by
    unfold stripPreview
    rw [previewSubdomain_accountLabel plain root.number_digits]
  have get : ¬ "GET" ≠ "GET" := not_not.mpr rfl
  have wellKnown : ¬ wellKnownPath ≠ wellKnownPath := not_not.mpr rfl
  unfold handleResolve
  dsimp only
  rw [if_neg (by decide), if_neg get, if_neg wellKnown]
  rw [firstLabel, raw, isNumber_accountLabel plain, prNumber_accountLabel plain root.number_digits]
  cases key with
  | name text valid =>
      rw [AccountKey.name_text] at unreserved ⊢
      rw [lower_name letters valid, lower_name letters valid, (name_no_contract letters valid).1,
        if_neg (by decide), valid, reserved_name valid, decide_eq_false unreserved]
      rfl
  | contract text valid =>
      rw [AccountKey.contract_text, lower_contract letters valid, upper_contract letters valid,
        if_pos valid]
      rfl

end Account

/-- The deployments whose own host carries its number as its accounts do. -/
def Root.Regular : Root → Prop
  | .apex first _ => ∀ number, previewNumber first.text = some number → number = first.text
  | .preview _ _ _ => True
  | .localhost _ => False

theorem Root.host_eq_iff (root : Root) :
    (match root.number with
      | some number => number ++ '.' :: root.below
      | none => root.below) = root.host ↔
      ∀ first second, root = .apex first second →
        ∀ number, previewNumber first.text = some number → number = first.text := by
  cases root with
  | apex first second =>
      have carried : (Root.apex first second).number = previewNumber first.text := rfl
      have host : (Root.apex first second).host = first.text ++ '.' :: second.text := rfl
      rw [carried, host]
      cases named : previewNumber first.text with
      | none =>
          dsimp only
          rw [below_plain named]
          apply iff_of_true rfl
          intro other _ same number otherNamed
          cases same
          rw [named] at otherNamed
          cases otherNamed
      | some number =>
          dsimp only
          rw [below_numbered named]
          constructor
          · intro same other _ equal found otherNamed
            cases equal
            rw [named] at otherNamed
            cases otherNamed
            exact (label_unique (isNumber_not_mem (previewNumber_isNumber named) (by decide))
              first.plain.1 same).1
          · intro regular
            rw [regular first second rfl number named]
  | preview number first second =>
      apply iff_of_true rfl
      intro _ _ impossible
      cases impossible
  | localhost port =>
      apply iff_of_true rfl
      intro _ _ impossible
      cases impossible

/-- Another account's host is built alike from a host of an account and from the root,
unless the root is a single label. -/
theorem accountUrl_accountHost (letters : LetterCase) (root : Root) (key : AccountKey)
    (dotted : root.number = none → '.' ∈ root.below) (contractId path : List Char) :
    accountUrl letters (accountHost letters root key) contractId path =
      accountUrl letters root.host contractId path := by
  rw [accountHost_eq, accountUrl_label letters (accountHost_label letters root key),
    previewNumber_accountLabel (key.plain letters) root.number_digits, accountUrl_root]
  cases named : root.number with
  | some number => rw [if_pos (Or.inl Option.isSome_some)]
  | none => rw [if_pos (Or.inr (dotted named))]

theorem accountUrl_localhost (letters : LetterCase) (port : Option PreviewNumber)
    (key : AccountKey) (contractId path : List Char) :
    accountUrl letters (accountHost letters (.localhost port) key) contractId path ≠
      accountUrl letters (Root.localhost port).host contractId path := by
  have single : '.' ∉ (Root.localhost port).below := (localhost_single port).1
  have unnumbered : (Root.localhost port).number = none := rfl
  rw [accountHost_eq, accountUrl_label letters (accountHost_label letters _ key),
    previewNumber_accountLabel (key.plain letters) (Root.number_digits _), accountUrl_root,
    unnumbered, if_neg (by simp [single])]
  intro same
  have lengths := congrArg List.length same
  have longer := List.length_pos_iff.mpr (key.plain letters).nonempty
  simp only [accountLabel, List.length_cons, List.length_append] at lengths
  omega

theorem exists_other_name (text : List Char) : ∃ other : AccountKey, other.text ≠ text := by
  by_cases same : text = ['a']
  · exact ⟨.name ['b'] (by decide), by rw [same]; decide⟩
  · exact ⟨.name ['a'] (by decide), fun equal => same equal.symm⟩

/-- Hosts of accounts are lossless exactly for the deployments other than a local machine
whose host carries no other number than its accounts, and for every key but one name. -/
theorem accountHost_encodes_iff (letters : LetterCase) (root : Root) (key : AccountKey) :
    Encodes letters root key ↔ root.Regular ∧ key.text ≠ "constructor".toList := by
  constructor
  · intro encodes
    have unreserved : key.text ≠ "constructor".toList := by
      intro reserved
      have decoded := encodes.decoded
      rw [accountHost_eq, fromHostname_label, if_pos reserved] at decoded
      cases decoded
    refine ⟨?_, unreserved⟩
    have stripped := encodes.stripped
    rw [stripSubdomain_accountHost, root.host_eq_iff] at stripped
    cases root with
    | apex first second => exact stripped first second rfl
    | preview number first second => exact trivial
    | localhost port =>
        obtain ⟨other, different⟩ := exists_other_name key.text
        exact absurd (encodes.others other different [])
          (accountUrl_localhost letters port key other.text [])
  · rintro ⟨regular, unreserved⟩
    constructor
    · rw [accountHost_eq, fromHostname_label, if_neg unreserved]
    · rw [stripSubdomain_accountHost, root.host_eq_iff]
      rintro first second rfl
      exact regular
    · exact handleResolve_accountHost letters root key unreserved
    · intro other _ path
      apply accountUrl_accountHost
      intro unnumbered
      cases root with
      | apex first second =>
          rw [Root.below_plain unnumbered]
          exact List.mem_append_right _ List.mem_cons_self
      | preview number first second => cases unnumbered
      | localhost port => exact regular.elim

def asciiLetters : LetterCase where
  toLowerCase := fun text => text.map Char.toLower
  toUpperCase := fun text => text.map Char.toUpper
  lower_ascii := fun _ _ => rfl
  upper_ascii := fun _ _ => rfl

/-- A registered name that the page takes for a reserved one. -/
theorem constructor_unread :
    ¬ Encodes asciiLetters (.apex ⟨"nido".toList, by decide⟩ ⟨"fyi".toList, by decide⟩)
      (.name "constructor".toList (by decide)) := by
  intro encodes
  have decoded := encodes.decoded
  rw [accountHost_eq, fromHostname_label, AccountKey.name_text] at decoded
  exact absurd decoded (by decide)

end Nido.Resolver
