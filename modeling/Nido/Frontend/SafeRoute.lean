/-
Where a signing page may send its user afterwards.

The address comes from the page that asked for the signature. It is opened only when it
lies in the deployment of the signing page itself.
-/

import Nido.Sdk.Url

namespace Nido.Frontend

open Sdk

/-! ### Addresses -/

/-- A parsed address. Its host is a name, the four numbers of an address of version 4, or
an address of version 6 in brackets. -/
structure Url where
  protocol : String
  hostname : List Char
  port : List Char
  href : String
  port_digits : ∀ c ∈ port, c.isDigit = true
  hostname_form : (':' ∉ hostname ∧ '[' ∉ hostname) ∨
    ('.' ∉ hostname ∧ hostname.head? = some '[')
  hostname_number : (hostname.splitOn '.').getLast?.any isNumber = true →
    (hostname.splitOn '.').length = 4

def Url.host (url : Url) : List Char :=
  if url.port = [] then url.hostname else url.hostname ++ ':' :: url.port

/-- `new URL(text, base)`; the text of an address is an address again. -/
structure UrlParser where
  parse : String → Option String → Option Url
  reparse : ∀ text base url, parse text base = some url →
    (url.protocol = "https:" ∨ url.protocol = "http:") → parse url.href none = some url

/-- The host without what comes after its last colon. -/
def hostnameOf (host : List Char) : List Char :=
  if ':' ∈ host then
    ((host.reverse.dropWhile (fun c => c != ':')).drop 1).reverse
  else
    host

def schemeAllowed (u : Url) : Prop :=
  u.protocol = "https:" ∨
    (u.protocol = "http:" ∧
      (u.hostname = "localhost".toList ∨ u.hostname = "127.0.0.1".toList))

instance (u : Url) : Decidable (schemeAllowed u) := inferInstanceAs (Decidable (_ ∨ _))

def safeRouteUrl (parser : UrlParser) (url : Option String) (base : String) : Option String := do
  let text ← url
  if text = "" then
    none
  else
    let u ← parser.parse text (some base)
    let baseUrl ← parser.parse base none
    if schemeAllowed u then
      let apex := hostnameOf (stripSubdomain baseUrl.host)
      let candidateRoot := hostnameOf (stripSubdomain u.host)
      if u.hostname = apex ∨ '.' :: apex <:+ u.hostname ∨ candidateRoot = apex then
        some u.href
      else
        none
    else
      none

/-! ### Roots of hosts -/

def Within (domain host : List Char) : Prop := host = domain ∨ '.' :: domain <:+ host

theorem hostnameOf_plain {host : List Char} (plain : ':' ∉ host) : hostnameOf host = host :=
  if_neg plain

theorem hostnameOf_port {host port : List Char} (plain : ':' ∉ port) :
    hostnameOf (host ++ ':' :: port) = host := by
  unfold hostnameOf
  have backwards : (host ++ ':' :: port).reverse = port.reverse ++ ':' :: host.reverse := by
    simp
  have skipped : ∀ c ∈ port.reverse, (c != ':') = true := by
    intro c member
    rw [bne_iff_ne]
    rintro rfl
    exact plain (List.mem_reverse.mp member)
  rw [if_pos (by simp), backwards, List.dropWhile_append_of_pos skipped]
  exact List.reverse_reverse host

theorem stripSubdomain_mem {host : List Char} {c : Char} (member : c ∈ stripSubdomain host)
    (other : c.isDigit = false) : c ∈ host := by
  rcases host_cases host with single | ⟨label, rest, plain, rfl⟩
  · rwa [stripSubdomain_single single] at member
  · rw [stripSubdomain_label plain] at member
    cases named : previewNumber label with
    | none =>
        rw [named] at member
        exact List.mem_append_right _ (List.mem_cons_of_mem _ member)
    | some number =>
        rw [named] at member
        rcases List.mem_append.mp member with inNumber | inRest
        · exact absurd inNumber (isNumber_not_mem (previewNumber_isNumber named) other)
        · exact List.mem_append_right _ inRest

theorem Url.root (url : Url) (plain : ':' ∉ url.hostname) :
    hostnameOf (stripSubdomain url.host) = stripSubdomain url.hostname := by
  have bare : ':' ∉ stripSubdomain url.hostname :=
    fun member => plain (stripSubdomain_mem member (by decide))
  have digits {c : Char} (other : c.isDigit = false) : c ∉ url.port := by
    intro member
    have digit := url.port_digits c member
    rw [other] at digit
    cases digit
  unfold Url.host
  split
  next => exact hostnameOf_plain bare
  next =>
    have ported : stripSubdomain (url.hostname ++ ':' :: url.port) =
        stripSubdomain url.hostname ++ ':' :: url.port := by
      rcases host_cases url.hostname with single | ⟨label, rest, labelPlain, split_⟩
      · rw [stripSubdomain_single single, stripSubdomain_single]
        rw [List.mem_append, List.mem_cons, not_or, not_or]
        exact ⟨single, by decide, digits (by decide)⟩
      · rw [split_, List.append_assoc, List.cons_append, stripSubdomain_label labelPlain,
          stripSubdomain_label labelPlain]
        cases previewNumber label with
        | none => rfl
        | some number => rw [List.append_assoc, List.cons_append]
    rw [ported, hostnameOf_port (digits (by decide))]

theorem Url.root_bracket (url : Url) (single : '.' ∉ url.hostname)
    (bracket : url.hostname.head? = some '[') : '[' ∈ hostnameOf (stripSubdomain url.host) := by
  obtain ⟨rest, written⟩ := List.head?_eq_some_iff.mp bracket
  have hostSingle : '.' ∉ url.host := by
    unfold Url.host
    split
    next => exact single
    next =>
      rw [List.mem_append, List.mem_cons, not_or, not_or]
      refine ⟨single, by decide, ?_⟩
      intro member
      exact absurd (url.port_digits _ member) (by decide)
  have opened : ∃ after, url.host = '[' :: after := by
    unfold Url.host
    rw [written]
    split
    next => exact ⟨rest, rfl⟩
    next => exact ⟨_, rfl⟩
  obtain ⟨after, opened⟩ := opened
  rw [stripSubdomain_single hostSingle, opened]
  by_cases coloned : ':' ∈ '[' :: after
  · obtain ⟨before, port, split_, plain⟩ := List.eq_append_cons_of_mem
      (List.mem_reverse.mpr coloned)
    have forwards : '[' :: after = port.reverse ++ ':' :: before.reverse := by
      rw [← List.reverse_reverse ('[' :: after), split_]
      simp
    rw [forwards, hostnameOf_port (fun member => plain (List.mem_reverse.mp member))]
    cases shape : port.reverse with
    | nil =>
        rw [shape] at forwards
        cases forwards
    | cons c others =>
        rw [shape] at forwards
        rw [← (List.cons.inj forwards).1]
        exact List.mem_cons_self
  · rw [hostnameOf_plain coloned]
    exact List.mem_cons_self

theorem Url.related_iff (url : Url) {apex : List Char} (plain : '[' ∉ apex) :
    (url.hostname = apex ∨ '.' :: apex <:+ url.hostname ∨
        hostnameOf (stripSubdomain url.host) = apex) ↔
      Within apex url.hostname ∨ ∃ label rest number, '.' ∉ label ∧
        url.hostname = label ++ '.' :: rest ∧ previewNumber label = some number ∧
          apex = number ++ '.' :: rest := by
  rw [← or_assoc]
  rcases url.hostname_form with ⟨colonless, _⟩ | ⟨single, bracket⟩
  · rw [url.root colonless]
    rcases host_cases url.hostname with single | ⟨label, rest, labelPlain, split_⟩
    · rw [stripSubdomain_single single]
      constructor
      · rintro (within | same)
        · exact Or.inl within
        · exact Or.inl (Or.inl same)
      · rintro (within | ⟨label, rest, _, _, split_, _⟩)
        · exact Or.inl within
        · rw [split_] at single
          exact absurd (List.mem_append_right _ List.mem_cons_self) single
    · rw [split_, stripSubdomain_label labelPlain]
      constructor
      · rintro (within | root)
        · exact Or.inl within
        · cases named : previewNumber label with
          | none =>
              rw [named] at root
              exact Or.inl (Or.inr ⟨label, by rw [← root]⟩)
          | some number =>
              rw [named] at root
              exact Or.inr ⟨label, rest, number, labelPlain, rfl, named, root.symm⟩
      · rintro (within | ⟨other, below, number, otherPlain, same, named, root⟩)
        · exact Or.inl within
        · obtain ⟨rfl, rfl⟩ := label_unique labelPlain otherPlain same
          rw [named]
          exact Or.inr root.symm
  · constructor
    · rintro (within | root)
      · exact Or.inl within
      · have inRoot := url.root_bracket single bracket
        rw [root] at inRoot
        exact absurd inRoot plain
    · rintro (within | ⟨label, rest, _, _, split_, _⟩)
      · exact Or.inl within
      · rw [split_] at single
        exact absurd (List.mem_append_right _ List.mem_cons_self) single

/-- A label with a number over the same rest, and the number. -/
def Sibling (number rest host : List Char) : Prop :=
  ∃ label, '.' ∉ label ∧ host = label ++ '.' :: rest ∧ previewNumber label = some number

theorem Url.related_single (url : Url) {apex : List Char} (plain : '[' ∉ apex)
    (single : '.' ∉ apex) :
    (url.hostname = apex ∨ '.' :: apex <:+ url.hostname ∨
      hostnameOf (stripSubdomain url.host) = apex) ↔ Within apex url.hostname := by
  rw [url.related_iff plain]
  constructor
  · rintro (within | ⟨_, _, number, _, _, _, rfl⟩)
    · exact within
    · exact absurd (List.mem_append_right _ List.mem_cons_self) single
  · exact Or.inl

theorem Url.related_label (url : Url) {number rest : List Char}
    (plain : '[' ∉ number ++ '.' :: rest) (single : '.' ∉ number) :
    (url.hostname = number ++ '.' :: rest ∨ '.' :: (number ++ '.' :: rest) <:+ url.hostname ∨
        hostnameOf (stripSubdomain url.host) = number ++ '.' :: rest) ↔
      Within (number ++ '.' :: rest) url.hostname ∨ Sibling number rest url.hostname := by
  rw [url.related_iff plain]
  apply or_congr_right
  constructor
  · rintro ⟨label, below, other, labelPlain, split_, named, same⟩
    obtain ⟨rfl, rfl⟩ := label_unique single
      (isNumber_not_mem (previewNumber_isNumber named) (by decide)) same
    exact ⟨label, labelPlain, split_, named⟩
  · rintro ⟨label, labelPlain, split_, named⟩
    exact ⟨label, rest, number, labelPlain, split_, named, rfl⟩

/-! ### The deployment -/

/-- The hosts outside the domain `a.b` that a page of the domain still leads to: those of
the whole of `b` from the bare domain, those of another number's preview from a bare domain
whose label has a number, and those of a preview with the number that is the domain's
label. -/
def Strays (a b base host : List Char) : Prop :=
  ¬ Within (a ++ '.' :: b) host ∧
    ((base = a ++ '.' :: b ∧ previewNumber a = none ∧ Within b host) ∨
      (base = a ++ '.' :: b ∧ ∃ number, previewNumber a = some number ∧
        (Within (number ++ '.' :: b) host ∨ Sibling number b host)) ∨
      (∃ label, '.' ∉ label ∧ base = label ++ '.' :: (a ++ '.' :: b) ∧
        previewNumber label = none ∧ Sibling a b host))

theorem within_parent {label rest host : List Char}
    (within : Within (label ++ '.' :: rest) host) : Within rest host := by
  right
  rcases within with rfl | ⟨before, rfl⟩
  · exact ⟨label, rfl⟩
  · exact ⟨before ++ '.' :: label, by simp⟩

theorem sibling_within {number rest host : List Char} (sibling : Sibling number rest host) :
    Within rest host := by
  obtain ⟨label, _, rfl, _⟩ := sibling
  exact Or.inr ⟨label, rfl⟩

theorem Url.strays_iff {a b base : List Char} (url : Url) (aPlain : '.' ∉ a) (bPlain : '.' ∉ b)
    (bracketless : '[' ∉ base)
    (host : base = a ++ '.' :: b ∨ ∃ label, '.' ∉ label ∧ base = label ++ '.' :: (a ++ '.' :: b)) :
    ((url.hostname = stripSubdomain base ∨ '.' :: stripSubdomain base <:+ url.hostname ∨
        hostnameOf (stripSubdomain url.host) = stripSubdomain base) ∧
        ¬ Within (a ++ '.' :: b) url.hostname) ↔
      Strays a b base url.hostname := by
  have rootPlain : '[' ∉ stripSubdomain base :=
    fun member => bracketless (stripSubdomain_mem member (by decide))
  rw [and_comm]
  apply and_congr_right
  intro outside
  rcases host with rfl | ⟨label, labelPlain, rfl⟩
  · have bare : ¬ ∃ label, '.' ∉ label ∧ a ++ '.' :: b = label ++ '.' :: (a ++ '.' :: b) ∧
        previewNumber label = none ∧ Sibling a b url.hostname := by
      rintro ⟨label, _, same, _⟩
      have lengths := congrArg List.length same
      simp only [List.length_append, List.length_cons] at lengths
      omega
    rw [stripSubdomain_label aPlain] at rootPlain ⊢
    cases named : previewNumber a with
    | none =>
        rw [named] at rootPlain
        dsimp only at rootPlain ⊢
        rw [url.related_single rootPlain bPlain]
        simp [bare]
    | some number =>
        rw [named] at rootPlain
        dsimp only at rootPlain ⊢
        rw [url.related_label rootPlain
          (isNumber_not_mem (previewNumber_isNumber named) (by decide))]
        simp [bare]
  · have longer : label ++ '.' :: (a ++ '.' :: b) ≠ a ++ '.' :: b := by
      intro same
      have lengths := congrArg List.length same
      simp only [List.length_append, List.length_cons] at lengths
      omega
    rw [stripSubdomain_label labelPlain] at rootPlain ⊢
    cases named : previewNumber label with
    | none =>
        rw [named] at rootPlain
        dsimp only at rootPlain ⊢
        rw [url.related_label rootPlain aPlain]
        constructor
        · rintro (within | sibling)
          · exact absurd within outside
          · exact Or.inr (Or.inr ⟨label, labelPlain, rfl, named, sibling⟩)
        · rintro (⟨same, _⟩ | ⟨same, _⟩ | ⟨_, _, _, _, sibling⟩)
          · exact absurd same longer
          · exact absurd same longer
          · exact Or.inr sibling
    | some number =>
        rw [named] at rootPlain
        dsimp only at rootPlain ⊢
        rw [url.related_label rootPlain
          (isNumber_not_mem (previewNumber_isNumber named) (by decide))]
        constructor
        · rintro (within | sibling)
          · exact absurd (within_parent within) outside
          · exact absurd (sibling_within sibling) outside
        · rintro (⟨same, _⟩ | ⟨same, _⟩ | ⟨other, otherPlain, same, unnamed, _⟩)
          · exact absurd same longer
          · exact absurd same longer
          · obtain ⟨rfl, _⟩ := label_unique labelPlain otherPlain same
            rw [named] at unnamed
            cases unnamed

theorem Url.last_label (url : Url) {a b : List Char} (aPlain : '.' ∉ a) (bPlain : '.' ∉ b)
    (host : url.hostname = a ++ '.' :: b ∨
      ∃ label, '.' ∉ label ∧ url.hostname = label ++ '.' :: (a ++ '.' :: b)) :
    isNumber b = false := by
  have pair : (a ++ '.' :: b).splitOn '.' = [a, b] := by
    rw [split_host aPlain, List.splitOn_eq_singleton bPlain]
  have four := url.hostname_number
  rcases host with same | ⟨label, labelPlain, same⟩
  · rw [same, pair] at four
    cases number : isNumber b with
    | false => rfl
    | true => exact absurd (four number) (by simp)
  · rw [same, split_host labelPlain, pair] at four
    cases number : isNumber b with
    | false => rfl
    | true => exact absurd (four number) (by simp)

theorem schemeAllowed_https {u : Url} {a b : List Char} (allowed : schemeAllowed u)
    (bPlain : '.' ∉ b) (word : isNumber b = false)
    (within : Within (a ++ '.' :: b) u.hostname) : u.protocol = "https:" := by
  have ends : ∃ before, u.hostname = before ++ '.' :: b := by
    rcases within with same | ⟨before, same⟩
    · exact ⟨a, same⟩
    · exact ⟨before ++ '.' :: a, by rw [← same]; simp⟩
  obtain ⟨before, ends⟩ := ends
  rcases allowed with https | ⟨_, local_ | local_⟩
  · exact https
  · rw [ends] at local_
    have dotted : '.' ∈ "localhost".toList := by
      rw [← local_]
      exact List.mem_append_right _ List.mem_cons_self
    exact absurd dotted (by decide)
  · rw [ends] at local_
    have backwards : b.reverse ++ '.' :: before.reverse =
        "1".toList ++ '.' :: "0.0.721".toList := by
      have turned := congrArg List.reverse local_
      rw [List.reverse_append, List.reverse_cons, List.append_assoc] at turned
      exact turned
    have last := (label_unique (fun member => bPlain (List.mem_reverse.mp member))
      (by decide) backwards).1
    have one : b = "1".toList := by
      rw [← List.reverse_reverse b, last]
      rfl
    rw [one] at word
    exact absurd word (by decide)

theorem safeRouteUrl_eq_some {parser : UrlParser} {url : Option String} {base href : String} :
    safeRouteUrl parser url base = some href ↔
      ∃ text u baseUrl, url = some text ∧ text ≠ "" ∧ parser.parse text (some base) = some u ∧
        parser.parse base none = some baseUrl ∧ schemeAllowed u ∧
          (u.hostname = hostnameOf (stripSubdomain baseUrl.host) ∨
            '.' :: hostnameOf (stripSubdomain baseUrl.host) <:+ u.hostname ∨
              hostnameOf (stripSubdomain u.host) = hostnameOf (stripSubdomain baseUrl.host)) ∧
            u.href = href := by
  unfold safeRouteUrl
  simp only [Option.bind_eq_bind, Option.bind_eq_some_iff]
  constructor
  · rintro ⟨text, given, result⟩
    split at result
    next => cases result
    next nonempty =>
      obtain ⟨u, parsed, result⟩ := Option.bind_eq_some_iff.mp result
      obtain ⟨baseUrl, opened, result⟩ := Option.bind_eq_some_iff.mp result
      split at result
      next allowed =>
        split at result
        next related =>
          exact ⟨text, u, baseUrl, given, nonempty, parsed, opened, allowed, related,
            Option.some.inj result⟩
        next => cases result
      next => cases result
  · rintro ⟨text, u, baseUrl, given, nonempty, parsed, opened, allowed, related, rfl⟩
    refine ⟨text, given, ?_⟩
    rw [if_neg nonempty, parsed, opened, Option.bind_some, Option.bind_some, if_pos allowed]
    exact if_pos related

/-- What the guard lets through, opened by the browser, is encrypted and in the domain. -/
def Stays (parser : UrlParser) (url : Option String) (base : String) (domain : List Char) :
    Prop :=
  ∀ href, safeRouteUrl parser url base = some href →
    ∃ landing, parser.parse href none = some landing ∧ landing.protocol = "https:" ∧
      Within domain landing.hostname

/-- The guard keeps to the domain `a.b` of a page exactly where no host strays. -/
theorem safeRouteUrl_stays_iff (parser : UrlParser) (url : Option String) {base : String}
    {baseUrl : Url} {a b : List Char} (opened : parser.parse base none = some baseUrl)
    (aPlain : '.' ∉ a) (bPlain : '.' ∉ b)
    (host : baseUrl.hostname = a ++ '.' :: b ∨
      ∃ label, '.' ∉ label ∧ baseUrl.hostname = label ++ '.' :: (a ++ '.' :: b)) :
    Stays parser url base (a ++ '.' :: b) ↔
      ∀ text candidate, url = some text → text ≠ "" →
        parser.parse text (some base) = some candidate → schemeAllowed candidate →
          ¬ Strays a b baseUrl.hostname candidate.hostname := by
  have word := baseUrl.last_label aPlain bPlain host
  have dotted : '.' ∈ baseUrl.hostname := by
    rcases host with same | ⟨label, _, same⟩
    · rw [same]
      exact List.mem_append_right _ List.mem_cons_self
    · rw [same]
      exact List.mem_append_right _ List.mem_cons_self
  obtain ⟨colonless, bracketless⟩ := baseUrl.hostname_form.resolve_right
    (fun bracket => bracket.1 dotted)
  have strays (candidate : Url) := candidate.strays_iff aPlain bPlain bracketless host
  have reparsed {text : String} {candidate : Url}
      (parsed : parser.parse text (some base) = some candidate)
      (allowed : schemeAllowed candidate) : parser.parse candidate.href none = some candidate :=
    parser.reparse text (some base) candidate parsed (allowed.imp_right And.left)
  constructor
  · intro stays text candidate given nonempty parsed allowed outside
    have related := (strays candidate).mpr outside
    rw [← baseUrl.root colonless] at related
    obtain ⟨landing, landed, _, within⟩ := stays candidate.href
      (safeRouteUrl_eq_some.mpr
        ⟨text, candidate, baseUrl, given, nonempty, parsed, opened, allowed, related.1, rfl⟩)
    rw [reparsed parsed allowed] at landed
    cases landed
    exact related.2 within
  · intro inside href result
    obtain ⟨text, u, other, given, nonempty, parsed, otherOpened, allowed, related, rfl⟩ :=
      safeRouteUrl_eq_some.mp result
    rw [opened] at otherOpened
    cases otherOpened
    rw [baseUrl.root colonless] at related
    have within : Within (a ++ '.' :: b) u.hostname := by
      by_contra outside
      exact inside text u given nonempty parsed allowed ((strays u).mp ⟨related, outside⟩)
    exact ⟨u, reparsed parsed allowed, schemeAllowed_https allowed bPlain word within, within⟩

/-! A page of an account, the bare domain, and two addresses. -/

def accountPage : Url where
  protocol := "https:"
  hostname := "cabc.nido.fyi".toList
  port := []
  href := "https://cabc.nido.fyi/"
  port_digits := List.forall_mem_nil _
  hostname_form := by decide
  hostname_number := by decide

def barePage : Url where
  protocol := "https:"
  hostname := "nido.fyi".toList
  port := []
  href := "https://nido.fyi/"
  port_digits := List.forall_mem_nil _
  hostname_form := by decide
  hostname_number := by decide

def namedAddress : Url where
  protocol := "https:"
  hostname := "alice.nido.fyi".toList
  port := []
  href := "https://alice.nido.fyi/account/"
  port_digits := List.forall_mem_nil _
  hostname_form := by decide
  hostname_number := by decide

def foreignAddress : Url where
  protocol := "https:"
  hostname := "evil.fyi".toList
  port := []
  href := "https://evil.fyi/"
  port_digits := List.forall_mem_nil _
  hostname_form := by decide
  hostname_number := by decide

def pagesParser : UrlParser where
  parse := fun text _ =>
    [accountPage, barePage, namedAddress, foreignAddress].find?
      (fun page => decide (text = page.href) || decide (text ++ "/" = page.href))
  reparse := by
    intro text base url parsed _
    have member := List.mem_of_find?_eq_some parsed
    simp only [List.mem_cons, List.not_mem_nil, or_false] at member
    rcases member with rfl | rfl | rfl | rfl
    · rfl
    · rfl
    · rfl
    · rfl

/-- A page of an account leads to another one, and not out of the domain. -/
theorem safeRouteUrl_stays_iff_account :
    safeRouteUrl pagesParser (some "https://alice.nido.fyi/account/") "https://cabc.nido.fyi" =
        some "https://alice.nido.fyi/account/" ∧
      Stays pagesParser (some "https://alice.nido.fyi/account/") "https://cabc.nido.fyi"
        ("nido".toList ++ '.' :: "fyi".toList) := by
  have opened : pagesParser.parse "https://cabc.nido.fyi" none = some accountPage := rfl
  constructor
  · apply safeRouteUrl_eq_some.mpr
    refine ⟨_, namedAddress, accountPage, rfl, by decide, rfl, opened, Or.inl rfl, ?_, rfl⟩
    right
    left
    exact ⟨"alice".toList, by decide⟩
  · apply (safeRouteUrl_stays_iff pagesParser _ opened (by decide) (by decide)
      (Or.inr ⟨"cabc".toList, by decide, by decide⟩)).mpr
    intro text candidate given _ parsed _ strays
    cases given
    have same : candidate = namedAddress := (Option.some.inj parsed).symm
    rw [same] at strays
    exact strays.1 (Or.inr ⟨"alice".toList, by decide⟩)

/-- From the bare domain every domain next to it is let through. -/
theorem bare_domain_strays :
    ¬ Stays pagesParser (some "https://evil.fyi/") "https://nido.fyi"
      ("nido".toList ++ '.' :: "fyi".toList) := by
  intro stays
  have accepted : safeRouteUrl pagesParser (some "https://evil.fyi/") "https://nido.fyi" =
      some "https://evil.fyi/" := by
    apply safeRouteUrl_eq_some.mpr
    refine ⟨_, foreignAddress, barePage, rfl, by decide, rfl, rfl, Or.inl rfl, ?_, rfl⟩
    right
    left
    exact ⟨"evil".toList, by decide⟩
  obtain ⟨landing, landed, _, within⟩ := stays _ accepted
  have same : landing = foreignAddress := (Option.some.inj landed).symm
  rw [same] at within
  rcases within with same | suffix
  · exact absurd same (by decide)
  · exact absurd suffix (by decide)

end Nido.Frontend
