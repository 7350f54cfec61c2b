/-
Base64.

Three bytes become four characters. Reading ignores space, and padding is needed only
where a text of whole groups has it: what was written is read back with it or without.
-/

import Mathlib.Data.List.Basic

namespace Base64

/-! ### Groups of six bits -/

def sextets : List UInt8 → List Nat
  | a :: b :: c :: rest =>
      a.toNat / 4 :: (a.toNat % 4 * 16 + b.toNat / 16) :: (b.toNat % 16 * 4 + c.toNat / 64) ::
        c.toNat % 64 :: sextets rest
  | [a, b] => [a.toNat / 4, a.toNat % 4 * 16 + b.toNat / 16, b.toNat % 16 * 4]
  | [a] => [a.toNat / 4, a.toNat % 4 * 16]
  | [] => []

/-- The bits that make up no byte are dropped. -/
def bytes : List Nat → List UInt8
  | a :: b :: c :: d :: rest =>
      UInt8.ofNat (a * 4 + b / 16) :: UInt8.ofNat (b % 16 * 16 + c / 4) ::
        UInt8.ofNat (c % 4 * 64 + d) :: bytes rest
  | [a, b, c] => [UInt8.ofNat (a * 4 + b / 16), UInt8.ofNat (b % 16 * 16 + c / 4)]
  | [a, b] => [UInt8.ofNat (a * 4 + b / 16)]
  | [_] => []
  | [] => []

theorem byte_eq (byte : UInt8) {number : Nat} (same : number = byte.toNat) :
    UInt8.ofNat number = byte := by
  rw [same]
  exact UInt8.ofNat_toNat

theorem bytes_sextets (data : List UInt8) : bytes (sextets data) = data := by
  induction data using sextets.induct with
  | case1 a b c rest ih =>
      have aSmall := a.toNat_lt
      have bSmall := b.toNat_lt
      have cSmall := c.toNat_lt
      rw [sextets, bytes, ih, byte_eq a (by omega), byte_eq b (by omega),
        byte_eq c (by omega)]
  | case2 a b =>
      have aSmall := a.toNat_lt
      have bSmall := b.toNat_lt
      rw [sextets, bytes, byte_eq a (by omega), byte_eq b (by omega)]
  | case3 a =>
      have aSmall := a.toNat_lt
      rw [sextets, bytes, byte_eq a (by omega)]
  | case4 => rfl

theorem sextets_lt (data : List UInt8) : ∀ value ∈ sextets data, value < 64 := by
  induction data using sextets.induct with
  | case1 a b c rest ih =>
      have aSmall := a.toNat_lt
      have bSmall := b.toNat_lt
      have cSmall := c.toNat_lt
      intro value member
      simp only [sextets, List.mem_cons] at member
      rcases member with rfl | rfl | rfl | rfl | later
      · omega
      · omega
      · omega
      · omega
      · exact ih value later
  | case2 a b =>
      have aSmall := a.toNat_lt
      have bSmall := b.toNat_lt
      intro value member
      simp only [sextets, List.mem_cons, List.not_mem_nil, or_false] at member
      omega
  | case3 a =>
      have aSmall := a.toNat_lt
      intro value member
      simp only [sextets, List.mem_cons, List.not_mem_nil, or_false] at member
      omega
  | case4 =>
      intro value member
      cases member

/-- The characters that are missing from a last group. -/
def missing (data : List UInt8) : Nat := (3 - data.length % 3) % 3

theorem sextets_length (data : List UInt8) : ((sextets data).length + missing data) % 4 = 0 := by
  unfold missing
  induction data using sextets.induct with
  | case1 a b c rest ih =>
      simp only [sextets, List.length_cons]
      omega
  | case2 a b => simp [sextets]
  | case3 a => simp [sextets]
  | case4 => rfl

/-! ### Characters -/

def charOf (value : Nat) : Char :=
  if value < 26 then Char.ofNat (value + 65)
  else if value < 52 then Char.ofNat (value + 71)
  else if value < 62 then Char.ofNat (value - 4)
  else if value = 62 then '+'
  else '/'

def valueOf (c : Char) : Option Nat :=
  if 'A' ≤ c ∧ c ≤ 'Z' then some (c.toNat - 65)
  else if 'a' ≤ c ∧ c ≤ 'z' then some (c.toNat - 71)
  else if '0' ≤ c ∧ c ≤ '9' then some (c.toNat + 4)
  else if c = '+' then some 62
  else if c = '/' then some 63
  else none

def isSpace (c : Char) : Bool := decide (c.toNat ∈ [0x09, 0x0a, 0x0c, 0x0d, 0x20])

theorem valueOf_charOf : ∀ value < 64, valueOf (charOf value) = some value := by decide

theorem charOf_solid : ∀ value < 64, isSpace (charOf value) = false ∧ charOf value ≠ '=' := by
  decide

/-- `btoa` -/
def encode (data : List UInt8) : List Char :=
  (sextets data).map charOf ++ List.replicate (missing data) '='

def dropPadding (text : List Char) : List Char :=
  if text.length % 4 = 0 then
    match text.reverse with
    | '=' :: '=' :: rest => rest.reverse
    | '=' :: rest => rest.reverse
    | _ => text
  else text

/-- `atob` -/
def decode (text : List Char) : Option (List UInt8) :=
  let body := dropPadding (text.filter (fun c => !isSpace c))
  if body.length % 4 = 1 then none else (body.mapM valueOf).map bytes

theorem mapM_valueOf {values : List Nat} (small : ∀ value ∈ values, value < 64) :
    (values.map charOf).mapM valueOf = some values := by
  induction values with
  | nil => rfl
  | cons value rest ih =>
      rw [List.map_cons, List.mapM_cons, valueOf_charOf value (small value List.mem_cons_self),
        ih (fun other member => small other (List.mem_cons_of_mem value member))]
      rfl

theorem dropPadding_encode (data : List UInt8) :
    dropPadding (encode data) = (sextets data).map charOf := by
  have whole : (encode data).length % 4 = 0 := by
    unfold encode
    rw [List.length_append, List.length_map, List.length_replicate, sextets_length]
  have solid : ∀ c ∈ ((sextets data).map charOf).reverse, c ≠ '=' := by
    intro c member
    obtain ⟨value, listed, rfl⟩ := List.mem_map.mp (List.mem_reverse.mp member)
    exact (charOf_solid value (sextets_lt data value listed)).2
  have backwards : (encode data).reverse =
      List.replicate (missing data) '=' ++ ((sextets data).map charOf).reverse := by
    unfold encode
    rw [List.reverse_append, List.reverse_replicate]
  have count : missing data = 0 ∨ missing data = 1 ∨ missing data = 2 := by
    unfold missing
    omega
  unfold dropPadding
  rw [if_pos whole, backwards]
  rcases count with none | one | two
  · have bare : encode data = (sextets data).map charOf := by
      unfold encode
      rw [none, List.replicate_zero, List.append_nil]
    rw [none, List.replicate_zero, List.nil_append]
    split
    next rest same => exact absurd rfl (solid '=' (by rw [same]; simp))
    next rest _ same => exact absurd rfl (solid '=' (by rw [same]; simp))
    next => exact bare
  · rw [one, List.replicate_one, List.singleton_append]
    split
    next rest same =>
      have next_ : '=' ∈ ((sextets data).map charOf).reverse := by
        rw [(List.cons.inj same).2]
        exact List.mem_cons_self
      exact absurd rfl (solid '=' next_)
    next rest _ same => rw [← (List.cons.inj same).2, List.reverse_reverse]
    next other => exact absurd rfl (other _)
  · rw [two]
    exact List.reverse_reverse _

theorem decode_encode (data : List UInt8) : decode (encode data) = some data := by
  have solid : (encode data).filter (fun c => !isSpace c) = encode data := by
    rw [List.filter_eq_self]
    intro c member
    rcases List.mem_append.mp member with inner | padding
    · obtain ⟨value, listed, rfl⟩ := List.mem_map.mp inner
      rw [(charOf_solid value (sextets_lt data value listed)).1]
      rfl
    · rw [List.eq_of_mem_replicate padding]
      decide
  have groups := sextets_length data
  have count : missing data < 3 := Nat.mod_lt _ (by decide)
  unfold decode
  dsimp only
  rw [solid, dropPadding_encode, List.length_map, if_neg (by omega),
    mapM_valueOf (sextets_lt data), Option.map_some, bytes_sextets]

end Base64
