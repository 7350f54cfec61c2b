/-
SHA-256 on byte strings, computable on natural numbers so that the digest of a
concrete string can be evaluated by the kernel. Words are numbers below 2 ^ 32.
-/

import Nido.Library.BigEndian

namespace Sha256

def wordModulus : Nat := 2 ^ 32

def rotateRight (word amount : Nat) : Nat :=
  (word >>> amount ||| word <<< (32 - amount)) % wordModulus

def complement (word : Nat) : Nat := wordModulus - 1 - word

def initialHash : List Nat :=
  [0x6a09e667, 0xbb67ae85, 0x3c6ef372, 0xa54ff53a,
   0x510e527f, 0x9b05688c, 0x1f83d9ab, 0x5be0cd19]

def roundConstants : List Nat :=
  [0x428a2f98, 0x71374491, 0xb5c0fbcf, 0xe9b5dba5, 0x3956c25b, 0x59f111f1, 0x923f82a4, 0xab1c5ed5,
   0xd807aa98, 0x12835b01, 0x243185be, 0x550c7dc3, 0x72be5d74, 0x80deb1fe, 0x9bdc06a7, 0xc19bf174,
   0xe49b69c1, 0xefbe4786, 0x0fc19dc6, 0x240ca1cc, 0x2de92c6f, 0x4a7484aa, 0x5cb0a9dc, 0x76f988da,
   0x983e5152, 0xa831c66d, 0xb00327c8, 0xbf597fc7, 0xc6e00bf3, 0xd5a79147, 0x06ca6351, 0x14292967,
   0x27b70a85, 0x2e1b2138, 0x4d2c6dfc, 0x53380d13, 0x650a7354, 0x766a0abb, 0x81c2c92e, 0x92722c85,
   0xa2bfe8a1, 0xa81a664b, 0xc24b8b70, 0xc76c51a3, 0xd192e819, 0xd6990624, 0xf40e3585, 0x106aa070,
   0x19a4c116, 0x1e376c08, 0x2748774c, 0x34b0bcb5, 0x391c0cb3, 0x4ed8aa4a, 0x5b9cca4f, 0x682e6ff3,
   0x748f82ee, 0x78a5636f, 0x84c87814, 0x8cc70208, 0x90befffa, 0xa4506ceb, 0xbef9a3f7, 0xc67178f2]

/-- The message schedule, kept newest word first while it grows. -/
def extend : (rounds : Nat) → List Nat → List Nat
  | 0, words => words
  | rounds + 1, words =>
      let near := words.getD 1 0
      let far := words.getD 14 0
      let spreadNear := rotateRight near 17 ^^^ rotateRight near 19 ^^^ near >>> 10
      let spreadFar := rotateRight far 7 ^^^ rotateRight far 18 ^^^ far >>> 3
      extend rounds
        ((spreadNear + words.getD 6 0 + spreadFar + words.getD 15 0) % wordModulus :: words)

structure Working where
  (a b c d e f g h : Nat)

def round (w : Working) (input : Nat × Nat) : Working :=
  let mixE := rotateRight w.e 6 ^^^ rotateRight w.e 11 ^^^ rotateRight w.e 25
  let choice := (w.e &&& w.f) ^^^ (complement w.e &&& w.g)
  let mixA := rotateRight w.a 2 ^^^ rotateRight w.a 13 ^^^ rotateRight w.a 22
  let majority := (w.a &&& w.b) ^^^ (w.a &&& w.c) ^^^ (w.b &&& w.c)
  let first := w.h + mixE + choice + input.1 + input.2
  ⟨(first + mixA + majority) % wordModulus, w.a, w.b, w.c,
   (w.d + first) % wordModulus, w.e, w.f, w.g⟩

def compress (hash : List Nat) (block : List Nat) : List Nat :=
  let schedule := (extend 48 block.reverse).reverse
  match hash with
  | [a, b, c, d, e, f, g, h] =>
      let w := (roundConstants.zip schedule).foldl round ⟨a, b, c, d, e, f, g, h⟩
      (List.zipWith (· + ·) hash [w.a, w.b, w.c, w.d, w.e, w.f, w.g, w.h]).map
        (· % wordModulus)
  | _ => hash

/-- One bit, then zeros, then the length in bits: a multiple of 64 bytes. -/
def pad (message : List UInt8) : List UInt8 :=
  message ++ 0x80 :: List.replicate ((119 - message.length % 64) % 64) 0 ++
    BigEndian.encode 8 (8 * message.length)

/-- The string cut into pieces of `width`, at most `count` of them. -/
def chunks (width : Nat) : (count : Nat) → List UInt8 → List (List UInt8)
  | 0, _ => []
  | count + 1, bytes => bytes.take width :: chunks width count (bytes.drop width)

def digest (message : List UInt8) : List UInt8 :=
  let padded := pad message
  let blocks := (chunks 64 (padded.length / 64) padded).map
    (fun block => (chunks 4 16 block).map BigEndian.value)
  (blocks.foldl compress initialHash).flatMap (BigEndian.encode 4)

example : digest "abc".toUTF8.toList =
    [0xba, 0x78, 0x16, 0xbf, 0x8f, 0x01, 0xcf, 0xea, 0x41, 0x41, 0x40, 0xde, 0x5d, 0xae, 0x22, 0x23,
     0xb0, 0x03, 0x61, 0xa3, 0x96, 0x17, 0x7a, 0x9c, 0xb4, 0x10, 0xff, 0x61, 0xf2, 0x00, 0x15,
     0xad] := by
  decide +kernel

end Sha256
