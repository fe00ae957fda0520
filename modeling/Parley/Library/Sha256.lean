/-
SHA-256 and HMAC-SHA-256 over byte lists.

Words are natural numbers below `2 ^ 32`, so that the kernel evaluates a digest
with its arithmetic on numerals.
-/

import Mathlib.Algebra.Group.Nat.Defs
import Mathlib.Data.List.Basic

namespace Parley.Library.Sha256

def wordSize : Nat := 2 ^ 32

def add32 (left right : Nat) : Nat :=
  (left + right) % wordSize

def rotateRight (count word : Nat) : Nat :=
  (word >>> count ||| word <<< (32 - count)) % wordSize

def roundConstants : List Nat :=
  [0x428a2f98, 0x71374491, 0xb5c0fbcf, 0xe9b5dba5, 0x3956c25b, 0x59f111f1, 0x923f82a4, 0xab1c5ed5,
   0xd807aa98, 0x12835b01, 0x243185be, 0x550c7dc3, 0x72be5d74, 0x80deb1fe, 0x9bdc06a7, 0xc19bf174,
   0xe49b69c1, 0xefbe4786, 0x0fc19dc6, 0x240ca1cc, 0x2de92c6f, 0x4a7484aa, 0x5cb0a9dc, 0x76f988da,
   0x983e5152, 0xa831c66d, 0xb00327c8, 0xbf597fc7, 0xc6e00bf3, 0xd5a79147, 0x06ca6351, 0x14292967,
   0x27b70a85, 0x2e1b2138, 0x4d2c6dfc, 0x53380d13, 0x650a7354, 0x766a0abb, 0x81c2c92e, 0x92722c85,
   0xa2bfe8a1, 0xa81a664b, 0xc24b8b70, 0xc76c51a3, 0xd192e819, 0xd6990624, 0xf40e3585, 0x106aa070,
   0x19a4c116, 0x1e376c08, 0x2748774c, 0x34b0bcb5, 0x391c0cb3, 0x4ed8aa4a, 0x5b9cca4f, 0x682e6ff3,
   0x748f82ee, 0x78a5636f, 0x84c87814, 0x8cc70208, 0x90befffa, 0xa4506ceb, 0xbef9a3f7, 0xc67178f2]

structure Words where
  a : Nat
  b : Nat
  c : Nat
  d : Nat
  e : Nat
  f : Nat
  g : Nat
  h : Nat
  deriving DecidableEq, Repr

def initial : Words :=
  { a := 0x6a09e667
    b := 0xbb67ae85
    c := 0x3c6ef372
    d := 0xa54ff53a
    e := 0x510e527f
    f := 0x9b05688c
    g := 0x1f83d9ab
    h := 0x5be0cd19 }

def Words.bytes (w : Words) : List UInt8 :=
  [w.a, w.b, w.c, w.d, w.e, w.f, w.g, w.h].flatMap (fun word =>
    [UInt8.ofNat (word >>> 24), UInt8.ofNat (word >>> 16), UInt8.ofNat (word >>> 8),
      UInt8.ofNat word])

/-- The next word of the message schedule from the sixteen before it, oldest
first. -/
def scheduleNext (window : List Nat) : Nat :=
  let w0 := window.getD 0 0
  let w1 := window.getD 1 0
  let w9 := window.getD 9 0
  let w14 := window.getD 14 0
  let s0 := rotateRight 7 w1 ^^^ rotateRight 18 w1 ^^^ w1 >>> 3
  let s1 := rotateRight 17 w14 ^^^ rotateRight 19 w14 ^^^ w14 >>> 10
  add32 (add32 w0 s0) (add32 w9 s1)

def round (w : Words) (constant word : Nat) : Words :=
  let s1 := rotateRight 6 w.e ^^^ rotateRight 11 w.e ^^^ rotateRight 25 w.e
  let choice := (w.e &&& w.f) ^^^ ((wordSize - 1 - w.e) &&& w.g)
  let t1 := add32 (add32 w.h s1) (add32 choice (add32 constant word))
  let s0 := rotateRight 2 w.a ^^^ rotateRight 13 w.a ^^^ rotateRight 22 w.a
  let majority := (w.a &&& w.b) ^^^ (w.a &&& w.c) ^^^ (w.b &&& w.c)
  { a := add32 t1 (add32 s0 majority)
    b := w.a
    c := w.b
    d := w.c
    e := add32 w.d t1
    f := w.e
    g := w.f
    h := w.g }

/-- One round per remaining constant; the window holds the next sixteen words of
the schedule. -/
def rounds : List Nat → List Nat → Words → Words
  | [], _, w => w
  | constant :: constants, window, w =>
      rounds constants (window.tail ++ [scheduleNext window])
        (round w constant (window.getD 0 0))

def compress (w : Words) (block : List Nat) : Words :=
  let r := rounds roundConstants block w
  { a := add32 w.a r.a
    b := add32 w.b r.b
    c := add32 w.c r.c
    d := add32 w.d r.d
    e := add32 w.e r.e
    f := add32 w.f r.f
    g := add32 w.g r.g
    h := add32 w.h r.h }

def bytesToWords : List UInt8 → List Nat
  | a :: b :: c :: d :: rest =>
      (((a.toNat * 256 + b.toNat) * 256 + c.toNat) * 256 + d.toNat) :: bytesToWords rest
  | _ => []

/-- The message, a one bit, zeros up to the last eight bytes of a block, and the
length in bits. -/
def padded (message : List UInt8) : List UInt8 :=
  let zeros := (119 - message.length % 64) % 64
  let bits := message.length * 8
  message ++ (0x80 : UInt8) :: List.replicate zeros 0 ++
    [UInt8.ofNat (bits >>> 56), UInt8.ofNat (bits >>> 48), UInt8.ofNat (bits >>> 40),
      UInt8.ofNat (bits >>> 32), UInt8.ofNat (bits >>> 24), UInt8.ofNat (bits >>> 16),
      UInt8.ofNat (bits >>> 8), UInt8.ofNat bits]

def compressBlocks : Nat → List Nat → Words → Words
  | 0, _, w => w
  | blocks + 1, words, w => compressBlocks blocks (words.drop 16) (compress w (words.take 16))

def digest (message : List UInt8) : List UInt8 :=
  let words := bytesToWords (padded message)
  (compressBlocks (words.length / 16) words initial).bytes

-- the one-block test vector of the standard
example : digest [97, 98, 99] =
    [0xba, 0x78, 0x16, 0xbf, 0x8f, 0x01, 0xcf, 0xea, 0x41, 0x41, 0x40, 0xde, 0x5d, 0xae, 0x22, 0x23,
      0xb0, 0x03, 0x61, 0xa3, 0x96, 0x17, 0x7a, 0x9c, 0xb4, 0x10, 0xff, 0x61, 0xf2, 0x00, 0x15,
      0xad] := by
  decide +kernel

/-- HMAC: a key longer than a block is hashed first, then zero-padded to a
block. -/
def hmac (key message : List UInt8) : List UInt8 :=
  let short := if 64 < key.length then digest key else key
  let block := short ++ List.replicate (64 - short.length) (0 : UInt8)
  digest (block.map (fun byte => byte ^^^ 0x5c) ++
    digest (block.map (fun byte => byte ^^^ 0x36) ++ message))

end Parley.Library.Sha256
