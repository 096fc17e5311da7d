import Trackward.Lib.Octets

/-!
# SHA-256

An executable definition of the hash function on byte strings, written so that
the kernel can evaluate it on concrete inputs.  Words are natural numbers below
`2 ^ 32`.
-/

namespace Trackward.Lib.Sha256

open Trackward.Lib.Octets

/-- Keep the low 32 bits. -/
def word (value : Nat) : Nat :=
  value % 2 ^ 32

/-- Rotate a word to the right. -/
def rotr (value count : Nat) : Nat :=
  (value >>> count) ||| word (value <<< (32 - count))

/-- The eight words of the state. -/
structure Words where
  a : Nat
  b : Nat
  c : Nat
  d : Nat
  e : Nat
  f : Nat
  g : Nat
  h : Nat

/-- The state before the first block. -/
def initialWords : Words where
  a := 0x6a09e667
  b := 0xbb67ae85
  c := 0x3c6ef372
  d := 0xa54ff53a
  e := 0x510e527f
  f := 0x9b05688c
  g := 0x1f83d9ab
  h := 0x5be0cd19

/-- The constants of the 64 rounds. -/
def roundConstants : List Nat :=
  [0x428a2f98, 0x71374491, 0xb5c0fbcf, 0xe9b5dba5,
    0x3956c25b, 0x59f111f1, 0x923f82a4, 0xab1c5ed5,
    0xd807aa98, 0x12835b01, 0x243185be, 0x550c7dc3,
    0x72be5d74, 0x80deb1fe, 0x9bdc06a7, 0xc19bf174,
    0xe49b69c1, 0xefbe4786, 0x0fc19dc6, 0x240ca1cc,
    0x2de92c6f, 0x4a7484aa, 0x5cb0a9dc, 0x76f988da,
    0x983e5152, 0xa831c66d, 0xb00327c8, 0xbf597fc7,
    0xc6e00bf3, 0xd5a79147, 0x06ca6351, 0x14292967,
    0x27b70a85, 0x2e1b2138, 0x4d2c6dfc, 0x53380d13,
    0x650a7354, 0x766a0abb, 0x81c2c92e, 0x92722c85,
    0xa2bfe8a1, 0xa81a664b, 0xc24b8b70, 0xc76c51a3,
    0xd192e819, 0xd6990624, 0xf40e3585, 0x106aa070,
    0x19a4c116, 0x1e376c08, 0x2748774c, 0x34b0bcb5,
    0x391c0cb3, 0x4ed8aa4a, 0x5b9cca4f, 0x682e6ff3,
    0x748f82ee, 0x78a5636f, 0x84c87814, 0x8cc70208,
    0x90befffa, 0xa4506ceb, 0xbef9a3f7, 0xc67178f2]

/-- One round with a schedule word and its constant. -/
def round (state : Words) (scheduled : Nat × Nat) : Words :=
  let sum1 := rotr state.e 6 ^^^ rotr state.e 11 ^^^ rotr state.e 25
  let choice :=
    (state.e &&& state.f) ^^^ ((2 ^ 32 - 1 - state.e) &&& state.g)
  let first := state.h + sum1 + choice + scheduled.1 + scheduled.2
  let sum0 := rotr state.a 2 ^^^ rotr state.a 13 ^^^ rotr state.a 22
  let majority :=
    (state.a &&& state.b) ^^^ (state.a &&& state.c) ^^^
      (state.b &&& state.c)
  { a := word (first + sum0 + majority)
    b := state.a
    c := state.b
    d := state.c
    e := word (state.d + first)
    f := state.e
    g := state.f
    h := state.g }

/-- Extend a schedule, latest word first. -/
def extend : Nat → List Nat → List Nat
  | 0, latest => latest
  | count + 1, latest =>
      let near := latest.getD 1 0
      let far := latest.getD 14 0
      let sigma1 := rotr near 17 ^^^ rotr near 19 ^^^ (near >>> 10)
      let sigma0 := rotr far 7 ^^^ rotr far 18 ^^^ (far >>> 3)
      let scheduled :=
        word (sigma1 + latest.getD 6 0 + sigma0 + latest.getD 15 0)
      extend count (scheduled :: latest)

/-- The words of a block. -/
def blockWords : Bytes → List Nat
  | first :: second :: third :: fourth :: rest =>
      (first.toNat * 2 ^ 24 + second.toNat * 2 ^ 16 + third.toNat * 2 ^ 8 +
          fourth.toNat) ::
        blockWords rest
  | _ => []

/-- Absorb one block. -/
def compress (state : Words) (block : Bytes) : Words :=
  let schedule := (extend 48 (blockWords block).reverse).reverse
  let final := (schedule.zip roundConstants).foldl round state
  { a := word (state.a + final.a)
    b := word (state.b + final.b)
    c := word (state.c + final.c)
    d := word (state.d + final.d)
    e := word (state.e + final.e)
    f := word (state.f + final.f)
    g := word (state.g + final.g)
    h := word (state.h + final.h) }

/-- Absorb a number of blocks of 64 bytes. -/
def absorb : Nat → Words → Bytes → Words
  | 0, state, _ => state
  | count + 1, state, bytes =>
      absorb count (compress state (bytes.take 64)) (bytes.drop 64)

/-- A message with its padding. -/
def pad (message : Bytes) : Bytes :=
  message ++ 0x80 ::
    List.replicate ((119 - message.length % 64) % 64) 0 ++
      bigEndian 8 (8 * message.length)

/-- The digest of a byte string. -/
def sha256 (message : Bytes) : Digest :=
  let padded := pad message
  let final := absorb (padded.length / 64) initialWords padded
  { bytes :=
      bigEndian 4 final.a ++ bigEndian 4 final.b ++ bigEndian 4 final.c ++
        bigEndian 4 final.d ++ bigEndian 4 final.e ++ bigEndian 4 final.f ++
          bigEndian 4 final.g ++ bigEndian 4 final.h
    length_eq := by simp }

/-- The digest of the empty string. -/
example :
    (sha256 []).bytes =
      [0xe3, 0xb0, 0xc4, 0x42, 0x98, 0xfc, 0x1c, 0x14,
        0x9a, 0xfb, 0xf4, 0xc8, 0x99, 0x6f, 0xb9, 0x24,
        0x27, 0xae, 0x41, 0xe4, 0x64, 0x9b, 0x93, 0x4c,
        0xa4, 0x95, 0x99, 0x1b, 0x78, 0x52, 0xb8, 0x55] := by
  decide +kernel

end Trackward.Lib.Sha256
