import Mathlib

/-!
# SHA-256

The digest of a sequence of bytes, on 32-bit words.
-/

namespace Sha256

abbrev Word := BitVec 32

structure State where
  a : Word
  b : Word
  c : Word
  d : Word
  e : Word
  f : Word
  g : Word
  h : Word

def initial : State :=
  ⟨0x6a09e667, 0xbb67ae85, 0x3c6ef372, 0xa54ff53a, 0x510e527f, 0x9b05688c, 0x1f83d9ab, 0x5be0cd19⟩

/-- The constants of the 64 rounds. -/
def roundConstants : List Word :=
  [0x428a2f98, 0x71374491, 0xb5c0fbcf, 0xe9b5dba5, 0x3956c25b, 0x59f111f1, 0x923f82a4, 0xab1c5ed5,
    0xd807aa98, 0x12835b01, 0x243185be, 0x550c7dc3, 0x72be5d74, 0x80deb1fe, 0x9bdc06a7, 0xc19bf174,
    0xe49b69c1, 0xefbe4786, 0x0fc19dc6, 0x240ca1cc, 0x2de92c6f, 0x4a7484aa, 0x5cb0a9dc, 0x76f988da,
    0x983e5152, 0xa831c66d, 0xb00327c8, 0xbf597fc7, 0xc6e00bf3, 0xd5a79147, 0x06ca6351, 0x14292967,
    0x27b70a85, 0x2e1b2138, 0x4d2c6dfc, 0x53380d13, 0x650a7354, 0x766a0abb, 0x81c2c92e, 0x92722c85,
    0xa2bfe8a1, 0xa81a664b, 0xc24b8b70, 0xc76c51a3, 0xd192e819, 0xd6990624, 0xf40e3585, 0x106aa070,
    0x19a4c116, 0x1e376c08, 0x2748774c, 0x34b0bcb5, 0x391c0cb3, 0x4ed8aa4a, 0x5b9cca4f, 0x682e6ff3,
    0x748f82ee, 0x78a5636f, 0x84c87814, 0x8cc70208, 0x90befffa, 0xa4506ceb, 0xbef9a3f7, 0xc67178f2]

def State.round (s : State) (constant word : Word) : State :=
  let sum1 := s.e.rotateRight 6 ^^^ s.e.rotateRight 11 ^^^ s.e.rotateRight 25
  let choice := (s.e &&& s.f) ^^^ (~~~s.e &&& s.g)
  let t1 := s.h + sum1 + choice + constant + word
  let sum0 := s.a.rotateRight 2 ^^^ s.a.rotateRight 13 ^^^ s.a.rotateRight 22
  let majority := (s.a &&& s.b) ^^^ (s.a &&& s.c) ^^^ (s.b &&& s.c)
  ⟨t1 + (sum0 + majority), s.a, s.b, s.c, s.d + t1, s.e, s.f, s.g⟩

/-- The word of the schedule that comes sixteen places behind the first of these. -/
def nextWord (words : List Word) : Word :=
  let w0 := words.getD 0 0
  let w1 := words.getD 1 0
  let w14 := words.getD 14 0
  let sigma0 := w1.rotateRight 7 ^^^ w1.rotateRight 18 ^^^ (w1 >>> 3)
  let sigma1 := w14.rotateRight 17 ^^^ w14.rotateRight 19 ^^^ (w14 >>> 10)
  sigma1 + words.getD 9 0 + sigma0 + w0

/-- The rounds with the given constants; `words` are the next sixteen of the schedule. -/
def State.rounds : (constants words : List Word) → State → State
  | [], _, s => s
  | constant :: constants, words, s =>
    rounds constants (words.tail ++ [nextWord words]) (s.round constant (words.getD 0 0))

def State.compress (s : State) (block : List Word) : State :=
  let t := s.rounds roundConstants block
  ⟨s.a + t.a, s.b + t.b, s.c + t.c, s.d + t.d, s.e + t.e, s.f + t.f, s.g + t.g, s.h + t.h⟩

/-- The message with its padding and its length in bits. -/
def pad (bytes : List UInt8) : List UInt8 :=
  let zeros : List UInt8 := List.replicate ((119 - bytes.length % 64) % 64) 0
  let bits : List UInt8 :=
    (List.range 8).map fun i => UInt8.ofNat ((8 * bytes.length) >>> (56 - 8 * i))
  bytes ++ 0x80 :: (zeros ++ bits)

/-- Big-endian words. -/
def words : List UInt8 → List Word
  | b0 :: b1 :: b2 :: b3 :: bytes =>
    BitVec.ofNat 32 (b0.toNat * 2 ^ 24 + b1.toNat * 2 ^ 16 + b2.toNat * 2 ^ 8 + b3.toNat) :: words bytes
  | _ => []

/-- The first `n` blocks of sixteen words. -/
def blocks : (n : Nat) → List Word → List (List Word)
  | 0, _ => []
  | n + 1, ws => ws.take 16 :: blocks n (ws.drop 16)

def digest (bytes : List UInt8) : Vector UInt8 32 :=
  let message := pad bytes
  let s := (blocks (message.length / 64) (words message)).foldl State.compress initial
  let out := [s.a, s.b, s.c, s.d, s.e, s.f, s.g, s.h]
  Vector.ofFn fun i => UInt8.ofNat (out.getD (i.val / 4) 0 >>> (24 - 8 * (i.val % 4))).toNat

example : (digest [0x61, 0x62, 0x63]).toList.take 4 = [0xba, 0x78, 0x16, 0xbf] := by
  decide +kernel

end Sha256
