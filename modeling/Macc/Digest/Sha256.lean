import Macc.Text.Hex

/-!
# The SHA-256 digest

Run directories are named after a digest of their configuration, so that equal
configurations share a name and different ones do not. A message is padded to
whole blocks of sixteen words. Each block is expanded to sixty-four words, which
are mixed one after the other into a state of eight words, and the state after
the last block is the digest.
-/

namespace Macc.Digest

/-- The words that are mixed. -/
structure State where
  a : UInt32
  b : UInt32
  c : UInt32
  d : UInt32
  e : UInt32
  f : UInt32
  g : UInt32
  h : UInt32
  deriving Repr, DecidableEq

/-- The state before the first block: the first 32 bits behind the point of the square roots of the
first eight primes. -/
def State.initial : State :=
  ⟨0x6a09e667, 0xbb67ae85, 0x3c6ef372, 0xa54ff53a,
    0x510e527f, 0x9b05688c, 0x1f83d9ab, 0x5be0cd19⟩

def State.words (s : State) : List UInt32 :=
  [s.a, s.b, s.c, s.d, s.e, s.f, s.g, s.h]

def State.add (s t : State) : State :=
  ⟨s.a + t.a, s.b + t.b, s.c + t.c, s.d + t.d, s.e + t.e, s.f + t.f, s.g + t.g, s.h + t.h⟩

/-- One constant for each round: the first 32 bits behind the point of the cube roots of the first
sixty-four primes. -/
def roundConstants : List UInt32 :=
  [0x428a2f98, 0x71374491, 0xb5c0fbcf, 0xe9b5dba5, 0x3956c25b, 0x59f111f1,
   0x923f82a4, 0xab1c5ed5, 0xd807aa98, 0x12835b01, 0x243185be, 0x550c7dc3,
   0x72be5d74, 0x80deb1fe, 0x9bdc06a7, 0xc19bf174, 0xe49b69c1, 0xefbe4786,
   0x0fc19dc6, 0x240ca1cc, 0x2de92c6f, 0x4a7484aa, 0x5cb0a9dc, 0x76f988da,
   0x983e5152, 0xa831c66d, 0xb00327c8, 0xbf597fc7, 0xc6e00bf3, 0xd5a79147,
   0x06ca6351, 0x14292967, 0x27b70a85, 0x2e1b2138, 0x4d2c6dfc, 0x53380d13,
   0x650a7354, 0x766a0abb, 0x81c2c92e, 0x92722c85, 0xa2bfe8a1, 0xa81a664b,
   0xc24b8b70, 0xc76c51a3, 0xd192e819, 0xd6990624, 0xf40e3585, 0x106aa070,
   0x19a4c116, 0x1e376c08, 0x2748774c, 0x34b0bcb5, 0x391c0cb3, 0x4ed8aa4a,
   0x5b9cca4f, 0x682e6ff3, 0x748f82ee, 0x78a5636f, 0x84c87814, 0x8cc70208,
   0x90befffa, 0xa4506ceb, 0xbef9a3f7, 0xc67178f2]

def rotate (n x : UInt32) : UInt32 :=
  (x >>> n) ||| (x <<< (32 - n))

/-- The word that follows some words, of which the newest stands first. -/
def nextWord (newest : List UInt32) : UInt32 :=
  let near := newest.getD 1 0
  let far := newest.getD 14 0
  let mixNear := rotate 17 near ^^^ rotate 19 near ^^^ (near >>> 10)
  let mixFar := rotate 7 far ^^^ rotate 18 far ^^^ (far >>> 3)
  mixNear + newest.getD 6 0 + mixFar + newest.getD 15 0

def extend : Nat → List UInt32 → List UInt32
  | 0, newest => newest
  | count + 1, newest => extend count (nextWord newest :: newest)

/-- The sixty-four words of a block. -/
def schedule (block : List UInt32) : List UInt32 :=
  (extend 48 block.reverse).reverse

def round (s : State) (constant word : UInt32) : State :=
  let mixE := rotate 6 s.e ^^^ rotate 11 s.e ^^^ rotate 25 s.e
  let choice := (s.e &&& s.f) ^^^ ((~~~s.e) &&& s.g)
  let first := s.h + mixE + choice + constant + word
  let mixA := rotate 2 s.a ^^^ rotate 13 s.a ^^^ rotate 22 s.a
  let majority := (s.a &&& s.b) ^^^ (s.a &&& s.c) ^^^ (s.b &&& s.c)
  ⟨first + (mixA + majority), s.a, s.b, s.c, s.d + first, s.e, s.f, s.g⟩

def absorb (s : State) (block : List UInt32) : State :=
  let mixed := (roundConstants.zip (schedule block)).foldl (fun t r => round t r.1 r.2) s
  s.add mixed

/-- A number as bytes, the highest first. -/
def bytesOf (count n : Nat) : List UInt8 :=
  (List.range count).reverse.map fun k => UInt8.ofNat (n / Nat.pow 256 k)

/-- A message filled up to whole blocks: a one bit, zeros, and the number of its bits. -/
def pad (message : List UInt8) : List UInt8 :=
  let zeros := (119 - message.length % 64) % 64
  message ++ 0x80 :: List.replicate zeros 0 ++ bytesOf 8 (8 * message.length)

def wordsOf : List UInt8 → List UInt32
  | a :: b :: c :: d :: rest =>
    ((a.toUInt32 <<< 24) ||| (b.toUInt32 <<< 16) ||| (c.toUInt32 <<< 8) ||| d.toUInt32) ::
      wordsOf rest
  | _ => []

/-- Words in blocks of sixteen. -/
def blocksOf : List UInt32 → List (List UInt32)
  | [] => []
  | w :: rest => (w :: rest.take 15) :: blocksOf (rest.drop 15)
  termination_by words => words.length
  decreasing_by simp only [List.length_drop, List.length_cons]; omega

def digest (message : List UInt8) : State :=
  (blocksOf (wordsOf (pad message))).foldl absorb State.initial

def hexOf (s : String) : List Char :=
  (digest s.toUTF8.toList).words.flatMap fun w => Text.hex 8 w.toNat

end Macc.Digest
