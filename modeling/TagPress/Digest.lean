import TagPress.Text.Numeral

/-!
# SHA-256

The digest of a list of bytes. The message is padded to whole blocks of 64 bytes; each block is
expanded to 64 words, and every word takes the eight words of the state through one round.
-/

namespace TagPress.Digest

/-- Rotation to the right. -/
def rotr (x : UInt32) (n : UInt32) : UInt32 :=
  (x >>> n) ||| (x <<< (32 - n))

/-- The round constants. -/
def roundConstants : List UInt32 :=
  [0x428a2f98, 0x71374491, 0xb5c0fbcf, 0xe9b5dba5, 0x3956c25b, 0x59f111f1, 0x923f82a4, 0xab1c5ed5,
    0xd807aa98, 0x12835b01, 0x243185be, 0x550c7dc3, 0x72be5d74, 0x80deb1fe, 0x9bdc06a7, 0xc19bf174,
    0xe49b69c1, 0xefbe4786, 0x0fc19dc6, 0x240ca1cc, 0x2de92c6f, 0x4a7484aa, 0x5cb0a9dc, 0x76f988da,
    0x983e5152, 0xa831c66d, 0xb00327c8, 0xbf597fc7, 0xc6e00bf3, 0xd5a79147, 0x06ca6351, 0x14292967,
    0x27b70a85, 0x2e1b2138, 0x4d2c6dfc, 0x53380d13, 0x650a7354, 0x766a0abb, 0x81c2c92e, 0x92722c85,
    0xa2bfe8a1, 0xa81a664b, 0xc24b8b70, 0xc76c51a3, 0xd192e819, 0xd6990624, 0xf40e3585, 0x106aa070,
    0x19a4c116, 0x1e376c08, 0x2748774c, 0x34b0bcb5, 0x391c0cb3, 0x4ed8aa4a, 0x5b9cca4f, 0x682e6ff3,
    0x748f82ee, 0x78a5636f, 0x84c87814, 0x8cc70208, 0x90befffa, 0xa4506ceb, 0xbef9a3f7, 0xc67178f2]

/-- The eight words of the state. -/
structure State where
  /-- The first word. -/
  a : UInt32
  /-- The second word. -/
  b : UInt32
  /-- The third word. -/
  c : UInt32
  /-- The fourth word. -/
  d : UInt32
  /-- The fifth word. -/
  e : UInt32
  /-- The sixth word. -/
  f : UInt32
  /-- The seventh word. -/
  g : UInt32
  /-- The eighth word. -/
  h : UInt32
  deriving DecidableEq

/-- The state before the first block. -/
def start : State :=
  ⟨0x6a09e667, 0xbb67ae85, 0x3c6ef372, 0xa54ff53a, 0x510e527f, 0x9b05688c, 0x1f83d9ab, 0x5be0cd19⟩

/-- One round with the sum of a schedule word and its constant. -/
def round (s : State) (input : UInt32) : State :=
  let s1 := rotr s.e 6 ^^^ rotr s.e 11 ^^^ rotr s.e 25
  let choice := (s.e &&& s.f) ^^^ ((s.e ^^^ 0xffffffff) &&& s.g)
  let t1 := s.h + s1 + choice + input
  let s0 := rotr s.a 2 ^^^ rotr s.a 13 ^^^ rotr s.a 22
  let majority := (s.a &&& s.b) ^^^ (s.a &&& s.c) ^^^ (s.b &&& s.c)
  ⟨t1 + (s0 + majority), s.a, s.b, s.c, s.d + t1, s.e, s.f, s.g⟩

/-- The word of four bytes, the first one highest. -/
def wordOf : List UInt8 → UInt32 :=
  List.foldl (fun w b => (w <<< 8) ||| b.toUInt32) 0

/-- The 64 words of a block, last one first: its own sixteen, then each from four before it. -/
def schedule (block : List UInt8) : List UInt32 :=
  let own := ((List.range 16).map fun i => wordOf ((block.drop (4 * i)).take 4)).reverse
  (List.range 48).foldl (fun back _ =>
    -- The latest word comes first, so the one two before the next stands at index 1.
    let w2 := back.getD 1 0
    let w7 := back.getD 6 0
    let w15 := back.getD 14 0
    let w16 := back.getD 15 0
    let s0 := rotr w15 7 ^^^ rotr w15 18 ^^^ (w15 >>> 3)
    let s1 := rotr w2 17 ^^^ rotr w2 19 ^^^ (w2 >>> 10)
    (w16 + s0 + w7 + s1) :: back) own

/-- The state after a block. -/
def absorb (s : State) (block : List UInt8) : State :=
  let r := (List.zipWith (· + ·) roundConstants (schedule block).reverse).foldl round s
  ⟨s.a + r.a, s.b + r.b, s.c + r.c, s.d + r.d, s.e + r.e, s.f + r.f, s.g + r.g, s.h + r.h⟩

/-- The bytes of a number, the highest first. -/
def bigEndian (count : Nat) (n : Nat) : List UInt8 :=
  (List.range count).map fun i => (n / Nat.pow 256 (count - 1 - i)).toUInt8

/-- The message with the bit that ends it, zeros up to a whole block, and its length in bits. -/
def pad (message : List UInt8) : List UInt8 :=
  -- One byte for the ending bit and eight for the length are needed besides.
  let zeros := (119 - message.length % 64) % 64
  message ++ 0x80 :: List.replicate zeros 0 ++ bigEndian 8 (8 * message.length)

/-- The state after `count` blocks of a padded message. -/
def absorbAll : Nat → State → List UInt8 → State
  | 0, s, _ => s
  | count + 1, s, bytes => absorbAll count (absorb s (bytes.take 64)) (bytes.drop 64)

/-- The 32 bytes of the digest. -/
def sha256 (message : List UInt8) : List UInt8 :=
  let padded := pad message
  let s := absorbAll (padded.length / 64) start padded
  [s.a, s.b, s.c, s.d, s.e, s.f, s.g, s.h].flatMap fun w => bigEndian 4 w.toNat

/-- The digest in hexadecimal. -/
def sha256Hex (message : List UInt8) : String :=
  String.ofList ((sha256 message).flatMap Text.hexByte)

end TagPress.Digest
