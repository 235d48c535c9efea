import IntentContract.Text.Hex

/-!
# SHA-256

The digest of a list of bytes, computed block by block: the message is filled up to whole blocks
of sixteen 32-bit words, the words of a block are stretched to a schedule of sixty-four, and each
of them turns the eight words of the state once.
-/

namespace IntentContract.Sha256

/-- The constants of the sixty-four rounds. -/
def roundConstants : List UInt32 :=
  [0x428a2f98, 0x71374491, 0xb5c0fbcf, 0xe9b5dba5, 0x3956c25b, 0x59f111f1, 0x923f82a4, 0xab1c5ed5,
    0xd807aa98, 0x12835b01, 0x243185be, 0x550c7dc3, 0x72be5d74, 0x80deb1fe, 0x9bdc06a7, 0xc19bf174,
    0xe49b69c1, 0xefbe4786, 0x0fc19dc6, 0x240ca1cc, 0x2de92c6f, 0x4a7484aa, 0x5cb0a9dc, 0x76f988da,
    0x983e5152, 0xa831c66d, 0xb00327c8, 0xbf597fc7, 0xc6e00bf3, 0xd5a79147, 0x06ca6351, 0x14292967,
    0x27b70a85, 0x2e1b2138, 0x4d2c6dfc, 0x53380d13, 0x650a7354, 0x766a0abb, 0x81c2c92e, 0x92722c85,
    0xa2bfe8a1, 0xa81a664b, 0xc24b8b70, 0xc76c51a3, 0xd192e819, 0xd6990624, 0xf40e3585, 0x106aa070,
    0x19a4c116, 0x1e376c08, 0x2748774c, 0x34b0bcb5, 0x391c0cb3, 0x4ed8aa4a, 0x5b9cca4f, 0x682e6ff3,
    0x748f82ee, 0x78a5636f, 0x84c87814, 0x8cc70208, 0x90befffa, 0xa4506ceb, 0xbef9a3f7, 0xc67178f2]

/-- The eight words of the state. -/
structure State where
  a : UInt32
  b : UInt32
  c : UInt32
  d : UInt32
  e : UInt32
  f : UInt32
  g : UInt32
  h : UInt32

/-- The state before the first block. -/
def State.initial : State :=
  ⟨0x6a09e667, 0xbb67ae85, 0x3c6ef372, 0xa54ff53a, 0x510e527f, 0x9b05688c, 0x1f83d9ab, 0x5be0cd19⟩

/-- The words of a state. -/
def State.words (s : State) : List UInt32 :=
  [s.a, s.b, s.c, s.d, s.e, s.f, s.g, s.h]

/-- The sum of two states, word by word. -/
def State.add (s t : State) : State :=
  ⟨s.a + t.a, s.b + t.b, s.c + t.c, s.d + t.d, s.e + t.e, s.f + t.f, s.g + t.g, s.h + t.h⟩

/-- Rotation to the right. -/
def rotate (x : UInt32) (n : UInt32) : UInt32 :=
  (x >>> n) ||| (x <<< (32 - n))

/-- One round with the sum of its constant and its word of the schedule. -/
def State.round (s : State) (k w : UInt32) : State :=
  let s1 := rotate s.e 6 ^^^ rotate s.e 11 ^^^ rotate s.e 25
  let ch := (s.e &&& s.f) ^^^ (~~~s.e &&& s.g)
  let t1 := s.h + s1 + ch + k + w
  let s0 := rotate s.a 2 ^^^ rotate s.a 13 ^^^ rotate s.a 22
  let maj := (s.a &&& s.b) ^^^ (s.a &&& s.c) ^^^ (s.b &&& s.c)
  ⟨t1 + (s0 + maj), s.a, s.b, s.c, s.d + t1, s.e, s.f, s.g⟩

/-- The next word of a schedule, from the sixteen words before it. -/
def nextWord (w : Array UInt32) : UInt32 :=
  let at' (back : Nat) := w.getD (w.size - back) 0
  let x := at' 15
  let y := at' 2
  let s0 := rotate x 7 ^^^ rotate x 18 ^^^ (x >>> 3)
  let s1 := rotate y 17 ^^^ rotate y 19 ^^^ (y >>> 10)
  at' 16 + s0 + at' 7 + s1

/-- The schedule of a block: `count` more words behind those there are. -/
def schedule : Nat → Array UInt32 → Array UInt32
  | 0, w => w
  | count + 1, w => schedule count (w.push (nextWord w))

/-- The state after one more block of sixteen words. -/
def State.block (s : State) (words : List UInt32) : State :=
  let w := schedule 48 words.toArray
  s.add ((roundConstants.zip w.toList).foldl (fun s kw => s.round kw.1 kw.2) s)

/-- The bytes of a number, most significant first, `count` of them. -/
def bigEndian : Nat → Nat → List UInt8
  | 0, _ => []
  | count + 1, n => bigEndian count (n / 256) ++ [UInt8.ofNat (n % 256)]

/-- A message filled up to whole blocks: a one bit, zeros, and the number of bits. -/
def pad (bytes : List UInt8) : List UInt8 :=
  let zeros := (119 - bytes.length % 64) % 64
  bytes ++ 0x80 :: List.replicate zeros 0 ++ bigEndian 8 (8 * bytes.length)

/-- Bytes taken four by four as words. -/
def words : List UInt8 → List UInt32
  | a :: b :: c :: d :: rest =>
    ((a.toUInt32 <<< 24) ||| (b.toUInt32 <<< 16) ||| (c.toUInt32 <<< 8) ||| d.toUInt32)
      :: words rest
  | _ => []

/-- The state after all blocks of a list of words. -/
def State.blocks (s : State) (ws : List UInt32) : State :=
  if _h : ws = [] then s else (s.block (ws.take 16)).blocks (ws.drop 16)
termination_by ws.length
decreasing_by
  have := List.length_pos_iff.mpr _h
  simp only [List.length_drop]
  omega

/-- **The digest** of a list of bytes, as eight words. -/
def digest (bytes : List UInt8) : List UInt32 :=
  (State.initial.blocks (words (pad bytes))).words

/-- **The digest of a text** in UTF-8, as hexadecimal digits in lower case. -/
def hexDigest (text : String) : String :=
  String.ofList ((digest text.toUTF8.toList).flatMap fun w => Text.hexDigits 8 w.toNat)

end IntentContract.Sha256
