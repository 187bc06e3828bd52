import KeyRegistry.Text.Shown

/-!
# Fingerprints

A fingerprint is the SHA-256 digest of a content, written in hexadecimal. Two contents are taken
for the same when their fingerprints agree.
-/

namespace KeyRegistry.Sha256

/-!
## The digest SHA-256

The digest of FIPS 180-4 over lists of bytes. A message is padded to whole blocks of sixteen
words of 32 bits; each block is folded into a state of eight words by sixty-four rounds. The
message schedule is a sliding window of sixteen words: every round uses its first word and
appends the next one.
-/

/-- A word of 32 bits, added modulo 2^32. -/
abbrev Word := UInt32

/-- The eight words carried from block to block. -/
structure State where
  a : Word
  b : Word
  c : Word
  d : Word
  e : Word
  f : Word
  g : Word
  h : Word

/-- The state before the first block. -/
def initial : State :=
  ⟨0x6a09e667, 0xbb67ae85, 0x3c6ef372, 0xa54ff53a, 0x510e527f, 0x9b05688c, 0x1f83d9ab, 0x5be0cd19⟩

/-- The constant of each round. -/
def constants : List Word := [
  0x428a2f98, 0x71374491, 0xb5c0fbcf, 0xe9b5dba5, 0x3956c25b, 0x59f111f1, 0x923f82a4, 0xab1c5ed5,
  0xd807aa98, 0x12835b01, 0x243185be, 0x550c7dc3, 0x72be5d74, 0x80deb1fe, 0x9bdc06a7, 0xc19bf174,
  0xe49b69c1, 0xefbe4786, 0x0fc19dc6, 0x240ca1cc, 0x2de92c6f, 0x4a7484aa, 0x5cb0a9dc, 0x76f988da,
  0x983e5152, 0xa831c66d, 0xb00327c8, 0xbf597fc7, 0xc6e00bf3, 0xd5a79147, 0x06ca6351, 0x14292967,
  0x27b70a85, 0x2e1b2138, 0x4d2c6dfc, 0x53380d13, 0x650a7354, 0x766a0abb, 0x81c2c92e, 0x92722c85,
  0xa2bfe8a1, 0xa81a664b, 0xc24b8b70, 0xc76c51a3, 0xd192e819, 0xd6990624, 0xf40e3585, 0x106aa070,
  0x19a4c116, 0x1e376c08, 0x2748774c, 0x34b0bcb5, 0x391c0cb3, 0x4ed8aa4a, 0x5b9cca4f, 0x682e6ff3,
  0x748f82ee, 0x78a5636f, 0x84c87814, 0x8cc70208, 0x90befffa, 0xa4506ceb, 0xbef9a3f7, 0xc67178f2]

/-- Rotation to the right by an amount between 1 and 31. -/
def rotate (x : Word) (amount : Word) : Word :=
  (x >>> amount) ||| (x <<< (32 - amount))

/-- The word that follows a window of the message schedule. -/
def nextWord (window : List Word) : Word :=
  let early := window.getD 1 0
  let late := window.getD 14 0
  let mixedEarly := rotate early 7 ^^^ rotate early 18 ^^^ (early >>> 3)
  let mixedLate := rotate late 17 ^^^ rotate late 19 ^^^ (late >>> 10)
  mixedLate + window.getD 9 0 + mixedEarly + window.getD 0 0

/-- One round with its constant and its word of the schedule. -/
def round (s : State) (constant word : Word) : State :=
  let mixedE := rotate s.e 6 ^^^ rotate s.e 11 ^^^ rotate s.e 25
  let choice := (s.e &&& s.f) ^^^ (~~~s.e &&& s.g)
  let first := s.h + mixedE + choice + constant + word
  let mixedA := rotate s.a 2 ^^^ rotate s.a 13 ^^^ rotate s.a 22
  let majority := (s.a &&& s.b) ^^^ (s.a &&& s.c) ^^^ (s.b &&& s.c)
  { a := first + mixedA + majority, b := s.a, c := s.b, d := s.c,
    e := s.d + first, f := s.e, g := s.f, h := s.g }

/-- The word-wise sum of two states. -/
def State.add (s t : State) : State :=
  { a := s.a + t.a, b := s.b + t.b, c := s.c + t.c, d := s.d + t.d,
    e := s.e + t.e, f := s.f + t.f, g := s.g + t.g, h := s.h + t.h }

/-- Folds one block of sixteen words into the state. -/
def compress (s : State) (block : List Word) : State :=
  let advance := fun (at_ : State × List Word) (constant : Word) =>
    (round at_.1 constant (at_.2.getD 0 0), at_.2.drop 1 ++ [nextWord at_.2])
  s.add (constants.foldl advance (s, block)).1

/-- The bytes of a number, most significant first, in the given count. -/
def bigEndian : Nat → Nat → List UInt8
  | 0, _ => []
  | count + 1, value => bigEndian count (value / 256) ++ [UInt8.ofNat (value % 256)]

/-- A message, a one bit, zeros up to a block end, and the message's length in bits. -/
def pad (message : List UInt8) : List UInt8 :=
  message ++ 0x80 :: List.replicate ((119 - message.length % 64) % 64) 0
    ++ bigEndian 8 (8 * message.length)

/-- The words that a list of bytes spells, most significant byte first. -/
def toWords : List UInt8 → List Word
  | p :: q :: r :: s :: rest =>
    ((p.toUInt32 <<< 24) ||| (q.toUInt32 <<< 16) ||| (r.toUInt32 <<< 8) ||| s.toUInt32)
      :: toWords rest
  | _ => []

/-- Folds whole blocks of sixteen words into the state. -/
def absorb (s : State) (words : List Word) : State :=
  if words.length < 16 then s
  else absorb (compress s (words.take 16)) (words.drop 16)
termination_by words.length
decreasing_by simp only [List.length_drop]; omega

/-- The digest of a message, as eight words. -/
def digest (message : List UInt8) : List Word :=
  let s := absorb initial (toWords (pad message))
  [s.a, s.b, s.c, s.d, s.e, s.f, s.g, s.h]

theorem length_bigEndian (count value : Nat) : (bigEndian count value).length = count := by
  induction count generalizing value with
  | zero => rfl
  | succ count ih => simp [bigEndian, ih]

theorem length_pad (message : List UInt8) : (pad message).length % 64 = 0 := by
  simp only [pad, List.length_append, List.length_cons, List.length_replicate, length_bigEndian]
  omega

end KeyRegistry.Sha256

namespace KeyRegistry

/-- A content digest in lower-case hexadecimal. -/
structure Fingerprint where
  hex : String
  deriving DecidableEq, Repr

namespace Fingerprint

/-- A word in eight hexadecimal digits. -/
def wordDigits (word : UInt32) : List Char :=
  (List.range 8).map fun i => Text.hexDigit ((word >>> UInt32.ofNat (28 - 4 * i)).toNat % 16)

/-- The fingerprint of a file's bytes. -/
def ofBytes (bytes : ByteArray) : Fingerprint :=
  ⟨String.ofList ((Sha256.digest bytes.toList).flatMap wordDigits)⟩

/-- The fingerprint of a text, taken in UTF-8. -/
def ofText (text : String) : Fingerprint :=
  ofBytes text.toUTF8

/-- The first eight digits. -/
def short (f : Fingerprint) : String :=
  (f.hex.take 8).toString

end Fingerprint

end KeyRegistry
