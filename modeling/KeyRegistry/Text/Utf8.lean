/-!
# Decoding of UTF-8 with gaps

Bytes are read as UTF-8; what is no character becomes the replacement character. A sequence that
starts well and breaks off counts as one gap up to the byte that does not fit, and any other byte
that starts no character is a gap of its own.

Main definitions:

* `decodeLossy` — the text of any bytes
-/

namespace KeyRegistry.Text

/-- What a leading byte announces: the bits it contributes, the range of the byte after it, and
how many bytes follow that one. -/
structure Lead where
  bits : Nat
  low : UInt8
  high : UInt8
  more : Nat

/-- Reads the leading byte of a sequence of two to four bytes. The range of the second byte
excludes overlong forms, surrogates and what lies beyond the last code point. -/
def lead? (byte : UInt8) : Option Lead :=
  if 0xC2 ≤ byte ∧ byte ≤ 0xDF then some ⟨byte.toNat - 0xC0, 0x80, 0xBF, 0⟩
  else if byte = 0xE0 then some ⟨0, 0xA0, 0xBF, 1⟩
  else if byte = 0xED then some ⟨0xD, 0x80, 0x9F, 1⟩
  else if 0xE1 ≤ byte ∧ byte ≤ 0xEF then some ⟨byte.toNat - 0xE0, 0x80, 0xBF, 1⟩
  else if byte = 0xF0 then some ⟨0, 0x90, 0xBF, 2⟩
  else if 0xF1 ≤ byte ∧ byte ≤ 0xF3 then some ⟨byte.toNat - 0xF0, 0x80, 0xBF, 2⟩
  else if byte = 0xF4 then some ⟨4, 0x80, 0x8F, 2⟩
  else none

/-- Reads the bytes that a sequence still needs; the code point, or nothing for a gap, and what
is left. -/
def readTail : Nat → Nat → List UInt8 → Option Nat × List UInt8
  | 0, bits, rest => (some bits, rest)
  | _ + 1, _, [] => (none, [])
  | count + 1, bits, byte :: rest =>
    if 0x80 ≤ byte ∧ byte ≤ 0xBF then readTail count (bits * 64 + (byte.toNat - 0x80)) rest
    else (none, byte :: rest)

/-- Reads one character, or a gap, from a byte and those after it. -/
def readScalar (byte : UInt8) (rest : List UInt8) : Option Nat × List UInt8 :=
  if byte < 0x80 then (some byte.toNat, rest)
  else match lead? byte, rest with
    | some lead, second :: tail =>
      if lead.low ≤ second ∧ second ≤ lead.high then
        readTail lead.more (lead.bits * 64 + (second.toNat - 0x80)) tail
      else (none, rest)
    | _, _ => (none, rest)

theorem length_readTail (count bits : Nat) (bytes : List UInt8) :
    (readTail count bits bytes).2.length ≤ bytes.length := by
  induction count generalizing bits bytes with
  | zero => simp [readTail]
  | succ count ih =>
    cases bytes with
    | nil => simp [readTail]
    | cons byte rest =>
      simp only [readTail]
      split
      · have := ih (bits * 64 + (byte.toNat - 0x80)) rest
        simp only [List.length_cons]
        omega
      · simp

theorem length_readScalar (byte : UInt8) (rest : List UInt8) :
    (readScalar byte rest).2.length ≤ rest.length := by
  unfold readScalar
  split
  · simp
  · split
    · next lead second tail _ =>
      split
      · have := length_readTail lead.more (lead.bits * 64 + (second.toNat - 0x80)) tail
        simp only [List.length_cons]
        omega
      · simp
    · simp

/-- The characters of any bytes, with a replacement character for each gap. -/
def decodeBytes : List UInt8 → List Char
  | [] => []
  | byte :: rest =>
    have := length_readScalar byte rest
    ((readScalar byte rest).1.map Char.ofNat).getD '\uFFFD' :: decodeBytes (readScalar byte rest).2
termination_by bytes => bytes.length
decreasing_by simp only [List.length_cons]; omega

/-- The text of a file's bytes. -/
def decodeLossy (bytes : ByteArray) : String :=
  match String.fromUTF8? bytes with
  | some text => text
  | none => String.ofList (decodeBytes bytes.toList)

end KeyRegistry.Text
