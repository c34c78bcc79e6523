/-!
# Decoding bytes as text

Bytes that are not well-formed UTF-8 are read as text by putting the replacement character in
place of each ill-formed part. An ill-formed part is the longest beginning of a character's
encoding that the bytes break off, or else a single byte.

## Main Definitions

* `Utf8.decodeLossy` — the text of any bytes

## Main Statements

* `Utf8.decodeLossy_toUTF8` — the bytes of a text decode to that text
-/

namespace PixelTables

namespace Utf8

/-- The character that stands for an ill-formed part. -/
def replacement : Char := '\uFFFD'

/-- The bytes that may come second after a first byte, and the number of bytes after the first;
`none` if the byte starts no encoding of several bytes. -/
def continuation? (first : UInt8) : Option (UInt8 × UInt8 × Nat) :=
  if first < 0xC2 then none
  else if first < 0xE0 then some (0x80, 0xBF, 1)
  else if first = 0xE0 then some (0xA0, 0xBF, 2)
  else if first = 0xED then some (0x80, 0x9F, 2)
  else if first < 0xF0 then some (0x80, 0xBF, 2)
  else if first = 0xF0 then some (0x90, 0xBF, 3)
  else if first < 0xF4 then some (0x80, 0xBF, 3)
  else if first = 0xF4 then some (0x80, 0x8F, 3)
  else none

/-- The value bits of the first byte of an encoding with `more` bytes after it. -/
def leadBits (first : UInt8) : Nat → Nat
  | 1 => first.toNat % 32
  | 2 => first.toNat % 16
  | _ => first.toNat % 8

/-- Read `more` continuation bytes, the next one within `low` and `high`, into a value. The answer
is the value, or `none` if they break off, and the bytes that were not used. -/
def readContinuation (low high : UInt8) (value : Nat) :
    Nat → List UInt8 → Option Nat × List UInt8
  | 0, bytes => (some value, bytes)
  | _ + 1, [] => (none, [])
  | more + 1, byte :: bytes =>
    if low ≤ byte ∧ byte ≤ high then
      readContinuation 0x80 0xBF (value * 64 + byte.toNat % 64) more bytes
    else (none, byte :: bytes)

/-- The bytes left over are no longer than the bytes given. -/
theorem length_readContinuation_le (low high : UInt8) (value more : Nat) (bytes : List UInt8) :
    (readContinuation low high value more bytes).2.length ≤ bytes.length := by
  induction more generalizing low high value bytes with
  | zero => simp [readContinuation]
  | succ more ih =>
    cases bytes with
    | nil => simp [readContinuation]
    | cons byte bytes =>
      simp only [readContinuation]
      split
      · exact Nat.le_trans (ih 0x80 0xBF _ bytes) (Nat.le_succ _)
      · exact Nat.le_refl _

/-- The first character of some bytes, and the bytes after it. -/
def decodeFirst (first : UInt8) (bytes : List UInt8) : Char × List UInt8 :=
  if first < 0x80 then (Char.ofNat first.toNat, bytes)
  else
    match continuation? first with
    | none => (replacement, bytes)
    | some (low, high, more) =>
      match readContinuation low high (leadBits first more) more bytes with
      | (some value, rest) => (Char.ofNat value, rest)
      | (none, rest) => (replacement, rest)

/-- The bytes after the first character are fewer than the bytes given. -/
theorem length_decodeFirst_le (first : UInt8) (bytes : List UInt8) :
    (decodeFirst first bytes).2.length ≤ bytes.length := by
  unfold decodeFirst
  split
  · exact Nat.le_refl _
  · split
    · exact Nat.le_refl _
    · rename_i low high more _
      have h := length_readContinuation_le low high (leadBits first more) more bytes
      split <;> simp_all

/-- Decode bytes character by character, each ill-formed part as a replacement character, adding
to the characters read so far. -/
def decodeParts (decoded : List Char) : List UInt8 → List Char
  | [] => decoded.reverse
  | first :: bytes =>
    decodeParts ((decodeFirst first bytes).1 :: decoded) (decodeFirst first bytes).2
termination_by bytes => bytes.length
decreasing_by
  have := length_decodeFirst_le first bytes
  simp only [List.length_cons]
  omega

/-- The text of bytes, with a replacement character for each ill-formed part. -/
def decodeLossy (bytes : ByteArray) : String :=
  match String.fromUTF8? bytes with
  | some text => text
  | none => String.ofList (decodeParts [] bytes.data.toList)

/-- The bytes of a text decode to that text. -/
theorem decodeLossy_toUTF8 (text : String) : decodeLossy text.toUTF8 = text := by
  have h : text.toUTF8.IsValidUTF8 := text.isValidUTF8
  simp only [decodeLossy, String.fromUTF8?, h, dif_pos]
  rfl

end Utf8

end PixelTables
