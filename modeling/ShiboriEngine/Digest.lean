import Mathlib
import ShiboriEngine.Error

/-! # BLAKE3 digests as text

    A digest is 32 bytes; its text is 64 hexadecimal digits, written in lower
    case and read in either.  Text is a list of bytes. -/

namespace ShiboriDigest

open ShiboriError

/-- `0123456789abcdef` -/
def hexDigits : Vector UInt8 16 :=
  #v[0x30, 0x31, 0x32, 0x33, 0x34, 0x35, 0x36, 0x37, 0x38, 0x39,
    0x61, 0x62, 0x63, 0x64, 0x65, 0x66]

/-- The value of a digit, or -1.  A byte past `0x7f` is in no range, whatever
    the sign of `char`. -/
def decodeHex (value : UInt8) : Int32 :=
  if value ≥ 0x30 ∧ value ≤ 0x39 then (value - 0x30).toUInt32.toInt32
  else if value ≥ 0x61 ∧ value ≤ 0x66 then
    (value - 0x61).toUInt32.toInt32 + 10
  else if value ≥ 0x41 ∧ value ≤ 0x46 then
    (value - 0x41).toUInt32.toInt32 + 10
  else -1

/-- The 32 bytes of a digest. -/
structure Blake3Digest where
  bytes : Vector UInt8 32
deriving DecidableEq

/-- The high four bits index the sixteen digits. -/
theorem high_lt (value : UInt8) : (value >>> 4).toNat < 16 := by
  revert value
  decide +kernel

/-- The low four bits index the sixteen digits. -/
theorem low_lt (value : UInt8) : (value &&& 0x0f).toNat < 16 := by
  revert value
  decide +kernel

/-- The digit of a byte's high four bits. -/
def highDigit (value : UInt8) : UInt8 :=
  hexDigits.get ⟨(value >>> 4).toNat, high_lt value⟩

/-- The digit of a byte's low four bits. -/
def lowDigit (value : UInt8) : UInt8 :=
  hexDigits.get ⟨(value &&& 0x0f).toNat, low_lt value⟩

/-- The 64 digits of a digest, two for each byte. -/
def Blake3Digest.toHex (self : Blake3Digest) : List UInt8 :=
  let output : Vector UInt8 64 := (List.finRange 32).foldl
    (fun output (index : Fin 32) =>
      let value := self.bytes[index]
      (output.set (index.val * 2) (highDigit value)).set (index.val * 2 + 1)
        (lowDigit value))
    (Vector.replicate 64 0x30)
  output.toList

/-- One turn of the loop of `from_hex`. -/
def decodeByte (high low : UInt8) : Result UInt8 :=
  let high := decodeHex high
  let low := decodeHex low
  if high < 0 ∨ low < 0 then
    fail .invalidDigestText .parse
      "BLAKE3-256 digest text contains a non-hexadecimal character"
  else .ok ((high <<< 4) ||| low).toUInt32.toUInt8

/-- The digest that 64 hexadecimal digits spell. -/
def Blake3Digest.fromHex (text : List UInt8) : Result Blake3Digest :=
  if hsize : text.length = 64 then do
    let bytes ← (List.finRange 32).foldlM
      (fun bytes (index : Fin 32) => do
        let byte ← decodeByte text[index.val * 2] text[index.val * 2 + 1]
        .ok (bytes.set index byte))
      (Vector.replicate 32 0)
    .ok ⟨bytes⟩
  else
    fail .invalidDigestText .parse
      "BLAKE3-256 digest text must contain exactly 64 hexadecimal characters"

end ShiboriDigest
