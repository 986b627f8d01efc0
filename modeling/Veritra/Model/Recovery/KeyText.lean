import Veritra.Model.Signing.Messages

/-! # The text of a recovery key

`recovery.rs`: a recovery key is written as 52 Crockford base32 symbols over its 30 bytes and two check
bytes. Buffers are numbers: they never hold more than twelve bits.
-/

namespace Veritra.RecoveryKey

open Machine
open Signing (ascii)
open Uploads (Bytes Sha256)

inductive RecoveryError
  | invalidInput
  deriving DecidableEq, Repr

def entropyBytes : ℕ := 30

def displayChars : ℕ := 52

def maxDisplayInputBytes : ℕ := 256

def crockford : Bytes := ascii "0123456789ABCDEFGHJKMNPQRSTVWXYZ"

def checkBytes (sha : Sha256) (entropy : Bytes) : Bytes :=
  (sha.sum (ascii "veritra-k0-rk-check-v1" ++ entropy)).take 2

/-- The symbol of a value below 32. -/
def symbolOf (value : ℕ) : UInt8 := crockford.getD value 0

/-- What `encode` and `decode` carry from one step to the next. -/
structure Packing where
  out : Bytes
  buffer : ℕ
  bits : ℕ

/-- The inner loop of `encode`: five waiting bits after five leave the buffer. -/
def drain (out : Bytes) (buffer bits : ℕ) : Bytes × ℕ :=
  if 5 ≤ bits then drain (out ++ [symbolOf (buffer >>> (bits - 5) &&& 0x1f)]) buffer (bits - 5)
  else (out, bits)

def encodeByte (state : Packing) (byte : UInt8) : Packing :=
  let buffer := state.buffer <<< 8 ||| byte.toNat
  let (out, bits) := drain state.out buffer (state.bits + 8)
  ⟨out, buffer &&& ((1 <<< bits) - 1), bits⟩

def encode (sha : Sha256) (entropy : Bytes) : Except RecoveryError Bytes := do
  require (entropy.length = entropyBytes) .invalidInput
  let last := (entropy ++ checkBytes sha entropy).foldl encodeByte ⟨[], 0, 0⟩
  if 0 < last.bits then
    pure (last.out ++ [symbolOf (last.buffer <<< (5 - last.bits) &&& 0x1f)])
  else
    pure last.out

/-- `to_ascii_uppercase`, and the digits that are read for look-alike letters. -/
def reading (symbol : UInt8) : UInt8 :=
  let upper := if 'a'.toUInt8 ≤ symbol ∧ symbol ≤ 'z'.toUInt8 then symbol - 32 else symbol
  if upper = 'O'.toUInt8 then '0'.toUInt8
  else if upper = 'I'.toUInt8 ∨ upper = 'L'.toUInt8 then '1'.toUInt8
  else upper

def symbolValue (symbol : UInt8) : Option ℕ := crockford.idxOf? (reading symbol)

def isSeparator (symbol : UInt8) : Bool := symbol = '-'.toUInt8 ∨ symbol = ' '.toUInt8

def decodeValue (state : Packing) (value : ℕ) : Packing :=
  let buffer := state.buffer <<< 5 ||| value
  let bits := state.bits + 5
  if 8 ≤ bits then
    ⟨state.out ++ [UInt8.ofNat (buffer >>> (bits - 8) &&& 0xff)], buffer &&& ((1 <<< (bits - 8)) - 1), bits - 8⟩
  else
    ⟨state.out, buffer, bits⟩

/-- The loop of `decode` after so many symbols; it breaks at a letter that is no symbol and at the 53rd one. -/
def decodeSymbols : Bytes → ℕ → Packing → Option (ℕ × Packing)
  | [], symbols, state => some (symbols, state)
  | symbol :: text, symbols, state =>
    if isSeparator symbol then decodeSymbols text symbols state
    else match symbolValue symbol with
      | none => none
      | some value =>
        if displayChars < symbols + 1 then none
        else decodeSymbols text (symbols + 1) (decodeValue state value)

def decode (sha : Sha256) (text : Bytes) : Except RecoveryError Bytes := do
  require (text ≠ [] ∧ text.length ≤ maxDisplayInputBytes) .invalidInput
  match decodeSymbols text 0 ⟨[], 0, 0⟩ with
  | none => throw .invalidInput
  | some (symbols, ⟨decoded, buffer, bits⟩) =>
    require (symbols = displayChars ∧ bits = 4 ∧ buffer = 0 ∧ decoded.length = entropyBytes + 2) .invalidInput
    let entropy := decoded.take entropyBytes
    require (decoded.drop entropyBytes = checkBytes sha entropy) .invalidInput
    pure entropy

end Veritra.RecoveryKey
