import Mathlib

/-! # Text helpers

The operations on texts that the store's input checks use: Go's `strings.TrimSpace`, which cuts
Unicode white space at both ends, `len`, which counts bytes, and the form of a generated id.
-/

namespace Veritra.Storage

/-- `unicode.IsSpace`. -/
def isSpace (c : Char) : Bool :=
  c.toNat ∈ [0x09, 0x0a, 0x0b, 0x0c, 0x0d, 0x20, 0x85, 0xa0, 0x1680, 0x2028, 0x2029, 0x202f, 0x205f, 0x3000] ||
    (0x2000 ≤ c.toNat && c.toNat ≤ 0x200a)

/-- `strings.TrimSpace`. -/
def trimSpace (text : String) : String :=
  String.ofList ((text.toList.dropWhile isSpace).reverse.dropWhile isSpace).reverse

/-- Trimming leaves the empty text. -/
def isBlank (text : String) : Prop := trimSpace text = ""
  deriving Decidable

/-- `len`: the number of bytes of a text. -/
def byteLength (text : String) : ℕ := text.utf8ByteSize

/-- `nullableEmptyString`: a blank text is stored as no value, any other one trimmed. -/
def nullableEmptyString (text : String) : Option String :=
  if isBlank text then none else some (trimSpace text)

/-- `nullableString`. -/
def nullableString (text : Option String) : Option String := text.bind nullableEmptyString

def isHexDigit (c : Char) : Bool := ('0' ≤ c && c ≤ '9') || ('a' ≤ c && c ≤ 'f')

/-- `ValidID`: the kind of id, an underscore and 32 lower-case hexadecimal digits. -/
def validID (kind value : String) : Prop :=
  let wanted := (kind ++ "_").toList
  value.toList.take wanted.length = wanted ∧ (value.toList.drop wanted.length).length = 32 ∧
    (value.toList.drop wanted.length).all isHexDigit
  deriving Decidable

end Veritra.Storage
