import Mathlib

/-! # The key-package validator

`mlswire/keypackage.go` checks the bytes of an uploaded key package without keeping what it reads. Slices and
indices outside the bytes at hand would stop the server: here they are `none`.
-/

namespace Veritra.MLSWire

abbrev Bytes := List UInt8

/-- `reader`: after a failed read `ok` is false and every later read fails. -/
structure Reader where
  data : Bytes
  ok : Bool
  deriving DecidableEq, Repr

namespace Reader

def failed (r : Reader) : Reader := { r with ok := false }

/-- `b[:n]`. -/
def slice (b : Bytes) (n : ℕ) : Option Bytes := if n ≤ b.length then some (b.take n) else none

/-- `b[n:]`. -/
def sliceFrom (b : Bytes) (n : ℕ) : Option Bytes := if n ≤ b.length then some (b.drop n) else none

def take (r : Reader) (n : ℕ) : Option (Bytes × Reader) :=
  if r.ok = false ∨ r.data.length < n then some ([], r.failed)
  else do
    let out ← slice r.data n
    let data ← sliceFrom r.data n
    some (out, { r with data })

def uint8 (r : Reader) : Option (ℕ × Reader) := do
  let (b, r) ← r.take 1
  if r.ok = false then some (0, r)
  else do some ((← b[0]?).toNat, r)

def uint16 (r : Reader) : Option (ℕ × Reader) := do
  let (b, r) ← r.take 2
  if r.ok = false then some (0, r)
  else do some ((← b[0]?).toNat * 256 + (← b[1]?).toNat, r)

/-- A length that a shorter header could hold is refused. -/
def takeFrom (r : Reader) (least length : ℕ) : Option (Bytes × Reader) :=
  if length < least then some ([], r.failed) else r.take length

/-- The switch of `vector`: the two top bits of the first byte give the size of the length. -/
def vectorAfter (r : Reader) (first : ℕ) : Option (Bytes × Reader) :=
  if first / 64 = 0 then r.take (first % 64)
  else if first / 64 = 1 then do
    let (rest, r) ← r.take 1
    if r.ok = false then some ([], r) else r.takeFrom 64 (first % 64 * 256 + (← rest[0]?).toNat)
  else if first / 64 = 2 then do
    let (rest, r) ← r.take 3
    if r.ok = false then some ([], r)
    else r.takeFrom 16384 (((first % 64 * 256 + (← rest[0]?).toNat) * 256 + (← rest[1]?).toNat) * 256 +
      (← rest[2]?).toNat)
  else some ([], r.failed)

def vector (r : Reader) : Option (Bytes × Reader) := do
  let (first, r) ← r.uint8
  if r.ok = false then some ([], r) else r.vectorAfter first

end Reader

/-- The loop of `validExtensions`, with the types seen so far. -/
def extensionLoop : ℕ → List ℕ → Reader → Option Bool
  | 0, _, _ => none
  | fuel + 1, seen, r =>
    if r.ok = true ∧ r.data ≠ [] then do
      let (extensionType, r) ← r.uint16
      let (_, r) ← r.vector
      if extensionType ∈ seen then some false else extensionLoop fuel (extensionType :: seen) r
    else some r.ok

def validExtensions (b : Bytes) : Option Bool := extensionLoop (b.length + 1) [] ⟨b, true⟩

/-- A part of the validator: whether it goes on, and the reader after it. -/
abbrev Check := Reader → Option (Bool × Reader)

namespace Check

/-- The second part runs if the first one goes on. -/
def both (p q : Check) : Check := fun r => do
  let (goes, r) ← p r
  if goes = true then q r else some (false, r)

/-- `v := r.vector(); !r.ok || !accept(v)`. -/
def vector (accept : Bytes → Option Bool) : Check := fun r => do
  let (v, r) ← r.vector
  if r.ok = false then some (false, r) else do some (← accept v, r)

def uint8 (n : ℕ) : Check := fun r => do
  let (v, r) ← r.uint8
  some (v = n, r)

def uint16 (n : ℕ) : Check := fun r => do
  let (v, r) ← r.uint16
  some (v = n, r)

/-- A read that is not looked at. -/
def skip (n : ℕ) : Check := fun r => do
  let (_, r) ← r.take n
  some (true, r)

def sized (n : ℕ) : Check := vector fun v => some (v.length = n)

end Check

open Check

/-- The loop over the capability lists, which hold values of two bytes. -/
def capabilityLists : ℕ → Check
  | 0 => fun r => some (true, r)
  | n + 1 => (vector fun list => some (list.length % 2 = 0)).both (capabilityLists n)

def readLeafNode : Check :=
  ((sized 32).both ((sized 32).both ((uint16 1).both ((vector fun identity => some (identity ≠ [])).both
    ((capabilityLists 5).both ((uint8 1).both ((skip 16).both ((vector validExtensions).both (sized 64)))))))))

/-- The reads of `ValidateKeyPackage`. -/
def readKeyPackage : Check :=
  (uint16 1).both ((uint16 1).both ((sized 32).both (readLeafNode.both ((vector validExtensions).both (sized 64)))))

/-- `ValidateKeyPackage`. -/
def validateKeyPackage (b : Bytes) : Option Bool :=
  if b.length < 64 ∨ 48 * 1024 < b.length then some false
  else do
    let (goes, r) ← readKeyPackage ⟨b, true⟩
    some (goes && r.data.isEmpty)

end Veritra.MLSWire
