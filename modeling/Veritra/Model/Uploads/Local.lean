import Veritra.Bytes.Pieces

/-! # Verified blobs on the local disk

The blob store writes a blob to a file while a digester hashes the stream as a whole and in pieces of
`chunkSize` bytes. A blob opened for reading checks every chunk against that record before it returns
any byte of it. The file belongs to the operating system: whoever can write to it may change it between
any two operations, so each operation that reads it is given the contents it finds at that moment.

Storage keys, file modes other than "regular", the hexadecimal form of the whole digest and the
locking of one blob are not modelled; sizes and offsets are unbounded.
-/

namespace Veritra.Uploads

abbrev Bytes := List UInt8

/-- SHA-256 as far as the store uses it: a function to digests of 32 bytes. -/
structure Sha256 where
  sum : Bytes → Bytes
  length_sum : ∀ bytes, (sum bytes).length = 32

/-- `ChunkSize`. -/
def chunkSize : ℕ := 64 * 1024

theorem chunkSize_pos : 0 < chunkSize := by decide

/-- `chunkRecordVersion`. -/
def chunkRecordVersion : UInt8 := 1

/-- `chunkRecordHeader`: the version and the digest of the whole blob. -/
def chunkRecordHeader : ℕ := 1 + 32

/-- `chunkDigester`. The hash states are the bytes hashed so far. -/
structure ChunkDigester where
  full : Bytes
  chunk : Bytes
  filled : ℕ
  record : Bytes
  /-- A full chunk is closed at once, so there is always room for one more byte. -/
  room : filled < chunkSize

/-- `newChunkDigester`. -/
def newChunkDigester : ChunkDigester where
  full := []
  chunk := []
  filled := 0
  record := chunkRecordVersion :: List.replicate 32 0
  room := chunkSize_pos

section Digester

variable (sha : Sha256)

/-- One turn of the loop of `Write`: the bytes that still fit into the open chunk. -/
def ChunkDigester.fill (digester : ChunkDigester) (bytes : Bytes) : ChunkDigester :=
  let n := min (chunkSize - digester.filled) bytes.length
  if room : digester.filled + n < chunkSize then
    { digester with
      chunk := digester.chunk ++ bytes.take n
      filled := digester.filled + n
      room }
  else
    { digester with
      chunk := []
      filled := 0
      record := digester.record ++ sha.sum (digester.chunk ++ bytes.take n)
      room := chunkSize_pos }

/-- The loop of `chunkDigester.Write`. -/
def ChunkDigester.fillAll (digester : ChunkDigester) (bytes : Bytes) : ChunkDigester :=
  if bytes.length = 0 then digester
  else
    (digester.fill sha bytes).fillAll (bytes.drop (min (chunkSize - digester.filled) bytes.length))
termination_by bytes.length
decreasing_by
  have room := digester.room
  rw [List.length_drop]
  omega

/-- `chunkDigester.Write`. -/
def ChunkDigester.write (digester : ChunkDigester) (bytes : Bytes) : ChunkDigester :=
  ({ digester with full := digester.full ++ bytes } : ChunkDigester).fillAll sha bytes

/-- `chunkDigester.finish`: the whole digest and the record. -/
def ChunkDigester.finish (digester : ChunkDigester) : Bytes × Bytes :=
  let record := if digester.filled > 0 then digester.record ++ sha.sum digester.chunk else digester.record
  let full := sha.sum digester.full
  (full, record.take 1 ++ full ++ record.drop chunkRecordHeader)

/-- The digester after a stream that arrives in these writes. -/
def digest (writes : List Bytes) : ChunkDigester :=
  writes.foldl (fun digester bytes => digester.write sha bytes) newChunkDigester

/-- `parseChunkRecord`: the chunk digests of a well-formed record for a blob of that size and digest. -/
def parseChunkRecord (record full : Bytes) (size : ℤ) : Option Bytes :=
  if record.length < chunkRecordHeader ∨ record.head? ≠ some chunkRecordVersion ∨
      (record.take chunkRecordHeader).drop 1 ≠ full then none
  else
    let digests := record.drop chunkRecordHeader
    let chunks := (size + chunkSize - 1).tdiv chunkSize
    if (digests.length : ℤ) ≠ chunks * 32 then none
    else if chunks = 0 then if full = sha.sum [] then some digests else none
    else if chunks = 1 then if digests = full then some digests else none
    else some digests

/-- `BlobRef`. -/
structure BlobRef where
  sha256 : Bytes
  size : ℤ
  chunkDigests : Bytes

/-- `putEncryptedBlob`: what is stored for a stream that arrives in these writes, and the file. -/
def putEncryptedBlob (writes : List Bytes) : BlobRef × Bytes :=
  let (full, record) := (digest sha writes).finish sha
  (⟨full, writes.flatten.length, record⟩, writes.flatten)

end Digester

/-- The refusals of an open blob. -/
inductive BlobError where
  | integrity
  | closed
  | eof
  | invalidWhence
  | outOfRange
deriving DecidableEq, Repr

/-- `verifiedBlob`. The pooled array keeps whatever was last read into it; the slice `buf` is its
first `length` bytes. -/
structure VerifiedBlob where
  size : ℕ
  digests : Bytes
  recomputed : Option Bytes
  offset : ℕ
  pooled : Option Bytes
  length : ℕ
  buffered : Option ℕ
  err : Option BlobError
  closed : Bool

/-- The slice `buf`. -/
def VerifiedBlob.buf (blob : VerifiedBlob) : Bytes := (blob.pooled.getD []).take blob.length

/-- What `Open` finds on the disk: whether the file is regular, its size, and the blocks in which
`io.Copy` reads it when there is no usable record. -/
structure Found where
  regular : Bool
  size : ℕ
  blocks : List Bytes

/-- What `Open` finds when nobody touched the file. -/
def Found.untouched (file : Bytes) (found : Found) : Prop :=
  found.regular = true ∧ found.size = file.length ∧ found.blocks.flatten = file

/-- `LocalStore.Open`. -/
def openBlob (sha : Sha256) (ref : BlobRef) (found : Found) : Except BlobError VerifiedBlob :=
  if found.regular = false ∨ ref.size < 0 ∨ (found.size : ℤ) ≠ ref.size then .error .integrity
  else if ref.sha256.length ≠ 32 then .error .integrity
  else
    let blob : VerifiedBlob :=
      { size := ref.size.toNat, digests := [], recomputed := none, offset := 0, pooled := none, length := 0,
        buffered := none, err := none, closed := false }
    match parseChunkRecord sha ref.chunkDigests ref.sha256 ref.size with
    | some digests => .ok { blob with digests }
    | none =>
      let (full, record) := (digest sha found.blocks).finish sha
      if (found.blocks.flatten.length : ℤ) ≠ ref.size ∨ full ≠ ref.sha256 then .error .integrity
      else .ok { blob with digests := record.drop chunkRecordHeader, recomputed := some record }

namespace VerifiedBlob

/-- `usable`. -/
def usable (blob : VerifiedBlob) : Option BlobError := if blob.closed then some .closed else blob.err

/-- `load`: the file as it is now is read into the array, which comes from the pool with old contents
when the blob has none yet; the chunk counts only when all of it was read and its digest matches. -/
def load (sha : Sha256) (blob : VerifiedBlob) (index : ℕ) (file stale : Bytes) : Option BlobError × VerifiedBlob :=
  if blob.buffered = some index then (none, blob)
  else
    let start := index * chunkSize
    let length := min chunkSize (blob.size - start)
    let read := (file.drop start).take length
    let array := read ++ (blob.pooled.getD stale).drop read.length
    let blob := { blob with buffered := none, pooled := some array }
    if read.length ≠ length then (some .integrity, { blob with err := some .integrity })
    else
      let chunk := array.take length
      if sha.sum chunk ≠ (blob.digests.drop (index * 32)).take 32 then
        (some .integrity, { blob with err := some .integrity })
      else (none, { blob with length, buffered := some index })

/-- `io.SeekStart`, `io.SeekCurrent`, `io.SeekEnd`, or any other number. -/
inductive Whence where
  | start
  | current
  | fromEnd
  | other
deriving DecidableEq, Repr

/-- The operations on an open blob. Those that may read the file carry its contents at that moment and
the old contents of a pooled array. -/
inductive Operation where
  | read (capacity : ℕ) (file stale : Bytes)
  | seek (offset : ℤ) (whence : Whence)
  | verifyCurrent (file stale : Bytes)
  | close

/-- What an operation answers when it does not fail. -/
inductive Answer where
  | bytes (bytes : Bytes)
  | position (position : ℕ)
  | done
deriving DecidableEq, Repr

/-- `Read`. -/
def read (sha : Sha256) (blob : VerifiedBlob) (capacity : ℕ) (file stale : Bytes) :
    Except BlobError Answer × VerifiedBlob :=
  match blob.usable with
  | some err => (.error err, blob)
  | none =>
    if blob.offset ≥ blob.size then (.error .eof, blob)
    else if capacity = 0 then (.ok (.bytes []), blob)
    else
      let index := blob.offset / chunkSize
      match blob.load sha index file stale with
      | (some err, blob) => (.error err, blob)
      | (none, loaded) =>
        let copied := (loaded.buf.drop (blob.offset - index * chunkSize)).take capacity
        (.ok (.bytes copied), { loaded with offset := blob.offset + copied.length })

/-- `Seek`. -/
def seek (blob : VerifiedBlob) (offset : ℤ) (whence : Whence) : Except BlobError Answer × VerifiedBlob :=
  let target : Option ℤ :=
    match whence with
    | .start => some offset
    | .current => some (blob.offset + offset)
    | .fromEnd => some (blob.size + offset)
    | .other => none
  match target with
  | none => (.error .invalidWhence, blob)
  | some position =>
    if position < 0 ∨ position > blob.size then (.error .outOfRange, blob)
    else (.ok (.position position.toNat), { blob with offset := position.toNat })

/-- `VerifyCurrent`. -/
def verifyCurrent (sha : Sha256) (blob : VerifiedBlob) (file stale : Bytes) :
    Except BlobError Answer × VerifiedBlob :=
  match blob.usable with
  | some err => (.error err, blob)
  | none =>
    if blob.offset ≥ blob.size then (.ok .done, blob)
    else
      match blob.load sha (blob.offset / chunkSize) file stale with
      | (some err, blob) => (.error err, blob)
      | (none, blob) => (.ok .done, blob)

/-- `Close`: the array goes back to the pool. -/
def close (blob : VerifiedBlob) : Except BlobError Answer × VerifiedBlob :=
  if blob.closed then (.error .closed, blob)
  else (.ok .done, { blob with closed := true, pooled := none, length := 0, buffered := none })

def step (sha : Sha256) (blob : VerifiedBlob) : Operation → Except BlobError Answer × VerifiedBlob
  | .read capacity file stale => blob.read sha capacity file stale
  | .seek offset whence => blob.seek offset whence
  | .verifyCurrent file stale => blob.verifyCurrent sha file stale
  | .close => blob.close

/-- An operation with the position it started at and its answer. -/
structure Served where
  position : ℕ
  operation : Operation
  answer : Except BlobError Answer

def run (sha : Sha256) : VerifiedBlob → List Operation → List Served
  | _, [] => []
  | blob, operation :: operations =>
    ⟨blob.offset, operation, (blob.step sha operation).1⟩ :: run sha (blob.step sha operation).2 operations

end VerifiedBlob

end Veritra.Uploads
