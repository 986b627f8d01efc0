import Veritra.Proofs.Uploads.Digests

/-! # Reads of a blob return the stored bytes

The record of a blob depends on its bytes alone, and a reader that checks every chunk against it before
it hands out a byte returns what was stored, whatever has happened to the file since. The invariant of
an open blob is that its buffer, when it counts as loaded, is a piece of the stored bytes; the digest
ties the two together as long as no chunk found in the file collides with the stored one.
-/

namespace Veritra.Uploads

open Pieces

/-- Chunk records do not depend on how the stream arrives: the digester finishes with the digests of the
consecutive pieces, and the parser accepts that record for exactly the sizes with as many pieces. -/
theorem chunk_record_of_stream (sha : Sha256) (writes : List Bytes) :
    (digest sha writes).finish sha = (sha.sum writes.flatten,
      chunkRecordVersion :: (sha.sum writes.flatten ++ (pieces chunkSize writes.flatten).flatMap sha.sum)) ∧
      ∀ size : ℕ, parseChunkRecord sha ((digest sha writes).finish sha).2 (sha.sum writes.flatten) size =
        if count chunkSize size = count chunkSize writes.flatten.length then
          some ((pieces chunkSize writes.flatten).flatMap sha.sum) else none := by
  refine ⟨finish_digest sha writes, fun size => ?_⟩
  rw [finish_digest]
  exact parseChunkRecord_chunkRecord sha writes.flatten size

namespace VerifiedBlob

variable {sha : Sha256} {data file record : Bytes} {blob : VerifiedBlob} {index : ℕ} {writes : List Bytes}
  {found : Found}

/-- The bytes of the file where the blob expects its chunk. -/
def chunkAt (data file : Bytes) (index : ℕ) : Bytes :=
  (file.drop (index * chunkSize)).take (min chunkSize (data.length - index * chunkSize))

/-- No chunk of the file collides with the stored chunk of the same index. -/
def CollisionFree (sha : Sha256) (data file : Bytes) : Prop :=
  ∀ index, sha.sum (chunkAt data file index) = sha.sum (piece chunkSize data index) →
    chunkAt data file index = piece chunkSize data index

/-- The files that an operation finds have no collision with the stored bytes. -/
def Operation.CollisionFree (sha : Sha256) (data : Bytes) : Operation → Prop
  | .read _ file _ => VerifiedBlob.CollisionFree sha data file
  | .verifyCurrent file _ => VerifiedBlob.CollisionFree sha data file
  | .seek _ _ => True
  | .close => True

/-- An open blob of `data`: what it knows of the size and the chunks is right, and so is its buffer. -/
structure Serves (sha : Sha256) (data : Bytes) (blob : VerifiedBlob) : Prop where
  size_eq : blob.size = data.length
  digests_eq : blob.digests = (pieces chunkSize data).flatMap sha.sum
  offset_le : blob.offset ≤ data.length
  buffer : ∀ index, blob.buffered = some index → blob.buf = piece chunkSize data index

/-- Where an operation leaves the position: a read moves on by the bytes that it returned, and a seek goes where it
was asked to. Everything else leaves it. -/
def Served.next (size : ℕ) (served : Served) : ℕ :=
  match served.operation, served.answer with
  | .read .., .ok (.bytes bytes) => served.position + bytes.length
  | .seek offset .start, .ok _ => offset.toNat
  | .seek offset .current, .ok _ => (served.position + offset).toNat
  | .seek offset .fromEnd, .ok _ => (size + offset).toNat
  | _, _ => served.position

/-- Each operation starts where the one before it left the position. -/
def Positioned (size : ℕ) : ℕ → List Served → Prop
  | _, [] => True
  | position, served :: rest => served.position = position ∧ Positioned size (served.next size) rest

theorem load_offset (sha : Sha256) (blob : VerifiedBlob) (index : ℕ) (file stale : Bytes) :
    (blob.load sha index file stale).2.offset = blob.offset := by
  unfold load
  split
  · rfl
  · dsimp only
    split
    · rfl
    · split <;> rfl

theorem step_position (operation : Operation) : (blob.step sha operation).2.offset =
    Served.next blob.size ⟨blob.offset, operation, (blob.step sha operation).1⟩ := by
  cases operation with
  | read capacity file stale =>
    have loaded := load_offset sha blob (blob.offset / chunkSize) file stale
    simp only [step, read]
    split
    · rfl
    · split
      · rfl
      · split
        · rfl
        · split
          · next outcome => rwa [outcome] at loaded
          · rfl
  | seek offset whence =>
    cases whence <;> simp only [step, seek]
    case other => rfl
    all_goals split <;> rfl
  | verifyCurrent file stale =>
    have loaded := load_offset sha blob (blob.offset / chunkSize) file stale
    simp only [step, verifyCurrent]
    split
    · rfl
    · split
      · rfl
      · split <;> (next outcome => rwa [outcome] at loaded)
  | close =>
    simp only [step, close]
    split <;> rfl

theorem chunkAt_self (data : Bytes) (index : ℕ) : chunkAt data data index = piece chunkSize data index := by
  rw [chunkAt, piece, ← List.length_drop, List.take_eq_take_iff]
  omega

theorem digest_of_chunk (sha : Sha256) (data : Bytes) (inside : index * chunkSize < data.length) :
    ((((pieces chunkSize data).flatMap sha.sum).drop (index * 32)).take 32) = sha.sum (piece chunkSize data index) := by
  have present : index < (pieces chunkSize data).length := by
    rw [length_pieces]
    exact (lt_count chunkSize_pos index data.length).mpr inside
  have block := piece_flatMap sha.length_sum (pieces chunkSize data) present
  rw [piece] at block
  rw [block]
  simp [pieces]

section

variable (serves : Serves sha data blob) (inside : index * chunkSize < data.length)

include serves inside

/-- What `load` leaves: the blob still serves its bytes, and when it reports success the buffer holds
the chunk that was asked for. -/
theorem load_spec (free : CollisionFree sha data file) (stale : Bytes) :
    Serves sha data (blob.load sha index file stale).2 ∧
      (blob.load sha index file stale).2.offset = blob.offset ∧
      (blob.load sha index file stale).2.closed = blob.closed ∧
      ((blob.load sha index file stale).1 = none →
        (blob.load sha index file stale).2.buf = piece chunkSize data index ∧
        (blob.load sha index file stale).2.err = blob.err) := by
  unfold load
  split
  · next held => exact ⟨serves, rfl, rfl, fun _ => ⟨serves.buffer index held, rfl⟩⟩
  dsimp only
  split
  · exact ⟨⟨serves.size_eq, serves.digests_eq, serves.offset_le, by simp⟩, rfl, rfl, by simp⟩
  next whole =>
  split
  · exact ⟨⟨serves.size_eq, serves.digests_eq, serves.offset_le, by simp⟩, rfl, rfl, by simp⟩
  next matches_digest =>
  have chunk : (file.drop (index * chunkSize)).take (min chunkSize (blob.size - index * chunkSize)) =
      chunkAt data file index := by rw [chunkAt, serves.size_eq]
  rw [not_not] at whole matches_digest
  rw [List.take_left' whole, serves.digests_eq, digest_of_chunk sha data inside, chunk] at matches_digest
  have same := free index matches_digest
  have buffer : (((file.drop (index * chunkSize)).take (min chunkSize (blob.size - index * chunkSize)) ++
      (blob.pooled.getD stale).drop
        ((file.drop (index * chunkSize)).take (min chunkSize (blob.size - index * chunkSize))).length).take
        (min chunkSize (blob.size - index * chunkSize))) = piece chunkSize data index := by
    rw [List.take_left' whole, chunk, same]
  refine ⟨⟨serves.size_eq, serves.digests_eq, serves.offset_le, ?_⟩, rfl, rfl, fun _ => ⟨buffer, rfl⟩⟩
  rintro other ⟨⟩
  exact buffer

/-- On the stored bytes `load` succeeds. -/
theorem load_untouched (stale : Bytes) : (blob.load sha index data stale).1 = none := by
  unfold load
  split
  · rfl
  have chunk : (data.drop (index * chunkSize)).take (min chunkSize (blob.size - index * chunkSize)) =
      piece chunkSize data index := by rw [serves.size_eq]; exact chunkAt_self data index
  have whole : (piece chunkSize data index).length = min chunkSize (blob.size - index * chunkSize) := by
    rw [piece, List.length_take, List.length_drop, serves.size_eq]
  dsimp only
  rw [chunk, if_neg (not_not.mpr whole), List.take_left' whole, serves.digests_eq,
    digest_of_chunk sha data inside, if_neg (not_not.mpr rfl)]

end

theorem chunk_inside {offset length : ℕ} (inside : offset < length) : offset / chunkSize * chunkSize < length :=
  lt_of_le_of_lt (Nat.div_mul_le_self offset chunkSize) inside

section

variable (serves : Serves sha data blob)

include serves

/-- A read returns the stored bytes at its position, as many as it copied, and moves on by them. -/
theorem read_spec (free : CollisionFree sha data file) (capacity : ℕ) (stale : Bytes) :
    Serves sha data (blob.read sha capacity file stale).2 ∧
      ∀ bytes, (blob.read sha capacity file stale).1 = .ok (.bytes bytes) →
        bytes.length ≤ capacity ∧ bytes = (data.drop blob.offset).take bytes.length ∧
          (blob.read sha capacity file stale).2.offset = blob.offset + bytes.length := by
  unfold read
  split
  · exact ⟨serves, by simp⟩
  split
  · exact ⟨serves, by simp⟩
  next more =>
  split
  · refine ⟨serves, ?_⟩
    simp
  dsimp only
  have inside : blob.offset < data.length := by rw [← serves.size_eq]; omega
  have loaded := load_spec serves (chunk_inside inside) free stale
  split
  · next err failed outcome =>
    rw [outcome] at loaded
    exact ⟨loaded.1, by simp⟩
  next fresh outcome =>
  rw [outcome] at loaded
  obtain ⟨still, -, -, held⟩ := loaded
  have copied : ((fresh.buf.drop (blob.offset - blob.offset / chunkSize * chunkSize)).take capacity) =
      (data.drop blob.offset).take (min capacity (chunkSize - blob.offset % chunkSize)) := by
    rw [(held rfl).1, piece_drop_take, List.take_take]
  have bounded : (data.drop blob.offset).length = data.length - blob.offset := List.length_drop
  refine ⟨⟨still.size_eq, still.digests_eq, ?_, still.buffer⟩, ?_⟩
  · rw [copied, List.length_take]
    dsimp only
    omega
  · rintro bytes ⟨⟩
    rw [copied, List.length_take]
    refine ⟨by omega, ?_, rfl⟩
    rw [List.take_eq_take_iff]
    omega

/-- Every operation keeps the invariant, and one that returns bytes returns the stored ones. -/
theorem step_spec {operation : Operation} (free : operation.CollisionFree sha data) :
    Serves sha data (blob.step sha operation).2 ∧
      ∀ bytes, (blob.step sha operation).1 = .ok (.bytes bytes) →
        bytes = (data.drop blob.offset).take bytes.length := by
  cases operation with
  | read capacity file stale =>
    obtain ⟨still, returned⟩ := read_spec serves free capacity stale
    exact ⟨still, fun bytes answered => (returned bytes answered).2.1⟩
  | seek offset whence =>
    simp only [step, seek]
    split
    · exact ⟨serves, by simp⟩
    next position _ =>
    split
    · exact ⟨serves, by simp⟩
    · have size := serves.size_eq
      refine ⟨⟨size, serves.digests_eq, ?_, serves.buffer⟩, by simp⟩
      dsimp only
      omega
  | verifyCurrent file stale =>
    simp only [step, verifyCurrent]
    split
    · exact ⟨serves, by simp⟩
    split
    · exact ⟨serves, by simp⟩
    next more =>
    have inside : blob.offset < data.length := by rw [← serves.size_eq]; omega
    have loaded := load_spec serves (chunk_inside inside) free stale
    split <;> (next outcome => rw [outcome] at loaded; exact ⟨loaded.1, by simp⟩)
  | close =>
    simp only [step, close]
    split
    · exact ⟨serves, by simp⟩
    · exact ⟨⟨serves.size_eq, serves.digests_eq, serves.offset_le, by simp⟩, by simp⟩

/-- Over any operations, every byte returned is the stored byte at its position. -/
theorem run_spec {operations : List Operation}
    (free : ∀ operation ∈ operations, operation.CollisionFree sha data) :
    Positioned data.length blob.offset (blob.run sha operations) ∧
    ∀ served ∈ blob.run sha operations, ∀ bytes, served.answer = .ok (.bytes bytes) →
      bytes = (data.drop served.position).take bytes.length := by
  induction operations generalizing blob with
  | nil => simp [run, Positioned]
  | cons operation operations ih =>
    have first := step_spec serves (free operation List.mem_cons_self)
    have rest := ih first.1 fun other mem => free other (List.mem_cons_of_mem _ mem)
    refine ⟨⟨rfl, ?_⟩, fun served mem => ?_⟩
    · rw [← serves.size_eq, ← step_position, serves.size_eq]
      exact rest.1
    · rcases List.mem_cons.mp mem with rfl | later
      · exact first.2
      · exact rest.2 served later

end

def Served.bytes (served : Served) : Bytes :=
  match served.answer with
  | .ok (.bytes bytes) => bytes
  | _ => []

/-- A read of the untouched file, with room for a byte and before the end, returns at least one. -/
theorem read_untouched (serves : Serves sha data blob) (ready : blob.usable = none) (capacity : ℕ)
    (stale : Bytes) (inside : blob.offset < data.length) (roomy : 0 < capacity) :
    ∃ bytes, (blob.read sha capacity data stale).1 = .ok (.bytes bytes) ∧ 0 < bytes.length ∧
      (blob.read sha capacity data stale).2.usable = none := by
  have held := load_spec serves (chunk_inside inside) (fun index _ => chunkAt_self data index) stale
  have loads := load_untouched serves (chunk_inside inside) stale
  unfold read
  rw [ready]
  dsimp only
  rw [if_neg (by rw [serves.size_eq]; omega), if_neg (by omega)]
  split
  · next outcome => rw [outcome] at loads; cases loads
  next fresh outcome =>
  rw [outcome] at held
  obtain ⟨-, -, closed, held⟩ := held
  obtain ⟨buffer, err⟩ := held rfl
  refine ⟨_, rfl, ?_, ?_⟩
  · rw [buffer, piece_drop_take, List.length_take, List.length_take, List.length_drop]
    have filled : blob.offset % chunkSize < chunkSize := Nat.mod_lt _ chunkSize_pos
    omega
  · rw [closed, err]
    exact ready

private theorem last_of_rest {first : Served} {rest : List Served} {answer : Except BlobError Answer}
    (last : rest.getLast?.map Served.answer = some answer) :
    (first :: rest).getLast?.map Served.answer = some answer := by
  obtain ⟨served, found, answered⟩ := Option.map_eq_some_iff.mp last
  simp [List.getLast?_cons, found, answered]

/-- Reads of the untouched file go on until the end and return the rest of the bytes. -/
theorem run_untouched (serves : Serves sha data blob) (ready : blob.usable = none) {reads : List (ℕ × Bytes)}
    (roomy : ∀ read ∈ reads, 0 < read.1) (enough : data.length - blob.offset < reads.length) :
    ((blob.run sha (reads.map fun read => .read read.1 data read.2)).map Served.bytes).flatten = data.drop blob.offset ∧
      ((blob.run sha (reads.map fun read => .read read.1 data read.2)).getLast?.map Served.answer) =
        some (.error .eof) := by
  induction reads generalizing blob with
  | nil => simp at enough
  | cons read reads ih =>
    have later := fun other mem => roomy other (List.mem_cons_of_mem _ mem)
    rw [List.length_cons] at enough
    rw [List.map_cons, run, List.map_cons, List.flatten_cons]
    rcases Nat.lt_or_ge blob.offset data.length with inside | ended
    · obtain ⟨bytes, answered, some_read, still_ready⟩ :=
        read_untouched serves ready read.1 read.2 inside (roomy read List.mem_cons_self)
      obtain ⟨still, returned⟩ := read_spec serves (fun index _ => chunkAt_self data index) read.1 read.2
      obtain ⟨-, content, moved⟩ := returned bytes answered
      have rest := ih still still_ready later (by rw [moved]; omega)
      rw [moved, ← List.drop_drop] at rest
      refine ⟨?_, last_of_rest rest.2⟩
      calc Served.bytes ⟨blob.offset, _, (blob.step sha (.read read.1 data read.2)).1⟩ ++ _
          = bytes ++ (data.drop blob.offset).drop bytes.length := by
            rw [Served.bytes, step, answered]
            exact congrArg (bytes ++ ·) rest.1
        _ = (data.drop blob.offset).take bytes.length ++ (data.drop blob.offset).drop bytes.length := by
            rw [← content]
        _ = data.drop blob.offset := List.take_append_drop _ _
    · -- Nothing is left: this read and all later ones report the end and change nothing.
      have stopped : blob.step sha (.read read.1 data read.2) = (.error .eof, blob) := by
        simp only [step, VerifiedBlob.read, ready, serves.size_eq, ge_iff_le, ended, if_true]
      rw [stopped]
      cases reads with
      | nil => simp [run, Served.bytes, List.drop_of_length_le ended]
      | cons next reads =>
        have rest := ih serves ready later (by rw [List.length_cons]; omega)
        exact ⟨by simpa [Served.bytes] using rest.1, last_of_rest rest.2⟩

/-- `Open` gives a blob that serves the stored bytes: with the record by the record, without one because
the whole digest ties what was read to what was stored. -/
theorem serves_of_open (kept : record = [] ∨ record = (putEncryptedBlob sha writes).1.chunkDigests)
    (free : sha.sum found.blocks.flatten = sha.sum writes.flatten → found.blocks.flatten = writes.flatten)
    (opened : openBlob sha { (putEncryptedBlob sha writes).1 with chunkDigests := record } found = .ok blob) :
    Serves sha writes.flatten blob ∧ blob.usable = none ∧ blob.offset = 0 := by
  rw [putEncryptedBlob, finish_digest] at kept opened
  dsimp only at kept opened
  unfold openBlob at opened
  split at opened
  · cases opened
  split at opened
  · cases opened
  dsimp only at opened
  split at opened
  · next digests parsed =>
    cases opened
    rcases kept with rfl | rfl
    · simp [parseChunkRecord, chunkRecordHeader] at parsed
    · rw [parseChunkRecord_chunkRecord, if_pos rfl] at parsed
      cases parsed
      exact ⟨⟨Int.toNat_natCast _, rfl, Nat.zero_le _, by simp⟩, rfl, rfl⟩
  · split at opened
    · cases opened
    · next sound =>
      cases opened
      rw [finish_digest, not_or, not_not, not_not] at sound
      have same := free sound.2
      refine ⟨⟨Int.toNat_natCast _, ?_, Nat.zero_le _, by simp⟩, rfl, rfl⟩
      rw [finish_digest, same]
      exact chunkRecord_digests sha writes.flatten

theorem open_untouched (untouched : found.untouched writes.flatten) :
    ∃ blob, openBlob sha { (putEncryptedBlob sha writes).1 with chunkDigests := record } found = .ok blob := by
  obtain ⟨regular, size, blocks⟩ := untouched
  rw [putEncryptedBlob, finish_digest]
  unfold openBlob
  rw [if_neg (by simp [regular, size, -List.length_flatten]), if_neg (by simp [sha.length_sum])]
  dsimp only
  split
  · exact ⟨_, rfl⟩
  · rw [finish_digest, blocks, if_neg (by simp [-List.length_flatten])]
    exact ⟨_, rfl⟩

end VerifiedBlob

/-- Verified reads. For a blob stored from any stream, opened with its record or without one: whatever
the file holds at each later operation, every byte that is returned is the stored byte at that position,
unless a chunk found in the file collides with the stored one. The position starts at zero, and each operation
takes it over from the one before. An untouched file opens, and reading it to the end returns exactly the
stored bytes. -/
theorem verified_reads (sha : Sha256) (writes : List Bytes) (record : Bytes)
    (kept : record = [] ∨ record = (putEncryptedBlob sha writes).1.chunkDigests) :
    (∀ (found : Found) (blob : VerifiedBlob) (operations : List VerifiedBlob.Operation),
      openBlob sha { (putEncryptedBlob sha writes).1 with chunkDigests := record } found = .ok blob →
      (sha.sum found.blocks.flatten = sha.sum writes.flatten → found.blocks.flatten = writes.flatten) →
      (∀ operation ∈ operations, operation.CollisionFree sha writes.flatten) →
      VerifiedBlob.Positioned writes.flatten.length 0 (blob.run sha operations) ∧
      ∀ served ∈ blob.run sha operations, ∀ bytes, served.answer = .ok (.bytes bytes) →
        bytes = (writes.flatten.drop served.position).take bytes.length) ∧
    (∀ found : Found, found.untouched writes.flatten →
      ∃ blob, openBlob sha { (putEncryptedBlob sha writes).1 with chunkDigests := record } found = .ok blob ∧
        ∀ reads : List (ℕ × Bytes), (∀ read ∈ reads, 0 < read.1) → writes.flatten.length < reads.length →
          ((blob.run sha (reads.map fun read => .read read.1 writes.flatten read.2)).map
            VerifiedBlob.Served.bytes).flatten = writes.flatten ∧
          (blob.run sha (reads.map fun read => .read read.1 writes.flatten read.2)).getLast?.map
            VerifiedBlob.Served.answer = some (.error .eof)) := by
  refine ⟨fun found blob operations opened whole free => ?_, fun found untouched => ?_⟩
  · obtain ⟨serves, -, start⟩ := VerifiedBlob.serves_of_open kept whole opened
    exact start ▸ VerifiedBlob.run_spec serves free
  · obtain ⟨blob, opened⟩ := VerifiedBlob.open_untouched untouched
    obtain ⟨serves, ready, start⟩ := VerifiedBlob.serves_of_open kept (fun _ => untouched.2.2) opened
    refine ⟨blob, opened, fun reads roomy enough => ?_⟩
    have rest := VerifiedBlob.run_untouched serves ready roomy (by rw [start]; exact enough)
    rwa [start, List.drop_zero] at rest

namespace Example

/-- A stand-in for SHA-256 that tells short byte strings apart. -/
def toyDigest : Sha256 where
  sum bytes := (bytes ++ List.replicate 32 0).take 32
  length_sum bytes := by simp

/-- The three bytes 1, 2, 3, arriving in two writes, as they are found on the disk. -/
def stored : List Bytes := [[1, 2], [3]]

end Example

/-- A blob of three bytes, opened with its record: a read of two bytes, a seek back and a read after the
bytes of the file were replaced return what was stored; and reads to the end return all of it. -/
theorem verified_reads_three_bytes :
    (∃ blob, openBlob Example.toyDigest (putEncryptedBlob Example.toyDigest Example.stored).1
        ⟨true, 3, [[1, 2, 3]]⟩ = .ok blob ∧
      ∀ served ∈ blob.run Example.toyDigest
          [.read 2 [1, 2, 3] [], .seek 1 .start, .read 9 [9, 9, 9] [], .close, .verifyCurrent [9, 9, 9] []],
        ∀ bytes, served.answer = .ok (.bytes bytes) →
          bytes = (([1, 2, 3] : Bytes).drop served.position).take bytes.length) ∧
    ∃ blob, openBlob Example.toyDigest (putEncryptedBlob Example.toyDigest Example.stored).1
        ⟨true, 3, [[1, 2, 3]]⟩ = .ok blob ∧
      ((blob.run Example.toyDigest
        ([(2, []), (5, []), (1, []), (1, [])].map fun read => .read read.1 [1, 2, 3] read.2)).map
          VerifiedBlob.Served.bytes).flatten = [1, 2, 3] := by
  have whole := verified_reads Example.toyDigest Example.stored _ (.inr rfl)
  have untouched : Found.untouched Example.stored.flatten ⟨true, 3, [[1, 2, 3]]⟩ := ⟨rfl, rfl, rfl⟩
  obtain ⟨blob, opened, reads⟩ := whole.2 _ untouched
  refine ⟨⟨blob, opened, ?_⟩, blob, opened, ?_⟩
  · refine (whole.1 _ blob _ opened (fun _ => rfl) ?_).2
    have same : VerifiedBlob.CollisionFree Example.toyDigest Example.stored.flatten [1, 2, 3] :=
      fun index _ => VerifiedBlob.chunkAt_self _ index
    have replaced : VerifiedBlob.CollisionFree Example.toyDigest Example.stored.flatten [9, 9, 9] := by
      intro index matching
      cases index with
      | zero => exact absurd matching (by decide)
      | succ index =>
        have behind : 3 ≤ (index + 1) * chunkSize := by simp [chunkSize]; omega
        simp [VerifiedBlob.chunkAt, piece, Example.stored, List.drop_of_length_le, behind]
    simp [VerifiedBlob.Operation.CollisionFree, same, replaced]
  · exact (reads [(2, []), (5, []), (1, []), (1, [])] (by decide) (by decide)).1

end Veritra.Uploads
