import Veritra.Model.Uploads.Local

/-! # What a digester holds, however its stream arrives

The closed chunks and the open one together are the stream so far: every write keeps this, so the
finished record is the list of digests of the stream's pieces.
-/

namespace Veritra.Uploads

open Pieces

variable {sha : Sha256} {digester : ChunkDigester} {seen : Bytes} {chunks : List Bytes}

/-- The record of a blob: the version, the whole digest and the digests of its chunks. -/
def chunkRecord (sha : Sha256) (data : Bytes) : Bytes :=
  chunkRecordVersion :: (sha.sum data ++ (pieces chunkSize data).flatMap sha.sum)

/-- The header that the digester starts with and overwrites in the end. -/
def blankHeader : Bytes := chunkRecordVersion :: List.replicate 32 0

/-- The digester has closed `chunks` and the open chunk holds the rest of what was seen. -/
structure Digested (sha : Sha256) (digester : ChunkDigester) (seen : Bytes) (chunks : List Bytes) : Prop where
  full_chunks : ∀ chunk ∈ chunks, chunk.length = chunkSize
  seen_eq : seen = chunks.flatten ++ digester.chunk
  filled_eq : digester.filled = digester.chunk.length
  record_eq : digester.record = blankHeader ++ chunks.flatMap sha.sum

theorem digested_new : Digested sha newChunkDigester [] [] where
  full_chunks := by simp
  seen_eq := rfl
  filled_eq := rfl
  record_eq := by simp [newChunkDigester, blankHeader]

/-- One turn of the loop takes the bytes that fit. -/
theorem digested_fill (holds : Digested sha digester seen chunks) (bytes : Bytes) :
    ∃ chunks, Digested sha (digester.fill sha bytes)
      (seen ++ bytes.take (min (chunkSize - digester.filled) bytes.length)) chunks := by
  have room := digester.room
  unfold ChunkDigester.fill
  set n := min (chunkSize - digester.filled) bytes.length with taken
  have short : (bytes.take n).length = n := List.length_take_of_le (by omega)
  dsimp only
  split
  · refine ⟨chunks, holds.full_chunks, ?_, ?_, holds.record_eq⟩
    · rw [holds.seen_eq, List.append_assoc]
    · simp only [holds.filled_eq, List.length_append, short]
  · refine ⟨chunks ++ [digester.chunk ++ bytes.take n], ?_, ?_, rfl, ?_⟩
    · intro chunk mem
      rcases List.mem_append.mp mem with old | new
      · exact holds.full_chunks chunk old
      · rw [List.mem_singleton.mp new, List.length_append, short, ← holds.filled_eq]
        omega
    · simp [holds.seen_eq]
    · simp [holds.record_eq]

@[simp] theorem full_fill (bytes : Bytes) : (digester.fill sha bytes).full = digester.full := by
  unfold ChunkDigester.fill
  dsimp only
  split <;> rfl

/-- The loop takes all bytes. -/
theorem digested_fillAll (holds : Digested sha digester seen chunks) (bytes : Bytes) :
    (∃ chunks, Digested sha (digester.fillAll sha bytes) (seen ++ bytes) chunks) ∧
      (digester.fillAll sha bytes).full = digester.full := by
  induction digester, bytes using ChunkDigester.fillAll.induct sha generalizing seen chunks with
  | case1 digester bytes empty =>
    rw [ChunkDigester.fillAll, if_pos empty, List.length_eq_zero_iff.mp empty, List.append_nil]
    exact ⟨⟨chunks, holds⟩, rfl⟩
  | case2 digester bytes more ih =>
    obtain ⟨next, filled⟩ := digested_fill holds bytes
    obtain ⟨⟨all, done⟩, same⟩ := ih filled
    rw [List.append_assoc, List.take_append_drop] at done
    rw [ChunkDigester.fillAll, if_neg more]
    exact ⟨⟨all, done⟩, same.trans (full_fill bytes)⟩

section

variable (sha)

/-- However the stream is cut into writes, the digester has seen all of it. -/
theorem digested_digest (writes : List Bytes) :
    (∃ chunks, Digested sha (digest sha writes) writes.flatten chunks) ∧ (digest sha writes).full = writes.flatten := by
  suffices general : ∀ (writes : List Bytes) (digester : ChunkDigester) (chunks : List Bytes),
      Digested sha digester digester.full chunks →
      (∃ chunks, Digested sha (writes.foldl (fun digester bytes => digester.write sha bytes) digester)
        (digester.full ++ writes.flatten) chunks) ∧
        (writes.foldl (fun digester bytes => digester.write sha bytes) digester).full =
          digester.full ++ writes.flatten from
    general writes newChunkDigester [] digested_new
  intro writes
  induction writes with
  | nil =>
    intro digester chunks holds
    simp only [List.foldl_nil, List.flatten_nil, List.append_nil]
    exact ⟨⟨chunks, holds⟩, trivial⟩
  | cons bytes writes ih =>
    intro digester chunks holds
    have widened : Digested sha { digester with full := digester.full ++ bytes } digester.full chunks :=
      ⟨holds.full_chunks, holds.seen_eq, holds.filled_eq, holds.record_eq⟩
    obtain ⟨⟨next, written⟩, full⟩ := digested_fillAll widened bytes
    change Digested sha (digester.write sha bytes) _ _ at written
    change (digester.write sha bytes).full = digester.full ++ bytes at full
    rw [← full] at written
    obtain ⟨done, whole⟩ := ih _ _ written
    rw [List.foldl_cons, List.flatten_cons, ← List.append_assoc, ← full]
    exact ⟨done, whole⟩

/-- The finished record lists the digests of the pieces. -/
theorem finish_digest (writes : List Bytes) :
    (digest sha writes).finish sha = (sha.sum writes.flatten, chunkRecord sha writes.flatten) := by
  obtain ⟨⟨chunks, holds⟩, full⟩ := digested_digest sha writes
  have record : (if (digest sha writes).filled > 0 then
      (digest sha writes).record ++ sha.sum (digest sha writes).chunk else (digest sha writes).record) =
      blankHeader ++ (pieces chunkSize writes.flatten).flatMap sha.sum := by
    rw [holds.seen_eq, pieces_flatten_append chunkSize_pos holds.full_chunks, List.flatMap_append,
      holds.record_eq, holds.filled_eq]
    have short : (digest sha writes).chunk.length ≤ chunkSize := by
      rw [← holds.filled_eq]
      exact (digest sha writes).room.le
    split
    · next started =>
      rw [pieces_of_short (List.length_pos_iff.mp started) short]
      simp
    · have empty : (digest sha writes).chunk = [] := List.length_eq_zero_iff.mp (by omega)
      simp [empty, pieces_nil chunkSize_pos]
  unfold ChunkDigester.finish
  rw [record, full]
  simp [blankHeader, chunkRecord, chunkRecordHeader]

@[simp] theorem chunkRecord_header (data : Bytes) :
    ((chunkRecord sha data).take chunkRecordHeader).drop 1 = sha.sum data := by
  rw [chunkRecord, chunkRecordHeader, Nat.add_comm, List.take_succ_cons, List.drop_one, List.tail_cons,
    ← sha.length_sum data, List.take_left]

@[simp] theorem chunkRecord_digests (data : Bytes) :
    (chunkRecord sha data).drop chunkRecordHeader = (pieces chunkSize data).flatMap sha.sum := by
  rw [chunkRecord, chunkRecordHeader, Nat.add_comm, List.drop_succ_cons, ← sha.length_sum data, List.drop_left]

theorem length_digests (data : Bytes) :
    ((pieces chunkSize data).flatMap sha.sum).length = count chunkSize data.length * 32 := by
  rw [length_flatMap sha.length_sum, length_pieces]

end

/-- The number of chunks that the parser computes for a size. -/
theorem chunks_of_size (size : ℕ) : ((size : ℤ) + chunkSize - 1).tdiv chunkSize = count chunkSize size := by
  have positive := chunkSize_pos
  have natural : (size : ℤ) + chunkSize - 1 = ((size + chunkSize - 1 : ℕ) : ℤ) := by omega
  rw [natural, count]
  rfl

/-- A record is accepted for the sizes with its number of chunks and for no others. -/
theorem parseChunkRecord_chunkRecord (sha : Sha256) (data : Bytes) (size : ℕ) :
    parseChunkRecord sha (chunkRecord sha data) (sha.sum data) size =
      if count chunkSize size = count chunkSize data.length then
        some ((pieces chunkSize data).flatMap sha.sum) else none := by
  have long : ¬ (chunkRecord sha data).length < chunkRecordHeader := by
    simp [chunkRecord, chunkRecordHeader, sha.length_sum]
  have version : (chunkRecord sha data).head? = some chunkRecordVersion := rfl
  unfold parseChunkRecord
  rw [chunkRecord_header, chunkRecord_digests, chunks_of_size, if_neg (by simp [long, version])]
  by_cases same : count chunkSize size = count chunkSize data.length
  · have counted : ¬ (((pieces chunkSize data).flatMap sha.sum).length : ℤ) ≠ (count chunkSize size : ℤ) * 32 := by
      rw [length_digests, same]
      simp
    rw [if_pos same, if_neg counted, same]
    split
    · have empty : data = [] := by
        by_contra some_left
        have filled := List.length_pos_iff.mpr some_left
        have counted := (lt_count chunkSize_pos 0 data.length).mpr (by omega)
        omega
      simp [empty]
    · split
      · next one_chunk =>
        have short : data.length ≤ chunkSize := by
          by_contra long
          have counted := (lt_count chunkSize_pos 1 data.length).mpr (by omega)
          omega
        have filled : data ≠ [] := by
          rintro rfl
          simp [count, chunkSize] at one_chunk
        simp [pieces_of_short filled short]
      · rfl
  · have counted : (((pieces chunkSize data).flatMap sha.sum).length : ℤ) ≠ (count chunkSize size : ℤ) * 32 := by
      rw [length_digests]
      omega
    rw [if_neg same, if_pos counted]

end Veritra.Uploads
