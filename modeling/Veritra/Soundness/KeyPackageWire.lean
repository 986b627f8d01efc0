import Veritra.Bytes.Code
import Veritra.Model.MLSWire.KeyPackage

/-! # The validator accepts exactly the encodings of key packages

A key package is described by a code, as RFC 9420 writes it. Each part of the validator goes on exactly
behind a value of its code, so the whole accepts exactly the written values; every accepted value is read
off in one way, and no part reads outside the bytes at hand.
-/

namespace Veritra.MLSWire

open Reader BigEndian

variable {r r' : Reader} {n : ℕ} {out rest v : Bytes}

theorem take_eq : r.take n = some (out, ⟨rest, true⟩) ↔ r = ⟨out ++ rest, true⟩ ∧ out.length = n := by
  obtain ⟨data, ok⟩ := r
  unfold Reader.take slice sliceFrom failed
  constructor
  · intro taken
    split at taken
    · simp at taken
    · next enough =>
      simp only [not_or, Bool.not_eq_false, not_lt] at enough
      simp only [enough.2, if_true, Option.bind_eq_bind, Option.bind_some, Option.some.injEq, Prod.mk.injEq,
        Reader.mk.injEq] at taken
      obtain ⟨rfl, rfl, rfl⟩ := taken
      simp [enough.2]
  · rintro ⟨same, rfl⟩
    cases same
    simp

/-- A read fails or takes what it was asked for. -/
theorem take_total (r : Reader) (n : ℕ) :
    (r.ok = false ∨ r.data.length < n) ∧ r.take n = some ([], r.failed) ∨
      ∃ out rest, r.take n = some (out, ⟨rest, true⟩) ∧ out.length = n := by
  by_cases short : r.ok = false ∨ r.data.length < n
  · exact .inl ⟨short, if_pos short⟩
  · obtain ⟨data, ok⟩ := r
    simp only [not_or, Bool.not_eq_false, not_lt] at short
    obtain ⟨rfl, enough⟩ := short
    have split : data = data.take n ++ data.drop n := (List.take_append_drop n data).symm
    have length : (data.take n).length = n := List.length_take_of_le enough
    exact .inr ⟨_, _, take_eq.mpr ⟨by rw [← split], length⟩, length⟩

theorem uint8_eq : r.uint8 = some (n, ⟨rest, true⟩) ↔ ∃ byte : UInt8, n = byte.toNat ∧ r = ⟨byte :: rest, true⟩ := by
  unfold Reader.uint8
  rcases take_total r 1 with ⟨short, taken⟩ | ⟨out, left, taken, length⟩
  · simp only [taken, failed, Option.bind_eq_bind, Option.bind_some, if_true]
    constructor
    · simp
    · rintro ⟨byte, -, rfl⟩
      simp at short
  · obtain ⟨byte, rfl⟩ := List.length_eq_one_iff.mp length
    cases (take_eq.mp taken).1
    simp only [taken, Option.bind_eq_bind, Option.bind_some, Bool.true_eq_false, if_false, List.getElem?_cons_zero,
      Option.some.injEq, Prod.mk.injEq, Reader.mk.injEq, and_true]
    constructor
    · rintro ⟨rfl, rfl⟩
      exact ⟨byte, rfl, rfl⟩
    · rintro ⟨_, rfl, same⟩
      cases same
      exact ⟨rfl, rfl⟩

theorem put_pair (x y : UInt8) : put 2 (x.toNat * 256 + y.toNat) = [x, y] := by
  have small := y.toNat_lt
  have high : (x.toNat * 256 + y.toNat) / 256 = x.toNat := by omega
  have low : UInt8.ofNat (x.toNat * 256 + y.toNat) = y := UInt8.toNat_inj.mp (by simp)
  simp only [put, Nat.pow_one, Nat.pow_zero, Nat.div_one, high, low, UInt8.ofNat_toNat]

theorem uint16_eq : r.uint16 = some (n, ⟨rest, true⟩) ↔ n < 65536 ∧ r = ⟨put 2 n ++ rest, true⟩ := by
  unfold Reader.uint16
  rcases take_total r 2 with ⟨short, taken⟩ | ⟨out, left, taken, length⟩
  · simp only [taken, failed, Option.bind_eq_bind, Option.bind_some, if_true]
    constructor
    · simp
    · rintro ⟨-, rfl⟩
      simp only [Bool.true_eq_false, false_or, List.length_append, length_put] at short
      omega
  · obtain ⟨x, y, rfl⟩ := List.length_eq_two.mp length
    cases (take_eq.mp taken).1
    have small := x.toNat_lt
    have small' := y.toNat_lt
    simp only [taken, Option.bind_eq_bind, Option.bind_some, Bool.true_eq_false, if_false, List.getElem?_cons_zero,
      List.getElem?_cons_succ, Option.some.injEq, Prod.mk.injEq, Reader.mk.injEq, and_true]
    constructor
    · rintro ⟨rfl, rfl⟩
      exact ⟨by omega, by rw [put_pair]⟩
    · rintro ⟨bound, same⟩
      obtain ⟨digits, rfl⟩ := List.append_inj same (by simp)
      exact ⟨put_inj (by omega) (by omega) ((put_pair x y).trans digits), rfl⟩

/-- The shortest length: two bits for its size, then the number. -/
def header (n : ℕ) : Bytes :=
  if n < 64 then put 1 n else if n < 16384 then put 2 (16384 + n) else put 4 (2147483648 + n)

theorem put_quad (x y z w : UInt8) :
    put 4 (((x.toNat * 256 + y.toNat) * 256 + z.toNat) * 256 + w.toNat) = [x, y, z, w] := by
  have boundX := x.toNat_lt
  have boundY := y.toNat_lt
  have boundZ := z.toNat_lt
  have boundW := w.toNat_lt
  simp only [put, List.cons.injEq, and_true]
  refine ⟨?_, ?_, ?_, ?_⟩ <;> refine UInt8.toNat_inj.mp ?_ <;> simp <;> omega

theorem vector_short (short : r.ok = false ∨ r.data = []) : r.vector = some ([], r.failed) := by
  have taken : r.take 1 = some ([], r.failed) := if_pos (short.imp_right fun empty => by simp [empty])
  simp [Reader.vector, Reader.uint8, taken, failed]

theorem vector_cons (first : UInt8) (data : Bytes) :
    (Reader.mk (first :: data) true).vector = (Reader.mk data true).vectorAfter first.toNat := by
  have read : (Reader.mk (first :: data) true).uint8 = some (first.toNat, ⟨data, true⟩) :=
    uint8_eq.mpr ⟨first, rfl, rfl⟩
  simp [Reader.vector, read]

theorem takeFrom_eq {least : ℕ} : r.takeFrom least n = some (v, ⟨rest, true⟩) ↔
    r = ⟨v ++ rest, true⟩ ∧ v.length = n ∧ least ≤ n := by
  unfold takeFrom failed
  split_ifs with low
  · simp [low]
  · rw [take_eq]
    simp [not_lt.mp low]

theorem vector_sound (read : r.vector = some (v, ⟨rest, true⟩)) :
    v.length < 1073741824 ∧ r = ⟨header v.length ++ v ++ rest, true⟩ := by
  by_cases short : r.ok = false ∨ r.data = []
  · rw [vector_short short] at read
    simp [failed] at read
  obtain ⟨_ | ⟨first, data⟩, ok⟩ := r
  · simp at short
  simp only [reduceCtorEq, or_false, Bool.not_eq_false] at short
  cases short
  -- It is enough that the bytes before the vector are its header.
  suffices found : ∃ more, data = more ++ v ++ rest ∧ v.length < 1073741824 ∧ header v.length = first :: more by
    obtain ⟨more, rfl, fits, written⟩ := found
    exact ⟨fits, by simp [written]⟩
  rw [vector_cons] at read
  unfold vectorAfter at read
  split_ifs at read with zero one two
  · obtain ⟨same, length⟩ := take_eq.mp read
    cases same
    refine ⟨[], rfl, by omega, ?_⟩
    rw [header, if_pos (by omega), show v.length = first.toNat by omega]
    simp [put]
  · rcases take_total ⟨data, true⟩ 1 with ⟨-, taken⟩ | ⟨out, left, taken, length⟩
    · simp [taken, failed] at read
    obtain ⟨y, rfl⟩ := List.length_eq_one_iff.mp length
    cases (take_eq.mp taken).1
    have boundY := y.toNat_lt
    obtain ⟨same, length, low⟩ := takeFrom_eq.mp read
    cases same
    refine ⟨[y], rfl, by omega, ?_⟩
    rw [header, if_neg (by omega), if_pos (by omega), ← put_pair]
    congr 1
    omega
  · rcases take_total ⟨data, true⟩ 3 with ⟨-, taken⟩ | ⟨out, left, taken, length⟩
    · simp [taken, failed] at read
    obtain ⟨y, z, w, rfl⟩ := List.length_eq_three.mp length
    cases (take_eq.mp taken).1
    have boundY := y.toNat_lt
    have boundZ := z.toNat_lt
    have boundW := w.toNat_lt
    obtain ⟨same, length, low⟩ := takeFrom_eq.mp read
    cases same
    refine ⟨[y, z, w], rfl, by omega, ?_⟩
    rw [header, if_neg (by omega), if_neg (by omega), ← put_quad]
    congr 1
    omega
  · simp [failed] at read

theorem vector_complete (fits : v.length < 1073741824) (rest : Bytes) :
    (Reader.mk (header v.length ++ v ++ rest) true).vector = some (v, ⟨rest, true⟩) := by
  unfold header
  split_ifs with one two
  · simp only [put, Nat.pow_zero, Nat.div_one, List.cons_append, List.nil_append]
    rw [vector_cons, UInt8.toNat_ofNat', Nat.mod_eq_of_lt (by omega)]
    rw [vectorAfter, if_pos (by omega)]
    exact take_eq.mpr ⟨rfl, by omega⟩
  · simp only [put, Nat.pow_zero, Nat.div_one, Nat.pow_one, List.cons_append, List.nil_append]
    have taken : ∀ y, (Reader.mk (y :: (v ++ rest)) true).take 1 = some ([y], ⟨v ++ rest, true⟩) :=
      fun y => take_eq.mpr ⟨rfl, rfl⟩
    rw [vector_cons, UInt8.toNat_ofNat', vectorAfter, if_neg (by omega), if_pos (by omega)]
    simp only [taken, Option.bind_eq_bind, Option.bind_some, Bool.true_eq_false, if_false,
      List.getElem?_cons_zero, UInt8.toNat_ofNat']
    exact takeFrom_eq.mpr ⟨rfl, by omega, by omega⟩
  · simp only [put, Nat.pow_zero, Nat.div_one, Nat.pow_one, List.cons_append, List.nil_append]
    have taken : ∀ y z w, (Reader.mk (y :: z :: w :: (v ++ rest)) true).take 3 = some ([y, z, w], ⟨v ++ rest, true⟩) :=
      fun y z w => take_eq.mpr ⟨rfl, rfl⟩
    rw [vector_cons, UInt8.toNat_ofNat', vectorAfter, if_neg (by omega), if_neg (by omega), if_pos (by omega)]
    simp only [taken, Option.bind_eq_bind, Option.bind_some, Bool.true_eq_false, if_false,
      List.getElem?_cons_zero, List.getElem?_cons_succ, UInt8.toNat_ofNat']
    exact takeFrom_eq.mpr ⟨rfl, by omega, by omega⟩

namespace Format

variable {α : Type}

/-- A vector whose content is the value. -/
def vector (content : α → Bytes) (Valid : α → Prop)
    (inj : ∀ {a a'}, Valid a → Valid a' → content a = content a' → a = a') : Code α where
  write a := header (content a).length ++ content a
  Valid a := Valid a ∧ (content a).length < 1073741824
  unique {a a' rest rest'} valid valid' same := by
    have read := vector_complete valid.2 rest
    rw [same, vector_complete valid'.2] at read
    simp only [Option.some.injEq, Prod.mk.injEq, Reader.mk.injEq, and_true] at read
    exact ⟨inj valid.1 valid'.1 read.1.symm, read.2.symm⟩

def bytes (Valid : Bytes → Prop) : Code Bytes := vector id Valid fun _ _ => id

/-- Values of one code, as many as fit. -/
def listOf (code : Code α) (filled : ∀ a, code.Valid a → code.write a ≠ []) (Valid : List α → Prop) : Code (List α) :=
  vector (·.flatMap code.write) (fun list => (∀ a ∈ list, code.Valid a) ∧ Valid list)
    fun valid valid' => Code.flatMap_inj filled valid.1 valid'.1

def values : Code (List ℕ) := listOf (.number 2) (fun _ _ => List.cons_ne_nil _ _) fun _ => True

/-- A type and its data. -/
def extension : Code (ℕ × Bytes) := (Code.number 2).both (bytes fun _ => True)

/-- No type is repeated. -/
def extensions : Code (List (ℕ × Bytes)) :=
  listOf extension (fun _ _ => List.cons_ne_nil _ _) fun list => (list.map Prod.fst).Nodup

def sized (n : ℕ) : Code Bytes := bytes (·.length = n)

/-- Versions, suites, extensions, proposals and credentials. -/
def capabilities := values.both (values.both (values.both (values.both (values.both (Code.exactly [])))))

/-- Two keys, a basic credential, the capabilities, the source with the lifetime, extensions, a signature. -/
def leafNode := (sized 32).both ((sized 32).both ((Code.exactly [0, 1]).both ((bytes (· ≠ [])).both
  (capabilities.both ((Code.exactly [1]).both ((Code.bytes 16).both (extensions.both (sized 64))))))))

/-- Version and suite, a key, the leaf node, extensions, a signature. -/
def keyPackage := (Code.exactly [0, 1]).both ((Code.exactly [0, 1]).both ((sized 32).both (leafNode.both
  (extensions.both (sized 64)))))

end Format

variable {α β : Type} {p q : Check} {code : Code α} {accept : Bytes → Option Bool}

/-- The part always comes to an end, and it goes on exactly behind a value of the code. -/
structure Accepts (p : Check) (code : Code α) : Prop where
  total : ∀ r, (p r).isSome
  exact : ∀ r rest, p r = some (true, ⟨rest, true⟩) ↔ ∃ a, code.Valid a ∧ r = ⟨code.write a ++ rest, true⟩

theorem isSome_bind {x : Option α} {f : α → Option β} (first : x.isSome) (next : ∀ a, (f a).isSome) :
    (x >>= f).isSome := by
  obtain ⟨a, rfl⟩ := Option.isSome_iff_exists.mp first
  exact next a

theorem Accepts.both {code' : Code β} (first : Accepts p code) (second : Accepts q code') :
    Accepts (p.both q) (code.both code') := by
  refine ⟨fun r => ?_, fun r rest => ?_⟩
  · refine isSome_bind (first.total r) fun ⟨goes, left⟩ => ?_
    dsimp only
    split
    · exact second.total left
    · rfl
  · constructor
    · intro read
      obtain ⟨⟨goes, left⟩, began, read⟩ := Option.bind_eq_some_iff.mp read
      cases goes with
      | false => simp at read
      | true =>
        obtain ⟨b, valid', rfl⟩ := (second.exact left rest).mp read
        obtain ⟨a, valid, rfl⟩ := (first.exact r _).mp began
        exact ⟨(a, b), ⟨valid, valid'⟩, by simp [Code.both]⟩
    · rintro ⟨⟨a, b⟩, ⟨valid, valid'⟩, rfl⟩
      change p.both q ⟨code.write a ++ code'.write b ++ rest, true⟩ = _
      have began := (first.exact ⟨code.write a ++ code'.write b ++ rest, true⟩ (code'.write b ++ rest)).mpr
        ⟨a, valid, by rw [List.append_assoc]⟩
      simp only [Check.both, began, Option.bind_eq_bind, Option.bind_some, if_true]
      exact (second.exact _ rest).mpr ⟨b, valid', rfl⟩

theorem take_isSome (r : Reader) (n : ℕ) : (r.take n).isSome := by
  rcases take_total r n with ⟨-, taken⟩ | ⟨out, rest, taken, -⟩ <;> simp [taken]

theorem uint8_isSome (r : Reader) : r.uint8.isSome := by
  unfold Reader.uint8
  rcases take_total r 1 with ⟨-, taken⟩ | ⟨out, rest, taken, length⟩
  · simp [taken, failed]
  · obtain ⟨byte, rfl⟩ := List.length_eq_one_iff.mp length
    simp [taken]

theorem uint16_isSome (r : Reader) : r.uint16.isSome := by
  unfold Reader.uint16
  rcases take_total r 2 with ⟨-, taken⟩ | ⟨out, rest, taken, length⟩
  · simp [taken, failed]
  · obtain ⟨x, y, rfl⟩ := List.length_eq_two.mp length
    simp [taken]

theorem takeFrom_isSome (r : Reader) (least n : ℕ) : (r.takeFrom least n).isSome := by
  unfold takeFrom
  split
  · rfl
  · exact take_isSome r n

theorem vector_isSome (r : Reader) : r.vector.isSome := by
  refine isSome_bind (uint8_isSome r) fun ⟨first, r⟩ => ?_
  dsimp only
  unfold vectorAfter
  split_ifs
  · rfl
  · exact take_isSome r _
  · rcases take_total r 1 with ⟨-, taken⟩ | ⟨out, rest, taken, length⟩
    · simp [taken, failed]
    · obtain ⟨y, rfl⟩ := List.length_eq_one_iff.mp length
      simp [taken, takeFrom_isSome]
  · rcases take_total r 3 with ⟨-, taken⟩ | ⟨out, rest, taken, length⟩
    · simp [taken, failed]
    · obtain ⟨y, z, w, rfl⟩ := List.length_eq_three.mp length
      simp [taken, takeFrom_isSome]
  · rfl

theorem accepts_nothing : Accepts (fun r => some (true, r)) (Code.exactly []) :=
  ⟨fun _ => rfl, fun r rest => by simp [Code.exactly]⟩

theorem accepts_uint8 (byte : UInt8) : Accepts (Check.uint8 byte.toNat) (Code.exactly [byte]) := by
  refine ⟨fun r => isSome_bind (uint8_isSome r) fun _ => rfl, fun r rest => ?_⟩
  have read : Check.uint8 byte.toNat r = some (true, ⟨rest, true⟩) ↔ r.uint8 = some (byte.toNat, ⟨rest, true⟩) := by
    simp [Check.uint8, Option.bind_eq_some_iff]
  simp [read, uint8_eq, Code.exactly, UInt8.toNat_inj]

theorem accepts_one : Accepts (Check.uint16 1) (Code.exactly [0, 1]) := by
  refine ⟨fun r => isSome_bind (uint16_isSome r) fun _ => rfl, fun r rest => ?_⟩
  have read : Check.uint16 1 r = some (true, ⟨rest, true⟩) ↔ r.uint16 = some (1, ⟨rest, true⟩) := by
    simp [Check.uint16, Option.bind_eq_some_iff]
  simp [read, uint16_eq, Code.exactly, put]

theorem accepts_skip : Accepts (Check.skip n) (Code.bytes n) := by
  refine ⟨fun r => isSome_bind (take_isSome r n) fun _ => rfl, fun r rest => ?_⟩
  have read : Check.skip n r = some (true, ⟨rest, true⟩) ↔ ∃ out, r.take n = some (out, ⟨rest, true⟩) := by
    simp [Check.skip, Option.bind_eq_some_iff]
  simp [read, take_eq, Code.bytes, and_comm]

/-- The code of the vector is the one of its content. -/
theorem accepts_vector {content : α → Bytes} {Valid : α → Prop}
    (written : ∀ a, code.write a = header (content a).length ++ content a)
    (valid : ∀ a, code.Valid a ↔ Valid a ∧ (content a).length < 1073741824) (total : ∀ v, (accept v).isSome)
    (accepts : ∀ v, accept v = some true ↔ ∃ a, Valid a ∧ content a = v) : Accepts (Check.vector accept) code := by
  refine ⟨fun r => isSome_bind (vector_isSome r) fun ⟨v, left⟩ => ?_, fun r rest => ⟨fun read => ?_, ?_⟩⟩
  · dsimp only
    split
    · rfl
    · exact isSome_bind (total v) fun _ => rfl
  · obtain ⟨⟨v, left⟩, taken, read⟩ := Option.bind_eq_some_iff.mp read
    dsimp only at read
    split at read
    · simp at read
    · obtain ⟨_, accepted, same⟩ := Option.bind_eq_some_iff.mp read
      cases same
      obtain ⟨a, inside, rfl⟩ := (accepts v).mp accepted
      obtain ⟨fits, rfl⟩ := vector_sound taken
      exact ⟨a, (valid a).mpr ⟨inside, fits⟩, by rw [written]⟩
  · rintro ⟨a, holds, rfl⟩
    obtain ⟨inside, fits⟩ := (valid a).mp holds
    rw [written, Check.vector, vector_complete fits]
    simp [(accepts _).mpr ⟨a, inside, rfl⟩]

theorem accepts_bytes {Valid : Bytes → Prop} [DecidablePred Valid] :
    Accepts (Check.vector fun v => some (Valid v)) (Format.bytes Valid) :=
  accepts_vector (fun _ => rfl) (fun _ => .rfl) (fun _ => rfl) fun v => by simp

/-- Values of two bytes fill every even number of bytes. -/
theorem pairs_of_even : ∀ {v : Bytes}, v.length % 2 = 0 → ∃ list : List ℕ, (∀ n ∈ list, n < 65536) ∧ list.flatMap (put 2) = v
  | [], _ => ⟨[], by simp⟩
  | [x], odd => by simp at odd
  | x :: y :: v, even => by
    obtain ⟨list, bound, same⟩ := pairs_of_even (v := v) (by rw [List.length_cons, List.length_cons] at even; omega)
    have boundX := x.toNat_lt
    have boundY := y.toNat_lt
    refine ⟨(x.toNat * 256 + y.toNat) :: list, List.forall_mem_cons.mpr ⟨by omega, bound⟩, ?_⟩
    rw [List.flatMap_cons, put_pair, same]
    rfl

theorem accepts_values : Accepts (Check.vector fun list => some (list.length % 2 = 0)) Format.values := by
  refine accepts_vector (fun _ => rfl) (fun _ => .rfl) (fun _ => rfl) fun v => ⟨fun even => ?_, ?_⟩
  · obtain ⟨list, bound, same⟩ := pairs_of_even (by simpa using even)
    exact ⟨list, ⟨bound, trivial⟩, same⟩
  · rintro ⟨list, -, rfl⟩
    simp [Code.number, List.length_flatMap]

theorem write_extension (type : ℕ) (v rest : Bytes) :
    Format.extension.write (type, v) ++ rest = put 2 type ++ (header v.length ++ v ++ rest) :=
  List.append_assoc _ _ _

/-- The loop needs a round for each extension and one to end. -/
theorem extensionLoop_spec {fuel : ℕ} {seen : List ℕ} {r : Reader} (enough : r.data.length < fuel) :
    (extensionLoop fuel seen r).isSome ∧ (extensionLoop fuel seen r = some true ↔
      ∃ list : List (ℕ × Bytes), (∀ e ∈ list, Format.extension.Valid e) ∧ (list.map Prod.fst).Nodup ∧
        (∀ e ∈ list, e.1 ∉ seen) ∧ r = ⟨list.flatMap Format.extension.write, true⟩) := by
  induction fuel generalizing seen r with
  | zero => omega
  | succ fuel ih =>
    rw [extensionLoop]
    split
    · next more =>
      obtain ⟨⟨type, middle⟩, first⟩ := Option.isSome_iff_exists.mp (uint16_isSome r)
      obtain ⟨⟨v, ⟨left, ok⟩⟩, second⟩ := Option.isSome_iff_exists.mp (vector_isSome middle)
      -- What is read from a list is its first extension.
      have starts : ∀ list : List (ℕ × Bytes), (∀ e ∈ list, Format.extension.Valid e) →
          r = ⟨list.flatMap Format.extension.write, true⟩ →
            ∃ rest, list = (type, v) :: rest ∧ Reader.mk left ok = ⟨rest.flatMap Format.extension.write, true⟩ := by
        rintro (_ | ⟨⟨t, d⟩, rest⟩) valid rfl
        · exact absurd rfl more.2
        · obtain ⟨⟨small, -, fits⟩, -⟩ := List.forall_mem_cons.mp valid
          rw [List.flatMap_cons, write_extension, uint16_eq.mpr ⟨small, rfl⟩] at first
          cases first
          rw [vector_complete (show d.length < 1073741824 from fits)] at second
          cases second
          exact ⟨rest, rfl, rfl⟩
      simp only [first, second, Option.bind_eq_bind, Option.bind_some]
      cases ok with
      | false =>
        have ended : extensionLoop fuel (type :: seen) ⟨left, false⟩ = some false := by
          have := List.length_pos_iff.mpr more.2
          obtain ⟨k, rfl⟩ : ∃ k, fuel = k + 1 := ⟨fuel - 1, by omega⟩
          simp [extensionLoop]
        rw [ended, ite_self]
        refine ⟨rfl, iff_of_false nofun ?_⟩
        rintro ⟨list, valid, -, -, same⟩
        obtain ⟨_, -, wrong⟩ := starts list valid same
        cases wrong
      | true =>
        obtain ⟨fits, rfl⟩ := vector_sound second
        obtain ⟨small, rfl⟩ := uint16_eq.mp first
        have shorter : (Reader.mk left true).data.length < fuel := by
          simp only [List.length_append, length_put] at enough ⊢
          omega
        split
        · next repeated =>
          refine ⟨rfl, iff_of_false nofun ?_⟩
          rintro ⟨list, valid, -, apart, same⟩
          obtain ⟨rest, rfl, -⟩ := starts list valid same
          exact (List.forall_mem_cons.mp apart).1 repeated
        · next new =>
          refine ⟨(ih shorter).1, (ih shorter).2.trans ⟨?_, ?_⟩⟩
          · rintro ⟨list, valid, nodup, apart, same⟩
            cases same
            refine ⟨(type, v) :: list, List.forall_mem_cons.mpr ⟨⟨small, trivial, fits⟩, valid⟩, ?_, ?_, ?_⟩
            · refine List.nodup_cons.mpr ⟨fun mem => ?_, nodup⟩
              obtain ⟨e, mem, same⟩ := List.mem_map.mp mem
              exact apart e mem (same ▸ List.mem_cons_self)
            · exact List.forall_mem_cons.mpr ⟨new, fun e mem known => apart e mem (List.mem_cons_of_mem _ known)⟩
            · rw [List.flatMap_cons, write_extension]
          · rintro ⟨list, valid, nodup, apart, same⟩
            obtain ⟨rest, rfl, left⟩ := starts list valid same
            obtain ⟨once, nodup⟩ := List.nodup_cons.mp nodup
            refine ⟨rest, (List.forall_mem_cons.mp valid).2, nodup, fun e mem known => ?_, left⟩
            rcases List.mem_cons.mp known with same | known
            · exact once (List.mem_map.mpr ⟨e, mem, same⟩)
            · exact (List.forall_mem_cons.mp apart).2 e mem known
    · next ends =>
      refine ⟨rfl, ⟨fun good => ⟨[], nofun, List.nodup_nil, nofun, ?_⟩, ?_⟩⟩
      · obtain ⟨data, ok⟩ := r
        cases good
        simpa using ends
      · rintro ⟨list, -, -, -, rfl⟩
        rfl

theorem accepts_extensions : Accepts (Check.vector validExtensions) Format.extensions := by
  refine accepts_vector (fun _ => rfl) (fun _ => .rfl) (fun v => (extensionLoop_spec (Nat.lt_succ_self _)).1) fun v =>
    (extensionLoop_spec (Nat.lt_succ_self _)).2.trans (exists_congr fun list => ?_)
  simp only [Reader.mk.injEq, and_true, List.not_mem_nil, not_false_eq_true, implies_true, true_and, and_assoc, eq_comm]

theorem accepts_leafNode : Accepts readLeafNode Format.leafNode :=
  accepts_bytes.both <| accepts_bytes.both <| accepts_one.both <| accepts_bytes.both <|
    (accepts_values.both <| accepts_values.both <| accepts_values.both <| accepts_values.both <|
      accepts_values.both accepts_nothing).both <|
    (accepts_uint8 1).both <| accepts_skip.both <| accepts_extensions.both accepts_bytes

theorem accepts_keyPackage : Accepts readKeyPackage Format.keyPackage :=
  accepts_one.both <| accepts_one.both <| accepts_bytes.both <| accepts_leafNode.both <|
    accepts_extensions.both accepts_bytes

theorem ok_of_vector {r left : Reader} (read : Check.vector accept r = some (true, left)) : left.ok = true := by
  obtain ⟨⟨v, left⟩, -, read⟩ := Option.bind_eq_some_iff.mp read
  dsimp only at read
  split at read
  · simp at read
  · next ok =>
    obtain ⟨_, -, same⟩ := Option.bind_eq_some_iff.mp read
    cases same
    simpa using ok

theorem ok_of_both (ends : ∀ {r left}, q r = some (true, left) → left.ok = true) {r left : Reader}
    (read : p.both q r = some (true, left)) : left.ok = true := by
  obtain ⟨⟨goes, middle⟩, -, read⟩ := Option.bind_eq_some_iff.mp read
  cases goes with
  | false => simp at read
  | true => exact ends read

/-- The validator never reads outside its input. It accepts the input exactly when it has a permitted length and
is the encoding of one key package. -/
theorem key_packages_parsed (b : Bytes) :
    (validateKeyPackage b).isSome ∧
      (validateKeyPackage b = some true ↔
        64 ≤ b.length ∧ b.length ≤ 48 * 1024 ∧ ∃! p, Format.keyPackage.Valid p ∧ Format.keyPackage.write p = b) := by
  obtain ⟨⟨goes, r⟩, read⟩ := Option.isSome_iff_exists.mp (accepts_keyPackage.total ⟨b, true⟩)
  unfold validateKeyPackage
  split
  · next size => exact ⟨rfl, iff_of_false nofun fun ⟨low, high, _⟩ => by omega⟩
  · next size =>
    rw [not_or, not_lt, not_lt] at size
    rw [read]
    refine ⟨rfl, ⟨fun good => ?_, ?_⟩⟩
    · simp only [Option.bind_eq_bind, Option.bind_some, Option.some.injEq, Bool.and_eq_true, List.isEmpty_iff] at good
      obtain ⟨rfl, empty⟩ := good
      have ok : r.ok = true := ok_of_both (ok_of_both (ok_of_both (ok_of_both (ok_of_both ok_of_vector)))) read
      obtain ⟨data, _⟩ := r
      cases empty
      cases ok
      obtain ⟨p, valid, same⟩ := (accepts_keyPackage.exact _ _).mp read
      obtain rfl : b = Format.keyPackage.write p := by simpa using same
      refine ⟨size.1, size.2, p, ⟨valid, rfl⟩, fun p' ⟨valid', same'⟩ => ?_⟩
      have once : Format.keyPackage.write p' ++ [] = Format.keyPackage.write p ++ [] := by rw [same']
      exact (Format.keyPackage.unique valid' valid once).1
    · rintro ⟨-, -, p, ⟨valid, rfl⟩, -⟩
      have again := (accepts_keyPackage.exact ⟨_, true⟩ []).mpr ⟨p, valid, by rw [List.append_nil]⟩
      cases read.symm.trans again
      rfl

end Veritra.MLSWire
