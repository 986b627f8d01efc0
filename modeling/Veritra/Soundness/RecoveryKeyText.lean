import Veritra.Bytes.Regroup
import Veritra.Model.Recovery.KeyText

/-! # A recovery key is read back from every spelling of its text

Writing and reading both regroup bits, so the text and the bytes spell the same number up to the four bits
that fill the last symbol, and as many symbols that spell one number are the same.
-/

namespace Veritra.RecoveryKey

open Machine Regroup
open Signing (ascii)
open Uploads (Bytes Sha256)

variable {sha : Sha256} {text key bytes : Bytes} {values : List ℕ} {state : Packing} {symbol : UInt8}

/-- The one spelling of a typed character: upper case, with the letters that look like digits as those digits. -/
def canonical (symbol : UInt8) : UInt8 :=
  match (Char.ofUInt8 symbol).toUpper with
  | 'O' => 48
  | 'I' => 49
  | 'L' => 49
  | letter => letter.toUInt8

/-- The text without its dashes and spaces, in the one spelling of each character. -/
def normalized (text : Bytes) : Bytes := (text.filter (· ∉ ascii "- ")).map canonical

theorem canonical_eq_reading (symbol : UInt8) : canonical symbol = reading symbol := by
  have every : ∀ n < 256, canonical (UInt8.ofNat n) = reading (UInt8.ofNat n) := by decide +kernel
  simpa using every symbol.toNat symbol.toNat_lt

/-- The decoder reads a text as its one spelling. -/
theorem normalized_eq_reading (text : Bytes) : normalized text = (text.filter (!isSeparator ·)).map reading := by
  have separators : ascii "- " = ['-'.toUInt8, ' '.toUInt8] := rfl
  rw [normalized, funext canonical_eq_reading]
  congr 2
  ext symbol
  simp [separators, isSeparator]

/-- The values of a text spell the bytes and four clear bits. -/
structure Spells (values : List ℕ) (bytes : Bytes) : Prop where
  count : values.length = displayChars
  number : spelled 5 values = spelled 8 (bytes.map UInt8.toNat) * 2 ^ 4

theorem byte_lt (bytes : Bytes) : ∀ digit ∈ bytes.map UInt8.toNat, digit < 2 ^ 8 :=
  List.forall_mem_map.mpr fun byte _ => byte.toNat_lt

theorem length_checkBytes : (checkBytes sha key).length = 2 := by
  simp [checkBytes, sha.length_sum]

theorem symbolValue_eq_some {value : ℕ} :
    symbolValue symbol = some value ↔ value < 2 ^ 5 ∧ reading symbol = symbolOf value := by
  have found : ∀ value < 2 ^ 5, crockford.idxOf? (symbolOf value) = some value := by decide
  constructor
  · intro known
    obtain ⟨bound, same, -⟩ := List.idxOf?_eq_some_iff.mp known
    exact ⟨bound, by rw [symbolOf, List.getD_eq_getElem?_getD, List.getElem?_eq_getElem bound, same]; rfl⟩
  · rintro ⟨fits, same⟩
    rw [symbolValue, same]
    exact found value fits

/-- The bytes written so far are the symbols put out and the waiting bits. -/
def Written (bytes : Bytes) (state : Packing) : Prop :=
  ∃ values : List ℕ, state.out = values.map symbolOf ∧ (∀ value ∈ values, value < 2 ^ 5) ∧
    Packed 8 5 (bytes.map UInt8.toNat) values state.buffer state.bits

theorem Written.drain {out : Bytes} {buffer bits : ℕ} (written : Written bytes ⟨out, buffer, bits⟩) :
    Written bytes ⟨(drain out buffer bits).1, buffer, (drain out buffer bits).2⟩ ∧ (drain out buffer bits).2 < 5 := by
  fun_induction RecoveryKey.drain out buffer bits with
  | case1 out bits enough ih =>
    obtain ⟨values, same, fits, packed⟩ := written
    cases same
    obtain ⟨waiting, rfl⟩ := Nat.exists_eq_add_of_le' enough
    refine ih ⟨values ++ [buffer >>> waiting &&& (2 ^ 5 - 1)], ?_, ?_, packed.give⟩
    · rw [Nat.add_sub_cancel, List.map_append]
      rfl
    · rw [List.forall_mem_append, List.forall_mem_singleton]
      exact ⟨fits, Nat.and_lt_two_pow _ (by decide)⟩
  | case2 out bits few => exact ⟨written, not_le.mp few⟩

theorem Written.byte (written : Written bytes state) (byte : UInt8) :
    Written (bytes ++ [byte]) (encodeByte state byte) ∧ (encodeByte state byte).bits < 5 := by
  obtain ⟨values, same, fits, packed⟩ := written
  have fed : Written (bytes ++ [byte]) ⟨state.out, state.buffer <<< 8 ||| byte.toNat, state.bits + 8⟩ :=
    ⟨values, same, fits, List.map_append ▸ packed.feed byte.toNat_lt⟩
  obtain ⟨⟨values', same', fits', packed'⟩, few⟩ := fed.drain
  exact ⟨⟨values', same', fits', packed'.mask⟩, few⟩

theorem written_encode (bytes : Bytes) :
    Written bytes (bytes.foldl encodeByte ⟨[], 0, 0⟩) ∧ (bytes.foldl encodeByte ⟨[], 0, 0⟩).bits < 5 := by
  induction bytes using List.reverseRecOn with
  | nil => exact ⟨⟨[], rfl, nofun, .start⟩, by decide⟩
  | append_singleton bytes byte ih =>
    rw [List.foldl_concat]
    exact ih.1.byte byte

theorem encode_spells (sha : Sha256) (whole : key.length = entropyBytes) :
    ∃ values, encode sha key = .ok (values.map symbolOf) ∧ (∀ value ∈ values, value < 2 ^ 5) ∧
      Spells values (key ++ checkBytes sha key) := by
  obtain ⟨⟨values, same, fits, packed⟩, few⟩ := written_encode (key ++ checkBytes sha key)
  rw [encode, require_bind_of whole]
  generalize (key ++ checkBytes sha key).foldl encodeByte ⟨[], 0, 0⟩ = last at *
  -- 256 bits are 51 symbols and one waiting bit.
  have count := packed.count
  have number := packed.number
  simp only [List.length_map, List.length_append, whole, length_checkBytes, entropyBytes] at count
  have one : last.bits = 1 := by omega
  rw [one] at number count
  refine ⟨values ++ [last.buffer <<< 4 &&& (2 ^ 5 - 1)], ?_, ?_, ?_, ?_⟩
  · dsimp only
    rw [one, same, List.map_append]
    rfl
  · rw [List.forall_mem_append, List.forall_mem_singleton]
    exact ⟨fits, Nat.and_lt_two_pow _ (by decide)⟩
  · rw [List.length_append, List.length_singleton, displayChars]
    omega
  · rw [spelled_concat, number, Nat.and_two_pow_sub_one_eq_mod, Nat.shiftLeft_eq]
    omega

/-- The values read so far are the bytes put out and the bits in the buffer. -/
structure Read (values : List ℕ) (state : Packing) : Prop where
  packed : Packed 5 8 values (state.out.map UInt8.toNat) state.buffer state.bits
  low : state.buffer < 2 ^ state.bits
  few : state.bits < 8

theorem Read.value {value : ℕ} (read : Read values state) (fits : value < 2 ^ 5) :
    Read (values ++ [value]) (decodeValue state value) := by
  have few := read.few
  have fed := read.packed.feed fits
  have low : state.buffer <<< 5 ||| value < 2 ^ (state.bits + 5) :=
    Nat.or_lt_two_pow (by rw [Nat.shiftLeft_eq, pow_add]; gcongr; exact read.low)
      (fits.trans_le (Nat.pow_le_pow_right (by decide) (by omega)))
  unfold decodeValue
  dsimp only
  split
  · next enough =>
    obtain ⟨waiting, more⟩ := Nat.exists_eq_add_of_le' enough
    rw [more] at fed ⊢
    refine ⟨?_, ?_, by dsimp only; omega⟩
    · have given := fed.give.mask
      have byte : (state.buffer <<< 5 ||| value) >>> waiting &&& 0xff < 2 ^ 8 := Nat.and_lt_two_pow _ (by decide)
      rw [Nat.add_sub_cancel, List.map_append, List.map_singleton, UInt8.toNat_ofNat_of_lt' byte]
      exact given
    · rw [Nat.one_shiftLeft, Nat.and_two_pow_sub_one_eq_mod]
      exact Nat.mod_lt _ (by positivity)
  · next short => exact ⟨fed, low, not_le.mp short⟩

theorem read_decode (fits : ∀ value ∈ values, value < 2 ^ 5) : Read values (values.foldl decodeValue ⟨[], 0, 0⟩) := by
  induction values using List.reverseRecOn with
  | nil => exact ⟨.start, by decide, by decide⟩
  | append_singleton values value ih =>
    rw [List.forall_mem_append, List.forall_mem_singleton] at fits
    rw [List.foldl_concat]
    exact (ih fits.1).value fits.2

/-- The values are those of the symbols of a text. -/
def Typed (text : Bytes) (values : List ℕ) : Prop :=
  normalized text = values.map symbolOf ∧ ∀ value ∈ values, value < 2 ^ 5

theorem typed_cons (separator : ¬ isSeparator symbol) : Typed (symbol :: text) values ↔
      ∃ value rest, values = value :: rest ∧ symbolValue symbol = some value ∧ Typed text rest := by
  cases values with
  | nil => simp [Typed, normalized_eq_reading, separator]
  | cons => simp [Typed, normalized_eq_reading, separator, symbolValue_eq_some, and_left_comm, and_assoc]

/-- The loop reads the values of all symbols, unless there are too many. -/
theorem decodeSymbols_eq_some {symbols : ℕ} {last : ℕ × Packing} (few : symbols ≤ displayChars) :
    decodeSymbols text symbols state = some last ↔
      ∃ values, Typed text values ∧ symbols + values.length ≤ displayChars ∧
        (symbols + values.length, values.foldl decodeValue state) = last := by
  fun_induction decodeSymbols text symbols state with
  | case1 symbols state => simp [Typed, normalized_eq_reading, few]
  | case2 symbol text symbols state separator ih =>
    have same : normalized (symbol :: text) = normalized text := by simp [normalized_eq_reading, separator]
    simp only [ih few, Typed, same]
  | case3 symbol text symbols state separator unknown => simp [typed_cons separator, unknown]
  | case4 symbol text symbols state separator value known many =>
    simp only [reduceCtorEq, typed_cons separator, false_iff, not_exists]
    rintro _ ⟨⟨_, rest, rfl, -⟩, bound, -⟩
    rw [List.length_cons] at bound
    omega
  | case5 symbol text symbols state separator value known few' ih =>
    simp only [ih (not_lt.mp few'), typed_cons separator, known, Option.some.injEq]
    have shift : ∀ rest : List ℕ, symbols + (value :: rest).length = symbols + 1 + rest.length := by
      intro rest
      rw [List.length_cons]
      omega
    constructor
    · rintro ⟨rest, typed, bound, rfl⟩
      exact ⟨_, ⟨value, rest, rfl, rfl, typed⟩, (shift rest).trans_le bound, by rw [shift]; rfl⟩
    · rintro ⟨_, ⟨_, rest, rfl, rfl, typed⟩, bound, rfl⟩
      exact ⟨rest, typed, (shift rest).symm.trans_le bound, by rw [shift]; rfl⟩

theorem decode_eq_ok (short : text.length ≤ maxDisplayInputBytes) :
    decode sha text = .ok key ↔ key.length = entropyBytes ∧
      ∃ values, Typed text values ∧ Spells values (key ++ checkBytes sha key) := by
  constructor
  · intro ok
    have ok := of_require ok
    split at ok
    · cases ok
    · next symbols decoded buffer bits found =>
      obtain ⟨⟨count, rfl, rfl, whole⟩, checked⟩ := require_ok.mp ok
      obtain ⟨same, kept⟩ := require_ok.mp checked
      cases kept
      obtain ⟨values, typed, -, last⟩ := (decodeSymbols_eq_some (by decide)).mp found
      obtain ⟨total, last⟩ := Prod.mk.inj last
      have number := (read_decode typed.2).packed.number
      rw [last] at number
      refine ⟨by simp [whole, entropyBytes], values, typed, ?_, ?_⟩
      · omega
      · rw [← same, List.take_append_drop]
        exact number
  · rintro ⟨whole, values, typed, spells⟩
    have some_left : text ≠ [] := by
      rintro rfl
      have none := spells.count
      simp [List.map_eq_nil_iff.mp typed.1.symm, displayChars] at none
    have read := read_decode typed.2
    have found : decodeSymbols text 0 ⟨[], 0, 0⟩ = some (displayChars, values.foldl decodeValue ⟨[], 0, 0⟩) :=
      (decodeSymbols_eq_some (Nat.zero_le _)).mpr ⟨values, typed, by simp [spells.count]⟩
    generalize values.foldl decodeValue ⟨[], 0, 0⟩ = last at *
    obtain ⟨decoded, buffer, bits⟩ := last
    -- 260 bits are 32 bytes and four bits.
    have count := read.packed.count
    have few := read.few
    have low := read.low
    have number := read.packed.number.symm.trans spells.number
    rw [spells.count, displayChars, List.length_map] at count
    dsimp only at count few low number
    obtain rfl : bits = 4 := by omega
    obtain rfl : buffer = 0 := by omega
    have digits : decoded.map UInt8.toNat = (key ++ checkBytes sha key).map UInt8.toNat := by
      refine spelled_inj (by decide) ?_ (byte_lt _) (byte_lt _) (by omega)
      simp only [List.length_map, List.length_append, whole, length_checkBytes, entropyBytes]
      omega
    have same := List.map_injective_iff.mpr (fun _ _ => UInt8.toNat.inj) digits
    rw [decode, require_bind_of ⟨some_left, short⟩, found, same]
    dsimp only
    rw [require_bind_of ⟨rfl, rfl, rfl, by simp [whole, length_checkBytes]⟩, ← whole, List.take_left,
      List.drop_left, require_bind_of rfl]
    rfl

/-- What is written is short, and reads as itself. -/
theorem encode_normal (ok : encode sha key = .ok text) :
    key.length = entropyBytes ∧ text.length ≤ maxDisplayInputBytes ∧ normalized text = text := by
  obtain ⟨whole, -⟩ := require_ok.mp ok
  obtain ⟨values, written, fits, spells⟩ := encode_spells sha whole
  cases ok.symm.trans written
  have read : ∀ value < 2 ^ 5, isSeparator (symbolOf value) = false ∧ reading (symbolOf value) = symbolOf value := by
    decide
  refine ⟨whole, by simp [spells.count, displayChars, maxDisplayInputBytes], ?_⟩
  rw [normalized_eq_reading, List.filter_eq_self.mpr, List.map_map]
  · exact List.map_congr_left fun value mem => (read value (fits value mem)).2
  · simpa using fun value mem => (read value (fits value mem)).1

theorem decode_iff_encode (short : text.length ≤ maxDisplayInputBytes) :
    decode sha text = .ok key ↔ encode sha key = .ok (normalized text) := by
  rw [decode_eq_ok short]
  constructor
  · rintro ⟨whole, values, ⟨typed, fits⟩, spells⟩
    obtain ⟨values', written, fits', spells'⟩ := encode_spells sha whole
    obtain rfl := spelled_inj (by decide) (spells.count.trans spells'.count.symm) fits fits'
      (spells.number.trans spells'.number.symm)
    rw [written, typed]
  · intro ok
    obtain ⟨whole, -⟩ := require_ok.mp ok
    obtain ⟨values, written, fits, spells⟩ := encode_spells sha whole
    exact ⟨whole, values, ⟨Except.ok.inj (ok.symm.trans written), fits⟩, spells⟩

/-- Every key is read back from its text, a text of any spelling within the limit is accepted exactly when it
reads as the text of the key that is returned, and no two keys have one text. -/
theorem recovery_text_sound (sha : Sha256) :
    (∀ key : Bytes, key.length = entropyBytes → ∃ text, encode sha key = .ok text ∧ decode sha text = .ok key) ∧
    (∀ text key : Bytes, text.length ≤ maxDisplayInputBytes →
      (decode sha text = .ok key ↔ encode sha key = .ok (normalized text))) ∧
    ∀ text key key' : Bytes, encode sha key = .ok text → encode sha key' = .ok text → key = key' := by
  have back : ∀ {text key : Bytes}, encode sha key = .ok text → decode sha text = .ok key := by
    intro text key ok
    obtain ⟨-, short, same⟩ := encode_normal ok
    exact (decode_iff_encode short).mpr (same.symm ▸ ok)
  refine ⟨?_, fun text key => decode_iff_encode, ?_⟩
  · intro key whole
    obtain ⟨values, written, -⟩ := encode_spells sha whole
    exact ⟨_, written, back written⟩
  · intro text key key' first second
    exact Except.ok.inj ((back first).symm.trans (back second))

end Veritra.RecoveryKey
