import KeyRack.Worker.Delivery

/-!
# Records of an encoded text

The text is cut into pieces of 256 characters, and each piece stands in a JSON record of its
own. Base64 characters are written as they are, so all that varies in the size of a record are
its piece and its two numbers. That a record is the last one is computed from its number.
-/
namespace KeyRack.Worker

open Encoding Fallible List
open String (utf8Len utf8Len_cons utf8Len_append utf8ByteSize_ofList)

/-- A character of Base64 text. -/
abbrev IsBase64 (c : Char) : Prop := (base64Value c).isSome ∨ c = '='

theorem utf8Len_of_ascii {text : List Char} (ascii : ∀ c ∈ text, c.utf8Size = 1) :
    utf8Len text = text.length := by
  induction text with
  | nil => rfl
  | cons c rest ih =>
    rw [utf8Len_cons, ascii c mem_cons_self, length_cons,
      ih fun c member => ascii c (mem_cons_of_mem _ member)]

theorem utf8Len_jsonNumber {n : Nat} (bounded : n < 2 ^ 64) : utf8Len (jsonNumber n) ≤ 20 := by
  rw [jsonNumber, Text.toList_toString, utf8Len_of_ascii]
  · exact Nat.toDigits_length 10 n 20 (by decide) (by omega)
  · intro c member
    have digit := Nat.isDigit_of_mem_toDigits (by decide) (by decide) member
    simp only [Char.isDigit, Bool.and_eq_true, decide_eq_true_eq] at digit
    rw [Char.utf8Size_eq_one_iff]
    exact UInt32.le_trans digit.2 (by decide)

theorem utf8Len_jsonOption {id : Option Nat} (bounded : ∀ n ∈ id, n < 2 ^ 64) :
    utf8Len (jsonOption id) ≤ 20 := by
  cases id with
  | none => decide
  | some n => exact utf8Len_jsonNumber (bounded n rfl)

theorem IsBase64.plain (base64 : IsBase64 c) : jsonChar c = [c] ∧ c.utf8Size = 1 := by
  rcases base64 with value | rfl
  · obtain ⟨n, found⟩ := Option.isSome_iff_exists.mp value
    have digits : ∀ n ∈ range 64, jsonChar (base64Digit n) = [base64Digit n] ∧
        (base64Digit n).utf8Size = 1 := by
      decide
    rw [← eq_of_beq (find?_some (p := fun n => base64Digit n == c) found)]
    exact digits n (mem_of_find?_eq_some found)
  · decide

theorem utf8Len_jsonString {text : List Char} (base64 : ∀ c ∈ text, IsBase64 c) :
    utf8Len (jsonString text) = text.length + 2 := by
  have plain : text.flatMap jsonChar = text :=
    (flatMap_congr fun c member => (base64 c member).plain.1).trans (flatMap_singleton' text)
  have size : (quote :: text ++ [quote]).length = text.length + 2 := by simp
  rw [jsonString, plain, utf8Len_of_ascii, size]
  intro c member
  simp only [cons_append, mem_cons, mem_append, not_mem_nil, or_false] at member
  rcases member with rfl | member | rfl
  · decide
  · exact (base64 c member).plain.2
  · decide

/-- A record has room for every number and for 256 characters of Base64 text. -/
theorem Chunk.fits {chunk : Chunk} (id : ∀ n ∈ chunk.id, n < 2 ^ 64) (part : chunk.part < 2 ^ 64)
    (base64 : ∀ c ∈ chunk.data, IsBase64 c) (short : chunk.data.length ≤ 256) :
    chunk.bytes.length ≤ atomicBytes := by
  have idSize := utf8Len_jsonOption id
  have partSize := utf8Len_jsonNumber part
  have dataSize := utf8Len_jsonString base64
  have eventSize : utf8Len (jsonString
      (if chunk.id.isSome then "staged".toList else "control".toList)) ≤ 9 := by
    split <;> decide
  have lastSize : utf8Len (jsonBool chunk.last) ≤ 5 := by
    cases chunk.last <;> decide
  have literals : utf8Len "\x7b\"event\":".toList + utf8Len ",\"id\":".toList +
      utf8Len ",\"part\":".toList + utf8Len ",\"data\":".toList +
      utf8Len ",\"last\":".toList + utf8Len "\x7d".toList ≤ 64 := by
    decide
  simp only [Chunk.bytes, recordBytes, Chunk.text, length_append, length_utf8,
    utf8ByteSize_ofList, utf8Len_append, length_singleton, atomicBytes]
  omega

/-- Pieces of a width, one after the other. -/
theorem flatMap_pieces {α : Type} (xs : List α) (width count : Nat) :
    (range count).flatMap (fun part => (xs.drop (part * width)).take width) =
      xs.take (count * width) := by
  induction count with
  | zero => simp
  | succ count ih =>
    rw [range_succ, flatMap_append, ih, Nat.succ_mul, take_add]
    simp

/-- **Chunking**: every Base64 text is cut into records that each fit into one write, numbered
    from zero, whose pieces are the text, and of which the last one says so. The length of a
    text is a `usize`. -/
theorem chunks_whole (id : Option Nat) (encoded : List Char) (number : ∀ n ∈ id, n < 2 ^ 64)
    (base64 : ∀ c ∈ encoded, IsBase64 c) (nonempty : encoded ≠ [])
    (bounded : encoded.length < 2 ^ 64) :
    ∃ records, chunks id encoded = .ok records ∧
      (∀ chunk ∈ records, chunk.id = id ∧ chunk.bytes.length ≤ 512) ∧
      records.map Chunk.part = range records.length ∧ records.flatMap Chunk.data = encoded ∧
      ∃ count, records.map Chunk.last = replicate count false ++ [true] := by
  have positive := length_pos_iff.mpr nonempty
  obtain ⟨count, counted⟩ : ∃ count, (encoded.length + 255) / 256 = count + 1 :=
    ⟨(encoded.length + 255) / 256 - 1, by omega⟩
  have fits (part : Nat) (member : part ∈ range (count + 1)) :
      (Chunk.mk id part ((encoded.drop (part * 256)).take 256)
        (decide ((part + 1) * 256 ≥ encoded.length))).bytes.length ≤ atomicBytes := by
    have last := mem_range.mp member
    exact Chunk.fits number (by change part < _; omega)
      (fun c member => base64 c (mem_of_mem_drop (mem_of_mem_take member)))
      (length_take_le _ _)
  refine ⟨_, ?_, forall_mem_map.mpr fun part member => ⟨rfl, fits part member⟩, ?_, ?_, count, ?_⟩
  · rw [chunks, counted, mapM_eq_ok, map_map]
    refine map_congr_left fun part member => ?_
    simp only [Function.comp_apply, checkRecord, eq_ok, and_true]
    exact ⟨(), Nat.not_lt.mpr (fits part member)⟩
  · rw [map_map, length_map, length_range]
    exact map_id' _
  · rw [flatMap_map, flatMap_pieces, take_of_length_le (by omega)]
  · have earlier : (range count).map (fun part => decide ((part + 1) * 256 ≥ encoded.length)) =
        replicate count false := by
      rw [eq_replicate_iff, length_map, length_range, forall_mem_map]
      refine ⟨rfl, fun part member => decide_eq_false ?_⟩
      have before := mem_range.mp member
      omega
    have final : decide ((count + 1) * 256 ≥ encoded.length) = true := decide_eq_true (by omega)
    rw [map_map, range_succ, map_append, ← earlier, ← final]
    rfl

theorem chunks_whole_staged : ∃ records, chunks (some 7) (replicate 300 'A') = .ok records ∧
    records.length = 2 ∧ records.flatMap Chunk.data = replicate 300 'A' := by
  obtain ⟨records, cut, -, -, whole, -⟩ := chunks_whole (some 7) (replicate 300 'A') (by decide)
    (by intro c member; rw [eq_of_mem_replicate member]; decide)
    (by decide +kernel) (by decide +kernel)
  have two : (chunks (some 7) (replicate 300 'A')).toOption.map length = some 2 := by
    decide +kernel
  rw [cut] at two
  exact ⟨records, cut, Option.some.inj two, whole⟩

end KeyRack.Worker
