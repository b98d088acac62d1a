import KeyRack.Worker.Ipc

/-!
# Frames do not depend on the chunks

What the loop has put into its output and what the reader still holds are together the stream,
and there is no newline in the output. So each turn asks the same of the whole stream.
-/
namespace KeyRack.Worker

open List Option

/-- The number of bytes of the frame at the front of a stream. -/
def frontFrame (stream : Bytes) : Except FrameError Nat :=
  match stream.findIdx? (· == 0x0A) with
  | some index => if index < maxFrame then .ok (index + 1) else .error .limit
  | none =>
    if stream = [] then .ok 0
    else if stream.length > maxFrame then .error .limit
    else .error .truncated

/-- The frame at the front of the stream, and chunks of what follows it. -/
def Framed (stream : Bytes) (answer : Except FrameError Unit × Bytes × BufReader) : Prop :=
  match frontFrame stream with
  | .ok count => ∃ rest : List Bytes, answer = (.ok (), stream.take count, rest.map some) ∧
      rest.flatten = stream.drop count
  | .error e => answer.1 = .error e

theorem frontFrame_limit (noEnd : output.findIdx? (· == 0x0A) = none)
    (long : maxFrame < output.length) : frontFrame (output ++ rest) = .error .limit := by
  rw [frontFrame, findIdx?_append, noEnd, none_or]
  cases rest.findIdx? (· == 0x0A) with
  | none =>
    have longer : maxFrame < (output ++ rest).length := by
      rw [length_append]
      omega
    have nonempty : output ++ rest ≠ [] := ne_nil_of_length_pos (by omega)
    simp only [map_none, if_neg nonempty, if_pos longer]
  | some index => exact if_neg (by simp only; omega)

theorem consume_flatten (count : Nat) (chunk : Bytes) (chunks : List Bytes) :
    ∃ left : List Bytes, consume count chunk (chunks.map some) = left.map some ∧
      left.flatten = chunk.drop count ++ chunks.flatten := by
  unfold consume
  split
  · exact ⟨chunk.drop count :: chunks, rfl, rfl⟩
  next used => exact ⟨chunks, rfl, by rw [drop_of_length_le (Nat.le_of_not_lt used), nil_append]⟩

/-- The loop in the middle of a stream. -/
theorem readFrame_from {chunks : List Bytes} (filled : ∀ chunk ∈ chunks, chunk ≠ [])
    (noEnd : output.findIdx? (· == 0x0A) = none) (short : output.length ≤ maxFrame) :
    Framed (output ++ chunks.flatten) (readFrame (chunks.map some) output) := by
  induction chunks generalizing output with
  | nil =>
    simp only [Framed, flatten_nil, append_nil, frontFrame, noEnd, map_nil, readFrame]
    by_cases empty : output = []
    · subst empty
      exact ⟨[], rfl, rfl⟩
    · simp [empty, Nat.not_lt.mpr short]
  | cons chunk chunks ih =>
    obtain ⟨byte, bytes, rfl⟩ := exists_cons_of_ne_nil (filled chunk mem_cons_self)
    simp only [map_cons, flatten_cons, readFrame]
    generalize byte :: bytes = chunk
    cases found : chunk.findIdx? (· == 0x0A) with
    | none =>
      have both : (output ++ chunk).findIdx? (· == 0x0A) = none := by
        rw [findIdx?_append, noEnd, found]
        rfl
      simp only [map_none, getD_none, isSome_none, Bool.false_eq_true, if_false,
        take_length, ← append_assoc, ← length_append]
      split
      next long => rw [Framed, frontFrame_limit both long]
      next fits =>
        exact ih (fun chunk member => filled chunk (mem_cons_of_mem _ member)) both
          (Nat.le_of_not_lt fits)
    | some index =>
      have inside := (findIdx?_eq_some_iff_findIdx_eq.mp found).1
      have stop : (output ++ (chunk ++ chunks.flatten)).findIdx? (· == 0x0A) =
          some (output.length + index) := by
        rw [findIdx?_append, noEnd, findIdx?_append, found]
        simp [Nat.add_comm]
      simp only [map_some, getD_some, isSome_some, if_true, Framed, frontFrame,
        stop]
      by_cases fits : output.length + index < maxFrame
      · obtain ⟨left, consumed, same⟩ := consume_flatten (index + 1) chunk chunks
        rw [if_pos fits, if_neg (by omega), consumed]
        refine ⟨left, ?_, ?_⟩
        · rw [Nat.add_assoc, take_length_add_append, take_append_of_le_length inside]
        · rw [same, Nat.add_assoc, drop_length_add_append, drop_append_of_le_length inside]
      · rw [if_neg fits, if_pos (by omega)]

/-- **Chunk independence**: the result is that of the stream, however it is cut into chunks. -/
theorem readFrame_stream (chunks : List Bytes) (filled : ∀ chunk ∈ chunks, chunk ≠ []) :
    Framed chunks.flatten (readFrame (chunks.map some) []) :=
  @readFrame_from [] chunks filled rfl (Nat.zero_le _)

theorem readFrame_stream_two : Framed [0x61, 0x0A, 0x62]
    (readFrame ([[0x61], [0x0A, 0x62]].map some) []) :=
  readFrame_stream [[0x61], [0x0A, 0x62]] (by decide)

end KeyRack.Worker
