import Mk1.Primitives.Blob

/-!
# What the encoder writes

The header and the data form a stream, and the encoder writes the packed stream:
`createBlobFromData_eq`. The rounds that are not run would write zeros, because
the stream has ended.
-/

namespace Mk1

open Window FieldElements

theorem ok_bind {α β : Type} (value : α) (next : α → BlobResult β) :
    ((Except.ok value : BlobResult α) >>= next) = next value := rfl

theorem orPanic_some {α : Type} (value : α) (message : String) :
    orPanic (some value) message = .ok value := rfl

theorem assert_of_true {condition : Bool} {message : String} (h : condition = true) :
    assert condition message = .ok () := by
  rw [assert, if_pos h]
  rfl

theorem rejectIf_of_false {condition : Bool} {e : BlobError} (h : condition = false) :
    rejectIf condition e = .ok () := by
  rw [rejectIf, h]
  rfl

theorem rejectIf_of_true {condition : Bool} {e : BlobError} (h : condition = true) :
    rejectIf condition e = .error (.error e) := by
  rw [rejectIf, h]
  rfl

/-- The version and the length of the data. -/
def header (data : List UInt8) : List UInt8 :=
  let ilen := data.length % 2 ^ 32
  [ENCODING_VERSION, UInt8.ofNat (ilen >>> 16 &&& 0xFF), UInt8.ofNat (ilen >>> 8 &&& 0xFF),
    UInt8.ofNat (ilen &&& 0xFF)]

/-- The bytes that are encoded: the header, the data and zeros. -/
def stream (data : List UInt8) : Nat → UInt8 := ofList (header data ++ data) 0

/-- The data follows the header. -/
theorem stream_add (data : List UInt8) (i : Nat) : stream data (i + 4) = ofList data 0 i := by
  unfold stream ofList header
  simp [List.getD_eq_getElem?_getD]

/-- The stream ends with the data. -/
theorem stream_eq_zero {data : List UInt8} {round i : Nat} (h : data.length ≤ 127 * round - 4)
    (hi : 127 * round ≤ i) : stream data i = 0 := by
  cases round with
  | zero =>
      have hnil : data = [] := List.eq_nil_of_length_eq_zero (by omega)
      subst hnil
      match i with
      | 0 => rfl
      | 1 => rfl
      | 2 => rfl
      | 3 => rfl
      | i + 4 =>
          rw [stream_add]
          rfl
  | succ round =>
      obtain ⟨offset, rfl⟩ : ∃ offset, i = offset + 4 := ⟨i - 4, by omega⟩
      rw [stream_add, ofList_of_le (by omega)]

/-! ## Reading -/

/-- Reading a byte reads the stream. -/
theorem readOneByte_eq (data : List UInt8) (consumed : Nat) :
    readOneByte data (min data.length consumed) =
      (stream data (consumed + 4), min data.length (consumed + 1)) := by
  unfold readOneByte
  rw [stream_add]
  by_cases h : consumed < data.length
  · rw [dif_pos (by omega), ofList_of_lt h]
    simp only [Nat.min_eq_right (Nat.le_of_lt h), Nat.min_eq_right h]
  · rw [dif_neg (by omega), ofList_of_le (by omega)]
    congr 1
    omega

/-- What is copied of the data fills the front of a window of the stream. -/
theorem copy_window (data front : List UInt8) (consumed n size : Nat)
    (hend : n = size ∨ data.length = consumed + n) (hsize : n ≤ size) :
    copyFromSlice (front ++ List.replicate size 0) front.length (front.length + n)
        (window (ofList data 0) consumed n) =
      some (front ++ window (ofList data 0) consumed size) := by
  have hzeros : window (ofList data 0) (consumed + n) (size - n) =
      List.replicate (size - n) 0 := by
    refine window_eq_replicate fun i hi => ofList_of_le ?_
    omega
  have hsplit : List.replicate size (0 : UInt8) =
      List.replicate n 0 ++ List.replicate (size - n) 0 := by
    rw [List.replicate_append_replicate, Nat.add_sub_cancel' hsize]
  have hcopy := copyFromSlice_append front (List.replicate n (0 : UInt8))
    (window (ofList data 0) consumed n) (List.replicate (size - n) 0) (by simp)
  rw [List.length_replicate] at hcopy
  rw [hsplit, hcopy, ← hzeros, window_append, Nat.add_sub_cancel' hsize]

/-- Reading 31 bytes reads the stream. -/
theorem read31Bytes_eq (data : List UInt8) (consumed : Nat) :
    read31Bytes data (min data.length consumed) =
      .ok (window (stream data) (consumed + 4) 31, min data.length (consumed + 31)) := by
  have hstream : window (stream data) (consumed + 4) 31 = window (ofList data 0) consumed 31 := by
    refine window_congr fun i _ => ?_
    rw [Nat.add_right_comm, stream_add]
  rw [hstream]
  unfold read31Bytes
  by_cases h : consumed < data.length
  · have hmin : min data.length consumed = consumed := by omega
    rw [hmin, if_pos h]
    have hslice := slice_eq_window data consumed (min 31 (data.length - consumed)) 0 (by omega)
    have hcopy := copy_window data [] consumed (min 31 (data.length - consumed)) 31 (by omega)
      (by omega)
    simp only [List.nil_append, List.length_nil, Nat.zero_add] at hcopy
    simp only [hslice, hcopy, orPanic_some, ok_bind]
    have hoffset : consumed + min 31 (data.length - consumed) = min data.length (consumed + 31) :=
      by
      omega
    rw [hoffset]
    rfl
  · rw [if_neg (by omega)]
    have hzeros : window (ofList data 0) consumed 31 = List.replicate 31 0 :=
      window_eq_replicate fun i _ => ofList_of_le (by omega)
    have hoffset : min data.length consumed = min data.length (consumed + 31) := by omega
    rw [hzeros, hoffset]
    rfl

/-- The first buffer is the front of the stream. -/
theorem readHeader_eq (data : List UInt8) :
    readHeader data 0 = .ok (window (stream data) 0 31, min data.length 27) := by
  have hstream : window (stream data) 0 31 = header data ++ window (ofList data 0) 0 27 := by
    have hfront : window (stream data) 0 4 = header data := rfl
    have hback : window (stream data) 4 27 = window (ofList data 0) 0 27 := by
      refine window_congr fun i _ => ?_
      rw [Nat.add_comm, stream_add, Nat.zero_add]
    rw [← hfront, ← hback]
    exact (window_append (stream data) 0 4 27).symm
  have hslice := slice_eq_window data 0 (min 27 (data.length - 0)) 0 (by omega)
  have hcopy := copy_window data (header data) 0 (min 27 (data.length - 0)) 27 (by omega) (by omega)
  have hlength : (header data).length = 4 := rfl
  rw [hlength] at hcopy
  have hoffset : 0 + min 27 (data.length - 0) = min data.length 27 := by omega
  rw [hstream]
  unfold readHeader
  dsimp only
  rw [hslice, orPanic_some, ok_bind]
  -- the four bytes that have been set are the header
  change (orPanic (copyFromSlice (header data ++ List.replicate 27 0) 4
    (4 + min 27 (data.length - 0)) _) _ >>= _) = _
  rw [hcopy, orPanic_some, ok_bind, hoffset]
  rfl

/-! ## Writing -/

/-- The output blob when the packed stream has been written up to a position. -/
def outAt (data : List UInt8) (position : Nat) : List UInt8 :=
  window (pack (stream data)) 0 position ++ List.replicate (BYTES_PER_BLOB - position) 0

/-- A byte is written at the start of a field element. -/
theorem writeOneByte_eq {out out' : List UInt8} {writeOffset : Nat} {v : UInt8}
    (hoffset : writeOffset % 32 = 0) (hv : v &&& 0b11000000 = 0)
    (hstore : store out writeOffset v = some out') :
    writeOneByte out writeOffset v = .ok (out', writeOffset + 1) := by
  unfold writeOneByte
  rw [assert_of_true (by simp [hoffset]), ok_bind]
  dsimp only
  rw [assert_of_true (by simp [hv]), ok_bind, hstore]
  rfl

/-- A chunk is written after the first byte of a field element. -/
theorem write31Bytes_eq {out out' : List UInt8} {writeOffset : Nat} {buf : List UInt8}
    (hoffset : writeOffset % 32 = 1)
    (hcopy : copyFromSlice out writeOffset (writeOffset + 31) buf = some out') :
    write31Bytes out writeOffset buf = .ok (out', writeOffset + 31) := by
  unfold write31Bytes
  rw [assert_of_true (by simp [hoffset]), ok_bind, hcopy]
  rfl

/-- A field element is written after the packed stream up to it. -/
theorem writeFieldElement_eq (data : List UInt8) {round element : Nat} (hround : round < ROUNDS)
    (helement : element < 4) :
    writeFieldElement (outAt data (128 * round + 32 * element)) (128 * round + 32 * element)
        (sextet (stream data (127 * round + 31)) (stream data (127 * round + 63))
          (stream data (127 * round + 95)) element)
        (window (stream data) (127 * round + 32 * element) 31) =
      .ok (outAt data (128 * round + 32 * element + 32), 128 * round + 32 * element + 32) := by
  unfold ROUNDS at hround
  have hfits : 128 * round + 32 * element + 32 ≤ BYTES_PER_BLOB := by
    unfold BYTES_PER_BLOB
    omega
  have hchunk : window (stream data) (127 * round + 32 * element) 31 =
      window (pack (stream data)) (128 * round + 32 * element + 1) 31 :=
    window_congr fun i hi => (pack_rest (stream data) round helement hi).symm
  -- the first byte holds a sextet, so it passes the check of its high bits
  have hsextet : pack (stream data) (128 * round + 32 * element) &&& 0b11000000 = 0 := by
    rw [pack_first (stream data) round helement]
    exact sextet_and _ _ _ element
  rw [← pack_first (stream data) round helement]
  generalize hposition : 128 * round + 32 * element = position at *
  have hfirst : store (outAt data position) position (pack (stream data) position) =
      some (window (pack (stream data)) 0 (position + 1) ++
        List.replicate (BYTES_PER_BLOB - (position + 1)) 0) := by
    have hzeros : BYTES_PER_BLOB - position = BYTES_PER_BLOB - (position + 1) + 1 := by omega
    have hstore := store_append (window (pack (stream data)) 0 position)
      (List.replicate (BYTES_PER_BLOB - (position + 1)) 0) 0 (pack (stream data) position)
    rw [length_window, ← List.replicate_succ, ← hzeros] at hstore
    rw [outAt, hstore, ← window_append _ 0 position 1, Nat.zero_add, window_one,
      List.append_assoc, List.singleton_append]
  have hrest : copyFromSlice (window (pack (stream data)) 0 (position + 1) ++
        List.replicate (BYTES_PER_BLOB - (position + 1)) 0) (position + 1) (position + 1 + 31)
        (window (pack (stream data)) (position + 1) 31) =
      some (outAt data (position + 32)) := by
    have hzeros : List.replicate (BYTES_PER_BLOB - (position + 1)) (0 : UInt8) =
        List.replicate 31 0 ++ List.replicate (BYTES_PER_BLOB - (position + 32)) 0 := by
      rw [List.replicate_append_replicate]
      congr 1
      omega
    have hcopy := copyFromSlice_append (window (pack (stream data)) 0 (position + 1))
      (List.replicate 31 (0 : UInt8)) (window (pack (stream data)) (position + 1) 31)
      (List.replicate (BYTES_PER_BLOB - (position + 32)) 0) (by simp)
    rw [length_window, List.length_replicate] at hcopy
    rw [hzeros, hcopy, outAt, ← window_append _ 0 (position + 1) 31, Nat.zero_add,
      List.append_assoc]
  unfold writeFieldElement
  rw [writeOneByte_eq (by omega) hsextet hfirst, ok_bind, hchunk]
  exact write31Bytes_eq (by omega) hrest

/-! ## Rounds -/

/-- The state of the encoder before a round. -/
def encoderAt (data : List UInt8) (round : Nat) : Encoder :=
  ⟨outAt data (128 * round), min data.length (127 * round - 4), 128 * round⟩

/-- The first chunk of a round is the front of its row. -/
theorem readFirst_eq (data : List UInt8) (round : Nat) :
    readFirst data round (encoderAt data round).readOffset =
      .ok (window (stream data) (127 * round) 31, min data.length (127 * round + 31 - 4)) := by
  unfold readFirst
  cases round with
  | zero =>
      have hoffset : (encoderAt data 0).readOffset = 0 := Nat.min_zero _
      rw [if_pos rfl, hoffset]
      exact readHeader_eq data
  | succ round =>
      rw [if_neg (by omega)]
      have hread := read31Bytes_eq data (127 * (round + 1) - 4)
      have hstart : 127 * (round + 1) - 4 + 4 = 127 * (round + 1) := by omega
      have hstop : 127 * (round + 1) - 4 + 31 = 127 * (round + 1) + 31 - 4 := by omega
      rw [hstart, hstop] at hread
      exact hread

/-- Reading in the middle of a row. -/
theorem read_row (data : List UInt8) (position : Nat) (h : 4 ≤ position) :
    read31Bytes data (min data.length (position - 4)) =
        .ok (window (stream data) position 31, min data.length (position + 31 - 4)) ∧
      readOneByte data (min data.length (position - 4)) =
        (stream data position, min data.length (position + 1 - 4)) := by
  obtain ⟨consumed, rfl⟩ : ∃ consumed, position = consumed + 4 := ⟨position - 4, by omega⟩
  have hread := read31Bytes_eq data consumed
  have hbyte := readOneByte_eq data consumed
  have h31 : consumed + 4 + 31 - 4 = consumed + 31 := by omega
  have h1 : consumed + 4 + 1 - 4 = consumed + 1 := by omega
  rw [Nat.add_sub_cancel, h31, h1]
  exact ⟨hread, hbyte⟩

/-- A round encodes the next row of the stream. -/
theorem encodeRound_eq (data : List UInt8) {round : Nat} (hround : round < ROUNDS) :
    encodeRound data round (encoderAt data round) = .ok (encoderAt data (round + 1)) := by
  have hx := (read_row data (127 * round + 31) (by omega)).2
  have hsecond := (read_row data (127 * round + 32) (by omega)).1
  have hy := (read_row data (127 * round + 32 + 31) (by omega)).2
  have hthird := (read_row data (127 * round + 64) (by omega)).1
  have hz := (read_row data (127 * round + 64 + 31) (by omega)).2
  have hfourth := (read_row data (127 * round + 96) (by omega)).1
  have hfirst := writeFieldElement_eq data hround (by omega : 0 < 4)
  have hsecond' := writeFieldElement_eq data hround (by omega : 1 < 4)
  have hthird' := writeFieldElement_eq data hround (by omega : 2 < 4)
  have hfourth' := writeFieldElement_eq data hround (by omega : 3 < 4)
  simp only [sextet, Nat.mul_zero, Nat.mul_one, Nat.reduceMul, Nat.add_zero, Nat.add_assoc,
    Nat.reduceAdd] at *
  unfold encodeRound
  rw [readFirst_eq, ok_bind]
  have hout : (encoderAt data round).out = outAt data (128 * round) := rfl
  have hoffset : (encoderAt data round).writeOffset = 128 * round := rfl
  simp only [hx, hsecond, hy, hthird, hz, hfourth, hout, hoffset, hfirst, hsecond', hthird',
    hfourth', ok_bind]
  rfl

/-- What is left of the output blob when the stream has ended are zeros. -/
theorem outAt_eq {data : List UInt8} {round : Nat} (hround : round ≤ ROUNDS)
    (h : data.length ≤ 127 * round - 4) :
    outAt data (128 * round) = window (pack (stream data)) 0 BYTES_PER_BLOB := by
  unfold ROUNDS at hround
  have hfits : 128 * round + (BYTES_PER_BLOB - 128 * round) = BYTES_PER_BLOB := by
    unfold BYTES_PER_BLOB
    omega
  have hzeros : window (pack (stream data)) (128 * round) (BYTES_PER_BLOB - 128 * round) =
      List.replicate (BYTES_PER_BLOB - 128 * round) 0 := by
    refine window_eq_replicate fun i _ => pack_eq_zero ?_ (by omega : 128 * round ≤ _)
    exact fun position hposition => stream_eq_zero h hposition
  have happend := window_append (pack (stream data)) 0 (128 * round)
    (BYTES_PER_BLOB - 128 * round)
  rw [Nat.zero_add, hfits, hzeros] at happend
  exact happend

/-- The rounds from any one on complete the output blob. -/
theorem encodeRounds_eq {data : List UInt8} (hdata : data.length ≤ MAX_BLOB_DATA_SIZE)
    (rounds : Nat) {round : Nat} (hround : round + rounds = ROUNDS) :
    ∃ s, encodeRounds data (List.range' round rounds) (encoderAt data round) = .ok s ∧
      s.out = window (pack (stream data)) 0 BYTES_PER_BLOB ∧ s.readOffset = data.length := by
  induction rounds generalizing round with
  | zero =>
      obtain rfl : round = ROUNDS := hround
      have hlength : data.length ≤ 127 * ROUNDS - 4 := hdata
      exact ⟨_, rfl, outAt_eq (Nat.le_refl _) hlength, Nat.min_eq_left hlength⟩
  | succ rounds ih =>
      rw [List.range'_succ, encodeRounds]
      by_cases h : data.length ≤ (encoderAt data round).readOffset
      · rw [if_pos h]
        have hlength : data.length ≤ 127 * round - 4 := h.trans (Nat.min_le_right _ _)
        exact ⟨_, rfl, outAt_eq (by omega) hlength, Nat.min_eq_left hlength⟩
      · rw [if_neg h, encodeRound_eq data (by omega), ok_bind]
        exact ih (by omega)

/-- The encoder packs the stream of the data. -/
theorem createBlobFromData_eq {data : List UInt8} (h : data.length ≤ MAX_BLOB_DATA_SIZE) :
    createBlobFromData data = .ok (window (pack (stream data)) 0 BYTES_PER_BLOB) := by
  obtain ⟨s, hs, hout, hoffset⟩ := encodeRounds_eq h ROUNDS (Nat.zero_add _)
  have hstart : (⟨List.replicate BYTES_PER_BLOB 0, 0, 0⟩ : Encoder) = encoderAt data 0 := by
    unfold encoderAt outAt
    simp
  unfold createBlobFromData
  dsimp only
  rw [rejectIf_of_false (by simpa using h), ok_bind, List.range_eq_range', hstart, hs, ok_bind,
    rejectIf_of_false (by simp [hoffset]), ok_bind, hout]
  rfl

end Mk1
