import Mk1.Primitives.Blob.Encoding

/-!
# What the decoder reads

A round of the decoder unpacks a row of the blob, unless the first byte of one
of its field elements is not below 64. This is proved for blobs of any content.
-/

namespace Mk1

open Window FieldElements

/-- The two highest bits of the byte at a position of the blob are zero. -/
def HighBitsClear (blob : List UInt8) (position : Nat) : Prop :=
  ofList blob 0 position &&& 0b11000000 = 0

instance (blob : List UInt8) (position : Nat) : Decidable (HighBitsClear blob position) :=
  inferInstanceAs (Decidable (_ = _))

variable {blob : List UInt8}

theorem index_eq {position : Nat} (h : position < blob.length) :
    index blob position = .ok (ofList blob 0 position) := by
  rw [index, List.getElem?_eq_getElem h, orPanic_some, ofList_of_lt h]

/-- A field element is copied to the end of what has been written. -/
theorem decodeFieldElement_eq (blob front old back : List UInt8) (inputPos : Nat)
    (hblob : inputPos + 32 ≤ blob.length) (hold : old.length = 31) :
    decodeFieldElement blob ⟨front.length, inputPos, front ++ (old ++ back)⟩ =
      if HighBitsClear blob inputPos then
        .ok (ofList blob 0 inputPos, ⟨front.length + 32, inputPos + 32,
          front ++ (window (ofList blob 0) (inputPos + 1) 31 ++ back)⟩)
      else .error (.error .invalidFieldElement) := by
  unfold decodeFieldElement
  dsimp only
  rw [index_eq (by omega), ok_bind]
  by_cases h : HighBitsClear blob inputPos
  · have hclear : ofList blob 0 inputPos &&& 0b11000000 = 0 := h
    have hslice : slice blob (inputPos + 1) (inputPos + 32) = _ :=
      slice_eq_window _ _ _ 0 (by omega : inputPos + 1 + 31 ≤ blob.length)
    have hcopy := copyFromSlice_append front old (window (ofList blob 0) (inputPos + 1) 31) back
      (by simp [hold])
    rw [hold] at hcopy
    rw [if_pos h, rejectIf_of_false (by simp [hclear])]
    simp only [hslice, hcopy, orPanic_some, ok_bind]
    rfl
  · have hset : ¬ ofList blob 0 inputPos &&& 0b11000000 = 0 := h
    rw [if_neg h, rejectIf_of_true (by simp [hset])]
    rfl

/-- A store into the middle of the output. -/
theorem storeBefore_eq (front back : List UInt8) (old value : UInt8) (outputPos distance : Nat)
    (h : outputPos = front.length + distance) :
    storeBefore (front ++ old :: back) outputPos distance value =
      .ok (front ++ value :: back) := by
  unfold storeBefore subUsize
  rw [if_pos (by omega), orPanic_some, ok_bind, h, Nat.add_sub_cancel, store_append, orPanic_some]

/-- The held bytes are stored in the places that were left for them. -/
theorem reassembleBytes_eq (front second' third' back : List UInt8) (old old' old'' : UInt8)
    (first second third fourth : UInt8) (inputPos : Nat) (hsecond : second'.length = 31)
    (hthird : third'.length = 31) :
    reassembleBytes first second third fourth ⟨front.length + 97, inputPos,
        front ++ old :: (second' ++ old' :: (third' ++ old'' :: back))⟩ =
      .ok ⟨front.length + 96, inputPos,
        front ++ byte first second third fourth 0 :: (second' ++ byte first second third fourth 1 ::
          (third' ++ byte first second third fourth 2 :: back))⟩ := by
  have hz := storeBefore_eq (front ++ old :: (second' ++ old' :: third')) back old''
    (byte first second third fourth 2) (front.length + 96) 32 (by simp; omega)
  have hy := storeBefore_eq (front ++ old :: second')
    (third' ++ byte first second third fourth 2 :: back) old' (byte first second third fourth 1)
    (front.length + 96) (32 * 2) (by simp; omega)
  have hx := storeBefore_eq front
    (second' ++ byte first second third fourth 1 ::
    (third' ++ byte first second third fourth 2 :: back)) old (byte first second third fourth 0)
    (front.length + 96) (32 * 3) rfl
  simp only [List.append_assoc, List.cons_append] at hz hy
  have hposition : subUsize (front.length + 97) 1 = .ok (front.length + 96) := by
    rw [subUsize, if_pos (by omega), orPanic_some]
    rfl
  unfold reassembleBytes
  dsimp only
  rw [hposition, ok_bind]
  simp only [byte] at hx hy hz ⊢
  rw [hz, ok_bind, hy, ok_bind, hx, ok_bind]
  rfl

/-! ## Rounds -/

/-- The rest of a row in the output: three held bytes, each followed by a chunk. -/
def rest (held : Nat → UInt8) (second third fourth : List UInt8) : List UInt8 :=
  held 0 :: (second ++ held 1 :: (third ++ held 2 :: fourth))

/-- The last three field elements of a row are unpacked into the rest of the row. -/
theorem decodeRest_eq (blob front back : List UInt8) (inputPos : Nat) (first : UInt8)
    (hblob : inputPos + 96 ≤ blob.length) :
    decodeRest blob first ⟨front.length + 1, inputPos, front ++ (List.replicate 96 0 ++ back)⟩ =
      if HighBitsClear blob inputPos ∧ HighBitsClear blob (inputPos + 32) ∧
          HighBitsClear blob (inputPos + 64) then
        .ok ⟨front.length + 96, inputPos + 96, front ++
          (rest (byte first (ofList blob 0 inputPos) (ofList blob 0 (inputPos + 32))
              (ofList blob 0 (inputPos + 64)))
            (window (ofList blob 0) (inputPos + 1) 31) (window (ofList blob 0) (inputPos + 33) 31)
            (window (ofList blob 0) (inputPos + 65) 31) ++ back)⟩
      else .error (.error .invalidFieldElement) := by
  have hzeros : List.replicate 96 (0 : UInt8) ++ back = 0 :: (List.replicate 31 0 ++
      (0 :: (List.replicate 31 0 ++ (0 :: (List.replicate 31 0 ++ back))))) := rfl
  -- each field element fills its 31 bytes of the output and leaves the byte before them zero, until
  -- the held bytes go there at the end
  have hsecond := decodeFieldElement_eq blob (front ++ [0]) (List.replicate 31 0)
    (0 :: (List.replicate 31 0 ++ (0 :: (List.replicate 31 0 ++ back)))) inputPos (by omega)
    (by simp)
  have hthird := decodeFieldElement_eq blob
    (front ++ 0 :: (window (ofList blob 0) (inputPos + 1) 31 ++ [0])) (List.replicate 31 0)
    (0 :: (List.replicate 31 0 ++ back)) (inputPos + 32) (by omega) (by simp)
  have hfourth := decodeFieldElement_eq blob
    (front ++ 0 ::
    (window (ofList blob 0) (inputPos + 1) 31 ++ 0 ::
    (window (ofList blob 0) (inputPos + 33) 31 ++ [0]))) (List.replicate 31 0) back (inputPos + 64)
    (by omega) (by simp)
  have hreassemble := fun second third fourth => reassembleBytes_eq front
    (window (ofList blob 0) (inputPos + 1) 31) (window (ofList blob 0) (inputPos + 33) 31)
    (window (ofList blob 0) (inputPos + 65) 31 ++ back) 0 0 0 first second third fourth
    (inputPos + 96) (length_window _ _ _)
    (length_window _ _ _)
  simp only [List.append_assoc, List.cons_append, List.nil_append, List.length_append,
    List.length_cons, length_window, List.length_nil, Nat.add_assoc, Nat.reduceAdd]
    at hsecond hthird hfourth
  unfold decodeRest
  rw [hzeros, hsecond]
  by_cases h : HighBitsClear blob inputPos
  · rw [if_pos h, ok_bind]
    dsimp only
    rw [hthird]
    by_cases h' : HighBitsClear blob (inputPos + 32)
    · rw [if_pos h', ok_bind]
      dsimp only
      rw [hfourth]
      by_cases h'' : HighBitsClear blob (inputPos + 64)
      · rw [if_pos h'', ok_bind, if_pos ⟨h, h', h''⟩]
        dsimp only
        rw [hreassemble]
        simp [rest]
      · rw [if_neg h'', if_neg (by simp [h''])]
        rfl
    · rw [if_neg h', if_neg (by simp [h'])]
      rfl
  · rw [if_neg h, if_neg (by simp [h])]
    rfl

/-- The rest of a row is a window of the unpacked blob. -/
theorem rest_eq_window (blob : Nat → UInt8) (row : Nat) :
    rest (byte (blob (128 * row)) (blob (128 * row + 32)) (blob (128 * row + 64))
        (blob (128 * row + 96))) (window blob (128 * row + 33) 31)
        (window blob (128 * row + 65) 31) (window blob (128 * row + 97) 31) =
      window (unpack blob) (127 * row + 31) 96 := by
  have hheld : ∀ k < 3, byte (blob (128 * row)) (blob (128 * row + 32)) (blob (128 * row + 64))
      (blob (128 * row + 96)) k = unpack blob (127 * row + 32 * k + 31) :=
    fun k hk => (unpack_held blob row hk).symm
  have hchunk : ∀ element < 4, window blob (128 * row + 32 * element + 1) 31 =
      window (unpack blob) (127 * row + 32 * element) 31 :=
    fun element h => window_congr fun i hi => (unpack_rest blob row h hi).symm
  have hjoin : ∀ start size, unpack blob start :: (window (unpack blob) (start + 1) 31 ++
      window (unpack blob) (start + 32) size) = window (unpack blob) start (size + 32) := by
    intro start size
    have happend := window_append (unpack blob) (start + 1) 31 size
    rw [Nat.add_assoc] at happend
    rw [happend, Nat.add_comm 31 size, ← window_succ]
  have hsecond := hchunk 1 (by omega)
  have hthird := hchunk 2 (by omega)
  have hfourth := hchunk 3 (by omega)
  unfold rest
  rw [hheld 0 (by omega), hheld 1 (by omega), hheld 2 (by omega)]
  simp only [Nat.mul_one, Nat.reduceMul, Nat.mul_zero, Nat.add_zero, Nat.add_assoc, Nat.reduceAdd]
    at hsecond hthird hfourth ⊢
  have hlast := hjoin (127 * row + 95) 0
  have hmiddle := hjoin (127 * row + 63) 32
  have hfirst := hjoin (127 * row + 31) 64
  simp only [Nat.add_assoc, Nat.reduceAdd, window_zero, List.append_nil] at hfirst hmiddle hlast
  rw [hsecond, hthird, hfourth, hlast, hmiddle, hfirst]

/-- The state of the decoder before a round other than the first. -/
def decoderAt (blob : List UInt8) (round : Nat) : Decoder :=
  ⟨127 * round - 4, 128 * round, window (unpack (ofList blob 0)) 4 (127 * round - 4) ++
    List.replicate (MAX_BLOB_DATA_SIZE - (127 * round - 4)) 0⟩

/-- The first round unpacks the first row, if the last three of its field elements are valid. -/
theorem decodeFirstRound_eq (hblob : blob.length = BYTES_PER_BLOB) :
    decodeFirstRound blob (List.replicate MAX_BLOB_DATA_SIZE 0) =
      if HighBitsClear blob 32 ∧ HighBitsClear blob 64 ∧ HighBitsClear blob 96 then
        .ok (decoderAt blob 1)
      else .error (.error .invalidFieldElement) := by
  unfold BYTES_PER_BLOB at hblob
  have hslice : slice blob 5 32 = _ := slice_eq_window _ _ _ 0 (by omega : 5 + 27 ≤ blob.length)
  have hzeros : List.replicate MAX_BLOB_DATA_SIZE (0 : UInt8) = List.replicate 27 0 ++
      (List.replicate 96 0 ++ List.replicate (MAX_BLOB_DATA_SIZE - 123) 0) := by
    have hsize : MAX_BLOB_DATA_SIZE = 130044 := rfl
    have hsum : 27 + (96 + (MAX_BLOB_DATA_SIZE - 123)) = MAX_BLOB_DATA_SIZE := by omega
    rw [List.replicate_append_replicate, List.replicate_append_replicate, hsum]
  have hcopy := copyFromSlice_front (List.replicate 27 (0 : UInt8)) (window (ofList blob 0) 5 27)
    (List.replicate 96 0 ++ List.replicate (MAX_BLOB_DATA_SIZE - 123) 0)
    (List.length_replicate) (length_window _ _ _)
  have hrest := decodeRest_eq _ (window (ofList blob 0) 5 27)
    (List.replicate (MAX_BLOB_DATA_SIZE - 123) 0) 32 (ofList blob 0 0)
    (by omega : 32 + 96 ≤ blob.length)
  have hrow := rest_eq_window (ofList blob 0) 0
  have hfront : window (ofList blob 0) 5 27 = window (unpack (ofList blob 0)) 4 27 := by
    refine window_congr fun i hi => ?_
    have hunpack := unpack_rest (ofList blob 0) 0 (by omega : 0 < 4) (by omega : 4 + i < 31)
    simp only [Nat.mul_zero, Nat.zero_add] at hunpack
    have hposition : 5 + i = 1 + (4 + i) := by omega
    rw [hunpack, hposition]
  simp only [Nat.mul_zero, Nat.zero_add, Nat.reduceAdd, length_window] at hrow hrest
  unfold decodeFirstRound
  rw [hslice, orPanic_some, ok_bind, hzeros]
  have hjoin : window (unpack (ofList blob 0)) 4 27 ++ window (unpack (ofList blob 0)) 31 96 =
      window (unpack (ofList blob 0)) 4 123 :=
    window_append (unpack (ofList blob 0)) 4 27 96
  have hstate : decoderAt blob 1 = ⟨123, 128, window (unpack (ofList blob 0)) 4 123 ++
      List.replicate (MAX_BLOB_DATA_SIZE - 123) 0⟩ := by
    unfold decoderAt
    simp only [Nat.mul_one, Nat.reduceSub]
  rw [hcopy, orPanic_some, ok_bind, index_eq (by omega), ok_bind, hrest, hrow, hfront,
    ← List.append_assoc, hjoin, hstate]

/-- All field elements of a row are valid. -/
def RowClear (blob : List UInt8) (row : Nat) : Prop :=
  ∀ element < 4, HighBitsClear blob (128 * row + 32 * element)

/-- The four field elements of a row. -/
theorem rowClear_iff (blob : List UInt8) (row : Nat) :
    RowClear blob row ↔ HighBitsClear blob (128 * row) ∧ HighBitsClear blob (128 * row + 32) ∧
      HighBitsClear blob (128 * row + 64) ∧ HighBitsClear blob (128 * row + 96) := by
  constructor
  · exact fun h => ⟨h 0 (by omega), h 1 (by omega), h 2 (by omega), h 3 (by omega)⟩
  · rintro ⟨hfirst, hsecond, hthird, hfourth⟩ element helement
    match element with
    | 0 => exact hfirst
    | 1 => exact hsecond
    | 2 => exact hthird
    | 3 => exact hfourth

instance (blob : List UInt8) (row : Nat) : Decidable (RowClear blob row) :=
  decidable_of_iff' _ (rowClear_iff blob row)

/-- A later round unpacks its row, if the row is valid. -/
theorem decodeRound_eq (hblob : blob.length = BYTES_PER_BLOB) {round : Nat} (hround : 1 ≤ round)
    (hrounds : round < ROUNDS) :
    decodeRound blob (decoderAt blob round) =
      if RowClear blob round then .ok (decoderAt blob (round + 1))
      else .error (.error .invalidFieldElement) := by
  unfold BYTES_PER_BLOB at hblob
  unfold ROUNDS at hrounds
  have hsize : MAX_BLOB_DATA_SIZE = 130044 := rfl
  have hzeros : List.replicate (MAX_BLOB_DATA_SIZE - (127 * round - 4)) (0 : UInt8) =
      List.replicate 31 0 ++ (List.replicate 96 0 ++
        List.replicate (MAX_BLOB_DATA_SIZE - (127 * (round + 1) - 4)) 0) := by
    have hsum : 31 + (96 + (MAX_BLOB_DATA_SIZE - (127 * (round + 1) - 4))) =
        MAX_BLOB_DATA_SIZE - (127 * round - 4) := by
      omega
    rw [List.replicate_append_replicate, List.replicate_append_replicate, hsum]
  have hfirst := decodeFieldElement_eq blob (window (unpack (ofList blob 0)) 4 (127 * round - 4))
    (List.replicate 31 0)
    (List.replicate 96 0 ++ List.replicate (MAX_BLOB_DATA_SIZE - (127 * (round + 1) - 4)) 0)
    (128 * round) (by omega) (by simp)
  have hrest := decodeRest_eq blob
    (window (unpack (ofList blob 0)) 4 (127 * round - 4) ++ window (ofList blob 0) (128 * round + 1)
    31) (List.replicate (MAX_BLOB_DATA_SIZE - (127 * (round + 1) - 4)) 0) (128 * round + 32)
    (ofList blob 0 (128 * round)) (by omega)
  have hrow := rest_eq_window (ofList blob 0) round
  have hchunk : window (ofList blob 0) (128 * round + 1) 31 =
      window (unpack (ofList blob 0)) (127 * round) 31 :=
    window_congr fun i hi => (unpack_rest (ofList blob 0) round (by omega : 0 < 4) hi).symm
  -- the output of this round continues that of the rounds before
  have hjoin : window (unpack (ofList blob 0)) 4 (127 * round - 4) ++
      (window (unpack (ofList blob 0)) (127 * round) 31 ++
        window (unpack (ofList blob 0)) (127 * round + 31) 96) =
      window (unpack (ofList blob 0)) 4 (127 * (round + 1) - 4) := by
    have hstart : 4 + (127 * round - 4) = 127 * round := by omega
    have happend := window_append (unpack (ofList blob 0)) 4 (127 * round - 4) (31 + 96)
    rw [hstart, ← window_append] at happend
    have hstop : 127 * round - 4 + (31 + 96) = 127 * (round + 1) - 4 := by omega
    rw [happend, hstop]
  simp only [List.length_append, length_window, List.append_assoc, Nat.add_assoc, Nat.reduceAdd]
    at hfirst hrest
  unfold decodeRound decoderAt
  rw [hzeros, hfirst]
  simp only [rowClear_iff]
  by_cases h : HighBitsClear blob (128 * round)
  · rw [if_pos h, ok_bind]
    dsimp only
    rw [hrest, hrow, hchunk]
    have houtput : 127 * round - 4 + 127 = 127 * (round + 1) - 4 := by omega
    have hinput : 128 * round + 128 = 128 * (round + 1) := by omega
    simp only [h, true_and, houtput, hinput, ← hjoin, List.append_assoc]
  · rw [if_neg h, if_neg (by simp [h])]
    rfl

/-- The later rounds stop at the first one that completes the output, unless a row is invalid. -/
theorem decodeRounds_eq (hblob : blob.length = BYTES_PER_BLOB) {outputLen : Nat}
    (hlength : outputLen ≤ MAX_BLOB_DATA_SIZE) (rounds : Nat) {round : Nat} (hround : 1 ≤ round)
    (hrounds : round + rounds = ROUNDS) :
    (∃ last, round ≤ last ∧ last ≤ ROUNDS ∧ outputLen ≤ 127 * last - 4 ∧
        (∀ row, round ≤ row → row < last → RowClear blob row ∧ 127 * row - 4 < outputLen) ∧
        decodeRounds blob outputLen rounds (decoderAt blob round) = .ok (decoderAt blob last)) ∨
      ∃ row, round ≤ row ∧ row < ROUNDS ∧ 127 * row - 4 < outputLen ∧ ¬ RowClear blob row ∧
        decodeRounds blob outputLen rounds (decoderAt blob round) =
          .error (.error .invalidFieldElement) := by
  induction rounds generalizing round with
  | zero =>
      obtain rfl : round = ROUNDS := hrounds
      exact .inl ⟨ROUNDS, Nat.le_refl _, Nat.le_refl _, hlength, fun _ _ _ => by omega, rfl⟩
  | succ rounds ih =>
      unfold decodeRounds
      by_cases h : outputLen ≤ (decoderAt blob round).outputPos
      · rw [if_pos h]
        exact .inl ⟨round, Nat.le_refl _, by omega, h, fun _ _ _ => by omega, rfl⟩
      rw [if_neg h, decodeRound_eq hblob hround (by omega)]
      have hopen : 127 * round - 4 < outputLen := Nat.lt_of_not_le h
      by_cases hrow : RowClear blob round
      · rw [if_pos hrow, ok_bind]
        rcases ih (by omega : 1 ≤ round + 1) (by omega) with
          ⟨last, hle, hlast, hdone, hrows, heq⟩ | ⟨row, hle, hlt, hrowOpen, hbad, heq⟩
        · refine .inl ⟨last, by omega, hlast, hdone, fun row hrow' hlt => ?_, heq⟩
          rcases Nat.lt_or_ge round row with hafter | hbefore
          · exact hrows row hafter hlt
          · obtain rfl : row = round := by omega
            exact ⟨hrow, hopen⟩
        · exact .inr ⟨row, by omega, hlt, hrowOpen, hbad, heq⟩
      · rw [if_neg hrow]
        exact .inr ⟨round, Nat.le_refl _, by omega, hopen, hrow, rfl⟩

end Mk1
