import Mk1.Primitives.Blob.RoundTrip

/-!
# The blobs that the decoder accepts

The decoder accepts the blobs of the encoder and no others, but for the two highest
bits of a blob's first byte: the first field element is the only one whose first byte
it does not check.
-/

namespace Mk1

open Window FieldElements

/-- The length in the header of a blob. -/
def headerLength (blob : List UInt8) : Nat :=
  (ofList blob 0 2).toNat * 2 ^ 16 + (ofList blob 0 3).toNat * 2 ^ 8 + (ofList blob 0 4).toNat

/-- The data that a blob holds after its header. -/
def payload (blob : List UInt8) : List UInt8 :=
  window (unpack (ofList blob 0)) 4 (headerLength blob)

/-- A blob of which everything but the first byte is as the encoder writes it. -/
structure WellFormed (blob : List UInt8) : Prop where
  /-- It starts with the version. -/
  version : ofList blob 0 VERSION_OFFSET = ENCODING_VERSION
  /-- Its data fits into a blob. -/
  length : headerLength blob ≤ MAX_BLOB_DATA_SIZE
  /-- Its field elements are valid from the second one on. -/
  elements : ∀ element, HighBitsClear blob (32 * (element + 1))
  /-- Nothing follows the data. -/
  padding : ∀ position, 4 + headerLength blob ≤ position → unpack (ofList blob 0) position = 0

@[simp] theorem length_payload (blob : List UInt8) : (payload blob).length = headerLength blob :=
  length_window _ _ _

/-- The header's bytes are those of its length. -/
theorem header_payload (blob : List UInt8) :
    header (payload blob) =
      [ENCODING_VERSION, ofList blob 0 2, ofList blob 0 3, ofList blob 0 4] := by
  have hhigh := (ofList blob 0 2).toNat_lt
  have hmiddle := (ofList blob 0 3).toNat_lt
  have hlow := (ofList blob 0 4).toNat_lt
  have hmask : ∀ n : Nat, n &&& 0xFF = n % 256 := fun n => Nat.and_two_pow_sub_one_eq_mod n 8
  have hbyte : ∀ (n : Nat) (v : UInt8), n % 256 = v.toNat → UInt8.ofNat n = v := by
    intro n v hn
    apply UInt8.toNat_inj.mp
    rw [UInt8.toNat_ofNat', hn]
  unfold header
  dsimp only
  rw [length_payload, hmask, hmask, hmask, Nat.shiftRight_eq_div_pow, Nat.shiftRight_eq_div_pow]
  unfold headerLength
  congr 1
  congr 1
  · apply hbyte
    omega
  congr 1
  · apply hbyte
    omega
  congr 1
  apply hbyte
  omega

/-- A well-formed blob unpacks to the stream of its data. -/
theorem WellFormed.unpack_eq {blob : List UInt8} (h : WellFormed blob) :
    unpack (ofList blob 0) = stream (payload blob) := by
  funext position
  by_cases hheader : position < 4
  · have hrest := unpack_rest (ofList blob 0) 0 (by omega : 0 < 4) (by omega : position < 31)
    simp only [Nat.mul_zero, Nat.zero_add] at hrest
    have hversion := h.version
    unfold VERSION_OFFSET at hversion
    rw [hrest]
    unfold stream
    rw [header_payload]
    match position with
    | 0 => exact hversion
    | 1 => rfl
    | 2 => rfl
    | 3 => rfl
  · obtain ⟨i, rfl⟩ : ∃ i, position = i + 4 := ⟨position - 4, by omega⟩
    rw [stream_add]
    by_cases hi : i < headerLength blob
    · unfold payload
      rw [ofList_window hi, Nat.add_comm]
    · rw [ofList_of_le (by simpa using hi), h.padding _ (by omega)]

/-- A computation that may be rejected returns a value if it is not. -/
theorem rejectIf_bind {α : Type} {condition : Bool} {e : BlobError} {next : Unit → BlobResult α}
    {value : α} :
    (rejectIf condition e >>= next) = .ok value ↔ condition = false ∧ next () = .ok value := by
  cases condition with
  | false => simp [rejectIf_of_false, ok_bind]
  | true =>
      rw [rejectIf_of_true rfl]
      constructor
      · intro h
        cases h
      · rintro ⟨h, -⟩
        cases h

/-- The check that nothing but zeros is left looks at every position that is left. -/
theorem any_drop_eq_false {bytes : List UInt8} {start : Nat} :
    (bytes.drop start).any (· ≠ 0) = false ↔
      ∀ position, start ≤ position → ofList bytes 0 position = 0 := by
  rw [List.any_eq_false]
  constructor
  · intro h position hposition
    rcases Nat.lt_or_ge position bytes.length with hlt | hge
    · have hmem : bytes[position] ∈ bytes.drop start := by
        rw [List.mem_drop_iff_getElem]
        exact ⟨position - start, by omega, by simp only [Nat.add_sub_cancel' hposition]⟩
      have hzero := h _ hmem
      rw [ofList_of_lt hlt]
      simpa using hzero
    · exact ofList_of_le hge
  · intro h x hx
    obtain ⟨i, hi, rfl⟩ := List.mem_drop_iff_getElem.mp hx
    have hzero := h (start + i) (Nat.le_add_right _ _)
    rw [ofList_of_lt (by omega)] at hzero
    simp [hzero]

/-- The output of the decoder is as long as the longest data. -/
theorem length_output (blob : List UInt8) {round : Nat} (h : round ≤ ROUNDS) :
    (decoderAt blob round).output.length = MAX_BLOB_DATA_SIZE := by
  unfold ROUNDS at h
  have hmax : MAX_BLOB_DATA_SIZE = 130044 := rfl
  unfold decoderAt
  simp only [List.length_append, length_window, List.length_replicate]
  omega

/-- What the decoder has read is unpacked in its output. -/
theorem ofList_output (blob : List UInt8) {round position : Nat}
    (h : position < 127 * round - 4) :
    ofList (decoderAt blob round).output 0 position = unpack (ofList blob 0) (4 + position) := by
  unfold decoderAt ofList
  dsimp only
  rw [List.getD_append _ _ _ _ (by simpa using h)]
  exact ofList_window h

/-- What the decoder has read starts with the data. -/
theorem take_output (blob : List UInt8) {round : Nat} (h : headerLength blob ≤ 127 * round - 4) :
    (decoderAt blob round).output.take (headerLength blob) = payload blob := by
  have happend := window_append (unpack (ofList blob 0)) 4 (headerLength blob)
    (127 * round - 4 - headerLength blob)
  rw [Nat.add_sub_cancel' h] at happend
  unfold decoderAt
  dsimp only
  rw [← happend, List.append_assoc]
  exact List.take_left' (length_window _ _ _)

/-- The field elements are valid if those of the first row and of the rows that were read are, and
only zeros follow. -/
theorem highBitsClear_of_rows {blob : List UInt8} {last : Nat}
    (hfirst : HighBitsClear blob 32 ∧ HighBitsClear blob 64 ∧ HighBitsClear blob 96)
    (hrows : ∀ row, 1 ≤ row → row < last → RowClear blob row)
    (htail : ∀ position, 128 * last ≤ position → ofList blob 0 position = 0) (element : Nat) :
    HighBitsClear blob (32 * (element + 1)) := by
  have helement : 32 * (element + 1) = 128 * ((element + 1) / 4) + 32 * ((element + 1) % 4) := by
    omega
  rcases Nat.lt_or_ge ((element + 1) / 4) last with hread | hunread
  · rcases Nat.eq_zero_or_pos ((element + 1) / 4) with hzero | hpos
    · have hcases : element = 0 ∨ element = 1 ∨ element = 2 := by omega
      rcases hcases with rfl | rfl | rfl
      · exact hfirst.1
      · exact hfirst.2.1
      · exact hfirst.2.2
    · rw [helement]
      exact hrows _ hpos hread _ (Nat.mod_lt _ (by omega))
  · unfold HighBitsClear
    rw [htail _ (by omega)]
    rfl

/-- The decoder returns data if the header is accepted, all rounds are, and only zeros are left
over. -/
theorem decodeBlobData_eq_ok_iff {blob data : List UInt8} (hblob : blob.length = BYTES_PER_BLOB) :
    decodeBlobData blob = .ok data ↔
      ofList blob 0 VERSION_OFFSET = ENCODING_VERSION ∧
      headerLength blob ≤ MAX_BLOB_DATA_SIZE ∧
      ∃ first, decodeFirstRound blob (List.replicate MAX_BLOB_DATA_SIZE 0) = .ok first ∧
      ∃ last, decodeRounds blob (headerLength blob) (ROUNDS - 1) first = .ok last ∧
        ((last.output.take MAX_BLOB_DATA_SIZE).drop (headerLength blob)).any (· ≠ 0) = false ∧
        (blob.drop last.inputPos).any (· ≠ 0) = false ∧
        last.output.take (headerLength blob) = data := by
  have hsize : blob.length = 131072 := hblob
  unfold decodeBlobData headerLength
  dsimp only
  rw [index_eq (by unfold VERSION_OFFSET; omega), ok_bind, rejectIf_bind, index_eq (by omega),
    ok_bind, index_eq (by omega), ok_bind, index_eq (by omega), ok_bind, rejectIf_bind]
  refine and_congr (by simp) (and_congr (by simp) ?_)
  rw [bind_eq_ok]
  refine exists_congr fun first => and_congr_right fun _ => ?_
  rw [bind_eq_ok]
  refine exists_congr fun last => and_congr_right fun _ => ?_
  rw [rejectIf_bind, rejectIf_bind]
  exact and_congr_right fun _ => and_congr_right fun _ => ⟨Except.ok.inj, congrArg Except.ok⟩

/-- The decoder accepts only well-formed blobs, and returns their data. -/
theorem wellFormed_of_decodeBlobData {blob data : List UInt8}
    (hblob : blob.length = BYTES_PER_BLOB) (h : decodeBlobData blob = .ok data) :
    WellFormed blob ∧ data = payload blob := by
  have hmax : MAX_BLOB_DATA_SIZE = 130044 := rfl
  obtain ⟨hversion, hlength, first, hfirst, last, hrounds, hpadding, htail, hdata⟩ :=
    (decodeBlobData_eq_ok_iff hblob).mp h
  rw [decodeFirstRound_eq hblob] at hfirst
  split at hfirst
  case isFalse => cases hfirst
  case isTrue hclear =>
  cases hfirst
  obtain ⟨reached, hle, hlast, hdone, hrows, hreached⟩ | ⟨row, -, -, -, -, hrejected⟩ :=
    decodeRounds_eq hblob hlength (ROUNDS - 1) (Nat.le_refl 1) rfl
  · obtain rfl : decoderAt blob reached = last := Except.ok.inj (hreached.symm.trans hrounds)
    have hinput : (decoderAt blob reached).inputPos = 128 * reached := rfl
    rw [hinput, any_drop_eq_false] at htail
    rw [List.take_of_length_le (length_output blob hlast).le, any_drop_eq_false] at hpadding
    refine ⟨⟨hversion, hlength, fun element => ?_, fun position hposition => ?_⟩, ?_⟩
    · exact highBitsClear_of_rows hclear (fun row hrow hread => (hrows row hrow hread).1) htail
        element
    · rcases Nat.lt_or_ge position (127 * reached) with hread | hunread
      · have hbyte := hpadding (position - 4) (by omega)
        rwa [ofList_output blob (by omega), Nat.add_sub_cancel' (by omega)] at hbyte
      · exact unpack_eq_zero htail hunread
    · rw [← hdata, take_output blob hdone]
  · rw [hrejected] at hrounds
    cases hrounds

/-- The decoder accepts the well-formed blobs. -/
theorem decodeBlobData_eq_iff {blob : List UInt8} (hblob : blob.length = BYTES_PER_BLOB)
    (data : List UInt8) :
    decodeBlobData blob = .ok data ↔ WellFormed blob ∧ data = payload blob := by
  constructor
  · exact wellFormed_of_decodeBlobData hblob
  · rintro ⟨h, rfl⟩
    refine decodeBlobData_of_unpack ?_ hblob h.unpack_eq h.elements
    rw [length_payload]
    exact h.length

/-- The encoder accepts only data that fits into a blob, and its blobs have the right size. -/
theorem length_of_createBlobFromData {data blob : List UInt8}
    (h : createBlobFromData data = .ok blob) :
    data.length ≤ MAX_BLOB_DATA_SIZE ∧ blob.length = BYTES_PER_BLOB := by
  have hcreate := h
  unfold createBlobFromData at h
  dsimp only at h
  rw [rejectIf_bind] at h
  have hlength : data.length ≤ MAX_BLOB_DATA_SIZE := Nat.le_of_not_lt (of_decide_eq_false h.1)
  rw [createBlobFromData_eq hlength] at hcreate
  rw [← Except.ok.inj hcreate]
  exact ⟨hlength, length_window _ _ _⟩

/-- The blobs of the encoder are the well-formed ones whose first field element is valid as
well. -/
theorem createBlobFromData_eq_iff {blob : List UInt8} (hblob : blob.length = BYTES_PER_BLOB)
    (data : List UInt8) :
    data.length ≤ MAX_BLOB_DATA_SIZE ∧ createBlobFromData data = .ok blob ↔
      WellFormed blob ∧ HighBitsClear blob 0 ∧ data = payload blob := by
  constructor
  · rintro ⟨hlength, hcreate⟩
    rw [createBlobFromData_eq hlength] at hcreate
    obtain rfl : window (pack (stream data)) 0 BYTES_PER_BLOB = blob := Except.ok.inj hcreate
    obtain ⟨hwellFormed, hdata⟩ :=
      wellFormed_of_decodeBlobData hblob (decodeBlobData_encoded hlength)
    exact ⟨hwellFormed, highBitsClear_encoded hlength 0, hdata⟩
  · rintro ⟨h, hfirst, rfl⟩
    have hlength : (payload blob).length ≤ MAX_BLOB_DATA_SIZE := by
      rw [length_payload]
      exact h.length
    refine ⟨hlength, ?_⟩
    have hpack : ofList blob 0 = pack (stream (payload blob)) := by
      funext position
      rcases Nat.eq_zero_or_pos position with rfl | hpos
      · rw [← h.unpack_eq, pack_unpack, if_pos rfl, and_eq_self hfirst]
      · exact ofList_eq_pack h.unpack_eq h.elements hpos
    rw [createBlobFromData_eq hlength, ← hpack, ← hblob, window_ofList_self]

/-- The decoder accepts exactly the encoder's image among the blobs whose first byte is below 64:
these have valid field elements, and different ones hold different data. A well-formed blob whose
first byte is not below 64 is accepted as well, but no data is encoded as it. -/
theorem accepts_encoded_iff {blob : List UInt8} (hblob : blob.length = 131072) :
    ((∀ data, decodeBlobData blob = .ok data ↔
        data.length ≤ MAX_BLOB_DATA_SIZE ∧ createBlobFromData data = .ok blob) ↔
      HighBitsClear blob 0 ∨ ¬ WellFormed blob) ∧
    (HighBitsClear blob 0 → ∀ data, decodeBlobData blob = .ok data →
      (∀ element, HighBitsClear blob (32 * element)) ∧
      ∀ other, other.length = 131072 → HighBitsClear other 0 → decodeBlobData other = .ok data →
        other = blob) := by
  refine ⟨⟨fun h => ?_, fun h data => ?_⟩, fun hfirst data hdecode => ⟨fun element => ?_, ?_⟩⟩
  · by_cases hwellFormed : WellFormed blob
    · have hdecode := (decodeBlobData_eq_iff hblob (payload blob)).mpr ⟨hwellFormed, rfl⟩
      have hcreate := (h (payload blob)).mp hdecode
      exact .inl ((createBlobFromData_eq_iff hblob _).mp hcreate).2.1
    · exact .inr hwellFormed
  · rw [decodeBlobData_eq_iff hblob, createBlobFromData_eq_iff hblob]
    constructor
    · rintro ⟨hwellFormed, hdata⟩
      exact ⟨hwellFormed, h.resolve_right (not_not_intro hwellFormed), hdata⟩
    · rintro ⟨hwellFormed, -, hdata⟩
      exact ⟨hwellFormed, hdata⟩
  · have hwellFormed := ((decodeBlobData_eq_iff hblob data).mp hdecode).1
    cases element with
    | zero => exact hfirst
    | succ element => exact hwellFormed.elements element
  · intro other hother hfirst' hdecode'
    obtain ⟨hwellFormed, hdata⟩ := (decodeBlobData_eq_iff hblob data).mp hdecode
    obtain ⟨hwellFormed', hdata'⟩ := (decodeBlobData_eq_iff hother data).mp hdecode'
    -- both are what the data is encoded as
    have hcreate := (createBlobFromData_eq_iff hblob data).mpr ⟨hwellFormed, hfirst, hdata⟩
    have hcreate' := (createBlobFromData_eq_iff hother data).mpr ⟨hwellFormed', hfirst', hdata'⟩
    exact Except.ok.inj (hcreate'.2.symm.trans hcreate.2)

/-- The blob that three bytes are encoded as is accepted, and no other one with a valid first byte
holds them. -/
theorem accepts_encoded_iff_three :
    let blob := window (pack (stream [1, 2, 3])) 0 BYTES_PER_BLOB
    createBlobFromData [1, 2, 3] = .ok blob ∧ decodeBlobData blob = .ok [1, 2, 3] ∧
      HighBitsClear blob 0 ∧
      (∀ data, decodeBlobData blob = .ok data ↔
        data.length ≤ MAX_BLOB_DATA_SIZE ∧ createBlobFromData data = .ok blob) ∧
      ∀ other, other.length = 131072 → HighBitsClear other 0 →
        decodeBlobData other = .ok [1, 2, 3] → other = blob := by
  intro blob
  have hlength : [(1 : UInt8), 2, 3].length ≤ MAX_BLOB_DATA_SIZE := by decide
  have hcreate : createBlobFromData [1, 2, 3] = .ok blob := createBlobFromData_eq hlength
  have hdecode : decodeBlobData blob = .ok [1, 2, 3] := decodeBlobData_encoded hlength
  have hclear : HighBitsClear blob 0 := highBitsClear_encoded hlength 0
  obtain ⟨haccepts, hunique⟩ := accepts_encoded_iff (length_of_createBlobFromData hcreate).2
  exact ⟨hcreate, hdecode, hclear, haccepts.mpr (.inl hclear), (hunique hclear _ hdecode).2⟩

/-- A blob whose first byte is followed by zeros. -/
theorem ofList_cons_zeros (first : UInt8) (count : Nat) {position : Nat} (h : 0 < position) :
    ofList (first :: List.replicate count 0) 0 position = 0 := by
  obtain ⟨i, rfl⟩ : ∃ i, position = i + 1 := ⟨position - 1, by omega⟩
  unfold ofList
  rw [List.getD_cons_succ, List.getD_eq_getElem?_getD, List.getElem?_replicate]
  by_cases hi : i < count
  · rw [if_pos hi]
    rfl
  · rw [if_neg hi]
    rfl

/-- The first byte does not matter, if its six lowest bits are zero. -/
theorem wellFormed_cons_zeros {first : UInt8} (count : Nat) (hfirst : first &&& 0b00111111 = 0) :
    WellFormed (first :: List.replicate count 0) ∧
      payload (first :: List.replicate count 0) = [] := by
  have hzero : ∀ {position}, 0 < position →
      ofList (first :: List.replicate count 0) 0 position = 0 := ofList_cons_zeros first count
  have hlength : headerLength (first :: List.replicate count 0) = 0 := by
    unfold headerLength
    rw [hzero (by omega), hzero (by omega), hzero (by omega)]
    rfl
  refine ⟨⟨hzero (by decide), hlength.trans_le (Nat.zero_le _), fun element => ?_,
    fun position _ => ?_⟩, ?_⟩
  · unfold HighBitsClear
    rw [hzero (by omega)]
    rfl
  · obtain ⟨row, k, hk, rfl⟩ | ⟨row, element, offset, helement, hoffset, rfl⟩ :=
      position_cases position
    · have hhead : ofList (first :: List.replicate count 0) 0 (128 * row) &&& 0b00111111 = 0 := by
        rcases Nat.eq_zero_or_pos row with rfl | hpos
        · exact hfirst
        · rw [hzero (by omega)]
          rfl
      rw [unpack_held _ row hk, hzero (by omega : 0 < 128 * row + 32),
        hzero (by omega : 0 < 128 * row + 64), hzero (by omega : 0 < 128 * row + 96)]
      match k with
      | 0 =>
          unfold byte
          rw [hhead]
          rfl
      | 1 => rfl
      | 2 => rfl
    · rw [unpack_rest _ row helement hoffset, hzero (by omega)]
  · unfold payload
    rw [hlength, window_zero]

/-- A blob of zeros but for the first byte, which is 64, decodes to no data, as does the blob of
zeros. No data is encoded as it. -/
theorem decodes_first_byte_64 :
    (0x40 :: List.replicate 131071 (0 : UInt8)).length = 131072 ∧
    decodeBlobData (0x40 :: List.replicate 131071 0) = .ok [] ∧
    decodeBlobData (0 :: List.replicate 131071 0) = .ok [] ∧
    createBlobFromData [] ≠ .ok (0x40 :: List.replicate 131071 0) := by
  have hlength : ∀ first : UInt8, (first :: List.replicate 131071 0).length = BYTES_PER_BLOB := by
    intro first
    rw [List.length_cons, List.length_replicate, BYTES_PER_BLOB]
  have hdecode : ∀ first : UInt8, first &&& 0b00111111 = 0 →
      decodeBlobData (first :: List.replicate 131071 0) = .ok [] := by
    intro first hfirst
    obtain ⟨hwellFormed, hpayload⟩ := wellFormed_cons_zeros 131071 hfirst
    exact (decodeBlobData_eq_iff (hlength first) []).mpr ⟨hwellFormed, hpayload.symm⟩
  refine ⟨hlength 0x40, hdecode 0x40 rfl, hdecode 0 rfl, fun hcreate => ?_⟩
  have himage := (createBlobFromData_eq_iff (hlength 0x40) []).mp ⟨Nat.zero_le _, hcreate⟩
  have hbyte : (0x40 : UInt8) &&& 0b11000000 = 0 := himage.2.1
  exact absurd hbyte (by decide)

end Mk1
