import Mk1.Primitives.Blob.Decoding

/-!
# Blobs hold their data

`blobs_round_trip` says that data of any length is split into blobs of the right
number and form, from which it is decoded again.
-/

namespace Mk1

open Window FieldElements

/-- The stream of an encoded blob is the packed stream of its data. -/
theorem ofList_encoded {data : List UInt8} (h : data.length ≤ MAX_BLOB_DATA_SIZE) :
    ofList (window (pack (stream data)) 0 BYTES_PER_BLOB) 0 = pack (stream data) := by
  funext position
  by_cases hposition : position < BYTES_PER_BLOB
  · rw [ofList_window hposition, Nat.zero_add]
  · have hend : 128 * ROUNDS ≤ position := Nat.le_of_not_lt hposition
    have hzero : pack (stream data) position = 0 :=
      pack_eq_zero (fun i hi => stream_eq_zero h hi) hend
    rw [ofList_of_le (by simp; omega), hzero]

/-- Every field element of a packed stream is valid. -/
theorem highBitsClear_encoded {data : List UInt8} (h : data.length ≤ MAX_BLOB_DATA_SIZE)
    (element : Nat) :
    HighBitsClear (window (pack (stream data)) 0 BYTES_PER_BLOB) (32 * element) := by
  have hsplit : 32 * element = 128 * (element / 4) + 32 * (element % 4) := by omega
  unfold HighBitsClear
  rw [ofList_encoded h, hsplit, pack_first (stream data) _ (by omega)]
  exact sextet_and _ _ _ _

/-- The length in the header is the length of the data. -/
theorem decode_length {data : List UInt8} (h : data.length ≤ MAX_BLOB_DATA_SIZE) :
    (stream data 1).toNat * 2 ^ 16 + (stream data 2).toNat * 2 ^ 8 + (stream data 3).toNat =
      data.length := by
  have hbyte : ∀ n : Nat, (UInt8.ofNat (n &&& 0xFF)).toNat = n % 256 := by
    intro n
    have hmask : n &&& 0xFF = n % 256 := Nat.and_two_pow_sub_one_eq_mod n 8
    rw [hmask, UInt8.toNat_ofNat']
    omega
  have hhigh : (stream data 1).toNat = (data.length % 2 ^ 32) >>> 16 % 256 := hbyte _
  have hmiddle : (stream data 2).toNat = (data.length % 2 ^ 32) >>> 8 % 256 := hbyte _
  have hlow : (stream data 3).toNat = data.length % 2 ^ 32 % 256 := hbyte _
  have hsize : MAX_BLOB_DATA_SIZE = 130044 := rfl
  rw [hhigh, hmiddle, hlow, Nat.shiftRight_eq_div_pow, Nat.shiftRight_eq_div_pow]
  omega

/-- When the decoder has read the whole stream, its output is the data and zeros. -/
theorem output_decoderAt {blob data : List UInt8}
    (hunpack : unpack (ofList blob 0) = stream data) {round : Nat} (hround : round ≤ ROUNDS)
    (h : data.length ≤ 127 * round - 4) :
    (decoderAt blob round).output =
      data ++ List.replicate (MAX_BLOB_DATA_SIZE - data.length) 0 := by
  unfold ROUNDS at hround
  have hsize : MAX_BLOB_DATA_SIZE = 130044 := rfl
  have hdata : window (stream data) 4 data.length = data := by
    have hcongr : window (stream data) 4 data.length = window (ofList data 0) 0 data.length := by
      refine window_congr fun i _ => ?_
      rw [Nat.add_comm, stream_add, Nat.zero_add]
    rw [hcongr, window_ofList_self]
  have hzeros : window (stream data) (4 + data.length) (127 * round - 4 - data.length) =
      List.replicate (127 * round - 4 - data.length) 0 := by
    refine window_eq_replicate fun i _ => ?_
    have hposition : 4 + data.length + i = data.length + i + 4 := by omega
    rw [hposition, stream_add, ofList_of_le (by omega)]
  have hwindow : window (stream data) 4 (127 * round - 4) =
      data ++ List.replicate (127 * round - 4 - data.length) 0 := by
    have happend := window_append (stream data) 4 data.length (127 * round - 4 - data.length)
    rw [hdata, hzeros, Nat.add_sub_cancel' h] at happend
    exact happend.symm
  have hcount : 127 * round - 4 - data.length + (MAX_BLOB_DATA_SIZE - (127 * round - 4)) =
      MAX_BLOB_DATA_SIZE - data.length := by
    omega
  unfold decoderAt
  rw [hunpack, hwindow, List.append_assoc, List.replicate_append_replicate, hcount]

/-- No byte is left after the data. -/
theorem any_drop_output {data : List UInt8} (h : data.length ≤ MAX_BLOB_DATA_SIZE) :
    (((data ++ List.replicate (MAX_BLOB_DATA_SIZE - data.length) 0).take
      MAX_BLOB_DATA_SIZE).drop data.length).any (· ≠ 0) = false := by
  rw [List.take_of_length_le (by simp; omega), List.drop_left]
  simp

/-- A blob whose field elements are valid from the second one on is the packed stream from there
on. -/
theorem ofList_eq_pack {blob data : List UInt8} (hunpack : unpack (ofList blob 0) = stream data)
    (hclear : ∀ element, HighBitsClear blob (32 * (element + 1))) {position : Nat}
    (hposition : 0 < position) : ofList blob 0 position = pack (stream data) position := by
  rw [← hunpack, pack_unpack]
  by_cases hfirst : position % 32 = 0
  · have helement : position = 32 * (position / 32 - 1 + 1) := by omega
    have hhigh := hclear (position / 32 - 1)
    rw [← helement] at hhigh
    rw [if_pos hfirst, and_eq_self hhigh]
  · rw [if_neg hfirst]

/-- No byte is left in the blob after the last round. -/
theorem any_drop_blob {blob data : List UInt8} (hunpack : unpack (ofList blob 0) = stream data)
    (hclear : ∀ element, HighBitsClear blob (32 * (element + 1))) {round : Nat}
    (hround : 1 ≤ round) (h : data.length ≤ 127 * round - 4) :
    (blob.drop (128 * round)).any (· ≠ 0) = false := by
  rw [List.any_eq_false]
  intro x hx
  obtain ⟨i, hi, rfl⟩ := List.mem_drop_iff_getElem.mp hx
  have hzero : pack (stream data) (128 * round + i) = 0 :=
    pack_eq_zero (fun _ hposition => stream_eq_zero h hposition) (Nat.le_add_right _ _)
  rw [← ofList_eq_pack hunpack hclear (by omega), ofList_of_lt (by omega)] at hzero
  simp [hzero]

/-- The decoder returns the data whose stream the blob unpacks to, if its field elements are valid
from the second one on. -/
theorem decodeBlobData_of_unpack {blob data : List UInt8} (h : data.length ≤ MAX_BLOB_DATA_SIZE)
    (hblob : blob.length = BYTES_PER_BLOB) (hunpack : unpack (ofList blob 0) = stream data)
    (hclear : ∀ element, HighBitsClear blob (32 * (element + 1))) :
    decodeBlobData blob = .ok data := by
  have hindex : ∀ i < 31, index blob (1 + i) = .ok (stream data i) := by
    intro i hi
    have hrest := unpack_rest (ofList blob 0) 0 (by omega : 0 < 4) hi
    simp only [Nat.mul_zero, Nat.zero_add] at hrest
    have hlength : 1 + i < blob.length := by
      unfold BYTES_PER_BLOB at hblob
      omega
    rw [index_eq hlength, ← hrest, hunpack]
  have hinput : ∀ round, (decoderAt blob round).inputPos = 128 * round := fun _ => rfl
  have hheader : stream data 0 = ENCODING_VERSION := rfl
  have hversion := hindex 0 (by omega)
  have hhigh := hindex 1 (by omega)
  have hmiddle := hindex 2 (by omega)
  have hlow := hindex 3 (by omega)
  have hrows : ∀ row, 1 ≤ row → RowClear blob row := fun row hrow element _ => by
    have hposition : 128 * row + 32 * element = 32 * (4 * row + element - 1 + 1) := by omega
    rw [hposition]
    exact hclear _
  obtain ⟨last, hle, hlast, hdone, -, hrounds⟩ | ⟨row, hrow, -, -, hbad, -⟩ :=
    decodeRounds_eq hblob h (ROUNDS - 1) (Nat.le_refl 1) rfl
  · have hfirst := decodeFirstRound_eq hblob
    rw [if_pos ⟨hclear 0, hclear 1, hclear 2⟩] at hfirst
    unfold decodeBlobData VERSION_OFFSET
    dsimp only
    simp only [Nat.reduceAdd] at hversion hhigh hmiddle hlow
    rw [hversion, ok_bind, rejectIf_of_false (by simp [hheader]), ok_bind, hhigh, ok_bind,
      hmiddle, ok_bind, hlow, ok_bind, decode_length h, rejectIf_of_false (by simpa using h),
      ok_bind, hfirst, ok_bind, hrounds, ok_bind, output_decoderAt hunpack hlast hdone,
      rejectIf_of_false (any_drop_output h), ok_bind, hinput,
      rejectIf_of_false (any_drop_blob hunpack hclear hle hdone), ok_bind, List.take_left]
    rfl
  · exact absurd (hrows row hrow) hbad

/-- The decoder returns the data that was encoded. -/
theorem decodeBlobData_encoded {data : List UInt8} (h : data.length ≤ MAX_BLOB_DATA_SIZE) :
    decodeBlobData (window (pack (stream data)) 0 BYTES_PER_BLOB) = .ok data := by
  refine decodeBlobData_of_unpack h (length_window _ _ _) ?_ fun element => ?_
  · rw [ofList_encoded h, unpack_pack]
  · exact highBitsClear_encoded h _

/-! ## Data of any length -/

/-- A map whose function always succeeds. -/
theorem mapM_eq_map {α β : Type} {f : α → BlobResult β} {g : α → β} {list : List α}
    (h : ∀ x ∈ list, f x = .ok (g x)) : list.mapM f = .ok (list.map g) := by
  induction list with
  | nil => rfl
  | cons x rest ih =>
      rw [List.mapM_cons, h x List.mem_cons_self, ok_bind,
        ih fun y hy => h y (List.mem_cons_of_mem x hy)]
      rfl

/-- The parts of a list have at most the size. -/
theorem length_of_mem_chunks {α : Type} {size : Nat} {list part : List α}
    (h : part ∈ chunks size list) : part.length ≤ size := by
  obtain ⟨i, -, rfl⟩ := List.mem_map.mp h
  simp

/-- The first parts of a list are the front of the list. -/
theorem flatten_chunks_take {α : Type} (size count : Nat) (list : List α) :
    ((List.range count).map fun i => (list.drop (size * i)).take size).flatten =
      list.take (size * count) := by
  induction count with
  | zero => simp
  | succ count ih =>
      rw [List.range_succ, List.map_append, List.flatten_append, ih, Nat.mul_succ, List.take_add]
      simp

/-- The parts of a list make up the list. -/
theorem flatten_chunks {α : Type} {size : Nat} (hsize : 0 < size) (list : List α) :
    (chunks size list).flatten = list := by
  unfold chunks
  rw [flatten_chunks_take]
  refine List.take_of_length_le ?_
  have hdiv := Nat.div_add_mod (list.length + size - 1) size
  have hmod := Nat.mod_lt (list.length + size - 1) hsize
  omega

/-- The blobs of data of any length are its encoded parts. -/
theorem createBlobsFromData_eq (data : List UInt8) :
    createBlobsFromData data = .ok ((chunks MAX_BLOB_DATA_SIZE data).map fun part =>
      window (pack (stream part)) 0 BYTES_PER_BLOB) :=
  mapM_eq_map fun _ hpart => createBlobFromData_eq (length_of_mem_chunks hpart)

/-- The encoded parts are decoded again. -/
theorem mapM_decodeBlobData_chunks (data : List UInt8) :
    ((chunks MAX_BLOB_DATA_SIZE data).map fun part =>
      window (pack (stream part)) 0 BYTES_PER_BLOB).mapM decodeBlobData =
        .ok (chunks MAX_BLOB_DATA_SIZE data) := by
  have hdecode : ∀ part ∈ chunks MAX_BLOB_DATA_SIZE data,
      decodeBlobData (window (pack (stream part)) 0 BYTES_PER_BLOB) = .ok (id part) :=
    fun _ hpart => decodeBlobData_encoded (length_of_mem_chunks hpart)
  rw [List.mapM_map]
  have hparts := mapM_eq_map hdecode
  rwa [List.map_id] at hparts

/-- Data of any length is split into as many blobs as are needed, each of which has the right size
and valid field elements, and the data is decoded from them again. -/
theorem blobs_round_trip (data : List UInt8) :
    ∃ blobs, createBlobsFromData data = .ok blobs ∧
      blobs.length = data.length ⌈/⌉ MAX_BLOB_DATA_SIZE ∧
      (∀ blob ∈ blobs, blob.length = 131072 ∧
        ∀ element, 32 * element < 131072 → HighBitsClear blob (32 * element)) ∧
      ∃ parts, blobs.mapM decodeBlobData = .ok parts ∧ parts.flatten = data := by
  have hfits : ∀ part ∈ chunks MAX_BLOB_DATA_SIZE data, part.length ≤ MAX_BLOB_DATA_SIZE :=
    fun part => length_of_mem_chunks
  refine ⟨_, createBlobsFromData_eq data, ?_, ?_, chunks MAX_BLOB_DATA_SIZE data,
    mapM_decodeBlobData_chunks data, flatten_chunks (by decide) data⟩
  · rw [List.length_map, Nat.ceilDiv_eq_add_pred_div]
    simp [chunks]
  · intro blob hblob
    obtain ⟨part, hpart, rfl⟩ := List.mem_map.mp hblob
    exact ⟨length_window _ _ _, fun element _ => highBitsClear_encoded (hfits part hpart) element⟩

end Mk1
