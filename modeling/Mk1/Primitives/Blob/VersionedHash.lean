import Mk1.Primitives.Blob.Canonical

/-!
# Versioned hashes of blobs

A batch lists the versioned hashes of its blobs, and the blobs of a beacon block are
decoded if their versioned hash is on the list. The hash functions are parameters. The
list is made with the one of EIP-4844, the decoder calculates the hash itself.
-/

namespace Mk1

open Window FieldElements

/-- A KZG commitment, of 48 bytes. -/
abbrev KzgCommitment := BitVec 384

/-- A blob of a beacon block, with its commitment. -/
structure BlobSidecar where
  blob : List UInt8
  kzgCommitment : KzgCommitment

/-- The version of the hashes of KZG commitments. -/
def VERSIONED_HASH_VERSION_KZG : BitVec 8 := 0x01

/-- A versioned hash: the version, followed by all bytes of a digest but the first one. -/
def versionedHash (digest : B256) : B256 :=
  (VERSIONED_HASH_VERSION_KZG ++ digest.setWidth 248 : BitVec (8 + 248))

section Hashes

variable (sha256 keccak256 : KzgCommitment → B256)

/-- `kzg_to_versioned_hash` of EIP-4844. -/
def kzgToVersionedHash (kzgCommitment : KzgCommitment) : B256 :=
  versionedHash (sha256 kzgCommitment)

/-- `calculate_blob_versioned_hash`. -/
def calculateBlobVersionedHash (kzgCommitment : KzgCommitment) : B256 :=
  versionedHash (keccak256 kzgCommitment)

/-- `BlobTransactionSidecar::versioned_hashes`, for the commitments of a sidecar. -/
def versionedHashes (commitments : List KzgCommitment) : List B256 :=
  commitments.map (kzgToVersionedHash sha256)

/-- The loop of `decode_blobs_into_bytes_async` over the blobs, with the data decoded so far. -/
def decodeBlobs (blobHashes : List B256) (decodedBlobsData : List UInt8) :
    List BlobSidecar → BlobResult (List UInt8)
  | [] => pure decodedBlobsData
  | blob :: blobs =>
      if blobHashes.contains (calculateBlobVersionedHash keccak256 blob.kzgCommitment) then do
        let decoded ← decodeBlobData blob.blob
        decodeBlobs blobHashes (decodedBlobsData ++ decoded) blobs
      else decodeBlobs blobHashes decodedBlobsData blobs

/-- Decode the blobs whose hash is on the list into one buffer. -/
def decodeBlobsIntoBytesAsync (blobs : List BlobSidecar) (blobHashes : List B256) :
    BlobResult (List UInt8) :=
  decodeBlobs keccak256 blobHashes [] blobs

/-- The blobs that the decoder selects. -/
def selected (blobHashes : List B256) (blobs : List BlobSidecar) : List BlobSidecar :=
  blobs.filter fun blob =>
    blobHashes.contains (calculateBlobVersionedHash keccak256 blob.kzgCommitment)

/-- The data of blobs that can all be decoded is put together. -/
theorem decodeBlobs_eq {blobHashes : List B256} {data : BlobSidecar → List UInt8}
    (blobs : List BlobSidecar) (decodedBlobsData : List UInt8)
    (h : ∀ blob ∈ selected keccak256 blobHashes blobs, decodeBlobData blob.blob = .ok (data blob)) :
    decodeBlobs keccak256 blobHashes decodedBlobsData blobs =
      .ok (decodedBlobsData ++ ((selected keccak256 blobHashes blobs).map data).flatten) := by
  induction blobs generalizing decodedBlobsData with
  | nil => simp [decodeBlobs, selected, pure, Except.pure]
  | cons blob blobs ih =>
      unfold decodeBlobs
      by_cases hlisted :
          blobHashes.contains (calculateBlobVersionedHash keccak256 blob.kzgCommitment) = true
      · have hselected : selected keccak256 blobHashes (blob :: blobs) =
            blob :: selected keccak256 blobHashes blobs :=
          List.filter_cons_of_pos hlisted
        rw [hselected] at h ⊢
        rw [if_pos hlisted, h blob List.mem_cons_self, ok_bind,
          ih _ fun other hother => h other (List.mem_cons_of_mem _ hother), List.append_assoc]
        rfl
      · have hselected : selected keccak256 blobHashes (blob :: blobs) =
            selected keccak256 blobHashes blobs :=
          List.filter_cons_of_neg hlisted
        rw [hselected] at h ⊢
        rw [if_neg hlisted, ih _ h]

/-- The data of the selected blobs is put together, if they can all be decoded. -/
theorem decodeBlobsIntoBytesAsync_eq {blobHashes : List B256} {blobs : List BlobSidecar}
    (h : ∀ blob ∈ selected keccak256 blobHashes blobs,
      decodeBlobData blob.blob = .ok (payload blob.blob)) :
    decodeBlobsIntoBytesAsync keccak256 blobs blobHashes =
      .ok ((selected keccak256 blobHashes blobs).map fun blob => payload blob.blob).flatten :=
  decodeBlobs_eq keccak256 blobs [] h

/-! ## The blobs of a sidecar -/

/-- The blobs of a sidecar, with their commitments. -/
def ownBlobs (blobs : List (List UInt8)) (commitments : List KzgCommitment) : List BlobSidecar :=
  (blobs.zip commitments).map fun (blob, commitment) => ⟨blob, commitment⟩

/-- A mix of the blobs of a sidecar, in order, and valid foreign ones whose versioned hash is not
one of the sidecar's. -/
structure MixedWith (valid : List UInt8 → Prop) (commitments : List KzgCommitment)
    (own mixed : List BlobSidecar) : Prop where
  own : (mixed.filter fun blob =>
    (versionedHashes sha256 commitments).contains (kzgToVersionedHash sha256 blob.kzgCommitment)) =
      own
  foreign : ∀ blob ∈ mixed,
    kzgToVersionedHash sha256 blob.kzgCommitment ∉ versionedHashes sha256 commitments →
      valid blob.blob

/-- The hashes that the decoder calculates select the commitments of a sidecar, and no others. -/
structure SelectsOwn (commitments : List KzgCommitment) : Prop where
  own : ∀ commitment ∈ commitments,
    calculateBlobVersionedHash keccak256 commitment ∈ versionedHashes sha256 commitments
  foreign : ∀ commitment,
    calculateBlobVersionedHash keccak256 commitment ∈ versionedHashes sha256 commitments →
      kzgToVersionedHash sha256 commitment ∈ versionedHashes sha256 commitments

variable {data : List UInt8} {blobs : List (List UInt8)} {commitments : List KzgCommitment}

/-- The blobs of a sidecar have its commitments. -/
theorem map_kzgCommitment_ownBlobs (hlength : commitments.length = blobs.length) :
    (ownBlobs blobs commitments).map BlobSidecar.kzgCommitment = commitments := by
  unfold ownBlobs
  rw [List.map_map]
  exact List.map_snd_zip hlength.le

/-- The blobs of a sidecar are its blobs. -/
theorem map_blob_ownBlobs (hlength : commitments.length = blobs.length) :
    (ownBlobs blobs commitments).map BlobSidecar.blob = blobs := by
  unfold ownBlobs
  rw [List.map_map]
  exact List.map_fst_zip hlength.ge

/-- An encoded part holds the part. -/
theorem decodeBlobData_payload {part : List UInt8} (h : part.length ≤ MAX_BLOB_DATA_SIZE) :
    decodeBlobData (window (pack (stream part)) 0 BYTES_PER_BLOB) = .ok part ∧
      payload (window (pack (stream part)) 0 BYTES_PER_BLOB) = part := by
  have hdecode := decodeBlobData_encoded h
  exact ⟨hdecode, ((decodeBlobData_eq_iff (length_window _ _ _) part).mp hdecode).2.symm⟩

/-- No part of a list is empty. -/
theorem ne_nil_of_mem_chunks {α : Type} {size : Nat} {list part : List α}
    (h : part ∈ chunks size list) : part ≠ [] := by
  obtain ⟨i, hi, rfl⟩ := List.mem_map.mp h
  have hcount := List.mem_range.mp hi
  rcases Nat.eq_zero_or_pos size with rfl | hsize
  · rw [Nat.div_zero] at hcount
    exact absurd hcount (Nat.not_lt_zero i)
  have hstart := (Nat.le_div_iff_mul_le hsize).mp hcount
  rw [Nat.succ_mul, Nat.mul_comm] at hstart
  rw [← List.length_pos_iff, List.length_take, List.length_drop]
  omega

/-- The blobs of a sidecar hold its data, each of them some of it. -/
theorem payload_ownBlobs (hblobs : createBlobsFromData data = .ok blobs)
    (hlength : commitments.length = blobs.length) :
    ((ownBlobs blobs commitments).map fun blob => payload blob.blob).flatten = data ∧
      ∀ blob ∈ ownBlobs blobs commitments,
        decodeBlobData blob.blob = .ok (payload blob.blob) ∧ payload blob.blob ≠ [] := by
  have heq := Except.ok.inj ((createBlobsFromData_eq data).symm.trans hblobs)
  have hpart : ∀ part ∈ chunks MAX_BLOB_DATA_SIZE data, _ ∧ _ :=
    fun part h => decodeBlobData_payload (length_of_mem_chunks h)
  constructor
  · have hparts : (ownBlobs blobs commitments).map (fun blob => payload blob.blob) =
        chunks MAX_BLOB_DATA_SIZE data :=
      calc (ownBlobs blobs commitments).map (payload ∘ BlobSidecar.blob)
          = ((ownBlobs blobs commitments).map BlobSidecar.blob).map payload := List.map_map.symm
        _ = blobs.map payload := by rw [map_blob_ownBlobs hlength]
        _ = (chunks MAX_BLOB_DATA_SIZE data).map fun part =>
              payload (window (pack (stream part)) 0 BYTES_PER_BLOB) := by
            rw [← heq, List.map_map, Function.comp_def]
        _ = (chunks MAX_BLOB_DATA_SIZE data).map fun part => part :=
            List.map_congr_left fun part h => (hpart part h).2
        _ = chunks MAX_BLOB_DATA_SIZE data := List.map_id' _
    rw [hparts, flatten_chunks (by decide)]
  · intro blob hblob
    have hmem : blob.blob ∈ (ownBlobs blobs commitments).map BlobSidecar.blob :=
      List.mem_map_of_mem hblob
    rw [map_blob_ownBlobs hlength, ← heq] at hmem
    obtain ⟨part, h, hencoded⟩ := List.mem_map.mp hmem
    obtain ⟨hdecode, hpayload⟩ := hpart part h
    rw [← hencoded, hdecode, hpayload]
    exact ⟨rfl, ne_nil_of_mem_chunks h⟩

/-- A selection of non-empty lists that loses nothing selects all of them. -/
theorem forall_of_flatten_filter {α β : Type} {p : α → Bool} {f : α → List β} {list : List α}
    (hne : ∀ x ∈ list, f x ≠ [])
    (h : ((list.filter p).map f).flatten = (list.map f).flatten) : ∀ x ∈ list, p x := by
  induction list with
  | nil => exact fun x hx => absurd hx List.not_mem_nil
  | cons head rest ih =>
      have hrest : (((rest.filter p).map f).flatten).length ≤ ((rest.map f).flatten).length :=
        (List.filter_sublist.map f).flatten.length_le
      have hhead := List.length_pos_iff.mpr (hne head List.mem_cons_self)
      by_cases hp : p head = true
      · rw [List.filter_cons_of_pos hp, List.map_cons, List.map_cons, List.flatten_cons,
          List.flatten_cons] at h
        have hall := ih (fun x hx => hne x (List.mem_cons_of_mem _ hx)) (List.append_cancel_left h)
        exact List.forall_mem_cons.mpr ⟨hp, hall⟩
      · rw [List.filter_cons_of_neg hp] at h
        have hlength := congrArg List.length h
        rw [List.map_cons, List.flatten_cons, List.length_append] at hlength
        omega

/-- The commitment of a sidecar's blob is one of its commitments. -/
theorem mem_of_mem_ownBlobs (hlength : commitments.length = blobs.length)
    {blob : BlobSidecar} (h : blob ∈ ownBlobs blobs commitments) :
    blob.kzgCommitment ∈ commitments := by
  have hmem : blob.kzgCommitment ∈
      (ownBlobs blobs commitments).map BlobSidecar.kzgCommitment := List.mem_map_of_mem h
  rwa [map_kzgCommitment_ownBlobs hlength] at hmem

/-- If the decoder selects the sidecar's own commitments and no others, it selects its blobs. -/
theorem selected_of_selectsOwn {valid : List UInt8 → Prop} {mixed : List BlobSidecar}
    (hlength : commitments.length = blobs.length)
    (h : SelectsOwn sha256 keccak256 commitments)
    (hmixed : MixedWith sha256 valid commitments (ownBlobs blobs commitments) mixed) :
    selected keccak256 (versionedHashes sha256 commitments) mixed = ownBlobs blobs commitments := by
  rw [← hmixed.own]
  unfold selected
  refine List.filter_congr fun blob hblob => ?_
  rw [Bool.eq_iff_iff, List.contains_iff_mem, List.contains_iff_mem]
  constructor
  · exact h.foreign blob.kzgCommitment
  · intro hlisted
    have hown : blob ∈ ownBlobs blobs commitments := by
      rw [← hmixed.own, List.mem_filter]
      exact ⟨hblob, List.contains_iff_mem.mpr hlisted⟩
    exact h.own _ (mem_of_mem_ownBlobs hlength hown)

/-- The own blobs of a sidecar and foreign ones behind them are a mix. -/
theorem mixedWith_append {valid : List UInt8 → Prop} {foreign : List BlobSidecar}
    (hlength : commitments.length = blobs.length)
    (hforeign : ∀ blob ∈ foreign, valid blob.blob ∧
      kzgToVersionedHash sha256 blob.kzgCommitment ∉ versionedHashes sha256 commitments) :
    MixedWith sha256 valid commitments (ownBlobs blobs commitments)
      (ownBlobs blobs commitments ++ foreign) := by
  have hlisted : ∀ blob ∈ ownBlobs blobs commitments,
      kzgToVersionedHash sha256 blob.kzgCommitment ∈ versionedHashes sha256 commitments :=
    fun blob hblob => List.mem_map_of_mem (mem_of_mem_ownBlobs hlength hblob)
  constructor
  · rw [List.filter_append, List.filter_eq_self.mpr, List.filter_eq_nil_iff.mpr, List.append_nil]
    · intro blob hblob
      rw [List.contains_iff_mem]
      exact (hforeign blob hblob).2
    · intro blob hblob
      rw [List.contains_iff_mem]
      exact hlisted blob hblob
  · intro blob hblob hunlisted
    rcases List.mem_append.mp hblob with hown | hmem
    · exact absurd (hlisted blob hown) hunlisted
    · exact (hforeign blob hmem).1

/-- If a sidecar's blobs are decoded to its data, the decoder selects all of them, because each
holds some of the data. -/
theorem contains_of_decodes (hblobs : createBlobsFromData data = .ok blobs)
    (hlength : commitments.length = blobs.length)
    (h : decodeBlobsIntoBytesAsync keccak256 (ownBlobs blobs commitments)
      (versionedHashes sha256 commitments) = .ok data) :
    ∀ blob ∈ ownBlobs blobs commitments, (versionedHashes sha256 commitments).contains
      (calculateBlobVersionedHash keccak256 blob.kzgCommitment) := by
  obtain ⟨hdata, hpayload⟩ := payload_ownBlobs hblobs hlength
  rw [decodeBlobsIntoBytesAsync_eq keccak256 fun blob hblob =>
    (hpayload blob (List.mem_of_mem_filter hblob)).1] at h
  exact forall_of_flatten_filter (fun blob hblob => (hpayload blob hblob).2)
    ((Except.ok.inj h).trans hdata.symm)

/-- A valid blob can have any commitment, and hold one byte. -/
theorem exists_blob_of_byte {valid : List UInt8 → Prop}
    (hvalid : ∀ data blob, createBlobFromData data = .ok blob → valid blob)
    (commitment : KzgCommitment) :
    ∃ blob : BlobSidecar, blob.kzgCommitment = commitment ∧ valid blob.blob ∧
      decodeBlobData blob.blob = .ok (payload blob.blob) ∧ payload blob.blob = [0] := by
  have hshort : [(0 : UInt8)].length ≤ MAX_BLOB_DATA_SIZE := by decide
  obtain ⟨hdecode, hbyte⟩ := decodeBlobData_payload hshort
  exact ⟨⟨_, commitment⟩, rfl, hvalid _ _ (createBlobFromData_eq hshort),
    hdecode.trans (congrArg _ hbyte.symm), hbyte⟩

/-- If every mix is decoded to the sidecar's data, the decoder selects the sidecar's own
commitments and no others. -/
theorem selectsOwn_of_decodes {valid : List UInt8 → Prop}
    (hvalid : ∀ data blob, createBlobFromData data = .ok blob → valid blob)
    (hblobs : createBlobsFromData data = .ok blobs) (hlength : commitments.length = blobs.length)
    (h : ∀ mixed, MixedWith sha256 valid commitments (ownBlobs blobs commitments) mixed →
      decodeBlobsIntoBytesAsync keccak256 mixed (versionedHashes sha256 commitments) =
        .ok data) :
    SelectsOwn sha256 keccak256 commitments := by
  have hunmixed : MixedWith sha256 valid commitments (ownBlobs blobs commitments)
      (ownBlobs blobs commitments ++ []) :=
    mixedWith_append sha256 hlength fun _ hblob => absurd hblob List.not_mem_nil
  rw [List.append_nil] at hunmixed
  have hall := contains_of_decodes sha256 keccak256 hblobs hlength (h _ hunmixed)
  constructor
  · intro commitment hmem
    rw [← map_kzgCommitment_ownBlobs hlength] at hmem
    obtain ⟨blob, hblob, rfl⟩ := List.mem_map.mp hmem
    exact List.contains_iff_mem.mp (hall blob hblob)
  · intro commitment hlisted
    by_contra hunlisted
    obtain ⟨hdata, hpayload⟩ := payload_ownBlobs hblobs hlength
    obtain ⟨foreign, rfl, hforeign, hdecode, hbyte⟩ := exists_blob_of_byte hvalid commitment
    have hmixed : MixedWith sha256 valid commitments (ownBlobs blobs commitments)
        (ownBlobs blobs commitments ++ [foreign]) :=
      mixedWith_append sha256 hlength (List.forall_mem_singleton.mpr ⟨hforeign, hunlisted⟩)
    have hselected : selected keccak256 (versionedHashes sha256 commitments)
        (ownBlobs blobs commitments ++ [foreign]) = ownBlobs blobs commitments ++ [foreign] := by
      refine List.filter_eq_self.mpr (List.forall_mem_append.mpr ⟨hall, ?_⟩)
      exact List.forall_mem_singleton.mpr (List.contains_iff_mem.mpr hlisted)
    have hdecodes : ∀ blob ∈ ownBlobs blobs commitments ++ [foreign],
        decodeBlobData blob.blob = .ok (payload blob.blob) :=
      List.forall_mem_append.mpr
        ⟨fun blob hblob => (hpayload blob hblob).1, List.forall_mem_singleton.mpr hdecode⟩
    -- the foreign blob is selected, and its byte makes the result too long
    have hresult := h _ hmixed
    rw [← hselected] at hdecodes
    rw [decodeBlobsIntoBytesAsync_eq keccak256 hdecodes, hselected, List.map_append,
      List.flatten_append, hdata, List.map_singleton, List.flatten_singleton, hbyte] at hresult
    have hlong := congrArg List.length (Except.ok.inj hresult)
    rw [List.length_append] at hlong
    exact absurd hlong (Nat.succ_ne_self _)

/-- Decoding the blobs of a sidecar, mixed with foreign ones, by the sidecar's own versioned
hashes returns its data if and only if the hashes that the decoder calculates, with the other hash
function, select the same commitments. -/
theorem decodes_own_hashes_iff (valid : List UInt8 → Prop)
    (hvalid : ∀ data blob, createBlobFromData data = .ok blob → valid blob)
    (hblobs : createBlobsFromData data = .ok blobs) (hlength : commitments.length = blobs.length) :
    (∀ mixed, MixedWith sha256 valid commitments (ownBlobs blobs commitments) mixed →
      decodeBlobsIntoBytesAsync keccak256 mixed (versionedHashes sha256 commitments) =
        .ok data) ↔
    SelectsOwn sha256 keccak256 commitments := by
  refine ⟨selectsOwn_of_decodes sha256 keccak256 hvalid hblobs hlength, fun h mixed hmixed => ?_⟩
  obtain ⟨hdata, hpayload⟩ := payload_ownBlobs hblobs hlength
  have hselected := selected_of_selectsOwn sha256 keccak256 hlength h hmixed
  rw [decodeBlobsIntoBytesAsync_eq keccak256, hselected, hdata]
  intro blob hblob
  rw [hselected] at hblob
  exact (hpayload blob hblob).1

end Hashes

/-- The commitment to a blob of zeros, which is the point at infinity. -/
def commitmentToZeros : KzgCommitment := 0xC0 <<< 376

/-- The SHA-256 digest of the commitment to a blob of zeros. -/
def sha256OfCommitmentToZeros : B256 :=
  0x5f0657f37554c781402a22917dee2f75def7ab966d7b770905398eba3c444014

/-- The Keccak-256 digest of the commitment to a blob of zeros. -/
def keccak256OfCommitmentToZeros : B256 :=
  0x08624652859a6e98ffc1608e2af0147ca4e86e1ce27672d8d3f3c9d4ffd6ef7e

/-- One byte of data is encoded as one blob. -/
theorem createBlobsFromData_singleton :
    createBlobsFromData [0] = .ok [window (pack (stream [0])) 0 BYTES_PER_BLOB] := by
  have hchunks : chunks MAX_BLOB_DATA_SIZE [(0 : UInt8)] = [[0]] := by
    simp [chunks, MAX_BLOB_DATA_SIZE]
  rw [createBlobsFromData_eq, hchunks, List.map_singleton]

/-- Every mix of foreign blobs with the blob of one byte of data, which has the commitment above, is
decoded to this byte by a decoder that calculates this digest. -/
def DecodesByteWith (digest : B256) : Prop :=
  ∀ mixed, MixedWith (fun _ => sha256OfCommitmentToZeros)
      (fun blob => blob.length = BYTES_PER_BLOB) [commitmentToZeros]
      (ownBlobs [window (pack (stream [0])) 0 BYTES_PER_BLOB] [commitmentToZeros]) mixed →
    decodeBlobsIntoBytesAsync (fun _ => digest) mixed
      (versionedHashes (fun _ => sha256OfCommitmentToZeros) [commitmentToZeros]) = .ok [0]

/-- A decoder with SHA-256 meets the condition and decodes the byte, and one with Keccak-256 does
neither. -/
theorem decodes_own_hashes_iff_singleton :
    (SelectsOwn (fun _ => sha256OfCommitmentToZeros) (fun _ => sha256OfCommitmentToZeros)
        [commitmentToZeros] ∧ DecodesByteWith sha256OfCommitmentToZeros) ∧
      ¬ SelectsOwn (fun _ => sha256OfCommitmentToZeros) (fun _ => keccak256OfCommitmentToZeros)
        [commitmentToZeros] ∧ ¬ DecodesByteWith keccak256OfCommitmentToZeros := by
  have hdecodes : ∀ digest, DecodesByteWith digest ↔
      SelectsOwn (fun _ => sha256OfCommitmentToZeros) (fun _ => digest) [commitmentToZeros] :=
    fun digest => decodes_own_hashes_iff _ _ (fun blob => blob.length = BYTES_PER_BLOB)
      (fun _ _ h => (length_of_createBlobFromData h).2) createBlobsFromData_singleton rfl
  have hsame : SelectsOwn (fun _ => sha256OfCommitmentToZeros)
      (fun _ => sha256OfCommitmentToZeros) [commitmentToZeros] :=
    ⟨fun _ hmem => List.mem_map_of_mem hmem, fun _ hlisted => hlisted⟩
  have hother : ¬ SelectsOwn (fun _ => sha256OfCommitmentToZeros)
      (fun _ => keccak256OfCommitmentToZeros) [commitmentToZeros] := by
    intro h
    have hlisted := h.own commitmentToZeros List.mem_cons_self
    revert hlisted
    decide
  exact ⟨⟨hsame, (hdecodes _).mpr hsame⟩, hother, fun h => hother ((hdecodes _).mp h)⟩

/-- The blob of one byte of data is skipped by the decoder when it has the commitment above. -/
theorem own_blob_is_skipped :
    createBlobsFromData [0] = .ok [window (pack (stream [0])) 0 BYTES_PER_BLOB] ∧
    decodeBlobsIntoBytesAsync (fun _ => keccak256OfCommitmentToZeros)
      (ownBlobs [window (pack (stream [0])) 0 BYTES_PER_BLOB] [commitmentToZeros])
      (versionedHashes (fun _ => sha256OfCommitmentToZeros) [commitmentToZeros]) = .ok [] := by
  refine ⟨createBlobsFromData_singleton, ?_⟩
  have hskipped : (versionedHashes (fun _ => sha256OfCommitmentToZeros)
      [commitmentToZeros]).contains (calculateBlobVersionedHash
        (fun _ => keccak256OfCommitmentToZeros) commitmentToZeros) = false := by
    decide
  unfold decodeBlobsIntoBytesAsync ownBlobs
  rw [List.zip_cons_cons, List.map_cons, decodeBlobs, hskipped, if_neg Bool.false_ne_true]
  rfl

end Mk1
