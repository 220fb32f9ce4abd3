import Mk1.Driver.Processor.Proposal
import Mk1.Library.Deltas
import Mk1.Primitives.Blob.VersionedHash

/-!
# The parameters of a batch

`generate_batch` of `batch_submitter/poster.rs`: the batch parameters and the sidecar
that a batch is proposed with. The encoder goes forward through the blocks, and the
protocol decodes them backwards from the last timestamp: `generatedBatch_decodes` says
that it gets the same blocks. RLP, zlib, KZG and SHA-256 are parameters.
-/

namespace Mk1

open Deltas

/-- The parameters of a block. -/
structure BlockParams where
  numTransactions : Nat
  timeShift : Nat
  signalSlots : List B256
  deriving DecidableEq, Repr

/-- Where the transactions of a batch are. -/
structure BlobParams where
  blobHashes : List B256
  firstBlobIndex : Nat
  numBlobs : Nat
  byteOffset : Nat
  byteSize : Nat
  createdIn : Nat
  deriving DecidableEq, Repr

/-- The parameters of a batch. -/
structure BatchParams where
  proposer : Address
  coinbase : Address
  parentMetaHash : B256
  anchorBlockId : Nat
  lastBlockTimestamp : Nat
  revertIfNotFirstProposal : Bool
  blobParams : BlobParams
  blocks : List BlockParams
  deriving DecidableEq, Repr

/-- The blobs of a transaction, with their commitments. -/
structure BlobTransactionSidecar where
  blobs : List (List UInt8)
  commitments : List KzgCommitment

/-- What the poster uses of other libraries: the encoding and compression of transactions, the
commitment to a blob, and the hash of a commitment. -/
structure Codecs where
  rlpEncodeAndCompress : List TxEnvelope → Option (List UInt8)
  blobToKzgCommitment : List UInt8 → Option KzgCommitment
  sha256 : KzgCommitment → B256

/-- `Batch::first_and_last_block_timestamps`. -/
def Batch.firstAndLastBlockTimestamps (batch : Batch) : Option (Nat × Nat) :=
  match batch.firstTimestamp, batch.lastTimestamp with
  | some first, some last => some (first, last)
  | _, _ => none

/-- `u8::try_from`, with the largest value if it fails. -/
def toU8OrMax (value : Nat) : Nat := if value ≤ 255 then value else 255

/-- The loop of `generate_batch` over the blocks, with the timestamp of the previous block, the
transactions and the parameters so far. -/
def encodeBlocks (previousBlockTimestamp : Nat) (batchTxs : List TxEnvelope)
    (blocksParams : List BlockParams) :
    List PreconfirmedBlock → Except Panic (List TxEnvelope × List BlockParams)
  | [] => pure (batchTxs, blocksParams)
  | preconfirmedBlock :: rest => do
      let timeDifference ← expect
        (if previousBlockTimestamp ≤ preconfirmedBlock.timestamp then
          some (preconfirmedBlock.timestamp - previousBlockTimestamp)
        else none) "attempt to subtract with overflow"
      let blockParams : BlockParams :=
        { numTransactions := preconfirmedBlock.txList.length % 2 ^ 16
          timeShift := toU8OrMax timeDifference
          signalSlots := [] }
      encodeBlocks preconfirmedBlock.timestamp (batchTxs ++ preconfirmedBlock.txList)
        (blocksParams ++ [blockParams]) rest

section

variable (codecs : Codecs)

/-- `BlobTransactionSidecar::try_from_blobs_bytes`, for blobs that were encoded. -/
def BlobTransactionSidecar.tryFromBlobsBytes :
    BlobResult (List (List UInt8)) → Except SidecarError BlobTransactionSidecar
  | .error _ => .error .blobSidecar
  | .ok blobs =>
      match blobs.mapM codecs.blobToKzgCommitment with
      | none => .error .blobSidecar
      | some commitments => .ok ⟨blobs, commitments⟩

/-- `create_blob_sidecar_from_data_async`. -/
def createBlobSidecarFromData (data : List UInt8) : Except SidecarError BlobTransactionSidecar :=
  BlobTransactionSidecar.tryFromBlobsBytes codecs (createBlobsFromData data)

/-- The compressed transactions and their sidecar. -/
def createSidecar (batchTxs : List TxEnvelope) :
    Except SidecarError (List UInt8 × BlobTransactionSidecar) :=
  match codecs.rlpEncodeAndCompress batchTxs with
  | none => .error .zlib
  | some compressedBatch =>
      (createBlobSidecarFromData codecs compressedBatch).map fun sidecar =>
        (compressedBatch, sidecar)

/-- The parameters that `generate_batch` puts together. -/
def BatchPoster.batchParams (cfg : RuntimeConfig) (batch : Batch) (lastBlockTimestamp : Nat)
    (compressedBatch : List UInt8) (sidecar : BlobTransactionSidecar)
    (blocksParams : List BlockParams) : BatchParams :=
  { lastBlockTimestamp := lastBlockTimestamp
    proposer := cfg.operator
    coinbase := batch.coinbase
    parentMetaHash := 0
    anchorBlockId := batch.anchorId
    revertIfNotFirstProposal := false
    blobParams :=
      { byteSize := compressedBatch.length % 2 ^ 32
        blobHashes := versionedHashes codecs.sha256 sidecar.commitments
        numBlobs := 0
        firstBlobIndex := 0
        createdIn := 0
        byteOffset := 0 }
    blocks := blocksParams }

/-- `generate_batch`. -/
def BatchPoster.generateBatch (cfg : RuntimeConfig) (batch : Batch) (estimation : FeeEstimation) :
    Except Panic
      (Except BatchProposalError (BatchParams × BlobTransactionSidecar × BlobTxFeesHints)) := do
  let (firstBlockTimestamp, lastBlockTimestamp) ←
    expect batch.firstAndLastBlockTimestamps "non-empty batch"
  let (batchTxs, blocksParams) ← encodeBlocks firstBlockTimestamp [] [] batch.blocks
  match createSidecar codecs batchTxs with
  | .error e => pure (.error e.into)
  | .ok (compressedBatch, sidecar) =>
      let batchParams := BatchPoster.batchParams codecs cfg batch lastBlockTimestamp
        compressedBatch sidecar blocksParams
      match ← createBlobFeesHints cfg estimation with
      | .error e => pure (.error (.rpcError e))
      | .ok feesHints => pure (.ok (batchParams, sidecar, feesHints))

end

/-! ## Decoding -/

namespace BatchParams

/-- The timestamps of the blocks: the last one minus all later time shifts. -/
def blockTimestamps (params : BatchParams) : List Nat :=
  undeltas params.lastBlockTimestamp (params.blocks.map BlockParams.timeShift)

/-- The transaction lists of the blocks, as slices of the transactions of the batch, and the
transactions that are left over. -/
def blockTxLists (params : BatchParams) (txs : List TxEnvelope) :
    List (List TxEnvelope) × List TxEnvelope :=
  slices (params.blocks.map BlockParams.numTransactions) txs

/-- The timestamp of the first block: the last one minus all time shifts. -/
def firstBlockTs (params : BatchParams) : Nat :=
  params.lastBlockTimestamp - (params.blocks.map BlockParams.timeShift).sum

end BatchParams

/-- The transactions that are encoded and compressed in the data of a sidecar's blobs. -/
def BlobTransactionSidecar.HoldTxs (codecs : Codecs) (sidecar : BlobTransactionSidecar)
    (txs : List TxEnvelope) : Prop :=
  ∃ parts, sidecar.blobs.mapM decodeBlobData = .ok parts ∧
    codecs.rlpEncodeAndCompress txs = some parts.flatten

/-- The part of some data that the parameters refer to. -/
def BlobParams.dataOf (params : BlobParams) (data : List UInt8) : List UInt8 :=
  (data.drop params.byteOffset).take params.byteSize

/-! ## The decoder gets the blocks -/

/-- Blocks with time shifts of at most 255 seconds and at most 65535 transactions each are encoded
without a loss. -/
theorem encodeBlocks_eq {previous : Nat} {blocks : List PreconfirmedBlock}
    (htimes : (previous :: blocks.map PreconfirmedBlock.timestamp).IsChain fun first second =>
      first ≤ second ∧ second - first ≤ 255)
    (htxs : ∀ block ∈ blocks, block.txList.length ≤ 65535) (batchTxs : List TxEnvelope)
    (blocksParams : List BlockParams) :
    ∃ params, encodeBlocks previous batchTxs blocksParams blocks =
        .ok (batchTxs ++ (blocks.map PreconfirmedBlock.txList).flatten, blocksParams ++ params) ∧
      params.map BlockParams.timeShift =
        deltas previous (blocks.map PreconfirmedBlock.timestamp) ∧
      params.map BlockParams.numTransactions =
        (blocks.map PreconfirmedBlock.txList).map List.length := by
  induction blocks generalizing previous batchTxs blocksParams with
  | nil =>
      refine ⟨[], ?_, rfl, rfl⟩
      rw [List.map_nil, List.flatten_nil, List.append_nil, List.append_nil]
      rfl
  | cons block rest ih =>
      obtain ⟨⟨hle, hshift⟩, hrest⟩ := List.isChain_cons_cons.mp htimes
      obtain ⟨hlength, htxs'⟩ := List.forall_mem_cons.mp htxs
      have hcount : block.txList.length % 2 ^ 16 = block.txList.length :=
        Nat.mod_eq_of_lt (by omega)
      obtain ⟨params, heq, hshifts, hcounts⟩ := ih hrest htxs' (batchTxs ++ block.txList)
        (blocksParams ++ [⟨block.txList.length % 2 ^ 16,
          toU8OrMax (block.timestamp - previous), []⟩])
      refine ⟨⟨block.txList.length % 2 ^ 16, toU8OrMax (block.timestamp - previous), []⟩ :: params,
        ?_, ?_, ?_⟩
      · unfold encodeBlocks
        rw [if_pos hle]
        rw [List.append_assoc, List.append_assoc] at heq
        exact heq
      · rw [List.map_cons, List.map_cons, hshifts, deltas]
        unfold toU8OrMax
        rw [if_pos hshift]
      · rw [List.map_cons, List.map_cons, List.map_cons, hcounts, hcount]

/-- A value that was expected is there. -/
theorem eq_some_of_expect {α : Type} {value : Option α} {message : String} {result : α}
    (h : expect value message = .ok result) : value = some result := by
  cases value with
  | none => cases h
  | some other => exact congrArg some (Except.ok.inj h)

/-- A result that was mapped comes from a value. -/
theorem map_eq_ok {ε α β : Type} {result : Except ε α} {f : α → β} {value : β} :
    result.map f = .ok value ↔ ∃ x, result = .ok x ∧ f x = value := by
  cases result with
  | error e => simp [Except.map]
  | ok x => simp [Except.map]

/-- What is generated for a batch, if something is. -/
theorem generateBatch_eq_ok {codecs : Codecs} {cfg : RuntimeConfig} {batch : Batch}
    {estimation : FeeEstimation} {params : BatchParams} {sidecar : BlobTransactionSidecar}
    {feesHints : BlobTxFeesHints} :
    BatchPoster.generateBatch codecs cfg batch estimation =
        .ok (.ok (params, sidecar, feesHints)) ↔
      ∃ first last txs blocksParams compressed,
        batch.firstAndLastBlockTimestamps = some (first, last) ∧
        encodeBlocks first [] [] batch.blocks = .ok (txs, blocksParams) ∧
        createSidecar codecs txs = .ok (compressed, sidecar) ∧
        createBlobFeesHints cfg estimation = .ok (.ok feesHints) ∧
        params = BatchPoster.batchParams codecs cfg batch last compressed sidecar blocksParams := by
  constructor
  · intro h
    unfold BatchPoster.generateBatch at h
    obtain ⟨⟨first, last⟩, hends, h⟩ := bind_eq_ok.mp h
    obtain ⟨⟨txs, blocksParams⟩, hencode, h⟩ := bind_eq_ok.mp h
    dsimp only at h
    split at h
    case h_1 => cases h
    case h_2 compressed made hsidecar =>
    obtain ⟨answer, hfees, h⟩ := bind_eq_ok.mp h
    cases answer with
    | error e => cases h
    | ok hints =>
        cases h
        exact ⟨first, last, txs, blocksParams, compressed, eq_some_of_expect hends, hencode,
          hsidecar, hfees, rfl⟩
  · rintro ⟨first, last, txs, blocksParams, compressed, hends, hencode, hsidecar, hfees, rfl⟩
    unfold BatchPoster.generateBatch
    simp only [hends, expect, hencode, hsidecar, hfees, bind, Except.bind, pure, Except.pure]

/-- A sidecar has the blobs that it was made of. -/
theorem eq_ok_of_tryFromBlobsBytes {codecs : Codecs} {result : BlobResult (List (List UInt8))}
    {sidecar : BlobTransactionSidecar}
    (h : BlobTransactionSidecar.tryFromBlobsBytes codecs result = .ok sidecar) :
    result = .ok sidecar.blobs := by
  cases result with
  | error e => cases h
  | ok blobs =>
      unfold BlobTransactionSidecar.tryFromBlobsBytes at h
      dsimp only at h
      split at h
      · cases h
      · cases h
        rfl

/-- A sidecar that was made holds the compressed transactions. -/
theorem createSidecar_eq_ok {codecs : Codecs} {txs : List TxEnvelope} {compressed : List UInt8}
    {sidecar : BlobTransactionSidecar} (h : createSidecar codecs txs = .ok (compressed, sidecar)) :
    codecs.rlpEncodeAndCompress txs = some compressed ∧
      createBlobsFromData compressed = .ok sidecar.blobs := by
  unfold createSidecar at h
  cases hcompress : codecs.rlpEncodeAndCompress txs with
  | none =>
      rw [hcompress] at h
      cases h
  | some bytes =>
      rw [hcompress] at h
      obtain ⟨made, hmade, heq⟩ := map_eq_ok.mp h
      cases heq
      exact ⟨rfl, eq_ok_of_tryFromBlobsBytes hmade⟩

/-- The blobs of the sidecar of some transactions hold these transactions and no others. -/
theorem holdTxs_of_createSidecar {codecs : Codecs}
    (hinjective : ∀ txs txs' bytes, codecs.rlpEncodeAndCompress txs = some bytes →
      codecs.rlpEncodeAndCompress txs' = some bytes → txs = txs')
    {txs : List TxEnvelope} {compressed : List UInt8} {sidecar : BlobTransactionSidecar}
    (h : createSidecar codecs txs = .ok (compressed, sidecar)) (other : List TxEnvelope) :
    sidecar.HoldTxs codecs other ↔ other = txs := by
  obtain ⟨hcompressed, hblobs⟩ := createSidecar_eq_ok h
  have hdecode :
      sidecar.blobs.mapM decodeBlobData = .ok (chunks MAX_BLOB_DATA_SIZE compressed) := by
    rw [createBlobsFromData_eq] at hblobs
    rw [← Except.ok.inj hblobs, mapM_decodeBlobData_chunks]
  have hdata : (chunks MAX_BLOB_DATA_SIZE compressed).flatten = compressed :=
    flatten_chunks (by decide) compressed
  constructor
  · rintro ⟨parts, hparts, hother⟩
    rw [hdecode] at hparts
    rw [← Except.ok.inj hparts, hdata] at hother
    exact hinjective other txs compressed hother hcompressed
  · rintro rfl
    exact ⟨_, hdecode, by rw [hdata, hcompressed]⟩

/-- The timestamps of the ends of a batch are those of its first and its last block. -/
theorem firstAndLastBlockTimestamps_eq {batch : Batch} {first : PreconfirmedBlock}
    (hfirst : batch.blocks.head? = some first) (hblocks : batch.blocks ≠ []) :
    batch.firstAndLastBlockTimestamps =
      some (first.timestamp, (batch.blocks.getLast hblocks).timestamp) := by
  unfold Batch.firstAndLastBlockTimestamps Batch.firstTimestamp Batch.lastTimestamp
  rw [hfirst, List.getLast?_eq_getLast_of_ne_nil hblocks]
  rfl

/-- The loop over the blocks starts with the timestamp of the first one, so that it meets the same
time shifts as between the blocks and one of zero. -/
theorem isChain_timestamps {batch : Batch} {first : PreconfirmedBlock}
    (hfirst : batch.blocks.head? = some first)
    (htimes : batch.blocks.IsChain fun first second =>
      first.timestamp ≤ second.timestamp ∧ second.timestamp - first.timestamp ≤ 255) :
    (first.timestamp :: batch.blocks.map PreconfirmedBlock.timestamp).IsChain
      fun first second => first ≤ second ∧ second - first ≤ 255 := by
  have hmap : (batch.blocks.map PreconfirmedBlock.timestamp).IsChain
      fun first second => first ≤ second ∧ second - first ≤ 255 :=
    (List.isChain_map _).mpr htimes
  obtain ⟨rest, heq⟩ := List.head?_eq_some_iff.mp hfirst
  rw [heq, List.map_cons] at hmap ⊢
  exact List.isChain_cons_cons.mpr ⟨⟨Nat.le_refl _, by omega⟩, hmap⟩

/-- Decoding what is generated for a batch gives back its blocks: their timestamps and their
transaction lists, with no transaction left over, and no time shift of the first block. Something
is generated if the sidecar can be made and the fees are known. -/
theorem generatedBatch_decodes {codecs : Codecs} (cfg : RuntimeConfig) {batch : Batch}
    (estimation : FeeEstimation) (hblocks : batch.blocks ≠ [])
    (htimes : batch.blocks.IsChain fun first second =>
      first.timestamp ≤ second.timestamp ∧ second.timestamp - first.timestamp ≤ 255)
    (htxs : ∀ block ∈ batch.blocks, block.txList.length ≤ 65535)
    (hinjective : ∀ txs txs' bytes, codecs.rlpEncodeAndCompress txs = some bytes →
      codecs.rlpEncodeAndCompress txs' = some bytes → txs = txs') :
    (∀ made feesHints,
      createSidecar codecs (batch.blocks.map PreconfirmedBlock.txList).flatten = .ok made →
      createBlobFeesHints cfg estimation = .ok (.ok feesHints) →
      ∃ params, BatchPoster.generateBatch codecs cfg batch estimation =
        .ok (.ok (params, made.2, feesHints))) ∧
    ∀ params sidecar feesHints,
      BatchPoster.generateBatch codecs cfg batch estimation =
        .ok (.ok (params, sidecar, feesHints)) →
      params.blockTimestamps = batch.blocks.map PreconfirmedBlock.timestamp ∧
      batch.firstTimestamp = some params.firstBlockTs ∧
      params.blocks.head?.map BlockParams.timeShift = some 0 ∧
      ∃ txs, (∀ other, sidecar.HoldTxs codecs other ↔ other = txs) ∧
        params.blockTxLists txs = (batch.blocks.map PreconfirmedBlock.txList, []) := by
  -- a batch with blocks has its first and last timestamp, and its deltas fit in a byte
  obtain ⟨first, rest, heq⟩ := List.exists_cons_of_ne_nil hblocks
  have hfirst : batch.blocks.head? = some first := by rw [heq, List.head?_cons]
  have hends := firstAndLastBlockTimestamps_eq hfirst hblocks
  have hchain := isChain_timestamps hfirst htimes
  obtain ⟨blocksParams, hencode, hshifts, hcounts⟩ := encodeBlocks_eq hchain htxs [] []
  rw [List.nil_append, List.nil_append] at hencode
  constructor
  · rintro ⟨compressed, sidecar⟩ feesHints hsidecar hfees
    exact ⟨_, generateBatch_eq_ok.mpr
      ⟨_, _, _, _, compressed, hends, hencode, hsidecar, hfees, rfl⟩⟩
  · intro params sidecar feesHints h
    obtain ⟨first', last', txs, params', compressed, hends', hencode', hsidecar, -, rfl⟩ :=
      generateBatch_eq_ok.mp h
    rw [hends] at hends'
    cases hends'
    rw [hencode] at hencode'
    cases hencode'
    have hordered := hchain.imp fun _ _ h => h.1
    -- the decoder counts back from the last timestamp, so it needs that one
    have hgetLast : (first.timestamp :: batch.blocks.map PreconfirmedBlock.timestamp).getLast
        (List.cons_ne_nil _ _) = (batch.blocks.getLast hblocks).timestamp := by
      rw [List.getLast_cons (by simpa using hblocks), List.getLast_map]
    refine ⟨?_, ?_, ?_, (batch.blocks.map PreconfirmedBlock.txList).flatten,
      holdTxs_of_createSidecar hinjective hsidecar, ?_⟩
    · unfold BatchParams.blockTimestamps BatchPoster.batchParams
      dsimp only
      rw [hshifts]
      exact undeltas_deltas hordered hgetLast
    · have hsum := add_sum_deltas hordered
      rw [hgetLast] at hsum
      unfold BatchParams.firstBlockTs BatchPoster.batchParams Batch.firstTimestamp
      dsimp only
      rw [hshifts, ← hsum, Nat.add_sub_cancel, hfirst]
      rfl
    · unfold BatchPoster.batchParams
      dsimp only
      have hhead := congrArg List.head? hshifts
      rw [heq, List.map_cons, deltas, Nat.sub_self] at hhead
      rwa [List.head?_map] at hhead
    · unfold BatchParams.blockTxLists BatchPoster.batchParams
      dsimp only
      rw [hcounts, slices_flatten]

/-- The parameters refer to all data of the blobs, if its size is a `u32`. -/
theorem dataOf_generateBatch {codecs : Codecs} {cfg : RuntimeConfig} {batch : Batch}
    {estimation : FeeEstimation} {params : BatchParams} {sidecar : BlobTransactionSidecar}
    {feesHints : BlobTxFeesHints} {parts : List (List UInt8)}
    (h : BatchPoster.generateBatch codecs cfg batch estimation =
      .ok (.ok (params, sidecar, feesHints)))
    (hparts : sidecar.blobs.mapM decodeBlobData = .ok parts)
    (hsize : parts.flatten.length < 2 ^ 32) :
    params.blobParams.dataOf parts.flatten = parts.flatten := by
  obtain ⟨first, last, txs, blocksParams, compressed, -, -, hsidecar, -, rfl⟩ :=
    generateBatch_eq_ok.mp h
  have hblobs := (createSidecar_eq_ok hsidecar).2
  have hdata : parts.flatten = compressed := by
    rw [createBlobsFromData_eq] at hblobs
    rw [← Except.ok.inj hblobs, mapM_decodeBlobData_chunks] at hparts
    rw [← Except.ok.inj hparts, flatten_chunks (by decide)]
  unfold BlobParams.dataOf BatchPoster.batchParams
  dsimp only
  rw [List.drop_zero, hdata, Nat.mod_eq_of_lt (hdata ▸ hsize), List.take_length]

/-- The number of blobs and the fee hints, which the processor's model keeps of `generate_batch`,
are those of the sidecar and the hints that are generated. -/
theorem generateBatch_eq_map {codecs : Codecs} {cfg : RuntimeConfig} {batch : Batch}
    {reads : ProposalReads} {first last : Nat} {txs : List TxEnvelope}
    {blocksParams : List BlockParams}
    (hends : batch.firstAndLastBlockTimestamps = some (first, last))
    (hencode : encodeBlocks first [] [] batch.blocks = .ok (txs, blocksParams))
    (hreads : reads.sidecar =
      (createSidecar codecs txs).map fun made => made.2.blobs.length) :
    generateBatch cfg reads =
      (BatchPoster.generateBatch codecs cfg batch reads.feeEstimation).map
        (Except.map fun generated => (generated.2.1.blobs.length, generated.2.2)) := by
  unfold generateBatch BatchPoster.generateBatch
  simp only [hreads, hends, expect, hencode, bind, Except.bind]
  cases createSidecar codecs txs with
  | error e => rfl
  | ok made =>
      dsimp only [Except.map]
      cases createBlobFeesHints cfg reads.feeEstimation with
      | error panic => rfl
      | ok answer =>
          cases answer with
          | error e => rfl
          | ok hints => rfl

/-! ## A batch of three blocks -/

/-- A transfer, as an untyped transaction. -/
def transferTx : TxEnvelope :=
  ⟨[0xdf, 0x80, 0x01, 0x82, 0x52, 0x08, 0x94, 0x70, 0x99, 0x79, 0x70, 0xc5, 0x18, 0x12, 0xdc,
    0x3a, 0x01, 0x0c, 0x7d, 0x01, 0xb5, 0x0e, 0x0d, 0x17, 0xdc, 0x79, 0xc8, 0x80, 0x80, 0x1b,
    0x01, 0x01]⟩

/-- Blocks with one transaction and without transactions, at equal timestamps and at ones that are
as far apart as possible. -/
def threeBlocks : Batch :=
  { blocks := [⟨1000, 1, 0, [transferTx]⟩, ⟨1000, 2, 0, []⟩, ⟨1255, 3, 0, []⟩]
    anchorBlock := l1Header 10
    settings := (defaultConfig 0).batchSettings
    coinbase := 0 }

/-- The encoded and compressed list of the one transaction. -/
def compressedTransfer : List UInt8 :=
  [0x78, 0x9c, 0x7b, 0x70, 0xbf, 0x81, 0xb1, 0x29, 0x88, 0x63, 0x4a, 0xc1, 0xcc, 0xca, 0x82,
    0xa3, 0x12, 0x42, 0x77, 0xac, 0x18, 0x79, 0x6a, 0x19, 0xb7, 0xf2, 0xf1, 0x8a, 0xdf, 0xa9,
    0x3c, 0xd1, 0xd0, 0x20, 0xcd, 0xc8, 0x08, 0x00, 0xea, 0x4a, 0x0c, 0x54]

/-- The encodings that are used for these blocks. -/
def transferCodecs : Codecs where
  rlpEncodeAndCompress txs :=
    if txs = [transferTx] then some compressedTransfer else none
  blobToKzgCommitment _ := some commitmentToZeros
  sha256 _ := sha256OfCommitmentToZeros

/-- The encodings lose nothing. -/
theorem transferCodecs_injective (txs txs' : List TxEnvelope) (bytes : List UInt8)
    (h : transferCodecs.rlpEncodeAndCompress txs = some bytes)
    (h' : transferCodecs.rlpEncodeAndCompress txs' = some bytes) : txs = txs' := by
  have hdefined : ∀ list, transferCodecs.rlpEncodeAndCompress list = some bytes →
      list = [transferTx] := by
    intro list hlist
    by_contra hne
    have hnone : transferCodecs.rlpEncodeAndCompress list = none := if_neg hne
    rw [hnone] at hlist
    cases hlist
  rw [hdefined txs h, hdefined txs' h']

/-- The sidecar of the transfer can be made. -/
theorem exists_createSidecar_transfer :
    ∃ made, createSidecar transferCodecs [transferTx] = .ok made := by
  have hchunks : chunks MAX_BLOB_DATA_SIZE compressedTransfer = [compressedTransfer] := by
    simp [chunks, MAX_BLOB_DATA_SIZE, compressedTransfer]
  obtain ⟨sidecar, hsidecar⟩ : ∃ sidecar,
      createBlobSidecarFromData transferCodecs compressedTransfer = .ok sidecar := by
    unfold createBlobSidecarFromData
    rw [createBlobsFromData_eq, hchunks, List.map_singleton]
    exact ⟨_, rfl⟩
  have hcompress : transferCodecs.rlpEncodeAndCompress [transferTx] = some compressedTransfer := rfl
  refine ⟨(compressedTransfer, sidecar), ?_⟩
  unfold createSidecar
  rw [hcompress]
  dsimp only
  rw [hsidecar]
  rfl

/-- The three blocks are decoded from the parameters that are generated for them. -/
theorem generatedBatch_decodes_threeBlocks : ∃ params sidecar feesHints,
    BatchPoster.generateBatch transferCodecs (defaultConfig 0) threeBlocks (.ok (1, ⟨20, 10⟩)) =
        .ok (.ok (params, sidecar, feesHints)) ∧
      params.lastBlockTimestamp = 1255 ∧
      params.blocks = [⟨1, 0, []⟩, ⟨0, 0, []⟩, ⟨0, 255, []⟩] ∧
      params.blockTimestamps = [1000, 1000, 1255] ∧
      ∃ txs, (∀ other, sidecar.HoldTxs transferCodecs other ↔ other = txs) ∧
        params.blockTxLists txs = ([[transferTx], [], []], []) := by
  obtain ⟨hgenerates, hdecodes⟩ := @generatedBatch_decodes transferCodecs (defaultConfig 0)
    threeBlocks (.ok (1, ⟨20, 10⟩)) (List.cons_ne_nil _ _) (by decide) (by decide)
    transferCodecs_injective
  obtain ⟨made, hmade⟩ := exists_createSidecar_transfer
  obtain ⟨feesHints, hfees⟩ : ∃ feesHints,
      createBlobFeesHints (defaultConfig 0) (.ok (1, ⟨20, 10⟩)) = .ok (.ok feesHints) := ⟨_, rfl⟩
  obtain ⟨params, hgenerated⟩ := hgenerates made feesHints hmade hfees
  obtain ⟨htimestamps, -, -, htxs⟩ := hdecodes params made.2 feesHints hgenerated
  obtain ⟨first, last, txs, blocksParams, compressed, hends, hencode, -, -, rfl⟩ :=
    generateBatch_eq_ok.mp hgenerated
  cases hends
  cases hencode
  exact ⟨_, made.2, feesHints, hgenerated, rfl, rfl, htimestamps, htxs⟩

end Mk1
