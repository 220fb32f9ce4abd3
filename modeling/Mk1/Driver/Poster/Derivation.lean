import Mk1.Driver.Poster.BatchParams
import Mk1.Primitives.BatchMap.Posting

/-!
# The derived chain

The protocol derives the L2 chain from the proposals on the L1: it numbers their
blocks one after the other, counts their timestamps back from the last one of
each proposal, and cuts their transactions out of the data of its blobs. Batches
of consecutive blocks whose time shifts fit are derived as they were posted
(`derives_iff`). So what a sync proposes is derived as the preconfirmed chain,
unless it has reported a reorg (`derives_sync_iff`).
-/

namespace Mk1

open Deltas

/-- The L2 blocks of a proposal with these transactions, numbered from this number on. -/
def BatchParams.derive (params : BatchParams) (txs : List TxEnvelope) (firstNumber : Nat) :
    List PostedBlock :=
  let numbers := List.range' firstNumber params.blocks.length
  (numbers.zip (params.blockTimestamps.zip (params.blockTxLists txs).1)).map
    fun (number, timestamp, txList) =>
      { number := number
        timestamp := timestamp
        txList := txList
        coinbase := params.coinbase
        anchorId := params.anchorBlockId }

section

variable (codecs : Codecs)

/-- A chain of L2 blocks that is derived from proposals, numbered from this number on. -/
def Derives (firstNumber : Nat) :
    List (BatchParams × BlobTransactionSidecar) → List PostedBlock → Prop
  | [], chain => chain = []
  | (params, sidecar) :: rest, chain => ∃ txs tail, sidecar.HoldTxs codecs txs ∧
      Derives (firstNumber + params.blocks.length) rest tail ∧
      chain = params.derive txs firstNumber ++ tail

/-- What is proposed for a batch: the parameters and the sidecar that were generated for it. -/
def Batch.Proposes (cfg : RuntimeConfig) (batch : Batch)
    (proposal : BatchParams × BlobTransactionSidecar) : Prop :=
  ∃ estimation feesHints, BatchPoster.generateBatch codecs cfg batch estimation =
    .ok (.ok (proposal.1, proposal.2, feesHints))

end

/-- The blocks of a batch can be encoded: their timestamps never decrease, by at most 255 seconds
from one to the next, and they do not have too many transactions. -/
structure Batch.Encodable (batch : Batch) : Prop where
  nonempty : batch.blocks ≠ []
  times : batch.blocks.IsChain fun first second =>
    first.timestamp ≤ second.timestamp ∧ second.timestamp - first.timestamp ≤ 255
  txs : ∀ block ∈ batch.blocks, block.txList.length ≤ 65535

variable {codecs : Codecs} {cfg : RuntimeConfig}

/-- The blocks of one proposal are those of its batch, and its sidecar holds their transactions and
no others. -/
theorem derive_of_proposes
    (hinjective : ∀ txs txs' bytes, codecs.rlpEncodeAndCompress txs = some bytes →
      codecs.rlpEncodeAndCompress txs' = some bytes → txs = txs')
    {batch : Batch} (hencodable : batch.Encodable)
    {proposal : BatchParams × BlobTransactionSidecar} (h : batch.Proposes codecs cfg proposal) :
    ∃ txs, (∀ other, proposal.2.HoldTxs codecs other ↔ other = txs) ∧
      proposal.1.blocks.length = batch.blocks.length ∧
      ∀ firstNumber,
        batch.blocks.map PreconfirmedBlock.number =
          List.range' firstNumber batch.blocks.length →
        proposal.1.derive txs firstNumber = batch.posted := by
  obtain ⟨params, sidecar⟩ := proposal
  obtain ⟨estimation, feesHints, h⟩ := h
  dsimp only at h
  obtain ⟨first, rest, heq⟩ := List.exists_cons_of_ne_nil hencodable.nonempty
  have hfirst : batch.blocks.head? = some first := by rw [heq, List.head?_cons]
  have hchain := isChain_timestamps hfirst hencodable.times
  obtain ⟨blocksParams, hencode, hshifts, hcounts⟩ :=
    encodeBlocks_eq hchain hencodable.txs [] []
  rw [List.nil_append, List.nil_append] at hencode
  obtain ⟨first', last', txs, params', compressed, hends, hencode', hsidecar, -, rfl⟩ :=
    generateBatch_eq_ok.mp h
  rw [firstAndLastBlockTimestamps_eq hfirst hencodable.nonempty] at hends
  cases hends
  rw [hencode] at hencode'
  cases hencode'
  have hlength : blocksParams.length = batch.blocks.length := by
    simpa using congrArg List.length hcounts
  have hgetLast : (first.timestamp :: batch.blocks.map PreconfirmedBlock.timestamp).getLast
      (List.cons_ne_nil _ _) = (batch.blocks.getLast hencodable.nonempty).timestamp := by
    rw [List.getLast_cons (by simpa using hencodable.nonempty), List.getLast_map]
  refine ⟨_, holdTxs_of_createSidecar hinjective hsidecar, hlength, fun firstNumber hnumbers => ?_⟩
  unfold BatchParams.derive BatchParams.blockTimestamps BatchParams.blockTxLists
    BatchPoster.batchParams
  dsimp only
  rw [hshifts, undeltas_deltas (hchain.imp fun _ _ h => h.1) hgetLast, hcounts, slices_flatten,
    hlength, ← hnumbers, List.zip_map', List.zip_map', List.map_map]
  rfl

/-- Proposals of encodable batches that are numbered one after the other are derived as the batches
were posted, and in no other way. -/
theorem derives_iff
    (hinjective : ∀ txs txs' bytes, codecs.rlpEncodeAndCompress txs = some bytes →
      codecs.rlpEncodeAndCompress txs' = some bytes → txs = txs')
    {batches : List Batch} {proposals : List (BatchParams × BlobTransactionSidecar)}
    (hproposals : List.Forall₂ (Batch.Proposes codecs cfg) batches proposals)
    (hencodable : ∀ batch ∈ batches, batch.Encodable) {firstNumber : Nat}
    (hnumbers : (blocksOf batches).map PreconfirmedBlock.number =
      List.range' firstNumber (blocksOf batches).length) (chain : List PostedBlock) :
    Derives codecs firstNumber proposals chain ↔ chain = postedBlocks batches := by
  induction hproposals generalizing firstNumber chain with
  | nil => rfl
  | @cons batch proposal rest proposals hproposal _ ih =>
      obtain ⟨hbatch, hrest⟩ := List.forall_mem_cons.mp hencodable
      obtain ⟨txs, htxs, hlength, hderive⟩ := derive_of_proposes hinjective hbatch hproposal
      -- the numbers of the batch are the first ones, and those of the others follow
      rw [blocksOf_cons, List.map_append, List.length_append, ← List.range'_append_1] at hnumbers
      obtain ⟨hhere, hthere⟩ := List.append_inj hnumbers (by simp)
      have htail := ih hrest hthere
      obtain ⟨params, sidecar⟩ := proposal
      dsimp only at htxs hlength hderive
      rw [postedBlocks, List.flatMap_cons, ← hderive firstNumber hhere]
      simp only [Derives, htxs, hlength, htail, exists_and_left, exists_eq_left]
      rfl

/-! ## The proposals of a sync -/

/-- The batches that are sent to the L1, which are those with blocks. -/
def OrderedBatches.sent (ordered : OrderedBatches) : List Batch :=
  ordered.batches.filter fun batch => !batch.isEmpty

/-- Leaving out the empty batches leaves out no block. -/
theorem OrderedBatches.flatMap_sent {α : Type} (ordered : OrderedBatches) {f : Batch → List α}
    (hempty : ∀ batch, batch.blocks = [] → f batch = []) :
    ordered.sent.flatMap f = ordered.batches.flatMap f := by
  unfold sent
  induction ordered.batches with
  | nil => rfl
  | cons batch rest ih =>
      rw [List.filter_cons, List.flatMap_cons]
      split
      · rw [List.flatMap_cons, ih]
      · next hblocks =>
          have hnone : batch.blocks = [] := by simpa [Batch.isEmpty] using hblocks
          rw [hempty batch hnone, List.nil_append, ih]

/-- What the size of a batch does not exclude: no soft block has more transactions than can be
counted. -/
def ContiguousAnchoredBlocks.TxsCounted (soft : ContiguousAnchoredBlocks) : Prop :=
  ∀ anchored ∈ soft.blocks, anchored.intoPreconfirmed.txList.length ≤ 65535

/-- The blocks that the pipeline puts into batches are numbered like the soft blocks and have their
transactions, in their order if their anchors never decrease. -/
theorem content_createBatchMap {input : PipelineInput} {soft : ContiguousAnchoredBlocks}
    {map : BatchMap .retimestamped} (h : createBatchMap input soft = .ok map)
    (hanchors : soft.AnchorsAscend) :
    (blocksOf map.intoVec.batches).map PreconfirmedBlock.content =
      soft.intoPreconfirmed.map PreconfirmedBlock.content := by
  obtain ⟨initial, anchored, -, hgrouped, hanchored, hmap, -⟩ := createBatchMap_cases input soft
  obtain rfl : anchored.retimestamp input.minTs input.maxTs = map :=
    Except.ok.inj (hmap.symm.trans h)
  rw [anchored.content_retimestamp, (reanchored_blocks hgrouped hanchored).2 hanchors]

/-- The batches that a sync sends can be encoded, if the time shifts of the soft blocks are
bounded. -/
theorem encodable_of_createBatchMap {input : PipelineInput} {soft : ContiguousAnchoredBlocks}
    {map : BatchMap .retimestamped} (h : createBatchMap input soft = .ok map)
    (hanchors : soft.AnchorsAscend)
    (htimestamps : soft.blocks.Pairwise fun first second => first.timestamp ≤ second.timestamp)
    (hshifts : ShiftsBounded input.minProposableAnchor input.minTs input.maxTs soft)
    (htxs : soft.TxsCounted) : ∀ batch ∈ map.intoVec.sent, batch.Encodable := by
  intro batch hsent
  obtain ⟨hbatch, hblocks⟩ := List.mem_filter.mp hsent
  have hsorted : (blocksOf map.intoVec.batches).Pairwise fun first second =>
      first.timestamp ≤ second.timestamp := by
    obtain ⟨initial, anchored, -, hgrouped, hanchored, hmap, -⟩ := createBatchMap_cases input soft
    obtain rfl : anchored.retimestamp input.minTs input.maxTs = map :=
      Except.ok.inj (hmap.symm.trans h)
    refine anchored.timestamps_sorted_retimestamp input.minTs input.maxTs ?_
    rw [(reanchored_blocks hgrouped hanchored).2 hanchors]
    exact List.pairwise_map.mpr htimestamps
  have hwithin : batch.blocks.Sublist (blocksOf map.intoVec.batches) :=
    List.sublist_flatten_of_mem (List.mem_map_of_mem hbatch)
  obtain ⟨map', hmap', hfit⟩ :=
    timeShiftsFit_of_bounded input soft hanchors htimestamps hshifts
  obtain rfl : map' = map := Except.ok.inj (hmap'.symm.trans h)
  refine ⟨by simpa [Batch.isEmpty] using hblocks, ?_, fun block hblock => ?_⟩
  · refine List.isChain_iff_forall_rel_of_append_cons_cons.mpr ?_
    intro first second before after hsplit
    have hshift := List.isChain_iff_forall_rel_of_append_cons_cons.mp (hfit batch hbatch) hsplit
    have hle := (hsorted.sublist hwithin)
    rw [hsplit] at hle
    have hle := (List.pairwise_cons.mp (List.pairwise_append.mp hle).2.1).1 second (by simp)
    refine ⟨hle, ?_⟩
    have hbound := hshift.1
    unfold MAX_TIMESHIFT_SECS at hbound
    omega
  · have hcontent : block.content ∈ soft.intoPreconfirmed.map PreconfirmedBlock.content := by
      rw [← content_createBatchMap h hanchors]
      exact List.mem_map_of_mem (hwithin.subset hblock)
    obtain ⟨source, hsource, heq⟩ := List.mem_map.mp hcontent
    obtain ⟨anchored, hanchored, rfl⟩ := List.mem_map.mp hsource
    have htxList : anchored.intoPreconfirmed.txList = block.txList :=
      (Prod.ext_iff.mp (Prod.ext_iff.mp heq).2).1
    rw [← htxList]
    exact htxs anchored hanchored

/-- What a sync proposes is derived as the preconfirmed chain of soft blocks exactly if the sync has
found no reason for a reorg; in any case it is derived as it was posted. -/
theorem derives_sync_iff
    (hinjective : ∀ txs txs' bytes, codecs.rlpEncodeAndCompress txs = some bytes →
      codecs.rlpEncodeAndCompress txs' = some bytes → txs = txs')
    {input : PipelineInput} {soft : ContiguousAnchoredBlocks} {map : BatchMap .retimestamped}
    (h : createBatchMap input soft = .ok map)
    (hsafe : input.minProposableAnchor ≤ input.safeL1Anchor.number)
    (hrange : input.minTs ≤ input.maxTs) (hanchors : soft.AnchorsAscend)
    (htimestamps : soft.blocks.Pairwise fun first second => first.timestamp ≤ second.timestamp)
    (hshifts : ShiftsBounded input.minProposableAnchor input.minTs input.maxTs soft)
    (htxs : soft.TxsCounted) {proposals : List (BatchParams × BlobTransactionSidecar)}
    (hproposals : List.Forall₂ (Batch.Proposes codecs cfg) map.intoVec.sent proposals)
    {firstNumber : Nat} (hfirst : ∀ first ∈ soft.blocks.head?, first.number = firstNumber) :
    (∀ chain, Derives codecs firstNumber proposals chain ↔
        chain = postedBlocks map.intoVec.batches) ∧
      (Derives codecs firstNumber proposals soft.preconfirmed ↔ map.reorgReasons = []) := by
  have hsent : blocksOf map.intoVec.sent = blocksOf map.intoVec.batches :=
    map.intoVec.flatMap_sent fun _ hempty => hempty
  have hposted : postedBlocks map.intoVec.sent = postedBlocks map.intoVec.batches :=
    map.intoVec.flatMap_sent fun batch hempty => by rw [Batch.posted, hempty]; rfl
  have hcontent := content_createBatchMap h hanchors
  have hnumbers : (blocksOf map.intoVec.sent).map PreconfirmedBlock.number =
      List.range' firstNumber (blocksOf map.intoVec.sent).length := by
    have hmap := congrArg (List.map Prod.fst) hcontent
    rw [List.map_map, List.map_map] at hmap
    have hlength := congrArg List.length hcontent
    rw [List.length_map, List.length_map] at hlength
    rw [hsent, hlength]
    refine hmap.trans (soft.consecutive.map_eq_range' fun first hfirst' => ?_)
    unfold ContiguousAnchoredBlocks.intoPreconfirmed at hfirst'
    rw [List.head?_map] at hfirst'
    obtain ⟨anchored, hanchored, rfl⟩ := Option.mem_map.mp hfirst'
    exact hfirst anchored hanchored
  have hderives := derives_iff hinjective hproposals
    (encodable_of_createBatchMap h hanchors htimestamps hshifts htxs) hnumbers
  rw [hposted] at hderives
  refine ⟨hderives, (hderives _).trans ?_⟩
  constructor
  · intro heq
    exact (reorgReasons_eq_nil_iff_accepts h).mpr
      (heq ▸ accepts_postedBlocks h hsafe hrange)
  · intro hnone
    exact ((postedBlocks_of_accepts h ((reorgReasons_eq_nil_iff_accepts h).mp hnone)).2
      hanchors).symm

/-! ## A chain of two blocks -/

/-- A soft block with its anchor transaction and one transfer. -/
def transferBlock (number timestamp anchorId : Nat) : AnchoredBlock :=
  let anchorTx : Transaction :=
    { signer := TAIKO_GOLDEN_TOUCH_ACCOUNT, inner := ⟨[]⟩, anchorV3BlockId := some anchorId }
  { block :=
      { header :=
          { number := number, timestamp := timestamp, hash := 0, beneficiary := 0,
            baseFeePerGas := none }
        transactions := [anchorTx, { anchorTx with signer := 1, inner := transferTx }] }
    anchor := l1Header anchorId }

/-- Two of these blocks on different anchors. -/
def twoTransfers : ContiguousAnchoredBlocks :=
  ⟨[transferBlock 1 100 11, transferBlock 2 112 12], .cons_cons rfl (.singleton _)⟩

/-- There is a proposal for a batch whose one block holds the transfer. -/
theorem exists_proposes_transfer (operator : Address) {batch : Batch} {block : PreconfirmedBlock}
    (hbatch : batch.blocks = [block]) (htxs : block.txList = [transferTx]) :
    ∃ proposal, batch.Proposes transferCodecs (defaultConfig operator) proposal := by
  obtain ⟨⟨compressed, sidecar⟩, hmade⟩ := exists_createSidecar_transfer
  obtain ⟨hints, hfees⟩ : ∃ hints, createBlobFeesHints (defaultConfig operator)
      (.ok (1, ⟨20, 10⟩)) = .ok (.ok hints) := ⟨_, rfl⟩
  have hends : batch.firstAndLastBlockTimestamps = some (block.timestamp, block.timestamp) := by
    simp [Batch.firstAndLastBlockTimestamps, Batch.firstTimestamp, Batch.lastTimestamp, hbatch]
  have hencode : encodeBlocks block.timestamp [] [] batch.blocks =
      .ok ([transferTx], [⟨1, 0, []⟩]) := by
    rw [hbatch]
    simp [encodeBlocks, htxs]
    rfl
  exact ⟨(BatchPoster.batchParams transferCodecs (defaultConfig operator) batch block.timestamp
    compressed sidecar [⟨1, 0, []⟩], sidecar), .ok (1, ⟨20, 10⟩), hints, generateBatch_eq_ok.mpr
      ⟨_, _, _, _, compressed, hends, hencode, hmade, hfees, rfl⟩⟩

/-- The blocks are proposed in two batches and derived as they were preconfirmed. -/
theorem derives_sync_transfer :
    ∃ map proposals, createBatchMap postingInput twoTransfers = .ok map ∧
      List.Forall₂ (Batch.Proposes transferCodecs (defaultConfig 0)) map.intoVec.sent proposals ∧
      proposals.length = 2 ∧ Derives transferCodecs 1 proposals twoTransfers.preconfirmed := by
  obtain ⟨map, hmap, hsent⟩ : ∃ map,
      (createBatchMap postingInput twoTransfers).toOption = some map ∧
        (map.intoVec.sent.map Batch.blocks, map.reorgReasons) =
          ([[⟨100, 1, 0, [transferTx]⟩], [⟨112, 2, 0, [transferTx]⟩]], []) :=
    Option.map_eq_some_iff.mp (by decide)
  rw [toOption_eq_some] at hmap
  obtain ⟨hblocks, hreasons⟩ := Prod.ext_iff.mp hsent
  obtain ⟨first, rest, hbatches, hfirst, hrest⟩ := List.map_eq_cons_iff.mp hblocks
  obtain ⟨second, rfl, hsecond⟩ := List.map_eq_singleton_iff.mp hrest
  obtain ⟨proposal, hproposes⟩ := exists_proposes_transfer 0 hfirst rfl
  obtain ⟨proposal', hproposes'⟩ := exists_proposes_transfer 0 hsecond rfl
  have hproposals : List.Forall₂ (Batch.Proposes transferCodecs (defaultConfig 0))
      map.intoVec.sent [proposal, proposal'] :=
    hbatches ▸ .cons hproposes (.cons hproposes' .nil)
  have hshifts : ShiftsBounded postingInput.minProposableAnchor postingInput.minTs
      postingInput.maxTs twoTransfers := by
    intro before first second after hsplit hfar
    have hsegment : [first, second] <:+: twoTransfers.blocks := ⟨before, after, by simp [hsplit]⟩
    have htimes : ∀ anchored ∈ twoTransfers.blocks,
        100 ≤ anchored.timestamp ∧ anchored.timestamp ≤ 112 := by decide
    have hfirst := (htimes first (hsegment.mem (by simp))).1
    have hsecond := (htimes second (hsegment.mem (by simp))).2
    unfold MAX_TIMESHIFT_SECS at hfar
    omega
  have htxs : twoTransfers.TxsCounted := by
    unfold ContiguousAnchoredBlocks.TxsCounted
    decide
  have hanchors : twoTransfers.AnchorsAscend := by
    unfold ContiguousAnchoredBlocks.AnchorsAscend
    decide
  refine ⟨map, _, hmap, hproposals, rfl, ?_⟩
  exact (derives_sync_iff transferCodecs_injective hmap (by decide) (by decide) hanchors
    (by decide) hshifts htxs hproposals (by decide)).2.mpr hreasons

end Mk1
