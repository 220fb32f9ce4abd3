import Mk1.Driver.EventLoop.Contiguity
import Mk1.Driver.Poster.Derivation
import Mk1.Driver.Sequencer

/-!
# What is derived from a run

From the blocks that are delivered to the driver to the L2 chain that the
protocol derives: what the poster proposes for a batch of a run is derived as the
batch was posted, with the numbers that its blocks have, and every transaction
list is that of a delivered block. This holds in every interleaving of the driver
and the processor, whatever happens in between.
-/

namespace Mk1

namespace Sequencer

variable {codecs : Codecs} {sequencer : Sequencer}

/-- In every interleaving of a driver that starts and of the processor in which gaps are filled, and
for every proposal of an encodable batch: counted from the number of its first block, exactly the
blocks of the batch are derived, as they were posted, and each of them has the number and the
transactions of a block that was delivered to the driver. -/
theorem derives_delivered_blocks
    (hinjective : ∀ txs txs' bytes, codecs.rlpEncodeAndCompress txs = some bytes →
      codecs.rlpEncodeAndCompress txs' = some bytes → txs = txs')
    {cfg : RuntimeConfig} {l1 : L1State} {l2 : L2State}
    {maxBlockSize daThrottlingFactor : Nat} {events : List Event}
    (hrun : Transition.run step (new cfg l1 l2 maxBlockSize daThrottlingFactor) events =
      some sequencer)
    (hfills : Transition.StepsMeet Driver.step Driver.FillsGaps (.new cfg l1 l2)
      (driverEvents events))
    {req : BatchSubmissionRequest} (hreq : req ∈ sequencer.proposals)
    (hencodable : req.batch.Encodable) {proposal : BatchParams × BlobTransactionSidecar}
    (hproposal : req.batch.Proposes codecs cfg proposal) :
    ∃ first ∈ req.batch.blocks.head?,
      (∀ chain, Derives codecs first.number [proposal] chain ↔ chain = req.batch.posted) ∧
        ∀ posted ∈ req.batch.posted, ∃ event ∈ driverEvents events, ∃ content ∈ event.delivered,
          content.1 = posted.number ∧ content.2.1 = posted.txList := by
  obtain ⟨status, reorgReasons, hsubmitted⟩ := (linked_of_run hrun).submitted_of_proposal hreq
  have hnumbered : req.batch.Numbered :=
    (Driver.numbered_of_run hfills (run_driver hrun)).submitted req status reorgReasons hsubmitted
  obtain ⟨first, rest, hblocks⟩ := List.exists_cons_of_ne_nil hencodable.nonempty
  have hfirst : req.batch.blocks.head? = some first := by rw [hblocks, List.head?_cons]
  refine ⟨first, hfirst, fun chain => ?_, fun posted hposted => ?_⟩
  · have hnumbers : (blocksOf [req.batch]).map PreconfirmedBlock.number =
        List.range' first.number (blocksOf [req.batch]).length := by
      rw [blocksOf_cons, blocksOf_nil, List.append_nil]
      refine hnumbered.consecutive.map_eq_range' fun other hother => ?_
      obtain rfl := Option.some.inj (hfirst.symm.trans hother)
      rfl
    have hderives := derives_iff hinjective (List.Forall₂.cons hproposal .nil)
      (List.forall_mem_singleton.mpr hencodable) hnumbers chain
    rwa [postedBlocks, List.flatMap_singleton] at hderives
  · obtain ⟨block, hblock, rfl⟩ := List.mem_map.mp hposted
    obtain ⟨event, hevent, hcontent⟩ :=
      (Driver.comesFrom_of_run (run_driver hrun)).submitted _ _ _ hsubmitted block hblock
    exact ⟨event, hevent, block.content, hcontent, rfl, rfl⟩

open Driver

/-- Block 1 of the operator on anchor 48, with a transfer. -/
def transferOn48 : Block :=
  { headOn48 with
    transactions := headOn48.transactions ++
      [{ signer := 1, inner := transferTx, anchorV3BlockId := none }] }

/-- The batch of this block. -/
def transferBatch : Batch :=
  .fromBlocksUnchecked (l1Header 48) (defaultConfig 1).batchSettings [.fromBlock transferOn48]

/-- The driver adopts block 1, the next L1 tick submits it, and its proposal starts. -/
def transferProposed : List Sequencer.Event :=
  (startup (answersWith 38412 104 1 1 48 transferOn48) ++ nextL1Slot.take 2).map .driver ++
    [.send, .receive, .startNext]

/-- The transfer is derived from the proposal. -/
theorem derives_delivered_blocks_transfer :
    ∃ (sequencer : Sequencer) (proposal : BatchParams × BlobTransactionSidecar),
      Transition.run step ⟨startAt 38412 1, [], .new 126976 50⟩ transferProposed =
        some sequencer ∧
      sequencer.proposals = [⟨transferBatch, 3208⟩] ∧
      transferBatch.Proposes transferCodecs (defaultConfig 1) proposal ∧
      Derives transferCodecs 1 [proposal] [⟨1, 38400, [transferTx], 1, 48⟩] := by
  obtain ⟨sequencer, hrun, hproposals⟩ : ∃ sequencer : Sequencer, Transition.run step
      ⟨startAt 38412 1, [], .new 126976 50⟩ transferProposed = some sequencer ∧
        sequencer.proposals = [⟨transferBatch, 3208⟩] :=
    Transition.exists_run (by decide +kernel)
  have hblocks : transferBatch.blocks = [.fromBlock transferOn48] := rfl
  obtain ⟨proposal, hproposal⟩ := exists_proposes_transfer 1 hblocks rfl
  have hencodable : transferBatch.Encodable :=
    ⟨List.cons_ne_nil _ _, .singleton _, by decide⟩
  have hreq : ⟨transferBatch, 3208⟩ ∈ sequencer.proposals := hproposals ▸ List.mem_cons_self
  obtain ⟨first, hfirst, hderives, -⟩ := derives_delivered_blocks transferCodecs_injective hrun
    (by decide +kernel) hreq hencodable hproposal
  cases hfirst
  exact ⟨sequencer, proposal, hrun, hproposals, hproposal, (hderives _).mpr rfl⟩

end Sequencer

end Mk1
