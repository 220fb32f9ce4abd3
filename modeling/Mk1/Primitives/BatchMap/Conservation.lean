import Mk1.Primitives.BatchMap.Retimestamping

/-!
# Soft blocks are conserved

The whole pipeline neither panics nor loses, duplicates or changes a soft
block. Only timestamps and anchors may differ afterwards, so blocks are compared
by their `content`.
-/

namespace Mk1

/-- What the pipeline may not change of a block: its number, its transaction list and its
coinbase. -/
def PreconfirmedBlock.content (block : PreconfirmedBlock) : Nat × List TxEnvelope × Address :=
  (block.number, block.txList, block.coinbase)

/-- Setting all timestamps of a batch keeps the contents of its blocks. -/
theorem Batch.content_setAllBlocksTimestamp (batch : Batch) (timestamp : Nat) :
    (batch.setAllBlocksTimestamp timestamp).blocks.map PreconfirmedBlock.content =
      batch.blocks.map PreconfirmedBlock.content := by
  rw [Batch.setAllBlocksTimestamp, List.map_map]
  rfl

/-- Setting all timestamps of several batches keeps the contents of their blocks. -/
theorem content_map_setAllBlocksTimestamp (batches : List Batch) (timestamp : Nat) :
    (blocksOf (batches.map fun batch => batch.setAllBlocksTimestamp timestamp)).map
        PreconfirmedBlock.content =
      (blocksOf batches).map PreconfirmedBlock.content := by
  induction batches with
  | nil => rfl
  | cons batch rest ih =>
      simp only [List.map_cons, blocksOf_cons, List.map_append, ih,
        Batch.content_setAllBlocksTimestamp]

namespace BatchMap

/-- Re-timestamping keeps the contents of the blocks in order. -/
theorem content_retimestamp (map : BatchMap .anchored) (minTs maxTs : Nat) :
    (blocksOf (map.retimestamp minTs maxTs).intoVec.batches).map PreconfirmedBlock.content =
      (blocksOf map.inner.values.flatten).map PreconfirmedBlock.content := by
  rw [intoVec_retimestamp, blocksOf_append, List.map_append, content_map_setAllBlocksTimestamp,
    ← List.map_append, ← blocksOf_append, List.takeWhile_append_dropWhile]

end BatchMap

/-- Popping the last batch leaves the others in place. -/
theorem OrderedBatches.popWithCoinbase_append (ordered : OrderedBatches) (coinbase : Address) :
    (ordered.popWithCoinbase coinbase).2.batches ++
      (ordered.popWithCoinbase coinbase).1.toList = ordered.batches := by
  unfold popWithCoinbase
  cases hlast : ordered.batches.getLast? with
  | none => simp
  | some last =>
      by_cases hcoinbase : last.coinbase ≠ coinbase
      · simp [hcoinbase]
      · simpa [hcoinbase] using List.dropLast_append_getLast? last hlast

/-- The pipeline from soft blocks to ordered batches never panics, and for every operator the
batches that stay behind and the batch that is popped hold exactly the soft blocks, each once
and with unchanged number, transactions and coinbase. Soft blocks whose anchors never decrease
also stay in their order. -/
theorem createBatchMap_conserves (input : PipelineInput) (soft : ContiguousAnchoredBlocks)
    (operator : Address) :
    ∃ map popped rest, createBatchMap input soft = .ok map ∧
      map.intoVec.popWithCoinbase operator = (popped, rest) ∧
      rest.batches ++ popped.toList = map.intoVec.batches ∧
      ((blocksOf (rest.batches ++ popped.toList)).map PreconfirmedBlock.content).Perm
        (soft.intoPreconfirmed.map PreconfirmedBlock.content) ∧
      (soft.blocks.Pairwise (fun first second => first.anchorId ≤ second.anchorId) →
        (blocksOf (rest.batches ++ popped.toList)).map PreconfirmedBlock.content =
          soft.intoPreconfirmed.map PreconfirmedBlock.content) := by
  obtain ⟨initial, anchored, -, hgrouped, hanchored, hmap, -⟩ := createBatchMap_cases input soft
  obtain ⟨hperm, horder⟩ := reanchored_blocks hgrouped hanchored
  obtain ⟨popped, rest, hpop⟩ : ∃ popped rest,
      (anchored.retimestamp input.minTs input.maxTs).intoVec.popWithCoinbase operator =
        (popped, rest) := ⟨_, _, rfl⟩
  have happend := (anchored.retimestamp input.minTs input.maxTs).intoVec.popWithCoinbase_append
    operator
  rw [hpop] at happend
  refine ⟨anchored.retimestamp input.minTs input.maxTs, popped, rest, hmap, hpop, happend, ?_⟩
  rw [happend, BatchMap.content_retimestamp]
  exact ⟨hperm.map _, fun hmono => by rw [horder hmono]⟩

/-- Two soft blocks on one anchor keep their order. -/
theorem createBatchMap_conserves_two :
    ∃ map, createBatchMap ⟨⟨10, 1000, 0, 64, 8⟩, fun _ size => size, fun _ size => size, 11,
        l1Header 12, 50, 2000⟩ (twoSoftBlocks 12) = .ok map ∧
      (blocksOf map.intoVec.batches).map PreconfirmedBlock.number = [1, 2] := by
  obtain ⟨map, popped, rest, hmap, -, happend, -, horder⟩ := createBatchMap_conserves
    ⟨⟨10, 1000, 0, 64, 8⟩, fun _ size => size, fun _ size => size, 11, l1Header 12, 50, 2000⟩
    (twoSoftBlocks 12) 0
  have hcontents := congrArg (List.map Prod.fst) (horder (by decide))
  rw [happend, List.map_map] at hcontents
  exact ⟨map, hmap, hcontents⟩

end Mk1
