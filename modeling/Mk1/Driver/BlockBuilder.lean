import Mk1.Driver.BuilderState
import Mk1.Driver.Config

/-!
# The block builder

`L2BlockBuilder` of `block_builder/mod.rs`: payloads are built in the handlers,
and finalized either by a background task, which guards the builder state until
its response is consumed, or directly by a handler. The events of the background
tasks are `BuilderEvent`s.
-/

namespace Mk1

/-- A payload that can be finalized. -/
structure BlockPayload where
  parent : Header
  baseFee : Nat
  isLast : Bool
  timestamp : Nat
  txListWithoutAnchorTx : List TxEnvelope
  deriving DecidableEq, Repr

/-- A request for a payload. -/
structure BuildPayloadRequest where
  timestamp : Nat
  forceEmpty : Bool
  isLast : Bool
  parent : Header
  transactionList : Option (List TxEnvelope)
  baseFee : Option Nat
  maxSize : Option Nat

/-- `BuildPayloadRequest::new`. -/
def BuildPayloadRequest.new (timestamp : Nat) (parent : Header) : BuildPayloadRequest :=
  { timestamp := timestamp, forceEmpty := false, isLast := false, parent := parent,
    transactionList := none, baseFee := none, maxSize := none }

/-- What `build_payload` reads: the base fee of the next block, where `none` is an error, and the
transaction list for a base fee and a maximum size, which is empty after an error. -/
structure BuildReads where
  nextBlockBaseFee : Option Nat
  fetchTxLists : Nat → Nat → List TxEnvelope

/-- `build_payload`: `none` is an error, `some none` that there is nothing to include. -/
def buildPayload (cfg : RuntimeConfig) (reads : BuildReads) (req : BuildPayloadRequest) :
    Option (Option BlockPayload) := do
  let baseFee ← req.baseFee.or reads.nextBlockBaseFee
  let maxSize := req.maxSize.getD cfg.maxBlockSizeBytes
  let txList := req.transactionList.getD (reads.fetchTxLists baseFee maxSize)
  let canSkipEmptyBlock := !(req.forceEmpty || req.isLast || cfg.enableBuildingEmptyBlocks)
  if canSkipEmptyBlock && txList.isEmpty then pure none
  else
    pure (some
      { parent := req.parent, baseFee := baseFee, isLast := req.isLast,
        timestamp := req.timestamp, txListWithoutAnchorTx := txList })

/-- A payload is built on the parent and for the timestamp of its request, and keeps a given
transaction list. -/
theorem buildPayload_request {cfg : RuntimeConfig} {reads : BuildReads} {req : BuildPayloadRequest}
    {payload : BlockPayload} (h : buildPayload cfg reads req = some (some payload)) :
    payload.parent = req.parent ∧ payload.timestamp = req.timestamp ∧
      ∀ txList ∈ req.transactionList, payload.txListWithoutAnchorTx = txList := by
  unfold buildPayload at h
  obtain ⟨baseFee, -, h⟩ := Option.bind_eq_some_iff.mp h
  dsimp only at h
  split at h
  · cases h
  · cases h
    refine ⟨rfl, rfl, fun txList htxList => ?_⟩
    obtain hlist := Option.mem_def.mp htxList
    simp [hlist]

/-- A request that forces an empty block always gets a payload, unless the base fee cannot be
read. -/
theorem buildPayload_forceEmpty {cfg : RuntimeConfig} {reads : BuildReads}
    {req : BuildPayloadRequest} (h : req.forceEmpty = true) :
    buildPayload cfg reads req ≠ some none := by
  intro hnone
  unfold buildPayload at hnone
  obtain ⟨baseFee, -, hnone⟩ := Option.bind_eq_some_iff.mp hnone
  simp [h] at hnone

/-- The response to a finalization, from the block that the preconf client has built. -/
def finalizeBlock (anchorBlock : Header) (payload : BlockPayload) (newBlock : Header) :
    BlockBuilderResponse :=
  ⟨.new newBlock payload.txListWithoutAnchorTx, anchorBlock⟩

/-- A finalization in the background. `fits` records whether its block fit the outstanding batch
when it was triggered; the program does not read it. -/
structure Finalization where
  anchorBlock : Header
  payload : BlockPayload
  fits : Bool
  deriving DecidableEq, Repr

/-- The block builder: its state, the finalizations that run in the background, and the responses
that have been sent to the driver, each with its finalization. -/
structure L2BlockBuilder where
  state : BuilderState
  finalizations : List Finalization
  blocksProduced : List (Finalization × BlockBuilderResponse)

/-- What can happen in the background: a finalization gets its block and sends its response, or
it fails. -/
inductive BuilderEvent where
  | finalized (finalization : Finalization) (newBlock : Header)
  | finalizationFailed (finalization : Finalization)
  deriving DecidableEq, Repr

namespace L2BlockBuilder

/-- `L2BlockBuilder::new`. -/
def new : L2BlockBuilder := ⟨.new, [], []⟩

/-- Start a finalization in the background. -/
def triggerFinalizeBlock (builder : L2BlockBuilder) (finalization : Finalization) :
    L2BlockBuilder :=
  { builder with
    state := builder.state.setFinalizing (finalization.payload.parent.number + 1)
    finalizations := builder.finalizations ++ [finalization] }

/-- Drop a response: the guard that it holds releases the builder. -/
def release (builder : L2BlockBuilder) : L2BlockBuilder :=
  { builder with state := builder.state.release }

/-- A background event of a finalization that runs. -/
def progress (builder : L2BlockBuilder) : BuilderEvent → Option L2BlockBuilder
  | .finalized finalization newBlock =>
      if finalization ∈ builder.finalizations then
        let response := finalizeBlock finalization.anchorBlock finalization.payload newBlock
        some
          { builder with
            finalizations := builder.finalizations.erase finalization
            blocksProduced := builder.blocksProduced ++ [(finalization, response)] }
      else none
  | .finalizationFailed finalization =>
      if finalization ∈ builder.finalizations then
        some
          { builder with
            state := builder.state.release
            finalizations := builder.finalizations.erase finalization }
      else none

/-- The next response of the stream. -/
def nextProduced (builder : L2BlockBuilder) :
    Option ((Finalization × BlockBuilderResponse) × L2BlockBuilder) :=
  match builder.blocksProduced with
  | [] => none
  | produced :: rest => some (produced, { builder with blocksProduced := rest })

/-- The finalizations that have neither failed nor had their response consumed. -/
def unconsumed (builder : L2BlockBuilder) : List Finalization :=
  builder.finalizations ++ builder.blocksProduced.map Prod.fst

variable {builder next : L2BlockBuilder}

/-- The next response is the first one. -/
theorem nextProduced_eq {produced : Finalization × BlockBuilderResponse}
    (h : builder.nextProduced = some (produced, next)) :
    builder.blocksProduced = produced :: next.blocksProduced ∧
      next.finalizations = builder.finalizations ∧ next.state = builder.state := by
  unfold nextProduced at h
  split at h
  · cases h
  · next hproduced =>
      cases h
      exact ⟨hproduced, rfl, rfl⟩

/-- A block that arrives moves its finalization to the responses. -/
theorem progress_finalized {finalization : Finalization} {newBlock : Header}
    (h : builder.progress (.finalized finalization newBlock) = some next) :
    finalization ∈ builder.finalizations ∧ next.state = builder.state ∧
      next.finalizations = builder.finalizations.erase finalization ∧
      next.blocksProduced = builder.blocksProduced ++
        [(finalization, finalizeBlock finalization.anchorBlock finalization.payload newBlock)] := by
  simp only [progress] at h
  split at h
  · next hmem =>
      cases h
      exact ⟨hmem, rfl, rfl, rfl⟩
  · cases h

/-- A finalization that fails releases the builder. -/
theorem progress_finalizationFailed {finalization : Finalization}
    (h : builder.progress (.finalizationFailed finalization) = some next) :
    finalization ∈ builder.finalizations ∧ next.state = builder.state.release ∧
      next.finalizations = builder.finalizations.erase finalization ∧
      next.blocksProduced = builder.blocksProduced := by
  simp only [progress] at h
  split at h
  · next hmem =>
      cases h
      exact ⟨hmem, rfl, rfl, rfl⟩
  · cases h

/-- The finalizations in progress are the same after a block has arrived. -/
theorem unconsumed_finalized {finalization : Finalization} {newBlock : Header}
    (h : builder.progress (.finalized finalization newBlock) = some next) :
    next.unconsumed.Perm builder.unconsumed := by
  obtain ⟨hmem, -, hfinalizations, hproduced⟩ := progress_finalized h
  unfold unconsumed
  rw [hfinalizations, hproduced, List.map_append, ← List.append_assoc]
  refine List.perm_append_comm.trans ?_
  rw [← List.append_assoc]
  exact (List.perm_cons_erase hmem).symm.append_right _

/-- The finalization that has failed is no longer in progress. -/
theorem unconsumed_finalizationFailed {finalization : Finalization}
    (h : builder.progress (.finalizationFailed finalization) = some next) :
    builder.unconsumed.Perm (finalization :: next.unconsumed) := by
  obtain ⟨hmem, -, hfinalizations, hproduced⟩ := progress_finalizationFailed h
  unfold unconsumed
  rw [hfinalizations, hproduced]
  exact (List.perm_cons_erase hmem).append_right _

end L2BlockBuilder

end Mk1
