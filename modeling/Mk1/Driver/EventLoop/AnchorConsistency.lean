import Mk1.Driver.EventLoop.BuilderLock
import Mk1.Driver.EventLoop.GapFilling

/-!
# The anchors of built blocks and of their batches

A block is finalized with an anchor that is chosen at the L2 tick, and is put
into a batch when its response is consumed. In between, a submission can reset
the outstanding batch although a block is being finalized, a sync can replace
it, and the second check whether the block fits can disagree with the first.
Blocks that are downloaded to fill a gap are put into the batch, too, whatever
their anchors. `anchors_consistent` says that a block that the driver has built
is in a batch with the anchor that it was finalized with, unless one of these
happens.
-/

namespace Mk1

/-- Whether a payload asks for a block with this number and time: the number after that of its
parent, and its timestamp. -/
def BlockPayload.asksFor (payload : BlockPayload) (number timestamp : Nat) : Bool :=
  number = payload.parent.number + 1 && timestamp = payload.timestamp

/-- Whether an entry is the finalization of this block. -/
def LogEntry.builds (block : PreconfirmedBlock) : LogEntry → Bool
  | .finalized built _ => built = block
  | _ => false

namespace Driver

/-- Entries that are no finalizations. -/
def BuildsNothing (entries : List LogEntry) : Prop :=
  ∀ entry ∈ entries, ∀ block, entry.builds block = false

/-- A block has been finalized with this anchor, if the driver has built it at all. -/
def BuiltOn (log : List LogEntry) (block : PreconfirmedBlock) (anchor : Header) : Prop :=
  (∃ entry ∈ log, entry.builds block) → .finalized block anchor ∈ log

instance (log : List LogEntry) (block : PreconfirmedBlock) (anchor : Header) :
    Decidable (BuiltOn log block anchor) :=
  inferInstanceAs (Decidable ((∃ entry ∈ log, entry.builds block) → _))

/-- The blocks of a batch that the driver has built were finalized with the anchor of the batch. -/
def Consistent (log : List LogEntry) (batch : Batch) : Prop :=
  ∀ block ∈ batch.blocks, BuiltOn log block batch.anchorBlock

instance (log : List LogEntry) (batch : Batch) : Decidable (Consistent log batch) :=
  inferInstanceAs (Decidable (∀ block ∈ batch.blocks, _))

/-- Every batch was consistent when it was submitted, unless a sync had re-anchored it. -/
def SubmitsConsistent : List LogEntry → Prop
  | [] => True
  | .submitted req _ reorgReasons :: older =>
      ((∀ reason ∈ reorgReasons, reason.isReanchor = false) → Consistent older req.batch) ∧
        SubmitsConsistent older
  | _ :: older => SubmitsConsistent older

/-- Whether a sync is finalizing the blocks of its plan, which replaces the outstanding batch. -/
def finalizesPlan (driver : Driver) : Bool :=
  match driver.call with
  | some (.finalizeBatches _ _ _ _) => true
  | _ => false

/-- The outstanding batch is consistent, and so were the batches that were submitted. -/
structure AnchorsConsistent (driver : Driver) : Prop where
  outstanding : driver.finalizesPlan = false → Consistent driver.log driver.outstandingBatch
  submitted : SubmitsConsistent driver.log

/-! ## When anchors can differ -/

/-- A block that fit the outstanding batch and is being finalized has this anchor. -/
def keepsAnchor (driver : Driver) (anchor : Header) : Bool :=
  driver.blockBuilder.unconsumed.all fun finalization =>
    !finalization.fits || finalization.anchorBlock = anchor

/-- A submission that does not wait for the builder resets the outstanding batch to the anchor of
a block that fit it. -/
def resetsOnAnchor (driver : Driver) : Bool :=
  driver.blockBuilder.state.waitForIdle.isNone || driver.keepsAnchor driver.l1.anchor

/-- A block that did not fit the outstanding batch at its L2 tick only comes to a batch on another
anchor if the first block that is added does not fit this batch, and the missing blocks that the
driver has built are downloaded on the anchor of the response. -/
def placesOnAnchor (driver : Driver) (finalization : Finalization)
    (response : BlockBuilderResponse) (reads : ProducedReads) : Bool :=
  let newBlock := response.preconfirmedBlock
  let gap := driver.gapDownload newBlock reads
  let first := (gap.head?.map AnchoredBlock.intoPreconfirmed).getD newBlock
  (finalization.fits || driver.outstandingBatch.anchorBlock = response.anchor ||
    ((driver.outstandingBatch.retainBlocksBefore first.number).doesntFit (reads.estimates 0)
      first.txList).isSome) &&
    gap.all fun anchored => !driver.log.any (·.builds anchored.intoPreconfirmed) ||
      anchored.anchor = response.anchor

/-- No submission takes the anchor from a block that fit the outstanding batch and is being
finalized, a sync waits until the builder is idle and finalizes the blocks of its plan again without
an error, and blocks are placed on their anchors. -/
def anchorsStay (driver : Driver) : Event → Bool
  | .handle (.l1SlotTick timestamp _) =>
      !driver.reachesAgeLimit timestamp || driver.resetsOnAnchor
  | .handle (.blockProduced reads) =>
      driver.blockBuilder.nextProduced.all fun ((finalization, response), _) =>
        driver.placesOnAnchor finalization response reads
  | .resume answers =>
      match driver.call, driver.tickParts with
      | some (.awaitIdle newAnchor _), _ => driver.keepsAnchor newAnchor
      | some .syncBatches, _ => driver.blockBuilder.state.isFinalizing.isNone
      | some (.finalizeBatches plan anchor block _), _ =>
          (finalizeAgain driver.cfg plan anchor block answers.finalize).isSome
      | none, .submitInHandover :: _ => driver.status ≠ .inclusionOnly || driver.resetsOnAnchor
      | _, _ => true
  | _ => true

/-- Downloaded blocks that the driver has finalized come with an anchor that it has finalized them
with. -/
def DownloadedAsBuilt (log : List LogEntry) (blocks : List AnchoredBlock) : Prop :=
  ∀ anchored ∈ blocks, BuiltOn log anchored.intoPreconfirmed anchored.anchor

instance (log : List LogEntry) (blocks : List AnchoredBlock) :
    Decidable (DownloadedAsBuilt log blocks) :=
  inferInstanceAs (Decidable (∀ anchored ∈ blocks, _))

/-- What the clients and the clock answer. No block of the outstanding batch has the number and the
time of the one that an L2 tick asks for, a new block is the operator's and has the number and the
time that were asked for, and blocks are downloaded as they were built. -/
def answersAsBuilt (driver : Driver) : Event → Bool
  | .handle (.l2SlotTick timestamp reads) =>
      (driver.tickPayload timestamp reads).all fun payload =>
        driver.outstandingBatch.blocks.all fun block =>
          !payload.asksFor block.number block.timestamp
  | .handle (.blockProduced reads) =>
      driver.blockBuilder.nextProduced.all fun ((_, response), _) =>
        DownloadedAsBuilt driver.log (driver.gapDownload response.preconfirmedBlock reads)
  | .background (.builder (.finalized finalization newBlock)) =>
      finalization.payload.asksFor newBlock.number newBlock.timestamp &&
        newBlock.beneficiary = driver.cfg.operator
  | .resume answers =>
      match driver.call with
      | some .syncBatches =>
          answers.sync.softBlocks.all fun soft => DownloadedAsBuilt driver.log soft.blocks
      | some (.finalizeBatches _ _ block _) =>
          answers.finalize.newBlock.all fun newBlock =>
            newBlock.number = block.number && newBlock.timestamp = block.timestamp &&
              newBlock.beneficiary = driver.cfg.operator
      | _ => true
  | _ => true

variable {driver next : Driver}

/-! ## The log -/

/-- Entries that are no finalizations leave it open what has been built. -/
theorem BuildsNothing.builtOn {entries : List LogEntry} (h : BuildsNothing entries)
    {log : List LogEntry} {block : PreconfirmedBlock} {anchor : Header} :
    BuiltOn (entries ++ log) block anchor ↔ BuiltOn log block anchor := by
  have hmem : .finalized block anchor ∈ entries ++ log ↔ .finalized block anchor ∈ log := by
    refine ⟨fun hentry => (List.mem_append.mp hentry).resolve_left fun hnew => ?_,
      List.mem_append_right entries⟩
    have hfalse := h _ hnew block
    simp [LogEntry.builds] at hfalse
  have hbuilt : (∃ entry ∈ entries ++ log, entry.builds block) ↔
      ∃ entry ∈ log, entry.builds block := by
    constructor
    · rintro ⟨entry, hentry, heq⟩
      refine ⟨entry, (List.mem_append.mp hentry).resolve_left fun hnew => ?_, heq⟩
      rw [h entry hnew block] at heq
      cases heq
    · rintro ⟨entry, hentry, heq⟩
      exact ⟨entry, List.mem_append_right _ hentry, heq⟩
  unfold BuiltOn
  rw [hmem, hbuilt]

theorem buildsNothing_nil : BuildsNothing [] := fun _ hentry => absurd hentry List.not_mem_nil

theorem buildsNothing_singleton {entry : LogEntry} (h : ∀ block, entry.builds block = false) :
    BuildsNothing [entry] := by
  intro other hother
  rw [List.mem_singleton.mp hother]
  exact h

/-- Such entries keep batches consistent. -/
theorem BuildsNothing.consistent {entries : List LogEntry} (h : BuildsNothing entries)
    {log : List LogEntry} {batch : Batch} :
    Consistent (entries ++ log) batch ↔ Consistent log batch :=
  forall₂_congr fun _ _ => h.builtOn

/-- A block that is built on an anchor is so in the longer log. -/
theorem builtOn_of_mem {log : List LogEntry} {block : PreconfirmedBlock} {anchor : Header}
    (h : .finalized block anchor ∈ log) : BuiltOn log block anchor := fun _ => h

/-- Another entry for a finalized block changes nothing for other blocks. -/
theorem BuiltOn.finalized {log : List LogEntry} {block built : PreconfirmedBlock}
    {anchor newAnchor : Header} (h : BuiltOn log block anchor)
    (hsame : built = block → newAnchor = anchor) :
    BuiltOn (.finalized built newAnchor :: log) block anchor := by
  rintro ⟨entry, hentry, hbuilds⟩
  rcases List.mem_cons.mp hentry with rfl | hold
  · have hblock : built = block := by simpa [LogEntry.builds] using hbuilds
    rw [hblock, hsame hblock]
    exact List.mem_cons_self
  · exact List.mem_cons_of_mem _ (h ⟨entry, hold, hbuilds⟩)

/-- Consistent submissions can be added to a log. -/
theorem SubmitsConsistent.append {entries log : List LogEntry} (h : SubmitsConsistent log)
    (hentries : BuildsNothing entries)
    (hbatches : ∀ req status reorgReasons, .submitted req status reorgReasons ∈ entries →
      Consistent log req.batch) : SubmitsConsistent (entries ++ log) := by
  induction entries with
  | nil => exact h
  | cons entry rest ih =>
      have hrest : BuildsNothing rest := fun other hother =>
        hentries other (List.mem_cons_of_mem _ hother)
      have hsubmits := ih hrest fun req status reorgReasons hmem =>
        hbatches req status reorgReasons (List.mem_cons_of_mem _ hmem)
      cases entry with
      | submitted req status reorgReasons =>
          refine ⟨fun _ => ?_, hsubmits⟩
          exact hrest.consistent.mpr (hbatches req status reorgReasons List.mem_cons_self)
      | queueCleared => exact hsubmits
      | triggered finalization => exact hsubmits
      | finalized block anchor => exact hsubmits
      | l2Block block => exact hsubmits

/-- A batch with fewer blocks and the same anchor is consistent. -/
theorem Consistent.mono {log : List LogEntry} {batch smaller : Batch} (h : Consistent log batch)
    (hblocks : ∀ block ∈ smaller.blocks, block ∈ batch.blocks)
    (hanchor : smaller.anchorBlock = batch.anchorBlock) : Consistent log smaller := by
  intro block hblock
  rw [hanchor]
  exact h block (hblocks block hblock)

/-- A batch without blocks is consistent. -/
theorem consistent_of_empty {log : List LogEntry} {batch : Batch} (h : batch.isEmpty = true) :
    Consistent log batch := by
  intro block hblock
  rw [List.isEmpty_iff.mp h] at hblock
  cases hblock

/-! ## The invariant -/

/-- The builder is locked while a block is being finalized, responses carry the anchors of their
finalizations, and all blocks that have been built are the operator's. -/
structure Tracked (driver : Driver) : Prop where
  lock : driver.blockBuilder.LockCovers
  produced : ∀ finalization response,
    (finalization, response) ∈ driver.blockBuilder.blocksProduced →
      response.anchor = finalization.anchorBlock ∧
        .finalized response.preconfirmedBlock response.anchor ∈ driver.log
  own : ∀ block anchor, .finalized block anchor ∈ driver.log → block.coinbase = driver.cfg.operator
  submits : SubmitsConsistent driver.log

/-- A batch is ready for the blocks that are being finalized: those that fit have its anchor, and
none is in it already. -/
structure ReadyFor (builder : L2BlockBuilder) (batch : Batch) : Prop where
  anchor : ∀ finalization ∈ builder.unconsumed, finalization.fits = true →
    finalization.anchorBlock = batch.anchorBlock
  fresh : ∀ finalization ∈ builder.finalizations, ∀ block ∈ batch.blocks,
    finalization.payload.asksFor block.number block.timestamp = false

/-- No sync finalizes its plan, and the outstanding batch is consistent and ready, too. -/
structure Settled (driver : Driver) : Prop extends Tracked driver where
  outstanding : Consistent driver.log driver.outstandingBatch
  ready : ReadyFor driver.blockBuilder driver.outstandingBatch
  noPlan : driver.finalizesPlan = false

/-- When no block is being finalized, every batch is ready. -/
theorem readyFor_of_unconsumed {builder : L2BlockBuilder} (h : builder.unconsumed = [])
    (batch : Batch) : ReadyFor builder batch := by
  constructor
  · intro finalization hmem
    rw [h] at hmem
    cases hmem
  · intro finalization hmem
    rw [(List.append_eq_nil_iff.mp h).1] at hmem
    cases hmem

/-- A batch with fewer blocks and the same anchor is ready. -/
theorem ReadyFor.mono {builder : L2BlockBuilder} {batch smaller : Batch}
    (h : ReadyFor builder batch) (hblocks : ∀ block ∈ smaller.blocks, block ∈ batch.blocks)
    (hanchor : smaller.anchorBlock = batch.anchorBlock) : ReadyFor builder smaller where
  anchor finalization hmem hfits := (h.anchor finalization hmem hfits).trans hanchor.symm
  fresh finalization hmem block hblock := h.fresh finalization hmem block (hblocks block hblock)

/-- An empty batch on the anchor of the blocks that fit is ready. -/
theorem readyFor_of_keepsAnchor {batch : Batch} (hempty : batch.isEmpty = true)
    (hkeeps : driver.keepsAnchor batch.anchorBlock = true) :
    ReadyFor driver.blockBuilder batch := by
  constructor
  · intro finalization hmem hfits
    have hkept := List.all_eq_true.mp hkeeps finalization hmem
    simpa [hfits] using hkept
  · intro finalization _ block hblock
    rw [List.isEmpty_iff.mp hempty] at hblock
    cases hblock

/-- What has been seen of the state of the builder does not matter. -/
theorem ReadyFor.sameLock {builder next : L2BlockBuilder} {batch : Batch}
    (h : ReadyFor builder batch) (hbuilder : SameLock builder next) : ReadyFor next batch := by
  obtain ⟨state, -, rfl⟩ := hbuilder
  exact ⟨h.anchor, h.fresh⟩

/-- Another outstanding batch and consistent submissions. -/
theorem Tracked.change (h : driver.Tracked) (hcfg : next.cfg = driver.cfg)
    (hbuilder : SameLock driver.blockBuilder next.blockBuilder)
    (entries : List LogEntry) (hentries : BuildsNothing entries)
    (hlog : next.log = entries ++ driver.log)
    (hbatches : ∀ req status reorgReasons, .submitted req status reorgReasons ∈ entries →
      Consistent driver.log req.batch) : next.Tracked := by
  have hlock := hbuilder.lockCovers h.lock
  obtain ⟨state, -, hbuilder⟩ := hbuilder
  constructor
  · exact hlock
  · intro finalization response hmem
    rw [hbuilder] at hmem
    obtain ⟨hanchor, hbuilt⟩ := h.produced finalization response hmem
    rw [hlog]
    exact ⟨hanchor, List.mem_append_right _ hbuilt⟩
  · intro block anchor hmem
    rw [hlog] at hmem
    rw [hcfg]
    refine h.own block anchor ((List.mem_append.mp hmem).resolve_left fun hnew => ?_)
    have hfalse := hentries _ hnew block
    simp [LogEntry.builds] at hfalse
  · rw [hlog]
    exact h.submits.append hentries hbatches

/-- Another outstanding batch that is consistent and ready. -/
theorem Tracked.settle (h : driver.Tracked) (hplan : next.finalizesPlan = false)
    (hcfg : next.cfg = driver.cfg)
    (hbuilder : SameLock driver.blockBuilder next.blockBuilder)
    (hready : ReadyFor driver.blockBuilder next.outstandingBatch)
    (hconsistent : Consistent driver.log next.outstandingBatch)
    (entries : List LogEntry) (hentries : BuildsNothing entries)
    (hlog : next.log = entries ++ driver.log)
    (hbatches : ∀ req status reorgReasons, .submitted req status reorgReasons ∈ entries →
      Consistent driver.log req.batch) : next.Settled := by
  refine ⟨h.change hcfg hbuilder entries hentries hlog hbatches, ?_, hready.sameLock hbuilder,
    hplan⟩
  rw [hlog]
  exact hentries.consistent.mpr hconsistent

/-- Changes that leave the outstanding batch and the log alone. -/
theorem Settled.same_batch (h : driver.Settled) (hplan : next.finalizesPlan = false)
    (hcfg : next.cfg = driver.cfg)
    (hbuilder : SameLock driver.blockBuilder next.blockBuilder)
    (houtstanding : next.outstandingBatch = driver.outstandingBatch)
    (hlog : next.log = driver.log) : next.Settled := by
  refine h.settle hplan hcfg hbuilder ?_ ?_ [] buildsNothing_nil hlog (by simp)
  · rw [houtstanding]
    exact h.ready
  · rw [houtstanding]
    exact h.outstanding

/-- A step that can only take blocks out of the outstanding batch. -/
theorem Settled.fewer_blocks (h : driver.Settled) (hplan : next.finalizesPlan = false)
    (hcfg : next.cfg = driver.cfg)
    (hbuilder : SameLock driver.blockBuilder next.blockBuilder)
    (hblocks : ∀ block ∈ next.outstandingBatch.blocks, block ∈ driver.outstandingBatch.blocks)
    (hanchor : next.outstandingBatch.anchorBlock = driver.outstandingBatch.anchorBlock)
    (entries : List LogEntry) (hentries : BuildsNothing entries)
    (hlog : next.log = entries ++ driver.log)
    (hbatches : ∀ req status reorgReasons, .submitted req status reorgReasons ∈ entries →
      Consistent driver.log req.batch) : next.Settled :=
  h.settle hplan hcfg hbuilder (h.ready.mono hblocks hanchor) (h.outstanding.mono hblocks hanchor)
    entries hentries hlog hbatches

/-- A quiet step does not begin to finalize the blocks of a plan. -/
theorem Quiet.finalizesPlan (hquiet : Quiet driver next) (hplan : driver.finalizesPlan = false) :
    next.finalizesPlan = false := by
  unfold Driver.finalizesPlan
  obtain heq | heq | heq | heq | heq := hquiet.call
  · rw [heq]
    exact hplan
  · rw [heq]
  · rw [heq]
  · rw [heq]
  · rw [heq]

/-- A quiet step leaves the batches consistent. -/
theorem Settled.quiet (h : driver.Settled) (hquiet : Quiet driver next) : next.Settled :=
  h.same_batch (hquiet.finalizesPlan h.noPlan) hquiet.cfg hquiet.builder hquiet.outstandingBatch
    hquiet.log

/-- Submitting and resetting the outstanding batch leaves it consistent, if no block that fit has
another anchor. -/
theorem Settled.submitAndReset (h : driver.Settled) {newAnchor : Header}
    (hkeeps : driver.keepsAnchor newAnchor = true) (deadline : Nat) :
    (driver.submitAndReset newAnchor deadline).Settled := by
  obtain heq | ⟨-, heq⟩ := driver.submitAndReset_cases newAnchor deadline
  · rw [heq]
    exact h.settle h.noPlan rfl (.refl _) (readyFor_of_keepsAnchor rfl hkeeps)
      (consistent_of_empty rfl) [] buildsNothing_nil rfl (by simp)
  · rw [heq]
    refine h.settle h.noPlan rfl (.refl _) (readyFor_of_keepsAnchor rfl hkeeps)
      (consistent_of_empty rfl) [_] (buildsNothing_singleton fun _ => rfl) rfl ?_
    intro req status reorgReasons hmem
    cases List.mem_singleton.mp hmem
    exact h.outstanding

/-- Submitting the local batch leaves it consistent, unless it does not wait and a block that fit
has another anchor. -/
theorem Settled.submitLocalOutstandingBatch (h : driver.Settled)
    (hresets : driver.resetsOnAnchor = true) (deadline : Nat) :
    (driver.submitLocalOutstandingBatch deadline).Settled := by
  unfold Driver.submitLocalOutstandingBatch
  cases hwait : driver.blockBuilder.state.waitForIdle with
  | none => exact h.same_batch rfl rfl (.refl _) rfl rfl
  | some state =>
      have hsame := driver.blockBuilder.state.isFinalizing_waitForIdle hwait
      have hkeeps : driver.keepsAnchor driver.l1.anchor = true := by
        simpa [resetsOnAnchor, hwait] using hresets
      refine Settled.submitAndReset ?_ ?_ deadline
      · exact h.same_batch h.noPlan rfl ⟨state, hsame, rfl⟩ rfl rfl
      · exact hkeeps

/-! ## Placing blocks -/

/-- Adding a block to a consistent batch leaves it consistent, if the block was built on this anchor
and the batch has the same anchor or the block does not fit. -/
theorem addBlock_consistent (driver : Driver)
    (hbatch : Consistent driver.log driver.outstandingBatch)
    {anchor : Header} (estimate : CompressionEstimate) {block : PreconfirmedBlock}
    (hblock : BuiltOn driver.log block anchor)
    (hplace : driver.outstandingBatch.anchorBlock = anchor ∨
      ((driver.outstandingBatch.retainBlocksBefore block.number).doesntFit estimate
        block.txList).isSome) :
    ∃ entries outstandingBatch, driver.addBlock anchor estimate block =
        { driver with outstandingBatch := outstandingBatch, log := entries ++ driver.log } ∧
      BuildsNothing entries ∧
      (∀ req status reorgReasons, .submitted req status reorgReasons ∈ entries →
        Consistent driver.log req.batch) ∧
      Consistent driver.log outstandingBatch ∧ outstandingBatch.anchorBlock = anchor := by
  have hretained : Consistent driver.log
      (driver.outstandingBatch.retainBlocksBefore block.number) :=
    hbatch.mono (fun _ hother => (List.mem_filter.mp hother).1) rfl
  have hcases := driver.addBlock_cases anchor estimate block
  dsimp only at hcases
  unfold Batch.addBlockAndResetIfFull at hcases
  dsimp only at hcases
  cases hfit : (driver.outstandingBatch.retainBlocksBefore block.number).doesntFit estimate
      block.txList with
  | none =>
      rw [hfit] at hcases hplace
      have hanchor : driver.outstandingBatch.anchorBlock = anchor :=
        hplace.resolve_right Bool.false_ne_true
      obtain heq | ⟨-, reason, fullBatch, hfull, -⟩ := hcases
      · refine ⟨[], _, heq, buildsNothing_nil, by simp, fun other hother => ?_, hanchor⟩
        rcases List.mem_append.mp hother with hold | hnew
        · exact hretained other hold
        · rw [List.mem_singleton.mp hnew]
          exact hanchor ▸ hblock
      · cases hfull
  | some reason =>
      rw [hfit] at hcases
      have hpushed : Consistent driver.log
          (((driver.outstandingBatch.retainBlocksBefore block.number).takeAndReset anchor).2.push
            block) := by
        intro other hother
        rw [List.mem_singleton.mp hother]
        exact hblock
      obtain heq | ⟨-, reason', fullBatch, hfull, heq⟩ := hcases
      · exact ⟨[], _, heq, by simp [BuildsNothing, LogEntry.builds], by simp, hpushed, rfl⟩
      · cases hfull
        refine ⟨[_], _, heq, by simp [BuildsNothing, LogEntry.builds], ?_, hpushed, rfl⟩
        intro req status reorgReasons hmem
        cases List.mem_singleton.mp hmem
        exact hretained

/-- Adding blocks that were built on this anchor leaves the outstanding batch consistent, if the
batch has the same anchor or the first block does not fit. -/
theorem addBlocks_consistent (driver : Driver)
    (hbatch : Consistent driver.log driver.outstandingBatch)
    {anchor : Header} (estimates : Estimates) {blocks : List PreconfirmedBlock}
    (hblocks : ∀ block ∈ blocks, BuiltOn driver.log block anchor)
    (hplace : driver.outstandingBatch.anchorBlock = anchor ∨ ∀ first ∈ blocks.head?,
      ((driver.outstandingBatch.retainBlocksBefore first.number).doesntFit (estimates 0)
        first.txList).isSome) :
    ∃ entries outstandingBatch, driver.addBlocks anchor estimates blocks =
        { driver with outstandingBatch := outstandingBatch, log := entries ++ driver.log } ∧
      BuildsNothing entries ∧
      (∀ req status reorgReasons, .submitted req status reorgReasons ∈ entries →
        Consistent driver.log req.batch) ∧
      Consistent driver.log outstandingBatch := by
  induction blocks generalizing driver estimates with
  | nil => exact ⟨[], driver.outstandingBatch, rfl, buildsNothing_nil, by simp, hbatch⟩
  | cons block rest ih =>
      obtain ⟨first, batch, hadd, hfirst, hsubmitted, hbatch', hanchor⟩ :=
        driver.addBlock_consistent hbatch (estimates 0) (hblocks block List.mem_cons_self)
          (hplace.imp_right fun hfirst => hfirst block rfl)
      -- the batch after the first addition has the anchor
      obtain ⟨entries, final, hadds, hentries, hsubmitted', hfinal⟩ :=
        ih { driver with outstandingBatch := batch, log := first ++ driver.log }
          (hfirst.consistent.mpr hbatch') estimates.tail
          (fun other hother => hfirst.builtOn.mpr (hblocks other (List.mem_cons_of_mem _ hother)))
          (.inl hanchor)
      refine ⟨entries ++ first, final, ?_, ?_, ?_, hfirst.consistent.mp hfinal⟩
      · unfold addBlocks
        rw [hadd, hadds]
        simp
      · intro entry hentry
        rcases List.mem_append.mp hentry with hlater | hfirst'
        · exact hentries entry hlater
        · exact hfirst entry hfirst'
      · intro req status reorgReasons hmem
        rcases List.mem_append.mp hmem with hlater | hfirst'
        · exact hfirst.consistent.mp (hsubmitted' req status reorgReasons hlater)
        · exact hsubmitted req status reorgReasons hfirst'

/-- A response that is consumed leaves nothing to finalize. -/
theorem Settled.consume (h : driver.Settled) {finalization : Finalization}
    {response : BlockBuilderResponse} {rest : L2BlockBuilder}
    (hnext : driver.blockBuilder.nextProduced = some ((finalization, response), rest)) :
    { driver with blockBuilder := rest.release }.Settled ∧ rest.release.unconsumed = [] := by
  obtain ⟨hempty, hlock⟩ := h.lock.consume hnext
  obtain ⟨hlist, -, -⟩ := L2BlockBuilder.nextProduced_eq hnext
  refine ⟨⟨⟨hlock, ?_, h.own, h.submits⟩, h.outstanding, readyFor_of_unconsumed hempty _,
    h.noPlan⟩, hempty⟩
  intro other otherResponse hmem
  refine h.produced other otherResponse ?_
  rw [hlist]
  exact List.mem_cons_of_mem _ hmem

/-- The blocks that are added for a response were built on its anchor. -/
theorem builtOn_of_added {finalization : Finalization} {response : BlockBuilderResponse}
    {reads : ProducedReads} (hplace : driver.placesOnAnchor finalization response reads = true)
    (hdownloaded : DownloadedAsBuilt driver.log
      (driver.gapDownload response.preconfirmedBlock reads))
    (hbuilt : .finalized response.preconfirmedBlock response.anchor ∈ driver.log) :
    ∀ block ∈ driver.gapBlocks response.preconfirmedBlock reads ++ [response.preconfirmedBlock],
      BuiltOn driver.log block response.anchor := by
  intro block hblock
  rcases List.mem_append.mp hblock with hgap | hnew
  · rw [gapBlocks_eq_map] at hgap
    obtain ⟨anchored, hanchored, rfl⟩ := List.mem_map.mp hgap
    intro hentry
    have hanchor := List.all_eq_true.mp (Bool.and_eq_true_iff.mp hplace).2 anchored hanchored
    rw [List.any_eq_true.mpr hentry, Bool.not_true, Bool.false_or] at hanchor
    rw [← of_decide_eq_true hanchor]
    exact hdownloaded anchored hanchored hentry
  · rw [List.mem_singleton.mp hnew]
    exact builtOn_of_mem hbuilt

/-- The first block that is added for a response. -/
theorem head_added {newBlock first : PreconfirmedBlock} {reads : ProducedReads}
    (hfirst : first ∈ (driver.gapBlocks newBlock reads ++ [newBlock]).head?) :
    first = ((driver.gapDownload newBlock reads).head?.map AnchoredBlock.intoPreconfirmed).getD
      newBlock := by
  rw [gapBlocks_eq_map] at hfirst
  cases hgap : driver.gapDownload newBlock reads with
  | nil =>
      rw [hgap] at hfirst
      exact (Option.some.inj hfirst).symm
  | cons anchored rest =>
      rw [hgap] at hfirst
      exact (Option.some.inj hfirst).symm

/-- A block that is produced is put into a batch with its anchor. -/
theorem Settled.blockProduced (h : driver.Settled) {reads : ProducedReads}
    (hstays : driver.anchorsStay (.handle (.blockProduced reads)) = true)
    (hanswers : driver.answersAsBuilt (.handle (.blockProduced reads)) = true)
    (hnext : driver.blockProduced reads = some next) : next.Settled := by
  obtain ⟨⟨⟨finalization, response⟩, rest⟩, hproduced, hnext⟩ := Option.bind_eq_some_iff.mp hnext
  cases hnext
  obtain ⟨hreleased, hempty⟩ := h.consume hproduced
  obtain ⟨hlist, -, -⟩ := L2BlockBuilder.nextProduced_eq hproduced
  obtain ⟨hanchor, hbuilt⟩ :=
    h.produced finalization response (by rw [hlist]; exact List.mem_cons_self)
  simp only [anchorsStay, hproduced, Option.all_some] at hstays
  simp only [answersAsBuilt, hproduced, Option.all_some] at hanswers
  -- a block that fit was finalized with the anchor that the outstanding batch still has
  have hplace : driver.outstandingBatch.anchorBlock = response.anchor ∨
      ∀ first ∈ (driver.gapBlocks response.preconfirmedBlock reads ++
        [response.preconfirmedBlock]).head?,
        ((driver.outstandingBatch.retainBlocksBefore first.number).doesntFit (reads.estimates 0)
          first.txList).isSome := by
    rcases Bool.or_eq_true_iff.mp (Bool.and_eq_true_iff.mp hstays).1 with hsame | hdoesnt
    · refine .inl ?_
      rcases Bool.or_eq_true_iff.mp hsame with hfits | hsame
      · have hmem : finalization ∈ driver.blockBuilder.unconsumed :=
          List.mem_append_right _
            (List.mem_map.mpr ⟨_, by rw [hlist]; exact List.mem_cons_self, rfl⟩)
        rw [hanchor]
        exact (h.ready.anchor finalization hmem hfits).symm
      · exact of_decide_eq_true hsame
    · refine .inr fun first hfirst => ?_
      rw [head_added hfirst]
      exact hdoesnt
  obtain ⟨entries, batch, hadds, hentries, hsubmitted, hbatch⟩ :=
    addBlocks_consistent { driver with blockBuilder := rest.release } hreleased.outstanding
      reads.estimates (builtOn_of_added hstays (of_decide_eq_true hanswers) hbuilt) hplace
  unfold onProducedBlock
  rw [hadds]
  exact hreleased.settle hreleased.noPlan rfl (.refl _) (readyFor_of_unconsumed hempty _) hbatch
    entries hentries rfl hsubmitted

/-! ## The steps -/

/-- A block that is triggered and fits the outstanding batch gets its anchor, and is not in it
already. -/
theorem Settled.onL2SlotTick (h : driver.Settled) {timestamp : Nat} {reads : L2TickReads}
    (hanswers : driver.answersAsBuilt (.handle (.l2SlotTick timestamp reads)) = true) :
    (driver.onL2SlotTick timestamp reads).Settled := by
  obtain heq | ⟨payload, -, hidle, hasked, -, heq⟩ := driver.onL2SlotTick_cases timestamp reads
  · rw [heq]
    exact h
  · rw [heq]
    have hempty := h.lock.unconsumed_of_idle hidle
    obtain ⟨hfinalizations, hproduced⟩ := List.append_eq_nil_iff.mp hempty
    obtain ⟨finalization, hfinalization, hpayload, hfits⟩ : ∃ finalization,
        driver.triggerFinalizeBlock reads.estimate payload =
          { driver with
            blockBuilder := driver.blockBuilder.triggerFinalizeBlock finalization
            log := .triggered finalization :: driver.log } ∧
        finalization.payload = payload ∧
        (finalization.fits = true →
          finalization.anchorBlock = driver.outstandingBatch.anchorBlock) := by
      refine ⟨_, rfl, rfl, fun hfits => ?_⟩
      dsimp only at hfits ⊢
      unfold anchorForBlock
      rw [Option.isNone_iff_eq_none.mp hfits]
    have hrecorded : (driver.record (.triggered finalization)).Settled :=
      h.settle h.noPlan rfl (.refl _) h.ready h.outstanding [.triggered finalization]
        (buildsNothing_singleton fun _ => rfl) rfl (by simp)
    rw [hfinalization]
    refine ⟨⟨h.lock.triggerFinalizeBlock hidle _, hrecorded.produced, hrecorded.own,
      hrecorded.submits⟩, hrecorded.outstanding, ⟨?_, ?_⟩, hrecorded.noPlan⟩
    · intro other hmem hfit
      have hnew : other ∈ driver.blockBuilder.finalizations ++ [finalization] ++
          driver.blockBuilder.blocksProduced.map Prod.fst := hmem
      rw [hfinalizations, hproduced] at hnew
      obtain rfl := List.mem_singleton.mp hnew
      exact hfits hfit
    · intro other hmem block hblock
      have hnew : other ∈ driver.blockBuilder.finalizations ++ [finalization] := hmem
      rw [hfinalizations] at hnew
      obtain rfl := List.mem_singleton.mp hnew
      rw [hpayload]
      simp only [answersAsBuilt, hasked, Option.all_some] at hanswers
      exact Bool.not_eq_true' _ |>.mp (List.all_eq_true.mp hanswers block hblock)

/-- New information about the L1 only changes the anchor of an empty batch, when no block is being
finalized. -/
theorem Settled.updateL1Info (h : driver.Settled) (l1Header : Header) (reads : L1InfoReads) :
    (driver.updateL1Info l1Header reads).1.Settled := by
  obtain ⟨l2, outstandingBatch, lookahead, status, heq, htrimmed⟩ :=
    driver.updateL1Info_eq l1Header reads
  rw [heq]
  obtain rfl | ⟨origin, rfl | ⟨hempty, hidle, rfl⟩⟩ := htrimmed
  · exact h.same_batch h.noPlan rfl (.refl _) rfl rfl
  · exact h.fewer_blocks h.noPlan rfl (.refl _) (fun _ hblock => (List.mem_filter.mp hblock).1) rfl
      [] buildsNothing_nil rfl (by simp)
  · exact h.settle h.noPlan rfl (.refl _)
      (readyFor_of_unconsumed (h.lock.unconsumed_of_idle hidle) _) (consistent_of_empty hempty) []
      buildsNothing_nil rfl (by simp)

/-- An L2 block can only remove blocks from the outstanding batch. -/
theorem Settled.onL2Block (h : driver.Settled) (l2Block : Block) (reads : L2BlockReads) :
    (driver.onL2Block l2Block reads).Settled := by
  have hrecorded : (driver.record (.l2Block l2Block)).Settled :=
    h.settle h.noPlan rfl (.refl _) h.ready h.outstanding [.l2Block l2Block]
      (buildsNothing_singleton fun _ => rfl) rfl (by simp)
  obtain ⟨l1, heq, -⟩ := driver.onL2Block_eq l2Block reads
  obtain ⟨-, hreorg⟩ | ⟨-, l2, hreorg⟩ :=
    (driver.record (.l2Block l2Block)).onL2Reorg_cases l2Block reads.headL1Origin
  · rw [heq, hreorg]
    exact hrecorded.same_batch hrecorded.noPlan rfl (.refl _) rfl rfl
  · rw [heq, hreorg]
    exact hrecorded.fewer_blocks hrecorded.noPlan rfl (.refl _)
      (fun _ hblock => (List.mem_filter.mp hblock).1) rfl [.queueCleared]
      (buildsNothing_singleton fun _ => rfl) rfl (by simp)

/-- The events of the event loop leave the batches consistent. -/
theorem Settled.handle (h : driver.Settled) {event : LoopEvent}
    (hstays : driver.anchorsStay (.handle event) = true)
    (hanswers : driver.answersAsBuilt (.handle event) = true)
    (hnext : driver.handle event = some next) : next.Settled := by
  cases event with
  | l1SlotTick timestamp currentSlot =>
      cases hnext
      obtain hquiet | ⟨hlimit, headSlot, tickParts, deadline, heq⟩ :=
        driver.onL1SlotTick_cases timestamp currentSlot
      · exact h.quiet hquiet
      · rw [heq]
        refine Settled.submitLocalOutstandingBatch ?_ ?_ deadline
        · exact h.same_batch h.noPlan rfl (.refl _) rfl rfl
        · have hresets : driver.resetsOnAnchor = true := by
            simpa [anchorsStay, hlimit] using hstays
          exact hresets
  | l2SlotTick timestamp reads =>
      cases hnext
      exact h.onL2SlotTick hanswers
  | taikoPreconfEvent currentEpoch reads =>
      cases hnext
      exact h.quiet (driver.quiet_onTaikoPreconfEvent currentEpoch reads)
  | blockProduced reads => exact h.blockProduced hstays hanswers hnext
  | l1Block l1Header reads =>
      cases hnext
      exact (h.updateL1Info l1Header reads).quiet (driver.quiet_onL1Block l1Header reads)
  | l2Block l2Block reads =>
      cases hnext
      exact h.onL2Block l2Block reads
  | operatorChanged =>
      cases hnext
      exact h.quiet driver.quiet_onOperatorChanged
  | batchProposalErr e =>
      cases hnext
      exact h.quiet (driver.quiet_onBatchProposalErr e)

/-- The blocks of a plan but these have been finalized again on the anchors of their batches. -/
def FinalizedUpTo (driver : Driver) (plan : SyncPlan) (left : List (Header × PreconfirmedBlock)) :
    Prop :=
  ∃ done, blocksToFinalize plan = done ++ left ∧
    ∀ pair ∈ done, pair.2.coinbase = driver.cfg.operator → .finalized pair.2 pair.1 ∈ driver.log

/-- The batches are consistent, or a sync will make them so while nothing else is being
finalized. -/
inductive AnchorsTracked (driver : Driver) : Prop where
  | settled (h : driver.Settled)
  | finalizing (plan : SyncPlan) (anchor : Header) (block : PreconfirmedBlock)
      (rest : List (Header × PreconfirmedBlock))
      (hcall : driver.call = some (.finalizeBatches plan anchor block rest))
      (htracked : driver.Tracked) (hempty : driver.blockBuilder.unconsumed = [])
      (hdone : driver.FinalizedUpTo plan ((anchor, block) :: rest))

/-- The batches of a plan whose blocks have all been finalized again are consistent. -/
theorem Tracked.consistent_of_finalized (h : driver.Tracked) {plan : SyncPlan}
    (hdone : driver.FinalizedUpTo plan []) :
    ∀ batch ∈ plan.batches.batches, Consistent driver.log batch := by
  intro batch hbatch block hblock
  rintro ⟨entry, hentry, hbuilds⟩
  obtain ⟨done, hblocks, hdone⟩ := hdone
  rw [List.append_nil] at hblocks
  have hpair : (batch.anchorBlock, block) ∈ blocksToFinalize plan :=
    List.mem_flatMap.mpr ⟨batch, hbatch, List.mem_map.mpr ⟨block, hblock, rfl⟩⟩
  refine hdone _ (hblocks ▸ hpair) ?_
  cases entry with
  | finalized built anchor =>
      have hsame : built = block := by simpa [LogEntry.builds] using hbuilds
      exact hsame ▸ h.own built anchor hentry
  | submitted req status reorgReasons => cases hbuilds
  | queueCleared => cases hbuilds
  | triggered finalization => cases hbuilds
  | l2Block l2Block => cases hbuilds

/-- Adopting a plan of consistent batches leaves the batches consistent. -/
theorem Tracked.adoptPlan (h : driver.Tracked) {plan : SyncPlan}
    (hcall : driver.finalizesPlan = false) (hempty : driver.blockBuilder.unconsumed = [])
    (hplan : ∀ batch ∈ plan.batches.batches, Consistent driver.log batch) :
    (driver.adoptPlan plan).Settled := by
  obtain ⟨entries, outstandingBatch, heq, hadopted, hentries⟩ := driver.adoptPlan_eq plan
  rw [heq]
  refine h.settle hcall rfl (.refl _) (readyFor_of_unconsumed hempty _) ?_ entries ?_ rfl ?_
  · obtain hmem | hnew := hadopted
    · exact hplan _ hmem
    · rw [hnew]
      exact consistent_of_empty rfl
  · intro entry hentry
    obtain ⟨-, batch, -, rfl⟩ := hentries entry hentry
    exact fun _ => rfl
  · intro req status reorgReasons hmem
    obtain ⟨-, batch, hbatch, heq⟩ := hentries _ hmem
    cases heq
    exact hplan batch hbatch

/-- Going on with a plan whose first blocks have been finalized again. -/
theorem Tracked.finalizeNext (h : driver.Tracked) {plan : SyncPlan}
    {left : List (Header × PreconfirmedBlock)} (hcall : driver.finalizesPlan = false)
    (hempty : driver.blockBuilder.unconsumed = []) (hdone : driver.FinalizedUpTo plan left) :
    (driver.finalizeNext plan left).AnchorsTracked := by
  obtain ⟨rfl, heq⟩ | ⟨anchor, block, rest, rfl, heq⟩ := driver.finalizeNext_cases plan left
  · rw [heq]
    exact .settled (h.adoptPlan hcall hempty (h.consistent_of_finalized hdone))
  · rw [heq]
    refine .finalizing plan anchor block rest rfl ?_ hempty hdone
    exact h.change rfl (.refl _) [] buildsNothing_nil rfl (by simp)

/-- A plan without reorg reasons keeps the soft blocks on the anchors that they were built on. -/
theorem consistent_of_sync {log : List LogEntry} {cfg : RuntimeConfig} {status : DriverStatus}
    {reads : SyncReads} {plan : SyncPlan} (hsync : Syncer.sync cfg status reads = some plan)
    (hreasons : plan.reorgReasons = [])
    (hsoft : ∀ soft, reads.softBlocks = some soft → DownloadedAsBuilt log soft.blocks) :
    ∀ batch ∈ plan.batches.batches, Consistent log batch := by
  intro batch hbatch block hblock
  obtain hnone | ⟨soft, hdownload, hkeeps⟩ := sync_anchors hsync hreasons
  · rw [hnone batch hbatch] at hblock
    cases hblock
  · obtain ⟨anchored, hanchored, rfl, hanchor⟩ := hkeeps batch hbatch block hblock
    rw [← hanchor]
    exact hsoft soft hdownload anchored hanchored

/-- A sync of an idle builder adopts a plan of consistent batches, or starts to finalize its
blocks. -/
theorem Settled.syncBatches (h : driver.Settled) {reads : SyncReads}
    (hidle : driver.blockBuilder.state.isFinalizing = none)
    (hsoft : ∀ soft, reads.softBlocks = some soft →
      DownloadedAsBuilt driver.log soft.blocks) :
    (driver.syncBatches reads).AnchorsTracked := by
  have hempty := h.lock.unconsumed_of_idle hidle
  obtain hquiet | ⟨plan, hsync, heq⟩ := driver.syncBatches_cases reads
  · exact .settled (h.quiet hquiet)
  · rw [heq]
    by_cases hreasons : plan.reorgReasons = []
    · have hadopt : driver.proposePlan plan = driver.adoptPlan plan := by
        simp [proposePlan, hreasons]
      rw [hadopt]
      exact .settled (h.adoptPlan h.noPlan hempty (consistent_of_sync hsync hreasons hsoft))
    · have hpropose : driver.proposePlan plan =
          driver.finalizeNext plan (blocksToFinalize plan) := by
        simp [proposePlan, Syncer.canPropose_of_reorgReasons hsync hreasons, hreasons]
      rw [hpropose]
      exact h.toTracked.finalizeNext h.noPlan hempty ⟨[], rfl, by simp⟩

/-- A block of a plan that is finalized again is on the anchor of its batch. -/
theorem Tracked.finalizeBatches (h : driver.Tracked) {plan : SyncPlan} {anchor : Header}
    {block : PreconfirmedBlock} {rest : List (Header × PreconfirmedBlock)} {reads : FinalizeReads}
    (hcall : driver.finalizesPlan = false) (hempty : driver.blockBuilder.unconsumed = [])
    (hdone : driver.FinalizedUpTo plan ((anchor, block) :: rest))
    (hagain : (finalizeAgain driver.cfg plan anchor block reads).isSome)
    (hnewBlock : ∀ newBlock, reads.newBlock = some newBlock → newBlock.number = block.number ∧
      newBlock.timestamp = block.timestamp ∧ newBlock.beneficiary = driver.cfg.operator) :
    (driver.finalizeBatches plan anchor block rest reads).AnchorsTracked := by
  obtain ⟨herror, -⟩ | ⟨response, hresponse, heq⟩ :=
    driver.finalizeBatches_cases plan anchor block rest reads
  · rw [herror] at hagain
    cases hagain
  obtain ⟨newBlock, hread, rfl⟩ := finalizeAgain_eq hresponse
  obtain ⟨hnumber, htimestamp, hbeneficiary⟩ := hnewBlock newBlock hread
  rw [heq]
  obtain ⟨done, hblocks, hdone⟩ := hdone
  refine Tracked.finalizeNext ?_ hcall hempty ?_
  · constructor
    · exact ⟨h.lock.single, fun hne => absurd hempty hne⟩
    · intro finalization response hmem
      obtain ⟨hanchor, hbuilt⟩ := h.produced finalization response hmem
      exact ⟨hanchor, List.mem_cons_of_mem _ hbuilt⟩
    · intro other otherAnchor hmem
      rcases List.mem_cons.mp hmem with hsame | hold
      · cases hsame
        exact hbeneficiary
      · exact h.own other otherAnchor hold
    · exact h.submits
  · refine ⟨done ++ [(anchor, block)], by simp [hblocks], fun pair hpair hours => ?_⟩
    rcases List.mem_append.mp hpair with hold | hnew
    · exact List.mem_cons_of_mem _ (hdone pair hold hours)
    · obtain rfl := List.mem_singleton.mp hnew
      -- the block of the operator comes back as it was
      have hsame : PreconfirmedBlock.new newBlock block.txList = block := by
        unfold PreconfirmedBlock.new
        rw [hnumber, htimestamp, hbeneficiary, ← hours]
      rw [hsame]
      exact List.mem_cons_self

/-- The calls of a handler leave the batches consistent. -/
theorem AnchorsTracked.perform (h : driver.AnchorsTracked) {call : Call} {answers : Answers}
    (hcall : driver.call = some call) (hstays : driver.anchorsStay (.resume answers) = true)
    (hanswers : driver.answersAsBuilt (.resume answers) = true)
    (hnext : { driver with call := none }.perform answers call = some next) :
    next.AnchorsTracked := by
  cases h with
  | finalizing plan anchor block rest hfinalize htracked hempty hdone =>
      obtain rfl := Option.some.inj (hfinalize.symm.trans hcall)
      cases hnext
      simp only [anchorsStay, hcall] at hstays
      have hreleased : { driver with call := none }.Tracked :=
        htracked.change rfl (.refl _) [] buildsNothing_nil rfl (by simp)
      refine hreleased.finalizeBatches rfl hempty hdone hstays ?_
      intro newBlock hnewBlock
      simpa [answersAsBuilt, hcall, hnewBlock, and_assoc] using hanswers
  | settled h =>
      have hreleased : { driver with call := none }.Settled :=
        h.same_batch rfl rfl (.refl _) rfl rfl
      cases call with
      | startupSync =>
          cases hnext
          obtain hquiet | ⟨l1Header, hquiet⟩ :=
            quiet_startupSync { driver with call := none } answers.l1Tip answers.l1Info
          · exact .settled (hreleased.quiet hquiet)
          · exact .settled ((hreleased.updateL1Info l1Header answers.l1Info).quiet hquiet)
      | awaitIdle newAnchor deadline =>
          obtain ⟨polled, hpoll, rfl⟩ := Option.map_eq_some_iff.mp hnext
          obtain ⟨state, hsame, rfl⟩ := pollIdle_eq hpoll
          simp only [anchorsStay, hcall] at hstays
          refine .settled (Settled.submitAndReset ?_ ?_ deadline)
          · exact hreleased.same_batch rfl rfl ⟨state, hsame, rfl⟩ rfl rfl
          · exact hstays
      | syncLookahead =>
          cases hnext
          exact .settled (hreleased.quiet (quiet_startSync _ answers.lookahead))
      | syncAwaitIdle =>
          obtain ⟨polled, hpoll, rfl⟩ := Option.map_eq_some_iff.mp hnext
          exact .settled (hreleased.quiet (quiet_syncAwaitIdle hpoll))
      | syncBatches =>
          cases hnext
          simp only [anchorsStay, hcall] at hstays
          refine hreleased.syncBatches (Option.isNone_iff_eq_none.mp hstays) fun soft hsoft => ?_
          simp only [answersAsBuilt, hcall, hsoft, Option.all_some] at hanswers
          exact of_decide_eq_true hanswers
      | finalizeBatches plan anchor block rest =>
          have hplan := h.noPlan
          rw [finalizesPlan, hcall] at hplan
          cases hplan

/-- The parts of an L1 tick leave the batches consistent. -/
theorem Settled.performPart (h : driver.Settled) (answers : Answers) {part : TickPart}
    (hresets : part = .submitInHandover → driver.status = .inclusionOnly →
      driver.resetsOnAnchor = true) : (driver.performPart answers part).Settled := by
  cases part with
  | enterSlot slot => exact h.quiet (driver.quiet_enterSlot slot _)
  | submitInHandover =>
      unfold Driver.performPart
      obtain heq | ⟨hstatus, heq⟩ := driver.submitInHandover_cases
      · rw [heq]
        exact h
      · rw [heq]
        exact h.submitLocalOutstandingBatch (hresets rfl hstatus) _
  | updateOutstandingBatchAnchor =>
      unfold Driver.performPart
      obtain heq | ⟨hempty, hidle, heq⟩ := driver.updateOutstandingBatchAnchorIfNeeded_cases
      · rw [heq]
        exact h
      · rw [heq]
        exact h.settle h.noPlan rfl (.refl _)
          (readyFor_of_unconsumed (h.lock.unconsumed_of_idle hidle) _) (consistent_of_empty hempty)
          [] buildsNothing_nil rfl (by simp)

/-- A finalization that ends in the background leaves the others as they are. -/
theorem Tracked.progress (h : driver.Tracked) {event : BuilderEvent}
    (hanswers : driver.answersAsBuilt (.background (.builder event)) = true)
    {blockBuilder : L2BlockBuilder}
    (hprogress : driver.blockBuilder.progress event = some blockBuilder) :
    { driver with
      blockBuilder := blockBuilder
      log := finalizedEntries event ++ driver.log }.Tracked := by
  have hlock := h.lock.progress hprogress
  cases event with
  | finalized finalization newBlock =>
      obtain ⟨-, -, -, hproduced⟩ := L2BlockBuilder.progress_finalized hprogress
      constructor
      · exact hlock
      · intro other response hother
        rw [hproduced] at hother
        rcases List.mem_append.mp hother with hold | hnew
        · obtain ⟨hanchor, hold⟩ := h.produced other response hold
          exact ⟨hanchor, List.mem_cons_of_mem _ hold⟩
        · cases List.mem_singleton.mp hnew
          exact ⟨rfl, List.mem_cons_self⟩
      · intro block anchor hentry
        rcases List.mem_cons.mp hentry with hsame | hold
        · cases hsame
          exact of_decide_eq_true (Bool.and_eq_true_iff.mp hanswers).2
        · exact h.own block anchor hold
      · exact h.submits
  | finalizationFailed finalization =>
      obtain ⟨-, -, -, hproduced⟩ := L2BlockBuilder.progress_finalizationFailed hprogress
      constructor
      · exact hlock
      · intro other response hother
        exact h.produced other response (hproduced ▸ hother)
      · exact h.own
      · exact h.submits

/-- A batch that is ready for the finalizations stays so when one ends. -/
theorem ReadyFor.progress {builder nextBuilder : L2BlockBuilder} {batch : Batch}
    (h : ReadyFor builder batch) {event : BuilderEvent}
    (hprogress : builder.progress event = some nextBuilder) : ReadyFor nextBuilder batch := by
  cases event with
  | finalized finalization newBlock =>
      obtain ⟨-, -, hfinalizations, -⟩ := L2BlockBuilder.progress_finalized hprogress
      have hperm := L2BlockBuilder.unconsumed_finalized hprogress
      constructor
      · exact fun other hother => h.anchor other (hperm.mem_iff.mp hother)
      · exact fun other hother => h.fresh other (List.mem_of_mem_erase (hfinalizations ▸ hother))
  | finalizationFailed finalization =>
      obtain ⟨-, -, hfinalizations, -⟩ := L2BlockBuilder.progress_finalizationFailed hprogress
      have hperm := L2BlockBuilder.unconsumed_finalizationFailed hprogress
      constructor
      · exact fun other hother =>
          h.anchor other (hperm.mem_iff.mpr (List.mem_cons_of_mem _ hother))
      · exact fun other hother => h.fresh other (List.mem_of_mem_erase (hfinalizations ▸ hother))

/-- A block that is finalized in the background is not in the outstanding batch yet, and leaves it
consistent. -/
theorem Settled.progress (h : driver.Settled) {event : BuilderEvent}
    (hanswers : driver.answersAsBuilt (.background (.builder event)) = true)
    {blockBuilder : L2BlockBuilder}
    (hprogress : driver.blockBuilder.progress event = some blockBuilder) :
    { driver with
      blockBuilder := blockBuilder
      log := finalizedEntries event ++ driver.log }.Settled := by
  refine ⟨h.toTracked.progress hanswers hprogress, ?_, h.ready.progress hprogress, h.noPlan⟩
  cases event with
  | finalized finalization newBlock =>
      obtain ⟨hmem, -, -, -⟩ := L2BlockBuilder.progress_finalized hprogress
      have hasked := (Bool.and_eq_true_iff.mp hanswers).1
      intro block hblock
      refine BuiltOn.finalized (h.outstanding block hblock) ?_
      rintro rfl
      exact absurd hasked (Bool.not_eq_true _ |>.mpr (h.ready.fresh finalization hmem _ hblock))
  | finalizationFailed finalization => exact h.outstanding

/-- While a sync finalizes its plan, no other finalization ends. -/
theorem no_progress_of_unconsumed {builder nextBuilder : L2BlockBuilder} {event : BuilderEvent}
    (hempty : builder.unconsumed = []) : builder.progress event ≠ some nextBuilder := by
  intro hprogress
  have hnone := (List.append_eq_nil_iff.mp hempty).1
  cases event with
  | finalized finalization newBlock =>
      obtain ⟨hmem, -⟩ := L2BlockBuilder.progress_finalized hprogress
      rw [hnone] at hmem
      cases hmem
  | finalizationFailed finalization =>
      obtain ⟨hmem, -⟩ := L2BlockBuilder.progress_finalizationFailed hprogress
      rw [hnone] at hmem
      cases hmem

/-- What happens in the background leaves the batches consistent. -/
theorem AnchorsTracked.progress (h : driver.AnchorsTracked) {event : BackgroundEvent}
    (hanswers : driver.answersAsBuilt (.background event) = true)
    (hnext : driver.progress event = some next) : next.AnchorsTracked := by
  cases event with
  | preconfRouterChecked isSet =>
      cases hnext
      cases h with
      | settled h => exact .settled (h.same_batch h.noPlan rfl (.refl _) rfl rfl)
      | finalizing plan anchor block rest hcall htracked hempty hdone =>
          refine .finalizing plan anchor block rest hcall ?_ hempty hdone
          exact htracked.change rfl (.refl _) [] buildsNothing_nil rfl (by simp)
  | builder event =>
      obtain ⟨blockBuilder, hprogress, hnext⟩ := Option.bind_eq_some_iff.mp hnext
      cases hnext
      cases h with
      | settled h => exact .settled (h.progress hanswers hprogress)
      | finalizing plan anchor block rest hcall htracked hempty hdone =>
          exact absurd hprogress (no_progress_of_unconsumed hempty)

/-- Every step leaves the batches consistent, if the anchors stay and the clients answer with the
blocks that were built. -/
theorem AnchorsTracked.step (h : driver.AnchorsTracked) {event : Event}
    (hstays : driver.anchorsStay event = true) (hanswers : driver.answersAsBuilt event = true)
    (hnext : driver.step event = some next) : next.AnchorsTracked := by
  cases event with
  | handle event =>
      obtain ⟨hcall, -, hnext⟩ := step_handle hnext
      cases h with
      | settled h => exact .settled (h.handle hstays hanswers hnext)
      | finalizing plan anchor block rest hfinalize htracked hempty hdone =>
          rw [hcall] at hfinalize
          cases hfinalize
  | resume answers =>
      obtain ⟨call, hcall, hnext⟩ | ⟨hcall, part, rest, hparts, rfl⟩ := step_resume hnext
      · exact h.perform hcall hstays hanswers hnext
      · cases h with
        | settled h =>
            refine .settled (Settled.performPart ?_ answers ?_)
            · exact h.same_batch h.noPlan rfl (.refl _) rfl rfl
            · rintro rfl hstatus
              have hstatus' : driver.status = .inclusionOnly := hstatus
              have hresets : driver.resetsOnAnchor = true := by
                simpa [anchorsStay, hcall, hparts, hstatus'] using hstays
              exact hresets
        | finalizing plan anchor block rest hfinalize htracked hempty hdone =>
            rw [hcall] at hfinalize
            cases hfinalize
  | background event => exact h.progress hanswers hnext

/-- In every run from the start of the driver in which no submission and no sync takes the anchor
from a block that is being finalized, a block that did not fit still does not fit when it is placed,
and missing blocks are downloaded on the anchor they are put under, the blocks that the driver has
built are in batches with the anchors that they were finalized with. -/
theorem anchors_consistent {cfg : RuntimeConfig} {l1 : L1State} {l2 : L2State}
    {events : List Event}
    (hstays : Transition.StepsMeet step (fun driver event => driver.anchorsStay event)
      (new cfg l1 l2) events)
    (hanswers : Transition.StepsMeet step (fun driver event => driver.answersAsBuilt event)
      (new cfg l1 l2) events)
    (hrun : Transition.run step (new cfg l1 l2) events = some driver) :
    driver.AnchorsConsistent := by
  have hinitial : (new cfg l1 l2).Settled := by
    refine ⟨⟨?_, ?_, ?_, trivial⟩, consistent_of_empty rfl, readyFor_of_unconsumed rfl _, rfl⟩
    · exact ⟨Nat.zero_le 1, fun hne => absurd rfl hne⟩
    · intro finalization response hmem
      cases hmem
    · intro block anchor hmem
      cases hmem
  have hfinal : driver.AnchorsTracked := Transition.invariant_run
    (fun _ _ _ hinv hmeet hstep => hinv.step hmeet.1 hmeet.2 hstep) (.settled hinitial)
    (hstays.and hanswers) hrun
  cases hfinal with
  | settled h => exact ⟨fun _ => h.outstanding, h.submits⟩
  | finalizing plan anchor block rest hcall htracked hempty hdone =>
      refine ⟨fun hplan => ?_, htracked.submits⟩
      rw [finalizesPlan, hcall] at hplan
      cases hplan

/-- A block of the operator on anchor 48, which is seven slots away from its age limit at L1 block
104. -/
def headOn48 : Block := l2BlockOn 48 1 38400 1

/-- The finalization of block 2 on anchor 48. -/
def finalizationOn48 : Finalization :=
  { anchorBlock := l1Header 48
    payload :=
      { parent := headOn48.header, baseFee := 7, isLast := false, timestamp := 38414,
        txListWithoutAnchorTx := [⟨[1]⟩] }
    fits := true }

/-- The driver adopts block 1 and triggers block 2. -/
def triggerOn48 : List Event :=
  startup (answersWith 38412 104 1 1 48 headOn48) ++
    [.handle (.l2SlotTick 38414 (tickReads headOn48.header))]

/-- L1 block 105 and the next L1 tick, which submits block 1. -/
def nextL1Slot : List Event :=
  let answers := answersWith 38424 105 1 1 48 headOn48
  [.handle (.l1Block { l1Header 105 with timestamp := 38424 } answers.l1Info),
    .handle (.l1SlotTick 38424 3202), .resume answers, .resume answers, .resume answers]

/-- Block 2 is finalized, and its response is consumed. -/
def finishBlock2 : List Event :=
  [.background (.builder (.finalized finalizationOn48 (l2BlockOn 48 2 38414 1).header)),
    .handle (.blockProduced ⟨[], fun _ size => size⟩)]

/-- Block 2 as it is put into the outstanding batch. -/
def block2 : PreconfirmedBlock := .new (l2BlockOn 48 2 38414 1).header [⟨[1]⟩]

/-- Block 2 is finalized on anchor 48 and put into the batch on this anchor. -/
theorem placed_on_own_anchor :
    ∃ driver, Transition.run step (startAt 38412 1) (triggerOn48 ++ finishBlock2) = some driver ∧
      driver.outstandingBatch.anchorId = 48 ∧ block2 ∈ driver.outstandingBatch.blocks ∧
      driver.AnchorsConsistent := by
  obtain ⟨driver, hrun, hanchor, hmem⟩ : ∃ driver,
      Transition.run step (startAt 38412 1) (triggerOn48 ++ finishBlock2) = some driver ∧
        driver.outstandingBatch.anchorId = 48 ∧ block2 ∈ driver.outstandingBatch.blocks :=
    Transition.exists_run (by decide +kernel)
  exact ⟨driver, hrun, hanchor, hmem,
    anchors_consistent (by decide +kernel) (by decide +kernel) hrun⟩

/-- While block 2 is being finalized on anchor 48, the next L1 tick finds block 1 at its age limit
and does not wait, so that block 2 is put into the next batch, on anchor 101. -/
theorem placed_on_later_anchor :
    ∃ driver, Transition.run step (startAt 38412 1) (triggerOn48 ++ nextL1Slot ++ finishBlock2) =
        some driver ∧
      Transition.StepsMeet step (fun driver event => driver.answersAsBuilt event)
        (startAt 38412 1) (triggerOn48 ++ nextL1Slot ++ finishBlock2) ∧
      .finalized block2 (l1Header 48) ∈ driver.log ∧ driver.outstandingBatch.anchorId = 101 ∧
      driver.outstandingBatch.blocks = [block2] ∧ ¬ driver.AnchorsConsistent := by
  obtain ⟨driver, hrun, hbuilt, hanchor, hblocks, hplan, hinconsistent⟩ : ∃ driver,
      Transition.run step (startAt 38412 1) (triggerOn48 ++ nextL1Slot ++ finishBlock2) =
        some driver ∧
        .finalized block2 (l1Header 48) ∈ driver.log ∧ driver.outstandingBatch.anchorId = 101 ∧
        driver.outstandingBatch.blocks = [block2] ∧ driver.finalizesPlan = false ∧
        ¬ Consistent driver.log driver.outstandingBatch :=
    Transition.exists_run (by decide +kernel)
  refine ⟨driver, hrun, by decide +kernel, hbuilt, hanchor, hblocks, fun h => ?_⟩
  exact hinconsistent (h.outstanding hplan)

end Driver

end Mk1
