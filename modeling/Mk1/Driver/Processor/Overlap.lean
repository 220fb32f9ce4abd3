import Mk1.Driver.Processor
import Mk1.Primitives.Block

/-!
# Batches in flight

A new batch is compared with the batches in the queue, but not with the one
that is being proposed. `no_double_proposal_iff` says that the ranges of all of
them stay disjoint exactly in the runs in which no accepted batch overlaps the
pending one.
-/

namespace Mk1

namespace Batch

/-- The batch is not empty and its block numbers ascend. -/
structure WellNumbered (batch : Batch) : Prop where
  nonempty : batch.blocks ≠ []
  ascending : batch.blocks.Pairwise fun first second => first.number < second.number

/-- The range of such a batch is not empty and holds the number of each of its blocks. -/
theorem WellNumbered.blocksRange {batch : Batch} (h : batch.WellNumbered) :
    batch.blocksRange.start ≤ batch.blocksRange.stop ∧
      ∀ block ∈ batch.blocks, block.number ∈ batch.blocksRange := by
  obtain ⟨first, rest, hblocks⟩ := List.exists_cons_of_ne_nil h.nonempty
  have hlast : batch.blocks.getLast? = some (batch.blocks.getLast h.nonempty) :=
    List.getLast?_eq_some_getLast h.nonempty
  have hhead : batch.blocks.head? = some first := by rw [hblocks]; rfl
  have hrange : batch.blocksRange =
      ⟨first.number, (batch.blocks.getLast h.nonempty).number⟩ := by
    unfold Batch.blocksRange
    rw [hhead, hlast]
  have hmem : ∀ block ∈ batch.blocks, first.number ≤ block.number ∧
      block.number ≤ (batch.blocks.getLast h.nonempty).number := by
    intro block hblock
    constructor
    · rw [hblocks] at hblock
      rcases List.mem_cons.mp hblock with rfl | hblock
      · exact Nat.le_refl _
      · have hascending := h.ascending
        rw [hblocks] at hascending
        exact ((List.pairwise_cons.mp hascending).1 block hblock).le
    · have hsplit := List.dropLast_append_getLast h.nonempty
      rw [← hsplit] at hblock
      rcases List.mem_append.mp hblock with hblock | hblock
      · have hascending := h.ascending
        rw [← hsplit] at hascending
        exact ((List.pairwise_append.mp hascending).2.2 block hblock _ (by simp)).le
      · rw [List.mem_singleton.mp hblock]
  rw [hrange]
  refine ⟨?_, hmem⟩
  have hfirst := hmem first (by simp [hblocks])
  exact hfirst.2

/-- Two batches have no number in both of their ranges, and so no block in common. -/
structure Apart (first second : Batch) : Prop where
  ranges : ∀ number, ¬ (number ∈ first.blocksRange ∧ number ∈ second.blocksRange)
  blocks : ∀ block ∈ first.blocks, ∀ other ∈ second.blocks, block.number ≠ other.number

/-- The overlap check finds out whether two batches are apart. -/
theorem apart_iff {first second : Batch} (hfirst : first.WellNumbered)
    (hsecond : second.WellNumbered) :
    Apart first second ↔ rangesOverlap first.blocksRange second.blocksRange = false := by
  obtain ⟨hle, hmem⟩ := hfirst.blocksRange
  obtain ⟨hle', hmem'⟩ := hsecond.blocksRange
  have hoverlap : rangesOverlap first.blocksRange second.blocksRange = false ↔
      ¬ (first.blocksRange.start ≤ second.blocksRange.stop ∧
        second.blocksRange.start ≤ first.blocksRange.stop) := by
    rw [← Bool.not_eq_true, rangesOverlap, Bool.and_eq_true, decide_eq_true_eq, decide_eq_true_eq]
  have hranges : (∀ number, ¬ (number ∈ first.blocksRange ∧ number ∈ second.blocksRange)) ↔
      rangesOverlap first.blocksRange second.blocksRange = false := by
    rw [hoverlap]
    constructor
    · rintro hapart ⟨hstart, hstart'⟩
      refine hapart (max first.blocksRange.start second.blocksRange.start) ⟨⟨?_, ?_⟩, ⟨?_, ?_⟩⟩
      · exact le_max_left _ _
      · exact max_le hle hstart'
      · exact le_max_right _ _
      · exact max_le hstart hle'
    · rintro hnot number ⟨⟨hlow, hhigh⟩, ⟨hlow', hhigh'⟩⟩
      exact hnot ⟨hlow.trans hhigh', hlow'.trans hhigh⟩
  refine ⟨fun h => hranges.mp h.ranges, fun h => ⟨hranges.mpr h, ?_⟩⟩
  intro block hblock other hother heq
  exact hranges.mpr h block.number ⟨hmem block hblock, heq ▸ hmem' other hother⟩

end Batch

namespace BatchSubmissionProcessor

/-- The batch being proposed and the batches in the queue, in the order of their proposals. -/
def inFlight (processor : BatchSubmissionProcessor) : List Batch :=
  (processor.pendingProposal.toList ++ processor.requestQueue).map Prod.fst

/-- No two batches in flight have a block in common. -/
def NoDoubleProposal (processor : BatchSubmissionProcessor) : Prop :=
  processor.inFlight.Pairwise Batch.Apart

/-- Whether a request overlaps a batch in the queue, in which case it is skipped. -/
def overlapsQueue (processor : BatchSubmissionProcessor) (req : BatchSubmissionRequest) : Bool :=
  (queueToRanges processor.requestQueue).any fun range =>
    rangesOverlap range req.batch.blocksRange

/-- If the event is the receipt of a request that is not skipped, the range of its batch does not
overlap that of the pending batch. -/
def SubmitsApart (processor : BatchSubmissionProcessor) (event : Event) : Prop :=
  ∀ req rest, event = .receive → processor.requestRx = .submit req :: rest →
    processor.overlapsQueue req = true ∨
      ∀ pending ∈ processor.pendingProposal,
        rangesOverlap pending.1.blocksRange req.batch.blocksRange = false

/-- The command is to submit a batch that is not empty and has ascending numbers, or another
one. -/
def SubmitsWellNumbered (cmd : BatchSubmissionCmd) : Prop :=
  ∀ req, cmd = .submit req → req.batch.WellNumbered

/-- The event sends no batch but such a one. -/
def SendsWellNumbered (event : Event) : Prop :=
  ∀ cmd, event = .send cmd → SubmitsWellNumbered cmd

/-- Every batch in the processor and in its channel is well-numbered. -/
structure AllWellNumbered (processor : BatchSubmissionProcessor) : Prop where
  inFlight : ∀ batch ∈ processor.inFlight, batch.WellNumbered
  requestRx : ∀ cmd ∈ processor.requestRx, SubmitsWellNumbered cmd

/-- A result of a proposal leaves the queue as it is or clears it. -/
theorem onProposal_cases {processor processor' : BatchSubmissionProcessor} {result : BatchResult}
    (h : processor.onProposal result = .ok processor') :
    processor'.requestRx = processor.requestRx ∧
      processor'.pendingProposal = processor.pendingProposal ∧
      processor'.requestQueue.Sublist processor.requestQueue := by
  unfold onProposal at h
  split at h
  · rw [sendResult_eq_ok h]
    exact ⟨rfl, rfl, .refl _⟩
  · split at h
    · cases h
      exact ⟨rfl, rfl, .refl _⟩
    · rw [sendResult_eq_ok h]
      exact ⟨rfl, rfl, List.nil_sublist _⟩

/-- A command adds the batch of a request that does not overlap the queue to its end, and leaves
the queue as it is or clears it otherwise. -/
theorem onCmd_cases {processor processor' : BatchSubmissionProcessor} {cmd : BatchSubmissionCmd}
    (h : processor.onCmd cmd = .ok processor') :
    processor'.pendingProposal = processor.pendingProposal ∧
      ((processor'.requestQueue.Sublist processor.requestQueue ∧
          ∀ req, cmd = .submit req → processor.overlapsQueue req = true) ∨
        ∃ req, cmd = .submit req ∧ processor.overlapsQueue req = false ∧
          processor'.requestQueue = processor.requestQueue ++ [(req.batch, req.deadline)]) := by
  cases cmd with
  | submit req =>
      cases h
      unfold handleBatchSubmissionRequest
      cases hoverlap : processor.overlapsQueue req with
      | true =>
          rw [overlapsQueue] at hoverlap
          rw [if_pos hoverlap]
          refine ⟨rfl, .inl ⟨.refl _, fun other heq => ?_⟩⟩
          cases heq
          exact hoverlap
      | false =>
          rw [overlapsQueue, ← Bool.not_eq_true] at hoverlap
          rw [if_neg hoverlap]
          exact ⟨rfl, .inr ⟨req, rfl, by rwa [overlapsQueue, ← Bool.not_eq_true], rfl⟩⟩
  | clearQueue =>
      cases h
      exact ⟨rfl, .inl ⟨List.nil_sublist _, fun _ heq => by cases heq⟩⟩
  | getSuggestedMaxSize =>
      unfold onCmd at h
      cases hsize : processor.calcMaxNextBlockSize with
      | error panic =>
          rw [hsize] at h
          cases h
      | ok size =>
          rw [hsize] at h
          cases h
          exact ⟨rfl, .inl ⟨.refl _, fun _ heq => by cases heq⟩⟩

/-- Starting the next proposal moves a batch of the queue, or nothing. -/
theorem inFlight_startNext {processor : BatchSubmissionProcessor}
    (h : processor.pendingProposal = none) :
    processor.startNext.requestRx = processor.requestRx ∧
      processor.startNext.inFlight = processor.inFlight := by
  unfold startNext inFlight
  cases hqueue : processor.requestQueue with
  | nil => exact ⟨rfl, by rw [h, hqueue]⟩
  | cons next rest => exact ⟨rfl, by rw [h]; rfl⟩

/-- What one event does to the batches in flight and to the channel: a request that does not
overlap the queue joins the batches in flight, and every other event only removes some. -/
theorem step_cases {processor processor' : BatchSubmissionProcessor} {event : Event}
    (h : processor.step event = some processor') :
    (∀ cmd ∈ processor'.requestRx, cmd ∈ processor.requestRx ∨ event = .send cmd) ∧
      ((processor'.inFlight.Sublist processor.inFlight ∧
          ∀ req rest, event = .receive → processor.requestRx = .submit req :: rest →
            processor.overlapsQueue req = true) ∨
        ∃ req rest, event = .receive ∧ processor.requestRx = .submit req :: rest ∧
          processor.overlapsQueue req = false ∧
          processor'.inFlight = processor.inFlight ++ [req.batch]) := by
  cases event with
  | send cmd =>
      obtain ⟨-, rfl⟩ := step_send.mp h
      refine ⟨fun other hother => ?_, .inl ⟨.refl _, fun _ _ heq => by cases heq⟩⟩
      rcases List.mem_append.mp hother with hother | hother
      · exact .inl hother
      · rw [List.mem_singleton.mp hother]
        exact .inr rfl
  | readResult =>
      cases h
      exact ⟨fun _ hother => .inl hother, .inl ⟨.refl _, fun _ _ heq => by cases heq⟩⟩
  | complete result =>
      obtain ⟨-, hcomplete⟩ := step_complete.mp h
      obtain ⟨hrequests, hnone, hqueue⟩ := onProposal_cases hcomplete
      refine ⟨fun _ hother => .inl (hrequests ▸ hother),
        .inl ⟨?_, fun _ _ heq => by cases heq⟩⟩
      unfold inFlight
      rw [hnone]
      exact (hqueue.trans (List.sublist_append_right _ _)).map _
  | startNext =>
      obtain ⟨hnone, rfl⟩ := step_startNext.mp h
      obtain ⟨hrequests, hsame⟩ := inFlight_startNext hnone
      refine ⟨fun _ hother => .inl (hrequests ▸ hother),
        .inl ⟨?_, fun _ _ heq => by cases heq⟩⟩
      rw [hsame]
  | receive =>
      obtain ⟨cmd, rest, hrequests, honCmd⟩ := step_receive.mp h
      refine ⟨fun other hother => .inl ?_, ?_⟩
      · rw [(channels_onCmd honCmd).1] at hother
        rw [hrequests]
        exact List.mem_cons_of_mem cmd hother
      -- of the commands, only a submission that passes the check adds to what is in flight
      obtain ⟨hpending, ⟨hqueue, hskipped⟩ | ⟨req, rfl, hapart, hqueue⟩⟩ := onCmd_cases honCmd
      · refine .inl ⟨?_, fun req other _ heq => ?_⟩
        · unfold inFlight
          rw [hpending]
          exact (hqueue.append_left _).map _
        · obtain ⟨rfl, -⟩ := List.cons.inj (hrequests.symm.trans heq)
          exact hskipped req rfl
      · refine .inr ⟨req, rest, rfl, hrequests, hapart, ?_⟩
        unfold inFlight
        rw [hpending, hqueue]
        simp

/-- Every event that sends well-numbered batches keeps all batches well-numbered. -/
theorem AllWellNumbered.step {processor processor' : BatchSubmissionProcessor} {event : Event}
    (h : processor.AllWellNumbered) (hevent : SendsWellNumbered event)
    (hstep : processor.step event = some processor') : processor'.AllWellNumbered := by
  obtain ⟨hrequests, hinFlight⟩ := step_cases hstep
  constructor
  · intro batch hbatch
    rcases hinFlight with ⟨hsublist, -⟩ | ⟨req, rest, rfl, hreceived, -, hjoined⟩
    · exact h.inFlight batch (hsublist.subset hbatch)
    · rw [hjoined] at hbatch
      rcases List.mem_append.mp hbatch with hbatch | hbatch
      · exact h.inFlight batch hbatch
      · rw [List.mem_singleton.mp hbatch]
        exact h.requestRx _ (by rw [hreceived]; exact List.mem_cons_self) req rfl
  · intro cmd hcmd
    rcases hrequests cmd hcmd with hcmd | rfl
    · exact h.requestRx cmd hcmd
    · exact hevent cmd rfl

/-- A new processor has no batches. -/
theorem allWellNumbered_new (maxBlockSize daThrottlingFactor : Nat) :
    (new maxBlockSize daThrottlingFactor).AllWellNumbered where
  inFlight := by
    intro batch hbatch
    cases hbatch
  requestRx := by
    intro cmd hcmd
    cases hcmd

/-- A batch is apart from all batches in flight if it overlaps neither the queue nor the batch
being proposed. -/
theorem apart_inFlight_iff {processor : BatchSubmissionProcessor} {req : BatchSubmissionRequest}
    (h : processor.AllWellNumbered) (hreq : req.batch.WellNumbered) :
    (∀ batch ∈ processor.inFlight, Batch.Apart batch req.batch) ↔
      (∀ pending ∈ processor.pendingProposal,
          rangesOverlap pending.1.blocksRange req.batch.blocksRange = false) ∧
        processor.overlapsQueue req = false := by
  have hiff : ∀ batch ∈ processor.inFlight, (Batch.Apart batch req.batch ↔
      rangesOverlap batch.blocksRange req.batch.blocksRange = false) :=
    fun batch hbatch => Batch.apart_iff (h.inFlight batch hbatch) hreq
  rw [forall₂_congr hiff]
  simp [inFlight, overlapsQueue, queueToRanges, or_imp, forall_and]

/-- An event keeps the batches in flight apart exactly if it accepts no batch that overlaps the
pending one. -/
theorem noDoubleProposal_step_iff {processor processor' : BatchSubmissionProcessor} {event : Event}
    (h : processor.AllWellNumbered) (hapart : processor.NoDoubleProposal)
    (hstep : processor.step event = some processor') :
    processor'.NoDoubleProposal ↔ processor.SubmitsApart event := by
  obtain ⟨-, ⟨hsublist, hskipped⟩ | ⟨req, rest, rfl, hreceived, hoverlap, hjoined⟩⟩ :=
    step_cases hstep
  · exact ⟨fun _ req rest hevent hreceived => .inl (hskipped req rest hevent hreceived),
      fun _ => hapart.sublist hsublist⟩
  · have hreq : req.batch.WellNumbered :=
      h.requestRx _ (by rw [hreceived]; exact List.mem_cons_self) req rfl
    have hnext : processor'.NoDoubleProposal ↔
        ∀ batch ∈ processor.inFlight, Batch.Apart batch req.batch := by
      unfold NoDoubleProposal at hapart ⊢
      rw [hjoined, List.pairwise_append]
      simp [hapart]
    rw [hnext, apart_inFlight_iff h hreq]
    constructor
    · rintro ⟨hpending, -⟩ other rest' - hreceived'
      obtain ⟨⟨rfl⟩, -⟩ := List.cons.inj (hreceived.symm.trans hreceived')
      exact .inr hpending
    · intro hsubmits
      rcases hsubmits req rest rfl hreceived with hskipped | hpending
      · rw [hoverlap] at hskipped
        cases hskipped
      · exact ⟨hpending, hoverlap⟩

/-- In a run that is only sent well-numbered batches, the batches in flight stay apart in every
state reached exactly if no batch is accepted that overlaps the pending one. -/
theorem no_double_proposal_iff (maxBlockSize daThrottlingFactor : Nat) {events : List Event}
    {processor : BatchSubmissionProcessor} (hevents : ∀ event ∈ events, SendsWellNumbered event)
    (hrun : Transition.run step (new maxBlockSize daThrottlingFactor) events = some processor) :
    (∀ before after reached, events = before ++ after →
        Transition.run step (new maxBlockSize daThrottlingFactor) before = some reached →
        reached.NoDoubleProposal) ↔
      Transition.StepsMeet step SubmitsApart (new maxBlockSize daThrottlingFactor) events := by
  have hnew := allWellNumbered_new maxBlockSize daThrottlingFactor
  refine Transition.property_iff_stepsMeet (fun _ _ _ hinv hevent hstep => ?_)
    (fun _ _ _ hinv hapart hstep => ?_) hnew List.Pairwise.nil hevents hrun
  · exact hinv.step hevent hstep
  · exact noDoubleProposal_step_iff hinv hapart hstep

/-- A request to submit the blocks of a range of numbers. -/
def rangeRequest (start count : Nat) : BatchSubmissionRequest :=
  { batch :=
      { blocks := (List.range' start count).map fun number =>
          (softBlock number 100).intoPreconfirmed
        anchorBlock := l1Header 10
        settings := ⟨100, 100000, 0, 96, 5⟩
        coinbase := 0 }
    deadline := 50 }

/-- Such a request is well-numbered if its range is not empty. -/
theorem sendsWellNumbered_rangeRequest {start count : Nat} (h : count ≠ 0) :
    SendsWellNumbered (.send (.submit (rangeRequest start count))) := by
  intro cmd hcmd req hreq
  cases hcmd
  cases hreq
  constructor
  · simp [rangeRequest, h]
  · have hascending : (List.range' start count).Pairwise (· < ·) := List.pairwise_lt_range'
    exact List.pairwise_map.mpr hascending

/-- The events of two submissions, the second of which is received while the first is pending. -/
def submitTwice (first second : BatchSubmissionRequest) : List Event :=
  [.send (.submit first), .receive, .startNext, .send (.submit second), .receive]

/-- Both submissions of two batches are well-numbered if each of them is. -/
theorem submitTwice_sendsWellNumbered {first second : BatchSubmissionRequest}
    (hfirst : SendsWellNumbered (.send (.submit first)))
    (hsecond : SendsWellNumbered (.send (.submit second))) :
    ∀ event ∈ submitTwice first second, SendsWellNumbered event := by
  have hother : ∀ event, (∀ cmd, event ≠ .send cmd) → SendsWellNumbered event :=
    fun event hne cmd heq => absurd heq (hne cmd)
  simp only [submitTwice, List.forall_mem_cons]
  exact ⟨hfirst, hother _ (by simp), hother _ (by simp), hsecond, hother _ (by simp), by simp⟩

/-- Blocks 1 to 5 are being proposed when blocks 6 and 7 are accepted. -/
theorem no_double_proposal_of_next_blocks :
    ∃ processor, Transition.run step (new 1000 10)
        (submitTwice (rangeRequest 1 5) (rangeRequest 6 2)) = some processor ∧
      processor.pendingProposal.isSome = true ∧ processor.requestQueue.length = 1 ∧
      processor.NoDoubleProposal := by
  have hrun : Transition.run step (new 1000 10)
      (submitTwice (rangeRequest 1 5) (rangeRequest 6 2)) = some
        { new 1000 10 with
          pendingProposal := some ((rangeRequest 1 5).batch, 50)
          requestQueue := [((rangeRequest 6 2).batch, 50)] } := rfl
  have hmeet : Transition.StepsMeet step SubmitsApart (new 1000 10)
      (submitTwice (rangeRequest 1 5) (rangeRequest 6 2)) := by
    have hother : ∀ processor event, event ≠ .receive → SubmitsApart processor event :=
      fun processor event hne req rest heq => absurd heq hne
    refine ⟨hother _ _ (by simp), fun _ h => ?_⟩
    cases h
    refine ⟨fun req rest _ hreceived => ?_, fun _ h => ?_⟩
    · exact .inr (by simp [new])
    cases h
    refine ⟨hother _ _ (by simp), fun _ h => ?_⟩
    cases h
    refine ⟨hother _ _ (by simp), fun _ h => ?_⟩
    cases h
    refine ⟨fun req rest _ hreceived => ?_, fun _ _ => trivial⟩
    cases hreceived
    exact .inr (by decide)
  refine ⟨_, hrun, rfl, rfl, ?_⟩
  exact (no_double_proposal_iff 1000 10 (submitTwice_sendsWellNumbered
    (sendsWellNumbered_rangeRequest (by decide)) (sendsWellNumbered_rangeRequest (by decide)))
    hrun).mpr hmeet _ [] _ (List.append_nil _).symm hrun

/-- Blocks 1 to 5 are being proposed when blocks 3 to 7 are accepted. -/
theorem double_proposal_of_resubmission :
    (∀ event ∈ submitTwice (rangeRequest 1 5) (rangeRequest 3 5), SendsWellNumbered event) ∧
      ∃ processor, Transition.run step (new 1000 10)
          (submitTwice (rangeRequest 1 5) (rangeRequest 3 5)) = some processor ∧
        ¬ processor.NoDoubleProposal := by
  refine ⟨submitTwice_sendsWellNumbered (sendsWellNumbered_rangeRequest (by decide))
    (sendsWellNumbered_rangeRequest (by decide)), _, rfl, fun h => ?_⟩
  have hapart : Batch.Apart (rangeRequest 1 5).batch (rangeRequest 3 5).batch :=
    (List.pairwise_cons.mp h).1 _ List.mem_cons_self
  exact hapart.ranges 3 ⟨⟨by decide, by decide⟩, ⟨by decide, by decide⟩⟩

end BatchSubmissionProcessor

end Mk1
