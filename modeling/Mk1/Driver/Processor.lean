import Mk1.Driver.Errors
import Mk1.Library.Transition
import Mk1.Primitives.Batch

/-!
# The batch submission processor

The actor of `batch_submitter/processor.rs` that proposes batches one after the
other. Its `poll` is a loop over three kinds of progress: the pending proposal
completes, the next batch of the queue is popped and proposed, or a command is
received. Each of them is one event here, so that the states in between count as
reachable, and is also given as a part of the loop. The network's part, the
outcome of a proposal, comes with the event.
-/

namespace Mk1

/-- The maximum number of batches that can be buffered in a channel. -/
def MAX_BUFFERED_BATCHES : Nat := 32

/-- The number of queued batches from which the block size is throttled. -/
def DA_THROTTLE_THRESHOLD : Nat := 1

/-- A request to submit a batch to the L1 until a deadline. -/
structure BatchSubmissionRequest where
  batch : Batch
  deadline : Nat
  deriving DecidableEq, Repr

/-- A command to the processor. -/
inductive BatchSubmissionCmd where
  | submit (req : BatchSubmissionRequest)
  | clearQueue
  | getSuggestedMaxSize
  deriving DecidableEq, Repr

/-- Whether two ranges overlap. -/
def rangesOverlap (a b : RangeInclusive) : Bool := a.start ≤ b.stop && b.start ≤ a.stop

/-- The state of the actor: the commands and results in its channels, its queue, and the batch
that its proposal task is proposing. The answers to `getSuggestedMaxSize` are kept in order. -/
structure BatchSubmissionProcessor where
  requestRx : List BatchSubmissionCmd
  requestQueue : List (Batch × Nat)
  pendingProposal : Option (Batch × Nat)
  resultTx : List BatchResult
  suggestedSizes : List Nat
  maxBlockSize : Nat
  daThrottlingFactor : Nat

namespace BatchSubmissionProcessor

/-- `BatchSubmissionProcessor::new`. -/
def new (maxBlockSize daThrottlingFactor : Nat) : BatchSubmissionProcessor :=
  { requestRx := []
    requestQueue := []
    pendingProposal := none
    resultTx := []
    suggestedSizes := []
    maxBlockSize := maxBlockSize
    daThrottlingFactor := daThrottlingFactor }

/-- The loop of `calcMaxNextBlockSize`, for the given number of rounds. -/
def throttle (factor : Nat) (size : Nat) : Nat → Except Panic Nat
  | 0 => pure size
  | rounds + 1 =>
      if factor = 0 then throw ⟨"attempt to divide by zero"⟩
      else throttle factor (size - size / factor) rounds

/-- The suggested maximum size of a new block, from the length of the queue. -/
def calcMaxNextBlockSize (processor : BatchSubmissionProcessor) : Except Panic Nat :=
  let size := processor.maxBlockSize
  let queueSize := processor.requestQueue.length
  if DA_THROTTLE_THRESHOLD ≤ queueSize then
    throttle processor.daThrottlingFactor size queueSize
  else pure size

/-- `try_send` on the results channel, with the message of its `expect`. -/
def sendResult (processor : BatchSubmissionProcessor) (result : BatchResult) (message : String) :
    Except Panic BatchSubmissionProcessor :=
  if processor.resultTx.length < MAX_BUFFERED_BATCHES then
    pure { processor with resultTx := processor.resultTx ++ [result] }
  else throw ⟨message⟩

/-- Handle the result of a batch proposal. -/
def onProposal (processor : BatchSubmissionProcessor) (result : BatchResult) :
    Except Panic BatchSubmissionProcessor :=
  match result with
  | .ok receipt => processor.sendResult (.ok receipt) "Failed to send batch proposal result"
  | .error e =>
      if e.matchesNonceTooLow then pure processor
      else { processor with requestQueue := [] }.sendResult (.error e)
        "Failed to send batch proposal error"

/-- The ranges of the batches in the queue. -/
def queueToRanges (queue : List (Batch × Nat)) : List RangeInclusive :=
  queue.map fun (batch, _) => batch.blocksRange

/-- Queue a batch, unless its range overlaps that of a batch in the queue. -/
def handleBatchSubmissionRequest (processor : BatchSubmissionProcessor)
    (req : BatchSubmissionRequest) : BatchSubmissionProcessor :=
  let ranges := queueToRanges processor.requestQueue
  let batchRange := req.batch.blocksRange
  if ranges.any fun range => rangesOverlap range batchRange then processor
  else { processor with requestQueue := processor.requestQueue ++ [(req.batch, req.deadline)] }

/-- Handle a new command. -/
def onCmd (processor : BatchSubmissionProcessor) (cmd : BatchSubmissionCmd) :
    Except Panic BatchSubmissionProcessor :=
  match cmd with
  | .submit req => pure (processor.handleBatchSubmissionRequest req)
  | .clearQueue => pure { processor with requestQueue := [] }
  | .getSuggestedMaxSize => do
      let max ← processor.calcMaxNextBlockSize
      pure { processor with suggestedSizes := processor.suggestedSizes ++ [max] }

/-! ## Events -/

/-- What can happen to the processor: its handle or its results stream is used, or it makes one
kind of progress. -/
inductive Event where
  | send (cmd : BatchSubmissionCmd)
  | readResult
  | complete (result : BatchResult)
  | startNext
  | receive
  deriving DecidableEq, Repr

/-- A command is sent to the processor's channel. -/
def send (processor : BatchSubmissionProcessor) (cmd : BatchSubmissionCmd) (message : String) :
    Except Panic BatchSubmissionProcessor :=
  if processor.requestRx.length < MAX_BUFFERED_BATCHES then
    pure { processor with requestRx := processor.requestRx ++ [cmd] }
  else throw ⟨message⟩

/-- The pending proposal completes. -/
def complete (processor : BatchSubmissionProcessor) (result : BatchResult) :
    Except Panic BatchSubmissionProcessor :=
  { processor with pendingProposal := none }.onProposal result

/-- The first batch of the queue, if there is one, is popped and proposed. -/
def startNext (processor : BatchSubmissionProcessor) : BatchSubmissionProcessor :=
  match processor.requestQueue with
  | [] => processor
  | next :: rest => { processor with requestQueue := rest, pendingProposal := some next }

/-- One event, if it can happen and does not panic. -/
def step (processor : BatchSubmissionProcessor) : Event → Option BatchSubmissionProcessor
  | .send cmd => (processor.send cmd "failed to send batch submission request").toOption
  | .readResult => some { processor with resultTx := processor.resultTx.tail }
  | .complete result =>
      match processor.pendingProposal with
      | none => none
      | some _ => (processor.complete result).toOption
  | .startNext =>
      match processor.pendingProposal with
      | none => some processor.startNext
      | some _ => none
  | .receive =>
      match processor.requestRx with
      | [] => none
      | cmd :: rest => ({ processor with requestRx := rest }.onCmd cmd).toOption

/-! ## The parts of an iteration of `poll` -/

/-- Receive the commands in the channel, until it is empty. -/
def receiveAll (processor : BatchSubmissionProcessor) :
    List BatchSubmissionCmd → Except Panic BatchSubmissionProcessor
  | [] => pure processor
  | cmd :: rest => do
      let processor ← { processor with requestRx := rest }.onCmd cmd
      processor.receiveAll rest

/-- Poll the pending proposal, whose task is ready with a result, if one is given. -/
def pollProposal (processor : BatchSubmissionProcessor) (ready : Option BatchResult) :
    Except Panic BatchSubmissionProcessor :=
  match processor.pendingProposal, ready with
  | some _, some result => processor.complete result
  | _, _ => pure processor

/-- Start the next proposal if none is pending. -/
def popNext (processor : BatchSubmissionProcessor) : BatchSubmissionProcessor :=
  match processor.pendingProposal with
  | none => processor.startNext
  | some _ => processor

/-- A result that could be sent is the last in the results channel. -/
theorem sendResult_eq_ok {processor processor' : BatchSubmissionProcessor} {result : BatchResult}
    {message : String} (h : processor.sendResult result message = .ok processor') :
    processor' = { processor with resultTx := processor.resultTx ++ [result] } := by
  unfold sendResult at h
  split at h
  · cases h
    rfl
  · cases h

/-- Handling a command leaves both channels alone. -/
theorem channels_onCmd {processor processor' : BatchSubmissionProcessor}
    {cmd : BatchSubmissionCmd} (h : processor.onCmd cmd = .ok processor') :
    processor'.requestRx = processor.requestRx ∧ processor'.resultTx = processor.resultTx := by
  cases cmd with
  | submit req =>
      cases h
      unfold handleBatchSubmissionRequest
      dsimp only
      split
      · exact ⟨rfl, rfl⟩
      · exact ⟨rfl, rfl⟩
  | clearQueue =>
      cases h
      exact ⟨rfl, rfl⟩
  | getSuggestedMaxSize =>
      unfold onCmd at h
      cases hsize : processor.calcMaxNextBlockSize with
      | error panic =>
          rw [hsize] at h
          cases h
      | ok size =>
          rw [hsize] at h
          cases h
          exact ⟨rfl, rfl⟩

/-! ## What an event does -/

section

variable {processor processor' : BatchSubmissionProcessor}

/-- A command that is sent is the last one in the channel, which had room for it. -/
theorem step_send {cmd : BatchSubmissionCmd} :
    processor.step (.send cmd) = some processor' ↔
      processor.requestRx.length < MAX_BUFFERED_BATCHES ∧
        { processor with requestRx := processor.requestRx ++ [cmd] } = processor' := by
  unfold step send
  dsimp only
  by_cases hroom : processor.requestRx.length < MAX_BUFFERED_BATCHES
  · rw [if_pos hroom, and_iff_right hroom]
    exact Option.some_inj
  · rw [if_neg hroom]
    refine ⟨fun h => ?_, fun h => absurd h.1 hroom⟩
    cases h

/-- Only a pending proposal completes, if its result can be handled. -/
theorem step_complete {result : BatchResult} :
    processor.step (.complete result) = some processor' ↔
      processor.pendingProposal ≠ none ∧ processor.complete result = .ok processor' := by
  unfold step
  dsimp only
  cases processor.pendingProposal with
  | none => simp
  | some pending => simp [toOption_eq_some]

/-- The next proposal starts if none is pending. -/
theorem step_startNext :
    processor.step .startNext = some processor' ↔
      processor.pendingProposal = none ∧ processor.startNext = processor' := by
  unfold step
  dsimp only
  cases processor.pendingProposal with
  | none => simp
  | some pending => simp

/-- The first command in the channel is received and handled. -/
theorem step_receive :
    processor.step .receive = some processor' ↔
      ∃ cmd rest, processor.requestRx = cmd :: rest ∧
        { processor with requestRx := rest }.onCmd cmd = .ok processor' := by
  unfold step
  dsimp only
  cases processor.requestRx with
  | nil => simp
  | cons cmd rest => simp [toOption_eq_some]

end

end BatchSubmissionProcessor

end Mk1
