import Mk1.Driver.Config

/-!
# The lookahead

The inclusion and sequencing windows of `lookahead.rs`. A window is a ring of
three entries, each of which says of one epoch whether it is set. The kind of a
window, a marker type in the source, is a type index here.
-/

namespace Mk1

/-- The status of the driver. -/
inductive DriverStatus where
  | inactive
  | handoverWait
  | sequencingOnly
  | inclusionOnly
  | active
  deriving DecidableEq, Repr

/-- Whether the driver can propose L1 batches. -/
def DriverStatus.canPropose : DriverStatus → Bool
  | .inclusionOnly | .active => true
  | .inactive | .handoverWait | .sequencingOnly => false

/-- Whether the driver can produce L2 blocks. -/
def DriverStatus.canSequence : DriverStatus → Bool
  | .sequencingOnly | .active => true
  | .inactive | .handoverWait | .inclusionOnly => false

/-- The size of the ring buffers, in epochs. -/
def WINDOW_SIZE : Nat := 3

instance : NeZero WINDOW_SIZE := ⟨by decide⟩

/-- The marker types of the windows. -/
inductive WindowKind where
  | inclusion
  | sequencing

/-- A ring of entries that mark whether inclusion or sequencing is possible in an epoch. -/
structure Window (kind : WindowKind) where
  inner : Fin WINDOW_SIZE → Bool × Nat
  offset : Nat

namespace Window

variable {kind : WindowKind}

/-- The ring without set entries. -/
def cleared : Fin WINDOW_SIZE → Bool × Nat := fun _ => (false, 0)

/-- `Window::<Inclusion>::default`. -/
def default : Window .inclusion := ⟨cleared, 0⟩

/-- `Window::<Sequencing>::with_offset`. -/
def withOffset (offset : Nat) : Window .sequencing := ⟨cleared, offset⟩

/-- The slots of an epoch, moved back by the offset. -/
def epochToRangeWithOffset (window : Window kind) (epoch : Nat) : Range :=
  let range := toSlotRange epoch
  ⟨range.start - window.offset, range.stop - window.offset⟩

/-- Set the entry of an epoch. -/
def applyEpoch (window : Window kind) (epoch : Nat) : Window kind :=
  { window with inner := Function.update window.inner (Fin.ofNat WINDOW_SIZE epoch) (true, epoch) }

/-- Erase the entry at the place of an epoch. -/
def resetAtEpoch (window : Window kind) (epoch : Nat) : Window kind :=
  { window with inner := Function.update window.inner (Fin.ofNat WINDOW_SIZE epoch) (false, 0) }

/-- The entries of the ring, in order. -/
def entries (window : Window kind) : List (Bool × Nat) := List.ofFn window.inner

/-- Whether a slot is in the window: whether the first entry with this slot is set. -/
def contains (window : Window kind) (slot : Nat) : Bool :=
  match window.entries.find? fun entry => (window.epochToRangeWithOffset entry.2).contains slot with
  | some (isSet, _) => isSet
  | none => false

/-- The end of the window, excluded, or zero if the window is empty. -/
def end' (window : Window kind) : Nat :=
  let (highest, set) := window.entries.foldl (fun (highest, set) (isSet, epoch) =>
    if isSet && highest ≤ epoch then (epoch, true) else (highest, set)) (0, false)
  if highest = 0 && !set then 0
  else saturatingAdd (toSlot highest) EPOCH_SLOTS - window.offset

/-- Record whether we are the sequencer of an epoch: set its entry, or erase a stale one. -/
def recordEpoch (window : Window kind) (epoch : Nat) (sequencer : Bool) : Window kind :=
  if sequencer then window.applyEpoch epoch
  else if window.contains (toSlot epoch) then window.resetAtEpoch epoch
  else window

/-- `Window::<Inclusion>::calculate`, from the current and the next epoch's sequencer. -/
def calculate (window : Window .inclusion) (headSlot : Nat) (sequencerCurrentEpoch : Bool)
    (sequencerNextEpoch : Bool) : Window .inclusion :=
  let window := window.recordEpoch (toEpoch headSlot) sequencerCurrentEpoch
  window.recordEpoch (saturatingAdd (toEpoch headSlot) 1) sequencerNextEpoch

/-- `Window::<Sequencing>::calculate`, from the inclusion window only. -/
def calculateFrom (window : Window .sequencing) (inclusionWindow : Window .inclusion) :
    Window .sequencing :=
  let epochs := (inclusionWindow.entries.filter Prod.fst).map Prod.snd
  epochs.foldl applyEpoch { window with inner := cleared }

/-- Whether a slot is in the window while the one an epoch earlier is not. -/
def isNew (window : Window .inclusion) (headSlot : Nat) : Bool :=
  let activeNow := window.contains headSlot
  let activePreviously := window.contains (headSlot - EPOCH_SLOTS)
  activeNow && !activePreviously

end Window

/-- The windows of slots in which the driver may sequence and include. -/
structure Lookahead where
  cfg : RuntimeConfig
  sequencingWindow : Window .sequencing
  inclusionWindow : Window .inclusion
  endOfSequencingMark : Nat

namespace Lookahead

/-- `Lookahead::new`. -/
def new (cfg : RuntimeConfig) : Lookahead :=
  { cfg := cfg
    endOfSequencingMark := 0
    inclusionWindow := .default
    sequencingWindow := .withOffset cfg.handoverWindowSlots }

/-- Whether a slot is in the inclusion window. -/
def inInclusionWindow (lookahead : Lookahead) (l1HeadSlot : Nat) : Bool :=
  lookahead.inclusionWindow.contains l1HeadSlot

/-- Whether a slot is in the sequencing window. -/
def inSequencingWindow (lookahead : Lookahead) (l1HeadSlot : Nat) : Bool :=
  lookahead.sequencingWindow.contains l1HeadSlot

/-- Whether the handover wait is over at the given time. -/
def isPastHandoverBuffer (lookahead : Lookahead) (timestamp : Nat) : Bool :=
  let slot := lookahead.cfg.timestampToL1Slot timestamp
  if lookahead.endOfSequencingMark = toEpoch slot then true
  else
    let seqWindowFirstSlot := nextMultipleOf slot EPOCH_SLOTS - lookahead.cfg.handoverWindowSlots
    let seqWindowTs := lookahead.cfg.slotToTimestamp seqWindowFirstSlot
    lookahead.cfg.handoverSkipSlots * lookahead.cfg.l2BlockTime ≤ timestamp - seqWindowTs

/-- The status of the driver at a head slot, at the given time. -/
def driverStatus (lookahead : Lookahead) (timestamp headSlot : Nat) : DriverStatus :=
  if lookahead.inSequencingWindow headSlot && lookahead.inInclusionWindow headSlot then .active
  else if lookahead.inSequencingWindow headSlot then
    if lookahead.isPastHandoverBuffer timestamp then .sequencingOnly else .handoverWait
  else if lookahead.inInclusionWindow headSlot then .inclusionOnly
  else .inactive

/-- The update of both windows in `Lookahead::sync`, from the operators read. -/
def calculate (lookahead : Lookahead) (headSlot : Nat) (currentOperator nextOperator : Address) :
    Lookahead :=
  let seqCurrentEpoch := currentOperator = lookahead.cfg.operator
  let seqNextEpoch := nextOperator = lookahead.cfg.operator
  let inclusionWindow := lookahead.inclusionWindow.calculate headSlot seqCurrentEpoch seqNextEpoch
  { lookahead with
    inclusionWindow := inclusionWindow
    sequencingWindow := lookahead.sequencingWindow.calculateFrom inclusionWindow }

/-- `Lookahead::sync`. An operator is `none` if reading it failed; in the first slot of an epoch
nothing is read. -/
def sync (lookahead : Lookahead) (headSlot : Nat) (currentOperator nextOperator : Option Address) :
    Lookahead :=
  if headSlot % EPOCH_SLOTS = 0 then lookahead
  else
    match currentOperator, nextOperator with
    | some currentOperator, some nextOperator =>
        lookahead.calculate headSlot currentOperator nextOperator
    | _, _ => lookahead

/-- Record the epoch of an end-of-sequencing event. -/
def updateEndOfSequencingMark (lookahead : Lookahead) (epoch : Nat) : Lookahead :=
  { lookahead with endOfSequencingMark := epoch }

/-- The end of the inclusion window. -/
def inclusionWindowEnd (lookahead : Lookahead) : Nat := lookahead.inclusionWindow.end'

/-- Whether a slot is in a new inclusion window. -/
def isNewInclusionWindow (lookahead : Lookahead) (l1HeadSlot : Nat) : Bool :=
  lookahead.inclusionWindow.isNew l1HeadSlot

/-- Whether a timestamp is that of the last block of the current sequencing window. -/
def isLastBlockInSequencingWindow (lookahead : Lookahead) (timestamp : Nat) : Bool :=
  let slot := lookahead.cfg.timestampToL1Slot timestamp
  if lookahead.sequencingWindow.end' - 1 ≠ slot then false
  else
    let slotTs := lookahead.cfg.slotToTimestamp slot
    let lastTs := slotTs + lookahead.cfg.l1BlockTime - lookahead.cfg.l2BlockTime
    timestamp = lastTs

end Lookahead

end Mk1
