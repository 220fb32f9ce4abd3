import Mk1.Driver.Lookahead.MutualExclusion

/-!
# Epochs that the schedule gives to the operator

A lookahead whose operators are read from a schedule of epochs only ever sets epochs
that the schedule gives to its operator, in whatever order the head slots come, if reads
fail now and then, and whatever it leaves out in the first slot of an epoch. So each slot
of its sequencing window stands for an epoch of its own.
-/

namespace Mk1

/-- The operators that were read for a slot are those of the schedule, if any are read. -/
def ReadsFollow (schedule : Nat → Address) (slot : Nat)
    (currentOperator nextOperator : Option Address) : Prop :=
  slot % EPOCH_SLOTS ≠ 0 →
    currentOperator.all (· = schedule (toEpoch slot)) ∧
      nextOperator.all (· = schedule (toEpoch slot + 1)) ∧
      toSlot (toEpoch slot + 1) + EPOCH_SLOTS ≤ u64Max

instance (schedule : Nat → Address) (slot : Nat) (currentOperator nextOperator : Option Address) :
    Decidable (ReadsFollow schedule slot currentOperator nextOperator) :=
  inferInstanceAs (Decidable (slot % EPOCH_SLOTS ≠ 0 → _))

namespace Lookahead

/-- Both windows have the same epochs, and the schedule gives all of them to the operator. -/
structure OwnsEpochs (schedule : Nat → Address) (lookahead : Lookahead) : Prop where
  inclusion : lookahead.inclusionWindow.WellFormed
  inclusionOffset : lookahead.inclusionWindow.offset = 0
  sequencing : lookahead.sequencingWindow.WellFormed
  sequencingOffset : lookahead.sequencingWindow.offset = lookahead.cfg.handoverWindowSlots
  same : ∀ epoch, lookahead.sequencingWindow.IsSet epoch ↔ lookahead.inclusionWindow.IsSet epoch
  owned : ∀ epoch, lookahead.inclusionWindow.IsSet epoch →
    schedule epoch = lookahead.cfg.operator

variable {schedule : Nat → Address} {lookahead : Lookahead}

/-- A new lookahead has no epochs. -/
theorem ownsEpochs_new (schedule : Nat → Address) (cfg : RuntimeConfig) :
    OwnsEpochs schedule (.new cfg) where
  inclusion := Window.wellFormed_cleared _
  inclusionOffset := rfl
  sequencing := Window.wellFormed_cleared _
  sequencingOffset := rfl
  same epoch := by simp [Window.IsSet, Lookahead.new, Window.withOffset, Window.default]
  owned epoch h := by cases h

/-- Calculating the windows sets the epochs of the operator around the head slot. -/
theorem OwnsEpochs.calculate (h : lookahead.OwnsEpochs schedule) {headSlot : Nat}
    (hbound : toSlot (toEpoch headSlot + 1) + EPOCH_SLOTS ≤ u64Max) :
    (lookahead.calculate headSlot (schedule (toEpoch headSlot))
      (schedule (toEpoch headSlot + 1))).OwnsEpochs schedule := by
  have hwf : (lookahead.inclusionWindow.calculate headSlot
      (schedule (toEpoch headSlot) = lookahead.cfg.operator)
      (schedule (toEpoch headSlot + 1) = lookahead.cfg.operator)).WellFormed :=
    h.inclusion.calculate hbound
  obtain ⟨hsequencing, hoffset, hset⟩ :=
    Window.calculateFrom_spec hwf lookahead.sequencingWindow
  refine ⟨hwf, ?_, hsequencing, hoffset.trans h.sequencingOffset, hset, fun epoch hepoch => ?_⟩
  · exact Window.offset_calculate.trans h.inclusionOffset
  · by_cases hcurrent : epoch = toEpoch headSlot
    · subst hcurrent
      exact of_decide_eq_true
        ((Window.isSet_calculate_current h.inclusion h.inclusionOffset hbound).mp hepoch)
    by_cases hnext : epoch = toEpoch headSlot + 1
    · subst hnext
      exact of_decide_eq_true
        ((Window.isSet_calculate_next h.inclusion h.inclusionOffset hbound).mp hepoch)
    exact h.owned epoch (Window.isSet_of_isSet_calculate h.inclusion h.inclusionOffset hbound
      hcurrent hnext hepoch)

/-- A sync with operators of the schedule keeps to the epochs of the operator. -/
theorem OwnsEpochs.sync (h : lookahead.OwnsEpochs schedule) {headSlot : Nat}
    {currentOperator nextOperator : Option Address}
    (hreads : ReadsFollow schedule headSlot currentOperator nextOperator) :
    (lookahead.sync headSlot currentOperator nextOperator).OwnsEpochs schedule := by
  unfold Lookahead.sync
  split
  · exact h
  · next hslot =>
      obtain ⟨hcurrent, hnext, hbound⟩ := hreads hslot
      split
      · next current next =>
          obtain rfl : current = schedule (toEpoch headSlot) := of_decide_eq_true hcurrent
          obtain rfl : next = schedule (toEpoch headSlot + 1) := of_decide_eq_true hnext
          exact h.calculate hbound
      · exact h

/-- The mark of the end of sequencing is not part of the windows. -/
theorem OwnsEpochs.updateEndOfSequencingMark (h : lookahead.OwnsEpochs schedule) (epoch : Nat) :
    (lookahead.updateEndOfSequencingMark epoch).OwnsEpochs schedule :=
  ⟨h.inclusion, h.inclusionOffset, h.sequencing, h.sequencingOffset, h.same, h.owned⟩

/-- A slot of the sequencing window stands for an epoch of the operator. -/
theorem OwnsEpochs.of_inSequencingWindow (h : lookahead.OwnsEpochs schedule)
    (hsmall : lookahead.cfg.handoverWindowSlots ≤ EPOCH_SLOTS) {slot : Nat}
    (hslot : lookahead.inSequencingWindow slot = true) :
    schedule (toEpoch (slot + lookahead.cfg.handoverWindowSlots)) = lookahead.cfg.operator := by
  have hcontains := Window.contains_iff h.sequencing
    (by rw [h.sequencingOffset]; exact hsmall) slot
  rw [h.sequencingOffset, h.same] at hcontains
  exact h.owned _ (hcontains.mp hslot)

/-- A sync keeps the configuration. -/
theorem cfg_sync (lookahead : Lookahead) (headSlot : Nat)
    (currentOperator nextOperator : Option Address) :
    (lookahead.sync headSlot currentOperator nextOperator).cfg = lookahead.cfg := by
  unfold Lookahead.sync
  split
  · rfl
  · split
    · rfl
    · rfl

end Lookahead

end Mk1
