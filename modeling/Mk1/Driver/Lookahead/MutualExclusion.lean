import Mk1.Driver.Lookahead.EpochMap

/-!
# Sequencers exclude each other

Two drivers that read the operators of the epochs from one schedule are never
both in their sequencing window nor both in their inclusion window. The
sequencing window is the inclusion window moved back by the handover offset, so
both statements are about the epochs that are set in the ring, and an epoch is
only ever set by a driver that the schedule assigns it to.
-/

namespace Mk1

namespace Window

/-! ## The sequencing window has the epochs of the inclusion window -/

/-- Setting epochs with different places sets exactly these, besides those already set. -/
theorem isSet_foldl_applyEpoch {kind : WindowKind} {window : Window kind} (h : window.WellFormed)
    {epochs : List Nat} (hplaces : epochs.Pairwise fun a b => a % WINDOW_SIZE ≠ b % WINDOW_SIZE)
    (hbounds : ∀ epoch ∈ epochs, toSlot epoch + EPOCH_SLOTS ≤ u64Max) :
    (epochs.foldl applyEpoch window).WellFormed ∧
      (epochs.foldl applyEpoch window).offset = window.offset ∧
      ∀ epoch, (epochs.foldl applyEpoch window).IsSet epoch ↔ epoch ∈ epochs ∨
        (window.IsSet epoch ∧ ∀ other ∈ epochs, epoch % WINDOW_SIZE ≠ other % WINDOW_SIZE) := by
  induction epochs generalizing window with
  | nil => exact ⟨h, rfl, by simp⟩
  | cons first rest ih =>
      obtain ⟨hfirst, hrest⟩ := List.pairwise_cons.mp hplaces
      obtain ⟨hwf, hoffset, hset⟩ := ih (h.applyEpoch (hbounds first (by simp))) hrest
        fun epoch hepoch => hbounds epoch (by simp [hepoch])
      refine ⟨hwf, hoffset, fun epoch => ?_⟩
      rw [List.foldl_cons, hset, ring_applyEpoch h, DirectMapped.mem_insert_iff, mem_ring]
      constructor
      · rintro (hmem | ⟨rfl | ⟨hne, hold⟩, hothers⟩)
        · exact .inl (List.mem_cons_of_mem _ hmem)
        · exact .inl (by simp)
        · refine .inr ⟨hold, fun other hother => ?_⟩
          rcases List.mem_cons.mp hother with rfl | hother
          · exact hne
          · exact hothers other hother
      · rintro (hmem | ⟨hold, hothers⟩)
        · rcases List.mem_cons.mp hmem with rfl | hmem
          · exact .inr ⟨.inl rfl, fun other hother => hfirst other hother⟩
          · exact .inl hmem
        · refine .inr ⟨.inr ⟨hothers first (by simp), hold⟩, fun other hother => ?_⟩
          exact hothers other (by simp [hother])

/-- The epochs set in a well-formed window. -/
theorem mem_set_epochs {window : Window .inclusion} (h : window.WellFormed) (epoch : Nat) :
    epoch ∈ (window.entries.filter Prod.fst).map Prod.snd ↔ window.IsSet epoch := by
  constructor
  · intro hmem
    obtain ⟨entry, hentry, rfl⟩ := List.mem_map.mp hmem
    obtain ⟨hmem, hset⟩ := List.mem_filter.mp hentry
    obtain ⟨index, rfl⟩ := List.mem_ofFn.mp hmem
    rcases h index with ⟨other, hother, hplace, -⟩ | hunset
    · rw [hother]
      have hindex : Fin.ofNat WINDOW_SIZE other = index := Fin.ext hplace
      show window.inner (Fin.ofNat WINDOW_SIZE other) = (true, other)
      rw [hindex, hother]
    · rw [hunset] at hset
      cases hset
  · intro hset
    refine List.mem_map.mpr ⟨(true, epoch), List.mem_filter.mpr ⟨?_, rfl⟩, rfl⟩
    exact List.mem_ofFn.mpr ⟨Fin.ofNat WINDOW_SIZE epoch, hset⟩

/-- The epochs set in a well-formed window have different places. -/
theorem set_epochs_places {window : Window .inclusion} (h : window.WellFormed) :
    ((window.entries.filter Prod.fst).map Prod.snd).Pairwise
      fun a b => a % WINDOW_SIZE ≠ b % WINDOW_SIZE := by
  have hplace : ∀ index, (window.inner index).1 = true →
      (window.inner index).2 % WINDOW_SIZE = index.val := by
    intro index hset
    rcases h index with ⟨other, hother, hplace, -⟩ | hunset
    · rw [hother]
      exact hplace
    · rw [hunset] at hset
      cases hset
  refine List.pairwise_map.mpr (List.pairwise_filter.mpr (List.pairwise_ofFn.mpr ?_))
  intro first second hlt hfirst hsecond
  rw [hplace first hfirst, hplace second hsecond]
  exact (Fin.val_ne_iff.mpr hlt.ne)

/-- The sequencing window calculated from an inclusion window has the same epochs set. -/
theorem calculateFrom_spec {inclusionWindow : Window .inclusion} (h : inclusionWindow.WellFormed)
    (window : Window .sequencing) :
    (window.calculateFrom inclusionWindow).WellFormed ∧
      (window.calculateFrom inclusionWindow).offset = window.offset ∧
      ∀ epoch, (window.calculateFrom inclusionWindow).IsSet epoch ↔
        inclusionWindow.IsSet epoch := by
  have hbounds : ∀ epoch ∈ (inclusionWindow.entries.filter Prod.fst).map Prod.snd,
      toSlot epoch + EPOCH_SLOTS ≤ u64Max := by
    intro epoch hepoch
    have hset : inclusionWindow.IsSet epoch := (mem_set_epochs h epoch).mp hepoch
    rcases h (Fin.ofNat WINDOW_SIZE epoch) with ⟨other, hother, -, hbound⟩ | hunset
    · cases hother.symm.trans hset
      exact hbound
    · cases hunset.symm.trans hset
  have hcleared : (⟨cleared, window.offset⟩ : Window .sequencing).WellFormed :=
    wellFormed_cleared window.offset
  obtain ⟨hwf, hoffset, hset⟩ := isSet_foldl_applyEpoch hcleared (set_epochs_places h) hbounds
  refine ⟨hwf, hoffset, fun epoch => ?_⟩
  show ((List.foldl applyEpoch _ _)).IsSet epoch ↔ _
  rw [hset, mem_set_epochs h]
  simp [IsSet, cleared]

end Window

/-! ## Drivers that follow a schedule -/

/-- A lookahead that is calculated at each head slot with the operators that the schedule has for
its epoch and for the next one. -/
def Lookahead.followSchedule (schedule : Nat → Address) (lookahead : Lookahead)
    (headSlots : List Nat) : Lookahead :=
  headSlots.foldl (fun lookahead headSlot => lookahead.calculate headSlot
    (schedule (toEpoch headSlot)) (schedule (toEpoch headSlot + 1))) lookahead

/-- What a driver with this operator reports at a head slot. -/
def scheduleReport (schedule : Nat → Address) (operator : Address) (headSlot : Nat) :
    EpochReport :=
  { headSlot := headSlot
    sequencerCurrentEpoch := schedule (toEpoch headSlot) = operator
    sequencerNextEpoch := schedule (toEpoch headSlot + 1) = operator }

/-- The lookahead follows the schedule: its inclusion window is the one calculated from the
reports, its sequencing window has the same epochs, and all of them are its operator's. -/
structure Follows (schedule : Nat → Address) (cfg : RuntimeConfig) (headSlots : List Nat)
    (lookahead : Lookahead) : Prop where
  cfg_eq : lookahead.cfg = cfg
  inclusion : lookahead.inclusionWindow =
    Window.default.calculateAll (headSlots.map (scheduleReport schedule cfg.operator))
  wellFormed : lookahead.sequencingWindow.WellFormed
  offset : lookahead.sequencingWindow.offset = cfg.handoverWindowSlots
  sequencing : ∀ epoch, lookahead.sequencingWindow.IsSet epoch ↔
    lookahead.inclusionWindow.IsSet epoch
  owned : ∀ epoch, lookahead.inclusionWindow.IsSet epoch → schedule epoch = cfg.operator

theorem follows_new (schedule : Nat → Address) (cfg : RuntimeConfig) :
    Follows schedule cfg [] (.new cfg) where
  cfg_eq := rfl
  inclusion := rfl
  wellFormed := Window.wellFormed_cleared _
  offset := rfl
  sequencing epoch := by simp [Window.IsSet, Lookahead.new, Window.withOffset, Window.default]
  owned epoch h := by cases h

section Schedule

variable {schedule : Nat → Address} {cfg : RuntimeConfig} {headSlots : List Nat}

/-- The head slots never decrease, and the slots of the epoch after each are `u64` values. -/
structure ValidHeads (headSlots : List Nat) : Prop where
  sorted : headSlots.Pairwise (· ≤ ·)
  bounds : ∀ headSlot ∈ headSlots, toSlot (toEpoch headSlot + 1) + EPOCH_SLOTS ≤ u64Max

theorem ValidHeads.tracks (h : ValidHeads headSlots) (schedule : Nat → Address)
    (operator : Address) :
    Tracks (lastEpoch (headSlots.map (scheduleReport schedule operator)))
      (Window.default.calculateAll (headSlots.map (scheduleReport schedule operator)))
      (lastReport (headSlots.map (scheduleReport schedule operator))) := by
  refine tracks_calculateAll (List.pairwise_map.mpr h.sorted) ?_
  intro report hreport
  obtain ⟨headSlot, hmem, rfl⟩ := List.mem_map.mp hreport
  exact h.bounds headSlot hmem

/-- One more calculation keeps following the schedule. -/
theorem Follows.calculate {lookahead : Lookahead} (h : Follows schedule cfg headSlots lookahead)
    {headSlot : Nat} (hheads : ValidHeads (headSlots ++ [headSlot])) :
    Follows schedule cfg (headSlots ++ [headSlot]) (lookahead.calculate headSlot
      (schedule (toEpoch headSlot)) (schedule (toEpoch headSlot + 1))) := by
  have hheads' : ValidHeads headSlots :=
    ⟨(List.pairwise_append.mp hheads.sorted).1, fun head hhead =>
      hheads.bounds head (by simp [hhead])⟩
  have hbound := hheads.bounds headSlot (by simp)
  have htracks := hheads'.tracks schedule cfg.operator
  rw [← h.inclusion] at htracks
  have hwf : (lookahead.inclusionWindow.calculate headSlot
      (schedule (toEpoch headSlot) = cfg.operator)
      (schedule (toEpoch headSlot + 1) = cfg.operator)).WellFormed :=
    htracks.wellFormed.calculate hbound
  obtain ⟨hsequencing, hoffset, hset⟩ :=
    Window.calculateFrom_spec hwf lookahead.sequencingWindow
  have hcfg := h.cfg_eq
  subst hcfg
  refine ⟨rfl, ?_, hsequencing, hoffset.trans h.offset, hset, ?_⟩
  · rw [List.map_append, List.map_singleton, Window.calculateAll_append_singleton, ← h.inclusion]
    rfl
  · intro epoch hepoch
    by_cases hcurrent : epoch = toEpoch headSlot
    · subst hcurrent
      exact of_decide_eq_true
        ((Window.isSet_calculate_current htracks.wellFormed htracks.offset hbound).mp hepoch)
    by_cases hnext : epoch = toEpoch headSlot + 1
    · subst hnext
      exact of_decide_eq_true
        ((Window.isSet_calculate_next htracks.wellFormed htracks.offset hbound).mp hepoch)
    exact h.owned epoch (Window.isSet_of_isSet_calculate htracks.wellFormed htracks.offset hbound
      hcurrent hnext hepoch)

/-- A driver that started without windows follows the schedule after every calculation. -/
theorem follows_followSchedule (schedule : Nat → Address) (cfg : RuntimeConfig)
    (h : ValidHeads headSlots) :
    Follows schedule cfg headSlots ((Lookahead.new cfg).followSchedule schedule headSlots) := by
  induction headSlots using List.reverseRecOn with
  | nil => exact follows_new schedule cfg
  | append_singleton headSlots headSlot ih =>
      have hfollows := ih ⟨(List.pairwise_append.mp h.sorted).1, fun head hhead =>
        h.bounds head (by simp [hhead])⟩
      have hstep := hfollows.calculate h
      simpa [Lookahead.followSchedule] using hstep

/-- The slots of the inclusion window are those of the set epochs. -/
theorem Follows.inInclusionWindow_iff {lookahead : Lookahead}
    (h : Follows schedule cfg headSlots lookahead) (hheads : ValidHeads headSlots) (slot : Nat) :
    lookahead.inInclusionWindow slot = true ↔ lookahead.inclusionWindow.IsSet (toEpoch slot) := by
  have htracks := hheads.tracks schedule cfg.operator
  rw [← h.inclusion] at htracks
  have hcontains := Window.contains_iff htracks.wellFormed (by rw [htracks.offset]; omega) slot
  rwa [htracks.offset, Nat.add_zero] at hcontains

/-- The slots of the sequencing window are those of the set epochs, moved back by the offset. -/
theorem Follows.inSequencingWindow_iff {lookahead : Lookahead}
    (h : Follows schedule cfg headSlots lookahead) (hsmall : cfg.handoverWindowSlots ≤ EPOCH_SLOTS)
    (slot : Nat) :
    lookahead.inSequencingWindow slot = true ↔
      lookahead.inclusionWindow.IsSet (toEpoch (slot + cfg.handoverWindowSlots)) := by
  have hcontains := Window.contains_iff h.wellFormed (by rw [h.offset]; exact hsmall) slot
  rw [h.offset, h.sequencing] at hcontains
  exact hcontains

/-- Around the last head, a driver is in its sequencing window exactly in the epochs it owns. -/
theorem Follows.sequences_iff_owns {lookahead : Lookahead}
    (h : Follows schedule cfg headSlots lookahead) (hheads : ValidHeads headSlots)
    (hsmall : cfg.handoverWindowSlots ≤ EPOCH_SLOTS) {epoch headSlot slot : Nat}
    (hlast : headSlots.getLast? = some headSlot)
    (hepoch : toEpoch headSlot + 1 = epoch ∨ toEpoch headSlot = epoch)
    (hlow : toSlot epoch - cfg.handoverWindowSlots ≤ slot)
    (hhigh : slot < toSlot epoch + EPOCH_SLOTS - cfg.handoverWindowSlots) :
    lookahead.inSequencingWindow slot = true ↔ schedule epoch = cfg.operator := by
  have hslot : toEpoch (slot + cfg.handoverWindowSlots) = epoch := by
    unfold toSlot toEpoch EPOCH_SLOTS at *
    omega
  have htracks := hheads.tracks schedule cfg.operator
  rw [← h.inclusion] at htracks
  obtain ⟨earlier, rfl⟩ := List.getLast?_eq_some_iff.mp hlast
  have hhead : lastEpoch ((earlier ++ [headSlot]).map (scheduleReport schedule cfg.operator)) =
      toEpoch headSlot := by
    simp [lastEpoch, scheduleReport, EpochReport.epoch]
  rw [hhead] at htracks
  rw [h.inSequencingWindow_iff hsmall, hslot, htracks.near epoch (by omega), List.map_append,
    List.map_singleton, lastReport_append_singleton]
  rcases hepoch with rfl | rfl
  · simp [EpochReport.about, EpochReport.epoch, scheduleReport]
  · simp [EpochReport.about, EpochReport.epoch, scheduleReport]

end Schedule

/-! ## Mutual exclusion -/

/-- A driver that can sequence is in its sequencing window. -/
theorem Lookahead.inSequencingWindow_of_canSequence {lookahead : Lookahead}
    {timestamp headSlot : Nat}
    (h : (lookahead.driverStatus timestamp headSlot).canSequence = true) :
    lookahead.inSequencingWindow headSlot = true := by
  unfold Lookahead.driverStatus at h
  cases hsequencing : lookahead.inSequencingWindow headSlot with
  | true => rfl
  | false =>
      rw [hsequencing] at h
      cases hinclusion : lookahead.inInclusionWindow headSlot with
      | true => simp [hinclusion, DriverStatus.canSequence] at h
      | false => simp [hinclusion, DriverStatus.canSequence] at h

/-- A driver that can propose is in its inclusion window. -/
theorem Lookahead.inInclusionWindow_of_canPropose {lookahead : Lookahead}
    {timestamp headSlot : Nat}
    (h : (lookahead.driverStatus timestamp headSlot).canPropose = true) :
    lookahead.inInclusionWindow headSlot = true := by
  unfold Lookahead.driverStatus at h
  cases hinclusion : lookahead.inInclusionWindow headSlot with
  | true => rfl
  | false =>
      rw [hinclusion, Bool.and_false, if_neg Bool.false_ne_true] at h
      split at h
      · split at h
        · cases h
        · cases h
      · cases h

/-- Around its last head, a driver that follows the schedule is in its sequencing window exactly
in the epochs that the schedule assigns to it. -/
def SequencesOwnEpochs (schedule : Nat → Address) (cfg : RuntimeConfig) (headSlots : List Nat) :
    Prop :=
  ∀ epoch headSlot slot, headSlots.getLast? = some headSlot →
    toEpoch headSlot + 1 = epoch ∨ toEpoch headSlot = epoch →
      toSlot epoch - cfg.handoverWindowSlots ≤ slot →
        slot < toSlot epoch + EPOCH_SLOTS - cfg.handoverWindowSlots →
          (((Lookahead.new cfg).followSchedule schedule headSlots).inSequencingWindow slot = true ↔
            schedule epoch = cfg.operator)

/-- Two drivers with different operators and one handover offset, each following the schedule at
head slots of its own, are never both in their sequencing window nor both in their inclusion
window, never both allowed to sequence nor both to propose, and each sequences in the epochs
that it owns. -/
theorem sequencers_exclude_each_other (schedule : Nat → Address) (first second : RuntimeConfig)
    (hoperators : first.operator ≠ second.operator)
    (hoffset : first.handoverWindowSlots = second.handoverWindowSlots)
    (hsmall : first.handoverWindowSlots ≤ EPOCH_SLOTS) (heads heads' : List Nat)
    (hheads : ValidHeads heads) (hheads' : ValidHeads heads') :
    (∀ slot,
      let here := (Lookahead.new first).followSchedule schedule heads
      let there := (Lookahead.new second).followSchedule schedule heads'
      ¬ (here.inSequencingWindow slot = true ∧ there.inSequencingWindow slot = true) ∧
      ¬ (here.inInclusionWindow slot = true ∧ there.inInclusionWindow slot = true) ∧
      ∀ timestamp timestamp',
        ¬ ((here.driverStatus timestamp slot).canSequence = true ∧
          (there.driverStatus timestamp' slot).canSequence = true) ∧
        ¬ ((here.driverStatus timestamp slot).canPropose = true ∧
          (there.driverStatus timestamp' slot).canPropose = true)) ∧
      SequencesOwnEpochs schedule first heads ∧ SequencesOwnEpochs schedule second heads' := by
  have hfirst := follows_followSchedule schedule first hheads
  have hsecond := follows_followSchedule schedule second hheads'
  refine ⟨fun slot => ?_, ?_, ?_⟩
  · intro here there
    -- with one offset, both windows would stand for the same epoch and its one owner
    have hsequencing : ¬ (here.inSequencingWindow slot = true ∧
        there.inSequencingWindow slot = true) := by
      rintro ⟨hin, hin'⟩
      have howned := hfirst.owned _ ((hfirst.inSequencingWindow_iff hsmall slot).mp hin)
      have howned' := hsecond.owned _
        ((hsecond.inSequencingWindow_iff (hoffset ▸ hsmall) slot).mp hin')
      rw [← hoffset] at howned'
      exact hoperators (howned.symm.trans howned')
    have hinclusion : ¬ (here.inInclusionWindow slot = true ∧
        there.inInclusionWindow slot = true) := by
      rintro ⟨hin, hin'⟩
      have howned := hfirst.owned _ ((hfirst.inInclusionWindow_iff hheads slot).mp hin)
      have howned' := hsecond.owned _ ((hsecond.inInclusionWindow_iff hheads' slot).mp hin')
      exact hoperators (howned.symm.trans howned')
    refine ⟨hsequencing, hinclusion, fun timestamp timestamp' => ⟨?_, ?_⟩⟩
    · rintro ⟨hcan, hcan'⟩
      exact hsequencing ⟨Lookahead.inSequencingWindow_of_canSequence hcan,
        Lookahead.inSequencingWindow_of_canSequence hcan'⟩
    · rintro ⟨hcan, hcan'⟩
      exact hinclusion ⟨Lookahead.inInclusionWindow_of_canPropose hcan,
        Lookahead.inInclusionWindow_of_canPropose hcan'⟩
  · exact fun epoch headSlot slot => hfirst.sequences_iff_owns hheads hsmall
  · exact fun epoch headSlot slot => hsecond.sequences_iff_owns hheads' (hoffset ▸ hsmall)

/-- A schedule that gives epoch 3 to operator 1 and every other epoch to operator 2. -/
def thirdEpochSchedule (epoch : Nat) : Address := if epoch = 3 then 1 else 2

/-- Slot 95 belongs to operator 1, who sequences epoch 3 from slot 92 on. -/
theorem sequencers_exclude_each_other_at_slot_95 :
    ¬ (((Lookahead.new (defaultConfig 1)).followSchedule thirdEpochSchedule
        [70, 100]).inSequencingWindow 95 = true ∧
      ((Lookahead.new (defaultConfig 2)).followSchedule thirdEpochSchedule
        [40, 90]).inSequencingWindow 95 = true) := by
  have hheads : ValidHeads [70, 100] := ⟨by decide, by decide⟩
  have hheads' : ValidHeads [40, 90] := ⟨by decide, by decide⟩
  exact ((sequencers_exclude_each_other thirdEpochSchedule (defaultConfig 1) (defaultConfig 2)
    (by decide) rfl (by decide) [70, 100] [40, 90] hheads hheads').1 95).1

end Mk1
