import Mk1.Driver.SoftBlocks.Polling

/-!
# Partial downloads

A block without an anchor transaction ends the download with the blocks that have been
anchored by then. `partial_download_iff` says when these start at the first block of
the range. The gap check finds a gap between them, but not one in front of them.
-/

namespace Mk1

/-- The numbers of the blocks leave no gap. -/
def NoGap (blocks : List AnchoredBlock) : Prop :=
  ∃ first, (blocks.map AnchoredBlock.number).Perm (List.range' first blocks.length)

/-- The blocks are the first ones of a range. -/
def Initial (range : RangeInclusive) (soft : ContiguousAnchoredBlocks) : Prop :=
  soft.blocks.map AnchoredBlock.number = List.range' range.start soft.blocks.length

namespace BlockDownloadTask

/-- When a block without an anchor transaction arrives, no block is anchored, or the first block of
the range does not wait for its anchor, or the anchored blocks leave a gap, which is found. -/
def StopsInOrder (range : RangeInclusive) (task : BlockDownloadTask) (event : DownloadEvent) :
    Prop :=
  ∀ block, event = .block (some block) → block.anchorBlockId = none → task.blockFuts ≠ [] →
    task.out = [] ∨ (∀ waiting ∈ task.waiting, waiting.header.number ≠ range.start) ∨
      ¬ NoGap task.out

variable {range : RangeInclusive} {task : BlockDownloadTask}

/-- The blocks of a task that has been stopped are the first ones exactly in these cases. -/
theorem Accounted.initial_iff (h : task.Accounted range) :
    (∀ soft, ContiguousAnchoredBlocks.new task.out = .ok soft → soft.blocks ≠ [] →
        Initial range soft) ↔
      task.out = [] ∨ (∀ waiting ∈ task.waiting, waiting.header.number ≠ range.start) ∨
        ¬ NoGap task.out := by
  obtain ⟨arrived, -, hle, hnumbers⟩ := h.arrived
  constructor
  · intro hinitial
    by_contra hcondition
    push Not at hcondition
    obtain ⟨hne, ⟨block, hblock, hfirst⟩, first, hgap⟩ := hcondition
    obtain ⟨soft, hsoft⟩ := ContiguousAnchoredBlocks.exists_new_eq_ok hgap
    have hperm := ContiguousAnchoredBlocks.perm_of_new hsoft
    have hnonempty : soft.blocks ≠ [] := fun hnil => hne (List.nil_perm.mp (hnil ▸ hperm))
    have hmap : soft.blocks.map AnchoredBlock.number = _ := hinitial soft hsoft hnonempty
    -- the first block would be anchored although it waits
    have hanchored : range.start ∈ task.out.map AnchoredBlock.number := by
      rw [← (hperm.map AnchoredBlock.number).mem_iff, hmap, List.mem_range'_1]
      have hpos := List.length_pos_iff.mpr hnonempty
      omega
    have hwaiting : range.start ∈ task.waiting.map fun block => block.header.number := by
      rw [← hfirst]
      exact List.mem_map_of_mem hblock
    have hnodup := hnumbers.nodup_iff.mpr List.nodup_range'
    exact (List.nodup_append.mp hnodup).2.2 _ hanchored _ hwaiting rfl
  · intro hcondition soft hsoft hnonempty
    obtain ⟨hblocks, first, hgap⟩ := ContiguousAnchoredBlocks.new_eq_ok.mp hsoft
    have hperm := ContiguousAnchoredBlocks.perm_of_new hsoft
    have hpos := List.length_pos_iff.mpr hnonempty
    have hlength := hperm.length_eq
    have hfirst : first = range.start := by
      have hnumber : first ∈ task.out.map AnchoredBlock.number :=
        hgap.mem_iff.mpr (List.mem_range'_1.mpr (by omega))
      have harrived : range.start ∈ List.range' range.start arrived := by
        have hmem := hnumbers.mem_iff.mp (List.mem_append_left _ hnumber)
        rw [List.mem_range'_1] at hmem ⊢
        omega
      have hstart := List.mem_range'_1.mp
        (hnumbers.mem_iff.mp (List.mem_append_left _ hnumber))
      obtain hnone | hanchored | hfound := hcondition
      · rw [hnone] at hlength
        exact absurd hlength (Nat.ne_of_gt hpos)
      · obtain hmem | hmem := List.mem_append.mp (hnumbers.mem_iff.mpr harrived)
        · have hle := List.mem_range'_1.mp (hgap.mem_iff.mp hmem)
          omega
        · obtain ⟨block, hblock, heq⟩ := List.mem_map.mp hmem
          exact absurd heq (hanchored block hblock)
      · exact absurd ⟨first, hgap⟩ hfound
    unfold Initial
    rw [hblocks, ContiguousAnchoredBlocks.map_number_sortByKey hgap, hfirst, ← hblocks, hlength]

/-- All blocks of a range are its first ones. -/
theorem Complete.initial {blocks : List AnchoredBlock} (h : Complete range blocks)
    {soft : ContiguousAnchoredBlocks} (hsoft : ContiguousAnchoredBlocks.new blocks = .ok soft) :
    Initial range soft := by
  have hlength := h.numbers.length_eq
  rw [List.length_map, List.length_range'] at hlength
  have hnumbers := h.numbers
  rw [← hlength] at hnumbers
  have hblocks := (ContiguousAnchoredBlocks.new_eq_ok.mp hsoft).1
  have hperm := ContiguousAnchoredBlocks.perm_of_new hsoft
  unfold Initial
  rw [hblocks, ContiguousAnchoredBlocks.map_number_sortByKey hnumbers, ← hblocks, hperm.length_eq]

/-- A block without an anchor transaction ends the download. -/
theorem progress_of_undecoded {block : Block} (hblock : block.anchorBlockId = none)
    (hfuts : task.blockFuts ≠ []) :
    task.progress (.block (some block)) = .ready (some task.out) := by
  unfold progress
  obtain ⟨number, rest, heq⟩ := List.exists_cons_of_ne_nil hfuts
  rw [heq]
  dsimp only
  rw [hblock]

/-- What a task that misses blocks returns: all blocks of the range, or those that were anchored
when a block without an anchor transaction arrived. -/
theorem Accounted.await_cases (h : task.Accounted range) (hopen : task.out.length ≠ task.count)
    {events : List DownloadEvent} (hhonest : Transition.StepsMeet step Honest task events)
    {out : List AnchoredBlock} (hawait : task.await events = some out) :
    Complete range out ∨ ∃ stopped : BlockDownloadTask, stopped.Accounted range ∧
      stopped.out = out ∧ ∃ block, .block (some block) ∈ events ∧ block.anchorBlockId = none := by
  induction events generalizing task with
  | nil => cases hawait
  | cons event rest ih =>
      unfold BlockDownloadTask.await at hawait
      obtain ⟨next, hprogress, hnext, hnextOpen⟩ | ⟨all, hprogress, hcomplete⟩ |
        ⟨hprogress, -, block, rfl, hblock⟩ | hprogress := h.progress hopen hhonest.1
      · rw [hprogress] at hawait
        obtain hcomplete | ⟨stopped, hstopped, hout, block, hmem, hblock⟩ :=
          ih hnext hnextOpen (hhonest.2 next (step_of_pending hprogress)) hawait
        · exact .inl hcomplete
        · exact .inr ⟨stopped, hstopped, hout, block, List.mem_cons_of_mem _ hmem, hblock⟩
      · rw [hprogress] at hawait
        cases hawait
        exact .inl hcomplete
      · rw [hprogress] at hawait
        exact .inr ⟨task, h, Option.some.inj hawait, block, List.mem_cons_self, hblock⟩
      · rw [hprogress] at hawait
        cases hawait

/-- What a task that misses blocks returns starts at the first block, if it is in order at every
stop. -/
theorem Accounted.await_initial_iff (h : task.Accounted range)
    (hopen : task.out.length ≠ task.count) {events : List DownloadEvent}
    (hhonest : Transition.StepsMeet step Honest task events) :
    (∀ out, task.await events = some out → ∀ soft, ContiguousAnchoredBlocks.new out = .ok soft →
        soft.blocks ≠ [] → Initial range soft) ↔
      Transition.StepsMeet step (StopsInOrder range) task events := by
  induction events generalizing task with
  | nil =>
      refine ⟨fun _ => trivial, fun _ out hout => ?_⟩
      cases hout
  | cons event rest ih =>
      unfold BlockDownloadTask.await
      by_cases hstop : ∃ block, event = .block (some block) ∧ block.anchorBlockId = none ∧
          task.blockFuts ≠ []
      · obtain ⟨block, rfl, hblock, hfuts⟩ := hstop
        have hprogress := progress_of_undecoded hblock hfuts
        rw [Transition.stepsMeet_cons_of_none (step_of_ready hprogress), hprogress]
        constructor
        · intro hinitial _ _ _ _
          exact h.initial_iff.mp (hinitial task.out rfl)
        · intro hstops out hout
          obtain rfl := Option.some.inj hout
          exact h.initial_iff.mpr (hstops block rfl hblock hfuts)
      · have hstops : StopsInOrder range task event := fun block hevent hblock hfuts =>
          absurd ⟨block, hevent, hblock, hfuts⟩ hstop
        obtain ⟨next, hprogress, hnext, hnextOpen⟩ | ⟨out, hprogress, hcomplete⟩ |
          ⟨-, hfuts, block, hevent, hblock⟩ | hprogress := h.progress hopen hhonest.1
        · rw [Transition.stepsMeet_cons_of_some (step_of_pending hprogress), hprogress,
            and_iff_right hstops]
          exact ih hnext hnextOpen (hhonest.2 next (step_of_pending hprogress))
        · rw [Transition.stepsMeet_cons_of_none (step_of_ready hprogress), hprogress]
          refine ⟨fun _ => hstops, fun _ reached hreached soft hsoft _ => ?_⟩
          obtain rfl := Option.some.inj hreached
          exact hcomplete.initial hsoft
        · exact absurd ⟨block, hevent, hblock, hfuts⟩ hstop
        · rw [Transition.stepsMeet_cons_of_none (step_of_ready hprogress), hprogress]
          refine ⟨fun _ => hstops, fun _ reached hreached => ?_⟩
          cases hreached

/-- A task without requests stays one. -/
theorem stopsInOrder_of_idle (hblocks : task.blockFuts = []) (hanchors : task.anchorFuts = [])
    (events : List DownloadEvent) :
    Transition.StepsMeet step (StopsInOrder range) task events := by
  have hidle : ∀ (state : BlockDownloadTask) (event : DownloadEvent) (next : BlockDownloadTask),
      state.blockFuts = [] ∧ state.anchorFuts = [] → True → step state event = some next →
        next.blockFuts = [] ∧ next.anchorFuts = [] := by
    rintro state event next ⟨hblocks, hanchors⟩ - hnext
    unfold step at hnext
    cases event with
    | anchor index result =>
        unfold progress at hnext
        rw [hanchors] at hnext
        cases hnext
        exact ⟨hblocks, hanchors⟩
    | block result =>
        unfold progress at hnext
        rw [hblocks] at hnext
        cases hnext
        exact ⟨hblocks, hanchors⟩
  refine Transition.stepsMeet_of_invariant hidle ?_ ⟨hblocks, hanchors⟩
    (Transition.stepsMeet_of_forall fun _ _ _ => trivial)
  rintro state event ⟨hblocks, -⟩ - block - - hfuts
  exact absurd hblocks hfuts

end BlockDownloadTask

/-- A download that succeeds with some blocks has the first ones of its range, if and only if the
task is in order whenever a block without an anchor transaction arrives. -/
theorem partial_download_iff {range : RangeInclusive} {events : List DownloadEvent}
    (hhonest : Transition.StepsMeet BlockDownloadTask.step BlockDownloadTask.Honest
      (.new range) events) :
    (∀ soft, download events range = some soft → soft.blocks ≠ [] → Initial range soft) ↔
      Transition.StepsMeet BlockDownloadTask.step (BlockDownloadTask.StopsInOrder range)
        (.new range) events := by
  have haccounted := BlockDownloadTask.accounted_new range
  have hdownload : (∀ soft, download events range = some soft → soft.blocks ≠ [] →
      Initial range soft) ↔
      ∀ out, (BlockDownloadTask.new range).run events = some out →
        ∀ soft, ContiguousAnchoredBlocks.new out = .ok soft → soft.blocks ≠ [] →
          Initial range soft := by
    constructor
    · intro hinitial out hrun soft hsoft
      exact hinitial soft (download_eq_some.mpr ⟨out, hrun, hsoft⟩)
    · intro hinitial soft hsoft
      obtain ⟨out, hrun, hnew⟩ := download_eq_some.mp hsoft
      exact hinitial out hrun soft hnew
  refine hdownload.trans ?_
  by_cases hcount : (BlockDownloadTask.new range).out.length = (BlockDownloadTask.new range).count
  · -- An empty range is ready at once.
    obtain ⟨hcomplete, hblocks⟩ := haccounted.complete hcount
    rw [BlockDownloadTask.run_of_complete hcount]
    refine ⟨fun _ => BlockDownloadTask.stopsInOrder_of_idle hblocks rfl events, ?_⟩
    intro _ out hout soft hsoft _
    obtain rfl := Option.some.inj hout
    exact hcomplete.initial hsoft
  · rw [BlockDownloadTask.run_of_open hcount]
    exact haccounted.await_initial_iff hcount hhonest

/-- What a download returns are all blocks of its range, sorted, or those that were anchored when a
block without an anchor transaction arrived. -/
theorem download_cases {range : RangeInclusive} {events : List DownloadEvent}
    (hhonest : Transition.StepsMeet BlockDownloadTask.step BlockDownloadTask.Honest
      (.new range) events) {soft : ContiguousAnchoredBlocks}
    (hsoft : download events range = some soft) :
    ∃ out, ContiguousAnchoredBlocks.new out = .ok soft ∧
      (BlockDownloadTask.Complete range out ∨ ∃ stopped : BlockDownloadTask,
        stopped.Accounted range ∧ stopped.out = out ∧
          ∃ block, .block (some block) ∈ events ∧ block.anchorBlockId = none) := by
  have haccounted := BlockDownloadTask.accounted_new range
  obtain ⟨out, hrun, hnew⟩ := download_eq_some.mp hsoft
  refine ⟨out, hnew, ?_⟩
  by_cases hcount : (BlockDownloadTask.new range).out.length = (BlockDownloadTask.new range).count
  · rw [BlockDownloadTask.run_of_complete hcount] at hrun
    cases hrun
    exact .inl (haccounted.complete hcount).1
  · rw [BlockDownloadTask.run_of_open hcount] at hrun
    exact haccounted.await_cases hcount hhonest hrun

/-- Only blocks of the range are downloaded. -/
theorem number_mem_of_download {range : RangeInclusive} {events : List DownloadEvent}
    (hhonest : Transition.StepsMeet BlockDownloadTask.step BlockDownloadTask.Honest
      (.new range) events) {soft : ContiguousAnchoredBlocks}
    (hsoft : download events range = some soft) :
    ∀ anchored ∈ soft.blocks, anchored.number ∈ range := by
  obtain ⟨out, hnew, hout⟩ := download_cases hhonest hsoft
  have hrange : ∀ number ∈ out.map AnchoredBlock.number, number ∈ range := by
    obtain hcomplete | ⟨stopped, hstopped, rfl, -⟩ := hout
    · intro number hnumber
      have hmem := List.mem_range'_1.mp (hcomplete.numbers.mem_iff.mp hnumber)
      exact ⟨hmem.1, by omega⟩
    · intro number hnumber
      obtain ⟨arrived, -, hle, hnumbers⟩ := hstopped.arrived
      have hmem := List.mem_range'_1.mp (hnumbers.mem_iff.mp (List.mem_append_left _ hnumber))
      exact ⟨hmem.1, by omega⟩
  intro anchored hanchored
  exact hrange _ (List.mem_map_of_mem (ContiguousAnchoredBlocks.mem_new hnew anchored hanchored))

/-- If every block has an anchor transaction, all blocks of the range are downloaded. -/
theorem numbers_of_download {range : RangeInclusive} {events : List DownloadEvent}
    (hhonest : Transition.StepsMeet BlockDownloadTask.step BlockDownloadTask.Honest
      (.new range) events)
    (hdecodable : ∀ block, .block (some block) ∈ events → block.anchorBlockId ≠ none)
    {soft : ContiguousAnchoredBlocks} (hsoft : download events range = some soft) :
    soft.blocks.map AnchoredBlock.number =
      List.range' range.start (range.stop + 1 - range.start) := by
  obtain ⟨out, hnew, hcomplete | ⟨-, -, -, block, hmem, hblock⟩⟩ := download_cases hhonest hsoft
  · have hinitial : soft.blocks.map AnchoredBlock.number = _ := hcomplete.initial hnew
    have hperm := ContiguousAnchoredBlocks.perm_of_new hnew
    have hlength := hcomplete.numbers.length_eq
    rw [List.length_map, List.length_range'] at hlength
    rw [hinitial, hperm.length_eq, hlength]
  · exact absurd hblock (hdecodable block hmem)

/-- Blocks 1 and 2 wait for different anchors, and this one arrives first. Then block 3 comes
without an anchor transaction. -/
def anchorFirst (index anchorId : Nat) : List DownloadEvent :=
  [.block (some (BlockDownloadTask.blockAnchoredTo 1 (some 10))),
    .block (some (BlockDownloadTask.blockAnchoredTo 2 (some 11))),
    .anchor index (some (l1Header anchorId)),
    .block (some (BlockDownloadTask.blockAnchoredTo 3 none))]

/-- The nodes answer what they were asked for. -/
theorem honest_anchorFirst {index anchorId : Nat} (h : [10, 11][index]? = some anchorId) :
    Transition.StepsMeet BlockDownloadTask.step BlockDownloadTask.Honest (.new ⟨1, 3⟩)
      (anchorFirst index anchorId) := by
  refine ⟨fun _ h => Option.some.inj h, fun first hfirst => ?_⟩
  obtain rfl := Option.some.inj hfirst
  refine ⟨fun _ h => Option.some.inj h, fun second hsecond => ?_⟩
  obtain rfl := Option.some.inj hsecond
  refine ⟨fun _ hnumber => Option.some.inj (h.symm.trans hnumber), fun third hthird => ?_⟩
  have hindex : index < 2 := (List.getElem?_eq_some_iff.mp h).1
  interval_cases index
  · obtain rfl := Option.some.inj h
    obtain rfl := Option.some.inj hthird
    exact ⟨fun _ h => Option.some.inj h, fun _ _ => trivial⟩
  · obtain rfl := Option.some.inj h
    obtain rfl := Option.some.inj hthird
    exact ⟨fun _ h => Option.some.inj h, fun _ _ => trivial⟩

/-- When the first anchor arrives first, the download stops in order at block 3, and returns
block 1. -/
theorem partial_download_iff_firstAnchorFirst :
    Transition.StepsMeet BlockDownloadTask.step (BlockDownloadTask.StopsInOrder ⟨1, 3⟩)
        (.new ⟨1, 3⟩) (anchorFirst 0 10) ∧
      ∃ soft, download (anchorFirst 0 10) ⟨1, 3⟩ = some soft ∧
        soft.blocks.map AnchoredBlock.number = [1] ∧ Initial ⟨1, 3⟩ soft := by
  have hstops : Transition.StepsMeet BlockDownloadTask.step
      (BlockDownloadTask.StopsInOrder ⟨1, 3⟩) (.new ⟨1, 3⟩) (anchorFirst 0 10) := by
    refine ⟨?_, fun first hfirst => ?_⟩
    · rintro _ ⟨⟩ ⟨⟩
    obtain rfl := Option.some.inj hfirst
    refine ⟨?_, fun second hsecond => ?_⟩
    · rintro _ ⟨⟩ ⟨⟩
    obtain rfl := Option.some.inj hsecond
    refine ⟨?_, fun third hthird => ?_⟩
    · rintro _ ⟨⟩
    obtain rfl := Option.some.inj hthird
    -- only block 2 waits for its anchor
    exact ⟨fun _ _ _ _ => .inr (.inl (by decide)), fun _ _ => trivial⟩
  obtain ⟨soft, hsoft, hnumbers⟩ := Option.map_eq_some_iff.mp
    (show (download (anchorFirst 0 10) ⟨1, 3⟩).map (fun soft =>
      soft.blocks.map AnchoredBlock.number) = some [1] by decide +kernel)
  refine ⟨hstops, soft, hsoft, hnumbers,
    (partial_download_iff (honest_anchorFirst rfl)).mpr hstops soft hsoft fun hnil => ?_⟩
  rw [hnil] at hnumbers
  cases hnumbers

/-- When the second anchor arrives first, the download returns block 2 and leaves out block 1, which
has been downloaded. -/
theorem partial_download_without_first :
    Transition.StepsMeet BlockDownloadTask.step BlockDownloadTask.Honest (.new ⟨1, 3⟩)
        (anchorFirst 1 11) ∧
      ∃ soft, download (anchorFirst 1 11) ⟨1, 3⟩ = some soft ∧ soft.blocks ≠ [] ∧
        ¬ Initial ⟨1, 3⟩ soft := by
  refine ⟨honest_anchorFirst rfl, ?_⟩
  obtain ⟨soft, hsoft, hnumbers⟩ := Option.map_eq_some_iff.mp
    (show (download (anchorFirst 1 11) ⟨1, 3⟩).map (fun soft =>
      soft.blocks.map AnchoredBlock.number) = some [2] by decide +kernel)
  refine ⟨soft, hsoft, ?_, ?_⟩
  · intro hnil
    rw [hnil] at hnumbers
    cases hnumbers
  · intro hinitial
    have hlength := congrArg List.length hnumbers
    rw [List.length_map] at hlength
    unfold Initial at hinitial
    rw [hnumbers, hlength] at hinitial
    cases hinitial

end Mk1
