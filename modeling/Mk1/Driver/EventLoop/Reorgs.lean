import Mk1.Driver.EventLoop
import Mk1.Library.NumberedChain

/-!
# Reorgs of the L2 chain

The driver next to the L2 chain that it follows. The chain gets a new head,
which replaces every block from its number on, and the driver handles each head
before the chain changes again; in between it adds blocks of the current chain
to the outstanding batch. `onL2Block` infers a reorg from a head below the last
one, so it does not see a head that replaces one of the same height:
`no_replaced_block_iff` says that this is the only replaced block that stays in
the outstanding batch, and that without it none is ever submitted.
-/

namespace Mk1

/-- An L2 chain. -/
abbrev L2Chain := NumberedChain fun block : Block => block.header.number

/-- The blocks of a chain as they are put in batches. -/
def L2Chain.preconfirmed (chain : L2Chain) : List PreconfirmedBlock :=
  chain.blocks.map PreconfirmedBlock.fromBlock

/-- A new head, and whether it replaces the old one or a block below it. -/
structure NewHead where
  block : Block
  replaces : Bool

/-- The chain, its head if the driver has not handled it yet, the driver, and the replacing block
that the last step has handled, if it has. -/
structure ReorgSystem where
  chain : L2Chain
  unhandled : Option NewHead
  driver : Driver
  replaced : Option Block

namespace ReorgSystem

/-- A new head of the chain, its handling, or a produced block that is added to the outstanding
batch. -/
inductive Event where
  | newHead (block : Block)
  | l2Block (reads : L2BlockReads)
  | produced (newBlock : PreconfirmedBlock) (anchor : Header) (reads : ProducedReads)

/-- One step. Each head is handled before the next change, and the blocks that are added are on the
current chain. -/
def step (system : ReorgSystem) : Event → Option ReorgSystem
  | .newHead block =>
      match system.unhandled with
      | some _ => none
      | none =>
          (system.chain.withHead block).map fun chain =>
            { system with
              chain := chain
              unhandled := some ⟨block, block.header.number ≤ system.chain.head.header.number⟩
              replaced := none }
  | .l2Block reads =>
      system.unhandled.map fun head =>
        { system with
          unhandled := none
          driver := system.driver.onL2Block head.block reads
          replaced := if head.replaces then some head.block else none }
  | .produced newBlock anchor reads =>
      if (system.driver.gapBlocks newBlock reads ++ [newBlock]).all
          (· ∈ system.chain.preconfirmed) then
        some
          { system with
            driver := system.driver.onProducedBlock newBlock anchor reads
            replaced := none }
      else none

/-- The driver has handled the head of the chain, and its outstanding batch is on the chain. -/
structure InSync (system : ReorgSystem) : Prop where
  handled : system.unhandled = none
  replaced : system.replaced = none
  headBlock : system.driver.l2.headBlock = system.chain.head.header.number
  current : ∀ block ∈ system.driver.outstandingBatch.blocks, block ∈ system.chain.preconfirmed

/-- If the last step has handled a replacing block, no other block of its height or above is left in
the outstanding batch. -/
def NoReplacedBlock (system : ReorgSystem) : Prop :=
  ∀ block ∈ system.replaced, ∀ other ∈ system.driver.outstandingBatch.blocks,
    block.header.number ≤ other.number → other = .fromBlock block

/-- A head that replaces a block of its own height does not find another block of this height in the
outstanding batch. -/
def replacesUnseen (system : ReorgSystem) : Event → Bool
  | .l2Block _ =>
      match system.unhandled with
      | some head =>
          !head.replaces || head.block.header.number ≠ system.driver.l2.headBlock ||
            system.driver.outstandingBatch.blocks.all fun other =>
              other.number ≠ head.block.header.number || other = .fromBlock head.block
      | none => true
  | _ => true

/-- The batches that a step submits consist of blocks of the chain. -/
def SubmitsCurrent (system : ReorgSystem) (event : Event) : Prop :=
  ∀ next entries, step system event = some next →
    next.driver.log = entries ++ system.driver.log →
      ∀ req status reorgReasons, .submitted req status reorgReasons ∈ entries →
        ∀ block ∈ req.batch.blocks, block ∈ system.chain.preconfirmed

/-! ## What holds in every run -/

/-- The head that the driver has handled last, and where the blocks of the outstanding batch are:
on the chain, or not above that head. -/
structure Follows (system : ReorgSystem) : Prop where
  handled : system.unhandled = none →
    system.driver.l2.headBlock = system.chain.head.header.number
  unhandled : ∀ head ∈ system.unhandled, head.block = system.chain.head ∧
    (head.replaces = true ↔ head.block.header.number ≤ system.driver.l2.headBlock)
  blocks : ∀ block ∈ system.driver.outstandingBatch.blocks,
    block ∈ system.chain.preconfirmed ∨ block.number ≤ system.driver.l2.headBlock

variable {system next : ReorgSystem}

/-- A block on the chain is not above the head. -/
theorem number_le_head {block : PreconfirmedBlock} (h : block ∈ system.chain.preconfirmed) :
    block.number ≤ system.chain.head.header.number := by
  obtain ⟨source, hsource, rfl⟩ := List.mem_map.mp h
  exact NumberedChain.number_le_head hsource

/-- A block on the chain at the height of the head is the head. -/
theorem eq_head {block : PreconfirmedBlock} (h : block ∈ system.chain.preconfirmed)
    (hnumber : system.chain.head.header.number ≤ block.number) :
    block = .fromBlock system.chain.head := by
  obtain ⟨source, hsource, rfl⟩ := List.mem_map.mp h
  have hsame : source.header.number = system.chain.head.header.number :=
    (NumberedChain.number_le_head hsource).antisymm hnumber
  rw [system.chain.consecutive.eq_of_number_eq hsource system.chain.head_mem hsame]

/-- After a new head, a block of the chain is the head or was on the chain below it. -/
theorem mem_preconfirmed_withHead {chain chain' : L2Chain} {block : Block}
    (h : chain.withHead block = some chain') {other : PreconfirmedBlock} :
    other ∈ chain'.preconfirmed ↔
      (other ∈ chain.preconfirmed ∧ other.number < block.header.number) ∨
        other = .fromBlock block := by
  unfold L2Chain.preconfirmed
  constructor
  · intro hmem
    obtain ⟨source, hsource, rfl⟩ := List.mem_map.mp hmem
    rcases (NumberedChain.mem_withHead h).mp hsource with ⟨hold, hlt⟩ | rfl
    · exact .inl ⟨List.mem_map_of_mem hold, hlt⟩
    · exact .inr rfl
  · rintro (⟨hmem, hlt⟩ | rfl)
    · obtain ⟨source, hsource, rfl⟩ := List.mem_map.mp hmem
      exact List.mem_map_of_mem ((NumberedChain.mem_withHead h).mpr (.inl ⟨hsource, hlt⟩))
    · exact List.mem_map_of_mem ((NumberedChain.mem_withHead h).mpr (.inr rfl))

/-- Handling a head makes it the last one handled. The outstanding batch only changes if the head is
below the last one, and then keeps the blocks below it. -/
theorem onL2Block_outstandingBatch (driver : Driver) (block : Block) (reads : L2BlockReads) :
    (driver.onL2Block block reads).l2.headBlock = block.header.number ∧
      (driver.onL2Block block reads).outstandingBatch =
        if block.header.number < driver.l2.headBlock then
          driver.outstandingBatch.retainBlocksBefore block.header.number
        else driver.outstandingBatch := by
  obtain ⟨l1, heq, -⟩ := driver.onL2Block_eq block reads
  obtain ⟨hnext, hreorg⟩ | ⟨hbelow, l2, hreorg⟩ :=
    (driver.record (.l2Block block)).onL2Reorg_cases block reads.headL1Origin
  · change driver.l2.headBlock ≤ block.header.number at hnext
    rw [heq, hreorg, if_neg (Nat.not_lt.mpr hnext)]
    exact ⟨rfl, rfl⟩
  · change block.header.number < driver.l2.headBlock at hbelow
    rw [heq, hreorg, if_pos hbelow]
    exact ⟨rfl, rfl⟩

/-- Adding produced blocks does not change the last head, and puts blocks of the chain in the
outstanding batch. -/
theorem onProducedBlock_blocks {newBlock : PreconfirmedBlock} {anchor : Header}
    {reads : ProducedReads} (hcurrent : (system.driver.gapBlocks newBlock reads ++ [newBlock]).all
      (· ∈ system.chain.preconfirmed) = true) :
    (system.driver.onProducedBlock newBlock anchor reads).l2 = system.driver.l2 ∧
      (∀ block ∈ (system.driver.onProducedBlock newBlock anchor reads).outstandingBatch.blocks,
        block ∈ system.driver.outstandingBatch.blocks ∨ block ∈ system.chain.preconfirmed) ∧
      ∃ entries, (system.driver.onProducedBlock newBlock anchor reads).log =
          entries ++ system.driver.log ∧
        ∀ req status reorgReasons, .submitted req status reorgReasons ∈ entries →
          ∀ block ∈ req.batch.blocks,
            (block ∈ system.driver.outstandingBatch.blocks ∨
              block ∈ system.chain.preconfirmed) ∧
              block.number < system.chain.head.header.number := by
  have hall : ∀ block ∈ system.driver.gapBlocks newBlock reads ++ [newBlock],
      block ∈ system.chain.preconfirmed :=
    fun block hblock => of_decide_eq_true (List.all_eq_true.mp hcurrent block hblock)
  obtain ⟨entries, outstandingBatch, heq, hblocks, hentries⟩ := system.driver.addBlocks_eq anchor
    reads.estimates (system.driver.gapBlocks newBlock reads ++ [newBlock])
  unfold Driver.onProducedBlock
  rw [heq]
  refine ⟨rfl, fun block hblock => (hblocks block hblock).imp_right (hall block), entries, rfl, ?_⟩
  intro req status reorgReasons hentry block hblock
  obtain ⟨-, fullBatch, heq', hbatch⟩ := hentries _ hentry
  cases heq'
  obtain ⟨hmem, added, hadded, hlt⟩ := hbatch block hblock
  exact ⟨hmem.imp_right (hall block), hlt.trans_le (number_le_head (hall added hadded))⟩

/-- Handling a head submits nothing. -/
theorem onL2Block_log (driver : Driver) (block : Block) (reads : L2BlockReads) :
    ∃ entries, (driver.onL2Block block reads).log = entries ++ driver.log ∧
      ∀ req status reorgReasons, .submitted req status reorgReasons ∉ entries := by
  obtain ⟨l1, heq, -⟩ := driver.onL2Block_eq block reads
  obtain ⟨-, hreorg⟩ | ⟨-, l2, hreorg⟩ :=
    (driver.record (.l2Block block)).onL2Reorg_cases block reads.headL1Origin
  · rw [heq, hreorg]
    exact ⟨[.l2Block block], rfl, by simp⟩
  · rw [heq, hreorg]
    exact ⟨[.queueCleared, .l2Block block], rfl, by simp⟩

/-- Handling a head leaves blocks of the outstanding batch in it. -/
theorem mem_onL2Block {driver : Driver} {block : Block} {reads : L2BlockReads}
    {other : PreconfirmedBlock}
    (h : other ∈ (driver.onL2Block block reads).outstandingBatch.blocks) :
    other ∈ driver.outstandingBatch.blocks ∧
      (other.number < block.header.number ∨ driver.l2.headBlock ≤ block.header.number) := by
  rw [(onL2Block_outstandingBatch driver block reads).2] at h
  split at h
  · obtain ⟨hmem, hlt⟩ := List.mem_filter.mp h
    exact ⟨hmem, .inl (of_decide_eq_true hlt)⟩
  · next hnext => exact ⟨h, .inr (Nat.le_of_not_lt hnext)⟩

/-- Every step keeps track of the chain. -/
theorem Follows.step (h : system.Follows) {event : Event}
    (hnext : system.step event = some next) : next.Follows := by
  cases event with
  | newHead block =>
      simp only [ReorgSystem.step] at hnext
      split at hnext
      · cases hnext
      · next hhandled =>
          obtain ⟨chain, hchain, rfl⟩ := Option.map_eq_some_iff.mp hnext
          have hheadBlock := h.handled hhandled
          refine ⟨by simp, ?_, fun other hother => .inr ?_⟩
          · intro head hhead
            obtain rfl := Option.some.inj hhead
            refine ⟨(NumberedChain.head_withHead hchain).symm, ?_⟩
            rw [hheadBlock]
            exact decide_eq_true_iff
          · rcases h.blocks other hother with hmem | hle
            · rw [hheadBlock]
              exact number_le_head hmem
            · exact hle
  | l2Block reads =>
      obtain ⟨head, hunhandled, rfl⟩ := Option.map_eq_some_iff.mp hnext
      obtain ⟨hhead, -⟩ := h.unhandled head hunhandled
      obtain ⟨hheadBlock, -⟩ := onL2Block_outstandingBatch system.driver head.block reads
      refine ⟨fun _ => ?_, by simp, fun other hother => ?_⟩
      · rw [hheadBlock, hhead]
      · obtain ⟨hmem, hlt | hnext⟩ := mem_onL2Block hother
        · rw [hheadBlock]
          exact .inr hlt.le
        · rw [hheadBlock]
          exact (h.blocks other hmem).imp_right fun hle => hle.trans hnext
  | produced newBlock anchor reads =>
      simp only [ReorgSystem.step] at hnext
      split at hnext
      · next hcurrent =>
          cases hnext
          obtain ⟨hl2, hblocks, -⟩ := onProducedBlock_blocks hcurrent
          refine ⟨?_, ?_, fun other hother => ?_⟩
          · rw [hl2]
            exact h.handled
          · rw [hl2]
            exact h.unhandled
          · rw [hl2]
            rcases hblocks other hother with hold | hnew
            · exact h.blocks other hold
            · exact .inl hnew
      · cases hnext

/-- Above and at the height of a head that replaces one of its own height, the outstanding batch
holds this head only exactly if it holds no other block of this height. -/
theorem noReplacedBlock_sameHeight_iff (h : system.Follows) {head : NewHead}
    (hunhandled : system.unhandled = some head)
    (hsame : head.block.header.number = system.driver.l2.headBlock) :
    (∀ other ∈ system.driver.outstandingBatch.blocks,
        head.block.header.number ≤ other.number → other = .fromBlock head.block) ↔
      (!true || head.block.header.number ≠ system.driver.l2.headBlock ||
        system.driver.outstandingBatch.blocks.all fun other =>
          other.number ≠ head.block.header.number || other = .fromBlock head.block) = true := by
  obtain ⟨hhead, -⟩ := h.unhandled head hunhandled
  have hall : (!true || head.block.header.number ≠ system.driver.l2.headBlock ||
      system.driver.outstandingBatch.blocks.all fun other =>
        other.number ≠ head.block.header.number || other = .fromBlock head.block) = true ↔
      ∀ other ∈ system.driver.outstandingBatch.blocks,
        other.number ≠ head.block.header.number ∨ other = .fromBlock head.block := by
    simp [hsame, List.all_eq_true]
  rw [hall]
  constructor
  · intro hclean other hother
    exact or_iff_not_imp_left.mpr fun hnumber => hclean other hother (not_not.mp hnumber).ge
  · intro hunseen other hother hle
    rcases h.blocks other hother with hmem | hbelow
    · rw [hhead] at hle ⊢
      exact eq_head hmem hle
    · have hnumber : other.number = head.block.header.number := by omega
      exact (hunseen other hother).resolve_left (not_not.mpr hnumber)

/-- A step leaves no replaced block behind exactly if it handles no head that finds another block of
its height in the outstanding batch. -/
theorem noReplacedBlock_step_iff (h : system.Follows) {event : Event}
    (hnext : system.step event = some next) :
    next.NoReplacedBlock ↔ system.replacesUnseen event = true := by
  cases event with
  | newHead block =>
      simp only [ReorgSystem.step] at hnext
      split at hnext
      · cases hnext
      · obtain ⟨chain, -, rfl⟩ := Option.map_eq_some_iff.mp hnext
        exact iff_of_true (by simp [NoReplacedBlock]) rfl
  | l2Block reads =>
      obtain ⟨head, hunhandled, rfl⟩ := Option.map_eq_some_iff.mp hnext
      obtain ⟨-, hreplaces⟩ := h.unhandled head hunhandled
      simp only [replacesUnseen, hunhandled]
      cases hreplace : head.replaces with
      | false => exact iff_of_true (by simp [NoReplacedBlock]) rfl
      | true =>
          rcases (hreplaces.mp hreplace).lt_or_eq with hbelow | hsame
          · refine iff_of_true ?_ (by simp [hbelow.ne])
            intro block hblock other hother hle
            simp only [if_true, Option.mem_some_iff] at hblock
            subst hblock
            obtain ⟨-, hlt | hnext⟩ := mem_onL2Block hother
            · exact absurd hle (Nat.not_le.mpr hlt)
            · exact absurd hnext (Nat.not_le.mpr hbelow)
          · have hkept := (onL2Block_outstandingBatch system.driver head.block reads).2
            rw [if_neg hsame.not_lt] at hkept
            -- the handler leaves the outstanding batch as it is, so both sides are about it
            rw [← noReplacedBlock_sameHeight_iff h hunhandled hsame]
            simp [NoReplacedBlock, hkept]
  | produced newBlock anchor reads =>
      simp only [ReorgSystem.step] at hnext
      split at hnext
      · cases hnext
        exact iff_of_true (by simp [NoReplacedBlock]) rfl
      · cases hnext

/-! ## What holds if no block of the same height is replaced -/

/-- The outstanding batch is on the chain, up to blocks that the head has replaced and that the
driver is about to remove. -/
structure Current (system : ReorgSystem) : Prop where
  follows : system.Follows
  current : ∀ block ∈ system.driver.outstandingBatch.blocks,
    block ∈ system.chain.preconfirmed ∨ ∃ head ∈ system.unhandled,
      head.block.header.number ≤ block.number ∧ block.number ≤ system.driver.l2.headBlock

theorem InSync.current_system (h : system.InSync) : system.Current where
  follows :=
    ⟨fun _ => h.headBlock, by simp [h.handled], fun block hblock => .inl (h.current block hblock)⟩
  current := fun block hblock => .inl (h.current block hblock)

/-- Every step keeps the outstanding batch on the chain, unless it leaves a replaced block
behind. -/
theorem Current.step (h : system.Current) {event : Event}
    (hunseen : system.replacesUnseen event = true) (hnext : system.step event = some next) :
    next.Current := by
  refine ⟨h.follows.step hnext, ?_⟩
  have hclean := (noReplacedBlock_step_iff h.follows hnext).mpr hunseen
  cases event with
  | newHead block =>
      simp only [ReorgSystem.step] at hnext
      split at hnext
      · cases hnext
      · next hhandled =>
          obtain ⟨chain, hchain, rfl⟩ := Option.map_eq_some_iff.mp hnext
          intro other hother
          rcases h.current other hother with hmem | ⟨head, hhead, -⟩
          · rcases Nat.lt_or_ge other.number block.header.number with hlt | hge
            · exact .inl ((mem_preconfirmed_withHead hchain).mpr (.inl ⟨hmem, hlt⟩))
            · refine .inr ⟨_, rfl, hge, ?_⟩
              rw [h.follows.handled hhandled]
              exact number_le_head hmem
          · rw [hhandled] at hhead
            cases hhead
  | l2Block reads =>
      obtain ⟨head, hunhandled, rfl⟩ := Option.map_eq_some_iff.mp hnext
      obtain ⟨hhead, hreplaces⟩ := h.follows.unhandled head hunhandled
      intro other hother
      obtain ⟨hmem, hkept⟩ := mem_onL2Block hother
      rcases h.current other hmem with hcurrent | ⟨head', hhead', hge, hle⟩
      · exact .inl hcurrent
      · obtain rfl := Option.some.inj (hunhandled.symm.trans hhead')
        -- a replaced block that is kept has the height of the head, which replaces it
        have hreplace : head.replaces = true := hreplaces.mpr (hge.trans hle)
        have hsame := hclean head.block (by simp [hreplace]) other hother hge
        rw [hsame, hhead]
        exact .inl (List.mem_map_of_mem system.chain.head_mem)
  | produced newBlock anchor reads =>
      simp only [ReorgSystem.step] at hnext
      split at hnext
      · next hcurrent =>
          cases hnext
          obtain ⟨hl2, hblocks, -⟩ := onProducedBlock_blocks hcurrent
          intro other hother
          rw [hl2]
          rcases hblocks other hother with hold | hnew
          · exact h.current other hold
          · exact .inl hnew
      · cases hnext

/-- A step submits no block that is not on the chain. -/
theorem Current.submitsCurrent (h : system.Current) (event : Event) :
    system.SubmitsCurrent event := by
  intro next entries hnext hlog req status reorgReasons hentry block hblock
  cases event with
  | newHead head =>
      simp only [ReorgSystem.step] at hnext
      split at hnext
      · cases hnext
      · obtain ⟨chain, -, rfl⟩ := Option.map_eq_some_iff.mp hnext
        rw [List.self_eq_append_left.mp hlog] at hentry
        cases hentry
  | l2Block reads =>
      obtain ⟨head, -, rfl⟩ := Option.map_eq_some_iff.mp hnext
      obtain ⟨added, hadded, hnone⟩ := onL2Block_log system.driver head.block reads
      obtain rfl := List.append_cancel_right (hadded.symm.trans hlog)
      exact absurd hentry (hnone req status reorgReasons)
  | produced newBlock anchor reads =>
      simp only [ReorgSystem.step] at hnext
      split at hnext
      · next hcurrent =>
          cases hnext
          obtain ⟨-, -, added, hadded, hsubmitted⟩ := onProducedBlock_blocks hcurrent
          obtain rfl := List.append_cancel_right (hadded.symm.trans hlog)
          obtain ⟨hmem, hlt⟩ := hsubmitted req status reorgReasons hentry block hblock
          rcases hmem with hold | hnew
          · rcases h.current block hold with hchain | ⟨head, hhead, hge, -⟩
            · exact hchain
            · rw [← (h.follows.unhandled head hhead).1] at hlt
              exact absurd hge (Nat.not_le.mpr hlt)
          · exact hnew
      · cases hnext

/-- In a run from a driver that is in sync with the L2 chain, the handling of a replacing head never
leaves another block of its height or above in the outstanding batch, exactly if no head that
replaces one of its own height finds another block of this height there. In such a run every batch
that is submitted consists of blocks of the chain. -/
theorem no_replaced_block_iff {start : ReorgSystem} {events : List Event} (hsync : start.InSync)
    (hrun : Transition.run step start events = some system) :
    ((∀ before after reached, events = before ++ after →
        Transition.run step start before = some reached → reached.NoReplacedBlock) ↔
      Transition.StepsMeet step (fun system event => system.replacesUnseen event) start events) ∧
    (Transition.StepsMeet step (fun system event => system.replacesUnseen event) start events →
      Transition.StepsMeet step SubmitsCurrent start events) := by
  constructor
  · exact Transition.property_iff_stepsMeet
      (fun _ _ _ hfollows (_ : True) hnext => hfollows.step hnext)
      (fun _ _ _ hfollows _ hnext => noReplacedBlock_step_iff hfollows hnext)
      hsync.current_system.follows (by simp [NoReplacedBlock, hsync.replaced])
      (fun _ _ => trivial) hrun
  · intro hunseen
    exact Transition.stepsMeet_of_invariant (fun _ _ _ hinv hcondition hnext =>
      hinv.step hcondition hnext) (fun _ event hinv _ => hinv.submitsCurrent event)
      hsync.current_system hunseen

/-- A chain of three blocks of the operator, all of which are in the outstanding batch. -/
def threeBlocks : ReorgSystem :=
  let blocks :=
    [Driver.l2BlockOn 100 1 300 1, Driver.l2BlockOn 100 2 302 1, Driver.l2BlockOn 100 3 304 1]
  { chain := ⟨blocks, by simp [blocks], by simp [blocks, Consecutive, Driver.l2BlockOn]⟩
    unhandled := none
    driver := { Driver.startAt 348 3 with
      outstandingBatch := .fromBlocksUnchecked (l1Header 100) (defaultConfig 1).batchSettings
        (blocks.map .fromBlock) }
    replaced := none }

/-- Somebody else's block of this number becomes the head and is handled. -/
def replaceFrom (number : Nat) : List Event :=
  [.newHead (Driver.l2BlockOn 100 number 306 2),
    .l2Block ⟨some 0, fun number => some (l1Header number)⟩]

theorem inSync_threeBlocks : threeBlocks.InSync where
  handled := rfl
  replaced := rfl
  headBlock := rfl
  current := fun _ hblock => hblock

/-- The two last blocks are replaced by one, and leave the outstanding batch. -/
theorem replaced_below_head :
    ∃ system, Transition.run step threeBlocks (replaceFrom 2) = some system ∧
      system.driver.outstandingBatch.blocks.map PreconfirmedBlock.number = [1] ∧
      system.NoReplacedBlock := by
  obtain ⟨system, hrun, hblocks⟩ : ∃ system,
      Transition.run step threeBlocks (replaceFrom 2) = some system ∧
        system.driver.outstandingBatch.blocks.map PreconfirmedBlock.number = [1] :=
    Transition.exists_run (by decide +kernel)
  refine ⟨system, hrun, hblocks, ?_⟩
  exact (no_replaced_block_iff inSync_threeBlocks hrun).1.mpr (by decide +kernel)
    (replaceFrom 2) [] system (by simp) hrun

/-- The last block is replaced by another one of its height, and stays in the outstanding batch. -/
theorem replaced_at_head :
    ∃ system, threeBlocks.InSync ∧
      Transition.run step threeBlocks (replaceFrom 3) = some system ∧
      system.replaced = some (Driver.l2BlockOn 100 3 306 2) ∧
      .fromBlock (Driver.l2BlockOn 100 3 304 1) ∈ system.driver.outstandingBatch.blocks ∧
      ¬ system.NoReplacedBlock := by
  obtain ⟨system, hrun, hreplaced, hmem⟩ : ∃ system,
      Transition.run step threeBlocks (replaceFrom 3) = some system ∧
        system.replaced = some (Driver.l2BlockOn 100 3 306 2) ∧
        .fromBlock (Driver.l2BlockOn 100 3 304 1) ∈ system.driver.outstandingBatch.blocks :=
    Transition.exists_run (by decide +kernel)
  refine ⟨system, inSync_threeBlocks, hrun, hreplaced, hmem, fun hclean => ?_⟩
  have hsame := hclean _ hreplaced _ hmem (Nat.le_refl 3)
  exact absurd (congrArg PreconfirmedBlock.timestamp hsame) (by decide)

end ReorgSystem

end Mk1
