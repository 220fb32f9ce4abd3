import Mk1.Driver.SoftBlocks
import Mk1.Library.Transition

/-!
# Accounting for downloaded blocks

If the nodes answer with the blocks and headers that were asked for, every block of the
range is in exactly one place: it has not arrived, it waits for its anchor, whose
request is open, or it is anchored. `Accounted` says so, and an anchor or a block that
arrives preserves it.
-/

namespace Mk1

namespace AnchorCache

/-- The blocks that wait for an anchor. -/
def waitingFor (cache : AnchorCache) (number : Nat) : List Block :=
  match cache number with
  | some (.pending blocks) => blocks
  | _ => []

/-- The blocks that wait for any of some anchors. -/
def waiting (cache : AnchorCache) (numbers : List Nat) : List Block :=
  numbers.flatMap cache.waitingFor

/-- An anchor that none of the blocks waits for may be filed in any state. -/
theorem waiting_update {cache : AnchorCache} {number : Nat} {numbers : List Nat}
    (state : Option AnchorState) (h : number ∉ numbers) :
    waiting (Function.update cache number state) numbers = cache.waiting numbers := by
  refine List.flatMap_congr fun other hother => ?_
  have hne : other ≠ number := fun heq => h (heq ▸ hother)
  unfold waitingFor
  rw [Function.update_of_ne hne]

/-- A block waits for an anchor that is not available. -/
theorem insertPending_eq {cache : AnchorCache} {number : Nat} (block : Block)
    (h : ∀ anchor, cache number ≠ some (.available anchor)) :
    cache.insertPending number block =
      Function.update cache number (some (.pending (cache.waitingFor number ++ [block]))) := by
  unfold insertPending waitingFor
  cases hstate : cache number with
  | none => rfl
  | some state =>
      cases state with
      | pending blocks => rfl
      | available anchor => exact absurd hstate (h anchor)

/-- A block that is filed under a requested anchor waits after all others. -/
theorem waiting_update_pending {cache : AnchorCache} {number : Nat} {futs others : List Nat}
    (block : Block) (hrequests : futs.Perm (number :: others)) (hfresh : number ∉ others) :
    (waiting (Function.update cache number
        (some (.pending (cache.waitingFor number ++ [block])))) futs).Perm
      (cache.waitingFor number ++ cache.waiting others ++ [block]) := by
  have hself : waitingFor (Function.update cache number
      (some (.pending (cache.waitingFor number ++ [block])))) number =
      cache.waitingFor number ++ [block] := by
    rw [waitingFor, Function.update_self]
  have hrest : waiting (Function.update cache number
      (some (.pending (cache.waitingFor number ++ [block])))) others =
      cache.waiting others := waiting_update _ hfresh
  refine (hrequests.flatMap_right _).trans ?_
  unfold waiting at hrest
  rw [List.flatMap_cons, hself, hrest, List.append_assoc]
  -- the new block has to move behind the blocks of the other requests
  refine (List.Perm.append_left _ List.perm_append_comm).trans ?_
  rw [← List.append_assoc]
  exact List.Perm.refl _

end AnchorCache

namespace BlockDownloadTask

/-- The blocks that have arrived and wait for their anchors. -/
def waiting (task : BlockDownloadTask) : List Block := task.anchorCache.waiting task.anchorFuts

/-- Every block of the range has not arrived, waits for its anchor or is anchored. -/
structure Accounted (range : RangeInclusive) (task : BlockDownloadTask) : Prop where
  /-- All blocks of the range are wanted. -/
  count : task.count = range.stop + 1 - range.start
  /-- The blocks arrive in order. -/
  arrived : ∃ arrived, task.blockFuts =
      List.range' (range.start + arrived) (range.stop + 1 - range.start - arrived) ∧
    arrived ≤ range.stop + 1 - range.start ∧
    (task.out.map AnchoredBlock.number ++ task.waiting.map fun block => block.header.number).Perm
      (List.range' range.start arrived)
  /-- An anchor is requested once. -/
  requested : task.anchorFuts.Nodup
  /-- The requests for the anchors that blocks wait for are open. -/
  pending : ∀ number, number ∈ task.anchorFuts ↔
    ∃ blocks, task.anchorCache number = some (.pending blocks)
  /-- Blocks wait for the anchors that they were decoded to have. -/
  decodedWaiting : ∀ number blocks, task.anchorCache number = some (.pending blocks) →
    ∀ block ∈ blocks, block.anchorBlockId = some number
  /-- Headers are filed under their numbers. -/
  filed : ∀ number anchor, task.anchorCache number = some (.available anchor) →
    anchor.number = number
  /-- Blocks are anchored to the headers that they were decoded to have. -/
  decoded : ∀ anchored ∈ task.out, anchored.block.anchorBlockId = some anchored.anchorId

/-- The task has everything to do at first. -/
theorem accounted_new (range : RangeInclusive) : (new range).Accounted range where
  count := List.length_range'
  arrived := ⟨0, rfl, Nat.zero_le _, List.Perm.refl _⟩
  requested := List.nodup_nil
  pending := by simp [new]
  decodedWaiting := by simp [new]
  filed := by simp [new]
  decoded := by simp [new]

variable {range : RangeInclusive} {task : BlockDownloadTask}

/-- The header of an open request anchors the blocks that wait for it. -/
theorem Accounted.onAnchor (h : task.Accounted range) {index number : Nat} {anchor : Header}
    (hrequest : task.anchorFuts[index]? = some number) (hnumber : anchor.number = number) :
    ({ task with anchorFuts := task.anchorFuts.eraseIdx index }.onAnchor anchor).Accounted
      range := by
  subst hnumber
  obtain ⟨hlt, heq⟩ := List.getElem?_eq_some_iff.mp hrequest
  -- no request is made twice, so the answered one is closed for good
  have hperm : (anchor.number :: task.anchorFuts.eraseIdx index).Perm task.anchorFuts := by
    rw [← heq]
    exact List.getElem_cons_eraseIdx_perm hlt
  obtain ⟨hfresh, hrest⟩ := List.nodup_cons.mp (hperm.nodup_iff.mpr h.requested)
  obtain ⟨blocks, hblocks⟩ := (h.pending anchor.number).mp (List.mem_of_getElem? hrequest)
  have hinsert : task.anchorCache.insertAnchor anchor =
      (Function.update task.anchorCache anchor.number (some (.available anchor)), blocks) := by
    unfold AnchorCache.insertAnchor
    rw [hblocks]
  -- the blocks that move from the cache to the output were counted as waiting
  have hwaiting : (blocks ++ task.anchorCache.waiting (task.anchorFuts.eraseIdx index)).Perm
      task.waiting := by
    have hflat := hperm.flatMap_right task.anchorCache.waitingFor
    rw [List.flatMap_cons] at hflat
    unfold AnchorCache.waitingFor at hflat
    rw [hblocks] at hflat
    exact hflat
  unfold BlockDownloadTask.onAnchor
  simp only [hinsert]
  constructor
  case count => exact h.count
  case arrived =>
    obtain ⟨arrived, hfuts, hle, hnumbers⟩ := h.arrived
    refine ⟨arrived, hfuts, hle, ?_⟩
    unfold BlockDownloadTask.waiting
    dsimp only
    rw [AnchorCache.waiting_update _ hfresh, List.map_append, List.map_map, List.append_assoc]
    refine List.Perm.trans (List.Perm.append_left _ ?_) hnumbers
    have hmap := hwaiting.map fun block => block.header.number
    rwa [List.map_append] at hmap
  case requested => exact hrest
  case pending =>
    intro number
    dsimp only
    by_cases hnumber : number = anchor.number
    · subst hnumber
      simp [hfresh]
    · rw [Function.update_of_ne hnumber, ← h.pending number, ← hperm.mem_iff]
      simp [hnumber]
  case decodedWaiting =>
    intro number others hothers
    dsimp only at hothers
    by_cases hnumber : number = anchor.number
    · subst hnumber
      simp at hothers
    · rw [Function.update_of_ne hnumber] at hothers
      exact h.decodedWaiting number others hothers
  case filed =>
    intro number other hother
    dsimp only at hother
    by_cases hnumber : number = anchor.number
    · subst hnumber
      rw [Function.update_self] at hother
      cases hother
      rfl
    · rw [Function.update_of_ne hnumber] at hother
      exact h.filed number other hother
  case decoded =>
    refine List.forall_mem_append.mpr ⟨h.decoded, ?_⟩
    rintro _ hanchored
    obtain ⟨block, hblock, rfl⟩ := List.mem_map.mp hanchored
    exact h.decodedWaiting anchor.number blocks hblocks block hblock

/-- The next block of the range is the one after those that have arrived. -/
theorem Accounted.next (h : task.Accounted range) {number : Nat} {rest : List Nat}
    (hfuts : task.blockFuts = number :: rest) :
    ∃ arrived, number = range.start + arrived ∧ arrived + 1 ≤ range.stop + 1 - range.start ∧
      rest = List.range' (range.start + (arrived + 1))
        (range.stop + 1 - range.start - (arrived + 1)) ∧
      ∀ (out : List AnchoredBlock) (waiting : List Block),
        (out.map AnchoredBlock.number ++ waiting.map fun block => block.header.number).Perm
          ((task.out.map AnchoredBlock.number ++
            task.waiting.map fun block => block.header.number) ++ [number]) →
        (out.map AnchoredBlock.number ++ waiting.map fun block => block.header.number).Perm
          (List.range' range.start (arrived + 1)) := by
  obtain ⟨arrived, hblockFuts, hle, hnumbers⟩ := h.arrived
  have hlt : arrived < range.stop + 1 - range.start := by
    by_contra hdone
    have hzero : range.stop + 1 - range.start - arrived = 0 := by omega
    rw [hblockFuts, hzero] at hfuts
    cases hfuts
  have hsplit : range.stop + 1 - range.start - arrived =
      range.stop + 1 - range.start - (arrived + 1) + 1 := by
    omega
  rw [hblockFuts, hsplit, List.range'_succ] at hfuts
  obtain ⟨rfl, rfl⟩ := List.cons.inj hfuts
  refine ⟨arrived, rfl, hlt, rfl, fun out waiting hperm => ?_⟩
  rw [List.range'_concat, Nat.one_mul]
  exact hperm.trans (hnumbers.append_right _)

/-- The blocks that wait for an anchor were decoded to have it. -/
theorem Accounted.decoded_of_waitingFor (h : task.Accounted range) {anchorId : Nat} :
    ∀ block ∈ task.anchorCache.waitingFor anchorId, block.anchorBlockId = some anchorId := by
  intro block hblock
  unfold AnchorCache.waitingFor at hblock
  split at hblock
  · next blocks hpending => exact h.decodedWaiting anchorId blocks hpending block hblock
  · cases hblock

/-- The next block of the range waits for its anchor, whose request is open or is made now. -/
theorem Accounted.wait (h : task.Accounted range) {number anchorId : Nat}
    {rest futs others : List Nat} {block : Block} (hfuts : task.blockFuts = number :: rest)
    (hnumber : block.header.number = number) (hdecoded : block.anchorBlockId = some anchorId)
    (havailable : ∀ anchor, task.anchorCache anchorId ≠ some (.available anchor))
    (hrequests : futs.Perm (anchorId :: others)) (hfresh : (anchorId :: others).Nodup)
    (hold : task.waiting.Perm
      (task.anchorCache.waitingFor anchorId ++ task.anchorCache.waiting others))
    (hothers : ∀ other, other ≠ anchorId → (other ∈ others ↔ other ∈ task.anchorFuts)) :
    { task with
      blockFuts := rest
      anchorFuts := futs
      anchorCache := task.anchorCache.insertPending anchorId block }.Accounted range := by
  obtain ⟨arrived, -, hle, hrest, hplace⟩ := h.next hfuts
  obtain ⟨hunrequested, -⟩ := List.nodup_cons.mp hfresh
  rw [AnchorCache.insertPending_eq block havailable]
  constructor
  case count => exact h.count
  case arrived =>
    refine ⟨arrived + 1, hrest, hle, hplace task.out _ ?_⟩
    have hwaiting := (AnchorCache.waiting_update_pending block hrequests hunrequested).trans
      (hold.symm.append_right _)
    rw [← hnumber, List.append_assoc]
    have hmap := hwaiting.map fun block => block.header.number
    rw [List.map_append, List.map_singleton] at hmap
    exact hmap.append_left _
  case requested => exact hrequests.nodup_iff.mpr hfresh
  case pending =>
    intro other
    dsimp only
    rw [hrequests.mem_iff, List.mem_cons]
    by_cases hother : other = anchorId
    · subst hother
      simp
    · rw [Function.update_of_ne hother, ← h.pending other, ← hothers other hother]
      simp [hother]
  case decodedWaiting =>
    intro other blocks hblocks
    dsimp only at hblocks
    by_cases hother : other = anchorId
    · subst hother
      rw [Function.update_self] at hblocks
      cases hblocks
      exact List.forall_mem_append.mpr
        ⟨h.decoded_of_waitingFor, List.forall_mem_singleton.mpr hdecoded⟩
    · rw [Function.update_of_ne hother] at hblocks
      exact h.decodedWaiting other blocks hblocks
  case filed =>
    intro other anchor hanchor
    dsimp only at hanchor
    by_cases hother : other = anchorId
    · subst hother
      rw [Function.update_self] at hanchor
      cases hanchor
    · rw [Function.update_of_ne hother] at hanchor
      exact h.filed other anchor hanchor
  case decoded => exact h.decoded

/-- The next block of the range is anchored, or waits for its anchor. -/
theorem Accounted.onBlock (h : task.Accounted range) {number anchorId : Nat} {rest : List Nat}
    {block : Block} (hfuts : task.blockFuts = number :: rest)
    (hnumber : block.header.number = number) (hdecoded : block.anchorBlockId = some anchorId) :
    ({ task with blockFuts := rest }.onBlock block anchorId).Accounted range := by
  unfold BlockDownloadTask.onBlock
  dsimp only
  split
  · next anchor havailable =>
      obtain ⟨arrived, -, hle, hrest, hplace⟩ := h.next hfuts
      constructor
      case count => exact h.count
      case arrived =>
        refine ⟨arrived + 1, hrest, hle, hplace _ task.waiting ?_⟩
        dsimp only
        rw [List.map_append, List.append_assoc, List.append_assoc, ← hnumber]
        exact List.perm_append_comm.append_left _
      case requested => exact h.requested
      case pending => exact h.pending
      case decodedWaiting => exact h.decodedWaiting
      case filed => exact h.filed
      case decoded =>
        refine List.forall_mem_append.mpr ⟨h.decoded, List.forall_mem_singleton.mpr ?_⟩
        rw [hdecoded]
        exact congrArg some (h.filed anchorId anchor havailable).symm
  · next blocks hpending =>
      -- a request for the anchor is open: it stays the only one
      have hmem : anchorId ∈ task.anchorFuts := (h.pending anchorId).mpr ⟨blocks, hpending⟩
      have hperm := List.perm_cons_erase hmem
      refine h.wait hfuts hnumber hdecoded ?_ hperm (hperm.nodup_iff.mp h.requested)
        (hperm.flatMap_right _) fun other hother => List.mem_erase_of_ne hother
      intro anchor havailable
      rw [hpending] at havailable
      cases havailable
  · next hnone =>
      -- nothing is cached for the anchor, so the request made now is its first
      have hunrequested : anchorId ∉ task.anchorFuts := by
        intro hmem
        obtain ⟨blocks, hpending⟩ := (h.pending anchorId).mp hmem
        rw [hnone] at hpending
        cases hpending
      have hempty : task.anchorCache.waitingFor anchorId = [] := by
        rw [AnchorCache.waitingFor, hnone]
      refine h.wait hfuts hnumber hdecoded ?_ (List.perm_append_singleton _ _)
        (List.nodup_cons.mpr ⟨hunrequested, h.requested⟩) ?_ fun _ _ => Iff.rfl
      · intro anchor havailable
        rw [hnone] at havailable
        cases havailable
      · rw [hempty]
        exact List.Perm.refl _

/-! ## Answers of the nodes -/

/-- The nodes answer with the header and the block that were asked for. -/
def Honest (task : BlockDownloadTask) : DownloadEvent → Prop
  | .anchor index (some anchor) =>
      ∀ number, task.anchorFuts[index]? = some number → anchor.number = number
  | .block (some block) =>
      ∀ number, task.blockFuts.head? = some number → block.header.number = number
  | _ => True

/-- The blocks of a range, each of them once and anchored to the header that it was decoded to
have. -/
structure Complete (range : RangeInclusive) (blocks : List AnchoredBlock) : Prop where
  numbers : (blocks.map AnchoredBlock.number).Perm
    (List.range' range.start (range.stop + 1 - range.start))
  decoded : ∀ anchored ∈ blocks, anchored.block.anchorBlockId = some anchored.anchorId

/-- As many blocks as there are anchored or waiting have arrived. -/
theorem Accounted.length_out_le (h : task.Accounted range) :
    task.out.length + task.waiting.length + task.blockFuts.length = task.count := by
  obtain ⟨arrived, hfuts, hle, hnumbers⟩ := h.arrived
  have hlength := hnumbers.length_eq
  rw [List.length_append, List.length_map, List.length_map, List.length_range'] at hlength
  rw [hlength, hfuts, List.length_range', h.count]
  omega

/-- A task with as many anchored blocks as are wanted has all of them. -/
theorem Accounted.complete (h : task.Accounted range) (hcount : task.out.length = task.count) :
    Complete range task.out ∧ task.blockFuts = [] := by
  have hlength := h.length_out_le
  have hwaiting : task.waiting = [] := List.eq_nil_of_length_eq_zero (by omega)
  have hfuts : task.blockFuts = [] := List.eq_nil_of_length_eq_zero (by omega)
  refine ⟨⟨?_, h.decoded⟩, hfuts⟩
  obtain ⟨arrived, hblockFuts, hle, hnumbers⟩ := h.arrived
  rw [hfuts] at hblockFuts
  have hdone := congrArg List.length hblockFuts
  rw [List.length_nil, List.length_range'] at hdone
  have harrived : arrived = range.stop + 1 - range.start := by omega
  rw [hwaiting, List.map_nil, List.append_nil, harrived] at hnumbers
  exact hnumbers

/-- A task that has nothing left to wait for has all blocks. -/
theorem Accounted.length_of_idle (h : task.Accounted range) (hblocks : task.blockFuts = [])
    (hanchors : task.anchorFuts = []) : task.out.length = task.count := by
  have hlength := h.length_out_le
  have hwaiting : task.waiting = [] := by
    unfold waiting
    rw [hanchors]
    rfl
  rw [hwaiting, hblocks] at hlength
  exact hlength

end BlockDownloadTask

/-- The checked constructor accepts all blocks of a range. -/
theorem BlockDownloadTask.Complete.new_eq_ok {range : RangeInclusive} {blocks : List AnchoredBlock}
    (h : Complete range blocks) : ∃ soft, ContiguousAnchoredBlocks.new blocks = .ok soft := by
  have hlength := h.numbers.length_eq
  rw [List.length_map, List.length_range'] at hlength
  have hnumbers := h.numbers
  rw [← hlength] at hnumbers
  exact ContiguousAnchoredBlocks.exists_new_eq_ok hnumbers

namespace BlockDownloadTask

/-- What a poll yields, if the nodes answer what they were asked for: a task that accounts for all
blocks and still misses some, all blocks, or what was anchored when a block without an anchor
transaction arrived. -/
theorem Accounted.progress {range : RangeInclusive} {task : BlockDownloadTask}
    (h : task.Accounted range) (hopen : task.out.length ≠ task.count) {event : DownloadEvent}
    (hhonest : task.Honest event) :
    (∃ next, task.progress event = .pending next ∧ next.Accounted range ∧
        next.out.length ≠ next.count) ∨
      (∃ out, task.progress event = .ready (some out) ∧ Complete range out) ∨
      (task.progress event = .ready (some task.out) ∧ task.blockFuts ≠ [] ∧
        ∃ block, event = .block (some block) ∧ block.anchorBlockId = none) ∨
      task.progress event = .ready none := by
  have hcheck : ∀ next : BlockDownloadTask, next.Accounted range →
      (∃ other, next.checkCount = .pending other ∧ other.Accounted range ∧
        other.out.length ≠ other.count) ∨
      ∃ out, next.checkCount = .ready (some out) ∧ Complete range out := by
    intro next hnext
    unfold checkCount
    by_cases hcount : next.out.length = next.count
    · rw [if_pos hcount]
      exact .inr ⟨_, rfl, (hnext.complete hcount).1⟩
    · rw [if_neg hcount]
      exact .inl ⟨next, rfl, hnext, hcount⟩
  cases event with
  | anchor index result =>
      unfold BlockDownloadTask.progress
      dsimp only
      split
      · exact .inl ⟨task, rfl, h, hopen⟩
      · exact .inr (.inr (.inr rfl))
      · next number anchor hrequest =>
          have hnumber : anchor.number = number := hhonest number hrequest
          exact (hcheck _ (h.onAnchor hrequest hnumber)).imp_right .inl
  | block result =>
      unfold BlockDownloadTask.progress
      dsimp only
      split
      · exact .inl ⟨task, rfl, h, hopen⟩
      · exact .inr (.inr (.inr rfl))
      · next number rest block hfuts =>
          have hnumber : block.header.number = number := hhonest number (by rw [hfuts]; rfl)
          split
          · next hdecoded =>
              refine .inr (.inr (.inl ⟨rfl, ?_, block, rfl, hdecoded⟩))
              rw [hfuts]
              exact List.cons_ne_nil _ _
          · next anchorId hdecoded =>
              exact (hcheck _ (h.onBlock hfuts hnumber hdecoded)).imp_right .inl

end BlockDownloadTask

end Mk1
