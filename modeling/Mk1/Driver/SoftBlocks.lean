import Mk1.Primitives.Block

/-!
# Downloading soft blocks

The download task of `sync/soft_blocks.rs`. It fetches the blocks of a range in
order and, for every anchor block id seen for the first time, the L1 header with
this number; blocks wait in a cache until their header arrives. The answers of
the two clients arrive in any interleaving and are the events of the task.
`download_sharesAnchors` says that blocks with the same anchor block id come out
with the same header.
-/

namespace Mk1

/-- The anchor block id of a block, from its first transaction: it must be signed by the golden
touch account and decode as a call of `anchorV3`. -/
def Block.anchorBlockId (block : Block) : Option Nat :=
  match block.transactions.head? with
  | none => none
  | some first =>
      if first.signer ≠ TAIKO_GOLDEN_TOUCH_ACCOUNT then none else first.anchorV3BlockId

/-- An anchor in the cache: the blocks that wait for it, or its header. -/
inductive AnchorState where
  | pending (blocks : List Block)
  | available (anchor : Header)

/-- The anchors seen so far, by block number. -/
abbrev AnchorCache := Nat → Option AnchorState

namespace AnchorCache

/-- Add a block to those that wait for an anchor. -/
def insertPending (cache : AnchorCache) (blockNumber : Nat) (block : Block) : AnchorCache :=
  let state :=
    match (cache blockNumber).getD (.pending []) with
    | .pending blocks => .pending (blocks ++ [block])
    | .available anchor => .available anchor
  Function.update cache blockNumber (some state)

/-- Make an anchor available, if blocks wait for it, and return these blocks. -/
def insertAnchor (cache : AnchorCache) (anchor : Header) : AnchorCache × List Block :=
  match cache anchor.number with
  | some (.pending blocks) =>
      (Function.update cache anchor.number (some (.available anchor)), blocks)
  | _ => (cache, [])

end AnchorCache

/-- The download task: the numbers of the blocks and of the anchors still to arrive, the cache,
the anchored blocks, and how many of them are wanted. -/
structure BlockDownloadTask where
  blockFuts : List Nat
  anchorFuts : List Nat
  anchorCache : AnchorCache
  out : List AnchoredBlock
  count : Nat

/-- What can arrive: the answer to one of the requested anchors, or to the next block. -/
inductive DownloadEvent where
  | anchor (index : Nat) (result : Option Header)
  | block (result : Option Block)

/-- The result of polling the task: `none` is an error. -/
inductive DownloadPoll where
  | pending (task : BlockDownloadTask)
  | ready (result : Option (List AnchoredBlock))

namespace BlockDownloadTask

/-- `BlockDownloadTask::new`. -/
def new (range : RangeInclusive) : BlockDownloadTask :=
  let numbers := List.range' range.start (range.stop + 1 - range.start)
  { blockFuts := numbers, anchorFuts := [], anchorCache := fun _ => none, out := [],
    count := numbers.length }

/-- Cache an anchor and apply it to the blocks that waited for it. -/
def onAnchor (task : BlockDownloadTask) (anchor : Header) : BlockDownloadTask :=
  let (cache, blocks) := task.anchorCache.insertAnchor anchor
  { task with
    anchorCache := cache
    out := task.out ++ blocks.map fun block => ⟨block, anchor⟩ }

/-- Anchor a block if its anchor is cached. Otherwise let it wait, and request the anchor if it
was never seen before. -/
def onBlock (task : BlockDownloadTask) (block : Block) (anchorId : Nat) : BlockDownloadTask :=
  match task.anchorCache anchorId with
  | some (.available anchor) => { task with out := task.out ++ [⟨block, anchor⟩] }
  | some (.pending _) =>
      { task with anchorCache := task.anchorCache.insertPending anchorId block }
  | none =>
      { task with
        anchorFuts := task.anchorFuts ++ [anchorId]
        anchorCache := task.anchorCache.insertPending anchorId block }

/-- The check at the end of the loop of `poll`. -/
def checkCount (task : BlockDownloadTask) : DownloadPoll :=
  if task.out.length = task.count then .ready (some task.out) else .pending task

/-- One answer, if it has been asked for. A block without an anchor transaction ends the download
with the blocks anchored so far. -/
def progress (task : BlockDownloadTask) : DownloadEvent → DownloadPoll
  | .anchor index result =>
      match task.anchorFuts[index]?, result with
      | none, _ => .pending task
      | some _, none => .ready none
      | some _, some anchor =>
          ({ task with anchorFuts := task.anchorFuts.eraseIdx index }.onAnchor anchor).checkCount
  | .block result =>
      match task.blockFuts, result with
      | [], _ => .pending task
      | _ :: _, none => .ready none
      | _ :: rest, some block =>
          match block.anchorBlockId with
          | none => .ready (some task.out)
          | some anchorId => ({ task with blockFuts := rest }.onBlock block anchorId).checkCount

/-- Poll the task until it is ready. A request that is never answered has failed. -/
def await : BlockDownloadTask → List DownloadEvent → Option (List AnchoredBlock)
  | _, [] => none
  | task, event :: rest =>
      match task.progress event with
      | .ready result => result
      | .pending task => task.await rest

/-- The whole task, which is ready at once for an empty range. -/
def run (task : BlockDownloadTask) (events : List DownloadEvent) : Option (List AnchoredBlock) :=
  match task.checkCount with
  | .ready result => result
  | .pending task => task.await events

end BlockDownloadTask

/-- `SoftBlocksDownloader::download`, with the answers of the clients. -/
def download (events : List DownloadEvent) (range : RangeInclusive) :
    Option ContiguousAnchoredBlocks := do
  let anchored ← (BlockDownloadTask.new range).run events
  (ContiguousAnchoredBlocks.new anchored).toOption

/-! ## One header for each anchor -/

/-- Blocks with the same anchor block number have the same anchor header. -/
def SharesAnchors (blocks : List AnchoredBlock) : Prop :=
  ∀ first ∈ blocks, ∀ second ∈ blocks, first.anchorId = second.anchorId →
    first.anchor = second.anchor

namespace BlockDownloadTask

/-- The headers of the cache are filed under their numbers, and every anchored block carries the
header filed under the number of its anchor. -/
structure AnchorsCached (task : BlockDownloadTask) : Prop where
  filed : ∀ number anchor, task.anchorCache number = some (.available anchor) →
    anchor.number = number
  carried : ∀ anchored ∈ task.out,
    task.anchorCache anchored.anchorId = some (.available anchored.anchor)

theorem AnchorsCached.sharesAnchors {task : BlockDownloadTask} (h : task.AnchorsCached) :
    SharesAnchors task.out := by
  intro first hfirst second hsecond heq
  have hfirst := h.carried first hfirst
  have hsecond := h.carried second hsecond
  rw [heq, hsecond] at hfirst
  exact (AnchorState.available.inj (Option.some.inj hfirst)).symm

theorem anchorsCached_new (range : RangeInclusive) : (new range).AnchorsCached where
  filed := by simp [new]
  carried := by simp [new]

/-- A header that arrives is filed under its number if blocks wait for it there, and is ignored
otherwise. -/
theorem insertAnchor_cases (cache : AnchorCache) (anchor : Header) :
    (∃ blocks, cache anchor.number = some (.pending blocks) ∧ cache.insertAnchor anchor =
      (Function.update cache anchor.number (some (.available anchor)), blocks)) ∨
      cache.insertAnchor anchor = (cache, []) := by
  unfold AnchorCache.insertAnchor
  split
  · next blocks hpending => exact .inl ⟨blocks, hpending, rfl⟩
  · exact .inr rfl

theorem AnchorsCached.onAnchor {task : BlockDownloadTask} (h : task.AnchorsCached)
    (anchor : Header) : (task.onAnchor anchor).AnchorsCached := by
  unfold BlockDownloadTask.onAnchor
  obtain ⟨blocks, hpending, hinsert⟩ | hinsert := insertAnchor_cases task.anchorCache anchor
  · simp only [hinsert]
    constructor
    · intro number other hother
      dsimp only at hother
      by_cases heq : number = anchor.number
      · subst heq
        rw [Function.update_self] at hother
        cases hother
        rfl
      · rw [Function.update_of_ne heq] at hother
        exact h.filed number other hother
    · intro anchored hanchored
      rcases List.mem_append.mp hanchored with hold | hnew
      · have hcached := h.carried anchored hold
        have hne : anchored.anchorId ≠ anchor.number := by
          intro heq
          rw [heq, hpending] at hcached
          cases hcached
        exact (Function.update_of_ne hne ..).trans hcached
      · obtain ⟨block, -, rfl⟩ := List.mem_map.mp hnew
        exact Function.update_self ..
  · simp only [hinsert]
    exact ⟨h.filed, by simpa using h.carried⟩

/-- A block that waits changes no header of the cache. -/
theorem insertPending_eq_available {cache : AnchorCache} {anchorId number : Nat}
    {anchor : Header} (block : Block) :
    cache.insertPending anchorId block number = some (.available anchor) ↔
      cache number = some (.available anchor) := by
  unfold AnchorCache.insertPending
  by_cases heq : number = anchorId
  · subst heq
    rw [Function.update_self]
    cases hstate : cache number with
    | none => simp
    | some state =>
        cases state with
        | pending blocks => simp
        | available other => simp
  · rw [Function.update_of_ne heq]

theorem AnchorsCached.onBlock {task : BlockDownloadTask} (h : task.AnchorsCached)
    (block : Block) (anchorId : Nat) : (task.onBlock block anchorId).AnchorsCached := by
  unfold BlockDownloadTask.onBlock
  split
  · next anchor havailable =>
      refine ⟨h.filed, fun anchored hanchored => ?_⟩
      rcases List.mem_append.mp hanchored with hold | hnew
      · exact h.carried anchored hold
      · obtain rfl := List.mem_singleton.mp hnew
        show task.anchorCache anchor.number = _
        rw [h.filed anchorId anchor havailable, havailable]
  · exact ⟨fun number anchor hanchor =>
      h.filed number anchor ((insertPending_eq_available block).mp hanchor),
      fun anchored hanchored =>
        (insertPending_eq_available block).mpr (h.carried anchored hanchored)⟩
  · exact ⟨fun number anchor hanchor =>
      h.filed number anchor ((insertPending_eq_available block).mp hanchor),
      fun anchored hanchored =>
        (insertPending_eq_available block).mpr (h.carried anchored hanchored)⟩

/-- What a poll yields: a task that keeps the cache in order, or anchored blocks that share their
anchors. -/
def PollSound : DownloadPoll → Prop
  | .pending task => task.AnchorsCached
  | .ready none => True
  | .ready (some blocks) => SharesAnchors blocks

theorem AnchorsCached.checkCount {task : BlockDownloadTask} (h : task.AnchorsCached) :
    PollSound task.checkCount := by
  unfold BlockDownloadTask.checkCount
  split
  · exact h.sharesAnchors
  · exact h

theorem AnchorsCached.progress {task : BlockDownloadTask} (h : task.AnchorsCached)
    (event : DownloadEvent) : PollSound (task.progress event) := by
  cases event with
  | anchor index result =>
      unfold BlockDownloadTask.progress
      dsimp only
      split
      · exact h
      · trivial
      · next anchor _ =>
          have hrequested : { task with
              anchorFuts := task.anchorFuts.eraseIdx index }.AnchorsCached := ⟨h.filed, h.carried⟩
          exact (hrequested.onAnchor anchor).checkCount
  | block result =>
      unfold BlockDownloadTask.progress
      dsimp only
      split
      · exact h
      · trivial
      · next rest block _ =>
          split
          · exact h.sharesAnchors
          · next anchorId _ =>
              have hrequested : { task with blockFuts := rest }.AnchorsCached :=
                ⟨h.filed, h.carried⟩
              exact (hrequested.onBlock block anchorId).checkCount

theorem AnchorsCached.await {task : BlockDownloadTask} (h : task.AnchorsCached)
    {events : List DownloadEvent} {blocks : List AnchoredBlock}
    (hawait : task.await events = some blocks) : SharesAnchors blocks := by
  induction events generalizing task with
  | nil => cases hawait
  | cons event rest ih =>
      have hsound := h.progress event
      unfold BlockDownloadTask.await at hawait
      cases hpoll : task.progress event with
      | ready result =>
          rw [hpoll] at hawait hsound
          subst hawait
          exact hsound
      | pending next =>
          rw [hpoll] at hawait hsound
          exact ih hsound hawait

theorem AnchorsCached.run {task : BlockDownloadTask} (h : task.AnchorsCached)
    {events : List DownloadEvent} {blocks : List AnchoredBlock}
    (hrun : task.run events = some blocks) : SharesAnchors blocks := by
  have hsound := h.checkCount
  unfold BlockDownloadTask.run at hrun
  cases hpoll : task.checkCount with
  | ready result =>
      rw [hpoll] at hrun hsound
      subst hrun
      exact hsound
  | pending next =>
      rw [hpoll] at hrun hsound
      exact AnchorsCached.await hsound hrun

end BlockDownloadTask

/-- Sorting and checking the blocks leaves the same blocks. -/
theorem ContiguousAnchoredBlocks.mem_new {blocks : List AnchoredBlock}
    {soft : ContiguousAnchoredBlocks} (h : ContiguousAnchoredBlocks.new blocks = .ok soft) :
    ∀ anchored ∈ soft.blocks, anchored ∈ blocks := by
  intro anchored hanchored
  unfold ContiguousAnchoredBlocks.new at h
  dsimp only at h
  split at h
  · cases h
    cases hanchored
  · split at h
    · cases h
    · cases h
      exact (List.mem_insertionSort _).mp hanchored

/-- A download succeeds if the task does and the blocks pass the gap check. -/
theorem download_eq_some {events : List DownloadEvent} {range : RangeInclusive}
    {soft : ContiguousAnchoredBlocks} : download events range = some soft ↔
      ∃ out, (BlockDownloadTask.new range).run events = some out ∧
        ContiguousAnchoredBlocks.new out = .ok soft := by
  unfold download
  rw [Option.bind_eq_bind, Option.bind_eq_some_iff]
  refine exists_congr fun out => and_congr_right fun _ => ?_
  cases ContiguousAnchoredBlocks.new out with
  | error gap => exact ⟨fun h => (nomatch h), fun h => (nomatch h)⟩
  | ok result => exact ⟨fun h => congrArg Except.ok (Option.some.inj h), fun h =>
      congrArg some (Except.ok.inj h)⟩

/-- Blocks with the same anchor block id are downloaded with the same header. -/
theorem download_sharesAnchors {events : List DownloadEvent} {range : RangeInclusive}
    {soft : ContiguousAnchoredBlocks} (h : download events range = some soft) :
    SharesAnchors soft.blocks := by
  obtain ⟨anchored, hrun, hsoft⟩ := download_eq_some.mp h
  have hshares := (BlockDownloadTask.anchorsCached_new range).run hrun
  have hmem := ContiguousAnchoredBlocks.mem_new hsoft
  exact fun first hfirst second hsecond => hshares first (hmem first hfirst) second
    (hmem second hsecond)

end Mk1
