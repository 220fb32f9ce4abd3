import Mk1.Driver.SoftBlocks.Accounting

/-!
# Polling the download task

`BlockDownloadTask::poll` with its loop. Each iteration asks both streams for an item,
and an iteration without one ends the poll. `download_complete` says that the task
does not stop before it has every block of the range. `polls_refines` says that the
polls of a task do what the single answers of `SoftBlocks` do.
-/

namespace Mk1

/-- What the two streams have ready in one iteration of the loop. -/
structure Yields where
  anchor : Option (Nat × Option Header)
  block : Option (Option Block)

namespace BlockDownloadTask

/-- The anchor that the stream yields, if it does. The error is the result with which the poll
returns, and the flag says whether there was progress. -/
def pollAnchor (task : BlockDownloadTask) :
    Option (Nat × Option Header) → Except (Option (List AnchoredBlock)) (BlockDownloadTask × Bool)
  | none => pure (task, false)
  | some (index, result) =>
      match task.anchorFuts[index]?, result with
      | none, _ => pure (task, false)
      | some _, none => throw none
      | some _, some anchor =>
          pure ({ task with anchorFuts := task.anchorFuts.eraseIdx index }.onAnchor anchor, true)

/-- The block that the stream yields, if it does. -/
def pollBlock (task : BlockDownloadTask) :
    Option (Option Block) → Except (Option (List AnchoredBlock)) (BlockDownloadTask × Bool)
  | none => pure (task, false)
  | some result =>
      match task.blockFuts, result with
      | [], _ => pure (task, false)
      | _ :: _, none => throw none
      | _ :: rest, some block =>
          match block.anchorBlockId with
          | none => throw (some task.out)
          | some anchorId => pure ({ task with blockFuts := rest }.onBlock block anchorId, true)

/-- One iteration of the loop. -/
def iterate (task : BlockDownloadTask) (yields : Yields) :
    Except (Option (List AnchoredBlock)) (BlockDownloadTask × Bool) := do
  let (task, anchorProgress) ← task.pollAnchor yields.anchor
  let (task, blockProgress) ← task.pollBlock yields.block
  if task.out.length = task.count then throw (some task.out)
  else pure (task, anchorProgress || blockProgress)

/-- `BlockDownloadTask::poll`, with what the streams have ready in each iteration, and nothing
after that. -/
def poll (task : BlockDownloadTask) : List Yields → DownloadPoll
  | [] =>
      match task.iterate ⟨none, none⟩ with
      | .error result => .ready result
      | .ok (task, _) => .pending task
  | yields :: rest =>
      match task.iterate yields with
      | .error result => .ready result
      | .ok (task, progress) => if progress then task.poll rest else .pending task

/-- Several polls, until one of them is ready. -/
def polls (task : BlockDownloadTask) : List (List Yields) → DownloadPoll
  | [] => .pending task
  | yields :: rest =>
      match task.poll yields with
      | .ready result => .ready result
      | .pending task => task.polls rest

/-- Every iteration of a poll meets a condition. -/
def PollMeets (condition : BlockDownloadTask → Yields → Prop) (task : BlockDownloadTask) :
    List Yields → Prop
  | [] => True
  | yields :: rest => condition task yields ∧
      ∀ next, task.iterate yields = .ok (next, true) → PollMeets condition next rest

/-- Every iteration of several polls meets a condition. -/
def PollsMeet (condition : BlockDownloadTask → Yields → Prop) (task : BlockDownloadTask) :
    List (List Yields) → Prop
  | [] => True
  | yields :: rest => PollMeets condition task yields ∧
      ∀ next, task.poll yields = .pending next → PollsMeet condition next rest

/-- The nodes answer with the headers and blocks that were asked for. -/
structure HonestYields (task : BlockDownloadTask) (yields : Yields) : Prop where
  anchor : ∀ index result, yields.anchor = some (index, result) →
    task.Honest (.anchor index result)
  block : ∀ result, yields.block = some result → task.Honest (.block result)

/-- Moreover, every block has an anchor transaction that can be decoded. -/
structure DecodableYields (task : BlockDownloadTask) (yields : Yields) : Prop
    extends task.HonestYields yields where
  decodable : ∀ block, yields.block = some (some block) → block.anchorBlockId ≠ none

variable {range : RangeInclusive} {task : BlockDownloadTask}

/-! ## The download is complete -/

/-- Which block is asked for depends on those that have not arrived. -/
theorem honest_block_congr {other : BlockDownloadTask} {result : Option Block}
    (h : other.blockFuts = task.blockFuts) :
    other.Honest (.block result) ↔ task.Honest (.block result) := by
  cases result with
  | none => exact Iff.rfl
  | some block =>
      unfold Honest
      rw [h]

/-- Polling for an anchor keeps the account, and returns only with an error. -/
theorem Accounted.pollAnchor (h : task.Accounted range) {yielded : Option (Nat × Option Header)}
    (hhonest : ∀ index result, yielded = some (index, result) →
      task.Honest (.anchor index result)) :
    task.pollAnchor yielded = .error none ∨ ∃ next progress,
      task.pollAnchor yielded = .ok (next, progress) ∧ next.Accounted range ∧
        next.blockFuts = task.blockFuts := by
  cases yielded with
  | none => exact .inr ⟨task, false, rfl, h, rfl⟩
  | some item =>
      obtain ⟨index, result⟩ := item
      unfold BlockDownloadTask.pollAnchor
      dsimp only
      split
      · exact .inr ⟨task, false, rfl, h, rfl⟩
      · exact .inl rfl
      · next number anchor hrequest =>
          have hnumber : anchor.number = number := hhonest index _ rfl number hrequest
          exact .inr ⟨_, true, rfl, h.onAnchor hrequest hnumber, rfl⟩

/-- Polling for a block keeps the account, and returns with an error or at a block without an
anchor transaction. -/
theorem Accounted.pollBlock (h : task.Accounted range) {yielded : Option (Option Block)}
    (hhonest : ∀ result, yielded = some result → task.Honest (.block result)) :
    task.pollBlock yielded = .error none ∨
      (task.pollBlock yielded = .error (some task.out) ∧
        ∃ block, yielded = some (some block) ∧ block.anchorBlockId = none) ∨
      ∃ next progress, task.pollBlock yielded = .ok (next, progress) ∧ next.Accounted range := by
  cases yielded with
  | none => exact .inr (.inr ⟨task, false, rfl, h⟩)
  | some result =>
      unfold BlockDownloadTask.pollBlock
      dsimp only
      split
      · exact .inr (.inr ⟨task, false, rfl, h⟩)
      · exact .inl rfl
      · next number rest block hfuts =>
          have hnumber : block.header.number = number :=
            hhonest _ rfl number (by rw [hfuts]; rfl)
          split
          · next hdecoded => exact .inr (.inl ⟨rfl, block, rfl, hdecoded⟩)
          · next anchorId hdecoded =>
              exact .inr (.inr ⟨_, true, rfl, h.onBlock hfuts hnumber hdecoded⟩)

/-- What an iteration comes to: an error, all blocks of the range, a stop at a block without an
anchor transaction, or a task that misses some blocks and accounts for all. -/
theorem Accounted.iterate (h : task.Accounted range) {yields : Yields}
    (hyields : task.HonestYields yields) :
    task.iterate yields = .error none ∨
      (∃ out, task.iterate yields = .error (some out) ∧ Complete range out) ∨
      (∃ out, task.iterate yields = .error (some out) ∧
        ∃ block, yields.block = some (some block) ∧ block.anchorBlockId = none) ∨
      ∃ next progress, task.iterate yields = .ok (next, progress) ∧ next.Accounted range ∧
        next.out.length ≠ next.count := by
  unfold BlockDownloadTask.iterate
  obtain hanchor | ⟨middle, anchorProgress, hanchor, hmiddle, hfuts⟩ :=
    h.pollAnchor hyields.anchor
  · rw [hanchor]
    exact .inl rfl
  have hblocks : ∀ result, yields.block = some result → middle.Honest (.block result) :=
    fun result hresult => (honest_block_congr hfuts).mpr (hyields.block result hresult)
  rw [hanchor]
  obtain hblock | ⟨hblock, hstop⟩ | ⟨next, blockProgress, hblock, hnext⟩ :=
    hmiddle.pollBlock hblocks
  · left
    simp only [bind, Except.bind, hblock]
  · refine .inr (.inr (.inl ⟨middle.out, ?_, hstop⟩))
    simp only [bind, Except.bind, hblock]
  · simp only [bind, Except.bind, hblock]
    by_cases hcount : next.out.length = next.count
    · rw [if_pos hcount]
      exact .inr (.inl ⟨_, rfl, (hnext.complete hcount).1⟩)
    · rw [if_neg hcount]
      exact .inr (.inr (.inr ⟨next, _, rfl, hnext, hcount⟩))

/-- Streams that yield nothing answer nothing wrong. -/
theorem honestYields_none (task : BlockDownloadTask) : task.HonestYields ⟨none, none⟩ :=
  { anchor := fun _ _ h => absurd h.symm (Option.some_ne_none _)
    block := fun _ h => absurd h.symm (Option.some_ne_none _) }

/-- A task that misses blocks waits for something. -/
theorem Accounted.inFlight (h : task.Accounted range) (hopen : task.out.length ≠ task.count) :
    task.blockFuts ≠ [] ∨ task.anchorFuts ≠ [] := by
  by_contra hidle
  obtain ⟨hblocks, hanchors⟩ := not_or.mp hidle
  exact hopen (h.length_of_idle (not_not.mp hblocks) (not_not.mp hanchors))

/-- A poll that is ready has all blocks, and one that is not accounts for all and misses some. -/
def PollComplete (range : RangeInclusive) : DownloadPoll → Prop
  | .pending task => task.Accounted range ∧ task.out.length ≠ task.count
  | .ready none => True
  | .ready (some out) => Complete range out

/-- A poll keeps the account. -/
theorem Accounted.poll (h : task.Accounted range) {yields : List Yields}
    (hmeet : PollMeets DecodableYields task yields) : PollComplete range (task.poll yields) := by
  induction yields generalizing task with
  | nil =>
      have hnothing := honestYields_none task
      unfold BlockDownloadTask.poll
      obtain heq | ⟨out, heq, hout⟩ | ⟨out, -, block, hyield, -⟩ | ⟨next, progress, heq, hnext⟩ :=
        h.iterate hnothing
      · rw [heq]
        trivial
      · rw [heq]
        exact hout
      · cases hyield
      · rw [heq]
        exact hnext
  | cons first rest ih =>
      unfold BlockDownloadTask.poll
      obtain heq | ⟨out, heq, hout⟩ | ⟨out, -, block, hyield, hdecoded⟩ |
        ⟨next, progress, heq, hnext⟩ := h.iterate hmeet.1.toHonestYields
      · rw [heq]
        trivial
      · rw [heq]
        exact hout
      · exact absurd hdecoded (hmeet.1.decodable block hyield)
      · rw [heq]
        cases progress with
        | false => exact hnext
        | true => exact ih hnext.1 (hmeet.2 next heq)

/-- So do several polls. -/
theorem Accounted.polls (h : task.Accounted range) {schedule : List (List Yields)}
    (hne : schedule ≠ []) (hmeet : PollsMeet DecodableYields task schedule) :
    PollComplete range (task.polls schedule) := by
  induction schedule generalizing task with
  | nil => exact absurd rfl hne
  | cons yields rest ih =>
      have hpoll := h.poll hmeet.1
      unfold BlockDownloadTask.polls
      cases heq : task.poll yields with
      | ready result =>
          rw [heq] at hpoll
          exact hpoll
      | pending next =>
          rw [heq] at hpoll
          cases rest with
          | nil => exact hpoll
          | cons second rest => exact ih hpoll.1 (List.cons_ne_nil _ _) (hmeet.2 next heq)

/-- However blocks and anchors arrive over the polls of a task: it is not pending when nothing is
in flight, and when it is ready without an error it has every block of the range once, with the
header that it is anchored to, so that these pass the gap check. -/
theorem download_complete {range : RangeInclusive} {schedule : List (List Yields)}
    (hne : schedule ≠ []) (hmeet : PollsMeet DecodableYields (new range) schedule) :
    (∀ task, (new range).polls schedule = .pending task →
      task.blockFuts ≠ [] ∨ task.anchorFuts ≠ []) ∧
    ∀ out, (new range).polls schedule = .ready (some out) →
      Complete range out ∧ ∃ soft, ContiguousAnchoredBlocks.new out = .ok soft := by
  have hpolls := (accounted_new range).polls hne hmeet
  constructor
  · intro task heq
    rw [heq] at hpolls
    exact hpolls.1.inFlight hpolls.2
  · intro out heq
    rw [heq] at hpolls
    exact ⟨hpolls, hpolls.new_eq_ok⟩

/-- A block without transactions of users, whose first transaction decodes to this anchor, if it
does. -/
def blockAnchoredTo (number : Nat) (anchorId : Option Nat) : Block :=
  { header :=
      { number := number, timestamp := 0, hash := 0, beneficiary := 0, baseFeePerGas := none }
    transactions :=
      [{ signer := TAIKO_GOLDEN_TOUCH_ACCOUNT, inner := ⟨[]⟩, anchorV3BlockId := anchorId }] }

/-- The first poll gets block 1, the second one its anchor and block 2 on the same anchor. -/
def twoPolls : List (List Yields) :=
  [[⟨none, some (some (blockAnchoredTo 1 (some 10)))⟩],
    [⟨some (0, some (l1Header 10)), some (some (blockAnchoredTo 2 (some 10)))⟩]]

/-- The download of two blocks in two polls returns both. -/
theorem download_complete_twoPolls : ∃ out,
    (new ⟨1, 2⟩).polls twoPolls = .ready (some out) ∧ out.map AnchoredBlock.number = [1, 2] ∧
      Complete ⟨1, 2⟩ out ∧ ∃ soft, ContiguousAnchoredBlocks.new out = .ok soft := by
  have hmeet : PollsMeet DecodableYields (new ⟨1, 2⟩) twoPolls := by
    refine ⟨⟨?_, fun _ _ => trivial⟩, fun next hnext =>
      ⟨⟨?_, fun _ _ => trivial⟩, fun _ _ => trivial⟩⟩
    · constructor
      · constructor
        · rintro index result ⟨⟩
        · rintro _ ⟨⟩ number hnumber
          exact Option.some.inj hnumber
      · rintro _ ⟨⟩
        decide
    · obtain rfl := DownloadPoll.pending.inj hnext
      constructor
      · constructor
        · rintro index result ⟨⟩ number hnumber
          exact Option.some.inj hnumber
        · rintro _ ⟨⟩ number hnumber
          exact Option.some.inj hnumber
      · rintro _ ⟨⟩
        decide
  obtain ⟨out, hready, hnumbers⟩ : ∃ out, (new ⟨1, 2⟩).polls twoPolls = .ready (some out) ∧
      out.map AnchoredBlock.number = [1, 2] := ⟨_, rfl, rfl⟩
  exact ⟨out, hready, hnumbers, (download_complete (List.cons_ne_nil _ _) hmeet).2 out hready⟩

/-! ## Polls and single answers -/

/-- What a list of answers leads to. -/
def after (task : BlockDownloadTask) : List DownloadEvent → DownloadPoll
  | [] => .pending task
  | event :: rest =>
      match task.progress event with
      | .ready result => .ready result
      | .pending task => task.after rest

/-- The task after an answer, if it is not ready. -/
def step (task : BlockDownloadTask) (event : DownloadEvent) : Option BlockDownloadTask :=
  match task.progress event with
  | .ready _ => none
  | .pending task => some task

/-- An answer after which the task is ready ends its run. -/
theorem step_of_ready {event : DownloadEvent} {result : Option (List AnchoredBlock)}
    (h : task.progress event = .ready result) : task.step event = none := by
  unfold step
  rw [h]

/-- An answer after which the task is pending leads to the next task. -/
theorem step_of_pending {event : DownloadEvent} {next : BlockDownloadTask}
    (h : task.progress event = .pending next) : task.step event = some next := by
  unfold step
  rw [h]

theorem after_singleton (task : BlockDownloadTask) (event : DownloadEvent) :
    task.after [event] = task.progress event := by
  unfold after
  cases task.progress event with
  | ready result => rfl
  | pending next => rfl

/-- Waiting for a task is waiting for it to be ready. -/
theorem await_eq_after (task : BlockDownloadTask) (events : List DownloadEvent) :
    task.await events =
      match task.after events with
      | .ready result => result
      | .pending _ => none := by
  induction events generalizing task with
  | nil => rfl
  | cons event rest ih =>
      unfold await after
      cases task.progress event with
      | ready result => rfl
      | pending next => exact ih next

/-- A task that has all blocks of its range is ready at once. -/
theorem run_of_complete (h : task.out.length = task.count) (events : List DownloadEvent) :
    task.run events = some task.out := by
  unfold run checkCount
  rw [if_pos h]

/-- A task that misses blocks waits for answers. -/
theorem run_of_open (h : task.out.length ≠ task.count) (events : List DownloadEvent) :
    task.run events = task.await events := by
  unfold run checkCount
  rw [if_neg h]

/-- Answers that were handled can be followed by others. -/
theorem after_append {task next : BlockDownloadTask} {left right : List DownloadEvent}
    (h : task.after left = .pending next) : task.after (left ++ right) = next.after right := by
  induction left generalizing task with
  | nil =>
      cases h
      rfl
  | cons event rest ih =>
      rw [List.cons_append]
      cases hprogress : task.progress event with
      | ready result =>
          simp only [after, hprogress] at h
          cases h
      | pending middle =>
          simp only [after, hprogress] at h ⊢
          exact ih h

/-- The answers of two lists meet a condition one after the other. -/
theorem stepsMeet_append {condition : BlockDownloadTask → DownloadEvent → Prop}
    {task next : BlockDownloadTask} {left right : List DownloadEvent}
    (h : task.after left = .pending next)
    (hleft : Transition.StepsMeet step condition task left)
    (hright : Transition.StepsMeet step condition next right) :
    Transition.StepsMeet step condition task (left ++ right) := by
  induction left generalizing task with
  | nil =>
      cases h
      exact hright
  | cons event rest ih =>
      refine ⟨hleft.1, fun middle hmiddle => ?_⟩
      have hrest := hleft.2 middle hmiddle
      unfold after at h
      unfold step at hmiddle
      cases hprogress : task.progress event with
      | ready result =>
          rw [hprogress] at h
          cases h
      | pending other =>
          rw [hprogress] at h hmiddle
          cases hmiddle
          exact ih h hrest

/-- An anchor that is yielded is an answer. -/
theorem progress_anchor (task : BlockDownloadTask) (index : Nat) (result : Option Header) :
    task.progress (.anchor index result) =
      match task.pollAnchor (some (index, result)) with
      | .error result => .ready result
      | .ok (next, progress) => if progress then next.checkCount else .pending next := by
  unfold progress pollAnchor
  dsimp only
  cases task.anchorFuts[index]? with
  | none => rfl
  | some number =>
      cases result with
      | none => rfl
      | some anchor => rfl

/-- A block that is yielded is an answer. -/
theorem progress_block (task : BlockDownloadTask) (result : Option Block) :
    task.progress (.block result) =
      match task.pollBlock (some result) with
      | .error result => .ready result
      | .ok (next, progress) => if progress then next.checkCount else .pending next := by
  unfold progress pollBlock
  dsimp only
  cases task.blockFuts with
  | nil => rfl
  | cons number rest =>
      cases result with
      | none => rfl
      | some block =>
          dsimp only
          cases block.anchorBlockId with
          | none => rfl
          | some anchorId => rfl

/-- A poll of a stream that yields nothing, or for which nothing is in flight, changes nothing. -/
theorem pollAnchor_eq_of_idle {yielded : Option (Nat × Option Header)} {next : BlockDownloadTask}
    (h : task.pollAnchor yielded = .ok (next, false)) : next = task := by
  unfold pollAnchor at h
  split at h
  · cases h
    rfl
  · split at h
    · cases h
      rfl
    · cases h
    · cases h

theorem pollBlock_eq_of_idle {yielded : Option (Option Block)} {next : BlockDownloadTask}
    (h : task.pollBlock yielded = .ok (next, false)) : next = task := by
  unfold pollBlock at h
  split at h
  · cases h
    rfl
  · split at h
    · cases h
      rfl
    · cases h
    · split at h
      · cases h
      · cases h

/-- A stream of anchors without requests yields nothing. -/
theorem pollAnchor_of_nil (h : task.anchorFuts = [])
    (yielded : Option (Nat × Option Header)) : task.pollAnchor yielded = .ok (task, false) := by
  unfold pollAnchor
  cases yielded with
  | none => rfl
  | some item =>
      dsimp only
      rw [h]
      rfl

/-- A stream of blocks without requests yields nothing. -/
theorem pollBlock_of_nil (h : task.blockFuts = []) (yielded : Option (Option Block)) :
    task.pollBlock yielded = .ok (task, false) := by
  unfold pollBlock
  cases yielded with
  | none => rfl
  | some result =>
      dsimp only
      rw [h]
      rfl

/-- Polling for an anchor does what an answer does, or nothing. -/
theorem pollAnchor_refines (hopen : task.out.length ≠ task.count)
    {yielded : Option (Nat × Option Header)}
    (hhonest : ∀ index result, yielded = some (index, result) →
      task.Honest (.anchor index result)) :
    ∃ events, Transition.StepsMeet step Honest task events ∧
      task.after events =
        match task.pollAnchor yielded with
        | .error result => .ready result
        | .ok (next, _) => next.checkCount := by
  have hcheck : task.checkCount = .pending task := if_neg hopen
  cases yielded with
  | none => exact ⟨[], trivial, hcheck.symm⟩
  | some item =>
      obtain ⟨index, result⟩ := item
      refine ⟨[.anchor index result], ⟨hhonest index result rfl, fun _ _ => trivial⟩, ?_⟩
      rw [after_singleton, progress_anchor]
      cases hpoll : task.pollAnchor (some (index, result)) with
      | error result => rfl
      | ok reached =>
          obtain ⟨next, progress⟩ := reached
          cases progress with
          | false =>
              rw [pollAnchor_eq_of_idle hpoll]
              exact hcheck.symm
          | true => rfl

/-- Polling for a block does what an answer does, or nothing. -/
theorem pollBlock_refines (hopen : task.out.length ≠ task.count) {yielded : Option (Option Block)}
    (hhonest : ∀ result, yielded = some result → task.Honest (.block result)) :
    ∃ events, Transition.StepsMeet step Honest task events ∧
      task.after events =
        match task.pollBlock yielded with
        | .error result => .ready result
        | .ok (next, _) => next.checkCount := by
  have hcheck : task.checkCount = .pending task := if_neg hopen
  cases yielded with
  | none => exact ⟨[], trivial, hcheck.symm⟩
  | some result =>
      refine ⟨[.block result], ⟨hhonest result rfl, fun _ _ => trivial⟩, ?_⟩
      rw [after_singleton, progress_block]
      cases hpoll : task.pollBlock (some result) with
      | error result => rfl
      | ok reached =>
          obtain ⟨next, progress⟩ := reached
          cases progress with
          | false =>
              rw [pollBlock_eq_of_idle hpoll]
              exact hcheck.symm
          | true => rfl

/-- An iteration does what one or two answers do: first the anchor, then the block. If the anchor
completes the download, there is no block left. -/
theorem Accounted.iterate_refines (h : task.Accounted range)
    (hopen : task.out.length ≠ task.count) {yields : Yields} (hyields : task.HonestYields yields) :
    ∃ events, Transition.StepsMeet step Honest task events ∧
      task.after events =
        match task.iterate yields with
        | .error result => .ready result
        | .ok (next, _) => .pending next := by
  obtain ⟨anchors, hmeet, hafter⟩ := pollAnchor_refines hopen hyields.anchor
  unfold BlockDownloadTask.iterate
  obtain hanchor | ⟨middle, anchorProgress, hanchor, hmiddle, hfuts⟩ := h.pollAnchor hyields.anchor
  · rw [hanchor] at hafter ⊢
    exact ⟨anchors, hmeet, hafter⟩
  rw [hanchor] at hafter ⊢
  dsimp only at hafter
  by_cases hcount : middle.out.length = middle.count
  · -- Nothing is left that the block stream could yield.
    have hnone := pollBlock_of_nil (hmiddle.complete hcount).2 yields.block
    refine ⟨anchors, hmeet, ?_⟩
    simp only [bind, Except.bind, hnone, hcount, if_pos]
    rw [hafter, checkCount, if_pos hcount]
    rfl
  · rw [checkCount, if_neg hcount] at hafter
    have hhonest : ∀ result, yields.block = some result → middle.Honest (.block result) :=
      fun result hresult => (honest_block_congr hfuts).mpr (hyields.block result hresult)
    obtain ⟨blocks, hmeet', hafter'⟩ := pollBlock_refines hcount hhonest
    refine ⟨anchors ++ blocks, stepsMeet_append hafter hmeet hmeet', ?_⟩
    rw [after_append hafter, hafter']
    simp only [bind, Except.bind]
    cases middle.pollBlock yields.block with
    | error result => rfl
    | ok reached =>
        obtain ⟨next, blockProgress⟩ := reached
        dsimp only
        unfold checkCount
        by_cases hnext : next.out.length = next.count
        · rw [if_pos hnext, if_pos hnext]
          rfl
        · rw [if_neg hnext, if_neg hnext]
          rfl

/-- The iterations of a poll do what the answers that they handle do. -/
theorem Accounted.poll_refines (h : task.Accounted range) (hopen : task.out.length ≠ task.count)
    {yields : List Yields} (hmeet : PollMeets HonestYields task yields) :
    (∃ events, Transition.StepsMeet step Honest task events ∧
      task.after events = task.poll yields) ∧
    ∀ next, task.poll yields = .pending next →
      next.Accounted range ∧ next.out.length ≠ next.count := by
  induction yields generalizing task with
  | nil =>
      obtain ⟨events, hevents, hafter⟩ := h.iterate_refines hopen (honestYields_none task)
      unfold BlockDownloadTask.poll
      refine ⟨⟨events, hevents, hafter⟩, fun reached hreached => ?_⟩
      obtain heq | ⟨out, heq, -⟩ | ⟨out, heq, -⟩ | ⟨next, progress, heq, hnext⟩ :=
        h.iterate (honestYields_none task)
      · rw [heq] at hreached
        cases hreached
      · rw [heq] at hreached
        cases hreached
      · rw [heq] at hreached
        cases hreached
      · rw [heq] at hreached
        cases hreached
        exact hnext
  | cons first rest ih =>
      obtain ⟨events, hevents, hafter⟩ := h.iterate_refines hopen hmeet.1
      unfold BlockDownloadTask.poll
      obtain heq | ⟨out, heq, -⟩ | ⟨out, heq, -⟩ | ⟨next, progress, heq, hnext, hnextOpen⟩ :=
        h.iterate hmeet.1
      · rw [heq] at hafter ⊢
        refine ⟨⟨events, hevents, hafter⟩, fun reached hreached => ?_⟩
        cases hreached
      · rw [heq] at hafter ⊢
        refine ⟨⟨events, hevents, hafter⟩, fun reached hreached => ?_⟩
        cases hreached
      · rw [heq] at hafter ⊢
        refine ⟨⟨events, hevents, hafter⟩, fun reached hreached => ?_⟩
        cases hreached
      · rw [heq] at hafter ⊢
        cases progress with
        | false =>
            refine ⟨⟨events, hevents, hafter⟩, fun reached hreached => ?_⟩
            cases hreached
            exact ⟨hnext, hnextOpen⟩
        | true =>
            -- the loop goes on after progress, so the events of the next iterations follow
            obtain ⟨⟨others, hothers, hafter'⟩, hpending⟩ :=
              ih hnext hnextOpen (hmeet.2 next heq)
            refine ⟨⟨events ++ others, stepsMeet_append hafter hevents hothers, ?_⟩, hpending⟩
            rw [after_append hafter, hafter']
            rfl

/-- The polls of a task do what the answers that they handle do. -/
theorem Accounted.polls_refines (h : task.Accounted range) (hopen : task.out.length ≠ task.count)
    {schedule : List (List Yields)} (hmeet : PollsMeet HonestYields task schedule) :
    ∃ events, Transition.StepsMeet step Honest task events ∧
      task.after events = task.polls schedule := by
  induction schedule generalizing task with
  | nil => exact ⟨[], trivial, rfl⟩
  | cons yields rest ih =>
      obtain ⟨⟨events, hevents, hafter⟩, hpending⟩ := h.poll_refines hopen hmeet.1
      unfold BlockDownloadTask.polls
      cases heq : task.poll yields with
      | ready result =>
          rw [heq] at hafter
          exact ⟨events, hevents, hafter⟩
      | pending next =>
          rw [heq] at hafter
          obtain ⟨hnext, hnextOpen⟩ := hpending next heq
          obtain ⟨others, hothers, hafter'⟩ := ih hnext hnextOpen (hmeet.2 next heq)
          exact ⟨events ++ others, stepsMeet_append hafter hevents hothers,
            (after_append hafter).trans hafter'⟩

/-- A task for which nothing is in flight makes no progress. -/
theorem iterate_of_idle (hblocks : task.blockFuts = []) (hanchors : task.anchorFuts = [])
    (hcount : task.out.length = task.count) (yields : Yields) :
    task.iterate yields = .error (some task.out) := by
  unfold iterate
  simp only [bind, Except.bind, pollAnchor_of_nil hanchors, pollBlock_of_nil hblocks, if_pos hcount]
  rfl

/-- Nor does it need more than one poll. -/
theorem polls_of_idle (hblocks : task.blockFuts = []) (hanchors : task.anchorFuts = [])
    (hcount : task.out.length = task.count) {schedule : List (List Yields)}
    (hne : schedule ≠ []) : task.polls schedule = .ready (some task.out) := by
  obtain ⟨yields, rest, rfl⟩ := List.exists_cons_of_ne_nil hne
  have hiterate := iterate_of_idle hblocks hanchors hcount
  have hpoll : task.poll yields = .ready (some task.out) := by
    cases yields with
    | nil =>
        unfold poll
        rw [hiterate]
    | cons first others =>
        unfold poll
        rw [hiterate]
  unfold polls
  rw [hpoll]

end BlockDownloadTask

/-- `SoftBlocksDownloader::download`, over the polls of its task. -/
def downloadPolls (schedule : List (List Yields)) (range : RangeInclusive) :
    Option ContiguousAnchoredBlocks :=
  match (BlockDownloadTask.new range).polls schedule with
  | .ready (some anchored) => (ContiguousAnchoredBlocks.new anchored).toOption
  | _ => none

/-- The polls of a download do what the answers that they handle do. -/
theorem downloadPolls_refines {range : RangeInclusive} {schedule : List (List Yields)}
    (hne : schedule ≠ [])
    (hmeet : BlockDownloadTask.PollsMeet BlockDownloadTask.HonestYields (.new range) schedule) :
    ∃ events,
      Transition.StepsMeet BlockDownloadTask.step BlockDownloadTask.Honest (.new range) events ∧
      downloadPolls schedule range = download events range := by
  have haccounted := BlockDownloadTask.accounted_new range
  by_cases hcount : (BlockDownloadTask.new range).out.length = (BlockDownloadTask.new range).count
  · -- An empty range is ready at once.
    refine ⟨[], trivial, ?_⟩
    have hready := BlockDownloadTask.polls_of_idle (haccounted.complete hcount).2 rfl hcount hne
    unfold downloadPolls download
    rw [hready, BlockDownloadTask.run_of_complete hcount]
    rfl
  · obtain ⟨events, hevents, hafter⟩ := haccounted.polls_refines hcount hmeet
    refine ⟨events, hevents, ?_⟩
    unfold downloadPolls download
    rw [BlockDownloadTask.run_of_open hcount, BlockDownloadTask.await_eq_after, hafter]
    cases (BlockDownloadTask.new range).polls schedule with
    | pending task => rfl
    | ready result =>
        cases result with
        | none => rfl
        | some anchored => rfl

end Mk1
