import Mathlib.Data.Nat.Init

/-!
# Streams of a watch channel

A stream of the values of a channel that keeps the last one is ready when it is first
polled, and then whenever a value has been sent. Another stream skips its first items.
Implementations are a parameter; `YieldsNewest` and `Skips` are what they promise.
Whatever the order of sends and polls, the stream gives the newest value of each
interval between two polls: `outputs_eq`.
-/

namespace WatchStream

variable {α : Type*}

/-- What can happen to a stream: a value is sent, or the stream is polled. -/
inductive Event (α : Type*) where
  | send (value : α)
  | poll

/-- Whether an event is a poll. -/
def Event.isPoll : Event α → Bool
  | .poll => true
  | .send _ => false

/-- The value that is sent. -/
def Event.sent : Event α → Option α
  | .send value => some value
  | .poll => none

/-- The values that are sent between two polls. The last interval has not ended yet. -/
def intervals (events : List (Event α)) : List (List α) :=
  (events.splitOnP Event.isPoll).map fun interval => interval.filterMap Event.sent

/-- The newest value of each interval that has ended, where one value was unseen before. -/
def newest (unseen : Option α) (events : List (Event α)) : List α :=
  ((intervals events).modifyHead (unseen.toList ++ ·)).dropLast.filterMap List.getLast?

theorem intervals_ne_nil (events : List (Event α)) : intervals events ≠ [] :=
  fun h => List.splitOnP_ne_nil _ _ (List.map_eq_nil_iff.mp h)

theorem intervals_poll (rest : List (Event α)) :
    intervals (.poll :: rest) = [] :: intervals rest := by
  unfold intervals
  rw [List.splitOnP_cons_eq_if_modifyHead, if_pos (show Event.isPoll .poll = true from rfl)]
  rfl

theorem intervals_send (value : α) (rest : List (Event α)) :
    intervals (.send value :: rest) = (intervals rest).modifyHead (value :: ·) := by
  unfold intervals
  have hsend : ¬ Event.isPoll (.send value) = true := Bool.false_ne_true
  rw [List.splitOnP_cons_eq_if_modifyHead, if_neg hsend]
  cases hsplit : rest.splitOnP Event.isPoll with
  | nil => exact absurd hsplit (List.splitOnP_ne_nil _ _)
  | cons first others => rfl

/-- A poll ends an interval. -/
theorem newest_poll (unseen : Option α) (rest : List (Event α)) :
    newest unseen (.poll :: rest) = unseen.toList ++ newest none rest := by
  have hnone : newest none rest = (intervals rest).dropLast.filterMap List.getLast? := by
    unfold newest
    cases hintervals : intervals rest with
    | nil => rfl
    | cons first others => rfl
  rw [hnone]
  unfold newest
  rw [intervals_poll, List.modifyHead_cons, List.append_nil,
    List.dropLast_cons_of_ne_nil (intervals_ne_nil rest)]
  cases unseen with
  | none => rfl
  | some value => rfl

/-- A value that is sent replaces one that was not seen. -/
theorem newest_send (unseen : Option α) (value : α) (rest : List (Event α)) :
    newest unseen (.send value :: rest) = newest (some value) rest := by
  unfold newest
  rw [intervals_send]
  cases hintervals : intervals rest with
  | nil => exact absurd hintervals (intervals_ne_nil rest)
  | cons first others =>
      cases others with
      | nil => rfl
      | cons second others =>
          have hlast : (unseen.toList ++ value :: first).getLast? =
              (value :: first).getLast? := by
            rw [List.getLast?_append, List.getLast?_cons, Option.some_or]
          simp only [List.modifyHead_cons, List.dropLast_cons_cons, List.filterMap_cons, hlast]
          rfl

/-- If a value was unseen before, the first interval gives a value. -/
theorem newest_some_drop (value : α) (events : List (Event α)) :
    (newest (some value) events).drop 1 =
      (intervals events).dropLast.tail.filterMap List.getLast? := by
  unfold newest
  cases hintervals : intervals events with
  | nil => rfl
  | cons first others =>
      cases others with
      | nil => rfl
      | cons second others =>
          simp [List.getLast?_cons]

/-! ## What streams promise -/

/-- An implementation of streams: the stream of a channel with an initial value, what sending on the
channel does to it, what a poll finds and leaves, and the same for a stream that skips the first
items of another one. -/
structure Api (α S T : Type*) where
  new : α → S
  send : S → α → S
  pollNext : S → Option α × S
  skip : S → Nat → T
  skipSend : T → α → T
  skipPollNext : T → Option α × T

/-- The newest value if it was not there at the last poll, from the value that has not been seen
before. -/
def unseen (value : Option α) (events : List (Event α)) : Option α :=
  events.foldl (fun _ event =>
    match event with
    | .send value => some value
    | .poll => none) value

@[simp] theorem unseen_concat (value : Option α) (events : List (Event α)) (event : Event α) :
    unseen value (events ++ [event]) = event.sent := by
  unfold unseen
  rw [List.foldl_append]
  cases event with
  | send value => rfl
  | poll => rfl

namespace Api

variable {S T : Type*} (api : Api α S T)

/-- A stream after some sends and polls. -/
def after (value : α) (events : List (Event α)) : S :=
  events.foldl (fun stream event =>
    match event with
    | .send value => api.send stream value
    | .poll => (api.pollNext stream).2) (api.new value)

theorem after_send (initial : α) (events : List (Event α)) (value : α) :
    api.after initial (events ++ [.send value]) = api.send (api.after initial events) value := by
  unfold after
  rw [List.foldl_append]
  rfl

theorem after_poll (initial : α) (events : List (Event α)) :
    api.after initial (events ++ [.poll]) = (api.pollNext (api.after initial events)).2 := by
  unfold after
  rw [List.foldl_append]
  rfl

/-- What the stream of a channel promises: the first poll gives the current value, and a later one
the newest value if one has been sent since the poll before. -/
def YieldsNewest : Prop :=
  ∀ value events, (api.pollNext (api.after value events)).1 = unseen (some value) events

/-- What a stream that skips items promises: it is not ready when the other one is not, it drops an
item while there are items to skip and polls again, and gives the item otherwise. -/
structure Skips : Prop where
  send : ∀ stream count value,
    api.skipSend (api.skip stream count) value = api.skip (api.send stream value) count
  pending : ∀ stream count next, api.pollNext stream = (none, next) →
    api.skipPollNext (api.skip stream count) = (none, api.skip next count)
  dropped : ∀ stream count item next, api.pollNext stream = (some item, next) →
    api.skipPollNext (api.skip stream (count + 1)) = api.skipPollNext (api.skip next count)
  given : ∀ stream item next, api.pollNext stream = (some item, next) →
    api.skipPollNext (api.skip stream 0) = (some item, api.skip next 0)

/-- The values that the polls of a stream that skips items give. -/
def outputs : T → List (Event α) → List α
  | _, [] => []
  | skip, .send value :: rest => outputs (api.skipSend skip value) rest
  | skip, .poll :: rest =>
      (api.skipPollNext skip).1.toList ++ outputs (api.skipPollNext skip).2 rest

variable {api}

/-- A poll gives the unseen value and leaves the stream after the poll. -/
theorem YieldsNewest.pollNext_eq (h : api.YieldsNewest) (value : α) (events : List (Event α)) :
    api.pollNext (api.after value events) =
      (unseen (some value) events, api.after value (events ++ [.poll])) :=
  Prod.ext (h value events) (api.after_poll value events).symm

/-- An unseen value is given or skipped, and no other one after it. -/
theorem skipPollNext_eq (hnewest : api.YieldsNewest) (hskips : api.Skips) (initial : α)
    (events : List (Event α)) (count : Nat) :
    ∃ polls, (∀ event ∈ polls, event = .poll) ∧ polls ≠ [] ∧
      api.skipPollNext (api.skip (api.after initial events) count) =
        (((unseen (some initial) events).toList.drop count).head?,
          api.skip (api.after initial (events ++ polls))
            (count - (unseen (some initial) events).toList.length)) := by
  have hpoll := hnewest.pollNext_eq initial events
  cases hunseen : unseen (some initial) events with
  | none =>
      rw [hunseen] at hpoll
      refine ⟨[.poll], by simp, by simp, ?_⟩
      rw [hskips.pending _ count _ hpoll]
      simp
  | some value =>
      rw [hunseen] at hpoll
      cases count with
      | zero =>
          refine ⟨[.poll], by simp, by simp, ?_⟩
          rw [hskips.given _ _ _ hpoll]
          rfl
      | succ count =>
          have hagain := hnewest.pollNext_eq initial (events ++ [.poll])
          rw [unseen_concat] at hagain
          refine ⟨[.poll, .poll], by simp, by simp, ?_⟩
          rw [hskips.dropped _ count _ _ hpoll, hskips.pending _ count _ hagain]
          simp

/-- The polls give the newest value of each interval between two polls, without the first ones,
which are skipped. -/
theorem outputs_after (hnewest : api.YieldsNewest) (hskips : api.Skips) (initial : α)
    (history events : List (Event α)) (count : Nat) :
    api.outputs (api.skip (api.after initial history) count) events =
      (newest (unseen (some initial) history) events).drop count := by
  induction events generalizing history count with
  | nil => simp [outputs, newest, intervals]
  | cons event rest ih =>
      cases event with
      | send value =>
          rw [outputs, hskips.send, ← api.after_send, ih, newest_send, unseen_concat]
          rfl
      | poll =>
          obtain ⟨polls, hpolls, hne, heq⟩ := skipPollNext_eq hnewest hskips initial history count
          have hseen : unseen (some initial) (history ++ polls) = none := by
            obtain ⟨front, last, rfl⟩ := List.eq_nil_or_concat polls |>.resolve_left hne
            obtain rfl := hpolls last (by simp)
            rw [List.concat_eq_append, ← List.append_assoc, unseen_concat]
            rfl
          rw [outputs, heq, ih, hseen, newest_poll, List.drop_append]
          cases hunseen : unseen (some initial) history with
          | none => simp
          | some value =>
              cases count with
              | zero => rfl
              | succ count => simp

/-- Of the stream of a channel that skips some items, the polls give the newest value of each
interval between two polls. -/
theorem outputs_eq (hnewest : api.YieldsNewest) (hskips : api.Skips) (value : α) (count : Nat)
    (events : List (Event α)) :
    api.outputs (api.skip (api.new value) count) events =
      (newest (some value) events).drop count :=
  outputs_after hnewest hskips value [] events count

end Api

/-! ## An implementation -/

/-- A poll of a stream that skips items of one with a last value and whether it is unseen. -/
def pollSkipping (value : α) : Bool → Nat → Option α × ((α × Bool) × Nat)
  | false, count => (none, ((value, false), count))
  | true, 0 => (some value, ((value, false), 0))
  | true, count + 1 => (none, ((value, false), count))

/-- A stream as the last value and whether it is unseen, and the number of items to skip. -/
def direct : Api α (α × Bool) ((α × Bool) × Nat) where
  new value := (value, true)
  send _ value := (value, true)
  pollNext stream := (if stream.2 then some stream.1 else none, (stream.1, false))
  skip stream count := (stream, count)
  skipSend stream value := ((value, true), stream.2)
  skipPollNext stream := pollSkipping stream.1.1 stream.1.2 stream.2

/-- This implementation yields the newest value. -/
theorem yieldsNewest_direct : (direct : Api α _ _).YieldsNewest := by
  intro value events
  cases List.eq_nil_or_concat events with
  | inl hnil =>
      rw [hnil]
      rfl
  | inr hconcat =>
      obtain ⟨front, last, rfl⟩ := hconcat
      rw [List.concat_eq_append, unseen_concat]
      cases last with
      | send sent => rw [Api.after_send]; rfl
      | poll => rw [Api.after_poll]; rfl

/-- It skips items. -/
theorem skips_direct : (direct : Api α _ _).Skips where
  send _ _ _ := rfl
  pending stream count next h := by
    obtain ⟨value, unseen⟩ := stream
    cases unseen with
    | false =>
        cases h
        rfl
    | true => cases h
  dropped stream count item next h := by
    obtain ⟨value, unseen⟩ := stream
    cases unseen with
    | false => cases h
    | true =>
        cases h
        rfl
  given stream item next h := by
    obtain ⟨value, unseen⟩ := stream
    cases unseen with
    | false => cases h
    | true =>
        cases h
        rfl

end WatchStream
