import Mk1.Library.Transition
import Mk1.Library.WatchStream

/-!
# The subscription to new blocks

`subscribe_blocks` of `execution.rs`. A background task receives the headers of
new blocks, fetches each block and sends it on a watch channel, whose stream the
driver polls. The stream skips its first item, which is meant to be the default
block of the channel. The streams themselves are a parameter. `delivered_eq`
says which blocks the driver gets, for every order of the steps of the task and
the polls of the driver.
-/

namespace Mk1

/-- What can happen to a subscription: the task tries to subscribe, it receives a header and gets
an answer to its request for the block, the node closes the subscription, or the driver polls the
stream. -/
inductive BlockSubscriptionEvent (Failure Block : Type) where
  | subscribe (succeeds : Bool)
  | header (answer : Except Failure (Option Block))
  | closed
  | poll

/-- A subscription: whether the task is subscribed, the stream without its first item, and the
blocks that the stream has given, oldest first. -/
structure BlockSubscription (T Block : Type) where
  subscribed : Bool
  stream : T
  delivered : List Block

namespace BlockSubscription

variable {Failure Block S T : Type} (api : WatchStream.Api Block S T)

/-- The subscription when `subscribe_blocks` returns, with the default block in the channel. -/
def new (default : Block) : BlockSubscription T Block :=
  { subscribed := false, stream := api.skip (api.new default) 1, delivered := [] }

/-- One step of the task or one poll of the driver. Failures are only logged. -/
def step (subscription : BlockSubscription T Block) :
    BlockSubscriptionEvent Failure Block → Option (BlockSubscription T Block)
  | .subscribe succeeds =>
      if subscription.subscribed then none
      else some { subscription with subscribed := succeeds }
  | .header answer =>
      if subscription.subscribed then
        match answer with
        | .ok (some fullBlock) =>
            some { subscription with stream := api.skipSend subscription.stream fullBlock }
        | .ok none => some subscription
        | .error _ => some subscription
      else none
  | .closed =>
      if subscription.subscribed then some { subscription with subscribed := false } else none
  | .poll =>
      let (output, stream) := api.skipPollNext subscription.stream
      some
        { subscription with
          stream := stream
          delivered := subscription.delivered ++ output.toList }

/-- What an event is for the stream. -/
def streamEvent : BlockSubscriptionEvent Failure Block → Option (WatchStream.Event Block)
  | .header (.ok (some fullBlock)) => some (.send fullBlock)
  | .poll => some .poll
  | _ => none

/-- The blocks that are fetched between two polls. The last list has not been ended by a poll
yet. -/
def fetchedBetweenPolls (events : List (BlockSubscriptionEvent Failure Block)) :
    List (List Block) :=
  WatchStream.intervals (events.filterMap streamEvent)

/-- An event that is nothing for the stream leaves the stream and the delivered blocks alone. -/
theorem step_of_none {subscription next : BlockSubscription T Block}
    {event : BlockSubscriptionEvent Failure Block} (hevent : streamEvent event = none)
    (h : step api subscription event = some next) :
    next.stream = subscription.stream ∧ next.delivered = subscription.delivered := by
  cases event with
  | subscribe succeeds =>
      obtain ⟨-, h⟩ := Option.ite_none_left_eq_some.mp h
      cases h
      exact ⟨rfl, rfl⟩
  | closed =>
      obtain ⟨-, h⟩ := Option.ite_none_right_eq_some.mp h
      cases h
      exact ⟨rfl, rfl⟩
  | poll => cases hevent
  | header answer =>
      obtain ⟨-, h⟩ := Option.ite_none_right_eq_some.mp h
      cases answer with
      | error failure =>
          cases h
          exact ⟨rfl, rfl⟩
      | ok fetched =>
          cases fetched with
          | none =>
              cases h
              exact ⟨rfl, rfl⟩
          | some fullBlock => cases hevent

/-- The driver gets what the polls of the stream give. -/
theorem delivered_of_run {subscription final : BlockSubscription T Block}
    {events : List (BlockSubscriptionEvent Failure Block)}
    (hrun : Transition.run (step api) subscription events = some final) :
    final.delivered = subscription.delivered ++
      api.outputs subscription.stream (events.filterMap streamEvent) := by
  induction events generalizing subscription with
  | nil =>
      cases hrun
      exact (List.append_nil _).symm
  | cons event rest ih =>
      obtain ⟨next, hnext, hrest⟩ := Transition.run_cons.mp hrun
      rw [ih hrest]
      cases hevent : streamEvent event with
      | none =>
          obtain ⟨hstream, hdelivered⟩ := step_of_none api hevent hnext
          rw [List.filterMap_cons_none hevent, hstream, hdelivered]
      | some forStream =>
          rw [List.filterMap_cons_some hevent]
          unfold streamEvent at hevent
          split at hevent
          · next fullBlock =>
              cases hevent
              obtain ⟨-, hnext⟩ := Option.ite_none_right_eq_some.mp hnext
              cases hnext
              rfl
          · cases hevent
            cases hnext
            exact List.append_assoc ..
          · cases hevent

variable {api}

/-- In every run of a subscription, whatever the order of the steps of the task and the polls, each
poll gives the driver the newest of the blocks that were fetched since the poll before it, if there
are any. What was fetched before the first poll is never delivered. -/
theorem delivered_eq (hnewest : api.YieldsNewest) (hskips : api.Skips) (default : Block)
    {events : List (BlockSubscriptionEvent Failure Block)} {final : BlockSubscription T Block}
    (hrun : Transition.run (step api) (new api default) events = some final) :
    final.delivered = (fetchedBetweenPolls events).dropLast.tail.filterMap List.getLast? := by
  have houtputs : api.outputs (new api default).stream (events.filterMap streamEvent) =
      (WatchStream.newest (some default) (events.filterMap streamEvent)).drop 1 :=
    WatchStream.Api.outputs_eq hnewest hskips default 1 _
  rw [delivered_of_run api hrun, houtputs, WatchStream.newest_some_drop]
  rfl

/-- A block is lost before the first poll, another one is replaced before the second, and the
subscription is renewed before the third. -/
theorem delivered_eq_of_renewed : ∃ final,
    Transition.run (@step Unit Nat _ _ WatchStream.direct) (new WatchStream.direct 0)
      [.subscribe true, .header (.ok (some 1)), .poll, .header (.ok (some 2)),
        .header (.ok (some 3)), .header (.ok none), .poll, .closed, .subscribe false,
        .subscribe true, .header (.ok (some 4)), .poll] = some final ∧
      final.delivered = [3, 4] := by
  obtain ⟨final, hrun⟩ : ∃ final,
      Transition.run (@step Unit Nat _ _ WatchStream.direct) (new WatchStream.direct 0)
        [.subscribe true, .header (.ok (some 1)), .poll, .header (.ok (some 2)),
          .header (.ok (some 3)), .header (.ok none), .poll, .closed, .subscribe false,
          .subscribe true, .header (.ok (some 4)), .poll] = some final := ⟨_, rfl⟩
  exact ⟨final, hrun,
    (delivered_eq WatchStream.yieldsNewest_direct WatchStream.skips_direct 0 hrun).trans rfl⟩

end BlockSubscription

end Mk1
