import Mk1.Library.Transition
import Mk1.Library.WatchChannel
import Mk1.Primitives.Batch

/-!
# The state of the block builder

`BuilderState` guards the outstanding batch while a block is being finalized:
`waitForIdle` is meant to return only when the builder is idle. It looks at the
state without marking it as seen, so the first wait after a finalization has
started takes the start itself for the change it waits for.
`wait_returns_idle_iff` says exactly when a wait does what it is meant to do.
-/

namespace Mk1

/-- The possible states of the block builder. -/
inductive State where
  | idle
  | finalizing (blockNumber : Nat)
  deriving DecidableEq, Repr

/-- The state of the builder, in a watch channel. -/
structure BuilderState where
  channel : WatchChannel State

/-- The response of the block builder. The guard that it holds is the channel of the builder. -/
structure BlockBuilderResponse where
  preconfirmedBlock : PreconfirmedBlock
  anchor : Header
  deriving DecidableEq, Repr

namespace BuilderState

/-- `BuilderState::new`. -/
def new : BuilderState := ⟨.new .idle⟩

/-- Set the state to finalizing. -/
def setFinalizing (state : BuilderState) (blockNumber : Nat) : BuilderState :=
  ⟨state.channel.send (.finalizing blockNumber)⟩

/-- The number of the block that is being finalized, if any. -/
def isFinalizing (state : BuilderState) : Option Nat :=
  match state.channel.borrow with
  | .finalizing blockNumber => some blockNumber
  | .idle => none

/-- Set the state to idle, when a finalization fails or a response is dropped. -/
def release (state : BuilderState) : BuilderState := ⟨state.channel.send .idle⟩

/-- The first poll of `wait_for_idle`: it returns if the builder is not finalizing or if the
current version has not been seen, and is pending otherwise. -/
def waitForIdle (state : BuilderState) : Option BuilderState :=
  if state.isFinalizing.isSome then state.channel.changed.map BuilderState.mk else some state

/-- A later poll of `wait_for_idle`, which waits for a change. -/
def pollChanged (state : BuilderState) : Option BuilderState :=
  state.channel.changed.map BuilderState.mk

@[simp] theorem isFinalizing_release (state : BuilderState) :
    state.release.isFinalizing = none := rfl

@[simp] theorem isFinalizing_setFinalizing (state : BuilderState) (blockNumber : Nat) :
    (state.setFinalizing blockNumber).isFinalizing = some blockNumber := rfl

/-- A wait that sees a change leaves the state as it is. -/
theorem isFinalizing_pollChanged {state state' : BuilderState}
    (h : state.pollChanged = some state') :
    state.channel.hasChanged = true ∧ state'.isFinalizing = state.isFinalizing := by
  obtain ⟨channel, hchanged, rfl⟩ := Option.map_eq_some_iff.mp h
  obtain ⟨hunseen, hvalue⟩ := WatchChannel.changed_eq_some hchanged
  refine ⟨hunseen, ?_⟩
  unfold isFinalizing
  rw [hvalue]

/-- Everything that the first poll of a wait can do. -/
theorem waitForIdle_cases (state : BuilderState) :
    (state.isFinalizing = none ∧ state.waitForIdle = some state) ∨
      (state.isFinalizing.isSome ∧ state.channel.hasChanged = true ∧
        ∃ state', state.waitForIdle = some state' ∧ state'.isFinalizing = state.isFinalizing) ∨
      (state.isFinalizing.isSome ∧ state.channel.hasChanged = false ∧
        state.waitForIdle = none) := by
  unfold waitForIdle
  cases hstate : state.isFinalizing with
  | none => exact .inl ⟨rfl, rfl⟩
  | some blockNumber =>
      rw [Option.isSome_some, if_pos rfl]
      cases hpoll : state.channel.changed with
      | none =>
          exact .inr (.inr ⟨rfl, WatchChannel.changed_eq_none.mp hpoll, rfl⟩)
      | some channel =>
          have hpoll' : state.pollChanged = some ⟨channel⟩ := by rw [pollChanged, hpoll]; rfl
          obtain ⟨hunseen, hsame⟩ := isFinalizing_pollChanged hpoll'
          exact .inr (.inl ⟨rfl, hunseen, ⟨channel⟩, rfl, hsame.trans hstate⟩)

/-- The first poll of a wait that is over leaves the state as it is. -/
theorem isFinalizing_waitForIdle (state : BuilderState) {woken : BuilderState}
    (h : state.waitForIdle = some woken) : woken.isFinalizing = state.isFinalizing := by
  obtain ⟨-, hidle⟩ | ⟨-, -, other, hother, hsame⟩ | ⟨-, -, hnone⟩ := state.waitForIdle_cases
  · rw [h] at hidle
    cases hidle
    rfl
  · rw [h] at hother
    cases hother
    exact hsame
  · rw [h] at hnone
    cases hnone

end BuilderState

/-! ## Interleavings -/

/-- A builder state together with whether a call of `wait_for_idle` is suspended on it. -/
structure GuardSystem where
  builder : BuilderState
  waiting : Bool

/-- What can happen to a builder state. -/
inductive GuardEvent where
  | setFinalizing (blockNumber : Nat)
  | finalizationFailed
  | responseDropped
  | waitForIdle
  | wake
  deriving DecidableEq, Repr

namespace GuardSystem

/-- A new builder state that nothing waits for. -/
def initial : GuardSystem := ⟨.new, false⟩

/-- One event. A suspended wait borrows the builder state exclusively, so until it has returned
nothing can start a finalization or another wait, while the background tasks and the responses
still hold senders of their own. -/
def step (system : GuardSystem) : GuardEvent → Option GuardSystem
  | .setFinalizing blockNumber =>
      if system.waiting then none
      else some { system with builder := system.builder.setFinalizing blockNumber }
  | .finalizationFailed => some { system with builder := system.builder.release }
  | .responseDropped => some { system with builder := system.builder.release }
  | .waitForIdle =>
      if system.waiting then none
      else
        match system.builder.waitForIdle with
        | some builder => some ⟨builder, false⟩
        | none => some { system with waiting := true }
  | .wake =>
      if system.waiting then system.builder.pollChanged.map fun builder => ⟨builder, false⟩
      else none

/-- A call of `wait_for_idle` in one state returns in another: at once, or after it was suspended
and something has woken it. -/
inductive WaitReturns (before after : GuardSystem) : Prop where
  | atOnce (hcall : step before .waitForIdle = some after) (hreturned : after.waiting = false)
  | later (suspended last : GuardSystem) (events : List GuardEvent)
      (hcall : step before .waitForIdle = some suspended) (hsuspended : suspended.waiting = true)
      (hevents : .wake ∉ events) (hrun : Transition.run step suspended events = some last)
      (hwake : step last .wake = some after)

/-- While a wait is suspended, an unseen version is an idle one. -/
structure Suspended (system : GuardSystem) : Prop where
  waiting : system.waiting = true
  unseen : system.builder.channel.hasChanged = true → system.builder.isFinalizing = none

/-- Whatever happens to a suspended wait but waking it leaves it suspended, and can only send the
idle state. -/
theorem Suspended.step {system system' : GuardSystem} {event : GuardEvent}
    (h : Suspended system) (hevent : event ≠ .wake) (hstep : step system event = some system') :
    Suspended system' := by
  cases event with
  | setFinalizing blockNumber =>
      rw [GuardSystem.step, if_pos h.waiting] at hstep
      cases hstep
  | finalizationFailed =>
      cases hstep
      exact ⟨h.waiting, fun _ => rfl⟩
  | responseDropped =>
      cases hstep
      exact ⟨h.waiting, fun _ => rfl⟩
  | waitForIdle =>
      rw [GuardSystem.step, if_pos h.waiting] at hstep
      cases hstep
  | wake => exact absurd rfl hevent

/-- A wait stays suspended over any events that do not wake it. -/
theorem Suspended.run {system system' : GuardSystem} {events : List GuardEvent}
    (h : Suspended system) (hevents : .wake ∉ events)
    (hrun : Transition.run GuardSystem.step system events = some system') : Suspended system' := by
  have hevents' : ∀ event ∈ events, event ≠ .wake := fun event hmem heq => hevents (heq ▸ hmem)
  refine Transition.invariant_run_of_forall (fun _ _ _ hinv hevent hstep => ?_) h hevents' hrun
  exact hinv.step hevent hstep

/-- A wait returns with an idle builder exactly if at its call the builder was idle or the current
version had already been seen. -/
theorem wait_returns_idle_iff {before after : GuardSystem} (h : WaitReturns before after) :
    after.builder.isFinalizing = none ↔
      before.builder.isFinalizing = none ∨ before.builder.channel.hasChanged = false := by
  cases h with
  | atOnce hcall hreturned =>
      simp only [step] at hcall
      split at hcall
      · cases hcall
      obtain ⟨hidle, hwait⟩ | ⟨hbusy, hunseen, builder, hwait, hsame⟩ | ⟨-, -, hwait⟩ :=
        before.builder.waitForIdle_cases
      · rw [hwait] at hcall
        cases hcall
        simp [hidle]
      · rw [hwait] at hcall
        cases hcall
        rw [hsame]
        simp [hunseen]
      · rw [hwait] at hcall
        cases hcall
        cases hreturned
  | later suspended last events hcall hsuspended hevents hrun hwake =>
      simp only [step] at hcall
      split at hcall
      · cases hcall
      obtain ⟨-, hwait⟩ | ⟨-, -, builder, hwait, -⟩ | ⟨hbusy, hseen, hwait⟩ :=
        before.builder.waitForIdle_cases
      · rw [hwait] at hcall
        cases hcall
        cases hsuspended
      · rw [hwait] at hcall
        cases hcall
        cases hsuspended
      · rw [hwait] at hcall
        cases hcall
        -- a finalization that ends while the wait is suspended is a change not yet seen
        have hlast : Suspended last :=
          Suspended.run ⟨rfl, fun hunseen => by simp [hseen] at hunseen⟩ hevents hrun
        simp only [step] at hwake
        rw [if_pos hlast.waiting] at hwake
        obtain ⟨builder, hpoll, rfl⟩ := Option.map_eq_some_iff.mp hwake
        obtain ⟨hunseen, hsame⟩ := BuilderState.isFinalizing_pollChanged hpoll
        simp [hsame, hlast.unseen hunseen, hseen]

/-- The second wait of a finalization is suspended, and returns when the response is dropped. -/
theorem second_wait_returns_idle :
    ∃ before after, Transition.run step initial [.setFinalizing 5, .waitForIdle] = some before ∧
      before.builder.isFinalizing = some 5 ∧ WaitReturns before after ∧
      after.builder.isFinalizing = none := by
  have hreturns : WaitReturns
      ⟨⟨⟨.finalizing 5, 1, 1, Nat.le_refl _⟩⟩, false⟩ ⟨⟨⟨.idle, 2, 2, Nat.le_refl _⟩⟩, false⟩ :=
    .later _ _ [.responseDropped] rfl rfl (by simp) rfl rfl
  exact ⟨_, _, rfl, rfl, hreturns, (wait_returns_idle_iff hreturns).mpr (.inr rfl)⟩

/-- The first wait of a finalization returns at once, while the block is being finalized. -/
theorem first_wait_returns_finalizing :
    ∃ before after, Transition.run step initial [.setFinalizing 5] = some before ∧
      WaitReturns before after ∧ after.builder.isFinalizing = some 5 :=
  ⟨_, _, rfl, .atOnce rfl rfl, rfl⟩

end GuardSystem

end Mk1
