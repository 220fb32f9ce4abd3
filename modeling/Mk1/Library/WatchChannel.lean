import Mathlib.Data.Nat.Init

/-!
# Watch channels

A channel that keeps only the last value sent, with one receiver. Every send
makes a new version. The receiver remembers the last version that it has seen,
and only waiting for a change marks a version as seen; looking at the value does
not.
-/

/-- The last value sent, the number of sends, and the version last seen by the receiver. -/
structure WatchChannel (α : Type*) where
  value : α
  version : Nat
  seen : Nat
  seen_le : seen ≤ version

namespace WatchChannel

variable {α : Type*}

/-- A channel whose initial value counts as seen. -/
def new (value : α) : WatchChannel α := ⟨value, 0, 0, Nat.le_refl _⟩

/-- Send a value. -/
def send (channel : WatchChannel α) (value : α) : WatchChannel α :=
  ⟨value, channel.version + 1, channel.seen, Nat.le_succ_of_le channel.seen_le⟩

/-- Look at the last value. -/
def borrow (channel : WatchChannel α) : α := channel.value

/-- Whether the current version has not been seen. -/
def hasChanged (channel : WatchChannel α) : Bool := channel.seen ≠ channel.version

/-- Poll for a change: an unseen version is marked as seen, otherwise the receiver has to wait. -/
def changed (channel : WatchChannel α) : Option (WatchChannel α) :=
  if channel.hasChanged then some ⟨channel.value, channel.version, channel.version, Nat.le_refl _⟩
  else none

/-- Look at the last value and mark it as seen. -/
def borrowAndUpdate (channel : WatchChannel α) : WatchChannel α :=
  ⟨channel.value, channel.version, channel.version, Nat.le_refl _⟩

@[simp] theorem borrow_new (value : α) : (new value).borrow = value := rfl

@[simp] theorem borrow_send (channel : WatchChannel α) (value : α) :
    (channel.send value).borrow = value := rfl

@[simp] theorem hasChanged_new (value : α) : (new value).hasChanged = false := rfl

@[simp] theorem hasChanged_send (channel : WatchChannel α) (value : α) :
    (channel.send value).hasChanged = true := by
  have hle := channel.seen_le
  unfold hasChanged send
  exact decide_eq_true (by simp only [ne_eq]; omega)

@[simp] theorem hasChanged_borrowAndUpdate (channel : WatchChannel α) :
    channel.borrowAndUpdate.hasChanged = false :=
  decide_eq_false (not_not_intro rfl)

theorem changed_eq_none {channel : WatchChannel α} :
    channel.changed = none ↔ channel.hasChanged = false := by
  unfold changed
  cases channel.hasChanged with
  | true => simp
  | false => simp

/-- A change that is reported was unseen, and is the current value. -/
theorem changed_eq_some {channel channel' : WatchChannel α}
    (h : channel.changed = some channel') :
    channel.hasChanged = true ∧ channel'.borrow = channel.borrow := by
  unfold changed at h
  cases hchanged : channel.hasChanged with
  | true =>
      rw [hchanged, if_pos rfl] at h
      cases h
      exact ⟨rfl, rfl⟩
  | false =>
      rw [hchanged] at h
      cases h

end WatchChannel
