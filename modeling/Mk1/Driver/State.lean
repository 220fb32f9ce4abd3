import Mk1.Driver.Config

/-!
# Chain state

The L1 and L2 state of the driver, `state.rs`, without the clients: the L1
client is the function from block numbers to the headers that it returns.
-/

namespace Mk1

/-- The L1 client's answers to `get_header`, where `none` is an error. -/
abbrev L1Client := Nat → Option Header

/-- The L1 state: the highest header, the cached anchor, the epoch, the head slot, and whether the
preconf router is set. -/
structure L1State where
  tip : Header
  anchor : Header
  epoch : Nat
  headSlot : Nat
  isPreconfRouterSet : Bool
  deriving DecidableEq, Repr

namespace L1State

/-- `L1State::new`, for the highest header. -/
def new (cfg : RuntimeConfig) (el : L1Client) (tip : Header) (isPreconfRouterSet : Bool) :
    Option L1State := do
  let anchor ← el (tip.number - cfg.anchorBlockLag)
  pure
    { tip := tip
      anchor := anchor
      epoch := tip.number / EPOCH_SLOTS
      headSlot := cfg.timestampToL1Slot tip.timestamp
      isPreconfRouterSet := isPreconfRouterSet }

/-- Fetch and cache an anchor, unless fetching it fails. The flag says whether it succeeded. -/
def updateAnchor (l1 : L1State) (el : L1Client) (new : Nat) : L1State × Bool :=
  match el new with
  | some newAnchor => ({ l1 with anchor := newAnchor }, true)
  | none => (l1, false)

/-- Take over a header and move the anchor up to the new safe one, if that is higher. The flag
says whether it succeeded. -/
def sync (cfg : RuntimeConfig) (l1 : L1State) (el : L1Client) (l1Header : Header) :
    L1State × Bool :=
  let l1 := { l1 with tip := l1Header }
  let newSafeAnchor := l1Header.number - cfg.anchorBlockLag
  if l1.anchor.number < newSafeAnchor then l1.updateAnchor el newSafeAnchor else (l1, true)

/-- Whether a slot is in a later epoch than the latest one known. -/
def isNewEpoch (l1 : L1State) (slot : Nat) : Bool := l1.epoch < slot / EPOCH_SLOTS

end L1State

/-! ## The cached anchor -/

/-- The client returns the header with the number that was asked for, if it returns one. -/
def L1Client.Honest (el : L1Client) : Prop :=
  ∀ number header, el number = some header → header.number = number

namespace L1State

/-- Updating the anchor fetches and caches it, or changes nothing. -/
theorem updateAnchor_cases (l1 : L1State) (el : L1Client) (new : Nat) :
    (∃ newAnchor, el new = some newAnchor ∧
      l1.updateAnchor el new = ({ l1 with anchor := newAnchor }, true)) ∨
      (el new = none ∧ l1.updateAnchor el new = (l1, false)) := by
  unfold updateAnchor
  cases hfetch : el new with
  | none => exact .inr ⟨rfl, rfl⟩
  | some newAnchor => exact .inl ⟨newAnchor, rfl, rfl⟩

/-- The cached anchor does not go down when it is updated to a higher one. -/
theorem anchor_le_updateAnchor (l1 : L1State) {el : L1Client} (hhonest : el.Honest) {new : Nat}
    (h : l1.anchor.number < new) : l1.anchor.number ≤ (l1.updateAnchor el new).1.anchor.number := by
  obtain ⟨newAnchor, hfetch, heq⟩ | ⟨-, heq⟩ := l1.updateAnchor_cases el new
  · rw [heq]
    exact h.le.trans (hhonest new newAnchor hfetch).ge
  · rw [heq]

/-- The cached anchor does not go down in a sync. -/
theorem anchor_le_sync (cfg : RuntimeConfig) (l1 : L1State) {el : L1Client} (hhonest : el.Honest)
    (l1Header : Header) : l1.anchor.number ≤ (l1.sync cfg el l1Header).1.anchor.number := by
  unfold sync
  dsimp only
  split
  · next hlower => exact anchor_le_updateAnchor { l1 with tip := l1Header } hhonest hlower
  · exact Nat.le_refl _

end L1State

/-- The L2 state: the head block number and the last L2 block that was posted in an L1 batch. -/
structure L2State where
  headBlock : Nat
  headL1Origin : Nat
  deriving DecidableEq, Repr

end Mk1
