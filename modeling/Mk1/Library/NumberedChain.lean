import Mk1.Library.Consecutive

/-!
# Chains that grow and reorganise

A chain is a list of blocks with consecutive numbers that has a head. A new head
is put on its parent, which drops every block from its own number on; appending
a block and replacing a suffix are the two cases of this.
-/

/-- At least one block, numbered consecutively, the oldest first. -/
structure NumberedChain {α : Type*} (number : α → Nat) where
  blocks : List α
  nonempty : blocks ≠ []
  consecutive : Consecutive number blocks

namespace NumberedChain

variable {α : Type*} {number : α → Nat} {chain next : NumberedChain number} {block other : α}

/-- The last block. -/
def head (chain : NumberedChain number) : α := chain.blocks.getLast chain.nonempty

/-- Put a new head on the block before it, if the chain has this block. -/
def withHead (chain : NumberedChain number) (block : α) : Option (NumberedChain number) :=
  let kept := chain.blocks.takeWhile (number · < number block)
  if h : ∃ parent ∈ kept.getLast?, number block = number parent + 1 then
    some
      { blocks := kept ++ [block]
        nonempty := by simp
        consecutive := by
          obtain ⟨parent, hparent, hnumber⟩ := h
          refine List.isChain_append.mpr
            ⟨chain.consecutive.of_infix (List.takeWhile_prefix _).isInfix, .singleton block, ?_⟩
          intro last hlast first hfirst
          obtain rfl := Option.some.inj (hlast.symm.trans hparent)
          obtain rfl := Option.some.inj hfirst
          exact hnumber }
  else none

/-- The head of a chain is in it. -/
theorem head_mem (chain : NumberedChain number) : chain.head ∈ chain.blocks :=
  List.getLast_mem chain.nonempty

/-- The head has the highest number. -/
theorem number_le_head (h : block ∈ chain.blocks) : number block ≤ number chain.head := by
  obtain ⟨front, hsplit⟩ : ∃ front, chain.blocks = front ++ [chain.head] :=
    ⟨_, (List.dropLast_append_getLast chain.nonempty).symm⟩
  have hpairwise := chain.consecutive.pairwise_lt
  rw [hsplit] at h hpairwise
  rcases List.mem_append.mp h with hfront | hlast
  · exact ((List.pairwise_append.mp hpairwise).2.2 block hfront _
      (List.mem_singleton_self _)).le
  · exact (congrArg number (List.mem_singleton.mp hlast)).le

/-- After a new head, a chain has the blocks below it and the head. -/
theorem mem_withHead (h : chain.withHead block = some next) :
    other ∈ next.blocks ↔ (other ∈ chain.blocks ∧ number other < number block) ∨
      other = block := by
  unfold withHead at h
  dsimp only at h
  split at h
  · cases h
    rw [List.mem_append, chain.consecutive.mem_takeWhile_lt, List.mem_singleton]
  · cases h

/-- The new head is the head. -/
theorem head_withHead (h : chain.withHead block = some next) : next.head = block := by
  unfold withHead at h
  dsimp only at h
  split at h
  · cases h
    exact List.getLast_append_singleton ..
  · cases h

end NumberedChain
