import Mathlib.Data.List.Chain
import Mathlib.Data.List.Sort
import Mathlib.Data.List.Basic

/-!
# Partitioning a list by a key

Grouping the members of a list by a key and concatenating the groups in key
order. `flatMap_filter_perm` says nothing is lost or duplicated, and
`flatMap_filter_eq` says the original list comes back when the key never
decreases along it. `sort_eq_of_perm` recovers a strictly increasing list from
any rearrangement of it. `length_le_of_isChain_sublist` says that a list cannot be
cut into fewer pieces of one key than its key changes.
-/

namespace Partition

variable {α κ : Type*}

/-- Concatenating the groups of a list by key rearranges the list. -/
theorem flatMap_filter_perm [DecidableEq κ] {keys : List κ} (hnodup : keys.Nodup) (f : α → κ)
    {list : List α} (hkeys : ∀ a ∈ list, f a ∈ keys) :
    (keys.flatMap fun key => list.filter fun a => f a = key).Perm list := by
  induction keys generalizing list with
  | nil =>
      have hempty : list = [] :=
        List.eq_nil_iff_forall_not_mem.mpr fun a ha => by simpa using hkeys a ha
      simp [hempty]
  | cons key rest ih =>
      obtain ⟨hnotin, hrest⟩ := List.nodup_cons.mp hnodup
      have hsplit := List.filter_append_perm (fun a => decide (f a = key)) list
      have htail : (rest.flatMap fun other => list.filter fun a => f a = other) =
          rest.flatMap fun other =>
            (list.filter fun a => !decide (f a = key)).filter fun a => f a = other := by
        refine List.flatMap_congr fun other hother => ?_
        rw [List.filter_filter]
        refine List.filter_congr fun a _ => ?_
        have hne : other ≠ key := fun heq => hnotin (heq ▸ hother)
        by_cases hfa : f a = other <;> simp [hfa, hne]
      have hothers : ∀ a ∈ list.filter fun a => !decide (f a = key), f a ∈ rest := by
        intro a ha
        obtain ⟨hmem, hfa⟩ := List.mem_filter.mp ha
        exact (List.mem_cons.mp (hkeys a hmem)).resolve_left (by simpa using hfa)
      rw [List.flatMap_cons, htail]
      exact ((ih hrest hothers).append_left _).trans hsplit

/-- When the key never decreases along the list, the groups in increasing key order are the
list itself. -/
theorem flatMap_filter_eq [LinearOrder κ] {keys : List κ} (hsorted : keys.Pairwise (· < ·))
    (f : α → κ) {list : List α} (hkeys : ∀ a ∈ list, f a ∈ keys)
    (hmono : list.Pairwise fun a b => f a ≤ f b) :
    (keys.flatMap fun key => list.filter fun a => f a = key) = list := by
  induction keys generalizing list with
  | nil =>
      have hempty : list = [] :=
        List.eq_nil_iff_forall_not_mem.mpr fun a ha => by simpa using hkeys a ha
      simp [hempty]
  | cons key rest ih =>
      obtain ⟨hbelow, hrest⟩ := List.pairwise_cons.mp hsorted
      rw [List.flatMap_cons]
      -- `key` is the least key, so its group is an initial segment of the list
      induction list with
      | nil => simp
      | cons a list ihl =>
          obtain ⟨hhead, htail⟩ := List.pairwise_cons.mp hmono
          by_cases hfa : f a = key
          · have hnone : ∀ other ∈ rest, f a ≠ other := fun other hother =>
              hfa ▸ (hbelow other hother).ne
            have hskip : (rest.flatMap fun other => (a :: list).filter fun a => f a = other) =
                rest.flatMap fun other => list.filter fun a => f a = other :=
              List.flatMap_congr fun other hother => by simp [hnone other hother]
            rw [hskip, List.filter_cons_of_pos (by simpa using hfa), List.cons_append,
              ihl (fun b hb => hkeys b (List.mem_cons_of_mem _ hb)) htail]
          · have hmem : f a ∈ rest := (List.mem_cons.mp (hkeys a (by simp))).resolve_left hfa
            have habove : ∀ b ∈ a :: list, key < f b := by
              intro b hb
              rcases List.mem_cons.mp hb with rfl | hb
              · exact hbelow _ hmem
              · exact (hbelow _ hmem).trans_le (hhead b hb)
            have hgroup : (a :: list).filter (fun b => f b = key) = [] :=
              List.filter_eq_nil_iff.mpr fun b hb => by simpa using (habove b hb).ne'
            rw [hgroup, List.nil_append]
            refine ih hrest (fun b hb => ?_) hmono
            exact (List.mem_cons.mp (hkeys b hb)).resolve_left (habove b hb).ne'

/-- The groups in increasing key order never decrease in the key. -/
theorem flatMap_filter_sorted [LinearOrder κ] {keys : List κ} (hsorted : keys.Pairwise (· < ·))
    (f : α → κ) (list : List α) :
    (keys.flatMap fun key => list.filter fun a => f a = key).Pairwise fun a b => f a ≤ f b := by
  induction keys with
  | nil => simp
  | cons key rest ih =>
      obtain ⟨hbelow, hrest⟩ := List.pairwise_cons.mp hsorted
      rw [List.flatMap_cons, List.pairwise_append]
      refine ⟨?_, ih hrest, ?_⟩
      · refine List.pairwise_of_forall_mem_list fun a ha b hb => ?_
        have hleft : f a = key := by simpa using (List.mem_filter.mp ha).2
        have hright : f b = key := by simpa using (List.mem_filter.mp hb).2
        rw [hleft, hright]
      · intro a ha b hb
        obtain ⟨other, hother, hmem⟩ := List.mem_flatMap.mp hb
        have hleft : f a = key := by simpa using (List.mem_filter.mp ha).2
        have hright : f b = other := by simpa using (List.mem_filter.mp hmem).2
        rw [hleft, hright]
        exact (hbelow other hother).le

/-- Sorting any rearrangement of a list with strictly increasing keys gives the list back. -/
theorem sort_eq_of_perm [LinearOrder κ] (f : α → κ) {list other : List α}
    (hsorted : list.Pairwise fun a b => f a < f b) (hperm : other.Perm list) :
    other.insertionSort (fun a b => f a ≤ f b) = list := by
  have hnodup : (list.map f).Nodup := by
    rw [List.nodup_iff_pairwise_ne]
    exact List.pairwise_map.mpr (hsorted.imp fun h => h.ne)
  have hsort : (other.insertionSort fun a b => f a ≤ f b).Perm list :=
    (List.perm_insertionSort _ other).trans hperm
  have htotal : Std.Total fun a b : α => f a ≤ f b := ⟨fun a b => le_total (f a) (f b)⟩
  have htrans : IsTrans α fun a b => f a ≤ f b := ⟨fun _ _ _ => le_trans⟩
  refine hsort.eq_of_pairwise ?_ (List.pairwise_insertionSort _ other)
    (hsorted.imp fun h => h.le)
  intro a b ha hb hab hba
  exact List.inj_on_of_nodup_map hnodup (hsort.subset ha) hb (le_antisymm hab hba)

/-- The keys of the pieces that a list is cut into occur in the list in this order. -/
theorem map_sublist_of_pieces {β : Type*} {f : α → κ} {key : β → κ} {piece : β → List α}
    {cuts : List β} (h : ∀ cut ∈ cuts, piece cut ≠ [] ∧ ∀ a ∈ piece cut, f a = key cut) :
    (cuts.map key).Sublist ((cuts.flatMap piece).map f) := by
  induction cuts with
  | nil => exact List.Sublist.refl []
  | cons cut rest ih =>
      obtain ⟨⟨hne, hkey⟩, hrest⟩ := List.forall_mem_cons.mp h
      obtain ⟨first, others, hpiece⟩ := List.exists_cons_of_ne_nil hne
      rw [List.map_cons, List.flatMap_cons, List.map_append]
      have hfirst : [key cut].Sublist ((piece cut).map f) := by
        rw [List.singleton_sublist, ← hkey first (by simp [hpiece])]
        exact List.mem_map_of_mem (by simp [hpiece])
      exact hfirst.append (ih hrest)

/-- Equal keys without equal neighbours are at most one. -/
theorem length_le_one_of_isChain {keys : List κ} (hchain : keys.IsChain (· ≠ ·))
    (hsame : ∀ first ∈ keys, ∀ second ∈ keys, first = second) : keys.length ≤ 1 := by
  cases keys with
  | nil => exact Nat.zero_le 1
  | cons first rest =>
      cases rest with
      | nil => exact Nat.le_refl 1
      | cons second tail =>
          have hne : first ≠ second := (List.isChain_cons_cons.mp hchain).1
          exact absurd (hsame first (by simp) second (by simp)) hne

/-- Keys that occur in this order without equal neighbours need at least as many pieces of one key
each. -/
theorem length_le_of_isChain_sublist {f : α → κ} {pieces : List (List α)} {keys : List κ}
    (hchain : keys.IsChain (· ≠ ·)) (hsub : keys.Sublist (pieces.flatten.map f))
    (hpieces : ∀ piece ∈ pieces, ∀ a ∈ piece, ∀ b ∈ piece, f a = f b) :
    keys.length ≤ pieces.length := by
  induction pieces generalizing keys with
  | nil => exact hsub.length_le
  | cons piece rest ih =>
      rw [List.flatten_cons, List.map_append] at hsub
      obtain ⟨front, back, rfl, hfront, hback⟩ := List.sublist_append_iff.mp hsub
      obtain ⟨hone, hothers⟩ := List.forall_mem_cons.mp hpieces
      obtain ⟨hleft, hright, -⟩ := List.isChain_append.mp hchain
      have hrest := ih hright hback hothers
      -- the keys found in the first piece are all the same, so there is at most one
      have hshort : front.length ≤ 1 := by
        refine length_le_one_of_isChain hleft fun first hfirst second hsecond => ?_
        obtain ⟨a, ha, rfl⟩ := List.mem_map.mp (hfront.subset hfirst)
        obtain ⟨b, hb, rfl⟩ := List.mem_map.mp (hfront.subset hsecond)
        exact hone a ha b hb
      rw [List.length_append, List.length_cons]
      omega

end Partition
