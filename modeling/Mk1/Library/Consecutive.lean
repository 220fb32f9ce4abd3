import Mathlib.Data.List.Chain
import Mathlib.Data.List.Infix
import Mathlib.Data.List.Nodup
import Mathlib.Data.List.TakeWhile

/-!
# Consecutively numbered lists

Lists whose members are numbered consecutively by some function. Such a list is
strictly increasing, its segments are consecutive too, and a consecutive part of
it that reaches its end is its tail (`suffix_of_sublist`).
-/

variable {α β : Type*}

/-- Each member is numbered one more than the member before it. -/
def Consecutive (f : α → Nat) (list : List α) : Prop :=
  list.IsChain fun first second => f second = f first + 1

namespace Consecutive

variable {f : α → Nat} {list part : List α}

@[simp] theorem nil : Consecutive f ([] : List α) := List.IsChain.nil

@[simp] theorem singleton (a : α) : Consecutive f [a] := List.IsChain.singleton a

/-- The numbers increase strictly. -/
theorem pairwise_lt (h : Consecutive f list) :
    list.Pairwise fun first second => f first < f second := by
  have htrans : IsTrans α fun first second => f first < f second := ⟨fun _ _ _ => lt_trans⟩
  have hchain : list.IsChain fun first second => f first < f second := by
    refine List.IsChain.imp ?_ h
    intro first second hnext
    omega
  exact List.isChain_iff_pairwise.mp hchain

/-- Members with the same number are the same. -/
theorem eq_of_number_eq {a b : α} (h : Consecutive f list) (ha : a ∈ list) (hb : b ∈ list)
    (hnumber : f a = f b) : a = b := by
  have hnodup : (list.map f).Nodup :=
    List.pairwise_map.mpr (h.pairwise_lt.imp fun hlt => hlt.ne)
  exact List.inj_on_of_nodup_map hnodup ha hb hnumber

/-- No member is numbered higher than the last one. -/
theorem le_last {a last : α} (h : Consecutive f list) (hlast : last ∈ list.getLast?)
    (ha : a ∈ list) : f a ≤ f last := by
  obtain ⟨front, rfl⟩ := List.getLast?_eq_some_iff.mp hlast
  rcases List.mem_append.mp ha with hfront | hself
  · exact ((List.pairwise_append.mp h.pairwise_lt).2.2 a hfront last List.mem_cons_self).le
  · rw [List.mem_singleton.mp hself]

/-- The members below a number are the first ones. -/
theorem mem_takeWhile_lt {number : Nat} {a : α} (h : Consecutive f list) :
    a ∈ list.takeWhile (f · < number) ↔ a ∈ list ∧ f a < number := by
  constructor
  · intro hmem
    exact ⟨(List.takeWhile_prefix _).mem hmem, by simpa using List.mem_takeWhile_imp hmem⟩
  · rintro ⟨hmem, hlt⟩
    induction list with
    | nil => cases hmem
    | cons first rest ih =>
        obtain ⟨hfirst, -⟩ := List.pairwise_cons.mp h.pairwise_lt
        have hbelow : f first < number := by
          rcases List.mem_cons.mp hmem with rfl | hrest
          · exact hlt
          · exact (hfirst a hrest).trans hlt
        have hkept : (first :: rest).takeWhile (f · < number) =
            first :: rest.takeWhile (f · < number) :=
          List.takeWhile_cons_of_pos (by simpa using hbelow)
        rw [hkept]
        rcases List.mem_cons.mp hmem with rfl | hrest
        · exact List.mem_cons_self
        · exact List.mem_cons_of_mem _ (ih (List.IsChain.tail h) hrest)

/-- A segment of a consecutive list is consecutive. -/
theorem of_infix (h : Consecutive f list) (hsegment : part <:+: list) : Consecutive f part :=
  List.IsChain.infix h hsegment

/-- The members below a number are a front of the list. -/
theorem filter_lt_prefix (h : Consecutive f list) (number : Nat) :
    list.filter (f · < number) <+: list := by
  induction list with
  | nil => exact List.prefix_refl _
  | cons first rest ih =>
      by_cases hfirst : f first < number
      · rw [List.filter_cons_of_pos (by simpa using hfirst)]
        exact List.cons_prefix_cons.mpr ⟨rfl, ih (List.IsChain.tail h)⟩
      · have hnone : (first :: rest).filter (f · < number) = [] := by
          refine List.filter_eq_nil_iff.mpr (List.forall_mem_cons.mpr ⟨by simpa using hfirst, ?_⟩)
          intro a ha
          have hlt := (List.pairwise_cons.mp h.pairwise_lt).1 a ha
          simp only [decide_eq_true_eq]
          omega
        rw [hnone]
        exact List.nil_prefix

/-- The members above a number are an end of the list. -/
theorem filter_gt_suffix (h : Consecutive f list) (number : Nat) :
    list.filter (number < f ·) <:+ list := by
  induction list with
  | nil => exact List.suffix_refl _
  | cons first rest ih =>
      by_cases hfirst : number < f first
      · have hall : (first :: rest).filter (number < f ·) = first :: rest := by
          refine List.filter_eq_self.mpr (List.forall_mem_cons.mpr ⟨by simpa using hfirst, ?_⟩)
          intro a ha
          have hlt := (List.pairwise_cons.mp h.pairwise_lt).1 a ha
          simp only [decide_eq_true_eq]
          omega
        rw [hall]
      · rw [List.filter_cons_of_neg (by simpa using hfirst)]
        exact (ih (List.IsChain.tail h)).trans (List.suffix_cons _ _)

/-- The members below one that is not beyond the next number lead up to it. -/
theorem filter_lt_concat {a : α} (h : Consecutive f list)
    (hnext : ∀ last ∈ list.getLast?, f a ≤ f last + 1) :
    Consecutive f (list.filter (f · < f a) ++ [a]) := by
  obtain ⟨back, hback⟩ := h.filter_lt_prefix (f a)
  refine List.isChain_append.mpr
    ⟨h.of_infix ⟨[], back, hback⟩, List.isChain_singleton a, ?_⟩
  intro last hlast first hfirst
  obtain rfl := Option.some.inj hfirst
  have hlt : f last < f a :=
    of_decide_eq_true (List.mem_filter.mp (List.mem_of_getLast? hlast)).2
  cases back with
  | nil =>
      -- no member has been left out
      rw [List.append_nil] at hback
      rw [hback] at hlast
      have hle := hnext last hlast
      omega
  | cons next back =>
      unfold Consecutive at h
      rw [← hback] at h
      have hsucc := (List.isChain_append.mp h).2.2 last hlast next rfl
      have hleft : ¬ f next < f a := by
        intro hkept
        have hmem : next ∈ list.filter (f · < f a) := by
          refine List.mem_filter.mpr ⟨?_, decide_eq_true hkept⟩
          rw [← hback]
          simp
        have hpairwise := List.pairwise_append.mp (Consecutive.pairwise_lt h)
        exact lt_irrefl _ (hpairwise.2.2 next hmem next List.mem_cons_self)
      omega

/-- Lists that are consecutive one after the other join up, if at most the first one is empty. -/
theorem isChain_of_flatten {lists : List (List α)} (h : Consecutive f lists.flatten)
    (hne : ∀ other ∈ lists.tail, other ≠ []) :
    lists.IsChain fun first second =>
      ∀ last ∈ first.getLast?, ∃ next ∈ second.head?, f next = f last + 1 := by
  induction lists with
  | nil => exact List.isChain_nil
  | cons first rest ih =>
      cases rest with
      | nil => exact List.isChain_singleton first
      | cons second rest =>
          have hsecond := hne second List.mem_cons_self
          have hrest : Consecutive f (second :: rest).flatten :=
            h.of_infix (List.suffix_append first _).isInfix
          refine List.isChain_cons_cons.mpr ⟨fun last hlast => ?_, ih hrest fun other hother =>
            hne other (List.mem_cons_of_mem _ hother)⟩
          obtain ⟨next, others, rfl⟩ := List.exists_cons_of_ne_nil hsecond
          exact ⟨next, rfl, (List.isChain_append.mp h).2.2 last hlast next rfl⟩

/-- Consecutiveness depends on the numbers only. -/
theorem map_iff {g : β → α} {list : List β} :
    Consecutive f (list.map g) ↔ Consecutive (f ∘ g) list :=
  List.isChain_map g

/-- Two lists with the same numbers are both consecutive or both not. -/
theorem congr_numbers {g : β → Nat} {other : List β} (h : list.map f = other.map g) :
    Consecutive f list ↔ Consecutive g other := by
  have hleft : Consecutive id (list.map f) ↔ Consecutive f list := map_iff
  have hright : Consecutive id (other.map g) ↔ Consecutive g other := map_iff
  rw [← hleft, h, hright]

/-- A list with these numbers continues one that ends right before them. -/
theorem append_of_range' {back : List α} {last : α} (h : Consecutive f list)
    (hlast : last ∈ list.getLast?)
    (hback : back.map f = List.range' (f last + 1) back.length) :
    Consecutive f (list ++ back) := by
  have hchain : Consecutive id (List.range' (f last + 1) back.length) :=
    List.isChain_range' _ _ 1
  refine List.isChain_append.mpr ⟨h, (congr_numbers ?_).mp hchain, ?_⟩
  · rw [List.map_id, hback]
  · intro other hother first hfirst
    obtain rfl := Option.mem_unique hlast hother
    cases back with
    | nil => cases hfirst
    | cons next rest =>
        obtain rfl := Option.some.inj hfirst
        rw [List.map_cons, List.length_cons, List.range'_succ] at hback
        exact (List.cons.inj hback).1

/-- The last members that satisfy a predicate, up to some number of them, are a tail of the list
exactly if as many members at its end all satisfy the predicate. -/
theorem drop_filter_suffix_iff (p : α → Bool) (limit : Nat) (list : List α) :
    (list.filter p).drop ((list.filter p).length - limit) <:+ list ↔
      ∀ a ∈ list.drop (list.length - min limit (list.filter p).length), p a := by
  have hlength : ((list.filter p).drop ((list.filter p).length - limit)).length =
      min limit (list.filter p).length := by
    rw [List.length_drop]
    omega
  constructor
  · intro hsuffix a ha
    rw [← hlength, ← List.suffix_iff_eq_drop.mp hsuffix] at ha
    exact (List.mem_filter.mp (List.mem_of_mem_drop ha)).2
  · intro hall
    have hle := List.length_filter_le p list
    obtain ⟨front, back, hsplit, hback, hfilter⟩ : ∃ front back, list = front ++ back ∧
        back.length = min limit (list.filter p).length ∧
        list.filter p = front.filter p ++ back := by
      refine ⟨list.take (list.length - min limit (list.filter p).length),
        list.drop (list.length - min limit (list.filter p).length),
        (List.take_append_drop ..).symm, ?_, ?_⟩
      · rw [List.length_drop]
        omega
      · rw [← List.filter_eq_self.mpr hall, ← List.filter_append, List.take_append_drop]
    have hfront : (list.filter p).length - limit = (front.filter p).length := by
      have hsum := congrArg List.length hfilter
      rw [List.length_append, hback] at hsum
      omega
    rw [hfront, hfilter, List.drop_left, hsplit]
    exact List.suffix_append front back

/-- A consecutive part of a consecutive list that reaches its end is a tail of it. -/
theorem suffix_of_sublist (h : Consecutive f list) (hpart : Consecutive f part)
    (hsub : part.Sublist list) (hlast : part.getLast? = list.getLast?) : part <:+ list := by
  induction hsub with
  | slnil => exact List.suffix_refl _
  | @cons part rest first hsub ih =>
      cases rest with
      | nil =>
          obtain rfl : part = [] := List.sublist_nil.mp hsub
          simp at hlast
      | cons second rest =>
          rw [List.getLast?_cons_cons] at hlast
          exact (ih (h.of_infix (List.infix_cons (List.infix_refl _))) hpart hlast).trans
            (List.suffix_cons _ _)
  | @cons_cons part rest first hsub ih =>
      have hincreasing := List.pairwise_cons.mp h.pairwise_lt
      cases rest with
      | nil =>
          rw [List.sublist_nil.mp hsub]
      | cons second rest =>
          cases part with
          | nil =>
              -- the last member would be the first one, which is numbered below all others
              have hmem : first ∈ second :: rest := by
                rw [List.getLast?_cons_cons] at hlast
                exact List.mem_of_getLast? hlast.symm
              exact absurd (hincreasing.1 first hmem) (lt_irrefl _)
          | cons next part =>
              rw [List.getLast?_cons_cons, List.getLast?_cons_cons] at hlast
              have hnext : f next = f first + 1 := (List.isChain_cons_cons.mp hpart).1
              have hsecond : f second = f first + 1 := (List.isChain_cons_cons.mp h).1
              obtain ⟨front, hfront⟩ := ih (List.isChain_cons_cons.mp h).2
                (List.isChain_cons_cons.mp hpart).2 hlast
              cases front with
              | nil =>
                  rw [← hfront, List.nil_append]
              | cons other front =>
                  -- `next` would come after `second`, which has the same number
                  obtain ⟨rfl, hrest⟩ := List.cons.inj hfront
                  have hmem : next ∈ rest := by
                    rw [← hrest]
                    simp
                  have hlt := (List.pairwise_cons.mp hincreasing.2).1 next hmem
                  omega

/-- What satisfies a predicate that passes on to all earlier members is the front of a list. -/
theorem filter_prefix_of_pairwise {p : α → Bool}
    (h : list.Pairwise fun first second => p second = true → p first = true) :
    list.filter p <+: list := by
  induction list with
  | nil => exact List.prefix_refl _
  | cons first rest ih =>
      obtain ⟨hfirst, hrest⟩ := List.pairwise_cons.mp h
      by_cases hp : p first = true
      · rw [List.filter_cons_of_pos hp, List.prefix_cons_inj]
        exact ih hrest
      · have hnone : rest.filter p = [] :=
          List.filter_eq_nil_iff.mpr fun other hother hlater => hp (hfirst other hother hlater)
        rw [List.filter_cons_of_neg hp, hnone]
        exact List.nil_prefix

/-- What satisfies a predicate that passes on to all later members is the tail of a list. -/
theorem filter_suffix_of_pairwise {p : α → Bool}
    (h : list.Pairwise fun first second => p first = true → p second = true) :
    list.filter p <:+ list := by
  induction list with
  | nil => exact List.suffix_refl _
  | cons first rest ih =>
      obtain ⟨hfirst, hrest⟩ := List.pairwise_cons.mp h
      by_cases hp : p first = true
      · have hall : ∀ other ∈ first :: rest, p other = true :=
          List.forall_mem_cons.mpr ⟨hp, fun other hother => hfirst other hother hp⟩
        rw [List.filter_eq_self.mpr hall]
      · rw [List.filter_cons_of_neg hp]
        exact (ih hrest).trans (List.suffix_cons first rest)

/-- In a list that ascends by a key, the members with one key are a segment. -/
theorem filter_key_infix {key : α → Nat}
    (h : list.Pairwise fun first second => key first ≤ key second) (value : Nat) :
    list.filter (key · = value) <:+: list := by
  have hboth : list.filter (key · = value) =
      (list.filter fun a => decide (value ≤ key a)).filter fun a => decide (key a ≤ value) := by
    rw [List.filter_filter]
    refine List.filter_congr fun a _ => ?_
    rw [← Bool.decide_and]
    exact decide_eq_decide.mpr le_antisymm_iff
  have hlater : (list.filter fun a => decide (value ≤ key a)) <:+ list :=
    filter_suffix_of_pairwise (h.imp fun hle hfirst =>
      decide_eq_true ((of_decide_eq_true hfirst).trans hle))
  rw [hboth]
  refine List.IsInfix.trans (List.IsPrefix.isInfix (filter_prefix_of_pairwise ?_)) hlater.isInfix
  exact (h.sublist hlater.sublist).imp fun hle hsecond =>
    decide_eq_true (hle.trans (of_decide_eq_true hsecond))

/-- The numbers of a consecutive list go up from that of its first member. -/
theorem map_eq_range' {start : Nat} (h : Consecutive f list)
    (hfirst : ∀ first ∈ list.head?, f first = start) :
    list.map f = List.range' start list.length := by
  induction list generalizing start with
  | nil => rfl
  | cons first rest ih =>
      obtain ⟨hnext, hrest⟩ := List.isChain_cons.mp h
      rw [List.map_cons, List.length_cons, List.range'_succ, hfirst first rfl]
      rw [ih hrest fun second hsecond => by rw [hnext second hsecond, hfirst first rfl]]

end Consecutive
