import Mathlib.Data.List.Sort
import Mathlib.Data.List.Basic

/-!
# Finite maps kept in key order

An `OrderedMap` is a finite map stored as its list of entries in strictly
increasing key order, the order in which a B-tree map iterates. The order is a
field of the structure, so an operation has to re-establish it. Lookup and
insertion are specified by `find?_insert_self` and `find?_insert_of_ne`, and
iteration by the lemmas about `values`.
-/

/-- A finite map stored as its entries in strictly increasing key order. -/
structure OrderedMap (κ : Type*) (α : Type*) [LinearOrder κ] where
  entries : List (κ × α)
  sorted : entries.Pairwise fun first second => first.1 < second.1

namespace OrderedMap

variable {κ α β σ ε : Type*} [LinearOrder κ]

/-! ## Operations on entry lists -/

/-- Insert a binding at its place in the key order, replacing an existing binding of the key. -/
def insertEntry (key : κ) (value : α) : List (κ × α) → List (κ × α)
  | [] => [(key, value)]
  | entry :: rest =>
      if key < entry.1 then (key, value) :: entry :: rest
      else if entry.1 < key then entry :: insertEntry key value rest
      else (key, value) :: rest

/-- The value bound to a key, if any. -/
def findEntry (key : κ) : List (κ × α) → Option α
  | [] => none
  | entry :: rest => if entry.1 = key then some entry.2 else findEntry key rest

/-- Apply a fallible function to every value, in key order, stopping at the first failure. -/
def traverseEntries (f : α → Except ε β) : List (κ × α) → Except ε (List (κ × β))
  | [] => .ok []
  | entry :: rest =>
      match f entry.2 with
      | .error failure => .error failure
      | .ok value =>
          match traverseEntries f rest with
          | .error failure => .error failure
          | .ok following => .ok ((entry.1, value) :: following)

/-- Rewrite the values in key order while threading a state from each one to the next. -/
def accumEntries (f : σ → α → σ × β) (state : σ) : List (κ × α) → σ × List (κ × β)
  | [] => (state, [])
  | entry :: rest =>
      let (following, value) := f state entry.2
      let (final, values) := accumEntries f following rest
      (final, (entry.1, value) :: values)

theorem mem_insertEntry {key : κ} {value : α} {entry : κ × α} {entries : List (κ × α)}
    (h : entry ∈ insertEntry key value entries) : entry = (key, value) ∨ entry ∈ entries := by
  induction entries with
  | nil => simpa [insertEntry] using h
  | cons head rest ih =>
      simp only [insertEntry] at h
      split at h
      · simpa using h
      · split at h
        · rcases List.mem_cons.mp h with h | h
          · exact .inr (by simp [h])
          · rcases ih h with h | h
            · exact .inl h
            · exact .inr (by simp [h])
        · rcases List.mem_cons.mp h with h | h
          · exact .inl h
          · exact .inr (by simp [h])

/-- Insertion keeps the entries in strictly increasing key order. -/
theorem sorted_insertEntry (key : κ) (value : α) {entries : List (κ × α)}
    (h : entries.Pairwise fun first second => first.1 < second.1) :
    (insertEntry key value entries).Pairwise fun first second => first.1 < second.1 := by
  induction entries with
  | nil => simp [insertEntry]
  | cons head rest ih =>
      obtain ⟨hhead, hrest⟩ := List.pairwise_cons.mp h
      simp only [insertEntry]
      split
      · next hlt =>
          refine List.pairwise_cons.mpr ⟨?_, h⟩
          intro entry hentry
          rcases List.mem_cons.mp hentry with rfl | hentry
          · exact hlt
          · exact hlt.trans (hhead entry hentry)
      · split
        · next hlt =>
            refine List.pairwise_cons.mpr ⟨?_, ih hrest⟩
            intro entry hentry
            rcases mem_insertEntry hentry with rfl | hentry
            · exact hlt
            · exact hhead entry hentry
        · next hnot hnot' =>
            have hkey : head.1 = key := le_antisymm (not_lt.mp hnot) (not_lt.mp hnot')
            exact List.pairwise_cons.mpr ⟨fun entry hentry => hkey ▸ hhead entry hentry, hrest⟩

theorem findEntry_insertEntry_self (key : κ) (value : α) (entries : List (κ × α)) :
    findEntry key (insertEntry key value entries) = some value := by
  induction entries with
  | nil => simp [insertEntry, findEntry]
  | cons head rest ih =>
      simp only [insertEntry]
      split
      · simp [findEntry]
      · split
        · next hlt => simp [findEntry, hlt.ne, ih]
        · simp [findEntry]

theorem findEntry_insertEntry_of_ne {key other : κ} (value : α) (hne : other ≠ key)
    (entries : List (κ × α)) :
    findEntry other (insertEntry key value entries) = findEntry other entries := by
  induction entries with
  | nil => simp [insertEntry, findEntry, hne.symm]
  | cons head rest ih =>
      simp only [insertEntry]
      split
      · simp [findEntry, hne.symm]
      · split
        · simp [findEntry, ih]
        · next hnot hnot' =>
            have hkey : head.1 = key := le_antisymm (not_lt.mp hnot) (not_lt.mp hnot')
            simp [findEntry, hkey, hne.symm]

theorem mem_of_findEntry {key : κ} {value : α} {entries : List (κ × α)}
    (h : findEntry key entries = some value) : (key, value) ∈ entries := by
  induction entries with
  | nil => simp [findEntry] at h
  | cons head rest ih =>
      simp only [findEntry] at h
      split at h
      · next hkey =>
          obtain ⟨k, v⟩ := head
          simp_all
      · exact List.mem_cons_of_mem _ (ih h)

theorem findEntry_of_mem {key : κ} {value : α} {entries : List (κ × α)}
    (hsorted : entries.Pairwise fun first second => first.1 < second.1)
    (h : (key, value) ∈ entries) : findEntry key entries = some value := by
  induction entries with
  | nil => simp at h
  | cons head rest ih =>
      obtain ⟨hhead, hrest⟩ := List.pairwise_cons.mp hsorted
      rcases List.mem_cons.mp h with rfl | h
      · simp [findEntry]
      · have hne : head.1 ≠ key := (hhead _ h).ne
        simp [findEntry, hne, ih hrest h]

omit [LinearOrder κ] in
/-- Traversing keeps the keys. -/
theorem keys_traverseEntries {f : α → Except ε β} {entries : List (κ × α)}
    {results : List (κ × β)} (h : traverseEntries f entries = .ok results) :
    results.map Prod.fst = entries.map Prod.fst := by
  induction entries generalizing results with
  | nil =>
      cases h
      rfl
  | cons head rest ih =>
      simp only [traverseEntries] at h
      split at h
      · cases h
      · split at h
        · cases h
        · next hrest =>
            cases h
            simp [ih hrest]

omit [LinearOrder κ] in
/-- Threading a state keeps the keys. -/
theorem keys_accumEntries (f : σ → α → σ × β) (state : σ) (entries : List (κ × α)) :
    (accumEntries f state entries).2.map Prod.fst = entries.map Prod.fst := by
  induction entries generalizing state with
  | nil => rfl
  | cons head rest ih => simp [accumEntries, ih]

theorem sorted_of_keys_eq {entries : List (κ × α)} {results : List (κ × β)}
    (hkeys : results.map Prod.fst = entries.map Prod.fst)
    (h : entries.Pairwise fun first second => first.1 < second.1) :
    results.Pairwise fun first second => first.1 < second.1 := by
  have hmap : (entries.map Prod.fst).Pairwise (· < ·) := List.pairwise_map.mpr h
  exact List.pairwise_map.mp (hkeys ▸ hmap)

/-! ## The map -/

/-- The map without bindings. -/
def empty : OrderedMap κ α := ⟨[], .nil⟩

/-- Bind a key, replacing an earlier binding. -/
def insert (map : OrderedMap κ α) (key : κ) (value : α) : OrderedMap κ α :=
  ⟨insertEntry key value map.entries, sorted_insertEntry key value map.sorted⟩

/-- The value bound to a key. -/
def find? (map : OrderedMap κ α) (key : κ) : Option α :=
  findEntry key map.entries

/-- The keys, in increasing order. -/
def keys (map : OrderedMap κ α) : List κ :=
  map.entries.map Prod.fst

/-- The values, in increasing order of their keys. -/
def values (map : OrderedMap κ α) : List α :=
  map.entries.map Prod.snd

/-- The least key. -/
def minKey? (map : OrderedMap κ α) : Option κ :=
  map.keys.head?

/-- Apply a function to every value. -/
def mapValues (f : α → β) (map : OrderedMap κ α) : OrderedMap κ β :=
  ⟨map.entries.map fun entry => (entry.1, f entry.2),
    sorted_of_keys_eq (by simp) map.sorted⟩

/-- Apply a fallible function to every value, in key order. -/
def traverseValues (f : α → Except ε β) (map : OrderedMap κ α) :
    Except ε (OrderedMap κ β) :=
  match h : traverseEntries f map.entries with
  | .error failure => .error failure
  | .ok results => .ok ⟨results, sorted_of_keys_eq (keys_traverseEntries h) map.sorted⟩

/-- Rewrite every value in key order while threading a state. -/
def accumValues (f : σ → α → σ × β) (state : σ) (map : OrderedMap κ α) :
    σ × OrderedMap κ β :=
  ((accumEntries f state map.entries).1,
    ⟨(accumEntries f state map.entries).2,
      sorted_of_keys_eq (keys_accumEntries f state map.entries) map.sorted⟩)

variable {map : OrderedMap κ α}

@[simp] theorem find?_empty (key : κ) : (empty : OrderedMap κ α).find? key = none := rfl

@[simp] theorem values_empty : (empty : OrderedMap κ α).values = [] := rfl

@[simp] theorem find?_insert_self (key : κ) (value : α) :
    (map.insert key value).find? key = some value :=
  findEntry_insertEntry_self key value map.entries

theorem find?_insert_of_ne {key other : κ} (value : α) (hne : other ≠ key) :
    (map.insert key value).find? other = map.find? other :=
  findEntry_insertEntry_of_ne value hne map.entries

theorem find?_insert (key other : κ) (value : α) :
    (map.insert key value).find? other =
      if other = key then some value else map.find? other := by
  split
  · next heq => simp [heq]
  · next hne => exact find?_insert_of_ne value hne

/-- An entry is exactly a successful lookup. -/
theorem mem_entries_iff {key : κ} {value : α} :
    (key, value) ∈ map.entries ↔ map.find? key = some value :=
  ⟨findEntry_of_mem map.sorted, mem_of_findEntry⟩

/-- The keys increase strictly. -/
theorem keys_sorted (map : OrderedMap κ α) : map.keys.Pairwise (· < ·) :=
  List.pairwise_map.mpr map.sorted

/-- A key is in the map exactly when looking it up succeeds. -/
theorem mem_keys_iff {key : κ} : key ∈ map.keys ↔ ∃ value, map.find? key = some value := by
  simp [keys, mem_entries_iff]

/-- A value occurs in the iteration exactly when some key is bound to it. -/
theorem mem_values_iff {value : α} :
    value ∈ map.values ↔ ∃ key, map.find? key = some value := by
  simp [values, mem_entries_iff]

/-- Iterating over the values visits the keys' values in key order. -/
theorem flatMap_values {f : α → List β} {g : κ → List β}
    (h : ∀ key value, map.find? key = some value → f value = g key) :
    map.values.flatMap f = map.keys.flatMap g := by
  simp only [values, keys, List.flatMap_map]
  refine List.flatMap_congr fun entry hentry => ?_
  exact h entry.1 entry.2 (mem_entries_iff.mp hentry)

/-- The least key is bound, and no key is below it. -/
theorem minKey?_eq_some {key : κ} (h : map.minKey? = some key) :
    (∃ value, map.find? key = some value) ∧ ∀ other ∈ map.keys, key ≤ other := by
  obtain ⟨rest, hkeys⟩ : ∃ rest, map.keys = key :: rest := List.head?_eq_some_iff.mp h
  have hsorted := map.keys_sorted
  rw [hkeys] at hsorted ⊢
  refine ⟨mem_keys_iff.mp (by simp [hkeys]), ?_⟩
  intro other hother
  rcases List.mem_cons.mp hother with rfl | hother
  · exact le_rfl
  · exact ((List.pairwise_cons.mp hsorted).1 other hother).le

theorem minKey?_eq_none : map.minKey? = none ↔ map.values = [] := by
  simp [minKey?, keys, values]

@[simp] theorem values_mapValues (f : α → β) : (map.mapValues f).values = map.values.map f := by
  simp [mapValues, values]

@[simp] theorem find?_mapValues (f : α → β) (key : κ) :
    (map.mapValues f).find? key = (map.find? key).map f := by
  obtain ⟨entries, hsorted⟩ := map
  simp only [mapValues, find?]
  induction entries with
  | nil => rfl
  | cons head rest ih =>
      simp only [List.map_cons, findEntry]
      split
      · rfl
      · exact ih (List.pairwise_cons.mp hsorted).2

@[simp] theorem keys_mapValues (f : α → β) : (map.mapValues f).keys = map.keys := by
  simp [mapValues, keys]

/-- A traversal that returns each value unchanged returns the map unchanged. -/
theorem traverseValues_eq_self {f : α → Except ε α}
    (h : ∀ key value, map.find? key = some value → f value = .ok value) :
    map.traverseValues f = .ok map := by
  obtain ⟨entries, hsorted⟩ := map
  have hentries : traverseEntries f entries = .ok entries := by
    have hvalues : ∀ entry ∈ entries, f entry.2 = .ok entry.2 := fun entry hentry =>
      h entry.1 entry.2 (findEntry_of_mem hsorted hentry)
    clear h hsorted
    induction entries with
    | nil => rfl
    | cons head rest ih =>
        have hrest := ih fun entry hentry => hvalues entry (List.mem_cons_of_mem _ hentry)
        simp [traverseEntries, hvalues head (by simp), hrest]
  unfold traverseValues
  split
  · next hfail => simp [hentries] at hfail
  · next results hok =>
      rw [hentries] at hok
      cases hok
      rfl

/-- A map whose only key is bound has that key and its value as its only entry. -/
theorem entries_eq_singleton {key : κ} {value : α} (hvalue : map.find? key = some value)
    (hkeys : ∀ other ∈ map.keys, other = key) : map.entries = [(key, value)] := by
  have hmem : key ∈ map.keys := mem_keys_iff.mpr ⟨value, hvalue⟩
  have hone : map.keys = [key] := by
    cases hlist : map.keys with
    | nil => simp [hlist] at hmem
    | cons first rest =>
        have hsorted := map.keys_sorted
        rw [hlist] at hsorted hkeys
        cases rest with
        | nil => rw [hkeys first (by simp)]
        | cons second rest =>
            have hlt : first < second := (List.pairwise_cons.mp hsorted).1 second (by simp)
            rw [hkeys first (by simp), hkeys second (by simp)] at hlt
            exact absurd hlt (lt_irrefl key)
  obtain ⟨entry, hentry⟩ : ∃ entry, map.entries = [entry] := by
    have hlength : map.entries.length = 1 := by simpa [keys] using congrArg List.length hone
    exact List.length_eq_one_iff.mp hlength
  have hfound : (key, value) ∈ map.entries := mem_entries_iff.mpr hvalue
  rw [hentry, List.mem_singleton] at hfound
  rw [hentry, ← hfound]

/-- The values in key order are sorted by any relation that holds inside each value list and
from one key to a greater one. -/
theorem flatten_values_pairwise {map : OrderedMap κ (List α)} {R : α → α → Prop}
    (hinside : ∀ key list, map.find? key = some list → list.Pairwise R)
    (hacross : ∀ first second list list', first < second → map.find? first = some list →
      map.find? second = some list' → ∀ a ∈ list, ∀ b ∈ list', R a b) :
    map.values.flatten.Pairwise R := by
  refine List.pairwise_flatten.mpr ⟨?_, ?_⟩
  · intro list hlist
    obtain ⟨key, hkey⟩ := mem_values_iff.mp hlist
    exact hinside key list hkey
  · refine List.pairwise_map.mpr (map.sorted.imp_of_mem ?_)
    intro first second hfirst hsecond hlt
    exact hacross first.1 second.1 first.2 second.2 hlt (mem_entries_iff.mp hfirst)
      (mem_entries_iff.mp hsecond)

/-- Threading a state through lists of values is threading it through their concatenation, for a
function that may be applied to a list in pieces. -/
theorem accumValues_flatten {map : OrderedMap κ (List α)} {f : σ → List α → σ × List β}
    (hnil : ∀ state, f state [] = (state, []))
    (happend : ∀ state left right, f state (left ++ right) =
      ((f (f state left).1 right).1, (f state left).2 ++ (f (f state left).1 right).2))
    (state : σ) :
    ((map.accumValues f state).1, (map.accumValues f state).2.values.flatten) =
      f state map.values.flatten := by
  obtain ⟨entries, hsorted⟩ := map
  simp only [accumValues, values]
  clear hsorted
  induction entries generalizing state with
  | nil => simp [accumEntries, hnil]
  | cons entry rest ih =>
      have hrest := ih (f state entry.2).1
      simp only [Prod.ext_iff] at hrest
      simp only [accumEntries, List.map_cons, List.flatten_cons, happend]
      rw [← hrest.1, ← hrest.2]

@[simp] theorem keys_accumValues (f : σ → α → σ × β) (state : σ) :
    (map.accumValues f state).2.keys = map.keys :=
  keys_accumEntries f state map.entries

end OrderedMap
