import Mathlib.Data.List.Basic

/-!
# Windows of a stream, and stores into a buffer

A stream is a function on positions, and a `window` of it is the list of its
values from one position on. `slice`, `store` and `copyFromSlice` are the checked
accesses to a buffer. The lemmas about stores say where a window that is written
into a buffer ends up.
-/

namespace Window

variable {α : Type*}

/-- The values of a stream from a position on. -/
def window (stream : Nat → α) (start count : Nat) : List α :=
  (List.range' start count).map stream

/-- The stream of a list, continued by a default value. -/
def ofList (list : List α) (default : α) (position : Nat) : α := list.getD position default

@[simp] theorem length_window (stream : Nat → α) (start count : Nat) :
    (window stream start count).length = count := by
  simp [window]

@[simp] theorem window_zero (stream : Nat → α) (start : Nat) : window stream start 0 = [] := rfl

theorem window_succ (stream : Nat → α) (start count : Nat) :
    window stream start (count + 1) = stream start :: window stream (start + 1) count := rfl

@[simp] theorem window_one (stream : Nat → α) (start : Nat) :
    window stream start 1 = [stream start] := rfl

/-- Two windows that follow each other are one. -/
theorem window_append (stream : Nat → α) (start left right : Nat) :
    window stream start left ++ window stream (start + left) right =
      window stream start (left + right) := by
  unfold window
  rw [← List.map_append]
  have hrange : List.range' start left ++ List.range' (start + left) right =
      List.range' start (left + right) := by
    simp
  rw [hrange]

/-- Windows with the same values are equal. -/
theorem window_congr {stream other : Nat → α} {start start' count : Nat}
    (h : ∀ i, i < count → stream (start + i) = other (start' + i)) :
    window stream start count = window other start' count := by
  induction count generalizing start start' with
  | zero => rfl
  | succ count ih =>
      rw [window_succ, window_succ]
      have hhead : stream start = other start' := h 0 (by omega)
      have htail : window stream (start + 1) count = window other (start' + 1) count := by
        refine ih fun i hi => ?_
        have hi' := h (i + 1) (by omega)
        rwa [← Nat.add_assoc, ← Nat.add_assoc, Nat.add_right_comm, Nat.add_right_comm start'] at hi'
      rw [hhead, htail]

/-- A window of one value. -/
theorem window_eq_replicate {stream : Nat → α} {start count : Nat} {value : α}
    (h : ∀ i, i < count → stream (start + i) = value) :
    window stream start count = List.replicate count value := by
  have hconst : window stream start count = window (fun _ => value) start count :=
    window_congr h
  rw [hconst]
  simp [window]

theorem getElem?_window {stream : Nat → α} {start count i : Nat} (h : i < count) :
    (window stream start count)[i]? = some (stream (start + i)) := by
  simp [window, h]

theorem ofList_of_lt {list : List α} {default : α} {i : Nat} (h : i < list.length) :
    ofList list default i = list[i] := by
  simp [ofList, h]

theorem ofList_of_le {list : List α} {default : α} {i : Nat} (h : list.length ≤ i) :
    ofList list default i = default := by
  simp [ofList, h]

/-- The stream of a window is the stream itself, inside the window. -/
theorem ofList_window {stream : Nat → α} {start count i : Nat} {default : α} (h : i < count) :
    ofList (window stream start count) default i = stream (start + i) := by
  rw [ofList, List.getD_eq_getElem?_getD, getElem?_window h]
  rfl

/-- A window inside a list is a part of the list. -/
theorem window_ofList {list : List α} {default : α} {start count : Nat}
    (h : start + count ≤ list.length) :
    window (ofList list default) start count = (list.drop start).take count := by
  apply List.ext_getElem?
  intro i
  by_cases hi : i < count
  · rw [getElem?_window hi, ofList_of_lt (by omega), List.getElem?_take, if_pos hi,
      List.getElem?_drop, List.getElem?_eq_getElem]
  · rw [List.getElem?_eq_none (by simp; omega), List.getElem?_eq_none (by simp; omega)]

/-- A list is the first window of its stream. -/
theorem window_ofList_self (list : List α) (default : α) :
    window (ofList list default) 0 list.length = list := by
  rw [window_ofList (by omega), List.drop_zero, List.take_length]

/-! ## Buffers -/

/-- The elements of a buffer from `start` to before `stop`, if they are in it. -/
def slice (buffer : List α) (start stop : Nat) : Option (List α) :=
  if start ≤ stop ∧ stop ≤ buffer.length then some ((buffer.drop start).take (stop - start))
  else none

/-- Store a value into a buffer, if the index is in it. -/
def store (buffer : List α) (index : Nat) (value : α) : Option (List α) :=
  if index < buffer.length then some (buffer.set index value) else none

/-- Replace the elements from `start` to before `stop`, if these are in the buffer and as many as
the new ones. -/
def copyFromSlice (buffer : List α) (start stop : Nat) (source : List α) : Option (List α) :=
  if start ≤ stop ∧ stop ≤ buffer.length ∧ source.length = stop - start then
    some (buffer.take start ++ source ++ buffer.drop stop)
  else none

/-- A slice is a window of the buffer's stream. -/
theorem slice_eq_window (buffer : List α) (start count : Nat) (default : α)
    (h : start + count ≤ buffer.length) :
    slice buffer start (start + count) = some (window (ofList buffer default) start count) := by
  rw [slice, if_pos ⟨by omega, h⟩, window_ofList h, Nat.add_sub_cancel_left]

/-- A store at the end of what has been written. -/
theorem store_append (front back : List α) (old value : α) :
    store (front ++ old :: back) front.length value = some (front ++ value :: back) := by
  rw [store, if_pos (by simp), List.set_append_right _ _ (Nat.le_refl _), Nat.sub_self,
    List.set_cons_zero]

/-- A copy at the end of what has been written. -/
theorem copyFromSlice_append (front old source back : List α) (h : source.length = old.length) :
    copyFromSlice (front ++ (old ++ back)) front.length (front.length + old.length) source =
      some (front ++ (source ++ back)) := by
  rw [copyFromSlice, if_pos ⟨by omega, by simp, by omega⟩, List.take_left,
    ← List.append_assoc, List.drop_left' (by simp), List.append_assoc]

/-- A copy to the start of a buffer. -/
theorem copyFromSlice_front (old source back : List α) {count : Nat} (hold : old.length = count)
    (hsource : source.length = count) :
    copyFromSlice (old ++ back) 0 count source = some (source ++ back) := by
  have hcopy := copyFromSlice_append [] old source back (by omega)
  rw [hold] at hcopy
  simpa using hcopy

end Window
