import Mathlib.Data.List.Count
import Mathlib.Data.List.Infix
import Mathlib.Data.List.Nodup
import Mathlib.Data.List.Perm.Basic
import Mathlib.Order.Basic
import Mathlib.Tactic.Tauto

/-!
# Tickets of a queue behind a channel

Requests are sent to a channel, and from there they are accepted into a queue or
refused. The first of the queue is started when nothing is pending, and the
queue can be cleared for some cause. Each request gets a ticket when it is sent,
and `Tickets` keeps what has become of them. `Accounted` says that nothing is
lost, duplicated or overtaken.
-/

/-- The tickets by what has become of them: still in the channel, in the queue, pending, and all
that were accepted, started, finished and dropped so far, each with its cause. -/
structure Tickets (κ : Type*) where
  sent : Nat
  channel : List Nat
  queue : List Nat
  pending : Option Nat
  accepted : List Nat
  started : List Nat
  finished : List Nat
  dropped : List (Nat × κ)

namespace Tickets

variable {κ : Type*}

/-- No tickets. -/
def new : Tickets κ :=
  { sent := 0, channel := [], queue := [], pending := none, accepted := [], started := [],
    finished := [], dropped := [] }

/-- A request is sent to the channel. -/
def send (tickets : Tickets κ) : Tickets κ :=
  { tickets with sent := tickets.sent + 1, channel := tickets.channel ++ [tickets.sent] }

/-- The first request of the channel is accepted into the queue. -/
def accept (tickets : Tickets κ) : Tickets κ :=
  match tickets.channel with
  | [] => tickets
  | ticket :: rest =>
      { tickets with
        channel := rest
        queue := tickets.queue ++ [ticket]
        accepted := tickets.accepted ++ [ticket] }

/-- The first request of the channel is refused. -/
def refuse (tickets : Tickets κ) : Tickets κ := { tickets with channel := tickets.channel.tail }

/-- The first request of the queue is started. -/
def start (tickets : Tickets κ) : Tickets κ :=
  match tickets.queue with
  | [] => tickets
  | ticket :: rest =>
      { tickets with
        queue := rest
        pending := some ticket
        started := tickets.started ++ [ticket] }

/-- The pending request is finished. -/
def finish (tickets : Tickets κ) : Tickets κ :=
  { tickets with pending := none, finished := tickets.finished ++ tickets.pending.toList }

/-- The queue is cleared. -/
def clear (tickets : Tickets κ) (cause : κ) : Tickets κ :=
  { tickets with
    queue := []
    dropped := tickets.dropped ++ tickets.queue.map fun ticket => (ticket, cause) }

/-- The tickets are handed out in order; every accepted request was started, is in the queue or was
dropped, just once; requests are started in the order in which they were accepted; and all that
were started are finished, but for the last if it is pending. -/
structure Accounted (tickets : Tickets κ) : Prop where
  inOrder : (tickets.accepted ++ tickets.channel).Pairwise (· < ·)
  bounded : ∀ ticket ∈ tickets.accepted ++ tickets.channel, ticket < tickets.sent
  outcome : (tickets.started ++ tickets.queue ++ tickets.dropped.map Prod.fst).Perm
    tickets.accepted
  fifo : (tickets.started ++ tickets.queue).Sublist tickets.accepted
  onePending : tickets.started = tickets.finished ++ tickets.pending.toList

variable {tickets : Tickets κ}

/-- Accepting a request drops none. -/
@[simp] theorem dropped_accept (tickets : Tickets κ) :
    tickets.accept.dropped = tickets.dropped := by
  unfold accept
  split
  · rfl
  · rfl

/-- Nor does starting one. -/
@[simp] theorem dropped_start (tickets : Tickets κ) : tickets.start.dropped = tickets.dropped := by
  unfold start
  split
  · rfl
  · rfl

theorem accounted_new : (new : Tickets κ).Accounted where
  inOrder := List.Pairwise.nil
  bounded := fun _ hmem => by cases hmem
  outcome := List.Perm.refl _
  fifo := List.Sublist.refl _
  onePending := rfl

namespace Accounted

theorem send (h : tickets.Accounted) : tickets.send.Accounted where
  inOrder := by
    have hall : (tickets.accepted ++ tickets.channel ++ [tickets.sent]).Pairwise (· < ·) :=
      List.pairwise_append.mpr ⟨h.inOrder, List.pairwise_singleton _ _, fun ticket hticket other
        hother => List.mem_singleton.mp hother ▸ h.bounded ticket hticket⟩
    rwa [List.append_assoc] at hall
  bounded := by
    intro ticket hticket
    show ticket < tickets.sent + 1
    rw [Tickets.send, ← List.append_assoc] at hticket
    rcases List.mem_append.mp hticket with hold | hnew
    · exact Nat.lt_succ_of_lt (h.bounded ticket hold)
    · rw [List.mem_singleton.mp hnew]
      exact Nat.lt_succ_self _
  outcome := h.outcome
  fifo := h.fifo
  onePending := h.onePending

theorem accept (h : tickets.Accounted) : tickets.accept.Accounted := by
  unfold Tickets.accept
  cases hchannel : tickets.channel with
  | nil => exact h
  | cons ticket rest =>
      have hsame : tickets.accepted ++ [ticket] ++ rest = tickets.accepted ++ tickets.channel := by
        rw [hchannel]
        simp
      refine ⟨hsame ▸ h.inOrder, hsame ▸ h.bounded, ?_, ?_, h.onePending⟩
      · have hperm := h.outcome.append_right [ticket]
        refine List.Perm.trans ?_ hperm
        show (tickets.started ++ (tickets.queue ++ [ticket]) ++ _).Perm _
        rw [← List.append_assoc tickets.started, List.append_assoc _ [ticket],
          List.append_assoc _ _ [ticket]]
        exact List.Perm.append_left _ List.perm_append_comm
      · rw [← List.append_assoc]
        exact h.fifo.append (List.Sublist.refl _)

theorem refuse (h : tickets.Accounted) : tickets.refuse.Accounted where
  inOrder := h.inOrder.sublist ((List.tail_sublist _).append_left _)
  bounded := fun ticket hticket =>
    h.bounded ticket (((List.tail_sublist _).append_left _).subset hticket)
  outcome := h.outcome
  fifo := h.fifo
  onePending := h.onePending

theorem start (h : tickets.Accounted) (hpending : tickets.pending = none) :
    tickets.start.Accounted := by
  unfold Tickets.start
  cases hqueue : tickets.queue with
  | nil => exact h
  | cons ticket rest =>
      have hsame : tickets.started ++ [ticket] ++ rest = tickets.started ++ tickets.queue := by
        rw [hqueue]
        simp
      refine ⟨h.inOrder, h.bounded, hsame ▸ h.outcome, hsame ▸ h.fifo, ?_⟩
      have hdone := h.onePending
      rw [hpending, Option.toList_none, List.append_nil] at hdone
      rw [hdone, Option.toList_some]

theorem finish (h : tickets.Accounted) : tickets.finish.Accounted where
  inOrder := h.inOrder
  bounded := h.bounded
  outcome := h.outcome
  fifo := h.fifo
  onePending := by
    show tickets.started = tickets.finished ++ tickets.pending.toList ++ []
    rw [List.append_nil, h.onePending]

theorem clear (h : tickets.Accounted) (cause : κ) : (tickets.clear cause).Accounted where
  inOrder := h.inOrder
  bounded := h.bounded
  outcome := by
    have hfirst : (tickets.queue.map fun ticket => (ticket, cause)).map Prod.fst =
        tickets.queue := by
      rw [List.map_map]
      exact List.map_id _
    show (tickets.started ++ [] ++ (tickets.dropped ++ _).map Prod.fst).Perm tickets.accepted
    rw [List.append_nil, List.map_append, hfirst]
    refine List.Perm.trans ?_ h.outcome
    rw [List.append_assoc]
    exact List.Perm.append_left _ List.perm_append_comm
  fifo := by
    show (tickets.started ++ []).Sublist tickets.accepted
    rw [List.append_nil]
    exact (List.sublist_append_left _ _).trans h.fifo
  onePending := h.onePending

/-- An accepted request was started once, or is in the queue once, or was dropped once. -/
theorem once (h : tickets.Accounted) {ticket : Nat} (hticket : ticket ∈ tickets.accepted) :
    tickets.started.count ticket + tickets.queue.count ticket +
      (tickets.dropped.map Prod.fst).count ticket = 1 := by
  have hnodup : tickets.accepted.Nodup :=
    (List.pairwise_append.mp h.inOrder).1.imp fun hlt => hlt.ne
  rw [← List.count_append, ← List.count_append, h.outcome.count_eq]
  exact List.count_eq_one_of_mem hnodup hticket

end Accounted

/-- The requests of tickets in ascending order stand in the order in which they were sent. -/
theorem filterMap_getElem?_sublist {α : Type*} (requests : List α) {tickets : List Nat}
    (h : tickets.Pairwise (· < ·)) : (tickets.filterMap (requests[·]?)).Sublist requests := by
  let places : List (Fin requests.length) := tickets.filterMap fun ticket =>
    if hlt : ticket < requests.length then some ⟨ticket, hlt⟩ else none
  have hplaces : places.Pairwise (· < ·) := by
    refine List.Pairwise.filterMap _ (fun first second hlt place hplace other hother => ?_) h
    obtain ⟨hfirst, heq⟩ := Option.dite_none_right_eq_some.mp hplace
    obtain ⟨hsecond, heq'⟩ := Option.dite_none_right_eq_some.mp hother
    cases heq
    cases heq'
    exact hlt
  have hmap : tickets.filterMap (requests[·]?) = places.map (requests[·]) := by
    rw [List.map_filterMap]
    refine List.filterMap_congr fun ticket _ => ?_
    split
    · next hlt => exact List.getElem?_eq_getElem hlt
    · next hge => exact List.getElem?_eq_none (Nat.le_of_not_lt hge)
  rw [hmap]
  exact List.map_getElem_sublist hplaces

/-! ## Requests sent after some moment -/

/-- Since the moment when this many tickets were handed out and these requests were started, only
requests with later tickets were started, and only such are waiting. -/
structure Since (mark : Nat) (before : List Nat) (tickets : Tickets κ) : Prop where
  sent : mark ≤ tickets.sent
  waiting : ∀ ticket ∈ tickets.channel ++ tickets.queue, mark ≤ ticket
  started : ∃ later, tickets.started = before ++ later ∧ ∀ ticket ∈ later, mark ≤ ticket

namespace Since

variable {mark : Nat} {before : List Nat}

theorem send (h : Since mark before tickets) : Since mark before tickets.send where
  sent := Nat.le_succ_of_le h.sent
  waiting := by
    intro ticket hticket
    rcases List.mem_append.mp hticket with hchannel | hqueue
    · rcases List.mem_append.mp hchannel with hold | hnew
      · exact h.waiting ticket (List.mem_append_left _ hold)
      · rw [List.mem_singleton.mp hnew]
        exact h.sent
    · exact h.waiting ticket (List.mem_append_right _ hqueue)
  started := h.started

theorem accept (h : Since mark before tickets) : Since mark before tickets.accept := by
  unfold Tickets.accept
  cases hchannel : tickets.channel with
  | nil => exact h
  | cons ticket rest =>
      refine ⟨h.sent, fun other hother => ?_, h.started⟩
      refine h.waiting other ?_
      rw [hchannel]
      simp only [List.mem_append, List.mem_cons, List.not_mem_nil, or_false] at hother ⊢
      tauto

theorem refuse (h : Since mark before tickets) : Since mark before tickets.refuse where
  sent := h.sent
  waiting := fun ticket hticket =>
    h.waiting ticket (((List.tail_sublist _).append_right _).subset hticket)
  started := h.started

theorem start (h : Since mark before tickets) : Since mark before tickets.start := by
  unfold Tickets.start
  cases hqueue : tickets.queue with
  | nil => exact h
  | cons ticket rest =>
      have hwaiting := h.waiting
      rw [hqueue] at hwaiting
      obtain ⟨later, hlater, hall⟩ := h.started
      refine ⟨h.sent, fun other hother => hwaiting other ?_, later ++ [ticket], ?_, ?_⟩
      · exact ((List.sublist_cons_self _ _).append_left _).subset hother
      · show tickets.started ++ [ticket] = _
        rw [hlater, List.append_assoc]
      · intro other hother
        rcases List.mem_append.mp hother with hold | hnew
        · exact hall other hold
        · rw [List.mem_singleton.mp hnew]
          exact hwaiting ticket (by simp)

theorem finish (h : Since mark before tickets) : Since mark before tickets.finish where
  sent := h.sent
  waiting := h.waiting
  started := h.started

theorem clear (h : Since mark before tickets) (cause : κ) :
    Since mark before (tickets.clear cause) where
  sent := h.sent
  waiting := fun ticket hticket =>
    h.waiting ticket (((List.nil_sublist _).append_left _).subset hticket)
  started := h.started

end Since

end Tickets
