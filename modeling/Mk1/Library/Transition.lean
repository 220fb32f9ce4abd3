import Mathlib.Data.Option.Basic

/-!
# Runs of partial step functions

A system whose steps are given by a partial function of a state and an event;
`none` means that the event cannot happen in the state. `run` performs a list
of events, and `invariant_run` carries an invariant along it when every step
meets a condition.
-/

namespace Transition

variable {σ ε : Type*} (step : σ → ε → Option σ)

/-- The state after a list of events, if each of them can happen. -/
def run : σ → List ε → Option σ
  | state, [] => some state
  | state, event :: rest => (step state event).bind fun next => run next rest

/-- Every step of a run meets a condition on the state before it and its event. -/
def StepsMeet (condition : σ → ε → Prop) : σ → List ε → Prop
  | _, [] => True
  | state, event :: rest => condition state event ∧
      ∀ next, step state event = some next → StepsMeet condition next rest

variable {step} {state final : σ} {event : ε} {events : List ε}

@[simp] theorem run_nil : run step state [] = some state := rfl

theorem run_cons : run step state (event :: events) = some final ↔
    ∃ next, step state event = some next ∧ run step next events = some final :=
  Option.bind_eq_some_iff

/-- A run of a list in two parts is a run of one part after the other. -/
theorem run_append {left right : List ε} : run step state (left ++ right) = some final ↔
    ∃ middle, run step state left = some middle ∧ run step middle right = some final := by
  induction left generalizing state with
  | nil => simp
  | cons event rest ih =>
      rw [List.cons_append, run_cons]
      constructor
      · rintro ⟨next, hnext, hrest⟩
        obtain ⟨middle, hmiddle, hright⟩ := ih.mp hrest
        exact ⟨middle, run_cons.mpr ⟨next, hnext, hmiddle⟩, hright⟩
      · rintro ⟨middle, hmiddle, hright⟩
        obtain ⟨next, hnext, hrest⟩ := run_cons.mp hmiddle
        exact ⟨next, hnext, ih.mpr ⟨middle, hrest, hright⟩⟩

/-- An invariant that every step keeps, if it meets the condition, holds after every run whose
steps meet the condition. -/
theorem invariant_run {condition : σ → ε → Prop} {inv : σ → Prop}
    (hstep : ∀ state event next, inv state → condition state event →
      step state event = some next → inv next)
    (hinv : inv state) (hmeet : StepsMeet step condition state events)
    (hrun : run step state events = some final) : inv final := by
  induction events generalizing state with
  | nil =>
      cases hrun
      exact hinv
  | cons event rest ih =>
      obtain ⟨next, hnext, hrest⟩ := run_cons.mp hrun
      exact ih (hstep state event next hinv hmeet.1 hnext) (hmeet.2 next hnext) hrest

/-- A condition that can be decided can be decided for the steps of a run. -/
instance decidableStepsMeet {condition : σ → ε → Prop}
    [∀ state event, Decidable (condition state event)] :
    ∀ state events, Decidable (StepsMeet step condition state events)
  | _, [] => isTrue trivial
  | state, event :: rest =>
      match hstep : step state event with
      | none =>
          decidable_of_iff (condition state event)
            ⟨fun h => ⟨h, fun _ hnext => by rw [hstep] at hnext; cases hnext⟩, And.left⟩
      | some next =>
          have : Decidable (StepsMeet step condition next rest) := decidableStepsMeet next rest
          decidable_of_iff (condition state event ∧ StepsMeet step condition next rest)
            ⟨fun h => ⟨h.1, fun _ hnext => by rw [hstep] at hnext; cases hnext; exact h.2⟩,
              fun h => ⟨h.1, h.2 next hstep⟩⟩

/-- A condition that the events meet in every state is met by every step. -/
theorem stepsMeet_of_forall {condition : σ → ε → Prop}
    (h : ∀ event ∈ events, ∀ state, condition state event) :
    StepsMeet step condition state events := by
  induction events generalizing state with
  | nil => trivial
  | cons event rest ih =>
      exact ⟨h event (by simp) state,
        fun next _ => ih fun other hother => h other (by simp [hother])⟩

/-- The first step of a run that goes on meets a condition, and so do the others. -/
theorem stepsMeet_cons_of_some {condition : σ → ε → Prop} {next : σ}
    (h : step state event = some next) : StepsMeet step condition state (event :: events) ↔
      condition state event ∧ StepsMeet step condition next events := by
  refine and_congr_right fun _ => ⟨fun hrest => hrest next h, fun hrest other hother => ?_⟩
  obtain rfl := Option.some.inj (h.symm.trans hother)
  exact hrest

/-- The first step of a run that ends with it meets a condition. -/
theorem stepsMeet_cons_of_none {condition : σ → ε → Prop} (h : step state event = none) :
    StepsMeet step condition state (event :: events) ↔ condition state event := by
  refine ⟨And.left, fun hfirst => ⟨hfirst, fun next hnext => ?_⟩⟩
  rw [h] at hnext
  cases hnext

/-- Steps that meet two conditions meet both at once. -/
theorem StepsMeet.and {left right : σ → ε → Prop} (hleft : StepsMeet step left state events)
    (hright : StepsMeet step right state events) :
    StepsMeet step (fun state event => left state event ∧ right state event) state events := by
  induction events generalizing state with
  | nil => trivial
  | cons event rest ih =>
      refine ⟨⟨hleft.1, hright.1⟩, fun next hnext => ?_⟩
      exact ih (hleft.2 next hnext) (hright.2 next hnext)

/-- The steps of a run meet what an invariant and the condition of its steps imply. -/
theorem stepsMeet_of_invariant {condition goal : σ → ε → Prop} {inv : σ → Prop}
    (hstep : ∀ state event next, inv state → condition state event →
      step state event = some next → inv next)
    (hgoal : ∀ state event, inv state → condition state event → goal state event)
    (hinv : inv state) (hmeet : StepsMeet step condition state events) :
    StepsMeet step goal state events := by
  induction events generalizing state with
  | nil => trivial
  | cons event rest ih =>
      exact ⟨hgoal state event hinv hmeet.1, fun next hnext =>
        ih (hstep state event next hinv hmeet.1 hnext) (hmeet.2 next hnext)⟩

/-- A run whose steps meet a condition never stops, if from a state with the invariant such a step
is possible and keeps it. -/
theorem exists_run_of_invariant {condition : σ → ε → Prop} {inv : σ → Prop}
    (hstep : ∀ state event, inv state → condition state event →
      ∃ next, step state event = some next ∧ inv next)
    (hinv : inv state) (hmeet : StepsMeet step condition state events) :
    ∃ final, run step state events = some final ∧ inv final := by
  induction events generalizing state with
  | nil => exact ⟨state, rfl, hinv⟩
  | cons event rest ih =>
      obtain ⟨next, hnext, hinv'⟩ := hstep state event hinv hmeet.1
      obtain ⟨final, hfinal, hinvFinal⟩ := ih hinv' (hmeet.2 next hnext)
      exact ⟨final, run_cons.mpr ⟨next, hnext, hfinal⟩, hinvFinal⟩

/-- Where a run ends can be evaluated. -/
theorem exists_run {p : σ → Prop} [DecidablePred p]
    (h : (run step state events).any (fun final => p final) = true) :
    ∃ final, run step state events = some final ∧ p final := by
  obtain ⟨final, hrun, hfinal⟩ := (Option.any_eq_true _ _).mp h
  exact ⟨final, hrun, of_decide_eq_true hfinal⟩

/-- An invariant that every step keeps, if its event meets the condition, holds after every run
of such events. -/
theorem invariant_run_of_forall {condition : ε → Prop} {inv : σ → Prop}
    (hstep : ∀ state event next, inv state → condition event →
      step state event = some next → inv next)
    (hinv : inv state) (hmeet : ∀ event ∈ events, condition event)
    (hrun : run step state events = some final) : inv final :=
  invariant_run hstep hinv (stepsMeet_of_forall fun event hevent _ => hmeet event hevent) hrun

/-- An invariant that every step keeps holds after every run. -/
theorem invariant_run_of_step {inv : σ → Prop}
    (hstep : ∀ state event next, inv state → step state event = some next → inv next)
    (hinv : inv state) (hrun : run step state events = some final) : inv final :=
  invariant_run_of_forall (fun state event next h (_ : True) => hstep state event next h) hinv
    (fun _ _ => trivial) hrun

/-- A property that a step keeps exactly if it meets a condition holds in every state of a run
exactly if every step of the run meets the condition. The steps may rely on an invariant. -/
theorem property_iff_stepsMeet {property inv : σ → Prop} {condition : σ → ε → Prop}
    {allowed : ε → Prop}
    (hinv : ∀ state event next, inv state → allowed event → step state event = some next → inv next)
    (hstep : ∀ state event next, inv state → property state → step state event = some next →
      (property next ↔ condition state event))
    (hstate : inv state) (hproperty : property state) (hallowed : ∀ event ∈ events, allowed event)
    (hrun : run step state events = some final) :
    (∀ before after reached, events = before ++ after → run step state before = some reached →
        property reached) ↔
      StepsMeet step condition state events := by
  induction events generalizing state with
  | nil =>
      refine ⟨fun _ => trivial, fun _ before after reached hsplit hreached => ?_⟩
      obtain ⟨rfl, -⟩ := List.append_eq_nil_iff.mp hsplit.symm
      cases hreached
      exact hproperty
  | cons event rest ih =>
      obtain ⟨next, hnext, hrest⟩ := run_cons.mp hrun
      have hiff := hstep state event next hstate hproperty hnext
      have hinv' := hinv state event next hstate (hallowed event (by simp)) hnext
      have hallowed' : ∀ event ∈ rest, allowed event := fun other hother =>
        hallowed other (by simp [hother])
      constructor
      · intro hall
        have hproperty' : property next :=
          hall [event] rest next rfl (run_cons.mpr ⟨next, hnext, rfl⟩)
        refine ⟨hiff.mp hproperty', fun other hother => ?_⟩
        obtain rfl : next = other := Option.some.inj (hnext.symm.trans hother)
        refine (ih hinv' hproperty' hallowed' hrest).mp ?_
        intro before after reached hsplit hreached
        exact hall (event :: before) after reached (by rw [hsplit]; rfl)
          (run_cons.mpr ⟨next, hnext, hreached⟩)
      · rintro ⟨hcondition, hmeet⟩ before after reached hsplit hreached
        have hproperty' : property next := hiff.mpr hcondition
        cases before with
        | nil =>
            cases hreached
            exact hproperty
        | cons first before =>
            cases hsplit
            obtain ⟨other, hother, hreached'⟩ := run_cons.mp hreached
            obtain rfl : next = other := Option.some.inj (hnext.symm.trans hother)
            exact (ih hinv' hproperty' hallowed' hrest).mpr (hmeet next hnext) before after reached
              rfl hreached'

/-- The same rule for steps that need no invariant. -/
theorem property_iff_stepsMeet_of_step {property : σ → Prop} {condition : σ → ε → Prop}
    (hstep : ∀ state event next, property state → step state event = some next →
      (property next ↔ condition state event))
    (hproperty : property state) (hrun : run step state events = some final) :
    (∀ before after reached, events = before ++ after → run step state before = some reached →
        property reached) ↔
      StepsMeet step condition state events := by
  have hinv : ∀ state event next, True → True → step state event = some next → True :=
    fun _ _ _ _ _ _ => trivial
  exact property_iff_stepsMeet hinv (fun state event next _ => hstep state event next) trivial
    hproperty (fun _ _ => trivial) hrun

end Transition
