import Mk1.Driver.EventLoop.Log
import Mk1.Driver.EventLoop.Submissions

/-!
# While the preconf router is unset

The router of the preconfirmations can be unset on the L1, which switches the
driver off: every update of the status makes it inactive. `idle_without_router`
says that it stays so in whatever order things happen, builds no block, and
submits no batch, except that an L1 tick still submits blocks at their age limit.
-/

namespace Mk1

/-- The check of the router does not find it set. -/
def Driver.Event.leavesRouterUnset : Event → Bool
  | .background (.preconfRouterChecked isSet) => !isSet
  | _ => true

namespace Driver

/-- A driver that is switched off, with what it has added to the log: no triggered block, and only
submissions that are recorded as inactive. -/
structure SwitchedOff (log : List LogEntry) (driver : Driver) : Prop where
  router : driver.l1.isPreconfRouterSet = false
  status : driver.status = .inactive
  entries : ∃ entries, driver.log = entries ++ log ∧
    (∀ finalization, .triggered finalization ∉ entries) ∧
    ∀ req status reorgReasons, .submitted req status reorgReasons ∈ entries → status = .inactive

variable {driver next : Driver} {log : List LogEntry}

/-- A driver that is switched off stays so until the router is found set. -/
theorem SwitchedOff.step (h : driver.SwitchedOff log) {event : Event}
    (hunset : event.leavesRouterUnset = true) (hnext : driver.step event = some next) :
    next.SwitchedOff log := by
  obtain ⟨older, holder, htriggered, hsubmitted⟩ := h.entries
  cases step_log hnext with
  | recorded hrecords =>
      refine ⟨hrecords.router.trans h.router, ?_, older, hrecords.log.trans holder, htriggered,
        hsubmitted⟩
      exact (hrecords.status h.router).elim (fun heq => heq.trans h.status) id
  | added hadds =>
      have hstep : SwitchedOff driver.log next := by
        refine ⟨hadds.router.trans h.router, hadds.status.trans h.status, ?_⟩
        obtain ⟨newer, hnewer, hnone, hstatus⟩ := hadds.log
        exact ⟨newer, hnewer, hnone, fun req status reorgReasons hmem =>
          (hstatus req status reorgReasons hmem).trans h.status⟩
      obtain ⟨newer, hnewer, hnone, hstatus⟩ := hstep.entries
      refine ⟨hstep.router, hstep.status, newer ++ older, ?_, ?_, ?_⟩
      · rw [hnewer, holder, List.append_assoc]
      · exact fun finalization hmem =>
          (List.mem_append.mp hmem).elim (hnone finalization) (htriggered finalization)
      · exact fun req status reorgReasons hmem =>
          (List.mem_append.mp hmem).elim (hstatus req status reorgReasons)
            (hsubmitted req status reorgReasons)
  | triggered estimate payload hsequence =>
      rw [h.status] at hsequence
      cases hsequence
  | routerChecked isSet =>
      exact ⟨by simpa [Event.leavesRouterUnset] using hunset, h.status, h.entries⟩

/-- In every run of the driver from a moment on at which the router is unset and the driver is
inactive, and until the router is found set, the driver stays inactive and triggers no block. It
submits no batch either, if no L1 tick finds blocks at their age limit out of turn. -/
theorem idle_without_router {cfg : RuntimeConfig} {l1 : L1State} {l2 : L2State}
    {before after : List Event} {final : Driver}
    (hbefore : Transition.run step (new cfg l1 l2) before = some driver)
    (hrouter : driver.l1.isPreconfRouterSet = false) (hinactive : driver.status = .inactive)
    (hunset : ∀ event ∈ after, event.leavesRouterUnset = true)
    (hafter : Transition.run step driver after = some final) :
    final.status = .inactive ∧ ∃ entries, final.log = entries ++ driver.log ∧
      (∀ finalization, .triggered finalization ∉ entries) ∧
      (Transition.StepsMeet step (fun driver event => driver.agesInTurn event)
          (new cfg l1 l2) (before ++ after) →
        ∀ req status reorgReasons, .submitted req status reorgReasons ∉ entries) := by
  have hstart : driver.SwitchedOff driver.log :=
    ⟨hrouter, hinactive, [], rfl, by simp, by simp⟩
  have hfinal : final.SwitchedOff driver.log := Transition.invariant_run_of_forall
    (fun _ _ _ hinv hevent hstep => hinv.step hevent hstep) hstart hunset hafter
  obtain ⟨entries, hentries, htriggered, hsubmitted⟩ := hfinal.entries
  refine ⟨hfinal.status, entries, hentries, htriggered, fun hages req status reasons hmem => ?_⟩
  -- a submission in turn is not recorded as inactive
  have hinitial : (new cfg l1 l2).InTurn :=
    .of_entries (by simp [EntriesInTurn, new]) (by simp [new])
  have hturn : final.InTurn := Transition.invariant_run
    (fun _ _ _ hinv hcondition hstep => hinv.step hcondition hstep) hinitial hages
    (Transition.run_append.mpr ⟨driver, hbefore, hafter⟩)
  have hpropose : status.canPropose = true := by
    refine hturn.entries req status reasons ?_
    rw [hentries]
    exact List.mem_append_left _ hmem
  rw [hsubmitted req status reasons hmem] at hpropose
  cases hpropose

/-- The router is unset while the driver is active, and the next L1 tick switches the driver
off. -/
def routerUnset : List Event :=
  let answers := answersWith 38424 105 1 1 100 (l2BlockOn 100 1 38400 1)
  startup (answersWith 38412 104 1 1 100 (l2BlockOn 100 1 38400 1)) ++
    [.background (.preconfRouterChecked false), .handle (.l1SlotTick 38424 3202),
      .resume answers, .resume answers, .resume answers]

/-- The next L2 tick builds no block. -/
theorem idle_without_router_at_tick :
    ∃ driver final, Transition.run step (startAt 38412 1) routerUnset = some driver ∧
      Transition.run step driver
        [.handle (.l2SlotTick 38426 (tickReads (l2BlockOn 100 1 38400 1).header))] = some final ∧
      final.status = .inactive ∧ ∃ entries, final.log = entries ++ driver.log ∧
        (∀ finalization, .triggered finalization ∉ entries) ∧
        ∀ req status reorgReasons, .submitted req status reorgReasons ∉ entries := by
  obtain ⟨driver, hrun, hrouter, hinactive, hsome⟩ : ∃ driver,
      Transition.run step (startAt 38412 1) routerUnset = some driver ∧
        driver.l1.isPreconfRouterSet = false ∧ driver.status = .inactive ∧
        (Transition.run step driver
          [.handle (.l2SlotTick 38426 (tickReads (l2BlockOn 100 1 38400 1).header))]).isSome :=
    Transition.exists_run (by decide +kernel)
  obtain ⟨final, hfinal⟩ := Option.isSome_iff_exists.mp hsome
  obtain ⟨hstatus, entries, hlog, htriggered, hsubmitted⟩ :=
    idle_without_router hrun hrouter hinactive (by decide) hfinal
  exact ⟨driver, final, hrun, hfinal, hstatus, entries, hlog, htriggered,
    hsubmitted (by decide +kernel)⟩

end Driver

end Mk1
