import Pooler.Lib.Trace
import Pooler.Spec.Http.Drain

/-! The count of active requests is the number of live guards, so a drain that has read a zero count
has seen the last of them. -/

namespace Pooler.Draining

open Lib List Nat

namespace DrainController

/-- What holds between two events. -/
structure Sound (controller : DrainController) : Prop where
  counted : controller.active = controller.liveGuards
  referenced : controller.references ≤ isizeMax + 1
  begun : controller.calls ≠ [] → controller.draining = true
  drained : .completed ∈ controller.calls → controller.liveGuards = 0
  /-- No wake-up is lost. -/
  woken : .waiting false ∈ controller.calls → controller.active = 0 → 0 < controller.owedNotifications

theorem new_sound : new.Sound :=
  ⟨rfl, zero_le _, fun h => absurd rfl h, fun h => absurd h not_mem_nil, fun h => absurd h not_mem_nil⟩

section Guards

theorem liveGuards_le_references (guards : List (Option DrainGuard)) :
    guards.countP isLive ≤ guards.countP Option.isSome := by
  refine countP_mono_left fun guard _ h => ?_
  rw [of_decide_eq_true h]
  rfl

variable {guards : List (Option DrainGuard)} {guard : ℕ}

theorem countP_live_release (h : guards[guard]? = some (some ⟨false⟩)) :
    (guards.set guard (some ⟨true⟩)).countP isLive = guards.countP isLive - 1 := by
  obtain ⟨hlt, hg⟩ := List.getElem?_eq_some_iff.1 h
  rw [countP_set hlt, hg]
  simp [isLive]

theorem countP_live_drop
    (h : guards[guard]? ≠ some (some ⟨false⟩)) : (guards.set guard none).countP isLive = guards.countP isLive := by
  by_cases hlt : guard < guards.length
  · have hnot : isLive guards[guard] = false := by
      rw [getElem?_eq_getElem hlt] at h
      simpa [isLive] using h
    rw [countP_set hlt, hnot]
    simp [isLive]
  · rw [List.set_eq_of_length_le (Nat.le_of_not_lt hlt)]

theorem countP_isSome_release {old new} (h : guards[guard]? = some (some old)) :
    (guards.set guard (some new)).countP Option.isSome = guards.countP Option.isSome := by
  obtain ⟨hlt, hg⟩ := List.getElem?_eq_some_iff.1 h
  have hpos : 0 < guards.countP Option.isSome := countP_pos_iff.2 ⟨some old, hg ▸ getElem_mem hlt, rfl⟩
  rw [countP_set hlt, hg]
  simp only [Option.isSome_some, if_true]
  omega

theorem countP_isSome_drop (guards : List (Option DrainGuard)) (guard : ℕ) :
    (guards.set guard none).countP Option.isSome ≤ guards.countP Option.isSome := by
  by_cases hlt : guard < guards.length
  · rw [countP_set hlt]
    simp
  · rw [List.set_eq_of_length_le (Nat.le_of_not_lt hlt)]

end Guards

section Calls

variable {calls : List DrainCall} {call : ℕ} {f : DrainCall → DrainCall}

theorem mem_modify {c} (h : c ∈ calls.modify call f) : c ∈ calls ∨ ∃ old ∈ calls, c = f old := by
  obtain ⟨i, hi⟩ := mem_iff_getElem?.1 h
  rw [getElem?_modify] at hi
  obtain ⟨old, hold, rfl⟩ := Option.map_eq_some_iff.1 hi
  have hm := mem_iff_getElem?.2 ⟨i, hold⟩
  split_ifs with heq
  · exact .inr ⟨old, hm, rfl⟩
  · exact .inl hm

theorem completed_mem_modify (hf : f .completed = .completed)
    (h : .completed ∈ calls) : .completed ∈ calls.modify call f := by
  obtain ⟨i, hi⟩ := mem_iff_getElem?.1 h
  refine mem_iff_getElem?.2 ⟨i, ?_⟩
  rw [getElem?_modify, hi]
  simp [hf]

variable {active : ℕ}

theorem completed_of_poll (h : .completed ∈ calls.modify call (DrainCall.poll active)) :
    .completed ∈ calls ∨ active = 0 := by
  rcases mem_modify h with h | ⟨old, hm, hold⟩
  · exact .inl h
  · cases old with
    | registering => cases hold
    | checking =>
      by_cases hzero : active = 0
      · exact .inr hzero
      · rw [DrainCall.poll, if_neg hzero] at hold
        cases hold
    | waiting notified => cases notified <;> cases hold
    | completed => exact .inl hm
    | timedOut => cases hold

theorem waiting_of_poll (h : .waiting false ∈ calls.modify call (DrainCall.poll active)) :
    .waiting false ∈ calls ∨ active ≠ 0 := by
  rcases mem_modify h with h | ⟨old, hm, hold⟩
  · exact .inl h
  · cases old with
    | registering => cases hold
    | checking =>
      by_cases hzero : active = 0
      · rw [DrainCall.poll, if_pos hzero] at hold
        cases hold
      · exact .inr hzero
    | waiting notified =>
      cases notified with
      | true => cases hold
      | false => exact .inl hm
    | completed | timedOut => cases hold

theorem mem_of_timeOut {c} (h : c ∈ calls.modify call (DrainCall.timeOut active)) :
    c ∈ calls ∨ ∃ n, c = .timedOut n := by
  rcases mem_modify h with h | ⟨old, hm, rfl⟩
  · exact .inl h
  · cases old with
    | completed => exact .inl hm
    | registering | checking | waiting | timedOut => exact .inr ⟨_, rfl⟩

theorem not_waiting_of_notified : .waiting false ∉ calls.map DrainCall.notified := by
  intro h
  obtain ⟨old, _, hold⟩ := mem_map.1 h
  cases old <;> cases hold

theorem completed_of_notified (h : .completed ∈ calls.map DrainCall.notified) : .completed ∈ calls := by
  obtain ⟨old, hm, hold⟩ := mem_map.1 h
  cases old with
  | completed => exact hm
  | registering | checking | waiting | timedOut => cases hold

end Calls

/-! ### The events -/

section Events

variable {controller : DrainController}

theorem tryAcquire_sound (h : controller.Sound) : controller.tryAcquire.Sound := by
  rw [tryAcquire]
  split_ifs with hdrain hrefs
  · exact h
  · exact ⟨h.counted, h.referenced, h.begun, h.drained, h.woken⟩
  · have hcal : controller.calls = [] := by
      by_contra hne
      exact hdrain (h.begun hne)
    have hl := liveGuards_le_references controller.guards
    have hrefs := Nat.le_of_not_lt hrefs
    refine ⟨?_, ?_, fun hne => absurd hcal hne, fun hm => ?_, fun hm => ?_⟩
    · have hbd : controller.active + 1 ≤ usizeMax := by
        have : controller.active ≤ isizeMax := h.counted ▸ hl.trans hrefs
        rw [isizeMax] at this
        rw [usizeMax]
        omega
      calc satAdd usizeMax controller.active 1 = controller.active + 1 := satAdd_eq_add hbd
        _ = controller.guards.countP isLive + 1 := by rw [h.counted]; rfl
        _ = (controller.guards ++ [some (⟨false⟩ : DrainGuard)]).countP isLive := by rw [countP_append]; rfl
    · simp only [references, countP_append]
      exact Nat.add_le_add hrefs le_rfl
    · exact absurd (hcal ▸ hm) not_mem_nil
    · exact absurd (hcal ▸ hm) not_mem_nil

theorem beginDrain_sound (h : controller.Sound) : controller.beginDrain.Sound := by
  rw [beginDrain]
  split_ifs with hdrain
  · exact h
  · exact ⟨h.counted, h.referenced, fun _ => rfl, h.drained, fun _ _ => succ_pos _⟩

theorem beginDrain_draining : controller.beginDrain.draining = true := by
  rw [beginDrain]
  split_ifs with h
  · exact h
  · rfl

theorem release_sound (guard : ℕ) (h : controller.Sound) : (controller.release guard).Sound := by
  rw [release]
  split_ifs with hl
  · have hcnt := countP_live_release hl
    refine ⟨?_, ?_, h.begun, fun hm => ?_, fun _ _ => succ_pos _⟩
    · simp [liveGuards, hcnt, h.counted]
    · simp only [references, countP_isSome_release hl]
      exact h.referenced
    · have := h.drained hm
      simp only [liveGuards] at this ⊢
      rw [hcnt, this]
  · exact h

theorem release_not_live (guard : ℕ) : (controller.release guard).guards[guard]? ≠ some (some ⟨false⟩) := by
  rw [release]
  split_ifs with hl
  · obtain ⟨hlt, _⟩ := List.getElem?_eq_some_iff.1 hl
    simp [hlt]
  · exact hl

theorem dropGuard_sound (guard : ℕ) (h : controller.Sound) : (controller.dropGuard guard).Sound := by
  have hrel := release_sound guard h
  have hcnt := countP_live_drop (controller.release_not_live guard)
  refine ⟨?_, ?_, hrel.begun, fun hm => ?_, hrel.woken⟩
  · simp only [dropGuard, liveGuards, hcnt]
    exact hrel.counted
  · exact (countP_isSome_drop _ guard).trans hrel.referenced
  · simp only [dropGuard, liveGuards, hcnt]
    exact hrel.drained hm

theorem notifyWaiters_sound (h : controller.Sound) : controller.notifyWaiters.Sound := by
  rw [notifyWaiters]
  split_ifs
  · exact h
  · refine ⟨h.counted, h.referenced, fun hne => h.begun fun hnil => hne ?_,
      fun hm => h.drained (completed_of_notified hm), fun hm => absurd hm not_waiting_of_notified⟩
    simp [hnil]

theorem drain_sound (h : controller.Sound) : controller.drain.Sound := by
  have hbeg := beginDrain_sound h
  have hcal : controller.beginDrain.calls = controller.calls := by rw [beginDrain]; split_ifs <;> rfl
  refine ⟨hbeg.counted, hbeg.referenced, fun _ => beginDrain_draining, fun hm => ?_, fun hm => ?_⟩
  · refine hbeg.drained (hcal ▸ ?_)
    simpa [drain] using hm
  · refine hbeg.woken (hcal ▸ ?_)
    simpa [drain] using hm

theorem pollDrain_sound (call : ℕ) (h : controller.Sound) : (controller.pollDrain call).Sound := by
  refine ⟨h.counted, h.referenced, fun hne => h.begun fun hnil => hne ?_, fun hm => ?_, fun hm hzero => ?_⟩
  · simp [pollDrain, hnil]
  · rcases completed_of_poll hm with hm | hzero
    · exact h.drained hm
    · exact h.counted.symm.trans hzero
  · rcases waiting_of_poll hm with hm | hne
    · exact h.woken hm hzero
    · exact absurd hzero hne

theorem timeOutDrain_sound (call : ℕ) (h : controller.Sound) : (controller.timeOutDrain call).Sound := by
  refine ⟨h.counted, h.referenced, fun hne => h.begun fun hnil => hne ?_, fun hm => ?_, fun hm => ?_⟩
  · simp [timeOutDrain, hnil]
  · rcases mem_of_timeOut hm with hm | ⟨n, hn⟩
    · exact h.drained hm
    · cases hn
  · rcases mem_of_timeOut hm with hm | ⟨n, hn⟩
    · exact h.woken hm
    · cases hn

theorem step_sound (controller : DrainController) (event : Event) (h : controller.Sound) :
    (controller.step event).Sound := by
  unfold step
  split_ifs
  · exact h
  · cases event with
    | tryAcquire => exact tryAcquire_sound h
    | release guard => exact release_sound guard h
    | dropGuard guard => exact dropGuard_sound guard h
    | beginDrain => exact beginDrain_sound h
    | cancelActive => exact ⟨h.counted, h.referenced, h.begun, h.drained, fun _ _ => succ_pos _⟩
    | notifyWaiters => exact notifyWaiters_sound h
    | drain => exact drain_sound h
    | pollDrain call => exact pollDrain_sound call h
    | timeOutDrain call => exact timeOutDrain_sound call h

/-! ### Runs -/

/-- What an earlier state says about a later one. -/
structure Precedes (controller later : DrainController) : Prop where
  draining : controller.draining = true → later.draining = true
  granted : controller.draining = true → later.guards.length = controller.guards.length
  completed : .completed ∈ controller.calls → .completed ∈ later.calls

section

variable (controller : DrainController)

theorem Precedes.refl : Precedes controller controller := ⟨id, fun _ => rfl, id⟩

theorem Precedes.trans {first second third} (h : Precedes first second) (h' : Precedes second third) :
    Precedes first third where
  draining hd := h'.draining (h.draining hd)
  granted hd := (h'.granted (h.draining hd)).trans (h.granted hd)
  completed hc := h'.completed (h.completed hc)

theorem tryAcquire_precedes : Precedes controller controller.tryAcquire := by
  rw [tryAcquire]
  split_ifs with hdrain
  · exact .refl _
  · exact ⟨id, fun _ => rfl, id⟩
  · exact ⟨id, fun h => absurd h hdrain, id⟩

theorem release_precedes (guard : ℕ) : Precedes controller (controller.release guard) := by
  rw [release]
  split_ifs
  · exact ⟨id, fun _ => length_set, id⟩
  · exact .refl _

theorem beginDrain_precedes : Precedes controller controller.beginDrain := by
  rw [beginDrain]
  split_ifs
  · exact .refl _
  · exact ⟨fun _ => rfl, fun _ => rfl, id⟩

theorem step_precedes (event : Event) : Precedes controller (controller.step event) := by
  unfold step
  split_ifs
  · exact .refl _
  · cases event with
    | tryAcquire => exact tryAcquire_precedes controller
    | release guard => exact release_precedes controller guard
    | dropGuard guard =>
      have h := release_precedes controller guard
      exact ⟨h.draining, fun hd => length_set.trans (h.granted hd), h.completed⟩
    | beginDrain => exact beginDrain_precedes controller
    | cancelActive => exact ⟨id, fun _ => rfl, id⟩
    | notifyWaiters =>
      simp only [notifyWaiters]
      split_ifs
      · exact .refl _
      · exact ⟨id, fun _ => rfl, fun hc => mem_map.2 ⟨_, hc, rfl⟩⟩
    | drain =>
      have h := beginDrain_precedes controller
      exact ⟨h.draining, h.granted, fun hc => mem_append_left _ hc⟩
    | pollDrain | timeOutDrain => exact ⟨id, fun _ => rfl, completed_mem_modify rfl⟩

end

theorem run_precedes (evs : List Event) : ∀ controller, Precedes controller (run step controller evs) := by
  induction evs with
  | nil => intro controller; exact .refl controller
  | cons event evs ih => intro controller; exact (step_precedes controller event).trans (ih _)

end Events

end DrainController

open DrainController in
/-- In every run the active count is the number of live guards, no guard is granted once draining
has begun, and once a `drain` call has completed no guard is live, then and ever after. -/
theorem drain_waits_for_every_guard (events later : List Event) :
    let controller := run step new events
    let after := run step controller later
    controller.active = controller.liveGuards ∧
      (controller.draining = true → after.guards.length = controller.guards.length) ∧
      (.completed ∈ controller.calls → controller.liveGuards = 0 ∧ after.liveGuards = 0) := by
  intro controller after
  have hsd : controller.Sound := run_invariant step_sound events new new_sound
  have hprec : Precedes controller after := run_precedes later controller
  have haft : after.Sound := run_invariant step_sound later controller hsd
  exact ⟨hsd.counted, hprec.granted, fun hdone => ⟨hsd.drained hdone, haft.drained (hprec.completed hdone)⟩⟩

example : (run DrainController.step .new
    [.tryAcquire, .drain, .tryAcquire, .pollDrain 0, .pollDrain 0, .dropGuard 0, .notifyWaiters, .notifyWaiters,
      .pollDrain 0, .pollDrain 0, .pollDrain 0]).calls = [.completed] := by decide

end Pooler.Draining
