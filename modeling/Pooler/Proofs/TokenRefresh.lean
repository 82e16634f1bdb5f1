import Pooler.Lib.Trace
import Pooler.Sanity.Refresh

/-! Token refresh is single flight. -/

namespace Pooler.Refreshing

open Lib List Option LeaderStage

variable {τ : Type}

/-- The outcome once the operation is over. -/
def settled : LeaderStage τ → Option (RefreshOutcome τ)
  | .finishing outcome | .published outcome | .removed outcome | .done outcome => some outcome
  | _ => none

/-- The sections a leader still has to go through after its operation. -/
def closing (i : ℕ) : LeaderStage τ → List (Event τ)
  | .finishing _ => [.publish i, .remove i, .notify i]
  | .published _ => [.remove i, .notify i]
  | .removed _ => [.notify i]
  | _ => []

/-- The steps a waiter still has to take once the outcome is published. -/
def waiting (j : ℕ) : WaiterStage τ → List (Event τ)
  | .awaiting _ => [.wake j, .register j, .look j]
  | .registering => [.register j, .look j]
  | .looking _ => [.look j]
  | _ => []

variable {outcome : RefreshOutcome τ}

theorem settled_operating {stage} (h : settled stage = some outcome) : stage.operating = false := by
  cases stage <;> first | rfl | cases h

theorem done_of_settled {i : ℕ} {stage}
    (h : settled stage = some outcome) (hcl : closing i stage = []) : stage = .done outcome := by
  cases stage <;> cases h <;> first | rfl | cases hcl

variable {s : Refreshing τ}

/-- Nothing but the leader's own sections changes an entry whose operation is over. -/
theorem Move.settled {t} (hmove : Move s t) {i : ℕ} {entry}
    (hent : s.entries[i]? = some entry) (hset : settled entry.stage = some outcome) :
    ∃ next, t.entries[i]? = some next ∧ Refreshing.settled next.stage = some outcome ∧
      (closing i next.stage).Sublist (closing i entry.stage) := by
  have hs : t.entries[i]? = some entry → ∃ next, t.entries[i]? = some next ∧
      Refreshing.settled next.stage = some outcome ∧
      (closing i next.stage).Sublist (closing i entry.stage) :=
    fun h => ⟨entry, h, hset, Sublist.refl _⟩
  have hmod : ∀ {k : ℕ} {other : RefreshEntry τ} (f : RefreshEntry τ → RefreshEntry τ),
      s.entries[k]? = some other → t.entries = s.entries.modify k f →
      (Refreshing.settled other.stage = some outcome → Refreshing.settled (f other).stage = some outcome ∧
        (closing i (f other).stage).Sublist (closing i other.stage)) →
      ∃ next, t.entries[i]? = some next ∧ Refreshing.settled next.stage = some outcome ∧
        (closing i next.stage).Sublist (closing i entry.stage) := by
    intro k other f hk ht hf
    by_cases hki : k = i
    · subst hki
      cases hent.symm.trans hk
      exact ⟨f entry, ht ▸ getElem?_modify_self hent, hf hset⟩
    · exact hs (by rw [ht, getElem?_modify_ne _ _ hki, hent])
  cases hmove with
  | idle => exact hs hent
  | enter =>
    obtain ⟨hlt, -⟩ := List.getElem?_eq_some_iff.1 hent
    exact hs ((getElem?_append_left hlt).trans hent)
  | join => exact hs hent
  | begin hk hstg | renew hk hstg | reject hk hstg => exact hmod _ hk rfl (hstg ▸ nofun)
  | finish hk hop =>
    -- a leader whose operation runs is another one
    exact hmod _ hk rfl fun h => absurd hop (by rw [settled_operating h]; nofun)
  | commit hk hstg => exact hmod _ hk rfl (hstg ▸ nofun)
  | publish hk hstg | remove hk hstg | notify hk hstg =>
    exact hmod _ hk rfl (hstg ▸ fun h => ⟨h, sublist_cons_self _ _⟩)
  | waiter | write => exact hs hent

variable {event : Event τ}

section Leader

variable {s : Refreshing τ} {i : ℕ} {entry : RefreshEntry τ}

theorem stage_of_entry (h : s.entries[i]? = some entry) : s.stage i = some entry.stage := by
  simp [stage, h]

theorem closing_next (hasRefreshToken : τ → Bool) (hent : s.entries[i]? = some entry)
    {rest} (htodo : closing i entry.stage = event :: rest) :
    ∃ next, (step hasRefreshToken s event).entries[i]? = some next ∧ closing i next.stage = rest := by
  have hstg := stage_of_entry hent
  cases h : entry.stage with
  | finishing outcome =>
    rw [h] at hstg htodo
    cases htodo
    refine ⟨{ entry with stage := .published outcome, result := some outcome }, ?_, rfl⟩
    simp only [step, publish, hstg]
    exact getElem?_modify_self hent
  | published outcome =>
    rw [h] at hstg htodo
    cases htodo
    refine ⟨{ entry with stage := .removed outcome }, ?_, rfl⟩
    simp only [step, remove, hstg]
    exact getElem?_modify_self hent
  | removed outcome =>
    rw [h] at hstg htodo
    cases htodo
    refine ⟨{ entry with stage := .done outcome, notified := true }, ?_, rfl⟩
    simp only [step, notify, hstg]
    exact getElem?_modify_self hent
  | _ =>
    rw [h] at htodo
    cases htodo

end Leader

/-- The steps left to the leader of entry `i`. -/
def leaderTodo (i : ℕ) (s : Refreshing τ) : List (Event τ) := ((s.stage i).map (closing i)).getD []

theorem leaderTodo_of_entry {i : ℕ} {entry}
    (h : s.entries[i]? = some entry) : leaderTodo i s = closing i entry.stage := by
  rw [leaderTodo, stage_of_entry h]
  rfl

theorem leader_finishes (hasRefreshToken : τ → Bool) {i : ℕ}
    (hstg : s.stage i = some (.finishing outcome)) (evs : List (Event τ))
    (hevs : [Event.publish i, .remove i, .notify i].Sublist evs) :
    (run (step hasRefreshToken) s evs).stage i = some (.done outcome) := by
  obtain ⟨entry, hent, hfin⟩ := stage_eq_some hstg
  have hrun := @run_finishes _ _ (step hasRefreshToken)
    (fun s => ∃ entry, s.entries[i]? = some entry ∧ settled entry.stage = some outcome)
    (fun _ => True) (leaderTodo i) ?_ ?_ ?_ evs s (fun _ _ => trivial)
    ⟨entry, hent, by rw [hfin]; rfl⟩ (by rw [leaderTodo_of_entry hent, hfin]; exact hevs)
  · obtain ⟨⟨last, hlast, hset⟩, htodo⟩ := hrun
    rw [leaderTodo_of_entry hlast] at htodo
    rw [stage_of_entry hlast, done_of_settled hset htodo]
  · rintro s event - ⟨entry, hent, hset⟩
    obtain ⟨next, hnext, hset', -⟩ := (step_move hasRefreshToken s event).settled hent hset
    exact ⟨next, hnext, hset'⟩
  · rintro s event - ⟨entry, hent, hset⟩
    obtain ⟨next, hnext, -, hsub⟩ := (step_move hasRefreshToken s event).settled hent hset
    rw [leaderTodo_of_entry hnext, leaderTodo_of_entry hent]
    exact hsub
  · rintro s event rest - ⟨entry, hent, -⟩ htodo
    rw [leaderTodo_of_entry hent] at htodo
    obtain ⟨next, hnext, hr⟩ := closing_next hasRefreshToken hent htodo
    rw [leaderTodo_of_entry hnext, hr]

/-- The waiter an event belongs to. -/
def Event.waiter? : Event τ → Option ℕ
  | .register j | .look j | .wake j | .cancelWaiter j | .dropWaiter j => some j
  | _ => none

def Event.isCall : Event τ → Bool
  | .call _ => true
  | _ => false

def withWaiters (s : Refreshing τ) (waiters : List (RefreshWaiter τ)) : Refreshing τ := { s with waiters := waiters }

section Waiters

variable (hasRefreshToken : τ → Bool) (s : Refreshing τ)

theorem step_withWaiters (waiters : List (RefreshWaiter τ)) (hwait : event.waiter? = none)
    (hcall : event.isCall = false) :
    step hasRefreshToken (s.withWaiters waiters) event = (step hasRefreshToken s event).withWaiters waiters := by
  have hents : (s.withWaiters waiters).entries = s.entries := rfl
  have hstg : ∀ i, (s.withWaiters waiters).stage i = s.stage i := fun _ => rfl
  have hsto : (s.withWaiters waiters).store = s.store := rfl
  cases event with
  | call => cases hcall
  | load => simp only [step, load, hents]; split <;> rfl
  | answer i answer =>
    simp only [step, Refreshing.answer, hstg]
    split
    · cases answer <;> rfl
    · rfl
  | commit =>
    simp only [step, Refreshing.commit, hstg, hsto]
    split
    · split
      · rfl
      · split_ifs <;> rfl
    · rfl
  | reload =>
    simp only [step, reload, hstg, hsto]
    split
    · split
      · rfl
      · split_ifs <;> rfl
    · rfl
  | cancelLeader => simp only [step, cancelLeader, hstg]; split <;> rfl
  | dropLeader => simp only [step, dropLeader, hstg]; split <;> rfl
  | publish => simp only [step, publish, hstg]; split <;> rfl
  | remove => simp only [step, remove, hstg]; split <;> rfl
  | notify => simp only [step, notify, hstg]; split <;> rfl
  | write => rfl
  | register | look | wake | cancelWaiter | dropWaiter => cases hwait

theorem step_waiters (hwait : event.waiter? = none) (hcall : event.isCall = false) :
    (step hasRefreshToken s event).waiters = s.waiters := by
  have h := congrArg Refreshing.waiters (step_withWaiters hasRefreshToken s s.waiters hwait hcall)
  exact h

theorem step_own {j : ℕ} (hwait : event.waiter? = some j) :
    step hasRefreshToken s event = s ∨ ∃ stage, step hasRefreshToken s event = s.setWaiter j stage := by
  cases event with
  | register =>
    cases hwait
    simp only [step, register]
    split
    · exact .inr ⟨_, rfl⟩
    · exact .inl rfl
  | look =>
    cases hwait
    simp only [step, look]
    split
    · split
      · exact .inr ⟨_, rfl⟩
      · exact .inr ⟨_, rfl⟩
    · exact .inl rfl
  | wake =>
    cases hwait
    simp only [step, wake]
    split
    · split_ifs
      · exact .inr ⟨_, rfl⟩
      · exact .inl rfl
    · exact .inl rfl
  | cancelWaiter =>
    cases hwait
    simp only [step, cancelWaiter]
    split_ifs
    · exact .inr ⟨_, rfl⟩
    · exact .inl rfl
  | dropWaiter =>
    cases hwait
    simp only [step, dropWaiter]
    split
    · exact .inr ⟨_, rfl⟩
    · exact .inl rfl
  | _ => cases hwait

/-- The two states differ in the waiters only. -/
def SameLeader (s t : Refreshing τ) : Prop := ∃ waiters, t = s.withWaiters waiters

theorem SameLeader.own {j : ℕ} (hwait : event.waiter? = some j) : SameLeader s (step hasRefreshToken s event) := by
  obtain h | ⟨stage, h⟩ := step_own hasRefreshToken s hwait
  · exact ⟨s.waiters, h⟩
  · exact ⟨_, h⟩

variable {s} {t : Refreshing τ}

theorem SameLeader.symm (h : SameLeader s t) : SameLeader t s := by
  obtain ⟨waiters, rfl⟩ := h
  exact ⟨s.waiters, rfl⟩

theorem SameLeader.trans {u} (h : SameLeader s t) (h' : SameLeader t u) : SameLeader s u := by
  obtain ⟨waiters, rfl⟩ := h
  obtain ⟨waiters', rfl⟩ := h'
  exact ⟨waiters', rfl⟩

theorem SameLeader.call (h : SameLeader s t) (req : RenewalRequest) :
    SameLeader (s.call req) (t.call req) := by
  obtain ⟨waiters, rfl⟩ := h
  simp only [Refreshing.call, show (s.withWaiters waiters).active = s.active from rfl]
  split
  · exact ⟨_, rfl⟩
  · exact ⟨_, rfl⟩

theorem SameLeader.step (h : SameLeader s t) (event : Event τ) :
    SameLeader (Refreshing.step hasRefreshToken s event) (Refreshing.step hasRefreshToken t event) := by
  cases hwait : event.waiter? with
  | some => exact ((SameLeader.own hasRefreshToken s hwait).symm.trans h).trans (.own hasRefreshToken t hwait)
  | none =>
    cases hcall : event.isCall with
    | false =>
      obtain ⟨waiters, rfl⟩ := h
      exact ⟨waiters, step_withWaiters hasRefreshToken s waiters hwait hcall⟩
    | true =>
      cases event with
      | call req => exact h.call req
      | _ => cases hcall

theorem SameLeader.run (evs : List (Event τ)) : ∀ {s t}, SameLeader s t →
    SameLeader (Lib.run (Refreshing.step hasRefreshToken) s evs)
      (Lib.run (Refreshing.step hasRefreshToken) t evs) := by
  induction evs with
  | nil => intro s t h; exact h
  | cons event evs ih => intro s t h; exact ih (h.step hasRefreshToken event)

end Waiters

theorem step_other (hasRefreshToken : τ → Bool) {j : ℕ} {waiter}
    (hj : s.waiters[j]? = some waiter) (hoth : event.waiter? ≠ some j) :
    (step hasRefreshToken s event).waiters[j]? = some waiter := by
  cases hwait : event.waiter? with
  | some k =>
    have hkj : k ≠ j := fun h => hoth (hwait.trans (congrArg some h))
    obtain h | ⟨stage, h⟩ := step_own hasRefreshToken s hwait
    · rw [h, hj]
    · rw [h]
      exact (getElem?_modify_ne _ _ hkj).trans hj
  | none =>
    cases hcall : event.isCall with
    | false => rw [step_waiters hasRefreshToken s hwait hcall, hj]
    | true =>
      cases event with
      | call =>
        simp only [step, call]
        split
        · obtain ⟨hlt, -⟩ := List.getElem?_eq_some_iff.1 hj
          exact (getElem?_append_left hlt).trans hj
        · exact hj
      | _ => cases hcall

/-- The entry of a waiter that has not left is over, with this outcome. -/
structure Told (j i : ℕ) (outcome : RefreshOutcome τ) (s : Refreshing τ) : Prop where
  leased : Leased s.active s.entries s.waiters
  finished : ∃ entry, s.entries[i]? = some entry ∧ entry.stage = .done outcome
  stays : ∃ stage, s.waiters[j]? = some ⟨i, stage⟩ ∧ stage ≠ .gone

section Told

variable (hasRefreshToken : τ → Bool) {s : Refreshing τ} {i j : ℕ} {outcome : RefreshOutcome τ}

theorem Told.entry (h : Told j i outcome s) :
    ∃ entry, s.entries[i]? = some entry ∧ entry.result = some outcome ∧ entry.notified = true := by
  obtain ⟨entry, hent, hdone⟩ := h.finished
  refine ⟨entry, hent, ?_, ?_⟩
  · rw [h.leased.result i entry hent, hdone]
    rfl
  · rw [h.leased.notified i entry hent, hdone]
    rfl

theorem Told.waiter (h : Told j i outcome s) {stage} (hj : s.waiters[j]? = some ⟨i, stage⟩)
    (hcan : event ≠ .cancelWaiter j) (hdrop : event ≠ .dropWaiter j) :
    ∃ next, (step hasRefreshToken s event).waiters[j]? = some ⟨i, next⟩ ∧ (stage ≠ .gone → next ≠ .gone) ∧
      (next = stage ∧ (waiting j stage).head? ≠ some event ∨ waiting j stage = event :: waiting j next) := by
  obtain ⟨entry, hent, hres, hnot⟩ := h.entry
  by_cases hoth : event.waiter? = some j
  · have hidle : ∀ (event : Event τ), (waiting j stage).head? ≠ some event →
        step hasRefreshToken s event = s → ∃ next, (step hasRefreshToken s event).waiters[j]? = some ⟨i, next⟩ ∧
        (stage ≠ .gone → next ≠ .gone) ∧
        (next = stage ∧ (waiting j stage).head? ≠ some event ∨ waiting j stage = event :: waiting j next) := by
      intro event hhead hs
      exact ⟨stage, by rw [hs, hj], id, .inl ⟨rfl, hhead⟩⟩
    cases event with
    | register =>
      cases hoth
      cases stage with
      | registering =>
        refine ⟨.looking (s.entries[i]?.any (·.notified)), ?_, nofun, .inr rfl⟩
        simp only [step, register, hj]
        exact getElem?_modify_self hj
      | _ => exact hidle _ nofun (by simp [step, register, hj])
    | look =>
      cases hoth
      cases stage with
      | looking =>
        refine ⟨.returned outcome, ?_, nofun, .inr rfl⟩
        simp only [step, look, hj, hent, bind_some, hres]
        exact getElem?_modify_self hj
      | _ => exact hidle _ nofun (by simp [step, look, hj])
    | wake =>
      cases hoth
      cases stage with
      | awaiting late =>
        obtain ⟨other, hoth, hsd⟩ := h.leased.waiter j _ hj
        obtain rfl : late = false := hsd
        refine ⟨.registering, ?_, nofun, .inr rfl⟩
        simp only [step, wake, hj, hent, any_some, hnot, Bool.not_false, Bool.and_self, if_true]
        exact getElem?_modify_self hj
      | _ => exact hidle _ nofun (by simp [step, wake, hj])
    | cancelWaiter => cases hoth; exact absurd rfl hcan
    | dropWaiter => cases hoth; exact absurd rfl hdrop
    | _ => cases hoth
  · refine ⟨stage, step_other hasRefreshToken hj hoth, id, .inl ⟨rfl, fun hhead => hoth ?_⟩⟩
    cases stage <;> cases hhead <;> rfl

theorem Told.step (h : Told j i outcome s) (hcan : event ≠ .cancelWaiter j)
    (hdrop : event ≠ .dropWaiter j) : Told j i outcome (Refreshing.step hasRefreshToken s event) := by
  have hmove := step_move hasRefreshToken s event
  obtain ⟨entry, hent, hdone⟩ := h.finished
  obtain ⟨stage, hj, hstays⟩ := h.stays
  obtain ⟨next, hnext, hstays', -⟩ := h.waiter hasRefreshToken hj hcan hdrop
  refine ⟨h.leased.move hmove, ?_, next, hnext, hstays' hstays⟩
  have hset : settled entry.stage = some outcome := by rw [hdone]; rfl
  obtain ⟨last, hlast, hset, hsub⟩ := hmove.settled hent hset
  rw [hdone] at hsub
  exact ⟨last, hlast, done_of_settled hset (sublist_nil.1 hsub)⟩

/-- The steps left to waiter `j`. -/
def waiterTodo (j : ℕ) (s : Refreshing τ) : List (Event τ) := ((s.waiterStage j).map (waiting j)).getD []

theorem waiterStage_of_waiter {waiter} (h : s.waiters[j]? = some waiter) : s.waiterStage j = some waiter.stage := by
  simp [waiterStage, h]

theorem waiterTodo_of_waiter {waiter} (h : s.waiters[j]? = some waiter) : waiterTodo j s = waiting j waiter.stage := by
  rw [waiterTodo, waiterStage_of_waiter h]
  rfl

theorem waiting_sublist (j : ℕ) (stage : WaiterStage τ) :
    (waiting j stage).Sublist [.wake j, .register j, .look j] := by
  cases stage with
  | registering => exact sublist_cons_self _ _
  | looking => exact (sublist_cons_self _ _).trans (sublist_cons_self _ _)
  | awaiting => exact Sublist.refl _
  | returned | gone => exact nil_sublist _

theorem waiter_observes (h : Told j i outcome s) (evs : List (Event τ))
    (hstay : ∀ event ∈ evs, event ≠ .cancelWaiter j ∧ event ≠ .dropWaiter j)
    (hevs : [Event.wake j, .register j, .look j].Sublist evs) :
    (run (step hasRefreshToken) s evs).waiterStage j = some (.returned outcome) := by
  obtain ⟨stage, hj, -⟩ := h.stays
  have hrun := @run_finishes _ _ (step hasRefreshToken) (Told j i outcome)
    (fun event => event ≠ .cancelWaiter j ∧ event ≠ .dropWaiter j) (waiterTodo j) ?_ ?_ ?_ evs s hstay h
    (by rw [waiterTodo_of_waiter hj]; exact (waiting_sublist j stage).trans hevs)
  · obtain ⟨htold, htodo⟩ := hrun
    obtain ⟨last, hlast, hstays⟩ := htold.stays
    obtain ⟨entry, hent, hres, -⟩ := htold.entry
    rw [waiterTodo_of_waiter hlast] at htodo
    rw [waiterStage_of_waiter hlast]
    cases last with
    | returned other =>
      obtain ⟨_, hs, hsd⟩ := htold.leased.waiter j _ hlast
      cases hent.symm.trans hs
      exact congrArg (fun outcome => some (WaiterStage.returned outcome))
        (some.inj ((show entry.result = some other from hsd).symm.trans hres))
    | gone => exact absurd rfl hstays
    | _ => cases htodo
  · rintro s event ⟨hcan, hdrop⟩ h
    exact h.step hasRefreshToken hcan hdrop
  · rintro s event ⟨hcan, hdrop⟩ h
    obtain ⟨stage, hj, -⟩ := h.stays
    obtain ⟨next, hnext, -, ⟨hs, -⟩ | hhead⟩ := h.waiter hasRefreshToken hj hcan hdrop
    · rw [waiterTodo_of_waiter hnext, waiterTodo_of_waiter hj, hs]
    · rw [waiterTodo_of_waiter hnext, waiterTodo_of_waiter hj, hhead]
      exact sublist_cons_self _ _
  · rintro s event rest ⟨hcan, hdrop⟩ h htodo
    obtain ⟨stage, hj, -⟩ := h.stays
    rw [waiterTodo_of_waiter hj] at htodo
    obtain ⟨next, hnext, -, ⟨-, hhead⟩ | hhead⟩ := h.waiter hasRefreshToken hj hcan hdrop
    · exact absurd (by rw [htodo]; rfl) hhead
    · rw [waiterTodo_of_waiter hnext]
      cases htodo.symm.trans hhead
      exact Sublist.refl _

end Told

/-- The store is written by other writers, and by a leader whose generation is the stored one. -/
theorem step_store (hasRefreshToken : τ → Bool) (s : Refreshing τ) (event : Event τ) :
    (step hasRefreshToken s event).store = s.store ∨
      (∃ expectedGeneration tokens, event = .write expectedGeneration tokens) ∨
      ∃ i started tokens cur, event = .commit i ∧ s.stage i = some (.renewed started tokens) ∧
        s.store = some cur ∧ cur.generation = started.generation := by
  have hown : ∀ (j : ℕ) (event : Event τ), event.waiter? = some j →
      (step hasRefreshToken s event).store = s.store := by
    intro j event hwait
    obtain ⟨waiters, h⟩ := SameLeader.own hasRefreshToken s hwait
    rw [h]
    rfl
  cases event with
  | call => left; simp only [step, call]; split <;> rfl
  | load => left; simp only [step, load]; split <;> rfl
  | answer i answer =>
    left
    simp only [step, Refreshing.answer]
    split
    · cases answer <;> rfl
    · rfl
  | commit i =>
    simp only [step, Refreshing.commit]
    split
    next started tokens hstg =>
      split
      next => exact .inl rfl
      next cur hsto =>
        split_ifs with hgen
        · exact .inr (.inr ⟨i, started, tokens, cur, rfl, hstg, hsto, hgen⟩)
        · exact .inl rfl
    next => exact .inl rfl
  | reload =>
    left
    simp only [step, reload]
    split
    · split
      · rfl
      · split_ifs <;> rfl
    · rfl
  | cancelLeader => left; simp only [step, cancelLeader]; split <;> rfl
  | dropLeader => left; simp only [step, dropLeader]; split <;> rfl
  | publish => left; simp only [step, publish]; split <;> rfl
  | remove => left; simp only [step, remove]; split <;> rfl
  | notify => left; simp only [step, notify]; split <;> rfl
  | write => exact .inr (.inl ⟨_, _, rfl⟩)
  | register j | look j | wake j | cancelWaiter j | dropWaiter j => exact .inl (hown j _ rfl)

/-- Generations are not exhausted. -/
def Room (s : Refreshing τ) (_ : Event τ) : Prop := ∀ snapshot, s.store = some snapshot → snapshot.generation < u64Max

/-- What single flight means in a state and for what can follow it. -/
structure SingleFlight (hasRefreshToken : τ → Bool) (s : Refreshing τ) : Prop where
  /-- At most one refresh operation runs. -/
  exclusive : ∀ (i j : ℕ) (a b : RefreshEntry τ), s.entries[i]? = some a → s.entries[j]? = some b →
    a.stage.operating = true → b.stage.operating = true → i = j
  /-- At most one renewal from a generation returned tokens. -/
  renewals : s.renewals.Nodup
  /-- A refresh replaces the token set it started from. -/
  replaced : ∀ event, (step hasRefreshToken s event).store ≠ s.store →
    (∃ expectedGeneration tokens, event = .write expectedGeneration tokens) ∨
      ∃ i started tokens, event = .commit i ∧ s.stage i = some (.renewed started tokens) ∧ s.store = some started
  /-- A waiter that leaves is not noticed by any leader, whatever follows. -/
  unnoticed : ∀ j events,
    SameLeader (run (step hasRefreshToken) s events)
        (run (step hasRefreshToken) s (.cancelWaiter j :: events)) ∧
      SameLeader (run (step hasRefreshToken) s events) (run (step hasRefreshToken) s (.dropWaiter j :: events))
  /-- A dropped leader finishes as a cancelled one. -/
  dropped : ∀ i started, s.stage i = some (.renewing started) →
    (s.dropLeader i).stage i = some (.finishing (.error .cancelled))
  /-- The lease of a leader that finishes is gone after its own sections, whatever comes between. -/
  released : ∀ i outcome, s.stage i = some (.finishing outcome) → ∀ events,
    [Event.publish i, .remove i, .notify i].Sublist events →
    (run (step hasRefreshToken) s events).stage i = some (.done outcome) ∧
      (run (step hasRefreshToken) s events).active ≠ some i
  /-- A waiter returns nothing but the leader's outcome. -/
  agrees : ∀ (j i : ℕ) (outcome : RefreshOutcome τ), s.waiters[j]? = some ⟨i, .returned outcome⟩ →
    (s.stage i).bind LeaderStage.outcome = some outcome
  /-- Every waiter of a leader that is done and does not leave returns its outcome by its own steps. -/
  observes : ∀ (i j : ℕ) (outcome : RefreshOutcome τ) (stage : WaiterStage τ),
    s.stage i = some (.done outcome) → s.waiters[j]? = some ⟨i, stage⟩ → stage ≠ .gone → ∀ events,
    (∀ event ∈ events, event ≠ .cancelWaiter j ∧ event ≠ .dropWaiter j) →
    [Event.wake j, .register j, .look j].Sublist events →
    (run (step hasRefreshToken) s events).waiterStage j = some (.returned outcome)

theorem stage_dropLeader {i : ℕ} {started} (h : s.stage i = some (.renewing started)) :
    (s.dropLeader i).stage i = some (.finishing (.error .cancelled)) := by
  obtain ⟨entry, hentry, -⟩ := stage_eq_some h
  simp only [dropLeader, h]
  exact stage_of_entry (s := s.setStage i (.finishing (.error .cancelled))) (getElem?_modify_self hentry)

theorem singleFlight_of {hasRefreshToken}
    (hlsd : Leased s.active s.entries s.waiters) (hspent : Spent s.entries s.store s.renewals) :
    SingleFlight hasRefreshToken s where
  exclusive := fun _ _ _ _ hi hj ha hb => hlsd.unique hi hj (holds_of_operating ha) (holds_of_operating hb)
  renewals := hspent.nodup
  replaced := by
    intro event hchg
    obtain h | h | ⟨i, started, tokens, cur, rfl, hstg, hsto, hgen⟩ := step_store hasRefreshToken s event
    · exact absurd h hchg
    · exact .inl h
    · obtain ⟨entry, hent, hren⟩ := stage_eq_some hstg
      obtain rfl := hspent.started_eq hent hren hsto hgen
      exact .inr ⟨i, cur, tokens, rfl, hstg, hsto⟩
  unnoticed := by
    intro j evs
    exact ⟨.run hasRefreshToken evs (.own hasRefreshToken s rfl),
      .run hasRefreshToken evs (.own hasRefreshToken s rfl)⟩
  dropped := fun _ _ h => stage_dropLeader h
  released := by
    intro i outcome hstg evs hevs
    have hdone := leader_finishes hasRefreshToken hstg evs hevs
    refine ⟨hdone, fun hactv => ?_⟩
    have hlsd' := @run_invariant _ _ (step hasRefreshToken)
      (fun s => Leased s.active s.entries s.waiters)
      (fun s event h => h.move (step_move hasRefreshToken s event)) evs s hlsd
    obtain ⟨entry, hent, hstg'⟩ := stage_eq_some hdone
    have hhol := (hlsd'.lease i entry hent).2 hactv
    rw [hstg'] at hhol
    cases hhol
  agrees := by
    intro j i outcome hj
    obtain ⟨entry, hent, hsd⟩ := hlsd.waiter j _ hj
    rw [stage_of_entry hent]
    exact (hlsd.result i entry hent).symm.trans hsd
  observes := by
    intro i j outcome stage hstg hj hstays evs hstay hevs
    exact waiter_observes hasRefreshToken ⟨hlsd, stage_eq_some hstg, stage, hj, hstays⟩ evs hstay hevs

variable (store : Option (TokenSnapshot τ))

theorem leased_start : Leased (start store).active (start store).entries (start store).waiters :=
  ⟨fun _ _ h => absurd h nofun, fun _ _ h => absurd h nofun, fun _ _ h => absurd h nofun,
    fun _ h => absurd h nofun, fun _ _ h => absurd h nofun⟩

theorem spent_start : Spent (start store).entries (start store).store (start store).renewals :=
  ⟨fun _ _ _ h => absurd h nofun, fun _ _ _ h => absurd h nofun, fun _ h => absurd h nofun, nodup_nil⟩

/-- In every interleaving of calls, writers, cancellations and dropped callers that does not exhaust
the generations, token refresh is single flight. -/
theorem token_refresh_is_single_flight (hasRefreshToken : τ → Bool) (store : Option (TokenSnapshot τ))
    (events : List (Event τ)) (h : StepsMeet (step hasRefreshToken) Room (start store) events) :
    SingleFlight hasRefreshToken (run (step hasRefreshToken) (start store) events) := by
  have hrun := @run_of_stepsMeet _ _ (step hasRefreshToken) Room
    (fun s => Leased s.active s.entries s.waiters ∧ Spent s.entries s.store s.renewals)
    (fun s event hrm ⟨hlsd, hspent⟩ =>
      ⟨hlsd.move (step_move hasRefreshToken s event), hspent.move hlsd hrm (step_move hasRefreshToken s event)⟩)
    events (start store) h ⟨leased_start store, spent_start store⟩
  exact singleFlight_of hrun.1 hrun.2

/-- Two calls: the second waits while the first renews and writes. -/
def twoCallers : List (Event ℕ) :=
  [.call ⟨none, .refreshToken⟩, .load 0, .call ⟨none, .grantAware⟩, .register 0, .look 0,
    .answer 0 (.tokens 8), .commit 0]

instance (s : Refreshing ℕ) (event : Event ℕ) : Decidable (Room s event) :=
  match h : s.store with
  | none => .isTrue (by rw [Room, h]; nofun)
  | some snapshot =>
    if hlt : snapshot.generation < u64Max then
      .isTrue (by rw [Room, h]; rintro _ ⟨⟩; exact hlt)
    else .isFalse (by rw [Room, h]; exact fun hroom => hlt (hroom snapshot rfl))

theorem two_callers_share_a_renewal :
    SingleFlight (fun _ => true) (run (step fun _ => true) (start (some ⟨3, 7⟩)) twoCallers) :=
  token_refresh_is_single_flight (fun _ => true) (some ⟨3, 7⟩) twoCallers (by decide +kernel)

end Pooler.Refreshing
