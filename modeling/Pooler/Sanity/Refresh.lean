import Pooler.Spec.Auth.Refresh

/-! What the events keep of the leases, the waiters and the stored tokens. -/

namespace Pooler

open Option List LeaderStage

variable {τ : Type} {stage : LeaderStage τ}

namespace LeaderStage

/-- The outcome once it is published. -/
def outcome : LeaderStage τ → Option (RefreshOutcome τ)
  | .published outcome | .removed outcome | .done outcome => some outcome
  | _ => none

def isDone : LeaderStage τ → Bool
  | .done _ => true
  | _ => false

/-- The entry is in the coordinator's map. -/
def holds : LeaderStage τ → Bool
  | .removed _ | .done _ => false
  | _ => true

/-- The refresh operation is running. -/
def operating : LeaderStage τ → Bool
  | .acquired | .renewing _ | .renewed _ _ | .rejected _ => true
  | _ => false

/-- The snapshot the operation works on. -/
def started : LeaderStage τ → Option (TokenSnapshot τ)
  | .renewing started | .renewed started _ | .rejected started => some started
  | _ => none

theorem holds_of_operating (h : stage.operating = true) : stage.holds = true := by
  cases stage <;> first | rfl | cases h

theorem not_isDone (h : stage.outcome = none) : stage.isDone = false := by
  cases stage <;> first | rfl | cases h

theorem outcome_of_operating (h : stage.operating = true) : stage.outcome = none := by
  cases stage <;> first | rfl | cases h

end LeaderStage

namespace Refreshing

/-- What a waiter knows of its entry. -/
def WaiterSound (entry : RefreshEntry τ) : WaiterStage τ → Prop
  | .looking late => late = true → entry.notified = true
  | .awaiting late => late = false
  | .returned outcome => entry.result = some outcome
  | _ => True

/-- Leases and waiters. -/
structure Leased (active : Option ℕ) (entries : List (RefreshEntry τ)) (waiters : List (RefreshWaiter τ)) :
    Prop where
  result : ∀ (i : ℕ) (entry : RefreshEntry τ), entries[i]? = some entry → entry.result = entry.stage.outcome
  notified : ∀ (i : ℕ) (entry : RefreshEntry τ), entries[i]? = some entry → entry.notified = entry.stage.isDone
  lease : ∀ (i : ℕ) (entry : RefreshEntry τ), entries[i]? = some entry → (entry.stage.holds = true ↔ active = some i)
  inRange : ∀ i, active = some i → i < entries.length
  waiter : ∀ (j : ℕ) (waiter : RefreshWaiter τ), waiters[j]? = some waiter →
    ∃ entry, entries[waiter.entry]? = some entry ∧ WaiterSound entry waiter.stage

variable {active : Option ℕ} {entries : List (RefreshEntry τ)} {waiters : List (RefreshWaiter τ)} {i : ℕ} {α : Type}
  {l : List α} {f : α → α}

theorem getElem?_modify_cases {j : ℕ} {b : α}
    (h : (l.modify i f)[j]? = some b) : (i = j ∧ ∃ a, l[j]? = some a ∧ b = f a) ∨ (i ≠ j ∧ l[j]? = some b) := by
  by_cases hij : i = j
  · subst hij
    rw [getElem?_modify_eq] at h
    obtain ⟨a, ha, rfl⟩ := map_eq_some_iff.1 h
    exact .inl ⟨rfl, a, ha, rfl⟩
  · rw [getElem?_modify_ne _ _ hij] at h
    exact .inr ⟨hij, h⟩

theorem getElem?_modify_self {a : α} (h : l[i]? = some a) : (l.modify i f)[i]? = some (f a) := by
  rw [getElem?_modify_eq, h]
  rfl

theorem getElem?_concat_cases {a b : α} {j : ℕ} (h : (l ++ [a])[j]? = some b) :
    (j < l.length ∧ l[j]? = some b) ∨ (j = l.length ∧ b = a) := by
  by_cases hlt : j < l.length
  · rw [getElem?_append_left hlt] at h
    exact .inl ⟨hlt, h⟩
  · rw [List.getElem?_append_right (Nat.le_of_not_lt hlt)] at h
    obtain ⟨hzero, -⟩ := List.getElem?_eq_some_iff.1 h
    have : j = l.length := by simp only [length_singleton] at hzero; omega
    exact .inr ⟨this, mem_singleton.1 (mem_of_getElem? h)⟩

theorem forall_getElem?_modify {p : ℕ → α → Prop} {a : α}
    (hi : l[i]? = some a) (hself : p i (f a)) (hoths : ∀ j b, l[j]? = some b → i ≠ j → p j b) :
    ∀ j b, (l.modify i f)[j]? = some b → p j b := by
  intro j b hj
  obtain ⟨rfl, c, hc, rfl⟩ | ⟨hij, hj⟩ := getElem?_modify_cases hj
  · cases hi.symm.trans hc
    exact hself
  · exact hoths j b hj hij

theorem forall_getElem?_concat {p : ℕ → α → Prop} {a : α} (hlast : p l.length a)
    (hinit : ∀ j b, l[j]? = some b → p j b) : ∀ j b, (l ++ [a])[j]? = some b → p j b := by
  intro j b hj
  obtain ⟨-, hj⟩ | ⟨rfl, rfl⟩ := getElem?_concat_cases hj
  · exact hinit j b hj
  · exact hlast

variable {entry : RefreshEntry τ} {outcome : RefreshOutcome τ}

theorem Leased.append (h : Leased none entries waiters) (req : RenewalRequest) :
    Leased (some entries.length) (entries ++ [⟨req, .acquired, none, false⟩]) waiters := by
  refine ⟨forall_getElem?_concat rfl h.result, forall_getElem?_concat rfl h.notified,
    forall_getElem?_concat (iff_of_true rfl rfl) fun j entry hj => ?_, fun j hj => ?_, fun j waiter hj => ?_⟩
  · refine iff_of_false (fun hhol => ?_) fun heq => ?_
    · cases (h.lease j entry hj).1 hhol
    · exact absurd (Option.some.inj heq).symm (Nat.ne_of_lt (List.getElem?_eq_some_iff.1 hj).1)
  · obtain rfl := some.inj hj
    simp
  · obtain ⟨entry, hent, hsd⟩ := h.waiter j waiter hj
    obtain ⟨hlt, -⟩ := List.getElem?_eq_some_iff.1 hent
    exact ⟨entry, by rw [getElem?_append_left hlt, hent], hsd⟩

section

variable (h : Leased active entries waiters)
include h

theorem Leased.unique {j : ℕ} {a b} (hi : entries[i]? = some a) (hj : entries[j]? = some b) (ha : a.stage.holds = true)
    (hb : b.stage.holds = true) : i = j :=
  some.inj (((h.lease i a hi).1 ha).symm.trans ((h.lease j b hj).1 hb))

section

variable (hent : entries[i]? = some entry)
include hent

theorem Leased.modify (f : RefreshEntry τ → RefreshEntry τ) {active' : Option ℕ}
    (hres : (f entry).result = (f entry).stage.outcome) (hnot : (f entry).notified = (f entry).stage.isDone)
    (hls : (f entry).stage.holds = true ↔ active' = some i)
    (hoths : ∀ j other, entries[j]? = some other → j ≠ i →
      (active = some j ↔ active' = some j)) (hactv : ∀ j, active' = some j → j < entries.length)
    (hwaiters : ∀ stage, WaiterSound entry stage → WaiterSound (f entry) stage) :
    Leased active' (entries.modify i f) waiters where
  result := forall_getElem?_modify hent hres fun j other hj _ => h.result j other hj
  notified := forall_getElem?_modify hent hnot fun j other hj _ => h.notified j other hj
  lease := forall_getElem?_modify hent hls fun j other hj hij =>
    (h.lease j other hj).trans (hoths j other hj (Ne.symm hij))
  inRange := by
    intro j hj
    rw [length_modify]
    exact hactv j hj
  waiter := by
    intro j waiter hj
    obtain ⟨other, hoth, hsd⟩ := h.waiter j waiter hj
    by_cases hi : i = waiter.entry
    · subst hi
      cases hent.symm.trans hoth
      exact ⟨f entry, getElem?_modify_self hent, hwaiters _ hsd⟩
    · exact ⟨other, (getElem?_modify_ne _ _ hi).trans hoth, hsd⟩

theorem Leased.setStage (hhol : entry.stage.holds = true)
    (hhol' : stage.holds = true) (hout : entry.stage.outcome = none) (hout' : stage.outcome = none) :
    Leased active (entries.modify i fun entry => { entry with stage := stage }) waiters := by
  have hactv := (h.lease i entry hent).1 hhol
  refine h.modify hent _ ?_ ?_ (iff_of_true hhol' hactv) (fun _ _ _ _ => Iff.rfl) h.inRange fun _ hsd => ?_
  · exact (h.result i entry hent).trans (hout.trans hout'.symm)
  · exact (h.notified i entry hent).trans ((not_isDone hout).trans (not_isDone hout').symm)
  next stage' => cases stage' <;> exact hsd

theorem Leased.publish (hstg : entry.stage = .finishing outcome) :
    Leased active (entries.modify i fun entry =>
      { entry with stage := .published outcome, result := some outcome }) waiters := by
  have hn : entry.result = none := by rw [h.result i entry hent, hstg]; rfl
  have hnot : entry.notified = false := by rw [h.notified i entry hent, hstg]; rfl
  have hactv := (h.lease i entry hent).1 (by rw [hstg]; rfl)
  refine h.modify hent _ rfl hnot (iff_of_true rfl hactv) (fun _ _ _ _ => Iff.rfl) h.inRange fun stage hsd => ?_
  cases stage with
  | returned other =>
    have : entry.result = some other := hsd
    rw [hn] at this
    cases this
  | _ => exact hsd

theorem Leased.remove (hstg : entry.stage = .published outcome) :
    Leased (if active = some i then none else active)
      (entries.modify i fun entry => { entry with stage := .removed outcome }) waiters := by
  have hactv := (h.lease i entry hent).1 (by rw [hstg]; rfl)
  have hres : entry.result = some outcome := by rw [h.result i entry hent, hstg]; rfl
  have hnot : entry.notified = false := by rw [h.notified i entry hent, hstg]; rfl
  rw [if_pos hactv]
  refine h.modify hent _ hres hnot (iff_of_false nofun nofun) ?_ (by simp) fun stage hsd => ?_
  · intro j other _ hij
    refine iff_of_false (fun hj => hij ?_) nofun
    exact some.inj (hj.symm.trans hactv)
  · cases stage <;> exact hsd

theorem Leased.notify (hstg : entry.stage = .removed outcome) :
    Leased active (entries.modify i fun entry => { entry with stage := .done outcome, notified := true }) waiters := by
  have hres : entry.result = some outcome := by rw [h.result i entry hent, hstg]; rfl
  have hls := h.lease i entry hent
  rw [hstg] at hls
  refine h.modify hent _ hres rfl hls (fun _ _ _ _ => Iff.rfl) h.inRange fun stage hsd => ?_
  cases stage with
  | looking => exact fun _ => rfl
  | _ => exact hsd

end

theorem Leased.join (hactv : active = some i) : Leased active entries (waiters ++ [⟨i, .registering⟩]) := by
  refine ⟨h.result, h.notified, h.lease, h.inRange, forall_getElem?_concat ?_ h.waiter⟩
  exact ⟨entries.get ⟨i, h.inRange i hactv⟩, getElem?_eq_getElem _, trivial⟩

theorem Leased.setWaiter {j : ℕ} {waiter stage} (hwait : waiters[j]? = some waiter)
    (hent : entries[waiter.entry]? = some entry) (hsd : WaiterSound entry stage) :
    Leased active entries (waiters.modify j fun waiter => { waiter with stage := stage }) := by
  exact ⟨h.result, h.notified, h.lease, h.inRange,
    forall_getElem?_modify hwait ⟨entry, hent, hsd⟩ fun k other hk _ => h.waiter k other hk⟩

end

variable (store : Option (TokenSnapshot τ))

/-- The snapshot in the store is the given one or a later one. -/
def Reached (snapshot : TokenSnapshot τ) : Prop :=
  ∃ current, store = some current ∧ (snapshot.generation < current.generation ∨ snapshot = current)

/-- The store has gone past a generation. -/
def Past (generation : ℕ) : Prop := ∃ current, store = some current ∧ generation < current.generation

/-- What the running operations know of the store and of the renewals before them. -/
structure Spent (entries : List (RefreshEntry τ)) (store : Option (TokenSnapshot τ)) (renewals : List ℕ) :
    Prop where
  started : ∀ (i : ℕ) (entry : RefreshEntry τ) (snapshot : TokenSnapshot τ), entries[i]? = some entry →
    entry.stage.started = some snapshot → Reached store snapshot
  fresh : ∀ (i : ℕ) (entry : RefreshEntry τ) (snapshot : TokenSnapshot τ), entries[i]? = some entry →
    entry.stage = .renewing snapshot → snapshot.generation ∉ renewals
  spent : ∀ generation ∈ renewals, Past store generation ∨
    ∃ (i : ℕ) (entry : RefreshEntry τ) (snapshot : TokenSnapshot τ) (tokens : τ),
      entries[i]? = some entry ∧ entry.stage = .renewed snapshot tokens ∧ snapshot.generation = generation
  nodup : renewals.Nodup

variable {store : Option (TokenSnapshot τ)} {renewals : List ℕ}

theorem Spent.modify (h : Spent entries store renewals)
    (hent : entries[i]? = some entry) (f : RefreshEntry τ → RefreshEntry τ)
    (hbeg : ∀ snapshot, (f entry).stage.started = some snapshot → Reached store snapshot)
    (hfr : ∀ snapshot, (f entry).stage = .renewing snapshot → snapshot.generation ∉ renewals)
    (hspent : ∀ snapshot tokens, entry.stage = .renewed snapshot tokens → Past store snapshot.generation) :
    Spent (entries.modify i f) store renewals where
  started := fun j other snapshot hj => forall_getElem?_modify hent (hbeg snapshot)
    (fun j other hj _ => h.started j other snapshot hj) j other hj
  fresh := fun j other snapshot hj => forall_getElem?_modify hent (hfr snapshot)
    (fun j other hj _ => h.fresh j other snapshot hj) j other hj
  spent := by
    intro generation hm
    obtain hpast | ⟨j, other, snapshot, tokens, hj, hoth, rfl⟩ := h.spent generation hm
    · exact .inl hpast
    by_cases hij : i = j
    · subst hij
      cases hent.symm.trans hj
      exact .inl (hspent snapshot tokens hoth)
    · exact .inr ⟨j, other, snapshot, tokens, (getElem?_modify_ne _ _ hij).trans hj, hoth, rfl⟩
  nodup := h.nodup

variable {current : TokenSnapshot τ}

theorem lt_next (h : current.generation < u64Max) (tokens : τ) :
    current.generation < (current.next tokens).generation := by
  simp only [TokenSnapshot.next, Lib.satAdd]
  omega

theorem compareAndSwap_same {expectedGeneration : ℕ} (tokens : τ) (h : current.generation = expectedGeneration) :
    compareAndSwap (some current) expectedGeneration tokens = some (current.next tokens) :=
  congrArg some (if_pos h)

theorem Spent.advance {current next} (h : Spent entries (some current) renewals)
    (hlt : current.generation < next.generation) : Spent entries (some next) renewals where
  started := by
    intro i entry snapshot hent hbeg
    obtain ⟨_, ⟨⟩, hbef | rfl⟩ := h.started i entry snapshot hent hbeg
    · exact ⟨next, rfl, .inl (hbef.trans hlt)⟩
    · exact ⟨next, rfl, .inl hlt⟩
  fresh := h.fresh
  spent := by
    intro generation hm
    obtain ⟨_, ⟨⟩, hpast⟩ | hren := h.spent generation hm
    · exact .inl ⟨next, rfl, hpast.trans hlt⟩
    · exact .inr hren
  nodup := h.nodup

theorem Spent.append (h : Spent entries store renewals) (req : RenewalRequest) :
    Spent (entries ++ [⟨req, .acquired, none, false⟩]) store renewals := by
  refine ⟨fun j entry snapshot => ?_, fun j entry snapshot => ?_, fun generation hm => ?_, h.nodup⟩
  · exact forall_getElem?_concat nofun (fun j entry => h.started j entry snapshot) j entry
  · exact forall_getElem?_concat nofun (fun j entry => h.fresh j entry snapshot) j entry
  · obtain hpast | ⟨j, entry, snapshot, tokens, hj, hren⟩ := h.spent generation hm
    · exact .inl hpast
    · obtain ⟨hlt, -⟩ := List.getElem?_eq_some_iff.1 hj
      exact .inr ⟨j, entry, snapshot, tokens, (getElem?_append_left hlt).trans hj, hren⟩

/-- Everything an event can do. -/
inductive Move (s : Refreshing τ) : Refreshing τ → Prop
  | idle : Move s s
  | enter {request} (hactive : s.active = none) :
      Move s { s with
        active := some s.entries.length, entries := s.entries ++ [⟨request, .acquired, none, false⟩] }
  | join {i : ℕ} (hactive : s.active = some i) :
      Move s { s with waiters := s.waiters ++ [⟨i, .registering⟩] }
  | begin {i entry snapshot} (hentry : s.entries[i]? = some entry)
      (hstage : entry.stage = .acquired) (hstore : s.store = some snapshot) :
      Move s (s.setStage i (.renewing snapshot))
  | renew {i entry started tokens} (hentry : s.entries[i]? = some entry) (hstage : entry.stage = .renewing started) :
      Move s { s.setStage i (.renewed started tokens) with renewals := s.renewals ++ [started.generation] }
  | reject {i entry started} (hentry : s.entries[i]? = some entry)
      (hstage : entry.stage = .renewing started) : Move s (s.setStage i (.rejected started))
  | finish {i : ℕ} {entry : RefreshEntry τ} {outcome : RefreshOutcome τ} (hentry : s.entries[i]? = some entry)
      (hstage : entry.stage.operating = true)
      (hconflict : ∀ started tokens current, entry.stage = .renewed started tokens →
        s.store = some current → current.generation ≠ started.generation) :
      Move s (s.setStage i (.finishing outcome))
  | commit {i entry started current tokens}
      (hentry : s.entries[i]? = some entry) (hstage : entry.stage = .renewed started tokens)
      (hstore : s.store = some current) (hgeneration : current.generation = started.generation) :
      Move s { s.setStage i (.finishing (.ok tokens)) with
        store := compareAndSwap s.store started.generation tokens }
  | publish {i : ℕ} {entry : RefreshEntry τ} {outcome : RefreshOutcome τ} (hentry : s.entries[i]? = some entry)
      (hstage : entry.stage = .finishing outcome) :
      Move s { s with
        entries := s.entries.modify i fun entry => { entry with stage := .published outcome, result := some outcome } }
  | remove {i : ℕ} {entry : RefreshEntry τ} {outcome : RefreshOutcome τ} (hentry : s.entries[i]? = some entry)
      (hstage : entry.stage = .published outcome) :
      Move s { s.setStage i (.removed outcome) with
        active := if s.active = some i then none else s.active }
  | notify {i : ℕ} {entry : RefreshEntry τ} {outcome : RefreshOutcome τ} (hentry : s.entries[i]? = some entry)
      (hstage : entry.stage = .removed outcome) :
      Move s { s with
        entries := s.entries.modify i fun entry => { entry with stage := .done outcome, notified := true } }
  | waiter {j waiter stage} (hwaiter : s.waiters[j]? = some waiter)
      (hsound : Leased s.active s.entries s.waiters →
        ∃ entry, s.entries[waiter.entry]? = some entry ∧ WaiterSound entry stage) :
      Move s (s.setWaiter j stage)
  | write {expectedGeneration tokens} :
      Move s { s with store := compareAndSwap s.store expectedGeneration tokens }

variable {s : Refreshing τ}

theorem stage_eq_some (h : s.stage i = some stage) : ∃ entry, s.entries[i]? = some entry ∧ entry.stage = stage :=
  map_eq_some_iff.1 h

section Moves

variable (hasRefreshToken : τ → Bool) (s : Refreshing τ) (i : ℕ)

theorem move_call (req : RenewalRequest) : Move s (s.call req) := by
  unfold call
  split
  next hactv => exact .join hactv
  next hactv => exact .enter hactv

theorem afterLoad_cases (req : RenewalRequest) (store : Option (TokenSnapshot τ)) :
    (∃ snapshot, store = some snapshot ∧ afterLoad hasRefreshToken req store = .renewing snapshot) ∨
      ∃ outcome, afterLoad hasRefreshToken req store = .finishing outcome := by
  cases store with
  | none => exact .inr ⟨_, rfl⟩
  | some snapshot =>
    simp only [afterLoad]
    split_ifs
    · exact .inr ⟨_, rfl⟩
    · exact .inr ⟨_, rfl⟩
    · exact .inl ⟨snapshot, rfl, rfl⟩

theorem move_load : Move s (s.load hasRefreshToken i) := by
  unfold load
  split
  next req result notified hent =>
    obtain ⟨snapshot, hsto, hload⟩ | ⟨outcome, hload⟩ := afterLoad_cases hasRefreshToken req s.store
    · rw [hload]
      exact .begin hent rfl hsto
    · rw [hload]
      exact .finish hent rfl nofun
  next => exact .idle

theorem move_finish {stage outcome} (h : s.stage i = some stage)
    (hop : stage.operating = true) (hren : ∀ started tokens, stage ≠ .renewed started tokens) :
    Move s (s.setStage i (.finishing outcome)) := by
  obtain ⟨entry, hent, rfl⟩ := stage_eq_some h
  exact .finish hent hop fun started tokens _ hstg => absurd hstg (hren started tokens)

theorem move_answer (answer : ProviderAnswer τ) : Move s (s.answer i answer) := by
  unfold Refreshing.answer
  split
  next hrenew =>
    obtain ⟨entry, hent, hstg⟩ := stage_eq_some hrenew
    cases answer with
    | tokens => exact .renew hent hstg
    | needsReauth => exact .reject hent hstg
    | error => exact move_finish s i hrenew rfl nofun
  next => exact .idle

theorem move_commit : Move s (s.commit i) := by
  unfold Refreshing.commit
  split
  next hren =>
    obtain ⟨entry, hent, hstg⟩ := stage_eq_some hren
    have hop : entry.stage.operating = true := by rw [hstg]; rfl
    split
    next hsto => exact .finish hent hop (by rw [hsto]; nofun)
    next hsto =>
      split_ifs with hgen
      · exact .commit hent hstg hsto hgen
      · refine .finish hent hop fun started' tokens' current' hstg' hsto' => ?_
        cases hstg.symm.trans hstg'
        cases hsto.symm.trans hsto'
        exact hgen
  next => exact .idle

theorem move_reload : Move s (s.reload i) := by
  unfold reload
  split
  next hrej =>
    split
    · exact move_finish s i hrej rfl nofun
    · split_ifs
      · exact move_finish s i hrej rfl nofun
      · exact move_finish s i hrej rfl nofun
  next => exact .idle

theorem move_cancelLeader : Move s (s.cancelLeader i) := by
  unfold cancelLeader
  split
  next hacq => exact move_finish s i hacq rfl nofun
  next hrenew => exact move_finish s i hrenew rfl nofun
  next => exact .idle

theorem move_dropLeader : Move s (s.dropLeader i) := by
  unfold dropLeader
  split
  next hrenew => exact move_finish s i hrenew rfl nofun
  next => exact .idle

theorem move_publish : Move s (s.publish i) := by
  unfold Refreshing.publish
  split
  next hfin =>
    obtain ⟨entry, hent, hstg⟩ := stage_eq_some hfin
    exact .publish hent hstg
  next => exact .idle

theorem move_remove : Move s (s.remove i) := by
  unfold Refreshing.remove
  split
  next hpub =>
    obtain ⟨entry, hent, hstg⟩ := stage_eq_some hpub
    exact .remove hent hstg
  next => exact .idle

theorem move_notify : Move s (s.notify i) := by
  unfold Refreshing.notify
  split
  next hrem =>
    obtain ⟨entry, hent, hstg⟩ := stage_eq_some hrem
    exact .notify hent hstg
  next => exact .idle

theorem move_register : Move s (s.register i) := by
  unfold register
  split
  next hwait =>
    refine .waiter hwait fun hlsd => ?_
    obtain ⟨entry, hent, -⟩ := hlsd.waiter i _ hwait
    refine ⟨entry, hent, fun hlate => ?_⟩
    rw [hent] at hlate
    exact hlate
  next => exact .idle

theorem Leased.not_late (h : Leased active entries waiters) {i : ℕ} {late}
    (hent : entries[i]? = some entry) (hsd : WaiterSound entry (.looking late))
    (hn : entry.result = none) : late = false := by
  cases late with
  | false => rfl
  | true =>
    -- a notified entry is done, and then its outcome is there
    have hdone := (h.notified i entry hent).symm.trans (hsd rfl)
    have hout := (h.result i entry hent).symm.trans hn
    exact absurd hdone (by rw [not_isDone hout]; nofun)

theorem move_look : Move s (s.look i) := by
  unfold look
  split
  next index late hwait =>
    split
    next hres =>
      refine .waiter hwait fun _ => ?_
      obtain ⟨entry, hent, hres⟩ := bind_eq_some_iff.1 hres
      exact ⟨entry, hent, hres⟩
    next hres =>
      refine .waiter hwait fun hlsd => ?_
      obtain ⟨entry, hent, hsd⟩ := hlsd.waiter i _ hwait
      refine ⟨entry, hent, hlsd.not_late hent hsd ?_⟩
      rw [show s.entries[index]? = some entry from hent] at hres
      exact hres
  next => exact .idle

theorem move_wake : Move s (s.wake i) := by
  unfold wake
  split
  next hwait =>
    split_ifs
    · refine .waiter hwait fun hlsd => ?_
      obtain ⟨entry, hent, -⟩ := hlsd.waiter i _ hwait
      exact ⟨entry, hent, trivial⟩
    · exact .idle
  next => exact .idle

theorem move_gone {stage} (h : s.waiterStage i = some stage) : Move s (s.setWaiter i .gone) := by
  obtain ⟨waiter, hwait, -⟩ := map_eq_some_iff.1 h
  refine .waiter hwait fun hlsd => ?_
  obtain ⟨entry, hent, -⟩ := hlsd.waiter i _ hwait
  exact ⟨entry, hent, trivial⟩

theorem move_cancelWaiter : Move s (s.cancelWaiter i) := by
  unfold cancelWaiter
  split_ifs with hpend
  · obtain ⟨stage, hstg, -⟩ := (any_eq_true _ _).1 hpend
    exact move_gone s i hstg
  · exact .idle

theorem move_dropWaiter : Move s (s.dropWaiter i) := by
  unfold dropWaiter
  split
  next hstg => exact move_gone s i hstg
  next => exact .idle

theorem step_move (event : Event τ) : Move s (step hasRefreshToken s event) := by
  cases event with
  | call => exact move_call ..
  | load => exact move_load ..
  | answer => exact move_answer ..
  | commit => exact move_commit ..
  | reload => exact move_reload ..
  | cancelLeader => exact move_cancelLeader ..
  | dropLeader => exact move_dropLeader ..
  | publish => exact move_publish ..
  | remove => exact move_remove ..
  | notify => exact move_notify ..
  | register => exact move_register ..
  | look => exact move_look ..
  | wake => exact move_wake ..
  | cancelWaiter => exact move_cancelWaiter ..
  | dropWaiter => exact move_dropWaiter ..
  | write => exact .write

end Moves

theorem Leased.proceed (h : Leased s.active s.entries s.waiters)
    (hent : s.entries[i]? = some entry) (hop : entry.stage.operating = true)
    (hhol : stage.holds = true) (hout : stage.outcome = none) :
    Leased s.active (s.setStage i stage).entries s.waiters :=
  h.setStage hent (holds_of_operating hop) hhol (outcome_of_operating hop) hout

theorem Leased.move {t} (h : Leased s.active s.entries s.waiters) (hmove : Move s t) :
    Leased t.active t.entries t.waiters := by
  cases hmove with
  | idle => exact h
  | enter hactv =>
    rw [hactv] at h
    exact h.append _
  | join hactv => exact h.join hactv
  | begin hent hstg | renew hent hstg | reject hent hstg =>
    exact h.proceed hent (by rw [hstg]; rfl) rfl rfl
  | finish hent hop => exact h.proceed hent hop rfl rfl
  | commit hent hstg => exact h.proceed hent (by rw [hstg]; rfl) rfl rfl
  | publish hent hstg => exact h.publish hent hstg
  | remove hent hstg => exact h.remove hent hstg
  | notify hent hstg => exact h.notify hent hstg
  | waiter hwait hsd =>
    obtain ⟨entry, hent, hstg⟩ := hsd h
    exact h.setWaiter hwait hent hstg
  | write => exact h

theorem Spent.unspent (h : Spent entries store renewals) (hlsd : Leased active entries waiters)
    {snapshot} (hent : entries[i]? = some entry)
    (hstg : entry.stage = .acquired) (hsto : store = some snapshot) : snapshot.generation ∉ renewals := by
  intro hm
  obtain ⟨current, hcur, hlt⟩ | ⟨j, other, _, _, hoth, hren, -⟩ := h.spent _ hm
  · cases hsto.symm.trans hcur
    exact Nat.lt_irrefl _ hlt
  · obtain rfl := hlsd.unique hent hoth (by rw [hstg]; rfl) (by rw [hren]; rfl)
    cases hent.symm.trans hoth
    cases hstg.symm.trans hren

/-- The stage of an operation that is over neither starts from a snapshot nor is it renewed. -/
theorem Spent.settle (h : Spent entries store renewals)
    (hent : entries[i]? = some entry) (f : RefreshEntry τ → RefreshEntry τ) (hover : (f entry).stage.started = none)
    (hspent : ∀ snapshot tokens, entry.stage = .renewed snapshot tokens → Past store snapshot.generation) :
    Spent (entries.modify i f) store renewals := by
  refine h.modify hent f (fun snapshot hbeg => ?_) (fun snapshot hstg => ?_) hspent
  · rw [hover] at hbeg
    cases hbeg
  · rw [hstg] at hover
    cases hover

variable {tokens : τ} {started : TokenSnapshot τ}

section

variable (h : Spent entries store renewals)
include h

theorem Spent.overtaken (hent : entries[i]? = some entry) (hstg : entry.stage = .renewed started tokens)
    (hcon : ∀ current, store = some current → current.generation ≠ started.generation) :
    Past store started.generation := by
  obtain ⟨current, hsto, hlt | rfl⟩ := h.started i entry started hent (by rw [hstg]; rfl)
  · exact ⟨current, hsto, hlt⟩
  · exact absurd rfl (hcon started hsto)

theorem Spent.renew (hlsd : Leased active entries waiters)
    (hent : entries[i]? = some entry) (hstg : entry.stage = .renewing started) :
    Spent (entries.modify i fun entry => { entry with stage := .renewed started tokens }) store
      (renewals ++ [started.generation]) := by
  have hbeg : Reached store started := h.started i entry started hent (by rw [hstg]; rfl)
  have hmvd := h.modify hent (fun entry => { entry with stage := .renewed started tokens })
    (fun snapshot hsnap => by cases hsnap; exact hbeg) nofun (by rw [hstg]; nofun)
  refine ⟨hmvd.started, ?_, ?_, ?_⟩
  · intro j other snapshot hj hoth
    obtain ⟨rfl, a, ha, rfl⟩ | ⟨hij, hj⟩ := getElem?_modify_cases hj
    · cases hoth
    · -- the lease is held once, so no other entry is renewing
      exact absurd (hlsd.unique hent hj (by rw [hstg]; rfl) (by rw [hoth]; rfl)) hij
  · intro generation hm
    obtain hm | hm := mem_append.1 hm
    · exact hmvd.spent generation hm
    · obtain rfl := mem_singleton.1 hm
      exact .inr ⟨i, _, started, tokens, getElem?_modify_self hent, rfl, rfl⟩
  · exact nodup_append.2 ⟨h.nodup, nodup_singleton _, fun a ha b hb => by
      obtain rfl := mem_singleton.1 hb
      rintro rfl
      exact h.fresh i entry started hent hstg ha⟩

theorem Spent.started_eq {current} (hent : entries[i]? = some entry)
    (hstg : entry.stage = .renewed started tokens) (hsto : store = some current)
    (hgen : current.generation = started.generation) : current = started := by
  obtain ⟨_, hcur, hlt | rfl⟩ := h.started i entry started hent (by rw [hstg]; rfl)
  · cases hsto.symm.trans hcur
    exact absurd hgen (Nat.ne_of_gt hlt)
  · exact some.inj (hsto.symm.trans hcur)

theorem Spent.commit {current} (hrm : ∀ snapshot, store = some snapshot → snapshot.generation < u64Max)
    (hent : entries[i]? = some entry) (hstg : entry.stage = .renewed started tokens)
    (hsto : store = some current) (hgen : current.generation = started.generation) :
    Spent (entries.modify i fun entry => { entry with stage := .finishing outcome })
      (compareAndSwap store started.generation tokens) renewals := by
  subst hsto
  have hlt := lt_next (hrm current rfl) tokens
  rw [compareAndSwap_same tokens hgen]
  refine (h.advance hlt).settle hent _ rfl fun snapshot _ hren => ?_
  cases hstg.symm.trans hren
  exact ⟨_, rfl, hgen ▸ hlt⟩

theorem Spent.write (hrm : ∀ snapshot, store = some snapshot → snapshot.generation < u64Max) (expectedGeneration : ℕ)
    (tokens : τ) : Spent entries (compareAndSwap store expectedGeneration tokens) renewals := by
  cases store with
  | none => exact h
  | some current =>
    by_cases hgen : current.generation = expectedGeneration
    · rw [compareAndSwap_same tokens hgen]
      exact h.advance (lt_next (hrm current rfl) tokens)
    · simpa [compareAndSwap, if_neg hgen] using h

end

theorem Spent.move {t} (h : Spent s.entries s.store s.renewals) (hlsd : Leased s.active s.entries s.waiters)
    (hrm : ∀ snapshot, s.store = some snapshot → snapshot.generation < u64Max) (hmove : Move s t) :
    Spent t.entries t.store t.renewals := by
  cases hmove with
  | idle => exact h
  | enter => exact h.append _
  | join => exact h
  | begin hent hstg hsto =>
    refine h.modify hent _ (fun snapshot hsnap => ?_) (fun snapshot hsnap => ?_) (by rw [hstg]; nofun)
    · cases hsnap
      exact ⟨_, hsto, .inr rfl⟩
    · cases hsnap
      exact h.unspent hlsd hent hstg hsto
  | renew hent hstg => exact h.renew hlsd hent hstg
  | reject hent hstg =>
    refine h.modify hent _ (fun snapshot hsnap => ?_) nofun (by rw [hstg]; nofun)
    cases hsnap
    exact h.started _ _ _ hent (by rw [hstg]; rfl)
  | finish hent hop hcon =>
    exact h.settle hent _ rfl fun started tokens hren =>
      h.overtaken hent hren fun current hsto => hcon started tokens current hren hsto
  | commit hent hstg hsto hgen => exact h.commit hrm hent hstg hsto hgen
  | publish hent hstg | remove hent hstg | notify hent hstg =>
    exact h.settle hent _ rfl (by rw [hstg]; nofun)
  | waiter => exact h
  | write => exact h.write hrm _ _

end Refreshing

end Pooler
