import Pooler.Proofs.Selection
import Pooler.Sanity.Lease

/-! In-flight accounting. The lease world refines counters fenced by generations: a slot is a
counter, its registration order the generation, and a reservation a ticket. -/

namespace Pooler

open Lib Slots Function List World Option Nat

theorem releaseSlot_slot (s : RegistryState) (b : BindingKey) (order : ℕ) (b' : BindingKey) :
    (s.releaseSlot b order).slot b' = if b' = b
      then (s.slot b).map (fun c => if c.generation = order then { c with held := c.held - 1 } else c)
      else s.slot b' := by
  simp only [RegistryState.slot, RegistryState.releaseSlot, get_update, Option.map_map]
  cases hget : s.entries.get b' with
  | none =>
    split_ifs with hb
    · rw [← hb, hget]; rfl
    · rfl
  | some e =>
    have hkey := binding_of_get hget
    by_cases hb : b' = b
    · subst hb
      by_cases ho : e.order = order <;> simp [hget, hkey, ho]
    · simp [hkey, hb]

/-- The slot of a granted lease: it was below its bound, counts one lease more, short of the
counter's width, and no other slot changes. -/
structure GrantedSlot (s s' : RegistryState) (request : SelectionRequest) (lease : LeaseGrant)
    (e : RegistryEntry) : Prop where
  before : s.entries.get lease.binding = some e
  registration : lease.registration = e.registration
  order : lease.registrationOrder = e.order
  below : ∀ limit, e.registration.maxInFlight = some limit → e.inFlight < limit
  not_excluded : lease.binding ∉ request.excludedBindings
  after : s'.entries.get lease.binding = some { e with inFlight := satAdd u32Max e.inFlight 1 }
  others : ∀ b, b ≠ lease.binding → s'.entries.get b = s.entries.get b
  nextOrder : s'.nextOrder = s.nextOrder

variable {request : SelectionRequest} {h : HealthRegistry} {lease : LeaseGrant}

theorem select_grants {s s'} (hsel : selectFromState s h request = (.ok lease, s')) :
    ∃ e, GrantedSlot s s' request lease e := by
  obtain ⟨-, e, mid, hg⟩ := selectFromState_ok hsel
  have hframe := grantedFrame_of_granted hg
  have hbef : s.entries.get lease.binding = some e := by
    rw [hg.binding]
    exact hg.best.1.1
  obtain ⟨e', he', haft, -⟩ := hframe.slot
  obtain rfl : e' = e := some.inj (he'.symm.trans hbef)
  exact ⟨e', {
    before := hbef
    registration := hg.registration
    order := hg.order
    below := hg.best.1.2.below_limit
    not_excluded := by rw [hg.binding]; exact hg.best.1.2.binding_not_excluded
    after := haft
    others := hframe.entries
    nextOrder := hframe.nextOrder }⟩

theorem select_slot {s s'} (hsel : selectFromState s h request = (.ok lease, s')) :
    ∃ c, s.slot lease.binding = some c ∧ lease.registrationOrder = c.generation ∧ s'.nextOrder = s.nextOrder ∧
      s'.slot = Function.update s.slot lease.binding (some { c with held := satAdd u32Max c.held 1 }) := by
  obtain ⟨e, hg⟩ := select_grants hsel
  refine ⟨⟨e.order, e.inFlight⟩, ?_, hg.order, hg.nextOrder, ?_⟩
  · rw [RegistryState.slot, hg.before]
    rfl
  · funext b
    rw [update_apply]
    split_ifs with hb
    · rw [hb, RegistryState.slot, hg.after]
      rfl
    · rw [RegistryState.slot, hg.others b hb, RegistryState.slot]

variable {w : World} {hd : Holding} {r : RegistryInner} {t : ℕ} {i : ℕ}

namespace World

def fenced (w : World) : Fenced (ℕ × BindingKey) where
  slots k := (w.registries k.1).state.slot k.2
  bound k := (w.registries k.1).state.nextOrder
  tickets := w.holdings.map (fun hd => ⟨(hd.registry, hd.grant.binding), hd.grant.registrationOrder, hd.released⟩)
  log := w.releases

/-- The unreleased reservations that registry `i` granted for a binding under an order. -/
def unreleased (w : World) (i : ℕ) (b : BindingKey) (order : ℕ) : ℕ :=
  w.holdings.countP (fun hd => hd.registry = i && hd.grant.binding = b &&
    hd.grant.registrationOrder = order && !hd.released)

/-- The unreleased reservations of registry `i`. -/
def liveIn (w : World) (i : ℕ) : ℕ := w.holdings.countP (fun hd => hd.registry = i && !hd.released)

theorem fenced_live (w : World) (i : ℕ) (b : BindingKey) (order : ℕ) :
    w.fenced.live (i, b) order = w.unreleased i b order := by
  simp only [Fenced.live, fenced, unreleased, countP_map]
  congr 1
  funext hd
  by_cases h1 : hd.registry = i <;> by_cases h2 : hd.grant.binding = b <;> simp [h1, h2]

theorem unreleased_le_liveIn (w : World) (i : ℕ) (b : BindingKey) (order : ℕ) :
    w.unreleased i b order ≤ w.liveIn i := by
  refine countP_mono_left ?_
  intro hd _ h
  simp only [Bool.and_eq_true] at h ⊢
  exact ⟨h.1.1.1, h.2⟩

def nextOrder (w : World) (i : ℕ) : ℕ := (w.registries i).state.nextOrder

theorem setRegistry_nextOrder
    (h : r.state.nextOrder = w.nextOrder i) (j : ℕ) : (w.setRegistry i r).nextOrder j = w.nextOrder j := by
  simp only [nextOrder, setRegistry_registries]
  split_ifs with hj
  · rw [h, hj]; rfl
  · rfl

/-- One slot of a registry changes. -/
theorem setRegistry_slots {b slot} (h : r.state.slot = Function.update (w.registries i).state.slot b slot) :
    (w.setRegistry i r).fenced.slots = Function.update w.fenced.slots (i, b) slot := by
  funext ⟨j, b'⟩
  simp only [setRegistry_registries, update_apply, Prod.mk.injEq, fenced]
  by_cases hj : j = i
  · subst hj
    simp [h, update_apply]
  · simp [hj]

theorem fenced_setRegistry
    (h : SameCounters (w.registries i).state r.state) : (w.setRegistry i r).fenced = w.fenced := by
  refine Fenced.ext (funext fun k => ?_) (funext fun k => setRegistry_nextOrder h.nextOrder k.1) rfl rfl
  simp only [fenced, setRegistry_registries]
  split_ifs with hk
  · rw [h.slot, hk]
  · rfl

section

variable (hget : w.holdings[t]? = some hd)
include hget

theorem fenced_setHolding (state : HoldState) : (w.setHolding t { hd with state }).fenced = w.fenced := by
  obtain ⟨hlt, rfl⟩ := List.getElem?_eq_some_iff.1 hget
  have htick : ((w.holdings.set t { w.holdings[t] with state }).map
      (fun hd => (⟨(hd.registry, hd.grant.binding), hd.grant.registrationOrder, hd.released⟩ :
        FencedTicket (ℕ × BindingKey)))) = w.fenced.tickets := by
    have hself := set_getElem_self (show t < w.fenced.tickets.length by simpa [fenced] using hlt)
    rw [map_set]
    simpa [fenced] using hself
  exact Fenced.ext rfl rfl htick rfl

theorem fenced_getElem :
    w.fenced.tickets[t]? = some ⟨(hd.registry, hd.grant.binding), hd.grant.registrationOrder, hd.released⟩ := by
  simp [fenced, hget]

theorem release_steps : Fenced.Steps w.fenced (w.release t).fenced := by
  cases hr : hd.released with
  | true => rw [release_of_released hget hr]
  | false =>
    rw [release_of_unreleased hget hr]
    have hiss := fenced_getElem hget
    rw [hr] at hiss
    have hstep := Fenced.Step.released w.fenced t _ hiss rfl
    refine Relation.ReflTransGen.single ?_
    convert hstep using 1
    refine Fenced.ext (setRegistry_slots (r := ⟨RegistryState.releaseSlot _ _ _, _⟩) ?_)
      (funext fun k => setRegistry_nextOrder (r := ⟨RegistryState.releaseSlot _ _ _, _⟩) rfl k.1) ?_ rfl
    · funext b
      rw [releaseSlot_slot, update_apply]
      rfl
    · simp [setHolding, fenced]

theorem dropTicket_steps : Fenced.Steps w.fenced (w.dropTicket t).fenced := by
  rw [dropTicket_eq hget, fenced_setHolding (release_holding hget) .gone]
  exact release_steps hget

end

/-- What a selection does to the counters: nothing, or one grant of the slot it chose. -/
theorem selected_steps {mid} (hex : w.fenced.Exact) (hsame : SameSlots (w.registries i).state mid)
    (hsel : selectFromState mid h request = (.ok lease, r.state))
    (hl : ((w.setRegistry i r).issue i (some lease)).liveIn i < 2 ^ 32) :
    Fenced.Steps w.fenced ((w.setRegistry i r).issue i (some lease)).fenced := by
  obtain ⟨c, hc, horder, hnext, hslot⟩ := select_slot hsel
  rw [hsame.slot] at hc hslot
  -- the counter is below the live leases, so that it does not saturate
  have hheld : c.held + 1 < 2 ^ 32 := by
    have hcnt := hex.held (i, lease.binding) c hc
    rw [fenced_live] at hcnt
    have hle := w.unreleased_le_liveIn i lease.binding c.generation
    have hmore : ((w.setRegistry i r).issue i (some lease)).liveIn i = w.liveIn i + 1 := by simp [liveIn, issue]
    omega
  have hsat : satAdd u32Max c.held 1 = c.held + 1 := satAdd_eq_add (by simp only [u32Max]; omega)
  rw [hsat] at hslot
  refine Relation.ReflTransGen.single ?_
  convert Fenced.Step.granted w.fenced (i, lease.binding) c hc using 1
  refine Fenced.ext (setRegistry_slots hslot)
    (funext fun k => setRegistry_nextOrder (hnext.trans hsame.nextOrder) k.1) ?_ rfl
  simp [issue, fenced, horder]

theorem liveIn_eq (w : World) (i : ℕ) :
    w.liveIn i = w.fenced.tickets.countP (fun t => t.slot.1 = i && !t.released) := by
  simp only [liveIn, fenced, countP_map]
  rfl

theorem apply_steps (w : World) (i : ℕ) (op : RegistryOp)
    (hnext : ∀ r, op = .register r → (w.registries i).state.nextOrder < u64Max) :
    Fenced.Steps w.fenced (w.setRegistry i ((w.registries i).apply op)).fenced := by
  rcases apply_counters (w.registries i) op with hsame | ⟨r, hop, -, hslot, hbd⟩ | ⟨gone, hslot, hbd⟩
  · rw [fenced_setRegistry hsame]
  · rw [show satAdd u64Max (w.registries i).state.nextOrder 1 = (w.registries i).state.nextOrder + 1 from
      satAdd_eq_add (hnext r hop)] at hbd
    refine Relation.ReflTransGen.single ?_
    convert Fenced.Step.opened w.fenced (i, r.binding) (w.registries i).state.nextOrder
      (w.setRegistry i ((w.registries i).apply op)).fenced.bound ?_ le_rfl ?_ using 1
    · exact Fenced.ext (setRegistry_slots hslot) rfl rfl rfl
    · intro k
      simp only [fenced, setRegistry_registries]
      split_ifs with hk
      · rw [hbd, hk]; omega
      · exact le_rfl
    · simp only [fenced, setRegistry_registries, if_true, hbd]
      omega
  · refine Relation.ReflTransGen.single ?_
    convert Fenced.Step.closed w.fenced (fun k => k.1 = i && gone k.2) using 1
    refine Fenced.ext (funext fun k => ?_) (funext fun k => setRegistry_nextOrder hbd k.1) rfl rfl
    simp only [setRegistry_registries, fenced]
    by_cases hk : k.1 = i
    · simp [hk, hslot]
    · simp [hk]

theorem Handed.steps {w'} (hhand : Handed w i w') (hex : w.fenced.Exact)
    (hl : w'.liveIn i < 2 ^ 32) : Fenced.Steps w.fenced w'.fenced := by
  cases hhand with
  | none hsame => rw [fenced_setRegistry hsame.toSameCounters]
  | some hsame hsel => exact selected_steps hex hsame hsel hl

end World

variable {b : BindingKey}

namespace World

theorem release_get {t i : ℕ} {e'} (hget : w.holdings[t]? = some hd) (hr : hd.released = false)
    (h : ((w.release t).registries i).state.entries.get b = some e') :
    ∃ e, (w.registries i).state.entries.get b = some e ∧ e' = if hd.registry = i ∧ hd.grant.binding = b ∧
      hd.grant.registrationOrder = e.order then { e with inFlight := e.inFlight - 1 } else e := by
  rw [release_of_unreleased hget hr] at h
  simp only [setHolding_registries, setRegistry_registries] at h
  by_cases hi : i = hd.registry
  · rw [if_pos hi, RegistryState.releaseSlot, get_update, ← hi] at h
    obtain ⟨e, he, rfl⟩ := map_eq_some_iff.1 h
    refine ⟨e, he, ?_⟩
    have hb := binding_of_get he
    by_cases hcond : hd.grant.binding = b ∧ hd.grant.registrationOrder = e.order
    · rw [if_pos (by simp [hb, hcond.1, hcond.2]), if_pos ⟨hi.symm, hcond⟩]
    · rw [if_neg ?_, if_neg (fun hc => hcond hc.2)]
      simp only [Bool.and_eq_true, decide_eq_true_eq, hb]
      exact fun hc => hcond ⟨hc.1.symm, hc.2.symm⟩
  · rw [if_neg hi] at h
    exact ⟨e', h, by rw [if_neg (fun hc => hi hc.1.symm)]⟩

theorem selected_get {i j : ℕ} {mid e'} (hsame : SameSlots (w.registries i).state mid)
    (hsel : selectFromState mid h request = (.ok lease, r.state))
    (hget : (((w.setRegistry i r).issue i (some lease)).registries j).state.entries.get b = some e') :
    ∃ e, (w.registries j).state.entries.get b = some e ∧ e'.registration = e.registration ∧ e'.order = e.order ∧
      ((j = i ∧ b = lease.binding ∧ lease.registrationOrder = e.order ∧
          (∀ limit, e.registration.maxInFlight = some limit → e.inFlight < limit) ∧
          e'.inFlight = satAdd u32Max e.inFlight 1) ∨ (¬(j = i ∧ b = lease.binding) ∧ e'.inFlight = e.inFlight)) := by
  rw [issue_registries, setRegistry_registries] at hget
  by_cases hj : j = i
  · rw [if_pos hj] at hget
    obtain ⟨eg, hg⟩ := select_grants hsel
    by_cases hb : b = lease.binding
    · rw [hb, hg.after] at hget
      cases hget
      obtain ⟨e, he, hreg, hord, hin⟩ := hsame.get hg.before
      refine ⟨e, by rw [hj, hb]; exact he, hreg.symm, hord.symm, .inl ⟨hj, hb, ?_, ?_, ?_⟩⟩
      · rw [hg.order, hord]
      · rw [hreg, hin]
        exact hg.below
      · rw [hin]
    · rw [hg.others b hb] at hget
      obtain ⟨e, he, hreg, hord, hin⟩ := hsame.get hget
      exact ⟨e, by rw [hj]; exact he, hreg.symm, hord.symm, .inr ⟨fun hc => hb hc.2, hin.symm⟩⟩
  · rw [if_neg hj] at hget
    exact ⟨e', hget, rfl, rfl, .inr ⟨fun hc => hj hc.1, rfl⟩⟩

end World

def WorldEvent.registers (i : ℕ) : WorldEvent → Bool
  | .op j (.register _) => j = i
  | _ => false

theorem World.step_steps (w : World) (e : WorldEvent) (hex : w.fenced.Exact)
    (hnext : ∀ i, e.registers i = true → (w.registries i).state.nextOrder < u64Max)
    (hl : ∀ i, (w.step e).liveIn i < 2 ^ 32) : Fenced.Steps w.fenced (w.step e).fenced := by
  have hmvd := w.step_moved e
  generalize w.step e = w' at hmvd hl ⊢
  cases hmvd with
  | idle => exact .refl
  | op i op =>
    refine w.apply_steps i op ?_
    rintro r rfl
    exact hnext i (by simp [WorldEvent.registers])
  | handed h => exact h.steps hex (hl _)
  | dropped hget => exact dropTicket_steps hget
  | put state hget => rw [fenced_setHolding hget state]
  | recovered hget h hheld =>
    have hrel := release_steps hget
    simp only [liveIn_eq, fenced_setHolding hheld .gone] at hl ⊢
    exact hrel.trans (h.steps (hrel.exact hex) (liveIn_eq _ _ ▸ hl _))

/-! ### Whole runs -/

namespace World

theorem release_nextOrder (w : World) (t j : ℕ) : (w.release t).nextOrder j = w.nextOrder j := by
  unfold release
  split
  · rfl
  · split
    · rfl
    next hd _ _ =>
      exact setRegistry_nextOrder (w := w) (i := hd.registry) (r := ⟨RegistryState.releaseSlot _ _ _, _⟩) rfl j

theorem Handed.nextOrder {w'} (hhand : Handed w i w') (j : ℕ) : w'.nextOrder j = w.nextOrder j := by
  cases hhand with
  | none hsame => exact setRegistry_nextOrder hsame.nextOrder j
  | some hsame hsel =>
    obtain ⟨-, -, -, hnext, -⟩ := select_slot hsel
    exact setRegistry_nextOrder (hnext.trans hsame.nextOrder) j

theorem step_nextOrder (w : World) (e : WorldEvent) (i : ℕ) :
    (w.step e).nextOrder i ≤ w.nextOrder i + if e.registers i then 1 else 0 := by
  have hmvd := w.step_moved e
  generalize w.step e = w' at hmvd ⊢
  cases hmvd with
  | idle | put => exact le_add_right _ _
  | op j op =>
    simp only [World.nextOrder, setRegistry_registries]
    split_ifs with hi hr
    · subst hi
      rcases apply_counters (w.registries i) op with hsame | ⟨r, -, -, -, hb⟩ | ⟨gone, -, hb⟩
      · rw [hsame.nextOrder]; omega
      · rw [hb]; exact min_le_right _ _
      · rw [hb]; omega
    · subst hi
      rcases apply_counters (w.registries i) op with hsame | ⟨r, rfl, -, -, hb⟩ | ⟨gone, -, hb⟩
      · rw [hsame.nextOrder]; rfl
      · simp [WorldEvent.registers] at hr
      · rw [hb]; rfl
    · omega
    · omega
  | handed h => exact (h.nextOrder i).le.trans (le_add_right _ _)
  | dropped hget =>
    rw [dropTicket_eq hget]
    exact (w.release_nextOrder _ i).le.trans (le_add_right _ _)
  | recovered hget h => exact ((h.nextOrder i).trans (w.release_nextOrder _ i)).le.trans (le_add_right _ _)

theorem run_steps (events : List WorldEvent) : ∀ w : World, w.fenced.Exact →
    (∀ i, w.nextOrder i + events.countP (·.registers i) < 2 ^ 64) →
    (∀ pre, pre <+: events → ∀ i, (w.run pre).liveIn i < 2 ^ 32) → Fenced.Steps w.fenced (w.run events).fenced := by
  induction events with
  | nil => intro w _ _ _; exact .refl
  | cons e events ih =>
    intro w hex hreg hl
    have hstep : Fenced.Steps w.fenced (w.step e).fenced := by
      refine w.step_steps e hex ?_ ?_
      · intro i he
        have := hreg i
        rw [countP_cons, if_pos he] at this
        simp only [nextOrder, u64Max] at this ⊢
        omega
      · exact hl [e] (prefix_append [e] events)
    refine hstep.trans (ih (w.step e) (hstep.exact hex) ?_ ?_)
    · intro i
      have hone := w.step_nextOrder e i
      have := hreg i
      rw [countP_cons] at this
      omega
    · intro pre hpre i
      exact hl (e :: pre) (cons_prefix_cons.2 ⟨rfl, hpre⟩) i

theorem run_nextOrder (events : List WorldEvent) (i : ℕ) : ∀ w : World,
    (w.run events).nextOrder i ≤ w.nextOrder i + events.countP (·.registers i) := by
  induction events with
  | nil => intro w; exact le_rfl
  | cons e events ih =>
    intro w
    have hone := w.step_nextOrder e i
    have hrest := ih (w.step e)
    rw [countP_cons]
    show ((w.step e).run events).nextOrder i ≤ _
    omega

theorem exact_init : (({} : World).fenced).Exact := by
  refine ⟨?_, ?_, nofun, nodup_nil, nofun⟩
  all_goals
    intro k s hs
    simp [fenced, RegistryState.slot, Slots.get, Slots.empty] at hs

theorem release_of_stale {t i : ℕ} (hstale : Fenced.Stale t (i, b) w.fenced) :
    ((w.release t).registries i).state.entries.get b = (w.registries i).state.entries.get b := by
  obtain ⟨ticket, htic, hk, hne⟩ := hstale
  simp only [fenced, List.getElem?_map, map_eq_some_iff] at htic
  obtain ⟨hd, hget, rfl⟩ := htic
  cases hk
  cases hr : hd.released with
  | true => rw [release_of_released hget hr]
  | false =>
    rw [release_of_unreleased hget hr]
    simp only [setHolding_registries, setRegistry_registries, if_true, RegistryState.releaseSlot, get_update]
    cases he : (w.registries hd.registry).state.entries.get hd.grant.binding with
    | none => rfl
    | some e =>
      have horder : e.order ≠ hd.grant.registrationOrder :=
        hne ⟨e.order, e.inFlight⟩ (by simp [fenced, RegistryState.slot, he])
      simp [horder]

theorem run_exact {events} (hreg : ∀ i, events.countP (·.registers i) < 2 ^ 64)
    (hl : ∀ pre, pre <+: events → ∀ i, (World.run {} pre).liveIn i < 2 ^ 32) :
    (World.run {} events).fenced.Exact := by
  refine (run_steps events {} exact_init ?_ hl).exact exact_init
  intro i
  have := hreg i
  show 0 + _ < _
  omega

/-- A ticket whose slot is gone after some events is stale after more of them. -/
theorem run_stale {pre post} (hreg : ∀ i, (pre ++ post).countP (·.registers i) < 2 ^ 64)
    (hl : ∀ evs, evs <+: pre ++ post → ∀ i, (World.run {} evs).liveIn i < 2 ^ 32)
    (hget : (World.run {} pre).holdings[t]? = some hd)
    (hgone : ((World.run {} pre).registries hd.registry).state.entries.get hd.grant.binding = none) :
    Fenced.Stale t (hd.registry, hd.grant.binding) (World.run {} (pre ++ post)).fenced := by
  have hspl : World.run {} (pre ++ post) = (World.run {} pre).run post := run_append _ _ _
  have hpre : (World.run {} pre).fenced.Exact := by
    refine run_exact ?_ (fun evs hevs => hl evs (hevs.trans (prefix_append pre post)))
    intro i
    have := hreg i
    rw [countP_append] at this
    omega
  have hsteps : Fenced.Steps (World.run {} pre).fenced ((World.run {} pre).run post).fenced := by
    refine run_steps post _ hpre ?_ ?_
    · intro i
      have hone := run_nextOrder pre i {}
      have := hreg i
      rw [countP_append] at this
      have hzero : ({} : World).nextOrder i = 0 := rfl
      omega
    · intro evs hevs i
      have := hl (pre ++ evs) ((prefix_append_right_inj pre).2 hevs) i
      rwa [show World.run {} (pre ++ evs) = (World.run {} pre).run evs from run_append _ _ _] at this
  rw [hspl]
  refine hsteps.stale hpre ⟨_, fenced_getElem hget, rfl, ?_⟩
  intro s hs
  simp [fenced, RegistryState.slot, hgone] at hs

end World

theorem in_flight_exact (events : List WorldEvent) (hreg : ∀ i, events.countP (·.registers i) < 2 ^ 64)
    (hlive : ∀ pre, pre <+: events → ∀ i, (World.run {} pre).liveIn i < 2 ^ 32) :
    (∀ i b e, ((World.run {} events).registries i).state.entries.get b = some e →
      e.inFlight = (World.run {} events).unreleased i b e.order) ∧ (World.run {} events).releases.Nodup ∧
    (∀ pre post, events = pre ++ post → ∀ t hd, (World.run {} pre).holdings[t]? = some hd →
      ((World.run {} pre).registries hd.registry).state.entries.get hd.grant.binding = none →
      (((World.run {} events).release t).registries hd.registry).state.entries.get hd.grant.binding =
        ((World.run {} events).registries hd.registry).state.entries.get hd.grant.binding) ∧
    ∀ s h request lease, (selectFromState s h request).1 = .ok lease →
      ∃ e, s.entries.get lease.binding = some e ∧
        ∀ limit, e.registration.maxInFlight = some limit → e.inFlight < limit := by
  have hex := run_exact hreg hlive
  refine ⟨?_, hex.nodup, ?_, ?_⟩
  · intro i b e he
    rw [← fenced_live]
    exact hex.held (i, b) ⟨e.order, e.inFlight⟩ (by simp [World.fenced, RegistryState.slot, he])
  · rintro pre post rfl t hd hget hgone
    exact release_of_stale (run_stale hreg hlive hget hgone)
  · intro s h request lease hsel
    obtain ⟨e, hg⟩ := select_grants (Prod.ext hsel rfl)
    exact ⟨e, hg.before, hg.below⟩

def leaseEvents : List WorldEvent := [.op 0 (.register sampleRegistration), .select 0 sampleRequest]

theorem in_flight_exact_sample :
    (((World.run {} leaseEvents).registries 0).state.entries.get sampleBinding).map (·.inFlight) = some 1 ∧
    ∀ e, ((World.run {} leaseEvents).registries 0).state.entries.get sampleBinding = some e →
      e.inFlight = (World.run {} leaseEvents).unreleased 0 sampleBinding e.order := by
  refine ⟨by decide, (in_flight_exact leaseEvents ?_ ?_).1 0 sampleBinding⟩
  · intro i
    exact lt_of_le_of_lt countP_le_length (by decide)
  · intro pre hpre i
    refine lt_of_le_of_lt countP_le_length ?_
    rw [prefix_iff_eq_take.1 hpre]
    have htwo : pre.length ≤ 2 := hpre.length_le
    generalize pre.length = n at htwo
    interval_cases n <;> decide

end Pooler
