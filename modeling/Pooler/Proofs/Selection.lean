import Pooler.Sanity.Select

/-! One selection. It grants a lease exactly when some binding is eligible and affinity
does not refuse, always for a binding of the best tier, and it leaves everything but
its own slot, strategy scope and affinity key as it was. -/

namespace Pooler

open Lib Table

theorem select_sound_complete (s : RegistryState) (h : HealthRegistry) (request : SelectionRequest)
    (httl : request.affinityTtl ≠ 0) :
    ((∃ lease, (selectFromState s h request).1 = .ok lease) ↔
      (∃ e, Eligible s h request e) ∧ ¬AffinityRefuses s h request) ∧
    ∀ lease, (selectFromState s h request).1 = .ok lease →
      ∃ e, IsBest s h request e ∧ lease.binding = e.registration.binding ∧
        lease.registration = e.registration ∧ lease.registrationOrder = e.order := by
  rcases hsel : selectFromState s h request with ⟨result, s'⟩
  cases result with
  | ok lease =>
    obtain ⟨-, e, mid, hg⟩ := selectFromState_ok hsel
    refine ⟨⟨fun _ => ⟨⟨e, hg.best.1⟩, hg.not_refused⟩, fun _ => ⟨lease, rfl⟩⟩, ?_⟩
    intro lease' hl
    cases hl
    exact ⟨e, hg.best, hg.binding, hg.registration, hg.order⟩
  | error =>
    have hno : ¬((∃ e, Eligible s h request e) ∧ ¬AffinityRefuses s h request) := by
      rintro ⟨hex, hnr⟩
      rcases selectFromState_error hsel with ⟨hz, -, -⟩ | ⟨-, -, -, hn | hr⟩
      · exact httl hz
      · exact hn hex
      · exact hnr hr
    refine ⟨⟨?_, fun hex => absurd hex hno⟩, ?_⟩
    · rintro ⟨lease, hl⟩
      cases hl
    · intro lease hl
      cases hl

def sampleModel : ModelId := ⟨"model", by decide⟩

def sampleBinding : BindingKey := ⟨⟨"model/target", by decide⟩, ⟨"account", by decide⟩, "fingerprint"⟩

def sampleRegistration : CredentialRegistration :=
  { binding := sampleBinding, provider := ⟨"provider", by decide⟩, model := sampleModel
    capabilities := .new, facts := {}, maxInFlight := some 1
    weight_pos := Nat.one_pos, targetWeight_pos := Nat.one_pos, priority_pos := Nat.one_pos }

def sampleRequest : SelectionRequest := { model := sampleModel, now := 0 }

/-- A registry with one registration grants its only binding. -/
theorem select_sound_complete_single :
    ∃ lease e, (selectFromState (RegistryState.register {} sampleRegistration) {} sampleRequest).1 = .ok lease ∧
      IsBest (RegistryState.register {} sampleRegistration) {} sampleRequest e ∧
      lease.binding = e.registration.binding := by
  cases hsel : (selectFromState (RegistryState.register {} sampleRegistration) {} sampleRequest).1 with
  | ok lease =>
    obtain ⟨e, he, hb, -⟩ := (select_sound_complete (RegistryState.register {} sampleRegistration) {}
      sampleRequest (by decide)).2 lease hsel
    exact ⟨lease, e, rfl, he, hb⟩
  | error =>
    have hok : (selectFromState (RegistryState.register {} sampleRegistration) {} sampleRequest).1.isOk = true := by
      decide
    rw [hsel] at hok
    cases hok

/-! ### The frame of a selection -/

/-- `t'` is `t` without some of its expired values. -/
def DropsOnly {α β : Type} [StringKeyed α] (expired : β → Bool) (t t' : Table α β) : Prop :=
  (∀ (k : α) (v : β), t'[k]? = some v → t[k]? = some v) ∧
    ∀ (k : α) (v : β), t[k]? = some v → expired v = false → t'[k]? = some v

theorem DropsOnly.refl {α β : Type} [StringKeyed α] (expired : β → Bool) (t : Table α β) :
    DropsOnly expired t t := ⟨fun _ _ h => h, fun _ _ h _ => h⟩

theorem dropsOnly_filter {α β : Type} [StringKeyed α] (expired : β → Bool) (t : Table α β) :
    DropsOnly expired t (t.filter (fun _ v => !expired v)) := by
  constructor
  · intro k v h
    rw [get_filter] at h
    exact (Option.filter_eq_some_iff.1 h).1
  · intro k v h he
    rw [get_filter]
    exact Option.filter_eq_some_iff.2 ⟨h, by simp [he]⟩

/-- What a refused selection may do: drop entries that had expired at `now`. -/
structure RefusedFrame (s s' : RegistryState) (now : ℕ) : Prop where
  entries : s'.entries = s.entries
  aliases : s'.aliases = s.aliases
  nextOrder : s'.nextOrder = s.nextOrder
  roundRobin : s'.roundRobin = s.roundRobin
  smoothCurrent : s'.smoothCurrent = s.smoothCurrent
  affinity : DropsOnly (·.expiredAt now) s.affinity s'.affinity
  quotas : DropsOnly (·.expiredAt now) s.quotas s'.quotas
  bindingQuotas : DropsOnly (·.expiredAt now) s.bindingQuotas s'.bindingQuotas

variable (s : RegistryState)

theorem RefusedFrame.refl (now : ℕ) : RefusedFrame s s now := ⟨rfl, rfl, rfl, rfl, rfl, .refl _ _, .refl _ _, .refl _ _⟩

theorem refusedFrame_dropExpired (now : ℕ) : RefusedFrame s (s.dropExpired now) now :=
  ⟨rfl, rfl, rfl, rfl, rfl, dropsOnly_filter _ _, dropsOnly_filter _ _, dropsOnly_filter _ _⟩

/-- What a granted selection may do besides: count the chosen slot, move a cursor or the weights
of the request's own scope, write the request's own affinity key, and evict for it at most one
entry, the least recently used of a full table. -/
structure GrantedFrame (s s' : RegistryState) (request : SelectionRequest) (lease : LeaseGrant) : Prop where
  slot : ∃ e, s.entries.get lease.binding = some e ∧
    s'.entries.get lease.binding = some { e with inFlight := satAdd u32Max e.inFlight 1 } ∧
    (e.inFlight < u32Max → satAdd u32Max e.inFlight 1 = e.inFlight + 1)
  entries : ∀ b, b ≠ lease.binding → s'.entries.get b = s.entries.get b
  aliases : s'.aliases = s.aliases
  nextOrder : s'.nextOrder = s.nextOrder
  roundRobin : ∃ cursor : CursorScope, cursor.scope = poolScope (resolveRequest s request) ∧
    ∀ k, k ≠ cursor → s'.roundRobin[k]? = s.roundRobin[k]?
  smoothCurrent : ∀ k, k ≠ poolScope (resolveRequest s request) → s'.smoothCurrent[k]? = s.smoothCurrent[k]?
  quotas : DropsOnly (·.expiredAt request.now) s.quotas s'.quotas
  bindingQuotas : DropsOnly (·.expiredAt request.now) s.bindingQuotas s'.bindingQuotas
  affinity : ∃ (live : Table AffinityKey AffinityBinding) (evicted : Option AffinityKey),
    DropsOnly (·.expiredAt request.now) s.affinity live ∧
    (∀ k, some k ≠ request.affinityKey → some k ≠ evicted → s'.affinity[k]? = live[k]?) ∧
    ∀ k, evicted = some k → ∃ key, request.affinityKey = some key ∧ live[key]? = none ∧
      maxAffinityBindings ≤ live.size ∧ LeastRecentlyUsed live k

theorem grantSlot_get (binding b : BindingKey) :
    (s.grantSlot binding).entries.get b = if b = binding
      then (s.entries.get b).map (fun e => { e with inFlight := satAdd u32Max e.inFlight 1 }) else s.entries.get b := by
  rw [RegistryState.grantSlot, Slots.get_update]
  cases hb : s.entries.get b with
  | none => simp
  | some =>
    have hkey := Slots.binding_of_get hb
    by_cases hbb : b = binding <;> simp [hkey, hbb]

/-- Binding the request's key after the pick: the own key, and one eviction at most. -/
theorem takeAffinity_frame {d mid req}
    (hpick : PickFrame d mid req) (b : BindingKey) (r : CredentialRegistration) :
    ∃ t evicted,
      takeAffinity (mid.grantSlot b) req r = { mid.grantSlot b with affinity := t } ∧
      (∀ k, some k ≠ req.affinityKey → some k ≠ evicted → t[k]? = d.affinity[k]?) ∧
      ∀ k, evicted = some k → ∃ key, req.affinityKey = some key ∧ d.affinity[key]? = none ∧
        maxAffinityBindings ≤ d.affinity.size ∧ LeastRecentlyUsed d.affinity k := by
  have hmid : (mid.grantSlot b).affinity = mid.affinity := rfl
  have hoth : ∀ k, some k ≠ req.affinityKey → mid.affinity[k]? = d.affinity[k]? := by
    intro k hk
    rcases hpick.affinity with he | ⟨key, a, b', hkey, -, he⟩
    · rw [he]
    · rw [he, get_insert, if_neg]
      rintro rfl
      exact hk hkey.symm
  unfold takeAffinity
  cases hkey : req.affinityKey with
  | none => exact ⟨mid.affinity, none, rfl, fun k hk _ => hoth k (hkey ▸ hk), by simp⟩
  | some key =>
    obtain ⟨t, evicted, ht, hev, hsame⟩ := insertBoundedAffinity_frame (mid.grantSlot b) key
      ⟨r.binding, r.provider, r.model, req.now, expiresAt req⟩
    refine ⟨t, evicted, ht, ?_, ?_⟩
    · intro k hk hne
      rw [hsame k (fun hkk => hk (congrArg some hkk)) hne, hmid]
      exact hoth k (hkey ▸ hk)
    · intro k hk
      obtain ⟨habs, hfull, hlru⟩ := hev k hk
      rw [hmid] at habs hfull hlru
      -- a refreshed key is present, so an eviction leaves the table as the lookup saw it
      have hd : mid.affinity = d.affinity := by
        rcases hpick.affinity with he | ⟨key', a, b', hkey', -, he⟩
        · exact he
        · rw [hkey] at hkey'
          cases hkey'
          rw [he, get_insert, if_pos rfl] at habs
          cases habs
      rw [hd] at habs hfull hlru
      exact ⟨key, rfl, habs, hfull, hlru⟩

theorem grantedFrame_of_granted {s s' mid h req lease e}
    (hg : Granted s h req lease s' e mid) : GrantedFrame s s' req lease := by
  obtain ⟨t, evicted, ht, hsame, hev⟩ := takeAffinity_frame hg.pick e.registration.binding e.registration
  have hs' : s' = { mid.grantSlot e.registration.binding with affinity := t } := hg.state.trans ht
  have hents : mid.entries = s.entries := hg.pick.entries
  have hslot : ∀ b, s'.entries.get b = if b = lease.binding
      then (s.entries.get b).map (fun e => { e with inFlight := satAdd u32Max e.inFlight 1 })
      else s.entries.get b := by
    intro b
    rw [hs', hg.binding]
    show (mid.grantSlot e.registration.binding).entries.get b = _
    rw [grantSlot_get, hents]
  have hdrop := refusedFrame_dropExpired s req.now
  subst hs'
  exact
    { slot := by
        refine ⟨e, ?_, ?_, fun hlt => satAdd_eq_add hlt⟩
        · rw [hg.binding]; exact hg.best.1.1
        · rw [hslot, if_pos rfl, hg.binding, show s.entries.get e.registration.binding = some e from hg.best.1.1]
          rfl
      entries := fun b hb => by rw [hslot, if_neg hb]
      aliases := hg.pick.aliases
      nextOrder := hg.pick.nextOrder
      roundRobin := hg.pick.roundRobin
      smoothCurrent := hg.pick.smoothCurrent
      quotas := hg.pick.quotas ▸ hdrop.quotas
      bindingQuotas := hg.pick.bindingQuotas ▸ hdrop.bindingQuotas
      affinity := ⟨(s.dropExpired req.now).affinity, evicted, hdrop.affinity, hsame, hev⟩ }

theorem select_frame (s : RegistryState) (h : HealthRegistry) (request : SelectionRequest) :
    (∀ err, (selectFromState s h request).1 = .error err → RefusedFrame s (selectFromState s h request).2 request.now) ∧
    ∀ lease, (selectFromState s h request).1 = .ok lease →
      GrantedFrame s (selectFromState s h request).2 request lease := by
  rcases hsel : selectFromState s h request with ⟨result, s'⟩
  cases result with
  | ok =>
    refine ⟨fun err he => (by cases he), fun lease' hl => ?_⟩
    cases hl
    obtain ⟨-, e, mid, hg⟩ := selectFromState_ok hsel
    exact grantedFrame_of_granted hg
  | error =>
    refine ⟨fun err' he => ?_, fun lease hl => (by cases hl)⟩
    rcases selectFromState_error hsel with ⟨-, -, rfl⟩ | ⟨-, rfl, -⟩
    · exact .refl _ _
    · exact refusedFrame_dropExpired s request.now

/-! ### Round robin -/

/-- A choice among the candidates of a tier, for a request. -/
structure Choice where
  first : CandidateEvaluation
  tier : List CandidateEvaluation
  request : SelectionRequest
  first_mem : first ∈ tier

namespace Choice

open List

variable (scope : CursorScope) (s : RegistryState) (c : Choice)

def choose : CandidateEvaluation × RegistryState := chooseIndex s c.first c.tier c.request

def cursor : ℕ := s.roundRobin[scope]?.getD 0

def bindings : List BindingKey := c.tier.map (·.entry.registration.binding)

/-- Round robin makes the choice, by the cursor of the scope. -/
def Turns : Prop := ¬c.request.routing.any RoutingRequirements.adaptive ∧ c.request.strategy = .roundRobin ∧
  cursorScope c.tier c.request = scope

instance : Decidable (c.Turns scope) := inferInstanceAs (Decidable (_ ∧ _))

/-- What round robin takes in a run of choices, those by other cursors and strategies left out. -/
def taken : RegistryState → List Choice → List BindingKey
  | _, [] => []
  | s, c :: cs =>
    (if c.Turns scope then [(c.choose s).1.entry.registration.binding] else []) ++ taken (c.choose s).2 cs

variable {scope c}

theorem choose_turns (h : c.Turns scope) :
    cursor scope (c.choose s).2 = satAdd usizeMax (cursor scope s) 1 ∧
      c.bindings[cursor scope s % c.bindings.length]? = some (c.choose s).1.entry.registration.binding := by
  obtain ⟨had, hrr, rfl⟩ := h
  have hlt := Nat.mod_lt (cursor (cursorScope c.tier c.request) s) (length_pos_of_mem c.first_mem)
  rw [choose, chooseIndex, if_neg had, hrr, bindings, length_map, getElem?_map, getElem?_eq_getElem hlt]
  refine ⟨by rw [cursor, Table.get_insert, if_pos rfl]; rfl, ?_⟩
  exact congrArg (some ·.entry.registration.binding) (getD_eq_getElem _ c.first hlt).symm

theorem choose_passes (h : ¬c.Turns scope) : cursor scope (c.choose s).2 = cursor scope s := by
  unfold choose chooseIndex
  split_ifs with had
  · rfl
  cases hrr : c.request.strategy with
  | roundRobin =>
    rw [cursor, Table.get_insert, if_neg fun heq => h ⟨had, hrr, heq⟩]
    rfl
  | _ => rfl

/-- The choices of a scope go through the tier in turn, whatever else is chosen between them: the
`i`-th takes the binding `i` places after the cursor, round and round. -/
theorem round_robin_takes_turns (bindings : List BindingKey) (choices : List Choice) : ∀ (s : RegistryState) (i : ℕ),
    (∀ c ∈ choices, c.Turns scope → c.bindings = bindings) →
    cursor scope s + (taken scope s choices).length ≤ usizeMax → i < (taken scope s choices).length →
    (taken scope s choices)[i]? = bindings[(cursor scope s + i) % bindings.length]? := by
  induction choices with
  | nil => intro s i _ _ hi; exact absurd hi (Nat.not_lt_zero _)
  | cons c choices ih =>
    intro s i hsame hmax hi
    rw [forall_mem_cons] at hsame
    rw [taken] at hmax hi ⊢
    by_cases h : c.Turns scope
    · obtain ⟨hnext, htake⟩ := choose_turns s h
      rw [if_pos h, singleton_append] at hmax hi ⊢
      rw [length_cons] at hmax hi
      rw [hsame.1 h] at htake
      cases i with
      | zero => exact htake.symm
      | succ i =>
        have hcur : cursor scope (c.choose s).2 = cursor scope s + 1 := by
          rw [hnext, satAdd]
          omega
        rw [getElem?_cons_succ, ih _ i hsame.2 (by omega) (by omega), hcur, add_right_comm, add_assoc]
    · rw [if_neg h, nil_append] at hmax hi ⊢
      rw [← choose_passes s h] at hmax ⊢
      exact ih _ i hsame.2 hmax hi

def sampleCandidate (fingerprint : String) : CandidateEvaluation :=
  ⟨⟨{ sampleRegistration with binding := { sampleBinding with accountFingerprint := fingerprint } }, true, 0, 0⟩, [], []⟩

def sampleChoice : Choice where
  first := sampleCandidate "first"
  tier := [sampleCandidate "first", sampleCandidate "second"]
  request := { sampleRequest with strategy := .roundRobin }
  first_mem := mem_cons_self

theorem third_turn_is_the_first :
    (taken (cursorScope sampleChoice.tier sampleChoice.request) {} (replicate 3 sampleChoice))[2]? =
      sampleChoice.bindings[0]? :=
  round_robin_takes_turns sampleChoice.bindings (replicate 3 sampleChoice) {} 2 (by simp) (by decide +kernel)
    (by decide +kernel)

end Choice

end Pooler
