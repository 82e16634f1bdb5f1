import Pooler.Proofs.Leases
import Pooler.Sanity.Pool

/-! The bound of an account. Each slot is filled with the bound of its account and counted by
itself, so that the bound holds for an account with one slot and not for one with more. -/

namespace Pooler

open Lib List Std.ExtTreeMap

namespace World

/-- The leases of an account that are out, over all registries. -/
def heldBy (w : World) (account : String) : ℕ :=
  w.holdings.countP (fun hd => hd.grant.binding.accountId.asStr = account && !hd.released)

/-- Binding `b` of the account has slot `e` in registry `i`. -/
structure HasSlot (w : World) (account : String) (i : ℕ) (b : BindingKey) (e : RegistryEntry) : Prop where
  get : (w.registries i).state.entries.get b = some e
  account : b.accountId.asStr = account

def OneSlot (w : World) (account : String) : Prop :=
  ∀ i j b b' e e', w.HasSlot account i b e → w.HasSlot account j b' e' → i = j ∧ b = b'

/-- The account has one slot at most, which carries the bound and counts every lease of the
account that is out. -/
structure Capped (w : World) (account : String) (m : ℕ) : Prop where
  one : w.OneSlot account
  bound : ∀ i b e, w.HasSlot account i b e → e.registration.maxInFlight = some m
  counted : ∀ i b e, w.HasSlot account i b e → e.inFlight = w.heldBy account
  granted : ∀ i b e, w.HasSlot account i b e → ∀ hd ∈ w.holdings, hd.grant.binding.accountId.asStr = account →
    hd.registry = i ∧ hd.grant.binding = b ∧ hd.grant.registrationOrder = e.order
  cap : w.heldBy account ≤ m

variable {w w' : World} {account : String} {m : ℕ} {hd : Holding} {t : ℕ}

theorem HasSlot.of_release {t i : ℕ} {b e'}
    (hget : w.holdings[t]? = some hd) (hr : hd.released = false) (h : (w.release t).HasSlot account i b e') :
    ∃ e, w.HasSlot account i b e ∧ e' = if hd.registry = i ∧ hd.grant.binding = b ∧
      hd.grant.registrationOrder = e.order then { e with inFlight := e.inFlight - 1 } else e := by
  obtain ⟨e, he, heq⟩ := release_get hget hr h.get
  exact ⟨e, ⟨he, h.account⟩, heq⟩

theorem release_heldBy (hget : w.holdings[t]? = some hd) (hr : hd.released = false) :
    (w.release t).heldBy account = w.heldBy account - if hd.grant.binding.accountId.asStr = account then 1 else 0 := by
  obtain ⟨hlt, rfl⟩ := List.getElem?_eq_some_iff.1 hget
  rw [release_of_unreleased hget hr]
  simp only [heldBy, World.setHolding, setRegistry_holdings]
  rw [countP_set hlt]
  simp [hr]

theorem issue_heldBy (i : ℕ) (lease : LeaseGrant) :
    (w.issue i (some lease)).heldBy account =
      w.heldBy account + if lease.binding.accountId.asStr = account then 1 else 0 := by
  simp [heldBy, issue]

section

variable (h : w.Capped account m)
include h

/-- Slots that differ in their flags only, and leases that differ in what their holder has of them. -/
theorem Capped.of_same (hslots : ∀ i, SameSlots (w.registries i).state (w'.registries i).state)
    (hheld : w'.heldBy account = w.heldBy account)
    (hmem : ∀ hd' ∈ w'.holdings, ∃ hd ∈ w.holdings, hd.registry = hd'.registry ∧ hd.grant = hd'.grant) :
    w'.Capped account m := by
  have hback : ∀ {i b e'}, w'.HasSlot account i b e' → ∃ e, w.HasSlot account i b e ∧
      e.registration = e'.registration ∧ e.order = e'.order ∧ e.inFlight = e'.inFlight := by
    intro i b e' he'
    obtain ⟨e, he, hs⟩ := (hslots i).get he'.get
    exact ⟨e, ⟨he, he'.account⟩, hs⟩
  refine ⟨?_, ?_, ?_, ?_, hheld.trans_le h.cap⟩
  · intro i j b b' e e' he he'
    obtain ⟨_, he, -⟩ := hback he
    obtain ⟨_, he', -⟩ := hback he'
    exact h.one i j b b' _ _ he he'
  · intro i b e he
    obtain ⟨e0, he0, hreg, -⟩ := hback he
    rw [← hreg]
    exact h.bound i b e0 he0
  · intro i b e he
    obtain ⟨e0, he0, -, -, hin⟩ := hback he
    rw [← hin, hheld]
    exact h.counted i b e0 he0
  · intro i b e he hd' hhd' hacc
    obtain ⟨e0, he0, -, hord, -⟩ := hback he
    obtain ⟨hd, hhd, hregis, hgr⟩ := hmem hd' hhd'
    rw [← hregis, ← hgr, ← hord]
    exact h.granted i b e0 he0 hd hhd (by rw [hgr]; exact hacc)

theorem Capped.setRegistry {i : ℕ} {r}
    (hs : SameSlots (w.registries i).state r.state) : (w.setRegistry i r).Capped account m := by
  refine h.of_same ?_ rfl (fun hd hhd => ⟨hd, hhd, rfl, rfl⟩)
  intro j
  rw [setRegistry_registries]
  split_ifs with hj
  · rw [hj]; exact hs
  · exact .refl _

theorem Capped.setHolding (hget : w.holdings[t]? = some hd)
    (state : HoldState) : (w.setHolding t { hd with state }).Capped account m := by
  obtain ⟨hlt, rfl⟩ := List.getElem?_eq_some_iff.1 hget
  refine h.of_same (fun _ => .refl _) ?_ ?_
  · simp only [heldBy, World.setHolding]
    rw [countP_set hlt]
    by_cases hp : (w.holdings[t].grant.binding.accountId.asStr = account && !w.holdings[t].released) = true
    · have hpos : 0 < w.heldBy account := countP_pos_iff.2 ⟨_, getElem_mem hlt, hp⟩
      rw [if_pos hp]
      unfold heldBy at hpos
      omega
    · rw [if_neg hp]
      omega
  · intro hd' hhd'
    rcases mem_or_eq_of_mem_set hhd' with hhd' | rfl
    · exact ⟨hd', hhd', rfl, rfl⟩
    · exact ⟨_, getElem_mem hlt, rfl, rfl⟩

theorem Capped.release (hget : w.holdings[t]? = some hd) : (w.release t).Capped account m := by
  cases hr : hd.released with
  | true => rw [release_of_released hget hr]; exact h
  | false =>
    have hmem : ∀ hd' ∈ (w.release t).holdings, ∃ hd ∈ w.holdings, hd.registry = hd'.registry ∧ hd.grant = hd'.grant := by
      rw [release_of_unreleased hget hr]
      intro hd' hhd'
      rcases mem_or_eq_of_mem_set hhd' with hhd' | rfl
      · exact ⟨hd', hhd', rfl, rfl⟩
      · exact ⟨hd, mem_of_getElem? hget, rfl, rfl⟩
    have hheld : (w.release t).heldBy account = _ := release_heldBy hget hr
    refine ⟨?_, ?_, ?_, ?_, ?_⟩
    · intro i j b b' e e' he he'
      obtain ⟨_, he, -⟩ := he.of_release hget hr
      obtain ⟨_, he', -⟩ := he'.of_release hget hr
      exact h.one i j b b' _ _ he he'
    · intro i b e he
      obtain ⟨e0, he0, rfl⟩ := he.of_release hget hr
      have hbd := h.bound i b e0 he0
      split_ifs <;> exact hbd
    · intro i b e he
      obtain ⟨e0, he0, rfl⟩ := he.of_release hget hr
      have hcntd := h.counted i b e0 he0
      rw [hheld]
      by_cases hacc : hd.grant.binding.accountId.asStr = account
      · rw [if_pos (h.granted i b e0 he0 hd (mem_of_getElem? hget) hacc), if_pos hacc, ← hcntd]
      · rw [if_neg hacc, if_neg ?_]
        · exact hcntd
        · rintro ⟨-, rfl, -⟩
          exact hacc he0.account
    · intro i b e he hd' hhd' hacc
      obtain ⟨e0, he0, rfl⟩ := he.of_release hget hr
      obtain ⟨hd0, hhd0, hregis, hgr⟩ := hmem hd' hhd'
      have hgran := h.granted i b e0 he0 hd0 hhd0 (by rw [hgr]; exact hacc)
      rw [← hregis, ← hgr]
      split_ifs <;> exact hgran
    · rw [hheld]
      exact (Nat.sub_le _ _).trans h.cap

theorem Capped.dropTicket (hget : w.holdings[t]? = some hd) : (w.dropTicket t).Capped account m := by
  rw [dropTicket_eq hget]
  exact (h.release hget).setHolding (release_holding hget) .gone

theorem Capped.selected (hm : m ≤ u32Max) {i : ℕ} {mid r health req lease}
    (hs : SameSlots (w.registries i).state mid) (hsel : selectFromState mid health req = (.ok lease, r.state)) :
    ((w.setRegistry i r).issue i (some lease)).Capped account m := by
  have hheld : ((w.setRegistry i r).issue i (some lease)).heldBy account =
      w.heldBy account + if lease.binding.accountId.asStr = account then 1 else 0 := issue_heldBy i lease
  -- a lease of the account can only be of its one slot
  have hown : lease.binding.accountId.asStr = account → ∃ e, w.HasSlot account i lease.binding e ∧
      lease.registrationOrder = e.order ∧ w.heldBy account < m := by
    intro hacc
    obtain ⟨eg, hg⟩ := select_grants hsel
    obtain ⟨e, he, hreg, hord, hin⟩ := hs.get hg.before
    have hslot : w.HasSlot account i lease.binding e := ⟨he, hacc⟩
    refine ⟨e, hslot, hg.order.trans hord.symm, ?_⟩
    rw [← h.counted _ _ _ hslot, hin]
    exact hg.below m (by rw [← hreg]; exact h.bound _ _ _ hslot)
  refine ⟨?_, ?_, ?_, ?_, ?_⟩
  · intro j k b b' e e' he he'
    obtain ⟨_, hget, -⟩ := selected_get hs hsel he.get
    obtain ⟨_, hget', -⟩ := selected_get hs hsel he'.get
    exact h.one j k b b' _ _ ⟨hget, he.account⟩ ⟨hget', he'.account⟩
  · intro j b e he
    obtain ⟨e0, he0, hreg, -⟩ := selected_get hs hsel he.get
    rw [hreg]
    exact h.bound j b e0 ⟨he0, he.account⟩
  · intro j b e he
    obtain ⟨e0, hget, -, -, hcase⟩ := selected_get hs hsel he.get
    have he0 : w.HasSlot account j b e0 := ⟨hget, he.account⟩
    have hcntd := h.counted j b e0 he0
    rw [hheld]
    rcases hcase with ⟨-, rfl, -, hbel, hin⟩ | ⟨hne, hin⟩
    · have hlt := hbel m (h.bound j _ e0 he0)
      rw [hin, if_pos he0.account, ← hcntd]
      exact satAdd_eq_add (by omega)
    · rw [hin, if_neg ?_, hcntd]
      · rfl
      · intro hacc
        obtain ⟨e1, he1, -⟩ := hown hacc
        exact hne (h.one j i b lease.binding e0 e1 he0 he1)
  · intro j b e he hd hhd hacc
    obtain ⟨e0, hget, -, hord, -⟩ := selected_get hs hsel he.get
    have he0 : w.HasSlot account j b e0 := ⟨hget, he.account⟩
    rw [hord]
    rcases mem_append.1 hhd with hhd | hhd
    · exact h.granted j b e0 he0 hd hhd hacc
    · rw [mem_singleton] at hhd
      subst hhd
      obtain ⟨e1, he1, horder, -⟩ := hown hacc
      obtain ⟨rfl, rfl⟩ := h.one j i b lease.binding e0 e1 he0 he1
      have hee : e0 = e1 := Option.some.inj (he0.get.symm.trans he1.get)
      exact ⟨rfl, rfl, by rw [hee]; exact horder⟩
  · rw [hheld]
    split_ifs with hacc
    · obtain ⟨-, -, -, hlt⟩ := hown hacc
      omega
    · exact h.cap

theorem Capped.handed (hm : m ≤ u32Max) {i : ℕ} {w'} (hhand : Handed w i w') : w'.Capped account m := by
  cases hhand with
  | none hs => exact h.setRegistry hs
  | some hs hsel => exact h.selected hm hs hsel

end

end World

variable {account : String}

theorem World.Capped.step {w : World} {m : ℕ} (h : w.Capped account m) (hm : m ≤ u32Max)
    (e : WorldEvent) (he : e.keepsBindings = true) : (w.step e).Capped account m := by
  have hmvd := w.step_moved e
  generalize w.step e = w' at hmvd ⊢
  cases hmvd with
  | idle => exact h
  | op => exact h.setRegistry (apply_slots _ he)
  | handed hhand => exact h.handed hm hhand
  | dropped hget => exact h.dropTicket hget
  | put state hget => exact h.setHolding hget state
  | recovered hget hhand hheld => exact ((h.release hget).handed hm hhand).setHolding hheld .gone

/-! ### The registries of a configuration -/

def RegistryView.slotsOf (view : RegistryView) (account : String) : List (String × BindingKey) :=
  view.registries.toList.flatMap (fun (key, registry) =>
    (registry.state.entries.bindings.filter (fun b => b.accountId.asStr = account)).map (fun b => (key, b)))

variable {view : RegistryView}

theorem World.HasSlot.ofView {i : ℕ} {b e}
    (h : (World.ofView view).HasSlot account i b e) : ∃ key registry, view.registries.toList[i]? = some (key, registry) ∧
      view.registries[key]? = some registry ∧ registry.state.entries.get b = some e ∧ (key, b) ∈ view.slotsOf account := by
  have hget := h.get
  simp only [World.ofView] at hget
  cases hi : view.registries.toList[i]? with
  | none =>
    rw [hi] at hget
    simp [Slots.get, Slots.empty] at hget
  | some pair =>
    obtain ⟨key, registry⟩ := pair
    rw [hi] at hget
    refine ⟨key, registry, rfl, ?_, hget, ?_⟩
    · exact mem_toList_iff_getElem?_eq_some.1 (mem_of_getElem? hi)
    · simp only [RegistryView.slotsOf, mem_flatMap, mem_map, mem_filter, Prod.exists]
      exact ⟨key, registry, mem_of_getElem? hi, b, ⟨Slots.mem_bindings.2 ⟨e, hget⟩, by simpa using h.account⟩, rfl⟩

theorem World.ofView_oneSlot (h : (view.slotsOf account).length ≤ 1) : (World.ofView view).OneSlot account := by
  intro i j b b' e e' he he'
  obtain ⟨key, registry, hi, -, -, hmem⟩ := he.ofView
  obtain ⟨key', registry', hj, -, -, hmem'⟩ := he'.ofView
  obtain ⟨rfl, rfl⟩ : key = key' ∧ b = b' := by
    generalize view.slotsOf account = slots at h hmem hmem'
    match slots, h, hmem, hmem' with
    | [slot], _, hmem, hmem' =>
      rw [mem_singleton] at hmem hmem'
      simpa using hmem.trans hmem'.symm
  refine ⟨?_, rfl⟩
  have hkeys : (view.registries.toList.map Prod.fst)[i]? = (view.registries.toList.map Prod.fst)[j]? := by
    rw [getElem?_map, getElem?_map, hi, hj]
    rfl
  have hlt : i < (view.registries.toList.map Prod.fst).length := by
    rw [length_map]
    exact (List.getElem?_eq_some_iff.1 hi).1
  refine (getElem?_inj hlt ?_).1 hkeys
  rw [map_fst_toList_eq_keys]
  exact nodup_keys

theorem World.capped_ofView {config} {account : AccountPlan} {m : ℕ}
    (hv : view.Sound config) (ha : config.accounts[account.id]? = some account)
    (hm : account.maxConcurrency = some m) (hone : (view.slotsOf account.id).length ≤ 1) :
    (World.ofView view).Capped account.id m := by
  have hseed : ∀ i b e, (World.ofView view).HasSlot account.id i b e →
      e.inFlight = 0 ∧ e.registration.maxInFlight = some m := by
    intro i b e he
    obtain ⟨key, registry, -, hget, hslot, -⟩ := he.ofView
    obtain ⟨owner, howner, hown⟩ := (hv.seeded key registry hget).slots b e hslot
    rw [he.account, ha] at howner
    cases howner
    exact ⟨hown.inFlight, hown.maxInFlight.trans hm⟩
  refine ⟨World.ofView_oneSlot hone, ?_, ?_, ?_, Nat.zero_le m⟩
  · exact fun i b e he => (hseed i b e he).2
  · exact fun i b e he => (hseed i b e he).1
  · exact fun i b e he hd hhd => absurd hhd not_mem_nil

/-- Digests that repeat their input. -/
def plainDigests : Digests where
  accountConfigurationFingerprint _ account _ := some account
  digestLabel label value := label ++ value

def boundedAccount : AccountPlan :=
  { id := "account", provider := "provider", authKind := .apiKey, weight := 1, maxConcurrency := some 1
    quotaProject := none, maxConcurrency_le := by decide }

def boundedTarget (bindingId : String) : ModelTargetPlan :=
  { id := "target", bindingId, provider := "provider", account := some "account", accountPool := none
    priority := 1, weight := 1, capabilities := .new, codecs := [] }

def sharedConfig (models : List String) : PoolConfig where
  accounts := Std.ExtTreeMap.ofList [("account", boundedAccount)] _
  accountPools := ∅
  upstreams := Std.ExtTreeMap.ofList [("provider", ⟨"provider", none, false⟩)] _
  models := Std.ExtTreeMap.ofList (models.map (fun model => (model, [boundedTarget (model ++ "/target")]))) _
  routes := []
  accounts_keyed := by
    intro id account h
    rw [show Std.ExtTreeMap.ofList [("account", boundedAccount)] _ =
      ((∅ : Table String AccountPlan).insert "account" boundedAccount) from rfl, Table.get_insert] at h
    split_ifs at h with hid
    · cases h; exact hid
    · simp at h

def modelRequest (model : String) (h : (validateNamed model).isOk = true) : SelectionRequest :=
  { model := ⟨model, h⟩, now := 0 }

end Pooler
