import Pooler.Proofs.QuotaRecovery

/-! No quota window outlives its owner: a shared subject covers a registered slot, and a window of a
binding stands under a registered one. -/

namespace Pooler

open Lib World RegistryInner Option

namespace RegistryState

variable {s s' : RegistryState} {b : BindingKey} {r : CredentialRegistration}

/-- The registration that stands under a binding. -/
def registration (s : RegistryState) (b : BindingKey) : Option CredentialRegistration :=
  (s.entries.get b).map (·.registration)

structure Owned (s : RegistryState) : Prop where
  quotas : ∀ (k : QuotaSubject × QuotaUnit) w, s.quotas[k]? = some w →
    ∃ b r, s.registration b = some r ∧ subjectMatches k.1 r = true
  bindingQuotas : ∀ (k : BindingKey × QuotaUnit) w, s.bindingQuotas[k]? = some w → (s.registration k.1).isSome = true

theorem registration_of_mem {e} (h : e ∈ s.entries.values) :
    s.registration e.registration.binding = some e.registration := by
  rw [registration, Slots.mem_values.1 h, map_some]

theorem Owned.of_within (hs : s.Owned) (h : ∀ b, s'.registration b = s.registration b)
    (hquot : ∀ (k : QuotaSubject × QuotaUnit) w, s'.quotas[k]? = some w → s.quotas[k]? = some w)
    (hbin : ∀ (k : BindingKey × QuotaUnit) w, s'.bindingQuotas[k]? = some w → s.bindingQuotas[k]? = some w) :
    s'.Owned where
  quotas k w hw := by simpa only [h] using hs.quotas k w (hquot k w hw)
  bindingQuotas k w hw := by simpa only [h] using hs.bindingQuotas k w (hbin k w hw)

theorem owned_prune (s : RegistryState) : s.pruneOrphanQuotas.Owned where
  quotas k w hw := by
    rw [pruneOrphanQuotas, Table.get_filter, filter_eq_some_iff, List.any_eq_true] at hw
    obtain ⟨-, e, he, hmat⟩ := hw
    exact ⟨_, _, registration_of_mem he, hmat⟩
  bindingQuotas k w hw := by
    rw [pruneOrphanQuotas, Table.get_filter, filter_eq_some_iff, decide_eq_true_eq, Slots.mem_bindings] at hw
    obtain ⟨-, e, he⟩ := hw
    show ((s.entries.get k.1).map _).isSome = true
    rw [he]
    rfl

theorem subjectMatches_of_quotaSubject {scope subject} (h : quotaSubject r scope = .ok subject) :
    subjectMatches subject r = true := by
  cases scope <;> simp only [quotaSubject] at h
  case project | projectModel =>
    split at h
    next hproj => cases h; simp [subjectMatches, hproj]
    next => cases h
  all_goals cases h; simp [subjectMatches]

section

variable (hs : s.Owned) (hr : s.registration b = some r) (snapshot : QuotaSnapshot)
include hs hr

/-- A subject that a slot answers for may be filed. -/
theorem Owned.insertQuotaSubject {subject} (hmat : subjectMatches subject r = true) :
    { s with quotas := (insertWindow s.quotas subject snapshot).2 }.Owned := by
  refine ⟨fun k w hw => ?_, hs.bindingQuotas⟩
  rw [get_insertWindow] at hw
  split_ifs at hw with hk
  · exact ⟨b, r, hr, by rw [← hk]; exact hmat⟩
  · exact hs.quotas k w hw

theorem Owned.insertQuotaForBinding : (s.insertQuotaForBinding b r snapshot).2.Owned := by
  rcases insertQuotaForBinding_cases s b r snapshot with
    ⟨-, hins⟩ | ⟨-, ⟨err, -, hins⟩ | ⟨subject, hsub, hins⟩⟩ <;> rw [hins]
  · refine ⟨hs.quotas, fun k w hw => ?_⟩
    rw [get_insertWindow] at hw
    split_ifs at hw with hk
    · exact isSome_iff_exists.2 ⟨r, by rw [← hk]; exact hr⟩
    · exact hs.bindingQuotas k w hw
  · exact hs
  · exact hs.insertQuotaSubject hr snapshot (subjectMatches_of_quotaSubject hsub)

end

theorem Owned.setQuotaOn (snapshot : QuotaSnapshot) (es : List RegistryEntry) : ∀ (changed : Bool) (s : RegistryState),
    s.Owned → (∀ e ∈ es, s.registration e.registration.binding = some e.registration) →
      (setQuotaOn snapshot es changed s).2.Owned := by
  induction es with
  | nil => intro changed s hs _; exact hs
  | cons e es ih =>
    intro changed s hs hes
    have hins := hs.insertQuotaForBinding (hes e List.mem_cons_self) snapshot
    have hsame := (insertQuotaForBinding_slots s e.registration.binding e.registration snapshot).registration
    rw [RegistryState.setQuotaOn]
    split
    next h => rw [h] at hins; exact hins
    next h =>
      rw [h] at hins hsame
      exact ih _ _ hins fun e' he' => (hsame _).trans (hes e' (List.mem_cons_of_mem _ he'))

theorem Owned.select {h req res} (hs : s.Owned) (hsel : selectFromState s h req = (res, s')) : s'.Owned := by
  refine hs.of_within ?_ (select_keepsWindows hsel).quotas.1 (select_keepsWindows hsel).bindingQuotas.1
  cases res with
  | error => exact (selectFromState_error_slots hsel).registration
  | ok lease =>
    obtain ⟨e, hg⟩ := select_grants hsel
    intro b
    by_cases hb : b = lease.binding
    · rw [registration, registration, hb, hg.after, hg.before]
      rfl
    · rw [registration, hg.others b hb, registration]

theorem Owned.dropExpired (hs : s.Owned) (now : ℕ) : (s.dropExpired now).Owned :=
  hs.of_within (fun _ => rfl) (dropsOnly_filter _ _).1 (dropsOnly_filter _ _).1

end RegistryState

open RegistryState

variable {i r : RegistryInner}

theorem setCredentialsEnabled_windows (changes : List (CredentialId × Bool)) : ∀ i : RegistryInner,
    (i.setCredentialsEnabled changes).state.quotas = i.state.quotas ∧
      (i.setCredentialsEnabled changes).state.bindingQuotas = i.state.bindingQuotas := by
  induction changes with
  | nil => intro i; exact ⟨rfl, rfl⟩
  | cons change changes ih =>
    intro i
    refine ⟨(ih _).1.trans ?_, (ih _).2.trans ?_⟩ <;> unfold setCredentialEnabled <;> split_ifs <;> rfl

theorem apply_owned (hs : i.state.Owned) (op : RegistryOp) : (i.apply op).state.Owned := by
  cases op with
  | register r =>
    simp only [apply, RegistryInner.register, RegistryState.register]
    split <;> exact owned_prune _
  | unregister | unregisterBinding =>
    simp only [apply, unregister, unregisterBinding]
    split
    · exact hs
    · exact owned_prune _
  | setQuotaSnapshot =>
    exact .setQuotaOn _ _ _ _ hs fun e he => registration_of_mem (List.mem_of_mem_filter he)
  | setBindingQuotaSnapshot binding snapshot =>
    simp only [apply, setBindingQuotaSnapshot]
    split
    · exact hs
    next he => exact hs.insertQuotaForBinding (by rw [registration, he, map_some]) snapshot
  | restoreQuotaState subject snapshot =>
    simp only [apply, restoreQuotaState]
    split_ifs with hany
    · obtain ⟨e, he, hmat⟩ := List.any_eq_true.1 hany
      exact hs.insertQuotaSubject (registration_of_mem he) snapshot hmat
    · exact hs
  | recoverQuotas => exact hs.of_within (fun _ => rfl) (dropsOnly_filter _ _).1 (dropsOnly_filter _ _).1
  | setCredentialsEnabled changes =>
    have hsame := setCredentialsEnabled_windows changes i
    exact hs.of_within (apply_slots i rfl).registration (fun _ _ hw => hsame.1 ▸ hw) fun _ _ hw => hsame.2 ▸ hw
  | registerModelAlias =>
    simp only [apply, registerModelAlias]
    split <;> exact hs.of_within (fun _ => rfl) (fun _ _ => id) fun _ _ => id
  | restoreAffinity | restoreAffinityBinding =>
    simp only [apply, restoreAffinity, restoreAffinityBinding]
    split
    · exact hs
    · obtain ⟨t, _, ht, -⟩ := insertBoundedAffinity_frame (i.state.purgeExpiredAffinity _) _ _
      rw [ht]
      exact hs.of_within (fun _ => rfl) (fun _ _ => id) fun _ _ => id
  | setEnabled | setBindingEnabled | disable | enable | disableBinding | enableBinding | applyFailure | restoreCooldown
  | clearExpired | purgeExpiredAffinity =>
    exact hs.of_within (apply_slots i rfl).registration (fun _ _ => id) fun _ _ => id

/-- The lease was taken from the slot as it still stands, so its window has an owner. -/
theorem rotateQuota_owned {failed cls fail req pol context res} (hs : i.state.Owned)
    (howns : i.state.registration failed.binding = some failed.registration)
    (h : i.rotateQuota failed cls fail req pol context = (res, r)) : r.state.Owned := by
  have hins := (hs.dropExpired req.now).insertQuotaForBinding howns cls.snapshot
  rcases rotateQuota_cases h with ⟨err, taken, -, heq, -⟩ | ⟨state, heq, hre⟩ <;> rw [heq] at hins
  · exact hins
  · rcases reselect_cases hre with ⟨-, -, rfl⟩ | ⟨-, lease, state', hsel, -, rfl⟩ | ⟨-, err, state', hsel, -, rfl⟩
    · exact hins
    · exact hins.select hsel
    · exact hins.select hsel

namespace World

variable {w : World}

def Owned (w : World) : Prop := ∀ i, (w.registries i).state.Owned

theorem Owned.setRegistry (hw : w.Owned) {i : ℕ} (hr : r.state.Owned) : (w.setRegistry i r).Owned := by
  intro j
  rw [setRegistry_registries]
  split_ifs
  · exact hr
  · exact hw j

theorem Owned.release (hw : w.Owned) (t : ℕ) : (w.release t).Owned ∧
    ∀ i b, ((w.release t).registries i).state.registration b = (w.registries i).state.registration b := by
  cases hget : w.holdings[t]? with
  | none => simpa [World.release, hget] using hw
  | some hd =>
    cases hr : hd.released with
    | true => rw [release_of_released hget hr]; exact ⟨hw, fun _ _ => rfl⟩
    | false =>
      have hsame (i b) : ((w.release t).registries i).state.registration b = (w.registries i).state.registration b := by
        rw [release_registry hget hr]
        split_ifs
        · simp only [registration, releaseSlot, Slots.get_update, map_map]
          congr 1
          funext e
          simp only [Function.comp_apply]
          split_ifs <;> rfl
        · rfl
      refine ⟨fun i => (hw i).of_within (hsame i) ?_ ?_, hsame⟩ <;> rw [release_registry hget hr] <;> split_ifs <;>
        exact fun _ _ => id

theorem Owned.dropTicket (hw : w.Owned) (t : ℕ) : (w.dropTicket t).Owned := by
  simp only [World.dropTicket]
  split <;> exact (hw.release t).1

theorem Owned.step (hw : w.Owned) (e : WorldEvent) : (w.step e).Owned := by
  cases e with
  | op i op => exact hw.setRegistry (apply_owned (hw i) op)
  | select i req | selectWithHealth i req =>
    simp only [World.step, selectWith, Owned, issue_registries]
    exact hw.setRegistry ((hw i).select rfl)
  | recoverQuota i t cls req pol context =>
    simp only [World.step]
    split
    · exact hw
    next hd hget =>
    split_ifs
    swap
    · exact hw
    rcases hrec : w.recoverQuota i t hd cls req pol context with ⟨res, w'⟩
    rcases recoverQuota_cases hget hrec with ⟨-, rfl⟩ | ⟨fail, r, -, -, -, howns, hrot, rfl⟩
    · exact hw.dropTicket t
    · obtain ⟨hrel, hsame⟩ := hw.release t
      have hown : (w.registries i).state.registration hd.grant.binding = some hd.grant.registration := by
        simp only [ownsEntry, any_eq_true, Bool.and_eq_true, decide_eq_true_eq] at howns
        obtain ⟨e, he, -, hreg⟩ := howns
        rw [registration, he, map_some, hreg]
      simp only [Owned, setHolding_registries, issue_registries]
      exact hrel.setRegistry (rotateQuota_owned (hrel i) ((hsame i _).trans hown) hrot)
  | intoParts | drop =>
    simp only [World.step]
    split
    · exact hw
    · split_ifs
      all_goals first | exact hw | exact hw.dropTicket _

end World

/-- After any calls on any registries, with selections, recoveries and drops of leases between them,
every window has an owner. -/
theorem quota_bookkeeping_has_no_orphans (events : List WorldEvent) (i : ℕ) :
    ((World.run {} events).registries i).state.Owned := by
  have hst : World.Owned {} := fun i => ⟨fun k w hw => by simp at hw, fun k w hw => by simp at hw⟩
  exact @run_invariant _ _ World.step World.Owned (fun _ e hw => hw.step e) events _ hst i

end Pooler
