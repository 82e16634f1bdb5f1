import Pooler.Proofs.Leases
import Pooler.Spec.Http.Proxy

/-! The registrations of a world's registries. No call but a registration or a removal changes them,
and every selection hands out one of them. -/

namespace Pooler

open Lib RegistryInner

namespace World

/-- The registrations of the later world are registrations of the earlier. -/
def Keeps (w w' : World) : Prop :=
  ∀ i b e', (w'.registries i).state.entries.get b = some e' →
    ∃ e, (w.registries i).state.entries.get b = some e ∧ e.registration = e'.registration

variable {w w' : World}

theorem Keeps.refl (w : World) : Keeps w w := fun _ _ e h => ⟨e, h, rfl⟩

theorem Keeps.trans {w''} (h : Keeps w w') (h' : Keeps w' w'') : Keeps w w'' := by
  intro i b e'' he''
  obtain ⟨e', he', hreg'⟩ := h' i b e'' he''
  obtain ⟨e, he, hreg⟩ := h i b e' he'
  exact ⟨e, he, hreg.trans hreg'⟩

def Registered (w : World) (i : ℕ) (r : CredentialRegistration) : Prop :=
  ∃ e, (w.registries i).state.entries.get r.binding = some e ∧ e.registration = r

variable {i : ℕ}

theorem registered_of_get {b e} (h : (w.registries i).state.entries.get b = some e) : w.Registered i e.registration :=
  ⟨e, by rw [Slots.binding_of_get h]; exact h, rfl⟩

theorem Keeps.registered {r} (h : Keeps w w') (hr : w'.Registered i r) : w.Registered i r := by
  obtain ⟨e', he', rfl⟩ := hr
  obtain ⟨e, he, hreg⟩ := h i _ e' he'
  exact ⟨e, he, hreg⟩

theorem keeps_setRegistry {r} (h : SameSlots (w.registries i).state r.state) : Keeps w (w.setRegistry i r) := by
  intro j b e' he'
  rw [setRegistry_registries] at he'
  split_ifs at he' with hj
  · obtain ⟨e, he, hreg, -⟩ := h.get he'
    exact ⟨e, by rw [hj]; exact he, hreg⟩
  · exact ⟨e', he', rfl⟩

variable {request : SelectionRequest}

theorem keeps_selected {mid r h lease} (hsame : SameSlots (w.registries i).state mid)
    (hsel : selectFromState mid h request = (.ok lease, r.state)) :
    Keeps w ((w.setRegistry i r).issue i (some lease)) := by
  intro j b e' he'
  obtain ⟨e, he, hreg, -⟩ := selected_get hsame hsel he'
  exact ⟨e, he, hreg.symm⟩

theorem keeps_release (w : World) (t : ℕ) : Keeps w (w.release t) := by
  intro i b e' he'
  cases hget : w.holdings[t]? with
  | none => exact ⟨e', by simpa [release, hget] using he', rfl⟩
  | some hd =>
    cases hr : hd.released with
    | true => exact ⟨e', by simpa [release, hget, hr] using he', rfl⟩
    | false =>
      obtain ⟨e, he, rfl⟩ := release_get hget hr he'
      exact ⟨e, he, by split_ifs <;> rfl⟩

theorem keeps_dropTicket (w : World) (t : ℕ) : Keeps w (w.dropTicket t) := by
  have h := keeps_release w t
  simp only [dropTicket]
  split
  · exact h
  · exact h

theorem keeps_dropLease (w : World) (lease : Option ℕ) : Keeps w (w.dropLease lease) := by
  cases lease with
  | none => exact .refl w
  | some t => exact w.keeps_dropTicket t

theorem Handed.keeps (hhand : Handed w i w') : Keeps w w' := by
  cases hhand with
  | none hsame => exact keeps_setRegistry hsame
  | some hsame hsel => exact keeps_selected hsame hsel

/-- A recovery keeps the registrations. Its replacement is one of them, under a decision to retry. -/
theorem recoverQuota_registrations {i t : ℕ} {hd cls pol ctx res} (hget : w.holdings[t]? = some hd)
    (hrec : w.recoverQuota i t hd cls request pol ctx = (res, w')) :
    Keeps w w' ∧ ∀ lease, QuotaRecovery.leaseOf res = some lease → w.Registered i lease.registration ∧
      ∃ fail, cls.failure = some fail ∧ (pol.decide fail
        { ctx with targetChange := rotationTarget cls.snapshot.scope }).isRetry = true := by
  rcases recoverQuota_cases hget hrec with ⟨⟨err, rfl⟩, rfl⟩ | ⟨fail, r, hfail, -, -, -, hrot, rfl⟩
  · exact ⟨w.keeps_dropTicket t, fun _ h => absurd h (by simp [QuotaRecovery.leaseOf, Except.toOption])⟩
  have hrel := w.keeps_release t
  rcases rotateQuota_slots hrot with ⟨hn, hsame⟩ | ⟨lease, mid, hsome, hsame, hsel⟩
  · rw [hn]
    exact ⟨hrel.trans (keeps_setRegistry hsame), fun _ h => absurd h (by simp)⟩
  · rw [hsome]
    refine ⟨hrel.trans (keeps_selected hsame hsel), ?_⟩
    intro lease' hls
    rw [← Option.some.inj hls]
    obtain ⟨e, hg⟩ := select_grants hsel
    obtain ⟨e1, he1, hreg1, -⟩ := hsame.get hg.before
    refine ⟨?_, fail, hfail, rotateQuota_isRetry hrot hsome⟩
    rw [hg.registration, ← hreg1]
    exact hrel.registered (registered_of_get he1)

theorem keeps_step (w : World) (e : WorldEvent) (he : e.keepsBindings = true) : Keeps w (w.step e) := by
  have hmvd := w.step_moved e
  generalize w.step e = w' at hmvd ⊢
  cases hmvd with
  | idle | put => exact .refl w
  | op => exact keeps_setRegistry (apply_slots _ he)
  | handed h => exact h.keeps
  | dropped => exact w.keeps_dropTicket _
  | recovered hget h => exact (w.keeps_release _).trans h.keeps

theorem keeps_applyQuotas (i : ℕ) (cred : CredentialId) (quotas : List QuotaClassification) :
    ∀ w, Keeps w (w.applyQuotas i cred quotas) := by
  induction quotas with
  | nil => exact .refl
  | cons quota quotas ih =>
    intro w
    exact (w.keeps_step _ rfl).trans (ih _)

/-- What a call comes to: the registrations are kept, and a selection, if there is one, is for a
registration with `p`. -/
structure Draws (w : World) (p : CredentialRegistration → Prop) (out : Option PoolSelection) (w' : World) :
    Prop where
  keeps : Keeps w w'
  drawn : ∀ selection, out = some selection → p selection.registration

variable {p q : CredentialRegistration → Prop} {out : Option PoolSelection}

theorem Draws.nothing (h : Keeps w w') : Draws w p none w' := ⟨h, fun _ h => absurd h (by simp)⟩

theorem Draws.one {selection} (h : Keeps w w') (hp : p selection.registration) : Draws w p (some selection) w' := by
  refine ⟨h, fun selection' hs => ?_⟩
  rw [← Option.some.inj hs]
  exact hp

theorem Draws.after {mid} (h : Draws mid q out w') (hk : Keeps w mid) (hpq : ∀ r, q r → p r) : Draws w p out w' :=
  ⟨hk.trans h.keeps, fun selection hs => hpq _ (h.drawn selection hs)⟩

def Unexcluded (w : World) (i : ℕ) (excluded : BindingKey → Prop) (r : CredentialRegistration) : Prop :=
  w.Registered i r ∧ ¬excluded r.binding

theorem Draws.unexcluded {mid excluded}
    (h : Draws mid (mid.Unexcluded i excluded) out w') (hk : Keeps w mid) : Draws w (w.Unexcluded i excluded) out w' :=
  h.after hk (fun _ hr => ⟨hk.registered hr.1, hr.2⟩)

theorem lend_draws {key res} (h : w.lend key i request = (res, w')) :
    Draws w (w.Unexcluded i (· ∈ request.excludedBindings)) res.toOption w' := by
  have hkeep := (w.selectWith_handed i (w.registries i).health request).keeps
  rcases hsel : selectFromState (w.registries i).state (w.registries i).health request with ⟨res', state⟩
  rw [selectWith_eq hsel] at hkeep
  simp only [lend, selectWith_eq hsel] at h
  cases h
  cases res' with
  | error => exact .nothing hkeep
  | ok =>
    obtain ⟨e, hg⟩ := select_grants hsel
    refine .one hkeep ?_
    simp only [hg.registration]
    refine ⟨registered_of_get hg.before, ?_⟩
    rw [Slots.binding_of_get hg.before]
    exact hg.not_excluded

end World

end Pooler
