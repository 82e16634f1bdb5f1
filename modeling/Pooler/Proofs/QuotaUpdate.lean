import Pooler.Proofs.QuotaObservations

/-! An update of the quota of an account goes over its bindings one by one. When a binding has no
subject for the scope, the bindings before it may have taken the snapshot already. -/

namespace Pooler

open Lib List

/-- Some binding of the account has no subject for the scope of the snapshot. -/
def Lacking (snapshot : QuotaSnapshot) (es : List RegistryEntry) : Prop :=
  ∃ e ∈ es, (quotaSubject e.registration snapshot.scope).isOk = false

/-- No binding before the first one that lacks a subject takes the snapshot. -/
def RefusedAhead (s : RegistryState) (snapshot : QuotaSnapshot) (es : List RegistryEntry) : Prop :=
  ∀ e ∈ es.takeWhile (fun e => (quotaSubject e.registration snapshot.scope).isOk), ∀ subject,
    quotaSubject e.registration snapshot.scope = .ok subject → (insertWindow s.quotas subject snapshot).1 = false

variable {snapshot : QuotaSnapshot}

theorem isOk_quotaSubject {scope} (h : scope.ofBinding = true) (r : CredentialRegistration) :
    (quotaSubject r scope).isOk = true := by
  cases scope <;> first | rfl | cases h

theorem survivor_self (w : QuotaSnapshot) : survivor (some w) w = some w := by
  unfold survivor
  split_ifs <;> rfl

/-- The loop keeps what it has filed: a later binding files the same snapshot. -/
theorem setQuotaOn_files {k : QuotaSubject × QuotaUnit} (es : List RegistryEntry) :
    ∀ changed s, s.quotas[k]? = some snapshot →
      (RegistryState.setQuotaOn snapshot es changed s).2.quotas[k]? = some snapshot := by
  induction es with
  | nil => intro changed s h; exact h
  | cons e es ih =>
    intro changed s h
    rw [RegistryState.setQuotaOn]
    rcases insertQuotaForBinding_cases s e.registration.binding e.registration snapshot with
      ⟨-, hins⟩ | ⟨-, ⟨err, -, hins⟩ | ⟨subject, -, hins⟩⟩ <;> rw [hins]
    · exact ih _ _ h
    · exact h
    · refine ih _ _ ?_
      dsimp only
      rw [get_insertWindow]
      split_ifs
      · rw [h, survivor_self]
      · exact h

/-- The loop fails exactly at a binding without a subject. It has then filed nothing with a binding, and
nothing at all exactly if the bindings before that one refused the snapshot. -/
theorem setQuotaOn_lacking (es : List RegistryEntry) : ∀ changed s,
    ((∃ err, (RegistryState.setQuotaOn snapshot es changed s).1 = .error err) ↔ Lacking snapshot es) ∧
    (Lacking snapshot es → (RegistryState.setQuotaOn snapshot es changed s).2.bindingQuotas = s.bindingQuotas ∧
      ((RegistryState.setQuotaOn snapshot es changed s).2.quotas = s.quotas ↔ RefusedAhead s snapshot es)) := by
  induction es with
  | nil => intro changed s; simp [RegistryState.setQuotaOn, Lacking]
  | cons e es ih =>
    intro changed s
    rw [RegistryState.setQuotaOn, RefusedAhead, Lacking, exists_mem_cons_iff]
    rcases insertQuotaForBinding_cases s e.registration.binding e.registration snapshot with
      ⟨hscp, hins⟩ | ⟨-, ⟨err, hsub, hins⟩ | ⟨subject, hsub, hins⟩⟩ <;> rw [hins]
    · rw [isOk_quotaSubject hscp, or_iff_right Bool.noConfusion]
      refine ⟨(ih _ _).1, ?_⟩
      rintro ⟨e', -, he'⟩
      rw [isOk_quotaSubject hscp] at he'
      cases he'
    · rw [takeWhile_cons_of_neg (by rw [hsub]; exact Bool.false_ne_true), hsub]
      exact ⟨iff_of_true ⟨err, rfl⟩ (.inl rfl), fun _ => ⟨rfl, iff_of_true rfl fun _ h => absurd h not_mem_nil⟩⟩
    · rw [takeWhile_cons_of_pos (by rw [hsub]; rfl), forall_mem_cons, hsub, or_iff_right Bool.noConfusion]
      obtain ⟨herror, hs⟩ := ih (changed || (insertWindow s.quotas subject snapshot).1)
        { s with quotas := (insertWindow s.quotas subject snapshot).2 }
      refine ⟨herror, fun hlack => ⟨(hs hlack).1, ?_⟩⟩
      have hiff := (hs hlack).2
      cases htkn : (insertWindow s.quotas subject snapshot).1 with
      | false =>
        rw [htkn] at hiff
        rw [insertWindow_refused htkn] at hiff ⊢
        refine hiff.trans (iff_and_self.2 fun _ subject' h => ?_)
        cases h
        exact htkn
      | true =>
        obtain ⟨hne, hfil⟩ := insertWindow_taken htkn
        refine iff_of_false (fun hs => hne ?_) (fun hall => ?_)
        · rw [← hs]
          exact setQuotaOn_files es _ _ hfil
        · rw [hall.1 subject rfl] at htkn
          cases htkn

/-- A failed update changes nothing exactly if no binding ahead of the one that fails takes the snapshot. -/
theorem failed_quota_update_changes_nothing_iff (s : RegistryState) (credential : CredentialId) (snapshot : QuotaSnapshot) :
    (∀ err, (s.setQuotaSnapshot credential snapshot).1 = .error err →
      (s.setQuotaSnapshot credential snapshot).2.quotas = s.quotas ∧
        (s.setQuotaSnapshot credential snapshot).2.bindingQuotas = s.bindingQuotas) ↔
    (Lacking snapshot (s.entries.values.filter (fun e => e.registration.credential = credential)) →
      RefusedAhead s snapshot (s.entries.values.filter (fun e => e.registration.credential = credential))) := by
  obtain ⟨herror, hs⟩ := @setQuotaOn_lacking snapshot
    (s.entries.values.filter (fun e => e.registration.credential = credential)) false s
  rw [RegistryState.setQuotaSnapshot]
  constructor
  · intro h hlack
    obtain ⟨err, herr⟩ := herror.2 hlack
    exact (hs hlack).2.1 (h err herr).1
  · intro h err herr
    have hlack := herror.1 ⟨err, herr⟩
    exact ⟨(hs hlack).2.2 (h hlack), (hs hlack).1⟩

/-- Two bindings of one account, of which the second has no project. -/
def twoBindings : RegistryState :=
  (RegistryState.register {} (sampleRegistration.withQuotaProject ⟨"project"⟩)).register { sampleRegistration with
    binding := ⟨⟨"model/zone", by decide⟩, sampleBinding.accountId, "fingerprint"⟩ }

theorem failed_update_files_a_window :
    (twoBindings.setQuotaSnapshot sampleBinding.accountId { fullReport with scope := .project }).1 =
        .error .missingQuotaProject ∧
      (twoBindings.setQuotaSnapshot sampleBinding.accountId { fullReport with scope := .project }).2.quotas ≠
        twoBindings.quotas := by
  refine ⟨by decide +kernel, fun h => ?_⟩
  have hsize := congrArg Std.ExtTreeMap.size h
  revert hsize
  decide +kernel

end Pooler
