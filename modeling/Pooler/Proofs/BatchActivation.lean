import Pooler.Proofs.Dependents

/-! A batch of credential activations is refused as a whole, or carried out record by record. -/

namespace Pooler.MemoryStore

open Lib OrderedMap List

/-- The record of a credential and its health. -/
abbrev Entry := Option CredentialState × Option CredentialHealthState

/-- The entry once the record is written; `health` is what the purge left. -/
def written (state : CredentialState) (health : Option CredentialHealthState) : Entry :=
  (some state, if state.enabled then health else some (.new state.credentialId .disabled state.updatedAt))

/-- What an activation is to make of an entry. -/
def taken (desired : CredentialState) (revision : ℕ) (before : Entry) : Entry :=
  match before.1 with
  | none => written { desired with revision } before.2
  | some old =>
    if exactIdentity old desired then before
    else if old.providerId = desired.providerId ∧ old.configurationFingerprint = "" then
      written { desired with enabled := old.enabled, revision } none
    else written { desired with revision } none

namespace Inner

variable {s t u : Inner} {desired : CredentialState} {batch : List CredentialState}
  {activation : CredentialConfigurationActivation} {activations : List CredentialConfigurationActivation}

def entry (s : Inner) (id : String) : Entry := (s.credentials.get id, s.health.get id)

/-- The credential is there under another identity. -/
def Changes (s : Inner) (desired : CredentialState) : Prop :=
  ∃ old, s.credentials.get desired.credentialId = some old ∧ exactIdentity old desired = false

structure Activated (batch : List CredentialState) (s t : Inner) : Prop where
  taken : ∀ desired ∈ batch, ∃ revision,
    t.entry desired.credentialId = taken desired revision (s.entry desired.credentialId)
  others : ∀ id ∉ batch.map (·.credentialId), t.entry id = s.entry id
  affinities : ∀ key affinity, t.affinities.get key = some affinity ↔ s.affinities.get key = some affinity ∧
    ∀ desired ∈ batch, s.Changes desired → affinity.credentialId ≠ desired.credentialId
  cooldowns : ∀ key cooldown, t.cooldowns.get key = some cooldown ↔ s.cooldowns.get key = some cooldown ∧
    ∀ desired ∈ batch, s.Changes desired → cooldownCredentialId (ofLex key).1 (ofLex key).2 ≠ some desired.credentialId

section

variable (s) (state : CredentialState) (purge : Bool)

theorem rewrite_entry (id : String) : (s.rewrite state purge).entry id =
    if state.credentialId = id then
      written { state with revision := s.credentialRevision + 1 } (if purge then none else s.health.get id)
    else s.entry id := by
  rw [entry, get_rewrite, rewrite_health]
  by_cases hid : state.credentialId = id
  · simp [written, hid]
  · simp [entry, hid]

theorem rewrite_credentialRevision : (s.rewrite state purge).credentialRevision = s.credentialRevision + 1 := by
  unfold rewrite putDisabled
  cases purge with
  | true | false => split_ifs <;> rfl

end

/-- The rest of the batch finds its records as the whole batch did. -/
theorem Activated.cons (h : Activated [desired] s t) (hr : Activated batch t u)
    (hid : desired.credentialId ∉ batch.map (·.credentialId)) : Activated (desired :: batch) s u := by
  have same : ∀ next ∈ batch, t.entry next.credentialId = s.entry next.credentialId := by
    intro next hnext
    exact h.others _ fun heq => hid (mem_map.2 ⟨next, hnext, mem_singleton.1 heq⟩)
  have changes : ∀ next ∈ batch, (t.Changes next ↔ s.Changes next) := by
    intro next hnext
    rw [Changes, Changes, (Prod.mk.inj (same next hnext)).1]
  refine ⟨forall_mem_cons.2 ⟨?_, fun next hnext => ?_⟩, fun id hnot => ?_, fun key aff => ?_, fun key cooldown => ?_⟩
  · rw [hr.others _ hid]
    exact h.taken _ mem_cons_self
  · rw [← same next hnext]
    exact hr.taken next hnext
  · obtain ⟨hne, hnot⟩ := not_or.1 (mt mem_cons.2 hnot)
    exact (hr.others id hnot).trans (h.others id (by simpa using hne))
  · rw [hr.affinities, h.affinities, and_assoc, forall_mem_singleton, forall_mem_cons]
    simp +contextual only [changes]
  · rw [hr.cooldowns, h.cooldowns, and_assoc, forall_mem_singleton, forall_mem_cons]
    simp +contextual only [changes]

theorem activated_rewrite {enabled}
    (hoth : ∀ old, s.credentials.get desired.credentialId = some old → exactIdentity old desired = false)
    (hena : enabled = if (s.credentials.get desired.credentialId).any (fun state =>
        state.providerId = desired.providerId && state.configurationFingerprint.isEmpty)
      then (s.credentials.get desired.credentialId).any (·.enabled) else desired.enabled) :
    Activated [desired] s (s.rewrite { desired with enabled } (s.credentials.contains desired.credentialId)) := by
  have hchan : s.credentials.contains desired.credentialId = true ↔ s.Changes desired :=
    contains_iff.trans (exists_congr fun old => (and_iff_left_of_imp (hoth old)).symm)
  refine ⟨forall_mem_singleton.2 ⟨s.credentialRevision + 1, ?_⟩, fun id hid => ?_, fun key aff => ?_,
    fun key cooldown => ?_⟩
  · rw [rewrite_entry, if_pos rfl]
    cases hg : s.credentials.get desired.credentialId with
    | none => simp [MemoryStore.taken, entry, hg, hena, OrderedMap.contains]
    | some old =>
      simp only [MemoryStore.taken, entry, hg, hoth old hg, hena, OrderedMap.contains]
      split_ifs <;> simp_all
  · rw [rewrite_entry, if_neg fun heq => hid (mem_singleton.2 heq.symm)]
  · rw [rewrite_affinities, forall_mem_singleton, hchan]
  · rw [rewrite_cooldowns, forall_mem_singleton, hchan]

theorem activateOne_activated (hrm : s.credentialRevision + activationWrites [activation] s ≤ u64Max) :
    ∃ report t, activateOne activation s = (.ok report, t) ∧ Activated [activation.desired] s t ∧
      t.credentialRevision = s.credentialRevision + activationWrites [activation] s := by
  unfold activateOne
  dsimp only
  split
  next state hfil =>
    obtain ⟨hg, hexact⟩ := Option.filter_eq_some_iff.1 hfil
    have hs : ¬s.Changes activation.desired := by simp [Changes, hg, hexact]
    refine ⟨_, s, rfl, ⟨?_, fun _ _ => rfl, by simp [hs], by simp [hs]⟩, by simp [activationWrites, hg, hexact]⟩
    simp [MemoryStore.taken, entry, hg, hexact]
  next hfil =>
    have hoth : ∀ old, s.credentials.get activation.desired.credentialId = some old →
        exactIdentity old activation.desired = false := by
      intro old hold
      rw [hold, Option.filter_eq_none_iff] at hfil
      simpa using hfil
    have hwrit : activationWrites [activation] s = 1 := by simpa [activationWrites, Option.all_eq_true] using hoth
    have hrev : ∀ purge : Bool, (if purge then s.purgeCredentialDependents activation.desired.credentialId
        else s).credentialRevision = s.credentialRevision := by
      intro purge
      cases purge <;> rfl
    rw [hwrit] at hrm ⊢
    rw [nextCredentialRevision, if_pos (by rwa [hrev])]
    exact ⟨_, _, rfl, activated_rewrite hoth rfl, rewrite_credentialRevision ..⟩

theorem activateEach_activated (hnd : (activations.map (·.desired.credentialId)).Nodup)
    (hrm : s.credentialRevision + activationWrites activations s ≤ u64Max) :
    ∃ reports t, activateEach activations s = (.ok reports, t) ∧ Activated (activations.map (·.desired)) s t := by
  induction activations generalizing s with
  | nil => exact ⟨[], s, rfl, by simp, fun _ _ => rfl, by simp, by simp⟩
  | cons activation activations ih =>
    obtain ⟨hnot, hnd⟩ := nodup_cons.1 hnd
    have hcons : activationWrites (activation :: activations) s =
        activationWrites [activation] s + activationWrites activations s := @countP_append _ _ [activation] _
    obtain ⟨report, t, hone, hact, hrev⟩ := @activateOne_activated s activation (by omega)
    have hs : activationWrites activations t = activationWrites activations s := by
      refine countP_congr fun next hnext => ?_
      have hent := hact.others _ fun heq => hnot (mem_map.2 ⟨next, hnext, mem_singleton.1 heq⟩)
      rw [(Prod.mk.inj hent).1]
    obtain ⟨reports, u, heach, hr⟩ := @ih t hnd (by omega)
    refine ⟨report :: reports, u, ?_, hact.cons hr (by rwa [map_map])⟩
    rw [activateEach, hone]
    dsimp only
    rw [heach]

end Inner

/-- A batch that is refused leaves the store as it was. One that succeeds takes each record by its rule and purges what
depends on the credentials that it identifies anew, and on no other, before the eviction. -/
theorem batch_activation_all_or_nothing (retention : RetentionPolicy) (s : Inner)
    (activations : List CredentialConfigurationActivation) :
    (∀ e t, activateCredentialConfigurations retention activations s = (.error e, t) → t = s) ∧
      ∀ reports t, activateCredentialConfigurations retention activations s = (.ok reports, t) →
        ∃ u, s.Activated (activations.map (·.desired)) u ∧ t = u.evictCredentials retention.maxCredentials := by
  unfold activateCredentialConfigurations
  cases hchk : checkActivations activations [] with
  | error e => simp
  | ok =>
    dsimp only
    split_ifs with hexp hrm
    · simp
    · simp
    · obtain ⟨reports, u, heach, hact⟩ := Inner.activateEach_activated (checkActivations_eq_ok hchk).1
        (Nat.le_of_not_lt hrm)
      rw [heach]
      refine ⟨nofun, fun _ t h => ⟨u, hact, ?_⟩⟩
      cases h
      rfl

end Pooler.MemoryStore
