import Pooler.Spec.Store.Memory

/-! What a call does to the store, as a chain of small moves. Every property of whole runs is proved
of the moves alone. -/

namespace Pooler.MemoryStore

open Lib OrderedMap List

variable {current : CredentialState} {ids : List String}

namespace Inner

variable {s t u : Inner} {id : String}

/-- The store with the next revision given to a write of the record. -/
def write (s : Inner) (id : String) (state : CredentialState) : Inner :=
  { s with credentialRevision := s.credentialRevision + 1 }.putCredential id
    { state with revision := s.credentialRevision + 1 }

/-- A record leaves with what depends on it. -/
def drop (s : Inner) (id : String) : Inner := (s.removeCredential id).purgeCredentialDependents id

/-- One change of the store. -/
inductive Move : Inner → Inner → Prop
  | purged (s : Inner) (id : String) : Move s (s.purgeCredentialDependents id)
  | wrote (s : Inner) (id : String) (state : CredentialState) : Move s (s.write id state)
  | dropped (s : Inner) (id : String) : Move s (s.drop id)
  | health (s : Inner) (id : String) (state : CredentialHealthState) (stored : s.credentials.contains id) :
      Move s { s with health := s.health.insert id state }
  | cooled (s : Inner) (state : CooldownState) (required : s.requireCooldownCredential state.scope state.key = .ok ()) :
      Move s { s with cooldowns := s.cooldowns.insert (toLex (state.scope, state.key)) state }
  | thinnedCooldowns (s : Inner) (p : (String ×ₗ String) × CooldownState → Bool) :
      Move s { s with cooldowns := s.cooldowns.retain p }
  | bound (s : Inner) (key : String) (affinity : SessionAffinity) (stored : s.credentials.contains affinity.credentialId) :
      Move s { s with affinities := s.affinities.insert key affinity }
  | used (s : Inner) (key : String) (affinity : SessionAffinity) (lastUsedAt : ℕ)
      (present : s.affinities.get key = some affinity) :
      Move s { s with affinities := s.affinities.insert key { affinity with lastUsedAt } }
  | thinnedAffinities (s : Inner) (p : String × SessionAffinity → Bool) :
      Move s { s with affinities := s.affinities.retain p }

abbrev Moves : Inner → Inner → Prop := Relation.ReflTransGen Move

theorem Moves.one (h : Move s t) : Moves s t := .single h

/-- A property of the store that every move keeps is kept by chains of moves. -/
theorem Moves.keep (inv : Inner → Prop) (hmove : ∀ {s t}, Move s t → inv s → inv t) (h : Moves s t) (hs : inv s) :
    inv t := by
  induction h with
  | refl => exact hs
  | tail _ hlast ih => exact hmove hlast ih

/-! ### The parts of the calls -/

theorem nextCredentialRevision_eq_some {r : ℕ} (h : s.nextCredentialRevision = some (r, t)) :
    r = s.credentialRevision + 1 ∧ t = { s with credentialRevision := s.credentialRevision + 1 } := by
  unfold nextCredentialRevision at h
  split at h
  · cases h; exact ⟨rfl, rfl⟩
  · cases h

theorem moves_putDisabled {state} (h : s.credentials.contains state.credentialId) : Moves s (s.putDisabled state) := by
  unfold putDisabled
  split_ifs
  · exact .refl
  · exact .one (.health s _ _ h)

theorem moves_reconcile (h : s.credentials.contains id) (enabled : Bool) (updatedAt : ℕ) :
    Moves s (s.reconcileCredentialHealth id enabled updatedAt) := by
  unfold reconcileCredentialHealth
  split_ifs
  · split
    · split_ifs
      · exact .one (.health s _ _ h)
      · exact .refl
    · exact .refl
  · exact .one (.health s _ _ h)

theorem moves_evictAffinities (s : Inner) (limit : ℕ) : Moves s (s.evictAffinities limit) := by
  refine whileLoop_invariant (Moves s) ?_ _ s .refl
  intro t ht _
  split
  · exact ht.tail (.thinnedAffinities t _)
  · exact ht

/-- A change of the flag either has no revision left or is a write of the record. -/
theorem changeEnabled_cases {enabled} {updatedAt : ℕ}
    {result} (h : s.changeEnabled id current enabled updatedAt = (result, t)) :
    (t = s ∧ ∃ e, result = .error e) ∨
      t = s.write id { current with enabled, updatedAt } ∧
        result = .ok { current with enabled, updatedAt, revision := s.credentialRevision + 1 } := by
  unfold changeEnabled at h
  split at h
  · cases h; exact .inl ⟨rfl, _, rfl⟩
  next hnext =>
    obtain ⟨rfl, rfl⟩ := Inner.nextCredentialRevision_eq_some hnext
    cases h
    exact .inr ⟨rfl, rfl⟩

/-! ### Calls that may remove or identify anew -/

/-- A write of the record, a disabled one with the health of a disabled one, after what depended on
the old one has been purged if it has to be. -/
def rewrite (s : Inner) (state : CredentialState) (purge : Bool) : Inner :=
  ((if purge then s.purgeCredentialDependents state.credentialId else s).write state.credentialId state).putDisabled
    state

/-- What such a call does from `s` on. No record is written twice, and one that is written under
another identity is purged first. -/
inductive Reshaping (s : Inner) : List String → Inner → Prop
  | start : Reshaping s [] s
  | rewrote {ids : List String} {t : Inner} (h : Reshaping s ids t) (state : CredentialState) (purge : Bool)
      (fresh : state.credentialId ∉ ids)
      (covered : ∀ old, t.credentials.get state.credentialId = some old → exactIdentity old state = true ∨ purge = true) :
      Reshaping s (state.credentialId :: ids) (t.rewrite state purge)
  | purged {ids : List String} {t : Inner} (h : Reshaping s ids t) (id : String) :
      Reshaping s ids (t.purgeCredentialDependents id)
  | dropped {ids : List String} {t : Inner} (h : Reshaping s ids t) (id : String) : Reshaping s ids (t.drop id)
  | thinnedCooldowns {ids : List String} {t : Inner} (h : Reshaping s ids t)
      (p : (String ×ₗ String) × CooldownState → Bool) : Reshaping s ids { t with cooldowns := t.cooldowns.retain p }
  | thinnedAffinities {ids : List String} {t : Inner} (h : Reshaping s ids t) (p : String × SessionAffinity → Bool) :
      Reshaping s ids { t with affinities := t.affinities.retain p }

theorem moves_rewrite (s : Inner) (state : CredentialState) (purge : Bool) : Moves s (s.rewrite state purge) := by
  have hpur : Moves s (if purge then s.purgeCredentialDependents state.credentialId else s) := by
    split_ifs
    · exact .one (.purged s _)
    · exact .refl
  exact (hpur.tail (.wrote _ _ state)).trans (moves_putDisabled (contains_iff.2 ⟨_, get_insert_self _ _ _⟩))

theorem Reshaping.moves (h : Reshaping s ids t) : Moves s t := by
  induction h with
  | start => exact .refl
  | rewrote _ state purge _ _ ih => exact ih.trans (moves_rewrite _ state purge)
  | purged _ id ih => exact ih.tail (.purged _ id)
  | dropped _ id ih => exact ih.tail (.dropped _ id)
  | thinnedCooldowns _ p ih => exact ih.tail (.thinnedCooldowns _ p)
  | thinnedAffinities _ p ih => exact ih.tail (.thinnedAffinities _ p)

theorem Reshaping.evictCredentials (h : Reshaping s ids t) (limit : ℕ) :
    Reshaping s ids (t.evictCredentials limit) := by
  refine whileLoop_invariant (Reshaping s ids) ?_ _ t h
  intro u hu _
  split
  · exact hu.dropped _
  · exact hu

theorem Reshaping.evictAffinities (h : Reshaping s ids t) (limit : ℕ) : Reshaping s ids (t.evictAffinities limit) := by
  refine whileLoop_invariant (Reshaping s ids) ?_ _ t h
  intro u hu _
  split
  · exact hu.thinnedAffinities _
  · exact hu

end Inner

variable {retention : RetentionPolicy} {s t : Inner}

@[simp] theorem inheriting_credentialId (state : CredentialState) (previous : Option CredentialState) :
    (state.inheriting previous).credentialId = state.credentialId := by
  unfold CredentialState.inheriting
  split
  · split_ifs <;> rfl
  · rfl

section Reshaping

variable (retention s)

/-- An upsert is refused, purges for a revision that there is not, or writes the record. -/
theorem upsertCredentialState_cases (state : CredentialState) :
    let next := state.inheriting (s.credentials.get state.credentialId)
    let purge := (s.credentials.get state.credentialId).any (fun previous => !exactIdentity previous next)
    (upsertCredentialState retention state s).2 = s ∨
      (upsertCredentialState retention state s).2 = s.purgeCredentialDependents state.credentialId ∨
      (upsertCredentialState retention state s).2 = (s.rewrite next purge).evictCredentials retention.maxCredentials := by
  intro next purge
  have hid : next.credentialId = state.credentialId := inheriting_credentialId _ _
  have hpur : ((s.credentials.get state.credentialId).any fun previous =>
      previous.providerId ≠ next.providerId || previous.configurationFingerprint ≠ next.configurationFingerprint) =
        purge := by
    cases hg : s.credentials.get state.credentialId with
    | none => simp [purge, hg]
    | some => simp [purge, hg, exactIdentity]
  unfold upsertCredentialState
  split
  · exact .inl rfl
  · dsimp only
    rw [hpur]
    split
    · by_cases hp : purge = true
      · exact .inr (.inl (by rw [if_pos hp, hid]))
      · exact .inl (by rw [if_neg hp])
    next hrev =>
      obtain ⟨rfl, rfl⟩ := Inner.nextCredentialRevision_eq_some hrev
      exact .inr (.inr rfl)

theorem upsertCredentialState_reshaping (state : CredentialState) :
    ∃ ids, s.Reshaping ids (upsertCredentialState retention state s).2 := by
  rcases upsertCredentialState_cases retention s state with h | h | h
  · rw [h]; exact ⟨[], .start⟩
  · rw [h]; exact ⟨[], Inner.Reshaping.start.purged _⟩
  · rw [h]
    refine ⟨_, (Inner.Reshaping.start.rewrote _ _ not_mem_nil ?_).evictCredentials _⟩
    intro old hold
    rw [inheriting_credentialId] at hold
    by_cases hsame : exactIdentity old (state.inheriting (s.credentials.get state.credentialId)) = true
    · exact .inl hsame
    · exact .inr (by simpa [hold] using hsame)

/-- An activation keeps a record of its identity, purges for a revision that there is not, or
writes the record. -/
theorem activateOne_cases (activation : CredentialConfigurationActivation) :
    (activateOne activation s).2 = s ∨
      (activateOne activation s).2 = s.purgeCredentialDependents activation.desired.credentialId ∨
      (∀ old, s.credentials.get activation.desired.credentialId = some old →
        exactIdentity old activation.desired = false) ∧
      ∃ enabled, (activateOne activation s).2 =
        s.rewrite { activation.desired with enabled } (s.credentials.contains activation.desired.credentialId) := by
  unfold activateOne
  dsimp only
  split
  · exact .inl rfl
  next hfil =>
    split
    · by_cases hsome : s.credentials.contains activation.desired.credentialId = true
      · exact .inr (.inl (if_pos hsome))
      · exact .inl (if_neg hsome)
    next hrev =>
      obtain ⟨rfl, rfl⟩ := Inner.nextCredentialRevision_eq_some hrev
      refine .inr (.inr ⟨?_, _, rfl⟩)
      intro old hold
      rw [hold, Option.filter_eq_none_iff] at hfil
      simpa using hfil

theorem activateEach_reshaping {activations} (h : s.Reshaping ids t)
    (hnd : (activations.map (·.desired.credentialId)).Nodup)
    (hfr : ∀ activation ∈ activations, activation.desired.credentialId ∉ ids) :
    ∃ ids, s.Reshaping ids (activateEach activations t).2 := by
  induction activations generalizing t ids with
  | nil => exact ⟨ids, h⟩
  | cons activation activations ih =>
    obtain ⟨hnot, hnd⟩ := nodup_cons.1 hnd
    obtain ⟨hone, hrest⟩ := forall_mem_cons.1 hfr
    -- whatever the first activation did, the others have ids that are not written yet
    obtain ⟨ids', hfst, hids⟩ : ∃ ids', s.Reshaping ids' (activateOne activation t).2 ∧
        ∀ id ∈ ids', id = activation.desired.credentialId ∨ id ∈ ids := by
      rcases activateOne_cases t activation with heq | heq | ⟨hoth, enabled, heq⟩
      · rw [heq]; exact ⟨ids, h, fun id hid => .inr hid⟩
      · rw [heq]; exact ⟨ids, h.purged _, fun id hid => .inr hid⟩
      · rw [heq]
        refine ⟨_, h.rewrote { activation.desired with enabled } _ hone ?_, fun id hid => mem_cons.1 hid⟩
        intro old hold
        exact .inr (contains_iff.2 ⟨old, hold⟩)
    have hfr' : ∀ next ∈ activations, next.desired.credentialId ∉ ids' := by
      intro next hnext hm
      rcases hids _ hm with heq | hm
      · exact hnot (mem_map.2 ⟨next, hnext, heq⟩)
      · exact hrest next hnext hm
    rw [activateEach]
    cases hr : activateOne activation t with
    | mk result u =>
      rw [hr] at hfst
      cases result with
      | error => exact ⟨ids', hfst⟩
      | ok =>
        obtain ⟨ids'', hall⟩ := ih hfst hnd hfr'
        dsimp only
        cases hrs : activateEach activations u with
        | mk results =>
          rw [hrs] at hall
          cases results with
          | error | ok => exact ⟨ids'', hall⟩

theorem checkActivations_eq_ok {activations} (h : checkActivations activations ids = .ok ()) :
    (activations.map (·.desired.credentialId)).Nodup ∧ ∀ activation ∈ activations, activation.desired.credentialId ∉ ids := by
  induction activations generalizing ids with
  | nil => exact ⟨nodup_nil, fun _ h => absurd h not_mem_nil⟩
  | cons activation activations ih =>
    rw [checkActivations] at h
    split at h
    · cases h
    split_ifs at h with hc
    obtain ⟨hnd, hfr⟩ := ih h
    rw [not_or] at hc
    refine ⟨nodup_cons.2 ⟨?_, hnd⟩, forall_mem_cons.2 ⟨hc.2, ?_⟩⟩
    · intro hm
      obtain ⟨next, hnext, heq⟩ := mem_map.1 hm
      exact hfr next hnext (heq ▸ mem_cons_self)
    · intro next hnext hm
      exact hfr next hnext (mem_cons_of_mem _ hm)

variable (activations : List CredentialConfigurationActivation)

/-- A batch is refused as a whole, or carried out, with the eviction after it if nothing failed. -/
theorem activateCredentialConfigurations_cases :
    (activateCredentialConfigurations retention activations s).2 = s ∨
      checkActivations activations [] = .ok () ∧
        ((activateCredentialConfigurations retention activations s).2 = (activateEach activations s).2 ∨
          (activateCredentialConfigurations retention activations s).2 =
            (activateEach activations s).2.evictCredentials retention.maxCredentials) := by
  unfold activateCredentialConfigurations
  split
  · exact .inl rfl
  next hchk =>
    split_ifs
    · exact .inl rfl
    · exact .inl rfl
    · split
      next h => exact .inr ⟨hchk, .inl (by rw [h])⟩
      next h => exact .inr ⟨hchk, .inr (by rw [h])⟩

theorem activateCredentialConfigurations_reshaping :
    ∃ ids, s.Reshaping ids (activateCredentialConfigurations retention activations s).2 := by
  rcases activateCredentialConfigurations_cases retention s activations with h | ⟨hchk, h⟩
  · rw [h]; exact ⟨[], .start⟩
  · obtain ⟨hnd, hfr⟩ := checkActivations_eq_ok hchk
    obtain ⟨ids, hall⟩ := activateEach_reshaping s .start hnd hfr
    rcases h with h | h
    · rw [h]; exact ⟨ids, hall⟩
    · rw [h]; exact ⟨ids, hall.evictCredentials _⟩

theorem prune_reshaping (now : ℕ) : s.Reshaping [] (prune retention now s) :=
  (((Inner.Reshaping.start.thinnedCooldowns _).thinnedAffinities _).evictCredentials _).evictAffinities _

theorem removeCredentialState_reshaping (id : String) : s.Reshaping [] (removeCredentialState id s).2 := by
  unfold removeCredentialState
  split
  · exact .start
  · exact Inner.Reshaping.start.dropped id

end Reshaping

/-! ### Calls that set flags -/

theorem exactIdentity_trans {a b c} (hab : exactIdentity a b = true) (hbc : exactIdentity b c = true) :
    exactIdentity a c = true := by
  simp only [exactIdentity, Bool.and_eq_true, decide_eq_true_eq] at *
  exact ⟨hab.1.trans hbc.1, hab.2.trans hbc.2⟩

/-- Flags and health have changed; every record has its identity still. -/
structure Inner.Toggled (s t : Inner) : Prop where
  moves : s.Moves t
  cooldowns : t.cooldowns = s.cooldowns
  record : ∀ id old, s.credentials.get id = some old →
    ∃ new, t.credentials.get id = some new ∧ exactIdentity old new = true

namespace Inner.Toggled

theorem refl (s : Inner) : s.Toggled s := ⟨.refl, rfl, fun _ old h => ⟨old, h, by simp [exactIdentity]⟩⟩

theorem trans {u} (h : s.Toggled t) (h' : t.Toggled u) : s.Toggled u := by
  refine ⟨h.moves.trans h'.moves, h'.cooldowns.trans h.cooldowns, ?_⟩
  intro id old hold
  obtain ⟨mid, hmid, hsame⟩ := h.record id old hold
  obtain ⟨new, hw, hsame'⟩ := h'.record id mid hmid
  exact ⟨new, hw, exactIdentity_trans hsame hsame'⟩

variable {id : String}

theorem reconcile (h : s.credentials.contains id) (enabled : Bool) (updatedAt : ℕ) :
    s.Toggled (s.reconcileCredentialHealth id enabled updatedAt) := by
  have hsame : (s.reconcileCredentialHealth id enabled updatedAt).cooldowns = s.cooldowns ∧
      (s.reconcileCredentialHealth id enabled updatedAt).credentials = s.credentials := by
    unfold reconcileCredentialHealth
    split_ifs
    · split
      · split_ifs
        · exact ⟨rfl, rfl⟩
        · exact ⟨rfl, rfl⟩
      · exact ⟨rfl, rfl⟩
    · exact ⟨rfl, rfl⟩
  exact ⟨moves_reconcile h enabled updatedAt, hsame.1, hsame.2 ▸ (refl s).record⟩

theorem write (h : s.credentials.get id = some current) (enabled : Bool)
    (updatedAt : ℕ) : s.Toggled (s.write id { current with enabled, updatedAt }) := by
  refine ⟨.one (.wrote s id _), rfl, ?_⟩
  intro a old hold
  by_cases ha : id = a
  · subst ha
    rw [h] at hold
    cases hold
    exact ⟨_, get_insert_self _ _ _, by simp [exactIdentity]⟩
  · refine ⟨old, ?_, by simp [exactIdentity]⟩
    exact (get_insert _ _ _ _).trans ((if_neg ha).trans hold)

theorem changeEnabled {enabled} {updatedAt : ℕ} {result} (hg : s.credentials.get id = some current)
    (h : s.changeEnabled id current enabled updatedAt = (result, t)) : s.Toggled t := by
  rcases changeEnabled_cases h with ⟨rfl, -⟩ | ⟨rfl, -⟩
  · exact refl t
  · exact write hg enabled updatedAt

theorem contains (h : s.Toggled t) (hid : s.credentials.contains id) : t.credentials.contains id := by
  obtain ⟨old, hold⟩ := contains_iff.1 hid
  obtain ⟨new, hw, -⟩ := h.record id old hold
  exact contains_iff.2 ⟨new, hw⟩

end Inner.Toggled

section Toggled

variable {id : String} (enabled : Bool) (updatedAt : ℕ)

theorem applyEnabled_toggled (hg : s.credentials.get id = some current) :
    s.Toggled (applyEnabled id current enabled updatedAt s).2 := by
  have hheal := Inner.Toggled.reconcile (contains_iff.2 ⟨current, hg⟩) enabled updatedAt
  have hg' : (s.reconcileCredentialHealth id enabled updatedAt).credentials.get id = some current := by
    unfold Inner.reconcileCredentialHealth
    split_ifs
    · split
      · split_ifs <;> exact hg
      · exact hg
    · exact hg
  unfold applyEnabled
  dsimp only
  split_ifs
  · exact hheal
  · split
    next hc => exact hheal.trans (.changeEnabled hg' hc)
    next hc => exact hheal.trans (.changeEnabled hg' hc)

variable (s)

theorem switchEach_toggled (plan : List (String × Bool)) : s.Toggled (switchEach updatedAt plan s).2 := by
  induction plan generalizing s with
  | nil => exact .refl s
  | cons next plan ih =>
    obtain ⟨id, enabled⟩ := next
    rw [switchEach]
    split
    · exact .refl s
    next current hg =>
      have hcon := contains_iff.2 ⟨current, hg⟩
      have hchg : ∀ {result t}, (if current.enabled ≠ enabled then s.changeEnabled id current enabled updatedAt
          else (.ok current, s)) = (result, t) → s.Toggled t := by
        intro result t h
        split_ifs at h
        · exact .changeEnabled hg h
        · cases h; exact .refl s
      dsimp only
      split
      next h => exact hchg h
      next h =>
        have hfst := (hchg h).trans (.reconcile ((hchg h).contains hcon) enabled updatedAt)
        have hall := hfst.trans (ih _)
        split
        next hr =>
          rw [hr] at hall
          exact hall
        next hr =>
          rw [hr] at hall
          exact hall

theorem setCredentialEnabled_toggled (id : String) : s.Toggled (setCredentialEnabled id enabled updatedAt s).2 := by
  unfold setCredentialEnabled
  split
  · exact .refl s
  · split
    · exact .refl s
    next current hg =>
      split
      next h => exact .changeEnabled hg h
      next h =>
        have hchg := Inner.Toggled.changeEnabled hg h
        exact hchg.trans (.reconcile (hchg.contains (contains_iff.2 ⟨current, hg⟩)) _ _)

variable (identity : CredentialConfigurationIdentity)

theorem setCredentialEnabledIfIdentity_toggled :
    s.Toggled (setCredentialEnabledIfIdentity identity enabled updatedAt s).2 := by
  unfold setCredentialEnabledIfIdentity
  split
  · exact .refl s
  next hg =>
    split_ifs
    · exact .refl s
    · exact applyEnabled_toggled enabled updatedAt hg

theorem setCredentialEnabledIfCurrent_toggled (id : String) (revision : ℕ) (prov fingerprint : String) :
    s.Toggled (setCredentialEnabledIfCurrent id revision prov fingerprint enabled updatedAt s).2 := by
  unfold setCredentialEnabledIfCurrent
  dsimp only
  split
  · exact .refl s
  · split
    · exact .refl s
    next hg =>
      split_ifs
      · exact .refl s
      · exact applyEnabled_toggled enabled updatedAt hg

theorem setCredentialEnabledIfNewerPayload_eq (revision gen : ℕ) :
    (setCredentialEnabledIfNewerPayload identity revision gen enabled updatedAt s).2 = s := by
  unfold setCredentialEnabledIfNewerPayload
  split
  · rfl
  · rfl

theorem switchCredential_toggled (selected : String) (siblings : List String) :
    s.Toggled (switchCredential selected siblings updatedAt s).2 := by
  unfold switchCredential
  dsimp only
  split
  · exact .refl s
  · exact switchEach_toggled s updatedAt _

theorem switchCredentialIfIdentities_toggled (selected : CredentialConfigurationIdentity)
    (siblings : List CredentialConfigurationIdentity) :
    s.Toggled (switchCredentialIfIdentities selected siblings updatedAt s).2 := by
  unfold switchCredentialIfIdentities
  split_ifs
  · have h := switchEach_toggled s updatedAt (switchPlan selected.credentialId (siblings.map (·.credentialId)))
    split
    next hr =>
      rw [hr] at h
      exact h
    next hr =>
      rw [hr] at h
      exact h
  · exact .refl s

end Toggled

/-! ### Calls that leave the records alone -/

/-- The records are the same, and a cooldown has come in under one key at most. -/
structure Inner.Attached (s : Inner) (put : Option (String ×ₗ String)) (t : Inner) : Prop where
  moves : s.Moves t
  credentials : t.credentials = s.credentials
  cooldowns : ∀ key cooldown, t.cooldowns.get key = some cooldown → s.cooldowns.get key = some cooldown ∨ put = some key

variable {put : Option (String ×ₗ String)}

theorem Inner.Attached.refl (s : Inner) : s.Attached put s := ⟨.refl, rfl, fun _ _ h => .inl h⟩

theorem Inner.Attached.of_cooldowns (hmov : s.Moves t) (hcreds : t.credentials = s.credentials)
    (hcool : t.cooldowns = s.cooldowns) : s.Attached put t :=
  ⟨hmov, hcreds, fun _ _ h => .inl (hcool ▸ h)⟩

theorem Inner.Attached.thinned (s : Inner) (p : (String ×ₗ String) × CooldownState → Bool) :
    s.Attached put { s with cooldowns := s.cooldowns.retain p } :=
  ⟨.one (.thinnedCooldowns s p), rfl, fun _ _ h => .inl (get_retain.1 h).1⟩

theorem Inner.evictCooldowns_attached (put : Option (String ×ₗ String)) (s : Inner) : s.Attached put s.evictCooldowns := by
  refine whileLoop_invariant (s.Attached put) ?_ _ s (.refl s)
  intro t ht _
  split
  · refine ⟨ht.moves.tail (.thinnedCooldowns t _), ht.credentials, fun key cooldown hg => ?_⟩
    exact ht.cooldowns key cooldown (get_retain.1 hg).1
  · exact ht

theorem Inner.evictAffinities_credentials (s : Inner) (limit : ℕ) :
    (s.evictAffinities limit).credentials = s.credentials ∧ (s.evictAffinities limit).cooldowns = s.cooldowns := by
  refine whileLoop_invariant (fun t => t.credentials = s.credentials ∧ t.cooldowns = s.cooldowns) ?_ _ s ⟨rfl, rfl⟩
  intro t ht _
  split
  · exact ht
  · exact ht

section Attached

variable (s)

theorem upsertCredentialHealth_attached (state : CredentialHealthState) :
    s.Attached put (upsertCredentialHealth state s).2 := by
  unfold upsertCredentialHealth
  split
  · exact .refl s
  · split_ifs with h
    · exact .of_cooldowns (.one (.health s _ state h)) rfl rfl
    · exact .refl s

/-- A cooldown that is stored belongs to a stored credential as far as the store can tell. -/
theorem upsertCooldown_cases (state : CooldownState) :
    (upsertCooldown state s).2 = s ∨
      s.requireCooldownCredential state.scope state.key = .ok () ∧
        (upsertCooldown state s).2 =
          { s with cooldowns := s.cooldowns.insert (toLex (state.scope, state.key)) state }.evictCooldowns := by
  unfold upsertCooldown
  split
  · exact .inl rfl
  next hchec =>
    simp only [bind_eq_ok] at hchec
    obtain ⟨_, _, _, _, hreq⟩ := hchec
    dsimp only
    split
    · exact .inl rfl
    · exact .inr ⟨hreq, rfl⟩

theorem upsertCooldown_attached (state : CooldownState) :
    s.Attached (some (toLex (state.scope, state.key))) (upsertCooldown state s).2 := by
  rcases upsertCooldown_cases s state with h | ⟨hreq, h⟩
  · rw [h]; exact .refl s
  · rw [h]
    have hevict := Inner.evictCooldowns_attached none
      { s with cooldowns := s.cooldowns.insert (toLex (state.scope, state.key)) state }
    refine ⟨(Relation.ReflTransGen.single (.cooled s state hreq)).trans hevict.moves, hevict.credentials, ?_⟩
    intro key cooldown hg
    rcases hevict.cooldowns key cooldown hg with hg | hn
    · rw [get_insert] at hg
      split_ifs at hg with hkey
      · exact .inr (congrArg some hkey)
      · exact .inl hg
    · cases hn

theorem cooldown_attached (scope key : String) (now : ℕ) : s.Attached put (cooldown scope key now s).2 := by
  unfold cooldown
  split
  · exact .refl s
  · exact .thinned s _

theorem removeCooldown_attached (scope key : String) : s.Attached put (removeCooldown scope key s).2 := by
  unfold removeCooldown
  split
  · exact .refl s
  · exact .thinned s _

theorem upsertSessionAffinity_attached (aff : SessionAffinity) :
    s.Attached put (upsertSessionAffinity retention aff s).2 := by
  unfold upsertSessionAffinity
  split
  · exact .refl s
  · split_ifs with h
    · obtain ⟨hcreds, hcool⟩ := Inner.evictAffinities_credentials
        ({ s with affinities := s.affinities.insert aff.key aff }.purgeExpired aff.createdAt)
        retention.maxAffinities
      refine .of_cooldowns (.trans ?_ (Inner.moves_evictAffinities _ _)) hcreds hcool
      exact (Relation.ReflTransGen.single (.bound s aff.key aff h)).tail (.thinnedAffinities _ _)
    · exact .refl s

variable (key : String)

theorem removeSessionAffinity_attached : s.Attached put (removeSessionAffinity key s).2 := by
  unfold removeSessionAffinity
  split
  · exact .refl s
  · exact .of_cooldowns (.one (.thinnedAffinities s _)) rfl rfl

theorem sessionAffinity_cases (now : ℕ) :
    (sessionAffinity key now s).2 = s ∨ (sessionAffinity key now s).2 = s.purgeExpired now ∨
      ∃ aff, (s.purgeExpired now).affinities.get key = some aff ∧
        (sessionAffinity key now s).2 = { s.purgeExpired now with
          affinities := (s.purgeExpired now).affinities.insert key
            { aff with lastUsedAt := max aff.lastUsedAt now } } := by
  unfold sessionAffinity
  split
  · exact .inl rfl
  · dsimp only
    split
    · exact .inr (.inl rfl)
    next aff hg => exact .inr (.inr ⟨aff, hg, rfl⟩)

theorem sessionAffinity_attached (now : ℕ) : s.Attached put (sessionAffinity key now s).2 := by
  have hpurg : s.Moves (s.purgeExpired now) := .one (.thinnedAffinities s _)
  rcases sessionAffinity_cases s key now with h | h | ⟨aff, hg, h⟩
  · rw [h]; exact .refl s
  · rw [h]; exact .of_cooldowns hpurg rfl rfl
  · rw [h]; exact .of_cooldowns (hpurg.tail (.used _ key aff _ hg)) rfl rfl

end Attached

/-- The key of the cooldown that a call may store. -/
def cooldownPut : Call → Option (String ×ₗ String)
  | .upsertCooldown state => some (toLex (state.scope, state.key))
  | _ => none

/-- The call may remove records or identify them anew. -/
def reshapes : Call → Bool
  | .upsertCredentialState _ | .activateCredentialConfigurations _ | .removeCredentialState _ | .prune _ => true
  | _ => false

theorem step_cases (retention : RetentionPolicy) (s : Inner) (call : Call) :
    (reshapes call = true ∧ ∃ ids, s.Reshaping ids (step retention s call)) ∨ s.Toggled (step retention s call) ∨
      s.Attached (cooldownPut call) (step retention s call) := by
  cases call with
  | upsertCredentialState => exact .inl ⟨rfl, upsertCredentialState_reshaping ..⟩
  | activateCredentialConfigurations => exact .inl ⟨rfl, activateCredentialConfigurations_reshaping ..⟩
  | removeCredentialState => exact .inl ⟨rfl, [], removeCredentialState_reshaping ..⟩
  | prune => exact .inl ⟨rfl, [], prune_reshaping ..⟩
  | setCredentialEnabled => exact .inr (.inl (setCredentialEnabled_toggled ..))
  | setCredentialEnabledIfIdentity => exact .inr (.inl (setCredentialEnabledIfIdentity_toggled ..))
  | setCredentialEnabledIfCurrent => exact .inr (.inl (setCredentialEnabledIfCurrent_toggled ..))
  | setCredentialEnabledIfNewerPayload =>
    refine .inr (.inl ?_)
    rw [step, setCredentialEnabledIfNewerPayload_eq]
    exact .refl s
  | switchCredential => exact .inr (.inl (switchCredential_toggled ..))
  | switchCredentialIfIdentities => exact .inr (.inl (switchCredentialIfIdentities_toggled ..))
  | upsertCredentialHealth => exact .inr (.inr (upsertCredentialHealth_attached ..))
  | upsertCooldown => exact .inr (.inr (upsertCooldown_attached ..))
  | cooldown => exact .inr (.inr (cooldown_attached ..))
  | cooldowns => exact .inr (.inr (.thinned s _))
  | removeCooldown => exact .inr (.inr (removeCooldown_attached ..))
  | upsertSessionAffinity => exact .inr (.inr (upsertSessionAffinity_attached ..))
  | sessionAffinity => exact .inr (.inr (sessionAffinity_attached ..))
  | sessionAffinities => exact .inr (.inr (.of_cooldowns (.one (.thinnedAffinities s _)) rfl rfl))
  | removeSessionAffinity => exact .inr (.inr (removeSessionAffinity_attached ..))

theorem step_moves (retention : RetentionPolicy) (s : Inner) (call : Call) : s.Moves (step retention s call) := by
  rcases step_cases retention s call with ⟨-, ids, h⟩ | h | h
  all_goals exact h.moves

end Pooler.MemoryStore
