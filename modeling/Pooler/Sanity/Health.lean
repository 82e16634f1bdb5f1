import Pooler.Sanity.Lease

/-! What each call does to the operator status of accounts and bindings, and which cooldown scopes
it can store. -/

namespace Pooler

open Lib Table List World HealthRegistry

theorem isDisabled_iff {o} : isDisabled o = true ↔ ∃ health, o = some health ∧ health.status = .disabled := by
  cases o <;> simp [isDisabled]

/-- Rewriting entries by a function that leaves disabled ones disabled disables nothing less. -/
theorem isDisabled_upsert {α : Type} [StringKeyed α] [DecidableEq α] {t : Table α CredentialHealth}
    {f} (k a : α) (d : CredentialHealth)
    (hf : k = a → ∀ health, health.status = .disabled → (f health).status = .disabled)
    (h : isDisabled t[a]? = true) : isDisabled (t.upsert k d f)[a]? = true := by
  rw [get_upsert]
  obtain ⟨health, ha, hs⟩ := isDisabled_iff.1 h
  split_ifs with hk
  · rw [ha, isDisabled_iff]
    exact ⟨_, rfl, hf hk health hs⟩
  · exact h

theorem isDisabled_insert {α : Type} [StringKeyed α] [DecidableEq α] {t : Table α CredentialHealth}
    {v} (k a : α) (hv : k = a → v.status = .disabled) (h : isDisabled t[a]? = true) :
    isDisabled (t.insert k v)[a]? = true := by
  rw [get_insert]
  split_ifs with hk
  · rw [isDisabled_iff]
    exact ⟨v, rfl, hv hk⟩
  · exact h

/-- What was disabled stays so, but for the accounts and bindings in `lifted`. -/
structure KeepsDisabled (credentials : CredentialId → Prop) (bindings : BindingKey → Prop)
    (h h' : HealthRegistry) : Prop where
  credential : ∀ c, ¬credentials c → isDisabled h.credentials[c]? = true → isDisabled h'.credentials[c]? = true
  binding : ∀ b, ¬bindings b → isDisabled h.bindings[b]? = true → isDisabled h'.bindings[b]? = true

namespace KeepsDisabled

variable {credentials : CredentialId → Prop} {bindings : BindingKey → Prop} {h h' h'' : HealthRegistry}

theorem refl (h : HealthRegistry) : KeepsDisabled credentials bindings h h := ⟨fun _ _ hd => hd, fun _ _ hd => hd⟩

theorem trans (k : KeepsDisabled credentials bindings h h') (k' : KeepsDisabled credentials bindings h' h'') :
    KeepsDisabled credentials bindings h h'' :=
  ⟨fun c hc hd => k'.credential c hc (k.credential c hc hd), fun b hb hd => k'.binding b hb (k.binding b hb hd)⟩

theorem foldl {α : Type} {f} {xs : List α} (hf : ∀ x ∈ xs, ∀ h, KeepsDisabled credentials bindings h (f h x)) :
    ∀ h, KeepsDisabled credentials bindings h (xs.foldl f h) := by
  induction xs with
  | nil => intro h; exact .refl h
  | cons x xs ih =>
    intro h
    exact (hf x mem_cons_self h).trans (ih (fun y hy => hf y (mem_cons_of_mem _ hy)) _)

end KeepsDisabled

theorem setCoolingDown_disabled (expiry : ℕ) (health : CredentialHealth) (hs : health.status = .disabled) :
    (health.setCoolingDown expiry).status = .disabled := by
  rw [CredentialHealth.setCoolingDown, if_pos hs, hs]

theorem clearCoolingDown_disabled (health : CredentialHealth) (hs : health.status = .disabled) :
    health.clearCoolingDown.status = .disabled := by
  rw [CredentialHealth.clearCoolingDown, hs, if_neg (by decide), hs]

section
variable {credentials : CredentialId → Prop} {bindings : BindingKey → Prop} (h : HealthRegistry)

theorem writeCooldown_keeps (scope : CooldownScope) (expiry marked : ℕ) :
    KeepsDisabled credentials bindings h (h.writeCooldown scope expiry marked) := by
  unfold HealthRegistry.writeCooldown HealthRegistry.markCoolingDown
  split
  · exact ⟨fun c _ hd => isDisabled_upsert _ c _ (fun _ => setCoolingDown_disabled marked) hd, fun b _ hd => hd⟩
  · exact ⟨fun c _ hd => hd, fun b _ hd => isDisabled_upsert _ b _ (fun _ => setCoolingDown_disabled marked) hd⟩
  · exact ⟨fun c _ hd => hd, fun b _ hd => isDisabled_upsert _ b _ (fun _ => setCoolingDown_disabled marked) hd⟩
  · exact ⟨fun c _ hd => hd, fun b _ hd => hd⟩

variable (failure : FailureClassification)

/-- A failure either leaves the health alone or stores an expiry under the scope it resolves to. -/
theorem applyFailure_cases (subject : HealthSubject) (now : ℕ) :
    (h.applyFailure failure subject now).2 = h ∨ ∃ spec scope expiry,
      failure.cooldown = some spec ∧ subject.resolve spec.scope = some scope ∧
      (h.applyFailure failure subject now).2 = h.writeCooldown scope expiry expiry := by
  unfold HealthRegistry.applyFailure
  cases hc : failure.cooldown with
  | none => exact .inl rfl
  | some spec =>
    simp only
    split
    · exact .inl rfl
    split
    · exact .inl rfl
    cases hr : subject.resolve spec.scope with
    | none => exact .inl rfl
    | some scope =>
      simp only
      split
      · exact .inl rfl
      · exact .inr ⟨spec, scope, _, rfl, hr, rfl⟩

theorem applyFailure_keeps (subject : HealthSubject)
    (now : ℕ) : KeepsDisabled credentials bindings h (h.applyFailure failure subject now).2 := by
  rcases applyFailure_cases h failure subject now with heq | ⟨spec, scope, expiry, -, -, heq⟩
  · rw [heq]; exact .refl h
  · rw [heq]; exact writeCooldown_keeps h scope expiry expiry

theorem clearScope_keeps (scope : CooldownScope) : KeepsDisabled credentials bindings h (h.clearScope scope) := by
  have hclr : ∀ {α : Type} [StringKeyed α] [DecidableEq α] (t : Table α CredentialHealth) (k a : α)
      (health : CredentialHealth), t[k]? = some health → isDisabled t[a]? = true →
      isDisabled (t.insert k health.clearCoolingDown)[a]? = true := by
    intro α _ _ t k a health hk hd
    refine isDisabled_insert k a ?_ hd
    rintro rfl
    rw [hk] at hd
    obtain ⟨health', heq, hs⟩ := isDisabled_iff.1 hd
    cases heq
    exact clearCoolingDown_disabled health hs
  unfold HealthRegistry.clearScope
  cases scope with
  | credential id =>
    simp only
    cases hk : h.credentials[id]? with
    | none => exact ⟨fun _ _ hd => hd, fun _ _ hd => hd⟩
    | some health => exact ⟨fun c _ hd => hclr _ id c health hk hd, fun _ _ hd => hd⟩
  | binding key | bindingModel key =>
    simp only
    cases hk : h.bindings[key]? with
    | none => exact ⟨fun _ _ hd => hd, fun _ _ hd => hd⟩
    | some health => exact ⟨fun _ _ hd => hd, fun b _ hd => hclr _ key b health hk hd⟩
  | credentialModel | model | provider | providerModel | route => exact ⟨fun _ _ hd => hd, fun _ _ hd => hd⟩

theorem removeBinding_keeps {key} (hkey : bindings key) :
    KeepsDisabled credentials bindings h (h.removeBinding key) := by
  refine ⟨fun _ _ hd => hd, ?_⟩
  intro b hb hd
  show isDisabled (h.bindings.erase key)[b]? = true
  rw [get_erase, if_neg]
  · exact hd
  · rintro rfl
    exact hb hkey

theorem enableCredential_keeps {id} (hid : credentials id) :
    KeepsDisabled credentials bindings h (h.enableCredential id) := by
  refine ⟨?_, fun _ _ hd => hd⟩
  intro c hc hd
  refine isDisabled_upsert id c _ ?_ hd
  rintro rfl
  exact absurd hid hc

theorem enableBinding_keeps {key} (hkey : bindings key) :
    KeepsDisabled credentials bindings h (h.enableBinding key) := by
  refine ⟨fun _ _ hd => hd, ?_⟩
  intro b hb hd
  refine isDisabled_upsert key b _ ?_ hd
  rintro rfl
  exact absurd hkey hb

theorem disableCredential_keeps (id : CredentialId) : KeepsDisabled credentials bindings h (h.disableCredential id) :=
  ⟨fun c _ hd => isDisabled_insert id c (fun _ => rfl) hd, fun _ _ hd => hd⟩

theorem disableBinding_keeps (key : BindingKey) : KeepsDisabled credentials bindings h (h.disableBinding key) :=
  ⟨fun _ _ hd => hd, fun b _ hd => isDisabled_insert key b (fun _ => rfl) hd⟩

end

/-- The call lifts the disablement of an account. -/
def RegistryOp.enablesCredential (c : CredentialId) : RegistryOp → Prop
  | .enable credential => credential = c
  | .setCredentialsEnabled changes => (c, true) ∈ changes
  | _ => False

/-- The call lifts the disablement of a binding: it enables it, or removes it from its slot. -/
def RegistryOp.liftsBinding (i : RegistryInner) (b : BindingKey) : RegistryOp → Prop
  | .enableBinding binding => binding = b
  | .unregister credential => credential = b.accountId ∧ i.state.entries.get b ≠ none
  | .unregisterBinding binding => binding = b ∧ i.state.entries.get b ≠ none
  | _ => False

theorem setCredentialsEnabled_keeps {bindings} (changes : List (CredentialId × Bool)) :
    ∀ i : RegistryInner, KeepsDisabled (fun c => (c, true) ∈ changes) bindings i.health
      (i.setCredentialsEnabled changes).health := by
  have hone : ∀ (credentials : CredentialId → Prop) (rest : List (CredentialId × Bool)),
      (∀ c, (c, true) ∈ rest → credentials c) → ∀ i : RegistryInner,
      KeepsDisabled credentials bindings i.health (i.setCredentialsEnabled rest).health := by
    intro credentials rest
    induction rest with
    | nil => intro _ i; exact .refl _
    | cons change rest ih =>
      intro hall i
      refine KeepsDisabled.trans ?_ (ih (fun c hc => hall c (mem_cons_of_mem _ hc)) (i.setCredentialEnabled change))
      obtain ⟨c, enabled⟩ := change
      cases enabled with
      | true => exact enableCredential_keeps i.health (hall c mem_cons_self)
      | false => exact disableCredential_keeps i.health c
  exact hone _ changes (fun c hc => hc)

theorem apply_keeps (i : RegistryInner) (op : RegistryOp) :
    KeepsDisabled (fun c => op.enablesCredential c) (fun b => op.liftsBinding i b) i.health (i.apply op).health := by
  cases op with
  | unregister credential =>
    simp only [RegistryInner.apply, RegistryInner.unregister]
    split
    · exact .refl _
    next heq =>
      refine KeepsDisabled.foldl ?_ _
      intro key hkey h
      rw [← heq, mem_filter, decide_eq_true_eq, Slots.mem_bindings] at hkey
      obtain ⟨⟨e, he⟩, hacc⟩ := hkey
      refine removeBinding_keeps h ?_
      show credential = key.accountId ∧ i.state.entries.get key ≠ none
      exact ⟨hacc.symm, by rw [he]; simp⟩
  | unregisterBinding binding =>
    simp only [RegistryInner.apply, RegistryInner.unregisterBinding]
    split
    · exact .refl _
    next he =>
      refine removeBinding_keeps i.health ?_
      show binding = binding ∧ i.state.entries.get binding ≠ none
      exact ⟨rfl, by rw [he]; simp⟩
  | setCredentialsEnabled changes => exact setCredentialsEnabled_keeps changes i
  | disable credential => exact disableCredential_keeps i.health credential
  | enable => exact enableCredential_keeps i.health rfl
  | disableBinding binding => exact disableBinding_keeps i.health binding
  | enableBinding => exact enableBinding_keeps i.health rfl
  | applyFailure failure subject now => exact applyFailure_keeps i.health failure subject now
  | restoreCooldown scope expiry => exact writeCooldown_keeps i.health scope _ expiry
  | clearExpired => exact KeepsDisabled.foldl (fun scope _ h => clearScope_keeps h scope) _
  | register | registerModelAlias | setEnabled | setBindingEnabled | setQuotaSnapshot
  | setBindingQuotaSnapshot | restoreQuotaState | recoverQuotas | restoreAffinity
  | restoreAffinityBinding | purgeExpiredAffinity => exact .refl _

/-! ### Stored scopes -/

/-- The scope names an account without saying which binding. -/
def CooldownScope.plain : CooldownScope → Bool
  | .credential _ | .credentialModel _ _ => true
  | _ => false

theorem resolve_not_plain {subject : HealthSubject} {b} (hb : subject.binding = some b)
    {kind} {scope : CooldownScope} (h : subject.resolve kind = some scope) : scope.plain = false := by
  cases kind <;> simp only [HealthSubject.resolve, hb, Option.map_eq_some_iff, Option.bind_eq_some_iff,
    Option.some.injEq] at h
  case credential => subst h; rfl
  case providerModel => obtain ⟨_, _, _, _, rfl⟩ := h; rfl
  all_goals obtain ⟨_, _, rfl⟩ := h; rfl

/-- The call stores a cooldown under a plain scope, unless it finds reason to store none. -/
def RegistryOp.writesPlain : RegistryOp → Prop
  | .restoreCooldown scope _ => scope.plain = true
  | .applyFailure failure subject _ => ∃ spec scope, failure.cooldown = some spec ∧
      subject.resolve spec.scope = some scope ∧ scope.plain = true
  | _ => False

variable (h : HealthRegistry)

/-- No cooldown is stored under a plain scope. -/
def NoPlain : Prop := ∀ (scope : CooldownScope) (expiry : ℕ), h.cooldowns[scope]? = some expiry → scope.plain = false

theorem noPlain_empty : NoPlain {} := by
  intro scope expiry h
  simp at h

theorem markCoolingDown_cooldowns (scope : CooldownScope) (expiry : ℕ) :
    (h.markCoolingDown scope expiry).cooldowns = h.cooldowns := by cases scope <;> rfl

theorem clearScope_cooldowns (scope : CooldownScope) : (h.clearScope scope).cooldowns = h.cooldowns.erase scope := by
  unfold HealthRegistry.clearScope
  cases scope <;> simp only <;> split <;> rfl

namespace NoPlain

variable {h : HealthRegistry}

theorem writeCooldown (hp : NoPlain h) {scope} (hs : scope.plain = false)
    (expiry marked : ℕ) : NoPlain (h.writeCooldown scope expiry marked) := by
  intro scope' expiry' hg
  rw [HealthRegistry.writeCooldown, markCoolingDown_cooldowns, get_insert] at hg
  split_ifs at hg with heq
  · rw [← heq]; exact hs
  · exact hp scope' expiry' hg

theorem applyFailure (hp : NoPlain h) {failure subject} {now : ℕ}
    (hs : ∀ spec scope, failure.cooldown = some spec → subject.resolve spec.scope = some scope →
      scope.plain = false) : NoPlain (h.applyFailure failure subject now).2 := by
  rcases applyFailure_cases h failure subject now with heq | ⟨spec, scope, expiry, hc, hr, heq⟩
  · rw [heq]; exact hp
  · rw [heq]; exact hp.writeCooldown (hs spec scope hc hr) expiry expiry

theorem removeBinding (hp : NoPlain h) (key : BindingKey) : NoPlain (h.removeBinding key) := by
  intro scope expiry hg
  rw [HealthRegistry.removeBinding, get_filter] at hg
  exact hp scope expiry (Option.filter_eq_some_iff.1 hg).1

theorem clearScope (hp : NoPlain h) (scope : CooldownScope) : NoPlain (h.clearScope scope) := by
  intro scope' expiry hg
  rw [clearScope_cooldowns, get_erase] at hg
  split_ifs at hg
  exact hp scope' expiry hg

theorem foldl {α : Type} {f}
    (hf : ∀ x h, NoPlain h → NoPlain (f h x)) (xs : List α) : ∀ h, NoPlain h → NoPlain (xs.foldl f h) := by
  induction xs with
  | nil => intro h hp; exact hp
  | cons x xs ih => intro h hp; exact ih _ (hf x h hp)

end NoPlain

theorem setCredentialsEnabled_cooldowns (changes : List (CredentialId × Bool)) :
    ∀ i : RegistryInner, (i.setCredentialsEnabled changes).health.cooldowns = i.health.cooldowns := by
  induction changes with
  | nil => intro i; rfl
  | cons change changes ih =>
    intro i
    refine (ih (i.setCredentialEnabled change)).trans ?_
    unfold RegistryInner.setCredentialEnabled
    split_ifs <;> rfl

theorem apply_noPlain (i : RegistryInner) (op : RegistryOp) (hop : ¬op.writesPlain)
    (hp : NoPlain i.health) : NoPlain (i.apply op).health := by
  cases op with
  | unregister =>
    simp only [RegistryInner.apply, RegistryInner.unregister]
    split
    · exact hp
    · exact NoPlain.foldl (fun key h hp => hp.removeBinding key) _ _ hp
  | unregisterBinding binding =>
    simp only [RegistryInner.apply, RegistryInner.unregisterBinding]
    split
    · exact hp
    · exact hp.removeBinding binding
  | applyFailure =>
    refine hp.applyFailure ?_
    intro spec scope hc hr
    exact Bool.eq_false_iff.2 (fun hplain => hop ⟨spec, scope, hc, hr, hplain⟩)
  | restoreCooldown scope expiry => exact hp.writeCooldown (Bool.eq_false_iff.2 hop) _ expiry
  | clearExpired => exact NoPlain.foldl (fun scope h hp => hp.clearScope scope) _ _ hp
  | setCredentialsEnabled changes =>
    intro scope expiry hg
    refine hp scope expiry ?_
    rw [← setCredentialsEnabled_cooldowns changes i]
    exact hg
  | disable | enable | disableBinding | enableBinding | register | registerModelAlias | setEnabled
  | setBindingEnabled | setQuotaSnapshot | setBindingQuotaSnapshot | restoreQuotaState | recoverQuotas
  | restoreAffinity | restoreAffinityBinding | purgeExpiredAffinity => exact hp

/-! ### The health of one registry along a step of the world -/

theorem World.release_health (w : World) (t i : ℕ) : ((w.release t).registries i).health = (w.registries i).health := by
  unfold World.release
  split
  · rfl
  · split
    · rfl
    · simp only [setHolding_registries, setRegistry_registries]
      split_ifs with hi
      · rw [hi]
      · rfl

theorem World.dropTicket_health (w : World) (t i : ℕ) :
    ((w.dropTicket t).registries i).health = (w.registries i).health := by
  unfold World.dropTicket
  simp only
  split
  · exact w.release_health t i
  · exact w.release_health t i

/-- The health of a registry changes by a call on it and by a recovery, which applies the failure
under a subject with a binding. -/
theorem World.step_health (w : World) (e : WorldEvent) (i : ℕ) :
    ((w.step e).registries i).health = (w.registries i).health ∨
    (∃ op, e = .op i op ∧ (w.step e).registries i = (w.registries i).apply op) ∨
    ∃ failure subject now b, subject.binding = some b ∧
      ((w.step e).registries i).health = ((w.registries i).health.applyFailure failure subject now).2 := by
  have hsel : ∀ (j : ℕ) (h : HealthRegistry) (req : SelectionRequest),
      ((w.selectWith j h req).2.registries i).health = (w.registries i).health := by
    intro j h req
    simp only [World.selectWith, issue_registries, setRegistry_registries]
    split_ifs with hi
    · rw [hi]
    · rfl
  cases e with
  | op j op =>
    by_cases hi : i = j
    · subst hi
      exact .inr (.inl ⟨op, rfl, by simp [World.step]⟩)
    · exact .inl (by simp [World.step, hi])
  | select j req => exact .inl (hsel j _ req)
  | selectWithHealth j req h => exact .inl (hsel j h req)
  | intoParts =>
    left
    simp only [World.step]
    split
    · rfl
    · split <;> rfl
  | drop t =>
    left
    simp only [World.step]
    split
    · rfl
    · split
      · rfl
      · exact w.dropTicket_health t i
  | recoverQuota j t cls req pol context =>
    simp only [World.step]
    split
    · exact .inl rfl
    next hd hg =>
    split
    swap
    · exact .inl rfl
    rcases hrec : w.recoverQuota j t hd cls req pol context with ⟨res, w'⟩
    rcases recoverQuota_cases hg hrec with ⟨-, rfl⟩ | ⟨failure, r, -, -, -, -, hrot, rfl⟩
    · exact .inl (w.dropTicket_health t i)
    · simp only [setHolding_registries, issue_registries, setRegistry_registries]
      split_ifs with hi
      · subst hi
        rcases RegistryInner.rotateQuota_health hrot with hh | hh
        · exact .inl (hh.trans (w.release_health t i))
        · refine .inr (.inr ⟨failure, failedSubject req hd.grant, req.now, hd.grant.binding, rfl, ?_⟩)
          rw [hh, w.release_health t i]
      · exact .inl (w.release_health t i)

end Pooler
