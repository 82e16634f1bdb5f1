import Pooler.Sanity.Health

/-! The reported health of accounts and bindings against the stored cooldowns. The status is a copy
of the whole-account or whole-binding cooldown; some calls write one without the other. -/

namespace Pooler

open Lib Table Bool HealthRegistry CredentialHealth

/-- A call that writes the health registry. -/
inductive HealthOp where
  | applyFailure (failure : FailureClassification) (subject : HealthSubject) (now : ℕ)
  | restoreCooldown (scope : CooldownScope) (expiry : ℕ)
  | disableCredential (id : CredentialId)
  | disableBinding (key : BindingKey)
  | enableCredential (id : CredentialId)
  | enableBinding (key : BindingKey)
  | removeBinding (key : BindingKey)
  | clearExpired (now : ℕ)

def HealthRegistry.step (h : HealthRegistry) : HealthOp → HealthRegistry
  | .applyFailure failure subject now => (h.applyFailure failure subject now).2
  | .restoreCooldown scope expiry => h.restoreCooldown scope expiry
  | .disableCredential id => h.disableCredential id
  | .disableBinding key => h.disableBinding key
  | .enableCredential id => h.enableCredential id
  | .enableBinding key => h.enableBinding key
  | .removeBinding key => h.removeBinding key
  | .clearExpired now => h.clearExpired now

/-- The health that a stored cooldown calls for. -/
def healthOf : Option ℕ → CredentialHealth
  | some expiry => ⟨.coolingDown, some expiry⟩
  | none => ⟨.healthy, none⟩

/-- An entry that is not disabled reports what the stored cooldown calls for; one that was never
written counts as healthy. -/
def Reports (entry : Option CredentialHealth) (stored : Option ℕ) : Prop :=
  isDisabled entry = false → entry.getD {} = healthOf stored

/-- Every account and binding reports its own whole cooldown, and no other. -/
structure HealthRegistry.Agrees (h : HealthRegistry) : Prop where
  credential : ∀ id, Reports h.credentials[id]? h.cooldowns[CooldownScope.credential id]?
  binding : ∀ key, Reports h.bindings[key]? h.cooldowns[CooldownScope.binding key]?

/-! ### The condition -/

def FailureClassification.cools (failure : FailureClassification) (subject : HealthSubject) : Option CooldownScope :=
  match failure.cooldown with
  | none => none
  | some spec =>
    if failure.isRequestInvalid ∧ failure.credentialCausation ≠ .proven ∧
        (spec.scope = .credential ∨ spec.scope = .credentialModel) then none
    else if spec.duration = 0 then none
    else subject.resolve spec.scope

namespace HealthRegistry

/-- A restored expiry is written to the status as it is, so it must not be earlier than the stored
one; a cooldown of a binding and model marks the whole binding. -/
def restoreMeets (h : HealthRegistry) (expiry : ℕ) : CooldownScope → Bool
  | .credential id => isDisabled h.credentials[id]? || h.cooldowns[CooldownScope.credential id]?.all (· ≤ expiry)
  | .binding key => isDisabled h.bindings[key]? || h.cooldowns[CooldownScope.binding key]?.all (· ≤ expiry)
  | .bindingModel key _ => isDisabled h.bindings[key]?
  | _ => true

/-- A failure must not cool the model of a binding that is not disabled. -/
def failureMeets (h : HealthRegistry) : Option CooldownScope → Bool
  | some (.bindingModel key _) => isDisabled h.bindings[key]?
  | _ => true

/-- An expired cooldown of a binding and model lifts the status of the whole binding, which must
have no cooldown left. -/
def expiryMeets (h : HealthRegistry) (now : ℕ) : CooldownScope → Bool
  | .bindingModel key _ => isDisabled h.bindings[key]? || h.cooldowns[CooldownScope.binding key]?.all (· ≤ now)
  | _ => true

/-- The call does not write a status that the stored cooldowns do not call for. -/
def meets (h : HealthRegistry) : HealthOp → Bool
  | .applyFailure failure subject _ => h.failureMeets (failure.cools subject)
  | .restoreCooldown scope expiry => h.restoreMeets expiry scope
  | .enableCredential id => !isDisabled h.credentials[id]? || h.cooldowns[CooldownScope.credential id]?.isNone
  | .enableBinding key => !isDisabled h.bindings[key]? || h.cooldowns[CooldownScope.binding key]?.isNone
  | .clearExpired now => (h.expiredScopes now).all (h.expiryMeets now)
  | _ => true

end HealthRegistry

/-! ### Entries -/

section Entries

variable {entry : Option CredentialHealth} {stored : Option ℕ}

theorem reports_disabled {health} (h : health.status = .disabled) : Reports (some health) stored := by
  intro hd
  rw [isDisabled, decide_eq_false_iff_not] at hd
  exact absurd h hd

theorem Reports.mark {marked : ℕ} (h : isDisabled entry = true ∨ stored = some marked) :
    Reports (some ((entry.getD {}).setCoolingDown marked)) stored := by
  rcases h with hd | rfl
  · obtain ⟨health, rfl, hs⟩ := isDisabled_iff.1 hd
    exact reports_disabled (setCoolingDown_disabled marked health hs)
  · rw [CredentialHealth.setCoolingDown]
    split_ifs with hs
    · exact reports_disabled hs
    · intro _; rfl

theorem Reports.enable (h : Reports entry stored) (hn : isDisabled entry = true → stored = none) :
    Reports (some (entry.getD {}).enable) stored := by
  intro _
  rw [Option.getD_some, CredentialHealth.enable]
  cases hd : isDisabled entry with
  | true =>
    obtain ⟨health, rfl, hs⟩ := isDisabled_iff.1 hd
    rw [Option.getD_some, if_pos hs, hn hd]
    rfl
  | false =>
    rw [h hd]
    cases stored <;> rfl

theorem Reports.clear (h : Reports entry stored) : Reports (entry.map clearCoolingDown) none := by
  cases entry with
  | none => intro _; rfl
  | some health =>
    by_cases hs : health.status = .disabled
    · exact reports_disabled (clearCoolingDown_disabled health hs)
    · intro _
      have hg : health = healthOf stored := h (by rw [isDisabled, decide_eq_false hs])
      rw [Option.map_some, Option.getD_some, hg]
      cases stored <;> rfl

end Entries

theorem reports_insert {α : Type} [StringKeyed α] [DecidableEq α] {t : Table α CredentialHealth}
    {stored : α → Option ℕ} {k : α} {health} (hk : Reports (some health) (stored k))
    (h : ∀ a, k ≠ a → Reports t[a]? (stored a)) (a : α) : Reports (t.insert k health)[a]? (stored a) := by
  rw [get_insert]
  split_ifs with heq
  · exact heq ▸ hk
  · exact h a heq

/-! ### Calls -/

def CooldownScope.whole : CooldownScope → Bool
  | credential _ | binding _ => true
  | _ => false

namespace HealthRegistry

variable {h : HealthRegistry} {scope : CooldownScope}

theorem get_cooldown_insert {expiry : ℕ} : (h.cooldowns.insert scope expiry)[scope]? = some expiry := by
  rw [get_insert, if_pos rfl]

variable {key : BindingKey}

theorem laterExpiry_eq {expiry : ℕ} (hle : h.cooldowns[scope]?.all (· ≤ expiry) = true) :
    h.laterExpiry scope expiry = expiry := by
  rw [laterExpiry]
  cases hg : h.cooldowns[scope]? with
  | none => rfl
  | some =>
    rw [hg] at hle
    exact max_eq_right (of_decide_eq_true hle)

theorem applyFailure_cools (h : HealthRegistry) (fail : FailureClassification) (subject : HealthSubject) (now : ℕ) :
    (h.applyFailure fail subject now).2 = h ∨ ∃ scope expiry, fail.cools subject = some scope ∧
      h.scopeDisabled scope = false ∧ (h.applyFailure fail subject now).2 = h.writeCooldown scope expiry expiry := by
  unfold HealthRegistry.applyFailure FailureClassification.cools
  cases fail.cooldown with
  | none => exact .inl rfl
  | some spec =>
    simp only
    split_ifs
    · exact .inl rfl
    · exact .inl rfl
    cases subject.resolve spec.scope with
    | none => exact .inl rfl
    | some scope =>
      simp only
      split_ifs with hd
      · exact .inl rfl
      · exact .inr ⟨scope, _, rfl, eq_false_iff.2 hd, rfl⟩

theorem none_of_meets {entry} {stored : Option ℕ}
    (hm : (!isDisabled entry || stored.isNone) = true) (hd : isDisabled entry = true) : stored = none := by
  rw [hd] at hm
  exact Option.isNone_iff_eq_none.1 hm

section

variable (ha : h.Agrees)
include ha

theorem Agrees.credential_insert (scope : CooldownScope) {id} (hne : scope ≠ .credential id) (expiry : ℕ) :
    Reports h.credentials[id]? (h.cooldowns.insert scope expiry)[CooldownScope.credential id]? := by
  rw [get_insert, if_neg hne]
  exact ha.credential id

theorem Agrees.binding_insert (scope : CooldownScope) {key} (hne : scope ≠ .binding key) (expiry : ℕ) :
    Reports h.bindings[key]? (h.cooldowns.insert scope expiry)[CooldownScope.binding key]? := by
  rw [get_insert, if_neg hne]
  exact ha.binding key

theorem Agrees.insert (hs : scope.whole = false) (expiry : ℕ) :
    Agrees { h with cooldowns := h.cooldowns.insert scope expiry } where
  credential id := ha.credential_insert scope (by rintro rfl; cases hs) expiry
  binding key := ha.binding_insert scope (by rintro rfl; cases hs) expiry

theorem Agrees.writeCredential (id : CredentialId) {expiry marked : ℕ}
    (hw : isDisabled h.credentials[id]? = true ∨ expiry = marked) :
    (h.writeCooldown (.credential id) expiry marked).Agrees := by
  refine ⟨reports_insert (.mark (hw.imp_right ?_)) fun id' hne => ha.credential_insert (.credential id) (by simpa using hne) expiry,
    fun key => ha.binding_insert (.credential id) (by nofun) expiry⟩
  rintro rfl
  exact get_cooldown_insert

theorem Agrees.writeBinding (key : BindingKey) {expiry marked : ℕ}
    (hw : isDisabled h.bindings[key]? = true ∨ expiry = marked) :
    (h.writeCooldown (.binding key) expiry marked).Agrees := by
  refine ⟨fun id => ha.credential_insert (.binding key) (by nofun) expiry, reports_insert (.mark (hw.imp_right ?_))
    fun key' hne => ha.binding_insert (.binding key) (by simpa using hne) expiry⟩
  rintro rfl
  exact get_cooldown_insert

theorem Agrees.writeBindingModel (model : ModelId) (expiry marked : ℕ) (hd : isDisabled h.bindings[key]? = true) :
    (h.writeCooldown (.bindingModel key model) expiry marked).Agrees := by
  have hstd := ha.insert (show (CooldownScope.bindingModel key model).whole = false from rfl) expiry
  exact ⟨hstd.credential, reports_insert (.mark (.inl hd)) fun key' _ => hstd.binding key'⟩

theorem Agrees.restoreCooldown (scope : CooldownScope) (expiry : ℕ)
    (hm : h.restoreMeets expiry scope = true) : (h.restoreCooldown scope expiry).Agrees := by
  rw [HealthRegistry.restoreCooldown]
  cases scope with
  | credential id => exact ha.writeCredential id ((or_eq_true_iff.1 hm).imp_right laterExpiry_eq)
  | binding key => exact ha.writeBinding key ((or_eq_true_iff.1 hm).imp_right laterExpiry_eq)
  | bindingModel key model => exact ha.writeBindingModel model _ _ hm
  | credentialModel | model | provider | providerModel | route => exact ha.insert rfl _

theorem Agrees.applyFailure (fail : FailureClassification) (subject : HealthSubject) (now : ℕ)
    (hm : h.failureMeets (fail.cools subject) = true) : (h.applyFailure fail subject now).2.Agrees := by
  rcases applyFailure_cools h fail subject now with heq | ⟨scope, expiry, hcools, hd, heq⟩
  · rw [heq]; exact ha
  · rw [heq]
    rw [hcools] at hm
    cases scope with
    | credential id => exact ha.writeCredential id (.inr rfl)
    | binding key => exact ha.writeBinding key (.inr rfl)
    | bindingModel => exact absurd (hd.symm.trans hm) false_ne_true
    | credentialModel | model | provider | providerModel | route => exact ha.insert rfl _

theorem Agrees.disableCredential (id : CredentialId) : (h.disableCredential id).Agrees :=
  ⟨reports_insert (reports_disabled rfl) fun id' _ => ha.credential id', ha.binding⟩

theorem Agrees.disableBinding (key : BindingKey) : (h.disableBinding key).Agrees :=
  ⟨ha.credential, reports_insert (reports_disabled rfl) fun key' _ => ha.binding key'⟩

theorem Agrees.enableCredential {id : CredentialId} (hm : h.meets (.enableCredential id) = true) :
    (h.enableCredential id).Agrees :=
  ⟨reports_insert ((ha.credential id).enable (none_of_meets hm)) fun id' _ => ha.credential id', ha.binding⟩

theorem Agrees.enableBinding (hm : h.meets (.enableBinding key) = true) : (h.enableBinding key).Agrees :=
  ⟨ha.credential, reports_insert ((ha.binding key).enable (none_of_meets hm)) fun key' _ => ha.binding key'⟩

theorem Agrees.removeBinding (key : BindingKey) : (h.removeBinding key).Agrees where
  credential id := by
    have hkeep : ∀ stored : Option ℕ,
        stored.filter (fun _ => decide ((CooldownScope.credential id).bindingKey ≠ some key)) = stored := by
      intro stored; cases stored <;> rfl
    simp only [HealthRegistry.removeBinding, get_filter, hkeep]
    exact ha.credential id
  binding key' := by
    simp only [HealthRegistry.removeBinding, get_filter, get_erase]
    split_ifs with heq
    · subst heq
      intro _
      cases h.cooldowns[CooldownScope.binding key]? <;> simp [CooldownScope.bindingKey, healthOf]
    · have hkeep : ∀ stored : Option ℕ,
          stored.filter (fun _ => decide ((CooldownScope.binding key').bindingKey ≠ some key)) = stored := by
        intro stored
        cases stored with
        | none => rfl
        | some => simp [CooldownScope.bindingKey, Option.filter, Ne.symm heq]
      rw [hkeep]
      exact ha.binding key'

end

/-! ### Expiry -/

theorem mem_expiredScopes {now : ℕ} :
    scope ∈ h.expiredScopes now ↔ ∃ expiry, h.cooldowns[scope]? = some expiry ∧ expiry ≤ now := by
  simp [expiredScopes]

theorem get_insert_clear {α : Type} [StringKeyed α] [DecidableEq α] {t : Table α CredentialHealth} {k : α}
    {health} (hk : t[k]? = some health) (a : α) :
    (t.insert k health.clearCoolingDown)[a]? = if k = a then t[a]?.map clearCoolingDown else t[a]? := by
  rw [get_insert]
  split_ifs with heq
  · rw [← heq, hk, Option.map_some]
  · rfl

theorem clearScope_credentials (h : HealthRegistry) (scope : CooldownScope) (id : CredentialId) :
    (h.clearScope scope).credentials[id]? = if scope = .credential id then h.credentials[id]?.map clearCoolingDown
      else h.credentials[id]? := by
  unfold clearScope
  cases scope with
  | credential id' =>
    simp only [CooldownScope.credential.injEq]
    cases hk : h.credentials[id']? with
    | none =>
      simp only
      split_ifs with heq
      · rw [← heq, hk, Option.map_none]
      · rfl
    | some => exact get_insert_clear hk id
  | binding | bindingModel => simp only [reduceCtorEq, if_false]; split <;> rfl
  | credentialModel | model | provider | providerModel | route => simp [reduceCtorEq]

theorem clearScope_bindings (h : HealthRegistry) (scope : CooldownScope) (key : BindingKey) :
    (h.clearScope scope).bindings[key]? = if scope.bindingKey = some key then h.bindings[key]?.map clearCoolingDown
      else h.bindings[key]? := by
  unfold clearScope
  cases scope with
  | credential => simp only [CooldownScope.bindingKey, reduceCtorEq, if_false]; split <;> rfl
  | binding key' | bindingModel key' =>
    simp only [CooldownScope.bindingKey, Option.some.injEq]
    cases hk : h.bindings[key']? with
    | none =>
      simp only
      split_ifs with heq
      · rw [← heq, hk, Option.map_none]
      · rfl
    | some => exact get_insert_clear hk key
  | credentialModel | model | provider | providerModel | route =>
    simp [CooldownScope.bindingKey, reduceCtorEq]

theorem map_clearCoolingDown (entry : Option CredentialHealth) :
    (entry.map clearCoolingDown).map clearCoolingDown = entry.map clearCoolingDown := by
  rw [Option.map_map]
  congr 1
  funext health
  simp only [Function.comp_apply, clearCoolingDown]
  split_ifs <;> simp_all

/-- What is read after a list of scopes: cleared once any of them is its own. -/
theorem foldl_clearScope {α : Type} (read : HealthRegistry → α) (own : CooldownScope → Bool) {clear : α → α}
    (hclr : ∀ a, clear (clear a) = clear a)
    (hrd : ∀ h scope, read (h.clearScope scope) = if own scope = true then clear (read h) else read h)
    (scopes : List CooldownScope) : ∀ h, read (scopes.foldl clearScope h) =
      if scopes.any own = true then clear (read h) else read h := by
  induction scopes with
  | nil => intro h; rfl
  | cons scope scopes ih =>
    intro h
    rw [List.foldl_cons, ih, hrd, List.any_cons]
    cases own scope <;> cases scopes.any own <;> simp [hclr]

theorem clearExpired_credentials (h : HealthRegistry) (now : ℕ) (id : CredentialId) :
    (h.clearExpired now).credentials[id]? =
      if .credential id ∈ h.expiredScopes now then h.credentials[id]?.map clearCoolingDown else h.credentials[id]? := by
  have hent := foldl_clearScope (fun h => h.credentials[id]?) (fun scope => scope = .credential id) map_clearCoolingDown
    (fun h scope => by simpa using clearScope_credentials h scope id) (h.expiredScopes now) h
  simpa [HealthRegistry.clearExpired] using hent

theorem clearExpired_bindings (h : HealthRegistry) (now : ℕ) (key : BindingKey) :
    (h.clearExpired now).bindings[key]? =
      if ∃ scope ∈ h.expiredScopes now, scope.bindingKey = some key then
        h.bindings[key]?.map clearCoolingDown else h.bindings[key]? := by
  have hent := foldl_clearScope (fun h => h.bindings[key]?) (fun scope => scope.bindingKey = some key) map_clearCoolingDown
    (fun h scope => by simpa using clearScope_bindings h scope key) (h.expiredScopes now) h
  simpa [HealthRegistry.clearExpired] using hent

theorem clearExpired_cooldowns (h : HealthRegistry) (now : ℕ) (scope : CooldownScope) :
    (h.clearExpired now).cooldowns[scope]? = if scope ∈ h.expiredScopes now then none else h.cooldowns[scope]? := by
  have hent := @foldl_clearScope _ (fun h => h.cooldowns[scope]?) (fun other => other = scope) (fun _ => none)
    (fun _ => rfl) (fun h other => by simp [clearScope_cooldowns, get_erase]) (h.expiredScopes now) h
  simpa [HealthRegistry.clearExpired] using hent

/-- An expired scope of a binding whose own cooldown has not expired belongs to one of its models. -/
theorem binding_of_expiryMeets {now : ℕ} (hscp : scope ∈ h.expiredScopes now) (hkey : scope.bindingKey = some key)
    (hown : CooldownScope.binding key ∉ h.expiredScopes now) (hm : h.expiryMeets now scope = true) :
    isDisabled h.bindings[key]? = true ∨ h.cooldowns[CooldownScope.binding key]? = none := by
  cases scope with
  | bindingModel =>
    cases hkey
    rcases or_eq_true_iff.1 hm with hd | hall
    · exact .inl hd
    · refine .inr ?_
      cases hg : h.cooldowns[CooldownScope.binding key]? with
      | none => rfl
      | some expiry =>
        rw [hg] at hall
        exact absurd (mem_expiredScopes.2 ⟨expiry, hg, of_decide_eq_true hall⟩) hown
  | binding => cases hkey; exact absurd hscp hown
  | credential | credentialModel | model | provider | providerModel | route => cases hkey

theorem Agrees.clearExpired (ha : h.Agrees) (now : ℕ) (hm : (h.expiredScopes now).all (h.expiryMeets now) = true) :
    (h.clearExpired now).Agrees where
  credential id := by
    rw [clearExpired_credentials, clearExpired_cooldowns]
    split_ifs
    · exact (ha.credential id).clear
    · exact ha.credential id
  binding key := by
    rw [clearExpired_bindings, clearExpired_cooldowns]
    by_cases hown : CooldownScope.binding key ∈ h.expiredScopes now
    · rw [if_pos hown, if_pos ⟨_, hown, rfl⟩]
      exact (ha.binding key).clear
    · rw [if_neg hown]
      split_ifs with htouc
      · obtain ⟨scope, hscp, hkey⟩ := htouc
        rcases binding_of_expiryMeets hscp hkey hown (List.all_eq_true.1 hm scope hscp) with hd | hn
        · obtain ⟨health, hg, hs⟩ := isDisabled_iff.1 hd
          rw [hg]
          exact reports_disabled (clearCoolingDown_disabled health hs)
        · rw [hn]
          exact (ha.binding key).clear
      · exact ha.binding key

theorem step_agrees (h : HealthRegistry) (op : HealthOp) (hm : h.meets op = true) (ha : h.Agrees) :
    (h.step op).Agrees := by
  cases op with
  | applyFailure fail subject now => exact ha.applyFailure fail subject now hm
  | restoreCooldown scope expiry => exact ha.restoreCooldown scope expiry hm
  | disableCredential id => exact ha.disableCredential id
  | disableBinding key => exact ha.disableBinding key
  | enableCredential => exact ha.enableCredential hm
  | enableBinding => exact ha.enableBinding hm
  | removeBinding key => exact ha.removeBinding key
  | clearExpired now => exact ha.clearExpired now hm

theorem agrees_empty : Agrees {} := by
  refine ⟨fun id _ => ?_, fun key _ => ?_⟩
  · simp [healthOf]
  · simp [healthOf]

end HealthRegistry

/-- In every run whose calls write no status that the stored cooldowns do not call for, each account
and binding that is not disabled reports cooling down with exactly the stored expiry of its whole
cooldown, and healthy when it has none. -/
theorem reported_health_follows_cooldowns (ops : List HealthOp)
    (hmeets : StepsMeet HealthRegistry.step (fun h op => h.meets op = true) {} ops) :
    (run HealthRegistry.step {} ops).Agrees :=
  run_of_stepsMeet step_agrees ops {} hmeets agrees_empty

def reportBinding : BindingKey := ⟨⟨"reported", by decide⟩, ⟨"reporter", by decide⟩, "fingerprint"⟩

def reportModel : ModelId := ⟨"reported-model", by decide⟩

def reportSubject : HealthSubject := { binding := some reportBinding, model := some reportModel }

def reportFailure (spec : CooldownSpec) : FailureClassification :=
  (FailureClassification.forClass .providerRateLimited).withCooldown spec

/-- A binding that cools down, is restored later still and expires. -/
theorem cooled_binding_reports : (run HealthRegistry.step {} [
    .applyFailure (reportFailure ⟨.credential, 30⟩) reportSubject 0, .restoreCooldown (.binding reportBinding) 40,
    .enableBinding reportBinding, .clearExpired 30]).Agrees ∧
    (run HealthRegistry.step {} [
      .applyFailure (reportFailure ⟨.credential, 30⟩) reportSubject 0, .restoreCooldown (.binding reportBinding) 40,
      .enableBinding reportBinding, .clearExpired 30]).bindings[reportBinding]? = some ⟨.coolingDown, some 40⟩ :=
  ⟨reported_health_follows_cooldowns _ (by decide), by decide⟩

/-- What a run leaves of one binding: its entry and its whole cooldown. -/
def bindingAfter (ops : List HealthOp) : Option CredentialHealth × Option ℕ :=
  ((run HealthRegistry.step {} ops).bindings[reportBinding]?,
    (run HealthRegistry.step {} ops).cooldowns[CooldownScope.binding reportBinding]?)

/-- A cooldown of one model marks the whole binding; an earlier restored expiry replaces the later
one in the status only; enabling forgets a stored cooldown; and an expired cooldown of a model lifts
the status of a binding that still cools down. -/
theorem model_cooldown_marks_the_binding :
    bindingAfter [.applyFailure (reportFailure ⟨.credentialModel, 30⟩) reportSubject 0] =
        (some ⟨.coolingDown, some 30⟩, none) ∧
      bindingAfter [.restoreCooldown (.binding reportBinding) 40, .restoreCooldown (.binding reportBinding) 30] =
        (some ⟨.coolingDown, some 30⟩, some 40) ∧
      bindingAfter [.restoreCooldown (.binding reportBinding) 40, .disableBinding reportBinding,
        .enableBinding reportBinding] = (some ⟨.healthy, none⟩, some 40) ∧
      bindingAfter [.restoreCooldown (.bindingModel reportBinding reportModel) 30,
        .restoreCooldown (.binding reportBinding) 40, .clearExpired 30] = (some ⟨.healthy, none⟩, some 40) := by
  decide

end Pooler
