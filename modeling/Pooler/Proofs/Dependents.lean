import Pooler.Sanity.Store

/-! What a credential leaves behind. The store purges the cooldowns whose key it can read as a
credential's; the keys of bindings are not among them. -/

namespace Pooler

open Lib Nat List Option OrderedMap

/-! ### Keys read back -/

theorem parseUsize_decimal {n : ℕ} (h : n ≤ usizeMax) : parseUsize (decimal n) = some n := by
  have hdig : ∀ c ∈ decimal n, c.isDigit = true := fun c hc => isDigit_of_mem_toDigits (by norm_num) (by norm_num) hc
  have hplus : ∀ rest, decimal n ≠ '+' :: rest := by
    intro rest heq
    have := hdig '+' (heq ▸ mem_cons_self)
    simp [Char.isDigit] at this
  have hne : decimal n ≠ [] := toDigits_ne_nil
  unfold parseUsize
  split
  next rest heq => exact absurd heq (hplus rest)
  · have hrd : Nat.ofDigitChars 10 (decimal n) 0 = n := ofDigitChars_ten_toDigits
    simp only [hrd]
    exact if_pos ⟨hne, all_eq_true.2 hdig, h⟩

theorem colon_notMem_decimal (n : ℕ) : ':' ∉ decimal n := by
  intro hm
  have := isDigit_of_mem_toDigits (by norm_num) (by norm_num) hm
  simp [Char.isDigit] at this

theorem toList_encodeCompoundCooldownKey (left right : String) :
    (encodeCompoundCooldownKey left right).toList = "v2:".toList ++ (decimal left.utf8ByteSize ++ ':' ::
      (decimal right.utf8ByteSize ++ ':' :: (left.toList ++ right.toList))) := by
  simp [encodeCompoundCooldownKey, decimal]

theorem utf8ByteSize_eq_weigh (value : String) : weigh Char.utf8Size value.toList = value.utf8ByteSize := by
  rw [weigh_utf8Size, String.utf8Len_toList]

theorem decodeCompoundCooldownKey_encode {left right} (h : left.utf8ByteSize + right.utf8ByteSize ≤ usizeMax) :
    MemoryStore.decodeCompoundCooldownKey (encodeCompoundCooldownKey left right) = some (left, right) := by
  unfold MemoryStore.decodeCompoundCooldownKey
  rw [toList_encodeCompoundCooldownKey, stripPrefix_eq_some.2 rfl, bind_eq_bind, bind_some,
    splitOnce_eq_some.2 ⟨rfl, colon_notMem_decimal _⟩]
  simp only [bind_eq_bind, bind_some]
  rw [splitOnce_eq_some.2 ⟨rfl, colon_notMem_decimal _⟩]
  simp only [bind_some]
  rw [parseUsize_decimal (by omega), bind_some, parseUsize_decimal (by omega), bind_some, if_neg,
    ← utf8ByteSize_eq_weigh left, splitWeighed_append Char.utf8Size_pos]
  · simp
  · rw [weigh_append, utf8ByteSize_eq_weigh, utf8ByteSize_eq_weigh]
    omega

theorem Ident.size_le {k} (a : Ident k) : a.asStr.utf8ByteSize ≤ maxIdentifierLength := by
  have hvld := a.valid
  unfold validateNamed at hvld
  split_ifs at hvld with hemp hlong
  · cases hvld
  · cases hvld
  · exact le_of_not_gt hlong

namespace MemoryStore

/-- The pool writes this key for a cooldown of the credential. -/
def Names (key : String × String) (id : String) : Prop :=
  ∃ scope credential, cooldownKey scope = key ∧ scope.credentialId = some credential ∧ credential.asStr = id

/-- The pool writes this key for a cooldown of a binding of the credential. -/
def BindingNames (key : String × String) (id : String) : Prop :=
  ∃ scope binding, cooldownKey scope = key ∧ scope.bindingKey = some binding ∧ binding.accountId.asStr = id

/-- The store reads the credential off the keys that are not those of bindings. -/
theorem cooldownCredentialId_of_names {key id} (h : Names key id) :
    cooldownCredentialId key.1 key.2 = some id ∨ BindingNames key id := by
  obtain ⟨scope, credential, rfl, hcred, rfl⟩ := h
  cases scope with
  | credential =>
    cases hcred
    exact .inl rfl
  | credentialModel c m =>
    cases hcred
    have hsize : credential.asStr.utf8ByteSize + m.asStr.utf8ByteSize ≤ usizeMax := by
      have := credential.size_le
      have := m.size_le
      simp only [maxIdentifierLength, usizeMax] at *
      omega
    refine .inl ?_
    simp [cooldownKey, cooldownCredentialId, decodeCompoundCooldownKey_encode hsize]
  | binding b =>
    cases hcred
    exact .inr ⟨_, b, rfl, rfl, rfl⟩
  | bindingModel b =>
    cases hcred
    exact .inr ⟨_, b, rfl, rfl, rfl⟩
  | model | provider | providerModel | route => cases hcred

variable {key : String ×ₗ String} {cooldown : CooldownState} {state : CredentialState}

namespace Inner

variable {s t u : Inner} {id : String}

/-- Health, affinities and the cooldowns that the store can tell a credential of have their
credential. -/
structure Owned (s : Inner) : Prop where
  health : ∀ id health, s.health.get id = some health → s.credentials.contains id
  affinities : ∀ key affinity, s.affinities.get key = some affinity → s.credentials.contains affinity.credentialId
  cooldowns : ∀ key cooldown id, s.cooldowns.get key = some cooldown →
    cooldownCredentialId (ofLex key).1 (ofLex key).2 = some id → s.credentials.contains id

theorem Owned.of_le (h : s.Owned) (hcreds : ∀ id, s.credentials.contains id → t.credentials.contains id)
    (hheal : ∀ id health, t.health.get id = some health → ∃ old, s.health.get id = some old)
    (haff : ∀ key aff, t.affinities.get key = some aff → s.affinities.get key = some aff)
    (hcool : ∀ key cooldown, t.cooldowns.get key = some cooldown → s.cooldowns.get key = some cooldown) : t.Owned := by
  refine ⟨fun id health hg => ?_, fun key aff hg => ?_, fun key cooldown id hg hid => ?_⟩
  · obtain ⟨old, hold⟩ := hheal id health hg
    exact hcreds _ (h.health id old hold)
  · exact hcreds _ (h.affinities key aff (haff key aff hg))
  · exact hcreds _ (h.cooldowns key cooldown id (hcool key cooldown hg) hid)

/-! ### Purging -/

variable {a : String}

theorem purge_health {health} :
    (s.purgeCredentialDependents id).health.get a = some health ↔ s.health.get a = some health ∧ a ≠ id := by
  change (s.health.erase id).get a = _ ↔ _
  rw [get_erase]
  by_cases ha : id = a
  · simp [ha]
  · simp [ha, Ne.symm ha]

theorem purge_affinities {key aff} :
    (s.purgeCredentialDependents id).affinities.get key = some aff ↔
      s.affinities.get key = some aff ∧ aff.credentialId ≠ id := by
  rw [purgeCredentialDependents]
  simp [get_retain]

theorem purge_cooldowns :
    (s.purgeCredentialDependents id).cooldowns.get key = some cooldown ↔
      s.cooldowns.get key = some cooldown ∧ cooldownCredentialId (ofLex key).1 (ofLex key).2 ≠ some id := by
  rw [purgeCredentialDependents]
  simp only [get_retain]
  refine and_congr_right fun _ => ?_
  obtain ⟨scope, text⟩ := ofLex key
  by_cases hcred : scope = "credential"
  · simp [hcred, cooldownCredentialId]
  · by_cases hmod : scope = "credential_model"
    · simp [hmod, cooldownBelongsToCredential]
    · simp [hcred, hmod, cooldownCredentialId]

theorem Owned.purge (h : s.Owned) (id : String) : (s.purgeCredentialDependents id).Owned :=
  h.of_le (fun _ hid => hid) (fun _ health hg => ⟨health, (purge_health.1 hg).1⟩)
    (fun _ _ hg => (purge_affinities.1 hg).1) fun _ _ hg => (purge_cooldowns.1 hg).1

theorem contains_drop (h : s.credentials.contains a) (ha : a ≠ id) : (s.drop id).credentials.contains a := by
  obtain ⟨state, hg⟩ := contains_iff.1 h
  refine contains_iff.2 ⟨state, ?_⟩
  exact (get_erase _ _ _).trans ((if_neg ha.symm).trans hg)

theorem Owned.drop (h : s.Owned) (id : String) : (s.drop id).Owned := by
  refine ⟨fun a health hg => ?_, fun key aff hg => ?_, fun key cooldown a hg ha => ?_⟩
  · obtain ⟨hg, ha⟩ := purge_health.1 hg
    exact contains_drop (h.health a health hg) ha
  · obtain ⟨hg, ha⟩ := purge_affinities.1 hg
    exact contains_drop (h.affinities key aff hg) ha
  · obtain ⟨hg, hne⟩ := purge_cooldowns.1 hg
    refine contains_drop (h.cooldowns key cooldown a hg ha) ?_
    rintro rfl
    exact hne ha

theorem Owned.move (hmove : Move s t) (h : s.Owned) : t.Owned := by
  cases hmove with
  | purged id => exact h.purge id
  | dropped id => exact h.drop id
  | wrote =>
    refine h.of_le (fun a ha => ?_) (fun _ health hg => ⟨health, hg⟩) (fun _ _ hg => hg) fun _ _ hg => hg
    exact (contains_insert _ _ _ _).trans (by rw [show s.credentials.contains a = true from ha, Bool.or_true])
  | health id state stored =>
    exact ⟨forall_insert stored fun a health _ hg => h.health a health hg, h.affinities, h.cooldowns⟩
  | cooled state required =>
    refine ⟨h.health, h.affinities, fun key cooldown id hg => forall_insert (fun hid => ?_)
      (fun key cooldown _ hg => h.cooldowns key cooldown id hg) key cooldown hg⟩
    simp only [ofLex_toLex] at hid
    rw [requireCooldownCredential, hid] at required
    dsimp only at required
    split_ifs at required with hc
    exact hc
  | thinnedCooldowns =>
    exact h.of_le (fun _ hid => hid) (fun _ health hg => ⟨health, hg⟩) (fun _ _ hg => hg)
      fun _ _ hg => (get_retain.1 hg).1
  | bound key aff stored =>
    exact ⟨h.health, forall_insert stored fun k a _ hg => h.affinities k a hg, h.cooldowns⟩
  | used key aff lastUsedAt present =>
    exact ⟨h.health, forall_insert (h.affinities key aff present) fun k a _ hg =>
      h.affinities k a hg, h.cooldowns⟩
  | thinnedAffinities =>
    exact h.of_le (fun _ hid => hid) (fun _ health hg => ⟨health, hg⟩)
      (fun _ _ hg => (get_retain.1 hg).1) fun _ _ hg => hg

/-! ### Removed and identified anew -/

/-- Nothing of the credential is left that the store can tell; a record that is there and disabled
has the health of its own writing. -/
structure Left (t : Inner) (id : String) : Prop where
  health : ∀ health, t.health.get id = some health →
    ∃ new, t.credentials.get id = some new ∧ new.enabled = false ∧ health = .new id .disabled new.updatedAt
  affinities : ∀ key affinity, t.affinities.get key = some affinity → affinity.credentialId ≠ id
  cooldowns : ∀ key cooldown, t.cooldowns.get key = some cooldown →
    cooldownCredentialId (ofLex key).1 (ofLex key).2 ≠ some id

theorem left_drop (t : Inner) (id : String) : (t.drop id).Left id := by
  refine ⟨fun health hg => ?_, fun key aff hg => ?_, fun key cooldown hg => ?_⟩
  · exact absurd rfl (purge_health.1 hg).2
  · exact (purge_affinities.1 hg).2
  · exact (purge_cooldowns.1 hg).2

theorem Left.of_le (h : t.Left id) (hrec : u.credentials.get id = t.credentials.get id)
    (hheal : ∀ health, u.health.get id = some health → t.health.get id = some health)
    (haff : ∀ key aff, u.affinities.get key = some aff → t.affinities.get key = some aff)
    (hcool : ∀ key cooldown, u.cooldowns.get key = some cooldown → t.cooldowns.get key = some cooldown) : u.Left id :=
  ⟨fun health hg => hrec ▸ h.health health (hheal health hg),
    fun key aff hg => h.affinities key aff (haff key aff hg),
    fun key cooldown hg => h.cooldowns key cooldown (hcool key cooldown hg)⟩

theorem Left.purge (h : t.Left id) (a : String) : (t.purgeCredentialDependents a).Left id :=
  h.of_le rfl (fun _ hg => (purge_health.1 hg).1) (fun _ _ hg => (purge_affinities.1 hg).1)
    fun _ _ hg => (purge_cooldowns.1 hg).1

theorem Left.drop (h : t.Left id) (ha : a ≠ id) : (t.drop a).Left id := by
  refine h.of_le ?_ (fun _ hg => (purge_health.1 hg).1) (fun _ _ hg => (purge_affinities.1 hg).1)
    fun _ _ hg => (purge_cooldowns.1 hg).1
  exact (get_erase _ _ _).trans (if_neg ha)

theorem putDisabled_credentials (t : Inner) (state : CredentialState) :
    (t.putDisabled state).credentials = t.credentials ∧ (t.putDisabled state).affinities = t.affinities ∧
      (t.putDisabled state).cooldowns = t.cooldowns := by
  unfold putDisabled
  split_ifs
  · exact ⟨rfl, rfl, rfl⟩
  · exact ⟨rfl, rfl, rfl⟩

section

variable (t) (state : CredentialState) (purge : Bool)

theorem get_rewrite (a : String) :
    (t.rewrite state purge).credentials.get a =
      if state.credentialId = a then some { state with revision := t.credentialRevision + 1 }
      else t.credentials.get a := by
  rw [rewrite, (putDisabled_credentials _ _).1]
  cases purge with
  | true | false => exact get_insert _ _ _ _

theorem rewrite_affinities {key aff} :
    (t.rewrite state purge).affinities.get key = some aff ↔
      t.affinities.get key = some aff ∧ (purge = true → aff.credentialId ≠ state.credentialId) := by
  rw [rewrite, (putDisabled_credentials _ _).2.1]
  cases purge with
  | true => exact purge_affinities.trans (and_congr_right' (by simp))
  | false => exact (and_iff_left nofun).symm

theorem rewrite_cooldowns :
    (t.rewrite state purge).cooldowns.get key = some cooldown ↔ t.cooldowns.get key = some cooldown ∧
      (purge = true → cooldownCredentialId (ofLex key).1 (ofLex key).2 ≠ some state.credentialId) := by
  rw [rewrite, (putDisabled_credentials _ _).2.2]
  cases purge with
  | true => exact purge_cooldowns.trans (and_congr_right' (by simp))
  | false => exact (and_iff_left nofun).symm

theorem rewrite_health (a : String) :
    (t.rewrite state purge).health.get a =
      if state.credentialId = a then
        if state.enabled then if purge then none else t.health.get a else some (.new a .disabled state.updatedAt)
      else t.health.get a := by
  cases purge with
  | true | false =>
    by_cases hena : state.enabled = true <;> by_cases hid : state.credentialId = a <;>
      simp [rewrite, putDisabled, write, putCredential, purgeCredentialDependents, putHealth, CredentialHealthState.new,
        get_erase, get_insert, hena, hid]

end

/-- Each record of `s` has its identity still, or nothing of it is left. One that has not been
written is as it was, or gone. -/
structure Reshaped (s : Inner) (ids : List String) (t : Inner) : Prop where
  record : ∀ id old, s.credentials.get id = some old →
    (∃ new, t.credentials.get id = some new ∧ exactIdentity old new = true) ∨ t.Left id
  unwritten : ∀ id old, s.credentials.get id = some old → id ∉ ids →
    t.credentials.get id = some old ∨ t.credentials.get id = none ∧ t.Left id

variable {ids : List String}

theorem Reshaped.rewrote (h : s.Reshaped ids t) {purge} (fresh : state.credentialId ∉ ids)
    (covered : ∀ old, t.credentials.get state.credentialId = some old → exactIdentity old state = true ∨ purge = true) :
    s.Reshaped (state.credentialId :: ids) (t.rewrite state purge) := by
  -- another record is not touched
  have hoth : ∀ {id}, t.Left id → state.credentialId ≠ id → (t.rewrite state purge).Left id := by
    intro id hleft hne
    refine hleft.of_le (by rw [get_rewrite, if_neg hne]) (fun health hg => ?_)
      (fun _ _ hg => ((rewrite_affinities ..).1 hg).1) fun _ _ hg => ((rewrite_cooldowns ..).1 hg).1
    rwa [rewrite_health, if_neg hne] at hg
  -- what was there before the write of the record itself has gone
  have hself : (t.Left state.credentialId ∧ t.credentials.get state.credentialId = none ∨ purge = true) →
      (t.rewrite state purge).Left state.credentialId := by
    intro hgone
    refine ⟨fun health hg => ?_, fun key aff hg => ?_, fun key cooldown hg => ?_⟩
    · rw [rewrite_health, if_pos rfl] at hg
      split_ifs at hg with hena hpur
      · obtain ⟨hleft, hn⟩ := hgone.resolve_right hpur
        obtain ⟨new, hw, -⟩ := hleft.health health hg
        rw [hn] at hw
        cases hw
      · exact ⟨_, (get_rewrite ..).trans (if_pos rfl), by simpa using hena, (some.inj hg).symm⟩
    · obtain ⟨hg, hnot⟩ := (rewrite_affinities ..).1 hg
      exact hgone.elim (fun hleft => hleft.1.affinities key aff hg) hnot
    · obtain ⟨hg, hnot⟩ := (rewrite_cooldowns ..).1 hg
      exact hgone.elim (fun hleft => hleft.1.cooldowns key cooldown hg) hnot
  refine ⟨fun id old hold => ?_, fun id old hold hid => ?_⟩
  · by_cases hne : state.credentialId = id
    · subst hne
      rcases h.unwritten _ old hold fresh with hg | ⟨hn, hleft⟩
      · rcases covered old hg with hsame | hpur
        · exact .inl ⟨{ state with revision := t.credentialRevision + 1 }, by rw [get_rewrite, if_pos rfl], hsame⟩
        · exact .inr (hself (.inr hpur))
      · exact .inr (hself (.inl ⟨hleft, hn⟩))
    · rw [get_rewrite, if_neg hne]
      exact (h.record id old hold).imp_right fun hleft => hoth hleft hne
  · rw [mem_cons, not_or] at hid
    obtain ⟨hne, hid⟩ := hid
    rw [get_rewrite, if_neg (Ne.symm hne)]
    exact (h.unwritten id old hold hid).imp_right fun ⟨hn, hleft⟩ => ⟨hn, hoth hleft (Ne.symm hne)⟩

theorem Reshaped.dropped (h : s.Reshaped ids t) (a : String) : s.Reshaped ids (t.drop a) := by
  have hg : ∀ id, a ≠ id → (t.drop a).credentials.get id = t.credentials.get id := fun id ha =>
    (get_erase _ _ _).trans (if_neg ha)
  refine ⟨fun id old hold => ?_, fun id old hold hid => ?_⟩
  · by_cases ha : a = id
    · exact .inr (ha ▸ left_drop t a)
    · rw [hg id ha]
      exact (h.record id old hold).imp_right fun hleft => hleft.drop ha
  · by_cases ha : a = id
    · exact .inr ⟨(get_erase _ _ _).trans (if_pos ha), ha ▸ left_drop t a⟩
    · rw [hg id ha]
      exact (h.unwritten id old hold hid).imp_right fun ⟨hn, hleft⟩ => ⟨hn, hleft.drop ha⟩

theorem Reshaped.of_le (h : s.Reshaped ids t) (hcreds : u.credentials = t.credentials)
    (hleft : ∀ id, t.Left id → u.Left id) : s.Reshaped ids u := by
  refine ⟨fun id old hold => ?_, fun id old hold hid => ?_⟩
  · rw [hcreds]
    exact (h.record id old hold).imp_right (hleft id)
  · rw [hcreds]
    exact (h.unwritten id old hold hid).imp_right fun ⟨hn, h⟩ => ⟨hn, hleft id h⟩

theorem Reshaping.reshaped (h : Reshaping s ids t) : s.Reshaped ids t := by
  induction h with
  | start => exact ⟨fun _ old hold => .inl ⟨old, hold, by simp [exactIdentity]⟩, fun _ _ hold _ => .inl hold⟩
  | rewrote _ state purge fresh covered ih => exact ih.rewrote fresh covered
  | purged _ id ih => exact ih.of_le rfl fun _ hleft => hleft.purge id
  | dropped _ id ih => exact ih.dropped id
  | thinnedCooldowns _ p ih =>
    exact ih.of_le rfl fun _ hleft => hleft.of_le rfl (fun _ h => h) (fun _ _ h => h) fun _ _ h => (get_retain.1 h).1
  | thinnedAffinities _ p ih =>
    exact ih.of_le rfl fun _ hleft => hleft.of_le rfl (fun _ h => h) (fun _ _ h => (get_retain.1 h).1) fun _ _ h => h

theorem Reshaping.cooldowns (h : Reshaping s ids t)
    (hg : t.cooldowns.get key = some cooldown) : s.cooldowns.get key = some cooldown := by
  induction h with
  | start => exact hg
  | rewrote _ state purge _ _ ih => exact ih ((rewrite_cooldowns ..).1 hg).1
  | purged _ id ih | dropped _ id ih => exact ih (purge_cooldowns.1 hg).1
  | thinnedCooldowns _ p ih => exact ih (get_retain.1 hg).1
  | thinnedAffinities _ p ih => exact ih hg

/-! ### Bindings -/

/-- A cooldown of a binding of the credential is stored. -/
def Bound (s : Inner) (id : String) : Prop :=
  ∃ key cooldown, s.cooldowns.get key = some cooldown ∧ BindingNames (ofLex key) id

/-- The cooldowns of bindings have their credential. -/
def BindingsOwned (s : Inner) : Prop := ∀ id, s.Bound id → s.credentials.contains id

theorem evictCredentials_eq_self {limit : ℕ} (h : s.credentials.size ≤ limit) : s.evictCredentials limit = s := by
  unfold evictCredentials
  cases s.credentials.size with
  | zero => rfl
  | succ => rw [whileLoop, if_neg (by simpa using h)]

theorem size_rewrite (s : Inner) (state : CredentialState) (purge : Bool) :
    (s.rewrite state purge).credentials.size =
      if s.credentials.contains state.credentialId then s.credentials.size else s.credentials.size + 1 := by
  rw [rewrite, (putDisabled_credentials _ _).1]
  cases purge with
  | true | false => exact size_insert _ _ _

/-- Every record that a cooldown of a binding names has its identity still. -/
def Shelters (s t : Inner) : Prop := ∀ id old, s.Bound id → s.credentials.get id = some old →
  ∃ new, t.credentials.get id = some new ∧ exactIdentity old new = true

theorem shelters_of_not_bound (h : ∀ id, ¬s.Bound id) : s.Shelters t := fun id _ hid => absurd hid (h id)

theorem shelters_of_credentials (h : t.credentials = s.credentials) : s.Shelters t :=
  fun _ old _ hold => ⟨old, h ▸ hold, by simp [exactIdentity]⟩

theorem shelters_rewrite (s : Inner) (state : CredentialState) (purge : Bool)
    (h : ¬s.Bound state.credentialId ∨
      ∀ old, s.credentials.get state.credentialId = some old → exactIdentity old state = true) :
    s.Shelters (s.rewrite state purge) := by
  intro id old hbd hold
  rw [get_rewrite]
  by_cases hid : state.credentialId = id
  · subst hid
    exact ⟨_, if_pos rfl, (h.resolve_left fun hnot => hnot hbd) old hold⟩
  · exact ⟨old, by rw [if_neg hid, hold], by simp [exactIdentity]⟩

end Inner

/-- The call does not hit a credential that a stored cooldown of a binding names, and writes such a
cooldown for a stored credential only. -/
def Covered (retention : RetentionPolicy) (s : Inner) : Call → Prop
  | .upsertCooldown state => ∀ id, BindingNames (state.scope, state.key) id → s.credentials.contains id
  | .removeCredentialState id => ¬s.Bound id
  | .upsertCredentialState state => (∀ id, ¬s.Bound id) ∨
    s.credentials.size + (if s.credentials.contains state.credentialId then 0 else 1) ≤ retention.maxCredentials ∧
      (¬s.Bound state.credentialId ∨ ∀ old, s.credentials.get state.credentialId = some old →
        exactIdentity old (state.inheriting (some old)) = true)
  | .activateCredentialConfigurations activations => (∀ id, ¬s.Bound id) ∨
    s.credentials.size + activations.length ≤ retention.maxCredentials ∧
      ∀ activation ∈ activations, ¬s.Bound activation.desired.credentialId ∨
        ∀ old, s.credentials.get activation.desired.credentialId = some old →
          exactIdentity old activation.desired = true
  | .prune _ => (∀ id, ¬s.Bound id) ∨ s.credentials.size ≤ retention.maxCredentials
  | _ => True

variable {retention : RetentionPolicy} {s : Inner}

theorem upsertCredentialState_shelters
    (h : Covered retention s (.upsertCredentialState state)) : s.Shelters (upsertCredentialState retention state s).2 := by
  rcases h with h | ⟨hrm, hsame⟩
  · exact Inner.shelters_of_not_bound h
  · rcases upsertCredentialState_cases retention s state with heq | heq | heq
    · rw [heq]; exact Inner.shelters_of_credentials rfl
    · rw [heq]; exact Inner.shelters_of_credentials rfl
    · rw [heq, Inner.evictCredentials_eq_self]
      · refine Inner.shelters_rewrite s _ _ ?_
        rw [inheriting_credentialId]
        exact hsame.imp_right fun hsame old hold => hold ▸ hsame old hold
      · rw [Inner.size_rewrite, inheriting_credentialId]
        split_ifs at hrm ⊢ with hc
        · exact hrm
        · exact hrm

/-- A batch adds at most a record an activation, and keeps every record under its identity unless an
activation has another one for it. -/
def Inner.Activates (s : Inner) (activations : List CredentialConfigurationActivation) (t : Inner) : Prop :=
  t.credentials.size ≤ s.credentials.size + activations.length ∧
    ∀ id old, s.credentials.get id = some old → ∃ new, t.credentials.get id = some new ∧
      (exactIdentity old new = true ∨ ∃ activation ∈ activations, activation.desired.credentialId = id ∧
        exactIdentity old activation.desired = false)

theorem Inner.activates_self (s : Inner) (activations : List CredentialConfigurationActivation) :
    s.Activates activations s :=
  ⟨le_add_right _ _, fun _ old hold => ⟨old, hold, .inl (by simp [exactIdentity])⟩⟩

theorem Inner.Activates.trans {t u activation activations} (h : s.Activates [activation] t)
    (h' : t.Activates activations u) : s.Activates (activation :: activations) u := by
  obtain ⟨⟨hsize, hrec⟩, hsize', hrec'⟩ := h, h'
  refine ⟨by simp only [length_cons, length_nil] at *; omega, fun id old hold => ?_⟩
  obtain ⟨mid, hmid, hcase⟩ := hrec id old hold
  obtain ⟨new, hw, hcase'⟩ := hrec' id mid hmid
  refine ⟨new, hw, ?_⟩
  rcases hcase with hsame | ⟨_, hm, hoth⟩
  · refine hcase'.imp (exactIdentity_trans hsame) fun ⟨next, hnext, hid, hoth⟩ =>
      ⟨next, mem_cons_of_mem _ hnext, hid, ?_⟩
    simp only [exactIdentity, Bool.and_eq_true, decide_eq_true_eq] at hsame hoth ⊢
    rwa [hsame.1, hsame.2]
  · exact .inr ⟨activation, mem_cons_self, mem_singleton.1 hm ▸ hoth⟩

theorem activateOne_activates (activation : CredentialConfigurationActivation) (s : Inner) :
    s.Activates [activation] (activateOne activation s).2 := by
  rcases activateOne_cases s activation with heq | heq | ⟨hoth, enabled, heq⟩
  · rw [heq]; exact s.activates_self _
  · rw [heq]; exact s.activates_self _
  · rw [heq, Inner.Activates, Inner.size_rewrite]
    refine ⟨by split_ifs <;> simp, fun id old hold => ?_⟩
    rw [Inner.get_rewrite]
    by_cases hid : activation.desired.credentialId = id
    · exact ⟨_, if_pos hid, .inr ⟨activation, mem_singleton_self _, hid, hoth old (hid ▸ hold)⟩⟩
    · exact ⟨old, by rw [if_neg hid, hold], .inl (by simp [exactIdentity])⟩

theorem activateEach_activates (activations : List CredentialConfigurationActivation) (s : Inner) :
    s.Activates activations (activateEach activations s).2 := by
  induction activations generalizing s with
  | nil => exact s.activates_self _
  | cons activation activations ih =>
    have hone := activateOne_activates activation s
    rw [activateEach]
    cases hr : activateOne activation s with
    | mk result u =>
      rw [hr] at hone
      -- the rest of the batch starts from `u`, or does not start at all
      cases result with
      | error => exact hone.trans (u.activates_self _)
      | ok =>
        have hall := hone.trans (ih u)
        dsimp only
        cases hrs : activateEach activations u with
        | mk results =>
          rw [hrs] at hall
          cases results <;> exact hall

theorem activateCredentialConfigurations_shelters {activations}
    (h : Covered retention s (.activateCredentialConfigurations activations)) :
    s.Shelters (activateCredentialConfigurations retention activations s).2 := by
  rcases h with h | ⟨hrm, hsame⟩
  · exact Inner.shelters_of_not_bound h
  · obtain ⟨hsize, hrec⟩ := activateEach_activates activations s
    have hall : s.Shelters (activateEach activations s).2 := by
      intro id old hbd hold
      obtain ⟨new, hw, hcase⟩ := hrec id old hold
      refine ⟨new, hw, hcase.resolve_right ?_⟩
      rintro ⟨activation, hm, rfl, hoth⟩
      rcases hsame activation hm with hnot | hexact
      · exact hnot hbd
      · rw [hexact old hold] at hoth
        cases hoth
    rcases activateCredentialConfigurations_cases retention s activations with heq | ⟨-, heq | heq⟩
    · rw [heq]; exact Inner.shelters_of_credentials rfl
    · rw [heq]; exact hall
    · rw [heq, Inner.evictCredentials_eq_self (hsize.trans hrm)]
      exact hall

variable {call : Call}

theorem step_shelters (h : Covered retention s call) : s.Shelters (step retention s call) := by
  rcases step_cases retention s call with ⟨hresh, -⟩ | htog | hatt
  · cases call with
    | upsertCredentialState => exact upsertCredentialState_shelters h
    | activateCredentialConfigurations => exact activateCredentialConfigurations_shelters h
    | removeCredentialState id =>
      intro a old hbd hold
      refine ⟨old, ?_, by simp [exactIdentity]⟩
      rw [step, removeCredentialState]
      split
      · exact hold
      · have hne : id ≠ a := fun heq => h (heq ▸ hbd)
        exact (get_erase _ _ _).trans ((if_neg hne).trans hold)
    | prune now =>
      rcases h with h | h
      · exact Inner.shelters_of_not_bound h
      · have hkept : ((s.purgeExpiredCooldowns now).purgeExpired now).evictCredentials retention.maxCredentials =
          (s.purgeExpiredCooldowns now).purgeExpired now := Inner.evictCredentials_eq_self h
        refine Inner.shelters_of_credentials ?_
        rw [step, prune, (Inner.evictAffinities_credentials _ _).1, hkept]
        rfl
    | _ => cases hresh
  · exact fun id old _ hold => htog.record id old hold
  · exact Inner.shelters_of_credentials hatt.credentials

theorem step_cooldowns (h : (step retention s call).cooldowns.get key = some cooldown) :
    s.cooldowns.get key = some cooldown ∨ cooldownPut call = some key := by
  rcases step_cases retention s call with ⟨-, ids, hres⟩ | htog | hatt
  · exact .inl (hres.cooldowns h)
  · exact .inl (htog.cooldowns ▸ h)
  · exact hatt.cooldowns key cooldown h

theorem step_bindingsOwned (h : Covered retention s call) (hs : s.BindingsOwned) :
    (step retention s call).BindingsOwned := by
  rintro id ⟨key, cooldown, hg, hnms⟩
  rcases step_cooldowns hg with hbef | hput
  · have hbd : s.Bound id := ⟨key, cooldown, hbef, hnms⟩
    obtain ⟨old, hold⟩ := contains_iff.1 (hs id hbd)
    obtain ⟨new, hw, -⟩ := step_shelters h id old hbd hold
    exact contains_iff.2 ⟨new, hw⟩
  · cases call with
    | upsertCooldown state =>
      cases hput
      rw [step, (upsertCooldown_attached s state).credentials]
      exact h id hnms
    | _ => cases hput

/-- Every health entry, affinity and cooldown that names a credential belongs to a stored one. -/
structure Inner.NoOrphans (s : Inner) : Prop where
  health : ∀ id health, s.health.get id = some health → s.credentials.contains id
  affinities : ∀ key affinity, s.affinities.get key = some affinity → s.credentials.contains affinity.credentialId
  cooldowns : ∀ key cooldown id, s.cooldowns.get key = some cooldown → Names (ofLex key) id → s.credentials.contains id

/-- Of a credential that has been removed or identified anew nothing is left of before: a disabled
one has the health of its own writing, and no affinity or cooldown names it. -/
def Inner.LeavesNothing (s t : Inner) : Prop :=
  ∀ id old, s.credentials.get id = some old →
    (∀ new, t.credentials.get id = some new → exactIdentity old new = false) →
    (∀ health, t.health.get id = some health →
      ∃ new, t.credentials.get id = some new ∧ new.enabled = false ∧ health = .new id .disabled new.updatedAt) ∧
    (∀ key affinity, t.affinities.get key = some affinity → affinity.credentialId ≠ id) ∧
    ∀ key cooldown, t.cooldowns.get key = some cooldown → ¬Names (ofLex key) id

theorem step_leavesNothing (h : Covered retention s call) : s.LeavesNothing (step retention s call) := by
  intro id old hold hchg
  have hnot : ∀ {new}, (step retention s call).credentials.get id = some new → exactIdentity old new = true → False := by
    intro new hw hsame
    rw [hchg new hw] at hsame
    cases hsame
  rcases step_cases retention s call with ⟨-, ids, hres⟩ | htog | hatt
  · rcases hres.reshaped.record id old hold with ⟨new, hw, hsame⟩ | hleft
    · exact (hnot hw hsame).elim
    · refine ⟨hleft.health, hleft.affinities, fun key cooldown hg hnms => ?_⟩
      rcases cooldownCredentialId_of_names hnms with hid | hbind
      · exact hleft.cooldowns key cooldown hg hid
      · obtain ⟨new, hw, hsame⟩ := step_shelters h id old
          ⟨key, cooldown, hres.cooldowns hg, hbind⟩ hold
        exact hnot hw hsame
  · obtain ⟨new, hw, hsame⟩ := htog.record id old hold
    exact (hnot hw hsame).elim
  · exact (hnot (hatt.credentials ▸ hold) (by simp [exactIdentity])).elim

theorem noOrphans_of_owned (h : s.Owned) (hbin : s.BindingsOwned) : s.NoOrphans := by
  refine ⟨h.health, h.affinities, fun key cooldown id hg hnms => ?_⟩
  rcases cooldownCredentialId_of_names hnms with hid | hbind
  · exact h.cooldowns key cooldown id hg hid
  · exact hbin id ⟨key, cooldown, hg, hbind⟩

/-- In every run whose calls do not hit a credential that a stored cooldown of a binding names, no
state outlives its credential. -/
theorem no_state_outlives_its_credential (retention : RetentionPolicy) (calls : List Call)
    (hcalls : StepsMeet (step retention) (Covered retention) {} calls) :
    (run (step retention) {} calls).NoOrphans ∧
      ∀ call, Covered retention (run (step retention) {} calls) call →
        (run (step retention) {} calls).LeavesNothing (step retention (run (step retention) {} calls) call) := by
  have hinv : (run (step retention) {} calls).Owned ∧ (run (step retention) {} calls).BindingsOwned := by
    refine @run_of_stepsMeet _ _ _ (Covered retention) (fun s => s.Owned ∧ s.BindingsOwned) ?_ calls {} hcalls ?_
    · intro s call hcov ⟨hown, hbin⟩
      exact ⟨Inner.Moves.keep Inner.Owned (fun hmove => Inner.Owned.move hmove) (step_moves retention s call) hown,
        step_bindingsOwned hcov hbin⟩
    · exact ⟨⟨nofun, nofun, nofun⟩, fun id ⟨key, cooldown, hg, _⟩ => by cases hg⟩
  exact ⟨noOrphans_of_owned hinv.1 hinv.2, fun call hcall => step_leavesNothing hcall⟩

section Samples

def roomForTwo : RetentionPolicy := ⟨2, 2, Nat.two_pos, Nat.two_pos⟩

def account : CredentialState := ⟨"a", "p", "", true, 1, 0⟩

def coolingAccount : CooldownState := ⟨"credential", "a", 10, none, 1⟩

def accountBinding : BindingKey := ⟨⟨"t", by decide⟩, ⟨"a", by decide⟩, "f"⟩

/-- A cooldown as the pool writes it for the binding. -/
def coolingBinding : CooldownState :=
  ⟨(cooldownKey (.binding accountBinding)).1, (cooldownKey (.binding accountBinding)).2, 10, none, 1⟩

theorem not_bindingNames_credential (text id : String) : ¬BindingNames ("credential", text) id := by
  rintro ⟨scope, binding, hkey, hbind, -⟩
  cases scope with
  | binding | bindingModel => exact absurd (congrArg Prod.fst hkey) (by simp [cooldownKey])
  | credential | credentialModel | model | provider | providerModel | route => cases hbind

theorem cooled_account_leaves_nothing :
    (run (step roomForTwo) {} [.upsertCredentialState account, .upsertCooldown coolingAccount]).cooldowns.entries =
      [(toLex ("credential", "a"), coolingAccount)] ∧
    (run (step roomForTwo) {}
      [.upsertCredentialState account, .upsertCooldown coolingAccount, .removeCredentialState "a"]).NoOrphans := by
  have hents : (run (step roomForTwo) {}
      [.upsertCredentialState account, .upsertCooldown coolingAccount]).cooldowns.entries =
        [(toLex ("credential", "a"), coolingAccount)] := by
    decide +kernel
  refine ⟨hents, (no_state_outlives_its_credential roomForTwo
    [.upsertCredentialState account, .upsertCooldown coolingAccount, .removeCredentialState "a"]
    ⟨.inl ?_, ?_, ?_, trivial⟩).1⟩
  · rintro id ⟨key, cooldown, hg, -⟩
    cases hg
  · intro id hnms
    exact absurd hnms (not_bindingNames_credential "a" id)
  · rintro ⟨key, cooldown, hg, hnms⟩
    have hm : (key, cooldown) ∈ (run (step roomForTwo) {}
      [.upsertCredentialState account, .upsertCooldown coolingAccount]).cooldowns.entries := Assoc.mem_of_get hg
    rw [hents, mem_singleton] at hm
    cases hm
    exact not_bindingNames_credential "a" "a" hnms

/-- The cooldown of a binding stays when its account is removed. -/
theorem binding_cooldown_outlives_account :
    ¬(run (step roomForTwo) {}
      [.upsertCredentialState account, .upsertCooldown coolingBinding, .removeCredentialState "a"]).NoOrphans := by
  intro h
  have hkept : (run (step roomForTwo) {}
      [.upsertCredentialState account, .upsertCooldown coolingBinding, .removeCredentialState "a"]).cooldowns.get
        (toLex (cooldownKey (.binding accountBinding))) = some coolingBinding := by
    decide +kernel
  have hgone : (run (step roomForTwo) {}
      [.upsertCredentialState account, .upsertCooldown coolingBinding, .removeCredentialState "a"]).credentials.contains
        "a" = false := by
    decide +kernel
  have hstd := h.cooldowns _ _ "a" hkept ⟨.binding accountBinding, _, rfl, rfl, rfl⟩
  rw [hgone] at hstd
  cases hstd

end Samples

end MemoryStore

end Pooler
