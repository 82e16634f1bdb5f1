import Pooler.Lib.Pick
import Pooler.Spec.Policy.Retry
import Pooler.Spec.Policy.Slots

/-! The credential registry: its state and every operation on it apart from selection. -/

namespace Pooler

open Lib List

inductive SelectionError where
  | zeroAffinityTtl
  | modelAliasCycle
  | missingQuotaProject
  | quotaNotExhausted
  | foreignLease
  | staleLease
  | staleQuotaObservation
  | noEligible (model : ModelId) (explanation : SelectionExplanation)
  deriving DecidableEq

structure AffinityBinding where
  binding : BindingKey
  provider : ProviderId
  model : ModelId
  (lastUsedAt expiresAt : ℕ)
  deriving DecidableEq

def AffinityBinding.expiredAt (a : AffinityBinding) (now : ℕ) : Bool := now ≥ a.expiresAt

/-- The scope of the smooth weights: a resolved model and an optional pool. -/
structure PoolScope where
  model : ModelId
  pool : Option String
  deriving DecidableEq

instance : StringKeyed PoolScope where
  key s := s.model.asStr :: s.pool.toList
  key_injective a b h := by
    obtain ⟨h1, h2⟩ := cons.inj h
    obtain ⟨ma, pa⟩ := a
    obtain ⟨mb, pb⟩ := b
    cases Ident.ext h1
    cases pa <;> cases pb <;> simp_all

/-- The scope of a round-robin cursor: also the set of bindings it rotates over, in order. -/
structure CursorScope where
  scope : PoolScope
  bindings : List BindingKey
  deriving DecidableEq

def CursorScope.sortKey (c : CursorScope) : List String :=
  c.scope.model.asStr :: (match c.scope.pool with
    | none => "none" :: c.bindings.flatMap StringKeyed.key
    | some pool => "some" :: pool :: c.bindings.flatMap StringKeyed.key)

theorem flatMap_key_injective : Function.Injective (fun bs : List BindingKey => bs.flatMap StringKeyed.key) := by
  intro as
  induction as with
  | nil =>
    intro bs h
    cases bs with
    | nil => rfl
    | cons b bs => simp [StringKeyed.key] at h
  | cons a as ih =>
    intro bs h
    cases bs with
    | nil => simp [StringKeyed.key] at h
    | cons b bs =>
      simp only [flatMap_cons] at h
      obtain ⟨h1, h2⟩ := append_inj h rfl
      rw [StringKeyed.key_injective h1, ih h2]

instance : StringKeyed CursorScope where
  key := CursorScope.sortKey
  key_injective := by
    rintro ⟨⟨ma, pa⟩, as⟩ ⟨⟨mb, pb⟩, bs⟩ h
    obtain ⟨h1, h2⟩ := cons.inj h
    cases Ident.ext h1
    cases pa <;> cases pb <;> simp only [cons.injEq] at h2
    · rw [flatMap_key_injective h2.2]
    · exact absurd h2.1 (by decide)
    · exact absurd h2.1 (by decide)
    · rw [h2.2.1, flatMap_key_injective h2.2.2]

def maxAffinityBindings : ℕ := 4096

structure RegistryState where
  entries : Slots := .empty
  aliases : Table ModelId ModelId := ∅
  nextOrder : ℕ := 0
  roundRobin : Table CursorScope ℕ := ∅
  smoothCurrent : Table PoolScope (Table BindingKey ℤ) := ∅
  affinity : Table AffinityKey AffinityBinding := ∅
  quotas : Table (QuotaSubject × QuotaUnit) QuotaSnapshot := ∅
  bindingQuotas : Table (BindingKey × QuotaUnit) QuotaSnapshot := ∅

/-- One registry: its selection state and its health, each behind a lock of its own. -/
structure RegistryInner where
  state : RegistryState := {}
  health : HealthRegistry := {}

def subjectMatches (subject : QuotaSubject) (r : CredentialRegistration) : Bool :=
  match subject with
  | .credential credential => credential = r.credential
  | .credentialModel credential model => credential = r.credential && model = r.model
  | .project provider project => provider = r.provider && r.quotaProject = some project
  | .projectModel provider project model => provider = r.provider && r.quotaProject = some project && model = r.model
  | .provider provider => provider = r.provider
  | .providerModel provider model => provider = r.provider && model = r.model

def quotaSubject (r : CredentialRegistration) : QuotaScope → Except SelectionError QuotaSubject
  | .credential => .ok (.credential r.credential)
  | .credentialModel => .ok (.credentialModel r.credential r.model)
  | .project =>
    match r.quotaProject with
    | some project => .ok (.project r.provider project)
    | none => .error .missingQuotaProject
  | .projectModel =>
    match r.quotaProject with
    | some project => .ok (.projectModel r.provider project r.model)
    | none => .error .missingQuotaProject
  | .provider => .ok (.provider r.provider)
  | .providerModel => .ok (.providerModel r.provider r.model)

def quotaStatePriority (s : QuotaSnapshot) : ℕ :=
  if s.state = .exhausted ∨ s.remaining = some 0 then 2
  else if s.state = .unknown then 1
  else 0

def laterDeadline : Option ℕ → Option ℕ → Ordering
  | none, none => .eq
  | none, some _ => .gt
  | some _, none => .lt
  | some left, some right => compare left right

def lowerValue : Option ℕ → Option ℕ → Ordering
  | none, none => .eq
  | none, some _ => .lt
  | some _, none => .gt
  | some left, some right => compare right left

def quotaPrecedence (left right : QuotaSnapshot) : Ordering :=
  (compare (quotaStatePriority left) (quotaStatePriority right)).then <|
    (laterDeadline left.resetAt right.resetAt).then <|
    (lowerValue left.remaining right.remaining).then (lowerValue left.limit right.limit)

/-- A newer observation replaces an older one, and of two at one instant the more restrictive. -/
def QuotaSnapshot.replaces (new current : QuotaSnapshot) : Bool :=
  new.observedAt > current.observedAt || (new.observedAt = current.observedAt && quotaPrecedence new current = .gt)

/-- Files a window under its owner and unit, and says whether it was taken. -/
def insertWindow {α : Type} [StringKeyed α] (t : Table (α × QuotaUnit) QuotaSnapshot) (owner : α)
    (snapshot : QuotaSnapshot) : Bool × Table (α × QuotaUnit) QuotaSnapshot :=
  match t[(owner, snapshot.unit)]? with
  | none => (true, t.insert (owner, snapshot.unit) snapshot)
  | some current => if snapshot.replaces current then (true, t.insert (owner, snapshot.unit) snapshot) else (false, t)

namespace RegistryState

variable (s : RegistryState) (binding : BindingKey)

def insertBindingQuota (snapshot : QuotaSnapshot) :
    Bool × RegistryState :=
  let (taken, bindingQuotas) := insertWindow s.bindingQuotas binding snapshot
  (taken, { s with bindingQuotas })

def insertQuotaSubject (subject : QuotaSubject) (snapshot : QuotaSnapshot) :
    Bool × RegistryState :=
  let (taken, quotas) := insertWindow s.quotas subject snapshot
  (taken, { s with quotas })

def insertQuotaForBinding (r : CredentialRegistration)
    (snapshot : QuotaSnapshot) : Except SelectionError Bool × RegistryState :=
  match snapshot.scope with
  | .credential | .credentialModel =>
    let (taken, s) := s.insertBindingQuota binding snapshot
    (.ok taken, s)
  | .project | .projectModel | .provider | .providerModel =>
    match quotaSubject r snapshot.scope with
    | .error e => (.error e, s)
    | .ok subject =>
      let (taken, s) := s.insertQuotaSubject subject snapshot
      (.ok taken, s)

def pruneOrphanQuotas : RegistryState :=
  { s with
    quotas := s.quotas.filter (fun w _ => s.entries.values.any (fun e => subjectMatches w.1 e.registration))
    bindingQuotas := s.bindingQuotas.filter (fun w _ => w.1 ∈ s.entries.bindings) }

def recoverQuotas (now : ℕ) : RegistryState :=
  { s with quotas := s.quotas.filter (fun _ snapshot => !snapshot.expiredAt now)
           bindingQuotas := s.bindingQuotas.filter (fun _ snapshot => !snapshot.expiredAt now) }

def purgeExpiredAffinity (now : ℕ) : RegistryState :=
  { s with affinity := s.affinity.filter (fun _ a => !a.expiredAt now) }

/-- The affinity entry that makes room: the least recently used, ties by key. -/
def oldestAffinity : Option AffinityKey :=
  (minBy (fun a b => (compare a.2.lastUsedAt b.2.lastUsedAt).then (StringKeyed.cmp a.1 b.1))
    s.affinity.toList).map Prod.fst

variable (key : AffinityKey)

def insertBoundedAffinity (a : AffinityBinding) : RegistryState :=
  if s.affinity[key]? = none ∧ s.affinity.size ≥ maxAffinityBindings then
    match s.oldestAffinity with
    | some oldest => { s with affinity := (s.affinity.erase oldest).insert key a }
    | none => { s with affinity := s.affinity.insert key a }
  else { s with affinity := s.affinity.insert key a }

/-- The alias chain from `current`. A model met twice ends it without a result. -/
def resolveAliasFrom (aliases : Table ModelId ModelId) : ℕ → List ModelId → ModelId → Option ModelId
  | 0, _, _ => none
  | fuel + 1, seen, current =>
    if current ∈ seen then none
    else match aliases[current]? with
      | none => some current
      | some next => resolveAliasFrom aliases fuel (current :: seen) next

/-- `resolve_alias`. The loop visits each aliased model at most once. -/
def resolveAlias (aliases : Table ModelId ModelId) (model : ModelId) : Option ModelId :=
  resolveAliasFrom aliases (aliases.size + 1) [] model

/-- A fresh binding takes the next order. A known one keeps its order, flag and counter. -/
def register (r : CredentialRegistration) : RegistryState :=
  match s.entries.get r.binding with
  | some entry => { s with entries := s.entries.put { entry with registration := r } }.pruneOrphanQuotas
  | none =>
    { s with entries := s.entries.put ⟨r, true, 0, s.nextOrder⟩
             nextOrder := satAdd u64Max s.nextOrder 1 }.pruneOrphanQuotas

/-- Drops the bindings with everything that names them. -/
def removeBindings (bs : List BindingKey) : RegistryState :=
  { s with
    entries := s.entries.remove bs
    bindingQuotas := s.bindingQuotas.filter (fun w _ => w.1 ∉ bs)
    affinity := s.affinity.filter (fun _ a => a.binding ∉ bs)
    smoothCurrent := s.smoothCurrent.map (fun _ (current : Table BindingKey ℤ) => current.filter (fun b _ => b ∉ bs))
    roundRobin := s.roundRobin.filter (fun c _ => c.bindings.all (· ∉ bs)) }.pruneOrphanQuotas

/-- An alias that closes a cycle is taken back; the one it replaced is put in again. -/
def registerModelAlias (model resolved : ModelId) :
    Except SelectionError Unit × RegistryState :=
  let aliases := s.aliases.insert model resolved
  match resolveAlias aliases model, s.aliases[model]? with
  | some _, _ => (.ok (), { s with aliases })
  | none, some previous => (.error .modelAliasCycle, { s with aliases := aliases.insert model previous })
  | none, none => (.error .modelAliasCycle, { s with aliases := aliases.erase model })

variable (credential : CredentialId)

def setEnabled (enabled : Bool) : RegistryState :=
  { s with entries := s.entries.update (fun e => e.registration.credential = credential) (fun e => { e with enabled }) }

def setBindingEnabled (enabled : Bool) : RegistryState :=
  { s with entries := s.entries.update (fun e => e.registration.binding = binding) (fun e => { e with enabled }) }

/-- Applies a snapshot to each entry in turn. A missing project stops the loop. -/
def setQuotaOn (snapshot : QuotaSnapshot) : List RegistryEntry → Bool → RegistryState →
    Except SelectionError Bool × RegistryState
  | [], changed, s => (.ok changed, s)
  | e :: es, changed, s =>
    match s.insertQuotaForBinding e.registration.binding e.registration snapshot with
    | (.error err, s) => (.error err, s)
    | (.ok taken, s) => setQuotaOn snapshot es (changed || taken) s

def setQuotaSnapshot (snapshot : QuotaSnapshot) :
    Except SelectionError Bool × RegistryState :=
  setQuotaOn snapshot (s.entries.values.filter (fun e => e.registration.credential = credential)) false s

def setBindingQuotaSnapshot (snapshot : QuotaSnapshot) :
    Except SelectionError Bool × RegistryState :=
  match s.entries.get binding with
  | none => (.ok false, s)
  | some entry => s.insertQuotaForBinding binding entry.registration snapshot

/-- `restore_quota_state`, after the record has been decoded to its subject and snapshot. -/
def restoreQuotaState (subject : QuotaSubject) (snapshot : QuotaSnapshot) :
    RegistryState :=
  if s.entries.values.any (fun e => subjectMatches subject e.registration) then
    (s.insertQuotaSubject subject snapshot).2
  else s

/-- `restore_affinity_binding`: an unregistered binding restores nothing. -/
def restoreAffinityBinding (a : AffinityBinding) (now : ℕ) :
    RegistryState :=
  match s.entries.get a.binding with
  | none => s
  | some _ => (s.purgeExpiredAffinity now).insertBoundedAffinity key a

/-- `restore_affinity`: the first binding of the account stands in for the account. -/
def restoreAffinity (provider : ProviderId) (model : ModelId) (lastUsedAt expiresAt now : ℕ) : RegistryState :=
  match s.entries.values.find? (fun e => e.registration.credential = credential) with
  | none => s
  | some e =>
    (s.purgeExpiredAffinity now).insertBoundedAffinity key
      ⟨e.registration.binding, provider, model, lastUsedAt, expiresAt⟩

/-- `release_from`: the slot is given back only under the order it was granted in. -/
def releaseSlot (order : ℕ) : RegistryState :=
  { s with entries := s.entries.update
             (fun e => e.registration.binding = binding && e.order = order)
             (fun e => { e with inFlight := e.inFlight - 1 }) }

/-- A granted slot counts one more lease. -/
def grantSlot : RegistryState :=
  { s with entries := s.entries.update (fun e => e.registration.binding = binding)
             (fun e => { e with inFlight := satAdd u32Max e.inFlight 1 }) }

end RegistryState

namespace RegistryInner

variable (i : RegistryInner)

def register (r : CredentialRegistration) : RegistryInner := { i with state := i.state.register r }

/-- The bindings go from the state first and from the health after it. -/
def removeBindings (bs : List BindingKey) : RegistryInner :=
  { state := i.state.removeBindings bs, health := bs.foldl HealthRegistry.removeBinding i.health }

variable (credential : CredentialId)

def unregister : RegistryInner :=
  match i.state.entries.bindings.filter (fun b => b.accountId = credential) with
  | [] => i
  | b :: bs => i.removeBindings (b :: bs)

variable (binding : BindingKey)

def unregisterBinding : RegistryInner :=
  match i.state.entries.get binding with
  | none => i
  | some _ => i.removeBindings [binding]

def disable : RegistryInner :=
  { state := i.state.setEnabled credential false, health := i.health.disableCredential credential }

def enable : RegistryInner :=
  { state := i.state.setEnabled credential true, health := i.health.enableCredential credential }

def disableBinding : RegistryInner :=
  { state := i.state.setBindingEnabled binding false, health := i.health.disableBinding binding }

def enableBinding : RegistryInner :=
  { state := i.state.setBindingEnabled binding true, health := i.health.enableBinding binding }

/-- One change of a batch: the flag of the slots and the explicit health status together. -/
def setCredentialEnabled (change : CredentialId × Bool) : RegistryInner :=
  if change.2 then i.enable change.1 else i.disable change.1

def setCredentialsEnabled (changes : List (CredentialId × Bool)) : RegistryInner := changes.foldl setCredentialEnabled i

end RegistryInner

end Pooler
