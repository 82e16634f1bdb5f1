import Pooler.Proofs.QuotaRecovery
import Pooler.Proofs.QuotaUpdate

/-! Runs of quota updates and selections. A binding has one window for a unit, whatever its scope, and
a window that is dropped after its reset leaves nothing to weigh a later report against. -/

namespace Pooler

open Lib List Option

/-- A call that updates quotas, or selects. -/
inductive QuotaCall where
  | setQuotaSnapshot (credential : CredentialId) (snapshot : QuotaSnapshot)
  | setBindingQuotaSnapshot (binding : BindingKey) (snapshot : QuotaSnapshot)
  | restoreQuotaState (subject : QuotaSubject) (snapshot : QuotaSnapshot)
  | recoverQuotas (now : ℕ)
  | select (health : HealthRegistry) (request : SelectionRequest)

def RegistryState.call (s : RegistryState) : QuotaCall → RegistryState
  | .setQuotaSnapshot credential snapshot => (s.setQuotaSnapshot credential snapshot).2
  | .setBindingQuotaSnapshot binding snapshot => (s.setBindingQuotaSnapshot binding snapshot).2
  | .restoreQuotaState subject snapshot => s.restoreQuotaState subject snapshot
  | .recoverQuotas now => s.recoverQuotas now
  | .select health request => (selectFromState s health request).2

def RegistryState.window (s : RegistryState) (b : BindingKey) (unit : QuotaUnit) : Option QuotaSnapshot :=
  s.bindingQuotas[(b, unit)]?

/-- The snapshot that a call reports for a binding, where its scope keeps it with the binding. -/
def QuotaCall.reports (b : BindingKey) : QuotaCall → Option QuotaSnapshot
  | .setQuotaSnapshot credential w => if b.accountId = credential && w.scope.ofBinding then some w else none
  | .setBindingQuotaSnapshot binding w => if b = binding && w.scope.ofBinding then some w else none
  | _ => none

/-- The instant at which a call drops the windows that have expired. -/
def QuotaCall.cleansAt : QuotaCall → Option ℕ
  | .recoverQuotas now => some now
  | .select _ request => some request.now
  | _ => none

/-! ### One call -/

section Moves

variable (b : BindingKey) (unit : QuotaUnit)

/-- A window goes from one state to another under a call: a report is weighed against it, or it is
dropped after its reset. -/
inductive WindowMove (call : QuotaCall) : Option QuotaSnapshot → Option QuotaSnapshot → Prop
  | same (old : Option QuotaSnapshot) : WindowMove call old old
  | report {w} (old : Option QuotaSnapshot) (hw : call.reports b = some w) (hunit : w.unit = unit) :
    WindowMove call old (survivor old w)
  | cleaned {w now} (hclean : call.cleansAt = some now) (hw : w.expiredAt now = true) :
    WindowMove call (some w) none

variable {b unit} {call : QuotaCall}

theorem WindowMove.of_dropsOnly {now : ℕ} (hcln : call.cleansAt = some now)
    {t t' : Table (BindingKey × QuotaUnit) QuotaSnapshot} (h : DropsOnly (·.expiredAt now) t t') :
    WindowMove b unit call t[(b, unit)]? t'[(b, unit)]? := by
  cases hnew : t'[(b, unit)]? with
  | some => rw [h.1 _ _ hnew]; exact .same _
  | none =>
    cases hold : t[(b, unit)]? with
    | none => exact .same _
    | some w =>
      refine .cleaned hcln (Bool.eq_true_of_not_eq_false fun hl => ?_)
      rw [h.2 _ w hold hl] at hnew
      cases hnew

theorem survivor_survivor (old : Option QuotaSnapshot) (w : QuotaSnapshot) :
    survivor (survivor old w) w = survivor old w := by
  by_cases h : old.all w.replaces
  · rw [survivor, survivor, if_pos h, ite_self]
  · rw [survivor, survivor, if_neg h, if_neg h]

/-- The loop over the bindings of the account files the snapshot as often as it meets the binding. -/
theorem setQuotaOn_window {w} (es : List RegistryEntry) : ∀ changed s,
    (RegistryState.setQuotaOn w es changed s).2.window b unit = s.window b unit ∨
    ((∃ e ∈ es, e.registration.binding = b) ∧ w.scope.ofBinding = true ∧ w.unit = unit ∧
      (RegistryState.setQuotaOn w es changed s).2.window b unit = survivor (s.window b unit) w) := by
  induction es with
  | nil => intro changed s; exact .inl rfl
  | cons e es ih =>
    intro changed s
    have hm : (∃ e' ∈ es, e'.registration.binding = b) → ∃ e' ∈ e :: es, e'.registration.binding = b :=
      fun h => h.imp fun _ he => ⟨mem_cons_of_mem _ he.1, he.2⟩
    rw [RegistryState.setQuotaOn]
    rcases insertQuotaForBinding_cases s e.registration.binding e.registration w with
      ⟨hscp, hins⟩ | ⟨-, ⟨err, -, hins⟩ | ⟨subject, -, hins⟩⟩ <;> rw [hins]
    · have hr := ih (changed || (insertWindow s.bindingQuotas e.registration.binding w).1)
        { s with bindingQuotas := (insertWindow s.bindingQuotas e.registration.binding w).2 }
      rw [RegistryState.window, RegistryState.window, get_insertWindow] at hr
      split_ifs at hr with hk
      · obtain ⟨rfl, rfl⟩ := Prod.mk.inj hk
        rw [survivor_survivor] at hr
        exact .inr ⟨⟨e, mem_cons_self, rfl⟩, hscp, rfl, hr.elim id fun h => h.2.2.2⟩
      · exact hr.imp_right fun h => ⟨hm h.1, h.2⟩
    · exact .inl rfl
    · exact (ih _ _).imp_right fun h => ⟨hm h.1, h.2⟩

theorem call_window (s : RegistryState) (call : QuotaCall) :
    WindowMove b unit call (s.window b unit) ((s.call call).window b unit) := by
  cases call with
  | setQuotaSnapshot credential w =>
    rw [RegistryState.call, RegistryState.setQuotaSnapshot]
    rcases @setQuotaOn_window b unit w (s.entries.values.filter (fun e => e.registration.credential = credential))
      false s with h | ⟨⟨e, he, hb⟩, hscp, hunit, h⟩ <;> rw [h]
    · exact .same _
    · refine .report _ ?_ hunit
      rw [QuotaCall.reports, if_pos]
      rw [hscp, Bool.and_true, ← hb]
      exact (mem_filter.1 he).2
  | setBindingQuotaSnapshot binding w =>
    rw [RegistryState.call, RegistryState.setBindingQuotaSnapshot]
    split
    · exact .same _
    next e he =>
      rcases insertQuotaForBinding_cases s binding e.registration w with
        ⟨hscp, hins⟩ | ⟨-, ⟨err, -, hins⟩ | ⟨subject, -, hins⟩⟩ <;> rw [hins]
      · rw [RegistryState.window, RegistryState.window, get_insertWindow]
        split_ifs with hk
        · obtain ⟨rfl, hunit⟩ := Prod.mk.inj hk
          exact .report _ (by simp [QuotaCall.reports, hscp]) hunit
        · exact .same _
      · exact .same _
      · exact .same _
  | restoreQuotaState =>
    rw [RegistryState.call, RegistryState.restoreQuotaState]
    split <;> exact .same _
  | recoverQuotas => exact .of_dropsOnly rfl (dropsOnly_filter _ _)
  | select => exact .of_dropsOnly rfl (select_keepsWindows rfl).bindingQuotas

end Moves

/-! ### Stale reports -/

section Stale

variable (b : BindingKey) (unit : QuotaUnit) (observed : ℕ)

/-- A report that is older than the observation finds a window to be weighed against. -/
def meetsWindow (s : RegistryState) (call : QuotaCall) : Bool :=
  (call.reports b).all (fun w => w.unit ≠ unit || observed ≤ w.observedAt || (s.window b unit).isSome)

variable {b unit observed}

theorem not_stale_call {s call} (hmeet : meetsWindow b unit observed s call = true)
    (h : ∀ w, s.window b unit = some w → observed ≤ w.observedAt) :
    ∀ w, (s.call call).window b unit = some w → observed ≤ w.observedAt := by
  intro w' hw'
  have hmove := @call_window b unit s call
  rw [hw'] at hmove
  generalize hold : s.window b unit = old at hmove
  generalize hnew : some w' = new at hmove
  cases hmove with
  | same => exact h w' (hold.trans hnew.symm)
  | cleaned => cases hnew
  | @report w _ hw hunit =>
    rw [survivor] at hnew
    split_ifs at hnew with hall
    · cases hnew
      rw [meetsWindow, hw, all_some] at hmeet
      cases old with
      | none => simpa [hunit, hold] using hmeet
      | some v => exact (h v hold).trans (observedAt_le_of_replaces hall)
    · exact h w' (hold.trans hnew.symm)

/-- An account with one binding and an exhausted window, observed at 10 and reset at 20. -/
def exhaustedBinding : RegistryState :=
  (RegistryState.register {} sampleRegistration).call (.setBindingQuotaSnapshot sampleBinding fullReport)

def lateReport : QuotaCall :=
  .setBindingQuotaSnapshot sampleBinding { fullReport with observedAt := 5, resetAt := none }

end Stale

/-! ### Scopes -/

section Scopes

variable (b : BindingKey) (w : QuotaSnapshot)

/-- The call drops the window after its reset, or puts a report of its own scope in its place. -/
def QuotaCall.ends (call : QuotaCall) : Bool :=
  call.cleansAt.any w.expiredAt || (call.reports b).any (fun v => v.unit = w.unit && v.scope = w.scope && v.replaces w)

/-- The call reports another scope of the unit, and its report takes the place of the window. -/
def QuotaCall.crosses (call : QuotaCall) : Bool :=
  (call.reports b).any (fun v => v.unit = w.unit && v.scope ≠ w.scope && v.replaces w)

variable {b w}

theorem call_keeps_window {s : RegistryState} {call} (hcall : call.ends b w = false ∧ call.crosses b w = false)
    (h : s.window b w.unit = some w) : (s.call call).window b w.unit = some w := by
  obtain ⟨hends, hcros⟩ := hcall
  rw [QuotaCall.ends, Bool.or_eq_false_iff] at hends
  have hmove := @call_window b w.unit s call
  rw [h] at hmove
  generalize (s.call call).window b w.unit = new at hmove ⊢
  cases hmove with
  | same => rfl
  | cleaned hcln hw => rw [hcln, any_some, hw] at hends; cases hends.1
  | @report v _ hv hunit =>
    rw [survivor, all_some, if_neg]
    intro hrep
    rw [QuotaCall.crosses, hv] at hcros
    rw [hv] at hends
    by_cases hscp : v.scope = w.scope <;> simp [hunit, hrep, hscp] at hends hcros

/-- A report of what the account has left for the model. -/
def modelReport (observedAt : ℕ) : QuotaCall :=
  .setBindingQuotaSnapshot sampleBinding { freeReport with scope := .credentialModel, observedAt }

end Scopes

end Pooler
