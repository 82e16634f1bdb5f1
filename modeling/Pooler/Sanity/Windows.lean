import Pooler.Spec.Policy.Registry

/-! Quota windows: which of two observations stays on file, and where an observation is filed. -/

namespace Pooler

open Lib Bool OrderDual

/-! ### The order of replacement -/

/-- A missing value stands above every other. -/
def orTop : Option ℕ → WithTop ℕ
  | none => ⊤
  | some value => value

theorem laterDeadline_eq (a b : Option ℕ) : laterDeadline a b = compare (orTop a) (orTop b) := by
  cases a with
  | none =>
    cases b with
    | none => exact (compare_eq_iff_eq.2 rfl).symm
    | some b => exact (compare_gt_iff_gt.2 (WithTop.coe_lt_top b)).symm
  | some a =>
    cases b with
    | none => exact (compare_lt_iff_lt.2 (WithTop.coe_lt_top a)).symm
    | some b =>
      rw [laterDeadline, ← cmp_eq_compare, ← cmp_eq_compare]
      exact (WithTop.coe_strictMono.cmp_map_eq a b).symm

theorem lowerValue_eq (a b : Option ℕ) : lowerValue a b = compare (orTop b) (orTop a) := by
  rw [← laterDeadline_eq]
  cases a <;> cases b <;> rfl

abbrev QuotaRank := ℕ ×ₗ ℕ ×ₗ WithTop ℕ ×ₗ (WithTop ℕ)ᵒᵈ ×ₗ (WithTop ℕ)ᵒᵈ

/-- The place of a window in the order of replacement: when it was observed, then how restrictive it is. -/
def QuotaSnapshot.rank (w : QuotaSnapshot) : QuotaRank :=
  toLex (w.observedAt, toLex (quotaStatePriority w, toLex (orTop w.resetAt,
    toLex (OrderDual.toDual (orTop w.remaining), OrderDual.toDual (orTop w.limit)))))

theorem replaces_iff {new cur : QuotaSnapshot} : new.replaces cur = true ↔ cur.rank < new.rank := by
  simp only [QuotaSnapshot.replaces, QuotaSnapshot.rank, quotaPrecedence, lowerValue_eq, laterDeadline_eq,
    or_eq_true, and_eq_true, decide_eq_true_eq, Ordering.then_eq_gt, compare_gt_iff_gt,
    compare_eq_iff_eq, Prod.Lex.toLex_lt_toLex, toDual_lt_toDual, toDual_inj, gt_iff_lt,
    @eq_comm _ new.observedAt, @eq_comm _ (quotaStatePriority new), @eq_comm _ (orTop new.resetAt)]

theorem observedAt_le_of_replaces {new cur : QuotaSnapshot} (h : new.replaces cur = true) :
    cur.observedAt ≤ new.observedAt := by
  simp only [QuotaSnapshot.replaces, or_eq_true, and_eq_true, decide_eq_true_eq] at h
  omega

/-! ### One window -/

/-- What stands in a window after an observation. -/
def survivor (current : Option QuotaSnapshot) (new : QuotaSnapshot) : Option QuotaSnapshot :=
  if current.all new.replaces then some new else current

section Window

variable {α : Type} [StringKeyed α] [DecidableEq α] {t : Table (α × QuotaUnit) QuotaSnapshot} {owner : α}
  {w : QuotaSnapshot}

omit [DecidableEq α] in
theorem insertWindow_eq : insertWindow t owner w = if t[(owner, w.unit)]?.all w.replaces then
    (true, t.insert (owner, w.unit) w) else (false, t) := by
  unfold insertWindow
  split
  next h => rw [h]; rfl
  next h => rw [h, Option.all_some]

theorem get_insertWindow (k : α × QuotaUnit) :
    (insertWindow t owner w).2[k]? = if (owner, w.unit) = k then survivor t[k]? w else t[k]? := by
  rw [insertWindow_eq, survivor]
  split_ifs with hr hk hk <;> simp_all [Table.get_insert]

omit [DecidableEq α] in
theorem insertWindow_refused (h : (insertWindow t owner w).1 = false) : (insertWindow t owner w).2 = t := by
  rw [insertWindow_eq] at h ⊢
  split_ifs at h ⊢
  rfl

/-- A window that is taken stands where none stood, or another. -/
theorem insertWindow_taken (h : (insertWindow t owner w).1 = true) : t[(owner, w.unit)]? ≠ some w ∧
    (insertWindow t owner w).2[(owner, w.unit)]? = some w := by
  rw [get_insertWindow, if_pos rfl, survivor]
  rw [insertWindow_eq] at h
  split_ifs at h ⊢ with hall
  refine ⟨fun hw => ?_, rfl⟩
  rw [hw, Option.all_some] at hall
  exact absurd (replaces_iff.1 hall) (lt_irrefl _)

end Window

/-- The scopes whose windows are kept with a binding. -/
def QuotaScope.ofBinding : QuotaScope → Bool
  | .credential | .credentialModel => true
  | _ => false

/-- An observation is filed with the binding, or with the subject that its scope gives the registration,
or fails for want of one. -/
theorem insertQuotaForBinding_cases (s : RegistryState) (b : BindingKey) (r : CredentialRegistration) (w : QuotaSnapshot) :
    (w.scope.ofBinding = true ∧ s.insertQuotaForBinding b r w = (.ok (insertWindow s.bindingQuotas b w).1,
      { s with bindingQuotas := (insertWindow s.bindingQuotas b w).2 })) ∨
    (w.scope.ofBinding = false ∧ ((∃ err, quotaSubject r w.scope = .error err ∧
        s.insertQuotaForBinding b r w = (.error err, s)) ∨
      ∃ subject, quotaSubject r w.scope = .ok subject ∧ s.insertQuotaForBinding b r w =
        (.ok (insertWindow s.quotas subject w).1, { s with quotas := (insertWindow s.quotas subject w).2 }))) := by
  unfold RegistryState.insertQuotaForBinding
  cases w.scope
  case credential | credentialModel => exact .inl ⟨rfl, rfl⟩
  all_goals
    refine .inr ⟨rfl, ?_⟩
    dsimp only
    split
    next err h => exact .inl ⟨err, h, rfl⟩
    next subject h => exact .inr ⟨subject, h, rfl⟩

end Pooler
