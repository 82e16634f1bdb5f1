import Pooler.Proofs.Selection
import Pooler.Sanity.Windows

/-! The order in which quota observations arrive does not show in what they leave. -/

namespace Pooler

open Lib List

theorem orTop_injective : Function.Injective orTop := by
  rintro (_ | a) (_ | b) h <;> simp_all [orTop]

theorem exhausted_eq (w : QuotaSnapshot) (now : ℕ) :
    w.exhausted now = (!w.resetAt.any (· ≤ now) && quotaStatePriority w = 2) := by
  unfold QuotaSnapshot.exhausted quotaStatePriority
  split_ifs <;> simp_all

theorem exhausted_congr {a b : QuotaSnapshot} (h : a.rank = b.rank) (now : ℕ) : a.exhausted now = b.exhausted now := by
  simp only [QuotaSnapshot.rank, toLex_inj, Prod.mk.injEq] at h
  rw [exhausted_eq, exhausted_eq, h.2.1, orTop_injective h.2.2.1]

variable (current : Option QuotaSnapshot)

def standing : WithBot QuotaRank := current.elim ⊥ fun w => w.rank

theorem standing_survivor (w : QuotaSnapshot) : standing (survivor current w) = max (standing current) w.rank := by
  cases current with
  | none => exact (max_eq_right bot_le).symm
  | some =>
    rw [survivor, Option.all_some]
    split_ifs with h
    · exact (max_eq_right (WithBot.coe_le_coe.2 (replaces_iff.1 h).le)).symm
    · exact (max_eq_left (WithBot.coe_le_coe.2 (not_lt.1 fun hlt => h (replaces_iff.2 hlt)))).symm

theorem exhausted_of_standing {a b} (h : standing a = standing b) (now : ℕ) :
    a.map (·.exhausted now) = b.map (·.exhausted now) := by
  cases a <;> cases b <;> simp_all [standing]
  exact exhausted_congr h now

section Owner

variable {α : Type} [StringKeyed α] (owner : α)

/-- The windows after a list of observations for one owner. -/
def insertWindows (t : Table (α × QuotaUnit) QuotaSnapshot) (l : List QuotaSnapshot) :
    Table (α × QuotaUnit) QuotaSnapshot := l.foldl (fun t w => (insertWindow t owner w).2) t

variable [DecidableEq α] {unit : QuotaUnit}

theorem standing_insertWindows (l : List QuotaSnapshot) (hunit : ∀ w ∈ l, w.unit = unit) :
    ∀ t, standing (insertWindows owner t l)[(owner, unit)]? =
      l.foldl (fun rank w => max rank w.rank) (standing t[(owner, unit)]?) := by
  induction l with
  | nil => intro t; rfl
  | cons w l ih =>
    intro t
    obtain ⟨rfl, hl⟩ := forall_mem_cons.1 hunit
    rw [insertWindows, foldl_cons, foldl_cons, ← insertWindows, ih hl, get_insertWindow, if_pos rfl, standing_survivor]

theorem exhausted_insertWindows {l l'} (hunit : ∀ w ∈ l, w.unit = unit) (hp : l.Perm l')
    (t : Table (α × QuotaUnit) QuotaSnapshot) (now : ℕ) :
    (insertWindows owner t l)[(owner, unit)]?.map (·.exhausted now) =
      (insertWindows owner t l')[(owner, unit)]?.map (·.exhausted now) := by
  refine exhausted_of_standing ?_ now
  have hcomm : RightCommutative fun (rank : WithBot QuotaRank) (w : QuotaSnapshot) => max rank w.rank :=
    ⟨fun _ _ _ => max_right_comm _ _ _⟩
  rw [standing_insertWindows owner l hunit, hp.foldl_eq,
    standing_insertWindows owner l' fun w hw => hunit w (hp.mem_iff.2 hw)]

end Owner

theorem foldl_insertBindingQuota (binding : BindingKey) (l : List QuotaSnapshot) (s : RegistryState) :
    (l.foldl (fun s w => (s.insertBindingQuota binding w).2) s).bindingQuotas =
      insertWindows binding s.bindingQuotas l :=
  (foldl_hom RegistryState.bindingQuotas fun _ _ => rfl).symm

theorem foldl_insertQuotaSubject (subj : QuotaSubject) (l : List QuotaSnapshot) (s : RegistryState) :
    (l.foldl (fun s w => (s.insertQuotaSubject subj w).2) s).quotas = insertWindows subj s.quotas l :=
  (foldl_hom RegistryState.quotas fun _ _ => rfl).symm

/-- Observations of one unit, in any order, for a binding or for a shared subject. -/
theorem quota_observations_commute (s : RegistryState) {unit : QuotaUnit} {l l' : List QuotaSnapshot}
    (hunit : ∀ w ∈ l, w.unit = unit) (hperm : l.Perm l') (now : ℕ) :
    (∀ binding : BindingKey,
      (l.foldl (fun s w => (s.insertBindingQuota binding w).2) s).bindingQuotas[(binding, unit)]?.map (·.exhausted now) =
        (l'.foldl (fun s w => (s.insertBindingQuota binding w).2) s).bindingQuotas[(binding, unit)]?.map
          (·.exhausted now)) ∧
    ∀ subject : QuotaSubject,
      (l.foldl (fun s w => (s.insertQuotaSubject subject w).2) s).quotas[(subject, unit)]?.map (·.exhausted now) =
        (l'.foldl (fun s w => (s.insertQuotaSubject subject w).2) s).quotas[(subject, unit)]?.map
          (·.exhausted now) := by
  simp only [foldl_insertBindingQuota, foldl_insertQuotaSubject]
  exact ⟨fun binding => exhausted_insertWindows binding hunit hperm _ now,
    fun subject => exhausted_insertWindows subject hunit hperm _ now⟩

def fullReport : QuotaSnapshot :=
  { scope := .credential, unit := .requests, state := .exhausted, resetAt := some 20, observedAt := 10 }

def freeReport : QuotaSnapshot := { fullReport with state := .available, resetAt := none }

/-- Two reports of one instant. -/
theorem full_and_free_commute :
    ([fullReport, freeReport].foldl (fun s w => (s.insertBindingQuota sampleBinding w).2)
      ({} : RegistryState)).bindingQuotas[(sampleBinding, QuotaUnit.requests)]?.map (·.exhausted 15) =
    ([freeReport, fullReport].foldl (fun s w => (s.insertBindingQuota sampleBinding w).2)
      ({} : RegistryState)).bindingQuotas[(sampleBinding, QuotaUnit.requests)]?.map (·.exhausted 15) :=
  (quota_observations_commute {} (by decide) (Perm.swap _ _ []) 15).1 sampleBinding

end Pooler
