import Pooler.Sanity.Registry

/-! The alias table has no cycles: a cycle that an alias closes is met by the walk from that alias. -/

namespace Pooler

open Lib Table Std.ExtTreeMap

variable (aliases : Table ModelId ModelId)

/-- The aliases lead from `model` to `target`, which is no alias itself. -/
def LeadsTo (model target : ModelId) : Prop :=
  Relation.ReflTransGen (fun a b => aliases[a]? = some b) model target ∧ aliases[target]? = none

def Acyclic : Prop := ∀ model, ∃ target, LeadsTo aliases model target

variable {aliases : Table ModelId ModelId} {model resolved target : ModelId}

theorem leadsTo_of_resolveAliasFrom (fuel : ℕ) : ∀ seen cur,
    RegistryState.resolveAliasFrom aliases fuel seen cur = some target → LeadsTo aliases cur target := by
  induction fuel with
  | zero => intro seen cur h; cases h
  | succ fuel ih =>
    intro seen cur h
    rw [RegistryState.resolveAliasFrom] at h
    split_ifs at h
    cases hnext : aliases[cur]? with
    | none =>
      rw [hnext] at h
      cases h
      exact ⟨.refl, hnext⟩
    | some next =>
      rw [hnext] at h
      obtain ⟨hpath, hend⟩ := ih _ next h
      exact ⟨.head hnext hpath, hend⟩

/-- A walk that meets the new alias goes on along the walk from that alias. -/
theorem Acyclic.insert (h : Acyclic aliases) (hw : LeadsTo (aliases.insert model resolved) model target) :
    Acyclic (aliases.insert model resolved) := by
  intro start
  obtain ⟨last, hpath, hlast⟩ := h start
  induction hpath using Relation.ReflTransGen.head_induction_on with
  | refl =>
    by_cases hm : model = last
    · exact ⟨target, hm ▸ hw⟩
    · exact ⟨last, .refl, by rw [get_insert, if_neg hm, hlast]⟩
  | @head a b hstep _ ih =>
    by_cases hm : model = a
    · exact ⟨target, hm ▸ hw⟩
    · obtain ⟨t, hpath, hend⟩ := ih
      exact ⟨t, .head (by rw [get_insert, if_neg hm, hstep]) hpath, hend⟩

theorem insert_previous {previous} (h : aliases[model]? = some previous) :
    (aliases.insert model resolved).insert model previous = aliases := by
  refine ext_getElem? fun k => ?_
  simp only [get_insert]
  split_ifs with hk
  · rw [← hk, h]
  · rfl

theorem erase_insert (h : aliases[model]? = none) : (aliases.insert model resolved).erase model = aliases := by
  refine ext_getElem? fun k => ?_
  simp only [get_insert, get_erase]
  split_ifs with hk
  · rw [← hk, h]
  · rfl

/-- The alias is taken when the walk from it ends; a rejected one leaves no trace. -/
theorem registerModelAlias_cases (s : RegistryState) (model resolved : ModelId) :
    (∃ target, LeadsTo (s.aliases.insert model resolved) model target ∧
      s.registerModelAlias model resolved = (.ok (), { s with aliases := s.aliases.insert model resolved })) ∨
    s.registerModelAlias model resolved = (.error .modelAliasCycle, s) := by
  unfold RegistryState.registerModelAlias
  dsimp only
  split
  next target hresv => exact .inl ⟨target, leadsTo_of_resolveAliasFrom _ _ _ hresv, rfl⟩
  next hprev => exact .inr (by rw [insert_previous hprev])
  next hn => exact .inr (by rw [erase_insert hn])

/-- After every sequence of registrations the aliases end from each model, and a registration that is
rejected then changes nothing. -/
theorem alias_table_stays_acyclic (s : RegistryState) (calls : List (ModelId × ModelId)) :
    let t := run (fun s (call : ModelId × ModelId) => (s.registerModelAlias call.1 call.2).2) { s with aliases := ∅ } calls
    Acyclic t.aliases ∧ ∀ model resolved, (t.registerModelAlias model resolved).1 ≠ .ok () →
      (t.registerModelAlias model resolved).2 = t := by
  refine ⟨@run_invariant _ _ _ (fun s : RegistryState => Acyclic s.aliases) (fun s call h => ?_) calls _ ?_,
    fun model resolved h => ?_⟩
  · rcases registerModelAlias_cases s call.1 call.2 with ⟨target, hw, heq⟩ | heq
    · rw [heq]
      exact h.insert hw
    · rw [heq]
      exact h
  · exact fun model => ⟨model, .refl, by simp⟩
  · rcases registerModelAlias_cases _ model resolved with ⟨_, -, heq⟩ | heq
    · rw [heq] at h
      exact absurd rfl h
    · rw [heq]

end Pooler
