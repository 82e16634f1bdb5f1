import Pooler.Lib.Fenced
import Pooler.Sanity.Select
import Pooler.Spec.Policy.Lease

/-! What each call does to a registry's counters and to the operator status of its accounts and
bindings. -/

namespace Pooler

open Lib Slots Option Function

variable (aliases : Table ModelId ModelId)

/-- The alias chain never runs out of fuel: a chain longer than the table has met some model twice. -/
theorem resolveAliasFrom_fuel :
    ∀ fuel seen cur, seen.Nodup → (∀ m ∈ seen, m ∈ aliases.keys) → aliases.size + 1 ≤ fuel + seen.length →
      RegistryState.resolveAliasFrom aliases fuel seen cur =
        RegistryState.resolveAliasFrom aliases (fuel + 1) seen cur := by
  intro fuel
  induction fuel with
  | zero =>
    intro seen cur hnd hsub hlen
    have hle : seen.length ≤ aliases.keys.length := (hnd.subperm (fun m hm => hsub m hm)).length_le
    rw [Std.ExtTreeMap.length_keys] at hle
    omega
  | succ fuel ih =>
    intro seen cur hnd hsub hlen
    rw [RegistryState.resolveAliasFrom, RegistryState.resolveAliasFrom]
    by_cases hmem : cur ∈ seen
    · rw [if_pos hmem, if_pos hmem]
    · rw [if_neg hmem, if_neg hmem]
      cases hnext : aliases[cur]? with
      | none => rfl
      | some next =>
        refine ih (cur :: seen) next (List.nodup_cons.2 ⟨hmem, hnd⟩) ?_ ?_
        · intro m hm
          rcases List.mem_cons.1 hm with rfl | hm
          · rw [Std.ExtTreeMap.mem_keys]
            exact Std.ExtTreeMap.mem_iff_isSome_getElem?.2 (by rw [hnext]; rfl)
          · exact hsub m hm
        · rw [List.length_cons]
          omega

theorem resolveAlias_eq (model : ModelId) (k : ℕ) :
    RegistryState.resolveAlias aliases model =
      RegistryState.resolveAliasFrom aliases (aliases.size + 1 + k) [] model := by
  induction k with
  | zero => rfl
  | succ k ih =>
    rw [ih]
    exact resolveAliasFrom_fuel aliases _ [] model List.nodup_nil (by simp) (by simp)

variable (s : RegistryState)

/-- The counters of the registry: every slot's order and its leases. -/
def RegistryState.slot (b : BindingKey) : Option FencedSlot := (s.entries.get b).map (fun e => ⟨e.order, e.inFlight⟩)

/-- The slots are the same up to their metadata and flags, and no order was handed out. -/
structure SameCounters (s s' : RegistryState) : Prop where
  slot : s'.slot = s.slot
  nextOrder : s'.nextOrder = s.nextOrder

/-- The slots are the same up to their flags. -/
structure SameSlots (s s' : RegistryState) : Prop extends SameCounters s s' where
  registration : ∀ b, (s'.entries.get b).map (·.registration) = (s.entries.get b).map (·.registration)

theorem SameSlots.refl : SameSlots s s := ⟨⟨rfl, rfl⟩, fun _ => rfl⟩

variable {s' : RegistryState}

theorem SameSlots.trans {s s''} (h : SameSlots s s') (h' : SameSlots s' s'') : SameSlots s s'' where
  slot := h'.slot.trans h.slot
  nextOrder := h'.nextOrder.trans h.nextOrder
  registration b := (h'.registration b).trans (h.registration b)

theorem SameSlots.of_entries {s} (he : s'.entries = s.entries) (ho : s'.nextOrder = s.nextOrder) : SameSlots s s' where
  slot := by funext b; rw [RegistryState.slot, he, RegistryState.slot]
  nextOrder := ho
  registration b := by rw [he]

theorem SameSlots.of_update {s p f} (hf : ∀ e, (f e).registration = e.registration)
    (ho : ∀ e, (f e).order = e.order) (hi : ∀ e, (f e).inFlight = e.inFlight) :
    SameSlots s { s with entries := s.entries.update p f hf } := by
  refine ⟨⟨?_, rfl⟩, ?_⟩
  · funext b
    simp only [RegistryState.slot, get_update, map_map]
    congr 1
    funext e
    simp only [comp_apply]
    split_ifs
    · rw [ho, hi]
    · rfl
  · intro b
    simp only [get_update, map_map]
    congr 1
    funext e
    simp only [comp_apply]
    split_ifs
    · rw [hf]
    · rfl

/-- A slot of the later state stands for one of the earlier with the same data. -/
theorem SameSlots.get {s} (h : SameSlots s s') {b e'}
    (he : s'.entries.get b = some e') : ∃ e, s.entries.get b = some e ∧ e.registration = e'.registration ∧
      e.order = e'.order ∧ e.inFlight = e'.inFlight := by
  have hslot := congrFun h.slot b
  have hreg := h.registration b
  rw [RegistryState.slot, RegistryState.slot, he, map_some] at hslot
  rw [he, map_some] at hreg
  cases hg : s.entries.get b with
  | none => rw [hg] at hreg; cases hreg
  | some e =>
    rw [hg, map_some] at hslot hreg
    have hpair := Option.some.inj hslot
    simp only [FencedSlot.mk.injEq] at hpair
    exact ⟨e, rfl, (Option.some.inj hreg).symm, hpair.1.symm, hpair.2.symm⟩

theorem selectFromState_error_slots {s h req err}
    (hsel : selectFromState s h req = (.error err, s')) : SameSlots s s' := by
  rcases selectFromState_error hsel with ⟨-, -, rfl⟩ | ⟨-, rfl, -⟩
  · exact .refl _
  · exact .of_entries rfl rfl

theorem insertBoundedAffinity_slots (key : AffinityKey) (a : AffinityBinding) :
    SameSlots s (s.insertBoundedAffinity key a) := by
  obtain ⟨t, _, ht, -, -⟩ := insertBoundedAffinity_frame s key a
  rw [ht]
  exact .of_entries rfl rfl

theorem insertQuotaForBinding_slots (b : BindingKey) (r : CredentialRegistration)
    (snap : QuotaSnapshot) : SameSlots s (s.insertQuotaForBinding b r snap).2 := by
  unfold RegistryState.insertQuotaForBinding
  cases snap.scope <;> simp only <;> try exact .of_entries rfl rfl
  all_goals
    split
    · exact .refl s
    · exact .of_entries rfl rfl

theorem setQuotaOn_slots (snap : QuotaSnapshot) :
    ∀ es changed s, SameSlots s (RegistryState.setQuotaOn snap es changed s).2 := by
  intro es
  induction es with
  | nil => intro changed s; exact .refl s
  | cons e es ih =>
    intro changed s
    have hins := insertQuotaForBinding_slots s e.registration.binding e.registration snap
    rw [RegistryState.setQuotaOn]
    split
    next h => rw [h] at hins; exact hins
    next h => rw [h] at hins; exact hins.trans (ih _ _)

theorem purged_slots (now : ℕ) (key : AffinityKey) (a : AffinityBinding) :
    SameSlots s ((s.purgeExpiredAffinity now).insertBoundedAffinity key a) :=
  have hpur : SameSlots s (s.purgeExpiredAffinity now) := .of_entries rfl rfl
  hpur.trans (insertBoundedAffinity_slots _ _ _)

/-- Registration keeps a known slot and opens an unknown one under the next order. -/
theorem register_counters (r : CredentialRegistration) : SameCounters s (s.register r) ∨
    (s.slot r.binding = none ∧ (s.register r).slot = Function.update s.slot r.binding (some ⟨s.nextOrder, 0⟩) ∧
      (s.register r).nextOrder = satAdd u64Max s.nextOrder 1) := by
  unfold RegistryState.register
  cases hg : s.entries.get r.binding with
  | some =>
    refine .inl ⟨?_, rfl⟩
    funext b
    show ((s.entries.put _).get b).map _ = _
    rw [get_put]
    by_cases hb : r.binding = b
    · rw [if_pos hb, RegistryState.slot, ← hb, hg]
      rfl
    · rw [if_neg hb]
      rfl
  | none =>
    refine .inr ⟨by rw [RegistryState.slot, hg]; rfl, ?_, rfl⟩
    funext b
    show ((s.entries.put _).get b).map _ = _
    rw [get_put, update_apply]
    by_cases hb : r.binding = b
    · rw [if_pos hb, if_pos hb.symm]
      rfl
    · rw [if_neg hb, if_neg (Ne.symm hb)]
      rfl

theorem removeBindings_slot (bs : List BindingKey) :
    (s.removeBindings bs).slot = (fun b => if decide (b ∈ bs) then none else s.slot b) := by
  funext b
  show ((s.entries.remove bs).get b).map _ = _
  rw [get_remove]
  by_cases hb : b ∈ bs <;> simp [hb, RegistryState.slot]

theorem setCredentialsEnabled_slots (changes : List (CredentialId × Bool)) :
    ∀ i : RegistryInner, SameSlots i.state (i.setCredentialsEnabled changes).state := by
  induction changes with
  | nil => intro i; exact .refl _
  | cons change changes ih =>
    intro i
    refine SameSlots.trans ?_ (ih (i.setCredentialEnabled change))
    unfold RegistryInner.setCredentialEnabled
    split_ifs <;> exact .of_update _ (fun _ => rfl) (fun _ => rfl)

theorem apply_slots (i : RegistryInner) {op} (h : op.keepsBindings = true) : SameSlots i.state (i.apply op).state := by
  cases op with
  | register | unregister | unregisterBinding => cases h
  | registerModelAlias =>
    simp only [RegistryInner.apply, RegistryState.registerModelAlias]
    split <;> exact .of_entries rfl rfl
  | setCredentialsEnabled changes => exact setCredentialsEnabled_slots changes i
  | setEnabled | setBindingEnabled | disable | enable | disableBinding | enableBinding =>
    exact .of_update _ (fun _ => rfl) (fun _ => rfl)
  | setQuotaSnapshot => exact setQuotaOn_slots _ _ _ _
  | setBindingQuotaSnapshot =>
    simp only [RegistryInner.apply, RegistryState.setBindingQuotaSnapshot]
    split
    · exact .refl _
    · exact insertQuotaForBinding_slots _ _ _ _
  | restoreQuotaState =>
    simp only [RegistryInner.apply, RegistryState.restoreQuotaState]
    split
    · exact .of_entries rfl rfl
    · exact .refl _
  | restoreAffinity =>
    simp only [RegistryInner.apply, RegistryState.restoreAffinity]
    split
    · exact .refl _
    · exact purged_slots _ _ _ _
  | restoreAffinityBinding =>
    simp only [RegistryInner.apply, RegistryState.restoreAffinityBinding]
    split
    · exact .refl _
    · exact purged_slots _ _ _ _
  | recoverQuotas | applyFailure | restoreCooldown | clearExpired | purgeExpiredAffinity => exact .of_entries rfl rfl

/-- What a call that grants nothing can do to the counters: nothing, open one slot under the next
order, or close some. -/
theorem apply_counters (i : RegistryInner) (op : RegistryOp) : SameCounters i.state (i.apply op).state ∨
    (∃ r, op = .register r ∧ i.state.slot r.binding = none ∧
      (i.apply op).state.slot = Function.update i.state.slot r.binding (some ⟨i.state.nextOrder, 0⟩) ∧
      (i.apply op).state.nextOrder = satAdd u64Max i.state.nextOrder 1) ∨
    ∃ gone : BindingKey → Bool, (i.apply op).state.slot = (fun b => if gone b then none else i.state.slot b) ∧
      (i.apply op).state.nextOrder = i.state.nextOrder := by
  cases hop : op.keepsBindings with
  | true => exact .inl (apply_slots i hop).toSameCounters
  | false =>
    cases op with
    | register r =>
      rcases register_counters i.state r with h | ⟨h, hslot, hnext⟩
      · exact .inl h
      · exact .inr (.inl ⟨r, rfl, h, hslot, hnext⟩)
    | unregister =>
      simp only [RegistryInner.apply, RegistryInner.unregister]
      split
      · exact .inl ⟨rfl, rfl⟩
      · exact .inr (.inr ⟨_, removeBindings_slot _ _, rfl⟩)
    | unregisterBinding =>
      simp only [RegistryInner.apply, RegistryInner.unregisterBinding]
      split
      · exact .inl ⟨rfl, rfl⟩
      · exact .inr (.inr ⟨_, removeBindings_slot _ _, rfl⟩)
    | _ => cases hop

end Pooler
