import Pooler.Sanity.Store

/-! Revisions of credential records. They are handed out by one counter for all records, so that no
record is ever seen again under a revision it had before. -/

namespace Pooler.MemoryStore

open Lib List Nat OrderedMap

namespace Inner

variable {s t u : Inner} {id : String} {record : CredentialState}

/-- The revisions handed out increase, and a record carries the last one handed out for it. -/
structure Issued (s : Inner) : Prop where
  increasing : s.issued.Pairwise (fun a b => a.2 < b.2)
  bounded : ∀ entry ∈ s.issued, entry.2 ≤ s.credentialRevision
  stored : ∀ id state, s.credentials.get id = some state →
    (id, state.revision) ∈ s.issued ∧ ∀ r, (id, r) ∈ s.issued → r ≤ state.revision

theorem issued_new : Issued {} := ⟨Pairwise.nil, nofun, nofun⟩

theorem issued_write (s : Inner) (id : String) (state : CredentialState) :
    (s.write id state).issued = s.issued ++ [(id, s.credentialRevision + 1)] := rfl

theorem get_write (s : Inner) (id a : String) (state : CredentialState) :
    (s.write id state).credentials.get a =
      if id = a then some { state with revision := s.credentialRevision + 1 } else s.credentials.get a :=
  get_insert _ _ _ _

theorem get_drop (s : Inner) (id a : String) :
    (s.drop id).credentials.get a = if id = a then none else s.credentials.get a :=
  get_erase _ _ _

theorem Issued.write (h : s.Issued) (id : String) (state : CredentialState) : (s.write id state).Issued := by
  refine ⟨?_, ?_, ?_⟩
  · rw [issued_write, pairwise_append]
    refine ⟨h.increasing, pairwise_singleton _ _, ?_⟩
    intro a ha b hb
    rw [mem_singleton.1 hb]
    exact lt_succ_of_le (h.bounded a ha)
  · intro entry hent
    rw [issued_write, mem_append, mem_singleton] at hent
    rcases hent with hent | rfl
    · exact (h.bounded entry hent).trans (le_succ _)
    · exact le_refl _
  · intro a new hg
    rw [get_write] at hg
    rw [issued_write]
    split_ifs at hg with ha
    · cases hg
      subst ha
      refine ⟨mem_append_right _ mem_cons_self, ?_⟩
      intro r hr
      rcases mem_append.1 hr with hr | hr
      · exact (h.bounded _ hr).trans (le_succ _)
      · rw [(Prod.mk.inj (mem_singleton.1 hr)).2]
    · obtain ⟨hm, hlast⟩ := h.stored a new hg
      refine ⟨mem_append_left _ hm, ?_⟩
      intro r hr
      rcases mem_append.1 hr with hr | hr
      · exact hlast r hr
      · exact absurd (Prod.mk.inj (mem_singleton.1 hr)).1.symm ha

theorem Issued.move (hmove : Move s t) (h : s.Issued) : t.Issued := by
  cases hmove with
  | wrote id state => exact h.write id state
  | dropped =>
    refine ⟨h.increasing, h.bounded, ?_⟩
    intro a state hg
    rw [get_drop] at hg
    split_ifs at hg
    exact h.stored a state hg
  | purged | health | cooled | thinnedCooldowns | bound | used | thinnedAffinities =>
    exact ⟨h.increasing, h.bounded, h.stored⟩

/-- A record that is there is an old one or has a revision of its own. -/
structure Fresh (s t : Inner) : Prop where
  later : s.credentialRevision ≤ t.credentialRevision
  record : ∀ id state, t.credentials.get id = some state →
    s.credentials.get id = some state ∨ s.credentialRevision < state.revision

theorem Fresh.move (hmove : Move t u) (h : s.Fresh t) : s.Fresh u := by
  cases hmove with
  | wrote =>
    refine ⟨h.later.trans (le_succ _), fun id new hg => ?_⟩
    rw [get_write] at hg
    split_ifs at hg
    · cases hg
      exact .inr (lt_succ_of_le h.later)
    · exact h.record id new hg
  | dropped =>
    refine ⟨h.later, fun id new hg => ?_⟩
    rw [get_drop] at hg
    split_ifs at hg
    exact h.record id new hg
  | purged | health | cooled | thinnedCooldowns | bound | used | thinnedAffinities => exact ⟨h.later, h.record⟩

/-- The record is not there, or has a revision above the bound. -/
structure Changed (t : Inner) (bound : ℕ) (id : String) : Prop where
  later : bound ≤ t.credentialRevision
  record : ∀ state, t.credentials.get id = some state → bound < state.revision

theorem Changed.move {bound : ℕ} (hmove : Move s t) (h : s.Changed bound id) : t.Changed bound id := by
  have hfr : s.Fresh t := Fresh.move hmove ⟨le_refl _, fun _ _ h => .inl h⟩
  refine ⟨h.later.trans hfr.later, fun state hg => ?_⟩
  rcases hfr.record id state hg with hold | hw
  · exact h.record state hold
  · exact lt_of_le_of_lt h.later hw

/-- Since `s` the record has not been written, or it is gone or has a later revision. -/
structure Fence (s : Inner) (id : String) (record : CredentialState) (t : Inner) : Prop where
  later : s.credentialRevision ≤ t.credentialRevision
  cases : (t.credentials.get id = some record ∧ ∃ new, t.issued = s.issued ++ new ∧ ∀ entry ∈ new, entry.1 ≠ id) ∨
    t.Changed s.credentialRevision id

theorem Fence.start (h : s.credentials.get id = some record) : s.Fence id record s :=
  ⟨le_refl _, .inl ⟨h, [], (append_nil _).symm, nofun⟩⟩

theorem Fence.move (hmove : Move t u) (h : s.Fence id record t) : s.Fence id record u := by
  cases hmove with
  | wrote a state =>
    refine ⟨h.later.trans (le_succ _), ?_⟩
    by_cases ha : a = id
    · refine .inr ⟨h.later.trans (le_succ _), fun new hg => ?_⟩
      rw [get_write, if_pos ha] at hg
      cases hg
      exact lt_succ_of_le h.later
    · rcases h.cases with ⟨hg, new, hw, hoth⟩ | hchg
      · refine .inl ⟨by rw [get_write, if_neg ha, hg], new ++ [(a, t.credentialRevision + 1)], ?_, ?_⟩
        · rw [issued_write, hw, append_assoc]
        · intro entry hent
          rcases mem_append.1 hent with hent | hent
          · exact hoth entry hent
          · rw [mem_singleton.1 hent]
            exact ha
      · exact .inr (hchg.move (.wrote t a state))
  | dropped a =>
    refine ⟨h.later, ?_⟩
    rcases h.cases with ⟨hg, hiss⟩ | hchg
    · by_cases ha : a = id
      · refine .inr ⟨h.later, fun state hstate => ?_⟩
        rw [get_drop, if_pos ha] at hstate
        cases hstate
      · exact .inl ⟨by rw [get_drop, if_neg ha, hg], hiss⟩
    · exact .inr (hchg.move (.dropped t a))
  | purged | health | cooled | thinnedCooldowns | bound | used | thinnedAffinities =>
    exact ⟨h.later, h.cases.imp_right fun hchg => ⟨hchg.later, hchg.record⟩⟩

end Inner

variable {retention : RetentionPolicy} {s : Inner} {id : String} {record : CredentialState}

theorem run_keep (inv : Inner → Prop) (hmove : ∀ {s t}, Inner.Move s t → inv s → inv t) (retention : RetentionPolicy)
    (calls : List Call) (h : inv s) : inv (run (step retention) s calls) :=
  run_invariant (fun t call ht => Inner.Moves.keep inv hmove (step_moves retention t call) ht) calls s h

theorem run_issued (retention : RetentionPolicy) (calls : List Call) : (run (step retention) {} calls).Issued :=
  run_keep Inner.Issued (fun hmove => Inner.Issued.move hmove) retention calls Inner.issued_new

theorem run_fence (retention : RetentionPolicy) (h : s.credentials.get id = some record) (calls : List Call) :
    s.Fence id record (run (step retention) s calls) :=
  run_keep (s.Fence id record) (fun hmove => Inner.Fence.move hmove) retention calls (Inner.Fence.start h)

theorem run_changed {bound : ℕ} (h : s.Changed bound id) (calls : List Call) :
    (run (step retention) s calls).Changed bound id :=
  run_keep (fun t => t.Changed bound id) (fun hmove => Inner.Changed.move hmove) retention calls h

/-- A conditional change is made to the record of that revision and identity, or not at all. -/
theorem setCredentialEnabledIfCurrent_cases (id : String) (revision : ℕ) (prov fingerprint : String)
    (enabled : Bool) (updatedAt : ℕ) (s : Inner) :
    let attempt := setCredentialEnabledIfCurrent id revision prov fingerprint enabled updatedAt s
    (attempt.2 = s ∧ ∀ state, attempt.1 ≠ .ok (.applied state)) ∨
      ∃ cur, s.credentials.get id = some cur ∧ cur.revision = revision ∧
        attempt = applyEnabled id cur enabled updatedAt s := by
  intro attempt
  have hatt : attempt = setCredentialEnabledIfCurrent id revision prov fingerprint enabled updatedAt s := rfl
  unfold setCredentialEnabledIfCurrent at hatt
  dsimp only at hatt
  split at hatt
  · exact .inl ⟨by rw [hatt], by rw [hatt]; exact nofun⟩
  · split at hatt
    · exact .inl ⟨by rw [hatt], by rw [hatt]; exact nofun⟩
    next cur hg =>
      split_ifs at hatt with hc
      · exact .inl ⟨by rw [hatt], by rw [hatt]; exact nofun⟩
      · rw [not_or, not_not] at hc
        exact .inr ⟨cur, hg, hc.1, hatt⟩

theorem applyEnabled_applied {cur enabled} {updatedAt : ℕ} (h : s.credentialRevision < u64Max) :
    ∃ state, (applyEnabled id cur enabled updatedAt s).1 = .ok (.applied state) := by
  have hsame : (s.reconcileCredentialHealth id enabled updatedAt).credentialRevision = s.credentialRevision := by
    unfold Inner.reconcileCredentialHealth
    split_ifs
    · split
      · split_ifs <;> rfl
      · rfl
    · rfl
  unfold applyEnabled
  dsimp only
  split_ifs
  · exact ⟨cur, rfl⟩
  · rw [Inner.changeEnabled, Inner.nextCredentialRevision, hsame, if_pos (succ_le_of_lt h)]
    exact ⟨_, rfl⟩

/-- The record has been as it was read in every state since, and no revision has been handed out
for it. -/
def Undisturbed (retention : RetentionPolicy) (id : String) (record : CredentialState) (s : Inner) (since : List Call) :
    Prop :=
  (∀ calls, calls <+: since → (run (step retention) s calls).credentials.get id = some record) ∧
    ∃ new, (run (step retention) s since).issued = s.issued ++ new ∧ ∀ entry ∈ new, entry.1 ≠ id

theorem undisturbed_of_revision (hs : s.Issued) (hrd : s.credentials.get id = some record) {since cur}
    (hg : (run (step retention) s since).credentials.get id = some cur)
    (hrev : cur.revision = record.revision) : Undisturbed retention id record s since := by
  have hold : record.revision ≤ s.credentialRevision := hs.bounded _ (hs.stored id record hrd).1
  have hnot : ¬(run (step retention) s since).Changed s.credentialRevision id := fun hchg => by
    have := hchg.record cur hg
    omega
  refine ⟨?_, ?_⟩
  · rintro calls ⟨rest, rfl⟩
    rcases (run_fence retention hrd calls).cases with ⟨hsame, -⟩ | hchg
    · exact hsame
    · rw [run_append] at hnot
      exact absurd (run_changed hchg rest) hnot
  · rcases (run_fence retention hrd since).cases with ⟨-, hiss⟩ | hchg
    · exact hiss
    · exact absurd hchg hnot

/-- The revisions given to writes strictly increase over a run and every record stored carries the
last one given for it. A conditional change under a revision and an identity read earlier is made
only if the record has not been written since, and otherwise leaves the store as it is. -/
theorem stale_writers_are_fenced (retention : RetentionPolicy) (before since : List Call) (id : String)
    (record : CredentialState) (enabled : Bool) (updatedAt : ℕ)
    (hread : (run (step retention) {} before).credentials.get id = some record)
    (hleft : (run (step retention) {} (before ++ since)).credentialRevision < u64Max) :
    let s := run (step retention) {} before
    let t := run (step retention) s since
    t.Issued ∧ (∀ call, t.Fresh (step retention t call)) ∧
      (let attempt := setCredentialEnabledIfCurrent id record.revision record.providerId
        record.configurationFingerprint enabled updatedAt t
      (∃ state, attempt.1 = .ok (.applied state)) ∧ Undisturbed retention id record s since ∨
        (∀ state, attempt.1 ≠ .ok (.applied state)) ∧ attempt.2 = t) ∧
      ∀ identity generation, (setCredentialEnabledIfNewerPayload identity record.revision generation enabled updatedAt
        t).2 = t := by
  intro s t
  have ht : t = run (step retention) {} (before ++ since) := (run_append _ _ _).symm
  have hs : s.Issued := run_issued retention before
  refine ⟨ht ▸ run_issued retention _, ?_, ?_, ?_⟩
  · intro call
    exact Inner.Moves.keep t.Fresh (fun hmove => Inner.Fresh.move hmove) (step_moves retention t call)
      ⟨le_refl _, fun _ _ h => .inl h⟩
  · intro attempt
    rcases setCredentialEnabledIfCurrent_cases id record.revision record.providerId record.configurationFingerprint
      enabled updatedAt t with ⟨hsame, hnot⟩ | ⟨current, hg, hrev, hatt⟩
    · exact .inr ⟨hnot, hsame⟩
    · refine .inl ⟨?_, undisturbed_of_revision hs hread hg hrev⟩
      have : attempt = applyEnabled id current enabled updatedAt t := hatt
      rw [this]
      exact applyEnabled_applied (ht ▸ hleft)
  · intro identity generation
    exact setCredentialEnabledIfNewerPayload_eq t enabled updatedAt identity record.revision generation

/-- A record is read, and then removed and made again. -/
def readThenRemade : List Call × List Call :=
  ([.upsertCredentialState ⟨"a", "p", "", true, 1, 0⟩],
    [.removeCredentialState "a", .upsertCredentialState ⟨"a", "p", "", true, 2, 0⟩])

def twoOfEach : RetentionPolicy := ⟨2, 2, Nat.two_pos, Nat.two_pos⟩

theorem remade_record_has_new_revision :
    (run (step twoOfEach) {} readThenRemade.1).credentials.get "a" = some ⟨"a", "p", "", true, 1, 1⟩ ∧
      (run (step twoOfEach) {} (readThenRemade.1 ++ readThenRemade.2)).credentials.get "a" =
        some ⟨"a", "p", "", true, 2, 2⟩ ∧
      (run (step twoOfEach) (run (step twoOfEach) {} readThenRemade.1) readThenRemade.2).Issued := by
  have hrd : (run (step twoOfEach) {} readThenRemade.1).credentials.get "a" = some ⟨"a", "p", "", true, 1, 1⟩ := by
    decide +kernel
  refine ⟨hrd, by decide +kernel, ?_⟩
  exact (stale_writers_are_fenced twoOfEach readThenRemade.1 readThenRemade.2 "a" _ true 3 hrd (by decide +kernel)).1

end Pooler.MemoryStore
