import Pooler.Lib.Trace

/-! Pre- and postconditions of programs that pass a state along and may fail. A triple speaks of the
runs that do not fail. -/

namespace Pooler.Lib

variable {σ ε α β : Type}

/-- From a state that meets `pre`, a run that does not fail returns a value and a state that meet
`post`. -/
def Triple (pre : σ → Prop) (program : StateT σ (Except ε) α) (post : α → σ → Prop) : Prop :=
  ∀ s a s', pre s → program s = .ok (a, s') → post a s'

/-- A triple whose postcondition is about the state alone. -/
abbrev Leads (pre : σ → Prop) (program : StateT σ (Except ε) α) (post : σ → Prop) : Prop :=
  Triple pre program fun _ => post

/-- Fails with the error if the condition holds. -/
def failIf (condition : Bool) (error : ε) : StateT σ (Except ε) PUnit := if condition then throw error else pure ⟨⟩

namespace Triple

variable {pre : σ → Prop} {post : α → σ → Prop}

theorem pure {a : α} (h : ∀ s, pre s → post a s) : Triple pre (Pure.pure a : StateT σ (Except ε) α) post := by
  intro s b s' hs hrun
  cases hrun
  exact h s hs

variable {next : α → StateT σ (Except ε) β}

theorem bind {first mid post} (hfst : Triple pre first mid) (hnext : ∀ a, Triple (mid a) (next a) post) :
    Triple pre (first >>= next) post := by
  intro s b s' hs hrun
  change (first s >>= fun r => next r.1 r.2) = _ at hrun
  cases hr : first s with
  | error => rw [hr] at hrun; cases hrun
  | ok r =>
    rw [hr] at hrun
    exact hnext r.1 r.2 b s' (hfst s r.1 r.2 hs hr) hrun

theorem throw (e : ε) : Triple pre (MonadExcept.throw e : StateT σ (Except ε) α) post := by
  intro s a s' _ hrun
  cases hrun

theorem throw_bind (e : ε) {post} : Triple pre ((MonadExcept.throw e : StateT σ (Except ε) α) >>= next) post := by
  intro s a s' _ hrun
  cases hrun

theorem failIf {condition} {error : ε} {post} (h : ∀ s, pre s → post ⟨⟩ s) :
    Triple pre (failIf condition error) post := by
  cases condition with
  | true => exact throw error
  | false => exact pure h

theorem failIf_bind {condition} {error : ε} {next}
    (h : condition = false → Triple pre (next ⟨⟩) post) : Triple pre (Lib.failIf condition error >>= next) post := by
  cases condition with
  | true => exact throw_bind error
  | false => exact bind (pure fun _ hs => hs) fun _ => h rfl

theorem lift_bind {x : Except ε α} {post} (h : ∀ a, x = .ok a → Triple pre (next a) post) :
    Triple pre ((liftM x : StateT σ (Except ε) α) >>= next) post := by
  intro s b s' hs hrun
  cases x with
  | error => cases hrun
  | ok a => exact h a rfl s b s' hs hrun

variable {f : σ → σ}

theorem modify {post} (h : ∀ s, pre s → post ⟨⟩ (f s)) :
    Triple pre (modifyGet fun s => (⟨⟩, f s) : StateT σ (Except ε) PUnit) post := by
  intro s a s' hs hrun
  cases hrun
  exact h s hs

variable {program : StateT σ (Except ε) α} {post' : α → σ → Prop} {pre' : σ → Prop}

theorem weaken (h : Triple pre' program post') (hpre : ∀ s, pre s → pre' s) (hpost : ∀ a s, post' a s → post a s) :
    Triple pre program post :=
  fun s a s' hs hrun => hpost a s' (h s a s' (hpre s hs) hrun)

theorem of_pre (h : Triple pre' program post)
    (hpre : ∀ s, pre s → pre' s) : Triple pre program post := h.weaken hpre fun _ _ h => h

theorem of_post (h : Triple pre program post')
    (hpost : ∀ a s, post' a s → post a s) : Triple pre program post := h.weaken (fun _ h => h) hpost

/-- A fact about the starting state may be used as a hypothesis. -/
theorem assuming (h : ∀ s, pre s → Triple (fun t => t = s) program post) : Triple pre program post :=
  fun s a s' hs hrun => h s hs s a s' rfl hrun

section Known

variable {s : σ}

/-! From a known state. -/

theorem pure_at {a : α} (h : post a s) : Triple (fun t => t = s) (Pure.pure a : StateT σ (Except ε) α) post :=
  pure fun _ ht => ht ▸ h

theorem modify_at {post} (h : post ⟨⟩ (f s)) :
    Triple (fun t => t = s) (modifyGet fun s => (⟨⟩, f s) : StateT σ (Except ε) PUnit) post :=
  modify fun _ ht => ht ▸ h

theorem modify_bind_at {next} (h : Triple (fun t => t = f s) (next ⟨⟩) post) :
    Triple (fun t => t = s) ((modifyGet fun s => (⟨⟩, f s) : StateT σ (Except ε) PUnit) >>= next) post :=
  bind (modify_at rfl) fun _ => h

theorem known {program : StateT σ (Except ε) α} (h : Triple pre program post) (hs : pre s) :
    Triple (fun t => t = s) program post := h.of_pre fun _ ht => ht ▸ hs

theorem get_bind_at {next} (h : Triple (fun t => t = s) (next s) post) :
    Triple (fun t => t = s) ((MonadState.get : StateT σ (Except ε) σ) >>= next) post := by
  intro t a s' ht hrun
  subst ht
  exact h t a s' rfl hrun

end Known

/-- Reading the state. -/
theorem get_bind {next} (h : ∀ s, pre s → Triple (fun t => t = s) (next s) post) :
    Triple pre ((MonadState.get : StateT σ (Except ε) σ) >>= next) post :=
  assuming fun s hs => get_bind_at (h s hs)

/-- Each turn of a loop leads from the invariant at its place to the invariant at the next one. -/
theorem forM {as} {body : α → StateT σ (Except ε) PUnit} (inv : List α → σ → Prop)
    (hbody : ∀ a rest, a :: rest <:+ as → Triple (inv (a :: rest)) (body a) (fun _ => inv rest)) :
    Triple (inv as) (as.forM body) (fun _ => inv []) := by
  induction as with
  | nil => exact pure fun _ h => h
  | cons a as ih =>
    change Triple _ (body a >>= fun _ => as.forM body) _
    exact bind (hbody a as List.suffix_rfl) fun _ => ih fun b rest h => hbody b rest (h.trans (List.suffix_cons a as))

end Triple

/-- The state after a step; a step that fails leaves the state as it is. -/
def after (step : α → StateT σ (Except ε) β) (s : σ) (a : α) : σ :=
  match step a s with
  | .ok (_, s') => s'
  | .error _ => s

variable {step : α → StateT σ (Except ε) PUnit}

/-- An invariant of every step that meets `ok` is an invariant of the runs whose steps all do. -/
theorem Triple.forM_of_stepsMeet {ok inv}
    (hstep : ∀ a, Triple (fun s => inv s ∧ ok s a) (step a) (fun _ => inv)) (as : List α) :
    Triple (fun s => inv s ∧ StepsMeet (after step) ok s as) (as.forM step) (fun _ => inv) := by
  refine Triple.weaken (Triple.forM (fun rest s => inv s ∧ StepsMeet (after step) ok s rest) ?_)
    (fun _ h => h) fun _ _ h => h.1
  intro a rest _ s u s' ⟨hinv, hok, hrest⟩ hrun
  have haft : after step s a = s' := by rw [after, hrun]
  exact ⟨hstep a s u s' ⟨hinv, hok⟩ hrun, haft ▸ hrest⟩

/-- The same for a run with a last step that establishes more. -/
theorem Triple.forM_concat_of_stepsMeet {ok inv post} {last : α}
    (hstep : ∀ a, Triple (fun s => inv s ∧ ok s a) (step a) (fun _ => inv))
    (hlast : Triple (fun s => inv s ∧ ok s last) (step last) (fun _ => post)) (as : List α) :
    Triple (fun s => inv s ∧ StepsMeet (after step) ok s (as ++ [last])) ((as ++ [last]).forM step)
      (fun _ => post) := by
  induction as with
  | nil =>
    change Triple _ (step last >>= fun _ => Pure.pure PUnit.unit) _
    exact bind (hlast.weaken (fun _ h => ⟨h.1, h.2.1⟩) fun _ _ h => h) fun _ => pure fun _ h => h
  | cons a as ih =>
    change Triple _ (step a >>= fun _ => (as ++ [last]).forM step) _
    have hfst : Triple (fun s => inv s ∧ StepsMeet (after step) ok s (a :: (as ++ [last]))) (step a)
        (fun _ s => inv s ∧ StepsMeet (after step) ok s (as ++ [last])) := by
      intro s u s' ⟨hinv, hok, hrest⟩ hrun
      have haft : after step s a = s' := by rw [after, hrun]
      exact ⟨hstep a s u s' ⟨hinv, hok⟩ hrun, haft ▸ hrest⟩
    exact bind hfst fun _ => ih

end Pooler.Lib
