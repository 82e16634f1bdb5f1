import Pooler.Lib.Guards
import Pooler.Spec.Config.Loader

/-! What a load reads. The files that a load has gone well with are its dependencies; the files that
any load reads are the root and what the search for imports finds. -/

namespace Pooler.ConfigLoader

open Lib Reading List

variable {Path File Value Preset Config Error : Type} [LinearOrder Path]
  {loader : ConfigLoader Path File Value Preset Config Error} {files : Path → Option File}

/-- What has been read is among the dependencies. -/
def Tracked (files : Path → Option File) (load : Load Path File Error (ResolvedDocument Path Value)) : Prop :=
  ∀ resolved, load.value files = .ok resolved → ∀ path ∈ load.keys files, path ∈ resolved.dependencies

variable {base : ResolvedDocument Path Value} {path : Path}

omit [LinearOrder Path] in
theorem mergeResolved_dependencies {incoming resolved additive}
    (h : loader.mergeResolved base incoming path additive = .ok resolved) :
    resolved.dependencies = base.dependencies ++ incoming.dependencies := by
  unfold mergeResolved at h
  split at h
  · cases h
  · cases h; rfl

variable {source : ImportSpec Preset → Load Path File Error (ResolvedDocument Path Value × Bool)}
  {specs : List (ImportSpec Preset)}

omit [LinearOrder Path] in
theorem mergeEach_dependencies
    (hsrc : ∀ spec imported, (source spec).value files = .ok imported →
      ∀ p ∈ (source spec).keys files, p ∈ imported.1.dependencies) {resolved}
    (h : (loader.mergeEach path source specs base).value files = .ok resolved) :
    (∀ p ∈ base.dependencies, p ∈ resolved.dependencies) ∧
      ∀ p ∈ (loader.mergeEach path source specs base).keys files, p ∈ resolved.dependencies := by
  induction specs generalizing base with
  | nil => cases h; exact ⟨fun _ hp => hp, nofun⟩
  | cons spec specs ih =>
    rw [mergeEach, value_andThen] at h
    obtain ⟨imported, himp, h⟩ := h
    obtain ⟨next, hmrg, h⟩ := value_andThen.1 h
    have hdeps := mergeResolved_dependencies hmrg
    obtain ⟨hbase, hr⟩ := ih h
    refine ⟨fun p hp => hbase p (hdeps ▸ mem_append_left _ hp), fun p hp => ?_⟩
    rw [mergeEach, mem_keys_andThen] at hp
    rcases hp with hp | ⟨imported', himp', hp⟩
    · exact hbase p (hdeps ▸ mem_append_right _ (hsrc spec _ himp p hp))
    · cases himp.symm.trans himp'
      obtain hp | ⟨next', hnext, hp⟩ := mem_keys_andThen.1 hp
      · cases hp
      · cases hmrg.symm.trans hnext
        exact hr p hp

theorem readOverlay_tracked (stack : List Path) (path : Path) : Tracked files (loader.readOverlay stack path) := by
  intro resolved h p hp
  unfold readOverlay at h hp
  split_ifs at h hp
  · cases h
  · rw [value_read] at h
    rw [keys_read] at hp
    split at h
    · cases h
    · cases h
    · cases h
      simpa [*] using hp

theorem importSource_tracked (loader : ConfigLoader Path File Value Preset Config Error) {resolve}
    (hresv : ∀ path, Tracked files (resolve path)) (stack : List Path) (path : Path) (spec : ImportSpec Preset)
    (imported : ResolvedDocument Path Value × Bool)
    (h : (loader.importSource resolve stack path spec).value files = .ok imported) :
    ∀ p ∈ (loader.importSource resolve stack path spec).keys files, p ∈ imported.1.dependencies := by
  intro p hp
  cases spec with
  | file =>
    rw [importSource, value_andThen] at h
    rw [importSource, mem_keys_andThen] at hp
    obtain ⟨resolved, hres, h⟩ := h
    cases h
    rcases hp with hp | ⟨_, _, hp⟩
    · exact hresv _ resolved hres p hp
    · cases hp
  | overlay =>
    rw [importSource, value_andThen] at h
    rw [importSource, mem_keys_andThen] at hp
    obtain ⟨resolved, hres, h⟩ := h
    cases h
    rcases hp with hp | ⟨_, _, hp⟩
    · exact readOverlay_tracked _ _ resolved hres p hp
    · cases hp
  | preset => cases hp

theorem resolveInner_tracked (depth : ℕ) (stack : List Path) (path : Path) :
    Tracked files (loader.resolveInner depth stack path) := by
  induction depth generalizing stack path with
  | zero => intro resolved h; cases h
  | succ depth ih =>
    intro resolved h p hp
    rw [resolveInner] at h hp
    split_ifs at h hp
    · cases h
    · rw [value_read] at h
      rw [keys_read] at hp
      split at h
      · cases h
      next hdoc =>
        have hsrc := importSource_tracked loader (fun p => ih (stack ++ [path]) p) (stack ++ [path]) path
        obtain ⟨merged, hmgd, h⟩ := value_andThen.1 h
        obtain ⟨next, hmrg, h⟩ := value_andThen.1 h
        obtain ⟨hbase, hbef⟩ := mergeEach_dependencies hsrc hmgd
        obtain ⟨hnext, haft⟩ := mergeEach_dependencies hsrc h
        have hkeep : ∀ q ∈ merged.dependencies, q ∈ resolved.dependencies := fun q hq =>
          hnext q (mergeResolved_dependencies hmrg ▸ mem_append_left _ hq)
        rcases mem_cons.1 hp with rfl | hp
        · exact hkeep p (hbase p mem_cons_self)
        · rw [hdoc] at hp
          obtain hp | ⟨merged', hmgd', hp⟩ := mem_keys_andThen.1 hp
          · exact hkeep p (hbef p hp)
          · cases hmgd.symm.trans hmgd'
            obtain hp | ⟨next', hnext', hp⟩ := mem_keys_andThen.1 hp
            · cases hp
            · cases hmrg.symm.trans hnext'
              exact haft p hp

/-- A load that goes well has read its dependencies only, the root among them. -/
theorem loadTracked_eq_ok {loaded} (h : (loader.loadTracked path).value files = .ok loaded) :
    loaded.root = path ∧ path ∈ loaded.dependencies ∧
      ∀ p ∈ (loader.loadTracked path).keys files, p ∈ loaded.dependencies := by
  obtain ⟨resolved, hres, hpar⟩ := value_andThen.1 h
  rw [value_done] at hpar
  obtain ⟨config, -, rfl⟩ := map_eq_ok.1 hpar
  have htrac := resolveInner_tracked _ _ _ resolved hres
  have hroot : path ∈ (loader.resolveInner (loader.maxImportDepth + 1) [] path).keys files := by
    rw [resolveInner, if_neg not_mem_nil]
    exact mem_cons_self
  refine ⟨rfl, mem_sortDedup.2 (htrac path hroot), fun p hp => mem_sortDedup.2 ?_⟩
  rcases mem_keys_andThen.1 hp with hp | ⟨_, _, hp⟩
  · exact htrac p hp
  · cases hp

/-! ### What the search for imports finds -/

variable {p : Path}

omit [LinearOrder Path] in
theorem mem_keys_mergeEach
    (h : p ∈ (loader.mergeEach path source specs base).keys files) : ∃ spec ∈ specs, p ∈ (source spec).keys files := by
  induction specs generalizing base with
  | nil => cases h
  | cons spec specs ih =>
    rw [mergeEach] at h
    obtain h | ⟨imported, _, h⟩ := mem_keys_andThen.1 h
    · exact ⟨spec, mem_cons_self, h⟩
    · obtain h | ⟨next, _, h⟩ := mem_keys_andThen.1 h
      · cases h
      · obtain ⟨spec', hspec', h⟩ := ih h
        exact ⟨spec', mem_cons_of_mem _ hspec', h⟩

theorem mem_keys_readOverlay {stack} (h : p ∈ (loader.readOverlay stack path).keys files) : p = path := by
  unfold readOverlay at h
  split_ifs at h
  · cases h
  · rw [keys_read] at h
    rcases mem_cons.1 h with rfl | h
    · rfl
    · split at h
      · cases h
      · cases h
      · cases h

omit [LinearOrder Path] in
theorem mem_collectEach {below names relative} (h : relative ∈ names)
    (hp : p = loader.join path relative ∨ p ∈ (below (loader.join path relative)).value files) :
    p ∈ (loader.collectEach path below names).value files := by
  induction names with
  | nil => cases h
  | cons name names ih =>
    simp only [collectEach, value_bind, value_done, cons_append, mem_cons, mem_append]
    rcases mem_cons.1 h with rfl | h
    · rcases hp with hp | hp
      · exact .inl hp
      · exact .inr (.inl hp)
    · exact .inr (.inr (ih h))

/-- Whether it goes well or not, a load reads the root and imports that the search finds. -/
theorem mem_collectImportPaths {depth depth' : ℕ} (hdep : depth ≤ depth') {stack}
    (h : p ∈ (loader.resolveInner depth stack path).keys files) :
    p = path ∨ p ∈ (loader.collectImportPaths depth' stack path).value files := by
  induction depth generalizing depth' stack path with
  | zero => cases h
  | succ depth ih =>
    obtain ⟨depth', rfl⟩ := Nat.exists_eq_add_one.2 (Nat.lt_of_lt_of_le (Nat.succ_pos _) hdep)
    rw [resolveInner] at h
    split_ifs at h with hstack
    · cases h
    · rw [keys_read] at h
      rcases mem_cons.1 h with rfl | h
      · exact .inl rfl
      · refine .inr ?_
        rw [collectImportPaths, if_neg hstack, value_read]
        split at h
        · cases h
        next document imports hdoc =>
          -- an import that is read is an import of the file, before or after the document itself
          obtain ⟨spec, hspec, hrd⟩ : ∃ spec ∈ imports, p ∈ (loader.importSource
              (loader.resolveInner depth (stack ++ [path])) (stack ++ [path]) path spec).keys files := by
            obtain h | ⟨merged, _, h⟩ := mem_keys_andThen.1 h
            · obtain ⟨spec, hspec, h⟩ := mem_keys_mergeEach h
              exact ⟨spec, mem_of_mem_filter hspec, h⟩
            · obtain h | ⟨next, _, h⟩ := mem_keys_andThen.1 h
              · cases h
              · obtain ⟨spec, hspec, h⟩ := mem_keys_mergeEach h
                exact ⟨spec, mem_of_mem_filter hspec, h⟩
          cases spec with
          | file relative =>
            have hname := loader.importNames_complete _ _ _ _ _ hdoc relative (.inl hspec)
            obtain hrd | ⟨_, _, hrd⟩ := mem_keys_andThen.1 hrd
            · exact mem_collectEach hname (ih (by omega) hrd)
            · cases hrd
          | overlay relative =>
            have hname := loader.importNames_complete _ _ _ _ _ hdoc relative (.inr hspec)
            obtain hrd | ⟨_, _, hrd⟩ := mem_keys_andThen.1 hrd
            · exact mem_collectEach hname (.inl (mem_keys_readOverlay hrd))
            · cases hrd
          | preset => cases hrd

end Pooler.ConfigLoader
