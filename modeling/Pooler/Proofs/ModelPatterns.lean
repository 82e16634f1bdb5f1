import Pooler.Spec.Catalog.Source

/-! # What include and exclude patterns match

`wildcard_matches` compares the bytes before it looks for a star, so a star of the id uses up the pattern's. -/

namespace Pooler.Catalog

open List

/-- `value` is `pattern` with every star replaced by some bytes: a star stands for the first `n` of what is left. -/
def Filled : List UInt8 → List UInt8 → Prop
  | [], value => value = []
  | c :: pattern, value =>
    if c = '*'.toUInt8 then ∃ n, Filled pattern (value.drop n) else ∃ rest, value = c :: rest ∧ Filled pattern rest

theorem filled_nil {pattern} : Filled pattern [] ↔ pattern.dropWhile (· == '*'.toUInt8) = [] := by
  induction pattern with
  | nil => simp [Filled]
  | cons c pattern ih => by_cases h : c = '*'.toUInt8 <;> simp [Filled, h, ih]

namespace WildcardCursor

/-- What is left of the value is what is left of the pattern, filled. -/
def Fits (pattern value : List UInt8) (i j : ℕ) : Prop := Filled (pattern.drop i) (value.drop j)

/-- The last star can still be made longer. -/
def Later (pattern value : List UInt8) (c : WildcardCursor) : Prop :=
  ∃ star, c.starIndex = some star ∧ ∃ k > c.starValueIndex, Fits pattern value (star + 1) k

variable {pattern value : List UInt8} {i j : ℕ}

theorem drop_of_getElem? {l : List UInt8} {c} (h : l[i]? = some c) : l.drop i = c :: l.drop (i + 1) := by
  obtain ⟨hlt, rfl⟩ := List.getElem?_eq_some_iff.1 h
  exact drop_eq_getElem_cons hlt

theorem fits_star (h : pattern[i]? = some '*'.toUInt8) : Fits pattern value i j ↔ ∃ k ≥ j, Fits pattern value (i + 1) k := by
  rw [Fits, drop_of_getElem? h, Filled, if_pos rfl]
  simp only [drop_drop]
  exact ⟨fun ⟨n, hn⟩ => ⟨j + n, by omega, hn⟩, fun ⟨k, hk, hn⟩ => ⟨k - j, by rwa [Nat.add_sub_cancel' hk]⟩⟩

theorem fits_char {c} (h : pattern[i]? = some c) (hc : c ≠ '*'.toUInt8) :
    Fits pattern value i j ↔ value[j]? = some c ∧ Fits pattern value (i + 1) (j + 1) := by
  rw [Fits, drop_of_getElem? h, Filled, if_neg hc]
  constructor
  · rintro ⟨rest, heq, hfit⟩
    have hdrop : value.drop (j + 1) = rest := by rw [← drop_drop, heq]; rfl
    exact ⟨by rw [← head?_drop, heq]; rfl, by rwa [Fits, hdrop]⟩
  · rintro ⟨hv, hfit⟩
    exact ⟨_, drop_of_getElem? hv, hfit⟩

theorem fits_end (hj : value.length ≤ j) :
    Fits pattern value i j ↔ (pattern.drop i).dropWhile (· == '*'.toUInt8) = [] := by
  rw [← filled_nil, Fits, drop_eq_nil_of_le hj]

/-- A byte that is not a star and not the next one of the value. -/
theorem not_fits (hj : j < value.length) (hne : pattern[i]? ≠ value[j]?) (hs : pattern[i]? ≠ some '*'.toUInt8) :
    ¬Fits pattern value i j := by
  intro h
  cases hp : pattern[i]? with
  | none =>
    rw [Fits, drop_eq_nil_of_le (getElem?_eq_none_iff.1 hp)] at h
    exact hj.not_ge (drop_eq_nil_iff.1 h)
  | some c => exact hne (hp.trans ((fits_char hp fun hc => hs (hp.trans (congrArg some hc))).1 h).1.symm)

/-- The loop ends before nothing but stars exactly when the rest fits here or behind a longer last star. The hypothesis
keeps the greedy choice complete: where the last star can grow, the bytes compared since then fit further on. -/
theorem loop_iff (hval : '*'.toUInt8 ∉ value) (c : WildcardCursor)
    (hlat : Later pattern value c → ∃ k ≥ c.valueIndex, Fits pattern value c.patternIndex k) :
    (∃ n, c.loop pattern value = some n ∧ (pattern.drop n).dropWhile (· == '*'.toUInt8) = []) ↔
      Fits pattern value c.patternIndex c.valueIndex ∨ Later pattern value c := by
  fun_induction loop pattern value c with
  | case1 c hlt heq ih =>
    have hv := getElem?_eq_getElem hlt
    have step (k) := @fits_char _ value _ k _ (heq.trans hv) fun hc => hval (hc ▸ getElem_mem hlt)
    refine (ih fun h => ?_).trans (or_congr_left ((step _).trans (and_iff_right hv)).symm)
    obtain ⟨k, hk, hfit⟩ := hlat h
    exact ⟨k + 1, Nat.succ_le_succ hk, ((step k).1 hfit).2⟩
  | case2 c hlt hne hstar ih =>
    have last : Later pattern value c.openStar ↔ ∃ k > c.valueIndex, Fits pattern value (c.patternIndex + 1) k := by
      simp [Later, openStar]
    have here (h : Later pattern value c) : Fits pattern value c.patternIndex c.valueIndex := by
      obtain ⟨k, hk, hfit⟩ := hlat h
      obtain ⟨m, hm, hfit⟩ := (fits_star hstar).1 hfit
      exact (fits_star hstar).2 ⟨m, hk.trans hm, hfit⟩
    rw [or_iff_left_of_imp here, ih fun h => (last.1 h).imp fun k hk => ⟨hk.1.le, hk.2⟩, last, fits_star hstar]
    simp only [openStar]
    grind
  | case3 c hlt hne hstar star hs ih =>
    have last : Later pattern value (c.retry star) ↔ ∃ k > c.starValueIndex + 1, Fits pattern value (star + 1) k := by
      simp [Later, retry]
    rw [ih fun h => (last.1 h).imp fun k hk => ⟨hk.1.le, hk.2⟩, last, or_iff_right (not_fits hlt hne hstar)]
    simp only [Later, hs, retry]
    grind
  | case4 c hlt hne hstar hs => simp [Later, hs, not_fits hlt hne hstar]
  | case5 c hlt =>
    have hend := Nat.le_of_not_lt hlt
    rw [or_iff_left_of_imp, fits_end hend]
    · simp
    · intro h
      obtain ⟨k, hk, hfit⟩ := hlat h
      exact (fits_end hend).2 ((fits_end (hend.trans hk)).1 hfit)

end WildcardCursor

end Pooler.Catalog
