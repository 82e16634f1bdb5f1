import Mathlib

/-! Text as a list of characters: cutting at a separator, stripping, trimming, and patterns that
match piece by piece. -/

namespace Pooler.Lib

open List Option

variable {α : Type*}

/-- Drops the elements that meet `p` at both ends. -/
def trimBy (p : α → Bool) (l : List α) : List α := ((l.dropWhile p).reverse.dropWhile p).reverse

theorem trimBy_eq_self {p} {l : List α} (h : ∀ x ∈ l, p x = false) : trimBy p l = l := by
  have hdrop : ∀ l : List α, (∀ x ∈ l, p x = false) → l.dropWhile p = l := by
    intro l hl
    cases l with
    | nil => rfl
    | cons x => rw [dropWhile_cons_of_neg]; simp [hl x mem_cons_self]
  rw [trimBy, hdrop l h, hdrop l.reverse (fun x hx => h x (mem_reverse.1 hx)), reverse_reverse]

/-- Two lists of patterns have a common list of values exactly when they have a common value at
every place. -/
theorem forall₂_common_iff {β γ : Type*} {r s} {q : γ → Prop} {as : List α} {bs : List β} :
    Forall₂ (fun a b => ∃ c, q c ∧ r a c ∧ s b c) as bs ↔
      ∃ cs, (∀ c ∈ cs, q c) ∧ Forall₂ r as cs ∧ Forall₂ s bs cs := by
  constructor
  · intro h
    induction h with
    | nil => exact ⟨[], nofun, .nil, .nil⟩
    | cons hab _ ih =>
      obtain ⟨c, hq, hr, hs⟩ := hab
      obtain ⟨cs, hqs, hrs, hss⟩ := ih
      refine ⟨c :: cs, ?_, .cons hr hrs, .cons hs hss⟩
      intro x hx
      rcases mem_cons.1 hx with rfl | hx
      · exact hq
      · exact hqs x hx
  · rintro ⟨cs, hq, hr, hs⟩
    induction hr generalizing bs with
    | nil => cases hs; exact .nil
    | cons hac _ ih =>
      cases hs with
      | cons hbc hbs =>
        exact .cons ⟨_, hq _ mem_cons_self, hac, hbc⟩ (ih (fun c hc => hq c (mem_cons_of_mem _ hc)) hbs)

theorem forall₂_congr_mem {β : Type*} {r s} {as : List α} {bs : List β}
    (h : ∀ a ∈ as, ∀ b ∈ bs, (r a b ↔ s a b)) : Forall₂ r as bs ↔ Forall₂ s as bs := by
  rw [forall₂_iff_zip, forall₂_iff_zip]
  refine and_congr_right fun _ => forall₂_congr fun a b => forall_congr' fun hab => ?_
  exact h a (of_mem_zip hab).1 b (of_mem_zip hab).2

theorem mem_intercalate {c x : α} {pieces} (h : x ∈ [c].intercalate pieces) : x = c ∨ ∃ piece ∈ pieces, x ∈ piece := by
  induction pieces with
  | nil => cases h
  | cons p ps ih =>
    cases ps with
    | nil => exact .inr ⟨p, mem_cons_self, by simpa using h⟩
    | cons =>
      rw [intercalate_cons_cons, mem_append, mem_append, mem_singleton] at h
      rcases h with (h | h) | h
      · exact .inr ⟨p, mem_cons_self, h⟩
      · exact .inl h
      · exact (ih h).imp_right fun ⟨piece, hp, hx⟩ => ⟨piece, mem_cons_of_mem _ hp, hx⟩

variable [DecidableEq α]

/-- What stands before and after the first `c`. -/
def splitOnce (c : α) : List α → Option (List α × List α)
  | [] => none
  | x :: xs => if x = c then some ([], xs) else (splitOnce c xs).map (fun p => (x :: p.1, p.2))

theorem splitOnce_eq_some {c : α} : ∀ {l a b}, splitOnce c l = some (a, b) ↔ l = a ++ c :: b ∧ c ∉ a := by
  intro l
  induction l with
  | nil => intro a b; simp [splitOnce]
  | cons x xs ih =>
    intro a b
    rw [splitOnce]
    by_cases hx : x = c
    · subst hx
      rw [if_pos rfl]
      constructor
      · intro h
        cases h
        exact ⟨rfl, not_mem_nil⟩
      · rintro ⟨h, hc⟩
        cases a with
        | nil => simp only [nil_append, cons.injEq, true_and] at h; rw [h]
        | cons =>
          simp only [cons_append, cons.injEq] at h
          exact absurd (h.1 ▸ mem_cons_self) hc
    · rw [if_neg hx, map_eq_some_iff]
      constructor
      · rintro ⟨⟨a', b'⟩, h, he⟩
        cases he
        obtain ⟨rfl, hc⟩ := ih.1 h
        exact ⟨rfl, by simp [Ne.symm hx, hc]⟩
      · rintro ⟨h, hc⟩
        cases a with
        | nil => simp only [nil_append, cons.injEq] at h; exact absurd h.1 hx
        | cons y ys =>
          simp only [cons_append, cons.injEq] at h
          obtain ⟨rfl, rfl⟩ := h
          exact ⟨(ys, b), ih.2 ⟨rfl, fun hm => hc (mem_cons_of_mem _ hm)⟩, rfl⟩

/-- What stands before a first separator is settled by the text. -/
theorem eq_of_append_cons_eq {c : α} {a b s t} (ha : c ∉ a) (hb : c ∉ b) (h : a ++ c :: s = b ++ c :: t) : a = b := by
  have hspl := splitOnce_eq_some.2 ⟨h, hb⟩
  rw [splitOnce_eq_some.2 ⟨rfl, ha⟩] at hspl
  exact (Prod.mk.inj (some.inj hspl)).1

/-- The halves around the last separator. -/
def rsplitOnce (c : α) (l : List α) : Option (List α × List α) :=
  (splitOnce c l.reverse).map fun halves => (halves.2.reverse, halves.1.reverse)

theorem rsplitOnce_eq_some {c : α} {l a b : List α} : rsplitOnce c l = some (a, b) ↔ l = a ++ c :: b ∧ c ∉ b := by
  simp only [rsplitOnce, Option.map_eq_some_iff, Prod.exists, splitOnce_eq_some, Prod.mk.injEq]
  constructor
  · rintro ⟨x, y, ⟨h, hx⟩, rfl, rfl⟩
    exact ⟨by simpa using congrArg reverse h, by simpa using hx⟩
  · rintro ⟨rfl, hb⟩
    exact ⟨b.reverse, a.reverse, ⟨by simp, by simpa using hb⟩, by simp, by simp⟩

/-- What follows a known start. -/
def stripPrefix (start l : List α) : Option (List α) := if start.isPrefixOf l then some (l.drop start.length) else none

/-- What stands before a known end. -/
def stripSuffix (ending l : List α) : Option (List α) :=
  if ending.isSuffixOf l then some (l.take (l.length - ending.length)) else none

theorem stripPrefix_eq_some {start l rest : List α} : stripPrefix start l = some rest ↔ l = start ++ rest := by
  unfold stripPrefix
  constructor
  · intro h
    split_ifs at h with hp
    obtain ⟨t, rfl⟩ := isPrefixOf_iff_prefix.1 hp
    cases h
    simp
  · rintro rfl
    rw [if_pos (List.isPrefixOf_iff_prefix.2 (prefix_append _ _))]
    simp

theorem stripSuffix_eq_some {ending l rest : List α} : stripSuffix ending l = some rest ↔ l = rest ++ ending := by
  unfold stripSuffix
  constructor
  · intro h
    split_ifs at h with hs
    obtain ⟨t, rfl⟩ := isSuffixOf_iff_suffix.1 hs
    cases h
    simp
  · rintro rfl
    rw [if_pos (isSuffixOf_iff_suffix.2 (suffix_append _ _))]
    simp

/-- What stands before and after the first place where the separator stands. -/
def splitOnceAt (separator : List α) : List α → Option (List α × List α)
  | [] => none
  | x :: xs =>
    match stripPrefix separator (x :: xs) with
    | some rest => some ([], rest)
    | none => (splitOnceAt separator xs).map fun p => (x :: p.1, p.2)

theorem eq_of_splitOnceAt {separator} : ∀ {l a b : List α}, splitOnceAt separator l = some (a, b) →
    l = a ++ separator ++ b := by
  intro l
  induction l with
  | nil => nofun
  | cons x xs ih =>
    intro a b h
    rw [splitOnceAt] at h
    split at h
    next hrest =>
      cases h
      exact stripPrefix_eq_some.1 hrest
    · obtain ⟨⟨a', b'⟩, hp, heq⟩ := map_eq_some_iff.1 h
      cases heq
      rw [ih hp]
      simp

/-- The text without the pattern at its start, however often it stands there. -/
def trimStartMatches (pattern : List α) : ℕ → List α → List α
  | 0, l => l
  | fuel + 1, l =>
    match stripPrefix pattern l with
    | some rest => trimStartMatches pattern fuel rest
    | none => l

/-- The pieces between separators hold none. -/
theorem not_mem_of_mem_splitOn {c : α} {l piece : List α} (h : piece ∈ l.splitOn c) : c ∉ piece := by
  induction l generalizing piece with
  | nil =>
    simp only [splitOn_nil, mem_singleton] at h
    rw [h]
    exact not_mem_nil
  | cons x xs ih =>
    rw [splitOn_cons_eq_if_modifyHead] at h
    split_ifs at h with hx
    · rcases mem_cons.1 h with rfl | h
      · exact not_mem_nil
      · exact ih h
    · cases hs : xs.splitOn c with
      | nil => exact absurd hs (splitOn_ne_nil _ _)
      | cons y =>
        rw [hs, modifyHead_cons] at h
        rcases mem_cons.1 h with rfl | h
        · have hy : c ∉ y := ih (hs ▸ mem_cons_self)
          simp only [beq_iff_eq] at hx
          simp [Ne.symm hx, hy]
        · exact ih (hs ▸ mem_cons_of_mem _ h)

/-- The pieces hold only characters of the text. -/
theorem mem_of_mem_splitOn {c x : α} {l piece : List α} (h : piece ∈ l.splitOn c) (hx : x ∈ piece) : x ∈ l := by
  have hjoin : [c].intercalate (l.splitOn c) = l := intercalate_splitOn c
  rw [← hjoin]
  generalize l.splitOn c = pieces at h
  induction pieces with
  | nil => cases h
  | cons p ps ih =>
    cases ps with
    | nil =>
      rw [mem_singleton] at h
      rw [← h]
      simpa using hx
    | cons =>
      rw [intercalate_cons_cons]
      rcases mem_cons.1 h with rfl | h
      · simp [hx]
      · simp [ih h]

end Pooler.Lib
