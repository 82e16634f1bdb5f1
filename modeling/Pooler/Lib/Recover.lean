import Pooler.Lib.Journal

/-! Reading back what was written. Items written one by one are recovered one by one, and a list of two
kinds of items that are written apart is recovered when the second kind stands at the end. -/

namespace Pooler.Lib

open List

namespace Journal

variable {ν ε α β : Type}

/-- The program returns something that meets the condition. -/
def Recovers (p : Journal ν ε α) (same : α → Prop) : Prop := ∃ a, Returns (fun _ => True) p a ∧ same a

theorem Returns.recovers_iff {p : Journal ν ε α} {a : α} (h : Returns (fun _ => True) p a) {same} :
    Recovers p same ↔ same a :=
  ⟨fun ⟨_, hb, hs⟩ => h.unique hb ▸ hs, fun hs => ⟨a, h, hs⟩⟩

theorem recovers_pure {a : α} {same} : Recovers (pure a : Journal ν ε α) same ↔ same a := by
  simp [Recovers]

theorem recovers_map {p : Journal ν ε α} {f} {same : β → Prop} :
    Recovers (f <$> p) same ↔ Recovers p fun a => same (f a) := by
  simp [Recovers]

/-- Items that are written one by one are recovered exactly when each of them is. The reader may use
the place of an item, and it only sees items that fit. -/
theorem recovers_mapM {ι : Type} {wrote} {fits : ι → Prop} {read : ℕ → ι → Journal ν ε β}
    {same} {good : α → Prop} {as} {items : List ι} (hwr : Forall₂ wrote as items)
    (h : ∀ n a i, wrote a i → (fits i ∧ Recovers (read n i) (same a) ↔ good a)) :
    (∀ i ∈ items, fits i) ∧ Recovers (items.zipIdx.mapM fun i => read i.2 i.1) (Forall₂ same as) ↔
      ∀ a ∈ as, good a := by
  suffices ∀ n, (∀ i ∈ items, fits i) ∧
      Recovers ((items.zipIdx n).mapM fun i => read i.2 i.1) (Forall₂ same as) ↔ ∀ a ∈ as, good a from this 0
  -- The items behind the first one start at the next place.
  induction hwr with
  | nil => simp [Recovers]
  | cons hfst hr ih =>
    intro n
    rw [forall_mem_cons, forall_mem_cons, ← ih (n + 1), ← h n _ _ hfst, zipIdx_cons, mapM_cons]
    simp only [Recovers, returns_bind, returns_pure]
    constructor
    · rintro ⟨⟨hf, hfitsRest⟩, _, ⟨b, hb, bs, hbs, rfl⟩, hs⟩
      obtain ⟨hsameFirst, hsameRest⟩ := forall₂_cons.1 hs
      exact ⟨⟨hf, b, hb, hsameFirst⟩, hfitsRest, bs, hbs, hsameRest⟩
    · rintro ⟨⟨hf, b, hb, hsameFirst⟩, hfitsRest, bs, hbs, hsameRest⟩
      exact ⟨⟨hf, hfitsRest⟩, b :: bs, ⟨b, hb, bs, hbs, rfl⟩, .cons hsameFirst hsameRest⟩

theorem exists_of_mem_mapM {ok} {f : ℕ → α → Journal ν ε β} {items : List α} {bs} {b : β}
    (h : Returns ok (items.zipIdx.mapM fun i => f i.2 i.1) bs) (hb : b ∈ bs) :
    ∃ i ∈ items, ∃ n, Returns ok (f n i) b := by
  obtain ⟨hlen, hzip⟩ := forall₂_iff_zip.1 (returns_mapM.1 h)
  obtain ⟨n, hn, rfl⟩ := mem_iff_getElem.1 hb
  have hplace : n < items.zipIdx.length := hlen ▸ hn
  refine ⟨(items.zipIdx[n]).1, fst_mem_of_mem_zipIdx (getElem_mem hplace), (items.zipIdx[n]).2, ?_⟩
  exact hzip (mem_iff_getElem.2 ⟨n, by simpa using ⟨by simpa using hplace, hn⟩, getElem_zip⟩)

end Journal

/-! ### Two kinds of items -/

section Kinds

variable {α β : Type*} {r : α → β → Prop} {p : α → Bool} {q : β → Bool} {as : List α}

theorem filter_append_filter (h : as.Pairwise fun a b => p a = true → p b = true) :
    as.filter (fun a => !p a) ++ as.filter p = as := by
  induction as with
  | nil => rfl
  | cons a as ih =>
    obtain ⟨hfst, hr⟩ := pairwise_cons.1 h
    cases hp : p a with
    | false => rw [filter_cons_of_pos (by simp [hp]), filter_cons_of_neg (by simp [hp]), cons_append, ih hr]
    | true =>
      have hnone : as.filter (fun a => !p a) = [] := filter_eq_nil_iff.2 fun b hb => by simp [hfst b hb hp]
      have hall : as.filter p = as := filter_eq_self.2 fun b hb => hfst b hb hp
      rw [filter_cons_of_neg (by simp [hp]), filter_cons_of_pos hp, hnone, hall, nil_append]

theorem forall_right_of_forall₂ {s : β → Prop} (h : ∀ a b, r a b → s b) {bs}
    (hrel : Forall₂ r as bs) : ∀ b ∈ bs, s b := by
  induction hrel with
  | nil => nofun
  | cons hab _ ih => exact forall_mem_cons.2 ⟨h _ _ hab, ih⟩

theorem forall_kind_of_forall₂ (hk : ∀ a b, r a b → p a = q b) {kind bs}
    (h : Forall₂ r as bs) (hb : ∀ b ∈ bs, q b = kind) : ∀ a ∈ as, p a = kind := by
  induction h with
  | nil => nofun
  | cons hab _ ih =>
    obtain ⟨hfst, hr⟩ := forall_mem_cons.1 hb
    exact forall_mem_cons.2 ⟨(hk _ _ hab).trans hfst, ih hr⟩

/-- The items of a list are as in two lists, one behind the other, when the items of the second kind
stand at the end. -/
theorem forall₂_append_iff (hk : ∀ a b, r a b → p a = q b) {xs ys}
    (hx : ∀ x ∈ xs, q x = false) (hy : ∀ y ∈ ys, q y = true) :
    Forall₂ r as (xs ++ ys) ↔ (as.Pairwise fun a b => p a = true → p b = true) ∧
      Forall₂ r (as.filter fun a => !p a) xs ∧ Forall₂ r (as.filter p) ys := by
  constructor
  · intro h
    obtain ⟨front, back, hfront, hback, rfl⟩ : ∃ front back, Forall₂ r front xs ∧ Forall₂ r back ys ∧
        as = front ++ back :=
      ⟨_, _, forall₂_take_append as xs ys h, forall₂_drop_append as xs ys h, (take_append_drop _ as).symm⟩
    have hp := forall_kind_of_forall₂ hk hfront hx
    have hq := forall_kind_of_forall₂ hk hback hy
    have hkeepFront : (front ++ back).filter (fun a => !p a) = front := by
      rw [filter_append, filter_eq_self.2 fun a ha => by simp [hp a ha],
        filter_eq_nil_iff.2 fun a ha => by simp [hq a ha], append_nil]
    have hkeepBack : (front ++ back).filter p = back := by
      rw [filter_append, filter_eq_nil_iff.2 fun a ha => by simp [hp a ha],
        filter_eq_self.2 fun a ha => by simp [hq a ha], nil_append]
    rw [hkeepFront, hkeepBack]
    refine ⟨?_, hfront, hback⟩
    refine pairwise_append.2 ⟨?_, ?_, fun a ha b hb _ => hq b hb⟩
    · exact pairwise_of_forall_mem_list fun a ha b hb hpa => absurd hpa (by simp [hp a ha])
    · exact pairwise_of_forall_mem_list fun a ha b hb _ => hq b hb
  · rintro ⟨hpair, hfront, hback⟩
    rw [← filter_append_filter hpair]
    exact rel_append hfront hback

end Kinds

end Pooler.Lib
