import Pooler.Spec.Protocol.Pointer

/-! The configuration and the patches read the same pointers. -/

namespace Pooler

open Lib List

/-- The escapes of a token are good. -/
def decodes (token : Text) : Bool := (decodePointerToken token).isSome

theorem decodes_cons {c} (hc : c ≠ '~') (token : Text) : decodes (c :: token) = decodes token := by
  rw [decodes, decodePointerToken, Option.isSome_map, decodes] <;> simp [hc]

theorem decodes_escape (c : Char) (token : Text) : decodes ('~' :: c :: token) = ((c = '0' || c = '1') && decodes token) := by
  by_cases h0 : c = '0'
  · simp [h0, decodes, decodePointerToken]
  by_cases h1 : c = '1'
  · simp [h1, decodes, decodePointerToken]
  · rw [decodes, decodePointerToken] <;> simp [h0, h1]

/-- The scan over the whole text agrees with the tokens between the slashes, also after a tilde. -/
theorem validEscapes_eq_decodes (text : Text) : ∀ {first others},
    text.splitOn '/' = first :: others → validEscapes false text = (decodes first && others.all decodes) ∧
      validEscapes true text = (decodes ('~' :: first) && others.all decodes) := by
  induction text with
  | nil =>
    intro first others h
    cases h
    decide
  | cons c rest ih =>
    intro first others h
    obtain ⟨next, later, hr⟩ := exists_cons_of_ne_nil (splitOn_ne_nil '/' rest)
    obtain ⟨hplain, hesc⟩ := ih hr
    rw [splitOn_cons_eq_if_modifyHead, hr] at h
    rw [validEscapes, validEscapes]
    by_cases hslash : c = '/'
    · subst hslash
      cases h
      exact ⟨hplain, rfl⟩
    · rw [if_neg (by simpa using hslash), modifyHead_cons] at h
      cases h
      rw [decodes_escape, Bool.and_assoc, hplain]
      refine ⟨?_, rfl⟩
      by_cases htil : c = '~'
      · simpa [htil] using hesc
      · rw [decide_eq_false htil, decodes_cons htil, hplain]

theorem length_mapM {α β : Type} (f : α → Option β) (l : List α) :
    (l.mapM f).map List.length = if l.all (fun a => (f a).isSome) then some l.length else none := by
  induction l with
  | nil => rfl
  | cons a l =>
    rw [mapM_cons, all_cons]
    cases f a with
    | none => rfl
    | some => cases htail : l.mapM f <;> simp_all

/-- A pointer has a token for each of its slashes, if it starts with one and its escapes are good. -/
theorem length_parsePointer (pointer : Text) : (parsePointer pointer).toOption.map List.length =
    if (pointer = [] ∨ pointer.head? = some '/') ∧ validEscapes false (pointer.drop 1) then
      some ((pointer.splitOn '/').drop 1).length else none := by
  unfold parsePointer
  split
  · rfl
  next rest =>
    obtain ⟨first, others, hr⟩ := exists_cons_of_ne_nil (splitOn_ne_nil '/' rest)
    have hlen := length_mapM decodePointerToken (rest.splitOn '/')
    have hdep : ('/' :: rest).splitOn '/' = [] :: rest.splitOn '/' := by
      rw [splitOn_cons_eq_if_modifyHead]
      rfl
    rw [hdep]
    simp only [head?_cons, or_true, true_and, drop_one, tail_cons, (validEscapes_eq_decodes rest hr).1]
    rw [hr] at hlen ⊢
    refine Eq.trans ?_ hlen
    cases (first :: others).mapM decodePointerToken <;> rfl
  next hnil hslash =>
    rw [if_neg]
    · rfl
    · rintro ⟨rfl | hhead, -⟩
      · exact hnil rfl
      · obtain ⟨rest, rfl⟩ := head?_eq_some_iff.1 hhead
        exact hslash rest rfl

theorem isOk_guard {ε α : Type} {p : Prop} [Decidable p] {error : ε} {next : Except ε α} :
    (if p then .error error else next).isOk = true ↔ ¬p ∧ next.isOk = true := by
  split_ifs with hp <;> simp [hp, Except.isOk, Except.toBool]

/-- A patch takes a pointer exactly when the configuration does and the value is not too large. -/
theorem pointers_agree [Platform] (pointer : Text) (value : Json) : (validatePatch pointer value {}).isOk = true ↔
    (validateJsonPointer pointer).isOk = true ∧ (toVec value).length ≤ ({} : JsonPatchLimits).maxValueBytes := by
  have hlen := length_parsePointer pointer
  have hst : ¬(pointer ≠ [] ∧ pointer.head? ≠ some '/') ↔ pointer = [] ∨ pointer.head? = some '/' := by tauto
  unfold validatePatch validateJsonPointer
  simp only [isOk_guard, not_or, and_assoc, hst, Bool.not_eq_false, gt_iff_lt, not_lt]
  refine and_congr_right fun _ => ?_
  cases htok : parsePointer pointer with
  | error =>
    refine iff_of_false nofun ?_
    rintro ⟨hhead, -, hescap, -⟩
    rw [if_pos ⟨hhead, hescap⟩, htok] at hlen
    cases hlen
  | ok =>
    rw [htok] at hlen
    split_ifs at hlen with hgood
    · change Except.isOk (if _ then _ else _) = true ↔ _
      simp only [isOk_guard, not_lt, Option.some.inj hlen]
      exact ⟨fun ⟨hdep, hsize, _⟩ => ⟨hgood.1, hdep, hgood.2, rfl, hsize⟩,
        fun ⟨_, hdep, _, _, hsize⟩ => ⟨hdep, hsize, rfl⟩⟩
    · cases hlen

end Pooler
