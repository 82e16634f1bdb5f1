import Pooler.Sanity.Redaction

/-! Which marked values the redaction of texts hides. A bare key is recognised whatever surrounds its
value. A key in quotes is not: its closing quote stands where the scanner looks for a separator. -/

namespace Pooler

open Lib List Nat Option Bool

/-! ### What is copied -/

/-- The sanitized text with the position each character was copied from, if it was copied. -/
def RedactionPolicy.origins (policy : RedactionPolicy) (text : Text) : List (Char × Option ℕ) :=
  truncate policy.maxStringLength (truncated.map (·, none))
    (replaceSpans (text.zipIdx.map (fun entry => (entry.1, some entry.2))) (sensitiveRanges text)
      (policy.placeholder.toList.map (·, none)))

theorem RedactionPolicy.map_origins (pol : RedactionPolicy) (text : Text) :
    (pol.origins text).map Prod.fst = pol.sanitizeText text := by
  have hmark : ∀ mark : Text, (mark.map ((·, (none : Option ℕ)))).map Prod.fst = mark := by
    intro mark
    rw [List.map_map]
    exact map_id _
  have htext : (text.zipIdx.map (fun entry => (entry.1, some entry.2))).map Prod.fst = text := by
    rw [List.map_map]
    exact zipIdx_map_fst 0 text
  rw [origins, sanitizeText, map_truncate, replaceSpans, map_replaceFrom, hmark, hmark, htext, replaceSpans]

theorem RedactionPolicy.not_mem_origins {pol : RedactionPolicy} {text} {i : ℕ}
    (h : Covers (sensitiveRanges text) i) (c : Char) : (c, some i) ∉ pol.origins text := by
  intro hmem
  have hmark : ∀ mark : Text, (c, some i) ∉ mark.map ((·, (none : Option ℕ))) := by simp
  rcases mem_of_mem_truncate hmem with hmem | hmem
  · rcases mem_replaceFrom (mergeSpans_sorted _) hmem with hmem | ⟨j, -, hj, hout⟩
    · exact hmark _ hmem
    · rw [List.getElem?_map, List.getElem?_zipIdx, Option.map_map, Option.map_eq_some_iff] at hj
      obtain ⟨d, -, hd⟩ := hj
      simp only [Function.comp_apply, Prod.mk.injEq, some.injEq] at hd
      rw [zero_add] at hd
      exact hout (hd.2 ▸ h)
  · exact hmark _ hmem

namespace Marked

variable {marker : Text} {keyQuoting valueQuoting : Quoting}

/-- The whole value lies in spans that are replaced, and no policy copies any of it. -/
def Hidden (m : Marked marker keyQuoting valueQuoting) : Prop :=
  ∀ i, m.start ≤ i → i < m.start + m.value.length →
    Covers (sensitiveRanges m.text) i ∧ ∀ (policy : RedactionPolicy) (c : Char), (c, some i) ∉ policy.origins m.text

theorem hidden_of_marked {m : Marked marker keyQuoting valueQuoting}
    (h : ∃ span ∈ markedValueRanges m.text, span.1 ≤ m.start ∧ m.start + m.value.length ≤ span.2) : m.Hidden := by
  intro i hst hstop
  obtain ⟨span, hspan, hlow, hhigh⟩ := h
  have hmarked : Covers (markedValueRanges m.text) i := ⟨span, hspan, by omega, by omega⟩
  have hcovers : Covers (sensitiveRanges m.text) i :=
    (mergeSpans_covers _ i).2 (hmarked.mono (by simp))
  exact ⟨hcovers, fun pol c => RedactionPolicy.not_mem_origins hcovers c⟩

/-- The shortest text with such a key and the value `x`. -/
def sample (marker : Text) (keyQuoting valueQuoting : Quoting) (h : lowercase marker = marker) :
    Marked marker keyQuoting valueQuoting where
  before := []
  key := marker
  gap := []
  separator := ':'
  gap' := []
  value := ['x']
  after := []
  key_eq := h
  boundary := nofun
  gap_blank := nofun
  separates := rfl
  gap'_blank := nofun
  value_ne := nofun
  value_token := fun _ c hc => mem_singleton.1 hc ▸ rfl
  value_plain := fun _ c hc => mem_singleton.1 hc ▸ ⟨rfl, by decide⟩

theorem not_standsAt_tail {word} (hword : ∀ c ∈ word, isIdentifier c = true) (hlen : 2 ≤ word.length)
    (quoting : Quoting) (p : ℕ) : ¬StandsAt word (':' :: quoting.wrap ['x']) p := by
  intro h
  obtain ⟨c, hc, hg⟩ := h.getElem?_mem (i := p) le_rfl (by omega)
  obtain ⟨d, hd, hg'⟩ := h.getElem?_mem (i := p + 1) (by omega) (by omega)
  have hfst := hword c hc
  have hsec := hword d hd
  rcases p with _ | _ | _ | p <;> cases quoting <;> simp [Quoting.wrap, Quoting.mark] at hg hg' <;>
    subst hg hg' <;> revert hfst hsec <;> decide

/-- The text of a sample whose key is in quotes. -/
def sampleText (marker : Text) (quote : Char) (quoting : Quoting) : Text :=
  quote :: (marker ++ quote :: ':' :: quoting.wrap ['x'])

theorem within_key {word marker quote quoting} {p : ℕ}
    (hword : ∀ c ∈ word, isIdentifier c = true) (hlen : 2 ≤ word.length) (hquo : isQuote quote = true)
    (h : StandsAt word (sampleText marker quote quoting) p) : 1 ≤ p ∧ p + word.length ≤ 1 + marker.length := by
  have hout : ∀ i, (sampleText marker quote quoting)[i]? = some quote →
      p ≤ i → i < p + word.length → False := by
    intro i hi hle hlt
    obtain ⟨c, hc, hg⟩ := h.getElem?_mem hle hlt
    rw [hi] at hg
    cases hg
    have := hword quote hc
    rw [(isQuote_plain hquo).2.1] at this
    cases this
  have hfst : ¬(p ≤ 0 ∧ 0 < p + word.length) := fun h => hout 0 rfl h.1 h.2
  have hsec : ¬(p ≤ 1 + marker.length ∧ 1 + marker.length < p + word.length) :=
    fun h => hout _ (by rw [add_comm]; simp [sampleText]) h.1 h.2
  by_contra hnot
  have haft : 2 + marker.length ≤ p := by omega
  apply not_standsAt_tail hword hlen quoting (p - (2 + marker.length))
  have hdrop : (sampleText marker quote quoting).drop p =
      (':' :: quoting.wrap ['x']).drop (p - (2 + marker.length)) := by
    have heq : sampleText marker quote quoting = (quote :: marker ++ [quote]) ++ ':' :: quoting.wrap ['x'] := by
      simp [sampleText]
    have hkey : (quote :: marker ++ [quote]).length = 2 + marker.length := by simp; omega
    rw [heq, drop_append, hkey, drop_eq_nil_of_le (by omega), nil_append]
  rw [StandsAt, ← hdrop]
  exact h

section Sample

variable {marker : Text} {quote : Char} {quoting : Quoting}

theorem getElem?_key {i : ℕ} (hpos : 1 ≤ i) (hle : i ≤ marker.length) :
    (sampleText marker quote quoting)[i]? = marker[i - 1]? := by
  rw [sampleText, getElem?_cons, if_neg (by omega), getElem?_append_left (by omega)]

theorem prefix_key {word} {p : ℕ} (hmar : ∀ c ∈ marker, isIdentifier c = true)
    (hword : ∀ c ∈ word, isIdentifier c = true) (hlen : 2 ≤ word.length) (hquo : isQuote quote = true)
    (h : StandsAt word (sampleText marker quote quoting) p)
    (hbef : (sampleText marker quote quoting)[p - 1]?.any isIdentifier = false) : p = 1 ∧ word <+: marker := by
  obtain ⟨hpos, hend⟩ := within_key hword hlen hquo h
  have hp : p = 1 := by
    by_contra hne
    have hin : p - 1 - 1 < marker.length := by omega
    rw [getElem?_key (by omega) (by omega), getElem?_eq_getElem hin, any_some, hmar _ (getElem_mem hin)] at hbef
    cases hbef
  subst hp
  exact ⟨rfl, prefix_of_prefix_length_le h (prefix_append _ _) (by omega)⟩

theorem known_not_prefix : ∀ known ∈ "eyJ".toList :: knownTokenPrefixes, 2 ≤ known.length ∧
    (∀ c ∈ known, isIdentifier c = true) ∧ ∀ marker ∈ sensitiveMarkers, ¬known <+: marker := by
  have hall : ("eyJ".toList :: knownTokenPrefixes).all (fun known => 2 ≤ known.length && known.all isIdentifier &&
      sensitiveMarkers.all (fun marker => !known.isPrefixOf marker)) = true := by decide +kernel
  intro known hkn
  have := List.all_eq_true.1 hall known hkn
  simp only [Bool.and_eq_true, decide_eq_true_eq, List.all_eq_true, Bool.not_eq_true', ← Bool.not_eq_true,
    List.isPrefixOf_iff_prefix] at this
  exact ⟨this.1.1, this.1.2, this.2⟩

theorem startsToken_iff {text} {p : ℕ} (hpos : 0 < p) :
    startsToken text p = true ↔ text[p - 1]?.any isIdentifier = false := by
  simp [startsToken, hpos]

theorem valueSpan_sample (hquo : isQuote quote = true) (hmark : quoting.mark = [quote]) :
    valueSpan (sampleText marker quote quoting) (1 + marker.length) = some (2 + marker.length, 3 + marker.length) := by
  have htext : sampleText marker quote quoting = (quote :: marker) ++ quote :: [':', quote, 'x', quote] := by
    simp [sampleText, Quoting.wrap, hmark]
  have hg : (sampleText marker quote quoting)[1 + marker.length]? = some quote := by
    rw [add_comm]
    simp [sampleText]
  have hdrop : (sampleText marker quote quoting).drop (1 + marker.length + 1) = [':', quote, 'x', quote] := by
    rw [htext, add_comm 1]
    simp
  have hne : ':' ≠ quote := by rintro rfl; cases hquo
  simp [valueSpan, hg, hquo, hdrop, quotedLength, hne]
  omega

section

variable (hm : marker ∈ sensitiveMarkers)
include hm

section

variable (hquo : isQuote quote = true)
include hquo

theorem not_known {known}
    (hkn : known ∈ "eyJ".toList :: knownTokenPrefixes) {p : ℕ}
    (h : p ∈ occurrences known (sampleText marker quote quoting) (sampleText marker quote quoting).length 0) :
    startsToken (sampleText marker quote quoting) p = false := by
  obtain ⟨hlen, hword, hnot⟩ := known_not_prefix known hkn
  have hat := standsAt_of_mem_occurrences h
  rw [← not_eq_true, startsToken_iff (within_key hword hlen hquo hat).1]
  exact fun hbef => hnot marker hm (prefix_key (isIdentifier_of_mem_marker marker hm) hword hlen hquo hat hbef).2

theorem markedValue_sample {word}
    (hword : word ∈ sensitiveMarkers) {p : ℕ} (hat : StandsAt word (sampleText marker quote quoting) p) {span}
    (hspan : markedValue (sampleText marker quote quoting) word p = some span) :
    markerIsAuthScheme marker = true ∧ valueSpan (sampleText marker quote quoting) (1 + marker.length) = some span := by
  have hchars := isIdentifier_of_mem_marker word hword
  have hlen := marker_length word hword
  obtain ⟨hspace, hname, hsep⟩ := isQuote_plain hquo
  obtain ⟨hpos, hend⟩ := within_key hchars hlen hquo hat
  rcases lt_or_eq_of_le hend with hlt | heq
  · -- the key goes on behind the word
    have hin : p + word.length - 1 < marker.length := by omega
    have hnext : (sampleText marker quote quoting)[p + word.length]?.any isIdentifier = true := by
      rw [getElem?_key (by omega) (by omega), getElem?_eq_getElem hin, any_some,
        isIdentifier_of_mem_marker marker hm _ (getElem_mem hin)]
    simp [markedValue, hnext] at hspan
  · have hg : (sampleText marker quote quoting)[1 + marker.length]? = some quote := by
      rw [add_comm]
      simp [sampleText]
    have hskip : skipWhitespace (sampleText marker quote quoting) (1 + marker.length) = 1 + marker.length := by
      have hn : ∀ c ∈ ([] : Text), isAsciiWhitespace c = true := forall_mem_nil _
      have hhead : ∀ c ∈ (quote :: ':' :: quoting.wrap ['x']).head?, isAsciiWhitespace c = false := by
        simpa using hspace
      have hstay : skipWhitespace ((quote :: marker) ++ ([] ++ quote :: ':' :: quoting.wrap ['x']))
          (quote :: marker).length = (quote :: marker).length := skipWhitespace_eq hn hhead
      rw [add_comm]
      exact hstay
    by_cases hbef : (sampleText marker quote quoting)[p - 1]?.any isIdentifier = true
    · simp [markedValue, valueSeparator, heq, hskip, hg, hsep, hbef, lt_of_lt_of_le one_pos hpos] at hspan
    · rw [not_eq_true] at hbef
      obtain ⟨rfl, hst⟩ := prefix_key (isIdentifier_of_mem_marker marker hm) hchars hlen hquo hat hbef
      have hs : word = marker := hst.eq_of_length (by omega)
      subst hs
      simp only [markedValue, valueSeparator, hskip, hg, hsep, hbef, hname, any_some,
        Bool.and_false, Bool.false_and, Bool.false_eq_true, if_false] at hspan
      by_cases hsch : markerIsAuthScheme word = true
      · rw [if_pos hsch] at hspan
        exact ⟨hsch, hspan⟩
      · rw [if_neg hsch] at hspan
        cases hspan

theorem lowercase_sampleText : lowercase (sampleText marker quote quoting) = sampleText marker quote quoting := by
  have hmar := lowercase_marker marker hm
  rw [lowercase] at hmar
  simp only [isQuote, or_eq_true, decide_eq_true_eq] at hquo
  rcases hquo with rfl | rfl <;> cases quoting <;>
    simp [sampleText, lowercase, Quoting.wrap, Quoting.mark, hmar]

theorem sampleText_uncovered (hmiss : markerIsAuthScheme marker = true → quoting.mark = [quote]) :
    ¬Covers (sensitiveRanges (sampleText marker quote quoting)) (3 + marker.length + quoting.mark.length) := by
  rw [sensitiveRanges, mergeSpans_covers]
  rintro ⟨span, hspan, hlow, hhigh⟩
  rw [mem_append, mem_append] at hspan
  rcases hspan with (hspan | hspan) | hspan
  · obtain ⟨word, hword, hspan⟩ := mem_flatMap.1 hspan
    obtain ⟨p, hp, hspan⟩ := mem_filterMap.1 hspan
    rw [lowercase_sampleText hm hquo] at hp hspan
    obtain ⟨hsch, hspan⟩ := markedValue_sample hm hquo hword (standsAt_of_mem_occurrences hp) hspan
    have hmark := hmiss hsch
    rw [valueSpan_sample hquo hmark] at hspan
    cases hspan
    simp only [hmark, length_singleton] at hhigh
    omega
  · obtain ⟨known, hkn, hspan⟩ := mem_flatMap.1 hspan
    obtain ⟨p, hp, hspan⟩ := mem_filterMap.1 hspan
    rw [not_known hm hquo (mem_cons_of_mem _ hkn) hp] at hspan
    simp at hspan
  · obtain ⟨p, hp, hspan⟩ := mem_filterMap.1 hspan
    rw [not_known hm hquo mem_cons_self hp] at hspan
    simp at hspan

end

end

end Sample

end Marked

/-- Redaction keeps its promise for a bare key, and for a scheme in quotes whose value has not the
same quotes; for every other marker and spelling there is a text whose value it shows. -/
theorem marked_values_hidden_iff (marker : Text) (hm : marker ∈ sensitiveMarkers) (keyQuoting valueQuoting : Quoting) :
    (∀ m : Marked marker keyQuoting valueQuoting, m.Hidden) ↔
      keyQuoting = .bare ∨ markerIsAuthScheme marker = true ∧ valueQuoting ≠ keyQuoting := by
  constructor
  · intro h
    by_contra hcond
    obtain ⟨hquot, hmiss⟩ := not_or.1 hcond
    obtain ⟨quote, hmark, hquo⟩ := Quoting.mark_eq_singleton hquot
    let m := Marked.sample marker keyQuoting valueQuoting (lowercase_marker marker hm)
    have htext : m.text = Marked.sampleText marker quote valueQuoting := by
      simp [m, Marked.sample, Marked.text, Marked.lead, Marked.sampleText, Quoting.wrap, hmark]
    have hst : m.start = 3 + marker.length + valueQuoting.mark.length := by
      simp [m, Marked.sample, Marked.start, Marked.lead, Quoting.wrap, hmark]
      omega
    have hcov := (h m m.start le_rfl (by simp [m, Marked.sample])).1
    rw [htext, hst] at hcov
    refine Marked.sampleText_uncovered hm hquo (fun hsch => ?_) hcov
    rw [not_and_not_right.1 hmiss hsch]
    exact hmark
  · intro hcond m
    apply Marked.hidden_of_marked
    by_cases hbare : keyQuoting = .bare
    · subst hbare
      exact m.bare_marked hm
    · obtain ⟨hsch, hoth⟩ := hcond.resolve_left hbare
      exact m.quoted_scheme_marked hm hsch hbare hoth

theorem password_hidden : "password".toList ∈ sensitiveMarkers ∧ ∀ m : Marked "password".toList .bare .double, m.Hidden :=
  ⟨by decide +kernel, (marked_values_hidden_iff "password".toList (by decide +kernel) .bare .double).2 (.inl rfl)⟩

/-- A line as the JSON formatter of the log writes it. -/
def jsonLine : Marked "password".toList .double .double where
  before := ['\x7b']
  key := "password".toList
  gap := []
  separator := ':'
  gap' := []
  value := "hunter2".toList
  after := ['\x7d']
  key_eq := by decide +kernel
  boundary := nofun
  gap_blank := nofun
  separates := rfl
  gap'_blank := nofun
  value_ne := by decide +kernel
  value_token := nofun
  value_plain := fun _ c hc => by
    have hall : "hunter2".toList.all (fun c => !isQuote c && c != '\\') = true := by decide +kernel
    simpa using all_eq_true.1 hall c hc

theorem json_line_shows_password : jsonLine.text = "\x7b\"password\":\"hunter2\"\x7d".toList ∧ ¬jsonLine.Hidden ∧
    RedactionPolicy.strict.sanitizeText jsonLine.text = jsonLine.text := by
  have hran : sensitiveRanges jsonLine.text = [] := by decide +kernel
  refine ⟨by decide +kernel, fun h => ?_, by decide +kernel⟩
  have hcov := (h jsonLine.start le_rfl (by decide +kernel)).1
  rw [hran] at hcov
  simp [Covers] at hcov

end Pooler
