import Pooler.Spec.Observe.Redaction

/-! The scanner of texts, at a place where a marker is known to stand: which span it finds for a bare
key, and for a scheme in quotes. -/

namespace Pooler

open Lib List Option Nat

/-! ### Characters under lower case -/

theorem toLower_transfer {p : Char → Bool} (h : ∀ n < 128, p (Char.ofNat n).toLower = p (Char.ofNat n))
    (c : Char) : p c.toLower = p c := by
  by_cases hc : c.toNat < 128
  · have := h c.toNat hc
    rwa [Char.ofNat_toNat] at this
  · have hs : c.toLower = c := by
      unfold Char.toLower
      rw [dif_neg]
      rintro ⟨-, hle⟩
      apply hc
      have : c.val.toNat ≤ ('Z' : Char).val.toNat := hle
      have hz : ('Z' : Char).val.toNat = 90 := rfl
      have : c.toNat = c.val.toNat := rfl
      omega
    rw [hs]

variable (c : Char)

@[simp] theorem isIdentifier_toLower : isIdentifier c.toLower = isIdentifier c := toLower_transfer (by decide +kernel) c

@[simp] theorem isAsciiWhitespace_toLower : isAsciiWhitespace c.toLower = isAsciiWhitespace c :=
  toLower_transfer (by decide +kernel) c

@[simp] theorem isSeparator_toLower : isSeparator c.toLower = isSeparator c := toLower_transfer (by decide +kernel) c

@[simp] theorem isQuote_toLower : isQuote c.toLower = isQuote c := toLower_transfer (by decide +kernel) c

@[simp] theorem endsValue_toLower : endsValue c.toLower = endsValue c := toLower_transfer (by decide +kernel) c

variable {c : Char}

theorem isToken_not_ends (h : isToken c = true) : endsValue c = false := by
  by_contra hends
  simp only [endsValue, isAsciiWhitespace, Bool.or_eq_false_iff, not_and_or, Bool.not_eq_false,
    contains_iff_mem, mem_cons, not_mem_nil, or_false] at hends
  rcases hends with (rfl | rfl | rfl | rfl | rfl) | (rfl | rfl | rfl | rfl | rfl) <;> revert h <;> decide

theorem isToken_not_quote (h : isToken c = true) : isQuote c = false := by
  by_contra hquo
  simp only [isQuote, Bool.not_eq_false, Bool.or_eq_true, decide_eq_true_eq] at hquo
  rcases hquo with rfl | rfl <;> revert h <;> decide

theorem isQuote_plain (h : isQuote c = true) :
    isAsciiWhitespace c = false ∧ isIdentifier c = false ∧ isSeparator c = false := by
  simp only [isQuote, Bool.or_eq_true, decide_eq_true_eq] at h
  rcases h with rfl | rfl <;> decide

theorem isSeparator_plain (h : isSeparator c = true) :
    isAsciiWhitespace c = false ∧ isIdentifier c = false ∧ isQuote c = false := by
  simp only [isSeparator, Bool.or_eq_true, decide_eq_true_eq] at h
  rcases h with rfl | rfl <;> decide

theorem isAsciiWhitespace_plain (h : isAsciiWhitespace c = true) : isIdentifier c = false ∧ isQuote c = false := by
  simp only [isAsciiWhitespace, contains_iff_mem, mem_cons, not_mem_nil, or_false] at h
  rcases h with rfl | rfl | rfl | rfl | rfl <;> decide

theorem isIdentifier_of_mem_marker : ∀ marker ∈ sensitiveMarkers, ∀ c ∈ marker, isIdentifier c = true := by
  have hall : sensitiveMarkers.all (fun marker => marker.all isIdentifier) = true := by decide +kernel
  intro marker hmar
  exact all_eq_true.1 (all_eq_true.1 hall marker hmar)

theorem lowercase_marker : ∀ marker ∈ sensitiveMarkers, lowercase marker = marker := by decide +kernel

theorem marker_length : ∀ marker ∈ sensitiveMarkers, 2 ≤ marker.length := by decide +kernel

/-! ### The scanner at a known place -/

variable {pre rest : Text}

theorem skipWhitespace_eq {gap} (hgap : ∀ c ∈ gap, isAsciiWhitespace c = true)
    (hr : ∀ c ∈ rest.head?, isAsciiWhitespace c = false) :
    skipWhitespace (pre ++ (gap ++ rest)) pre.length = pre.length + gap.length := by
  have hstop : rest.takeWhile isAsciiWhitespace = [] := by
    cases rest with
    | nil => rfl
    | cons c => rw [takeWhile_cons_of_neg]; simp [hr c rfl]
  rw [skipWhitespace, drop_left, takeWhile_append_of_pos hgap, hstop, append_nil]

variable {quote : Char}

theorem length_le_quotedLength (inner rest : Text) (h : quote ∉ inner) :
    ∀ prev, inner.length ≤ quotedLength quote prev (inner ++ rest) := by
  induction inner with
  | nil => intro prev; exact zero_le _
  | cons c inner ih =>
    intro prev
    have hc : c ≠ quote := fun he => h (he ▸ mem_cons_self)
    have := ih (fun hm => h (mem_cons_of_mem _ hm)) (some c)
    rw [cons_append, quotedLength, if_neg (by simp [hc]), length_cons]
    omega

theorem valueSpan_quoted {inner} (hquo : isQuote quote = true) (hinn : quote ∉ inner) (hne : inner ≠ []) : ∃ stop,
    valueSpan (pre ++ quote :: (inner ++ rest)) pre.length = some (pre.length + 1, stop) ∧
      pre.length + 1 + inner.length ≤ stop := by
  have hdrop : (pre ++ quote :: (inner ++ rest)).drop (pre.length + 1) = inner ++ rest := by simp
  have hlen := length_le_quotedLength inner rest hinn none
  have hpos := List.length_pos_iff.2 hne
  refine ⟨_, ?_, Nat.add_le_add_left hlen _⟩
  simp only [valueSpan, List.getElem?_append_right le_rfl, Nat.sub_self, List.getElem?_cons_zero, hquo, if_true, hdrop]
  rw [if_pos (by omega)]

theorem valueSpan_bare {value} (hval : ∀ c ∈ value, endsValue c = false ∧ isQuote c = false)
    (hne : value ≠ []) : ∃ stop,
    valueSpan (pre ++ (value ++ rest)) pre.length = some (pre.length, stop) ∧ pre.length + value.length ≤ stop := by
  have hrun : value.length ≤ ((value ++ rest).takeWhile (fun c => !endsValue c)).length := by
    rw [List.takeWhile_append_of_pos (by simpa using fun c hc => (hval c hc).1), List.length_append]
    omega
  refine ⟨_, ?_, Nat.add_le_add_left hrun _⟩
  cases value with
  | nil => exact absurd rfl hne
  | cons c value =>
    have hc := (hval c List.mem_cons_self).2
    simp only [valueSpan, List.cons_append, List.getElem?_append_right le_rfl, Nat.sub_self,
      List.getElem?_cons_zero, hc, Bool.false_eq_true, if_false, List.drop_left]
    rw [if_pos]
    have : 0 < (c :: value).length := by simp
    simp only [List.cons_append] at hrun
    omega

variable {marker : Text}

theorem markedValue_of_separator {gap gap' separator}
    (hgap : ∀ c ∈ gap, isAsciiWhitespace c = true) (hsep : isSeparator separator = true)
    (hgap' : ∀ c ∈ gap', isAsciiWhitespace c = true) (hr : ∀ c ∈ rest.head?, isAsciiWhitespace c = false) :
    markedValue (pre ++ marker ++ gap ++ separator :: gap' ++ rest) marker pre.length =
      valueSpan (pre ++ marker ++ gap ++ separator :: gap' ++ rest)
        (pre ++ marker ++ gap ++ separator :: gap').length := by
  obtain ⟨hspace, hname, -⟩ := isSeparator_plain hsep
  generalize htext : pre ++ marker ++ gap ++ separator :: gap' ++ rest = text
  have hfst : text = (pre ++ marker) ++ (gap ++ separator :: (gap' ++ rest)) := by simp [← htext]
  have hsec : text = (pre ++ marker ++ gap ++ [separator]) ++ (gap' ++ rest) := by simp [← htext]
  have hskip : skipWhitespace text (pre.length + marker.length) = (pre ++ marker ++ gap).length := by
    rw [hfst, ← length_append, skipWhitespace_eq hgap (by simpa using hspace)]
    exact length_append.symm
  have hg : text[(pre ++ marker ++ gap).length]? = some separator := by
    rw [← htext]
    simp
  have hnext : text[pre.length + marker.length]?.any isIdentifier = false := by
    rw [hfst, ← List.length_append, List.getElem?_append_right le_rfl, Nat.sub_self]
    cases gap with
    | nil => simpa using hname
    | cons c => simpa using (isAsciiWhitespace_plain (hgap c mem_cons_self)).1
  have hskip' : skipWhitespace text ((pre ++ marker ++ gap).length + 1) =
      (pre ++ marker ++ gap ++ separator :: gap').length := by
    have hlen : (pre ++ marker ++ gap).length + 1 = (pre ++ marker ++ gap ++ [separator]).length := by
      simp only [length_append, length_singleton]
    rw [hsec, hlen, skipWhitespace_eq hgap' hr]
    simp only [length_append, length_cons, length_nil]
    omega
  rw [← hskip']
  generalize (pre ++ marker ++ gap).length = cursor at hskip hg ⊢
  simp [markedValue, valueSeparator, hskip, hg, hnext, hsep]

/-- A scheme in quotes takes its own closing quote for the opening one of its value. -/
theorem markedValue_of_quoted_scheme (hquo : isQuote quote = true) (hsch : markerIsAuthScheme marker = true) :
    markedValue (pre ++ quote :: marker ++ quote :: rest) marker (pre ++ [quote]).length =
      valueSpan (pre ++ quote :: marker ++ quote :: rest) (pre ++ quote :: marker).length := by
  generalize htext : pre ++ quote :: marker ++ quote :: rest = text
  obtain ⟨hspace, hname, hsep⟩ := isQuote_plain hquo
  have hend : (pre ++ [quote]).length + marker.length = (pre ++ quote :: marker).length := by
    simp only [length_append, length_cons, length_nil]
    omega
  have hbef : text[(pre ++ [quote]).length - 1]? = some quote := by
    rw [← htext]
    simp
  have hg : text[(pre ++ quote :: marker).length]? = some quote := by
    rw [← htext, getElem?_append_right le_rfl]
    simp
  have hskip : skipWhitespace text (pre ++ quote :: marker).length = (pre ++ quote :: marker).length := by
    rw [← htext]
    have hn : ∀ c ∈ ([] : Text), isAsciiWhitespace c = true := nofun
    exact skipWhitespace_eq hn (by simpa using hspace)
  simp only [markedValue, valueSeparator, hend, hbef, hg, hskip, any_some, hname, hsep, hsch]
  simp

/-! ### A key and its value -/

inductive Quoting where
  | bare
  | single
  | double
  deriving DecidableEq

namespace Quoting

def mark : Quoting → Text
  | .bare => []
  | .single => ['\'']
  | .double => ['"']

def wrap (quoting : Quoting) (text : Text) : Text := quoting.mark ++ text ++ quoting.mark

@[simp] theorem wrap_bare (text : Text) : Quoting.bare.wrap text = text := by simp [wrap, mark]

theorem lowercase_mark (quoting : Quoting) : lowercase quoting.mark = quoting.mark := by
  cases quoting <;> decide

theorem mark_eq_singleton {quoting : Quoting} (h : quoting ≠ .bare) : ∃ c, quoting.mark = [c] ∧ isQuote c = true := by
  cases quoting with
  | bare => exact absurd rfl h
  | single | double => exact ⟨_, rfl, rfl⟩

theorem not_mem_mark_of_ne {quoting other : Quoting} (h : quoting ≠ other) (hc : c ∈ other.mark) :
    c ∉ quoting.mark := by
  revert hc
  cases quoting <;> cases other <;> simp [mark] at h ⊢ <;> rintro rfl <;> decide

end Quoting

/-- A place in a text where a marker stands as a key with a value. -/
structure Marked (marker : Text) (keyQuoting valueQuoting : Quoting) where
  (before key gap : Text)
  separator : Char
  (gap' value after : Text)
  key_eq : lowercase key = marker
  /-- No identifier character stands in front of a bare key. -/
  boundary : keyQuoting = .bare → ∀ c ∈ before.getLast?, isIdentifier c = false
  gap_blank : ∀ c ∈ gap, isAsciiWhitespace c = true
  separates : isSeparator separator = true
  gap'_blank : ∀ c ∈ gap', isAsciiWhitespace c = true
  value_ne : value ≠ []
  value_token : valueQuoting = .bare → ∀ c ∈ value, isToken c = true
  value_plain : valueQuoting ≠ .bare → ∀ c ∈ value, isQuote c = false ∧ c ≠ '\\'

namespace Marked

variable {marker : Text} {keyQuoting valueQuoting : Quoting} (m : Marked marker keyQuoting valueQuoting)

/-- Up to the first quote or character of the value. -/
def lead : Text := m.before ++ keyQuoting.wrap m.key ++ m.gap ++ m.separator :: m.gap'

def text : Text := m.lead ++ (valueQuoting.wrap m.value ++ m.after)

/-- Where the value starts. -/
def start : ℕ := (m.lead ++ valueQuoting.mark).length

theorem isQuote_of_mem_value (h : c ∈ m.value) : isQuote c = false := by
  by_cases hv : valueQuoting = .bare
  · exact isToken_not_quote (m.value_token hv c h)
  · exact (m.value_plain hv c h).1

end Marked

/-! ### Bare keys -/

/-- A match that reaches into a later one would put a character of the marker in front of it. -/
theorem StandsAt.le_of_boundary {lower} {p : ℕ} (hmar : ∀ c ∈ marker, isIdentifier c = true)
    (hbef : 0 < p → ∀ c ∈ lower[p - 1]?, isIdentifier c = false) :
    ∀ q, StandsAt marker lower q → q < p → q + marker.length ≤ p := by
  intro q hq hlt
  by_contra hover
  obtain ⟨c, hc, hg⟩ := hq.getElem?_mem (i := p - 1) (by omega) (by omega)
  have := hbef (by omega) c hg
  rw [hmar c hc] at this
  cases this

theorem mem_markedValueRanges {text} {p : ℕ} {span} (hm : marker ∈ sensitiveMarkers)
    (hat : StandsAt marker (lowercase text) p) (hbef : 0 < p → ∀ c ∈ (lowercase text)[p - 1]?, isIdentifier c = false)
    (hspan : markedValue (lowercase text) marker p = some span) : span ∈ markedValueRanges text := by
  have hne : marker ≠ [] := length_pos_iff.1 (lt_of_lt_of_le two_pos (marker_length marker hm))
  have hfd : p ∈ occurrences marker (lowercase text) (lowercase text).length 0 :=
    mem_occurrences hne hat (StandsAt.le_of_boundary (isIdentifier_of_mem_marker marker hm) hbef) (zero_le _) (by omega)
  exact mem_flatMap.2 ⟨marker, hm, mem_filterMap.2 ⟨p, hfd, hspan⟩⟩

theorem valueSpan_wrap {value after} {quoting : Quoting} (hne : value ≠ [])
    (hquo : ∀ c ∈ value, isQuote c = false) (hends : quoting = .bare → ∀ c ∈ value, endsValue c = false) :
    ∃ span, valueSpan (pre ++ (quoting.wrap value ++ after)) pre.length = some span ∧
      span.1 ≤ (pre ++ quoting.mark).length ∧ (pre ++ quoting.mark).length + value.length ≤ span.2 := by
  by_cases hbare : quoting = .bare
  · subst hbare
    obtain ⟨stop, hspan, hstop⟩ := valueSpan_bare (fun c hc => ⟨hends rfl c hc, hquo c hc⟩) hne
    rw [Quoting.wrap_bare]
    exact ⟨_, hspan, by simp, by simpa [Quoting.mark] using hstop⟩
  · obtain ⟨quote, hmark, hq⟩ := Quoting.mark_eq_singleton hbare
    have hout : quote ∉ value := fun hc => by rw [hquo quote hc] at hq; cases hq
    have hwrap : quoting.wrap value ++ after = quote :: (value ++ quote :: after) := by simp [Quoting.wrap, hmark]
    rw [hwrap]
    obtain ⟨stop, hspan, hstop⟩ := valueSpan_quoted hq hout hne
    exact ⟨_, hspan, by simp [hmark], by simpa [hmark] using hstop⟩

namespace Marked

variable {marker : Text} {keyQuoting valueQuoting : Quoting} (m : Marked marker keyQuoting valueQuoting)

theorem lowercase_text : lowercase m.text =
    lowercase m.before ++ keyQuoting.wrap marker ++ lowercase m.gap ++ m.separator.toLower :: lowercase m.gap' ++
      (valueQuoting.wrap (lowercase m.value) ++ lowercase m.after) := by
  have hmark := fun quoting : Quoting => quoting.lowercase_mark
  have hkey := m.key_eq
  simp only [lowercase] at hmark hkey ⊢
  simp [text, lead, Quoting.wrap, hmark, hkey]

theorem start_eq : m.start =
    (lowercase m.before ++ keyQuoting.wrap marker ++ lowercase m.gap ++
      m.separator.toLower :: lowercase m.gap' ++ valueQuoting.mark).length := by
  have hkey : m.key.length = marker.length := by simpa [lowercase] using congrArg List.length m.key_eq
  simp [start, lead, Quoting.wrap, lowercase, hkey]

theorem forall_mem_lowercase {p : Char → Prop} {text} (hp : ∀ c, p c → p c.toLower) (h : ∀ c ∈ text, p c) :
    ∀ c ∈ lowercase text, p c := by
  intro c hc
  obtain ⟨d, hd, rfl⟩ := mem_map.1 hc
  exact hp d (h d hd)

theorem head_wrap_not_whitespace :
    ∀ c ∈ (valueQuoting.wrap (lowercase m.value) ++ lowercase m.after).head?, isAsciiWhitespace c = false := by
  intro c hc
  by_cases hbare : valueQuoting = .bare
  · subst hbare
    obtain ⟨first, rest, hval⟩ := exists_cons_of_ne_nil m.value_ne
    have htok := m.value_token rfl first (hval ▸ mem_cons_self)
    have hends := isToken_not_ends htok
    simp only [endsValue, Bool.or_eq_false_iff] at hends
    rw [hval] at hc
    simp only [Quoting.wrap, Quoting.mark, lowercase, map_cons, nil_append, append_nil,
      cons_append, head?_cons, mem_some_iff] at hc
    rw [← hc, isAsciiWhitespace_toLower]
    exact hends.1
  · obtain ⟨quote, hmark, hq⟩ := Quoting.mark_eq_singleton hbare
    simp only [Quoting.wrap, hmark, cons_append, nil_append, head?_cons, mem_some_iff] at hc
    exact hc ▸ (isQuote_plain hq).1

theorem valueSpan_text : ∃ span,
    valueSpan (lowercase m.text) (lowercase m.before ++ keyQuoting.wrap marker ++ lowercase m.gap ++
      m.separator.toLower :: lowercase m.gap').length = some span ∧
      span.1 ≤ m.start ∧ m.start + m.value.length ≤ span.2 := by
  have hlen : m.value.length = (lowercase m.value).length := by rw [lowercase, length_map]
  rw [m.lowercase_text, m.start_eq, hlen]
  apply valueSpan_wrap
  · simpa [lowercase] using m.value_ne
  · exact forall_mem_lowercase (fun c hc => by simpa using hc) (fun c hc => m.isQuote_of_mem_value hc)
  · exact fun hbare => forall_mem_lowercase (fun c hc => by simpa using hc)
      (fun c hc => isToken_not_ends (m.value_token hbare c hc))

theorem bare_marked (m : Marked marker .bare valueQuoting) (hm : marker ∈ sensitiveMarkers) :
    ∃ span ∈ markedValueRanges m.text, span.1 ≤ m.start ∧ m.start + m.value.length ≤ span.2 := by
  obtain ⟨span, hspan, hcov⟩ := m.valueSpan_text
  have hblank : ∀ {gap : Text}, (∀ c ∈ gap, isAsciiWhitespace c = true) →
      ∀ c ∈ lowercase gap, isAsciiWhitespace c = true :=
    fun h => forall_mem_lowercase (fun c hc => by simpa using hc) h
  have hlow := m.lowercase_text
  rw [Quoting.wrap_bare] at hlow hspan
  refine ⟨span, mem_markedValueRanges (p := (lowercase m.before).length) hm ?_ ?_ ?_, hcov⟩
  · rw [hlow, StandsAt]
    simp
  · intro hpos c hc
    rw [hlow, append_assoc, append_assoc, append_assoc, getElem?_append_left (by omega),
      ← getLast?_eq_getElem?, lowercase, getLast?_map] at hc
    obtain ⟨d, hd, rfl⟩ := map_eq_some_iff.1 hc
    rw [isIdentifier_toLower]
    exact m.boundary rfl d hd
  · rw [hlow] at hspan ⊢
    rw [markedValue_of_separator (hblank m.gap_blank) (by simpa using m.separates) (hblank m.gap'_blank)
      m.head_wrap_not_whitespace]
    exact hspan

theorem quoted_scheme_marked (hm : marker ∈ sensitiveMarkers)
    (hsch : markerIsAuthScheme marker = true) (hquot : keyQuoting ≠ .bare) (hoth : valueQuoting ≠ keyQuoting) :
    ∃ span ∈ markedValueRanges m.text, span.1 ≤ m.start ∧ m.start + m.value.length ≤ span.2 := by
  obtain ⟨quote, hmark, hq⟩ := Quoting.mark_eq_singleton hquot
  -- the span runs over everything up to the next quote like the one of the key
  let inner := lowercase m.gap ++ m.separator.toLower :: lowercase m.gap' ++ valueQuoting.mark ++ lowercase m.value
  have hlow : lowercase m.text = lowercase m.before ++ quote :: marker ++ quote ::
      (inner ++ (valueQuoting.mark ++ lowercase m.after)) := by
    rw [m.lowercase_text]
    simp [Quoting.wrap, hmark, inner]
  have hinn : quote ∉ inner := by
    have hoth' : quote ∉ valueQuoting.mark := Quoting.not_mem_mark_of_ne hoth (by rw [hmark]; exact mem_cons_self)
    have hplain : ∀ {text : Text}, (∀ c ∈ text, isQuote c = false) → quote ∉ lowercase text := by
      intro text htext hc
      rw [forall_mem_lowercase (fun c hc => by simpa using hc) htext quote hc] at hq
      cases hq
    have hgap := hplain (fun c hc => (isAsciiWhitespace_plain (m.gap_blank c hc)).2)
    have hgap' := hplain (fun c hc => (isAsciiWhitespace_plain (m.gap'_blank c hc)).2)
    have hval := hplain (fun c hc => m.isQuote_of_mem_value hc)
    have hsep : quote ≠ m.separator.toLower := by
      intro he
      rw [he, isQuote_toLower, (isSeparator_plain m.separates).2.2] at hq
      cases hq
    simp [inner, hgap, hgap', hval, hoth', hsep]
  have hlen : m.start + m.value.length = (lowercase m.before ++ quote :: marker).length + 1 + inner.length := by
    rw [m.start_eq]
    simp [inner, Quoting.wrap, hmark, lowercase]
    omega
  obtain ⟨stop, hspan, hstop⟩ : ∃ stop, valueSpan (lowercase m.text) (lowercase m.before ++ quote :: marker).length =
      some ((lowercase m.before ++ quote :: marker).length + 1, stop) ∧
        (lowercase m.before ++ quote :: marker).length + 1 + inner.length ≤ stop := by
    rw [hlow]
    exact valueSpan_quoted hq hinn (by simp [inner])
  refine ⟨_, mem_markedValueRanges (p := (lowercase m.before ++ [quote]).length) hm ?_ ?_
    (by rw [hlow] at hspan ⊢; rw [markedValue_of_quoted_scheme hq hsch]; exact hspan), ?_, by simp only; omega⟩
  · rw [hlow, StandsAt]
    simp
  · intro hpos c hc
    have : (lowercase m.text)[(lowercase m.before ++ [quote]).length - 1]? = some quote := by rw [hlow]; simp
    rw [this] at hc
    cases hc
    exact (isQuote_plain hq).2.1
  · rw [m.start_eq]
    simp [Quoting.wrap, hmark]

end Marked

end Pooler
