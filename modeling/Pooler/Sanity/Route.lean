import Pooler.Spec.Config.RouteMatch

/-! Each dimension of a route match on its own: two constraints overlap exactly when one value
meets both, but for the headers, where every value that can be sent at all can be sent beside
every other. -/

namespace Pooler

open Lib List

variable {http : HttpCrate}

/-! ### Methods, hosts and upgrade state -/

theorem RouteMethod.ext_text {a b : RouteMethod http} (h : a.text = b.text) : a = b := by
  cases a; cases b; cases h; rfl

theorem methodMatchesRoute_iff {methods : List (RouteMethod http)} {method} :
    methodMatchesRoute methods method = true ↔ methods = [] ∨ ∃ m ∈ methods, m.text = method := by
  simp [methodMatchesRoute]

theorem methods_overlap_of_match {a b : List (RouteMethod http)} {method}
    (ha : methodMatchesRoute a method = true) (hb : methodMatchesRoute b method = true) :
    methodsOverlap a b = true := by
  rcases methodMatchesRoute_iff.1 ha with rfl | ⟨x, hx, rfl⟩
  · rfl
  rcases methodMatchesRoute_iff.1 hb with rfl | ⟨y, hy, hxy⟩
  · simp [methodsOverlap]
  · cases RouteMethod.ext_text hxy
    simp only [methodsOverlap, Bool.or_eq_true, any_eq_true, contains_iff_mem]
    exact .inr ⟨x, hx, hy⟩

/-- Two lists of alternatives, of which an empty one takes every value, have a value in common if two
alternatives have, each taking a value of its own. -/
theorem exists_common {α β : Type} {accepts : α → β → Prop} {a b} (own : α → β)
    (hown : ∀ x, accepts x (own x)) (other : β)
    (h : (a = [] ∨ b = []) ∨ ∃ x ∈ a, ∃ y ∈ b, ∃ value, accepts x value ∧ accepts y value) :
    ∃ value, (a = [] ∨ ∃ x ∈ a, accepts x value) ∧ (b = [] ∨ ∃ y ∈ b, accepts y value) := by
  rcases h with (rfl | rfl) | ⟨x, hx, y, hy, value, hxv, hyv⟩
  · cases b with
    | nil => exact ⟨other, .inl rfl, .inl rfl⟩
    | cons y => exact ⟨own y, .inl rfl, .inr ⟨y, mem_cons_self, hown y⟩⟩
  · cases a with
    | nil => exact ⟨other, .inl rfl, .inl rfl⟩
    | cons x => exact ⟨own x, .inr ⟨x, mem_cons_self, hown x⟩, .inl rfl⟩
  · exact ⟨value, .inr ⟨x, hx, hxv⟩, .inr ⟨y, hy, hyv⟩⟩

theorem exists_method_of_overlap {a b : List (RouteMethod http)} (h : methodsOverlap a b = true) :
    ∃ method, http.validMethod method = true ∧ methodMatchesRoute a (uppercase method) = true ∧
      methodMatchesRoute b (uppercase method) = true := by
  simp only [methodsOverlap, Bool.or_eq_true, List.isEmpty_iff, List.any_eq_true, List.contains_iff_mem] at h
  obtain ⟨⟨method, hvld⟩, ha, hb⟩ := @exists_common _ {method // http.validMethod method = true}
    (fun m method => m.text = uppercase method.1) a b
    (fun m => ⟨m.text, m.valid⟩) (fun m => m.upper.symm) ⟨"GET".toList, http.validMethod_get⟩
    (h.imp_right fun ⟨m, hma, hmb⟩ => ⟨m, hma, m, hmb, ⟨m.text, m.valid⟩, m.upper.symm, m.upper.symm⟩)
  exact ⟨method, hvld, methodMatchesRoute_iff.2 ha, methodMatchesRoute_iff.2 hb⟩

/-- The host constraint is one that the matcher can read, so that some host meets it. -/
def hostParses (http : HttpCrate) (host : Option Text) : Bool :=
  host.all (fun value => (normalizeAuthority http value).isSome)

variable {headers : List (String × http.HeaderValue)}

theorem hostMatches_some {expected explicit} :
    hostMatches (some expected) explicit headers = true ↔ ∃ host port actualPort,
      normalizeAuthority http expected = some (host, port) ∧
      (explicit.or (headerText headers "host")).bind (normalizeAuthority http) = some (host, actualPort) ∧
      (port = none ∨ port = actualPort) := by
  simp only [hostMatches]
  cases he : normalizeAuthority http expected with
  | none => simp
  | some parsed =>
    obtain ⟨host, port⟩ := parsed
    simp only [Option.any_eq_true, Bool.and_eq_true, decide_eq_true_eq, Prod.exists, Option.some.injEq, Prod.mk.injEq]
    constructor
    · rintro ⟨h, actualPort, hb, rfl, hport⟩
      refine ⟨h, port, actualPort, ⟨rfl, rfl⟩, hb, ?_⟩
      cases port with
      | none => exact .inl rfl
      | some => exact .inr (by simpa [eq_comm] using hport)
    · rintro ⟨h, p, actualPort, ⟨rfl, rfl⟩, hb, hport⟩
      refine ⟨host, actualPort, hb, rfl, ?_⟩
      rcases hport with rfl | rfl
      · rfl
      · cases port <;> simp

theorem hosts_overlap_of_match {a b explicit}
    (ha : hostMatches a explicit headers = true) (hb : hostMatches b explicit headers = true) :
    hostParses http a = true ∧ hostParses http b = true ∧ authoritiesOverlap http a b = true := by
  have hpar : ∀ {host : Option Text}, hostMatches host explicit headers = true → hostParses http host = true := by
    intro host h
    cases host with
    | none => rfl
    | some =>
      obtain ⟨_, _, _, hn, -⟩ := hostMatches_some.1 h
      simp [hostParses, hn]
  refine ⟨hpar ha, hpar hb, ?_⟩
  cases a with
  | none => rfl
  | some =>
    cases b with
    | none => rfl
    | some =>
      obtain ⟨h1, p1, ap1, hx, hactual1, hp1⟩ := hostMatches_some.1 ha
      obtain ⟨h2, p2, ap2, hy, hact, hp2⟩ := hostMatches_some.1 hb
      rw [hactual1] at hact
      cases hact
      simp only [authoritiesOverlap, hx, hy, decide_true, Bool.true_and, Bool.or_eq_true, decide_eq_true_eq]
      rcases hp1 with rfl | rfl
      · exact .inl (.inl rfl)
      · rcases hp2 with rfl | rfl
        · exact .inl (.inr rfl)
        · exact .inr rfl

theorem exists_host_of_overlap {a b} (ha : hostParses http a = true)
    (hb : hostParses http b = true) (h : authoritiesOverlap http a b = true) :
    ∃ explicit, ∀ headers : List (String × http.HeaderValue),
      hostMatches a explicit headers = true ∧ hostMatches b explicit headers = true := by
  have hself : ∀ {value : Text}, hostParses http (some value) = true →
      ∀ headers : List (String × http.HeaderValue), hostMatches (some value) (some value) headers = true := by
    intro value hv headers
    simp only [hostParses, Option.all_some, Option.isSome_iff_exists, Prod.exists] at hv
    obtain ⟨host, port, hn⟩ := hv
    exact hostMatches_some.2 ⟨host, port, port, hn, by simpa using hn, .inr rfl⟩
  cases a with
  | none =>
    cases b with
    | none => exact ⟨none, fun _ => ⟨rfl, rfl⟩⟩
    | some y => exact ⟨some y, fun headers => ⟨rfl, hself hb headers⟩⟩
  | some x =>
    cases b with
    | none => exact ⟨some x, fun headers => ⟨hself ha headers, rfl⟩⟩
    | some y =>
      simp only [hostParses, Option.all_some, Option.isSome_iff_exists, Prod.exists] at ha hb
      obtain ⟨h1, p1, hx⟩ := ha
      obtain ⟨h2, p2, hy⟩ := hb
      simp only [authoritiesOverlap, hx, hy, Bool.and_eq_true, Bool.or_eq_true, decide_eq_true_eq] at h
      obtain ⟨rfl, hpor⟩ := h
      -- the constraint that names a port is itself the host that meets both
      have hfst : p2 = none ∨ p2 = p1 → ∀ headers : List (String × http.HeaderValue),
          hostMatches (some x) (some x) headers = true ∧ hostMatches (some y) (some x) headers = true :=
        fun hp headers => ⟨hostMatches_some.2 ⟨h1, p1, p1, hx, by simpa using hx, .inr rfl⟩,
          hostMatches_some.2 ⟨h1, p2, p1, hy, by simpa using hx, hp⟩⟩
      rcases hpor with (rfl | rfl) | rfl
      · exact ⟨some y, fun headers => ⟨hostMatches_some.2 ⟨h1, none, p2, hx, by simpa using hy, .inl rfl⟩,
          hostMatches_some.2 ⟨h1, p2, p2, hy, by simpa using hy, .inr rfl⟩⟩⟩
      · exact ⟨some x, hfst (.inl rfl)⟩
      · exact ⟨some x, hfst (.inr rfl)⟩

theorem bools_overlap_iff {a b} :
    boolsOverlap a b = true ↔ ∃ actual, websocketMatches a actual = true ∧ websocketMatches b actual = true := by
  revert a b
  decide

/-! ### Headers -/

/-- Some header value reads as a text that trims to the expected one. -/
def Sendable (http : HttpCrate) (expected : Text) : Prop :=
  ∃ value text, http.toStr value = some text ∧ trim text = expected

/-- Every header that the constraint names can be sent. -/
def HeadersSendable (http : HttpCrate) (headers : Table String Text) : Prop :=
  ∀ (name : String) (expected : Text), headers[name]? = some expected → Sendable http expected

variable {expected : Table String Text}

theorem headersMatch_iff :
    headersMatch expected headers = true ↔ ∀ name text, expected[name]? = some text →
      ∃ value, (name, value) ∈ headers ∧ ∃ sent, http.toStr value = some sent ∧ trim sent = text := by
  simp only [headersMatch, all_eq_true, any_eq_true, getAll, mem_map, mem_filter,
    Prod.forall, Std.ExtTreeMap.mem_toList_iff_getElem?_eq_some, Option.any_eq_true, decide_eq_true_eq,
    Prod.exists]
  refine forall_congr' fun name => forall_congr' fun text => imp_congr_right fun _ => ?_
  constructor
  · rintro ⟨value, ⟨n, v, ⟨hm, rfl⟩, rfl⟩, hs⟩
    exact ⟨v, hm, hs⟩
  · rintro ⟨value, hm, hs⟩
    exact ⟨value, ⟨name, value, ⟨hm, rfl⟩, rfl⟩, hs⟩

theorem headersSendable_of_match (h : headersMatch expected headers = true) : HeadersSendable http expected := by
  intro name text hg
  obtain ⟨value, -, sent, hs⟩ := headersMatch_iff.1 h name text hg
  exact ⟨value, sent, hs⟩

/-- A request may carry one name many times, so that what can be sent can be sent together. -/
theorem exists_headers {a b} (ha : HeadersSendable http a) (hb : HeadersSendable http b) :
    ∃ headers : List (String × http.HeaderValue), headersMatch a headers = true ∧ headersMatch b headers = true := by
  have hall : ∀ p ∈ a.toList ++ b.toList, Sendable http p.2 := by
    intro p hp
    rcases mem_append.1 hp with hp | hp
    · exact ha p.1 p.2 (Std.ExtTreeMap.mem_toList_iff_getElem?_eq_some.1 hp)
    · exact hb p.1 p.2 (Std.ExtTreeMap.mem_toList_iff_getElem?_eq_some.1 hp)
  choose value hval using hall
  have hsent : ∀ name text (hp : (name, text) ∈ a.toList ++ b.toList), ∃ sent, (name, sent) ∈
      (a.toList ++ b.toList).attach.map (fun p => (p.1.1, value p.1 p.2)) ∧
        ∃ read, http.toStr sent = some read ∧ trim read = text :=
    fun name text hp => ⟨_, mem_map.2 ⟨⟨_, hp⟩, mem_attach _ _, rfl⟩, hval _ hp⟩
  refine ⟨_, headersMatch_iff.2 fun name text hg => hsent name text ?_,
    headersMatch_iff.2 fun name text hg => hsent name text ?_⟩
  · exact mem_append_left _ (Std.ExtTreeMap.mem_toList_iff_getElem?_eq_some.2 hg)
  · exact mem_append_right _ (Std.ExtTreeMap.mem_toList_iff_getElem?_eq_some.2 hg)

/-! ### Content types -/

structure MediaType.Halves (m : MediaType) (mediaType subtype : Text) : Prop where
  split : splitOnce '/' m.text = some (mediaType, subtype)
  text : m.text = mediaType ++ '/' :: subtype
  type_slash : '/' ∉ mediaType
  subtype_slash : '/' ∉ subtype
  type_token : ∀ c ∈ mediaType, isTokenChar c = true
  subtype_token : ∀ c ∈ subtype, isTokenChar c = true

variable (m : MediaType)

theorem MediaType.whitespace : ∀ c ∈ m.text, isWhitespace c = false := by
  have hw := m.wellFormed
  unfold wellFormedMediaType at hw
  split at hw
  · cases hw
  · simp only [Bool.not_eq_true', Bool.or_eq_false_iff, any_eq_false] at hw
    intro c hc
    exact Bool.eq_false_iff.2 (hw.1.1.1.1.1.2 c hc)

theorem MediaType.halves (m : MediaType) : ∃ media subtype, m.Halves media subtype := by
  have hw := m.wellFormed
  unfold wellFormedMediaType at hw
  cases hs : splitOnce '/' m.text with
  | none => rw [hs] at hw; cases hw
  | some halves =>
    obtain ⟨media, subtype⟩ := halves
    rw [hs] at hw
    obtain ⟨htext, htype⟩ := splitOnce_eq_some.1 hs
    simp only [Bool.not_eq_true', Bool.or_eq_false_iff, Bool.and_eq_false_iff, Bool.not_eq_false',
      decide_eq_false_iff_not, not_not] at hw
    obtain ⟨⟨⟨⟨⟨-, hcnt⟩, -⟩, -⟩, htt⟩, hst⟩ := hw
    have htok : ∀ {half : Text}, half = ['*'] ∨ half.all isTokenChar = true → ∀ c ∈ half, isTokenChar c = true := by
      rintro half (rfl | h) c hc
      · rw [mem_singleton.1 hc]
        decide
      · exact all_eq_true.1 h c hc
    refine ⟨media, subtype, hs, htext, htype, ?_, htok htt, htok hst⟩
    intro hmem
    rw [htext, count_append, count_cons_self] at hcnt
    have := count_pos_iff.2 hmem
    omega

theorem MediaType.normalized : normalizeContentType m.text = m.text := by
  obtain ⟨media, subtype, h⟩ := m.halves
  have hsemi : m.text.takeWhile (· ≠ ';') = m.text := by
    rw [takeWhile_eq_self_iff]
    intro c hc
    rw [h.text] at hc
    rw [decide_eq_true_eq]
    rintro rfl
    rcases mem_append.1 hc with hc | hc
    · exact absurd (h.type_token _ hc) (by decide)
    · rcases mem_cons.1 hc with hc | hc
      · exact absurd hc (by decide)
      · exact absurd (h.subtype_token _ hc) (by decide)
  rw [normalizeContentType, hsemi, trim, trimBy_eq_self m.whitespace, m.lower]

/-- The media type or range takes a content type. -/
def MediaType.Accepts (actual : Text) : Prop := m.text = actual ∨ mediaTypeWildcardMatches m.text actual = true

theorem contentTypeMatches_iff {expected actual} :
    contentTypeMatches expected actual = true ↔ expected = [] ∨
      ∃ value, actual.map normalizeContentType = some value ∧ ∃ m ∈ expected, m.Accepts value := by
  unfold contentTypeMatches
  cases expected with
  | nil => simp
  | cons =>
    cases actual.map normalizeContentType with
    | none => simp
    | some => simp [MediaType.normalized, MediaType.Accepts]

theorem wildcard_iff {m : MediaType} {media subtype actual} (h : m.Halves media subtype) :
    mediaTypeWildcardMatches m.text actual = true ↔ m.text = "*/*".toList ∨
      (subtype = ['*'] ∧ ∃ rest, actual = media ++ '/' :: rest) := by
  have hstr : ∀ start, stripSuffix "/*".toList m.text = some start ↔ start = media ∧ subtype = ['*'] := by
    intro start
    rw [stripSuffix_eq_some, h.text, show "/*".toList = '/' :: ['*'] from rfl,
      append_cons_inj_of_notMem h.type_slash h.subtype_slash]
    constructor
    · rintro ⟨rfl, -, rfl⟩
      exact ⟨rfl, rfl⟩
    · rintro ⟨rfl, rfl⟩
      exact ⟨rfl, rfl, rfl⟩
  have hpref : (media.isPrefixOf actual && decide (actual[media.length]? = some '/')) = true ↔
      ∃ rest, actual = media ++ '/' :: rest := by
    simp only [Bool.and_eq_true, isPrefixOf_iff_prefix, decide_eq_true_eq]
    constructor
    · rintro ⟨⟨rest, rfl⟩, hslash⟩
      rw [List.getElem?_append_right le_rfl, Nat.sub_self] at hslash
      cases rest with
      | nil => cases hslash
      | cons c rest => cases hslash; exact ⟨rest, rfl⟩
    · rintro ⟨rest, rfl⟩
      simp
  simp only [mediaTypeWildcardMatches, Bool.or_eq_true, decide_eq_true_eq, Option.any_eq_true, hstr]
  refine or_congr_right ?_
  constructor
  · rintro ⟨_, ⟨rfl, hsub⟩, hp⟩
    exact ⟨hsub, hpref.1 hp⟩
  · rintro ⟨hsub, hp⟩
    exact ⟨media, ⟨rfl, hsub⟩, hpref.2 hp⟩

variable {a b : MediaType}

theorem mediaTypesOverlap_iff {aType aSub bType bSub} (ha : a.Halves aType aSub)
    (hb : b.Halves bType bSub) :
    mediaTypesOverlap a.text b.text = true ↔ a.text = "*/*".toList ∨ b.text = "*/*".toList ∨
      ((aSub = ['*'] ∨ bSub = ['*']) ∧ aType = bType) ∨ a.text = b.text := by
  have ho : ∀ {m : MediaType} {media subtype : Text}, m.Halves media subtype →
      m.text ≠ "*/*".toList → (subtype = ['*'] ↔ subtype = ['*'] ∧ media ≠ ['*']) := by
    intro m media subtype h hne
    refine ⟨fun hs => ⟨hs, ?_⟩, And.left⟩
    rintro rfl
    exact hne (h.text.trans (by rw [hs]; rfl))
  have htyp : a.text = b.text → aType = bType := by
    intro h
    have hspl := ha.split
    rw [h, hb.split] at hspl
    exact (Prod.mk.inj (Option.some.inj hspl)).1.symm
  simp only [mediaTypesOverlap, ha.split, hb.split]
  by_cases hwhole : a.text = "*/*".toList ∨ b.text = "*/*".toList
  · rw [if_pos (by simpa using hwhole)]
    tauto
  rw [if_neg (by simpa using hwhole)]
  obtain ⟨ha', hb'⟩ := not_or.1 hwhole
  have hwild : (decide (aSub = ['*']) && decide (aType ≠ ['*']) || decide (bSub = ['*']) &&
      decide (bType ≠ ['*'])) = true ↔ aSub = ['*'] ∨ bSub = ['*'] := by
    simp only [Bool.or_eq_true, Bool.and_eq_true, decide_eq_true_eq]
    exact or_congr (ho ha ha').symm (ho hb hb').symm
  by_cases hsub : aSub = ['*'] ∨ bSub = ['*']
  · rw [if_pos (hwild.2 hsub), decide_eq_true_eq]
    tauto
  · rw [if_neg (fun h => hsub (hwild.1 h)), decide_eq_true_eq]
    tauto

theorem mediaTypesOverlap_of_accepts {actual} (ha : a.Accepts actual)
    (hb : b.Accepts actual) : mediaTypesOverlap a.text b.text = true := by
  obtain ⟨aType, aSub, hah⟩ := a.halves
  obtain ⟨bType, bSub, hbh⟩ := b.halves
  rw [mediaTypesOverlap_iff hah hbh]
  rcases ha with rfl | ha
  · rcases hb with hb | hb
    · exact .inr (.inr (.inr hb.symm))
    · rcases (wildcard_iff hbh).1 hb with hb | ⟨hsub, rest, hr⟩
      · exact .inr (.inl hb)
      · rw [hah.text] at hr
        exact .inr (.inr (.inl ⟨.inr hsub, eq_of_append_cons_eq hah.type_slash hbh.type_slash hr⟩))
  · rcases (wildcard_iff hah).1 ha with ha | ⟨hsub, rest, hr⟩
    · exact .inl ha
    · rcases hb with rfl | hb
      · rw [hbh.text] at hr
        exact .inr (.inr (.inl ⟨.inl hsub, (eq_of_append_cons_eq hbh.type_slash hah.type_slash hr).symm⟩))
      · rcases (wildcard_iff hbh).1 hb with hb | ⟨-, rest', hr'⟩
        · exact .inr (.inl hb)
        · rw [hr] at hr'
          exact .inr (.inr (.inl ⟨.inl hsub, eq_of_append_cons_eq hah.type_slash hbh.type_slash hr'⟩))

theorem exists_accepts_of_overlap (h : mediaTypesOverlap a.text b.text = true) :
    ∃ m, (m = a ∨ m = b) ∧ a.Accepts m.text ∧ b.Accepts m.text := by
  obtain ⟨aType, aSub, hah⟩ := a.halves
  obtain ⟨bType, bSub, hbh⟩ := b.halves
  rcases (mediaTypesOverlap_iff hah hbh).1 h with h | h | ⟨hsub, htype⟩ | h
  · exact ⟨b, .inr rfl, .inr ((wildcard_iff hah).2 (.inl h)), .inl rfl⟩
  · exact ⟨a, .inl rfl, .inl rfl, .inr ((wildcard_iff hbh).2 (.inl h))⟩
  · rcases hsub with hsub | hsub
    · exact ⟨b, .inr rfl, .inr ((wildcard_iff hah).2 (.inr ⟨hsub, bSub, htype ▸ hbh.text⟩)), .inl rfl⟩
    · exact ⟨a, .inl rfl, .inl rfl, .inr ((wildcard_iff hbh).2 (.inr ⟨hsub, aSub, htype ▸ hah.text⟩))⟩
  · exact ⟨a, .inl rfl, .inl rfl, .inl h.symm⟩

theorem contentTypes_overlap_of_match {a b actual}
    (ha : contentTypeMatches a actual = true) (hb : contentTypeMatches b actual = true) :
    contentTypesOverlap a b = true := by
  rcases contentTypeMatches_iff.1 ha with rfl | ⟨value, hval, x, hx, hxa⟩
  · rfl
  rcases contentTypeMatches_iff.1 hb with rfl | ⟨value', hval', y, hy, hya⟩
  · simp [contentTypesOverlap]
  · rw [hval] at hval'
    cases hval'
    simp only [contentTypesOverlap, Bool.or_eq_true, any_eq_true]
    exact .inr ⟨x, hx, y, hy, mediaTypesOverlap_of_accepts hxa hya⟩

theorem exists_contentType_of_overlap {a b} (h : contentTypesOverlap a b = true) :
    ∃ actual, contentTypeMatches a (some (normalizeContentType actual)) = true ∧
      contentTypeMatches b (some (normalizeContentType actual)) = true := by
  simp only [contentTypesOverlap, Bool.or_eq_true, List.isEmpty_iff, List.any_eq_true] at h
  have htext : ∀ m : MediaType, normalizeContentType (normalizeContentType m.text) = m.text := fun m => by
    rw [m.normalized, m.normalized]
  obtain ⟨actual, ha, hb⟩ := @exists_common _ _
    (fun m actual => MediaType.Accepts m (normalizeContentType (normalizeContentType actual))) a b
    MediaType.text (fun m => .inl (htext m).symm) [] (h.imp_right fun ⟨x, hx, y, hy, hxy⟩ => by
      obtain ⟨m, -, hma, hmb⟩ := exists_accepts_of_overlap hxy
      exact ⟨x, hx, y, hy, m.text, (htext m).symm ▸ hma, (htext m).symm ▸ hmb⟩)
  exact ⟨actual, contentTypeMatches_iff.2 (ha.imp_right fun ha => ⟨_, rfl, ha⟩),
    contentTypeMatches_iff.2 (hb.imp_right fun hb => ⟨_, rfl, hb⟩)⟩

/-! ### Paths -/

theorem prefixMatches_iff {start path} :
    prefixMatches start path = true ↔ start = ['/'] ∨ path = start ∨
      ∃ rest, path = start ++ rest ∧ (start.getLast? = some '/' ∨ rest.head? = some '/') := by
  unfold prefixMatches
  by_cases hroot : start = ['/'] ∨ path = start
  · rw [if_pos (by simpa using hroot)]
    tauto
  rw [if_neg (by simpa using hroot)]
  by_cases hlast : start.getLast? = some '/'
  · rw [if_pos hlast, isPrefixOf_iff_prefix]
    constructor
    · rintro ⟨rest, rfl⟩
      exact .inr (.inr ⟨rest, rfl, .inl hlast⟩)
    · rintro (h | h | ⟨rest, rfl, -⟩)
      · exact absurd (.inl h) hroot
      · exact absurd (.inr h) hroot
      · exact prefix_append _ _
  · rw [if_neg hlast]
    simp only [Option.any_eq_true, stripPrefix_eq_some, decide_eq_true_eq]
    constructor
    · rintro ⟨rest, rfl, hslash⟩
      exact .inr (.inr ⟨rest, rfl, .inr hslash⟩)
    · rintro (h | h | ⟨rest, rfl, h | h⟩)
      · exact absurd (.inl h) hroot
      · exact absurd (.inr h) hroot
      · exact absurd h hlast
      · exact ⟨rest, rfl, h⟩

theorem prefixMatches_between {start between path} (h : prefixMatches start path = true)
    (h1 : start <+: between) (h2 : between <+: path) : prefixMatches start between = true := by
  obtain ⟨rest1, rfl⟩ := h1
  obtain ⟨rest2, rfl⟩ := h2
  rw [prefixMatches_iff] at h ⊢
  rcases h with h | h | ⟨rest, h, hslash⟩
  · exact .inl h
  · have hnil : rest1 = [] := by
      have := congrArg List.length h
      simp only [length_append] at this
      exact eq_nil_of_length_eq_zero (by omega)
    exact .inr (.inl (by rw [hnil, append_nil]))
  · rw [append_assoc, append_cancel_left_eq] at h
    cases rest1 with
    | nil => exact .inr (.inl (append_nil _))
    | cons c cs =>
      refine .inr (.inr ⟨c :: cs, rfl, hslash.imp_right ?_⟩)
      rw [← h]
      exact id

theorem prefixMatches_prefix {start path} (h : prefixMatches start path = true) : start = ['/'] ∨ start <+: path := by
  rcases prefixMatches_iff.1 h with h | rfl | ⟨rest, rfl, -⟩
  · exact .inl h
  · exact .inr prefix_rfl
  · exact .inr (prefix_append _ _)

theorem prefixes_overlap_of_match {a b path} (ha : prefixMatches a path = true)
    (hb : prefixMatches b path = true) : prefixMatches a b = true ∨ prefixMatches b a = true := by
  rcases prefixMatches_prefix ha with rfl | hap
  · exact .inl (prefixMatches_iff.2 (.inl rfl))
  rcases prefixMatches_prefix hb with rfl | hbp
  · exact .inr (prefixMatches_iff.2 (.inl rfl))
  rcases prefix_or_prefix_of_prefix hap hbp with hab | hba
  · exact .inl (prefixMatches_between ha hab hbp)
  · exact .inr (prefixMatches_between hb hba hap)

theorem routePath_eq_self {path} (h : '?' ∉ path) : routePath path = path := by
  rw [routePath, takeWhile_eq_self_iff]
  intro c hc
  rw [decide_eq_true_eq]
  rintro rfl
  exact h hc

theorem RoutePath.no_query (p : RoutePath) : '?' ∉ p.text := by
  have := p.valid
  simp only [validPath, Bool.and_eq_true, Bool.not_eq_true', contains_eq_mem, decide_eq_false_iff_not] at this
  exact this.2

theorem RoutePath.segments_eq (p : RoutePath) : ∃ rest, segments p.text = [] :: rest := by
  have hv := p.valid
  simp only [validPath, Bool.and_eq_true, decide_eq_true_eq] at hv
  cases ht : p.text with
  | nil => rw [ht] at hv; cases hv.1
  | cons c cs =>
    rw [ht] at hv
    cases hv.1
    exact ⟨cs.splitOn '/', by rw [segments, splitOn_cons_eq_if_modifyHead]; rfl⟩

variable {segment : Text}

theorem isBracedSegment_of_template (h : isTemplateSegment segment = true) : isBracedSegment segment = true := by
  simp only [isTemplateSegment, isBracedSegment, Bool.and_eq_true] at h ⊢
  exact ⟨⟨h.1.1.2, h.1.2⟩, h.1.1.1⟩

/-- After the first slash of a template the two readings of a parameter agree. -/
theorem TemplatePath.isBracedSegment_eq (t : TemplatePath)
    (h : segment ∈ (segments t.text).tail) : isBracedSegment segment = isTemplateSegment segment := by
  have hall := all_eq_true.1 t.template segment h
  rw [Bool.eq_iff_iff]
  refine ⟨fun hb => ?_, isBracedSegment_of_template⟩
  have hbrace : '{' ∈ segment := by
    simp only [isBracedSegment, Bool.and_eq_true, decide_eq_true_eq] at hb
    exact mem_of_mem_head? hb.1.1
  simpa [hbrace] using hall

theorem templateMatches_iff {template path} :
    templateMatches template path = true ↔
      List.Forall₂ (fun t p => segmentMatches t p = true) (segments template) (segments path) := by
  rw [forall₂_iff_zip]
  simp [templateMatches]

/-- The texts of a pair of segments can be met by one segment of a path. -/
def segmentsMeet (first second : Text) : Bool :=
  (first = second || isTemplateSegment first || isTemplateSegment second) &&
    !(isTemplateSegment first && second.isEmpty) && !(isTemplateSegment second && first.isEmpty)

/-- The two templates have as many segments and no pair of segments keeps them apart. -/
def templatesMeet (first second : Text) : Bool :=
  (segments first).tail.length = (segments second).tail.length &&
    ((segments first).tail.zip (segments second).tail).all (fun (first, second) => segmentsMeet first second)

theorem templatesMeet_iff {first second} :
    templatesMeet first second = true ↔
      List.Forall₂ (fun a b => segmentsMeet a b = true) (segments first).tail (segments second).tail := by
  rw [forall₂_iff_zip]
  simp [templatesMeet]

/-- A segment that a path may have and that needs no query. -/
def PlainSegment (segment : Text) : Prop := '/' ∉ segment ∧ '?' ∉ segment

theorem segmentsMeet_iff {a b} (ha : isBracedSegment a = isTemplateSegment a)
    (hb : isBracedSegment b = isTemplateSegment b) (hpa : PlainSegment a) (hpb : PlainSegment b) :
    segmentsMeet a b = true ↔ ∃ c, PlainSegment c ∧ segmentMatches a c = true ∧ segmentMatches b c = true := by
  have hne : ∀ {t : Text}, isTemplateSegment t = true → t ≠ [] := by
    rintro _ h rfl
    cases h
  simp only [segmentsMeet, segmentMatches, ha, hb]
  by_cases hta : isTemplateSegment a = true <;> by_cases htb : isTemplateSegment b = true
  · simp only [hta, htb]
    exact ⟨fun _ => ⟨['x'], by simp [PlainSegment], by simp⟩, fun _ => by simp [hne hta, hne htb]⟩
  · simp only [hta, htb]
    constructor
    · intro h
      exact ⟨b, hpb, by simpa using h⟩
    · rintro ⟨c, -, hc, h⟩
      obtain rfl : b = c := by simpa using h
      simpa using hc
  · simp only [hta, htb]
    constructor
    · intro h
      exact ⟨a, hpa, by simpa using h⟩
    · rintro ⟨c, -, h, hc⟩
      obtain rfl : a = c := by simpa using h
      simpa using hc
  · simp only [hta, htb]
    constructor
    · intro h
      exact ⟨a, hpa, by simpa [eq_comm] using h⟩
    · rintro ⟨c, -, h, hc⟩
      simp_all

theorem RoutePath.plain_of_mem (p : RoutePath) (h : segment ∈ segments p.text) : PlainSegment segment :=
  ⟨not_mem_of_mem_splitOn h, fun hq => p.no_query (mem_of_mem_splitOn h hq)⟩

theorem exists_path_iff_templatesMeet (a b : TemplatePath) :
    templatesMeet a.text b.text = true ↔
      ∃ path, '?' ∉ path ∧ templateMatches a.text path = true ∧ templateMatches b.text path = true := by
  obtain ⟨as, has⟩ := a.segments_eq
  obtain ⟨bs, hbs⟩ := b.segments_eq
  have hmem : ∀ {t : TemplatePath} {rest : List Text}, segments t.text = [] :: rest → ∀ s ∈ rest,
      s ∈ (segments t.text).tail ∧ PlainSegment s := by
    intro t rest hr s hs
    exact ⟨by rw [hr]; exact hs, t.plain_of_mem (by rw [hr]; exact mem_cons_of_mem _ hs)⟩
  rw [templatesMeet_iff, has, hbs, tail_cons, tail_cons,
    forall₂_congr_mem fun x hx y hy => segmentsMeet_iff (a.isBracedSegment_eq (hmem has x hx).1)
      (b.isBracedSegment_eq (hmem hbs y hy).1) (hmem has x hx).2 (hmem hbs y hy).2,
    forall₂_common_iff]
  simp only [templateMatches_iff, has, hbs]
  constructor
  · rintro ⟨cs, hplain, hac, hbc⟩
    have hsegs : segments (['/'].intercalate ([] :: cs)) = [] :: cs := by
      refine splitOn_intercalate _ ?_ (cons_ne_nil _ _)
      intro c hc
      rcases mem_cons.1 hc with rfl | hc
      · exact not_mem_nil
      · exact (hplain c hc).1
    refine ⟨['/'].intercalate ([] :: cs), ?_, ?_⟩
    · intro hq
      rcases mem_intercalate hq with hq | ⟨piece, hp, hq⟩
      · cases hq
      · rcases mem_cons.1 hp with rfl | hp
        · cases hq
        · exact (hplain piece hp).2 hq
    · rw [hsegs]
      exact ⟨.cons rfl hac, .cons rfl hbc⟩
  · rintro ⟨path, hq, hap, hbp⟩
    generalize hcs : segments path = cs at hap hbp
    cases hap with
    | cons _ hap =>
      cases hbp with
      | cons _ hbp =>
        refine ⟨_, fun c hc => ?_, hap, hbp⟩
        have hc : c ∈ segments path := by
          rw [hcs]
          exact mem_cons_of_mem _ hc
        exact ⟨not_mem_of_mem_splitOn hc, fun hqc => hq (mem_of_mem_splitOn hc hqc)⟩

/-- Patterns of one kind that some path matches both of. -/
def pathsMeet : PathPattern → PathPattern → Bool
  | .template a, .template b => templatesMeet a.text b.text
  | a, b => pathsOverlap a b

theorem exists_path_iff_pathsMeet {a b} (h : a.specificity = b.specificity) :
    pathsMeet a b = true ↔ ∃ path, '?' ∉ path ∧ pathMatches a path = true ∧ pathMatches b path = true := by
  match a, b, h with
  | .exact a, .exact b, _ =>
    simp only [pathsMeet, pathsOverlap, pathMatches, decide_eq_true_eq]
    exact ⟨fun hab => ⟨a.text, a.no_query, rfl, hab.symm⟩, fun ⟨_, _, ha, hb⟩ => ha.trans hb.symm⟩
  | .template a, .template b, _ => exact exists_path_iff_templatesMeet a b
  | .pathPrefix a, .pathPrefix b, _ =>
    have hself : ∀ p : Text, prefixMatches p p = true := fun p => prefixMatches_iff.2 (.inr (.inl rfl))
    simp only [pathsMeet, pathsOverlap, pathMatches, Bool.or_eq_true]
    constructor
    · rintro (hab | hba)
      · exact ⟨b.text, b.no_query, hab, hself _⟩
      · exact ⟨a.text, a.no_query, hself _, hba⟩
    · rintro ⟨path, -, ha, hb⟩
      exact prefixes_overlap_of_match ha hb
  | .any, .any, _ => exact ⟨fun _ => ⟨['/'], by simp, rfl, rfl⟩, fun _ => rfl⟩

end Pooler
