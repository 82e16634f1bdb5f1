import Pooler.Spec.Store.Fingerprint

/-! Equal fingerprints mean equal configurations, as far as the kind of the credential looks at
them: the canonical text can be read back field by field. -/

namespace Pooler

open Lib

/-- The characters of a field behind its length. -/
def fieldText (value : String) : List Char := (fingerprintField value).toList

theorem fieldText_selfDelimiting : SelfDelimiting fieldText := by
  have hsiz : SelfDelimiting (fun value : String => (decimal value.utf8ByteSize ++ [':']) ++ value.toList) := by
    apply SelfDelimiting.sized (w := Char.utf8Size) Char.utf8Size_pos fun _ _ => String.toList_inj.1
    intro a b s t h
    obtain ⟨hsize, hst⟩ := decimal_selfDelimiting _ _ _ _ h
    refine ⟨?_, hst⟩
    rw [weigh_utf8Size, weigh_utf8Size, String.utf8Len_toList, String.utf8Len_toList, hsize]
  have heq : fieldText = fun value => (decimal value.utf8ByteSize ++ [':']) ++ value.toList ++ ['|'] := by
    funext value
    simp [fieldText, fingerprintField, decimal]
  rw [heq]
  exact hsiz.append_const ['|']

variable (values : List (Option String))

theorem fingerprintFields_toList : (fingerprintFields values).toList = (values.map (·.getD "")).flatMap fieldText := by
  rw [fingerprintFields, String.toList_join, List.flatMap_map, List.flatMap_map]
  rfl

/-- No field is present and empty. -/
def NoneEmpty : Prop := some "" ∉ values

theorem getD_inj : ∀ {values others}, NoneEmpty values → NoneEmpty others →
    values.map (·.getD "") = others.map (·.getD "") → values = others := by
  intro values
  induction values with
  | nil => intro others _ _ h; exact (List.map_eq_nil_iff.1 h.symm).symm
  | cons value values ih =>
    intro others hv ho h
    cases others with
    | nil => cases h
    | cons other =>
      simp only [NoneEmpty, List.mem_cons, not_or] at hv ho
      obtain ⟨hhead, htail⟩ := List.cons.inj h
      rw [ih hv.2 ho.2 htail]
      congr 1
      cases value with
      | none =>
        cases other with
        | none => rfl
        | some => exact absurd (congrArg some hhead) ho.1
      | some =>
        cases other with
        | none => exact absurd (congrArg some hhead).symm hv.1
        | some => exact congrArg some hhead

theorem fingerprintFields_inj {values others} (hv : NoneEmpty values)
    (ho : NoneEmpty others) (hlen : values.length = others.length) {s t}
    (h : (fingerprintFields values).toList ++ s = (fingerprintFields others).toList ++ t) :
    values = others ∧ s = t := by
  rw [fingerprintFields_toList, fingerprintFields_toList] at h
  obtain ⟨hflds, hst⟩ := fieldText_selfDelimiting.flatMap_append_inj (by simpa using hlen) h
  exact ⟨getD_inj hv ho hflds, hst⟩

theorem checkOptional_ok {values} (h : checkOptional values = .ok ()) : NoneEmpty values := by
  intro hm
  have hchk := forM_eq_ok.1 h "" (List.mem_filterMap.2 ⟨some "", hm, rfl⟩)
  simp [withinBounds, sizeWithin] at hchk

namespace CredentialFingerprintInput

variable (input : CredentialFingerprintInput)

theorem scopesPart_toList : input.scopesPart.toList =
    decimal input.sortedScopes.length ++ [':'] ++ input.sortedScopes.flatMap fieldText := by
  simp only [scopesPart, decimal, String.toList_append, Nat.toString_eq_ofList_toDigits, String.toList_ofList,
    String.toList_join, List.flatMap_map]
  rfl

def entryText (entry : String ×ₗ String) : List Char := fieldText (ofLex entry).1 ++ fieldText (ofLex entry).2

theorem entryText_selfDelimiting : SelfDelimiting entryText := fun a b s t h =>
  (fieldText_selfDelimiting.pair fieldText_selfDelimiting) (ofLex a) (ofLex b) s t h

theorem additionalPart_toList : input.additionalPart.toList =
    decimal input.sortedAdditional.length ++ [':'] ++ input.sortedAdditional.flatMap entryText := by
  simp only [additionalPart, decimal, String.toList_append, Nat.toString_eq_ofList_toDigits, String.toList_ofList,
    String.toList_join, List.flatMap_map]
  rfl

theorem scopesPart_inj {a b : CredentialFingerprintInput} {s t}
    (h : a.scopesPart.toList ++ s = b.scopesPart.toList ++ t) : a.sortedScopes = b.sortedScopes ∧ s = t := by
  rw [scopesPart_toList, scopesPart_toList] at h
  exact fieldText_selfDelimiting.counted decimal_selfDelimiting _ _ _ _ h

theorem additionalPart_inj {a b : CredentialFingerprintInput}
    (h : a.additionalPart.toList = b.additionalPart.toList) : a.sortedAdditional = b.sortedAdditional := by
  rw [additionalPart_toList, additionalPart_toList] at h
  exact (entryText_selfDelimiting.counted decimal_selfDelimiting).injective h

theorem sortedScopes_eq_iff {a b : CredentialFingerprintInput} :
    a.sortedScopes = b.sortedScopes ↔ ∀ scope, scope ∈ a.oauthScopes ↔ scope ∈ b.oauthScopes :=
  sortDedup_eq_iff

theorem sortedAdditional_eq_iff {a b : CredentialFingerprintInput} : a.sortedAdditional = b.sortedAdditional ↔
    ∀ entry, entry ∈ a.oauthAdditionalIdentity ↔ entry ∈ b.oauthAdditionalIdentity := by
  rw [sortedAdditional, sortedAdditional, sortDedup_eq_iff]
  have hm : ∀ (l : List (String × String)) (entry : String ×ₗ String),
      entry ∈ l.map toLex ↔ ofLex entry ∈ l := by
    intro l entry
    rw [List.mem_map]
    exact ⟨fun ⟨e, he, h⟩ => h ▸ he, fun h => ⟨ofLex entry, h, rfl⟩⟩
  simp only [hm]
  exact ⟨fun h entry => h (toLex entry), fun h entry => h (ofLex entry)⟩

/-- The fields that identify every configuration. -/
structure SameLegacy (a b : CredentialFingerprintInput) : Prop where
  accountId : a.accountId = b.accountId
  providerInstanceId : a.providerInstanceId = b.providerInstanceId
  providerOrigin : a.providerOrigin = b.providerOrigin
  authKind : a.authKind = b.authKind
  providerProfile : a.providerProfile = b.providerProfile
  oauthClientId : a.oauthClientId = b.oauthClientId
  oauthGrantType : a.oauthGrantType = b.oauthGrantType
  authorizationEndpoint : a.authorizationEndpoint = b.authorizationEndpoint
  tokenEndpoint : a.tokenEndpoint = b.tokenEndpoint
  authPlacement : a.authPlacement = b.authPlacement

/-- The fields that identify an OAuth configuration besides; scopes and additional entries are sets. -/
structure SameOauth (a b : CredentialFingerprintInput) : Prop where
  revocationEndpoint : a.revocationEndpoint = b.revocationEndpoint
  identityEndpoint : a.identityEndpoint = b.identityEndpoint
  callbackEndpoint : a.callbackEndpoint = b.callbackEndpoint
  oauthClientSecretReference : a.oauthClientSecretReference = b.oauthClientSecretReference
  oauthScopes : ∀ scope, scope ∈ a.oauthScopes ↔ scope ∈ b.oauthScopes
  oauthAdditionalIdentity : ∀ entry, entry ∈ a.oauthAdditionalIdentity ↔ entry ∈ b.oauthAdditionalIdentity

/-- Agreement on the fields that apply. The kind is itself one of the fields. -/
def SameIdentity (a b : CredentialFingerprintInput) : Prop := a.SameLegacy b ∧ (a.isOauth = true → a.SameOauth b)

theorem legacyFields_eq_iff {a b : CredentialFingerprintInput} : a.legacyFields = b.legacyFields ↔ a.SameLegacy b := by
  simp only [legacyFields, List.cons.injEq, Option.some.injEq, and_true]
  exact ⟨fun ⟨h1, h2, h3, h4, h5, h6, h7, h8, h9, h10⟩ => ⟨h1, h2, h3, h4, h5, h6, h7, h8, h9, h10⟩,
    fun ⟨h1, h2, h3, h4, h5, h6, h7, h8, h9, h10⟩ => ⟨h1, h2, h3, h4, h5, h6, h7, h8, h9, h10⟩⟩

theorem oauthFields_eq_iff {a b : CredentialFingerprintInput} : a.oauthFields = b.oauthFields ↔
    a.SameLegacy b ∧ a.revocationEndpoint = b.revocationEndpoint ∧ a.identityEndpoint = b.identityEndpoint ∧
      a.callbackEndpoint = b.callbackEndpoint ∧ a.oauthClientSecretReference = b.oauthClientSecretReference := by
  simp only [oauthFields, List.cons.injEq, Option.some.injEq, and_true]
  constructor
  · rintro ⟨h1, h2, h3, h4, h5, h6, h7, h8, h9, hr, hi, hc, hs, h10⟩
    exact ⟨⟨h1, h2, h3, h4, h5, h6, h7, h8, h9, h10⟩, hr, hi, hc, hs⟩
  · rintro ⟨⟨h1, h2, h3, h4, h5, h6, h7, h8, h9, h10⟩, hr, hi, hc, hs⟩
    exact ⟨h1, h2, h3, h4, h5, h6, h7, h8, h9, hr, hi, hc, hs, h10⟩

/-- No field of a valid input is present and empty. -/
structure Valid (input : CredentialFingerprintInput) : Prop where
  legacy : NoneEmpty input.legacyFields
  oauth : NoneEmpty input.oauthFields

variable {input : CredentialFingerprintInput}

theorem required_ok (h : input.validateLegacyFields = .ok ()) :
    some "" ∉ [some input.accountId, some input.providerInstanceId, some input.providerOrigin,
      some input.authKind, some input.providerProfile, some input.authPlacement] := by
  rw [validateLegacyFields, bind_eq_ok] at h
  obtain ⟨_, hflds, -⟩ := h
  have hne : ∀ field ∈ [("account_id", input.accountId), ("provider_instance_id", input.providerInstanceId),
      ("provider_origin", input.providerOrigin), ("auth_kind", input.authKind),
      ("provider_profile", input.providerProfile), ("auth_placement", input.authPlacement)], field.2 ≠ "" := by
    intro field hfld
    obtain ⟨_, hemp, -⟩ := bind_eq_ok.1 (forM_eq_ok.1 hflds field hfld)
    intro hfld
    simp [nonEmpty, hfld] at hemp
  simp only [List.forall_mem_cons] at hne
  obtain ⟨h1, h2, h3, h4, h5, h6, -⟩ := hne
  simp [Ne.symm h1, Ne.symm h2, Ne.symm h3, Ne.symm h4, Ne.symm h5, Ne.symm h6]

theorem valid_of_checks (hl : input.validateLegacyFields = .ok ())
    (ho : input.validateOauthFields = .ok ()) : input.Valid := by
  have hreq := required_ok hl
  rw [validateLegacyFields, bind_eq_ok] at hl
  obtain ⟨_, -, hopt⟩ := hl
  rw [validateOauthFields, bind_eq_ok] at ho
  obtain ⟨_, hend, -⟩ := ho
  have hopt := checkOptional_ok hopt
  have hend := checkOptional_ok hend
  simp only [NoneEmpty, List.mem_cons, List.not_mem_nil, or_false, not_or] at hreq hopt hend
  constructor
  · simp [NoneEmpty, legacyFields, hreq, hopt]
  · simp [NoneEmpty, oauthFields, hreq, hopt, hend]

variable {δ : Type} {hexDigest : ByteArray → δ} {a b : CredentialFingerprintInput} {x y : δ}

theorem fingerprint_ok (h : a.fingerprint hexDigest = .ok x) :
    a.Valid ∧ x = hexDigest (if a.isOauth then a.oauthCanonical else a.legacyCanonical).toUTF8 := by
  rw [fingerprint, bind_eq_ok] at h
  obtain ⟨_, hl, h⟩ := h
  rw [bind_eq_ok] at h
  obtain ⟨_, ho, h⟩ := h
  refine ⟨valid_of_checks hl ho, ?_⟩
  split_ifs at h ⊢
  · cases h; rfl
  · cases h; rfl

theorem legacyCanonical_eq_iff (ha : a.Valid) (hb : b.Valid) :
    a.legacyCanonical = b.legacyCanonical ↔ a.SameLegacy b := by
  rw [← legacyFields_eq_iff]
  constructor
  · intro h
    have hchars := congrArg String.toList h
    simp only [legacyCanonical, String.toList_append] at hchars
    have hflds := List.append_cancel_left hchars
    exact (fingerprintFields_inj ha.legacy hb.legacy rfl (congrArg (· ++ []) hflds)).1
  · intro h
    rw [legacyCanonical, legacyCanonical, h]

/-- Texts that start with different headers differ: the headers are equally long. -/
theorem header_inj {first second : String} (hlen : first.length = second.length) {s t}
    (h : first.toList ++ s = second.toList ++ t) : first = second ∧ s = t := by
  obtain ⟨hheader, hrest⟩ := List.append_inj h hlen
  exact ⟨String.toList_inj.1 hheader, hrest⟩

theorem oauthCanonical_start (h : a.oauthCanonical = b.oauthCanonical) :
    a.oauthAdditionalIdentity.isEmpty = b.oauthAdditionalIdentity.isEmpty := by
  have hchars := congrArg String.toList h
  simp only [oauthCanonical, String.toList_append, List.append_assoc] at hchars
  by_contra hne
  cases ha : a.oauthAdditionalIdentity.isEmpty <;> cases hb : b.oauthAdditionalIdentity.isEmpty
  · exact hne (ha.trans hb.symm)
  · simp only [ha, hb, if_true, Bool.false_eq_true, if_false] at hchars
    exact absurd (header_inj (by decide +kernel) hchars).1 (by decide +kernel)
  · simp only [ha, hb, if_true, Bool.false_eq_true, if_false] at hchars
    exact absurd (header_inj (by decide +kernel) hchars).1 (by decide +kernel)
  · exact hne (ha.trans hb.symm)

theorem legacyCanonical_ne_oauthCanonical : a.legacyCanonical ≠ b.oauthCanonical := by
  intro h
  have hchars := congrArg String.toList h
  simp only [legacyCanonical, oauthCanonical, String.toList_append, List.append_assoc] at hchars
  split_ifs at hchars
  · exact absurd (header_inj (by decide +kernel) hchars).1 (by decide +kernel)
  · exact absurd (header_inj (by decide +kernel) hchars).1 (by decide +kernel)

theorem oauthCanonical_eq_iff (ha : a.Valid) (hb : b.Valid) :
    a.oauthCanonical = b.oauthCanonical ↔ a.SameLegacy b ∧ a.SameOauth b := by
  constructor
  · intro h
    have hemp := oauthCanonical_start h
    have hchars := congrArg String.toList h
    simp only [oauthCanonical, String.toList_append, List.append_assoc, hemp] at hchars
    obtain ⟨hflds, hrest⟩ := fingerprintFields_inj ha.oauth hb.oauth rfl (List.append_cancel_left hchars)
    obtain ⟨hscop, hrest⟩ := scopesPart_inj hrest
    obtain ⟨hleg, hr, hi, hc, hs⟩ := oauthFields_eq_iff.1 hflds
    refine ⟨hleg, hr, hi, hc, hs, sortedScopes_eq_iff.1 hscop, ?_⟩
    cases hb : b.oauthAdditionalIdentity.isEmpty
    · simp only [hb] at hrest
      exact sortedAdditional_eq_iff.1 (additionalPart_inj hrest)
    · rw [List.isEmpty_iff.1 hb, List.isEmpty_iff.1 (hemp.trans hb)]
      exact fun _ => Iff.rfl
  · rintro ⟨hleg, hr, hi, hc, hs, hscop, hadd⟩
    have hflds := oauthFields_eq_iff.2 ⟨hleg, hr, hi, hc, hs⟩
    have hscop := sortedScopes_eq_iff.2 hscop
    have hemp : a.oauthAdditionalIdentity.isEmpty = b.oauthAdditionalIdentity.isEmpty := by
      rw [Bool.eq_iff_iff, List.isEmpty_iff, List.isEmpty_iff, List.eq_nil_iff_forall_not_mem,
        List.eq_nil_iff_forall_not_mem]
      exact forall_congr' fun entry => not_congr (hadd entry)
    have hadd := sortedAdditional_eq_iff.2 hadd
    rw [oauthCanonical, oauthCanonical, hflds, hemp, scopesPart, scopesPart, hscop, additionalPart,
      additionalPart, hadd]

/-- Two fingerprints are equal exactly when the configurations agree on the fields that apply to
their kind. -/
theorem fingerprint_eq_iff (hinj : Function.Injective hexDigest) (ha : a.fingerprint hexDigest = .ok x)
    (hb : b.fingerprint hexDigest = .ok y) : x = y ↔ a.SameIdentity b := by
  obtain ⟨hva, rfl⟩ := fingerprint_ok ha
  obtain ⟨hvb, rfl⟩ := fingerprint_ok hb
  rw [hinj.eq_iff, String.toUTF8, String.toUTF8, String.toByteArray_inj, SameIdentity]
  have hk : a.SameLegacy b → a.isOauth = b.isOauth := fun h => by rw [isOauth, isOauth, h.authKind]
  cases hka : a.isOauth <;> cases hkb : b.isOauth
  · simpa using legacyCanonical_eq_iff hva hvb
  · refine iff_of_false legacyCanonical_ne_oauthCanonical fun h => ?_
    simp [hka, hkb] at hk
    exact hk h.1
  · refine iff_of_false (Ne.symm legacyCanonical_ne_oauthCanonical) fun h => ?_
    simp [hka, hkb] at hk
    exact hk h.1
  · simpa using oauthCanonical_eq_iff hva hvb

def oauthSample (scopes : List String) : CredentialFingerprintInput where
  accountId := "a"
  providerInstanceId := "p"
  providerOrigin := "o"
  authKind := "OAuth"
  providerProfile := "f"
  oauthClientId := some "c"
  oauthGrantType := none
  oauthScopes := scopes
  authorizationEndpoint := none
  tokenEndpoint := some "t"
  revocationEndpoint := none
  identityEndpoint := none
  callbackEndpoint := none
  oauthClientSecretReference := none
  oauthAdditionalIdentity := [("k", "v")]
  authPlacement := "h"

theorem fingerprint_of_scope_set : ∃ x y : ByteArray,
    (oauthSample ["read", "write"]).fingerprint id = .ok x ∧
    (oauthSample ["write", "read", "write"]).fingerprint id = .ok y ∧ x = y := by
  have hok : ∀ e : Except StoreError ByteArray, e.isOk = true → ∃ x, e = .ok x := fun e h => by
    cases e with
    | error => cases h
    | ok x => exact ⟨x, rfl⟩
  obtain ⟨x, ha⟩ := hok ((oauthSample ["read", "write"]).fingerprint id) (by decide +kernel)
  obtain ⟨y, hb⟩ := hok ((oauthSample ["write", "read", "write"]).fingerprint id) (by decide +kernel)
  refine ⟨x, y, ha, hb, (fingerprint_eq_iff Function.injective_id ha hb).2 ⟨?_, fun _ => ?_⟩⟩
  · exact ⟨rfl, rfl, rfl, rfl, rfl, rfl, rfl, rfl, rfl, rfl⟩
  · refine ⟨rfl, rfl, rfl, rfl, fun scope => ?_, fun _ => Iff.rfl⟩
    simp only [oauthSample, List.mem_cons, List.not_mem_nil, or_false]
    tauto

/-- A fingerprint of the first version stands for a configuration of today exactly when the two agree
on its fields and the credential is no OAuth one: those of OAuth always have to be retired. -/
theorem legacy_fingerprint_stands_iff (hinj : Function.Injective hexDigest) (ha : a.fingerprint hexDigest = .ok x)
    (hb : b.legacyFingerprint hexDigest = .ok y) : x = y ↔ a.isOauth = false ∧ a.SameLegacy b := by
  obtain ⟨_, hl, hy⟩ := bind_eq_ok.1 hb
  cases hy
  obtain ⟨hva, rfl⟩ := fingerprint_ok ha
  -- the first version does not look at what else an OAuth configuration has
  let plain := { b with
    oauthScopes := [], revocationEndpoint := none, identityEndpoint := none, callbackEndpoint := none
    oauthClientSecretReference := none, oauthAdditionalIdentity := [] }
  have hvb : plain.Valid := valid_of_checks hl rfl
  rw [hinj.eq_iff, String.toUTF8, String.toUTF8, String.toByteArray_inj]
  cases a.isOauth with
  | true => exact iff_of_false (Ne.symm legacyCanonical_ne_oauthCanonical) nofun
  | false =>
    have hsame : a.SameLegacy plain ↔ a.SameLegacy b := by rw [← legacyFields_eq_iff, ← legacyFields_eq_iff]; rfl
    exact (legacyCanonical_eq_iff hva hvb).trans (by simpa using hsame)

def apiKeySample (scopes : List String) : CredentialFingerprintInput := { oauthSample scopes with authKind := "api_key" }

theorem api_key_fingerprint_stands : ∃ x y : ByteArray, (apiKeySample ["read"]).fingerprint id = .ok x ∧
    (apiKeySample []).legacyFingerprint id = .ok y ∧ x = y := by
  refine ⟨_, _, rfl, rfl, (legacy_fingerprint_stands_iff (a := apiKeySample ["read"]) (b := apiKeySample [])
    Function.injective_id rfl rfl).2 ⟨by decide +kernel, ?_⟩⟩
  exact ⟨rfl, rfl, rfl, rfl, rfl, rfl, rfl, rfl, rfl, rfl⟩

end CredentialFingerprintInput

end Pooler
