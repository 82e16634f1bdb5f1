import Pooler.Lib.Trace
import Pooler.Sanity.WebSocketPool

/-! When the identity of a request names its credentials. The input of `materialized_generation`
puts header names and values one after the other without their lengths, so it tells credentials
apart only where no value holds the name that follows it. -/

namespace Pooler.WebSocketPool

open Lib List

/-- Each authentication header has at most one value, which is not empty, and no value holds the
name of the header that is hashed next. -/
def Unambiguous (headers : HeaderMap) : Prop :=
  (∀ name ∈ [authorizationName, xApiKeyName, xGoogApiKeyName],
    (headers.getAll name).length ≤ 1 ∧ ∀ value ∈ headers.getAll name, value.text.bytes ≠ []) ∧
  (∀ value ∈ headers.getAll authorizationName, ¬ xApiKeyName.text.bytes <:+: value.text.bytes) ∧
  (∀ value ∈ headers.getAll xApiKeyName, ¬ xGoogApiKeyName.text.bytes <:+: value.text.bytes)

def valueBytes (values : List HeaderValue) : List UInt8 := values.flatMap fun value => value.text.bytes

theorem valueBytes_inj {vals vals'} (hone : vals.length ≤ 1)
    (hone' : vals'.length ≤ 1) (hne : ∀ value ∈ vals, value.text.bytes ≠ [])
    (hne' : ∀ value ∈ vals', value.text.bytes ≠ []) (h : valueBytes vals = valueBytes vals') :
    vals = vals' := by
  match vals, vals' with
  | [], [] => rfl
  | [], [value] =>
    simp only [valueBytes, flatMap_nil, flatMap_cons, append_nil] at h
    exact absurd h.symm (hne' value mem_cons_self)
  | [value], [] =>
    simp only [valueBytes, flatMap_nil, flatMap_cons, append_nil] at h
    exact absurd h (hne value mem_cons_self)
  | [value], [value'] =>
    simp only [valueBytes, flatMap_nil, flatMap_cons, append_nil] at h
    rw [HeaderValue.ext (Slice.ext h)]
  | _ :: _ :: _, _ => simp at hone
  | _, _ :: _ :: _ => simp at hone'

theorem not_infix_valueBytes {separator vals} (hsep : separator ≠ []) (hone : vals.length ≤ 1)
    (h : ∀ value ∈ vals, ¬ separator <:+: value.text.bytes) : ¬ separator <:+: valueBytes vals := by
  match vals with
  | [] => simpa [valueBytes] using hsep
  | [value] =>
    simp only [valueBytes, flatMap_nil, flatMap_cons, append_nil]
    exact h value mem_cons_self
  | _ :: _ :: _ => simp at hone

/-- The three authentication headers have the same values. -/
def SameHeaders (headers headers' : HeaderMap) : Prop :=
  ∀ name ∈ [authorizationName, xApiKeyName, xGoogApiKeyName], headers.getAll name = headers'.getAll name

theorem materializedInput_eq (gen : UInt64) (hdrs : HeaderMap) :
    materializedInput gen hdrs =
      beBytes 8 gen.toNat ++ (authorizationName.text.bytes ++
        (valueBytes (hdrs.getAll authorizationName) ++ (xApiKeyName.text.bytes ++
          (valueBytes (hdrs.getAll xApiKeyName) ++ (xGoogApiKeyName.text.bytes ++
            valueBytes (hdrs.getAll xGoogApiKeyName)))))) := by
  simp [materializedInput, headerMaterial, valueBytes]

theorem separator_letters :
    (∃ tail, xApiKeyName.text.bytes = 120 :: tail ∧ (120 : UInt8) ∉ tail) ∧
      ∃ tail, xGoogApiKeyName.text.bytes = 120 :: tail ∧ (120 : UInt8) ∉ tail :=
  ⟨⟨xApiKeyName.text.bytes.tail, by decide +kernel, by decide +kernel⟩,
    ⟨xGoogApiKeyName.text.bytes.tail, by decide +kernel, by decide +kernel⟩⟩

theorem materializedInput_inj {gen gen' hdrs hdrs'}
    (h : Unambiguous hdrs) (h' : Unambiguous hdrs')
    (heq : materializedInput gen hdrs = materializedInput gen' hdrs') :
    gen = gen' ∧ SameHeaders hdrs hdrs' := by
  obtain ⟨hvals, haut, hkey⟩ := h
  obtain ⟨hvals', haut', hkey'⟩ := h'
  simp only [forall_mem_cons, not_mem_nil, false_imp_iff, implies_true, and_true] at hvals hvals'
  obtain ⟨⟨hone₁, hne₁⟩, ⟨hone₂, hne₂⟩, hone₃, hne₃⟩ := hvals
  obtain ⟨⟨hone₁', hne₁'⟩, ⟨hone₂', hne₂'⟩, hone₃', hne₃'⟩ := hvals'
  have hinf := not_infix_valueBytes (by decide +kernel) hone₁ haut
  have hinf' := not_infix_valueBytes (by decide +kernel) hone₁' haut'
  have hinfixKey := not_infix_valueBytes (by decide +kernel) hone₂ hkey
  have hinfixKey' := not_infix_valueBytes (by decide +kernel) hone₂' hkey'
  rw [materializedInput_eq, materializedInput_eq] at heq
  obtain ⟨hgen, heq⟩ := append_inj heq (by simp)
  have hgener : gen = gen' := by
    have hnat := beBytes_inj (by norm_num; exact gen.toNat_lt) (by norm_num; exact gen'.toNat_lt) hgen
    exact UInt64.toNat_inj.1 hnat
  have heq := append_cancel_left heq
  obtain ⟨⟨tail, hname, hlet⟩, tailGoog, hnameGoog, hletterGoog⟩ := separator_letters
  rw [hname] at heq hinf hinf'
  obtain ⟨heq₁, heq⟩ := append_separator_inj hlet hinf hinf' heq
  rw [hnameGoog] at heq hinfixKey hinfixKey'
  obtain ⟨heq₂, heq₃⟩ := append_separator_inj hletterGoog hinfixKey hinfixKey' heq
  refine ⟨hgener, ?_⟩
  simp only [SameHeaders, forall_mem_cons, not_mem_nil, false_imp_iff, implies_true, and_true]
  exact ⟨valueBytes_inj hone₁ hone₁' hne₁ hne₁' heq₁, valueBytes_inj hone₂ hone₂' hne₂ hne₂' heq₂,
    valueBytes_inj hone₃ hone₃' hne₃ hne₃' heq₃⟩

/-- The two kinds of digests have no input in common: the tenth byte differs. -/
theorem materializedInput_ne_delta (gen gen' : UInt64) (hdrs delta : HeaderMap) :
    materializedInput gen hdrs ≠ authorizationDeltaInput gen' delta := by
  intro h
  have hbyte : (materializedInput gen hdrs)[9]? = some 117 := by
    rw [materializedInput_eq, getElem?_append_right (by simp)]
    simp only [length_beBytes]
    rw [getElem?_append_left (by decide +kernel)]
    decide +kernel
  have hbyte' : (authorizationDeltaInput gen' delta)[9]? = some 116 := by
    rw [authorizationDeltaInput, append_assoc, getElem?_append_left (by decide +kernel)]
    decide +kernel
  rw [h, hbyte'] at hbyte
  exact absurd (Option.some.inj hbyte) (by decide)

/-- The connection was opened for the same place, generation and credentials. -/
structure SameAccess (request opened : WebSocketRequest) : Prop where
  profile : opened.profile = request.profile
  account : opened.account = request.account
  endpoint : opened.endpoint = request.endpoint
  session : opened.session = request.session
  configurationGeneration : opened.configurationGeneration = request.configurationGeneration
  headers : SameHeaders opened.headers request.headers

/-- A request whose materialised headers, if it has them, are unambiguous. -/
def Clear (request : WebSocketRequest) : Prop :=
  match request.auth with
  | .materialized => Unambiguous request.headers
  | _ => True

variable {δ κ : Type} [LinearOrder δ] {sha256 : List UInt8 → δ} {limits : WebSocketLimits}

omit [LinearOrder δ] in
theorem sameAccess_of_identity_eq (hinj : sha256.Injective) {req opened}
    (hauth : req.auth = .materialized) (hreq : Clear req) (hopn : Clear opened)
    (h : opened.identity sha256 = req.identity sha256) : SameAccess req opened := by
  have hgen : opened.generation sha256 = req.generation sha256 := congrArg ConnectionIdentity.generation h
  unfold WebSocketRequest.generation at hgen
  rw [hauth] at hgen
  cases hopenedAuth : opened.auth with
  | native =>
    rw [hopenedAuth] at hgen
    cases hgen
  | delta =>
    rw [hopenedAuth] at hgen
    simp only [CredentialGeneration.materialized.injEq] at hgen
    exact absurd (hinj hgen).symm (materializedInput_ne_delta _ _ _ _)
  | materialized =>
    rw [hopenedAuth] at hgen
    simp only [CredentialGeneration.materialized.injEq] at hgen
    unfold Clear at hreq hopn
    rw [hauth] at hreq
    rw [hopenedAuth] at hopn
    obtain ⟨hcon, hhdrs⟩ := materializedInput_inj hopn hreq (hinj hgen)
    exact ⟨congrArg ConnectionIdentity.profile h, congrArg ConnectionIdentity.account h,
      congrArg ConnectionIdentity.endpoint h, congrArg ConnectionIdentity.session h, hcon,
      hhdrs⟩

/-- What the pool promises about the turns under way and the idle connections. -/
structure Isolated (limits : WebSocketLimits) (pool : WebSocketPool δ κ) : Prop where
  access : ∀ turn held, pool.turns.get turn = some held → held.request.auth = .materialized →
    SameAccess held.request held.connection.opened
  exclusive : ∀ turn turn' held held', pool.turns.get turn = some held →
    pool.turns.get turn' = some held' → held.connection.socket = held'.connection.socket → turn = turn'
  bounded : pool.connections.size ≤ limits.maxIdleConnections

structure Orderly (sha256 : List UInt8 → δ) (limits : WebSocketLimits) (pool : WebSocketPool δ κ) :
    Prop where
  filed : Filed sha256 Clear pool
  owned : Owned pool
  bounded : pool.connections.size ≤ limits.maxIdleConnections

theorem empty_orderly : Orderly sha256 limits (empty : WebSocketPool δ κ) where
  filed := ⟨nofun, nofun⟩
  owned := by
    have hn : ∀ a socket, ¬ (empty : WebSocketPool δ κ).Holds a socket := by
      rintro (identity | turn) socket ⟨_, hg, -⟩ <;> cases hg
    exact ⟨fun a _ socket ha => absurd ha (hn a socket), fun a socket ha => absurd ha (hn a socket)⟩
  bounded := Nat.zero_le _

/-- The requests of the run carry unambiguous headers. -/
def Plain (_ : WebSocketPool δ κ) : Event κ → Prop
  | .acquire _ request _ _ => Clear request
  | _ => True

theorem step_orderly (pool : WebSocketPool δ κ) (event : Event κ) (hplain : Plain pool event)
    (h : Orderly sha256 limits pool) : Orderly sha256 limits (pool.step sha256 limits event) := by
  have hmov : Moves sha256 Clear pool (pool.step sha256 limits event) := by
    refine step_moves pool event ?_
    rintro turn req now connects rfl
    exact hplain
  exact ⟨hmov.keep _ Move.filed h.filed, hmov.keep _ Move.owned h.owned, step_size_le pool event h.bounded⟩

theorem Orderly.isolated (hinj : sha256.Injective) {pool : WebSocketPool δ κ}
    (h : Orderly sha256 limits pool) : Isolated limits pool where
  access := by
    intro turn held hg hauth
    obtain ⟨hid, hopn, hreq⟩ := h.filed.held turn held hg
    exact sameAccess_of_identity_eq hinj hauth hreq hopn hid
  exclusive := by
    intro turn turn' held held' hg hg' hsoc
    exact Sum.inr.inj (h.owned.unique (.inr turn) (.inr turn') held.connection.socket
      ⟨held, hg, rfl⟩ ⟨held', hg', hsoc.symm⟩)
  bounded := h.bounded

/-- In every run whose requests carry unambiguous authentication headers, a turn runs on a connection
opened with the same credentials, no two turns share one, and the idle ones stay within the limit. -/
theorem reuse_never_crosses_credentials (sha256 : List UInt8 → δ) (hinjective : sha256.Injective)
    (limits : WebSocketLimits) (events : List (Event κ)) (h : StepsMeet (step sha256 limits) Plain empty events) :
    Isolated limits (run (step sha256 limits) (empty : WebSocketPool δ κ) events) :=
  (@run_of_stepsMeet _ _ _ Plain (Orderly sha256 limits) step_orderly events empty h empty_orderly).isolated hinjective

def headerValue (text : String)
    (h : (asciiBytes text).length < 2 ^ 63 ∧ ∀ b ∈ asciiBytes text, isHeaderValueByte b = true := by
      decide +kernel) : HeaderValue :=
  ⟨⟨asciiBytes text, h.1⟩, h.2⟩

def keyed (authorization key : HeaderValue) : WebSocketRequest :=
  ⟨"openai_api_key", "account", "wss://host/v1/responses", some "session", 7, .materialized,
    [(authorizationName, authorization), (xApiKeyName, key)]⟩

/-- A turn with one pair of credentials, then a turn with another. -/
def twoTurns (first second : WebSocketRequest) : List (Event ℕ) :=
  [.acquire 1 first 0 true, .release 1 none true 1, .acquire 2 second 2 true]

def natDigest (input : List UInt8) : List ℕ := input.map UInt8.toNat

theorem natDigest_injective : Function.Injective natDigest := map_injective_iff.2 fun _ _ h => UInt8.toNat_inj.1 h

def sampleLimits : WebSocketLimits := ⟨300, 3300, 128⟩

theorem same_key_reuses_connection :
    ((run (step natDigest sampleLimits) (empty : WebSocketPool (List ℕ) ℕ)
        (twoTurns (keyed (headerValue "p") (headerValue "q"))
          (keyed (headerValue "p") (headerValue "q")))).turns.get 2).map (·.connection.socket) = some 0 ∧
      Isolated sampleLimits (run (step natDigest sampleLimits) (empty : WebSocketPool (List ℕ) ℕ)
        (twoTurns (keyed (headerValue "p") (headerValue "q"))
          (keyed (headerValue "p") (headerValue "q")))) := by
  have hclr : Clear (keyed (headerValue "p") (headerValue "q")) := by
    show Unambiguous _
    refine ⟨?_, ?_, ?_⟩ <;> decide +kernel
  exact ⟨by decide +kernel, reuse_never_crosses_credentials natDigest natDigest_injective sampleLimits _
    ⟨hclr, trivial, hclr, trivial⟩⟩

/-- `p` with the key `qx-api-keyr` and `px-api-keyq` with the key `r` hash the same bytes: the
second request is sent on the connection that the first one opened. -/
theorem ambiguous_keys_share_connection :
    ¬ Isolated sampleLimits (run (step natDigest sampleLimits) (empty : WebSocketPool (List ℕ) ℕ)
      (twoTurns (keyed (headerValue "p") (headerValue "qx-api-keyr"))
        (keyed (headerValue "px-api-keyq") (headerValue "r")))) := by
  intro h
  have hcros : ((run (step natDigest sampleLimits) (empty : WebSocketPool (List ℕ) ℕ)
      (twoTurns (keyed (headerValue "p") (headerValue "qx-api-keyr"))
        (keyed (headerValue "px-api-keyq") (headerValue "r")))).turns.get 2).any (fun held =>
          held.request.auth = .materialized ∧
            held.connection.opened.headers.getAll authorizationName ≠
              held.request.headers.getAll authorizationName) = true := by
    decide +kernel
  obtain ⟨held, hheld, hdif⟩ := (Option.any_eq_true _ _).1 hcros
  obtain ⟨hauth, hhdrs⟩ := of_decide_eq_true hdif
  exact hhdrs ((h.access 2 held hheld hauth).headers authorizationName mem_cons_self)

end Pooler.WebSocketPool
