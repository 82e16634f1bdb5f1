import Pooler.Lib.Assoc
import Pooler.Spec.Time

/-! The management records of a process without a control-plane store: drafts and OAuth login flows. -/

namespace Pooler.Management

open Lib

structure DraftRecord where
  draftId : ℕ := 0
  (ownerId kind : String)
  etag : String := ""
  baseGeneration : ℕ
  revision : ℕ := 0
  payload : List UInt8
  (createdAt updatedAt expiresAt : ℕ)

inductive OAuthFlowStatus where
  | pending | completed | failed | cancelled
  deriving DecidableEq

structure OAuthFlowRecord where
  (flowId ownerId providerId accountId flowKind : String)
  status : OAuthFlowStatus := .pending
  revision : ℕ := 0
  (createdAt expiresAt : ℕ)
  (stateConsumedAt completedAt : Option ℕ := none)
  errorCode : Option String := none

structure EphemeralOAuth where
  record : OAuthFlowRecord
  stateHash : List UInt8
  pkce : Option (List UInt8)

structure EphemeralState where
  drafts : OrderedMap ℕ DraftRecord := .empty
  oauth : OrderedMap String EphemeralOAuth := .empty

/-- The errors of a store that these calls return. -/
inductive ManagementError where
  | managementCapacity
  | oauthFlowAlreadyExists
  deriving DecidableEq

def maxEphemeralDrafts : ℕ := 1024

def maxEphemeralOauth : ℕ := 1024

variable (state : EphemeralState)

def createDraft (draft : DraftRecord) : Except ManagementError DraftRecord × EphemeralState :=
  if state.drafts.size ≥ maxEphemeralDrafts then (.error .managementCapacity, state)
  else
    let id := satAdd u64Max ((state.drafts.entries.getLast?.map (·.1)).getD 0) 1
    let draft := { draft with
      draftId := id, revision := 1, etag := s!"ephemeral-{id}-{draft.payload.length}" }
    (.ok draft, { state with drafts := state.drafts.insert id draft })

/-- A pending flow for the same provider and account, expired or not. -/
def EphemeralOAuth.pendingFor (flow : EphemeralOAuth) (record : OAuthFlowRecord) : Bool :=
  flow.record.status = .pending && flow.record.providerId = record.providerId &&
    flow.record.accountId = record.accountId

def beginOauth (sha256 : List UInt8 → List UInt8) (record : OAuthFlowRecord) (stateValue : List UInt8)
    (pkce : Option (List UInt8)) : Except ManagementError OAuthFlowRecord × EphemeralState :=
  if state.oauth.size ≥ maxEphemeralOauth || state.oauth.values.any (·.pendingFor record) ||
      state.oauth.values.any (·.stateHash = sha256 stateValue) then (.error .oauthFlowAlreadyExists, state)
  else
    let record := { record with revision := 1 }
    (.ok record, { state with oauth := state.oauth.insert record.flowId ⟨record, sha256 stateValue, pkce⟩ })

end Pooler.Management
