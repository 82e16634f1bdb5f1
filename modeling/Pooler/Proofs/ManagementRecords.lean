import Pooler.Spec.Server.Management

/-! ### What blocks a new record -/

namespace Pooler.Management

variable (state : EphemeralState)

def liveDrafts (now : ℕ) : ℕ := (state.drafts.values.filter (now < ·.expiresAt)).length

/-- A flow may be begun: fewer than the most are unexpired, none of them is pending for the provider and account, and the
state value is fresh. -/
def Admits (sha256 : List UInt8 → List UInt8) (now : ℕ) (record : OAuthFlowRecord) (stateValue : List UInt8) : Prop :=
  (state.oauth.values.filter (now < ·.record.expiresAt)).length < maxEphemeralOauth ∧
    (∀ flow ∈ state.oauth.values, flow.pendingFor record = true → flow.record.expiresAt ≤ now) ∧
    ∀ flow ∈ state.oauth.values, flow.stateHash ≠ sha256 stateValue

def loginFlow (createdAt expiresAt : ℕ) : OAuthFlowRecord :=
  { flowId := "f", ownerId := "o", providerId := "p", accountId := "a", flowKind := "k", createdAt, expiresAt }

end Pooler.Management
