import Pooler.Spec.Observe.Redaction

/-! What a sanitized document shows does not depend on the values of its sensitive fields. -/

namespace Pooler

open Lib

namespace Json

mutual

/-- The documents differ at most in values of fields whose key is a secret one, at any depth. -/
def SameOutside (secret : String → Bool) : Json → Json → Prop
  | .array as, .array bs => SameItems secret as bs
  | .object as, .object bs => SameFields secret as bs
  | a, b => a = b

def SameItems (secret : String → Bool) : List Json → List Json → Prop
  | [], [] => True
  | a :: as, b :: bs => SameOutside secret a b ∧ SameItems secret as bs
  | _, _ => False

def SameFields (secret : String → Bool) : List (String × Json) → List (String × Json) → Prop
  | [], [] => True
  | (k, a) :: as, (l, b) :: bs => k = l ∧ (secret k = true ∨ SameOutside secret a b) ∧ SameFields secret as bs
  | _, _ => False

end

end Json

namespace RedactionPolicy

variable (policy : RedactionPolicy)

mutual

/-- Along the structure of the two documents; the depth limit cuts both at the same place. -/
theorem sanitizeJsonAtDepth_congr (depth : ℕ) : ∀ a b, a.SameOutside policy.isSensitiveKey b →
    policy.sanitizeJsonAtDepth depth a = policy.sanitizeJsonAtDepth depth b
  | .array as, .array bs, h => by
    rw [sanitizeJsonAtDepth, sanitizeJsonAtDepth, sanitizeItems_congr (depth + 1) as bs h]
  | .object as, .object bs, h => by
    rw [sanitizeJsonAtDepth, sanitizeJsonAtDepth, sanitizeFields_congr (depth + 1) as bs [] h]
  | .null, _, h => by cases h; rfl
  | .bool _, _, h => by cases h; rfl
  | .number _, _, h => by cases h; rfl
  | .string _, _, h => by cases h; rfl
  | .array _, .null, h | .array _, .bool _, h | .array _, .number _, h | .array _, .string _, h
  | .array _, .object _, h => by cases h
  | .object _, .null, h | .object _, .bool _, h | .object _, .number _, h | .object _, .string _, h
  | .object _, .array _, h => by cases h

theorem sanitizeItems_congr (depth : ℕ) : ∀ as bs, Json.SameItems policy.isSensitiveKey as bs →
    policy.sanitizeItems depth as = policy.sanitizeItems depth bs
  | [], [], _ => rfl
  | [], _ :: _, h => h.elim
  | _ :: _, [], h => h.elim
  | a :: as, b :: bs, h => by
    rw [sanitizeItems, sanitizeItems, sanitizeJsonAtDepth_congr depth a b h.1, sanitizeItems_congr depth as bs h.2]

theorem sanitizeFields_congr (depth : ℕ) : ∀ as bs sanitized, Json.SameFields policy.isSensitiveKey as bs →
    policy.sanitizeFields depth sanitized as = policy.sanitizeFields depth sanitized bs
  | [], [], _, _ => rfl
  | [], _ :: _, _, h => h.elim
  | _ :: _, [], _, h => h.elim
  | (k, a) :: as, (l, b) :: bs, sanitized, h => by
    obtain ⟨rfl, hval, hr⟩ := h
    rw [sanitizeFields, sanitizeFields]
    have hshown : (if policy.isSensitiveKey k then Json.string policy.placeholder
        else policy.sanitizeJsonAtDepth depth a) = if policy.isSensitiveKey k then .string policy.placeholder
        else policy.sanitizeJsonAtDepth depth b := by
      rcases hval with hsec | hs
      · rw [if_pos hsec, if_pos hsec]
      · rw [sanitizeJsonAtDepth_congr depth a b hs]
    rw [hshown]
    exact sanitizeFields_congr depth as bs _ hr

end

/-- Structured redaction does not interfere: secrets have no influence on what is recorded. -/
theorem sanitizeJson_noninterference (a b : Json) (h : a.SameOutside policy.isSensitiveKey b) :
    policy.sanitizeJson a = policy.sanitizeJson b :=
  sanitizeJsonAtDepth_congr policy 0 a b h

/-- A request with a key in camel case inside an array. -/
def loginWith (secret : Json) : Json :=
  .object [("requests", .array [.object [("clientSecret", secret), ("user", .string "kim")]])]

theorem clientSecret_noninterference :
    (loginWith (.string "s3cr3t")).SameOutside strict.isSensitiveKey (loginWith (.array [.null])) ∧
      strict.sanitizeJson (loginWith (.string "s3cr3t")) = strict.sanitizeJson (loginWith (.array [.null])) := by
  have hsec : strict.isSensitiveKey "clientSecret" = true := by decide +kernel
  have hs : (loginWith (.string "s3cr3t")).SameOutside strict.isSensitiveKey (loginWith (.array [.null])) :=
    ⟨rfl, .inr ⟨⟨rfl, .inl hsec, rfl, .inr rfl, trivial⟩, trivial⟩, trivial⟩
  exact ⟨hs, sanitizeJson_noninterference strict _ _ hs⟩

end RedactionPolicy

end Pooler
