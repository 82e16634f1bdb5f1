import Pooler.Lib.Trace
import Pooler.Spec.Policy.Telemetry

/-! ### Averages in range -/

namespace Pooler

open Lib Std.ExtTreeMap

inductive Metric where
  | latency | ttft | throughput

def TelemetryRecord.metric (r : TelemetryRecord) : Metric → Option ℕ
  | .latency => r.latencyMs
  | .ttft => r.ttftMs
  | .throughput => r.throughputPerSecond

namespace RoutingTelemetry

variable {values : Table BindingKey TelemetryRecord} {binding : BindingKey} {previous sample : TelemetryRecord}
  {metric : Metric} {low high : ℕ}

def step (values : Table BindingKey TelemetryRecord) (call : BindingKey × TelemetryRecord) :
    Table BindingKey TelemetryRecord := record values call.1 call.2

/-- Where the call folds its sample, no product or sum saturates and the count stays below its cap. -/
def Exact (values : Table BindingKey TelemetryRecord) (call : BindingKey × TelemetryRecord) : Prop :=
  ∀ previous, values[call.1]? = some previous → withinWindow previous call.2 = true →
    max previous.sampleCount 1 + max call.2.sampleCount 1 ≤ u32Max ∧
      ∀ metric old new, previous.metric metric = some old → call.2.metric metric = some new →
        old * max previous.sampleCount 1 + new * max call.2.sampleCount 1 ≤ u64Max

def InRange (low high : ℕ) (value : Option ℕ) : Prop := ∀ v, value = some v → low ≤ v ∧ v ≤ high

theorem average_inRange {left right : ℕ} {old new : Option ℕ} (hleft : 0 < left)
    (hsum : ∀ a b, old = some a → new = some b → a * left + b * right ≤ u64Max)
    (hold : InRange low high old) (hw : InRange low high new) :
    InRange low high (average left right (left + right) old new) := by
  cases old with
  | none => exact hw
  | some a =>
    cases new with
    | none => exact hold
    | some b =>
      intro v hv
      have hexact : v = (a * left + b * right) / (left + right) := by
        have := hsum a b rfl rfl
        simp only [average, satAdd, satMul, Option.some.injEq] at hv
        rw [← hv]
        congr 1 <;> omega
      obtain ⟨⟨hlow, hhigh⟩, ⟨hlow', hhigh'⟩⟩ := And.intro (hold a rfl) (hw b rfl)
      rw [hexact, Nat.le_div_iff_mul_le (by omega)]
      refine ⟨?_, Nat.div_le_of_le_mul ?_⟩ <;> nlinarith

theorem get_makeRoom {b : BindingKey} {r} (h : (makeRoom values binding)[b]? = some r) : values[b]? = some r := by
  unfold makeRoom at h
  split_ifs at h
  · split at h
    · rw [Table.get_erase] at h
      split_ifs at h
      exact h
    · exact h
  · exact h

/-- One call keeps the average of a binding in the range of what it records for it. -/
theorem record_inRange {b : BindingKey} (hexact : Exact values (binding, sample))
    (hvals : ∀ r, values[b]? = some r → InRange low high (r.metric metric))
    (hsam : binding = b → InRange low high (sample.metric metric)) :
    ∀ r, (record values binding sample)[b]? = some r → InRange low high (r.metric metric) := by
  intro r hr
  rw [record] at hr
  split at hr <;> rw [Table.get_insert] at hr <;> split_ifs at hr with hb
  next previous hfol =>
    cases hr
    obtain ⟨hg, hwin⟩ := Option.filter_eq_some_iff.1 hfol
    obtain ⟨hcnt, hsum⟩ := hexact previous hg hwin
    have htot : min (satAdd u64Max (max previous.sampleCount 1) (max sample.sampleCount 1)) u32Max =
        max previous.sampleCount 1 + max sample.sampleCount 1 := by
      dsimp only at hcnt
      unfold satAdd u64Max u32Max at *
      omega
    have hmean := average_inRange (by omega) (hsum metric) (hvals previous (hb ▸ hg)) (hsam hb)
    rw [← htot] at hmean
    cases metric <;> exact hmean
  · exact hvals r hr
  · cases hr
    exact hsam hb
  · exact hvals r (get_makeRoom hr)

theorem size_makeRoom (h : values.size ≤ maxRoutingTelemetryBindings) (hw : values.contains binding = false) :
    (makeRoom values binding).size < maxRoutingTelemetryBindings := by
  unfold makeRoom
  split_ifs with hfull
  · cases holdest : oldest values with
    | none =>
      cases hlist : values.toList with
      | nil =>
        have hemp : values.size = 0 := by rw [← length_toList, hlist]; rfl
        simp [hemp, maxRoutingTelemetryBindings] at hfull
      | cons => simp [oldest, hlist, minBy] at holdest
    | some key =>
      obtain ⟨⟨k, r⟩, hmin, rfl⟩ := Option.map_eq_some_iff.1 holdest
      have hg := mem_toList_iff_getElem?_eq_some.1 (minBy_mem hmin)
      have hk : values.contains k = true := by rw [contains_eq_isSome_getElem?, hg]; rfl
      have hsize : (values.erase k).size = values.size - 1 := by rw [size_erase]; exact if_pos hk
      refine hsize.trans_lt ?_
      unfold maxRoutingTelemetryBindings at *
      omega
  · simpa [hw] using hfull

theorem size_record (h : values.size ≤ maxRoutingTelemetryBindings) :
    (record values binding sample).size ≤ maxRoutingTelemetryBindings := by
  cases hm : values.contains binding with
  | true =>
    unfold record makeRoom
    split <;> simpa [size_insert, hm] using h
  | false =>
    have hn : values[binding]? = none := by
      rwa [contains_eq_isSome_getElem?, Option.isSome_eq_false_iff, Option.isNone_iff_eq_none] at hm
    rw [record, hn]
    exact size_insert_le.trans (size_makeRoom h hm)

/-- The table keeps its bound. An average stays in the range of the values recorded for its binding as long
as every fold is exact. -/
theorem telemetry_stays_in_range (calls : List (BindingKey × TelemetryRecord)) :
    (run step ∅ calls).size ≤ maxRoutingTelemetryBindings ∧ (StepsMeet step Exact ∅ calls →
      ∀ b metric low high, (∀ r, (b, r) ∈ calls → InRange low high (r.metric metric)) →
        ∀ r, (run step ∅ calls)[b]? = some r → InRange low high (r.metric metric)) := by
  refine ⟨?_, fun hmeet b metric low high hcal => ?_⟩
  · exact @run_invariant _ _ step (·.size ≤ maxRoutingTelemetryBindings) (fun _ _ => size_record) calls ∅ (Nat.zero_le _)
  have hst : ∀ r, (∅ : Table BindingKey TelemetryRecord)[b]? = some r → InRange low high (r.metric metric) := by simp
  generalize (∅ : Table BindingKey TelemetryRecord) = values at hmeet hst ⊢
  induction calls generalizing values with
  | nil => exact hst
  | cons call calls ih =>
    refine ih (fun r hr => hcal r (List.mem_cons_of_mem _ hr)) _ hmeet.2 ?_
    refine record_inRange hmeet.1 hst fun hb => hcal _ ?_
    rw [← hb]
    exact List.mem_cons_self

theorem capped_count_doubles_the_average :
    let b : BindingKey := ⟨⟨"t", by decide⟩, ⟨"a", by decide⟩, "f"⟩
    let call : BindingKey × TelemetryRecord := (b, ⟨⟨0, u32Max, 0, some 100, none⟩, 0, none⟩)
    (run step ∅ [call, call])[b]?.bind (·.latencyMs) = some 200 := by
  simp [run, step, record, Option.filter, withinWindow, merge, average, satAdd, satMul, u64Max, u32Max]

end RoutingTelemetry

end Pooler
