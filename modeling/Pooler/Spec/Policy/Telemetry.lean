import Pooler.Lib.Pick
import Pooler.Spec.Policy.Registration

/-! The routing telemetry: a bounded table of rolling averages, one for each binding. -/

namespace Pooler

open Lib

/-- A sample with the two fields that only the table reads. -/
structure TelemetryRecord extends TelemetrySample where
  rollingWindowMs : ℕ
  ttftMs : Option ℕ

def maxRoutingTelemetryBindings : ℕ := 4096

namespace RoutingTelemetry

/-- The weighted mean of two averages, in `u64` arithmetic that saturates. -/
def average (left right total : ℕ) : Option ℕ → Option ℕ → Option ℕ
  | some old, some new =>
    some (satAdd u64Max (satMul u64Max old left) (satMul u64Max new right) / max total 1)
  | none, value | value, none => value

def merge (previous sample : TelemetryRecord) : TelemetryRecord :=
  let left := max previous.sampleCount 1
  let right := max sample.sampleCount 1
  let total := min (satAdd u64Max left right) u32Max
  { observedAtMs := max previous.observedAtMs sample.observedAtMs
    sampleCount := min total u32Max
    rollingWindowMs := max sample.rollingWindowMs previous.rollingWindowMs
    staleAfterMs := max sample.staleAfterMs previous.staleAfterMs
    latencyMs := average left right total previous.latencyMs sample.latencyMs
    ttftMs := average left right total previous.ttftMs sample.ttftMs
    throughputPerSecond := average left right total previous.throughputPerSecond sample.throughputPerSecond }

def withinWindow (previous sample : TelemetryRecord) : Bool :=
  sample.observedAtMs - previous.observedAtMs ≤ max sample.rollingWindowMs 1

variable (values : Table BindingKey TelemetryRecord) (binding : BindingKey)

/-- The binding with the oldest observation, ties by key. -/
def oldest : Option BindingKey :=
  (minBy (fun a b => (compare a.2.observedAtMs b.2.observedAtMs).then (StringKeyed.cmp a.1 b.1)) values.toList).map (·.1)

def makeRoom : Table BindingKey TelemetryRecord :=
  if values.size ≥ maxRoutingTelemetryBindings && !values.contains binding then
    match oldest values with
    | some key => values.erase key
    | none => values
  else values

def record (sample : TelemetryRecord) : Table BindingKey TelemetryRecord :=
  match values[binding]?.filter (withinWindow · sample) with
  | some previous => values.insert binding (merge previous sample)
  | none => (makeRoom values binding).insert binding sample

end RoutingTelemetry

end Pooler
