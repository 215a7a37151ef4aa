import Licensing.OrderedMap
import Licensing.Text.Shortest

/-!
# Metrics

What the service counts about itself: requests by route and status with their durations, the
outcomes of looking up features, answers given while the features were not known, and failures
of the services behind. The exposition lists the families of metrics in ascending order of their
names and within a family the samples in ascending order of their labels.
-/

namespace Licensing

/-- How the features for an answer were found. -/
inductive CacheOutcome where
  /-- They were remembered. -/
  | hit
  /-- They were asked for. -/
  | miss
  /-- They are not known. -/
  | failClosed
deriving DecidableEq, Inhabited

/-- The label of an outcome. -/
def CacheOutcome.label : CacheOutcome → String
  | .hit => "hit"
  | .miss => "miss"
  | .failClosed => "fail_closed"

/-- The durations of requests. -/
structure Histogram where
  /-- How many there were. -/
  count : Nat
  /-- How many did not exceed each of the bounds. -/
  within : List Nat
  /-- Their sum in seconds. -/
  sum : Float
deriving Inhabited

/-- What has been counted. -/
structure Metrics where
  /-- The requests by route, and by status within a route. -/
  requests : OrderedMap (OrderedMap Nat)
  /-- The durations by route. -/
  durations : OrderedMap Histogram
  /-- The outcomes of looking up features by label. -/
  outcomes : OrderedMap Nat
  /-- The answers given while the features were not known. -/
  degraded : Nat
  /-- The failures by service. -/
  remoteFailures : OrderedMap Nat
deriving Inhabited

namespace Metrics

/-- The upper bounds for durations in microseconds, with their labels. -/
def bounds : List (Nat × String) :=
  [(5000, "0.005"), (10000, "0.01"), (25000, "0.025"), (50000, "0.05"), (100000, "0.1"),
    (250000, "0.25"), (500000, "0.5"), (1000000, "1"), (2500000, "2.5"), (5000000, "5"),
    (10000000, "10"), (30000000, "30")]

/-- The histogram without durations. -/
def noDurations : Histogram :=
  ⟨0, bounds.map fun _ ↦ 0, 0⟩

/-- A duration in microseconds as seconds. -/
def seconds (us : Nat) : Float :=
  Float.ofNat (us / 1000000) + Float.ofNat (us % 1000000 * 1000) / 1000000000

/-- A histogram with one more duration, in microseconds. -/
def observe (h : Histogram) (us : Nat) : Histogram :=
  ⟨h.count + 1, List.zipWith (fun b n ↦ if us ≤ b.1 then n + 1 else n) bounds h.within,
    h.sum + seconds us⟩

/-- A count that goes up by one. -/
def increment (m : OrderedMap Nat) (k : String) : OrderedMap Nat :=
  m.insert k ((m.get? k).getD 0 + 1)

/-- Counts a request, with its duration in microseconds. -/
def recordRequest (m : Metrics) (route : String) (status us : Nat) : Metrics :=
  { m with
    requests := m.requests.insert route
      (increment ((m.requests.get? route).getD ∅) (toString status))
    durations := m.durations.insert route (observe ((m.durations.get? route).getD noDurations) us) }

/-- Counts an outcome of looking up features. -/
def recordCache (m : Metrics) (o : CacheOutcome) : Metrics :=
  { m with outcomes := increment m.outcomes o.label }

/-- Counts an answer given while the features were not known. -/
def recordDegraded (m : Metrics) : Metrics :=
  { m with degraded := m.degraded + 1 }

/-- Counts a failure of a service. -/
def recordRemoteFailure (m : Metrics) (service : String) : Metrics :=
  { m with remoteFailures := increment m.remoteFailures service }

/-! ### Exposition -/

/-- A character in the value of a label. -/
def escapeLabelChar (c : Char) : List Char :=
  let n := c.toNat
  if n = 0x5C then [c, c]
  else if n = 0x22 then [Char.ofNat 0x5C, c]
  else if n = 0x0A then [Char.ofNat 0x5C, 'n']
  else [c]

/-- A label with its value. -/
def label (l : String × String) : String :=
  l.1 ++ "=\"" ++ String.ofList (l.2.toList.flatMap escapeLabelChar) ++ "\""

/-- A line for a sample. -/
def sample (name : String) (labels : List (String × String)) (value : String) : String :=
  let set := if labels.isEmpty then ""
    else "\x7b" ++ ",".intercalate (labels.map label) ++ "\x7d"
  name ++ set ++ " " ++ value

/-- The lines of a family, none when it has no samples. -/
def family (name help kind : String) (samples : List String) : List String :=
  if samples.isEmpty then []
  else ("# HELP " ++ name ++ " " ++ help) :: ("# TYPE " ++ name ++ " " ++ kind) :: samples

/-- A sum of durations in decimal. -/
def sumText (f : Float) : String :=
  let bits := f.toBits.toNat
  if bits % Shortest.signBit = 0 then "0" else (Shortest.ofBits bits).positional

/-- The samples of a histogram. -/
def histogramSamples (name route : String) (h : Histogram) : List String :=
  let buckets := List.zipWith (fun b n ↦
    sample (name ++ "_bucket") [("route", route), ("le", b.2)] (toString n)) bounds h.within
  buckets ++ [sample (name ++ "_bucket") [("route", route), ("le", "+Inf")] (toString h.count),
    sample (name ++ "_sum") [("route", route)] (sumText h.sum),
    sample (name ++ "_count") [("route", route)] (toString h.count)]

/-- The samples of counters with one label. -/
def counterSamples (name labelName : String) (m : OrderedMap Nat) : List String :=
  m.entries.map fun e ↦ sample name [(labelName, e.1)] (toString e.2)

/-- The samples of the requests. -/
def requestSamples (name : String) (m : OrderedMap (OrderedMap Nat)) : List String :=
  m.entries.flatMap fun r ↦
    r.2.entries.map fun s ↦ sample name [("route", r.1), ("status", s.1)] (toString s.2)

/-- The lines of the exposition. -/
def lines (m : Metrics) : List String :=
  let degraded := "entitlements_degraded_responses_total"
  let cache := "entitlements_feature_status_cache_total"
  let durations := "entitlements_http_request_duration_seconds"
  let requests := "entitlements_http_requests_total"
  let remote := "entitlements_upstream_errors_total"
  family degraded "Entitlement answers served fail-closed" "counter"
      [sample degraded [] (toString m.degraded)]
    ++ family cache "Feature-status cache outcomes" "counter"
      (counterSamples cache "outcome" m.outcomes)
    ++ family durations "HTTP request latency by route" "histogram"
      (m.durations.entries.flatMap fun d ↦ histogramSamples durations d.1 d.2)
    ++ family requests "HTTP requests by route and status" "counter"
      (requestSamples requests m.requests)
    ++ family remote "Upstream failures by service" "counter"
      (counterSamples remote "service" m.remoteFailures)

/-- The exposition: every line with its line feed. -/
def exposition (m : Metrics) : String :=
  String.join (m.lines.map (· ++ "\n"))

end Metrics

/-- What counts: metrics, or nothing. -/
abbrev Telemetry := Option Metrics

namespace Telemetry

/-- Counts a request, with its duration in microseconds. -/
def recordRequest (t : Telemetry) (route : String) (status us : Nat) : Telemetry :=
  t.map fun m ↦ m.recordRequest route status us

/-- Counts an outcome of looking up features. -/
def recordCache (t : Telemetry) (o : CacheOutcome) : Telemetry :=
  t.map fun m ↦ m.recordCache o

/-- Counts an answer given while the features were not known. -/
def recordDegraded (t : Telemetry) : Telemetry :=
  t.map Metrics.recordDegraded

/-- Counts a failure of a service. -/
def recordRemoteFailure (t : Telemetry) (service : String) : Telemetry :=
  t.map fun m ↦ m.recordRemoteFailure service

/-- The exposition, which is empty when nothing is counted. -/
def exposition (t : Telemetry) : String :=
  (t.map Metrics.exposition).getD ""

end Telemetry

end Licensing
