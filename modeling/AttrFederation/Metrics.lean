import AttrFederation.Decimal.Shortest
import AttrFederation.Span
import AttrFederation.Total

/-!
# Metrics

Ten counters and a histogram of latencies, and their text form for a metrics collector.

A latency counts in whole microseconds.  A quantile is the upper bound of the bucket that holds it,
or the greatest latency if that is less; the text form gives for each bound the number of latencies
up to it.
-/

namespace AttrFederation

/-! ## Latencies -/

/-- The number of latencies in each bucket, and their sum and maximum. -/
structure Histogram where
  /-- The latencies in each bucket; the last bucket has no bound. -/
  buckets : List Nat := List.replicate 17 0
  samples : Nat := 0
  /-- The sum in microseconds, in 64 bits. -/
  sumMicros : UInt64 := 0
  /-- The greatest latency in microseconds. -/
  maxMicros : Nat := 0
deriving DecidableEq, Repr

namespace Histogram

/-- The upper bounds of the buckets in microseconds, but for the last one. -/
def bounds : List Nat :=
  [100, 250, 500, 1000, 2500, 5000, 10000, 25000, 50000, 100000, 250000, 500000, 1000000, 2500000,
    5000000, 10000000]

/-- A latency in microseconds, at most the greatest 64-bit number. -/
def micros (latency : Span) : Nat :=
  min (latency.toNanos / 1000) (UInt64.size - 1)

/-- The first bucket whose bound is not less than a latency. -/
def bucketOf (micros : Nat) : Nat :=
  bounds.findIdx fun bound => decide (micros ≤ bound)

/-- The histogram with one more latency. -/
def observe (h : Histogram) (latency : Span) : Histogram where
  buckets := h.buckets.modify (bucketOf (micros latency)) (· + 1)
  samples := h.samples + 1
  sumMicros := h.sumMicros + UInt64.ofNat (micros latency)
  maxMicros := max h.maxMicros (micros latency)

/-- A number of microseconds in milliseconds. -/
def toMillis (micros : Nat) : Float :=
  (UInt64.ofNat micros).toFloat / 1000

/-- The first bucket up to which there are at least so many latencies. -/
def bucketOfRank (rank : Nat) : List Nat → Option Nat
  | [] => none
  | count :: counts =>
    if rank ≤ count then some 0 else (bucketOfRank (rank - count) counts).map (· + 1)

/-- The upper bound of the bucket that holds a quantile, in milliseconds, at most the greatest
latency. -/
def quantile (h : Histogram) (p : Float) : Float :=
  if h.samples = 0 then 0
  else
    let product := ((UInt64.ofNat h.samples).toFloat * p).ceil
    let rank := if product < 1 then 1 else product.toUInt64.toNat
    let most := toMillis h.maxMicros
    match (bucketOfRank rank h.buckets).bind fun bucket => bounds[bucket]? with
    | some bound => if toMillis bound < most then toMillis bound else most
    | none => most

/-- The mean latency in milliseconds. -/
def mean (h : Histogram) : Float :=
  if h.samples = 0 then 0
  else h.sumMicros.toFloat / 1000 / (UInt64.ofNat h.samples).toFloat

/-- The number of latencies up to each bound. -/
def cumulative (counts : List Nat) : List Nat :=
  match counts with
  | [] => []
  | count :: counts => count :: (cumulative counts).map (count + ·)

end Histogram

/-! ## Counters -/

/-- Which way a request was answered. -/
inductive ResolutionPath where
  /-- From the record of the principal. -/
  | directory
  /-- From the org units of the principal. -/
  | backend
  | unknown
  | unresolved
deriving DecidableEq, Repr

/-- The counters and the latencies of requests. -/
structure Metrics where
  totalRequests : Nat := 0
  /-- Requests answered from records. -/
  directoryResolutions : Nat := 0
  /-- Requests answered from org units. -/
  backendResolutions : Nat := 0
  /-- Requests for attributes that no source provides. -/
  unknownAttributes : Nat := 0
  /-- Requests answered with the null value. -/
  nullResults : Nat := 0
  principalHits : Nat := 0
  /-- Principals not found in the cache. -/
  principalMisses : Nat := 0
  /-- Calls of the backend for missing org units. -/
  backendQueries : Nat := 0
  /-- Requests that met a refresh of the backend. -/
  refreshWaits : Nat := 0
  errorCount : Nat := 0
  latency : Histogram := {}
deriving DecidableEq, Repr

namespace Metrics

/-- Counts a request by the way it was answered. -/
def recordPath (m : Metrics) : ResolutionPath → Metrics
  | .directory => { m with directoryResolutions := m.directoryResolutions + 1 }
  | .backend => { m with backendResolutions := m.backendResolutions + 1 }
  | .unknown => { m with unknownAttributes := m.unknownAttributes + 1 }
  | .unresolved => m

def recordResolution (m : Metrics) (path : ResolutionPath) (isNull : Bool) : Metrics :=
  let m := { m with totalRequests := m.totalRequests + 1 }.recordPath path
  if isNull then { m with nullResults := m.nullResults + 1 } else m

/-- Counts a look-up of a principal in the cache. -/
def recordLookup (m : Metrics) (hit : Bool) : Metrics :=
  if hit then { m with principalHits := m.principalHits + 1 }
  else { m with principalMisses := m.principalMisses + 1 }

/-- Counts a call of the backend. -/
def recordBackendQuery (m : Metrics) : Metrics :=
  { m with backendQueries := m.backendQueries + 1 }

/-- Counts a request that met a refresh. -/
def recordRefreshWait (m : Metrics) : Metrics :=
  { m with refreshWaits := m.refreshWaits + 1 }

def recordError (m : Metrics) : Metrics :=
  { m with errorCount := m.errorCount + 1 }

def recordLatency (m : Metrics) (latency : Span) : Metrics :=
  { m with latency := m.latency.observe latency }

/-! ## Rates -/

/-- A quotient of counts, zero for nothing counted. -/
def rate (part whole : Nat) : Float :=
  if whole = 0 then 0 else (UInt64.ofNat part).toFloat / (UInt64.ofNat whole).toFloat

/-- The part of the look-ups that found the principal in the cache. -/
def principalHitRate (m : Metrics) : Float :=
  rate m.principalHits (m.principalHits + m.principalMisses)

/-- The part of the requests that had a value. -/
def resolutionRate (m : Metrics) : Float :=
  rate (m.totalRequests - m.nullResults) m.totalRequests

/-! ## Text form -/

/-- What the names of all metrics start with. -/
def namespacePart : String := "attrbridge_"

/-- The lines that introduce a metric. -/
def heading (name help kind : String) : String :=
  "# HELP " ++ namespacePart ++ name ++ " " ++ help ++ "\n# TYPE " ++ namespacePart ++ name ++ " "
    ++ kind ++ "\n"

/-- A line with the value of a metric. -/
def sample (name value : String) : String :=
  namespacePart ++ name ++ " " ++ value ++ "\n"

/-- The lines of a counter and an empty one. -/
def counterText (name help : String) (value : Nat) : String :=
  heading name help "counter" ++ sample name (toString value) ++ "\n"

/-- A line with the number of latencies up to a bound. -/
def bucketText (bound : String) (count : Nat) : String :=
  sample ("latency_seconds_bucket\x7ble=\"" ++ bound ++ "\"\x7d") (toString count)

/-- The bounds of the buckets in seconds, as texts. -/
def boundTexts : List String :=
  Histogram.bounds.map (fun bound => plainText ((UInt64.ofNat bound).toFloat / 1000000)) ++ ["+Inf"]

def countersText (m : Metrics) : String :=
  String.join
    [counterText "requests_total" "Total number of attribute requests" m.totalRequests,
      counterText "directory_resolutions_total" "Requests answered from directory records"
        m.directoryResolutions,
      counterText "backend_resolutions_total" "Requests answered from org-unit records"
        m.backendResolutions,
      counterText "unknown_attributes_total" "Requests for unrouted attributes"
        m.unknownAttributes,
      counterText "null_results_total" "Requests answered with the null value" m.nullResults,
      counterText "principal_hits_total" "Principal cache hits" m.principalHits,
      counterText "principal_misses_total" "Principal cache misses" m.principalMisses,
      counterText "backend_queries_total" "Scoped backend queries" m.backendQueries,
      counterText "refresh_waits_total" "Requests delayed by a backend refresh" m.refreshWaits,
      counterText "errors_total" "Error count" m.errorCount]

/-- The line with the number of all latencies, without its end. -/
def latencyCount (h : Histogram) : String :=
  namespacePart ++ "latency_seconds_count " ++ toString (total h.buckets)

/-- The text of the latencies, their number last. -/
def latencyText (h : Histogram) : String :=
  let counts := Histogram.cumulative h.buckets
  String.join (List.zipWith bucketText boundTexts counts)
    ++ sample "latency_seconds_sum" (plainText (h.sumMicros.toFloat / 1000000))
    ++ latencyCount h ++ "\n"

/-- The text for a metrics collector up to the latencies. -/
def prologue (m : Metrics) : String :=
  m.countersText ++ heading "latency_seconds" "Request latency" "histogram"

/-- The text for a metrics collector. -/
def exposition (m : Metrics) : String :=
  m.prologue ++ latencyText m.latency

end Metrics

end AttrFederation
