import AttrFederation.Proofs.Exposition

/-!
# The accounts of requests

Every request adds to several counters, at different moments.  When requests have been answered, one
after another, the counters fit together (`Metrics.Accounted`).  What a request adds is one of a few
things (`Metrics.Handles`), and each of them keeps the counters fitting (`Accounted.recordAnswer`).

The exported lines of the buckets count latencies up to a bound, so their numbers ascend to the
number of all requests (`Accounted.exportsUpTo`).
-/

namespace AttrFederation

/-! ## Latencies -/

namespace Histogram

/-- One more in one place is one more in all. -/
theorem total_modify_add_one {counts : List Nat} {i : Nat} (h : i < counts.length) :
    total (counts.modify i (· + 1)) = total counts + 1 := by
  induction counts generalizing i with
  | nil => contradiction
  | cons count counts ih =>
      cases i with
      | zero => simp [List.modify]; omega
      | succ i =>
          have hrest := ih (i := i) (by simpa using h)
          simp [hrest]; omega

/-- There is a bucket for each latency, and each latency is counted in one. -/
structure Counted (h : Histogram) : Prop where
  length : h.buckets.length = bounds.length + 1
  total_eq : total h.buckets = h.samples

theorem counted_empty : Counted {} where
  length := rfl
  total_eq := rfl

theorem bucketOf_le (latency : Nat) : bucketOf latency ≤ bounds.length :=
  List.findIdx_le_length

theorem Counted.observe {h : Histogram} (hcounted : h.Counted) (latency : Span) :
    (h.observe latency).Counted where
  length := by simpa [Histogram.observe] using hcounted.length
  total_eq := by
    have hbucket : bucketOf (micros latency) < h.buckets.length := by
      rw [hcounted.length]
      exact Nat.lt_succ_of_le (bucketOf_le _)
    rw [Histogram.observe, total_modify_add_one hbucket, hcounted.total_eq]

theorem length_cumulative (counts : List Nat) : (cumulative counts).length = counts.length := by
  induction counts with
  | nil => rfl
  | cons count counts ih => simp [cumulative, ih]

/-- The numbers of latencies up to the bounds ascend. -/
theorem pairwise_cumulative (counts : List Nat) : (cumulative counts).Pairwise (· ≤ ·) := by
  induction counts with
  | nil => exact .nil
  | cons count counts ih =>
      refine List.pairwise_cons.mpr ⟨fun later hlater => ?_, ?_⟩
      · obtain ⟨further, -, rfl⟩ := List.mem_map.mp hlater
        exact Nat.le_add_right count further
      · exact ih.map _ fun _ _ h => Nat.add_le_add_left h count

/-- The last of them is the number of all. -/
theorem getLast?_cumulative {counts : List Nat} (h : counts ≠ []) :
    (cumulative counts).getLast? = some (total counts) := by
  induction counts with
  | nil => contradiction
  | cons count counts ih =>
      cases counts with
      | nil => rfl
      | cons next counts =>
          have hlast := ih (by simp)
          rw [cumulative, List.getLast?_cons, List.getLast?_map, hlast]
          rfl

end Histogram

namespace Metrics

/-! ## What a request adds -/

/-- Looking for a principal counts as a hit or a miss, and a failure of the directory as an error;
it says whether the principal is found. -/
inductive Sought (m : Metrics) : Bool → Metrics → Prop
  | hit : Sought m true (m.recordLookup true)
  | missed (found : Bool) : Sought m found (m.recordLookup false)
  | failed : Sought m false (m.recordLookup false).recordError

/-- Composing a value may meet a refresh, and may ask the backend. -/
def recordWork (m : Metrics) (waited asked : Bool) : Metrics :=
  let m := if waited then m.recordRefreshWait else m
  if asked then m.recordBackendQuery else m

/-- **What a request adds** before it is answered: the way to its answer, and whether it has a
value. -/
inductive Handles (m : Metrics) : ResolutionPath → Bool → Metrics → Prop
  /-- The subject has no key. -/
  | keyless : Handles m .unresolved false m
  | notFound {m'} (h : Sought m false m') : Handles m .unresolved false m'
  | directory {m'} (h : Sought m true m') (valued : Bool) : Handles m .directory valued m'
  | unknown {m'} (h : Sought m true m') : Handles m .unknown false m'
  | backend {m'} (h : Sought m true m') (waited asked valued : Bool) :
      Handles m .backend valued (m'.recordWork waited asked)

/-! ## Accounts -/

/-- The counters fit together after so many requests. -/
structure Accounted (n : Nat) (m : Metrics) : Prop where
  requests : m.totalRequests = n
  /-- What was answered by a source was looked up. -/
  answered_le : m.directoryResolutions + m.backendResolutions + m.unknownAttributes ≤
    m.principalHits + m.principalMisses
  /-- Each request looks for one principal at most. -/
  lookups_le : m.principalHits + m.principalMisses ≤ m.totalRequests
  /-- What no source answered has the null value. -/
  nulls_ge : m.totalRequests ≤
    m.nullResults + m.directoryResolutions + m.backendResolutions
  nulls_le : m.nullResults ≤ m.totalRequests
  queries_le : m.backendQueries ≤ m.backendResolutions
  waits_le : m.refreshWaits ≤ m.backendResolutions
  /-- Only what is not in the cache can fail. -/
  errors_le : m.errorCount ≤ m.principalMisses
  counted : m.latency.Counted
  samples_eq : m.latency.samples = m.totalRequests

theorem accounted_empty : Accounted 0 {} := by
  constructor <;> first | exact Histogram.counted_empty | decide

variable {m m' : Metrics} {n : Nat}

/-- Looking for a principal is one look-up, and it fails only where it misses. -/
theorem Sought.exists_eq {found : Bool} (h : m.Sought found m') :
    ∃ hits misses errors,
      m' = { m with principalHits := hits, principalMisses := misses, errorCount := errors } ∧
      hits + misses = m.principalHits + m.principalMisses + 1 ∧
      (m.errorCount ≤ m.principalMisses → errors ≤ misses) := by
  cases h with
  | hit =>
      exact ⟨m.principalHits + 1, m.principalMisses, m.errorCount, rfl, by omega, by omega⟩
  | missed found =>
      exact ⟨m.principalHits, m.principalMisses + 1, m.errorCount, rfl, by omega, by omega⟩
  | failed =>
      exact ⟨m.principalHits, m.principalMisses + 1, m.errorCount + 1, rfl, by omega, by omega⟩

/-- Before it is answered, a request changes the counters of look-ups and errors, and those of the
work of the backend if it goes that way. -/
theorem Handles.exists_eq {path : ResolutionPath} {valued : Bool} (h : m.Handles path valued m') :
    ∃ hits misses errors queries waits,
      m' = { m with
        principalHits := hits
        principalMisses := misses
        errorCount := errors
        backendQueries := queries
        refreshWaits := waits } ∧
      m.principalHits + m.principalMisses ≤ hits + misses ∧
      hits + misses ≤ m.principalHits + m.principalMisses + 1 ∧
      (path ≠ .unresolved → hits + misses = m.principalHits + m.principalMisses + 1) ∧
      (m.errorCount ≤ m.principalMisses → errors ≤ misses) ∧
      queries ≤ m.backendQueries + (if path = .backend then 1 else 0) ∧
      waits ≤ m.refreshWaits + (if path = .backend then 1 else 0) ∧
      (valued = true → path = .directory ∨ path = .backend) := by
  cases h with
  | keyless => exact ⟨_, _, _, _, _, rfl, by simp⟩
  | notFound h =>
      obtain ⟨hits, misses, errors, rfl, hlookups, herrors⟩ := h.exists_eq
      exact ⟨_, _, _, _, _, rfl, by simp [hlookups]; exact herrors⟩
  | directory h =>
      obtain ⟨hits, misses, errors, rfl, hlookups, herrors⟩ := h.exists_eq
      exact ⟨_, _, _, _, _, rfl, by simp [hlookups]; exact herrors⟩
  | unknown h =>
      obtain ⟨hits, misses, errors, rfl, hlookups, herrors⟩ := h.exists_eq
      exact ⟨_, _, _, _, _, rfl, by simp [hlookups]; exact herrors⟩
  | backend h waited asked valued =>
      obtain ⟨hits, misses, errors, rfl, hlookups, herrors⟩ := h.exists_eq
      refine ⟨hits, misses, errors, m.backendQueries + asked.toNat, m.refreshWaits + waited.toNat,
        ?_, by omega, by omega, fun _ => hlookups, herrors, ?_, ?_, fun _ => .inr rfl⟩
      · cases waited <;> cases asked <;> rfl
      · cases asked <;> simp
      · cases waited <;> simp

/-- **An answer** keeps the counters fitting, if it is null wherever there is no value. -/
theorem Accounted.recordAnswer (haccounted : m.Accounted n) {path : ResolutionPath}
    {valued isNull : Bool} (h : m.Handles path valued m') (hnull : valued = false → isNull = true)
    (latency : Span) : ((m'.recordResolution path isNull).recordLatency latency).Accounted (n + 1) := by
  obtain ⟨hrequests, hanswered, hlookups, hnulls, hnulls', hqueries, hwaits, herrors, hcounted,
    hsamples⟩ := haccounted
  obtain ⟨hits, misses, errors, queries, waits, rfl, hge, hle, hlooked, herrors', hqueries',
    hwaits', hvalued⟩ := h.exists_eq
  have herrors := herrors' herrors
  have hcounted := hcounted.observe latency
  have hsamples : (m.latency.observe latency).samples = m.totalRequests + 1 :=
    congrArg (· + 1) hsamples
  have hsourced : isNull = false → path = .directory ∨ path = .backend := by
    intro hnot
    cases valued with
    | true => exact hvalued rfl
    | false => simp [hnull rfl] at hnot
  cases path <;> cases isNull <;> simp at hlooked hqueries' hwaits' hsourced <;>
    exact
      { requests := congrArg (· + 1) hrequests
        answered_le := by simp [recordResolution, recordPath, recordLatency]; omega
        lookups_le := by simp [recordResolution, recordPath, recordLatency]; omega
        nulls_ge := by simp [recordResolution, recordPath, recordLatency]; omega
        nulls_le := by simp [recordResolution, recordPath, recordLatency]; omega
        queries_le := by simp [recordResolution, recordPath, recordLatency]; omega
        waits_le := by simp [recordResolution, recordPath, recordLatency]; omega
        errors_le := herrors
        counted := hcounted
        samples_eq := hsamples }

/-! ## Export -/

/-- The buckets that are read back from the text form have the bounds, `+Inf` at the end.  Their
numbers ascend, and the last one is `n`. -/
def ExportsUpTo (m : Metrics) (n : Nat) : Prop :=
  ∃ buckets, readBuckets? m.exposition = some buckets ∧ buckets.map Prod.fst = boundTexts ∧
    (buckets.map Prod.snd).Pairwise (· ≤ ·) ∧ buckets.getLast? = some ("+Inf", n)

theorem Accounted.exportsUpTo (h : m.Accounted n) : m.ExportsUpTo n := by
  have hnonempty : m.latency.buckets ≠ [] := by
    have hlength := h.counted.length
    intro hempty
    simp [hempty] at hlength
  have hlength : (Histogram.cumulative m.latency.buckets).length = boundTexts.length := by
    rw [Histogram.length_cumulative, h.counted.length]
    simp [boundTexts]
  have hbounds : (boundTexts.zip (Histogram.cumulative m.latency.buckets)).map Prod.fst =
      boundTexts := List.map_fst_zip (Nat.le_of_eq hlength.symm)
  have hcounts : (boundTexts.zip (Histogram.cumulative m.latency.buckets)).map Prod.snd =
      Histogram.cumulative m.latency.buckets := List.map_snd_zip (Nat.le_of_eq hlength)
  refine ⟨_, m.readBuckets?_exposition, hbounds, ?_, ?_⟩
  · rw [hcounts]
    exact Histogram.pairwise_cumulative _
  · have hbound := congrArg List.getLast? hbounds
    have hcount := congrArg List.getLast? hcounts
    rw [Histogram.getLast?_cumulative hnonempty, h.counted.total_eq, h.samples_eq, h.requests,
      List.getLast?_map] at hcount
    have hunbounded : boundTexts.getLast? = some "+Inf" := by simp [boundTexts]
    rw [hunbounded, List.getLast?_map] at hbound
    obtain ⟨last, hlast, hfst⟩ := Option.map_eq_some_iff.mp hbound
    rw [hlast, Option.map_some, Option.some.injEq] at hcount
    rw [hlast, ← hfst, ← hcount]

end Metrics

end AttrFederation
