import AttrFederation.Metrics
import AttrFederation.Proofs.Text

/-!
# The text form read back

A metrics collector reads the text form line by line.  What it reads of the latencies are the lines
that begin with the name of the buckets, each with a bound in quotes and a number
(`Metrics.readBuckets?`).  The reader shares nothing with the writer, and it refuses a text in which
a line begins with that name and does not go on like this.

A text of whole lines can be read piece by piece (`Metrics.Reads`), so what is read of the text form
follows from what is read of its parts:

* `readBuckets?_exposition` — each bound is read back with the number of latencies up to it, and
  nothing else.
-/

namespace AttrFederation

/-! ## Characters of a double -/

/-- A decimal is written with digits and a point. -/
theorem Decimal.notMem_plain {c : Char} (hdigit : c.isDigit = false) (hpoint : c ≠ '.')
    (x : Decimal) : c ∉ x.plain.toList := by
  have hdigits : c ∉ Nat.toDigits 10 x.digits := Text.notMem_toDigits hdigit _
  have hzero : c ≠ '0' := by
    rintro rfl
    contradiction
  have hzeros : ∀ n, c ∉ List.replicate n '0' := fun n hmem =>
    hzero (List.eq_of_mem_replicate hmem)
  unfold plain
  dsimp only
  split
  · simp [hdigits, hzero]
  · split
    · have htake : ∀ n, c ∉ (Nat.toDigits 10 x.digits).take n := fun n hmem =>
        hdigits (List.mem_of_mem_take hmem)
      have hdrop : ∀ n, c ∉ (Nat.toDigits 10 x.digits).drop n := fun n hmem =>
        hdigits (List.mem_of_mem_drop hmem)
      simp [htake, hdrop, hpoint]
    · simp [hdigits, hzero, hpoint]

/-- A double is written with digits, a point, a minus sign and the letters of `inf` and `NaN`. -/
theorem notMem_plainText {c : Char} (hdigit : c.isDigit = false)
    (hother : c ∉ ['.', '-', 'i', 'n', 'f', 'N', 'a']) (x : Float) : c ∉ (plainText x).toList := by
  simp only [List.mem_cons, List.not_mem_nil, or_false, not_or] at hother
  obtain ⟨hpoint, hminus, hi, hn, hf, hN, ha⟩ := hother
  have hsign : c ∉ (if hasSign x.toBits then "-" else "").toList := by
    split <;> simp [hminus]
  have hzero : c ≠ '0' := by
    rintro rfl
    contradiction
  unfold plainText
  dsimp only
  split
  · split
    · simp [hsign, hi, hn, hf]
    · simp [hN, ha]
  · split
    · simp [hsign, hzero]
    · simp [hsign, Decimal.notMem_plain hdigit hpoint]

namespace Metrics

/-! ## The reader -/

/-- The name that the lines of the buckets begin with. -/
def bucketName : String := "attrbridge_latency_seconds_bucket"

def hasBucketName (line : String) : Bool :=
  bucketName.toList.isPrefixOf line.toList

/-- A number that is written in one or more digits. -/
def readCount? (digits : List Char) : Option Nat :=
  if digits ≠ [] ∧ digits.all Char.isDigit then some (Nat.ofDigitChars 10 digits 0) else none

/-- The bound and the number of a line: after the name comes the bound in quotes and braces, then a
space and the number. -/
def readBucket? (line : String) : Option (String × Nat) :=
  (line.toList.dropPrefix? (bucketName ++ "\x7ble=\"").toList).bind fun labelled =>
  (Text.cutCharsAtFirst '"' labelled).bind fun (bound, rest) =>
  (rest.dropPrefix? "\x7d ".toList).bind fun digits =>
  (readCount? digits).map fun count => (String.ofList bound, count)

/-- The bounds and the numbers in the lines of a text that begin with the name of the buckets,
if all of them can be read. -/
def readBuckets? (text : String) : Option (List (String × Nat)) :=
  ((Text.split '\n' text).filter hasBucketName).mapM readBucket?

theorem readCount?_toDigits (n : Nat) : readCount? (Nat.toDigits 10 n) = some n := by
  have hdigits : (Nat.toDigits 10 n).all Char.isDigit = true :=
    List.all_eq_true.mpr fun c => Nat.isDigit_of_mem_toDigits (by decide) (by decide)
  rw [readCount?, if_pos ⟨Nat.toDigits_ne_nil, hdigits⟩, Nat.ofDigitChars_ten_toDigits]

/-- A line that can be read. -/
def bucketLine (bound : String) (count : Nat) : String :=
  bucketName ++ "\x7ble=\"" ++ bound ++ "\"\x7d " ++ toString count

theorem hasBucketName_bucketLine (bound : String) (count : Nat) :
    hasBucketName (bucketLine bound count) = true := by
  rw [hasBucketName, List.isPrefixOf_iff_prefix]
  simp [bucketLine]

/-- Bound and number are read back, if the bound has no quote in it. -/
theorem readBucket?_bucketLine {bound : String} (hbound : '"' ∉ bound.toList) (count : Nat) :
    readBucket? (bucketLine bound count) = some (bound, count) := by
  have hline : (bucketLine bound count).toList = (bucketName ++ "\x7ble=\"").toList ++
      (bound.toList ++ '"' :: ("\x7d ".toList ++ Nat.toDigits 10 count)) := by
    simp [bucketLine]
  have hcut : Text.cutCharsAtFirst '"'
      (bound.toList ++ '"' :: ("\x7d ".toList ++ Nat.toDigits 10 count)) =
        some (bound.toList, "\x7d ".toList ++ Nat.toDigits 10 count) :=
    Text.cutCharsAtFirst_eq_some_iff.mpr ⟨rfl, hbound⟩
  simp only [readBucket?, hline, List.dropPrefix?_append_of_beq _ (beq_self_eq_true _),
    Option.bind_some, hcut, readCount?_toDigits, Option.map_some, String.ofList_toList]

/-! ## Texts of whole lines -/

/-- The text is whole lines, and the buckets in it are these. -/
def Reads (text : String) (buckets : List (String × Nat)) : Prop :=
  ∃ lines, (∀ rest, Text.split '\n' (text ++ rest) = lines ++ Text.split '\n' rest) ∧
    (lines.filter hasBucketName).mapM readBucket? = some buckets

theorem Reads.readBuckets? {text : String} {buckets : List (String × Nat)}
    (h : Reads text buckets) : readBuckets? text = some buckets := by
  obtain ⟨lines, hlines, hread⟩ := h
  have hsplit := hlines ""
  rw [String.append_empty] at hsplit
  have hend : (Text.split '\n' "").filter hasBucketName = [] := by decide
  rw [Metrics.readBuckets?, hsplit, List.filter_append, hend, List.append_nil, hread]

theorem Reads.append {s t : String} {buckets more : List (String × Nat)} (h : Reads s buckets)
    (h' : Reads t more) : Reads (s ++ t) (buckets ++ more) := by
  obtain ⟨lines, hlines, hread⟩ := h
  obtain ⟨lines', hlines', hread'⟩ := h'
  refine ⟨lines ++ lines', fun rest => ?_, ?_⟩
  · rw [String.append_assoc, hlines, hlines', List.append_assoc]
  · simp [List.mapM_append, hread, hread']

theorem reads_empty : Reads "" [] :=
  ⟨[], fun rest => by rw [String.empty_append, List.nil_append], rfl⟩

/-- Texts without buckets are one without buckets. -/
theorem reads_join {texts : List String} (h : ∀ text ∈ texts, Reads text []) :
    Reads (String.join texts) [] := by
  induction texts with
  | nil => exact reads_empty
  | cons text texts ih =>
      rw [List.forall_mem_cons] at h
      rw [String.join_cons]
      exact h.1.append (ih h.2)

theorem split_line {line : String} (h : '\n' ∉ line.toList) (rest : String) :
    Text.split '\n' (line ++ "\n" ++ rest) = [line] ++ Text.split '\n' rest := by
  have hsplit := Text.split_append '\n' line rest
  rwa [Text.split_of_notMem h] at hsplit

/-- A line with another name is no bucket. -/
theorem reads_line {line : String} (h : '\n' ∉ line.toList) (hname : hasBucketName line = false) :
    Reads (line ++ "\n") [] :=
  ⟨[line], split_line h, by simp [hname]⟩

/-- A line has another name, if it begins with another one and a space. -/
theorem hasBucketName_append {start : String} (rest : String)
    (hstart : hasBucketName (start ++ " ") = false) :
    hasBucketName (start ++ " " ++ rest) = false := by
  rw [hasBucketName, ← Bool.not_eq_true, List.isPrefixOf_iff_prefix] at hstart ⊢
  intro hprefix
  have happend : (start ++ " ").toList <+: (start ++ " " ++ rest).toList := by simp
  rcases List.prefix_or_prefix_of_prefix hprefix happend with hname | hlonger
  · exact hstart hname
  · -- there is no space in the name of the buckets
    have hspace : ' ' ∈ bucketName.toList := hlonger.subset (by simp)
    exact absurd hspace (by decide)

/-! ## The parts of the text form -/

theorem reads_heading {name help kind : String} (hname : '\n' ∉ name.toList)
    (hhelp : '\n' ∉ help.toList) (hkind : '\n' ∉ kind.toList) :
    Reads (heading name help kind) [] := by
  have htext : heading name help kind =
      ("#" ++ " " ++ ("HELP " ++ namespacePart ++ name ++ " " ++ help)) ++ "\n" ++
        (("#" ++ " " ++ ("TYPE " ++ namespacePart ++ name ++ " " ++ kind)) ++ "\n") := by
    change "# HELP " ++ namespacePart ++ name ++ " " ++ help ++ "\n# TYPE " ++ namespacePart ++ name
      ++ " " ++ kind ++ "\n" = _
    simp [← String.toList_inj]
  have hnamespace : '\n' ∉ namespacePart.toList := by decide
  rw [htext]
  refine (reads_line ?_ (hasBucketName_append _ (by decide))).append
    (reads_line ?_ (hasBucketName_append _ (by decide)))
  · simp [hname, hhelp, hnamespace]
  · simp [hname, hkind, hnamespace]

theorem reads_sample {name value : String} (hname : '\n' ∉ name.toList)
    (hother : hasBucketName (namespacePart ++ name ++ " ") = false) (hvalue : '\n' ∉ value.toList) :
    Reads (sample name value) [] := by
  have hnamespace : '\n' ∉ namespacePart.toList := by decide
  refine reads_line ?_ (hasBucketName_append value hother)
  simp [hname, hvalue, hnamespace]

theorem notMem_toString {c : Char} (hc : c.isDigit = false) (n : Nat) :
    c ∉ (toString n).toList := by
  simpa using Text.notMem_toDigits hc n

theorem reads_counterText {name help : String} (value : Nat) (hname : '\n' ∉ name.toList)
    (hhelp : '\n' ∉ help.toList) (hother : hasBucketName (namespacePart ++ name ++ " ") = false) :
    Reads (counterText name help value) [] := by
  have hempty : Reads ("" ++ "\n") [] := reads_line (by decide) (by decide)
  exact ((reads_heading hname hhelp (by decide)).append
    (reads_sample hname hother (notMem_toString (by decide) value))).append hempty

theorem bucketText_eq (bound : String) (count : Nat) :
    bucketText bound count = bucketLine bound count ++ "\n" := by
  simp [bucketText, sample, namespacePart, bucketLine, bucketName, ← String.toList_inj]

theorem reads_bucketText {bound : String} (hquote : '"' ∉ bound.toList)
    (hbreak : '\n' ∉ bound.toList) (count : Nat) :
    Reads (bucketText bound count) [(bound, count)] := by
  have hline : '\n' ∉ (bucketLine bound count).toList := by
    have hname : '\n' ∉ bucketName.toList := by decide
    have hcount : '\n' ∉ Nat.toDigits 10 count := Text.notMem_toDigits (by decide) count
    simp [bucketLine, hname, hbreak, hcount]
  rw [bucketText_eq]
  refine ⟨[bucketLine bound count], split_line hline, ?_⟩
  rw [List.filter_cons_of_pos (hasBucketName_bucketLine bound count)]
  simp [readBucket?_bucketLine hquote]

/-- The bounds are written without quotes, each on one line. -/
theorem notMem_of_mem_boundTexts {c : Char} (hdigit : c.isDigit = false)
    (hother : c ∉ ['.', '-', 'i', 'n', 'f', 'N', 'a']) (hunbounded : c ∉ "+Inf".toList)
    {bound : String} (h : bound ∈ boundTexts) : c ∉ bound.toList := by
  rcases List.mem_append.mp h with hbounded | hlast
  · obtain ⟨micros, -, rfl⟩ := List.mem_map.mp hbounded
    exact notMem_plainText hdigit hother _
  · rwa [List.mem_singleton.mp hlast]

theorem reads_zipWith_bucketText {bounds : List String}
    (hquote : ∀ bound ∈ bounds, '"' ∉ bound.toList)
    (hbreak : ∀ bound ∈ bounds, '\n' ∉ bound.toList) (counts : List Nat) :
    Reads (String.join (List.zipWith bucketText bounds counts)) (bounds.zip counts) := by
  induction bounds generalizing counts with
  | nil => exact reads_empty
  | cons bound bounds ih =>
      cases counts with
      | nil => exact reads_empty
      | cons count counts =>
          rw [List.forall_mem_cons] at hquote hbreak
          rw [List.zipWith_cons_cons, String.join_cons, List.zip_cons_cons]
          exact (reads_bucketText hquote.1 hbreak.1 count).append (ih hquote.2 hbreak.2 counts)

theorem reads_countersText (m : Metrics) : Reads m.countersText [] := by
  refine reads_join ?_
  simp only [List.forall_mem_cons, List.not_mem_nil, false_implies, implies_true, and_true]
  refine ⟨?_, ?_, ?_, ?_, ?_, ?_, ?_, ?_, ?_, ?_⟩ <;>
    exact reads_counterText _ (by decide) (by decide) (by decide)

theorem reads_prologue (m : Metrics) : Reads m.prologue [] :=
  m.reads_countersText.append (reads_heading (by decide) (by decide) (by decide))

theorem reads_latencyText (h : Histogram) :
    Reads (latencyText h) (boundTexts.zip (Histogram.cumulative h.buckets)) := by
  have hbuckets := reads_zipWith_bucketText
    (fun _ => notMem_of_mem_boundTexts (c := '"') (by decide) (by decide) (by decide))
    (fun _ => notMem_of_mem_boundTexts (by decide) (by decide) (by decide))
    (Histogram.cumulative h.buckets)
  have hsum : Reads (sample "latency_seconds_sum" (plainText (h.sumMicros.toFloat / 1000000))) [] :=
    reads_sample (by decide) (by decide) (notMem_plainText (by decide) (by decide) _)
  have hcount : Reads (sample "latency_seconds_count" (toString (total h.buckets))) [] :=
    reads_sample (by decide) (by decide) (notMem_toString (by decide) _)
  have htext : latencyCount h ++ "\n" =
      sample "latency_seconds_count" (toString (total h.buckets)) := by
    simp [latencyCount, sample, ← String.toList_inj]
  rw [latencyText, String.append_assoc, htext]
  simpa only [List.append_nil] using (hbuckets.append hsum).append hcount

/-- **The buckets are read back** from the text form: each bound with the number of latencies up to
it. -/
theorem readBuckets?_exposition (m : Metrics) :
    readBuckets? m.exposition = some (boundTexts.zip (Histogram.cumulative m.latency.buckets)) :=
  (m.reads_prologue.append (reads_latencyText m.latency)).readBuckets?

end Metrics

end AttrFederation
