import AttrFederation.Proofs.Numeral
import AttrFederation.Proofs.Properties
import AttrFederation.Proofs.TimeOfDay
import AttrFederation.Settings

/-!
# Malformed entries

Settings are read from properties without failing: a text that is of no use to its setting counts as
if it were not there.  A blank text is of no use to any; some settings also ask for a form
(`forms`), which is that of a number of so many bits, an hour and a minute, or a time to live.

* `read_restrict` — what is read of one property does not change if the property is left out with a
  value that is read as none would be;
* one lemma for each form says that a text without the form is read as none.

Main result: `Settings.ofProperties_restrict_of_malformed`.
-/

namespace AttrFederation

namespace TimeToLive

/-- The text has the form of a time to live: the word for an infinite one, or an underscore between
a count and a unit. -/
def HasForm (s : String) : Prop :=
  Text.asciiEq s "INFINITE" = true ∨ '_' ∈ s.toList

/-- A trimmed text without the form is one day, as none is. -/
theorem ofText_of_not_hasForm {s : String} (htrim : Text.trim s = s) (h : ¬ HasForm s) :
    ofText s = oneDay := by
  rw [HasForm, not_or] at h
  simp only [ofText, htrim, Text.cutAtFirst_eq_none_iff.mpr h.2]
  rw [if_neg h.1]

end TimeToLive

namespace Settings

/-! ## Forms of settings -/

/-- The form that a setting asks of its text. -/
inductive Form where
  /-- Any text will do. -/
  | any
  /-- A numeral below a size. -/
  | number (size : Nat)
  | hourMinute
  | timeToLive
deriving DecidableEq, Repr

/-- The text has the form. -/
def Form.Fits : Form → String → Prop
  | any, _ => True
  | number size, text => ∃ n, Text.Denotes text n ∧ n < size
  | hourMinute, text => TimeOfDay.IsHourMinute text
  | timeToLive, text => TimeToLive.HasForm text

/-- The settings that ask for a form. -/
def forms : List (String × Form) :=
  [("cache_heap_in_mb", .number UInt64.size),
    ("cache_max_object", .number UInt64.size),
    ("aor_cache_heap_in_mb", .number UInt64.size),
    ("aor_cache_max_object", .number UInt64.size),
    ("number_of_retries", .number UInt32.size),
    ("interval_between_retries", .number UInt64.size),
    ("paging_size", .number UInt32.size),
    ("refresh_wait_timeout_ms", .number UInt64.size),
    ("refresh_poll_interval_ms", .number UInt64.size),
    ("aor_purge_time", .hourMinute),
    ("user_time_to_live", .timeToLive),
    ("aor_time_to_live", .timeToLive)]

def formOf (key : String) : Form :=
  (forms.lookup key).getD .any

/-- The text is blank or, without the blanks around it, does not have the form that the setting asks
for. -/
def Malformed (key text : String) : Prop :=
  Text.isBlankText text = true ∨ ¬ (formOf key).Fits (Text.trim text)

/-- Every entry that is left out is malformed. -/
def DropsMalformed (props : Properties) (keep : String → Bool) : Prop :=
  ∀ key text, props.entries.lookup key = some text → keep key = false → Malformed key text

/-! ## Reading without malformed entries -/

variable {props : Properties} {keep : String → Bool}

/-- What is read of a property does not change with malformed entries left out, if it is read the
same of a text without the form as of none. -/
theorem read_restrict {α : Type} {key : String} (h : DropsMalformed props keep)
    (read : Option String → α)
    (hread : ∀ value, Text.trim value = value → ¬ (formOf key).Fits value →
      read (some value) = read none) :
    read ((props.restrict keep).get? key) = read (props.get? key) := by
  rw [Properties.get?_restrict]
  cases hkeep : keep key with
  | true => rfl
  | false =>
      cases hvalue : props.get? key with
      | none => rfl
      | some value =>
          obtain ⟨text, htext, hblank, rfl⟩ := Properties.get?_eq_some_iff.mp hvalue
          obtain hblank' | hform := h key text htext hkeep
          · simp [hblank] at hblank'
          · exact (hread _ (Text.trim_trim text) hform).symm

theorem get?_restrict_of_any {key : String} (h : DropsMalformed props keep)
    (hkey : formOf key = .any) : (props.restrict keep).get? key = props.get? key := by
  refine read_restrict h id fun value _ hform => ?_
  rw [hkey] at hform
  exact absurd trivial hform

theorem uint64_restrict {key : String} (h : DropsMalformed props keep)
    (hkey : formOf key = .number UInt64.size) (default : UInt64) :
    (props.restrict keep).uint64 key default = props.uint64 key default := by
  refine read_restrict h (fun value? => (value?.bind Text.readUInt64?).getD default) ?_
  intro value _ hform
  rw [hkey] at hform
  simp only [Option.bind_some, Option.bind_none, Text.readUInt64?_eq_none_iff.mpr hform]

theorem uint32_restrict {key : String} (h : DropsMalformed props keep)
    (hkey : formOf key = .number UInt32.size) (default : UInt32) :
    (props.restrict keep).uint32 key default = props.uint32 key default := by
  refine read_restrict h (fun value? => (value?.bind Text.readUInt32?).getD default) ?_
  intro value _ hform
  rw [hkey] at hform
  simp only [Option.bind_some, Option.bind_none, Text.readUInt32?_eq_none_iff.mpr hform]

theorem readTtl_restrict {key : String} (h : DropsMalformed props keep)
    (hkey : formOf key = .timeToLive) : readTtl (props.restrict keep) key = readTtl props key := by
  have hread : ∀ props : Properties, readTtl props key =
      ((props.get? key).map TimeToLive.ofText).getD .oneDay := by
    intro props
    unfold readTtl
    cases props.get? key <;> simp
  rw [hread, hread]
  refine read_restrict h (fun value? => (value?.map TimeToLive.ofText).getD .oneDay) ?_
  intro value htrim hform
  rw [hkey] at hform
  simp only [Option.map_some, Option.map_none, Option.getD_some, Option.getD_none]
  exact TimeToLive.ofText_of_not_hasForm htrim hform

theorem purgeTime_restrict (h : DropsMalformed props keep) :
    ((props.restrict keep).get? "aor_purge_time").bind TimeOfDay.ofHourMinute? =
      (props.get? "aor_purge_time").bind TimeOfDay.ofHourMinute? := by
  refine read_restrict h (fun value? => value?.bind TimeOfDay.ofHourMinute?) ?_
  intro value _ hform
  have hnone : ¬ ∃ t, TimeOfDay.ofHourMinute? value = some t :=
    mt TimeOfDay.exists_ofHourMinute?_iff.mp hform
  simpa [Option.eq_none_iff_forall_ne_some] using hnone

/-- **A malformed setting counts as absent.**  Entries that are left out together leave all settings
as they were if each of them is malformed. -/
theorem ofProperties_restrict_of_malformed (h : DropsMalformed props keep) :
    ofProperties (props.restrict keep) = ofProperties props := by
  have hany : ∀ key, formOf key = .any → (props.restrict keep).get? key = props.get? key :=
    fun _ => get?_restrict_of_any h
  have h64 : ∀ key, formOf key = .number UInt64.size → ∀ default,
      (props.restrict keep).uint64 key default = props.uint64 key default :=
    fun _ => uint64_restrict h
  have h32 : ∀ key, formOf key = .number UInt32.size → ∀ default,
      (props.restrict keep).uint32 key default = props.uint32 key default :=
    fun _ => uint32_restrict h
  have httl : ∀ key, formOf key = .timeToLive →
      readTtl (props.restrict keep) key = readTtl props key :=
    fun _ => readTtl_restrict h
  have hmode : readMode (props.restrict keep) = readMode props := by
    rw [readMode, readMode, hany "aor_expired_mode" rfl]
  have hprincipal : readPrincipalCache (props.restrict keep) = readPrincipalCache props := by
    simp only [readPrincipalCache, h64 "cache_heap_in_mb" rfl, h64 "cache_max_object" rfl,
      httl "user_time_to_live" rfl]
  have horgUnit : ∀ mode principal,
      readOrgUnitCache (props.restrict keep) mode principal =
        readOrgUnitCache props mode principal := by
    intro mode principal
    simp only [readOrgUnitCache, h64 "aor_cache_heap_in_mb" rfl, h64 "aor_cache_max_object" rfl,
      httl "aor_time_to_live" rfl]
  simp only [ofProperties, hmode, hprincipal, horgUnit, purgeTime_restrict h, Properties.flag,
    Properties.list, readRefreshPeriod, readAttribute, hany "aor_refresh" rfl,
    hany "cache_refresh_period" rfl, hany "null_string" rfl, hany "correlation_key" rfl,
    hany "aor_key_attribute" rfl, hany "profile_names" rfl, h32 "paging_size" rfl,
    h32 "number_of_retries" rfl, h64 "interval_between_retries" rfl,
    h64 "refresh_wait_timeout_ms" rfl, h64 "refresh_poll_interval_ms" rfl]

/-- One good setting among five malformed ones. -/
def mostlyMalformed : Properties where
  entries :=
    [("cache_heap_in_mb", " 64 "), ("cache_max_object", "many"), ("paging_size", "4294967296"),
      ("aor_purge_time", "25:99"), ("user_time_to_live", "garbage"), ("null_string", "  ")]

theorem ofProperties_restrict_to_heap :
    DropsMalformed mostlyMalformed (· == "cache_heap_in_mb") ∧
      ofProperties (mostlyMalformed.restrict (· == "cache_heap_in_mb")) =
        ofProperties mostlyMalformed := by
  have h : DropsMalformed mostlyMalformed (· == "cache_heap_in_mb") := by
    intro key text htext hkeep
    obtain ⟨before, after, hentries, -⟩ := List.lookup_eq_some_iff.mp htext
    have hmem : (key, text) ∈ mostlyMalformed.entries := by simp [hentries]
    simp only [mostlyMalformed, List.mem_cons, Prod.mk.injEq, List.not_mem_nil, or_false] at hmem
    rcases hmem with ⟨rfl, rfl⟩ | ⟨rfl, rfl⟩ | ⟨rfl, rfl⟩ | ⟨rfl, rfl⟩ | ⟨rfl, rfl⟩ | ⟨rfl, rfl⟩
    · simp at hkeep
    · exact .inr (Text.readUInt64?_eq_none_iff.mp (by decide))
    · exact .inr (Text.readUInt32?_eq_none_iff.mp (by decide))
    · have hnone : TimeOfDay.ofHourMinute? (Text.trim "25:99") = none := by decide
      exact .inr (mt TimeOfDay.exists_ofHourMinute?_iff.mpr (by simp [hnone]))
    · have hform : ¬ TimeToLive.HasForm (Text.trim "garbage") := by
        unfold TimeToLive.HasForm
        decide
      exact .inr hform
    · exact .inl (by decide)
  exact ⟨h, ofProperties_restrict_of_malformed h⟩

end Settings

end AttrFederation
