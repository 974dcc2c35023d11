import AttrFederation.Proofs.Json.ReadBack
import AttrFederation.Proofs.TimeOfDay
import AttrFederation.Settings.Json

/-!
# Settings read back from their JSON form

What each part of the settings writes, its reader reads back as it was.  The reader of all settings
looks at its members by name alone, so it finds what was written in whatever order, and among
whatever other members (`ofJson?_object`, `lookup_of_perm`).  What is written is plain, so its text
is read back, too.

Main result: `Settings.ofProperties_json_round_trip`.
-/

namespace AttrFederation

namespace Json

/-- The members of an object. -/
def members : Json → List (String × Json)
  | object members => members
  | _ => []

theorem optional?_ofOption {α : Type} {write : α → Json} {read : Json → Option α} {value : Option α}
    (hnull : ∀ a, write a ≠ null) (hread : ∀ a ∈ value, read (write a) = some a) :
    optional? read (ofOption write value) = some value := by
  cases value with
  | none => rfl
  | some a =>
      have hsome : optional? read (write a) = (read (write a)).map some := by
        unfold optional?
        split
        · next heq => exact absurd heq (hnull a)
        · rfl
      rw [ofOption, hsome, hread a rfl, Option.map_some]

theorem bool?_bool (b : Bool) : bool? (bool b) = some b := rfl

theorem string?_string (s : String) : string? (string s) = some s := rfl

theorem list?_strings (items : List String) : list? string? (strings items) = some items := by
  induction items with
  | nil => rfl
  | cons item items ih =>
      have hitems : (items.map string).mapM string? = some items := ih
      simp [list?, strings, string?, hitems]

theorem Plain.ofOption {α : Type} {write : α → Json} (h : ∀ a, Plain (write a)) (value : Option α) :
    Plain (ofOption write value) := by
  cases value with
  | none => exact .null
  | some a => exact h a

theorem Plain.strings (items : List String) : Plain (strings items) := by
  refine .array fun item hitem => ?_
  obtain ⟨text, -, rfl⟩ := List.mem_map.mp hitem
  exact .string text

end Json

/-- A field that is there is read, and the reader goes on with its value. -/
theorem bind_field {α β : Type} {default a : α} {read : Json → Option α} {field : Option Json}
    {value : Json} {f : α → Option β} (hfield : field = some value) (hread : read value = some a) :
    (orDefault default read field >>= f) = f a := by
  rw [hfield, orDefault, hread, Option.bind_eq_bind, Option.bind_some]

/-! ## Parts -/

/-- A fraction below one second carries nothing over. -/
theorem Span.ofParts?_nanos (d : Span) : ofParts? d.secs (UInt32.ofNat d.nanos.val) = some d := by
  have hlt : d.nanos.val < 1000000000 := d.nanos.isLt
  have hnanos : (UInt32.ofNat d.nanos.val).toNat = d.nanos.val :=
    UInt32.toNat_ofNat_of_lt' (Nat.lt_trans hlt (by decide))
  have hcarry : d.nanos.val / nanosPerSecond = 0 := Nat.div_eq_of_lt d.nanos.isLt
  have hfraction : d.nanos.val % nanosPerSecond = d.nanos.val := Nat.mod_eq_of_lt d.nanos.isLt
  simp [ofParts?, hnanos, hcarry, hfraction, d.secs.toNat_lt]

theorem Span.ofJson?_toJson (d : Span) : ofJson? d.toJson = some d := by
  have hlt : d.nanos.val < UInt32.size := Nat.lt_trans d.nanos.isLt (by decide)
  have hnanos : Json.uint32? (.natural d.nanos.val) = some (UInt32.ofNat d.nanos.val) := if_pos hlt
  change ((Json.uint64? (.natural d.secs.toNat)).bind fun secs =>
    (Json.uint32? (.natural d.nanos.val)).bind fun nanos => ofParts? secs nanos) = some d
  rw [Json.uint64?_natural_toNat, Option.bind_some, hnanos, Option.bind_some, ofParts?_nanos]

theorem Span.plain_toJson (d : Span) : Json.Plain d.toJson :=
  .object (by simp) (by simp [Json.Plain.natural])

theorem TimeToLive.ofJson?_toJson (ttl : TimeToLive) : ofJson? ttl.toJson = some ttl := by
  cases ttl with
  | infinite => rfl
  | finite lifetime => rw [toJson, ofJson?, Span.ofJson?_toJson, Option.map_some]

theorem TimeToLive.plain_toJson (ttl : TimeToLive) : Json.Plain ttl.toJson := by
  cases ttl with
  | infinite => exact .string _
  | finite lifetime => exact .object (by simp) (by simp [lifetime.plain_toJson])

theorem RegionSettings.ofJson?_toJson (s : RegionSettings) : ofJson? s.toJson = some s := by
  refine (bind_field rfl (Json.uint64?_natural_toNat s.heapMb)).trans ?_
  refine (bind_field rfl (Json.uint64?_natural_toNat s.maxObjects)).trans ?_
  exact (bind_field rfl s.ttl.ofJson?_toJson).trans rfl

theorem RegionSettings.plain_toJson (s : RegionSettings) : Json.Plain s.toJson :=
  .object (by simp) (by simp [Json.Plain.natural, s.ttl.plain_toJson])

theorem OrgUnitMode.ofJson?_toJson (mode : OrgUnitMode) : ofJson? mode.toJson = some mode := by
  cases mode <;> rfl

theorem OrgUnitMode.plain_toJson (mode : OrgUnitMode) : Json.Plain mode.toJson := by
  cases mode <;> exact .string _

theorem RetryPolicy.ofJson?_toJson (p : RetryPolicy) : ofJson? p.toJson = some p := by
  refine (bind_field rfl (Json.uint32?_natural_toNat p.retries)).trans ?_
  exact (bind_field rfl (Json.uint64?_natural_toNat p.intervalSecs)).trans rfl

theorem RetryPolicy.plain_toJson (p : RetryPolicy) : Json.Plain p.toJson :=
  .object (by simp) (by simp [Json.Plain.natural])

theorem TimeOfDay.ofJson?_toJson {t : TimeOfDay} (h : t.LeapsAtMinuteEnd) :
    ofJson? t.toJson = some t := by
  rw [toJson, ofJson?, Json.string?, Option.bind_some, ofText?_toText h]

/-! ## All settings -/

namespace Settings

/-- The names of the members that are read. -/
def fieldNames : List String :=
  ["principal_cache", "org_unit_cache", "org_unit_mode", "purge_time", "backend_refresh_enabled",
    "directory_refresh_period", "paging_size", "retry", "null_string", "correlation_key",
    "org_unit_key_attribute", "refresh_wait_timeout_ms", "refresh_poll_interval_ms",
    "profile_names"]

/-- Every field is written under its name. -/
theorem map_fst_members (s : Settings) : s.toJson.members.map Prod.fst = fieldNames := rfl

/-- **Settings are read back** from any object that holds all their members. -/
theorem ofJson?_object {s : Settings} (htime : ∀ t ∈ s.purgeTime, t.LeapsAtMinuteEnd)
    {members : List (String × Json)}
    (h : ∀ field ∈ s.toJson.members, members.lookup field.1 = some field.2) :
    ofJson? (.object members) = some s := by
  simp only [toJson, Json.members, List.forall_mem_cons] at h
  obtain ⟨hprincipal, horgUnit, hmode, hpurge, hrefresh, hperiod, hpaging, hretry, hnull,
    hcorrelation, hkey, htimeout, hpoll, hprofiles, -⟩ := h
  -- One field after the other, in the order in which they are read.
  refine (bind_field hprincipal s.principalCache.ofJson?_toJson).trans ?_
  refine (bind_field horgUnit s.orgUnitCache.ofJson?_toJson).trans ?_
  refine (bind_field hmode s.orgUnitMode.ofJson?_toJson).trans ?_
  refine (bind_field hpurge (Json.optional?_ofOption (fun _ => nofun) fun t ht =>
    TimeOfDay.ofJson?_toJson (htime t ht))).trans ?_
  refine (bind_field hrefresh (Json.bool?_bool _)).trans ?_
  refine (bind_field hperiod (Json.optional?_ofOption (fun _ => nofun) fun d _ =>
    d.ofJson?_toJson)).trans ?_
  refine (bind_field hpaging (Json.uint32?_natural_toNat _)).trans ?_
  refine (bind_field hretry s.retry.ofJson?_toJson).trans ?_
  refine (bind_field hnull (Json.optional?_ofOption (fun _ => nofun) fun text _ =>
    Json.string?_string text)).trans ?_
  refine (bind_field hcorrelation (Json.string?_string _)).trans ?_
  refine (bind_field hkey (Json.string?_string _)).trans ?_
  refine (bind_field htimeout (Json.uint64?_natural_toNat _)).trans ?_
  refine (bind_field hpoll (Json.uint64?_natural_toNat _)).trans ?_
  exact (bind_field hprofiles (Json.list?_strings s.profileNames)).trans rfl

/-- The members are found in whatever order, and among whatever members with other names. -/
theorem lookup_of_perm {s : Settings} {members added : List (String × Json)}
    (hperm : members.Perm (s.toJson.members ++ added))
    (hadded : ∀ field ∈ added, field.1 ∉ fieldNames) :
    ∀ field ∈ s.toJson.members, members.lookup field.1 = some field.2 := by
  have hkeyed : Assoc.WellKeyed ⟨s.toJson.members⟩ := by
    rw [Assoc.WellKeyed, Assoc.keys, map_fst_members]
    decide
  rintro ⟨name, value⟩ hmem
  refine Assoc.lookup_eq_some (hperm.mem_iff.mpr (List.mem_append_left _ hmem)) ?_
  intro other hother
  rcases List.mem_append.mp (hperm.mem_iff.mp hother) with hwritten | hunknown
  · have hvalue := (Assoc.mem_entries_iff hkeyed).mp hmem
    have hother := (Assoc.mem_entries_iff hkeyed).mp hwritten
    exact Option.some.inj (hother.symm.trans hvalue)
  · have hname : name ∈ fieldNames := map_fst_members s ▸ List.mem_map_of_mem hmem
    exact absurd hname (hadded _ hunknown)

theorem plain_toJson (s : Settings) : Json.Plain s.toJson := by
  refine .object ((congrArg List.Nodup (map_fst_members s)).mpr (by decide)) ?_
  simp only [List.forall_mem_cons, List.not_mem_nil, false_imp_iff, implies_true, and_true]
  exact ⟨s.principalCache.plain_toJson, s.orgUnitCache.plain_toJson, s.orgUnitMode.plain_toJson,
    .ofOption (fun _ => .string _) _, .bool _, .ofOption Span.plain_toJson _, .natural _,
    s.retry.plain_toJson, .ofOption .string _, .string _, .string _, .natural _, .natural _,
    .strings _⟩

/-- **Settings of properties are read back** as they were, from the value they are written as and
from its text.  Members with other names, wherever they stand among the written ones, do not
count. -/
theorem ofProperties_json_round_trip (props : Properties) :
    ofJson? (ofProperties props).toJson = some (ofProperties props) ∧
    (Json.parse? (Json.render (ofProperties props).toJson)).bind ofJson? =
      some (ofProperties props) ∧
    ∀ members added, members.Perm ((ofProperties props).toJson.members ++ added) →
      (∀ field ∈ added, field.1 ∉ fieldNames) →
      ofJson? (.object members) = some (ofProperties props) := by
  have htime : ∀ t ∈ (ofProperties props).purgeTime, t.LeapsAtMinuteEnd := by
    intro t ht
    obtain ⟨text, -, hread⟩ := Option.bind_eq_some_iff.mp ht
    exact TimeOfDay.leapsAtMinuteEnd_of_ofHourMinute? hread
  have hread : ∀ members added, members.Perm ((ofProperties props).toJson.members ++ added) →
      (∀ field ∈ added, field.1 ∉ fieldNames) →
      ofJson? (.object members) = some (ofProperties props) :=
    fun _ _ hperm hadded => ofJson?_object htime (lookup_of_perm hperm hadded)
  have hvalue : ofJson? (ofProperties props).toJson = some (ofProperties props) :=
    hread (ofProperties props).toJson.members [] (by rw [List.append_nil]) nofun
  refine ⟨hvalue, ?_, hread⟩
  rw [Json.parse?_render (plain_toJson _), Option.bind_some, hvalue]

/-- A nightly purge, in a mode in which org units may live without end. -/
def nightlyPurge : Properties :=
  ⟨[("aor_purge_time", "03:30"), ("aor_expired_mode", "ttl"), ("aor_time_to_live", "INFINITE"),
    ("cache_refresh_period", "6_HRS"), ("profile_names", "CORP,LAB")]⟩

theorem ofProperties_json_round_trip_of_comment :
    ((("comment", .string "reviewed") :: (ofProperties nightlyPurge).toJson.members).Perm
        ((ofProperties nightlyPurge).toJson.members ++ [("comment", .string "reviewed")]) ∧
      "comment" ∉ fieldNames) ∧
    ofJson? (.object
        (("comment", .string "reviewed") :: (ofProperties nightlyPurge).toJson.members)) =
      some (ofProperties nightlyPurge) := by
  have hperm : (("comment", .string "reviewed") :: (ofProperties nightlyPurge).toJson.members).Perm
      ((ofProperties nightlyPurge).toJson.members ++ [("comment", .string "reviewed")]) :=
    (List.perm_append_singleton _ _).symm
  have hname : "comment" ∉ fieldNames := by decide
  refine ⟨⟨hperm, hname⟩, (ofProperties_json_round_trip nightlyPurge).2.2 _ _ hperm ?_⟩
  exact List.forall_mem_singleton.mpr hname

end Settings

end AttrFederation
