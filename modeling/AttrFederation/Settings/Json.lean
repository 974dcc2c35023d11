import AttrFederation.Settings

/-!
# The JSON form of settings

`Settings.toJson` writes every field, and `Settings.ofJson?` reads them back.  A missing field takes
its default and a member with an unknown name is ignored; a field of the wrong kind is refused.
-/

namespace AttrFederation

/-! ## Parts -/

namespace RegionSettings

/-- The bounds of a region as a record. -/
def toJson (s : RegionSettings) : Json :=
  .object
    [("heap_mb", .natural s.heapMb.toNat),
      ("max_objects", .natural s.maxObjects.toNat),
      ("ttl", s.ttl.toJson)]

/-- The bounds of a region, each with its default. -/
def ofJson? (j : Json) : Option RegionSettings := do
  let field ← j.fields? 3
  return {
    heapMb := ← orDefault 128 Json.uint64? (field 0 "heap_mb")
    maxObjects := ← orDefault 5000 Json.uint64? (field 1 "max_objects")
    ttl := ← orDefault .oneDay TimeToLive.ofJson? (field 2 "ttl") }

end RegionSettings

namespace OrgUnitMode

def toJson : OrgUnitMode → Json
  | .purge => .string "purge"
  | .ttl => .string "ttl"

def ofJson? (j : Json) : Option OrgUnitMode :=
  match j.choice? with
  | some "purge" => some .purge
  | some "ttl" => some .ttl
  | _ => none

end OrgUnitMode

namespace RetryPolicy

def toJson (p : RetryPolicy) : Json :=
  .object
    [("retries", .natural p.retries.toNat), ("interval_secs", .natural p.intervalSecs.toNat)]

/-- A policy, each part with its default. -/
def ofJson? (j : Json) : Option RetryPolicy := do
  let field ← j.fields? 2
  return {
    retries := ← orDefault 3 Json.uint32? (field 0 "retries")
    intervalSecs := ← orDefault 30 Json.uint64? (field 1 "interval_secs") }

end RetryPolicy

namespace TimeOfDay

/-- A time of day as text. -/
def toJson (t : TimeOfDay) : Json :=
  .string t.toText

/-- A time of day read from text. -/
def ofJson? (j : Json) : Option TimeOfDay :=
  j.string?.bind ofText?

end TimeOfDay

/-! ## All settings -/

namespace Settings

/-- Settings as a record of all their fields. -/
def toJson (s : Settings) : Json :=
  .object
    [("principal_cache", s.principalCache.toJson),
      ("org_unit_cache", s.orgUnitCache.toJson),
      ("org_unit_mode", s.orgUnitMode.toJson),
      ("purge_time", .ofOption TimeOfDay.toJson s.purgeTime),
      ("backend_refresh_enabled", .bool s.backendRefreshEnabled),
      ("directory_refresh_period", .ofOption Span.toJson s.directoryRefreshPeriod),
      ("paging_size", .natural s.pagingSize.toNat),
      ("retry", s.retry.toJson),
      ("null_string", .ofOption .string s.nullString),
      ("correlation_key", .string s.correlationKey),
      ("org_unit_key_attribute", .string s.orgUnitKeyAttribute),
      ("refresh_wait_timeout_ms", .natural s.refreshWaitTimeoutMs.toNat),
      ("refresh_poll_interval_ms", .natural s.refreshPollIntervalMs.toNat),
      ("profile_names", .strings s.profileNames)]

/-- Settings with a default for every missing field. -/
def ofJson? (j : Json) : Option Settings := do
  let field ← j.fields? 14
  return {
    principalCache :=
      ← orDefault defaults.principalCache RegionSettings.ofJson? (field 0 "principal_cache")
    orgUnitCache :=
      ← orDefault defaults.orgUnitCache RegionSettings.ofJson? (field 1 "org_unit_cache")
    orgUnitMode := ← orDefault defaults.orgUnitMode OrgUnitMode.ofJson? (field 2 "org_unit_mode")
    purgeTime :=
      ← orDefault defaults.purgeTime (Json.optional? TimeOfDay.ofJson?) (field 3 "purge_time")
    backendRefreshEnabled :=
      ← orDefault defaults.backendRefreshEnabled Json.bool? (field 4 "backend_refresh_enabled")
    directoryRefreshPeriod :=
      ← orDefault defaults.directoryRefreshPeriod (Json.optional? Span.ofJson?)
        (field 5 "directory_refresh_period")
    pagingSize := ← orDefault defaults.pagingSize Json.uint32? (field 6 "paging_size")
    retry := ← orDefault defaults.retry RetryPolicy.ofJson? (field 7 "retry")
    nullString :=
      ← orDefault defaults.nullString (Json.optional? Json.string?) (field 8 "null_string")
    correlationKey := ← orDefault defaults.correlationKey Json.string? (field 9 "correlation_key")
    orgUnitKeyAttribute :=
      ← orDefault defaults.orgUnitKeyAttribute Json.string? (field 10 "org_unit_key_attribute")
    refreshWaitTimeoutMs :=
      ← orDefault defaults.refreshWaitTimeoutMs Json.uint64? (field 11 "refresh_wait_timeout_ms")
    refreshPollIntervalMs :=
      ← orDefault defaults.refreshPollIntervalMs Json.uint64? (field 12 "refresh_poll_interval_ms")
    profileNames :=
      ← orDefault defaults.profileNames (Json.list? Json.string?) (field 13 "profile_names") }

end Settings

end AttrFederation
