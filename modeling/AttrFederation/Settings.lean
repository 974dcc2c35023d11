import AttrFederation.Properties
import AttrFederation.TimeOfDay
import AttrFederation.TimeToLive

/-!
# Settings

Everything that can be configured, with its defaults, and `Settings.ofProperties`, which reads it
from a flat property set.  Reading never fails: a setting that is malformed takes its default.

Two defaults are chained.  The bounds of the org-unit region are those of the principal region
unless set, and its entries never expire in purge mode.
-/

namespace AttrFederation

/-! ## Parts -/

/-- The bounds of a cache region. -/
structure RegionSettings where
  /-- The memory budget in megabytes. -/
  heapMb : UInt64 := 128
  maxObjects : UInt64 := 5000
  ttl : TimeToLive := .oneDay
deriving DecidableEq, Repr

/-- The memory budget in bytes, at most the greatest 64-bit number. -/
def RegionSettings.heapBytes (s : RegionSettings) : Nat :=
  min (s.heapMb.toNat * (1024 * 1024)) (UInt64.size - 1)

/-- How the org-unit region is kept fresh. -/
inductive OrgUnitMode where
  /-- Entries do not expire; a daily refresh empties and reloads the region. -/
  | purge
  /-- Each entry expires by itself. -/
  | ttl
deriving DecidableEq, Repr

/-- How often a bulk refresh is tried again after a failure that may pass. -/
structure RetryPolicy where
  /-- Attempts after the first one. -/
  retries : UInt32 := 3
  /-- Seconds before each further attempt. -/
  intervalSecs : UInt64 := 30
deriving DecidableEq, Repr

/-- Attempts in all, at most the greatest 32-bit number. -/
def RetryPolicy.maxAttempts (p : RetryPolicy) : Nat :=
  min (p.retries.toNat + 1) (UInt32.size - 1)

/-- Milliseconds before each further attempt. -/
def RetryPolicy.intervalMillis (p : RetryPolicy) : Nat :=
  p.intervalSecs.toNat * 1000

/-! ## All settings -/

/-- The settings of the service. -/
structure Settings where
  /-- The region of principals and groups. -/
  principalCache : RegionSettings := {}
  orgUnitCache : RegionSettings := { ttl := .infinite }
  /-- How the org-unit region is kept fresh. -/
  orgUnitMode : OrgUnitMode := .purge
  /-- When the daily backend refresh is due; at once if absent. -/
  purgeTime : Option TimeOfDay := none
  /-- The backend refresh reloads after it has purged. -/
  backendRefreshEnabled : Bool := true
  /-- The time between directory refreshes; they are off if absent. -/
  directoryRefreshPeriod : Option Span := none
  /-- Entries per page of a directory enumeration. -/
  pagingSize : UInt32 := 1000
  retry : RetryPolicy := {}
  /-- The answer for what cannot be resolved; null if absent. -/
  nullString : Option String := none
  /-- The subject attribute that identifies the principal. -/
  correlationKey : String := "employeenumber"
  /-- The principal attribute that lists org units. -/
  orgUnitKeyAttribute : String := "ammoarea"
  /-- The longest a reader waits for a backend refresh, in milliseconds. -/
  refreshWaitTimeoutMs : UInt64 := 60000
  /-- The time between two looks at the refresh flag, in milliseconds. -/
  refreshPollIntervalMs : UInt64 := 20
  /-- The directory profiles by name; one default profile if there are none. -/
  profileNames : List String := []
deriving DecidableEq, Repr

namespace Settings

/-- The settings of an empty property set. -/
def defaults : Settings := {}

/-- The time to live a property states, one day if absent. -/
def readTtl (props : Properties) (key : String) : TimeToLive :=
  match props.get? key with
  | none => .oneDay
  | some raw => .ofText raw

/-- Purge mode unless a property names something else. -/
def readMode (props : Properties) : OrgUnitMode :=
  match props.get? "aor_expired_mode" with
  | none => .purge
  | some mode => if Text.asciiEq mode "purge" then .purge else .ttl

/-- The period of directory refreshes: none for `0` and for an infinite one. -/
def readRefreshPeriod (props : Properties) : Option Span :=
  match props.get? "cache_refresh_period" with
  | none => none
  | some raw => if raw = "0" then none else (TimeToLive.ofText raw).lifetime?

/-- An attribute name in lower case. -/
def readAttribute (props : Properties) (key default : String) : String :=
  match props.get? key with
  | none => default
  | some name => Text.lowercase name

/-- The bounds of the principal region. -/
def readPrincipalCache (props : Properties) : RegionSettings where
  heapMb := props.uint64 "cache_heap_in_mb" defaults.principalCache.heapMb
  maxObjects := props.uint64 "cache_max_object" defaults.principalCache.maxObjects
  ttl := readTtl props "user_time_to_live"

/-- The bounds of the org-unit region, after those of the principal region. -/
def readOrgUnitCache (props : Properties) (mode : OrgUnitMode) (principal : RegionSettings) :
    RegionSettings where
  heapMb := props.uint64 "aor_cache_heap_in_mb" principal.heapMb
  maxObjects := props.uint64 "aor_cache_max_object" principal.maxObjects
  ttl :=
    match mode with
    | .purge => .infinite
    | .ttl => readTtl props "aor_time_to_live"

/-- The settings that a property set states. -/
def ofProperties (props : Properties) : Settings where
  principalCache := readPrincipalCache props
  orgUnitCache := readOrgUnitCache props (readMode props) (readPrincipalCache props)
  orgUnitMode := readMode props
  purgeTime := (props.get? "aor_purge_time").bind TimeOfDay.ofHourMinute?
  backendRefreshEnabled := props.flag "aor_refresh" defaults.backendRefreshEnabled
  directoryRefreshPeriod := readRefreshPeriod props
  pagingSize := props.uint32 "paging_size" defaults.pagingSize
  retry :=
    { retries := props.uint32 "number_of_retries" defaults.retry.retries
      intervalSecs := props.uint64 "interval_between_retries" defaults.retry.intervalSecs }
  nullString := props.get? "null_string"
  correlationKey := readAttribute props "correlation_key" defaults.correlationKey
  orgUnitKeyAttribute := readAttribute props "aor_key_attribute" defaults.orgUnitKeyAttribute
  refreshWaitTimeoutMs := props.uint64 "refresh_wait_timeout_ms" defaults.refreshWaitTimeoutMs
  refreshPollIntervalMs := props.uint64 "refresh_poll_interval_ms" defaults.refreshPollIntervalMs
  profileNames := props.list "profile_names" ','

/-- The directory is refreshed in the background. -/
def directoryRefreshEnabled (s : Settings) : Bool :=
  s.directoryRefreshPeriod.isSome

end Settings

end AttrFederation
