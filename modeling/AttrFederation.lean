import AttrFederation.Activity.Basic
import AttrFederation.Activity.Field
import AttrFederation.Activity.Gate
import AttrFederation.Activity.Job
import AttrFederation.Activity.Lock
import AttrFederation.Activity.Retry
import AttrFederation.Activity.Timeline
import AttrFederation.Assoc
import AttrFederation.AttributeValue
import AttrFederation.Backend.Batch
import AttrFederation.Backend.Table
import AttrFederation.Cache.Alias
import AttrFederation.Cache.Region
import AttrFederation.Cache.Store
import AttrFederation.Decimal.Shortest
import AttrFederation.Directory.Entry
import AttrFederation.Directory.Filter
import AttrFederation.Directory.Normalized
import AttrFederation.Directory.SecurityId
import AttrFederation.Json
import AttrFederation.Json.Text
import AttrFederation.Metrics
import AttrFederation.OrgUnit
import AttrFederation.Profile.Backend
import AttrFederation.Profile.Catalog
import AttrFederation.Profile.Directory
import AttrFederation.Profile.ObjectClass
import AttrFederation.Profile.Specifier
import AttrFederation.Proofs.Activity.Achieves
import AttrFederation.Proofs.Activity.AchievesAt
import AttrFederation.Proofs.Activity.Attempts
import AttrFederation.Proofs.Activity.Ends
import AttrFederation.Proofs.Activity.GateWindow
import AttrFederation.Proofs.Activity.LateReads
import AttrFederation.Proofs.Activity.PollingReader
import AttrFederation.Proofs.Activity.Pool
import AttrFederation.Proofs.Activity.SerialGate
import AttrFederation.Proofs.Activity.Turn
import AttrFederation.Proofs.Assoc
import AttrFederation.Proofs.Backend.Batch
import AttrFederation.Proofs.Backend.ResponseContent
import AttrFederation.Proofs.Bytes
import AttrFederation.Proofs.Cache.AliasSoundness
import AttrFederation.Proofs.Cache.Records
import AttrFederation.Proofs.Cache.Run
import AttrFederation.Proofs.Cache.Stored
import AttrFederation.Proofs.Cache.Timeless
import AttrFederation.Proofs.Cache.View
import AttrFederation.Proofs.CombinedId
import AttrFederation.Proofs.Directory.Filter
import AttrFederation.Proofs.Directory.Normalized
import AttrFederation.Proofs.Directory.ProvidedAttributes
import AttrFederation.Proofs.Directory.ReadValues
import AttrFederation.Proofs.Directory.RecordContent
import AttrFederation.Proofs.Directory.RoutedAttributes
import AttrFederation.Proofs.Directory.SecurityId
import AttrFederation.Proofs.Exposition
import AttrFederation.Proofs.FirstDelay
import AttrFederation.Proofs.Metrics
import AttrFederation.Proofs.RefreshPeriod
import AttrFederation.Proofs.Region.Bookkeeping
import AttrFederation.Proofs.Region.Budget
import AttrFederation.Proofs.Region.Conservation
import AttrFederation.Proofs.Region.Eviction
import AttrFederation.Proofs.Region.LatestWrite
import AttrFederation.Proofs.Region.OldestFirst
import AttrFederation.Proofs.Region.Operations
import AttrFederation.Proofs.Region.PutAll
import AttrFederation.Proofs.Region.Run
import AttrFederation.Proofs.Resolution.AliasCompleteness
import AttrFederation.Proofs.Resolution.CacheTransparency
import AttrFederation.Proofs.Resolution.FailingBackend
import AttrFederation.Proofs.Resolution.Identity
import AttrFederation.Proofs.Resolution.NegativeUnits
import AttrFederation.Proofs.Resolution.OrgUnits
import AttrFederation.Proofs.Resolution.PrincipalLookup
import AttrFederation.Proofs.Resolution.Repetition
import AttrFederation.Proofs.Resolution.RequestAccounting
import AttrFederation.Proofs.Scheduler
import AttrFederation.Proofs.Service.StartStop
import AttrFederation.Proofs.Source.Candidates
import AttrFederation.Proofs.Source.Confined
import AttrFederation.Proofs.Source.ConfinedDirectory
import AttrFederation.Proofs.Source.Enumeration
import AttrFederation.Proofs.Source.FailingDomains
import AttrFederation.Proofs.Source.Fetch
import AttrFederation.Proofs.Source.Freshness
import AttrFederation.Proofs.Source.MemoryPages
import AttrFederation.Proofs.Source.MemoryRefresh
import AttrFederation.Proofs.Source.MemorySources
import AttrFederation.Proofs.Source.PageSize
import AttrFederation.Proofs.Source.PurgeWindow
import AttrFederation.Proofs.Source.QueriedClass
import AttrFederation.Proofs.Source.QueryWrites
import AttrFederation.Proofs.Source.Reload
import AttrFederation.Proofs.Source.RetriedEnumeration
import AttrFederation.Proofs.Source.ScopedQuery
import AttrFederation.Proofs.Source.SkippedEntries
import AttrFederation.Proofs.Source.SomeOfAll
import AttrFederation.Proofs.Source.StoreLog
import AttrFederation.Proofs.Text
import AttrFederation.Properties
import AttrFederation.Record
import AttrFederation.Resolution
import AttrFederation.Routes
import AttrFederation.Scheduler
import AttrFederation.Service
import AttrFederation.Settings
import AttrFederation.Settings.Json
import AttrFederation.Source.Backend
import AttrFederation.Source.Client
import AttrFederation.Source.Directory
import AttrFederation.Source.Memory
import AttrFederation.Source.Replay
import AttrFederation.SourceError
import AttrFederation.Span
import AttrFederation.Text.Blank
import AttrFederation.Text.Bytes
import AttrFederation.Text.CaseTable
import AttrFederation.Text.Hex
import AttrFederation.Text.Lowercase
import AttrFederation.Text.Numeral
import AttrFederation.Text.Search
import AttrFederation.Text.Utf8
import AttrFederation.TimeOfDay
import AttrFederation.TimeToLive
import AttrFederation.Total
import AttrFederation.World
import AttrFederation.Proofs.Profile.KeyAttributes
import AttrFederation.Proofs.Numeral
import AttrFederation.Proofs.Profile.Checks
import AttrFederation.Proofs.Settings.MalformedEntries
import AttrFederation.Proofs.Json.ReadBack
import AttrFederation.Proofs.Settings.JsonRoundTrip
import AttrFederation.Proofs.Profile.Names
import AttrFederation.Proofs.Lowercase
import AttrFederation.Proofs.Directory.Clauses
import AttrFederation.Proofs.Source.MemoryIdentity
