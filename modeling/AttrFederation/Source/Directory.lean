import AttrFederation.Activity.Retry
import AttrFederation.Directory.Filter
import AttrFederation.Directory.Normalized
import AttrFederation.Profile.Catalog
import AttrFederation.Source.Client
import AttrFederation.World

/-!
# Reading the directory

The directory is read in two ways.  A refresh enumerates every domain into the cache; each domain is
retried by itself, and one that keeps failing does not affect the others.  A query looks for one
identity in the candidate domains, one after the other, without retrying.

Either way an entry is normalized, its record is stored, and its aliases are led to the record.
-/

namespace AttrFederation

structure DirectorySource (δ : Type) where
  client : DirectoryClient (World δ)
  catalog : DirectoryCatalog
  /-- Entries per page. -/
  pageSize : UInt32
  retry : RetryPolicy
  refreshEnabled : Bool

/-- What a refresh of one domain read. -/
structure DomainCounts where
  principals : Nat := 0
  groups : Nat := 0
  /-- Entries that could not be normalized. -/
  skipped : Nat := 0
deriving DecidableEq, Repr

structure RefreshSummary where
  /-- The domains that were read, in order. -/
  refreshed : List (String × DomainCounts) := []
  /-- The domains that were given up, in order. -/
  failed : List String := []
deriving DecidableEq, Repr

/-- The summary with the outcome of one more domain. -/
def RefreshSummary.add (summary : RefreshSummary) (name : String)
    (outcome : Except SourceError DomainCounts) : RefreshSummary :=
  match outcome with
  | .ok counts => { summary with refreshed := summary.refreshed ++ [(name, counts)] }
  | .error _ => { summary with failed := summary.failed ++ [name] }

structure EntryCounts where
  stored : Nat := 0
  skipped : Nat := 0
deriving DecidableEq, Repr

/-! ## Storing -/

namespace Normalized

/-- The cache with a record and its aliases. -/
def storeIn (n : Normalized) (kind : ObjectKind) (now : Nat) (c : Cache) : Cache :=
  n.aliases.foldl (fun c name => c.addAlias name n.record.id kind) (c.putPrincipal now n.record)

/-- The counts and the cache after one more entry: it is stored, or skipped if it cannot be
normalized. -/
def absorb (profile : String) (c : ObjectClass) (kind : ObjectKind) (now : Nat)
    (state : EntryCounts × Cache) (e : Entry) : EntryCounts × Cache :=
  match ofEntry profile c kind e with
  | .ok n => ({ state.1 with stored := state.1.stored + 1 }, n.storeIn kind now state.2)
  | .error _ => ({ state.1 with skipped := state.1.skipped + 1 }, state.2)

end Normalized

namespace DirectorySource

variable {δ : Type}

/-! ## Enumerating -/

/-- The greatest number of pages of one search.  A position in a search has 32 bits; a directory
with fewer than 2³² entries comes to its last page before. -/
def maxPages : Nat := UInt32.size

/-- Stores the entries of a page. -/
def absorbPage (profile : DirectoryProfile) (c : ObjectClass) (kind : ObjectKind)
    (counts : EntryCounts) (page : SearchPage) (w : World δ) : EntryCounts × World δ :=
  w.withCache fun cache =>
    page.entries.foldl (Normalized.absorb profile.name c kind w.now) (counts, cache)

/-- Reads a search to its last page, if it comes within so many pages. -/
def readPages (connection : DirectoryConnection (World δ)) (profile : DirectoryProfile)
    (c : ObjectClass) (kind : ObjectKind) (pageSize : UInt32) (base : String) :
    Nat → Option (List UInt8) → EntryCounts → Activity (World δ) (Except SourceError EntryCounts)
  | 0, _, counts => .done (.ok counts)
  | pages + 1, cookie, counts =>
    (connection.searchPage
      { base
        filter := Filter.enumeration c profile.includeDisabled
        attributes := c.requested
        pageSize
        cookie }).bindOk fun page =>
    (Activity.modifyGet (absorbPage profile c kind counts page)).bind fun counts =>
    if page.hasMore then
      readPages connection profile c kind pageSize base pages page.cookie counts
    else .done (.ok counts)

/-- Reads everything under each of some bases. -/
def readBases (connection : DirectoryConnection (World δ)) (profile : DirectoryProfile)
    (c : ObjectClass) (kind : ObjectKind) (pageSize : UInt32) :
    List String → EntryCounts → Activity (World δ) (Except SourceError EntryCounts)
  | [], counts => .done (.ok counts)
  | base :: bases, counts =>
    (readPages connection profile c kind pageSize base maxPages none counts).bindOk fun counts =>
      readBases connection profile c kind pageSize bases counts

/-- Reads every object of a class, if the profile has the class. -/
def enumerate (d : DirectorySource δ) (connection : DirectoryConnection (World δ))
    (profile : DirectoryProfile) (kind : ObjectKind) :
    Activity (World δ) (Except SourceError EntryCounts) :=
  match profile.objectClass? kind with
  | none => .done (.ok {})
  | some c => readBases connection profile c kind d.pageSize c.searchBases {}

/-- Reads the principals and then the groups of a domain. -/
def enumerateDomain (d : DirectorySource δ) (connection : DirectoryConnection (World δ))
    (profile : DirectoryProfile) : Activity (World δ) (Except SourceError DomainCounts) :=
  (d.enumerate connection profile .principal).bindOk fun principals =>
  (d.enumerate connection profile .group).bindOk fun groups =>
  .done (.ok
    { principals := principals.stored
      groups := groups.stored
      skipped := principals.skipped + groups.skipped })

/-- Reads a domain over one connection; how closing it turns out does not matter. -/
def refreshDomain (d : DirectorySource δ) (profile : DirectoryProfile) :
    Activity (World δ) (Except SourceError DomainCounts) :=
  (d.client.connect profile.connectionSettings).bindOk fun connection =>
  (d.enumerateDomain connection profile).bind fun result =>
  connection.close.bind fun _ => .done result

/-- Reads domains one after another, each with its retries. -/
def refreshDomains (d : DirectorySource δ) :
    List DirectoryProfile → RefreshSummary → Activity (World δ) RefreshSummary
  | [], summary => .done summary
  | profile :: profiles, summary =>
    (d.retry.execute (d.refreshDomain profile)).bind fun outcome =>
      refreshDomains d profiles (summary.add profile.name outcome)

/-- Enumerates every domain, one refresh after another; with refreshes off it does nothing. -/
def refreshAll (d : DirectorySource δ) : Activity (World δ) RefreshSummary :=
  if d.refreshEnabled then
    Lock.holding World.directoryLockField
      (Gate.refreshing World.directoryFlag id (d.refreshDomains d.catalog.profiles {}))
  else .done {}

/-! ## Looking for an identity -/

/-- Stores a record that was looked for. -/
def storeFound (n : Normalized) (kind : ObjectKind) : Activity (World δ) Unit :=
  .modify fun w => w.onCache (n.storeIn kind w.now)

/-- Looks under each of some bases, until one has an entry; its first entry is taken. -/
def findUnder (connection : DirectoryConnection (World δ)) (profile : DirectoryProfile)
    (c : ObjectClass) (kind : ObjectKind) (id : String) :
    List String → Activity (World δ) (Except SourceError (Option Record))
  | [] => .done (.ok none)
  | base :: bases =>
    (connection.search
      { base
        filter := Filter.identity c profile.includeDisabled id
        attributes := c.requested }).bindOk fun entries =>
    match entries with
    | [] => findUnder connection profile c kind id bases
    | e :: _ =>
      match Normalized.ofEntry profile.name c kind e with
      | .error fault => .done (.error fault)
      | .ok n => (storeFound n kind).bind fun _ => .done (.ok (some n.record))

/-- Looks for an identity in one domain. -/
def queryDomain (d : DirectorySource δ) (profile : DirectoryProfile) (kind : ObjectKind)
    (id : String) : Activity (World δ) (Except SourceError (Option Record)) :=
  match profile.objectClass? kind with
  | none => .done (.ok none)
  | some c =>
    (d.client.connect profile.connectionSettings).bindOk fun connection =>
    (findUnder connection profile c kind id c.searchBases).bind fun found =>
    connection.close.bind fun _ => .done found

/-- Looks for an identity in domains one after another.  The first record found and the first
failure end the search. -/
def queryDomains (d : DirectorySource δ) (kind : ObjectKind) (id : String) :
    List DirectoryProfile → Activity (World δ) (Except SourceError (Option Record))
  | [] => .done (.ok none)
  | profile :: profiles =>
    (d.queryDomain profile kind id).bindOk fun found =>
    match found with
    | some record => .done (.ok (some record))
    | none => queryDomains d kind id profiles

/-- Looks for an identity on account of an attribute.  The class is the one last seen with the
alias, principals for an unknown one. -/
def queryIdentity (d : DirectorySource δ) (id attributeName : String) :
    Activity (World δ) (Except SourceError (Option Record)) :=
  (Activity.read fun w => (w.cache.aliases.kindOf? id).getD .principal).bind fun kind =>
    d.queryDomains kind id (d.catalog.providersOf attributeName kind)

end DirectorySource

end AttrFederation
