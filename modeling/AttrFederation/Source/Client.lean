import AttrFederation.Activity.Basic
import AttrFederation.Backend.Table
import AttrFederation.Directory.Entry
import AttrFederation.Profile.Directory
import AttrFederation.SourceError

/-!
# Clients of the sources

What the service needs of a directory and of a backend.  A client works over a state: each call is
an activity that may take steps and wait, and ends with a result or a failure.
-/

namespace AttrFederation

/-! ## Directories -/

/-- A search for entries under a base. -/
structure SearchRequest where
  base : String
  filter : String
  attributes : List String
deriving DecidableEq, Repr

/-- A search for one page of entries. -/
structure PageRequest extends SearchRequest where
  /-- The entries to return at most. -/
  pageSize : UInt32
  /-- What the page before came with. -/
  cookie : Option (List UInt8)
deriving DecidableEq, Repr

structure SearchPage where
  entries : List Entry := []
  /-- What to ask for the next page with; absent or empty if there is none. -/
  cookie : Option (List UInt8) := none
  /-- The number of all entries, as the directory puts it. -/
  total : Option UInt32 := none
deriving DecidableEq, Repr

def SearchPage.hasMore (page : SearchPage) : Bool :=
  match page.cookie with
  | some (_ :: _) => true
  | _ => false

/-- An open connection to a directory. -/
structure DirectoryConnection (σ : Type) where
  searchPage : PageRequest → Activity σ (Except SourceError SearchPage)
  /-- Returns the entries that a search finds at once. -/
  search : SearchRequest → Activity σ (Except SourceError (List Entry))
  close : Activity σ (Except SourceError Unit)

structure DirectoryClient (σ : Type) where
  connect : ConnectionSettings → Activity σ (Except SourceError (DirectoryConnection σ))

/-! ## Backends -/

structure BackendClient (σ : Type) where
  /-- Calls a function of a server. -/
  invoke : (serverPrefix function : String) → BackendImports →
    Activity σ (Except SourceError BackendResponse)

/-! ## Going on after success -/

/-- One activity after the success of another; a failure is the end. -/
def Activity.bindOk {σ ε α β : Type} (x : Activity σ (Except ε α))
    (f : α → Activity σ (Except ε β)) : Activity σ (Except ε β) :=
  x.bind fun outcome =>
    match outcome with
    | .ok a => f a
    | .error e => .done (.error e)

end AttrFederation
