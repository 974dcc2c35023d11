import AttrFederation.Activity.Field
import AttrFederation.Backend.Batch
import AttrFederation.Directory.Filter
import AttrFederation.Source.Client
import AttrFederation.Text.Bytes
import AttrFederation.Text.Search

/-!
# Sources in memory

A directory and a backend whose content is given, for dry runs.  Both can be told to fail and keep
account of what they were asked.

The directory pages through the entries under a base in the order in which they were added.  A
search that is not paged returns the entries that have a value asserted in the filter.  The backend
has one server and one function.
-/

namespace AttrFederation

/-! ## The directory -/

/-- How long a domain refuses connections. -/
inductive Outage where
  /-- So many times. -/
  | times (n : Nat)
  /-- Always. -/
  | lasting
deriving DecidableEq, Repr

/-- So many times; the greatest 32-bit number stands for always. -/
def Outage.ofTimes (n : UInt32) : Outage :=
  if n.toNat = UInt32.size - 1 then .lasting else .times n.toNat

/-- The content of a domain and what it was asked. -/
structure MemoryDomain where
  /-- Entries and the bases they stand under, in the order added. -/
  entries : List (String × Entry) := []
  /-- The connections it refuses. -/
  outage : Outage := .times 0
  /-- The connections it was asked for. -/
  connects : Nat := 0
  /-- The pages it was asked for. -/
  pages : Nat := 0
  /-- The filter it was last asked with. -/
  lastFilter : Option String := none
deriving DecidableEq, Repr

structure MemoryDirectory where
  domains : Assoc MemoryDomain := ∅
deriving DecidableEq, Repr

namespace MemoryDomain

/-- The entries under a base, in order. -/
def under (d : MemoryDomain) (base : String) : List Entry :=
  (d.entries.filter fun (b, _) => b == base).map Prod.snd

/-- The position that a cookie of four bytes stands for, zero without a cookie. -/
def offsetOf? : Option (List UInt8) → Option Nat
  | none => some 0
  | some [a, b, c, d] => some (Bytes.ofLittleEndian a b c d)
  | some _ => none

/-- A page of the entries under a base. -/
def page (d : MemoryDomain) (request : PageRequest) : Except SourceError SearchPage :=
  match offsetOf? request.cookie with
  | none => .error (.decoding "unrecognized paging cookie")
  | some offset =>
    let entries := d.under request.base
    let stop := min (offset + max request.pageSize.toNat 1) entries.length
    .ok
      { entries := (entries.take stop).drop offset
        cookie := if stop < entries.length then some (Bytes.toLittleEndian stop) else none
        total := some (UInt32.ofNat entries.length) }

/-- Some value of an entry is asserted in a filter given in lower case. -/
def asserts (lowerFilter : String) (e : Entry) : Bool :=
  e.attributes.entries.any fun (name, data) =>
    data.any fun d =>
      Text.containsText lowerFilter (Text.lowercase (Filter.assertion name d.toText))

/-- The entries under a base that a filter asserts a value of. -/
def matching (d : MemoryDomain) (base filter : String) : List Entry :=
  (d.under base).filter (asserts (Text.lowercase filter))

end MemoryDomain

namespace MemoryDirectory

def domain (m : MemoryDirectory) (name : String) : MemoryDomain :=
  (m.domains.get? name).getD {}

/-- The directory with a domain changed. -/
def update (m : MemoryDirectory) (name : String) (f : MemoryDomain → MemoryDomain) :
    MemoryDirectory :=
  ⟨m.domains.set name (f (m.domain name))⟩

/-- The directory with one more entry. -/
def addEntry (m : MemoryDirectory) (name base : String) (e : Entry) : MemoryDirectory :=
  m.update name fun d => { d with entries := d.entries ++ [(base, e)] }

/-- The directory with an outage of a domain. -/
def fail (m : MemoryDirectory) (name : String) (outage : Outage) : MemoryDirectory :=
  m.update name fun d => { d with outage }

/-- Whether a domain accepts a connection, and the directory after that. -/
def accept (m : MemoryDirectory) (settings : ConnectionSettings) :
    Except SourceError Unit × MemoryDirectory :=
  let d := m.domain settings.domain
  let refused := .error (.transient (settings.url ++ " is unreachable"))
  let asked := { d with connects := d.connects + 1 }
  match d.outage with
  | .lasting => (refused, m.update settings.domain fun _ => asked)
  | .times (n + 1) =>
    (refused, m.update settings.domain fun _ => { asked with outage := .times n })
  | .times 0 => (.ok (), m.update settings.domain fun _ => asked)

/-- An open connection to a domain. -/
def connection {σ : Type} (field : Field σ MemoryDirectory) (name : String) :
    DirectoryConnection σ where
  searchPage request :=
    .modifyGet fun s =>
      let m := field.get s
      ((m.domain name).page request,
        field.set
          (m.update name fun d =>
            { d with pages := d.pages + 1, lastFilter := some request.filter }) s)
  search request :=
    .modifyGet fun s =>
      let m := field.get s
      (.ok ((m.domain name).matching request.base request.filter),
        field.set (m.update name fun d => { d with lastFilter := some request.filter }) s)
  close := .done (.ok ())

/-- The client of the directory in a part of the state. -/
def client {σ : Type} (field : Field σ MemoryDirectory) : DirectoryClient σ where
  connect settings :=
    (Activity.modifyGet fun s =>
      let (outcome, m) := (field.get s).accept settings
      (outcome, field.set m s)).bindOk fun _ => .done (.ok (connection field settings.domain))

end MemoryDirectory

/-! ## The backend -/

/-- The content of a backend and what it was asked. -/
structure MemoryBackend where
  /-- The start of its server's name. -/
  serverPrefix : String
  function : String
  /-- The values of its org units, in the order added. -/
  details : List Detail := []
  /-- The errors it reports with every response. -/
  returnRows : Table := []
  /-- The calls it still fails. -/
  failures : Nat := 0
  /-- It responds without tables. -/
  silent : Bool := false
  /-- Milliseconds before it responds. -/
  latency : Option Nat := none
  calls : Nat := 0
  lastImports : Option BackendImports := none
deriving DecidableEq, Repr

namespace MemoryBackend

/-- The backend with one more error to report. -/
def addReturn (m : MemoryBackend) (type id number message : String) : MemoryBackend :=
  { m with
    returnRows := m.returnRows
      ++ [.ofList [("TYPE", type), ("ID", id), ("NUMBER", number), ("MESSAGE", message)]] }

/-- The ids that a call asks for. -/
def wanted (imports : BackendImports) : List String :=
  ((imports.tables.get? BackendRequest.idTable).getD []).filterMap fun row =>
    row.get? BackendRequest.idColumn

/-- A call asks for every org unit. -/
def wantsAll (imports : BackendImports) : Bool :=
  imports.scalars.get? BackendRequest.allFlag == some BackendRequest.flagYes

def response (m : MemoryBackend) (imports : BackendImports) : BackendResponse :=
  if m.silent then .empty
  else
    let chosen := m.details.filter fun d => wantsAll imports || (wanted imports).contains d.id
    ⟨.ofList
      [(BackendRequest.returnTable, m.returnRows),
        (BackendRequest.detailTable, chosen.map Detail.toRow)]⟩

/-- The outcome of a call, and the backend after it. -/
def respond (m : MemoryBackend) (imports : BackendImports) :
    Except SourceError BackendResponse × MemoryBackend :=
  match m.failures with
  | n + 1 => (.error (.transient "backend connection reset"), { m with failures := n })
  | 0 => (.ok (m.response imports), m)

/-- The client of the backend in a part of the state. -/
def client {σ : Type} (field : Field σ MemoryBackend) : BackendClient σ where
  invoke serverPrefix function imports :=
    (Activity.modifyGet fun s =>
      let m := field.get s
      (m, field.set { m with calls := m.calls + 1, lastImports := some imports } s)).bind fun m =>
    if serverPrefix ≠ m.serverPrefix then .done (.error (.unknownServer serverPrefix))
    else if function ≠ m.function then .done (.error (.unknownFunction function))
    else
      let answer := Activity.modifyGet fun s =>
        let (outcome, m) := (field.get s).respond imports
        (outcome, field.set m s)
      match m.latency with
      | none => answer
      | some millis => .sleep millis id answer

end MemoryBackend

end AttrFederation
