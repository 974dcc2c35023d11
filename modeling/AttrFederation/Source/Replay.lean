import AttrFederation.Activity.Field
import AttrFederation.Source.Client

/-!
# Replayed sources

A directory and a backend that answer from lists of outcomes prepared beforehand, one after the
other, and keep a log of every call.  When a list is used up, a connection is accepted, a search
finds nothing, a connection closes, and a backend call returns no tables.
-/

namespace AttrFederation

/-- The next of the prepared outcomes, or a default, and the outcomes left. -/
def nextOutcome {α : Type} (default : α) : List α → α × List α
  | [] => (default, [])
  | outcome :: outcomes => (outcome, outcomes)

/-! ## The directory -/

/-- A call that a directory had. -/
inductive DirectoryCall where
  | connect (settings : ConnectionSettings)
  | searchPage (request : PageRequest)
  | search (request : SearchRequest)
  | close
deriving DecidableEq, Repr

/-- The outcomes left and the calls so far. -/
structure ReplayDirectory where
  connects : List (Except SourceError Unit) := []
  /-- Outcomes of asking for a page. -/
  pages : List (Except SourceError SearchPage) := []
  searches : List (Except SourceError (List Entry)) := []
  closes : List (Except SourceError Unit) := []
  /-- The calls, the latest last. -/
  log : List DirectoryCall := []

namespace ReplayDirectory

/-- The directory with one more call in its log. -/
def note (m : ReplayDirectory) (call : DirectoryCall) : ReplayDirectory :=
  { m with log := m.log ++ [call] }

def connection {σ : Type} (field : Field σ ReplayDirectory) : DirectoryConnection σ where
  searchPage request :=
    .modifyGet fun s =>
      let m := (field.get s).note (.searchPage request)
      let (outcome, pages) := nextOutcome (.ok {}) m.pages
      (outcome, field.set { m with pages } s)
  search request :=
    .modifyGet fun s =>
      let m := (field.get s).note (.search request)
      let (outcome, searches) := nextOutcome (.ok []) m.searches
      (outcome, field.set { m with searches } s)
  close :=
    .modifyGet fun s =>
      let m := (field.get s).note .close
      let (outcome, closes) := nextOutcome (.ok ()) m.closes
      (outcome, field.set { m with closes } s)

/-- The client of the directory in a part of the state. -/
def client {σ : Type} (field : Field σ ReplayDirectory) : DirectoryClient σ where
  connect settings :=
    (Activity.modifyGet fun s =>
      let m := (field.get s).note (.connect settings)
      let (outcome, connects) := nextOutcome (.ok ()) m.connects
      (outcome, field.set { m with connects } s)).bindOk fun _ => .done (.ok (connection field))

end ReplayDirectory

/-! ## The backend -/

/-- A call that a backend had. -/
structure BackendCall where
  serverPrefix : String
  function : String
  imports : BackendImports
deriving DecidableEq, Repr

/-- The outcomes left and the calls so far. -/
structure ReplayBackend where
  outcomes : List (Except SourceError BackendResponse) := []
  /-- The calls, the latest last. -/
  log : List BackendCall := []

/-- The client of the backend in a part of the state. -/
def ReplayBackend.client {σ : Type} (field : Field σ ReplayBackend) : BackendClient σ where
  invoke serverPrefix function imports :=
    .modifyGet fun s =>
      let m := field.get s
      let (outcome, outcomes) := nextOutcome (.ok .empty) m.outcomes
      (outcome, field.set { outcomes, log := m.log ++ [⟨serverPrefix, function, imports⟩] } s)

end AttrFederation
