/-!
# Failures of a source

Why a directory or backend call fails.  A failure that may pass, and data that cannot be decoded,
are worth another attempt; a fault of configuration or an unknown name is not.
-/

namespace AttrFederation

/-- Why a call to a source fails. -/
inductive SourceError where
  | configuration (reason : String)
  /-- The source cannot be reached at the moment. -/
  | transient (reason : String)
  /-- The data of the source cannot be decoded. -/
  | decoding (reason : String)
  /-- The backend has no server of this name. -/
  | unknownServer (name : String)
  /-- The backend has no function of this name. -/
  | unknownFunction (name : String)
deriving DecidableEq, Repr

namespace SourceError

def message : SourceError → String
  | configuration reason => "Configuration error: " ++ reason
  | transient reason => "Transient source error: " ++ reason
  | decoding reason => "Decoding error: " ++ reason
  | unknownServer name => "Unknown backend server: " ++ name
  | unknownFunction name => "Unknown backend function: " ++ name

/-- Another attempt may succeed. -/
def retryable : SourceError → Bool
  | transient _ | decoding _ => true
  | configuration _ | unknownServer _ | unknownFunction _ => false

/-- The call named something the backend does not know. -/
def namesUnknown : SourceError → Bool
  | unknownServer _ | unknownFunction _ => true
  | _ => false

end SourceError

end AttrFederation
