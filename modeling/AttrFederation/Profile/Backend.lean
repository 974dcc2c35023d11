import AttrFederation.Profile.Directory

/-!
# The backend profile

The one enterprise backend is named after its server prefix.  Its profile has the function that is
called and the attributes that org units supply.
-/

namespace AttrFederation

structure BackendProfile where
  /-- The server to call, by the start of its name. -/
  serverPrefix : String
  handler : String
  /-- The attributes that org units supply. -/
  pulls : PullAttributes
deriving DecidableEq, Repr

namespace BackendProfile

/-- The value of a property that has to be there. -/
def requireProperty (props : Properties) (domain key : String) : Except ProfileError String :=
  match props.get? key with
  | some value => .ok value
  | none => .error (.missing domain key)

/-- The backend profile, or its first fault. -/
def parse (props : Properties) : Except ProfileError BackendProfile := do
  let serverPrefix ← requireProperty props "backend" "sap_server_prefix"
  let handler ← requireProperty props serverPrefix "sap_handler"
  let pulls ← requireProperty props serverPrefix "aor_attributes_to_pull"
  return { serverPrefix, handler, pulls := PullAttributes.parseList pulls }

end BackendProfile

end AttrFederation
