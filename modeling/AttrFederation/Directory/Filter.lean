import AttrFederation.Profile.ObjectClass

/-!
# Search filters

Two filters per object class: one that finds every object, and one that finds the objects with an
identity as the value of some key attribute.  Characters that mean something in a filter are escaped
in the identity as a backslash and two hexadecimal digits.
-/

namespace AttrFederation.Filter

/-! ## Escaping -/

/-- The escaped form of a character that means something in a filter, the character otherwise. -/
def escapeChar (c : Char) : List Char :=
  if c = '\\' then ['\\', '5', 'c']
  else if c = '*' then ['\\', '2', 'a']
  else if c = '(' then ['\\', '2', '8']
  else if c = ')' then ['\\', '2', '9']
  else if c = '\x00' then ['\\', '0', '0']
  else [c]

/-- A value in which no character means anything in a filter. -/
def escape (value : String) : String :=
  String.ofList (value.toList.flatMap escapeChar)

/-! ## Filters -/

/-- The clause that excludes disabled accounts. -/
def enabledOnly : String :=
  "(!(userAccountControl:1.2.840.113556.1.4.803:=2))"

/-- A filter in parentheses; one that starts with a parenthesis stays as it is. -/
def parenthesize (filter : String) : String :=
  let filter := Text.trim filter
  if filter.toList.head? = some '(' then filter else "(" ++ filter ++ ")"

/-- The clauses every object of a class matches. -/
def classClauses (c : ObjectClass) (includeDisabled : Bool) : String :=
  parenthesize c.filter ++ if includeDisabled then "" else enabledOnly

/-- The filter for every object of a class. -/
def enumeration (c : ObjectClass) (includeDisabled : Bool) : String :=
  "(&" ++ classClauses c includeDisabled ++ ")"

/-- The clause that an attribute has a value. -/
def assertion (name value : String) : String :=
  "(" ++ name ++ "=" ++ escape value ++ ")"

/-- The clause that some key attribute of a class has the value. -/
def anyKey (c : ObjectClass) (id : String) : String :=
  "(|" ++ String.join (c.keys.map fun key => assertion key.name id) ++ ")"

/-- The filter for the objects of a class with an identity. -/
def identity (c : ObjectClass) (includeDisabled : Bool) (id : String) : String :=
  "(&" ++ classClauses c includeDisabled ++ anyKey c id ++ ")"

end AttrFederation.Filter
