/-!
# Finding a text in a text
-/

namespace AttrFederation.Text

/-- The characters stand one after another somewhere in a list. -/
def containsChars (needle : List Char) : List Char → Bool
  | [] => needle.isEmpty
  | c :: cs => needle.isPrefixOf (c :: cs) || containsChars needle cs

def containsText (s needle : String) : Bool :=
  containsChars needle.toList s.toList

end AttrFederation.Text
