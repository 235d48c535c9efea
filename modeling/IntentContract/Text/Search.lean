/-!
# Searching a text

Whether a text occurs in another.
-/

namespace IntentContract.Text

/-- Whether the characters `needle` stand somewhere in a list of characters. -/
def occursIn (needle : List Char) : List Char → Bool
  | [] => needle.isEmpty
  | c :: rest => needle.isPrefixOf (c :: rest) || occursIn needle rest

end IntentContract.Text
