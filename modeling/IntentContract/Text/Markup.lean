/-!
# Text in markup

The five characters with a meaning in markup are written as entities, in contents and in
attributes alike. All other characters stand for themselves.
-/

namespace IntentContract.Text

/-- What a character is written as in markup. -/
def entity (c : Char) : List Char :=
  if c = '&' then "&amp;".toList
  else if c = '<' then "&lt;".toList
  else if c = '>' then "&gt;".toList
  else if c = '"' then "&quot;".toList
  else if c = '\'' then "&apos;".toList
  else [c]

/-- A text as it stands in markup. -/
def escapeMarkup (s : String) : String :=
  String.ofList (s.toList.flatMap entity)

/-- An attribute with its value, after a blank. -/
def markupAttribute (name value : String) : String :=
  " " ++ name ++ "=\"" ++ escapeMarkup value ++ "\""

end IntentContract.Text
