/-!
# Lines of generated code

Generated code is a list of lines and of **blocks**: an opening line, a body two spaces deeper,
and a closing line. The text comes last, from the tree, so that a body is closed wherever it is
opened.
-/

namespace IntentContract

/-- **A piece of generated code.** -/
inductive Code where
  /-- An empty line. -/
  | blank
  /-- A line of text. -/
  | line (text : String)
  /-- An opening line, a body one step deeper, and a closing line. -/
  | block (opening : String) (body : List Code) (closing : String)

namespace Code

/-- A line at a depth: an empty text is not indented. -/
def lineText (depth : Nat) (text : String) : String :=
  if text = "" then "\n"
  else String.ofList (List.replicate (2 * depth) ' ') ++ text ++ "\n"

mutual

/-- The text of a piece of code that starts at a depth. -/
def renderAt (depth : Nat) : Code → String
  | .blank => "\n"
  | .line text => lineText depth text
  | .block opening body closing =>
    lineText depth opening ++ renderAllAt (depth + 1) body ++ lineText depth closing

/-- The text of a list of pieces. -/
def renderAllAt (depth : Nat) : List Code → String
  | [] => ""
  | c :: rest => renderAt depth c ++ renderAllAt depth rest

end

/-- **The text of generated code.** -/
def render (code : List Code) : String :=
  renderAllAt 0 code

end Code

end IntentContract
