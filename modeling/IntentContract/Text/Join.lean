/-!
# Joining texts

Lists of texts put together with a separator between neighbours.
-/

namespace IntentContract.Text

/-- The texts with `separator` between each and the next. -/
def join (separator : String) : List String → String
  | [] => ""
  | [s] => s
  | s :: rest => s ++ separator ++ join separator rest

end IntentContract.Text
