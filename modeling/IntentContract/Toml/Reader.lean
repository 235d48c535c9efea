import IntentContract.Toml.Quoted
import IntentContract.Toml.Scalar
import IntentContract.Toml.Table

/-!
# Reading TOML text

A document is read line by line into one table, and comes out as one value. Comments and line
breaks may stand between the items of a list, and between the keys, equals signs and values of a
table in braces.
-/

namespace IntentContract.Toml

/-- What is read from the front of a text, and the text behind it. -/
abbrev Reading (α : Type) := List Char → Option (α × List Char)

/-- The text behind blanks. -/
def skipBlanks (cs : List Char) : List Char :=
  cs.dropWhile isBlank

/-- The text behind a comment, if there is one. -/
def skipComment : List Char → List Char
  | '#' :: rest => rest.dropWhile fun c => !isBreak c
  | cs => cs

/-- The text behind blanks, comments and line breaks. -/
def skipLines (cs : List Char) : List Char :=
  match lineBreak? (skipComment (skipBlanks cs)) with
  | some rest => if rest.length < cs.length then skipLines rest else rest
  | none => skipComment (skipBlanks cs)
termination_by cs.length

/-! ## Keys -/

/-- A character of a key without quotes. -/
def isKeyChar (c : Char) : Bool :=
  let n := c.toNat
  (48 ≤ n && n ≤ 57) || (65 ≤ n && n ≤ 90) || (97 ≤ n && n ≤ 122) || c = '_' || c = '-'

/-- One part of a key. -/
def keyPart? : Reading String := fun cs =>
  match cs.takeWhile isKeyChar with
  | [] => lineString? cs
  | word => some (String.ofList word, cs.dropWhile isKeyChar)

/-- Parts with dots between them. -/
def keyParts? (cs : List Char) : Option (List String × List Char) :=
  match keyPart? (skipBlanks cs) with
  | none => none
  | some (part, rest) =>
    match skipBlanks rest with
    | '.' :: rest =>
      if rest.length < cs.length then
        (keyParts? rest).map fun (parts, rest) => (part :: parts, rest)
      else none
    | rest => some ([part], rest)
termination_by cs.length

/-- The most parts that a key can have, and the deepest nesting of lists and tables. -/
def maxDepth : Nat := 80

/-- **A key**, with no more than `maxDepth` parts. -/
def key? : Reading (List String) := fun cs =>
  match keyParts? cs with
  | none => none
  | some (parts, rest) => if parts.length ≤ maxDepth then some (parts, rest) else none

/-! ## Values -/

/-- Items with commas between them, up to a closing bracket; a comma may also follow the last. -/
def items? {α : Type} (close : Char) (item : Reading α) (cs : List Char) :
    Option (List α × List Char) :=
  match skipLines cs with
  | [] => none
  | c :: rest =>
    if c = close then some ([], rest)
    else
      match item (c :: rest) with
      | none => none
      | some (a, rest) =>
        match skipLines rest with
        | [] => none
        | c :: rest =>
          if c = close then some ([a], rest)
          else if c = ',' && rest.length < cs.length then
            (items? close item rest).map fun (as, rest) => (a :: as, rest)
          else none
termination_by cs.length
decreasing_by
  simp_all

/-- A character that can be part of a word. -/
def isWordChar (c : Char) : Bool :=
  isKeyChar c || c = '+' || c = '.' || c = ':'

/-- A word. A date and a time may have a blank between them. -/
def word? : Reading Value := fun cs =>
  let word := cs.takeWhile isWordChar
  match cs.dropWhile isWordChar with
  | ' ' :: d :: rest =>
    if isDate word && Text.isDigit d then
      let time := (d :: rest).takeWhile isWordChar
      (scalar? (word ++ ' ' :: time)).map (·, (d :: rest).dropWhile isWordChar)
    else (scalar? word).map (·, ' ' :: d :: rest)
  | rest => (scalar? word).map (·, rest)

/-- An assignment, with its values read by `value`. What may stand on both sides of the equals sign
is passed over by `skip`. -/
def assignment? (skip : List Char → List Char) (value : Reading Value) :
    Reading (List String × Value) := fun cs => do
  let (keys, rest) ← key? cs
  match skip rest with
  | '=' :: rest =>
    let (v, rest) ← value (skip rest)
    some ((keys, v), rest)
  | _ => none

/-- The entries of assignments, one after the other. -/
def assignAll (assignments : List (List String × Value)) : Option Entries :=
  assignments.foldlM (fun entries (keys, v) => assign v keys entries) []

/-- A value that is neither a list nor a table. -/
def plain? : Reading Value := fun cs =>
  match cs with
  | '"' :: _ => (string? cs).map fun (s, rest) => (.text s, rest)
  | '\'' :: _ => (string? cs).map fun (s, rest) => (.text s, rest)
  | _ => word? cs

/-- **A value**, with lists and tables nested no deeper than `depth`. -/
def value? : Nat → Reading Value
  | 0, cs => plain? cs
  | depth + 1, cs =>
    match cs with
    | '[' :: rest => (items? ']' (value? depth) rest).map fun (vs, rest) => (.list vs, rest)
    | '\x7b' :: rest => do
      let (assignments, rest) ← items? '\x7d' (assignment? skipLines (value? depth)) rest
      let entries ← assignAll assignments
      return (.table (fieldsOf entries), rest)
    | _ => plain? cs

/-! ## Lines -/

/-- **A line** of a document. -/
inductive Line where
  | blank
  | header (isList : Bool) (keys : List String)
  | assignment (keys : List String) (v : Value)

/-- A header between its brackets. -/
def header? : Reading Line := fun cs =>
  match cs with
  | '[' :: '[' :: rest => do
    let (keys, rest) ← key? rest
    match rest with
    | ']' :: ']' :: rest => some (.header true keys, rest)
    | _ => none
  | '[' :: rest => do
    let (keys, rest) ← key? rest
    match rest with
    | ']' :: rest => some (.header false keys, rest)
    | _ => none
  | _ => none

/-- A line without its end. -/
def line? (cs : List Char) : Option (Line × List Char) :=
  match cs with
  | [] => some (.blank, [])
  | '[' :: _ => header? cs
  | c :: _ =>
    if c = '#' || isBreak c then some (.blank, cs)
    else
      (assignment? skipBlanks (value? maxDepth) cs).map fun ((keys, v), rest) =>
        (.assignment keys v, rest)

/-- The lines of a text. -/
def lines? (cs : List Char) : Option (List Line) :=
  match line? (skipBlanks cs) with
  | none => none
  | some (line, rest) =>
    match skipComment (skipBlanks rest) with
    | [] => some [line]
    | rest =>
      match lineBreak? rest with
      | none => none
      | some rest => if rest.length < cs.length then (lines? rest).map (line :: ·) else none
termination_by cs.length

/-- The tables that lines build; assignments go to the table opened last. -/
def build (current : List String) (root : Entries) : List Line → Option Entries
  | [] => some root
  | .blank :: rest => build current root rest
  | .header isList keys :: rest => do build keys (← openHeader isList keys root) rest
  | .assignment keys v :: rest => do build current (← enter (assign v keys) current root) rest

/-- Whether a text has no control characters but tabs and line breaks. -/
def isClean : List Char → Bool
  | [] => true
  | '\r' :: '\n' :: rest => isClean rest
  | c :: rest =>
    (c = '\t' || c = '\n' || (32 ≤ c.toNat && c.toNat ≠ 127)) && isClean rest

/-- The text without a byte order mark. -/
def dropMark : List Char → List Char
  | c :: rest => if c.toNat = 0xFEFF then rest else c :: rest
  | [] => []

/-- What counts as nothing where a value is only named: a list or a table without entries. -/
def isNothing : Json → Bool
  | .arr [] => true
  | .obj [] => true
  | _ => false

/-- **Reads a document** as a table. -/
def parse? (text : String) : Option Value := do
  let cs := dropMark text.toList
  if isClean cs then
    let root ← build [] [] (← lines? cs)
    return .table (fieldsOf root)
  else none

end IntentContract.Toml
