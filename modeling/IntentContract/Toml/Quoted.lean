import IntentContract.Text.Hex

/-!
# Strings of a TOML document

A string stands between double quotes, with escapes, or between single quotes, without. Either may
be tripled: then the string may have several lines, and a line break right behind the opening
quotes is dropped.
-/

namespace IntentContract.Toml

/-- A blank within a line. -/
def isBlank (c : Char) : Bool :=
  c = ' ' || c = '\t'

/-- The text behind a line break. -/
def lineBreak? : List Char → Option (List Char)
  | '\n' :: rest => some rest
  | '\r' :: '\n' :: rest => some rest
  | _ => none

/-- A character that breaks a line. -/
def isBreak (c : Char) : Bool :=
  c = '\n' || c = '\r'

/-- The number that hexadecimal digits stand for. -/
def hexNumber? (digits : List Char) : Option Nat :=
  digits.foldlM (fun n c => (Text.hexValue? c).map (16 * n + ·)) 0

/-- The character with a code point in `width` hexadecimal digits. -/
def codePoint? (width : Nat) (cs : List Char) : Option (Char × List Char) := do
  let digits := cs.take width
  if digits.length ≠ width then none
  else
    let n ← hexNumber? digits
    if n < 0xD800 || (0xDFFF < n && n ≤ 0x10FFFF) then some (Char.ofNat n, cs.drop width)
    else none

/-- The character that the text behind a backslash stands for. -/
def escape? : List Char → Option (Char × List Char)
  | '"' :: rest => some ('"', rest)
  | '\\' :: rest => some ('\\', rest)
  | 'b' :: rest => some (Char.ofNat 8, rest)
  | 't' :: rest => some ('\t', rest)
  | 'n' :: rest => some ('\n', rest)
  | 'f' :: rest => some (Char.ofNat 12, rest)
  | 'r' :: rest => some ('\r', rest)
  | 'e' :: rest => some (Char.ofNat 27, rest)
  | 'x' :: rest => codePoint? 2 rest
  | 'u' :: rest => codePoint? 4 rest
  | 'U' :: rest => codePoint? 8 rest
  | _ => none

/-- The characters up to a closing double quote, and what follows it. -/
def basic? (cs : List Char) : Option (List Char × List Char) :=
  match cs with
  | [] => none
  | '"' :: rest => some ([], rest)
  | '\\' :: body =>
    match escape? body with
    | none => none
    | some (c, rest) =>
      if rest.length ≤ body.length then (basic? rest).map fun (s, rest) => (c :: s, rest) else none
  | c :: rest => if isBreak c then none else (basic? rest).map fun (s, rest) => (c :: s, rest)
termination_by cs.length

/-- The characters up to a closing single quote, and what follows it. -/
def literal? : List Char → Option (List Char × List Char)
  | [] => none
  | '\'' :: rest => some ([], rest)
  | c :: rest => if isBreak c then none else (literal? rest).map fun (s, rest) => (c :: s, rest)

/-- The text behind a backslash at the end of a line: it goes on with the next character that is
neither a blank nor a line break. -/
def continued? (cs : List Char) : Option (List Char) :=
  (lineBreak? (cs.dropWhile isBlank)).map fun rest =>
    rest.dropWhile fun c => isBlank c || isBreak c

/-- The characters up to three double quotes, and what follows them. One or two quotes right in
front of the closing ones belong to the string. -/
def basicLines? (cs : List Char) : Option (List Char × List Char) :=
  match cs with
  | [] => none
  | '"' :: '"' :: '"' :: '"' :: '"' :: rest => some (['"', '"'], rest)
  | '"' :: '"' :: '"' :: '"' :: rest => some (['"'], rest)
  | '"' :: '"' :: '"' :: rest => some ([], rest)
  | '\\' :: body =>
    match continued? body with
    | some rest => if rest.length ≤ body.length then basicLines? rest else none
    | none =>
      match escape? body with
      | none => none
      | some (c, rest) =>
        if rest.length ≤ body.length then (basicLines? rest).map fun (s, rest) => (c :: s, rest)
        else none
  | c :: rest => (basicLines? rest).map fun (s, rest) => (c :: s, rest)
termination_by cs.length

/-- The characters up to three single quotes, and what follows them. -/
def literalLines? : List Char → Option (List Char × List Char)
  | [] => none
  | '\'' :: '\'' :: '\'' :: '\'' :: '\'' :: rest => some (['\'', '\''], rest)
  | '\'' :: '\'' :: '\'' :: '\'' :: rest => some (['\''], rest)
  | '\'' :: '\'' :: '\'' :: rest => some ([], rest)
  | c :: rest => (literalLines? rest).map fun (s, rest) => (c :: s, rest)

/-- The text without a line break in front. -/
def dropBreak (cs : List Char) : List Char :=
  (lineBreak? cs).getD cs

/-- A string of one line, in either kind of quotes. -/
def lineString? : List Char → Option (String × List Char)
  | '"' :: rest => (basic? rest).map fun (s, rest) => (String.ofList s, rest)
  | '\'' :: rest => (literal? rest).map fun (s, rest) => (String.ofList s, rest)
  | _ => none

/-- **A string.** -/
def string? : List Char → Option (String × List Char)
  | '"' :: '"' :: '"' :: rest =>
    (basicLines? (dropBreak rest)).map fun (s, rest) => (String.ofList s, rest)
  | '\'' :: '\'' :: '\'' :: rest =>
    (literalLines? (dropBreak rest)).map fun (s, rest) => (String.ofList s, rest)
  | cs => lineString? cs

end IntentContract.Toml
