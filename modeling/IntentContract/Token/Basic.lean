import IntentContract.Text.Digits
import IntentContract.Number.Decimal

/-!
# Tokens of interface definitions

The words, symbols and literals a definition is made of. A keyword may also serve as a name, so
each keyword knows its spelling. A string literal has no escapes: its token holds what stands
between the quotes.
-/

namespace IntentContract

/-- The words with a meaning of their own in the grammar. -/
inductive Keyword where
  | interface
  | partialK
  | dictionary
  | enum
  | typedef
  | attr
  | readonly
  | optional
  | required
  | const
  | or
  deriving DecidableEq

namespace Keyword

/-- The spelling of a keyword. -/
def spelling : Keyword → String
  | .interface => "interface"
  | .partialK => "partial"
  | .dictionary => "dictionary"
  | .enum => "enum"
  | .typedef => "typedef"
  | .attr => "attribute"
  | .readonly => "readonly"
  | .optional => "optional"
  | .required => "required"
  | .const => "const"
  | .or => "or"

/-- All keywords. -/
def all : List Keyword :=
  [.interface, .partialK, .dictionary, .enum, .typedef, .attr, .readonly, .optional, .required,
    .const, .or]

/-- The keyword with a spelling. -/
def ofSpelling? (word : String) : Option Keyword :=
  all.find? fun k => k.spelling == word

/-- A keyword is found by its own spelling. -/
theorem ofSpelling?_spelling (k : Keyword) : ofSpelling? k.spelling = some k := by
  cases k <;> decide

end Keyword

/-- The symbols of the grammar. -/
inductive Symbol where
  | lbrace
  | rbrace
  | lbracket
  | rbracket
  | lparen
  | rparen
  | langle
  | rangle
  | colon
  | semicolon
  | comma
  | equals
  | question
  | ellipsis
  deriving DecidableEq

namespace Symbol

/-- The spelling of a symbol. -/
def spelling : Symbol → String
  | .lbrace => "\x7b"
  | .rbrace => "\x7d"
  | .lbracket => "["
  | .rbracket => "]"
  | .lparen => "("
  | .rparen => ")"
  | .langle => "<"
  | .rangle => ">"
  | .colon => ":"
  | .semicolon => ";"
  | .comma => ","
  | .equals => "="
  | .question => "?"
  | .ellipsis => "..."

/-- The symbol that a single character is, none for a character that is no symbol. -/
def ofChar? (c : Char) : Option Symbol :=
  if c = '\x7b' then some .lbrace
  else if c = '\x7d' then some .rbrace
  else if c = '[' then some .lbracket
  else if c = ']' then some .rbracket
  else if c = '(' then some .lparen
  else if c = ')' then some .rparen
  else if c = '<' then some .langle
  else if c = '>' then some .rangle
  else if c = ':' then some .colon
  else if c = ';' then some .semicolon
  else if c = ',' then some .comma
  else if c = '=' then some .equals
  else if c = '?' then some .question
  else none

end Symbol

/-- **A token.** -/
inductive Token where
  | keyword (k : Keyword)
  | symbol (s : Symbol)
  | string (content : String)
  | integer (n : Int)
  | float (x : Double)
  | identifier (name : String)
  deriving DecidableEq

/-- How a fractional number in a definition is written: always positional, a whole number without
a point, and the greater digit where two are equally near. -/
def floatStyle : Decimal.Style where
  tie := .up
  positional _ := true
  keepsPoint := false

/-- The content of a string literal within its quotes. -/
def quoted (content : String) : String :=
  "\"" ++ content ++ "\""

namespace Token

/-- How messages name a token. -/
def describe : Token → String
  | .keyword k => "'" ++ k.spelling ++ "'"
  | .symbol s => "'" ++ s.spelling ++ "'"
  | .string content => "string " ++ quoted content
  | .integer n => "integer " ++ Text.intText n
  | .float x => "float " ++ x.text floatStyle
  | .identifier name => "identifier '" ++ name ++ "'"

/-- The name a token can serve as: an identifier, or a keyword by its spelling. -/
def name? : Token → Option String
  | .identifier name => some name
  | .keyword k => some k.spelling
  | _ => none

/-- The token a word is. -/
def ofWord (word : String) : Token :=
  match Keyword.ofSpelling? word with
  | some k => .keyword k
  | none => .identifier word

end Token

/-- How messages name the token in front of a list, or its end. -/
def describeNext : List Token → String
  | [] => "end of input"
  | t :: _ => t.describe

end IntentContract
