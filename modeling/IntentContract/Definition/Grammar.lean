import IntentContract.Definition.Basic
import IntentContract.Token.Scan

/-!
# The grammar of definitions

A document is read from its tokens by functions that take a list of tokens to a value and the
tokens left over. The end of the list is the end of the document. A token that does not fit gives
a `SyntaxError`, which holds what was expected and the tokens from the misfit on, so its place in
the document follows from how many tokens are left.

Types are read in one pass that keeps the unions and generics still open on a stack.
-/

namespace IntentContract

/-- What the grammar expects at some point. -/
inductive Expectation where
  | symbol (s : Symbol)
  | keyword (k : Keyword)
  | identifier
  | definition
  | type
  | unionAlternative
  | unsignedWidth
  | unrestrictedWidth
  | enumValue
  | defaultValue
  | closingParenthesis
  deriving DecidableEq

/-- The words for what is expected. -/
def Expectation.text : Expectation → String
  | .symbol s => "expected " ++ (Token.symbol s).describe
  | .keyword k => "expected " ++ (Token.keyword k).describe
  | .identifier => "expected identifier"
  | .definition => "expected definition"
  | .type => "expected type"
  | .unionAlternative => "expected 'or' in union type"
  | .unsignedWidth => "expected 'short' or 'long' after 'unsigned'"
  | .unrestrictedWidth => "expected 'float' or 'double' after 'unrestricted'"
  | .enumValue => "expected enum value"
  | .defaultValue => "expected default value"
  | .closingParenthesis => "unbalanced parentheses"

/-- A misfit: what was expected, and the tokens from the unexpected one on. -/
structure SyntaxError where
  expected : Expectation
  rest : List Token

/-- A reader of some part of a document. -/
def Parser (α : Type) := List Token → Except SyntaxError (α × List Token)

namespace Parser

variable {α β : Type}

instance : Monad Parser where
  pure a := fun ts => .ok (a, ts)
  bind p f := fun ts =>
    match p ts with
    | .ok (a, rest) => f a rest
    | .error e => .error e

/-- Reports that something else is expected here. -/
def misfit (expected : Expectation) : Parser α := fun ts =>
  .error ⟨expected, ts⟩

/-- Passes over a token if it comes next. -/
def eat (t : Token) : Parser Bool := fun ts =>
  match ts with
  | t' :: rest => .ok (if t' = t then (true, rest) else (false, ts))
  | [] => .ok (false, [])

/-- Whether a token comes next. -/
def check (t : Token) : Parser Bool := fun ts =>
  .ok (ts.head? == some t, ts)

/-- Passes over a symbol that must come next. -/
def symbol (s : Symbol) : Parser Unit := do
  if ← eat (.symbol s) then pure () else misfit (.symbol s)

/-- Passes over a keyword that must come next. -/
def keyword (k : Keyword) : Parser Unit := do
  if ← eat (.keyword k) then pure () else misfit (.keyword k)

/-- A name: an identifier, or a keyword used as one. -/
def name : Parser String := fun ts =>
  match ts with
  | t :: rest =>
    match t.name? with
    | some n => .ok (n, rest)
    | none => .error ⟨.identifier, ts⟩
  | [] => .error ⟨.identifier, []⟩

/-- The items of a list with commas, from the given tokens. -/
def commaItems (item : Parser α) (ts : List Token) : Except SyntaxError (List α × List Token) :=
  match item ts with
  | .error e => .error e
  | .ok (a, .symbol .comma :: rest) =>
    if rest.length < ts.length then
      match commaItems item rest with
      | .error e => .error e
      | .ok (as, rest) => .ok (a :: as, rest)
    else .ok ([a], .symbol .comma :: rest)
  | .ok (a, rest) => .ok ([a], rest)
termination_by ts.length

/-- One item after another, as long as a comma follows. -/
def commaList (item : Parser α) : Parser (List α) := fun ts =>
  commaItems item ts

/-- The items of a list that ends where `stop` says, from the given tokens. -/
def itemsUntil (stop : Option Token → Bool) (item : Parser α) (ts : List Token) :
    Except SyntaxError (List α × List Token) :=
  if stop ts.head? then .ok ([], ts)
  else
    match item ts with
    | .error e => .error e
    | .ok (a, rest) =>
      if rest.length < ts.length then
        match itemsUntil stop item rest with
        | .error e => .error e
        | .ok (as, rest) => .ok (a :: as, rest)
      else .ok ([a], rest)
termination_by ts.length

/-- One item after another, up to where `stop` holds of the next token, or of the end. Reading ends
also with an item that takes no token. -/
def untilStop (stop : Option Token → Bool) (item : Parser α) : Parser (List α) := fun ts =>
  itemsUntil stop item ts

end Parser

/-! ## Types -/

namespace Grammar

/-- The name of a type in front of the tokens; the primitives of several words are one name. -/
def typeName (ts : List Token) : Except SyntaxError (String × List Token) :=
  match ts with
  | .identifier first :: rest =>
    if first = "unsigned" then
      match Parser.name rest with
      | .error e => .error e
      | .ok (word, rest) =>
        if word = "short" then .ok ("unsigned short", rest)
        else if word = "long" then
          match rest with
          | .identifier "long" :: rest => .ok ("unsigned long long", rest)
          | _ => .ok ("unsigned long", rest)
        else .error ⟨.unsignedWidth, rest⟩
    else if first = "unrestricted" then
      match Parser.name rest with
      | .error e => .error e
      | .ok (word, rest) =>
        if word = "float" || word = "double" then .ok ("unrestricted " ++ word, rest)
        else .error ⟨.unrestrictedWidth, rest⟩
    else if first = "long" then
      match rest with
      | .identifier "long" :: rest => .ok ("long long", rest)
      | _ => .ok ("long", rest)
    else .ok (first, rest)
  | _ => .error ⟨.type, ts⟩

/-- Reading a name takes one token. -/
theorem length_lt_of_name {ts rest : List Token} {n : String}
    (h : Parser.name ts = .ok (n, rest)) : rest.length < ts.length := by
  unfold Parser.name at h
  split at h
  · split at h
    · simp only [Except.ok.injEq, Prod.mk.injEq] at h
      obtain ⟨-, rfl⟩ := h
      simp
    · exact nomatch h
  · exact nomatch h

/-- Reading the name of a type takes at least one token. -/
theorem length_lt_of_typeName {ts rest : List Token} {n : String}
    (h : typeName ts = .ok (n, rest)) : rest.length < ts.length := by
  unfold typeName at h
  split at h
  · next first r =>
    split at h
    · split at h
      · exact nomatch h
      · next hn =>
        have := length_lt_of_name hn
        split at h
        · simp only [Except.ok.injEq, Prod.mk.injEq] at h
          obtain ⟨-, rfl⟩ := h
          simp only [List.length_cons]
          omega
        · split at h
          · split at h
            · simp only [Except.ok.injEq, Prod.mk.injEq] at h
              obtain ⟨-, rfl⟩ := h
              simp only [List.length_cons] at this ⊢
              omega
            · simp only [Except.ok.injEq, Prod.mk.injEq] at h
              obtain ⟨-, rfl⟩ := h
              simp only [List.length_cons]
              omega
          · exact nomatch h
    · split at h
      · split at h
        · exact nomatch h
        · next hn =>
          have := length_lt_of_name hn
          split at h
          · simp only [Except.ok.injEq, Prod.mk.injEq] at h
            obtain ⟨-, rfl⟩ := h
            simp only [List.length_cons]
            omega
          · exact nomatch h
      · split at h
        · split at h
          · simp only [Except.ok.injEq, Prod.mk.injEq] at h
            obtain ⟨-, rfl⟩ := h
            simp only [List.length_cons]
            omega
          · simp only [Except.ok.injEq, Prod.mk.injEq] at h
            obtain ⟨-, rfl⟩ := h
            simp
        · simp only [Except.ok.injEq, Prod.mk.injEq] at h
          obtain ⟨-, rfl⟩ := h
          simp
  · exact nomatch h

/-- A type still open: a union with the members read so far, or a generic with its arguments. -/
inductive OpenType where
  | union (members : List TypeDescriptor)
  | generic (kind : String) (args : List TypeDescriptor)

mutual

/-- Reads on where a type must start. -/
def typeStart (stack : List OpenType) (ts : List Token) :
    Except SyntaxError (TypeDescriptor × List Token) :=
  match ts with
  | .symbol .lparen :: rest => typeStart (.union [] :: stack) rest
  | other =>
    match h : typeName other with
    | .error e => .error e
    | .ok (kind, .symbol .langle :: rest) =>
      have := length_lt_of_typeName h
      typeStart (.generic kind [] :: stack) rest
    | .ok (name, rest) =>
      have := length_lt_of_typeName h
      typeMark stack (.primitive name) rest
termination_by 3 * ts.length
decreasing_by
  · simp only [List.length_cons]
    omega
  · simp only [List.length_cons] at this
    omega
  · omega

/-- Reads on behind a type that a question mark may follow. -/
def typeMark (stack : List OpenType) (d : TypeDescriptor) (ts : List Token) :
    Except SyntaxError (TypeDescriptor × List Token) :=
  match ts with
  | .symbol .question :: rest => typeEnd stack (.nullable d) rest
  | other => typeEnd stack d other
termination_by 3 * ts.length + 2

/-- Reads on behind a complete type: the innermost open type goes on or is closed. -/
def typeEnd (stack : List OpenType) (d : TypeDescriptor) (ts : List Token) :
    Except SyntaxError (TypeDescriptor × List Token) :=
  match stack, ts with
  | [], ts => .ok (d, ts)
  | .union members :: stack, .keyword .or :: rest =>
    typeStart (.union (members ++ [d]) :: stack) rest
  | .union [] :: _, ts => .error ⟨.unionAlternative, ts⟩
  | .union members :: stack, .symbol .rparen :: rest =>
    typeMark stack (.union (members ++ [d])) rest
  | .union _ :: _, ts => .error ⟨.symbol .rparen, ts⟩
  | .generic kind args :: stack, .symbol .comma :: rest =>
    typeStart (.generic kind (args ++ [d]) :: stack) rest
  | .generic kind args :: stack, .symbol .rangle :: rest =>
    typeMark stack (.generic kind (args ++ [d])) rest
  | .generic _ _ :: _, ts => .error ⟨.symbol .rangle, ts⟩
termination_by 3 * ts.length + 1

end

/-- **A type.** -/
def type : Parser TypeDescriptor := fun ts =>
  typeStart [] ts

/-! ## Extended attributes -/

/-- Names joined to the first by colons; behind a colon only an identifier is taken. -/
def qualifiers : List Token → String × List Token
  | .symbol .colon :: .identifier n :: rest =>
    let (more, rest) := qualifiers rest
    (":" ++ n ++ more, rest)
  | ts => ("", ts)

/-- The tokens behind the parenthesis that closes the innermost of `depth + 1` open ones. -/
def closeParens? : Nat → List Token → Option (List Token)
  | _, [] => none
  | depth, .symbol .lparen :: rest => closeParens? (depth + 1) rest
  | 0, .symbol .rparen :: rest => some rest
  | depth + 1, .symbol .rparen :: rest => closeParens? depth rest
  | depth, _ :: rest => closeParens? depth rest

/-- Passes over an argument list in parentheses, if one comes next. -/
def skipParens : Parser Unit := fun ts =>
  match ts with
  | .symbol .lparen :: rest =>
    match closeParens? 0 rest with
    | some rest => .ok ((), rest)
    | none => .error ⟨.closingParenthesis, []⟩
  | _ => .ok ((), ts)

/-- The value of an extended attribute. -/
def attributeValue : Parser AttributeValue := fun ts =>
  match ts with
  | .string content :: rest => .ok (.string (quoted content), rest)
  | .integer n :: rest => .ok (.identifier (Text.intText n), rest)
  | .float x :: rest => .ok (.identifier (x.text floatStyle), rest)
  | .symbol .lparen :: rest =>
    match Parser.commaList Parser.name rest with
    | .error e => .error e
    | .ok (names, .symbol .rparen :: rest) => .ok (.list names, rest)
    | .ok (_, rest) => .error ⟨.symbol .rparen, rest⟩
  | _ =>
    match Parser.name ts with
    | .error e => .error e
    | .ok (first, rest) =>
      let (more, rest) := qualifiers rest
      .ok (.identifier (first ++ more), rest)

/-- An extended attribute. -/
def extendedAttribute : Parser ExtendedAttribute := do
  let name ← Parser.name
  let value ← if ← Parser.eat (.symbol .equals) then some <$> attributeValue else pure none
  skipParens
  return { name, value }

/-- The extended attributes in front of something, none without an opening bracket. -/
def attributes : Parser (List ExtendedAttribute) := do
  if ← Parser.eat (.symbol .lbracket) then
    let attrs ← Parser.commaList extendedAttribute
    Parser.symbol .rbracket
    return attrs
  else
    return []

/-! ## Members -/

/-- Passes over a default value. -/
def defaultValue : Parser Unit := fun ts =>
  match ts with
  | .string _ :: rest => .ok ((), rest)
  | .integer _ :: rest => .ok ((), rest)
  | .float _ :: rest => .ok ((), rest)
  | .identifier _ :: rest => .ok ((), rest)
  | .symbol .lbracket :: rest => Parser.symbol .rbracket rest
  | .symbol .lbrace :: rest => Parser.symbol .rbrace rest
  | _ => .error ⟨.defaultValue, ts⟩

/-- The words that mark a special operation; they say nothing the library uses. -/
def isModifier : Token → Bool
  | .identifier word => ["static", "stringifier", "getter", "setter", "deleter"].contains word
  | _ => false

/-- Passes over the marks of special operations. -/
def modifiers : Parser Unit := fun ts =>
  .ok ((), ts.dropWhile isModifier)

/-- An argument of an operation. Only an optional argument has a default value. -/
def argument : Parser Argument := do
  let attributes ← attributes
  let optional ← Parser.eat (.keyword .optional)
  let type ← type
  let variadic ← Parser.eat (.symbol .ellipsis)
  let name ← Parser.name
  if optional then
    if ← Parser.eat (.symbol .equals) then defaultValue
  return { name, type, optional, variadic, attributes }

/-- The arguments in front of a closing parenthesis. -/
def arguments : Parser (List Argument) := do
  if ← Parser.check (.symbol .rparen) then return [] else Parser.commaList argument

/-- A constant, behind its first word. -/
def constant : Parser Member := do
  let _ ← type
  let _ ← Parser.name
  Parser.symbol .equals
  defaultValue
  Parser.symbol .semicolon
  return .other

/-- An attribute of an interface. -/
def property (attributes : List ExtendedAttribute) : Parser Member := do
  let readonly ← Parser.eat (.keyword .readonly)
  Parser.keyword .attr
  let type ← type
  let name ← Parser.name
  Parser.symbol .semicolon
  return .property { name, type := some type, readonly, attributes }

/-- An operation of an interface. -/
def operation (attributes : List ExtendedAttribute) : Parser Member := do
  let type ← type
  let name ← if ← Parser.check (.symbol .lparen) then pure "" else Parser.name
  Parser.symbol .lparen
  let arguments ← arguments
  Parser.symbol .rparen
  Parser.symbol .semicolon
  return .operation { name, returns := some type, arguments, attributes }

/-- A member of an interface. -/
def member : Parser Member := do
  let attributes ← attributes
  if ← Parser.eat (.keyword .const) then constant
  else
    modifiers
    if (← Parser.check (.keyword .readonly)) || (← Parser.check (.keyword .attr)) then
      property attributes
    else operation attributes

/-- A field of a dictionary. -/
def field : Parser Field := do
  let attributes ← attributes
  let required ← Parser.eat (.keyword .required)
  let type ← type
  let name ← Parser.name
  if ← Parser.eat (.symbol .equals) then defaultValue
  Parser.symbol .semicolon
  return { name, type, required, attributes }

/-! ## Definitions -/

/-- The name behind a colon, if a colon comes next. -/
def inherited : Parser (Option String) := do
  if ← Parser.eat (.symbol .colon) then some <$> Parser.name else return none

/-- Items in braces, and the semicolon behind them. -/
def braced {α : Type} (item : Parser α) : Parser (List α) := do
  Parser.symbol .lbrace
  let items ← Parser.untilStop (· == some (.symbol .rbrace)) item
  Parser.symbol .rbrace
  Parser.symbol .semicolon
  return items

/-- An interface. -/
def interface (attributes : List ExtendedAttribute) : Parser Definition := do
  Parser.keyword .interface
  let _ ← Parser.eat (.identifier "mixin")
  let name ← Parser.name
  let inherits ← inherited
  let members ← braced member
  return .interface { name, inherits, members, attributes }

/-- A dictionary. -/
def dictionary (attributes : List ExtendedAttribute) : Parser Definition := do
  Parser.keyword .dictionary
  let name ← Parser.name
  let inherits ← inherited
  let fields ← braced field
  return .dictionary { name, inherits, fields, attributes }

/-- The texts of an enumeration; a comma may follow the last. -/
def enumValues : List Token → List String × List Token
  | .string content :: .symbol .comma :: rest =>
    let (values, rest) := enumValues rest
    (content :: values, rest)
  | .string content :: rest => ([content], rest)
  | ts => ([], ts)

/-- The texts of an enumeration, at least one. -/
def someEnumValues : Parser (List String) := fun ts =>
  match enumValues ts with
  | ([], rest) => .error ⟨.enumValue, rest⟩
  | (values, rest) => .ok (values, rest)

/-- An enumeration. -/
def enumeration (attributes : List ExtendedAttribute) : Parser Definition := do
  Parser.keyword .enum
  let name ← Parser.name
  Parser.symbol .lbrace
  let values ← someEnumValues
  Parser.symbol .rbrace
  Parser.symbol .semicolon
  return .enumeration { name, values, attributes }

/-- A name for a type. -/
def typedef (attributes : List ExtendedAttribute) : Parser Definition := do
  Parser.keyword .typedef
  let _ ← Grammar.attributes
  let type ← type
  let name ← Parser.name
  Parser.symbol .semicolon
  return .typedef { name, type, attributes }

/-- **A definition.** -/
def definition : Parser Definition := do
  let attributes ← attributes
  let _ ← Parser.eat (.keyword .partialK)
  if ← Parser.check (.keyword .interface) then interface attributes
  else if ← Parser.check (.keyword .dictionary) then dictionary attributes
  else if ← Parser.check (.keyword .enum) then enumeration attributes
  else if ← Parser.check (.keyword .typedef) then typedef attributes
  else Parser.misfit .definition

/-- **The definitions of a document**, up to its end. -/
def document (ts : List Token) : Except SyntaxError (List Definition) :=
  (Parser.untilStop (·.isNone) definition ts).map (·.1)

end Grammar

/-! ## Documents -/

/-- Why a text is no document. -/
inductive ParseError where
  /-- The text has no tokens. -/
  | scan (e : ScanError)
  /-- The tokens do not fit the grammar; with the position of the misfit. -/
  | grammar (e : SyntaxError) (position : Position)

/-- The message of a parse error. -/
def ParseError.message : ParseError → String
  | .scan e => e.message
  | .grammar e position =>
    e.expected.text ++ ", found " ++ describeNext e.rest ++ " at " ++ position.text

/-- **Reads a source text as a list of definitions.** -/
def parse (source : String) : Except ParseError (List Definition) :=
  match scan source with
  | .error e => .error (.scan e)
  | .ok scanned =>
    match Grammar.document scanned.tokens with
    | .error e => .error (.grammar e (scanned.positionFromEnd e.rest.length))
    | .ok definitions => .ok definitions

end IntentContract
