import IntentContract.Text.Hex
import IntentContract.Json.Number

/-!
# Reading JSON text

A text is first cut into **lexemes** – brackets, separators and scalars – and the lexemes are then
assembled in one pass that keeps the containers still open on a stack. Four characters are blank,
and no text may follow the value.

A text can be well formed and still have no value: a number may be beyond the doubles, a string
may hold half of a surrogate pair, and lists and records may be nested deeper than `maxDepth`. Such
a text is refused, except where nobody asks for the value: `parseRecord?` only asks for those of
the fields it is told to take. What is read keeps the fields of an object as they were written.
-/

namespace IntentContract.Json

/-! ## Lexemes -/

/-- A bracket, a separator, a string or another scalar. Well-formed scalars without a value are
lexemes too. -/
inductive Lexeme where
  | openList
  | closeList
  | openRecord
  | closeRecord
  | colon
  | comma
  | text (s : Option String)
  | scalar (v : Option Json)

/-- A blank between lexemes. -/
def isSpace (c : Char) : Bool :=
  c = ' ' || c = '\n' || c = '\r' || c = '\t'

/-- The number four hexadecimal digits stand for. -/
def unit16? (a b c d : Char) : Option Nat := do
  let a ← Text.hexValue? a
  let b ← Text.hexValue? b
  let c ← Text.hexValue? c
  let d ← Text.hexValue? d
  return 4096 * a + 256 * b + 16 * c + d

/-- The character a one-letter escape stands for. -/
def simpleEscape? (c : Char) : Option Char :=
  if c = '"' then some '"'
  else if c = '\\' then some '\\'
  else if c = '/' then some '/'
  else if c = 'b' then some (Char.ofNat 8)
  else if c = 'f' then some (Char.ofNat 12)
  else if c = 'n' then some '\n'
  else if c = 'r' then some '\r'
  else if c = 't' then some '\t'
  else none

/-- The first half of a surrogate pair. -/
def isHighSurrogate (n : Nat) : Bool :=
  0xD800 ≤ n && n ≤ 0xDBFF

/-- The second half of a surrogate pair. -/
def isLowSurrogate (n : Nat) : Bool :=
  0xDC00 ≤ n && n ≤ 0xDFFF

/-- The second half of a surrogate pair in front of a text. -/
def lowSurrogate? : List Char → Option (Nat × List Char)
  | '\\' :: 'u' :: a :: b :: c :: d :: rest =>
    match unit16? a b c d with
    | some m => if isLowSurrogate m then some (m, rest) else none
    | none => none
  | _ => none

/-- The character that the four digits behind `\\u` stand for, two such groups if the first is the
half of a surrogate pair. A half on its own stands for no character. -/
def unicodeEscape? : List Char → Option (Option Char × List Char)
  | a :: b :: c :: d :: rest =>
    match unit16? a b c d with
    | none => none
    | some n =>
      if isHighSurrogate n then
        match lowSurrogate? rest with
        | some (m, rest) =>
          some (some (Char.ofNat (0x10000 + 1024 * (n - 0xD800) + (m - 0xDC00))), rest)
        | none => some (none, rest)
      else if isLowSurrogate n then some (none, rest)
      else some (some (Char.ofNat n), rest)
  | _ => none

/-- The character that the text behind a backslash stands for. -/
def escapeSequence? : List Char → Option (Option Char × List Char)
  | [] => none
  | 'u' :: rest => unicodeEscape? rest
  | e :: rest => (simpleEscape? e).map fun c => (some c, rest)

/-- The half of a pair is taken off a text. -/
theorem length_lt_of_lowSurrogate? {cs rest : List Char} {m : Nat}
    (h : lowSurrogate? cs = some (m, rest)) : rest.length < cs.length := by
  unfold lowSurrogate? at h
  split at h
  · split at h
    · split at h
      · simp only [Option.some.injEq, Prod.mk.injEq] at h
        obtain ⟨-, rfl⟩ := h
        simp only [List.length_cons]
        omega
      · exact nomatch h
    · exact nomatch h
  · exact nomatch h

/-- An escape of four or of ten characters is taken off a text. -/
theorem length_lt_of_unicodeEscape? {cs rest : List Char} {c : Option Char}
    (h : unicodeEscape? cs = some (c, rest)) : rest.length < cs.length := by
  unfold unicodeEscape? at h
  split at h
  · split at h
    · exact nomatch h
    · split at h
      · split at h
        · rename_i hlow
          have := length_lt_of_lowSurrogate? hlow
          simp only [Option.some.injEq, Prod.mk.injEq] at h
          obtain ⟨-, rfl⟩ := h
          simp only [List.length_cons]
          omega
        · simp only [Option.some.injEq, Prod.mk.injEq] at h
          obtain ⟨-, rfl⟩ := h
          simp only [List.length_cons]
          omega
      · split at h <;>
        · simp only [Option.some.injEq, Prod.mk.injEq] at h
          obtain ⟨-, rfl⟩ := h
          simp only [List.length_cons]
          omega
  · exact nomatch h

/-- An escape takes at least one character. -/
theorem length_lt_of_escapeSequence? {cs rest : List Char} {c : Option Char}
    (h : escapeSequence? cs = some (c, rest)) : rest.length < cs.length := by
  unfold escapeSequence? at h
  split at h
  · exact nomatch h
  · have := length_lt_of_unicodeEscape? h
    simp only [List.length_cons]
    omega
  · simp only [Option.map_eq_some_iff, Prod.mk.injEq] at h
    obtain ⟨_, -, -, rfl⟩ := h
    simp

/-- The characters of a string literal after its opening quote, and what follows the closing one.
There are none if an escape stands for no character. -/
def stringBody? (cs : List Char) : Option (Option (List Char) × List Char) :=
  match cs with
  | [] => none
  | '"' :: rest => some (some [], rest)
  | '\\' :: rest =>
    match h : escapeSequence? rest with
    | none => none
    | some (c, rest') =>
      have := length_lt_of_escapeSequence? h
      (stringBody? rest').map fun (cs, rest) => (c.bind fun c => cs.map (c :: ·), rest)
  | c :: rest =>
    if c.toNat < 32 then none
    else (stringBody? rest).map fun (cs, rest) => (cs.map (c :: ·), rest)
termination_by cs.length

/-- The lexeme in front of a text that starts with no blank. -/
def lexeme? : List Char → Option (Lexeme × List Char)
  | '[' :: rest => some (.openList, rest)
  | ']' :: rest => some (.closeList, rest)
  | '\x7b' :: rest => some (.openRecord, rest)
  | '\x7d' :: rest => some (.closeRecord, rest)
  | ':' :: rest => some (.colon, rest)
  | ',' :: rest => some (.comma, rest)
  | 'n' :: 'u' :: 'l' :: 'l' :: rest => some (.scalar (some .null), rest)
  | 't' :: 'r' :: 'u' :: 'e' :: rest => some (.scalar (some (.bool true)), rest)
  | 'f' :: 'a' :: 'l' :: 's' :: 'e' :: rest => some (.scalar (some (.bool false)), rest)
  | '"' :: rest => (stringBody? rest).map fun (cs, rest) => (.text (cs.map String.ofList), rest)
  | cs => (numberPart? cs).map fun (v, rest) => (.scalar v, rest)

/-- The lexemes of a text, none if some part of it is no lexeme. A lexeme takes at least one
character, so the text left over is shorter each time. -/
def lexemes? (cs : List Char) : Option (List Lexeme) :=
  let text := cs.dropWhile isSpace
  if text.isEmpty then some []
  else
    match lexeme? text with
    | none => none
    | some (l, rest) =>
      if rest.length < cs.length then (lexemes? rest).map (l :: ·) else none
termination_by cs.length

/-! ## Values -/

/-- A container still open: the items of a list so far, last first, or the fields of a record and
the key whose value is awaited. Where something has no value, its container has none. -/
inductive Frame where
  | list (items : Option (List Json))
  | record (fields : Option (List (String × Json))) (key : Option String)

/-- The deepest nesting of lists and records that has a value. -/
def maxDepth : Nat := 127

/-- A container within those that are open; it has no value below the deepest level. -/
def nested (stack : List Frame) (v : Option Json) : Option Json :=
  if stack.length < maxDepth then v else none

/-- The fields with one more in front. -/
def addField (key : Option String) (v : Option Json) (fields : Option (List (String × Json))) :
    Option (List (String × Json)) := do
  return (← key, ← v) :: (← fields)

/-- The items with one more in front. -/
def addItem (v : Option Json) (items : Option (List Json)) : Option (List Json) := do
  return (← v) :: (← items)

mutual

/-- Reads on where a value must start, up to the end of the outermost open container. -/
def atValue (stack : List Frame) : List Lexeme → Option (Option Json × List Lexeme)
  | .scalar v :: rest => afterValue stack v rest
  | .text s :: rest => afterValue stack (s.map .str) rest
  | .openList :: .closeList :: rest => afterValue stack (nested stack (some (.arr []))) rest
  | .openList :: rest => atValue (.list (some []) :: stack) rest
  | .openRecord :: .closeRecord :: rest => afterValue stack (nested stack (some (.obj []))) rest
  | .openRecord :: .text key :: .colon :: rest => atValue (.record (some []) key :: stack) rest
  | _ => none
termination_by lexemes => lexemes.length

/-- Reads on behind a complete value. -/
def afterValue (stack : List Frame) (v : Option Json) (lexemes : List Lexeme) :
    Option (Option Json × List Lexeme) :=
  match stack, lexemes with
  | [], rest => some (v, rest)
  | .list items :: stack, .comma :: rest => atValue (.list (addItem v items) :: stack) rest
  | .list items :: stack, .closeList :: rest =>
    afterValue stack (nested stack ((addItem v items).map fun vs => .arr vs.reverse)) rest
  | .record fields key :: stack, .comma :: .text next :: .colon :: rest =>
    atValue (.record (addField key v fields) next :: stack) rest
  | .record fields key :: stack, .closeRecord :: rest =>
    afterValue stack (nested stack ((addField key v fields).map fun fs => .obj fs.reverse)) rest
  | _, _ => none
termination_by lexemes.length

end

/-- **Reads a text as a JSON value**, the fields of objects as they are written. -/
def parse? (text : String) : Option Json := do
  match ← atValue [] (← lexemes? text.toList) with
  | (v, []) => v
  | _ => none

/-! ## Records -/

/-- The fields of a record from behind the colon of a key on, up to the end of the text. Only those
with a name that `takes` accepts are kept; the others must be well formed. -/
def fieldsFrom? (takes : String → Bool) (key : String) (lexemes : List Lexeme) :
    Option (List (String × Json)) :=
  match atValue [] lexemes with
  | none => none
  | some (v, rest) =>
    let front := if takes key then v.map fun v => [(key, v)] else some []
    match rest with
    | [.closeRecord] => front
    | .comma :: .text (some next) :: .colon :: rest =>
      if rest.length < lexemes.length then
        match front, fieldsFrom? takes next rest with
        | some front, some back => some (front ++ back)
        | _, _ => none
      else none
    | _ => none
termination_by lexemes.length

/-- **Reads a text as a record**: an object with those of the fields whose names `takes` accepts.
The others may have any value that is well formed, or none. The items of a list are all asked
for. -/
def parseRecord? (takes : String → Bool) (text : String) : Option Json := do
  match ← lexemes? text.toList with
  | [.openRecord, .closeRecord] => some (.obj [])
  | .openRecord :: .text (some key) :: .colon :: rest => (fieldsFrom? takes key rest).map .obj
  | .openList :: _ => parse? text
  | _ => none

end IntentContract.Json
