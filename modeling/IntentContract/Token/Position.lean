import IntentContract.Text.Digits

/-!
# Positions in a source text

A position counts what stands before it: the line breaks, the characters since the last of them,
and all characters. It is thus a function of the text in front, `Position.after`.
-/

namespace IntentContract

/-- **A position**: line and column count from one, the offset from zero, all in code points. -/
structure Position where
  line : Nat
  column : Nat
  offset : Nat
  deriving DecidableEq

namespace Position

/-- The position of the first character. -/
def start : Position where
  line := 1
  column := 1
  offset := 0

/-- The position behind one more character. -/
def advance (p : Position) (c : Char) : Position where
  line := if c = '\n' then p.line + 1 else p.line
  column := if c = '\n' then 1 else p.column + 1
  offset := p.offset + 1

/-- The position behind a piece of text. -/
def after (p : Position) (text : List Char) : Position :=
  text.foldl advance p

/-- Line and column as messages give them. -/
def text (p : Position) : String :=
  Text.natText p.line ++ ":" ++ Text.natText p.column

/-- Moving on over two pieces of text is moving on over both together. -/
@[simp] theorem after_append (p : Position) (s t : List Char) :
    p.after (s ++ t) = (p.after s).after t := by
  simp [after, List.foldl_append]

/-- The offset counts the characters passed. -/
@[simp] theorem offset_after (p : Position) (s : List Char) :
    (p.after s).offset = p.offset + s.length := by
  induction s generalizing p with
  | nil => rfl
  | cons c s ih =>
    have := ih (p.advance c)
    simp only [after, List.foldl_cons, List.length_cons, advance] at this ⊢
    omega

end Position

end IntentContract
