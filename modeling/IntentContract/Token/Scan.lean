import IntentContract.Text.Blank
import IntentContract.Token.Basic
import IntentContract.Token.Position

/-!
# Scanning a source text

A text is cut into **pieces**: a gap of blanks and comments, then the lexeme of one token. What
the pieces are does not depend on where they stand; positions are added afterwards, from the text
in front of each piece. So the gaps and lexemes put together again are the text, and a position
is the one `Position.after` gives.

A text that cannot be scanned has a `ScanError`: the text in front of the fault and its cause.
-/

namespace IntentContract

/-- Why a text cannot be cut into tokens. -/
inductive ScanCause where
  | unclosedComment
  | unclosedString
  | unexpected (c : Char)
  | integerRange (lexeme : String)
  deriving DecidableEq

/-- A fault in a text: what stands in front of it, and its cause. -/
structure ScanError where
  before : List Char
  cause : ScanCause
  deriving DecidableEq

namespace ScanError

/-- The same fault seen from a point further back. -/
def behind (passed : List Char) (e : ScanError) : ScanError :=
  { e with before := passed ++ e.before }

/-- The position of a fault. -/
def position (e : ScanError) : Position :=
  Position.start.after e.before

/-- The message of a fault, with its position. -/
def message (e : ScanError) : String :=
  match e.cause with
  | .unclosedComment => "Unterminated block comment starting at " ++ e.position.text
  | .unclosedString => "Unterminated string starting at " ++ e.position.text
  | .unexpected c =>
    "Unexpected character '" ++ String.singleton c ++ "' at " ++ e.position.text
  | .integerRange lexeme => "Invalid integer '" ++ lexeme ++ "' at " ++ e.position.text

end ScanError

namespace Scan

/-! ## Gaps -/

/-- Splits a text behind the mark `*/`; none if there is no such mark. -/
def closeComment? : List Char → Option (List Char × List Char)
  | [] => none
  | '*' :: '/' :: rest => some (['*', '/'], rest)
  | c :: rest => (closeComment? rest).map fun (body, rest) => (c :: body, rest)

/-- A comment split off in front of a text. -/
inductive Comment where
  /-- The text does not start with a comment. -/
  | none
  /-- The comment and the text behind it. -/
  | closed (comment rest : List Char)
  /-- A comment that the text does not close. -/
  | unclosed

/-- The comment in front of a text: from `//` to the end of the line, or from `/*` to the next
`*/`. -/
def comment : List Char → Comment
  | '/' :: '/' :: rest =>
    .closed ('/' :: '/' :: rest.takeWhile (· != '\n')) (rest.dropWhile (· != '\n'))
  | '/' :: '*' :: rest =>
    match closeComment? rest with
    | some (body, rest) => .closed ('/' :: '*' :: body) rest
    | .none => .unclosed
  | _ => .none

/-- A closed block comment and what follows it make up the text. -/
theorem append_of_closeComment? {cs body rest : List Char}
    (h : closeComment? cs = some (body, rest)) : body ++ rest = cs := by
  fun_induction closeComment? cs generalizing body rest with
  | case1 => exact nomatch h
  | case2 r =>
    simp only [Option.some.injEq, Prod.mk.injEq] at h
    obtain ⟨rfl, rfl⟩ := h
    rfl
  | case3 c r _ ih =>
    simp only [Option.map_eq_some_iff, Prod.mk.injEq, Prod.exists] at h
    obtain ⟨b, r', hc, rfl, rfl⟩ := h
    simp [ih hc]

/-- A comment and what follows it make up the text. -/
theorem append_of_comment {cs body rest : List Char} (h : comment cs = .closed body rest) :
    body ++ rest = cs := by
  unfold comment at h
  split at h
  · simp only [Comment.closed.injEq] at h
    obtain ⟨rfl, rfl⟩ := h
    simp [List.takeWhile_append_dropWhile]
  · split at h
    · next hc =>
      simp only [Comment.closed.injEq] at h
      obtain ⟨rfl, rfl⟩ := h
      simp [append_of_closeComment? hc]
    · exact nomatch h
  · exact nomatch h

/-- A comment has at least its two opening characters. -/
theorem length_lt_of_comment {cs body rest : List Char} (h : comment cs = .closed body rest) :
    rest.length < cs.length := by
  have happ := append_of_comment h
  have hbody : 0 < body.length := by
    unfold comment at h
    split at h
    · simp only [Comment.closed.injEq] at h
      obtain ⟨rfl, -⟩ := h
      simp
    · split at h
      · simp only [Comment.closed.injEq] at h
        obtain ⟨rfl, -⟩ := h
        simp
      · exact nomatch h
    · exact nomatch h
  rw [← happ, List.length_append]
  omega

/-- **The gap in front of a text**: its blanks and comments, and the text behind them. -/
def gap (cs : List Char) : Except ScanError (List Char × List Char) :=
  match h : comment cs with
  | .closed body rest =>
    have := length_lt_of_comment h
    match gap rest with
    | .ok (g, rest) => .ok (body ++ g, rest)
    | .error e => .error (e.behind body)
  | .unclosed => .error ⟨[], .unclosedComment⟩
  | .none =>
    match cs with
    | [] => .ok ([], [])
    | c :: rest =>
      if Text.isBlank c then
        match gap rest with
        | .ok (g, rest) => .ok (c :: g, rest)
        | .error e => .error (e.behind [c])
      else .ok ([], c :: rest)
termination_by cs.length

/-! ## Lexemes -/

/-- The first character of a word. -/
def isWordStart (c : Char) : Bool :=
  c.isAlpha || c = '_'

/-- A later character of a word. -/
def isWordPart (c : Char) : Bool :=
  c.isAlphanum || c = '_' || c = '-'

/-- The digits behind a point, if a point and a digit come next. -/
def pointDigits? : List Char → Option (List Char × List Char)
  | '.' :: d :: rest =>
    if Text.isDigit d then some (Text.spanDigits (d :: rest)) else none
  | _ => none

/-- The integers a literal may stand for. -/
def inIntegerRange (n : Int) : Bool :=
  -(Nat.pow 2 63 : Int) ≤ n && n < (Nat.pow 2 63 : Int)

/-- A whole number with the sign in front of it, if there is one. -/
def signed (sign : List Char) (n : Nat) : Int :=
  if sign.isEmpty then n else -n

/-- The number a text starts with, its sign already taken off. -/
def number (sign cs : List Char) : Except ScanCause (Token × List Char × List Char) :=
  let (whole, rest) := Text.spanDigits cs
  match pointDigits? rest with
  | some (fraction, rest) =>
    let digits := Text.digitsValue (whole ++ fraction)
    .ok (.float (.ofDecimal (!sign.isEmpty) digits (-(fraction.length : Int))),
      sign ++ whole ++ '.' :: fraction, rest)
  | none =>
    let n := signed sign (Text.digitsValue whole)
    if inIntegerRange n then .ok (.integer n, sign ++ whole, rest)
    else .error (.integerRange (String.ofList (sign ++ whole)))

/-- **The lexeme in front of a text** that starts with the character `c` and with no gap: its
token, its characters, and the text behind it. -/
def lexeme (c : Char) (rest : List Char) : Except ScanCause (Token × List Char × List Char) :=
  if c = '"' then
    match rest.dropWhile (· != '"') with
    | quote :: rest' =>
      let content := rest.takeWhile (· != '"')
      .ok (.string (String.ofList content), c :: content ++ [quote], rest')
    | [] => .error .unclosedString
  else if c = '.' then
    match rest with
    | '.' :: '.' :: rest' => .ok (.symbol .ellipsis, ['.', '.', '.'], rest')
    | _ => .error (.unexpected c)
  else if c = '-' then
    match rest with
    | d :: _ => if Text.isDigit d then number ['-'] rest else .error (.unexpected c)
    | [] => .error (.unexpected c)
  else
    match Symbol.ofChar? c with
    | some s => .ok (.symbol s, [c], rest)
    | none =>
      if Text.isDigit c then number [] (c :: rest)
      else if isWordStart c then
        let word := c :: rest.takeWhile isWordPart
        .ok (.ofWord (String.ofList word), word, rest.dropWhile isWordPart)
      else .error (.unexpected c)

/-- The digits behind a point, the point and what follows them make up the text. -/
theorem append_of_pointDigits? {cs fraction rest : List Char}
    (h : pointDigits? cs = some (fraction, rest)) : '.' :: (fraction ++ rest) = cs := by
  unfold pointDigits? at h
  split at h
  · next d r =>
    split at h
    · have happ := Text.spanDigits_append (d :: r)
      simp only [Option.some.injEq] at h
      rw [h] at happ
      simp only at happ
      rw [happ]
    · exact nomatch h
  · exact nomatch h

/-- A number's lexeme and what follows it make up the text with its sign. -/
theorem append_of_number {sign cs lex rest : List Char} {token : Token}
    (h : number sign cs = .ok (token, lex, rest)) : lex ++ rest = sign ++ cs := by
  have happ := Text.spanDigits_append cs
  simp only [number] at h
  split at h
  · next hp =>
    have hpoint := append_of_pointDigits? hp
    simp only [Except.ok.injEq, Prod.mk.injEq] at h
    obtain ⟨-, rfl, rfl⟩ := h
    conv => rhs; rw [← happ, ← hpoint]
    simp
  · split at h
    · simp only [Except.ok.injEq, Prod.mk.injEq] at h
      obtain ⟨-, rfl, rfl⟩ := h
      rw [List.append_assoc, happ]
    · exact nomatch h

/-- **Nothing is lost**: a lexeme and what follows it make up the text. -/
theorem append_of_lexeme {c : Char} {cs lex rest : List Char} {token : Token}
    (h : lexeme c cs = .ok (token, lex, rest)) : lex ++ rest = c :: cs := by
  unfold lexeme at h
  split at h
  · split at h
    · next quote rest' hd =>
      simp only [Except.ok.injEq, Prod.mk.injEq] at h
      obtain ⟨-, rfl, rfl⟩ := h
      have := List.takeWhile_append_dropWhile (p := (· != '"')) (l := cs)
      rw [hd] at this
      simpa using this
    · exact nomatch h
  · split at h
    · next hc =>
      split at h
      · simp only [Except.ok.injEq, Prod.mk.injEq] at h
        obtain ⟨-, rfl, rfl⟩ := h
        simp [hc]
      · exact nomatch h
    · split at h
      · next hc =>
        split at h
        · split at h
          · simpa [hc] using append_of_number h
          · exact nomatch h
        · exact nomatch h
      · split at h
        · simp only [Except.ok.injEq, Prod.mk.injEq] at h
          obtain ⟨-, rfl, rfl⟩ := h
          rfl
        · split at h
          · simpa using append_of_number h
          · split at h
            · simp only [Except.ok.injEq, Prod.mk.injEq] at h
              obtain ⟨-, rfl, rfl⟩ := h
              simp [List.takeWhile_append_dropWhile]
            · exact nomatch h

/-- A number's lexeme is not empty. -/
theorem ne_nil_of_number {sign lex rest : List Char} {d : Char} {cs : List Char} {token : Token}
    (hd : Text.isDigit d = true) (h : number sign (d :: cs) = .ok (token, lex, rest)) :
    lex ≠ [] := by
  simp only [number, Text.spanDigits, List.takeWhile_cons, hd, ↓reduceIte] at h
  split at h
  · simp only [Except.ok.injEq, Prod.mk.injEq] at h
    obtain ⟨-, rfl, -⟩ := h
    simp
  · split at h
    · simp only [Except.ok.injEq, Prod.mk.injEq] at h
      obtain ⟨-, rfl, -⟩ := h
      simp
    · exact nomatch h

/-- A lexeme has at least one character. -/
theorem ne_nil_of_lexeme {c : Char} {cs lex rest : List Char} {token : Token}
    (h : lexeme c cs = .ok (token, lex, rest)) : lex ≠ [] := by
  unfold lexeme at h
  split at h
  · split at h
    · simp only [Except.ok.injEq, Prod.mk.injEq] at h
      obtain ⟨-, rfl, -⟩ := h
      simp
    · exact nomatch h
  · split at h
    · split at h
      · simp only [Except.ok.injEq, Prod.mk.injEq] at h
        obtain ⟨-, rfl, -⟩ := h
        simp
      · exact nomatch h
    · split at h
      · split at h
        · split at h
          · next hd => exact ne_nil_of_number hd h
          · exact nomatch h
        · exact nomatch h
      · split at h
        · simp only [Except.ok.injEq, Prod.mk.injEq] at h
          obtain ⟨-, rfl, -⟩ := h
          simp
        · split at h
          · next hd => exact ne_nil_of_number hd h
          · split at h
            · simp only [Except.ok.injEq, Prod.mk.injEq] at h
              obtain ⟨-, rfl, -⟩ := h
              simp
            · exact nomatch h

/-- The text behind a lexeme is shorter. -/
theorem length_lt_of_lexeme {c : Char} {cs lex rest : List Char} {token : Token}
    (h : lexeme c cs = .ok (token, lex, rest)) : rest.length < (c :: cs).length := by
  rw [← append_of_lexeme h, List.length_append]
  have := List.length_pos_iff.mpr (ne_nil_of_lexeme h)
  omega

/-- **Nothing is lost**: a gap and what follows it make up the text. -/
theorem append_of_gap {cs g rest : List Char} (h : gap cs = .ok (g, rest)) : g ++ rest = cs := by
  fun_induction gap cs generalizing g rest with
  | case1 cs body r hc hlt g' r' hg ih =>
    simp only [Except.ok.injEq, Prod.mk.injEq] at h
    obtain ⟨rfl, rfl⟩ := h
    rw [List.append_assoc, ih hg, append_of_comment hc]
  | case2 => exact nomatch h
  | case3 => exact nomatch h
  | case4 =>
    simp only [Except.ok.injEq, Prod.mk.injEq] at h
    obtain ⟨rfl, rfl⟩ := h
    rfl
  | case5 c r hc hb g' r' hg ih =>
    simp only [Except.ok.injEq, Prod.mk.injEq] at h
    obtain ⟨rfl, rfl⟩ := h
    rw [List.cons_append, ih hg]
  | case6 => exact nomatch h
  | case7 =>
    simp only [Except.ok.injEq, Prod.mk.injEq] at h
    obtain ⟨rfl, rfl⟩ := h
    rfl

end Scan

/-! ## Pieces of a text -/

/-- **A piece of a text**: a gap, and the lexeme of a token behind it. -/
structure Piece where
  gap : List Char
  token : Token
  lexeme : List Char

/-- **Cuts a text into pieces**; the second result is the gap behind the last lexeme. -/
def Scan.pieces (cs : List Char) : Except ScanError (List Piece × List Char) :=
  match hg : Scan.gap cs with
  | .error e => .error e
  | .ok (g, []) => .ok ([], g)
  | .ok (g, c :: text) =>
    match hl : Scan.lexeme c text with
    | .error cause => .error ⟨g, cause⟩
    | .ok (token, lex, rest) =>
      have : rest.length < cs.length := by
        have hgap := congrArg List.length (Scan.append_of_gap hg)
        have hlex := Scan.length_lt_of_lexeme hl
        rw [List.length_append] at hgap
        omega
      match Scan.pieces rest with
      | .ok (ps, last) => .ok (⟨g, token, lex⟩ :: ps, last)
      | .error e => .error (e.behind (g ++ lex))
termination_by cs.length

/-- A token with its characters and the position of the first of them. -/
structure Lexeme where
  token : Token
  text : List Char
  position : Position

/-- The pieces with their positions, and the position behind the last gap. -/
def Scan.locate (p : Position) (last : List Char) : List Piece → List Lexeme × Position
  | [] => ([], p.after last)
  | piece :: rest =>
    let here := p.after piece.gap
    let (ls, stop) := Scan.locate (here.after piece.lexeme) last rest
    (⟨piece.token, piece.lexeme, here⟩ :: ls, stop)

/-- A scanned text: its lexemes and the position of its end. -/
structure Scanned where
  lexemes : List Lexeme
  stop : Position

namespace Scanned

/-- The tokens alone. -/
def tokens (s : Scanned) : List Token :=
  s.lexemes.map (·.token)

/-- The position of the lexeme with `left` lexemes from it on, the end of the text for none. -/
def positionFromEnd (s : Scanned) (left : Nat) : Position :=
  match s.lexemes.drop (s.lexemes.length - left) with
  | [] => s.stop
  | l :: _ => l.position

end Scanned

/-- **Scans a source text.** -/
def scan (source : String) : Except ScanError Scanned :=
  match Scan.pieces source.toList with
  | .error e => .error e
  | .ok (ps, last) =>
    let (lexemes, stop) := Scan.locate .start last ps
    .ok { lexemes, stop }

end IntentContract
