import IntentContract.Definition.Extensions
import IntentContract.Proofs.Definition.WellFormed
import IntentContract.Proofs.Token.Spacing

/-!
# Printing definitions

A canonical text for a tree of definitions. A definition is first turned into the
tokens it is made of, and the tokens are written on one line, with a blank between
neighbours. The definitions of a document stand on a line each.

What the tree does not keep is not printed: a default value, the mark of a special
operation, the word `partial`. A constant is kept as a place only, and is printed as
some constant. A value without quotes is kept as a text, and its tokens are found
again from how the text begins: a digit or a minus sign begins a number, anything else
a name.
-/

namespace IntentContract

/-! ## Writing tokens -/

/-- How a token is written. -/
def Token.spelling : Token → String
  | .keyword k => k.spelling
  | .symbol s => s.spelling
  | .string content => quoted content
  | .integer n => Text.intText n
  | .float x => x.text floatStyle
  | .identifier name => name

/-- Tokens on one line. -/
def printLine (ts : List Token) : String :=
  Text.join " " (ts.map Token.spelling)

/-! ## The tokens of a tree -/

/-- Parts with a token between neighbours. -/
def separated (between : Token) : List (List Token) → List Token
  | [] => []
  | part :: parts => part ++ parts.flatMap (between :: ·)

/-- Behind the first part stand the separator and the rest. -/
theorem separated_cons_cons (between : Token) (part next : List Token)
    (parts : List (List Token)) :
    separated between (part :: next :: parts)
      = part ++ between :: separated between (next :: parts) :=
  rfl

/-- A token that is there or not. -/
def flag (t : Token) (present : Bool) : List Token :=
  if present then [t] else []

/-- The words of the name of a type. -/
def typeNameTokens (n : String) : List Token :=
  ((compoundNames.lookup n).getD [n]).map .identifier

namespace TypeDescriptor

mutual

/-- **The tokens of a type.** -/
def tokens : TypeDescriptor → List Token
  | .primitive n => typeNameTokens n
  | .union members =>
    .symbol .lparen :: separated (.keyword .or) (tokensOf members) ++ [.symbol .rparen]
  | .generic kind args =>
    typeNameTokens kind ++ .symbol .langle
      :: separated (.symbol .comma) (tokensOf args) ++ [.symbol .rangle]
  | .nullable inner => tokens inner ++ [.symbol .question]
  | .unknown => []

/-- The tokens of each type of a list. -/
def tokensOf : List TypeDescriptor → List (List Token)
  | [] => []
  | d :: rest => tokens d :: tokensOf rest

end

theorem tokensOf_eq_map (ds : List TypeDescriptor) : tokensOf ds = ds.map tokens := by
  induction ds with
  | nil => rfl
  | cons d ds ih => rw [tokensOf, ih, List.map_cons]

end TypeDescriptor

/-- The sign in front of a text, and the rest. -/
def splitSign : List Char → List Char × List Char
  | '-' :: rest => (['-'], rest)
  | cs => ([], cs)

/-- The tokens of a value without quotes. -/
def plainTokens (text : String) : List Token :=
  let (sign, rest) := splitSign text.toList
  if rest.head?.any Text.isDigit then [.integer (Scan.signed sign (Text.digitsValue rest))]
  else separated (.symbol .colon)
    ((text.toList.splitOn ':').map fun word => [.ofWord (String.ofList word)])

/-- The tokens of the value of an extended attribute. -/
def AttributeValue.tokens : AttributeValue → List Token
  | .identifier text => plainTokens text
  | .string raw => [.string (unquote raw)]
  | .list names =>
    .symbol .lparen :: separated (.symbol .comma) (names.map fun n => [.ofWord n])
      ++ [.symbol .rparen]

/-- The tokens of an extended attribute. -/
def ExtendedAttribute.tokens (a : ExtendedAttribute) : List Token :=
  .ofWord a.name :: (a.value.map fun v => .symbol .equals :: v.tokens).getD []

/-- The tokens of extended attributes, in brackets if there are any. -/
def attributesTokens (attributes : List ExtendedAttribute) : List Token :=
  if attributes.isEmpty then []
  else .symbol .lbracket :: separated (.symbol .comma) (attributes.map (·.tokens))
    ++ [.symbol .rbracket]

/-- The tokens of an argument. -/
def Argument.tokens (a : Argument) : List Token :=
  attributesTokens a.attributes ++ (flag (.keyword .optional) a.optional
    ++ (a.type.tokens ++ (flag (.symbol .ellipsis) a.variadic ++ [.ofWord a.name])))

/-- The tokens of a type that may be absent. -/
def typeTokens (d : Option TypeDescriptor) : List Token :=
  (d.map TypeDescriptor.tokens).getD []

/-- The tokens of an operation. -/
def Operation.tokens (op : Operation) : List Token :=
  attributesTokens op.attributes ++ (typeTokens op.returns
    ++ (flag (.ofWord op.name) (op.name != "") ++ .symbol .lparen
      :: (separated (.symbol .comma) (op.arguments.map (·.tokens))
        ++ [.symbol .rparen, .symbol .semicolon])))

/-- The tokens of an attribute of an interface. -/
def Property.tokens (p : Property) : List Token :=
  attributesTokens p.attributes ++ (flag (.keyword .readonly) p.readonly ++ .keyword .attr
    :: (typeTokens p.type ++ [.ofWord p.name, .symbol .semicolon]))

/-- The tokens of a member of an interface. -/
def Member.tokens : Member → List Token
  | .operation op => op.tokens
  | .property p => p.tokens
  | .other =>
    [.keyword .const, .identifier "any", .identifier "_", .symbol .equals, .integer 0,
      .symbol .semicolon]

/-- The tokens of a field of a dictionary. -/
def Field.tokens (f : Field) : List Token :=
  attributesTokens f.attributes ++ (flag (.keyword .required) f.required
    ++ (f.type.tokens ++ [.ofWord f.name, .symbol .semicolon]))

/-- The tokens of a name behind a colon, if there is one. -/
def inheritedTokens (name : Option String) : List Token :=
  (name.map fun n => [.symbol .colon, .ofWord n]).getD []

/-- The tokens of items in braces. -/
def bracedTokens (items : List (List Token)) : List Token :=
  .symbol .lbrace :: (items.flatten ++ [.symbol .rbrace, .symbol .semicolon])

/-- **The tokens of a definition.** -/
def Definition.tokens : Definition → List Token
  | .interface i =>
    attributesTokens i.attributes ++ .keyword .interface :: .ofWord i.name
      :: (inheritedTokens i.inherits ++ bracedTokens (i.members.map (·.tokens)))
  | .dictionary d =>
    attributesTokens d.attributes ++ .keyword .dictionary :: .ofWord d.name
      :: (inheritedTokens d.inherits ++ bracedTokens (d.fields.map (·.tokens)))
  | .enumeration e =>
    attributesTokens e.attributes ++ .keyword .enum :: .ofWord e.name :: .symbol .lbrace
      :: (separated (.symbol .comma) (e.values.map fun v => [.string v])
        ++ [.symbol .rbrace, .symbol .semicolon])
  | .typedef t =>
    attributesTokens t.attributes ++ .keyword .typedef
      :: (t.type.tokens ++ [.ofWord t.name, .symbol .semicolon])
  | .other => []

/-- **Prints definitions**, one on each line. -/
def print (definitions : List Definition) : String :=
  Text.join "\n" (definitions.map fun d => printLine d.tokens)

/-! ## Words as tokens -/

/-- A keyword is found only by its spelling. -/
theorem Keyword.spelling_of_ofSpelling? {word : String} {k : Keyword}
    (h : ofSpelling? word = some k) : k.spelling = word := by
  have hfound := List.find?_some h
  exact eq_of_beq hfound

namespace Token

/-- A word is written as it is. -/
theorem spelling_ofWord (word : String) : (ofWord word).spelling = word := by
  unfold ofWord
  split
  · next k h => exact Keyword.spelling_of_ofSpelling? h
  · rfl

/-- A word serves as the name it is. -/
theorem name?_ofWord (word : String) : (ofWord word).name? = some word := by
  unfold ofWord
  split
  · next k h => exact congrArg some (Keyword.spelling_of_ofSpelling? h)
  · rfl

/-- The spelling of a keyword is the keyword. -/
theorem ofWord_spelling (k : Keyword) : ofWord k.spelling = .keyword k := by
  rw [ofWord, Keyword.ofSpelling?_spelling]

/-- An identifier is no keyword. -/
theorem ofWord_of_isIdentifier {n : String} (h : isIdentifier n = true) :
    ofWord n = .identifier n := by
  have hnone := (Bool.and_eq_true_iff.mp h).2
  rw [ofWord, Option.isNone_iff_eq_none.mp hnone]

/-! ## Tokens that can be read back -/

/-- A token that is read back from how it is written. -/
def IsPrintable (t : Token) : Prop :=
  Scan.Spells t.spelling.toList t

/-- A word spells its token. -/
theorem spells_ofWord {n : String} (h : isWord n = true) : Scan.Spells n.toList (ofWord n) := by
  obtain ⟨c, cs, hn, hc, hcs⟩ := isWord_iff.mp h
  have hspells := Scan.Spells.word hc hcs
  rwa [← hn, String.ofList_toList] at hspells

theorem isPrintable_ofWord {n : String} (h : isWord n = true) : (ofWord n).IsPrintable := by
  rw [IsPrintable, spelling_ofWord]
  exact spells_ofWord h

theorem isPrintable_keyword (k : Keyword) : (Token.keyword k).IsPrintable := by
  rw [← ofWord_spelling]
  exact isPrintable_ofWord (isWord_keyword k)

theorem isPrintable_identifier {n : String} (h : isIdentifier n = true) :
    (Token.identifier n).IsPrintable := by
  rw [← ofWord_of_isIdentifier h]
  exact isPrintable_ofWord (Bool.and_eq_true_iff.mp h).1

theorem isPrintable_symbol (s : Symbol) : (Token.symbol s).IsPrintable := by
  cases s with
  | ellipsis => exact .ellipsis
  | _ => exact .symbol rfl

theorem isPrintable_string {content : String} (h : '"' ∉ content.toList) :
    (Token.string content).IsPrintable := by
  have hspells := Scan.Spells.string h
  rw [String.ofList_toList] at hspells
  rw [IsPrintable, spelling, quoted, String.toList_append, String.toList_append]
  exact hspells

/-- The digits of a number stand for it. -/
theorem digitsValue_toDigits (n : Nat) : Text.digitsValue (Nat.toDigits 10 n) = n :=
  Nat.ofDigitChars_ten_toDigits

/-- The digits of a number are digits. -/
theorem isDigits_toDigits (n : Nat) : Scan.IsDigits (Nat.toDigits 10 n) := by
  refine ⟨Nat.toDigits_ne_nil, fun d hd => ?_⟩
  have hdigit := Nat.isDigit_of_mem_toDigits (by decide) (by decide) hd
  simpa [Text.isDigit, Char.isDigit, UInt32.le_iff_toNat_le] using hdigit

/-- The characters of a whole number are a sign and digits. -/
theorem toList_intText (n : Int) :
    ∃ sign, Scan.IsSign sign ∧ (Text.intText n).toList = sign ++ Nat.toDigits 10 n.natAbs
      ∧ Scan.signed sign n.natAbs = n := by
  unfold Text.intText Text.natText
  split
  · next hneg =>
    refine ⟨['-'], .inr rfl, ?_, ?_⟩
    · simp
    · show -(n.natAbs : Int) = n
      omega
  · next hpos =>
    refine ⟨[], .inl rfl, String.toList_ofList, ?_⟩
    show (n.natAbs : Int) = n
    omega

theorem isPrintable_integer {n : Int} (h : Scan.inIntegerRange n = true) :
    (Token.integer n).IsPrintable := by
  obtain ⟨sign, hsign, htext, hvalue⟩ := toList_intText n
  rw [← digitsValue_toDigits n.natAbs] at hvalue
  rw [IsPrintable, spelling, htext]
  rw [← hvalue] at h
  have hspells := Scan.Spells.integer hsign (isDigits_toDigits n.natAbs) h
  rwa [hvalue] at hspells

end Token

/-! ## The tokens of a value -/

/-- A string literal has the content that was quoted. -/
theorem unquote_quoted (content : String) : unquote (quoted content) = content := by
  have hlist : (quoted content).toList = '"' :: (content.toList ++ ['"']) := by
    rw [quoted, String.toList_append, String.toList_append]
    rfl
  rw [unquote, hlist]
  simp

/-- A sign is told from the digits behind it. -/
theorem splitSign_append {sign ds : List Char} (hs : Scan.IsSign sign) (hd : Scan.IsDigits ds) :
    splitSign (sign ++ ds) = (sign, ds) := by
  rcases hs with rfl | rfl
  · obtain ⟨d, ds', rfl⟩ := List.exists_cons_of_ne_nil hd.1
    have hminus : d ≠ '-' := (Scan.digit_free (hd.2 d List.mem_cons_self)).2.2.1
    rw [List.nil_append, splitSign]
    intro rest heq
    exact hminus (List.cons.inj heq).1
  · rfl

/-- The text of a whole number has the number as its token. -/
theorem plainTokens_intText (n : Int) : plainTokens (Text.intText n) = [.integer n] := by
  obtain ⟨sign, hsign, htext, hvalue⟩ := Token.toList_intText n
  have hdigits := Token.isDigits_toDigits n.natAbs
  have hhead : ((Nat.toDigits 10 n.natAbs).head?.any Text.isDigit) = true := by
    obtain ⟨d, ds, hds⟩ := List.exists_cons_of_ne_nil hdigits.1
    rw [hds]
    exact hdigits.2 d (by rw [hds]; exact List.mem_cons_self)
  rw [plainTokens, htext, splitSign_append hsign hdigits]
  simp only [hhead, ↓reduceIte]
  rw [Token.digitsValue_toDigits, hvalue]

/-- The characters of a text joined from at least two. -/
theorem Text.toList_join_cons_cons (separator a b : String) (rest : List String) :
    (join separator (a :: b :: rest)).toList
      = a.toList ++ (separator.toList ++ (join separator (b :: rest)).toList) := by
  rw [join, String.toList_append, String.toList_append, List.append_assoc]
  exact List.cons_ne_nil b rest

/-- A character that belongs to no word is in none. -/
theorem not_mem_of_isWord {n : String} {c : Char} (h : isWord n = true)
    (hstart : Scan.isWordStart c = false) (hpart : Scan.isWordPart c = false) : c ∉ n.toList := by
  obtain ⟨d, ds, hn, hd, hds⟩ := isWord_iff.mp h
  rw [hn]
  intro hmem
  rcases List.mem_cons.mp hmem with rfl | hmem
  · exact Bool.false_ne_true (hstart.symm.trans hd)
  · exact Bool.false_ne_true (hpart.symm.trans (hds c hmem))

/-- A word has no colon. -/
theorem colon_not_mem_of_isWord {n : String} (h : isWord n = true) : ':' ∉ n.toList :=
  not_mem_of_isWord h (by decide) (by decide)

/-- Words joined by colons are found again between the colons. -/
theorem splitOn_join {names : List String} (hne : names ≠ [])
    (h : ∀ n ∈ names, isWord n = true) :
    (Text.join ":" names).toList.splitOn ':' = names.map String.toList := by
  induction names with
  | nil => exact absurd rfl hne
  | cons n names ih =>
    rw [List.forall_mem_cons] at h
    cases names with
    | nil => exact List.splitOn_eq_singleton (colon_not_mem_of_isWord h.1)
    | cons m more =>
      rw [Text.toList_join_cons_cons]
      refine (List.splitOn_append_cons_self_of_not_mem (colon_not_mem_of_isWord h.1) _).trans ?_
      exact congrArg (n.toList :: ·) (ih (List.cons_ne_nil m more) h.2)

/-- Names joined by colons have the names as their tokens, and the colons. -/
theorem plainTokens_join {first : String} {more : List String} (h : isWord first = true)
    (hmore : ∀ n ∈ more, isIdentifier n = true) :
    plainTokens (Text.join ":" (first :: more))
      = .ofWord first :: more.flatMap fun n => [.symbol .colon, .identifier n] := by
  have hwords : ∀ n ∈ first :: more, isWord n = true :=
    List.forall_mem_cons.mpr ⟨h, fun n hn => (Bool.and_eq_true_iff.mp (hmore n hn)).1⟩
  -- the text begins as its first name does
  obtain ⟨c, cs, hfirst, hstart, -⟩ := isWord_iff.mp h
  obtain ⟨rest, htext⟩ : ∃ rest, (Text.join ":" (first :: more)).toList = c :: rest := by
    cases more with
    | nil => exact ⟨cs, hfirst⟩
    | cons m more =>
      rw [Text.toList_join_cons_cons, hfirst]
      exact ⟨_, rfl⟩
  obtain ⟨-, -, hminus, -, hdigit⟩ := Scan.wordStart_free hstart
  have hsign : splitSign (c :: rest) = ([], c :: rest) := by
    rw [splitSign]
    intro rest' heq
    exact hminus (List.cons.inj heq).1
  have hany : ¬ ((c :: rest).head?.any Text.isDigit) = true := by simp [hdigit]
  have hsplit := splitOn_join (List.cons_ne_nil first more) hwords
  rw [htext] at hsplit
  rw [plainTokens, htext, hsign]
  dsimp only
  rw [if_neg hany, hsplit, List.map_map, List.map_cons, separated]
  simp only [Function.comp_apply, String.ofList_toList, List.flatMap_map]
  have hparts : more.map (fun n => [.symbol .colon, Token.ofWord n])
      = more.map fun n => [.symbol .colon, .identifier n] :=
    List.map_congr_left fun n hn => by rw [Token.ofWord_of_isIdentifier (hmore n hn)]
  exact congrArg (fun parts => Token.ofWord first :: List.flatten parts) hparts

/-! ## The tokens of a printed text -/

open Scan in
/-- **A line has the tokens it was printed from.** -/
theorem tokens?_printLine {ts : List Token} (h : ∀ t ∈ ts, t.IsPrintable) :
    tokens? (printLine ts).toList = some ts := by
  unfold printLine
  induction ts with
  | nil => exact tokens?_nil
  | cons t ts ih =>
    rw [List.forall_mem_cons] at h
    have hrest := ih h.2
    cases ts with
    | nil =>
      have hstop : Stops t [] := IsSeam.stops (by simp [IsSeam]) t
      have hline := tokens?_of_spells h.1 hstop
      rwa [List.append_nil, tokens?_nil] at hline
    | cons u us =>
      have hseam : ∀ cs, Stops t (' ' :: cs) :=
        fun cs => (isSeam_of_blank (by decide) cs).stops t
      rw [List.map_cons, List.map_cons, Text.toList_join_cons_cons]
      refine (tokens?_of_spells h.1 (hseam _)).trans ?_
      rw [tokens?_of_blank (by decide)]
      exact congrArg (Option.map (t :: ·)) hrest

/-- **A printed text has the tokens of its definitions.** -/
theorem tokens?_print {ds : List Definition} (h : ∀ d ∈ ds, ∀ t ∈ d.tokens, t.IsPrintable) :
    Scan.tokens? (print ds).toList = some (ds.flatMap (·.tokens)) := by
  unfold print
  induction ds with
  | nil => exact Scan.tokens?_nil
  | cons d ds ih =>
    rw [List.forall_mem_cons] at h
    have hline := tokens?_printLine h.1
    have hrest := ih h.2
    cases ds with
    | nil => rwa [List.flatMap_singleton]
    | cons e es =>
      rw [List.map_cons, List.map_cons, Text.toList_join_cons_cons]
      refine (Scan.tokens?_append hline _).trans ?_
      exact congrArg (Option.map (d.tokens ++ ·)) hrest

end IntentContract
