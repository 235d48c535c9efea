import IntentContract.Token.Scan

/-!
# What spells a token

The scanner takes a lexeme off the front of a text and looks at what follows to
know where to end. This module separates the two. `Spells` is the lexical
grammar: which characters spell which token, said without any text around them.
`Stops` says which text behind a lexeme does not prolong it. Scanning is exactly
their conjunction (`lexeme_eq_ok_iff`), so a lexeme may be carried to any other
place where the text behind it stops it too – which is what every statement
about spacing and about seams between texts rests on.
-/

namespace IntentContract.Scan

/-! ## The lexical grammar -/

/-- A sign in front of a number: none, or a minus. -/
def IsSign (sign : List Char) : Prop :=
  sign = [] ∨ sign = ['-']

/-- A run of digits that is not empty. -/
def IsDigits (ds : List Char) : Prop :=
  ds ≠ [] ∧ ∀ d ∈ ds, Text.isDigit d = true

/-- **The lexical grammar**: the characters that spell a token. -/
inductive Spells : List Char → Token → Prop where
  /-- A string literal has no escapes, and so no quote inside. -/
  | string {content : List Char} (h : '"' ∉ content) :
      Spells ('"' :: content ++ ['"']) (.string (String.ofList content))
  | ellipsis : Spells ['.', '.', '.'] (.symbol .ellipsis)
  | symbol {c : Char} {s : Symbol} (h : Symbol.ofChar? c = some s) :
      Spells [c] (.symbol s)
  | word {c : Char} {cs : List Char} (hc : isWordStart c = true)
      (hcs : ∀ d ∈ cs, isWordPart d = true) :
      Spells (c :: cs) (.ofWord (String.ofList (c :: cs)))
  /-- A whole number is a token only in the range of integers. -/
  | integer {sign whole : List Char} (hs : IsSign sign) (hw : IsDigits whole)
      (hr : inIntegerRange (signed sign (Text.digitsValue whole)) = true) :
      Spells (sign ++ whole) (.integer (signed sign (Text.digitsValue whole)))
  | float {sign whole fraction : List Char} (hs : IsSign sign)
      (hw : IsDigits whole) (hf : IsDigits fraction) :
      Spells (sign ++ whole ++ '.' :: fraction)
        (.float (.ofDecimal (!sign.isEmpty) (Text.digitsValue (whole ++ fraction))
          (-(fraction.length : Int))))

/-- **Where a lexeme ends**: the text behind it does not prolong it. -/
def Stops : Token → List Char → Prop
  | .string _, _ => True
  | .symbol _, _ => True
  | .keyword _, rest => ∀ c ∈ rest.head?, isWordPart c = false
  | .identifier _, rest => ∀ c ∈ rest.head?, isWordPart c = false
  | .integer _, rest =>
    (∀ c ∈ rest.head?, Text.isDigit c = false) ∧ pointDigits? rest = none
  | .float _, rest => ∀ c ∈ rest.head?, Text.isDigit c = false

/-- A word, keyword or not, ends where no character of a word follows. -/
theorem stops_ofWord {word : String} {rest : List Char} :
    Stops (.ofWord word) rest ↔ ∀ c ∈ rest.head?, isWordPart c = false := by
  unfold Token.ofWord
  split <;> exact Iff.rfl

/-! ## Runs of a class -/

section Runs

variable {α : Type} {p : α → Bool}

/-- A run of a class, up to where the class ends, is what is split off, and what
stands behind it is what is left over. -/
theorem span_run {run rest : List α} (h : ∀ d ∈ run, p d = true)
    (hr : ∀ c ∈ rest.head?, p c = false) :
    (run ++ rest).takeWhile p = run ∧ (run ++ rest).dropWhile p = rest := by
  rw [List.takeWhile_append_of_pos h, List.dropWhile_append_of_pos h]
  cases rest with
  | nil => simp
  | cons c cs =>
    have hc : ¬ p c = true := by rw [hr c rfl]; exact Bool.false_ne_true
    rw [List.takeWhile_cons_of_neg hc, List.dropWhile_cons_of_neg hc]
    simp

/-- What is left over does not go on with the class. -/
theorem head_dropWhile (p : α → Bool) (cs : List α) :
    ∀ c ∈ (cs.dropWhile p).head?, p c = false := by
  intro c hc
  have hnot := List.head?_dropWhile_not p cs
  rw [Option.mem_def.mp hc] at hnot
  simpa using hnot

/-- What is split off is all of the class. -/
theorem forall_takeWhile (p : α → Bool) (cs : List α) :
    ∀ c ∈ cs.takeWhile p, p c = true :=
  List.all_eq_true.mp List.all_takeWhile

end Runs

/-! ## Numbers -/

section Numbers

variable {sign whole fraction rest : List Char}

/-- A run of digits in front of anything else is split off whole. -/
theorem spanDigits_run (hw : IsDigits whole)
    (hr : ∀ c ∈ rest.head?, Text.isDigit c = false) :
    Text.spanDigits (whole ++ rest) = (whole, rest) := by
  obtain ⟨htake, hdrop⟩ := span_run hw.2 hr
  rw [Text.spanDigits, htake, hdrop]

/-- No digits are taken behind a point exactly if a digit does not follow one. -/
theorem pointDigits?_eq_none_iff {cs : List Char} :
    pointDigits? cs = none ↔ ∀ d ds, cs = '.' :: d :: ds → Text.isDigit d = false := by
  unfold pointDigits?
  split
  · next d ds =>
    constructor
    · rintro h d' ds' heq
      obtain ⟨rfl, rfl⟩ : d = d' ∧ ds = ds' := by simpa using heq
      simpa using h
    · intro h
      simp [h d ds rfl]
  · next hno =>
    exact ⟨fun _ d ds heq => absurd heq (hno d ds), fun _ => rfl⟩

/-- Digits behind a point are taken to their end. -/
theorem pointDigits?_run (hf : IsDigits fraction)
    (hr : ∀ c ∈ rest.head?, Text.isDigit c = false) :
    pointDigits? ('.' :: (fraction ++ rest)) = some (fraction, rest) := by
  obtain ⟨hne, hd⟩ := hf
  cases fraction with
  | nil => exact absurd rfl hne
  | cons d ds =>
    have hspan := spanDigits_run ⟨hne, hd⟩ hr
    rw [List.cons_append] at hspan ⊢
    rw [pointDigits?, if_pos (hd d List.mem_cons_self), hspan]

/-- Digits that no point and digit follow are read as a whole number, which has to be in the
range. -/
theorem number_whole (hw : IsDigits whole) (hstop : ∀ c ∈ rest.head?, Text.isDigit c = false)
    (hpoint : pointDigits? rest = none) :
    number sign (whole ++ rest)
      = if inIntegerRange (signed sign (Text.digitsValue whole)) = true then
          .ok (.integer (signed sign (Text.digitsValue whole)), sign ++ whole, rest)
        else .error (.integerRange (String.ofList (sign ++ whole))) := by
  simp only [number, spanDigits_run hw hstop, hpoint]

/-- A number with a point and digits behind it is read as a fractional one. -/
theorem number_float (hw : IsDigits whole) (hf : IsDigits fraction)
    (hstop : ∀ c ∈ rest.head?, Text.isDigit c = false) :
    number sign (whole ++ '.' :: (fraction ++ rest))
      = .ok (.float (.ofDecimal (!sign.isEmpty)
          (Text.digitsValue (whole ++ fraction)) (-(fraction.length : Int))),
        sign ++ whole ++ '.' :: fraction, rest) := by
  have hspan : Text.spanDigits (whole ++ '.' :: (fraction ++ rest))
      = (whole, '.' :: (fraction ++ rest)) :=
    spanDigits_run hw (fun c hc => by
      obtain rfl : '.' = c := by simpa using hc
      decide)
  simp only [number, hspan, pointDigits?_run hf hstop]

/-- A text that starts with a digit starts with a run of them. -/
theorem spanDigits_cons {d : Char} (hd : Text.isDigit d = true) (cs : List Char) :
    ∃ whole rest, Text.spanDigits (d :: cs) = (whole, rest) ∧ IsDigits whole
      ∧ ∀ c ∈ rest.head?, Text.isDigit c = false := by
  refine ⟨_, _, rfl, ⟨?_, forall_takeWhile _ _⟩, head_dropWhile _ _⟩
  rw [List.takeWhile_cons_of_pos hd]
  exact List.cons_ne_nil _ _

/-- Digits found behind a point are a run of them, and end there. -/
theorem isDigits_of_pointDigits? {cs : List Char}
    (h : pointDigits? cs = some (fraction, rest)) :
    IsDigits fraction ∧ ∀ c ∈ rest.head?, Text.isDigit c = false := by
  unfold pointDigits? at h
  split at h
  · next d ds =>
    split at h
    · next hd =>
      obtain ⟨ds', rest', hspan, hds, hstop⟩ := spanDigits_cons hd ds
      rw [hspan, Option.some.injEq, Prod.mk.injEq] at h
      obtain ⟨rfl, rfl⟩ := h
      exact ⟨hds, hstop⟩
    · cases h
  · cases h

/-- **What is read as a number spells one**, and the text behind stops it. -/
theorem spells_of_number {d : Char} {cs lex : List Char} {t : Token}
    (hs : IsSign sign) (hd : Text.isDigit d = true)
    (h : number sign (d :: cs) = .ok (t, lex, rest)) :
    Spells lex t ∧ Stops t rest := by
  obtain ⟨whole, rest', hspan, hwhole, hstop⟩ := spanDigits_cons hd cs
  simp only [number, hspan] at h
  split at h
  · next hp =>
    obtain ⟨hf, hstop'⟩ := isDigits_of_pointDigits? hp
    simp only [Except.ok.injEq, Prod.mk.injEq] at h
    obtain ⟨rfl, rfl, rfl⟩ := h
    exact ⟨.float hs hwhole hf, hstop'⟩
  · next hp =>
    split at h
    · next hrange =>
      simp only [Except.ok.injEq, Prod.mk.injEq] at h
      obtain ⟨rfl, rfl, rfl⟩ := h
      exact ⟨.integer hs hwhole hrange, hstop, hp⟩
    · cases h

end Numbers

/-! ## First characters

The first character of a lexeme says what kind of lexeme it is. -/

/-- The characters of words by their numbers. -/
theorem isWordStart_iff {c : Char} :
    isWordStart c = true ↔ (65 ≤ c.toNat ∧ c.toNat ≤ 90)
      ∨ (97 ≤ c.toNat ∧ c.toNat ≤ 122) ∨ c = '_' := by
  show ((decide ('A'.val ≤ c.val ∧ c.val ≤ 'Z'.val)
    || (decide ('a'.val ≤ c.val) && decide (c.val ≤ 'z'.val))) || decide (c = '_')) = true ↔ _
  simp only [Bool.or_eq_true, Bool.and_eq_true, decide_eq_true_eq, UInt32.le_iff_toNat_le,
    or_assoc]
  rfl

/-- A character that begins a word begins nothing else: it is no quote, point,
sign, symbol or digit. -/
theorem wordStart_free {c : Char} (h : isWordStart c = true) :
    c ≠ '"' ∧ c ≠ '.' ∧ c ≠ '-' ∧ Symbol.ofChar? c = none
      ∧ Text.isDigit c = false := by
  have hne : ∀ d : Char, isWordStart d = false → c ≠ d := by
    rintro d hd rfl
    exact absurd h (by rw [hd]; exact Bool.false_ne_true)
  refine ⟨hne _ (by decide), hne _ (by decide), hne _ (by decide), ?_, ?_⟩
  · unfold Symbol.ofChar?
    repeat rw [if_neg (hne _ (by decide))]
  · rw [Bool.eq_false_iff]
    intro hd
    simp only [Text.isDigit, Bool.and_eq_true, decide_eq_true_eq] at hd
    obtain h | h | rfl := isWordStart_iff.mp h
    · omega
    · omega
    · exact absurd hd (by decide)

/-- A character that is a symbol begins nothing else, and no gap either. -/
theorem symbol_free {c : Char} {s : Symbol} (h : Symbol.ofChar? c = some s) :
    c ≠ '"' ∧ c ≠ '.' ∧ c ≠ '-' ∧ c ≠ '/' ∧ Text.isBlank c = false := by
  have hne : ∀ d : Char, Symbol.ofChar? d = none → c ≠ d := by
    rintro d hd rfl
    cases h.symm.trans hd
  refine ⟨hne _ (by decide), hne _ (by decide), hne _ (by decide), hne _ (by decide), ?_⟩
  rw [Bool.eq_false_iff]
  intro hblank
  have hvisible : ∀ d : Char, Text.isBlank d = false → c ≠ d := by
    rintro d hd rfl
    exact absurd hblank (by rw [hd]; exact Bool.false_ne_true)
  have hnone : Symbol.ofChar? c = none := by
    unfold Symbol.ofChar?
    repeat rw [if_neg (hvisible _ (by decide))]
  cases h.symm.trans hnone

/-- A digit begins nothing but a number. -/
theorem digit_free {c : Char} (h : Text.isDigit c = true) :
    c ≠ '"' ∧ c ≠ '.' ∧ c ≠ '-' ∧ Symbol.ofChar? c = none := by
  have hne : ∀ d : Char, Text.isDigit d = false → c ≠ d := by
    rintro d hd rfl
    exact absurd h (by rw [hd]; exact Bool.false_ne_true)
  refine ⟨hne _ (by decide), hne _ (by decide), hne _ (by decide), ?_⟩
  unfold Symbol.ofChar?
  repeat rw [if_neg (hne _ (by decide))]

/-- A later character of a word is one that may begin it, a digit or a dash. -/
theorem isWordPart_iff {c : Char} :
    isWordPart c = true ↔ isWordStart c = true ∨ Text.isDigit c = true ∨ c = '-' := by
  have hdigit : Text.isDigit c = c.isDigit := by
    simp only [Text.isDigit, Char.isDigit, ge_iff_le, UInt32.le_iff_toNat_le]
    rfl
  simp only [isWordPart, isWordStart, Char.isAlphanum, hdigit, Bool.or_eq_true,
    decide_eq_true_eq]
  constructor
  · rintro (((h | h) | h) | h)
    · exact .inl (.inl h)
    · exact .inr (.inl h)
    · exact .inl (.inr h)
    · exact .inr (.inr h)
  · rintro ((h | h) | h | h)
    · exact .inl (.inl (.inl h))
    · exact .inl (.inr h)
    · exact .inl (.inl (.inr h))
    · exact .inr h

/-- A visible character of ASCII is no blank. -/
theorem isBlank_of_visible {c : Char} (hlo : 33 ≤ c.toNat) (hhi : c.toNat ≤ 126) :
    Text.isBlank c = false := by
  simp only [Text.isBlank, Bool.or_eq_false_iff, Bool.and_eq_false_iff,
    beq_eq_false_iff_ne, decide_eq_false_iff_not]
  omega

/-- A character of a word does not begin a gap. -/
theorem visible_of_isWordPart {c : Char} (h : isWordPart c = true) :
    Text.isBlank c = false ∧ c ≠ '/' := by
  refine ⟨?_, by rintro rfl; exact absurd h (by decide)⟩
  obtain h | h | rfl := isWordPart_iff.mp h
  · obtain h | h | rfl := isWordStart_iff.mp h
    · exact isBlank_of_visible (by omega) (by omega)
    · exact isBlank_of_visible (by omega) (by omega)
    · decide
  · simp only [Text.isDigit, Bool.and_eq_true, decide_eq_true_eq] at h
    exact isBlank_of_visible (by omega) (by omega)
  · decide

/-- A number begins with its sign or with a digit, a character of words either
way. -/
theorem first_of_number {sign whole : List Char} (hs : IsSign sign)
    (hw : IsDigits whole) :
    ∃ c cs, sign ++ whole = c :: cs ∧ isWordPart c = true := by
  obtain ⟨hne, hd⟩ := hw
  obtain ⟨d, ds, rfl⟩ := List.exists_cons_of_ne_nil hne
  obtain rfl | rfl := hs
  · exact ⟨d, ds, rfl, isWordPart_iff.mpr (.inr (.inl (hd d List.mem_cons_self)))⟩
  · exact ⟨'-', d :: ds, rfl, by decide⟩

/-- **A lexeme does not begin like a gap**: its first character is neither a blank
nor a slash. -/
theorem Spells.first {lex : List Char} {t : Token} (h : Spells lex t) :
    ∃ c cs, lex = c :: cs ∧ Text.isBlank c = false ∧ c ≠ '/' := by
  cases h with
  | string h => exact ⟨_, _, rfl, by decide, by decide⟩
  | ellipsis => exact ⟨_, _, rfl, by decide, by decide⟩
  | symbol h =>
    obtain ⟨-, -, -, hslash, hblank⟩ := symbol_free h
    exact ⟨_, _, rfl, hblank, hslash⟩
  | word hc hcs => exact ⟨_, _, rfl, visible_of_isWordPart (isWordPart_iff.mpr (.inl hc))⟩
  | integer hs hw hr =>
    obtain ⟨c, cs, heq, hc⟩ := first_of_number hs hw
    exact ⟨c, cs, heq, visible_of_isWordPart hc⟩
  | float hs hw hf =>
    obtain ⟨c, cs, heq, hc⟩ := first_of_number hs hw
    exact ⟨c, _, by rw [heq]; rfl, visible_of_isWordPart hc⟩

/-! ## Lexemes -/

/-- What is read as a lexeme spells its token, and the text behind stops it. -/
theorem spells_of_lexeme {c : Char} {cs lex rest : List Char} {t : Token}
    (h : lexeme c cs = .ok (t, lex, rest)) : Spells lex t ∧ Stops t rest := by
  unfold lexeme at h
  -- the cases are the first characters `lexeme` tells apart, in its order: a quote, a
  -- point, a dash, a symbol, a digit, and one that begins a word
  split at h
  · next hc =>
    split at h
    · next quote rest' hd =>
      have hquote : (quote != '"') = false :=
        head_dropWhile (· != '"') cs quote (by rw [hd]; rfl)
      have hcontent : '"' ∉ cs.takeWhile (· != '"') := by
        intro hmem
        have := forall_takeWhile (· != '"') cs _ hmem
        simp at this
      simp only [Except.ok.injEq, Prod.mk.injEq] at h
      obtain ⟨rfl, rfl, rfl⟩ := h
      obtain rfl : quote = '"' := by simpa using hquote
      subst hc
      exact ⟨.string hcontent, trivial⟩
    · cases h
  · split at h
    · split at h
      · simp only [Except.ok.injEq, Prod.mk.injEq] at h
        obtain ⟨rfl, rfl, rfl⟩ := h
        exact ⟨.ellipsis, trivial⟩
      · cases h
    · split at h
      · split at h
        · split at h
          · next hd => exact spells_of_number (.inr rfl) hd h
          · cases h
        · cases h
      · split at h
        · next hs =>
          simp only [Except.ok.injEq, Prod.mk.injEq] at h
          obtain ⟨rfl, rfl, rfl⟩ := h
          exact ⟨.symbol hs, trivial⟩
        · split at h
          · next hd => exact spells_of_number (.inl rfl) hd h
          · split at h
            · next hw =>
              simp only [Except.ok.injEq, Prod.mk.injEq] at h
              obtain ⟨rfl, rfl, rfl⟩ := h
              exact ⟨.word hw (forall_takeWhile _ _), stops_ofWord.mpr (head_dropWhile _ _)⟩
            · cases h

/-- A text that starts with a sign and digits, or with digits alone, is read as a number. -/
theorem lexeme_of_number {sign whole cs : List Char} {c : Char} (hs : IsSign sign)
    (hw : IsDigits whole) {more : List Char} (hc : sign ++ whole ++ more = c :: cs) :
    lexeme c cs = number sign (whole ++ more) := by
  obtain ⟨hne, hd⟩ := hw
  obtain ⟨d, ds, rfl⟩ := List.exists_cons_of_ne_nil hne
  have hdigit := hd d List.mem_cons_self
  obtain rfl | rfl := hs
  · obtain ⟨rfl, rfl⟩ : d = c ∧ ds ++ more = cs := by simpa using hc
    obtain ⟨h1, h2, h3, h4⟩ := digit_free hdigit
    unfold lexeme
    rw [if_neg h1, if_neg h2, if_neg h3, h4]
    simp only [hdigit, ↓reduceIte]
    rfl
  · obtain ⟨rfl, rfl⟩ : '-' = c ∧ d :: (ds ++ more) = cs := by simpa using hc
    unfold lexeme
    rw [if_neg (by decide), if_neg (by decide), if_pos rfl]
    simp only [hdigit, ↓reduceIte]
    rfl

/-- **Scanning is the lexical grammar with its longest lexeme**: a lexeme is taken
off a text exactly if it spells its token and the text behind stops it. -/
theorem lexeme_eq_ok_iff {c : Char} {cs lex rest : List Char} {t : Token} :
    lexeme c cs = .ok (t, lex, rest)
      ↔ Spells lex t ∧ Stops t rest ∧ lex ++ rest = c :: cs := by
  refine ⟨fun h => ?_, ?_⟩
  · obtain ⟨hspell, hstop⟩ := spells_of_lexeme h
    exact ⟨hspell, hstop, append_of_lexeme h⟩
  · rintro ⟨hspell, hstop, happ⟩
    cases hspell with
    | @string content hq =>
      obtain ⟨rfl, rfl⟩ : '"' = c ∧ content ++ '"' :: rest = cs := by simpa using happ
      have hin : ∀ d ∈ content, (d != '"') = true := by
        intro d hd
        simp only [bne_iff_ne]
        rintro rfl
        exact hq hd
      have hquote : ∀ d ∈ ('"' :: rest).head?, (d != '"') = false := by simp
      obtain ⟨htake, hdrop⟩ := span_run hin hquote
      unfold lexeme
      rw [if_pos rfl, htake, hdrop]
    | ellipsis =>
      obtain ⟨rfl, rfl⟩ : '.' = c ∧ '.' :: '.' :: rest = cs := by simpa using happ
      rfl
    | @symbol d s hs =>
      obtain ⟨rfl, rfl⟩ : d = c ∧ rest = cs := by simpa using happ
      obtain ⟨h1, h2, h3, -⟩ := symbol_free hs
      unfold lexeme
      rw [if_neg h1, if_neg h2, if_neg h3, hs]
    | @word d ds hd hds =>
      obtain ⟨rfl, rfl⟩ : d = c ∧ ds ++ rest = cs := by simpa using happ
      obtain ⟨h1, h2, h3, h4, h5⟩ := wordStart_free hd
      obtain ⟨htake, hdrop⟩ := span_run hds (stops_ofWord.mp hstop)
      unfold lexeme
      rw [if_neg h1, if_neg h2, if_neg h3, h4]
      simp only [h5, hd, htake, hdrop, Bool.false_eq_true, ↓reduceIte]
    | integer hs hw hr =>
      -- a point behind the digits is left alone unless a digit follows, so `...` may stand there
      rw [lexeme_of_number hs hw happ, number_whole hw hstop.1 hstop.2, if_pos hr]
    | @float sign whole fraction hs hw hf =>
      have happ' : sign ++ whole ++ '.' :: (fraction ++ rest) = c :: cs := by
        simpa using happ
      rw [lexeme_of_number hs hw happ', number_float hw hf hstop]

end IntentContract.Scan
